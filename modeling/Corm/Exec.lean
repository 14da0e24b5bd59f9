import Corm.Builder

/-!
# Executing queries

The execution half of `query.c`, over any backend.

* `Backend`: the calls of `corm_backend_t` that executing a query makes, on a state `σ` of the
  database and with results of type `ρ`;
* `find`, `create`, `updateInternal`, `deleteInternal`: one statement, with its hooks;
* `updateBatch`, `deleteBatch`: one statement for each record, in a transaction.

A hook works on the record it is given, not on the database.
-/

namespace Corm

/-- The part of `corm_backend_t` that queries use. -/
structure Backend (σ ρ : Type) where
  type : BackendType
  exec : σ → Text → List Value → Err × σ
  query : σ → Text → List Value → Err × Option ρ × σ
  begin_ : σ → Err × σ
  commit : σ → Err × σ
  rollback : σ → Err × σ
  lastInsertId : σ → ℤ
  rowsAffected : σ → ℤ

/-- What an executing call leaves behind: its result, the query, the record after the hooks, the
number it reports (`insert_id` or `affected`), and the state of the database. -/
structure Done (σ : Type) where
  err : Err
  query : Query
  record : Option Record
  count : Option ℤ
  state : σ

/-- A hook that may be missing, on a record that may be null. -/
def runHook (hook : Option Hook) (record : Option Record) : Err × Option Record :=
  match hook, record with
  | none, _ => (.ok, record)
  | some h, none => (h.onNull, none)
  | some h, some r => ((h.onRecord r).1, some (h.onRecord r).2)

/-- The first field with a flag, as the loops over the fields find it. -/
def softDeleteField (m : Model) : Option Field := m.fields.find? fun f => f.isSoftDelete

/-- The value `corm_delete` writes into a soft-delete field. -/
def tombstone : Value := ⟨.string, false, .s (some "deleted".toList)⟩

variable {σ ρ : Type} (b : Backend σ ρ)

/-- The filter that `corm_find` adds, unless the query is unscoped. -/
def findScope (q : Query) : Query :=
  if q.unscoped then q
  else match softDeleteField q.model with
    | some f => queryWhereNull q f.name
    | none => q

theorem findScope_none {q : Query} (h : softDeleteField q.model = none) : findScope q = q := by
  unfold findScope
  rw [h]
  split <;> rfl

theorem findScope_where (q : Query) : ∃ w, findScope q = { q with where_ := w } := by
  unfold findScope queryWhereNull
  split
  · exact ⟨q.where_, rfl⟩
  · split
    · split
      · split
        · exact ⟨_, rfl⟩
        · exact ⟨q.where_, rfl⟩
      · exact ⟨q.where_, rfl⟩
    · exact ⟨q.where_, rfl⟩

/-- `corm_find`. -/
def find (s : σ) (q : Query) : Err × Option ρ × Query × σ :=
  let q := queryOp (findScope q) .select
  let (err, out, s) := b.query s (buildSql q) q.params
  (err, out, q, s)

/-- The part that `corm_create`, `corm_update_internal` and `corm_delete_internal` share: the before
hook, the statement and its parameters, the number to report, and the after hook. -/
def execWithHooks (before after : Option Hook) (count : σ → ℤ) (bind : Query → Option Record → Query)
    (op : QueryOp) (s : σ) (q : Query) (record : Option Record) : Done σ :=
  match runHook before record with
  | (.ok, record) =>
    let q := queryOp q op
    let sql := buildSql q
    let q := bind q record
    match b.exec s sql q.params with
    | (.ok, s) => ⟨.ok, q, (runHook after record).2, some (count s), s⟩
    | (err, s) => ⟨err, q, record, none, s⟩
  | (err, record) => ⟨err, q, record, none, s⟩

/-- The values that `corm_create` binds. -/
def bindRecord (q : Query) (record : Option Record) : Query :=
  match record with
  | some r => (insertFields q.model).foldl (fun q f => queryBind q (fieldGetValue r f)) q
  | none => q

/-- `corm_create`; `count` is the insert id. -/
def create (s : σ) (q : Query) (record : Record) : Done σ :=
  execWithHooks b q.model.beforeCreate q.model.afterCreate b.lastInsertId bindRecord .insert s q
    (some record)

/-- `corm_update_internal`; `count` is the number of affected rows. -/
def updateInternal (s : σ) (q : Query) (record : Option Record) : Done σ :=
  execWithHooks b q.model.beforeUpdate q.model.afterUpdate b.rowsAffected (fun q _ => q) .update s q
    record

/-- `corm_update`. -/
def update (s : σ) (q : Query) : Done σ := updateInternal b s q none

/-- `corm_delete_internal`: with a soft-delete field it is an update. -/
def deleteInternal (s : σ) (q : Query) (record : Option Record) : Done σ :=
  match softDeleteField q.model with
  | some f => updateInternal b s (querySet q f.name tombstone) record
  | none =>
    execWithHooks b q.model.beforeDelete q.model.afterDelete b.rowsAffected (fun q _ => q) .delete s
      q record

/-- `corm_delete`. -/
def delete (s : σ) (q : Query) : Done σ := deleteInternal b s q none

/-- `corm_create_one`: its result, the insert id and the state. -/
def createOne (s : σ) (m : Model) (record : Record) : Done σ := create b s (queryNew b.type m) record

/-! ## Batches -/

/-- The `pk_field` of the batch functions. -/
def pkField (m : Model) : Option Field := m.fields.find? fun f => f.isPrimary

/-- The condition and the parameter that select the row of a record by its key. -/
def whereKey (q : Query) (pk : Field) (rec : Record) : Query :=
  queryBind (queryWhere q (pk.nm ++ " = ?".toList)) (fieldGetValue rec pk)

/-- The query of one record of `corm_update_batch`. -/
def updateBatchQuery (bt : BackendType) (m : Model) (pk : Field) (rec : Record) : Query :=
  let q := (updateFields m).foldl (fun q f => querySet q f.name (fieldGetValue rec f))
    (queryNew bt m)
  whereKey q pk rec

/-- The query of one record of `corm_delete_batch`. -/
def deleteBatchQuery (bt : BackendType) (m : Model) (pk : Field) (rec : Record) : Query :=
  let q := match softDeleteField m with
    | some f => querySet (queryNew bt m) f.name tombstone
    | none => queryNew bt m
  whereKey q pk rec

/-- The statement of one record of `corm_delete_batch`. -/
def deleteBatchOne (m : Model) (s : σ) (q : Query) (rec : Record) : Done σ :=
  match softDeleteField m with
  | some _ => updateInternal b s q (some rec)
  | none => deleteInternal b s q (some rec)

/-- The loop over the records of a batch, up to the first error, with the number of affected rows. -/
def batchLoop (one : σ → Record → Done σ) (s : σ) (total : ℤ) : List Record → Err × ℤ × σ
  | [] => (.ok, total, s)
  | rec :: recs =>
    match one s rec with
    | ⟨.ok, _, _, count, s⟩ => batchLoop one s (total + count.getD 0) recs
    | ⟨err, _, _, count, s⟩ => (err, total + count.getD 0, s)

/-- The transaction around a batch. The results of `corm_begin`, `corm_commit` and `corm_rollback`
are not looked at. -/
def batchTransaction (one : σ → Record → Done σ) (s : σ) (records : List Record) : Err × ℤ × σ :=
  let s := (b.begin_ s).2
  match batchLoop one s 0 records with
  | (.ok, total, s) => (.ok, total, (b.commit s).2)
  | (err, total, s) => (err, total, (b.rollback s).2)

theorem batchTransaction_eq (one : σ → Record → Done σ) (s : σ) (records : List Record) :
    batchTransaction b one s records =
      let out := batchLoop one (b.begin_ s).2 0 records
      (out.1, out.2.1, if out.1 = .ok then (b.commit out.2.2).2 else (b.rollback out.2.2).2) := by
  unfold batchTransaction
  simp only
  rcases batchLoop one (b.begin_ s).2 0 records with ⟨err, total, s'⟩
  cases err <;> rfl

/-- `corm_update_batch`. -/
def updateBatch (s : σ) (m : Model) (records : List Record) : Err × ℤ × σ :=
  if records = [] then (.null, 0, s)
  else match pkField m with
    | none => (.mismatch, 0, s)
    | some pk =>
      batchTransaction b
        (fun s rec => updateInternal b s (updateBatchQuery b.type m pk rec) (some rec)) s records

/-- `corm_delete_batch`. -/
def deleteBatch (s : σ) (m : Model) (records : List Record) : Err × ℤ × σ :=
  if records = [] then (.null, 0, s)
  else match pkField m with
    | none => (.mismatch, 0, s)
    | some pk =>
      batchTransaction b
        (fun s rec => deleteBatchOne b m s (deleteBatchQuery b.type m pk rec) rec) s records

end Corm
