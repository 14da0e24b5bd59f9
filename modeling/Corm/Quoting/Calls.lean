import Corm.Hooks.Written
import Corm.Migration.Idempotent
import Corm.Quoting.Migrations
import Corm.Quoting.Traced

/-!
# Names in what the library sends

* `updateTraced`, `deletedSpans`: the statements of the batch functions; `unquoted_updateTraced`,
  `unquoted_deletedSpans`: they have the key without quotes;
* `ModelCall`, `ModelCall.sent`, `ModelCall.statements`: the calls that make statements from a model,
  with what is sent, and with its spans;
* **`names_quoted_iff`**: when a call sends no name without quotes.
-/

namespace Corm

open Spans (Span)

variable {σ : Type} {bt : BackendType} {m : Model} {pk f : Field} {rec : Record}

/-! ## Batches -/

section Batches

variable (b : Backend σ Result) (s : σ) (bt : BackendType) (m : Model) (pk : Field) (rec : Record)

/-- The operation of `corm_delete_batch`. -/
def deleteOp : QueryOp := if softDeleteField m = none then .delete else .update

/-- The hook that `corm_delete_batch` runs before the statement of a record. -/
def deleteHook : Option Hook :=
  if softDeleteField m = none then m.beforeDelete else m.beforeUpdate

/-- The statement that `corm_delete_batch` has for a record. -/
def deletedStatement : Text × List Value :=
  let q := queryOp (deleteBatchQuery bt m pk rec) (deleteOp m)
  (buildSql q, q.params)

/-- The statements that `corm_delete_batch` executes, with their parameters. -/
def deleteStatements (recs : List Record) : List (Text × List Value) :=
  (deleteBatch b.logged (s, []) m recs).2.2.2

/-- The query of a record of `corm_update_batch`. -/
def updateTraced : Traced :=
  ((updateFields m).foldl (fun (t : Traced) f => t.set f (fieldGetValue rec f))
    (Traced.given (queryNew bt m))).whereKey pk rec

/-- The query of a record of `corm_delete_batch`. -/
def deleteTraced : Traced :=
  (match softDeleteField m with
    | some f => (Traced.given (queryNew bt m)).set f tombstone
    | none => .given (queryNew bt m)).whereKey pk rec

/-- The statement of a record of `corm_delete_batch`. -/
def deletedSpans : Written :=
  if softDeleteField m = none then (deleteTraced bt m pk rec).delete
  else (deleteTraced bt m pk rec).update

end Batches

theorem query_whereKey (t : Traced) : (t.whereKey pk rec).query = whereKey t.query pk rec := by
  unfold Traced.whereKey
  split_ifs <;> rfl

theorem query_updateTraced : (updateTraced bt m pk rec).query = updateBatchQuery bt m pk rec := by
  have hfold (fs : List Field) (t : Traced) :
      (fs.foldl (fun (t : Traced) f => t.set f (fieldGetValue rec f)) t).query =
        fs.foldl (fun q f => querySet q f.name (fieldGetValue rec f)) t.query := by
    induction fs generalizing t with
    | nil => rfl
    | cons f fs ih => rw [List.foldl_cons, List.foldl_cons, ih, t.query_set]
  rw [updateTraced, query_whereKey, hfold]
  rfl

theorem query_deleteTraced : (deleteTraced bt m pk rec).query = deleteBatchQuery bt m pk rec := by
  rw [deleteTraced, query_whereKey, deleteBatchQuery]
  cases softDeleteField m with
  | none => rfl
  | some f => exact congrArg (whereKey · pk rec) (Traced.query_set _ f tombstone)

/-- **The condition on the key** has its name without quotes. -/
theorem unquoted_whereKey (hpk : isValidIdentifier pk.name = true) (t : Traced) :
    ¬ Quoted bt (t.whereKey pk rec).where_ := by
  unfold Traced.whereKey
  rw [dif_pos hpk]
  exact t.unquoted_bareWhere bt pk _

theorem clean_foldl_set {t : Traced} (h : t.Clean bt) (fs : List Field) :
    (fs.foldl (fun (t : Traced) f => t.set f (fieldGetValue rec f)) t).Clean bt := by
  induction fs generalizing t with
  | nil => exact h
  | cons f fs ih => exact ih (h.set f _)

theorem unquoted_key (hpk : isValidIdentifier pk.name = true) {t : Traced} (h : t.Clean bt) :
    ¬ Quoted bt (t.whereKey pk rec).update ∧ ¬ Quoted bt (t.whereKey pk rec).delete := by
  have hbt : (t.whereKey pk rec).query.bt = bt := by
    rw [query_whereKey]
    exact h.bt_eq
  have hsets : Quoted bt (t.whereKey pk rec).sets := by
    unfold Traced.whereKey
    rw [dif_pos hpk]
    exact h.sets
  have hwhere : ¬ Quoted bt (t.whereKey pk rec).where_ := unquoted_whereKey hpk t
  rw [← hbt] at hwhere hsets ⊢
  exact ⟨fun hu => hwhere ((quoted_updateSpans (t.whereKey pk rec).where_text
      (t.whereKey pk rec).where_names hsets).mp hu),
    fun hd => hwhere ((quoted_deleteSpans (t.whereKey pk rec).where_text
      (t.whereKey pk rec).where_names).mp hd)⟩

theorem text_updateTraced : Spans.text (updateTraced bt m pk rec).update =
    (recordStatement bt m pk rec).1 := by
  rw [Traced.text_update, query_updateTraced]
  rfl

theorem text_deletedSpans : Spans.text (deletedSpans bt m pk rec) =
    (deletedStatement bt m pk rec).1 := by
  unfold deletedSpans deletedStatement deleteOp
  split_ifs
  · rw [Traced.text_delete, query_deleteTraced]
    rfl
  · rw [Traced.text_update, query_deleteTraced]
    rfl

theorem unquoted_updateTraced (hpk : isValidIdentifier pk.name = true) :
    ¬ Quoted bt (updateTraced bt m pk rec).update :=
  (unquoted_key hpk (clean_foldl_set (Traced.Clean.given (queryNew bt m)) (updateFields m))).1

theorem unquoted_deletedSpans (hpk : isValidIdentifier pk.name = true) :
    ¬ Quoted bt (deletedSpans bt m pk rec) := by
  have hnew : (Traced.given (queryNew bt m)).Clean bt := Traced.Clean.given (queryNew bt m)
  unfold deletedSpans deleteTraced
  split_ifs with hf
  · rw [hf]
    exact (unquoted_key hpk hnew).2
  · obtain ⟨f, hf⟩ := Option.ne_none_iff_exists'.mp hf
    rw [hf]
    exact (unquoted_key hpk (hnew.set f tombstone)).1

section Sending

variable {b : Backend σ Result}

theorem deleteBatchOne_logged (b : Backend σ Result) (s : σ × List (Text × List Value))
    (rec : Record) :
    let d := deleteBatchOne b.logged m s (deleteBatchQuery b.type m pk rec) rec
    d.state.2 = s.2 ++ (if (runHook (deleteHook m) (some rec)).1 = .ok then
      [deletedStatement b.type m pk rec] else []) ∧
    ((runHook (deleteHook m) (some rec)).1 ≠ .ok → d.err ≠ .ok) := by
  have hmodel : (deleteBatchQuery b.type m pk rec).model = m :=
    model_query b.type m pk rec .delete
  unfold deleteBatchOne deletedStatement deleteHook deleteOp
  cases hf : softDeleteField m with
  | some f =>
    simp only [updateInternal, hmodel, reduceCtorEq, if_false]
    exact hooks_logged b m.beforeUpdate m.afterUpdate b.logged.rowsAffected .update s _ (some rec)
  | none =>
    simp only [deleteInternal, hmodel, hf, if_true]
    exact hooks_logged b m.beforeDelete m.afterDelete b.logged.rowsAffected .delete s _ (some rec)

/-- **The statements of a batch of deletes** are those of its first records. -/
theorem deleteStatements_take {s : σ} (hpk : pkField m = some pk) (recs : List Record) :
    ∃ k ≤ recs.length, deleteStatements b s m recs =
      (recs.take k).map (deletedStatement b.type m pk) ∧
      (k = 0 ↔ ∀ rec ∈ recs.head?, (runHook (deleteHook m) (some rec)).1 ≠ .ok) := by
  unfold deleteStatements deleteBatch
  split_ifs with hnil
  · subst hnil
    exact ⟨0, Nat.zero_le _, rfl, by simp⟩
  · simp only [hpk]
    rw [batchTransaction_eq]
    obtain ⟨k, hk, heq, hzero⟩ :=
      batchLoop_sent (deleteBatchOne_logged b) (b.logged.begin_ (s, [])).2 0 recs
    refine ⟨k, hk, Eq.trans ?_ heq, hzero⟩
    simp only
    split_ifs <;> rfl

theorem batchStatements_noKey {s : σ} (hpk : pkField m = none) (recs : List Record) :
    batchStatements b s m recs = [] := by
  unfold batchStatements updateBatch
  split_ifs
  · rfl
  · simp only [hpk]

theorem deleteStatements_noKey {s : σ} (hpk : pkField m = none) (recs : List Record) :
    deleteStatements b s m recs = [] := by
  unfold deleteStatements deleteBatch
  split_ifs
  · rfl
  · simp only [hpk]

end Sending

/-- The statements of the first `n` records of a batch. -/
def batchSpans (m : Model) (spans : Field → Record → Written) (recs : List Record) (n : ℕ) :
    List Written :=
  match pkField m with
  | some pk => (recs.take n).map (spans pk)
  | none => []

/-- **A batch** sends no name without quotes when it sends nothing. -/
theorem names_batch (hm : Validated m) {stmt : Field → Record → Text × List Value}
    {spans : Field → Record → Written} (htext : ∀ pk rec, Spans.text (spans pk rec) = (stmt pk rec).1)
    (hbare : ∀ pk, isValidIdentifier pk.name = true → ∀ rec, ¬ Quoted bt (spans pk rec))
    {sent : List (Text × List Value)} {recs : List Record} {vetoed : Prop}
    (hnone : pkField m = none → sent = [])
    (hsome : ∀ pk, pkField m = some pk →
      ∃ k ≤ recs.length, sent = (recs.take k).map (stmt pk) ∧ (k = 0 ↔ vetoed)) :
    (batchSpans m spans recs sent.length).map Spans.text = sent.map Prod.fst ∧
      ((∀ l ∈ batchSpans m spans recs sent.length, Quoted bt l) ↔ pkField m = none ∨ vetoed) := by
  unfold batchSpans
  cases hpk : pkField m with
  | none =>
    rw [hnone hpk]
    exact ⟨rfl, iff_of_true (List.forall_mem_nil _) (Or.inl rfl)⟩
  | some pk =>
    have hid := hm.ident pk (pkField_mem hpk)
    obtain ⟨k, hk, hsent, hzero⟩ := hsome pk hpk
    have hlen : sent.length = k := by
      rw [hsent, List.length_map, List.length_take, Nat.min_eq_left hk]
    have hne : ¬ some pk = none := nofun
    simp only [hlen]
    rw [or_iff_right hne, ← hzero]
    refine ⟨?_, fun h => ?_, ?_⟩
    · rw [hsent, List.map_map, List.map_map]
      exact List.map_congr_left fun rec _ => htext pk rec
    · by_contra hpos
      have hlength : 0 < (recs.take k).length := by
        rw [List.length_take, Nat.min_eq_left hk]
        exact Nat.pos_of_ne_zero hpos
      obtain ⟨rec, hrec⟩ := List.exists_mem_of_length_pos hlength
      exact hbare pk hid rec (h _ (List.mem_map_of_mem hrec))
    · rintro rfl
      exact List.forall_mem_nil _

/-! ## Calls -/

/-- A call that makes statements from a model. The clauses of a query hold the caller's text before
its steps, as those of a new or of a reset query do. -/
inductive ModelCall
  | query (q : Query) (steps : List Step)
  | updateBatch (m : Model) (recs : List Record)
  | deleteBatch (m : Model) (recs : List Record)
  | autoMigrate (ms : List TableModel)

namespace ModelCall

/-- The query is one of the database, and the models are validated. -/
def Valid (bt : BackendType) : ModelCall → Prop
  | query q _ => q.bt = bt ∧ validateModel q.model = .ok
  | updateBatch m _ => validateModel m = .ok
  | deleteBatch m _ => validateModel m = .ok
  | autoMigrate ms => ∀ m ∈ ms, validateModel m.model = .ok

section Statements

variable (b : Backend σ Result) (s : σ) (D : MigrationDb) (schema : Sql.Schema)

/-- The texts that the call sends. -/
def sent : ModelCall → List Text
  | query q steps => (runSteps b.logged (s, []) q steps).2.2.map Prod.fst
  | updateBatch m recs => (batchStatements b s m recs).map Prod.fst
  | deleteBatch m recs => (deleteStatements b s m recs).map Prod.fst
  | autoMigrate ms => (Corm.autoMigrate D b.type schema ms).2.sent.flatMap (sentTexts b.type)

/-- The spans of these texts. -/
def statements : ModelCall → List Written
  | query q steps => Corm.statements (Traced.given q) steps
  | updateBatch m recs =>
    batchSpans m (fun pk rec => (updateTraced b.type m pk rec).update) recs
      (batchStatements b s m recs).length
  | deleteBatch m recs =>
    batchSpans m (deletedSpans b.type m) recs (deleteStatements b s m recs).length
  | autoMigrate ms => (Corm.autoMigrate D b.type schema ms).2.sent.flatMap (sentSpans b.type)

/-- The call needs no name that the library writes without quotes: a query is not read with the filter
of a soft-delete field, a batch has no key or its first record is vetoed, and SQLite, which describes
the tables it creates, refuses the first. -/
def NeedsNoBareName : ModelCall → Prop
  | query q steps =>
    q.unscoped = true ∨ softDeleteField q.model = none ∨ readsScoped steps = false
  | updateBatch m recs =>
    pkField m = none ∨ ∀ rec ∈ recs.head?, (runHook m.beforeUpdate (some rec)).1 ≠ .ok
  | deleteBatch m recs =>
    pkField m = none ∨ ∀ rec ∈ recs.head?, (runHook (deleteHook m) (some rec)).1 ≠ .ok
  | autoMigrate ms =>
    b.type = .sqlite → ∀ m ∈ ms.head?, D.run schema (createTableText b.type m) = none

end Statements

end ModelCall

theorem scopes_iff (hm : Validated m) : scopes m = false ↔ softDeleteField m = none := by
  unfold scopes
  cases hf : softDeleteField m with
  | none => simp
  | some f =>
    have hid := hm.ident f (List.mem_of_find?_eq_some hf)
    simp [hid]

/-- **A name without quotes**: what a call sends has the names of the model between the quotes of the
dialect, all of them, exactly when it needs none of those that the library writes without. -/
theorem names_quoted_iff (b : Backend σ Result) (s : σ) (D : MigrationDb) (schema : Sql.Schema)
    (hD : NameLimit D b.type) (c : ModelCall) (hc : c.Valid b.type) :
    (c.statements b s D schema).map Spans.text = c.sent b s D schema ∧
    ((∀ l ∈ c.statements b s D schema, Quoted b.type l) ↔ c.NeedsNoBareName b D schema) := by
  cases c with
  | query q steps =>
    obtain ⟨hbt, hvalid⟩ := hc
    have hscopes := scopes_iff (validated_of_ok hvalid)
    have hclean : (Traced.given q).Clean b.type := hbt ▸ Traced.Clean.given q
    constructor
    · refine (text_statements (Traced.given q) steps).trans ?_
      rw [ModelCall.sent, runSteps_logged]
      rfl
    · refine (quoted_statements hclean steps).trans ?_
      show (!q.unscoped && scopes q.model) = false ∨ _ ↔ _
      rw [ModelCall.NeedsNoBareName, ← hscopes, Bool.and_eq_false_iff, Bool.not_eq_false', or_assoc]
  | updateBatch m recs =>
    exact names_batch (validated_of_ok hc) (fun _ _ => text_updateTraced)
      (fun _ hid _ => unquoted_updateTraced hid) (fun hpk => batchStatements_noKey hpk recs)
      fun _ hpk => batchStatements_take hpk recs
  | deleteBatch m recs =>
    exact names_batch (validated_of_ok hc) (fun _ _ => text_deletedSpans)
      (fun _ hid _ => unquoted_deletedSpans hid) (fun hpk => deleteStatements_noKey hpk recs)
      fun _ hpk => deleteStatements_take hpk recs
  | autoMigrate ms =>
    have hms : ∀ m ∈ ms, Ident m.table := fun m hm => (validated_of_ok (hc m hm)).table
    exact ⟨text_autoMigrate hD hms schema, quoted_autoMigrate D b.type schema ms⟩

/-! ## A reserved word -/

/-- The model of `test_alter_table_with_reserved_word`, with `group` for soft deletes. -/
def reservedModel : Model where
  tableName := some "reserved_test".toList
  structSize := 68
  fields := [⟨some "id".toList, .int, 4, 1⟩, ⟨some "group".toList, .string, 64, 16⟩]
  primaryKey := some ⟨some "id".toList, .int, 4, 1⟩
  primaryKey_mem := by simp
  beforeCreate := none
  afterCreate := none
  beforeUpdate := none
  afterUpdate := none
  beforeDelete := none
  afterDelete := none
  afterFind := none

/-- `corm_find` on a new query. -/
def findReserved : ModelCall := .query (queryNew .sqlite reservedModel) [.find]

theorem findReserved_valid : findReserved.Valid .sqlite := ⟨rfl, by decide +kernel⟩

/-- **It sends a keyword** in the place of the column. -/
theorem name_unquoted_reserved :
    findReserved.Valid .sqlite ∧
    findReserved.sent (silent .sqlite) () sqliteDb emptySchema =
      ["SELECT * FROM \"reserved_test\" WHERE group IS NULL".toList] ∧
    ¬ ∀ l ∈ findReserved.statements (silent .sqlite) () sqliteDb emptySchema, Quoted .sqlite l :=
  ⟨findReserved_valid, by decide +kernel, by decide +kernel⟩

theorem names_quoted_iff_reserved :
    (findReserved.statements (silent .sqlite) () sqliteDb emptySchema).map Spans.text =
      findReserved.sent (silent .sqlite) () sqliteDb emptySchema ∧
    ((∀ l ∈ findReserved.statements (silent .sqlite) () sqliteDb emptySchema, Quoted .sqlite l) ↔
      findReserved.NeedsNoBareName (silent .sqlite) sqliteDb emptySchema) :=
  names_quoted_iff (silent .sqlite) () sqliteDb emptySchema (fun hb => by cases hb) findReserved
    findReserved_valid

/-- What `corm_update_batch` sends for a record of the model, and `corm_auto_migrate` after its CREATE
TABLE. -/
example : (recordStatement .sqlite reservedModel ⟨some "id".toList, .int, 4, 1⟩ zeroRecord).1 =
      "UPDATE \"reserved_test\" SET \"group\" = ? WHERE id = ?".toList ∧
    describeText .sqlite reservedModel.table = "PRAGMA table_info(reserved_test)".toList := by
  decide +kernel

end Corm
