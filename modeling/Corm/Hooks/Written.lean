import Corm.Batch.Atomic
import Corm.Create
import Corm.Reuse.Steps

/-!
# What a before hook writes

`corm_update_batch` reads the fields of a record into parameters before `corm_update_internal` calls
the before hook; `corm_create` calls the hook first.

* `setFields`, `params_updateBatchQuery`: the parameters of the statement of a record;
* `create_sends_hooked`: an INSERT has the values that the hook leaves;
* `batchLoop_sent`, `batchStatements_take`: the statements of a batch are those of its first records;
* **`hook_written_iff`**: an UPDATE has the values that the hook leaves when it leaves them as they
  were, and an INSERT in any case.
-/

namespace Corm

variable {σ ρ : Type} {m : Model} {hook : Hook} {pk : Field} {rec : Record} {recs : List Record}

/-! ## The parameters of a statement -/

/-- `corm_query_set` ignores a field whose name is not valid. -/
def settable (f : Field) : Bool := isValidIdentifier f.name

/-- The fields that `corm_update_batch` sets. -/
def setFields (m : Model) : List Field := (updateFields m).filter settable

theorem params_querySet (q : Query) (f : Field) (v : Value) :
    (querySet q f.name v).params = q.params ++ if settable f then [v] else [] := by
  unfold querySet settable
  cases hn : f.name with
  | none => simp [isValidIdentifier]
  | some s =>
    by_cases hs : isValidIdentifier (some s) = true
    · simp only [if_pos hs]
      rfl
    · simp only [if_neg hs, List.append_nil]

theorem params_foldl_querySet (g : Field → Value) (fs : List Field) (q : Query) :
    (fs.foldl (fun q f => querySet q f.name (g f)) q).params =
      q.params ++ (fs.filter settable).map g := by
  induction fs generalizing q with
  | nil => simp
  | cons f fs ih =>
    rw [List.foldl_cons, ih, params_querySet, List.append_assoc]
    by_cases hf : settable f = true
    · rw [if_pos hf, List.filter_cons_of_pos hf, List.map_cons, List.singleton_append]
    · rw [if_neg hf, List.filter_cons_of_neg hf, List.nil_append]

/-- The values of the record as it is passed to `corm_update_batch`, and its key. -/
theorem params_updateBatchQuery (bt : BackendType) (m : Model) (pk : Field) (rec : Record) :
    (updateBatchQuery bt m pk rec).params =
      (setFields m).map (fieldGetValue rec) ++ [fieldGetValue rec pk] := by
  simp only [updateBatchQuery, whereKey, queryBind, queryWhere]
  rw [params_foldl_querySet]
  rfl

/-- **An INSERT has the values that the before hook leaves.** -/
theorem create_sends_hooked (q : Query) (hh : q.model.beforeCreate = some hook)
    (hok : (hook.onRecord rec).1 = .ok) :
    (Step.create rec).sent q = ([(buildSql (queryOp q .insert), q.params ++
      (insertFields q.model).map (fieldGetValue (hook.onRecord rec).2))],
      { queryOp q .insert with params := q.params ++
        (insertFields q.model).map (fieldGetValue (hook.onRecord rec).2) }) := by
  have hrun : runHook q.model.beforeCreate (some rec) = (.ok, some (hook.onRecord rec).2) := by
    rw [hh, runHook, hok]
  simp only [Step.sent, hooked, hrun]
  rw [bindRecord, foldl_queryBind]
  rfl

/-! ## The statements of a batch -/

variable (b : Backend σ ρ) (s : σ)

/-- The statements that `corm_update_batch` executes, with their parameters. -/
def batchStatements (m : Model) (recs : List Record) : List (Text × List Value) :=
  (updateBatch b.logged (s, []) m recs).2.2.2

/-- The statement of a record whose hook does not veto it. -/
def recordStatement (bt : BackendType) (m : Model) (pk : Field) (rec : Record) :
    Text × List Value :=
  let q := queryOp (updateBatchQuery bt m pk rec) .update
  (buildSql q, q.params)

/-- A statement that binds nothing, with its hooks: it is logged unless the before hook vetoes it, and
a veto is an error. -/
theorem hooks_logged (before after : Option Hook) (count : σ × List (Text × List Value) → ℤ)
    (op : QueryOp) (s : σ × List (Text × List Value)) (q : Query) (record : Option Record) :
    let d := execWithHooks b.logged before after count (fun q _ => q) op s q record
    d.state.2 = s.2 ++ (if (runHook before record).1 = .ok then
      [(buildSql (queryOp q op), q.params)] else []) ∧
    ((runHook before record).1 ≠ .ok → d.err ≠ .ok) := by
  have hlog := (logs_hooks b before after count (fun q _ => q) op s q record).2
  refine ⟨hlog.trans (congrArg _ ?_), fun hveto => ?_⟩
  · unfold hooked
    rcases runHook before record with ⟨err, record'⟩
    cases err <;> rfl
  · unfold execWithHooks
    rcases hr : runHook before record with ⟨err, record'⟩
    rw [hr] at hveto
    cases err with
    | ok => exact absurd rfl hveto
    | _ => exact hveto

variable {s}

/-- **The statements of a loop** over the records of a batch, each sent unless the hook vetoes it, are
those of the first records: none when the first is vetoed. -/
theorem batchLoop_sent {hook : Option Hook} {stmt : Record → Text × List Value}
    {one : σ × List (Text × List Value) → Record → Done (σ × List (Text × List Value))}
    (hone : ∀ s rec, (one s rec).state.2 =
      s.2 ++ (if (runHook hook (some rec)).1 = .ok then [stmt rec] else []) ∧
      ((runHook hook (some rec)).1 ≠ .ok → (one s rec).err ≠ .ok))
    (s : σ × List (Text × List Value)) (total : ℤ) (recs : List Record) :
    ∃ k ≤ recs.length, (batchLoop one s total recs).2.2.2 = s.2 ++ (recs.take k).map stmt ∧
      (k = 0 ↔ ∀ rec ∈ recs.head?, (runHook hook (some rec)).1 ≠ .ok) := by
  induction recs generalizing s total with
  | nil => exact ⟨0, le_rfl, (List.append_nil _).symm, by simp⟩
  | cons rec recs ih =>
    obtain ⟨hlog, hveto⟩ := hone s rec
    have hhead : (∀ r ∈ (rec :: recs).head?, (runHook hook (some r)).1 ≠ .ok) ↔
        (runHook hook (some rec)).1 ≠ .ok := by simp
    rw [batchLoop]
    rcases hd : one s rec with ⟨err, q, record, count, s'⟩
    rw [hd] at hlog hveto
    by_cases hok : (runHook hook (some rec)).1 = .ok
    · rw [if_pos hok] at hlog
      have hsome (k : ℕ) : k + 1 = 0 ↔
          ∀ r ∈ (rec :: recs).head?, (runHook hook (some r)).1 ≠ .ok :=
        iff_of_false (Nat.succ_ne_zero k) fun h => hhead.mp h hok
      cases err with
      | ok =>
        obtain ⟨k, hk, heq, -⟩ := ih s' (total + count.getD 0)
        refine ⟨k + 1, Nat.succ_le_succ hk, heq.trans ?_, hsome k⟩
        rw [show s'.2 = _ from hlog, List.take_succ_cons, List.map_cons, List.append_assoc,
          List.singleton_append]
      | _ => exact ⟨1, Nat.succ_le_succ (Nat.zero_le _), hlog, hsome 0⟩
    · rw [if_neg hok] at hlog
      have herr : err ≠ .ok := hveto hok
      refine ⟨0, Nat.zero_le _, ?_, iff_of_true rfl (hhead.mpr hok)⟩
      cases err with
      | ok => exact absurd rfl herr
      | _ => exact hlog

theorem updateInternal_logged (s : σ × List (Text × List Value)) (rec : Record) :
    let d := updateInternal b.logged s (updateBatchQuery b.type m pk rec) (some rec)
    d.state.2 = s.2 ++ (if (runHook m.beforeUpdate (some rec)).1 = .ok then
      [recordStatement b.type m pk rec] else []) ∧
    ((runHook m.beforeUpdate (some rec)).1 ≠ .ok → d.err ≠ .ok) := by
  have hmodel : (updateBatchQuery b.type m pk rec).model = m :=
    model_query b.type m pk rec .update
  unfold updateInternal
  rw [hmodel]
  exact hooks_logged b m.beforeUpdate m.afterUpdate b.logged.rowsAffected .update s _ (some rec)

variable {b}

/-- **The statements of a batch** are those of its first records. -/
theorem batchStatements_take (hpk : pkField m = some pk) (recs : List Record) :
    ∃ k ≤ recs.length, batchStatements b s m recs =
      (recs.take k).map (recordStatement b.type m pk) ∧
      (k = 0 ↔ ∀ rec ∈ recs.head?, (runHook m.beforeUpdate (some rec)).1 ≠ .ok) := by
  unfold batchStatements updateBatch
  split_ifs with hnil
  · subst hnil
    exact ⟨0, Nat.zero_le _, rfl, by simp⟩
  · simp only [hpk]
    rw [batchTransaction_eq]
    obtain ⟨k, hk, heq, hzero⟩ :=
      batchLoop_sent (updateInternal_logged b) (b.logged.begin_ (s, [])).2 0 recs
    refine ⟨k, hk, Eq.trans ?_ heq, hzero⟩
    simp only
    split_ifs <;> rfl

theorem batchStatements_eq (hpk : pkField m = some pk)
    (hhook : ∀ rec, (runHook m.beforeUpdate (some rec)).1 = .ok) (recs : List Record) :
    ∃ k ≤ recs.length, batchStatements b s m recs =
      (recs.take k).map (recordStatement b.type m pk) ∧ (k = 0 ↔ recs = []) := by
  obtain ⟨k, hk, hstmts, hzero⟩ := batchStatements_take (b := b) (s := s) hpk recs
  refine ⟨k, hk, hstmts, hzero.trans ?_⟩
  cases recs with
  | nil => simp
  | cons rec recs => simp [hhook rec]

/-- The values that a statement of `corm_update_batch` sets: its parameters before the key. -/
def setValues (e : Text × List Value) : List Value := e.2.dropLast

theorem setValues_recordStatement (bt : BackendType) (m : Model) (pk : Field) (rec : Record) :
    setValues (recordStatement bt m pk rec) = (setFields m).map (fieldGetValue rec) := by
  have hparams : (recordStatement bt m pk rec).2 = (updateBatchQuery bt m pk rec).params := rfl
  rw [setValues, hparams, params_updateBatchQuery, List.dropLast_concat]

theorem zip_map_take {α β : Type} (g : α → β) (l : List α) (k : ℕ) :
    l.zip ((l.take k).map g) = (l.take k).map fun a => (a, g a) := by
  induction l generalizing k with
  | nil => simp
  | cons a l ih =>
    cases k with
    | zero => rfl
    | succ k => rw [List.take_succ_cons, List.map_cons, List.zip_cons_cons, ih, List.map_cons]

/-- **The SET values of every executed statement are those that the before hook leaves** exactly when
it leaves the fields of every such record as they were. The values of an INSERT always are. -/
theorem hook_written_iff (b : Backend σ ρ) (s : σ) (hh : m.beforeUpdate = some hook)
    (hok : ∀ r, (hook.onRecord r).1 = .ok) (recs : List Record) :
    ((∀ p ∈ recs.zip (batchStatements b s m recs),
      setValues p.2 = (setFields m).map (fieldGetValue (hook.onRecord p.1).2)) ↔
    ∀ rec ∈ recs.take (batchStatements b s m recs).length, ∀ f ∈ setFields m,
      fieldGetValue (hook.onRecord rec).2 f = fieldGetValue rec f) ∧
    ∀ (q : Query) (create : Hook) (rec : Record), q.model.beforeCreate = some create →
      (create.onRecord rec).1 = .ok → ((Step.create rec).sent q).1.map Prod.snd =
        [q.params ++ (insertFields q.model).map (fieldGetValue (create.onRecord rec).2)] := by
  refine ⟨?_, fun q create rec hcreate hsend => by rw [create_sends_hooked q hcreate hsend]; rfl⟩
  have hhook : ∀ rec, (runHook m.beforeUpdate (some rec)).1 = .ok := by
    intro rec
    rw [hh]
    exact hok rec
  cases hpk : pkField m with
  | none =>
    have hnone : batchStatements b s m recs = [] := by
      unfold batchStatements updateBatch
      split_ifs
      · rfl
      · simp only [hpk]
    simp [hnone]
  | some pk =>
    obtain ⟨k, hk, hstmts, -⟩ := batchStatements_eq (b := b) (s := s) hpk hhook recs
    rw [hstmts, zip_map_take, List.length_map, List.length_take, Nat.min_eq_left hk,
      List.forall_mem_map]
    refine forall₂_congr fun rec _ => ?_
    rw [setValues_recordStatement, List.map_inj_left]
    exact ⟨fun h f hf => (h f hf).symm, fun h f hf => (h f hf).symm⟩

/-! ## A time stamp -/

/-- A counter that the before hook sets to 1. -/
def stampField : Field := ⟨some "stamp".toList, .int, 4, 0⟩

/-- The hook. -/
def stampHook : Hook := ⟨.ok, fun r => (.ok, Function.update r stampField (1 : Int32))⟩

/-- A model with a key and the counter. -/
def stampModel : Model where
  tableName := some "stamps".toList
  structSize := 8
  fields := [⟨some "id".toList, .int, 4, 3⟩, stampField]
  primaryKey := some ⟨some "id".toList, .int, 4, 3⟩
  primaryKey_mem := by simp
  beforeCreate := none
  afterCreate := none
  beforeUpdate := some stampHook
  afterUpdate := none
  beforeDelete := none
  afterDelete := none
  afterFind := none

/-- **The change of the hook is not written.** -/
theorem hook_unwritten_stamp :
    ¬ ∀ p ∈ [zeroRecord].zip (batchStatements (recorder .sqlite) [] stampModel [zeroRecord]),
      setValues p.2 = (setFields stampModel).map (fieldGetValue (stampHook.onRecord p.1).2) := by
  intro h
  have hstmts : batchStatements (recorder .sqlite) [] stampModel [zeroRecord] =
      [("UPDATE \"stamps\" SET \"stamp\" = ? WHERE id = ?".toList,
        [⟨.int, false, .i 0⟩, ⟨.int, false, .i 0⟩])] := by
    decide +kernel
  rw [hstmts] at h
  have hset := h _ List.mem_cons_self
  exact absurd hset (by decide +kernel)

theorem hook_written_iff_stamp :
    ((∀ p ∈ [zeroRecord].zip (batchStatements (recorder .sqlite) [] stampModel [zeroRecord]),
      setValues p.2 = (setFields stampModel).map (fieldGetValue (stampHook.onRecord p.1).2)) ↔
    ∀ rec ∈ [zeroRecord].take
        (batchStatements (recorder .sqlite) [] stampModel [zeroRecord]).length,
      ∀ f ∈ setFields stampModel,
        fieldGetValue (stampHook.onRecord rec).2 f = fieldGetValue rec f) ∧
    ∀ (q : Query) (create : Hook) (rec : Record), q.model.beforeCreate = some create →
      (create.onRecord rec).1 = .ok → ((Step.create rec).sent q).1.map Prod.snd =
        [q.params ++ (insertFields q.model).map (fieldGetValue (create.onRecord rec).2)] :=
  hook_written_iff (recorder .sqlite) [] rfl (fun _ => rfl) [zeroRecord]

end Corm
