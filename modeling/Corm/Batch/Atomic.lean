import Corm.Batch.Numbers
import Corm.Lib.Ledger

/-!
# All or nothing

`corm_update_batch` and `corm_delete_batch` do not look at the results of `corm_begin` and
`corm_commit`, and roll back whatever transaction is open.

* `Script`, `Script.backend`: a database whose results are given, over the ledger of its changes;
* `run_eq`: the batch functions as one loop of statements with their hooks;
* `batchLoop_ledger`, **`run_ledger`**: the changes that the loop makes, and what a batch leaves;
* **`batch_atomic_iff`**: when a batch is all or nothing.
-/

namespace Corm

/-- The results of a database: of `begin`, and whether it commits a transaction that is open or goes
on with it; of the statements, one after the other; and of `commit`. -/
structure Script where
  type : BackendType
  begin_ : Err
  implicitCommit : Bool
  statement : ℕ → Err
  commit : Err

/-- A statement that was executed. -/
abbrev Change := Text × List Value

/-- The database: the number of statements so far, and the ledger of those that succeeded. -/
def Script.backend (sc : Script) : Backend (ℕ × Ledger Change) Unit where
  type := sc.type
  exec s sql params :=
    if sc.statement s.1 = .ok then (.ok, s.1 + 1, s.2.record (sql, params))
    else (sc.statement s.1, s.1 + 1, s.2)
  query s _ _ := (.ok, none, s)
  begin_ s :=
    if sc.begin_ = .ok then (.ok, s.1, s.2.begin_ sc.implicitCommit) else (sc.begin_, s)
  commit s := if sc.commit = .ok then (.ok, s.1, s.2.commit) else (sc.commit, s)
  rollback s := (.ok, s.1, s.2.rollback)
  lastInsertId _ := 0
  rowsAffected _ := 0

variable {m : Model} {pk : Field} {op : BatchOp} {sc : Script} {recs : List Record} {rec : Record}

/-! ## One loop -/

/-- The statement of a record: a soft delete is an UPDATE. -/
def BatchOp.kind (m : Model) : BatchOp → QueryOp
  | .update => .update
  | .delete => if (softDeleteField m).isSome then .update else .delete

/-- The hook before the statement of a record. -/
def BatchOp.before (m : Model) : BatchOp → Option Hook
  | .update => m.beforeUpdate
  | .delete => if (softDeleteField m).isSome then m.beforeUpdate else m.beforeDelete

/-- The hook after the statement of a record. -/
def BatchOp.after (m : Model) : BatchOp → Option Hook
  | .update => m.afterUpdate
  | .delete => if (softDeleteField m).isSome then m.afterUpdate else m.afterDelete

/-- What happens for one record. -/
def BatchOp.one {σ ρ : Type} (b : Backend σ ρ) (m : Model) (pk : Field) (op : BatchOp) (s : σ)
    (rec : Record) : Done σ :=
  execWithHooks b (op.before m) (op.after m) b.rowsAffected (fun q _ => q) (op.kind m) s
    (op.query b.type m pk rec) (some rec)

theorem model_whereKey (q : Query) (pk : Field) (rec : Record) :
    (whereKey q pk rec).model = q.model := rfl

theorem model_query (bt : BackendType) (m : Model) (pk : Field) (rec : Record) (op : BatchOp) :
    (op.query bt m pk rec).model = m := by
  cases op with
  | update =>
    have hfold (fs : List Field) (q : Query) : (fs.foldl (fun q f =>
        querySet q f.name (fieldGetValue rec f)) q).model = q.model := by
      induction fs generalizing q with
      | nil => rfl
      | cons f fs ih => rw [List.foldl_cons, ih, model_querySet]
    show (updateBatchQuery bt m pk rec).model = m
    rw [updateBatchQuery, model_whereKey, hfold]
    rfl
  | delete =>
    show (deleteBatchQuery bt m pk rec).model = m
    rw [deleteBatchQuery, model_whereKey]
    cases softDeleteField m with
    | none => rfl
    | some f => exact model_querySet _ _ _

/-- **The batch functions are one loop.** -/
theorem run_eq {σ ρ : Type} (b : Backend σ ρ) (s : σ) (op : BatchOp) (hpk : pkField m = some pk)
    (hrecs : recs ≠ []) : op.run b s m recs = batchTransaction b (op.one b m pk) s recs := by
  cases op with
  | update =>
    have hone : (fun s rec => updateInternal b s (updateBatchQuery b.type m pk rec) (some rec)) =
        BatchOp.one b m pk .update := by
      funext s rec
      have hmodel := model_query b.type m pk rec .update
      unfold updateInternal
      rw [show updateBatchQuery b.type m pk rec = BatchOp.query b.type m pk rec .update from rfl,
        hmodel]
      rfl
    show updateBatch b s m recs = _
    rw [updateBatch, if_neg hrecs, hpk, ← hone]
  | delete =>
    have hone : (fun s rec => deleteBatchOne b m s (deleteBatchQuery b.type m pk rec) rec) =
        BatchOp.one b m pk .delete := by
      funext s rec
      have hmodel := model_query b.type m pk rec .delete
      rw [show deleteBatchQuery b.type m pk rec = BatchOp.query b.type m pk rec .delete from rfl]
      unfold deleteBatchOne BatchOp.one BatchOp.before BatchOp.after BatchOp.kind
      cases hf : softDeleteField m with
      | none =>
        simp only [deleteInternal, hmodel, hf]
        rfl
      | some f =>
        simp only [updateInternal, hmodel]
        rfl
    show deleteBatch b s m recs = _
    rw [deleteBatch, if_neg hrecs, hpk, ← hone]

/-! ## Its changes -/

/-- The change of a record: its statement. -/
def BatchOp.change (bt : BackendType) (m : Model) (pk : Field) (op : BatchOp) (rec : Record) :
    Change :=
  let q := queryOp (op.query bt m pk rec) (op.kind m)
  (buildSql q, q.params)

/-- The hook before the statement of a record does not veto it, and the statement succeeds; with the
number of the statement. -/
def Succeeds (sc : Script) (m : Model) (op : BatchOp) (p : Record × ℕ) : Prop :=
  (runHook (op.before m) (some p.1)).1 = .ok ∧ sc.statement p.2 = .ok

theorem one_succeeds (pk : Field) {s : ℕ × Ledger Change} (h : Succeeds sc m op (rec, s.1)) :
    (op.one sc.backend m pk s rec).err = .ok ∧ (op.one sc.backend m pk s rec).state =
      (s.1 + 1, s.2.record (op.change sc.type m pk rec)) := by
  obtain ⟨hhook, hstmt⟩ := h
  have hexec (sql : Text) (params : List Value) : sc.backend.exec s sql params =
      (.ok, s.1 + 1, s.2.record (sql, params)) := if_pos hstmt
  unfold BatchOp.one execWithHooks
  rcases hr : runHook (op.before m) (some rec) with ⟨err, record⟩
  rw [hr] at hhook
  obtain rfl : err = .ok := hhook
  simp only [hexec]
  exact ⟨trivial, rfl⟩

theorem one_fails (pk : Field) {s : ℕ × Ledger Change} (h : ¬ Succeeds sc m op (rec, s.1)) :
    (op.one sc.backend m pk s rec).err ≠ .ok ∧ (op.one sc.backend m pk s rec).state.2 = s.2 := by
  unfold BatchOp.one execWithHooks
  rcases hr : runHook (op.before m) (some rec) with ⟨err, record⟩
  cases err with
  | ok =>
    have hstmt : sc.statement s.1 ≠ .ok := fun hok => h ⟨by rw [hr], hok⟩
    have hexec (sql : Text) (params : List Value) : sc.backend.exec s sql params =
        (sc.statement s.1, s.1 + 1, s.2) := if_neg hstmt
    simp only [hexec]
    cases herr : sc.statement s.1 with
    | ok => exact absurd herr hstmt
    | _ => exact ⟨by simp, trivial⟩
  | _ => exact ⟨by simp, rfl⟩

/-- **The changes of the loop**: those of the records up to the first that fails. -/
theorem batchLoop_ledger (m : Model) (pk : Field) (op : BatchOp) (s : ℕ × Ledger Change) (total : ℤ)
    (recs : List Record) : ∃ n,
    (batchLoop (op.one sc.backend m pk) s total recs).2.2.2 =
      s.2.recordAll ((recs.take n).map (op.change sc.type m pk)) ∧
    ((batchLoop (op.one sc.backend m pk) s total recs).1 = .ok ↔
      ∀ p ∈ recs.zipIdx s.1, Succeeds sc m op p) ∧
    ((batchLoop (op.one sc.backend m pk) s total recs).1 = .ok → n = recs.length) ∧
    ((batchLoop (op.one sc.backend m pk) s total recs).1 ≠ .ok →
      (n = 0 ↔ ∃ rec ∈ recs.head?, ¬ Succeeds sc m op (rec, s.1))) := by
  induction recs generalizing s total with
  | nil => exact ⟨0, rfl, by simp [batchLoop], fun _ => rfl, fun h => absurd rfl h⟩
  | cons rec recs ih =>
    rw [batchLoop]
    rcases hd : op.one sc.backend m pk s rec with ⟨err, q, record, count, s'⟩
    by_cases hs : Succeeds sc m op (rec, s.1)
    · obtain ⟨herr, hstate⟩ := one_succeeds pk hs
      rw [hd] at herr hstate
      simp only at herr hstate
      subst herr hstate
      obtain ⟨n, hledger, hok, hlen, hzero⟩ := ih
        (s.1 + 1, s.2.record (op.change sc.type m pk rec)) (total + count.getD 0)
      refine ⟨n + 1, hledger, ?_, ?_, ?_⟩
      · rw [List.zipIdx_cons, List.forall_mem_cons]
        exact hok.trans ⟨fun h => ⟨hs, h⟩, fun h => h.2⟩
      · intro h
        rw [hlen h, List.length_cons]
      · intro _
        simp [hs]
    · obtain ⟨herr, hstate⟩ := one_fails pk hs
      rw [hd] at herr hstate
      simp only at herr hstate
      have hbad : ¬ ∀ p ∈ (rec :: recs).zipIdx s.1, Succeeds sc m op p := by
        rw [List.zipIdx_cons, List.forall_mem_cons]
        exact fun h => hs h.1
      cases err with
      | ok => exact absurd rfl herr
      | _ =>
        refine ⟨0, hstate, iff_of_false herr hbad, fun h => absurd h herr, fun _ => ?_⟩
        simp [hs]

/-! ## The batch -/

/-- All or nothing: after `CORM_OK` the changes of all records are persisted; after an error none
is, and a transaction that was open before is open still. -/
def AllOrNothing (sc : Script) (m : Model) (pk : Field) (op : BatchOp) (outer : Bool)
    (recs : List Record) : Prop :=
  let out := op.run sc.backend (0, .start outer) m recs
  (out.1 = .ok → out.2.2.2.persisted = recs.map (op.change sc.type m pk)) ∧
  (out.1 ≠ .ok → out.2.2.2.persisted = [] ∧ out.2.2.2.outerEnded = false)

/-- **What a batch leaves**: the changes of the records up to the first that fails, and then a commit
or a rollback. -/
theorem run_ledger (sc : Script) (hpk : pkField m = some pk) (op : BatchOp) (outer : Bool)
    (hrecs : recs ≠ []) : ∃ n,
    let out := op.run sc.backend (0, .start outer) m recs
    let l := (Ledger.opened outer (decide (sc.begin_ = .ok)) sc.implicitCommit).recordAll
      ((recs.take n).map (op.change sc.type m pk))
    (out.1 = .ok ↔ ∀ p ∈ recs.zipIdx, Succeeds sc m op p) ∧
    (out.1 = .ok → n = recs.length ∧
      out.2.2.2 = if decide (sc.commit = .ok) then l.commit else l) ∧
    (out.1 ≠ .ok → (n = 0 ↔ ∃ rec ∈ recs.head?, ¬ Succeeds sc m op (rec, 0)) ∧
      out.2.2.2 = l.rollback) := by
  have hbegin : (sc.backend.begin_ (0, .start outer)).2 =
      (0, Ledger.opened outer (decide (sc.begin_ = .ok)) sc.implicitCommit) := by
    unfold Ledger.opened Script.backend
    by_cases hb : sc.begin_ = .ok <;> simp [hb]
  have hcommit (s : ℕ × Ledger Change) : (sc.backend.commit s).2.2 =
      if decide (sc.commit = .ok) then s.2.commit else s.2 := by
    unfold Script.backend
    by_cases hc : sc.commit = .ok <;> simp [hc]
  obtain ⟨n, hledger, hok, hlen, hzero⟩ := batchLoop_ledger m pk op
    (0, Ledger.opened outer (decide (sc.begin_ = .ok)) sc.implicitCommit) 0 recs
  refine ⟨n, ?_⟩
  simp only
  rw [run_eq sc.backend (0, .start outer) op hpk hrecs, batchTransaction_eq, hbegin, ← hledger]
  refine ⟨hok, fun h => ⟨hlen h, ?_⟩, fun h => ⟨hzero h, ?_⟩⟩
  · simp only at h ⊢
    rw [if_pos h, hcommit]
  · simp only at h ⊢
    rw [if_neg h]
    rfl

/-- **When a batch is all or nothing.** When all records succeed: the commit does, too, or no
transaction is open. When one fails: no transaction was open before, and one was begun or no record
came before the one that fails. -/
theorem batch_atomic_iff (sc : Script) (hpk : pkField m = some pk) (op : BatchOp) (outer : Bool)
    (recs : List Record) :
    AllOrNothing sc m pk op outer recs ↔ recs = [] ∨
      ((∀ p ∈ recs.zipIdx, Succeeds sc m op p) ∧
        (sc.commit = .ok ∨ (outer = false ∧ sc.begin_ ≠ .ok))) ∨
      ((∃ p ∈ recs.zipIdx, ¬ Succeeds sc m op p) ∧ outer = false ∧
        (sc.begin_ = .ok ∨ ∃ rec ∈ recs.head?, ¬ Succeeds sc m op (rec, 0))) := by
  by_cases hrecs : recs = []
  · have hrun : op.run sc.backend (0, .start outer) m recs = (.null, 0, 0, .start outer) := by
      cases op <;> exact if_pos hrecs
    refine iff_of_true ?_ (Or.inl hrecs)
    unfold AllOrNothing
    rw [hrun]
    exact ⟨(fun h => by cases h), fun _ => by cases outer <;> exact ⟨rfl, rfl⟩⟩
  obtain ⟨n, hok, hdone, hfailed⟩ := run_ledger sc hpk op outer hrecs
  unfold AllOrNothing
  by_cases hall : ∀ p ∈ recs.zipIdx, Succeeds sc m op p
  · have herr := hok.mpr hall
    obtain ⟨rfl, hend⟩ := hdone herr
    have hchanges : recs.map (op.change sc.type m pk) ≠ [] := mt List.map_eq_nil_iff.mp hrecs
    have hcommit := Ledger.committed outer (decide (sc.begin_ = .ok)) sc.implicitCommit
      (decide (sc.commit = .ok)) hchanges
    rw [List.take_length] at hend
    simp only at hcommit
    rw [← hend, decide_eq_true_iff, decide_eq_false_iff_not] at hcommit
    constructor
    · rintro ⟨h, -⟩
      exact Or.inr (Or.inl ⟨hall, hcommit.mp (h herr)⟩)
    · rintro (h | ⟨-, h⟩ | ⟨⟨p, hp, hbad⟩, -⟩)
      · exact absurd h hrecs
      · exact ⟨fun _ => hcommit.mpr h, fun h => absurd herr h⟩
      · exact absurd (hall p hp) hbad
  · have herr := mt hok.mp hall
    obtain ⟨hzero, hend⟩ := hfailed herr
    have hroll := Ledger.rolledBack outer (decide (sc.begin_ = .ok)) sc.implicitCommit
      ((recs.take n).map (op.change sc.type m pk))
    simp only at hroll
    rw [← hend, decide_eq_true_iff, List.map_eq_nil_iff, List.take_eq_nil_iff, hzero] at hroll
    constructor
    · rintro ⟨-, h⟩
      obtain ⟨hno, hbegun⟩ := hroll.mp (h herr)
      refine Or.inr (Or.inr ⟨by simpa using hall, hno, ?_⟩)
      simpa [hrecs] using hbegun
    · rintro (h | ⟨h, -⟩ | ⟨-, hno, h⟩)
      · exact absurd h hrecs
      · exact absurd h hall
      · exact ⟨fun h => absurd h herr, fun _ => hroll.mpr ⟨hno, by simpa [hrecs] using h⟩⟩

/-! ## A commit that fails -/

/-- Everything succeeds but the commit. -/
def busyCommit : Script := ⟨.sqlite, .ok, false, fun _ => .ok, .backend⟩

/-- A transaction is open already, and the second statement fails. -/
def secondFails : Script := ⟨.sqlite, .backend, false, fun n => if n = 1 then .dup else .ok, .ok⟩

/-- An update that returns `CORM_OK` with nothing persisted, and one that fails and rolls back the
transaction it was called in. -/
theorem batch_not_atomic :
    pkField softUserModel = some softUserId ∧
    ¬ AllOrNothing busyCommit softUserModel softUserId .update false [seventhUser] ∧
    ¬ AllOrNothing secondFails softUserModel softUserId .update true [seventhUser, zeroRecord] := by
  refine ⟨by decide +kernel, fun h => ?_, fun h => ?_⟩
  · have hok : (BatchOp.update.run busyCommit.backend (0, .start false) softUserModel
        [seventhUser]).1 = .ok := by decide +kernel
    have hnone : (BatchOp.update.run busyCommit.backend (0, .start false) softUserModel
        [seventhUser]).2.2.2.persisted = [] := by decide +kernel
    have hall := h.1 hok
    rw [hnone] at hall
    cases hall
  · have herr : (BatchOp.update.run secondFails.backend (0, .start true) softUserModel
        [seventhUser, zeroRecord]).1 = .dup := by decide +kernel
    have hended : (BatchOp.update.run secondFails.backend (0, .start true) softUserModel
        [seventhUser, zeroRecord]).2.2.2.outerEnded = true := by decide +kernel
    have hopen := (h.2 (by rw [herr]; decide)).2
    rw [hended] at hopen
    cases hopen

theorem batch_atomic_iff_busyCommit :
    AllOrNothing busyCommit softUserModel softUserId .update false [seventhUser] ↔
      [seventhUser] = [] ∨
      ((∀ p ∈ [seventhUser].zipIdx, Succeeds busyCommit softUserModel .update p) ∧
        (busyCommit.commit = .ok ∨ (false = false ∧ busyCommit.begin_ ≠ .ok))) ∨
      ((∃ p ∈ [seventhUser].zipIdx, ¬ Succeeds busyCommit softUserModel .update p) ∧
        false = false ∧ (busyCommit.begin_ = .ok ∨
          ∃ rec ∈ [seventhUser].head?, ¬ Succeeds busyCommit softUserModel .update (rec, 0))) :=
  batch_atomic_iff busyCommit (by decide +kernel) .update false [seventhUser]

end Corm
