import Corm.Batch.Atomic
import Corm.Dbms
import Corm.Guard

/-!
# Batches on a database that refuses statements

* **`run_guard`**: a batch that succeeds did what it does without the guard;
* `execWithHooks_failed`: a statement that fails changes nothing;
* **`run_failed`**: a batch that fails leaves the tables as they were.
-/

namespace Corm

/-! ## Batches that succeed -/

section Guard

variable {σ ρ : Type} {b : Backend σ ρ} {accepts : σ → Text → List Value → Bool} {s : σ} {m : Model}
  {recs : List Record}

theorem batchLoop_guard {one one' : σ → Record → Done σ}
    (hone : ∀ s rec, (one s rec).err = .ok → one s rec = one' s rec) {total : ℤ}
    (hok : (batchLoop one s total recs).1 = .ok) :
    batchLoop one s total recs = batchLoop one' s total recs := by
  induction recs generalizing s total with
  | nil => rfl
  | cons rec recs ih =>
    have hrec := hone s rec
    rw [batchLoop] at hok ⊢
    rw [batchLoop]
    rcases hd : one s rec with ⟨err, q, record, count, s'⟩
    rw [hd] at hok hrec
    cases err with
    | ok =>
      rw [← hrec rfl]
      exact ih hok
    | _ => cases hok

/-- **A batch that succeeds** did what it does without the guard. -/
theorem run_guard (bop : BatchOp) (hok : (bop.run (b.guard accepts) s m recs).1 = .ok) :
    bop.run (b.guard accepts) s m recs = bop.run b s m recs := by
  by_cases hrecs : recs = []
  · subst hrecs
    cases bop <;> rfl
  cases hpk : pkField m with
  | none => cases bop <;> simp only [BatchOp.run, updateBatch, deleteBatch, hpk]
  | some pk =>
    rw [run_eq _ _ _ hpk hrecs, batchTransaction_eq] at hok
    rw [run_eq _ _ _ hpk hrecs, run_eq _ _ _ hpk hrecs, batchTransaction_eq, batchTransaction_eq]
    have hloop : batchLoop (bop.one (b.guard accepts) m pk) ((b.guard accepts).begin_ s).2 0 recs =
        batchLoop (bop.one b m pk) (b.begin_ s).2 0 recs :=
      batchLoop_guard (fun s rec h => execWithHooks_guard h) hok
    simp only [hloop]
    rfl

end Guard

/-! ## Statements that fail -/

variable {V ρ : Type} {b : Backend (Store V) ρ} {s : Store V} {m : Model} {recs : List Record}

/-- A backend over tables whose statements leave the transaction alone, and change nothing when they
fail. -/
structure Backend.OverTables (b : Backend (Store V) ρ) : Prop where
  saved : ∀ s sql params, (b.exec s sql params).2.saved = s.saved
  failed : ∀ s sql params, (b.exec s sql params).1 ≠ .ok → (b.exec s sql params).2 = s
  begin_ : ∀ s, b.begin_ s = (.ok, { s with saved := some s.db })
  rollback : ∀ s, b.rollback s = (.ok, ⟨s.saved.getD s.db, none⟩)

theorem Backend.OverTables.guard (h : b.OverTables)
    (accepts : Store V → Text → List Value → Bool) : (b.guard accepts).OverTables where
  saved s sql params := by
    show (if accepts s sql params then b.exec s sql params else (.backend, s)).2.saved = _
    split_ifs
    · exact h.saved s sql params
    · rfl
  failed s sql params hne := by
    change (if accepts s sql params then b.exec s sql params else (.backend, s)).1 ≠ .ok at hne
    show (if accepts s sql params then b.exec s sql params else (.backend, s)).2 = _
    split_ifs at hne ⊢
    · exact h.failed s sql params hne
    · rfl
  begin_ := h.begin_
  rollback := h.rollback

variable {before after : Option Hook} {count : Store V → ℤ}
  {bind : Query → Option Record → Query} {op : QueryOp} {q : Query} {record : Option Record}

theorem execWithHooks_saved (hb : b.OverTables) :
    (execWithHooks b before after count bind op s q record).state.saved = s.saved := by
  rcases execWithHooks_cases b before after count bind op s q record with
    ⟨record', -, h⟩ | ⟨-, h⟩
  · rw [h]
    split_ifs <;> exact hb.saved _ _ _
  · rw [h]

theorem execWithHooks_failed (hb : b.OverTables)
    (hne : (execWithHooks b before after count bind op s q record).err ≠ .ok) :
    (execWithHooks b before after count bind op s q record).state = s ∧
      (execWithHooks b before after count bind op s q record).count = none := by
  rcases execWithHooks_cases b before after count bind op s q record with
    ⟨record', -, h⟩ | ⟨-, h⟩
  · rw [h] at hne ⊢
    split_ifs at hne ⊢ with hexec
    · exact absurd rfl hne
    · exact ⟨hb.failed _ _ _ hexec, rfl⟩
  · rw [h]
    exact ⟨rfl, rfl⟩

theorem batchLoop_saved {one : Store V → Record → Done (Store V)}
    (hone : ∀ s rec, (one s rec).state.saved = s.saved) (total : ℤ) :
    (batchLoop one s total recs).2.2.saved = s.saved := by
  induction recs generalizing s total with
  | nil => rfl
  | cons rec recs ih =>
    have hrec := hone s rec
    rw [batchLoop]
    revert hrec
    rcases one s rec with ⟨err, q, record, count, s'⟩
    intro hrec
    cases err with
    | ok => exact (ih _).trans hrec
    | _ => exact hrec

/-- **A batch that fails** leaves the tables as they were. -/
theorem run_failed (hb : b.OverTables) (bop : BatchOp) (hne : (bop.run b s m recs).1 ≠ .ok) :
    (bop.run b s m recs).2.2.db = s.db := by
  by_cases hrecs : recs = []
  · subst hrecs
    cases bop <;> rfl
  cases hpk : pkField m with
  | none => cases bop <;> simp only [BatchOp.run, updateBatch, deleteBatch, hpk, if_neg hrecs]
  | some pk =>
    rw [run_eq _ _ _ hpk hrecs, batchTransaction_eq] at hne ⊢
    rw [hb.begin_] at hne ⊢
    simp only at hne ⊢
    have hsaved : (batchLoop (bop.one b m pk) { s with saved := some s.db } 0 recs).2.2.saved =
        some s.db := batchLoop_saved (fun s rec => execWithHooks_saved hb) 0
    rw [if_neg hne, hb.rollback, hsaved]
    rfl

end Corm
