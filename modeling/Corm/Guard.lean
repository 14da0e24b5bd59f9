import Corm.Fetch

/-!
# A database that refuses statements

A constraint, a lock or a full disk: a statement that is refused fails and changes nothing.

* `Backend.guard`: a backend that runs only the statements that are accepted;
* `execWithHooks_cases`, **`execWithHooks_guard`**: a call that succeeds did what it does without the
  guard;
* `findAll_guard`: a find that is not refused is one without the guard.
-/

namespace Corm

/-- A backend that runs only the statements that are accepted, of those that change tables and of
those that read them. -/
def Backend.guard {σ ρ : Type} (b : Backend σ ρ) (accepts : σ → Text → List Value → Bool) :
    Backend σ ρ :=
  { b with
    exec := fun s sql params =>
      if accepts s sql params then b.exec s sql params else (.backend, s)
    query := fun s sql params =>
      if accepts s sql params then b.query s sql params else (.backend, none, s) }

variable {σ ρ : Type} {b : Backend σ ρ} {accepts : σ → Text → List Value → Bool} {s : σ}
  {before after : Option Hook} {count : σ → ℤ} {bind : Query → Option Record → Query} {op : QueryOp}
  {q : Query} {record : Option Record}

theorem exec_guard {sql : Text} {params : List Value}
    (h : ((b.guard accepts).exec s sql params).1 = .ok) :
    (b.guard accepts).exec s sql params = b.exec s sql params := by
  change (if accepts s sql params then b.exec s sql params else (.backend, s)).1 = .ok at h
  show (if accepts s sql params then b.exec s sql params else (.backend, s)) = _
  split_ifs at h ⊢
  rfl

/-- What a call does: it runs its statement, and the after hook if that succeeds; or the before hook
refuses. -/
theorem execWithHooks_cases (b : Backend σ ρ) (before after : Option Hook) (count : σ → ℤ)
    (bind : Query → Option Record → Query) (op : QueryOp) (s : σ) (q : Query)
    (record : Option Record) :
    (∃ record', runHook before record = (.ok, record') ∧
      let q' := bind (queryOp q op) record'
      let out := b.exec s (buildSql (queryOp q op)) q'.params
      execWithHooks b before after count bind op s q record =
        if out.1 = .ok then ⟨.ok, q', (runHook after record').2, some (count out.2), out.2⟩
        else ⟨out.1, q', record', none, out.2⟩) ∨
    ((runHook before record).1 ≠ .ok ∧ execWithHooks b before after count bind op s q record =
      ⟨(runHook before record).1, q, (runHook before record).2, none, s⟩) := by
  unfold execWithHooks
  rcases runHook before record with ⟨err, record'⟩
  by_cases herr : err = .ok
  · subst herr
    refine Or.inl ⟨record', rfl, ?_⟩
    simp only
    rcases b.exec s (buildSql (queryOp q op)) (bind (queryOp q op) record').params with ⟨err, s'⟩
    cases err <;> rfl
  · refine Or.inr ⟨herr, ?_⟩
    cases err with
    | ok => exact absurd rfl herr
    | _ => rfl

theorem execWithHooks_guard
    (hok : (execWithHooks (b.guard accepts) before after count bind op s q record).err = .ok) :
    execWithHooks (b.guard accepts) before after count bind op s q record =
      execWithHooks b before after count bind op s q record := by
  rcases execWithHooks_cases (b.guard accepts) before after count bind op s q record with
    ⟨record', hhook, h⟩ | ⟨hne, h⟩
  · have hexec : ((b.guard accepts).exec s (buildSql (queryOp q op))
        (bind (queryOp q op) record').params).1 = .ok := by
      by_contra hne
      rw [h] at hok
      simp only [if_neg hne] at hok
      exact hne hok
    unfold execWithHooks
    rw [hhook]
    simp only
    rw [exec_guard hexec]
  · rw [h] at hok
    exact absurd hok hne

theorem execWithHooks_accepted (h : accepts s (buildSql (queryOp q op))
    (bind (queryOp q op) (runHook before record).2).params = true) :
    execWithHooks (b.guard accepts) before after count bind op s q record =
      execWithHooks b before after count bind op s q record := by
  have hexec : (b.guard accepts).exec s (buildSql (queryOp q op))
      (bind (queryOp q op) (runHook before record).2).params = b.exec s (buildSql (queryOp q op))
        (bind (queryOp q op) (runHook before record).2).params := if_pos h
  clear h
  unfold execWithHooks
  revert hexec
  rcases runHook before record with ⟨err, record'⟩
  intro hexec
  cases err with
  | ok => simp only at hexec ⊢; rw [hexec]
  | _ => rfl

/-- A call succeeds when it does without the guard and its statement is accepted. -/
theorem execWithHooks_guard_iff :
    (execWithHooks (b.guard accepts) before after count bind op s q record).err = .ok ↔
      (execWithHooks b before after count bind op s q record).err = .ok ∧
        accepts s (buildSql (queryOp q op))
          (bind (queryOp q op) (runHook before record).2).params = true := by
  unfold execWithHooks
  rcases runHook before record with ⟨err, record'⟩
  cases err with
  | ok =>
    by_cases hacc : accepts s (buildSql (queryOp q op)) (bind (queryOp q op) record').params = true
    · have hexec : (b.guard accepts).exec s (buildSql (queryOp q op))
          (bind (queryOp q op) record').params =
        b.exec s (buildSql (queryOp q op)) (bind (queryOp q op) record').params := if_pos hacc
      simp only [hexec, hacc, and_true]
    · have hexec : (b.guard accepts).exec s (buildSql (queryOp q op))
          (bind (queryOp q op) record').params = (.backend, s) := if_neg hacc
      simp only [hexec, hacc]
      exact iff_of_false nofun fun h => Bool.false_ne_true h.2
  | _ => exact iff_of_false nofun fun h => nomatch h.1

theorem execWithHooks_count
    (hok : (execWithHooks b before after count bind op s q record).err = .ok) :
    (execWithHooks b before after count bind op s q record).count =
      some (count (execWithHooks b before after count bind op s q record).state) := by
  rcases execWithHooks_cases b before after count bind op s q record with
    ⟨record', -, h⟩ | ⟨hne, h⟩
  · rw [h] at hok ⊢
    split_ifs at hok ⊢ with hexec
    · rfl
    · exact absurd hok hexec
  · rw [h] at hok
    exact absurd hok hne

theorem find_guard (b : Backend σ ρ) (accepts : σ → Text → List Value → Bool) (s : σ) (q : Query) :
    find (b.guard accepts) s q = find b s q ∨
      (find (b.guard accepts) s q = (.backend, none, queryOp (findScope q) .select, s) ∧
        ∃ s sql params, accepts s sql params = false) := by
  unfold find
  cases hacc : accepts s (buildSql (queryOp (findScope q) .select))
      (queryOp (findScope q) .select).params with
  | true =>
    have hquery : (b.guard accepts).query s (buildSql (queryOp (findScope q) .select))
        (queryOp (findScope q) .select).params = _ := if_pos hacc
    exact Or.inl (by simp only [hquery])
  | false =>
    have hquery : (b.guard accepts).query s (buildSql (queryOp (findScope q) .select))
        (queryOp (findScope q) .select).params = (.backend, none, s) :=
      if_neg (Bool.eq_false_iff.mp hacc)
    exact Or.inr ⟨by simp only [hquery], _, _, _, hacc⟩

theorem findAll_guard (b : Backend σ Result) (accepts : σ → Text → List Value → Bool) (s : σ)
    (m : Model) (where_ : Option Text) (records : Option (List Record)) (count : Option ℤ) :
    findAll (b.guard accepts) s m where_ records count = findAll b s m where_ records count ∨
      (findAll (b.guard accepts) s m where_ records count = some (.backend, records, count, s) ∧
        ∃ s sql params, accepts s sql params = false) := by
  have hq (q : Query) := find_guard b accepts s q
  unfold findAll
  rw [show (b.guard accepts).type = b.type from rfl]
  cases where_ with
  | none =>
    rcases hq (queryNew b.type m) with h | ⟨h, hacc⟩
    · exact Or.inl (by simp only [h])
    · exact Or.inr ⟨by simp only [h], hacc⟩
  | some w =>
    rcases hq (queryWhere (queryNew b.type m) w) with h | ⟨h, hacc⟩
    · exact Or.inl (by simp only [h])
    · exact Or.inr ⟨by simp only [h], hacc⟩

end Corm
