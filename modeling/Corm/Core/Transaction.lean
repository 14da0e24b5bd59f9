import Corm.Exec

/-!
# A callback in a transaction

`corm_transaction`, on a connection to a database like SQLite: a commit that fails leaves the
transaction open, and a rollback succeeds.

* `transaction`: the function, over any backend;
* `Session`, `TxScript.backend`: a connection whose results are given, with what is persisted and
  what the open transaction sees;
* `KeepsTransaction`: a callback that does not end the transaction, such as one that runs statements;
* **`transaction_settled_iff`**: the transaction is settled unless only the commit fails.
-/

namespace Corm

/-- `corm_transaction`, with a callback that may be null. -/
def transaction {σ ρ : Type} (b : Backend σ ρ) (fn : Option (σ → Err × σ)) (s : σ) : Err × σ :=
  match fn with
  | none => (.null, s)
  | some fn =>
    match b.begin_ s with
    | (.ok, s) =>
      match fn s with
      | (.ok, s) =>
        let (cerr, s) := b.commit s
        (if cerr ≠ .ok then cerr else .ok, s)
      | (err, s) => (err, (b.rollback s).2)
    | (err, s) => (err, s)

theorem transaction_eq {σ ρ : Type} (b : Backend σ ρ) (fn : σ → Err × σ) (s : σ) :
    transaction b (some fn) s =
      let began := b.begin_ s
      let ran := fn began.2
      if began.1 = .ok then
        if ran.1 = .ok then b.commit ran.2 else (ran.1, (b.rollback ran.2).2)
      else began := by
  simp only [transaction]
  rcases b.begin_ s with ⟨err, s₁⟩
  cases err
  case ok =>
    simp only [if_true]
    rcases fn s₁ with ⟨err, s₂⟩
    cases err
    case ok =>
      have hc : (if (b.commit s₂).1 ≠ .ok then (b.commit s₂).1 else .ok, (b.commit s₂).2) =
          b.commit s₂ := by
        split_ifs with h
        · rfl
        · exact Prod.ext (not_not.mp h).symm rfl
      exact hc
    all_goals rfl
  all_goals rfl

variable {D : Type}

/-- A connection: what is persisted, and what the open transaction sees. -/
structure Session (D : Type) where
  committed : D
  working : Option D
  deriving DecidableEq

/-- The results of a database: of `BEGIN` outside a transaction, of `COMMIT` inside one, and of a
statement on what the connection sees. -/
structure TxScript (D : Type) where
  begin_ : Session D → Err
  commit : Session D → Err
  statement : D → Text → List Value → Err × D

/-- The database. Statements outside a transaction are persisted at once, and `BEGIN` inside one and
`COMMIT` outside are errors. -/
def TxScript.backend (sc : TxScript D) : Backend (Session D) Unit where
  type := .sqlite
  exec s sql params :=
    match s.working with
    | some d => ((sc.statement d sql params).1, ⟨s.committed, some (sc.statement d sql params).2⟩)
    | none => ((sc.statement s.committed sql params).1, ⟨(sc.statement s.committed sql params).2, none⟩)
  query s _ _ := (.ok, none, s)
  begin_ s :=
    match s.working with
    | some _ => (.backend, s)
    | none => if sc.begin_ s = .ok then (.ok, ⟨s.committed, some s.committed⟩) else (sc.begin_ s, s)
  commit s :=
    match s.working with
    | some d => if sc.commit s = .ok then (.ok, ⟨d, none⟩) else (sc.commit s, s)
    | none => (.backend, s)
  rollback s := (.ok, ⟨s.committed, none⟩)
  lastInsertId _ := 0
  rowsAffected _ := 0

/-- A callback that does not itself end the transaction it is called in. -/
def KeepsTransaction (fn : Session D → Err × Session D) : Prop :=
  ∀ s, s.working.isSome → (fn s).2.committed = s.committed ∧ (fn s).2.working.isSome

theorem keeps_exec (sc : TxScript D) (sql : Text) (params : List Value) :
    KeepsTransaction fun s => sc.backend.exec s sql params := by
  intro s hs
  obtain ⟨d, hd⟩ := Option.isSome_iff_exists.mp hs
  simp only [TxScript.backend, hd, Option.isSome_some, and_self]

variable (sc : TxScript D) (fn : Session D → Err × Session D) (s : Session D)

/-- The connection as the callback finds it. -/
def begun : Session D := (sc.backend.begin_ s).2

/-- What a transaction should leave, with the result and the connection in `out`. -/
structure Settled (out : Err × Session D) : Prop where
  /-- The connection is not inside the transaction that was opened. -/
  closed : (sc.backend.begin_ s).1 = .ok → out.2.working = none
  /-- The callback's effects are persisted with `CORM_OK`. -/
  kept : out.1 = .ok → (fn (begun sc s)).2.working = some out.2.committed
  /-- They are not persisted with an error. -/
  dropped : out.1 ≠ .ok → out.2.committed = s.committed
  callbackErr : (sc.backend.begin_ s).1 = .ok → (fn (begun sc s)).1 ≠ .ok →
    out.1 = (fn (begun sc s)).1
  commitErr : (sc.backend.begin_ s).1 = .ok → (fn (begun sc s)).1 = .ok →
    (sc.backend.commit (fn (begun sc s)).2).1 ≠ .ok →
    out.1 = (sc.backend.commit (fn (begun sc s)).2).1

/-- `begin` and the callback succeed, and `COMMIT` fails. -/
def OnlyCommitFails : Prop :=
  (sc.backend.begin_ s).1 = .ok ∧ (fn (begun sc s)).1 = .ok ∧
    (sc.backend.commit (fn (begun sc s)).2).1 ≠ .ok

/-! ## Which transactions are settled -/

variable {sc fn s}

theorem begun_ok (h : (sc.backend.begin_ s).1 = .ok) :
    begun sc s = ⟨s.committed, some s.committed⟩ := by
  unfold begun
  simp only [TxScript.backend] at h ⊢
  split at h
  · cases h
  · split_ifs at h ⊢ with h0
    · rfl
    · exact absurd h h0

theorem begun_err (h : (sc.backend.begin_ s).1 ≠ .ok) : begun sc s = s := by
  unfold begun
  simp only [TxScript.backend] at h ⊢
  split at h
  · rfl
  · split_ifs at h ⊢
    · exact absurd rfl h
    · rfl

variable (sc) in
/-- A commit inside a transaction either ends it or leaves the connection as it is. -/
theorem commit_working {s₁ : Session D} {d : D} (h : s₁.working = some d) :
    sc.backend.commit s₁ = (.ok, ⟨d, none⟩) ∨
      (sc.backend.commit s₁).1 ≠ .ok ∧ (sc.backend.commit s₁).2 = s₁ := by
  simp only [TxScript.backend, h]
  split_ifs with h0
  · exact Or.inl rfl
  · exact Or.inr ⟨h0, rfl⟩

theorem settled_begin_err (hb : (sc.backend.begin_ s).1 ≠ .ok) :
    Settled sc fn s (sc.backend.begin_ s) where
  closed h := absurd h hb
  kept h := absurd h hb
  dropped _ := congrArg Session.committed (begun_err hb)
  callbackErr h := absurd h hb
  commitErr h := absurd h hb

theorem settled_callback_err (hcom : (fn (begun sc s)).2.committed = s.committed)
    (hf : (fn (begun sc s)).1 ≠ .ok) :
    Settled sc fn s ((fn (begun sc s)).1, (sc.backend.rollback (fn (begun sc s)).2).2) where
  closed _ := rfl
  kept h := absurd h hf
  dropped _ := hcom
  callbackErr _ _ := rfl
  commitErr _ h := absurd h hf

theorem settled_commit {d : D} (hd : (fn (begun sc s)).2.working = some d)
    (hf : (fn (begun sc s)).1 = .ok) (hc : sc.backend.commit (fn (begun sc s)).2 = (.ok, ⟨d, none⟩)) :
    Settled sc fn s (sc.backend.commit (fn (begun sc s)).2) where
  closed _ := by rw [hc]
  kept _ := by rw [hc]; exact hd
  dropped h := absurd (congrArg Prod.fst hc) h
  callbackErr _ h := absurd hf h
  commitErr _ _ _ := rfl

/-- **A transaction is settled unless only its commit fails.** -/
theorem transaction_settled_iff (hfn : KeepsTransaction fn) :
    Settled sc fn s (transaction sc.backend (some fn) s) ↔ ¬ OnlyCommitFails sc fn s := by
  have heq : transaction sc.backend (some fn) s =
      if (sc.backend.begin_ s).1 = .ok then
        if (fn (begun sc s)).1 = .ok then sc.backend.commit (fn (begun sc s)).2
        else ((fn (begun sc s)).1, (sc.backend.rollback (fn (begun sc s)).2).2)
      else sc.backend.begin_ s := transaction_eq sc.backend fn s
  rw [heq]
  by_cases hb : (sc.backend.begin_ s).1 = .ok
  swap
  · rw [if_neg hb]
    exact iff_of_true (settled_begin_err hb) fun h => hb h.1
  obtain ⟨hcom, hwork⟩ := hfn (begun sc s) (by rw [begun_ok hb]; rfl)
  obtain ⟨d, hd⟩ := Option.isSome_iff_exists.mp hwork
  rw [if_pos hb]
  by_cases hf : (fn (begun sc s)).1 = .ok
  swap
  · rw [if_neg hf]
    have hkept : (fn (begun sc s)).2.committed = s.committed := by
      rw [hcom, begun_ok hb]
    exact iff_of_true (settled_callback_err hkept hf) fun h => hf h.2.1
  rw [if_pos hf]
  rcases commit_working sc hd with hc | ⟨hc, hstay⟩
  · exact iff_of_true (settled_commit hd hf hc) fun h => h.2.2 (congrArg Prod.fst hc)
  · -- The transaction that was opened is still open.
    refine iff_of_false (fun h => ?_) (not_not.mpr ⟨hb, hf, hc⟩)
    have hnone := h.closed hb
    rw [hstay, hd] at hnone
    cases hnone

/-! ## A busy database -/

/-- A database that another connection keeps locked: `COMMIT` is `SQLITE_BUSY`. -/
def lockedCommit : TxScript (List Text) :=
  ⟨fun _ => .ok, fun _ => .backend, fun d sql _ => (.ok, d ++ [sql])⟩

/-- A callback that runs one statement. -/
def insertOne (s : Session (List Text)) : Err × Session (List Text) :=
  lockedCommit.backend.exec s "INSERT INTO t VALUES (1)".toList []

/-- **After a failed commit the connection is still inside the transaction.** -/
theorem transaction_left_open :
    ¬ Settled lockedCommit insertOne ⟨[], none⟩
      (transaction lockedCommit.backend (some insertOne) ⟨[], none⟩) := by
  intro h
  have hnone := h.closed rfl
  exact absurd hnone (by decide)

theorem transaction_settled_iff_insertOne :
    Settled lockedCommit insertOne ⟨[], none⟩
        (transaction lockedCommit.backend (some insertOne) ⟨[], none⟩) ↔
      ¬ OnlyCommitFails lockedCommit insertOne ⟨[], none⟩ :=
  transaction_settled_iff (keeps_exec lockedCommit _ _)

end Corm
