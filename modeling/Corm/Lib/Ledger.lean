import Mathlib.Data.List.Basic

/-!
# Changes and transactions

What becomes of the changes that one caller makes to a database, where a transaction may have been
open before.

* `Ledger`: the changes that are persisted, and the transaction that is open;
* `record`, `begin_`, `commit`, `rollback`: a change takes effect at once where no transaction is
  open;
* **`committed`**, **`rolledBack`**: a run of changes between the beginning and the end of a
  transaction.
-/

variable {α : Type}

/-- An open transaction: whether it is an outer one, open before the first change, and the changes
made in it since. -/
structure Transaction (α : Type) where
  outer : Bool
  changes : List α
  deriving DecidableEq

/-- The changes that are persisted, the open transaction, and whether an outer one was ended. -/
structure Ledger (α : Type) where
  persisted : List α
  transaction : Option (Transaction α)
  outerEnded : Bool
  deriving DecidableEq

namespace Ledger

/-- Before the first change. -/
def start (outer : Bool) : Ledger α := ⟨[], if outer then some ⟨true, []⟩ else none, false⟩

variable (l : Ledger α)

/-- One change. -/
def record (c : α) : Ledger α :=
  match l.transaction with
  | none => { l with persisted := l.persisted ++ [c] }
  | some t => { l with transaction := some { t with changes := t.changes ++ [c] } }

/-- The end of the open transaction, with its changes persisted. -/
def commit : Ledger α :=
  match l.transaction with
  | none => l
  | some t => ⟨l.persisted ++ t.changes, none, l.outerEnded || t.outer⟩

/-- The end of the open transaction, without its changes. -/
def rollback : Ledger α :=
  match l.transaction with
  | none => l
  | some t => ⟨l.persisted, none, l.outerEnded || t.outer⟩

/-- A new transaction; where one is open, it is committed before or goes on. -/
def begin_ (implicitCommit : Bool) : Ledger α :=
  match l.transaction with
  | none => { l with transaction := some ⟨false, []⟩ }
  | some _ =>
    if implicitCommit then { l.commit with transaction := some ⟨false, []⟩ } else l

/-- Some changes. -/
def recordAll (cs : List α) : Ledger α := cs.foldl record l

/-! ## Runs of changes -/

variable {l} {cs : List α}

theorem recordAll_none (h : l.transaction = none) :
    l.recordAll cs = { l with persisted := l.persisted ++ cs } := by
  induction cs generalizing l with
  | nil => simp [recordAll]
  | cons c cs ih =>
    have hc : l.record c = { l with persisted := l.persisted ++ [c] } := by rw [record, h]
    show (l.record c).recordAll cs = _
    rw [hc, ih (by exact h)]
    simp

theorem recordAll_some {t : Transaction α} (h : l.transaction = some t) :
    l.recordAll cs = { l with transaction := some { t with changes := t.changes ++ cs } } := by
  induction cs generalizing l t with
  | nil => simp [recordAll, ← h]
  | cons c cs ih =>
    have hc : l.record c =
        { l with transaction := some { t with changes := t.changes ++ [c] } } := by rw [record, h]
    show (l.record c).recordAll cs = _
    rw [hc, ih rfl]
    simp

/-! ## Between the beginning and the end -/

/-- The ledger after a transaction was begun, if it was. -/
def opened (outer begun implicitCommit : Bool) : Ledger α :=
  if begun then (start outer).begin_ implicitCommit else start outer

/-- **Changes and a commit**: all of them are persisted when the commit is made, or when no
transaction is open. -/
theorem committed (outer begun implicitCommit commits : Bool) {cs : List α} (hne : cs ≠ []) :
    let l := (opened outer begun implicitCommit).recordAll cs
    (if commits then l.commit else l).persisted = cs ↔
      commits = true ∨ (outer = false ∧ begun = false) := by
  cases outer <;> cases begun <;> cases implicitCommit <;> cases commits <;>
    simp [opened, start, begin_, commit, recordAll_none, recordAll_some, Ne.symm hne]

/-- **Changes and a rollback**: none of them is persisted, and no outer transaction ended, when
there was no outer one, and the changes were made in a new one if there are any. -/
theorem rolledBack (outer begun implicitCommit : Bool) (cs : List α) :
    let l := ((opened outer begun implicitCommit).recordAll cs).rollback
    (l.persisted = [] ∧ l.outerEnded = false) ↔ outer = false ∧ (begun = true ∨ cs = []) := by
  cases outer <;> cases begun <;> cases implicitCommit <;>
    simp [opened, start, begin_, commit, rollback, recordAll_none, recordAll_some]

end Ledger
