import Mathlib.Data.List.Basic

/-!
# Writing into an array

An array is the list of its cells, and a write outside of it is undefined.

* `write`: some consecutive cells at an index;
* `write_eq`, `write_eq_none`: when a write is defined, and what it leaves;
* **`write_middle`**: a write over cells between others changes these cells only;
* `write_append`: a write is one of its first part and then one of the rest.
-/

namespace Cells

variable {α : Type}

/-- Write `s` into the cells from the index `i` on, if all of them are in the array. -/
def write (cells : List α) (i : ℕ) (s : List α) : Option (List α) :=
  if i + s.length ≤ cells.length then some (cells.take i ++ s ++ cells.drop (i + s.length))
  else none

variable {cells s : List α} {i : ℕ}

theorem write_eq (h : i + s.length ≤ cells.length) :
    write cells i s = some (cells.take i ++ s ++ cells.drop (i + s.length)) := if_pos h

theorem write_eq_none (h : cells.length < i + s.length) : write cells i s = none :=
  if_neg (Nat.not_le.mpr h)

/-- **A write over the cells `old`** puts `s` in their place. -/
theorem write_middle (left old right : List α) (h : s.length = old.length) :
    write (left ++ (old ++ right)) left.length s = some (left ++ (s ++ right)) := by
  rw [write_eq (by simp [h])]
  have hdrop : (left ++ (old ++ right)).drop (left.length + s.length) = right := by
    rw [h, ← List.append_assoc, ← List.length_append, List.drop_left]
  rw [List.take_left, hdrop, List.append_assoc]

theorem write_one (left right : List α) (old a : α) :
    write (left ++ old :: right) left.length [a] = some (left ++ a :: right) :=
  write_middle left [old] right rfl

/-- **Writing in two parts.** -/
theorem write_append (cells : List α) (i : ℕ) (s t : List α) :
    write cells i (s ++ t) = (write cells i s).bind fun cells => write cells (i + s.length) t := by
  by_cases h : i + (s ++ t).length ≤ cells.length
  · have hlen : i + s.length + t.length ≤ cells.length := by
      rw [List.length_append] at h
      omega
    obtain ⟨left, old, old', right, rfl, rfl, hold, hold'⟩ : ∃ left old old' right,
        cells = left ++ (old ++ (old' ++ right)) ∧ left.length = i ∧ s.length = old.length ∧
          t.length = old'.length := by
      refine ⟨cells.take i, (cells.drop i).take s.length, ((cells.drop i).drop s.length).take t.length,
        ((cells.drop i).drop s.length).drop t.length, ?_, ?_, ?_, ?_⟩
      · simp only [List.take_append_drop]
      · exact List.length_take_of_le (by omega)
      · rw [List.length_take_of_le]
        rw [List.length_drop]
        omega
      · rw [List.length_take_of_le]
        rw [List.length_drop, List.length_drop]
        omega
    have hboth : write (left ++ (old ++ old' ++ right)) left.length (s ++ t) =
        some (left ++ (s ++ t ++ right)) := write_middle _ _ _ (by simp [hold, hold'])
    have hsecond := write_middle (left ++ s) old' right hold'
    simp only [List.append_assoc, List.length_append] at hboth hsecond
    rw [hboth, write_middle left old _ hold, Option.bind_some, hsecond]
  · rw [write_eq_none (Nat.lt_of_not_le h)]
    by_cases hs : i + s.length ≤ cells.length
    · rw [write_eq hs, Option.bind_some, write_eq_none]
      simp only [List.length_append, List.length_take, List.length_drop] at h ⊢
      omega
    · rw [write_eq_none (Nat.lt_of_not_le hs), Option.bind_none]

theorem exists_split (h : i < cells.length) :
    ∃ left old right, cells = left ++ old :: right ∧ left.length = i :=
  ⟨cells.take i, cells[i], cells.drop (i + 1), by
    rw [← List.drop_eq_getElem_cons h, List.take_append_drop],
    List.length_take_of_le (Nat.le_of_lt h)⟩

end Cells
