import Corm.Sql.Stmt

/-!
# Changing some of the rows

* `Touches P rows rows'`: `rows'` are the `rows` with some of those that satisfy `P` changed or
  removed;
* **`touches_map_iff`**, **`touches_filter_iff`**: when an update or a delete does no more;
* `assign_of_notMem`, `assign_assign`: what assignments leave as it is.
-/

namespace Sql

variable {V : Type} {P : Row V → Prop} {rows rows' : List (Row V)}

/-- Rows with some of those that satisfy `P` changed or removed. -/
inductive Touches (P : Row V → Prop) : List (Row V) → List (Row V) → Prop
  | nil : Touches P [] []
  | keep (r : Row V) {rows rows' : List (Row V)} (h : Touches P rows rows') :
      Touches P (r :: rows) (r :: rows')
  | change {r : Row V} (hr : P r) (r' : Row V) {rows rows' : List (Row V)}
      (h : Touches P rows rows') : Touches P (r :: rows) (r' :: rows')
  | remove {r : Row V} (hr : P r) {rows rows' : List (Row V)} (h : Touches P rows rows') :
      Touches P (r :: rows) rows'

namespace Touches

theorem refl (rows : List (Row V)) : Touches P rows rows := by
  induction rows with
  | nil => exact .nil
  | cons r rows ih => exact .keep r ih

theorem length_le (h : Touches P rows rows') : rows'.length ≤ rows.length := by
  induction h with
  | nil => exact Nat.le_refl 0
  | keep _ _ ih => exact Nat.succ_le_succ ih
  | change _ _ _ ih => exact Nat.succ_le_succ ih
  | remove _ _ ih => exact Nat.le_succ_of_le ih

theorem sublist [DecidablePred P] (h : Touches P rows rows') :
    (rows.filter fun r => ¬ P r).Sublist (rows'.filter fun r => ¬ P r) := by
  induction h with
  | nil => exact List.Sublist.refl _
  | keep r _ ih =>
    rw [List.filter_cons, List.filter_cons]
    split_ifs
    · exact ih.cons_cons r
    · exact ih
  | change hr r' _ ih =>
    rw [List.filter_cons, if_neg (by simpa using hr), List.filter_cons]
    split_ifs
    · exact ih.cons r'
    · exact ih
  | remove hr _ ih =>
    rw [List.filter_cons, if_neg (by simpa using hr)]
    exact ih

theorem mem (h : Touches P rows rows') {r : Row V} (hr : r ∈ rows) (hP : ¬ P r) : r ∈ rows' := by
  classical
  have hmem : r ∈ rows.filter fun r => ¬ P r := List.mem_filter.mpr ⟨hr, by simpa using hP⟩
  exact List.mem_of_mem_filter (h.sublist.subset hmem)

end Touches

/-- **An update of each row** touches only the rows that it changes. -/
theorem touches_map_iff (g : Row V → Row V) :
    Touches P rows (rows.map g) ↔ ∀ r ∈ rows, P r ∨ g r = r := by
  induction rows with
  | nil => simp [Touches.nil]
  | cons r rows ih =>
    rw [List.map_cons, List.forall_mem_cons, ← ih]
    constructor
    · intro h
      generalize hr' : g r = r' at h
      cases h with
      | keep _ h => exact ⟨Or.inr rfl, h⟩
      | change hr _ h => exact ⟨Or.inl hr, h⟩
      | remove hr h =>
        -- the rest would have to be longer than it was
        have hlen := h.length_le
        simp only [List.length_cons, List.length_map] at hlen
        omega
    · rintro ⟨hr | hr, h⟩
      · exact .change hr (g r) h
      · rw [hr]
        exact .keep r h

/-- **A removal of rows** touches only the rows that it removes. -/
theorem touches_filter_iff (p : Row V → Bool) :
    Touches P rows (rows.filter p) ↔ ∀ r ∈ rows, P r ∨ p r = true := by
  classical
  constructor
  · intro h r hr
    by_contra hnot
    obtain ⟨hP, hp⟩ := not_or.mp hnot
    have hcomm : (rows.filter p).filter (fun r => ¬ P r) =
        (rows.filter fun r => ¬ P r).filter p := by
      rw [List.filter_filter, List.filter_filter]
      exact List.filter_congr fun r _ => Bool.and_comm _ _
    have hle := h.sublist.length_le
    rw [hcomm] at hle
    have hall := List.length_filter_eq_length_iff.mp (Nat.le_antisymm (List.length_filter_le _ _) hle)
    exact hp (hall r (List.mem_filter.mpr ⟨hr, by simpa using hP⟩))
  · intro h
    induction rows with
    | nil => exact .nil
    | cons r rows ih =>
      obtain ⟨hr, hrows⟩ := List.forall_mem_cons.mp h
      rw [List.filter_cons]
      split_ifs with hp
      · exact .keep r (ih hrows)
      · exact .remove (hr.resolve_right hp) (ih hrows)

/-! ## Assignments -/

theorem assign_of_notMem {sets : List (List Char × V)} {c : List Char}
    (hc : c ∉ sets.map Prod.fst) (r : Row V) : Engine.assign sets r c = r c := by
  have hl : sets.lookup c = none := by
    rw [List.lookup_eq_none_iff]
    intro x hx
    have hne : c ≠ x.1 := by
      rintro rfl
      exact hc (List.mem_map_of_mem hx)
    simpa using hne
  rw [Engine.assign, hl]
  rfl

theorem assign_congr {sets : List (List Char × V)} {r r' : Row V}
    (h : ∀ c, c ∉ sets.map Prod.fst → r c = r' c) : Engine.assign sets r = Engine.assign sets r' := by
  funext c
  by_cases hc : c ∈ sets.map Prod.fst
  · have hl : ∃ v, sets.lookup c = some v := by
      cases hl : sets.lookup c with
      | some v => exact ⟨v, rfl⟩
      | none =>
        rw [List.lookup_eq_none_iff] at hl
        obtain ⟨x, hx, rfl⟩ := List.mem_map.mp hc
        exact absurd (hl x hx) (by simp)
    obtain ⟨v, hv⟩ := hl
    simp [Engine.assign, hv]
  · rw [assign_of_notMem hc, assign_of_notMem hc, h c hc]

theorem assign_single (c : List Char) (v : V) (r : Row V) : Engine.assign [(c, v)] r c = v := by
  simp [Engine.assign]

theorem assign_assign {sets sets' : List (List Char × V)}
    (h : sets.map Prod.fst = sets'.map Prod.fst) (r : Row V) :
    Engine.assign sets' (Engine.assign sets r) = Engine.assign sets' r :=
  assign_congr fun _ hc => assign_of_notMem (h ▸ hc) r

end Sql
