import Corm.Sql.Where
import Mathlib.Data.List.Induction

/-!
# Conditions with AND between them

AND binds tighter than OR: the last group of a condition and the first group of the next one become
one group.

* `Within`, `Alike`, **`within_iff`**, **`alike_iff`**: what conditions mean in every database;
* `weld`, `weldAll`: two conditions, and a list of them; **`parseWhere_weld`**: how they are read;
  `parseWhere_and`: a predicate added with AND joins the last group only;
* `conj`, `holds_conj`: the condition that all of them hold;
* `Narrow`, **`alike_conj_iff`**: when the conditions with AND between them mean just that.
-/

namespace Sql

variable {V : Type}

/-- A condition: an OR of ANDs of predicates. -/
abbrev Cond (V : Type) := List (List (List (Item V)))

instance [DecidableEq V] : DecidableEq (Cond V) := inferInstance

variable {p : Pos} {is js : List (Item V)} {d e : Groups V} {G H : Cond V} {Gs : List (Cond V)}
  {E : Engine V} {r : Row V}

/-! ## Comparing conditions -/

/-- Each group of the first condition has all predicates of a group of the second. -/
def Within (G H : Cond V) : Prop := ∀ g ∈ G, ∃ h ∈ H, h ⊆ g

instance [DecidableEq V] (G H : Cond V) : Decidable (Within G H) := by
  unfold Within
  infer_instance

/-- Two conditions whose groups are the same, up to redundant ones. -/
def Alike (G H : Cond V) : Prop := Within G H ∧ Within H G

instance [DecidableEq V] (G H : Cond V) : Decidable (Alike G H) := by
  unfold Alike
  infer_instance

theorem meets_mono {g h : List (List (Item V))} (hs : h ⊆ g) (hg : E.meets g r = true) :
    E.meets h r = true :=
  List.all_eq_true.mpr fun a ha => List.all_eq_true.mp hg a (hs ha)

/-- **A condition implies another**, in every database and every row, exactly when each of its groups
has all predicates of a group of the other. -/
theorem within_iff [Nonempty V] :
    (∀ (E : Engine V) r, E.holds G r = true → E.holds H r = true) ↔ Within G H := by
  constructor
  · intro h g hg
    classical
    -- the predicates of the group are true, and no others
    let E : Engine V := ⟨Classical.arbitrary V, fun a _ => some (decide (a ∈ g))⟩
    have hpred (a : List (Item V)) (r : Row V) : (E.pred a r == some true) = decide (a ∈ g) := by
      show (some (decide (a ∈ g)) == some true) = _
      by_cases ha : a ∈ g <;> simp [ha]
    let r : Row V := fun _ => Classical.arbitrary V
    have hmeets : E.meets g r = true := by
      refine List.all_eq_true.mpr fun a ha => ?_
      rw [hpred]
      exact decide_eq_true ha
    obtain ⟨g', hg', hmeets'⟩ := List.any_eq_true.mp (h E r (List.any_eq_true.mpr ⟨g, hg, hmeets⟩))
    refine ⟨g', hg', fun a ha => ?_⟩
    have hmem := List.all_eq_true.mp hmeets' a ha
    rw [hpred] at hmem
    exact of_decide_eq_true hmem
  · intro h E r hr
    obtain ⟨g, hg, hmeets⟩ := List.any_eq_true.mp hr
    obtain ⟨g', hg', hsub⟩ := h g hg
    exact List.any_eq_true.mpr ⟨g', hg', meets_mono hsub hmeets⟩

/-- **Two conditions mean the same** exactly when they are alike. -/
theorem alike_iff [Nonempty V] :
    (∀ (E : Engine V) r, E.holds G r = E.holds H r) ↔ Alike G H := by
  unfold Alike
  rw [← within_iff, ← within_iff]
  constructor
  · intro h
    exact ⟨fun E r hr => (h E r).symm.trans hr, fun E r hr => (h E r).trans hr⟩
  · intro h E r
    rw [Bool.eq_iff_iff]
    exact ⟨h.1 E r, h.2 E r⟩

/-! ## Joining conditions -/

/-- Two conditions with AND between them. -/
def weld (G H : Cond V) : Cond V := G.dropLast ++ (G.getLastD [] ++ H.headD []) :: H.tail

/-- Conditions with AND between them. -/
def weldAll : List (Cond V) → Cond V
  | [] => []
  | G :: Gs => Gs.foldl weld G

theorem weld_concat (G : Cond V) (g h : List (List (Item V))) (H : Cond V) :
    weld (G ++ [g]) (h :: H) = G ++ (g ++ h) :: H := by
  simp [weld]

theorem weldAll_concat (h : Gs ≠ []) (G : Cond V) :
    weldAll (Gs ++ [G]) = weld (weldAll Gs) G := by
  cases Gs with
  | nil => exact absurd rfl h
  | cons H Gs => exact List.foldl_append

/-! ## Reading -/

theorem Groups.all_push_weld (d : Groups V) (c : Cut) (i : Item V) (H : Cond V) {d' : Groups V}
    (h : d'.all = weld d.all H) : (d'.push c i).all = weld (d.push c i).all H := by
  obtain ⟨a, g, gs⟩ := d
  obtain ⟨a', g', gs'⟩ := d'
  cases c <;> cases gs <;> simp_all [Groups.all, Groups.push, weld]

theorem split_weld (h : split p is = some d) (h' : split .start js = some e) :
    ∃ d', split p (is ++ andItem :: js) = some d' ∧ d'.all = weld d.all e.all := by
  induction is generalizing p d with
  | nil =>
    unfold split at h
    split at h
    · rename_i hp
      subst hp
      cases h
      refine ⟨e.push .and andItem, ?_, rfl⟩
      rw [List.nil_append, split, advance_and, Option.bind_some, h']
      rfl
    · cases h
  | cons i is ih =>
    obtain ⟨⟨c, q⟩, hq, h⟩ := Option.bind_eq_some_iff.mp h
    obtain ⟨d₁, hd, rfl⟩ := Option.map_eq_some_iff.mp h
    obtain ⟨d', hd', hall⟩ := ih hd
    refine ⟨d'.push c i, ?_, d₁.all_push_weld c i e.all hall⟩
    rw [List.cons_append, split, hq, Option.bind_some, hd']
    rfl

/-- **Two conditions with AND between them** share the group in the middle. -/
theorem parseWhere_weld (h : parseWhere is = some G) (h' : parseWhere js = some H) :
    parseWhere (is ++ andItem :: js) = some (weld G H) := by
  obtain ⟨d, hd, rfl⟩ := Option.map_eq_some_iff.mp h
  obtain ⟨e, he, rfl⟩ := Option.map_eq_some_iff.mp h'
  obtain ⟨d', hd', hall⟩ := split_weld hd he
  rw [parseWhere, hd', ← hall]
  rfl

theorem weld_single (hne : G ≠ []) (s : List (Item V)) : weld G [[s]] = andLast s G := by
  rcases List.eq_nil_or_concat G with rfl | ⟨G, g, rfl⟩
  · exact absurd rfl hne
  · rw [List.concat_eq_append, weld_concat, andLast_concat]

/-- **A predicate added with AND joins the last group only.** -/
theorem parseWhere_and {s : List (Item V)} (hs : Atomic s) (h : parseWhere is = some G) :
    parseWhere (is ++ andItem :: s) = some (andLast s G) := by
  have hne : G ≠ [] := by
    obtain ⟨d, -, rfl⟩ := Option.map_eq_some_iff.mp h
    exact List.cons_ne_nil _ _
  rw [parseWhere_weld h (parseWhere_atomic hs), weld_single hne]

/-! ## Truth -/

theorem meets_append (g h : List (List (Item V))) :
    E.meets (g ++ h) r = (E.meets g r && E.meets h r) := List.all_append

/-- The condition that all conditions hold: a group of each of them, in every way to choose. -/
def conj : List (Cond V) → Cond V
  | [] => [[]]
  | G :: Gs => G.flatMap fun g => (conj Gs).map (g ++ ·)

theorem holds_conj (Gs : List (Cond V)) : E.holds (conj Gs) r = Gs.all (E.holds · r) := by
  induction Gs with
  | nil => rfl
  | cons G Gs ih =>
    have hgroup (g : List (List (Item V))) : E.holds ((conj Gs).map (g ++ ·)) r =
        (E.meets g r && E.holds (conj Gs) r) := by
      simp only [Engine.holds, List.any_map, Function.comp_def, meets_append,
        List.and_any_distrib_left]
    rw [conj, List.all_cons, ← ih]
    show (G.flatMap _).any (E.meets · r) = (G.any _ && _)
    rw [List.any_flatMap, List.and_any_distrib_right]
    exact List.any_congr rfl hgroup

theorem holds_weld (hG : E.holds G r = true) (hH : E.holds H r = true) :
    E.holds (weld G H) r = true := by
  obtain ⟨g, hg, hgr⟩ := List.any_eq_true.mp hG
  obtain ⟨h, hh, hhr⟩ := List.any_eq_true.mp hH
  cases H with
  | nil => cases hh
  | cons h₀ H =>
    rcases List.eq_nil_or_concat G with rfl | ⟨G, g₀, rfl⟩
    · cases hg
    · rw [List.concat_eq_append] at hg ⊢
      rw [weld_concat]
      refine List.any_eq_true.mpr ?_
      rcases List.mem_append.mp hg with hg | hg
      · exact ⟨g, List.mem_append_left _ hg, hgr⟩
      · rw [List.mem_singleton.mp hg] at hgr
        rcases List.mem_cons.mp hh with rfl | hh
        · refine ⟨g₀ ++ h, List.mem_append_right _ List.mem_cons_self, ?_⟩
          rw [meets_append, hgr, hhr]
          rfl
        · exact ⟨h, List.mem_append_right _ (List.mem_cons_of_mem _ hh), hhr⟩

theorem holds_weldAll (hne : Gs ≠ []) (h : ∀ G ∈ Gs, E.holds G r = true) :
    E.holds (weldAll Gs) r = true := by
  induction Gs using List.reverseRecOn with
  | nil => exact absurd rfl hne
  | append_singleton Gs G ih =>
    have hG := h G (List.mem_append_right _ List.mem_cons_self)
    by_cases hnil : Gs = []
    · subst hnil
      exact hG
    · rw [weldAll_concat hnil]
      exact holds_weld (ih hnil fun G hG => h G (List.mem_append_left _ hG)) hG

/-- Every group of the joined conditions has all predicates of some group of each of them. -/
def Narrow (Gs : List (Cond V)) : Prop := ∀ G ∈ Gs, Within (weldAll Gs) G

instance [DecidableEq V] (Gs : List (Cond V)) : Decidable (Narrow Gs) := by
  unfold Narrow
  infer_instance

/-- **Conditions with AND between them** mean that all of them hold exactly when they are narrow. -/
theorem alike_conj_iff [Nonempty V] (hne : Gs ≠ []) : Alike (weldAll Gs) (conj Gs) ↔ Narrow Gs := by
  simp only [← alike_iff, Narrow, ← within_iff, holds_conj]
  constructor
  · intro h G hG E r hr
    exact List.all_eq_true.mp ((h E r).symm.trans hr) G hG
  · intro h E r
    rw [Bool.eq_iff_iff]
    constructor
    · intro hr
      exact List.all_eq_true.mpr fun G hG => h G hG E r hr
    · intro hr
      exact holds_weldAll hne (List.all_eq_true.mp hr)

end Sql
