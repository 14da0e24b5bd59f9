import Mathlib.Data.List.Induction
import Mathlib.Data.List.Nodup

/-!
# Least-recently-used maps

An association list with the most recently used entry in front and a bound on its length.

* `get`, `put`, `remove`: looking up and putting a present key move its entry to the front; putting
  an absent key into a full list drops the last entry;
* `Ok`: distinct keys, and no more entries than the capacity;
* `perm_get`, `perm_put_hit`, `put_miss`: what the operations do to the set of entries.
-/

namespace Lru

variable {K V : Type} {cap : ℕ} {l a b : List (K × V)} {k : K} {v : V} {e : K × V}

/-- Make room for one more entry: the entries dropped and the entries kept. -/
def evict (cap : ℕ) (l : List (K × V)) : List (K × V) × List (K × V) :=
  if cap ≤ l.length then (l.getLast?.toList, l.dropLast) else ([], l)

/-- The keys are distinct and there are at most `cap` of them. -/
structure Ok (cap : ℕ) (l : List (K × V)) : Prop where
  nodup : (l.map Prod.fst).Nodup
  length_le : l.length ≤ cap

theorem evict_append : (evict cap l).2 ++ (evict cap l).1 = l := by
  unfold evict
  split
  · rcases List.eq_nil_or_concat l with rfl | ⟨l, x, rfl⟩ <;> simp
  · simp

theorem evict_length (hcap : 0 < cap) (h : l.length ≤ cap) : (evict cap l).2.length < cap := by
  unfold evict
  split
  · simp only [List.length_dropLast]
    omega
  · simp only
    omega

theorem evict_sublist : (evict cap l).2.Sublist l := by
  unfold evict
  split
  · exact List.dropLast_sublist l
  · exact List.Sublist.refl l

theorem Ok.nil : Ok cap ([] : List (K × V)) := ⟨by simp, by simp⟩

theorem Ok.perm (h : Ok cap l) (hp : a.Perm l) : Ok cap a :=
  ⟨(hp.map Prod.fst).nodup_iff.mpr h.nodup, hp.length_eq ▸ h.length_le⟩

theorem Ok.sublist (h : Ok cap l) (hs : a.Sublist l) : Ok cap a :=
  ⟨h.nodup.sublist (hs.map _), Nat.le_trans hs.length_le h.length_le⟩

variable [DecidableEq K]

/-- The value of the key `k`. -/
def find (l : List (K × V)) (k : K) : Option V := (l.find? fun e => e.1 = k).map Prod.snd

/-- The list without the key `k`. -/
def erase (l : List (K × V)) (k : K) : List (K × V) := l.filter fun e => e.1 ≠ k

/-- Look up `k` and move its entry to the front. -/
def get (l : List (K × V)) (k : K) : Option V × List (K × V) :=
  match find l k with
  | none => (none, l)
  | some v => (some v, (k, v) :: erase l k)

/-- Move the entry of `k` to the front, or make room and put `(k, v)` in front. The first component
holds the dropped entries. -/
def put (cap : ℕ) (l : List (K × V)) (k : K) (v : V) : List (K × V) × List (K × V) :=
  match get l k with
  | (some _, l') => ([], l')
  | (none, _) => ((evict cap l).1, (k, v) :: (evict cap l).2)

/-- Take the entry of `k` out. -/
def remove (l : List (K × V)) (k : K) : Option V × List (K × V) := (find l k, erase l k)

theorem find_eq_none : find l k = none ↔ k ∉ l.map Prod.fst := by
  simp only [find, Option.map_eq_none_iff, List.find?_eq_none, decide_eq_true_eq, List.mem_map,
    not_exists, not_and]

theorem mem_of_find (h : find l k = some v) : (k, v) ∈ l := by
  obtain ⟨e, he, rfl⟩ := Option.map_eq_some_iff.mp h
  have hk : e.1 = k := by simpa using List.find?_some he
  exact hk ▸ List.mem_of_find?_eq_some he

theorem find_of_mem (hn : (l.map Prod.fst).Nodup) (hm : (k, v) ∈ l) : find l k = some v := by
  obtain ⟨a, b, rfl⟩ := List.append_of_mem hm
  simp only [List.map_append, List.map_cons, List.nodup_append, List.mem_cons] at hn
  have ha : k ∉ a.map Prod.fst := fun hm => hn.2.2 _ hm _ (Or.inl rfl) rfl
  rw [← find_eq_none, find, Option.map_eq_none_iff] at ha
  simp [find, List.find?_append, ha]

theorem exists_of_find (h : find l k = some v) :
    ∃ a b, l = a ++ (k, v) :: b ∧ k ∉ a.map Prod.fst := by
  obtain ⟨⟨k', v'⟩, he, rfl⟩ := Option.map_eq_some_iff.mp h
  obtain ⟨hk, a, b, rfl, ha⟩ := List.find?_eq_some_iff_append.mp he
  obtain rfl : k' = k := of_decide_eq_true hk
  refine ⟨a, b, rfl, fun hm => ?_⟩
  obtain ⟨e, hea, heq⟩ := List.mem_map.mp hm
  simpa [heq] using ha e hea

theorem erase_of_notMem (h : k ∉ l.map Prod.fst) : erase l k = l := by
  refine List.filter_eq_self.mpr fun e he => decide_eq_true fun hk => h ?_
  exact List.mem_map.mpr ⟨e, he, hk⟩

theorem erase_middle (hn : ((a ++ (k, v) :: b).map Prod.fst).Nodup) :
    erase (a ++ (k, v) :: b) k = a ++ b := by
  simp only [List.map_append, List.map_cons, List.nodup_append, List.nodup_cons,
    List.mem_cons] at hn
  obtain ⟨-, ⟨hb, -⟩, hab⟩ := hn
  have ha : k ∉ a.map Prod.fst := fun hm => hab _ hm _ (Or.inl rfl) rfl
  have h1 := erase_of_notMem ha
  have h2 := erase_of_notMem hb
  simp only [erase] at h1 h2 ⊢
  rw [List.filter_append, h1, List.filter_cons_of_neg (by simp), h2]

theorem get_none (h : find l k = none) : get l k = (none, l) := by
  simp only [get, h]

theorem get_some (h : find l k = some v) : get l k = (some v, (k, v) :: erase l k) := by
  simp only [get, h]

theorem get_fst (l : List (K × V)) (k : K) : (get l k).1 = find l k := by
  unfold get
  split <;> simp_all

theorem put_hit (v' : V) (h : find l k = some v) :
    put cap l k v' = ([], (k, v) :: erase l k) := by
  simp only [put, get_some h]

theorem put_miss (h : find l k = none) :
    put cap l k v = ((evict cap l).1, (k, v) :: (evict cap l).2) := by
  simp only [put, get_none h]

theorem perm_get (hn : (l.map Prod.fst).Nodup) : (get l k).2.Perm l := by
  cases h : find l k with
  | none => rw [get_none h]
  | some v =>
    obtain ⟨a, b, rfl, -⟩ := exists_of_find h
    rw [get_some h, erase_middle hn]
    exact List.perm_middle.symm

theorem perm_put_hit (v' : V) (hn : (l.map Prod.fst).Nodup) (h : find l k = some v) :
    (put cap l k v').2.Perm l := by
  have hp := perm_get (k := k) hn
  rw [get_some h] at hp
  rwa [put_hit v' h]

theorem Ok.get (h : Ok cap l) (k : K) : Ok cap (get l k).2 := h.perm (perm_get h.nodup)

theorem Ok.remove (h : Ok cap l) (k : K) : Ok cap (remove l k).2 := h.sublist List.filter_sublist

theorem Ok.put (h : Ok cap l) (hcap : 0 < cap) (k : K) (v : V) : Ok cap (put cap l k v).2 := by
  cases hf : find l k with
  | some v' => exact h.perm (perm_put_hit v h.nodup hf)
  | none =>
    rw [put_miss hf]
    refine ⟨?_, evict_length hcap h.length_le⟩
    have hk := find_eq_none.mp hf
    rw [List.map_cons, List.nodup_cons]
    exact ⟨fun hm => hk ((evict_sublist.map _).subset hm), (h.sublist evict_sublist).nodup⟩

end Lru
