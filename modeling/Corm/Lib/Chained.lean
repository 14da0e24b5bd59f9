import Mathlib.Data.List.FinRange
import Mathlib.Data.List.Perm.Basic
import Mathlib.Logic.Function.Basic

/-!
# Chained hash tables

A table has `n` chains of entries. A new entry is put in front of the chain of its key, and a search
takes the first entry of that chain with the key; a key may be in a chain more than once.

* `Table`: the chains, and the number of entries; `empty`, `insert`, `find`, `remove`, `entries`;
* **`find_insert`**: a table is a map, where inserting is an update;
* `Placed`: each entry is in the chain of its key;
* `Lists`: the chains are those of an association list; **`Lists.insert`**, **`Lists.remove`**,
  **`Lists.find`**, **`Lists.entries`**: the operations are those on that list.
-/

namespace Chained

/-- The chains of a table, and the number of its entries. -/
structure Table (K V : Type) (n : ℕ) where
  buckets : Fin n → List (K × V)
  count : ℕ

variable {K V : Type} {n : ℕ}

namespace Table

/-- The table without entries. -/
def empty : Table K V n := ⟨fun _ => [], 0⟩

variable (hash : K → Fin n) (t : Table K V n)

/-- A new entry in front of its chain. -/
def insert (k : K) (v : V) : Table K V n :=
  ⟨Function.update t.buckets (hash k) ((k, v) :: t.buckets (hash k)), t.count + 1⟩

/-- The value of the first entry with the key. -/
def find [DecidableEq K] (k : K) : Option V :=
  ((t.buckets (hash k)).find? fun e => decide (e.1 = k)).map Prod.snd

/-- Each entry is in the chain of its key. -/
def Placed : Prop := ∀ i, ∀ e ∈ t.buckets i, hash e.1 = i

variable {hash t}

theorem buckets_insert (k : K) (v : V) : (t.insert hash k v).buckets =
    Function.update t.buckets (hash k) ((k, v) :: t.buckets (hash k)) := rfl

@[simp] theorem find_empty [DecidableEq K] (k : K) :
    (empty : Table K V n).find hash k = none := rfl

/-- **Inserting is an update**: the new entry is found before those with its key, and the search for
another key does not stop at it, whether or not it is in the same chain. -/
theorem find_insert [DecidableEq K] (k k' : K) (v : V) :
    (t.insert hash k v).find hash k' = if k' = k then some v else t.find hash k' := by
  rw [find, find, buckets_insert]
  by_cases hk : k' = k
  · simp [hk]
  · by_cases hb : hash k' = hash k
    · simp [hb, Ne.symm hk, hk]
    · rw [Function.update_of_ne hb, if_neg hk]

theorem placed_empty : (empty : Table K V n).Placed hash := fun _ _ h => by cases h

theorem Placed.insert (h : t.Placed hash) (k : K) (v : V) : (t.insert hash k v).Placed hash := by
  intro i e he
  by_cases hi : i = hash k
  · subst hi
    rw [buckets_insert, Function.update_self, List.mem_cons] at he
    rcases he with rfl | he
    · rfl
    · exact h _ e he
  · rw [buckets_insert, Function.update_of_ne hi] at he
    exact h i e he

/-! ## Association lists -/

variable (hash t) in
/-- Unlink the first entry with the key. -/
def remove [DecidableEq K] (k : K) : Table K V n :=
  if (t.find hash k).isSome then
    ⟨Function.update t.buckets (hash k)
      ((t.buckets (hash k)).eraseP fun e => decide (e.1 = k)), t.count - 1⟩
  else t

variable (t) in
/-- All entries, chain by chain. -/
def entries : List (K × V) := (List.finRange n).flatMap t.buckets

variable (hash t) in
/-- The chains of an association list, which has the newest entry first. -/
structure Lists (l : List (K × V)) : Prop where
  chain : ∀ i, t.buckets i = l.filter fun e => decide (hash e.1 = i)
  count : t.count = l.length

variable {l : List (K × V)}

theorem lists_empty : (empty : Table K V n).Lists hash [] := ⟨fun _ => rfl, rfl⟩

theorem Lists.insert (h : t.Lists hash l) (k : K) (v : V) :
    (t.insert hash k v).Lists hash ((k, v) :: l) where
  chain i := by
    rw [buckets_insert, List.filter_cons]
    by_cases hi : hash k = i
    · subst hi
      rw [Function.update_self, if_pos (decide_eq_true rfl), h.chain]
    · rw [Function.update_of_ne (Ne.symm hi), if_neg (by simpa using hi), h.chain]
  count := congrArg Nat.succ h.count

/-- **A search** finds the newest entry with the key. -/
theorem Lists.find [DecidableEq K] (h : t.Lists hash l) (k : K) :
    t.find hash k = (l.find? fun e => decide (e.1 = k)).map Prod.snd := by
  rw [Table.find, h.chain, List.find?_filter]
  congr 2
  funext e
  by_cases he : e.1 = k <;> simp [he]

theorem filter_eraseP {α : Type} {p q : α → Bool} (hqp : ∀ a, q a = true → p a = true)
    (l : List α) : (l.eraseP q).filter p = (l.filter p).eraseP q := by
  induction l with
  | nil => rfl
  | cons a l ih =>
    by_cases hq : q a = true
    · rw [List.eraseP_cons_of_pos hq, List.filter_cons_of_pos (hqp a hq), List.eraseP_cons_of_pos hq]
    · rw [List.eraseP_cons_of_neg hq]
      by_cases hp : p a = true
      · rw [List.filter_cons_of_pos hp, List.filter_cons_of_pos hp, List.eraseP_cons_of_neg hq, ih]
      · rw [List.filter_cons_of_neg hp, List.filter_cons_of_neg hp, ih]

theorem filter_eraseP_of_not {α : Type} {p q : α → Bool} (hqp : ∀ a, q a = true → p a = false)
    (l : List α) : (l.eraseP q).filter p = l.filter p := by
  induction l with
  | nil => rfl
  | cons a l ih =>
    by_cases hq : q a = true
    · rw [List.eraseP_cons_of_pos hq, List.filter_cons_of_neg (by rw [hqp a hq]; exact nofun)]
    · rw [List.eraseP_cons_of_neg hq, List.filter_cons, List.filter_cons, ih]

/-- **Removing** takes the newest entry with the key away, and no other. -/
theorem Lists.remove [DecidableEq K] (h : t.Lists hash l) (k : K) :
    (t.remove hash k).Lists hash (l.eraseP fun e => decide (e.1 = k)) := by
  have hfound : (t.find hash k).isSome = true ↔ ∃ e ∈ l, decide (e.1 = k) = true := by
    rw [h.find, Option.isSome_map, List.find?_isSome]
  unfold Table.remove
  split_ifs with hmem <;> rw [hfound] at hmem
  · refine ⟨fun i => ?_, ?_⟩
    · show Function.update t.buckets (hash k) _ i = _
      by_cases hi : hash k = i
      · subst hi
        rw [Function.update_self, h.chain, filter_eraseP]
        intro e he
        simp [of_decide_eq_true he]
      · rw [Function.update_of_ne (Ne.symm hi), h.chain, filter_eraseP_of_not]
        intro e he
        simp [of_decide_eq_true he, hi]
    · obtain ⟨e, he, hk⟩ := hmem
      show t.count - 1 = _
      rw [List.length_eraseP_of_mem he hk, h.count]
  · rw [List.eraseP_of_forall_not fun e he hk => hmem ⟨e, he, hk⟩]
    exact h

theorem flatMap_filter_perm {α ι : Type} [DecidableEq ι] (g : α → ι) {is : List ι} {l : List α}
    (his : is.Nodup) (hg : ∀ a ∈ l, g a ∈ is) :
    (is.flatMap fun i => l.filter fun a => decide (g a = i)).Perm l := by
  induction is generalizing l with
  | nil =>
    have hnil : l = [] := List.eq_nil_iff_forall_not_mem.mpr fun a ha => List.not_mem_nil (hg a ha)
    rw [hnil]
    rfl
  | cons i is ih =>
    obtain ⟨hi, his⟩ := List.nodup_cons.mp his
    have hrest : (is.flatMap fun j => l.filter fun a => decide (g a = j)) =
        is.flatMap fun j => (l.filter fun a => !decide (g a = i)).filter
          fun a => decide (g a = j) := by
      refine List.flatMap_congr fun j hj => ?_
      rw [List.filter_filter]
      refine List.filter_congr fun a _ => ?_
      by_cases haj : g a = j
      · have hai : g a ≠ i := fun hai => hi (hai ▸ haj ▸ hj)
        rw [decide_eq_true haj, decide_eq_false hai]
        rfl
      · rw [decide_eq_false haj]
        rfl
    have hothers := ih (l := l.filter fun a => !decide (g a = i)) his fun a ha => by
      obtain ⟨hal, hai⟩ := List.mem_filter.mp ha
      exact (List.mem_cons.mp (hg a hal)).resolve_left (by simpa using hai)
    rw [List.flatMap_cons, hrest]
    exact (hothers.append_left _).trans (List.filter_append_perm _ l)

/-- **All entries** are those of the list, each of them once. -/
theorem Lists.entries (h : t.Lists hash l) : t.entries.Perm l := by
  have hchains : t.buckets = fun i => l.filter fun e => decide (hash e.1 = i) := funext h.chain
  rw [Table.entries, hchains]
  exact flatMap_filter_perm (fun e : K × V => hash e.1) (List.nodup_finRange n)
    fun _ _ => List.mem_finRange _

end Table

end Chained
