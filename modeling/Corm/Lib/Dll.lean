import Mathlib.Data.List.Induction
import Mathlib.Data.List.Nodup
import Mathlib.Logic.Function.Basic

/-!
# Doubly linked lists in a heap

Cells with a value and two links live at addresses of a heap. `none` is the null link, and a read
of an address that holds no cell is undefined, so the operations return an `Option`.

* `modify`, `setNext`, `setPrev`: writes through a possibly null link;
* `Chain h prev l next`: the cells `l` are linked in order, between the links `prev` and `next`;
* `chain_append`, `Chain.frame`, `Chain.setNext_last`, `Chain.setPrev_first`: cutting a chain, and
  relinking its ends;
* **`Chain.unlink`**, **`Chain.push`**: taking a cell out of a chain, and putting one in front;
* `search`, `walkNext`, `walkPrev`: the loops over a chain, with fuel.
-/

namespace Dll

/-- An address. -/
abbrev Ptr := ℕ

/-- A list cell. -/
structure Cell (α : Type) where
  val : α
  prev : Option Ptr
  next : Option Ptr

/-- The memory: the cell at each address, if there is one. -/
abbrev Heap (α : Type) := Ptr → Option (Cell α)

variable {α : Type}

/-- Overwrite the cell at `p`. -/
def modify (h : Heap α) (p : Ptr) (f : Cell α → Cell α) : Option (Heap α) :=
  (h p).map fun c => Function.update h p (some (f c))

/-- `if (p) p->next = n`. -/
def setNext (h : Heap α) (p n : Option Ptr) : Option (Heap α) :=
  match p with
  | none => some h
  | some q => modify h q fun c => { c with next := n }

/-- `if (p) p->prev = n`. -/
def setPrev (h : Heap α) (p n : Option Ptr) : Option (Heap α) :=
  match p with
  | none => some h
  | some q => modify h q fun c => { c with prev := n }

/-- The address of the first cell of `l`, or `next`. -/
def first (l : List (Ptr × α)) (next : Option Ptr) : Option Ptr :=
  match l with
  | [] => next
  | x :: _ => some x.1

/-- The address of the last cell of `l`, or `prev`. -/
def last (prev : Option Ptr) : List (Ptr × α) → Option Ptr
  | [] => prev
  | x :: l => last (some x.1) l

/-- The cells `l` are linked in order between `prev` and `next`. -/
def Chain (h : Heap α) : Option Ptr → List (Ptr × α) → Option Ptr → Prop
  | _, [], _ => True
  | prev, x :: l, next => h x.1 = some ⟨x.2, prev, first l next⟩ ∧ Chain h (some x.1) l next

/-- The addresses of `l`. -/
abbrev ptrs (l : List (Ptr × α)) : List Ptr := l.map Prod.fst

variable {h h' : Heap α} {a b l : List (Ptr × α)} {prev next : Option Ptr} {x : Ptr × α}

@[simp] theorem first_nil (n : Option Ptr) : first ([] : List (Ptr × α)) n = n := rfl
@[simp] theorem first_cons (n : Option Ptr) : first (x :: l) n = some x.1 := rfl
@[simp] theorem last_nil (n : Option Ptr) : last n ([] : List (Ptr × α)) = n := rfl
@[simp] theorem last_cons (n : Option Ptr) : last n (x :: l) = last (some x.1) l := rfl

theorem first_append (n : Option Ptr) : first (a ++ b) n = first a (first b n) := by
  cases a <;> rfl

theorem last_append (n : Option Ptr) : last n (a ++ b) = last (last n a) b := by
  induction a generalizing n with
  | nil => rfl
  | cons y a ih => exact ih _

theorem last_concat (n : Option Ptr) : last n (a ++ [x]) = some x.1 := by
  rw [last_append]
  rfl

theorem first_none_iff : first l none = none ↔ l = [] := by
  cases l <;> simp

theorem last_none_iff : last none l = none ↔ l = [] := by
  rcases List.eq_nil_or_concat l with rfl | ⟨l, x, rfl⟩
  · simp
  · rw [List.concat_eq_append, last_concat]
    simp

theorem first_eq_of_ne (hl : l ≠ []) (m n : Option Ptr) : first l m = first l n := by
  cases l with
  | nil => exact absurd rfl hl
  | cons x l => rfl

theorem last_eq_of_ne (hl : l ≠ []) (m n : Option Ptr) : last m l = last n l := by
  cases l with
  | nil => exact absurd rfl hl
  | cons x l => rfl

theorem first_mem (hl : l ≠ []) : ∃ p ∈ ptrs l, first l next = some p := by
  cases l with
  | nil => exact absurd rfl hl
  | cons x l => exact ⟨x.1, by simp, rfl⟩

theorem last_mem (hl : l ≠ []) : ∃ p ∈ ptrs l, last prev l = some p := by
  rcases List.eq_nil_or_concat l with rfl | ⟨l, x, rfl⟩
  · exact absurd rfl hl
  · rw [List.concat_eq_append, last_concat]
    exact ⟨x.1, by simp, rfl⟩

theorem first_unlink (hx : x.1 ∉ ptrs a) :
    (if some x.1 = first (a ++ x :: b) next then first b next else first (a ++ x :: b) next) =
      first (a ++ b) next := by
  by_cases ha : a = []
  · simp [ha]
  · obtain ⟨p, hp, he⟩ := @first_mem _ _ (some x.1) ha
    rw [first_append, first_append, first_cons, if_neg, first_eq_of_ne ha]
    rw [he]
    intro heq
    exact hx (Option.some.inj heq ▸ hp)

theorem last_unlink (hx : x.1 ∉ ptrs b) :
    (if some x.1 = last prev (a ++ x :: b) then last prev a else last prev (a ++ x :: b)) =
      last prev (a ++ b) := by
  by_cases hb : b = []
  · simp [hb, last_append]
  · obtain ⟨p, hp, he⟩ := @last_mem _ _ (some x.1) hb
    rw [last_append, last_append, last_cons, if_neg, last_eq_of_ne hb]
    rw [he]
    intro heq
    exact hx (Option.some.inj heq ▸ hp)

theorem chain_append :
    Chain h prev (a ++ b) next ↔ Chain h prev a (first b next) ∧ Chain h (last prev a) b next := by
  induction a generalizing prev with
  | nil => simp [Chain]
  | cons y a ih => simp only [List.cons_append, Chain, ih, first_append, last_cons, and_assoc]

theorem Chain.frame (hc : Chain h prev l next) (he : ∀ p ∈ ptrs l, h' p = h p) :
    Chain h' prev l next := by
  induction l generalizing prev with
  | nil => trivial
  | cons y l ih =>
    refine ⟨by rw [he y.1 (by simp)]; exact hc.1, ih hc.2 fun p hp => he p ?_⟩
    exact List.mem_cons_of_mem _ hp

theorem modify_of_eq {c : Cell α} {p : Ptr} (f : Cell α → Cell α) (hp : h p = some c) :
    modify h p f = some (Function.update h p (some (f c))) := by
  rw [modify, hp]
  rfl

theorem Chain.setNext_last (hc : Chain h none a next) (hn : (ptrs a).Nodup) (n : Option Ptr) :
    ∃ h', setNext h (last none a) n = some h' ∧ Chain h' none a n ∧ ∀ q ∉ ptrs a, h' q = h q := by
  rcases List.eq_nil_or_concat a with rfl | ⟨a, x, rfl⟩
  · exact ⟨h, rfl, trivial, fun _ _ => rfl⟩
  · rw [List.concat_eq_append] at hc hn ⊢
    rw [chain_append] at hc
    have hx : x.1 ∉ ptrs a := by
      simp only [ptrs, List.map_append, List.nodup_append, List.map_cons, List.map_nil] at hn
      exact fun hm => hn.2.2 _ hm x.1 (by simp) rfl
    refine ⟨_, by rw [last_concat]; exact modify_of_eq _ hc.2.1, ?_, fun q hq => ?_⟩
    · rw [chain_append]
      refine ⟨hc.1.frame fun p hp => Function.update_of_ne (ne_of_mem_of_not_mem hp hx) _ _, ?_, trivial⟩
      rw [Function.update_self]
      rfl
    · refine Function.update_of_ne (fun e => hq ?_) _ _
      simp [ptrs, e]

theorem Chain.setPrev_first (hc : Chain h prev b none) (hn : (ptrs b).Nodup) (n : Option Ptr) :
    ∃ h', setPrev h (first b none) n = some h' ∧ Chain h' n b none ∧ ∀ q ∉ ptrs b, h' q = h q := by
  cases b with
  | nil => exact ⟨h, rfl, trivial, fun _ _ => rfl⟩
  | cons x b =>
    have hx : x.1 ∉ ptrs b := (List.nodup_cons.mp hn).1
    refine ⟨_, modify_of_eq _ hc.1, ⟨by rw [Function.update_self], ?_⟩, fun q hq => ?_⟩
    · exact hc.2.frame fun p hp => Function.update_of_ne (ne_of_mem_of_not_mem hp hx) _ _
    · exact Function.update_of_ne (fun e => hq (by simp [e])) _ _

theorem Chain.cell (hc : Chain h none (a ++ x :: b) none) :
    h x.1 = some ⟨x.2, last none a, first b none⟩ :=
  (chain_append.mp hc).2.1

/-- **Taking a cell out.** The two writes of an unlink join its neighbours; the cell itself and
everything outside the chain stay as they are. -/
theorem Chain.unlink (hc : Chain h none (a ++ x :: b) none) (hn : (ptrs (a ++ x :: b)).Nodup) :
    ∃ h₁ h₂, setNext h (last none a) (first b none) = some h₁ ∧ h₁ x.1 = h x.1 ∧
      setPrev h₁ (first b none) (last none a) = some h₂ ∧ h₂ x.1 = h x.1 ∧
      Chain h₂ none (a ++ b) none ∧ ∀ q ∉ ptrs (a ++ x :: b), h₂ q = h q := by
  obtain ⟨ha, -, hb⟩ := chain_append.mp hc
  simp only [ptrs, List.map_append, List.map_cons, List.nodup_append, List.nodup_cons,
    List.mem_cons] at hn
  obtain ⟨hna, ⟨hxb, hnb⟩, hd⟩ := hn
  have hxa : x.1 ∉ ptrs a := fun hm => hd _ hm _ (Or.inl rfl) rfl
  have hab : ∀ p ∈ ptrs b, p ∉ ptrs a := fun p hp hm => hd _ hm _ (Or.inr hp) rfl
  obtain ⟨h₁, e1, c1, f1⟩ := ha.setNext_last hna (first b none)
  obtain ⟨h₂, e2, c2, f2⟩ := (hb.frame fun p hp => f1 p (hab p hp)).setPrev_first hnb (last none a)
  refine ⟨h₁, h₂, e1, f1 _ hxa, e2, (f2 _ hxb).trans (f1 _ hxa), ?_, fun q hq => ?_⟩
  · exact chain_append.mpr ⟨c1.frame fun p hp => f2 p fun hm => hab p hm hp, c2⟩
  · simp only [ptrs, List.map_append, List.map_cons, List.mem_append, List.mem_cons, not_or] at hq
    rw [f2 q hq.2.2, f1 q hq.1]

/-- **Putting a cell in front.** The cell at `x.1` is linked to the first cell of `l` and back. -/
theorem Chain.push (hc : Chain h none l none) (hn : (ptrs (x :: l)).Nodup)
    (hx : h x.1 = some ⟨x.2, none, first l none⟩) :
    ∃ h', setPrev h (first l none) (some x.1) = some h' ∧ Chain h' none (x :: l) none ∧
      ∀ q ∉ ptrs l, h' q = h q := by
  obtain ⟨hxl, hnl⟩ := List.nodup_cons.mp hn
  obtain ⟨h', e, c, f⟩ := hc.setPrev_first hnl (some x.1)
  exact ⟨h', e, ⟨by rw [f _ hxl]; exact hx, c⟩, f⟩

/-! ## Loops over a chain -/

/-- Follow the `next` links from `p` to the first cell whose value satisfies `P`. -/
def search (P : α → Bool) (h : Heap α) : ℕ → Option Ptr → Option (Option Ptr)
  | 0, _ => none
  | _ + 1, none => some none
  | n + 1, some p => do
    let c ← h p
    if P c.val then some (some p) else search P h n c.next

/-- The addresses met by following the `next` links from `p`. -/
def walkNext (h : Heap α) : ℕ → Option Ptr → Option (List Ptr)
  | 0, _ => none
  | _ + 1, none => some []
  | n + 1, some p => do
    let c ← h p
    let ps ← walkNext h n c.next
    some (p :: ps)

/-- The addresses met by following the `prev` links from `p`. -/
def walkPrev (h : Heap α) : ℕ → Option Ptr → Option (List Ptr)
  | 0, _ => none
  | _ + 1, none => some []
  | n + 1, some p => do
    let c ← h p
    let ps ← walkPrev h n c.prev
    some (p :: ps)

theorem Chain.search_eq (P : α → Bool) {n : ℕ} (hc : Chain h prev l none) (hl : l.length < n) :
    search P h n (first l none) = some ((l.find? fun x => P x.2).map Prod.fst) := by
  induction l generalizing prev n with
  | nil =>
    obtain ⟨n, rfl⟩ : ∃ m, n = m + 1 := ⟨n - 1, by omega⟩
    rfl
  | cons x l ih =>
    obtain ⟨n, rfl⟩ : ∃ m, n = m + 1 := ⟨n - 1, by simp only [List.length_cons] at hl; omega⟩
    have hx : search P h (n + 1) (first (x :: l) none) =
        if P x.2 then some (some x.1) else search P h n (first l none) := by
      simp only [first_cons, search, hc.1, Option.bind_eq_bind, Option.bind_some]
    rw [hx, List.find?_cons]
    cases P x.2 with
    | true => rfl
    | false =>
      simp only [Bool.false_eq_true, if_false]
      exact ih hc.2 (by simp only [List.length_cons] at hl; omega)

theorem Chain.walkNext_eq {n : ℕ} (hc : Chain h prev l none) (hl : l.length < n) :
    walkNext h n (first l none) = some (ptrs l) := by
  induction l generalizing prev n with
  | nil =>
    obtain ⟨n, rfl⟩ : ∃ m, n = m + 1 := ⟨n - 1, by omega⟩
    rfl
  | cons x l ih =>
    obtain ⟨n, rfl⟩ : ∃ m, n = m + 1 := ⟨n - 1, by simp only [List.length_cons] at hl; omega⟩
    simp only [first_cons, walkNext, hc.1, Option.bind_eq_bind, Option.bind_some]
    rw [ih hc.2 (by simp only [List.length_cons] at hl; omega)]
    rfl

theorem Chain.walkPrev_eq {n : ℕ} (hc : Chain h none l next) (hl : l.length < n) :
    walkPrev h n (last none l) = some (ptrs l).reverse := by
  induction l using List.reverseRecOn generalizing next n with
  | nil =>
    obtain ⟨n, rfl⟩ : ∃ m, n = m + 1 := ⟨n - 1, by omega⟩
    rfl
  | append_singleton l x ih =>
    rw [List.length_append, List.length_singleton] at hl
    obtain ⟨n, rfl⟩ : ∃ m, n = m + 1 := ⟨n - 1, by omega⟩
    obtain ⟨h1, h2, -⟩ := chain_append.mp hc
    rw [last_concat]
    simp only [walkPrev, h2, Option.bind_eq_bind, Option.bind_some]
    rw [ih h1 (by omega)]
    simp [ptrs]

end Dll
