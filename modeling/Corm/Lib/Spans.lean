import Mathlib.Data.List.Basic

/-!
# Where a text comes from

A text in spans, each of one origin: the program's own text, text that it was given, and names, each
written between two delimiters.

* `Span`, `text`: the spans, and the text that they make;
* `Delimited`: every name stands between the delimiters of the language;
* `rewrite`, **`text_rewrite`**: a rewriting that counts as it goes, span by span;
* `text_intercalate`, `delimited_intercalate`: lists with a separator.
-/

namespace Corm.Spans

variable {α : Type*}

/-- A piece of a text, by its origin. -/
inductive Span (α : Type*)
  /-- The program's own text. -/
  | own (t : List α)
  /-- Text that the program was given. -/
  | given (t : List α)
  /-- A name that the program wrote between two copies of `delim`. -/
  | name (n delim : List α)
  deriving DecidableEq

namespace Span

/-- The text of a span. -/
def text : Span α → List α
  | own t => t
  | given t => t
  | name n delim => delim ++ n ++ delim

/-- A name in the span stands between copies of `d`. -/
def DelimitedBy (d : List α) : Span α → Prop
  | name _ delim => delim = d
  | _ => True

instance [DecidableEq α] (d : List α) : DecidablePred (DelimitedBy d) := fun
  | own _ => .isTrue trivial
  | given _ => .isTrue trivial
  | name _ delim => decEq delim d

end Span

/-- The text of the spans. -/
def text (l : List (Span α)) : List α := l.flatMap Span.text

/-- Every name stands between copies of `d`. -/
def Delimited (d : List α) (l : List (Span α)) : Prop := ∀ s ∈ l, s.DelimitedBy d

instance [DecidableEq α] (d : List α) (l : List (Span α)) : Decidable (Delimited d l) :=
  List.decidableBAll (Span.DelimitedBy d) l

variable {d t : List α} {l l' : List (Span α)} {s : Span α}

@[simp] theorem text_nil : text ([] : List (Span α)) = [] := rfl

@[simp] theorem text_cons : text (s :: l) = s.text ++ text l := rfl

@[simp] theorem text_append : text (l ++ l') = text l ++ text l' := List.flatMap_append

@[simp] theorem delimited_nil : Delimited d [] := List.forall_mem_nil _

@[simp] theorem delimited_own : Delimited d (.own t :: l) ↔ Delimited d l := by
  simp [Delimited, Span.DelimitedBy]

@[simp] theorem delimited_given : Delimited d (.given t :: l) ↔ Delimited d l := by
  simp [Delimited, Span.DelimitedBy]

@[simp] theorem delimited_name {n e : List α} :
    Delimited d (.name n e :: l) ↔ e = d ∧ Delimited d l := List.forall_mem_cons

@[simp] theorem delimited_append : Delimited d (l ++ l') ↔ Delimited d l ∧ Delimited d l' :=
  List.forall_mem_append

theorem delimited_flatMap {β : Type*} {f : β → List (Span α)} {xs : List β} :
    Delimited d (xs.flatMap f) ↔ ∀ x ∈ xs, Delimited d (f x) := by
  simp only [Delimited, List.mem_flatMap]
  exact ⟨fun h x hx s hs => h s ⟨x, hx, hs⟩, fun h s ⟨x, hx, hs⟩ => h x hx s hs⟩

/-! ## Lists -/

theorem text_intercalate (sep : List (Span α)) (parts : List (List (Span α))) :
    text (sep.intercalate parts) = (text sep).intercalate (parts.map text) := by
  induction parts with
  | nil => rfl
  | cons l parts ih =>
    cases parts with
    | nil => simp
    | cons l' parts =>
      rw [List.map_cons, List.map_cons, List.intercalate_cons_cons, List.intercalate_cons_cons,
        text_append, text_append, ih, List.map_cons]

theorem delimited_intercalate {sep : List (Span α)} {parts : List (List (Span α))}
    (hsep : Delimited d sep) (hparts : ∀ l ∈ parts, Delimited d l) :
    Delimited d (sep.intercalate parts) := by
  induction parts with
  | nil => exact delimited_nil
  | cons l parts ih =>
    obtain ⟨hl, hrest⟩ := List.forall_mem_cons.mp hparts
    cases parts with
    | nil => rwa [List.intercalate_singleton]
    | cons l' parts =>
      rw [List.intercalate_cons_cons, delimited_append, delimited_append]
      exact ⟨⟨hl, hsep⟩, ih hrest⟩

/-! ## Rewriting -/

/-- The spans after a rewriting that starts from `i` and counts `count t` in a text `t`; names are
not rewritten. -/
def rewrite (f : ℕ → List α → List α) (count : List α → ℕ) (i : ℕ) :
    List (Span α) → List (Span α)
  | [] => []
  | .own t :: l => .own (f i t) :: rewrite f count (i + count t) l
  | .given t :: l => .given (f i t) :: rewrite f count (i + count t) l
  | .name n e :: l => .name n e :: rewrite f count i l

variable {f : ℕ → List α → List α} {count : List α → ℕ}

/-- **Rewriting span by span** is rewriting the text, when the names have nothing to rewrite. -/
theorem text_rewrite (hnil : ∀ i, f i [] = [])
    (happend : ∀ i a b, f i (a ++ b) = f i a ++ f (i + count a) b)
    (hname : ∀ n e, .name n e ∈ l → count (e ++ n ++ e) = 0 ∧
      ∀ i, f i (e ++ n ++ e) = e ++ n ++ e) (i : ℕ) :
    text (rewrite f count i l) = f i (text l) := by
  induction l generalizing i with
  | nil => exact (hnil i).symm
  | cons s l ih =>
    have ih := ih fun n e hmem => hname n e (List.mem_cons_of_mem _ hmem)
    cases s with
    | own t => rw [rewrite, text_cons, text_cons, ih, Span.text, Span.text, happend]
    | given t => rw [rewrite, text_cons, text_cons, ih, Span.text, Span.text, happend]
    | name n e =>
      obtain ⟨hcount, hid⟩ := hname n e List.mem_cons_self
      rw [rewrite, text_cons, text_cons, ih, Span.text, happend, hid, hcount, Nat.add_zero]

@[simp] theorem delimited_rewrite (i : ℕ) :
    Delimited d (rewrite f count i l) ↔ Delimited d l := by
  induction l generalizing i with
  | nil => rfl
  | cons s l ih => cases s <;> simp [rewrite, ih]

end Corm.Spans
