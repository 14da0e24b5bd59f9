import Corm.Sql.Weld
import Corm.Sql.Window

/-!
# A SELECT around its condition

What stands before the WHERE and behind it is kept as it is; only the condition is understood.

* `Parts`, `readParts`: a statement as what stands before the condition, the condition, and what
  stands behind it; `readParts_closed`: of one that ends in its WHERE;
* `Selector`, `Selector.select`: a database that sees the condition through the rows it is true of;
* `SameReading`, **`select_eq_iff`**: two statements that every database answers alike.
-/

namespace Sql

variable {V ρ : Type} {δ : Dialect} {a b : List Char} {vs : List V}

/-- A SELECT around its condition, with the values of its placeholders. -/
structure Parts (V : Type) where
  head : List (Item V)
  cond : Cond V
  tail : List (Item V)

/-- The tokens before WHERE, between it and the next clause, and from there on; without WHERE there
is no condition. -/
def splitParts (ts : List Tok) : Option (List Tok × Option (List Tok) × List Tok) :=
  (upTo isLater 0 ts).bind fun r =>
    match r.2 with
    | .word k :: us =>
      if isKw "WHERE".toList k then (upTo isLater 0 us).map fun s => (r.1, some s.1, s.2)
      else some (r.1, none, .word k :: us)
    | us => some (r.1, none, us)

/-- A condition with its values; no condition is the empty AND. -/
def fillCond (vs : List V) (n : ℕ) : Option (List Tok) → Option (Cond V)
  | none => some [[]]
  | some ts => (fill vs n ts).bind parseWhere

/-- A SELECT; `none` when it cannot be read. -/
def readParts (δ : Dialect) (text : List Char) (vs : List V) : Option (Parts V) := do
  let ts ← lex δ text
  let (head, cond, tail) ← splitParts ts
  let n := marks head + marks (cond.getD [])
  some ⟨← fill vs 0 head, ← fillCond vs (marks head) cond, ← fill vs n tail⟩

/-- **A SELECT that ends in its WHERE**, whose condition stays in it. -/
theorem readParts_closed {pre : List Tok} {cond : Option (List Tok)} (hpre : Closed isLater pre)
    (hplain : Plain pre) (hcond : ∀ ts ∈ cond, Closed isLater ts)
    (hlex : lex δ a = some (pre ++ cond.elim [] (.word "WHERE".toList :: ·))) (vs : List V) :
    readParts δ a vs = (fillCond vs 0 cond).map fun G => ⟨pre.map .tok, G, []⟩ := by
  have hsplit : splitParts (pre ++ cond.elim [] (.word "WHERE".toList :: ·)) =
      some (pre, cond, []) := by
    cases cond with
    | none =>
      rw [Option.elim_none, List.append_nil, splitParts, show upTo isLater 0 pre = _ from hpre]
      rfl
    | some ts =>
      have hts : upTo isLater 0 ts = _ := hcond ts rfl
      rw [Option.elim_some, splitParts, hpre.upTo_append (by decide), Option.bind_some]
      simp only
      rw [if_pos (by decide), hts]
      rfl
  have hhead : fill vs 0 pre = some (pre.map .tok) := fill_plain hplain vs 0
  have htail (n : ℕ) : fill vs n [] = some [] := rfl
  unfold readParts
  rw [hlex]
  simp only [Option.bind_eq_bind, Option.bind_some, hsplit, hhead, marks_plain hplain, htail]
  cases fillCond vs 0 cond <;> rfl

/-- A database: the truth of predicates, what it answers to a statement from what stands around its
condition and the rows that the condition is true of, and to a statement that is not read. -/
structure Selector (V ρ : Type) where
  engine : Engine V
  answer : List (Item V) → List (Item V) → (Row V → Bool) → ρ
  other : List Char → ρ

/-- What it answers to a SELECT with the values `vs`. -/
def Selector.select (A : Selector V ρ) (δ : Dialect) (text : List Char) (vs : List V) : ρ :=
  match readParts δ text vs with
  | some p => A.answer p.head p.tail (A.engine.holds p.cond)
  | none => A.other text

/-- Two SELECTs are the same around their conditions, which are alike. -/
structure Parts.Same (p p' : Parts V) : Prop where
  head : p.head = p'.head
  cond : Alike p.cond p'.cond
  tail : p.tail = p'.tail

/-- Two statements read as the same SELECT; or they are the same, when they cannot be read. -/
def SameReading (δ : Dialect) (a b : List Char) (vs : List V) : Prop :=
  match readParts δ a vs, readParts δ b vs with
  | some p, some p' => p.Same p'
  | none, none => a = b
  | _, _ => False

instance [DecidableEq V] (p p' : Parts V) : Decidable (p.Same p') :=
  decidable_of_iff (p.head = p'.head ∧ Alike p.cond p'.cond ∧ p.tail = p'.tail)
    ⟨fun ⟨h, c, t⟩ => ⟨h, c, t⟩, fun ⟨h, c, t⟩ => ⟨h, c, t⟩⟩

/-- **Two statements get the same answer from every database** exactly when they read as the same. -/
theorem select_eq_iff [Nonempty V] {x y : ρ} (hxy : x ≠ y) :
    (∀ A : Selector V ρ, A.select δ a vs = A.select δ b vs) ↔ SameReading δ a b vs := by
  classical
  let E : Engine V := ⟨Classical.arbitrary V, fun _ _ => none⟩
  simp only [Selector.select, SameReading]
  cases readParts δ a vs with
  | none =>
    cases readParts δ b vs with
    | none =>
      refine ⟨fun h => ?_, fun h A => congrArg A.other h⟩
      by_contra hne
      have htext := h ⟨E, fun _ _ _ => x, fun text => if text = b then x else y⟩
      simp only [if_neg hne, if_true] at htext
      exact hxy htext.symm
    | some p' => exact iff_of_false (fun h => hxy (h ⟨E, fun _ _ _ => y, fun _ => x⟩)) id
  | some p =>
    cases readParts δ b vs with
    | none => exact iff_of_false (fun h => hxy (h ⟨E, fun _ _ _ => x, fun _ => y⟩)) id
    | some p' =>
      constructor
      · intro h
        refine ⟨?_, alike_iff.mp fun E r => ?_, ?_⟩
        · by_contra hne
          have hhead := h ⟨E, fun head _ _ => if head = p'.head then x else y, fun _ => x⟩
          simp only [if_neg hne, if_true] at hhead
          exact hxy hhead.symm
        · have hkeep := h ⟨E, fun _ _ keep => if keep r then x else y, fun _ => x⟩
          cases hp : E.holds p.cond r <;> cases hp' : E.holds p'.cond r <;>
            simp [hp, hp', hxy, hxy.symm] at hkeep ⊢
        · by_contra hne
          have htail := h ⟨E, fun _ tail _ => if tail = p'.tail then x else y, fun _ => x⟩
          simp only [if_neg hne, if_true] at htail
          exact hxy htail.symm
      · rintro ⟨hhead, hcond, htail⟩ A
        have hholds : A.engine.holds p.cond = A.engine.holds p'.cond :=
          funext fun r => alike_iff.mpr hcond A.engine r
        show A.answer p.head p.tail _ = A.answer p'.head p'.tail _
        rw [hhead, hholds, htail]

end Sql
