import Corm.Sql.Window

/-!
# The clauses of a SELECT

A SELECT on one table, without GROUP BY and HAVING.

* `Clauses`, `readClauses`: the select list, the table, the condition and the order;
* `selectForm`, **`readClauses_form`**: reading a statement whose clauses are closed;
* `closed_selectForm`: nothing in it belongs behind its ORDER BY.
-/

namespace Sql

/-- The tokens that no clause goes beyond. -/
def isClause (t : Tok) : Bool :=
  isLater t || match t with
    | .word w => isKw "FROM".toList w || isKw "INTO".toList w
    | _ => false

/-- The clauses of a statement. -/
structure Clauses where
  distinct : Bool
  cols : List Tok
  table : List Char
  cond : Option (List Tok)
  order : Option (List Tok)
  deriving DecidableEq

/-! ## Reading -/

/-- A select list without its DISTINCT. -/
def splitDistinct : List Tok → Bool × List Tok
  | .word w :: ts => if isKw "DISTINCT".toList w then (true, ts) else (false, .word w :: ts)
  | ts => (false, ts)

/-- An optional WHERE. -/
def readCond : List Tok → Option (Option (List Tok) × List Tok)
  | .word k :: ts =>
    if isKw "WHERE".toList k then (upTo isClause 0 ts).map fun r => (some r.1, r.2)
    else some (none, .word k :: ts)
  | ts => some (none, ts)

/-- An optional ORDER BY, up to the end. -/
def readOrder : List Tok → Option (Option (List Tok))
  | [] => some none
  | .word k :: .word l :: ts =>
    if isKw "ORDER".toList k ∧ isKw "BY".toList l then
      (upTo isClause 0 ts).bind fun r => if r.2 = [] then some (some r.1) else none
    else none
  | _ => none

/-- What follows the select list `cols`. -/
def readFrom (cols : List Tok) : List Tok → Option Clauses
  | .word k :: .quoted q t :: ts =>
    if isKw "FROM".toList k ∧ q ≠ .single then
      (readCond ts).bind fun r => (readOrder r.2).map fun order =>
        ⟨(splitDistinct cols).1, (splitDistinct cols).2, t, r.1, order⟩
    else none
  | _ => none

/-- The clauses of a SELECT. -/
def readClauses : List Tok → Option Clauses
  | .word k :: ts =>
    if isKw "SELECT".toList k then (upTo isClause 0 ts).bind fun r => readFrom r.1 r.2 else none
  | _ => none

/-! ## The form of the statement -/

/-- The tokens of WHERE and a condition. -/
def condToks : Option (List Tok) → List Tok
  | none => []
  | some ts => .word "WHERE".toList :: ts

/-- The tokens of ORDER BY and its terms. -/
def orderToks : Option (List Tok) → List Tok
  | none => []
  | some ts => [Tok.word "ORDER".toList, .word "BY".toList] ++ ts

/-- The tokens of a SELECT. -/
def selectForm (cols : List Tok) (q : Quote) (t : List Char) (cond order : Option (List Tok)) :
    List Tok :=
  .word "SELECT".toList :: (cols ++ .word "FROM".toList :: .quoted q t ::
    (condToks cond ++ orderToks order))

variable {cols : List Tok} {q : Quote} {t : List Char} {cond order : Option (List Tok)}

theorem readOrder_orderToks (h : ∀ ts ∈ order, Closed isClause ts) :
    readOrder (orderToks order) = some order := by
  cases order with
  | none => rfl
  | some ts =>
    have hts : upTo isClause 0 ts = _ := h ts rfl
    rw [orderToks, List.cons_append, List.cons_append, List.nil_append, readOrder,
      if_pos (by decide), hts]
    rfl

theorem readCond_condToks (h : ∀ ts ∈ cond, Closed isClause ts) (order : Option (List Tok)) :
    readCond (condToks cond ++ orderToks order) = some (cond, orderToks order) := by
  cases cond with
  | none =>
    cases order with
    | none => rfl
    | some ts => rfl
  | some ts =>
    have hts : upTo isClause 0 (ts ++ orderToks order) = some (ts, orderToks order) := by
      cases order with
      | none => rw [orderToks, List.append_nil, h ts rfl]
      | some os => exact (h ts rfl).upTo_append (by decide) _
    rw [condToks, List.cons_append, readCond, if_pos (by decide), hts]
    rfl

/-- **Reading a SELECT** whose clauses are closed. -/
theorem readClauses_form (hq : q ≠ .single) (hcols : Closed isClause cols)
    (hcond : ∀ ts ∈ cond, Closed isClause ts) (horder : ∀ ts ∈ order, Closed isClause ts) :
    readClauses (selectForm cols q t cond order) =
      some ⟨(splitDistinct cols).1, (splitDistinct cols).2, t, cond, order⟩ := by
  rw [selectForm, readClauses, if_pos (by decide), hcols.upTo_append (by decide), Option.bind_some,
    readFrom, if_pos ⟨by decide, hq⟩, readCond_condToks hcond, Option.bind_some,
    readOrder_orderToks horder]
  rfl

theorem isTail_isClause (t : Tok) (h : isTail t = true) : isClause t = true := by
  simp only [isClause, isLater, h, Bool.true_or]

theorem closed_selectForm (hcols : Closed isClause cols) (hcond : ∀ ts ∈ cond, Closed isClause ts)
    (horder : ∀ ts ∈ order, Closed isClause ts) :
    Closed isTail (selectForm cols q t cond order) := by
  have htail {ts : List Tok} (h : Closed isClause ts) : Closed isTail ts := h.mono isTail_isClause
  have hselect : Closed isTail [.word "SELECT".toList] := by decide
  have hfrom : Closed isTail [.word "FROM".toList, .quoted q t] := rfl
  have hw : Closed isTail (condToks cond) := by
    cases cond with
    | none => rfl
    | some ts =>
      have hwhere : Closed isTail [.word "WHERE".toList] := by decide
      exact hwhere.append (htail (hcond ts rfl))
  have ho : Closed isTail (orderToks order) := by
    cases order with
    | none => rfl
    | some ts => exact Closed.append (by decide) (htail (horder ts rfl))
  exact hselect.append ((htail hcols).append (hfrom.append (hw.append ho)))

end Sql
