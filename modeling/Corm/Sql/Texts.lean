import Corm.Sql.Where

/-!
# A database of texts

An engine that can be run: each value is NULL or a text, and the predicates are `c = v` and
`c IS NULL`.

* `texts`; `texts_readsNull`, `texts_readsEq`: it reads both as SQL does.
-/

namespace Sql

/-- Comparison with `=`: unknown when one side is NULL. -/
def sameText (a b : Option (List Char)) : Option Bool :=
  a.bind fun x => b.map fun y => decide (x = y)

/-- The truth value of a predicate; those it does not know are unknown. -/
def textPred : List (Item (Option (List Char))) → Row (Option (List Char)) → Option Bool
  | [.tok (.word c), .tok (.sym s), .val v], r => if s = '=' then sameText (r c) v else none
  | [.tok (.word c), .tok (.sym s), .tok (.word n)], r =>
    if s = '=' then sameText (r c) (some n) else none
  | [.tok (.word c), .tok (.word k), .tok (.word l)], r =>
    if isKw "IS".toList k && isKw "NULL".toList l then some (r c).isNone else none
  | _, _ => none

/-- The engine. -/
def texts : Engine (Option (List Char)) := ⟨none, textPred⟩

theorem texts_readsNull {c : List Char} (hc : isReserved c = false) : texts.ReadsNull c where
  name := hc
  test r := by
    show some (r c).isNone = some true ↔ r c = none
    simp

theorem texts_readsEq (c : List Char) : texts.ReadsEq c := by
  intro v r r' h
  show sameText (r c) v = sameText (r' c) v
  rw [h]

end Sql
