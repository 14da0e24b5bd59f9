import Corm.Sql.Lex

/-!
# Literals with quotes in them

* `doubled`: a text with its quotes doubled;
* **`run_doubled`**, **`lexPart_doubled`**: between quotes it is one literal, whose value is the text,
  but for MySQL.
-/

namespace Sql

/-- The text with every quote `q` written twice. -/
def doubled (q : Quote) (s : List Char) : List Char :=
  s.flatMap fun c => if c = q.char then [c, c] else [c]

theorem doubled_cons (q : Quote) (c : Char) (s : List Char) :
    doubled q (c :: s) = (if c = q.char then [c, c] else [c]) ++ doubled q s := rfl

theorem length_doubled_le (q : Quote) (s : List Char) : (doubled q s).length ≤ 2 * s.length := by
  induction s with
  | nil => simp [doubled]
  | cons c s ih =>
    rw [doubled_cons, List.length_append, List.length_cons]
    split_ifs <;> simp <;> omega

variable {δ : Dialect}

/-- In a literal, the doubled text is read as the text, and leaves the literal open. -/
theorem run_doubled (hd : δ ≠ .mysql) (q : Quote) (s v : List Char) :
    run δ (.quoted q v) (doubled q s) = ([], .quoted q (v ++ s)) := by
  induction s generalizing v with
  | nil => simp [doubled, run]
  | cons c s ih =>
    have hstep : run δ (.quoted q v) (if c = q.char then [c, c] else [c]) =
        ([], .quoted q (v ++ [c])) := by
      split_ifs with h <;> simp [run, step, h, hd]
    rw [doubled_cons, run_append, hstep, ih]
    simp

/-- **A doubled text between quotes** is one literal. -/
theorem lexPart_doubled (hd : δ ≠ .mysql) (q : Quote) (s : List Char) :
    lexPart δ (q.char :: (doubled q s ++ [q.char])) = some [.quoted q s] := by
  have hopen : step δ .idle q.char = ([], .quoted q []) := by cases q <;> rfl
  have hclose : step δ (.quoted q s) q.char = ([], .closing q s) := by simp [step]
  have hrun : run δ .idle (q.char :: (doubled q s ++ [q.char])) = ([], .closing q s) := by
    simp only [run_cons, hopen, run_append, run_doubled hd, List.nil_append, hclose]
    rfl
  rw [lexPart, hrun]
  rfl

end Sql
