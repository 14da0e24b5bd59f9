import Corm.Sql.Where
import Mathlib.Data.Int.Notation
import Mathlib.Data.List.TakeDrop

/-!
# LIMIT and OFFSET

They are the last clause of a SELECT, outside of all parentheses. A statement with an OFFSET before the
LIMIT, a FETCH, a lock or a `;` is not read.

* `upTo`, `Closed`: the tokens before the first one that stops, outside of parentheses, and the texts
  where none does;
* `Window`, `readWindow`, `Window.apply`: the clause, and the rows it lets through;
* `windowed`, `readSelect`: a statement as what stands before the clause, and the clause;
* `numberToks`, `readWindow_limit`, `readWindow_offset`: reading the clause;
* **`flatten_pages`**: the pages of a list, one after the other, are the list.
-/

namespace Sql

/-! ## Outside of parentheses -/

/-- The number of open parentheses after a token, when there were `d`. -/
def depthAfter (d : ℕ) : Tok → Option ℕ
  | .sym c =>
    if c = '(' then some (d + 1)
    else if c = ')' then (if d = 0 then none else some (d - 1)) else some d
  | _ => some d

/-- The tokens before the first one outside of all parentheses that stops, and the others; `d`
parentheses are open. -/
def upTo (stop : Tok → Bool) : ℕ → List Tok → Option (List Tok × List Tok)
  | d, [] => if d = 0 then some ([], []) else none
  | d, t :: ts =>
    if d = 0 ∧ stop t = true then some ([], t :: ts)
    else (depthAfter d t).bind fun d' => (upTo stop d' ts).map fun r => (t :: r.1, r.2)

variable {stop : Tok → Bool} {d : ℕ} {t : Tok} {ts us a rest : List Tok}

theorem upTo_cons (h : ¬ (d = 0 ∧ stop t = true)) : upTo stop d (t :: ts) =
    (depthAfter d t).bind fun d' => (upTo stop d' ts).map fun r => (t :: r.1, r.2) := if_neg h

theorem upTo_stop (ht : stop t = true) : upTo stop 0 (t :: ts) = some ([], t :: ts) :=
  if_pos ⟨rfl, ht⟩

theorem upTo_nil_eq_some (h : upTo stop d [] = some (a, us)) : d = 0 ∧ a = [] ∧ us = [] := by
  rw [upTo] at h
  split_ifs at h with hd
  cases h
  exact ⟨hd, rfl, rfl⟩

theorem upTo_cons_eq_some (h : upTo stop d (t :: ts) = some (a, us)) :
    ((d = 0 ∧ stop t = true) ∧ a = [] ∧ us = t :: ts) ∨
      ∃ d' a', ¬ (d = 0 ∧ stop t = true) ∧ depthAfter d t = some d' ∧
        upTo stop d' ts = some (a', us) ∧ a = t :: a' := by
  by_cases ht : d = 0 ∧ stop t = true
  · rw [upTo, if_pos ht] at h
    cases h
    exact Or.inl ⟨ht, rfl, rfl⟩
  · rw [upTo_cons ht] at h
    obtain ⟨d', hd', h⟩ := Option.bind_eq_some_iff.mp h
    obtain ⟨r, hr, h⟩ := Option.map_eq_some_iff.mp h
    cases h
    exact Or.inr ⟨d', r.1, ht, hd', hr, rfl⟩

/-- Where nothing stops in the first text, the second one is read on its own. -/
theorem upTo_append (h : upTo stop d ts = some (a, [])) (us : List Tok) :
    upTo stop d (ts ++ us) = (upTo stop 0 us).map fun r => (ts ++ r.1, r.2) := by
  induction ts generalizing d a with
  | nil =>
    obtain ⟨rfl, -, -⟩ := upTo_nil_eq_some h
    show upTo stop 0 us = (upTo stop 0 us).map fun r => (r.1, r.2)
    cases upTo stop 0 us <;> rfl
  | cons t ts ih =>
    obtain ⟨-, -, hnil⟩ | ⟨d', a', ht, hd', hrest, -⟩ := upTo_cons_eq_some h
    · cases hnil
    · rw [List.cons_append, upTo_cons ht, hd', Option.bind_some, ih hrest, Option.map_map]
      rfl

theorem upTo_append_stop (h : upTo stop d ts = some (a, t :: rest)) (us : List Tok) :
    upTo stop d (ts ++ us) = some (a, t :: rest ++ us) := by
  induction ts generalizing d a with
  | nil => cases (upTo_nil_eq_some h).2.2
  | cons t' ts ih =>
    obtain ⟨ht, rfl, heq⟩ | ⟨d', a', ht, hd', hrest, rfl⟩ := upTo_cons_eq_some h
    · rw [heq, List.cons_append, upTo, if_pos ht]
    · rw [List.cons_append, upTo_cons ht, hd', Option.bind_some, ih hrest]
      rfl

/-- Nothing stops in the text outside of its parentheses, which match. -/
def Closed (stop : Tok → Bool) (ts : List Tok) : Prop := upTo stop 0 ts = some (ts, [])

instance (stop : Tok → Bool) (ts : List Tok) : Decidable (Closed stop ts) :=
  inferInstanceAs (Decidable (_ = _))

theorem Closed.append (h : Closed stop ts) (h' : Closed stop us) : Closed stop (ts ++ us) := by
  rw [Closed, upTo_append h, h']
  rfl

theorem Closed.upTo_append (h : Closed stop ts) (ht : stop t = true) (us : List Tok) :
    upTo stop 0 (ts ++ t :: us) = some (ts, t :: us) := by
  rw [Sql.upTo_append h, upTo_stop ht, Option.map_some, List.append_nil]

theorem upTo_mono {stop' : Tok → Bool} (hstop : ∀ t, stop' t = true → stop t = true)
    (h : upTo stop d ts = some (a, [])) : upTo stop' d ts = some (a, []) := by
  induction ts generalizing d a with
  | nil => exact h
  | cons t ts ih =>
    obtain ⟨-, -, hnil⟩ | ⟨d', a', ht, hd', hrest, rfl⟩ := upTo_cons_eq_some h
    · cases hnil
    · have ht' : ¬ (d = 0 ∧ stop' t = true) := fun h' => ht ⟨h'.1, hstop t h'.2⟩
      rw [upTo_cons ht', hd', Option.bind_some, ih hrest]
      rfl

theorem Closed.mono {stop' : Tok → Bool} (hstop : ∀ t, stop' t = true → stop t = true)
    (h : Closed stop ts) : Closed stop' ts := upTo_mono hstop h

/-! ## The clause -/

/-- The value of the digits of a number. -/
def digits (w : List Char) : Option ℕ :=
  if w ≠ [] ∧ w.all Char.isDigit = true then some (Nat.ofDigitChars 10 w 0) else none

/-- A number, perhaps with a sign. -/
def readNumber : List Tok → Option (ℤ × List Tok)
  | .word w :: ts => (digits w).map fun n => ((n : ℤ), ts)
  | .sym c :: .word w :: ts => if c = '-' then (digits w).map fun n => (-(n : ℤ), ts) else none
  | _ => none

/-- A limit, if there is one, and an offset. -/
structure Window where
  limit : Option ℤ
  offset : ℤ
  deriving DecidableEq

/-- The rows that it lets through; a negative limit is none. -/
def Window.apply {α : Type} (w : Window) (rows : List α) : List α :=
  match w.limit with
  | some n => if 0 ≤ n then (rows.drop w.offset.toNat).take n.toNat else rows.drop w.offset.toNat
  | none => rows.drop w.offset.toNat

/-- The word LIMIT. -/
def isLimit : Tok → Bool
  | .word w => isKw "LIMIT".toList w
  | _ => false

/-- What stands after the number of a LIMIT. -/
def readOffset (n : ℤ) : List Tok → Option Window
  | [] => some ⟨some n, 0⟩
  | .word k :: ts =>
    if isKw "OFFSET".toList k then
      (readNumber ts).bind fun r => if r.2 = [] then some ⟨some n, r.1⟩ else none
    else none
  | _ => none

/-- The clause, up to the end of the statement; it may be missing. -/
def readWindow : List Tok → Option Window
  | [] => some ⟨none, 0⟩
  | t :: ts => if isLimit t then (readNumber ts).bind fun r => readOffset r.1 r.2 else none

/-- A statement as what stands before the clause, and the clause. -/
def windowed (ts : List Tok) : Option (List Tok × Window) :=
  (upTo isTail 0 ts).bind fun r => (readWindow r.2).map fun w => (r.1, w)

/-- What the tokens before the clause mean, with the values of the placeholders, and the clause. -/
def readSelect {V α : Type} (δ : Dialect) (body : List V → List Tok → Option α) (text : List Char)
    (vs : List V) : Option (α × Window) :=
  (lex δ text).bind fun ts => (windowed ts).bind fun r => (body vs r.1).map fun x => (x, r.2)

/-! ## Reading the clause -/

/-- The tokens of a number. -/
def numberToks : ℤ → List Tok
  | .ofNat n => [.word (Nat.toDigits 10 n)]
  | .negSucc n => [.sym '-', .word (Nat.toDigits 10 (n + 1))]

theorem digits_toDigits (n : ℕ) : digits (Nat.toDigits 10 n) = some n := by
  have hall : (Nat.toDigits 10 n).all Char.isDigit = true :=
    List.all_eq_true.mpr fun c hc => Nat.isDigit_of_mem_toDigits (by decide) (by decide) hc
  rw [digits, if_pos ⟨Nat.toDigits_ne_nil, hall⟩, Nat.ofDigitChars_ten_toDigits]

theorem readNumber_numberToks (z : ℤ) (ts : List Tok) :
    readNumber (numberToks z ++ ts) = some (z, ts) := by
  cases z with
  | ofNat n =>
    rw [numberToks, List.cons_append, List.nil_append, readNumber, digits_toDigits]
    rfl
  | negSucc n =>
    rw [numberToks, List.cons_append, List.cons_append, List.nil_append, readNumber, if_pos rfl,
      digits_toDigits]
    rfl

theorem readWindow_limit (n : ℤ) :
    readWindow (.word "LIMIT".toList :: numberToks n) = some ⟨some n, 0⟩ := by
  have hn := readNumber_numberToks n []
  rw [List.append_nil] at hn
  rw [readWindow, if_pos (by decide), hn]
  rfl

theorem readWindow_offset (n m : ℤ) :
    readWindow (.word "LIMIT".toList :: (numberToks n ++ .word "OFFSET".toList :: numberToks m)) =
      some ⟨some n, m⟩ := by
  have hm := readNumber_numberToks m []
  rw [List.append_nil] at hm
  rw [readWindow, if_pos (by decide), readNumber_numberToks, Option.bind_some, readOffset,
    if_pos (by decide), hm]
  rfl

theorem readNumber_before_limit {r : ℤ × List Tok}
    (h : readNumber (rest ++ .word "LIMIT".toList :: us) = some r) :
    ∃ rest', r.2 = rest' ++ .word "LIMIT".toList :: us := by
  have hnone : digits "LIMIT".toList = none := by decide
  match rest, h with
  | [], h =>
    rw [List.nil_append, readNumber, hnone] at h
    cases h
  | .word w :: rest, h =>
    obtain ⟨n, -, rfl⟩ := Option.map_eq_some_iff.mp h
    exact ⟨rest, rfl⟩
  | [.sym c], h =>
    rw [List.cons_append, List.nil_append, readNumber, hnone] at h
    split_ifs at h
    cases h
  | .sym c :: .word w :: rest, h =>
    rw [List.cons_append, List.cons_append, readNumber] at h
    split_ifs at h
    obtain ⟨n, -, rfl⟩ := Option.map_eq_some_iff.mp h
    exact ⟨rest, rfl⟩

theorem readWindow_twice (t : Tok) (rest us : List Tok) :
    readWindow (t :: rest ++ .word "LIMIT".toList :: us) = none := by
  rw [List.cons_append, readWindow]
  split_ifs
  swap
  · rfl
  rw [Option.bind_eq_none_iff]
  intro r hr
  obtain ⟨rest', hrest⟩ := readNumber_before_limit hr
  rw [hrest]
  match rest' with
  | [] => rfl
  | .word k :: rest' =>
    rw [List.cons_append, readOffset]
    split_ifs
    · rw [Option.bind_eq_none_iff]
      intro r' hr'
      obtain ⟨rest'', hrest'⟩ := readNumber_before_limit hr'
      rw [hrest', if_neg (by simp)]
    · rfl
  | .quoted q w :: rest' => rfl
  | .sym c :: rest' => rfl
  | .param k :: rest' => rfl

/-! ## Pages -/

/-- **The pages of a list** of `k` elements each, one after the other, are the list. -/
theorem flatten_pages {α : Type} (rows : List α) (k n : ℕ) :
    ((List.range n).map fun i => (rows.drop (i * k)).take k).flatten = rows.take (n * k) := by
  induction n with
  | zero => rw [Nat.zero_mul, List.take_zero]; rfl
  | succ n ih =>
    rw [List.range_succ, List.map_append, List.flatten_append, ih, List.map_singleton,
      List.flatten_singleton, Nat.succ_mul, List.take_add]

end Sql
