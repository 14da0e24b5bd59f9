import Mathlib.Algebra.Ring.Int.Defs
import Mathlib.Data.List.TakeWhile

/-!
# The number at the start of a text

* `isSpace`: the blanks of the C locale;
* `value`: blanks, a sign and decimal digits, the rest is not looked at; `atoi`, `strtoll`: the
  number as an `int` and as a `long long`;
* `value_toDigits`, `value_neg`: reading what was printed.
-/

namespace Strtol

/-- `isspace`. -/
def isSpace (c : Char) : Bool :=
  c == ' ' || c == '\t' || c == '\n' || c == Char.ofNat 11 || c == Char.ofNat 12 || c == '\r'

/-- The number with the leading digits of a text. -/
def digits (s : List Char) : ℕ := Nat.ofDigitChars 10 (s.takeWhile Char.isDigit) 0

/-- A sign, and the digits after it. -/
def signed : List Char → ℤ
  | '-' :: s => -(digits s : ℤ)
  | '+' :: s => digits s
  | s => digits s

/-- **The number at the start of a text.** -/
def value (s : List Char) : ℤ := signed (s.dropWhile isSpace)

/-- `atoi`; undefined for a number that is not an `int`. -/
def atoi (s : List Char) : Option ℤ :=
  if -2 ^ 31 ≤ value s ∧ value s < 2 ^ 31 then some (value s) else none

/-- `strtoll` in base 10: the nearest `long long`. -/
def strtoll (s : List Char) : ℤ :=
  if value s < -2 ^ 63 then -2 ^ 63 else if 2 ^ 63 ≤ value s then 2 ^ 63 - 1 else value s

variable {rest : List Char}

theorem digits_toDigits (n : ℕ) (h : rest.head?.any Char.isDigit = false) :
    digits (Nat.toDigits 10 n ++ rest) = n := by
  have hdigits : ∀ c ∈ Nat.toDigits 10 n, c.isDigit = true := fun c hc =>
    Nat.isDigit_of_mem_toDigits (by decide) (by decide) hc
  have hrest : rest.takeWhile Char.isDigit = [] := by
    cases rest with
    | nil => rfl
    | cons c rest => exact List.takeWhile_cons_of_neg (by simpa using h)
  rw [digits, List.takeWhile_append_of_pos hdigits, hrest, List.append_nil,
    Nat.ofDigitChars_ten_toDigits]

theorem isSpace_of_isDigit {c : Char} (h : c.isDigit = true) : isSpace c = false := by
  have hne : ∀ d : Char, d.isDigit = false → c ≠ d := by
    rintro d hd rfl
    rw [h] at hd
    cases hd
  simp [isSpace, hne ' ' rfl, hne '\t' rfl, hne '\n' rfl, hne (Char.ofNat 11) rfl,
    hne (Char.ofNat 12) rfl, hne '\r' rfl]

theorem exists_toDigits (n : ℕ) :
    ∃ c cs, Nat.toDigits 10 n = c :: cs ∧ c.isDigit = true := by
  obtain ⟨c, cs, h⟩ := List.exists_cons_of_ne_nil (Nat.toDigits_ne_nil (b := 10) (n := n))
  refine ⟨c, cs, h, Nat.isDigit_of_mem_toDigits (b := 10) (n := n) (by decide) (by decide) ?_⟩
  rw [h]
  exact List.mem_cons_self

theorem value_toDigits (n : ℕ) (h : rest.head?.any Char.isDigit = false) :
    value (Nat.toDigits 10 n ++ rest) = n := by
  obtain ⟨c, cs, hn, hc⟩ := exists_toDigits n
  have hdrop : (Nat.toDigits 10 n ++ rest).dropWhile isSpace = Nat.toDigits 10 n ++ rest := by
    rw [hn, List.cons_append, List.dropWhile_cons_of_neg (by simp [isSpace_of_isDigit hc])]
  have hd := digits_toDigits n h
  rw [value, hdrop]
  rw [hn, List.cons_append] at hd ⊢
  have hsign : ∀ d : Char, d.isDigit = false → ∀ s, c :: (cs ++ rest) ≠ d :: s := by
    rintro d hd s heq
    rw [(List.cons.inj heq).1, hd] at hc
    cases hc
  rw [signed.eq_3 _ (hsign '-' rfl) (hsign '+' rfl), hd]

theorem value_neg (n : ℕ) (h : rest.head?.any Char.isDigit = false) :
    value ('-' :: (Nat.toDigits 10 n ++ rest)) = -n := by
  rw [value, List.dropWhile_cons_of_neg (by decide), signed, digits_toDigits n h]

theorem strtoll_eq {s : List Char} (hlo : -2 ^ 63 ≤ value s) (hhi : value s < 2 ^ 63) :
    strtoll s = value s := by
  rw [strtoll, if_neg (Int.not_lt.mpr hlo), if_neg (Int.not_le.mpr hhi)]

end Strtol
