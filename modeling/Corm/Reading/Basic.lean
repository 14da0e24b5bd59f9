import Corm.Builder
import Corm.Sql.Window

/-!
# How SQL reads names and placeholders

The pieces that `query.c` and `builder.c` write, read by the lexical rules of SQL.

* `lexPart_ident`, `lexPart_qident`: an identifier, bare and between quotes;
* `placeholderTok`, `lexPart_placeholder`: placeholders; `fillTok_placeholder`: the value one takes;
* `lexPart_commaSep`: parts between commas; `lexPart_int`: integers;
* `appendWithPlaceholders_append`, `appendWithPlaceholders_id`: rewriting a text in pieces, and the
  texts it leaves alone.
-/

namespace Corm

open Sql (Tok Quote lexPart lexPart_append_some Joins)

variable {δ : Sql.Dialect} {bt : BackendType} {w : Text} {s : Text}

/-! ## Names and placeholders -/

theorem isWordChar_eq (c : Char) : Sql.isWordChar c = isIdentChar c := by
  have hup : c.isUpper = (decide ('A' ≤ c) && decide (c ≤ 'Z')) := Bool.decide_and _ _
  have hlow : c.isLower = (decide ('a' ≤ c) && decide (c ≤ 'z')) := rfl
  have hdig : c.isDigit = (decide ('0' ≤ c) && decide (c ≤ '9')) := rfl
  have hw : Sql.isWordChar c =
      (c.isUpper || c.isLower || c.isDigit || c == '_' || c == '.' || c == '*') := rfl
  rw [hw, hup, hlow, hdig, Bool.or_comm (decide ('A' ≤ c) && decide (c ≤ 'Z'))]
  rfl

theorem isWordChar_of_isIdentChar {c : Char} (h : isIdentChar c = true) :
    Sql.isWordChar c = true := (isWordChar_eq c).trans h

theorem Ident.ne_nil (h : Ident s) : s ≠ [] := by
  rintro rfl
  cases h

theorem Ident.identChar (h : Ident s) {c : Char} (hc : c ∈ s) : isIdentChar c = true := by
  simp only [Ident, isValidIdentifier, Bool.and_eq_true, List.all_eq_true] at h
  exact h.2 c hc

theorem Ident.wordChar (h : Ident s) : ∀ c ∈ s, Sql.isWordChar c = true :=
  fun _ hc => isWordChar_of_isIdentChar (h.identChar hc)

theorem Ident.notMem (h : Ident s) {c : Char} (hc : isIdentChar c = false) : c ∉ s := by
  intro hm
  rw [h.identChar hm] at hc
  cases hc

theorem lexPart_ident (h : Ident s) : lexPart δ s = some [.word s] :=
  Sql.lexPart_word h.wordChar h.ne_nil

/-- The lexical rules of a backend. -/
def BackendType.dialect : BackendType → Sql.Dialect
  | .sqlite => .sqlite
  | .mysql => .mysql
  | .postgres => .postgres

/-- The quote of a dialect. -/
def quoteOf : BackendType → Quote
  | .postgres => .double
  | .mysql => .back
  | .sqlite => .double

theorem quoteOf_ne (bt : BackendType) : quoteOf bt ≠ .single := by
  cases bt <;> decide

theorem dialectQuote_eq (bt : BackendType) : dialectQuote bt = [(quoteOf bt).char] := by
  cases bt <;> rfl

theorem lexPart_qident (bt : BackendType) (h : Ident s) :
    lexPart δ (qident bt s) = some [.quoted (quoteOf bt) s] := by
  rw [qident, dialectQuote_eq]
  have hquote : isIdentChar (quoteOf bt).char = false := by cases bt <;> rfl
  refine Sql.lexPart_quoted fun c hc => ⟨?_, ?_⟩
  · rintro rfl
    exact h.notMem hquote hc
  · rintro rfl
    exact h.notMem rfl hc

/-- The token of a placeholder. -/
def placeholderTok (bt : BackendType) (index : ℕ) : Tok :=
  .param (match bt with
    | .postgres => some (index + 1)
    | .mysql | .sqlite => none)

theorem run_dollar {ds : List Char} (hd : ∀ c ∈ ds, c.isDigit = true) (es : List Char) :
    Sql.run δ (.dollar es) ds = ([], .dollar (es ++ ds)) := by
  induction ds generalizing es with
  | nil => simp [Sql.run]
  | cons c ds ih =>
    have hs : Sql.step δ (.dollar es) c = ([], .dollar (es ++ [c])) := by
      simp [Sql.step, hd c List.mem_cons_self]
    rw [Sql.run_cons, hs, ih fun c h => hd c (List.mem_cons_of_mem _ h)]
    simp

theorem run_placeholder_postgres (index : ℕ) :
    Sql.run δ .idle (placeholderStr .postgres index) =
      ([], .dollar (Nat.toDigits 10 (index + 1))) := by
  have hs : Sql.step δ .idle '$' = ([], .dollar []) := rfl
  rw [placeholderStr, Sql.run_cons, hs, run_dollar fun c h =>
    Nat.isDigit_of_mem_toDigits (by decide) (by decide) h]
  rfl

theorem lexPart_placeholder (bt : BackendType) (index : ℕ) :
    lexPart δ (placeholderStr bt index) = some [placeholderTok bt index] := by
  cases bt with
  | postgres =>
    have hne : Nat.toDigits 10 (index + 1) ≠ [] := Nat.toDigits_ne_nil
    rw [lexPart, run_placeholder_postgres]
    simp [Sql.flush, Sql.dollarTok, hne, placeholderTok, Nat.ofDigitChars_ten_toDigits]
  | mysql => rfl
  | sqlite => rfl

/-- The placeholder with index `k` takes the value with index `k` where `?` stand in order. -/
theorem fillTok_placeholder {V : Type} {n k : ℕ} (h : bt = .postgres ∨ n = k) (vs : List V) :
    Sql.fillTok vs n (placeholderTok bt k) = vs[k]?.map .val := by
  cases bt with
  | postgres => rfl
  | mysql =>
    obtain rfl : n = k := h.resolve_left (by decide)
    rfl
  | sqlite =>
    obtain rfl : n = k := h.resolve_left (by decide)
    rfl

theorem tick_placeholder {n k : ℕ} (h : bt = .postgres ∨ n = k) :
    bt = .postgres ∨ Sql.tick n (placeholderTok bt k) = k + 1 := by
  cases bt with
  | postgres => exact Or.inl rfl
  | mysql => exact Or.inr (congrArg (· + 1) (h.resolve_left (by decide)))
  | sqlite => exact Or.inr (congrArg (· + 1) (h.resolve_left (by decide)))

theorem notMem_placeholder (index : ℕ) : '?' ∉ placeholderStr .postgres index := by
  have hd : '?' ∉ Nat.toDigits 10 (index + 1) := by
    intro h
    have := Nat.isDigit_of_mem_toDigits (by decide) (by decide) h
    revert this
    decide
  simp [placeholderStr, hd]

theorem notMem_append {a b : Text} (ha : '?' ∉ a) (hb : '?' ∉ b) : '?' ∉ a ++ b := by
  simp [ha, hb]

/-! ## Rewriting -/

theorem appendWithPlaceholders_append (bt : BackendType) (i : ℕ) (a b : Text) :
    appendWithPlaceholders bt i (a ++ b) =
      appendWithPlaceholders bt i a ++ appendWithPlaceholders bt (i + a.count '?') b := by
  induction a generalizing i with
  | nil => rfl
  | cons c a ih =>
    rw [List.cons_append, appendWithPlaceholders, appendWithPlaceholders]
    by_cases hc : c = '?'
    · rw [if_pos hc, if_pos hc, ih, hc, List.count_cons_self, List.append_assoc]
      congr 3
      omega
    · rw [if_neg hc, if_neg hc, ih, List.count_cons_of_ne hc]
      rfl

theorem appendWithPlaceholders_id (h : bt = .postgres → '?' ∉ w) (i : ℕ) :
    appendWithPlaceholders bt i w = w := by
  induction w generalizing i with
  | nil => rfl
  | cons c w ih =>
    have hw : bt = .postgres → '?' ∉ w := fun hb hm => h hb (List.mem_cons_of_mem _ hm)
    rw [appendWithPlaceholders, ih hw, ih hw]
    by_cases hc : c = '?'
    · rw [if_pos hc]
      cases bt with
      | postgres => exact absurd (hc ▸ List.mem_cons_self) (h rfl)
      | mysql => rw [hc]; rfl
      | sqlite => rw [hc]; rfl
    · rw [if_neg hc]

/-! ## Lists -/

/-- The tokens of parts with commas between them. -/
def commaToks : List (List Tok) → List Tok
  | [] => []
  | [ts] => ts
  | ts :: tss => ts ++ .sym ',' :: commaToks tss

theorem mem_commaToks {t : Tok} {tss : List (List Tok)} (h : t ∈ commaToks tss) :
    t = .sym ',' ∨ ∃ ts ∈ tss, t ∈ ts := by
  induction tss with
  | nil => cases h
  | cons ts tss ih =>
    cases tss with
    | nil => exact Or.inr ⟨ts, List.mem_cons_self, h⟩
    | cons us tss =>
      rcases List.mem_append.mp h with h | h
      · exact Or.inr ⟨ts, List.mem_cons_self, h⟩
      rcases List.mem_cons.mp h with h | h
      · exact Or.inl h
      rcases ih h with h | ⟨vs, hvs, h⟩
      · exact Or.inl h
      · exact Or.inr ⟨vs, List.mem_cons_of_mem _ hvs, h⟩

theorem lexPart_commaSep {α : Type} (text : α → Text) (toks : α → List Tok) (xs : List α)
    (h : ∀ x ∈ xs, lexPart δ (text x) = some (toks x)) :
    lexPart δ (commaSep (xs.map text)) = some (commaToks (xs.map toks)) := by
  induction xs with
  | nil => rfl
  | cons x xs ih =>
    have hx := h x List.mem_cons_self
    cases xs with
    | nil => exact hx
    | cons y xs =>
      have hrest := ih fun z hz => h z (List.mem_cons_of_mem _ hz)
      have hc : lexPart δ ", ".toList = some [.sym ','] := by cases δ <;> rfl
      have hi : (Sql.run δ .idle ", ".toList).2 = .idle := by cases δ <;> rfl
      have htail := lexPart_append_some hc hrest (Or.inl hi)
      have he : commaSep ((x :: y :: xs).map text) =
          text x ++ (", ".toList ++ commaSep ((y :: xs).map text)) := by
        simp only [List.map_cons, commaSep, List.append_assoc]
      rw [he]
      exact lexPart_append_some hx htail (Or.inr ⟨',', _, rfl, rfl⟩)

theorem joins_blank (a b : Text) : Joins δ a (' ' :: b) := Or.inr ⟨' ', b, rfl, rfl⟩

theorem lexPart_andText {a : Text} {ts : List Tok} (h : lexPart δ a = some ts) :
    lexPart δ (" AND ".toList ++ a) = some (.word "AND".toList :: ts) := by
  have hk : lexPart δ " AND ".toList = some [.word "AND".toList] := by cases δ <;> rfl
  have hi : (Sql.run δ .idle " AND ".toList).2 = .idle := by cases δ <;> rfl
  exact lexPart_append_some hk h (Or.inl hi)

/-! ## Integers -/

theorem toList_ofNat (n : ℕ) : (toString (Int.ofNat n)).toList = Nat.toDigits 10 n := by
  show (Int.repr (Int.ofNat n)).toList = _
  simp [Int.repr]

theorem toList_negSucc (n : ℕ) :
    (toString (Int.negSucc n)).toList = '-' :: Nat.toDigits 10 (n + 1) := by
  show (Int.repr (Int.negSucc n)).toList = _
  simp [Int.repr]

/-- **Reading an integer.** -/
theorem lexPart_int (z : ℤ) : lexPart δ (toString z).toList = some (Sql.numberToks z) := by
  have hdigit {n : ℕ} : ∀ c ∈ Nat.toDigits 10 n, Sql.isWordChar c = true := by
    intro c hc
    have hd := Nat.isDigit_of_mem_toDigits (by decide) (by decide) hc
    simp [Sql.isWordChar, Char.isAlphanum, hd]
  cases z with
  | ofNat n =>
    rw [toList_ofNat, Sql.lexPart_word hdigit Nat.toDigits_ne_nil]
    rfl
  | negSucc n =>
    obtain ⟨d, ds, hds⟩ := List.exists_cons_of_ne_nil (Nat.toDigits_ne_nil (b := 10) (n := n + 1))
    have hall := hdigit (n := n + 1)
    rw [hds] at hall
    have hisDigit : d.isDigit = true :=
      Nat.isDigit_of_mem_toDigits (b := 10) (n := n + 1) (by decide) (by decide)
        (hds ▸ List.mem_cons_self)
    have hd : d ≠ '-' := by
      rintro rfl
      cases hisDigit
    -- the sign waits for a second one, and the digit after it begins a word
    have hfirst : Sql.step δ .idle '-' = ([], .minus) := rfl
    have hnext : Sql.step δ .minus d = ([.sym '-'], .word [d]) := by
      have hblank : Sql.isBlank d = false := by
        by_contra hb
        simp only [Sql.isBlank, Bool.not_eq_false, Bool.or_eq_true, beq_iff_eq] at hb
        rcases hb with ((rfl | rfl) | rfl) | rfl <;> cases hisDigit
      simp [Sql.step, Sql.begin, Sql.first, hd, hblank, hall d List.mem_cons_self]
    have hrest : Sql.run δ (.word [d]) ds = ([], .word ([d] ++ ds)) :=
      Sql.run_word_word (fun c hc => hall c (List.mem_cons_of_mem _ hc)) [d]
    rw [toList_negSucc, Sql.numberToks, hds, lexPart, Sql.run_cons, hfirst, Sql.run_cons, hnext, hrest]
    rfl

end Corm
