import Mathlib.Data.List.Basic

/-!
# Lexical structure of SQL

Texts are read character by character by a machine that emits tokens.

* `Dialect`: the databases differ in their comments, in the backslashes of literals, in `||` and `&&`,
  and in what a `;` ends;
* `Tok`: words, quoted names and literals, symbols, and the placeholders `?` and `$k`;
* `Mode`, `step`, `run`: the machine; `lex` reads a whole text, whose end ends a comment up to the end
  of the line, and fails on an unclosed quote and on what the machine does not read; `lexPart` reads a
  text that more may follow, and fails on any open comment;
* `Joins`, **`lex_append`**, `lexPart_append`: reading two texts one after the other;
  **`lex_append_comment`**: a text that goes on in the comment that the first one ends in;
* `lexPart_word`, `lexPart_quoted`: reading an identifier, bare or between quotes.
-/

namespace Sql

/-- The lexical rules that texts are read by. -/
inductive Dialect
  | sqlite
  | mysql
  | postgres
  deriving DecidableEq

/-- The quotes around literals and names. -/
inductive Quote
  | single
  | double
  | back
  deriving DecidableEq

/-- The character of a quote. -/
def Quote.char : Quote → Char
  | .single => '\''
  | .double => '"'
  | .back => Char.ofNat 96

/-- The quote with a given character. -/
def quote? (c : Char) : Option Quote :=
  if c = '\'' then some .single else if c = '"' then some .double
  else if c = Char.ofNat 96 then some .back else none

/-- A token. -/
inductive Tok
  /-- A keyword, an unquoted name or a number. -/
  | word (w : List Char)
  /-- The text between two quotes `q`. -/
  | quoted (q : Quote) (s : List Char)
  | sym (c : Char)
  /-- `?`, or `$k`. -/
  | param (k : Option ℕ)
  deriving DecidableEq

/-- The characters of words. -/
def isWordChar (c : Char) : Bool := c.isAlphanum || c == '_' || c == '.' || c == '*'

/-- The blanks between tokens. -/
def isBlank (c : Char) : Bool := c == ' ' || c == '\t' || c == '\n' || c == '\r'

/-- What the machine is in the middle of. -/
inductive Mode
  | idle
  | word (w : List Char)
  /-- After `$` and digits. -/
  | dollar (ds : List Char)
  | quoted (q : Quote) (s : List Char)
  /-- After a quote that closes the literal, or is the first of a doubled one. -/
  | closing (q : Quote) (s : List Char)
  /-- After a backslash in a literal. -/
  | escape (q : Quote) (s : List Char)
  | minus
  /-- After two of them. -/
  | dashes
  | slash
  /-- After the first character of `||`. -/
  | bar
  /-- After the first character of `&&`. -/
  | amp
  /-- In a comment up to the end of the line. -/
  | line
  /-- After `/*` in MySQL, where a comment may be one that is executed. -/
  | hint
  /-- In a comment between `/*` and `*/`, with `n` more around it. -/
  | block (n : ℕ)
  | star (n : ℕ)
  | nest (n : ℕ)
  /-- After the `;` that ends the statement in SQLite, which reads nothing behind it. -/
  | ended
  /-- After a token that is not read: a name in brackets of SQLite, a literal `E'..'` or `$$..$$` of
  PostgreSQL, an executed comment of MySQL. -/
  | stuck
  deriving DecidableEq

/-- The token that ends at a boundary after `$` and the digits `ds`. -/
def dollarTok (ds : List Char) : List Tok :=
  if ds = [] then [.sym '$'] else [.param (some (Nat.ofDigitChars 10 ds 0))]

/-- The pending tokens at a token boundary; none in a literal or a comment. -/
def flush : Mode → Option (List Tok)
  | .idle => some []
  | .word w => some [.word w]
  | .dollar ds => some (dollarTok ds)
  | .closing q s => some [.quoted q s]
  | .minus => some [.sym '-']
  | .slash => some [.sym '/']
  | .bar => some [.sym '|']
  | .amp => some [.sym '&']
  | .quoted _ _ | .escape _ _ | .dashes | .line | .hint | .block _ | .star _ | .nest _ | .ended
  | .stuck => none

variable (δ : Dialect)

/-- The first character of a token. -/
def first (c : Char) : List Tok × Mode :=
  if isBlank c then ([], .idle)
  else if isWordChar c then ([], .word [c])
  else match quote? c with
    | some q => ([], .quoted q [])
    | none =>
      if c = '$' then ([], .dollar [])
      else if c = '-' then ([], .minus)
      else if c = '/' then ([], .slash)
      else if c = '?' then ([.param none], .idle)
      else if δ = .mysql ∧ c = '#' then ([], .line)
      else if δ = .mysql ∧ c = '|' then ([], .bar)
      else if δ = .mysql ∧ c = '&' then ([], .amp)
      else if δ = .sqlite ∧ c = '[' then ([], .stuck)
      else if δ = .sqlite ∧ c = ';' then ([], .ended)
      else ([.sym c], .idle)

/-- The first character of the next token, after the pending tokens `ts`. -/
def begin (ts : List Tok) (c : Char) : List Tok × Mode := (ts ++ (first δ c).1, (first δ c).2)

/-- The first character of a comment that two dashes begin; in MySQL a blank follows them. -/
def afterDashes (c : Char) : List Tok × Mode :=
  if δ = .mysql ∧ isBlank c = false then
    if c = '-' then ([.sym '-'], .dashes) else begin δ [.sym '-', .sym '-'] c
  else ([], if c = '\n' then .idle else .line)

/-- A word and a quote that begin a literal with backslashes of its own. -/
def escapes (w : List Char) (c : Char) : Bool := c = '\'' && (w = ['E'] || w = ['e'])

/-- The character after `$` begins a dollar-quoted literal. -/
def tags (ds : List Char) (c : Char) : Bool :=
  ds = [] && !c.isDigit && (c = '$' || c = '_' || c.isAlpha)

/-- One character of a comment between `/*` and `*/`; in PostgreSQL they nest. -/
def stepBlock (n : ℕ) (c : Char) : Mode :=
  if c = '*' then .star n else if c = '/' then .nest n else .block n

/-- One character: the tokens it completes, and what comes next. In MySQL `||` is OR and `&&` is AND,
and a backslash keeps the quote after it in the literal. -/
def step (m : Mode) (c : Char) : List Tok × Mode :=
  match m with
  | .idle => begin δ [] c
  | .word w =>
    if isWordChar c then ([], .word (w ++ [c]))
    else if δ = .postgres ∧ escapes w c then ([], .stuck) else begin δ [.word w] c
  | .dollar ds =>
    if c.isDigit then ([], .dollar (ds ++ [c]))
    else if δ = .postgres ∧ tags ds c then ([], .stuck) else begin δ (dollarTok ds) c
  | .quoted q s =>
    if c = q.char then ([], .closing q s)
    else if c = '\\' then
      if δ = .mysql ∧ q ≠ .back then ([], .escape q s) else ([], .quoted q (s ++ [c]))
    else ([], .quoted q (s ++ [c]))
  | .closing q s => if c = q.char then ([], .quoted q (s ++ [c])) else begin δ [.quoted q s] c
  | .escape q s => ([], .quoted q (s ++ ['\\', c]))
  | .minus => if c = '-' then ([], .dashes) else begin δ [.sym '-'] c
  | .dashes => afterDashes δ c
  | .slash =>
    if c = '*' then ([], if δ = .mysql then .hint else .block 0) else begin δ [.sym '/'] c
  | .bar => if c = '|' then ([.word ['O', 'R']], .idle) else begin δ [.sym '|'] c
  | .amp => if c = '&' then ([.word ['A', 'N', 'D']], .idle) else begin δ [.sym '&'] c
  | .line => ([], if c = '\n' then .idle else .line)
  | .hint => ([], if c = '!' then .stuck else stepBlock 0 c)
  | .block n => ([], stepBlock n c)
  | .star n => ([], if c = '/' then if n = 0 then .idle else .block (n - 1)
      else if c = '*' then .star n else .block n)
  | .nest n => ([], if c = '*' then if δ = .postgres then .block (n + 1) else .star n
      else if c = '/' then .nest n else .block n)
  | .ended => ([], .ended)
  | .stuck => ([], .stuck)

/-- The tokens completed by a text, and the mode after it. -/
def run (m : Mode) : List Char → List Tok × Mode
  | [] => ([], m)
  | c :: cs => ((step δ m c).1 ++ (run (step δ m c).2 cs).1, (run (step δ m c).2 cs).2)

/-- The pending tokens at the end of the text, which ends a comment up to the end of the line; in
SQLite it also ends a comment between `/*` and `*/`, and what stands behind a `;`. -/
def finish : Mode → Option (List Tok)
  | .line | .dashes | .ended => some []
  | .block _ | .star _ | .nest _ => if δ = .sqlite then some [] else none
  | m => flush m

/-- The tokens of a text. -/
def lex (text : List Char) : Option (List Tok) :=
  (finish δ (run δ .idle text).2).map ((run δ .idle text).1 ++ ·)

/-- The tokens of a part of a text: what follows it is no part of a comment of its own. -/
def lexPart (text : List Char) : Option (List Tok) :=
  (flush (run δ .idle text).2).map ((run δ .idle text).1 ++ ·)

variable {δ} {m : Mode} {a b : List Char} {ts : List Tok} {c : Char}

theorem run_cons (m : Mode) (c : Char) (cs : List Char) : run δ m (c :: cs) =
    ((step δ m c).1 ++ (run δ (step δ m c).2 cs).1, (run δ (step δ m c).2 cs).2) := rfl

theorem run_append (m : Mode) (a b : List Char) :
    run δ m (a ++ b) = ((run δ m a).1 ++ (run δ (run δ m a).2 b).1, (run δ (run δ m a).2 b).2) := by
  induction a generalizing m with
  | nil => rfl
  | cons c a ih => rw [List.cons_append, run_cons, ih, run_cons, List.append_assoc]

/-- A character that belongs to no word, literal, number or comment. -/
def isBoundary (c : Char) : Bool :=
  !isWordChar c && (quote? c).isNone && c != '-' && c != '|' && c != '&' && c != '$'

theorem quote?_char (q : Quote) : quote? q.char = some q := by
  cases q <;> rfl

theorem step_boundary (h : flush m = some ts) (hc : isBoundary c = true) :
    step δ m c = begin δ ts c := by
  simp only [isBoundary, Bool.and_eq_true, Bool.not_eq_true', bne_iff_ne, ne_eq,
    Option.isNone_iff_eq_none] at hc
  obtain ⟨⟨⟨⟨⟨hw, hq⟩, hm⟩, hbar⟩, hamp⟩, hdollar⟩ := hc
  have hne (q : Quote) : c ≠ q.char := by
    rintro rfl
    rw [quote?_char] at hq
    cases hq
  cases m with
  | idle => cases h; rfl
  | word w => cases h; simp [step, hw, escapes, show c ≠ '\'' from hne .single]
  | dollar ds =>
    cases h
    simp only [isWordChar, Char.isAlphanum, Bool.or_eq_false_iff] at hw
    have htags : tags ds c = false := by simp_all [tags]
    simp [step, hw.1.1.1.2, htags]
  | closing q s =>
    cases h
    simp [step, hne q]
  | minus => cases h; simp [step, hm]
  | slash =>
    cases h
    have hne : c ≠ '*' := by
      rintro rfl
      cases hw
    simp [step, hne]
  | bar => cases h; simp [step, hbar]
  | amp => cases h; simp [step, hamp]
  | quoted | escape | dashes | line | hint | block | star | nest | ended | stuck => cases h

theorem begin_append (δ : Dialect) (ts : List Tok) (c : Char) :
    begin δ ts c = (ts ++ (begin δ [] c).1, (begin δ [] c).2) := by
  simp [begin]

theorem finish_of_flush (h : flush m = some ts) : finish δ m = some ts := by
  cases m with
  | dashes | line | block | star | nest | ended => cases h
  | _ => exact h

theorem lexPart_eq_some : lexPart δ a = some ts ↔
    ∃ us, flush (run δ .idle a).2 = some us ∧ (run δ .idle a).1 ++ us = ts := by
  simp only [lexPart, Option.map_eq_some_iff]

theorem lex_of_part (h : lexPart δ a = some ts) : lex δ a = some ts := by
  obtain ⟨us, hf, rfl⟩ := lexPart_eq_some.mp h
  rw [lex, finish_of_flush hf]
  rfl

/-- Two texts that are read one after the other: the first ends between tokens, or the second
starts with a boundary character. -/
def Joins (δ : Dialect) (a b : List Char) : Prop :=
  (run δ .idle a).2 = .idle ∨ ∃ c b', b = c :: b' ∧ isBoundary c = true

theorem run_append_part (h : lexPart δ a = some ts) (hj : Joins δ a b) (hb : b ≠ []) :
    run δ .idle (a ++ b) = (ts ++ (run δ .idle b).1, (run δ .idle b).2) := by
  obtain ⟨us, hf, rfl⟩ := lexPart_eq_some.mp h
  rw [run_append]
  rcases hj with hi | ⟨c, b, rfl, hc⟩
  · rw [hi] at hf ⊢
    cases hf
    rw [List.append_nil]
  · simp only [run_cons]
    rw [step_boundary hf hc, begin_append]
    simp [step]

/-- **A part followed by a text is read as the tokens of both.** -/
theorem lex_append (h : lexPart δ a = some ts) (hj : Joins δ a b) :
    lex δ (a ++ b) = (lex δ b).map (ts ++ ·) := by
  by_cases hb : b = []
  · subst hb
    rw [List.append_nil, lex_of_part h]
    exact congrArg some (List.append_nil ts).symm
  · unfold lex
    rw [run_append_part h hj hb]
    simp [Function.comp_def]

theorem lexPart_append (h : lexPart δ a = some ts) (hj : Joins δ a b) :
    lexPart δ (a ++ b) = (lexPart δ b).map (ts ++ ·) := by
  by_cases hb : b = []
  · subst hb
    rw [List.append_nil, h]
    exact congrArg some (List.append_nil ts).symm
  · unfold lexPart
    rw [run_append_part h hj hb]
    simp [Function.comp_def]

theorem lex_append_some {us : List Tok} (ha : lexPart δ a = some ts)
    (hb : lex δ b = some us) (hj : Joins δ a b) : lex δ (a ++ b) = some (ts ++ us) := by
  rw [lex_append ha hj, hb]
  rfl

theorem lexPart_append_some {us : List Tok} (ha : lexPart δ a = some ts)
    (hb : lexPart δ b = some us) (hj : Joins δ a b) : lexPart δ (a ++ b) = some (ts ++ us) := by
  rw [lexPart_append ha hj, hb]
  rfl

/-! ## Comments -/

/-- The machine is in a comment that the end of the text ends, or behind the `;` of SQLite. -/
def InComment (δ : Dialect) (m : Mode) : Prop := flush m = none ∧ finish δ m = some []

/-- A text that ends no comment, and goes on with a blank. -/
structure Swallowed (b : List Char) : Prop where
  blank : ∀ c ∈ b.head?, isBlank c = true
  stays : ∀ c ∈ b, c ≠ '\n' ∧ c ≠ '*' ∧ c ≠ '/'

theorem finish_none (hf : flush m = none) (h : finish δ m = some ts) : ts = [] := by
  cases m with
  | dashes | line | ended => exact (Option.some.inj h).symm
  | block | star | nest =>
    rw [finish] at h
    split_ifs at h
    exact (Option.some.inj h).symm
  | _ => cases hf.symm.trans h

theorem step_inComment (hm : InComment δ m) (hblank : m = .dashes → isBlank c = true)
    (hc : c ≠ '\n' ∧ c ≠ '*' ∧ c ≠ '/') :
    (step δ m c).1 = [] ∧ InComment δ (step δ m c).2 ∧ (step δ m c).2 ≠ .dashes := by
  obtain ⟨hflush, hfin⟩ := hm
  cases m with
  | dashes => simp [step, afterDashes, hblank rfl, hc, InComment, flush, finish]
  | line => simp [step, hc, InComment, flush, finish]
  | block n =>
    have hδ : δ = .sqlite := by simpa [finish] using hfin
    simp [step, stepBlock, hc, hδ, InComment, flush, finish]
  | star n =>
    have hδ : δ = .sqlite := by simpa [finish] using hfin
    simp [step, hc, hδ, InComment, flush, finish]
  | nest n =>
    have hδ : δ = .sqlite := by simpa [finish] using hfin
    simp [step, hc, hδ, InComment, flush, finish]
  | ended => simp [step, InComment, flush, finish]
  | _ => cases hflush.symm.trans hfin

theorem run_inComment (hm : InComment δ m) (hblank : m = .dashes → ∀ c ∈ b.head?, isBlank c = true)
    (hb : ∀ c ∈ b, c ≠ '\n' ∧ c ≠ '*' ∧ c ≠ '/') :
    (run δ m b).1 = [] ∧ InComment δ (run δ m b).2 := by
  induction b generalizing m with
  | nil => exact ⟨rfl, hm⟩
  | cons c b ih =>
    obtain ⟨htoks, hin, hne⟩ := step_inComment hm (fun h => hblank h c rfl) (hb c List.mem_cons_self)
    obtain ⟨hrest, hin'⟩ := ih hin (fun h => absurd h hne) fun c h => hb c (List.mem_cons_of_mem _ h)
    rw [run_cons, htoks, hrest]
    exact ⟨rfl, hin'⟩

/-- **A text that ends in a comment** swallows what follows it. -/
theorem lex_append_comment (h : lex δ a = some ts) (hp : lexPart δ a = none) (hb : Swallowed b) :
    lex δ (a ++ b) = some ts := by
  have hflush : flush (run δ .idle a).2 = none := Option.map_eq_none_iff.mp hp
  obtain ⟨us, hfin, rfl⟩ := Option.map_eq_some_iff.mp h
  obtain rfl := finish_none hflush hfin
  obtain ⟨hrest, hin⟩ := run_inComment ⟨hflush, hfin⟩ (fun _ => hb.blank) hb.stays
  simp only [lex, run_append, hrest, hin.2, Option.map_some, List.append_nil]

/-! ## Words and quoted names -/

theorem run_word_word {w : List Char} (hw : ∀ c ∈ w, isWordChar c = true) (v : List Char) :
    run δ (.word v) w = ([], .word (v ++ w)) := by
  induction w generalizing v with
  | nil => simp [run]
  | cons c w ih =>
    have hc : isWordChar c = true := hw c List.mem_cons_self
    have hs : step δ (.word v) c = ([], .word (v ++ [c])) := by simp [step, hc]
    rw [run_cons, hs, ih fun c h => hw c (List.mem_cons_of_mem _ h)]
    simp

theorem run_word {w : List Char} (hw : ∀ c ∈ w, isWordChar c = true) (hne : w ≠ []) :
    run δ .idle w = ([], .word w) := by
  cases w with
  | nil => exact absurd rfl hne
  | cons c w =>
    have hc : isWordChar c = true := hw c List.mem_cons_self
    have hb : isBlank c = false := by
      by_contra hb
      simp only [isBlank, Bool.not_eq_false, Bool.or_eq_true, beq_iff_eq] at hb
      rcases hb with ((rfl | rfl) | rfl) | rfl <;> cases hc
    have hs : step δ .idle c = ([], .word [c]) := by simp [step, begin, first, hb, hc]
    rw [run_cons, hs, run_word_word fun c h => hw c (List.mem_cons_of_mem _ h)]
    rfl

theorem lexPart_word {w : List Char} (hw : ∀ c ∈ w, isWordChar c = true) (hne : w ≠ []) :
    lexPart δ w = some [.word w] := by
  rw [lexPart, run_word hw hne]
  rfl

theorem run_quoted_body {q : Quote} {w : List Char} (hw : ∀ c ∈ w, c ≠ q.char ∧ c ≠ '\\')
    (v : List Char) :
    run δ (.quoted q v) w = ([], .quoted q (v ++ w)) := by
  induction w generalizing v with
  | nil => simp [run]
  | cons c w ih =>
    have hs : step δ (.quoted q v) c = ([], .quoted q (v ++ [c])) := by
      simp [step, (hw c List.mem_cons_self).1, (hw c List.mem_cons_self).2]
    rw [run_cons, hs, ih fun c h => hw c (List.mem_cons_of_mem _ h)]
    simp

theorem lexPart_quoted {q : Quote} {w : List Char} (hw : ∀ c ∈ w, c ≠ q.char ∧ c ≠ '\\') :
    lexPart δ (q.char :: (w ++ [q.char])) = some [.quoted q w] := by
  have hs : step δ .idle q.char = ([], .quoted q []) := by cases q <;> rfl
  have hc : step δ (.quoted q w) q.char = ([], .closing q w) := by simp [step]
  have hr : run δ .idle (q.char :: (w ++ [q.char])) = ([], .closing q w) := by
    simp only [run_cons, hs, run_append, run_quoted_body hw, List.nil_append, hc]
    rfl
  rw [lexPart, hr]
  rfl

end Sql
