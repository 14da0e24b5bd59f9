import Corm.Reading.Where

/-!
# How PostgreSQL reads a rewritten text

The rewriting numbers every `?`, those in literals and comments too.

* `number`: the tokens of a text with its `?` numbered, read off the text itself;
* **`lex_number`**, `lexPart_number`: they are the tokens of the rewritten text.
-/

namespace Corm

open Sql (Tok Mode lex lexPart)

/-- The tokens of a text after the mode `m` and `i` characters `?`, with the pending tokens `fin` at
its end: a placeholder gets the number of the `?` up to it. None for an open literal, and for a
placeholder that a digit follows or another `$` precedes. -/
def number (fin : Mode → Option (List Tok)) (m : Mode) (i : ℕ) : Text → Option (List Tok)
  | [] => fin m
  | c :: w =>
    if c = '?' then
      match Sql.flush m with
      | some ts =>
        if w.head?.any Char.isDigit ∨ m = .dollar [] then none
        else (number fin .idle (i + 1) w).map fun us => ts ++ .param (some (i + 1)) :: us
      | none => number fin (Sql.run .postgres m (placeholderStr .postgres i)).2 (i + 1) w
    else (number fin (Sql.step .postgres m c).2 i w).map ((Sql.step .postgres m c).1 ++ ·)

/-- The tokens of a text after the mode `m`. -/
def lexFrom (fin : Mode → Option (List Tok)) (m : Mode) (text : Text) : Option (List Tok) :=
  (fin (Sql.run .postgres m text).2).map ((Sql.run .postgres m text).1 ++ ·)

/-- Between tokens, the end of the text completes the pending ones. -/
def Completes (fin : Mode → Option (List Tok)) : Prop :=
  ∀ m ts, Sql.flush m = some ts → fin m = some ts

variable {fin : Mode → Option (List Tok)} {m : Mode} {a w : Text} {c : Char} {ts us : List Tok} {i : ℕ}

theorem lexFrom_cons (fin : Mode → Option (List Tok)) (m : Mode) (c : Char) (w : Text) :
    lexFrom fin m (c :: w) =
      (lexFrom fin (Sql.step .postgres m c).2 w).map ((Sql.step .postgres m c).1 ++ ·) := by
  rw [lexFrom, Sql.run_cons, lexFrom, Option.map_map]
  simp [Function.comp_def]

theorem lexFrom_append (fin : Mode → Option (List Tok)) (m : Mode) (a b : Text) :
    lexFrom fin m (a ++ b) =
      (lexFrom fin (Sql.run .postgres m a).2 b).map ((Sql.run .postgres m a).1 ++ ·) := by
  rw [lexFrom, Sql.run_append, lexFrom, Option.map_map]
  simp [Function.comp_def]

/-! ## In a literal or a comment -/

/-- The characters of a numbered placeholder. -/
def IsDollarDigit (c : Char) : Prop := c = '$' ∨ c.isDigit = true

theorem mem_placeholder_postgres (h : c ∈ placeholderStr .postgres i) : IsDollarDigit c := by
  rcases List.mem_cons.mp h with rfl | h
  · exact Or.inl rfl
  · exact Or.inr (Nat.isDigit_of_mem_toDigits (by decide) (by decide) h)

theorem IsDollarDigit.ne (h : IsDollarDigit c) {d : Char} (hd : d ≠ '$') (hd' : d.isDigit = false) :
    c ≠ d := by
  rintro rfl
  rcases h with h | h
  · exact hd h
  · rw [hd'] at h
    cases h

theorem step_absorb (h : Sql.flush m = none) (hc : IsDollarDigit c) :
    (Sql.step .postgres m c).1 = [] ∧ Sql.flush (Sql.step .postgres m c).2 = none := by
  have hstar : c ≠ '*' := hc.ne (by decide) (by decide)
  have hslash : c ≠ '/' := hc.ne (by decide) (by decide)
  have hnl : c ≠ '\n' := hc.ne (by decide) (by decide)
  have hback : c ≠ '\\' := hc.ne (by decide) (by decide)
  have hquote (q : Sql.Quote) : c ≠ q.char := by
    cases q <;> exact hc.ne (by decide) (by decide)
  cases m with
  | quoted q s => simp [Sql.step, hquote, hback, Sql.flush]
  | line => simp [Sql.step, hnl, Sql.flush]
  | block => simp [Sql.step, Sql.stepBlock, hstar, hslash, Sql.flush]
  | star => simp [Sql.step, hstar, hslash, Sql.flush]
  | nest => simp [Sql.step, hstar, hslash, Sql.flush]
  | escape => simp [Sql.step, Sql.flush]
  | dashes => simp [Sql.step, Sql.afterDashes, hnl, Sql.flush]
  | hint =>
    have hbang : c ≠ '!' := hc.ne (by decide) (by decide)
    simp [Sql.step, Sql.stepBlock, hbang, hstar, hslash, Sql.flush]
  | ended | stuck => exact ⟨rfl, rfl⟩
  | idle | word | dollar | closing | minus | slash | bar | amp => cases h

theorem run_absorb (h : Sql.flush m = none) (ha : ∀ c ∈ a, IsDollarDigit c) :
    (Sql.run .postgres m a).1 = [] := by
  induction a generalizing m with
  | nil => rfl
  | cons c a ih =>
    obtain ⟨h1, h2⟩ := step_absorb h (ha c List.mem_cons_self)
    rw [Sql.run_cons]
    simp [h1, ih h2 fun c h => ha c (List.mem_cons_of_mem _ h)]

/-! ## Between tokens -/

theorem lexFrom_dollar (hfin : Completes fin) {ds : List Char} (hds : ds ≠ [])
    (hw : w.head?.any Char.isDigit = false) :
    lexFrom fin (.dollar ds) w = (lexFrom fin .idle w).map (Sql.dollarTok ds ++ ·) := by
  cases w with
  | nil =>
    have hdollar : fin (.dollar ds) = some (Sql.dollarTok ds) := hfin _ _ rfl
    have hidle : fin .idle = some [] := hfin _ _ rfl
    simp [lexFrom, Sql.run, hdollar, hidle]
  | cons c w =>
    have hc : c.isDigit = false := by simpa using hw
    have hs : Sql.step .postgres (.dollar ds) c =
        (Sql.dollarTok ds ++ (Sql.step .postgres .idle c).1, (Sql.step .postgres .idle c).2) := by
      rw [show Sql.step .postgres .idle c = Sql.begin .postgres [] c from rfl, ← Sql.begin_append]
      simp [Sql.step, hc, Sql.tags, hds]
    rw [lexFrom_cons, lexFrom_cons, hs, Option.map_map]
    simp [Function.comp_def]

theorem step_dollar (h : Sql.flush m = some ts) (hm : m ≠ .dollar []) :
    Sql.step .postgres m '$' = (ts, .dollar []) := by
  cases m with
  | dollar ds =>
    have hds : ds ≠ [] := fun he => hm (he ▸ rfl)
    cases h
    have hfirst : Sql.first .postgres '$' = ([], .dollar []) := rfl
    simp [Sql.step, Sql.tags, hds, Sql.begin, hfirst]
  | idle | word | minus | slash | bar | amp =>
    cases h
    rfl
  | closing q s =>
    cases h
    cases q <;> rfl
  | quoted | escape | dashes | line | hint | block | star | nest | ended | stuck => cases h

theorem lexFrom_placeholder (hfin : Completes fin) (h : Sql.flush m = some ts)
    (hw : w.head?.any Char.isDigit = false) (hm : m ≠ .dollar []) :
    lexFrom fin m (placeholderStr .postgres i ++ w) =
      (lexFrom fin .idle w).map fun us => ts ++ .param (some (i + 1)) :: us := by
  have hne : Nat.toDigits 10 (i + 1) ≠ [] := Nat.toDigits_ne_nil
  have hds : Sql.run .postgres (.dollar []) (Nat.toDigits 10 (i + 1)) =
      ([], .dollar (Nat.toDigits 10 (i + 1))) :=
    run_dollar (fun c h => Nat.isDigit_of_mem_toDigits (by decide) (by decide) h) []
  have htok : Sql.dollarTok (Nat.toDigits 10 (i + 1)) = [.param (some (i + 1))] := by
    simp [Sql.dollarTok, hne, Nat.ofDigitChars_ten_toDigits]
  rw [placeholderStr, List.cons_append, lexFrom_cons, step_dollar h hm, lexFrom_append, hds,
    lexFrom_dollar hfin hne hw, htok, Option.map_map, Option.map_map]
  simp [Function.comp_def]

theorem head_rewritten (h : w.head?.any Char.isDigit = false) :
    (appendWithPlaceholders .postgres i w).head?.any Char.isDigit = false := by
  cases w with
  | nil => rfl
  | cons c w =>
    rw [appendWithPlaceholders]
    split_ifs
    · rfl
    · exact h

/-- **A text is read with its placeholders numbered.** -/
theorem lexFrom_number (hfin : Completes fin) (h : number fin m i w = some ts) :
    lexFrom fin m (appendWithPlaceholders .postgres i w) = some ts := by
  induction w generalizing m i ts with
  | nil =>
    rw [number] at h
    simp [appendWithPlaceholders, lexFrom, Sql.run, h]
  | cons c w ih =>
    rw [number] at h
    rw [appendWithPlaceholders]
    by_cases hc : c = '?'
    · rw [if_pos hc] at h ⊢
      cases hf : Sql.flush m with
      | some us =>
        simp only [hf] at h
        split_ifs at h with hd
        obtain ⟨us', hus', rfl⟩ := Option.map_eq_some_iff.mp h
        obtain ⟨hd, hm⟩ := not_or.mp hd
        have hd' := head_rewritten (i := i + 1) (Bool.not_eq_true _ ▸ hd)
        rw [lexFrom_placeholder hfin hf hd' hm, ih hus']
        rfl
      | none =>
        simp only [hf] at h
        rw [lexFrom_append, ih h, run_absorb hf fun c hc => mem_placeholder_postgres hc]
        rfl
    · rw [if_neg hc] at h ⊢
      obtain ⟨us, hus, rfl⟩ := Option.map_eq_some_iff.mp h
      rw [lexFrom_cons, ih hus]
      rfl

theorem lex_number (h : number (Sql.finish .postgres) .idle i w = some ts) :
    lex .postgres (appendWithPlaceholders .postgres i w) = some ts :=
  lexFrom_number (fun _ _ => Sql.finish_of_flush) h

theorem lexPart_number (h : number Sql.flush .idle i w = some ts) :
    lexPart .postgres (appendWithPlaceholders .postgres i w) = some ts :=
  lexFrom_number (fun _ _ => id) h

end Corm
