import Corm.Lib.Strtol
import Mathlib.Data.List.Nodup
import Mathlib.Data.List.Perm.Subperm

/-!
# Texts of keys and values

Pairs `key=value` with blanks between them. A value ends at a blank, or it stands between single
quotes; a backslash escapes the character after it. A text is read character by character.

* `Mode`, `step`, `finish`, `read`: the machine; `parse` reads a whole text;
* `text`: printing pairs, without quotes and escapes; `Plain`: the values that stay one value;
* `parse_text`: reading what was printed;
* `weight_read`, `plain_read`: pairs take up their characters, and a text that has no others was read
  without quotes and escapes;
* **`parse_text_iff`**: the pairs are read back exactly when their values are plain.
-/

namespace KeyValue

open Strtol (isSpace)

/-- A key and its value. -/
abbrev Pair := List Char × List Char

/-- The quote around values. -/
def quote : Char := Char.ofNat 39

/-- What the machine is in the middle of, with the key and the value up to there. -/
inductive Mode
  | start
  | name (k : List Char)
  /-- After a blank that ended the key. -/
  | afterName (k : List Char)
  | afterEq (k : List Char)
  | plain (k v : List Char)
  /-- After a backslash. -/
  | plainEscape (k v : List Char)
  | quoted (k v : List Char)
  | quotedEscape (k v : List Char)

/-- One character: the pair it completes, and what comes next. -/
def step : Mode → Char → Option (List Pair × Mode)
  | .start, c =>
    some ([], if isSpace c then .start else if c = '=' then .afterEq [] else .name [c])
  | .name k, c =>
    some ([], if c = '=' then .afterEq k else if isSpace c then .afterName k else .name (k ++ [c]))
  | .afterName k, c =>
    if isSpace c then some ([], .afterName k) else if c = '=' then some ([], .afterEq k) else none
  | .afterEq k, c =>
    some ([], if isSpace c then .afterEq k else if c = quote then .quoted k []
      else if c = '\\' then .plainEscape k [] else .plain k [c])
  | .plain k v, c =>
    some (if isSpace c then ([(k, v)], .start)
      else if c = '\\' then ([], .plainEscape k v) else ([], .plain k (v ++ [c])))
  | .plainEscape k v, c => some ([], .plain k (v ++ [c]))
  | .quoted k v, c =>
    some (if c = quote then ([(k, v)], .start)
      else if c = '\\' then ([], .quotedEscape k v) else ([], .quoted k (v ++ [c])))
  | .quotedEscape k v, c => some ([], .quoted k (v ++ [c]))

/-- The pair that the end of the text completes; none for a key without `=`, and in quotes. -/
def finish : Mode → Option (List Pair)
  | .start => some []
  | .afterEq k => some [(k, [])]
  | .plain k v | .plainEscape k v => some [(k, v)]
  | .name _ | .afterName _ | .quoted _ _ | .quotedEscape _ _ => none

/-- The pairs of a text after the mode `m`. -/
def read (m : Mode) : List Char → Option (List Pair)
  | [] => finish m
  | c :: w => (step m c).bind fun out => (read out.2 w).map (out.1 ++ ·)

/-- The pairs of a text. -/
def parse (w : List Char) : Option (List Pair) := read .start w

/-- The value of a key; the last one counts. -/
def lookup (pairs : List Pair) (k : List Char) : Option (List Char) := pairs.reverse.lookup k

/-- The text of a pair, without quotes and escapes. -/
def pairText (p : Pair) : List Char := p.1 ++ '=' :: p.2

/-- The text of some pairs. -/
def text (pairs : List Pair) : List Char := List.intercalate [' '] (pairs.map pairText)

/-- A key that is read back. -/
structure Key (k : List Char) : Prop where
  ne_nil : k ≠ []
  chars : ∀ c ∈ k, isSpace c = false ∧ c ≠ '='

/-- A value that is read back without quotes. -/
structure Plain (v : List Char) : Prop where
  chars : ∀ c ∈ v, isSpace c = false ∧ c ≠ '\\'
  head : v.head? ≠ some quote

variable {m m' : Mode} {c : Char} {w k v : List Char} {p : Pair} {pairs out : List Pair}

theorem plain_nil : Plain [] := ⟨fun c hc => (by cases hc), by simp⟩

theorem mem_of_lookup (h : lookup pairs k = some v) : (k, v) ∈ pairs := by
  obtain ⟨l, l', heq, -⟩ := List.lookup_eq_some_iff.mp h
  rw [← List.mem_reverse, heq]
  exact List.mem_append_right _ List.mem_cons_self

theorem lookup_of_mem (hkeys : (pairs.map Prod.fst).Nodup) (hp : p ∈ pairs) :
    lookup pairs p.1 = some p.2 := by
  cases hl : lookup pairs p.1 with
  | none =>
    have hnone := List.lookup_eq_none_iff.mp hl p (List.mem_reverse.mpr hp)
    simp at hnone
  | some v =>
    have heq := List.inj_on_of_nodup_map hkeys (mem_of_lookup hl) hp rfl
    rw [← heq]

/-! ## Reading what was printed -/

theorem read_name (hk : ∀ c ∈ k, isSpace c = false ∧ c ≠ '=') (k₀ w : List Char) :
    read (.name k₀) (k ++ '=' :: w) = read (.afterEq (k₀ ++ k)) w := by
  induction k generalizing k₀ with
  | nil => simp [read, step]
  | cons c k ih =>
    obtain ⟨hs, he⟩ := hk c List.mem_cons_self
    have hrest := ih (fun c h => hk c (List.mem_cons_of_mem _ h)) (k₀ ++ [c])
    rw [List.append_assoc] at hrest
    simpa [read, step, hs, he] using hrest

theorem read_key (hk : Key k) (w : List Char) :
    read .start (k ++ '=' :: w) = read (.afterEq k) w := by
  obtain ⟨hne, hk⟩ := hk
  cases k with
  | nil => exact absurd rfl hne
  | cons c k =>
    obtain ⟨hs, he⟩ := hk c List.mem_cons_self
    have hrest := read_name (fun c h => hk c (List.mem_cons_of_mem _ h)) [c] w
    simpa [read, step, hs, he] using hrest

theorem read_plain (hv : ∀ c ∈ v, isSpace c = false ∧ c ≠ '\\') (v₀ w : List Char) :
    read (.plain k v₀) (v ++ w) = read (.plain k (v₀ ++ v)) w := by
  induction v generalizing v₀ with
  | nil => simp
  | cons c v ih =>
    obtain ⟨hs, hb⟩ := hv c List.mem_cons_self
    have hrest := ih (fun c h => hv c (List.mem_cons_of_mem _ h)) (v₀ ++ [c])
    rw [List.append_assoc] at hrest
    simpa [read, step, hs, hb] using hrest

theorem read_value (hv : Plain v) (hne : v ≠ []) (w : List Char) :
    read (.afterEq k) (v ++ w) = read (.plain k v) w := by
  obtain ⟨hchars, hhead⟩ := hv
  cases v with
  | nil => exact absurd rfl hne
  | cons c v =>
    obtain ⟨hs, hb⟩ := hchars c List.mem_cons_self
    have hq : c ≠ quote := fun h => hhead (congrArg some h)
    have hrest := @read_plain k v (fun c h => hchars c (List.mem_cons_of_mem _ h)) [c] w
    simpa [read, step, hs, hq, hb] using hrest

theorem read_pair (hk : Key p.1) (hv : Plain p.2) (hne : p.2 ≠ []) (w : List Char) :
    read .start (pairText p ++ w) = read (.plain p.1 p.2) w := by
  rw [pairText, List.append_assoc, List.cons_append, read_key hk, read_value hv hne]

/-- **Reading what was printed.** -/
theorem parse_text (hk : ∀ p ∈ pairs, Key p.1) (hv : ∀ p ∈ pairs, Plain p.2)
    (hne : ∀ p ∈ pairs, p.2 ≠ []) : parse (text pairs) = some pairs := by
  induction pairs with
  | nil => rfl
  | cons p pairs ih =>
    rw [List.forall_mem_cons] at hk hv hne
    have hpair := read_pair hk.1 hv.1 hne.1
    cases pairs with
    | nil =>
      have hend := hpair []
      rw [List.append_nil] at hend
      simpa [parse, text, read, finish] using hend
    | cons p' pairs =>
      have hrest : read .start (text (p' :: pairs)) = some (p' :: pairs) := ih hk.2 hv.2 hne.2
      have htext : text (p :: p' :: pairs) = pairText p ++ ' ' :: text (p' :: pairs) := by
        simp [text, List.intercalate_cons_cons]
      rw [parse, htext, hpair, read, step, if_pos (by decide), Option.bind_some, hrest]
      rfl

/-! ## The characters that pairs take up -/

/-- The characters of some pairs, with one after each. -/
def weight : List Pair → ℕ
  | [] => 0
  | p :: pairs => p.1.length + p.2.length + 2 + weight pairs

theorem weight_append (pairs pairs' : List Pair) :
    weight (pairs ++ pairs') = weight pairs + weight pairs' := by
  induction pairs with
  | nil => simp [weight]
  | cons p pairs ih =>
    rw [List.cons_append, weight, ih, weight]
    omega

theorem weight_perm {pairs' : List Pair} (h : pairs.Perm pairs') : weight pairs = weight pairs' := by
  induction h with
  | nil => rfl
  | cons p _ ih => rw [weight, weight, ih]
  | swap p q pairs =>
    simp only [weight]
    omega
  | trans _ _ ih ih' => exact ih.trans ih'

theorem length_text (h : pairs ≠ []) : (text pairs).length + 1 = weight pairs := by
  induction pairs with
  | nil => exact absurd rfl h
  | cons p pairs ih =>
    cases pairs with
    | nil =>
      simp [text, pairText, weight]
      omega
    | cons p' pairs =>
      have hrest := ih (List.cons_ne_nil _ _)
      have htext : text (p :: p' :: pairs) = pairText p ++ ' ' :: text (p' :: pairs) := by
        simp [text, List.intercalate_cons_cons]
      rw [htext, weight, ← hrest]
      simp [pairText]
      omega

/-- The characters of the pair that the machine is in the middle of. -/
def load : Mode → ℕ
  | .start => 0
  | .name k | .afterName k => k.length
  | .afterEq k => k.length + 1
  | .plain k v | .plainEscape k v | .quoted k v | .quotedEscape k v => k.length + v.length + 1

/-- No quote and no escape was met. -/
def Unquoted : Mode → Prop
  | .plain _ v => Plain v ∧ v ≠ []
  | .plainEscape _ _ | .quoted _ _ | .quotedEscape _ _ => False
  | _ => True

/-- **One character is one more**, and when none is lost it neither quotes nor escapes. -/
theorem weight_step (h : step m c = some (out, m')) :
    weight out + load m' ≤ load m + 1 ∧
    (weight out + load m' = load m + 1 → Unquoted m → (∀ p ∈ out, Plain p.2) ∧ Unquoted m') := by
  cases m with
  | start =>
    obtain ⟨rfl, rfl⟩ := Prod.mk.inj (Option.some.inj h)
    split_ifs <;> simp [weight, load, Unquoted]
  | name k =>
    obtain ⟨rfl, rfl⟩ := Prod.mk.inj (Option.some.inj h)
    split_ifs <;> simp [weight, load, Unquoted]
  | afterName k =>
    rw [step] at h
    split_ifs at h
    all_goals
      obtain ⟨rfl, rfl⟩ := Prod.mk.inj (Option.some.inj h)
      simp [weight, load, Unquoted]
  | afterEq k =>
    obtain ⟨rfl, rfl⟩ := Prod.mk.inj (Option.some.inj h)
    split_ifs with hs hq hb
    · simp [weight, load]
    · simp [weight, load]
    · simp [weight, load]
    · have hplain : Plain [c] := ⟨by simpa [hs] using hb, by simpa using hq⟩
      simp [weight, load, Unquoted, hplain]
  | plain k v =>
    rw [step] at h
    split_ifs at h with hs hb
    · obtain ⟨rfl, rfl⟩ := Prod.mk.inj (Option.some.inj h)
      refine ⟨by simp [weight, load], fun _ hm => ⟨?_, trivial⟩⟩
      simpa using hm.1
    · obtain ⟨rfl, rfl⟩ := Prod.mk.inj (Option.some.inj h)
      simp [weight, load]
    · obtain ⟨rfl, rfl⟩ := Prod.mk.inj (Option.some.inj h)
      refine ⟨by simp [weight, load]; omega, fun _ hm => ⟨by simp, ⟨?_, ?_⟩, by simp⟩⟩
      · intro c' hc'
        rcases List.mem_append.mp hc' with hc' | hc'
        · exact hm.1.chars c' hc'
        · obtain rfl := List.mem_singleton.mp hc'
          exact ⟨by simpa using hs, hb⟩
      · rw [List.head?_append_of_ne_nil _ hm.2]
        exact hm.1.head
  | plainEscape k v | quotedEscape k v =>
    obtain ⟨rfl, rfl⟩ := Prod.mk.inj (Option.some.inj h)
    refine ⟨?_, fun _ hm => hm.elim⟩
    simp [weight, load]
    omega
  | quoted k v =>
    rw [step] at h
    split_ifs at h
    all_goals
      obtain ⟨rfl, rfl⟩ := Prod.mk.inj (Option.some.inj h)
      refine ⟨?_, fun _ hm => hm.elim⟩
      simp [weight, load]
      try omega

theorem weight_finish (h : finish m = some out) :
    weight out ≤ load m + 1 ∧ (Unquoted m → ∀ p ∈ out, Plain p.2) := by
  cases m with
  | name | afterName | quoted | quotedEscape => cases h
  | start =>
    obtain rfl := Option.some.inj h
    simp [weight]
  | afterEq k =>
    obtain rfl := Option.some.inj h
    simp [weight, load, plain_nil]
  | plain k v =>
    obtain rfl := Option.some.inj h
    refine ⟨by simp [weight, load], fun hm => ?_⟩
    simpa using hm.1
  | plainEscape k v =>
    obtain rfl := Option.some.inj h
    exact ⟨by simp [weight, load], fun hm => hm.elim⟩

/-- **Pairs take up their characters.** -/
theorem weight_read (h : read m w = some out) : weight out ≤ w.length + load m + 1 := by
  induction w generalizing m out with
  | nil =>
    have hfinish := (weight_finish h).1
    rw [List.length_nil]
    omega
  | cons c w ih =>
    obtain ⟨⟨first, m'⟩, hstep, hrest⟩ := Option.bind_eq_some_iff.mp h
    obtain ⟨rest, hread, rfl⟩ := Option.map_eq_some_iff.mp hrest
    have hfirst := (weight_step hstep).1
    have hle : weight rest ≤ w.length + load m' + 1 := ih hread
    show weight (first ++ rest) ≤ _
    rw [weight_append, List.length_cons]
    omega

/-- **A text without other characters** was read without quotes and escapes. -/
theorem plain_read (h : read m w = some out) (hm : Unquoted m)
    (hweight : weight out = w.length + load m + 1) : ∀ p ∈ out, Plain p.2 := by
  induction w generalizing m out with
  | nil => exact (weight_finish h).2 hm
  | cons c w ih =>
    obtain ⟨⟨first, m'⟩, hstep, hrest⟩ := Option.bind_eq_some_iff.mp h
    obtain ⟨rest, hread, rfl⟩ := Option.map_eq_some_iff.mp hrest
    obtain ⟨hfirst, hplain⟩ := weight_step hstep
    have hle : weight rest ≤ w.length + load m' + 1 := weight_read hread
    have hsum : weight first + weight rest = w.length + 1 + load m + 1 :=
      (weight_append first rest).symm.trans hweight
    obtain ⟨hout, hm'⟩ := hplain (by omega) hm
    intro p hp
    rcases List.mem_append.mp hp with hp | hp
    · exact hout p hp
    · have hrest : weight rest = w.length + load m' + 1 := by omega
      exact ih hread hm' hrest p hp

/-- **When printed pairs are read back**: exactly when no value needs quotes or escapes. -/
theorem parse_text_iff (hk : ∀ p ∈ pairs, Key p.1) (hne : ∀ p ∈ pairs, p.2 ≠ [])
    (hnodup : pairs.Nodup) :
    (∃ out, parse (text pairs) = some out ∧ pairs ⊆ out) ↔ ∀ p ∈ pairs, Plain p.2 := by
  constructor
  · rintro ⟨out, hparse, hsub⟩
    by_cases hnil : pairs = []
    · simp [hnil]
    obtain ⟨same, hsame, hsublist⟩ := hnodup.subperm hsub
    obtain ⟨rest, hperm⟩ := hsublist.exists_perm_append
    have hweight : weight out = weight pairs + weight rest := by
      rw [weight_perm hperm, weight_append, weight_perm hsame]
    have hle := weight_read hparse
    have hlen := length_text hnil
    have hplain := plain_read hparse trivial (by rw [load] at hle ⊢; omega)
    exact fun p hp => hplain p (hsub hp)
  · intro hv
    exact ⟨pairs, parse_text hk hv hne, List.Subset.refl _⟩

end KeyValue
