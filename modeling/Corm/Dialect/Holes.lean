import Corm.Reading.Basic
import Mathlib.Data.List.Chain

/-!
# Texts with holes

What a text says once its placeholders are replaced, whether they are numbered or not.

* `Chunk`, `numbered`, `marked`: the holes `$k` of a text, and the holes `?`;
* `Slot`: what the builder writes: a character, a `?` it numbers at the end, or a placeholder whose
  number it gives at once; `render`, `rewritten`: the text before the numbering and after it;
* `numbered_rewritten`, `marked_render`: the holes of a text of slots;
* **`numbered_length_iff`**: no character is lost exactly when no digit follows a placeholder or `$`.
-/

namespace Corm

/-! ## Holes -/

/-- A character of a text, or a hole with its number or its value. -/
inductive Chunk (V : Type)
  | char (c : Char)
  | hole (v : V)
  deriving DecidableEq

/-- What is open at the end of `$` and digits. -/
def closeHole : Option (List Char) → List (Chunk ℕ)
  | none => []
  | some ds => if ds = [] then [.char '$'] else [.hole (Nat.ofDigitChars 10 ds 0)]

/-- The characters and the holes `$k` of a text, after `$` and the digits `open_`. -/
def numberedFrom : Option (List Char) → Text → List (Chunk ℕ)
  | open_, [] => closeHole open_
  | none, c :: w => if c = '$' then numberedFrom (some []) w else .char c :: numberedFrom none w
  | some ds, c :: w =>
    if c.isDigit then numberedFrom (some (ds ++ [c])) w
    else closeHole (some ds) ++
      if c = '$' then numberedFrom (some []) w else .char c :: numberedFrom none w

/-- The characters and the holes `$k` of a text. -/
def numbered (w : Text) : List (Chunk ℕ) := numberedFrom none w

/-- The characters and the holes `?` of a text, after `n` holes. -/
def marked (n : ℕ) : Text → List (Chunk ℕ)
  | [] => []
  | c :: w => if c = '?' then .hole (n + 1) :: marked (n + 1) w else .char c :: marked n w

/-- A hole filled with its value. -/
def put {V : Type} (vals : List V) : Chunk ℕ → Option (Chunk V)
  | .char c => some (.char c)
  | .hole 0 => none
  | .hole (k + 1) => vals[k]?.map .hole

/-! ## Slots -/

/-- A character that is not `?`; a `?`; or a placeholder with its number. -/
inductive Slot
  | char (c : Char) (h : c ≠ '?')
  | raw
  | given

/-- The slot of a character. -/
def toSlot (c : Char) : Slot := if h : c = '?' then .raw else .char c h

/-- The slots of a text. -/
def toSlots (w : Text) : List Slot := w.map toSlot

/-- The text of slots, after `n` placeholders. -/
def render (bt : BackendType) (n : ℕ) : List Slot → Text
  | [] => []
  | .char c _ :: S => c :: render bt n S
  | .raw :: S => '?' :: render bt (n + 1) S
  | .given :: S => placeholderStr bt n ++ render bt (n + 1) S

/-- The text of slots for PostgreSQL with `?` numbered, after `r` of them and `n` placeholders. -/
def rewritten (r n : ℕ) : List Slot → Text
  | [] => []
  | .char c _ :: S => c :: rewritten r n S
  | .raw :: S => placeholderStr .postgres r ++ rewritten (r + 1) (n + 1) S
  | .given :: S => placeholderStr .postgres n ++ rewritten r (n + 1) S

/-- The holes of slots, each with its place. -/
def places (n : ℕ) : List Slot → List (Chunk ℕ)
  | [] => []
  | .char c _ :: S => .char c :: places n S
  | .raw :: S => .hole (n + 1) :: places (n + 1) S
  | .given :: S => .hole (n + 1) :: places (n + 1) S

/-- The holes of slots with the numbers that PostgreSQL gets. -/
def numbers (r n : ℕ) : List Slot → List (Chunk ℕ)
  | [] => []
  | .char c _ :: S => .char c :: numbers r n S
  | .raw :: S => .hole (r + 1) :: numbers (r + 1) (n + 1) S
  | .given :: S => .hole (n + 1) :: numbers r (n + 1) S

/-- The number of placeholders. -/
def holes : List Slot → ℕ
  | [] => 0
  | .char _ _ :: S => holes S
  | .raw :: S => holes S + 1
  | .given :: S => holes S + 1

variable {S T : List Slot} {w : Text} {bt : BackendType} {n r : ℕ}

theorem holes_append (S T : List Slot) : holes (S ++ T) = holes S + holes T := by
  induction S with
  | nil => exact (Nat.zero_add _).symm
  | cons a S ih => cases a <;> simp only [List.cons_append, holes, ih] <;> omega

theorem render_append (bt : BackendType) (n : ℕ) (S T : List Slot) :
    render bt n (S ++ T) = render bt n S ++ render bt (n + holes S) T := by
  induction S generalizing n with
  | nil => rfl
  | cons a S ih =>
    cases a <;> simp only [List.cons_append, List.append_assoc, render, holes, ih] <;>
      simp only [Nat.add_assoc, Nat.add_comm 1]

theorem render_toSlots (bt : BackendType) (n : ℕ) (w : Text) : render bt n (toSlots w) = w := by
  induction w generalizing n with
  | nil => rfl
  | cons c w ih =>
    by_cases hc : c = '?'
    · subst hc
      exact congrArg ('?' :: ·) (ih (n + 1))
    · have hs : toSlots (c :: w) = .char c hc :: toSlots w := by simp [toSlots, toSlot, hc]
      rw [hs, render, ih]

theorem holes_toSlots (w : Text) : holes (toSlots w) = w.count '?' := by
  induction w with
  | nil => rfl
  | cons c w ih =>
    by_cases hc : c = '?'
    · subst hc
      rw [List.count_cons_self, ← ih]
      rfl
    · have hs : toSlots (c :: w) = .char c hc :: toSlots w := by simp [toSlots, toSlot, hc]
      rw [hs, holes, ih, List.count_cons_of_ne hc]

theorem appendWithPlaceholders_render (r n : ℕ) (S : List Slot) :
    appendWithPlaceholders .postgres r (render .postgres n S) = rewritten r n S := by
  induction S generalizing r n with
  | nil => rfl
  | cons a S ih =>
    cases a with
    | char c h => rw [render, appendWithPlaceholders, if_neg h, ih, rewritten]
    | raw => rw [render, appendWithPlaceholders, if_pos rfl, ih, rewritten]
    | given =>
      have hnot := notMem_placeholder n
      rw [render, appendWithPlaceholders_append, appendWithPlaceholders_id (fun _ => hnot),
        List.count_eq_zero.mpr hnot, Nat.add_zero, ih, rewritten]

theorem marked_render (hbt : bt ≠ .postgres) (n : ℕ) (S : List Slot) :
    marked n (render bt n S) = places n S := by
  have hp (k : ℕ) : placeholderStr bt k = ['?'] := by
    cases bt with
    | postgres => exact absurd rfl hbt
    | mysql => rfl
    | sqlite => rfl
  induction S generalizing n with
  | nil => rfl
  | cons a S ih =>
    cases a with
    | char c h => rw [render, marked, if_neg h, ih, places]
    | raw => rw [render, marked, if_pos rfl, ih, places]
    | given => rw [render, hp, List.singleton_append, marked, if_pos rfl, ih, places]

/-! ## Reading numbers -/

/-- After this slot a digit is read as part of a number. -/
def Slot.Opens : Slot → Prop
  | .char c _ => c = '$'
  | .raw => True
  | .given => True

/-- A digit. -/
def Slot.Digit : Slot → Prop
  | .char c _ => c.isDigit = true
  | .raw => False
  | .given => False

/-- No digit follows a placeholder or `$`. -/
def Separated (S : List Slot) : Prop := List.IsChain (fun a b => a.Opens → ¬ b.Digit) S

/-- The first slot is not a digit. -/
def StartsOff (S : List Slot) : Prop := ∀ a ∈ S.head?, ¬ a.Digit

theorem separated_cons {a : Slot} :
    Separated (a :: S) ↔ (a.Opens → StartsOff S) ∧ Separated S := by
  cases S with
  | nil => simp [Separated, StartsOff]
  | cons b S => simp [Separated, StartsOff]

theorem numberedFrom_digits {ds : List Char} (hd : ∀ c ∈ ds, c.isDigit = true) (es : List Char)
    (w : Text) : numberedFrom (some es) (ds ++ w) = numberedFrom (some (es ++ ds)) w := by
  induction ds generalizing es with
  | nil => simp
  | cons c ds ih =>
    rw [List.cons_append, numberedFrom, if_pos (hd c List.mem_cons_self),
      ih fun c h => hd c (List.mem_cons_of_mem _ h), List.append_assoc, List.singleton_append]

theorem isDigit_of_mem_number {c : Char} (h : c ∈ Nat.toDigits 10 (n + 1)) : c.isDigit = true :=
  Nat.isDigit_of_mem_toDigits (by decide) (by decide) h

theorem numberedFrom_placeholder (open_ : Option (List Char)) (n : ℕ) (w : Text) :
    numberedFrom open_ (placeholderStr .postgres n ++ w) =
      closeHole open_ ++ numberedFrom (some (Nat.toDigits 10 (n + 1))) w := by
  have hds := numberedFrom_digits (fun _ => isDigit_of_mem_number (n := n)) [] w
  rw [List.nil_append] at hds
  cases open_ with
  | none =>
    rw [placeholderStr, List.cons_append, numberedFrom, if_pos rfl, hds]
    rfl
  | some ds => rw [placeholderStr, List.cons_append, numberedFrom, if_neg (by decide), if_pos rfl, hds]

theorem closeHole_number (n : ℕ) : closeHole (some (Nat.toDigits 10 (n + 1))) = [.hole (n + 1)] := by
  rw [closeHole, if_neg Nat.toDigits_ne_nil, Nat.ofDigitChars_ten_toDigits]

theorem length_closeHole (ds : List Char) : (closeHole (some ds)).length = 1 := by
  show (if ds = [] then [Chunk.char '$'] else [.hole (Nat.ofDigitChars 10 ds 0)]).length = 1
  split_ifs <;> rfl

/-- **The holes of a numbered text** in which no digit follows a placeholder or `$`. -/
theorem numbered_rewritten {open_ : Option (List Char)} (hS : Separated S)
    (ho : open_.isSome → StartsOff S) :
    numberedFrom open_ (rewritten r n S) = closeHole open_ ++ numbers r n S := by
  induction S generalizing open_ r n with
  | nil => cases open_ <;> simp [rewritten, numberedFrom, numbers, closeHole]
  | cons a S ih =>
    obtain ⟨hopens, hS'⟩ := separated_cons.mp hS
    cases a with
    | char c h =>
      have hchar : (if c = '$' then numberedFrom (some []) (rewritten r n S)
          else .char c :: numberedFrom none (rewritten r n S)) = .char c :: numbers r n S := by
        split_ifs with hc
        · rw [ih hS' fun _ => hopens hc, hc]
          rfl
        · rw [ih hS' (by simp)]
          rfl
      cases open_ with
      | none => exact hchar
      | some ds =>
        have hdigit : ¬ c.isDigit = true := ho rfl _ rfl
        rw [rewritten, numberedFrom, if_neg hdigit, hchar]
        rfl
    | raw =>
      rw [rewritten, numberedFrom_placeholder, ih hS' fun _ => hopens trivial, closeHole_number]
      rfl
    | given =>
      rw [rewritten, numberedFrom_placeholder, ih hS' fun _ => hopens trivial, closeHole_number]
      rfl

theorem length_numberedFrom (open_ : Option (List Char)) (r n : ℕ) (S : List Slot) :
    (numberedFrom open_ (rewritten r n S)).length ≤ (closeHole open_).length + S.length ∧
      ((numberedFrom open_ (rewritten r n S)).length = (closeHole open_).length + S.length →
        Separated S ∧ (open_.isSome → StartsOff S)) := by
  induction S generalizing open_ r n with
  | nil => cases open_ <;> simp [rewritten, numberedFrom, Separated, StartsOff]
  | cons a S ih =>
    have hhole {a : Slot} (ha : ¬ a.Digit) (k r n : ℕ) :
        (closeHole open_ ++ numberedFrom (some (Nat.toDigits 10 (k + 1)))
            (rewritten r n S)).length ≤ (closeHole open_).length + (a :: S).length ∧
          ((closeHole open_ ++ numberedFrom (some (Nat.toDigits 10 (k + 1)))
              (rewritten r n S)).length = (closeHole open_).length + (a :: S).length →
            Separated (a :: S) ∧ (open_.isSome → StartsOff (a :: S))) := by
      obtain ⟨hle, heq⟩ := ih (some (Nat.toDigits 10 (k + 1))) r n
      rw [length_closeHole] at hle heq
      rw [List.length_append, List.length_cons]
      refine ⟨by omega, fun h => ?_⟩
      obtain ⟨hsep, hoff⟩ := heq (by omega)
      exact ⟨separated_cons.mpr ⟨fun _ => hoff rfl, hsep⟩, fun _ b hb => by
        obtain rfl := Option.some.inj hb
        exact ha⟩
    cases a with
    | raw =>
      rw [rewritten, numberedFrom_placeholder]
      exact hhole (a := .raw) not_false r (r + 1) (n + 1)
    | given =>
      rw [rewritten, numberedFrom_placeholder]
      exact hhole (a := .given) not_false n r (n + 1)
    | char c h =>
      rw [rewritten, List.length_cons]
      have hchar : ((if c = '$' then numberedFrom (some []) (rewritten r n S)
          else .char c :: numberedFrom none (rewritten r n S)).length ≤ S.length + 1) ∧
          ((if c = '$' then numberedFrom (some []) (rewritten r n S)
            else .char c :: numberedFrom none (rewritten r n S)).length = S.length + 1 →
            Separated (.char c h :: S)) := by
        split_ifs with hc
        · obtain ⟨hle, heq⟩ := ih (some []) r n
          rw [length_closeHole] at hle heq
          refine ⟨by omega, fun hl => ?_⟩
          obtain ⟨hsep, hoff⟩ := heq (by omega)
          exact separated_cons.mpr ⟨fun _ => hoff rfl, hsep⟩
        · obtain ⟨hle, heq⟩ := ih none r n
          rw [closeHole, List.length_nil] at hle heq
          rw [List.length_cons]
          refine ⟨by omega, fun hl => ?_⟩
          exact separated_cons.mpr ⟨fun ho => absurd ho hc, (heq (by omega)).1⟩
      cases open_ with
      | none =>
        rw [numberedFrom]
        simp only [closeHole, List.length_nil, Nat.zero_add]
        exact ⟨hchar.1, fun hl => ⟨hchar.2 hl, by simp⟩⟩
      | some ds =>
        rw [numberedFrom]
        by_cases hdigit : c.isDigit = true
        · obtain ⟨hle, -⟩ := ih (some (ds ++ [c])) r n
          rw [length_closeHole] at hle
          rw [if_pos hdigit, length_closeHole]
          exact ⟨by omega, fun hl => by omega⟩
        · rw [if_neg hdigit, List.length_append]
          refine ⟨by omega, fun hl => ⟨hchar.2 (by omega), fun _ b hb => ?_⟩⟩
          obtain rfl := Option.some.inj hb
          exact hdigit

theorem numbered_length_iff (r n : ℕ) (S : List Slot) :
    (numbered (rewritten r n S)).length = S.length ↔ Separated S := by
  have hlen := length_numberedFrom none r n S
  simp only [closeHole, List.length_nil, Nat.zero_add] at hlen
  refine ⟨fun h => (hlen.2 h).1, fun h => ?_⟩
  have hnum : ∀ (r n : ℕ) (S : List Slot), (numbers r n S).length = S.length := by
    intro r n S
    induction S generalizing r n with
    | nil => rfl
    | cons a S ih => cases a <;> simp [numbers, ih]
  rw [numbered, numbered_rewritten h (by simp), closeHole, List.nil_append, hnum]

end Corm
