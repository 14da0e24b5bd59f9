import Corm.Lib.Cells
import Corm.Model
import Corm.Sql.Literal
import Mathlib.Data.List.TakeWhile

/-!
# Escaping text for SQLite

`sqlite_escape` of `backend/sqlite3.c`, on arrays of which it may read and write the cells only.

* `escapeLoop`, `sqliteEscape`: the loop with its two indices, and the function;
* `escapeLoop_spec`: the loop writes the text with its quotes doubled;
* **`sqlite_escape_literal`**: what is written is one literal with the value of the source.
-/

namespace Corm

open Sql (doubled Quote)

/-- `if (dst) dst[j++] = c`; `none` when the write is outside of the array. -/
def putChar (dst : Option (List Char)) (j : ℕ) (c : Char) : Option (Option (List Char) × ℕ) :=
  match dst with
  | none => some (none, j)
  | some buf => (Cells.write buf j [c]).map fun buf => (some buf, j + 1)

/-- The loop, with `left` characters up to `len` and the rest of the source; `none` when it reads
or writes outside of an array. -/
def escapeLoop : ℕ → List Char → Option (List Char) → ℕ → Option (Option (List Char) × ℕ)
  | 0, _, dst, j => some (dst, j)
  | _ + 1, [], _, _ => none
  | left + 1, c :: src, dst, j =>
    if c = nul then some (dst, j)
    else do
      let (dst, j) ← if c = Quote.single.char then putChar dst j c else some (dst, j)
      let (dst, j) ← putChar dst j c
      escapeLoop left src dst j

/-- `sqlite_escape`: the destination, if there is one, and the length it returns. -/
def sqliteEscape (dst : Option (List Char)) (src : List Char) (len : ℕ) :
    Option (Option (List Char) × ℕ) := do
  let (dst, j) ← escapeLoop len src dst 0
  match dst with
  | none => some (none, j)
  | some buf => (Cells.write buf j [nul]).map fun buf => (some buf, j)

/-! ## The loop -/

variable {src done rest : List Char} {left len : ℕ}

theorem escapeLoop_cons {c : Char} (hc : c ≠ nul) (src : List Char) (left : ℕ)
    (dst : Option (List Char)) (j : ℕ) : escapeLoop (left + 1) (c :: src) dst j =
      (if c = Quote.single.char then putChar dst j c else some (dst, j)).bind fun out =>
        (putChar out.1 out.2 c).bind fun out => escapeLoop left src out.1 out.2 := by
  rw [escapeLoop, if_neg hc]
  split_ifs <;> rfl

theorem putChar_middle (c old : Char) : putChar (some (done ++ old :: rest)) done.length c =
    some (some ((done ++ [c]) ++ rest), (done ++ [c]).length) := by
  rw [putChar, Cells.write_one, Option.map_some, List.length_append, List.append_assoc]
  rfl

/-- What the loop makes of some source. -/
def escaped (src : List Char) (left : ℕ) : List Char := doubled .single (cstr (src.take left))

theorem escaped_cons {c : Char} (hc : c ≠ nul) (src : List Char) (left : ℕ) :
    escaped (c :: src) (left + 1) =
      (if c = Quote.single.char then [c, c] else [c]) ++ escaped src left := by
  rw [escaped, List.take_succ_cons, cstr, List.takeWhile_cons_of_pos (by simpa using hc),
    Sql.doubled_cons]
  rfl

theorem escaped_nul (src : List Char) (left : ℕ) : escaped (nul :: src) (left + 1) = [] := rfl

theorem length_escaped_le (src : List Char) (left : ℕ) : (escaped src left).length ≤ 2 * left := by
  have hdoubled := Sql.length_doubled_le .single (cstr (src.take left))
  have hcstr : (cstr (src.take left)).length ≤ (src.take left).length :=
    (List.takeWhile_sublist _).length_le
  have htake := List.length_take_le left src
  unfold escaped
  omega

/-- **The loop** writes the source, up to its NUL, with the quotes doubled. -/
theorem escapeLoop_spec (hsrc : left ≤ src.length ∨ nul ∈ src) (hroom : 2 * left ≤ rest.length) :
    escapeLoop left src (some (done ++ rest)) done.length =
      some (some ((done ++ escaped src left) ++ rest.drop (escaped src left).length),
        (done ++ escaped src left).length) := by
  induction left generalizing src done rest with
  | zero => simp [escapeLoop, escaped, cstr, doubled]
  | succ left ih =>
    obtain _ | ⟨c, src⟩ := src
    · simp at hsrc
    by_cases hc : c = nul
    · rw [hc, escaped_nul, escapeLoop, if_pos rfl, List.append_nil]
      rfl
    obtain ⟨a, b, rest, rfl⟩ : ∃ a b rest', rest = a :: b :: rest' := by
      rcases rest with _ | ⟨a, _ | ⟨b, rest⟩⟩
      · simp at hroom
      · simp only [List.length_singleton] at hroom
        omega
      · exact ⟨a, b, rest, rfl⟩
    have hsrc' : left ≤ src.length ∨ nul ∈ src := by
      rcases hsrc with hle | hmem
      · exact Or.inl (Nat.le_of_succ_le_succ hle)
      · exact Or.inr ((List.mem_cons.mp hmem).resolve_left (Ne.symm hc))
    have hroom' : 2 * left ≤ rest.length := by
      simp only [List.length_cons] at hroom
      omega
    rw [escapeLoop_cons hc, escaped_cons hc]
    by_cases hq : c = Quote.single.char
    · rw [if_pos hq, if_pos hq, putChar_middle, Option.bind_some, putChar_middle, Option.bind_some]
      refine (ih hsrc' hroom').trans ?_
      simp
    · rw [if_neg hq, if_neg hq, Option.bind_some, putChar_middle, Option.bind_some]
      have hroom'' : 2 * left ≤ (b :: rest).length := Nat.le_succ_of_le hroom'
      refine (ih hsrc' hroom'').trans ?_
      simp

/-! ## The function -/

/-- **What `sqlite_escape` writes**: it stays in a destination of `2 * len + 1` characters, leaves
the others as they are, returns the length of what it wrote, and between quotes that is one
literal, open up to the last quote, whose value is the source up to `len` characters or its NUL. -/
theorem sqlite_escape_literal {dst : List Char} (hsrc : len ≤ src.length ∨ nul ∈ src)
    (hdst : 2 * len + 1 ≤ dst.length) :
    ∃ out, sqliteEscape (some dst) src len =
        some (some (out ++ nul :: dst.drop (out.length + 1)), out.length) ∧ nul ∉ out ∧
      Sql.run .sqlite .idle (Quote.single.char :: out) = ([], .quoted .single (cstr (src.take len))) ∧
      Sql.lex .sqlite (Quote.single.char :: (out ++ [Quote.single.char])) =
        some [.quoted .single (cstr (src.take len))] := by
  refine ⟨escaped src len, ?_, ?_, ?_, Sql.lex_of_part (Sql.lexPart_doubled (by decide) .single _)⟩
  · have hloop := @escapeLoop_spec src [] dst len hsrc (by omega)
    simp only [List.nil_append, List.length_nil] at hloop
    have hle := length_escaped_le src len
    obtain ⟨old, hdrop⟩ : ∃ old, dst.drop (escaped src len).length =
        old :: dst.drop ((escaped src len).length + 1) :=
      ⟨_, List.drop_eq_getElem_cons (by omega)⟩
    rw [sqliteEscape, hloop, hdrop]
    show Option.map _ (Cells.write _ _ _) = _
    rw [Cells.write_one]
    rfl
  · intro hmem
    obtain ⟨c, hc, hmem⟩ := List.mem_flatMap.mp hmem
    have hne : c ≠ nul := by simpa using List.mem_takeWhile_imp hc
    split_ifs at hmem <;> simp at hmem <;> exact hne hmem.symm
  · have hopen : Sql.step .sqlite .idle Quote.single.char = ([], .quoted .single []) := rfl
    rw [Sql.run_cons, hopen, escaped, Sql.run_doubled (by decide)]
    rfl

theorem sqlite_escape_literal_its :
    ∃ out, sqliteEscape (some (List.replicate 9 nul)) ("it's".toList ++ [nul]) 4 =
        some (some (out ++ nul :: (List.replicate 9 nul).drop (out.length + 1)), out.length) ∧
      nul ∉ out ∧
      Sql.run .sqlite .idle (Quote.single.char :: out) =
        ([], .quoted .single (cstr (("it's".toList ++ [nul]).take 4))) ∧
      Sql.lex .sqlite (Quote.single.char :: (out ++ [Quote.single.char])) =
        some [.quoted .single (cstr (("it's".toList ++ [nul]).take 4))] :=
  sqlite_escape_literal (Or.inl (by decide)) (by decide)

end Corm
