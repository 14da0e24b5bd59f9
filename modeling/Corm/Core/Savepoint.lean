import Corm.Exec
import Corm.Sql.Lex

/-!
# Savepoints

`corm_savepoint`, `corm_rollback_to` and `corm_release_savepoint` write a name without quotes into a
buffer of 256 bytes. The names that they accept may have a `-` in them, and any length.

* `isValidSavepointName`, `SavepointCall.run`: the check, and the three functions;
* `NamesSavepoint`: the statement is read as its keywords and one identifier, the name;
* `Fits`: a name without a `-` that does not begin with a digit, and that the buffer has room for;
* **`savepoints_named_iff`**: which names the three statements pass on.
-/

namespace Corm

open Sql (Tok lex)

/-! ## The functions -/

/-- The characters of savepoint names, `[a-zA-Z0-9_-]`. -/
def isSavepointChar (c : Char) : Bool :=
  (decide ('a' ≤ c) && decide (c ≤ 'z')) || (decide ('A' ≤ c) && decide (c ≤ 'Z')) ||
    (decide ('0' ≤ c) && decide (c ≤ '9')) || c == '_' || c == '-'

/-- `is_valid_savepoint_name`. -/
def isValidSavepointName (name : Option Text) : Bool :=
  match name with
  | none => false
  | some n => !n.isEmpty && n.all isSavepointChar

/-- The three functions. -/
inductive SavepointCall
  | savepoint
  | rollbackTo
  | release
  deriving DecidableEq

namespace SavepointCall

/-- The statement up to the name. -/
def head : SavepointCall → Text
  | savepoint => "SAVEPOINT ".toList
  | rollbackTo => "ROLLBACK TO SAVEPOINT ".toList
  | release => "RELEASE SAVEPOINT ".toList

/-- The text in the buffer. -/
def sql (call : SavepointCall) (name : Text) : Text := snprintf 256 (call.head ++ name)

/-- The function: its result, the message that it sets, and the state. -/
def run {σ ρ : Type} (b : Backend σ ρ) (s : σ) (name : Option Text) (call : SavepointCall) :
    Err × Option Text × σ :=
  match name with
  | none => (.null, none, s)
  | some n =>
    if isValidSavepointName (some n) then
      let (err, s) := b.exec s (call.sql n) []
      (err, none, s)
    else (.null, some ("Invalid savepoint name: '".toList ++ n ++ "'".toList), s)

/-- The keywords of the statement. -/
def keywords : SavepointCall → List Tok
  | savepoint => [.word "SAVEPOINT".toList]
  | rollbackTo => [.word "ROLLBACK".toList, .word "TO".toList, .word "SAVEPOINT".toList]
  | release => [.word "RELEASE".toList, .word "SAVEPOINT".toList]

end SavepointCall

variable {δ : Sql.Dialect} {n n' : Text} {call call' : SavepointCall}

theorem run_savepoint {σ ρ : Type} (b : Backend σ ρ) (s : σ)
    (hn : isValidSavepointName (some n) = true) (call : SavepointCall) :
    call.run b s (some n) = ((b.exec s (call.sql n) []).1, none, (b.exec s (call.sql n) []).2) := by
  rw [SavepointCall.run]
  simp only [hn, if_true]

/-! ## How the statements are read -/

/-- The tokens of a statement, which ends like a line. -/
def statementToks (δ : Sql.Dialect) (sql : Text) : Option (List Tok) := lex δ (sql ++ ['\n'])

/-- An identifier without quotes: a letter or an underscore, followed by letters, digits and
underscores. -/
def IsIdentifier (name : Text) : Prop :=
  (∀ c ∈ name.head?, c.isAlpha = true ∨ c = '_') ∧ name ≠ [] ∧
    ∀ c ∈ name, c.isAlphanum = true ∨ c = '_'

/-- The statement is its keywords and one identifier, the name. -/
structure NamesSavepoint (δ : Sql.Dialect) (call : SavepointCall) (sql name : Text) : Prop where
  toks : statementToks δ sql = some (call.keywords ++ [Tok.word name])
  identifier : IsIdentifier name

/-- The savepoint that a statement of the call refers to: the word after its keywords. -/
def savepointOf (δ : Sql.Dialect) (call : SavepointCall) (sql : Text) : Option Text :=
  match (statementToks δ sql).map (List.drop call.keywords.length) with
  | some (.word w :: _) => some w
  | _ => none

theorem NamesSavepoint.of (h : NamesSavepoint δ call (call.sql n) n) :
    savepointOf δ call (call.sql n) = some n := by
  unfold savepointOf
  rw [h.toks, Option.map_some, List.drop_left]

/-- A name that the buffers have room for, with no `-` in it and no digit at its beginning. -/
structure Fits (name : Text) : Prop where
  dash : '-' ∉ name
  first : ∀ c ∈ name.head?, c.isDigit = false
  room : SavepointCall.rollbackTo.head.length + name.length < 256

theorem savepointChar (hn : isValidSavepointName (some n) = true) :
    ∀ c ∈ n, c.isAlphanum = true ∨ c = '_' ∨ c = '-' := by
  intro c hc
  simp only [isValidSavepointName, Bool.and_eq_true, List.all_eq_true] at hn
  have h := hn.2 c hc
  have hup : c.isUpper = (decide ('A' ≤ c) && decide (c ≤ 'Z')) := Bool.decide_and _ _
  have hlow : c.isLower = (decide ('a' ≤ c) && decide (c ≤ 'z')) := rfl
  have hdig : c.isDigit = (decide ('0' ≤ c) && decide (c ≤ '9')) := rfl
  have hal : c.isAlphanum = (c.isUpper || c.isLower || c.isDigit) := rfl
  rw [isSavepointChar, ← hup, ← hlow, ← hdig] at h
  rw [hal]
  simp only [Bool.or_eq_true, beq_iff_eq] at h ⊢
  tauto

theorem statementToks_word (call : SavepointCall) (hw : ∀ c ∈ n, Sql.isWordChar c = true)
    (hne : n ≠ []) :
    statementToks δ (call.head ++ n) = some (call.keywords ++ [Tok.word n]) := by
  have hhead : Sql.lexPart δ call.head = some call.keywords := by cases call <;> cases δ <;> rfl
  have hidle : (Sql.run δ .idle call.head).2 = .idle := by cases call <;> cases δ <;> rfl
  have hend : lex δ ['\n'] = some [] := by cases δ <;> rfl
  have hname := Sql.lex_append_some (Sql.lexPart_word hw hne) hend (Or.inr ⟨'\n', [], rfl, rfl⟩)
  rw [statementToks, List.append_assoc, Sql.lex_append_some hhead hname (Or.inl hidle),
    List.append_nil]

theorem sql_eq (call : SavepointCall) (n : Text) :
    call.sql n = call.head ++ n.take (255 - call.head.length) := by
  have hle : call.head.length ≤ 255 := by cases call <;> decide
  rw [SavepointCall.sql, snprintf, List.take_append, List.take_of_length_le hle]

theorem Fits.identifier (h : Fits n) (hn : isValidSavepointName (some n) = true) :
    IsIdentifier n := by
  have hchar (c : Char) (hc : c ∈ n) : c.isAlphanum = true ∨ c = '_' := by
    rcases savepointChar hn c hc with hc' | hc' | rfl
    · exact Or.inl hc'
    · exact Or.inr hc'
    · exact absurd hc h.dash
  refine ⟨fun c hc => (hchar c (List.mem_of_mem_head? hc)).imp_left fun hal => ?_, ?_, hchar⟩
  · rw [Char.isAlphanum, h.first c hc, Bool.or_false] at hal
    exact hal
  · rintro rfl
    cases hn

theorem IsIdentifier.wordChar (h : IsIdentifier n) : ∀ c ∈ n, Sql.isWordChar c = true := by
  intro c hc
  rcases h.2.2 c hc with hc' | rfl
  · simp [Sql.isWordChar, hc']
  · rfl

theorem isDigit_of_isAlpha {c : Char} (h : c.isAlpha = true) : c.isDigit = false := by
  have hup : c.isUpper = (decide ('A' ≤ c) && decide (c ≤ 'Z')) := Bool.decide_and _ _
  have hlow : c.isLower = (decide ('a' ≤ c) && decide (c ≤ 'z')) := rfl
  have hdigit : c.isDigit = (decide ('0' ≤ c) && decide (c ≤ '9')) := rfl
  have hal : c.isAlpha = (c.isUpper || c.isLower) := rfl
  rw [Bool.eq_false_iff]
  intro hdig
  rw [hal, hup, hlow] at h
  rw [hdigit] at hdig
  simp only [Bool.or_eq_true, Bool.and_eq_true, decide_eq_true_eq, Char.le_def,
    UInt32.le_iff_toNat_le] at h hdig
  have hnine : '9'.val.toNat = 57 := rfl
  have hA : 'A'.val.toNat = 65 := rfl
  have ha : 'a'.val.toNat = 97 := rfl
  omega

/-- **The three statements pass a name on** exactly when it fits. -/
theorem names_iff (hn : isValidSavepointName (some n) = true) :
    (∀ call : SavepointCall, NamesSavepoint δ call (call.sql n) n) ↔ Fits n := by
  constructor
  · intro h
    obtain ⟨htoks, hid⟩ := h .rollbackTo
    have hlen : SavepointCall.rollbackTo.head.length = 22 := by decide
    refine ⟨fun hdash => ?_, fun c hc => ?_, ?_⟩
    · rcases hid.2.2 _ hdash with hc | hc <;> revert hc <;> decide
    · rcases hid.1 c hc with hal | rfl
      · exact isDigit_of_isAlpha hal
      · rfl
    · -- what the longest statement leaves of the name is the whole name
      have hw : ∀ c ∈ n.take (255 - SavepointCall.rollbackTo.head.length),
          Sql.isWordChar c = true := fun c hc => hid.wordChar c (List.mem_of_mem_take hc)
      have hne : n.take (255 - SavepointCall.rollbackTo.head.length) ≠ [] := by
        rw [hlen, Ne, List.take_eq_nil_iff]
        exact fun h => h.elim (by decide) hid.2.1
      rw [sql_eq, statementToks_word _ hw hne, Option.some.injEq, List.append_cancel_left_eq,
        List.cons.injEq, Tok.word.injEq] at htoks
      have hle := congrArg List.length htoks.1
      rw [List.length_take] at hle
      omega
  · intro h call
    have hroom : n.length ≤ 255 - call.head.length := by
      have hlong : call.head.length ≤ SavepointCall.rollbackTo.head.length := by
        cases call <;> decide
      have := h.room
      omega
    have hid := h.identifier hn
    refine ⟨?_, hid⟩
    rw [sql_eq, List.take_of_length_le hroom]
    exact statementToks_word call hid.wordChar hid.2.1

/-- **Savepoints**: the calls with two names that are accepted are read as these names, and refer to
one savepoint exactly when the names are equal, if and only if both names fit. -/
theorem savepoints_named_iff (hn : isValidSavepointName (some n) = true)
    (hn' : isValidSavepointName (some n') = true) :
    ((∀ call : SavepointCall, NamesSavepoint δ call (call.sql n) n) ∧
      (∀ call : SavepointCall, NamesSavepoint δ call (call.sql n') n') ∧
      ∀ call call' : SavepointCall,
        savepointOf δ call (call.sql n) = savepointOf δ call' (call'.sql n') ↔ n = n') ↔
      Fits n ∧ Fits n' := by
  rw [← names_iff hn, ← names_iff hn']
  constructor
  · exact fun h => ⟨h.1, h.2.1⟩
  · rintro ⟨h, h'⟩
    refine ⟨h, h', fun call call' => ?_⟩
    rw [(h call).of, (h' call').of, Option.some.injEq]

/-- **A name with a comment in it**, on SQLite: it is accepted, and refers to the savepoint of another
name. -/
theorem savepoint_comment :
    isValidSavepointName (some "a--b".toList) = true ∧ isValidSavepointName (some "a".toList) = true ∧
    ∀ call : SavepointCall, ¬ NamesSavepoint .sqlite call (call.sql "a--b".toList) "a--b".toList ∧
      savepointOf .sqlite call (call.sql "a--b".toList) = savepointOf .sqlite call (call.sql "a".toList) := by
  refine ⟨by decide +kernel, by decide +kernel, fun call => ⟨fun h => ?_, ?_⟩⟩
  · have htoks := h.toks
    revert htoks
    cases call <;> decide +kernel
  · cases call <;> rfl

theorem savepoints_named_iff_sp1 :
    ((∀ call : SavepointCall, NamesSavepoint .sqlite call (call.sql "sp1".toList) "sp1".toList) ∧
      (∀ call : SavepointCall, NamesSavepoint .sqlite call (call.sql "sp2".toList) "sp2".toList) ∧
      ∀ call call' : SavepointCall,
        savepointOf .sqlite call (call.sql "sp1".toList) = savepointOf .sqlite call' (call'.sql "sp2".toList) ↔
          "sp1".toList = "sp2".toList) ↔
      Fits "sp1".toList ∧ Fits "sp2".toList :=
  savepoints_named_iff (by decide +kernel) (by decide +kernel)

end Corm
