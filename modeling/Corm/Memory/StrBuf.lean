import Corm.Types

/-!
# String buffers

`internal/strbuf.h`, with allocation requests that may fail.

* `Faults`: the requests that fail, by their number;
* `StrBuf`, `grow`, `append`: a buffer, and the result of an append;
* `appendAll`: appends whose results nobody looks at;
* **`appendAll_spec`**: what they leave, and when it is everything.
-/

namespace Corm

/-- The allocation requests that fail, by their number. -/
abbrev Faults := ℕ → Bool

/-- `corm_strbuf_t`: the string, and the allocated capacity. -/
structure StrBuf where
  text : Text
  cap : ℕ
  deriving DecidableEq

namespace StrBuf

/-- `corm_strbuf_init`. -/
def init : StrBuf := ⟨[], 0⟩

/-- The loop of `corm_strbuf_grow`, for a number of rounds that `need` bounds. -/
def doubleTo (need : ℕ) : ℕ → ℕ → ℕ
  | 0, newCap => newCap
  | rounds + 1, newCap => if newCap < need then doubleTo need rounds (newCap * 2) else newCap

variable (fails : Faults) (n : ℕ) (sb : StrBuf)

/-- `corm_strbuf_grow` after `n` requests: its result, the requests after it, and the buffer. -/
def grow (extra : ℕ) : Err × ℕ × StrBuf :=
  let need := sb.text.length + extra + 1
  if need ≤ sb.cap then (.ok, n, sb)
  else if fails n then (.nomem, n + 1, sb)
  else (.ok, n + 1, { sb with cap := doubleTo need need (if sb.cap = 0 then 64 else sb.cap * 2) })

/-- `corm_strbuf_append`. -/
def append (s : Text) : Err × ℕ × StrBuf :=
  match sb.grow fails n s.length with
  | (.ok, n, sb) => (.ok, n, { sb with text := sb.text ++ s })
  | (err, n, sb) => (err, n, sb)

/-- Appends one after the other, whatever their results. -/
def appendAll : ℕ → StrBuf → List Text → ℕ × StrBuf
  | n, sb, [] => (n, sb)
  | n, sb, s :: ss =>
    let (_, n, sb) := sb.append fails n s
    appendAll n sb ss

/-- There is room for `extra` characters, or the request for more does not fail. -/
def Room (extra : ℕ) : Prop := sb.text.length + extra + 1 ≤ sb.cap ∨ fails n = false

/-- No request fails for a text that is not empty. -/
def Keeps : ℕ → StrBuf → List Text → Prop
  | _, _, [] => True
  | n, sb, s :: ss =>
    (s = [] ∨ sb.Room fails n s.length) ∧
      Keeps (sb.append fails n s).2.1 (sb.append fails n s).2.2 ss

/-! ## Growing -/

variable {need newCap : ℕ}

theorem le_doubleTo (need : ℕ) (hpos : 0 < newCap) : need ≤ doubleTo need need newCap := by
  have hrounds (rounds newCap : ℕ) (hpos : 0 < newCap) (h : need ≤ newCap + rounds) :
      need ≤ doubleTo need rounds newCap := by
    induction rounds generalizing newCap with
    | zero => exact h
    | succ rounds ih =>
      rw [doubleTo]
      split_ifs with hlt
      · exact ih (newCap * 2) (by omega) (by omega)
      · omega
  exact hrounds need newCap hpos (by omega)

theorem grow_room {extra : ℕ} (h : (sb.grow fails n extra).1 = .ok) :
    (sb.grow fails n extra).2.2.text = sb.text ∧
      sb.text.length + extra + 1 ≤ (sb.grow fails n extra).2.2.cap := by
  unfold grow at h ⊢
  simp only at h ⊢
  split_ifs at h ⊢ with hroom hfail hcap
  · exact ⟨rfl, hroom⟩
  · exact ⟨rfl, le_doubleTo _ (by omega)⟩
  · exact ⟨rfl, le_doubleTo _ (by omega)⟩

theorem grow_text (extra : ℕ) : (sb.grow fails n extra).2.2.text = sb.text := by
  unfold grow
  simp only
  split_ifs <;> rfl

theorem grow_ok_iff (extra : ℕ) :
    (sb.grow fails n extra).1 = .ok ↔ sb.Room fails n extra := by
  unfold grow Room
  simp only
  by_cases hroom : sb.text.length + extra + 1 ≤ sb.cap
  · simp [hroom]
  · cases hfail : fails n <;> simp [hroom]

/-! ## Appending -/

/-- An append has room for the text and its NUL, or a request fails and it changes nothing. -/
theorem append_cases (s : Text) :
    (∃ n' cap, sb.grow fails n s.length = (.ok, n', ⟨sb.text, cap⟩) ∧
      sb.append fails n s = (.ok, n', ⟨sb.text ++ s, cap⟩) ∧
      sb.text.length + s.length + 1 ≤ cap) ∨
    (sb.grow fails n s.length = (.nomem, n + 1, sb) ∧ sb.append fails n s = (.nomem, n + 1, sb)) := by
  have hroom : (sb.grow fails n s.length).1 = .ok → _ := grow_room fails n sb
  unfold append
  unfold grow at hroom ⊢
  simp only at hroom ⊢
  split_ifs at hroom ⊢
  · exact Or.inl ⟨n, sb.cap, rfl, rfl, (hroom rfl).2⟩
  · exact Or.inr ⟨rfl, rfl⟩
  · exact Or.inl ⟨n + 1, _, rfl, rfl, (hroom rfl).2⟩
  · exact Or.inl ⟨n + 1, _, rfl, rfl, (hroom rfl).2⟩

theorem append_ok_iff (s : Text) :
    (sb.append fails n s).1 = .ok ↔ sb.Room fails n s.length := by
  rw [← grow_ok_iff]
  unfold append
  rcases sb.grow fails n s.length with ⟨err, n', sb'⟩
  cases err <;> simp

variable {fails n sb}

theorem append_text (s : Text) : (sb.append fails n s).2.2.text =
    if (sb.append fails n s).1 = .ok then sb.text ++ s else sb.text := by
  have htext := grow_text fails n sb s.length
  unfold append
  rcases hg : sb.grow fails n s.length with ⟨err, n', sb'⟩
  rw [hg] at htext
  cases err with
  | ok => exact congrArg (· ++ s) htext
  | _ => exact htext

theorem append_ok {s : Text} (h : (sb.append fails n s).1 = .ok) :
    (sb.append fails n s).2.2.text = sb.text ++ s := by rw [append_text, if_pos h]

theorem append_err {s : Text} (h : (sb.append fails n s).1 ≠ .ok) :
    (sb.append fails n s).2.2.text = sb.text := by rw [append_text, if_neg h]

/-- **What the appends leave**: some of the texts, and all of them exactly when none that is not
empty is lost. -/
theorem appendAll_spec (fails : Faults) (n : ℕ) (sb : StrBuf) (ss : List Text) :
    ∃ kept, (appendAll fails n sb ss).2.text = sb.text ++ kept ∧
      List.Sublist kept ss.flatten ∧ (kept = ss.flatten ↔ Keeps fails n sb ss) := by
  induction ss generalizing n sb with
  | nil => exact ⟨[], by simp [appendAll], List.Sublist.refl _, by simp [Keeps]⟩
  | cons s ss ih =>
    obtain ⟨kept, htext, hsub, hiff⟩ := ih (sb.append fails n s).2.1 (sb.append fails n s).2.2
    by_cases hok : (sb.append fails n s).1 = .ok
    · refine ⟨s ++ kept, ?_, hsub.append_left s, ?_⟩
      · rw [append_ok hok] at htext
        rw [← List.append_assoc]
        exact htext
      · rw [List.flatten_cons, List.append_cancel_left_eq, hiff, Keeps, ← append_ok_iff]
        exact ⟨fun h => ⟨Or.inr hok, h⟩, fun h => h.2⟩
    · refine ⟨kept, ?_, hsub.trans (List.sublist_append_right s _), ?_⟩
      · rw [append_err hok] at htext
        exact htext
      · rw [List.flatten_cons, Keeps, ← append_ok_iff, ← hiff]
        constructor
        · intro h
          have hlen := congrArg List.length h
          have hle := hsub.length_le
          rw [List.length_append] at hlen
          have hs : s = [] := List.length_eq_zero_iff.mp (by omega)
          rw [hs, List.nil_append] at h
          exact ⟨Or.inl hs, h⟩
        · rintro ⟨hs | hs, h⟩
          · rw [hs, h, List.nil_append]
          · exact absurd hs hok

theorem keeps_of_no_fails (hfails : ∀ n, fails n = false) (ss : List Text) :
    Keeps fails n sb ss := by
  induction ss generalizing n sb with
  | nil => trivial
  | cons s ss ih => exact ⟨Or.inr (Or.inr (hfails n)), ih⟩

theorem appendAll_text (hfails : ∀ n, fails n = false) (n : ℕ) (sb : StrBuf) (ss : List Text) :
    (appendAll fails n sb ss).2.text = sb.text ++ ss.flatten := by
  obtain ⟨kept, htext, -, hiff⟩ := appendAll_spec fails n sb ss
  rw [htext, hiff.mpr (keeps_of_no_fails hfails ss)]

end StrBuf

end Corm
