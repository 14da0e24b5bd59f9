import Corm.Lib.Cells
import Corm.Lib.Run
import Corm.Memory.StrBuf
import Corm.Model
import Mathlib.Algebra.GroupWithZero.Nat

/-!
# String buffers in memory

`internal/strbuf.h` on the allocated cells, with the wrapping arithmetic of `size_t`. The buffers
of `Corm.Memory.StrBuf` are the abstract machine: a text and a capacity that is any number.

* `RawBuf`, `doubleLoop`, `grow`: the fields of `corm_strbuf_t`, and growing them;
* `append`, `appendn`, `appendf`, `clear`, `free`: the operations;
* `Represents`: the text and the capacity of a buffer;
* `BufOp`, `step`, `Sound`: runs of operations, and what holds in every state of one;
* **`strbuf_sound_iff`**: the runs in which it does.
-/

namespace Corm

/-- `corm_strbuf_t`: the allocated cells, where a cell that was not written has no character. -/
structure RawBuf where
  buf : Option (List (Option Char))
  len : UInt64
  cap : UInt64
  deriving DecidableEq

namespace RawBuf

/-- `corm_strbuf_init`. -/
def init : RawBuf := ⟨none, 0, 0⟩

/-- The loop of `corm_strbuf_grow`, for some rounds; `none` when it is not at its end. -/
def doubleLoop (need : UInt64) : ℕ → UInt64 → Option UInt64
  | 0, _ => none
  | rounds + 1, newCap => if newCap < need then doubleLoop need rounds (newCap * 2) else some newCap

/-- The cells that `realloc` returns. -/
def realloc (buf : Option (List (Option Char))) (size : UInt64) : List (Option Char) :=
  let old := (buf.getD []).take size.toNat
  old ++ List.replicate (size.toNat - old.length) none

variable (fails : Faults) (n : ℕ) (sb : RawBuf)

/-- `corm_strbuf_grow` after `n` requests: its result, the requests after it, and the buffer;
`none` when the loop does not end (`doubleLoop_stuck`: 65 rounds are enough to see that). -/
def grow (extra : UInt64) : Option (Err × ℕ × RawBuf) :=
  let need := sb.len + extra + 1
  if need ≤ sb.cap then some (.ok, n, sb)
  else do
    let newCap ← doubleLoop need 65 (if sb.cap = 0 then 64 else sb.cap * 2)
    if fails n then some (.nomem, n + 1, sb)
    else some (.ok, n + 1, ⟨some (realloc sb.buf newCap), sb.len, newCap⟩)

/-- The body that `corm_strbuf_append` and `corm_strbuf_appendn` share; `none` when it writes
outside of the cells. -/
def copy (s : List Char) : Option (Err × ℕ × RawBuf) := do
  let slen := UInt64.ofNat s.length
  let (err, n, sb) ← sb.grow fails n slen
  if err = .ok then do
    let cells ← sb.buf
    let cells ← Cells.write cells sb.len.toNat (s.map some)
    let len := sb.len + slen
    let cells ← Cells.write cells len.toNat [some nul]
    some (.ok, n, ⟨some cells, len, sb.cap⟩)
  else some (err, n, sb)

/-- `corm_strbuf_append`. -/
def append (s : Text) : Option (Err × ℕ × RawBuf) := sb.copy fails n s

/-- `corm_strbuf_appendn`, for the bytes that it is given. -/
def appendn (s : List Char) : Option (Err × ℕ × RawBuf) := sb.copy fails n s

/-- `corm_strbuf_appendf`: `vsnprintf` makes a text of the arguments, or fails; it returns a
negative number too when the text has more than `INT_MAX` characters. `none` when the function
writes outside of the cells, or `needed + 1` is no `int`. -/
def appendf (text : Option Text) : Option (Err × ℕ × RawBuf) :=
  match text with
  | none => some (.generic, n, sb)
  | some s =>
    if 2 ^ 31 - 1 < s.length then some (.generic, n, sb)
    else do
      let needed := UInt64.ofNat s.length
      let (err, n, sb) ← sb.grow fails n needed
      if err = .ok then
        if s.length = 2 ^ 31 - 1 then none
        else do
          let cells ← sb.buf
          let cells ← Cells.write cells sb.len.toNat ((s ++ [nul]).map some)
          some (.ok, n, ⟨some cells, sb.len + needed, sb.cap⟩)
      else some (err, n, sb)

/-- `corm_strbuf_clear`. -/
def clear : Option RawBuf :=
  match sb.buf with
  | none => some { sb with len := 0 }
  | some cells => (Cells.write cells 0 [some nul]).map fun cells => ⟨some cells, 0, sb.cap⟩

/-- `corm_strbuf_free`. -/
def free : RawBuf := ⟨none, 0, 0⟩

end RawBuf

/-- The operations on a buffer. -/
inductive BufOp
  | append (s : Text)
  | appendn (s : List Char)
  | appendf (text : Option Text)
  | clear
  | free

/-- A buffer after some requests, and the texts whose append succeeded since it was last cleared or
freed. -/
structure BufState where
  requests : ℕ
  sb : RawBuf
  content : Text

namespace BufState

/-- A new buffer. -/
def start : BufState := ⟨0, .init, []⟩

/-- The state after the append of a text, with its result. -/
def appended (s : BufState) (text : Text) (out : Err × ℕ × RawBuf) : BufState :=
  ⟨out.2.1, out.2.2, if out.1 = .ok then s.content ++ text else s.content⟩

end BufState

namespace BufOp

variable (fails : Faults)

/-- The result of an operation, and the state after it; `none` when it is not defined in C, or does
not end. -/
def run (s : BufState) : BufOp → Option (Err × BufState)
  | .append text => (s.sb.append fails s.requests text).map fun out => (out.1, s.appended text out)
  | .appendn text =>
    (s.sb.appendn fails s.requests text).map fun out => (out.1, s.appended text out)
  | .appendf text =>
    (s.sb.appendf fails s.requests text).map fun out => (out.1, s.appended (text.getD []) out)
  | .clear => s.sb.clear.map fun sb => (.ok, ⟨s.requests, sb, []⟩)
  | .free => some (.ok, ⟨s.requests, .free, []⟩)

/-- The state after an operation. -/
def step (s : BufState) (op : BufOp) : Option BufState := (op.run fails s).map Prod.snd

/-- The operation on the abstract machine, after some requests. -/
def next (t : ℕ × StrBuf) : BufOp → ℕ × StrBuf
  | .append s => (t.2.append fails t.1 s).2
  | .appendn s => (t.2.append fails t.1 s).2
  | .appendf none => t
  | .appendf (some s) => if 2 ^ 31 - 1 < s.length then t else (t.2.append fails t.1 s).2
  | .clear => (t.1, { t.2 with text := [] })
  | .free => (t.1, .init)

/-- The text that the operation tries to append. -/
def text : BufOp → Text
  | .append s => s
  | .appendn s => s
  | .appendf s => s.getD []
  | .clear => []
  | .free => []

/-- With the text that the operation tries to append, the length stays below `2 ^ 62`. -/
def Below (t : ℕ × StrBuf) (op : BufOp) : Prop := t.2.text.length + op.text.length < 2 ^ 62

instance (t : ℕ × StrBuf) (op : BufOp) : Decidable (Below t op) :=
  inferInstanceAs (Decidable (_ < _))

/-- The operation does not format a text of `INT_MAX` characters for which there is room. -/
def NoOverflow (t : ℕ × StrBuf) : BufOp → Prop
  | .appendf (some s) => ¬ (s.length = 2 ^ 31 - 1 ∧ t.2.Room fails t.1 s.length)
  | _ => True

end BufOp

/-! ## The doubling loop -/

namespace RawBuf

variable {need c : UInt64} {rounds fuel : ℕ}

theorem toNat_double (c : UInt64) : (c * 2).toNat = c.toNat * 2 % 2 ^ 64 := UInt64.toNat_mul c 2

/-- The loop is not at its end after some rounds, exactly when none of the doubled capacities is
enough. -/
theorem doubleLoop_eq_none_iff : doubleLoop need rounds c = none ↔
    ∀ k < rounds, c.toNat * 2 ^ k % 2 ^ 64 < need.toNat := by
  induction rounds generalizing c with
  | zero => simp [doubleLoop]
  | succ rounds ih =>
    have hnext (k : ℕ) : (c * 2).toNat * 2 ^ k % 2 ^ 64 = c.toNat * 2 ^ (k + 1) % 2 ^ 64 := by
      rw [toNat_double, Nat.mod_mul_mod, Nat.mul_assoc, ← Nat.pow_succ']
    have hzero : c.toNat * 2 ^ 0 % 2 ^ 64 = c.toNat := by
      rw [Nat.pow_zero, Nat.mul_one]
      exact Nat.mod_eq_of_lt c.toNat_lt
    rw [doubleLoop]
    split_ifs with h
    · rw [ih]
      constructor
      · rintro hk (_ | k) hlt
        · rw [hzero]
          exact h
        · rw [← hnext]
          exact hk k (Nat.lt_of_succ_lt_succ hlt)
      · intro hk k hlt
        rw [hnext]
        exact hk (k + 1) (Nat.succ_lt_succ hlt)
    · refine iff_of_false (fun hk => by cases hk) fun hk => h ?_
      have := hk 0 (Nat.succ_pos _)
      rwa [hzero] at this

/-- **A loop that is not at its end after 65 rounds never is**: the capacity is 0 by then. -/
theorem doubleLoop_stuck (h : doubleLoop need 65 c = none) (rounds : ℕ) :
    doubleLoop need rounds c = none := by
  rw [doubleLoop_eq_none_iff] at h ⊢
  have hmod (k : ℕ) (hk : 64 ≤ k) : c.toNat * 2 ^ k % 2 ^ 64 = 0 := by
    rw [← Nat.add_sub_cancel' hk, Nat.pow_add, Nat.mul_left_comm]
    exact Nat.mul_mod_right _ _
  intro k _
  by_cases hk : k < 65
  · exact h k hk
  · rw [hmod k (by omega), ← hmod 64 (Nat.le_refl _)]
    exact h 64 (by omega)

theorem doubleLoop_eq (hneed : need.toNat ≤ 2 ^ 62) (hrounds : need.toNat ≤ c.toNat * 2 ^ rounds)
    (hfuel : need.toNat ≤ c.toNat * 2 ^ fuel) :
    ∃ d, doubleLoop need (rounds + 1) c = some d ∧
      d.toNat = StrBuf.doubleTo need.toNat fuel c.toNat := by
  induction rounds generalizing c fuel with
  | zero =>
    have hnot : ¬ c < need := by
      rw [UInt64.lt_iff_toNat_lt]
      omega
    have hnot' : ¬ c.toNat < need.toNat := by omega
    refine ⟨c, by rw [doubleLoop, if_neg hnot], ?_⟩
    cases fuel with
    | zero => rfl
    | succ fuel => rw [StrBuf.doubleTo, if_neg hnot']
  | succ rounds ih =>
    rw [doubleLoop]
    by_cases h : c < need
    · have hlt : c.toNat < need.toNat := UInt64.lt_iff_toNat_lt.mp h
      have hdouble : (c * 2).toNat = c.toNat * 2 := by
        rw [toNat_double]
        exact Nat.mod_eq_of_lt (by omega)
      cases fuel with
      | zero => omega
      | succ fuel =>
        rw [if_pos h, StrBuf.doubleTo, if_pos hlt, ← hdouble]
        refine ih ?_ ?_
        · rwa [hdouble, Nat.mul_assoc, ← Nat.pow_succ']
        · rwa [hdouble, Nat.mul_assoc, ← Nat.pow_succ']
    · have hnot : ¬ c.toNat < need.toNat := by rwa [← UInt64.lt_iff_toNat_lt]
      refine ⟨c, if_neg h, ?_⟩
      cases fuel with
      | zero => rfl
      | succ fuel => rw [StrBuf.doubleTo, if_neg hnot]

/-! ## What a buffer represents -/

/-- The cells of a buffer: none, or those of the text, a NUL, and others. -/
structure Represents (sb : RawBuf) (a : StrBuf) : Prop where
  len : sb.len.toNat = a.text.length
  cap : sb.cap.toNat = a.cap
  cells : (sb.buf = none ∧ a = .init) ∨ ∃ rest,
    sb.buf = some (a.text.map some ++ some nul :: rest) ∧ a.text.length + 1 + rest.length = a.cap

variable {fails : Faults} {n : ℕ} {sb : RawBuf} {a : StrBuf} {extra : UInt64} {s : List Char}

theorem represents_init : Represents .init .init := ⟨rfl, rfl, Or.inl ⟨rfl, rfl⟩⟩

theorem length_realloc (buf : Option (List (Option Char))) (size : UInt64) :
    (realloc buf size).length = size.toNat := by
  simp only [realloc, List.length_append, List.length_replicate, List.length_take]
  omega

theorem realloc_text (h : Represents sb a) {size : UInt64} (hsize : a.cap ≤ size.toNat) :
    ∃ rest, realloc sb.buf size = a.text.map some ++ rest := by
  rcases h.cells with ⟨hbuf, ha⟩ | ⟨rest, hbuf, hcap⟩
  · rw [ha]
    exact ⟨_, rfl⟩
  · have htake : (a.text.map some ++ some nul :: rest).take size.toNat =
        a.text.map some ++ some nul :: rest := by
      refine List.take_of_length_le ?_
      simp only [List.length_append, List.length_map, List.length_cons]
      omega
    rw [realloc, hbuf, Option.getD_some, htake, List.append_assoc]
    exact ⟨_, rfl⟩

/-- A buffer that could grow: the cells of the text, and others. -/
structure Grown (sb : RawBuf) (a : StrBuf) : Prop where
  len : sb.len.toNat = a.text.length
  cap : sb.cap.toNat = a.cap
  cells : ∃ rest, sb.buf = some (a.text.map some ++ rest) ∧ a.text.length + rest.length = a.cap

/-- The loop of a buffer that has to grow ends, with the capacity of the abstract machine. -/
theorem doubleLoop_from {cap : ℕ} (hcap : sb.cap.toNat = cap) {k : ℕ} (hneed : need.toNat = k + 1)
    (hlt : cap < k + 1) (hbelow : k < 2 ^ 62) :
    ∃ d, doubleLoop need 65 (if sb.cap = 0 then 64 else sb.cap * 2) = some d ∧
      d.toNat = StrBuf.doubleTo (k + 1) (k + 1) (if cap = 0 then 64 else cap * 2) := by
  have hzero : sb.cap = 0 ↔ cap = 0 := by
    rw [← hcap, ← UInt64.toNat_inj]
    rfl
  have hfirst : (if sb.cap = 0 then 64 else sb.cap * 2 : UInt64).toNat =
      if cap = 0 then 64 else cap * 2 := by
    by_cases hc : cap = 0
    · rw [if_pos hc, if_pos (hzero.mpr hc)]
      rfl
    · rw [if_neg hc, if_neg (mt hzero.mp hc), toNat_double, hcap]
      omega
  have hpos : 1 ≤ if cap = 0 then 64 else cap * 2 := by split_ifs <;> omega
  have hpow : k + 1 < 2 ^ (k + 1) := Nat.lt_two_pow_self
  rw [← hneed, ← hfirst]
  refine doubleLoop_eq (by omega) ?_ ?_
  · rw [hfirst, hneed]
    omega
  · rw [hfirst, hneed]
    calc k + 1 ≤ 1 * 2 ^ (k + 1) := by omega
      _ ≤ _ := Nat.mul_le_mul_right _ hpos

/-- **Growing** does what it does on the abstract machine. -/
theorem grow_spec (h : Represents sb a) (hbelow : a.text.length + extra.toNat < 2 ^ 62) :
    ∃ sb', sb.grow fails n extra = some ((a.grow fails n extra.toNat).1,
        (a.grow fails n extra.toNat).2.1, sb') ∧
      ((a.grow fails n extra.toNat).1 = .ok → Grown sb' (a.grow fails n extra.toNat).2.2) ∧
      ((a.grow fails n extra.toNat).1 ≠ .ok → sb' = sb) := by
  have hneed : (sb.len + extra + 1).toNat = a.text.length + extra.toNat + 1 := by
    have hone : (1 : UInt64).toNat = 1 := rfl
    rw [UInt64.toNat_add, UInt64.toNat_add, hone, h.len]
    omega
  have hroom : sb.len + extra + 1 ≤ sb.cap ↔ a.text.length + extra.toNat + 1 ≤ a.cap := by
    rw [UInt64.le_iff_toNat_le, hneed, h.cap]
  unfold grow StrBuf.grow
  by_cases hle : a.text.length + extra.toNat + 1 ≤ a.cap
  · simp only [if_pos hle, if_pos (hroom.mpr hle)]
    refine ⟨sb, rfl, fun _ => ⟨h.len, h.cap, ?_⟩, fun hne => absurd rfl hne⟩
    rcases h.cells with ⟨-, ha⟩ | ⟨rest, hbuf, hcap⟩
    · rw [ha] at hle
      cases hle
    · refine ⟨some nul :: rest, hbuf, ?_⟩
      rw [List.length_cons]
      omega
  · obtain ⟨d, hd, hcap⟩ := doubleLoop_from h.cap hneed (Nat.lt_of_not_le hle) hbelow
    simp only [if_neg hle, if_neg (mt hroom.mp hle), hd]
    show ∃ sb', (if fails n then _ else _) = _ ∧ _
    cases hf : fails n with
    | true => exact ⟨sb, rfl, nofun, fun _ => rfl⟩
    | false =>
      have hlarge : a.text.length + extra.toNat + 1 ≤ d.toNat := by
        rw [hcap]
        exact StrBuf.le_doubleTo _ (by split_ifs <;> omega)
      obtain ⟨rest, hcells⟩ := realloc_text h (show a.cap ≤ d.toNat by omega)
      have hlen := length_realloc sb.buf d
      rw [hcells, List.length_append, List.length_map] at hlen
      refine ⟨⟨some (realloc sb.buf d), sb.len, d⟩, rfl, fun _ => ⟨h.len, hcap, rest, ?_, ?_⟩,
        fun hne => absurd rfl hne⟩
      · exact congrArg some hcells
      · exact hlen.trans hcap

/-! ## The operations -/

theorem toNat_length (hbelow : s.length < 2 ^ 62) : (UInt64.ofNat s.length).toNat = s.length :=
  UInt64.toNat_ofNat_of_lt (Nat.lt_trans hbelow (by decide))

theorem write_text (g : Grown sb a) (hroom : a.text.length + s.length + 1 ≤ a.cap)
    (hbelow : a.text.length + s.length < 2 ^ 62) :
    (sb.len + UInt64.ofNat s.length).toNat = sb.len.toNat + s.length ∧
    ∃ cells cells' cells'', sb.buf = some cells ∧
      Cells.write cells sb.len.toNat (s.map some) = some cells' ∧
      Cells.write cells' (sb.len + UInt64.ofNat s.length).toNat [some nul] = some cells'' ∧
      Represents ⟨some cells'', sb.len + UInt64.ofNat s.length, sb.cap⟩
        { a with text := a.text ++ s } := by
  obtain ⟨rest, hbuf, hcap⟩ := g.cells
  have hlen : (sb.len + UInt64.ofNat s.length).toNat = a.text.length + s.length := by
    rw [UInt64.toNat_add, toNat_length (by omega), g.len]
    exact Nat.mod_eq_of_lt (by omega)
  have hlt : s.length < rest.length := by omega
  obtain ⟨old, x, tail, rfl, hold⟩ := Cells.exists_split hlt
  have hleft : (a.text.map some).length = sb.len.toNat := by rw [List.length_map, g.len]
  have hboth : (a.text.map some ++ s.map some).length =
      (sb.len + UInt64.ofNat s.length).toNat := by simp [hlen]
  refine ⟨by rw [hlen, g.len], _, a.text.map some ++ (s.map some ++ x :: tail),
    (a.text.map some ++ s.map some) ++ some nul :: tail, hbuf, ?_, ?_, ?_⟩
  · rw [← hleft]
    exact Cells.write_middle _ _ _ (by rw [List.length_map, hold])
  · rw [← hboth, ← List.append_assoc]
    exact Cells.write_one _ _ _ _
  · refine ⟨?_, g.cap, Or.inr ⟨tail, ?_, ?_⟩⟩
    · simp [hlen]
    · simp
    · simp only [List.length_append, List.length_cons] at hcap ⊢
      omega

/-- **Growing for a text**: there is room for it, and the writes of an append can be made, or the
append fails on the abstract machine too. -/
theorem grow_text (h : Represents sb a) (hbelow : a.text.length + s.length < 2 ^ 62) :
    (∃ n' sb' a', a.append fails n s = (.ok, n', a') ∧
      sb.grow fails n (UInt64.ofNat s.length) = some (.ok, n', sb') ∧
      (sb'.len + UInt64.ofNat s.length).toNat = sb'.len.toNat + s.length ∧
      ∃ cells cells' cells'', sb'.buf = some cells ∧
        Cells.write cells sb'.len.toNat (s.map some) = some cells' ∧
        Cells.write cells' (sb'.len + UInt64.ofNat s.length).toNat [some nul] = some cells'' ∧
        Represents ⟨some cells'', sb'.len + UInt64.ofNat s.length, sb'.cap⟩ a') ∨
    ∃ n', a.append fails n s = (.nomem, n', a) ∧
      sb.grow fails n (UInt64.ofNat s.length) = some (.nomem, n', sb) := by
  have hslen : (UInt64.ofNat s.length).toNat = s.length := toNat_length (by omega)
  obtain ⟨sb', hgrow, hok, herr⟩ := @grow_spec fails n sb a (UInt64.ofNat s.length) h (by omega)
  rw [hslen] at hgrow hok herr
  rcases StrBuf.append_cases fails n a s with ⟨n', cap, hg, happ, hroom⟩ | ⟨hg, happ⟩
  · rw [hg] at hgrow hok
    have g : Grown sb' ⟨a.text, cap⟩ := hok rfl
    exact Or.inl ⟨n', sb', _, happ, hgrow, write_text g hroom hbelow⟩
  · rw [hg] at hgrow herr
    exact Or.inr ⟨_, happ, herr nofun ▸ hgrow⟩

/-- **An append** does what it does on the abstract machine. -/
theorem copy_spec (h : Represents sb a) (hbelow : a.text.length + s.length < 2 ^ 62) :
    ∃ sb', sb.copy fails n s = some ((a.append fails n s).1, (a.append fails n s).2.1, sb') ∧
      Represents sb' (a.append fails n s).2.2 := by
  rw [copy]
  rcases @grow_text fails n sb a s h hbelow with
    ⟨n', sb', a', happ, hgrow, -, cells, cells', cells'', hbuf, hw, hw', hrep⟩ |
    ⟨n', happ, hgrow⟩
  · rw [happ, hgrow]
    refine ⟨_, ?_, hrep⟩
    simp only [Option.bind_eq_bind, Option.bind_some, if_true, hbuf, hw, hw']
  · rw [happ, hgrow]
    exact ⟨sb, rfl, h⟩

theorem appendf_eq (hint : s.length ≤ 2 ^ 31 - 1) : sb.appendf fails n (some s) =
    (sb.grow fails n (UInt64.ofNat s.length)).bind fun out =>
      if out.1 = .ok then
        if s.length = 2 ^ 31 - 1 then none
        else out.2.2.buf.bind fun cells =>
          (Cells.write cells out.2.2.len.toNat ((s ++ [nul]).map some)).bind fun cells =>
            some (.ok, out.2.1, ⟨some cells, out.2.2.len + UInt64.ofNat s.length, out.2.2.cap⟩)
      else some out := by
  rw [appendf, if_neg (Nat.not_lt.mpr hint)]
  rfl

/-- A formatted text of up to `INT_MAX` characters is appended, unless it has `INT_MAX` characters
and there is room for it. -/
theorem appendf_spec (h : Represents sb a) (hbelow : a.text.length + s.length < 2 ^ 62)
    (hint : s.length ≤ 2 ^ 31 - 1)
    (hover : ¬ (s.length = 2 ^ 31 - 1 ∧ a.Room fails n s.length)) :
    ∃ sb', sb.appendf fails n (some s) =
        some ((a.append fails n s).1, (a.append fails n s).2.1, sb') ∧
      Represents sb' (a.append fails n s).2.2 := by
  rw [← StrBuf.append_ok_iff] at hover
  rw [appendf_eq hint]
  rcases @grow_text fails n sb a s h hbelow with
    ⟨n', sb', a', happ, hgrow, hlen, cells, cells', cells'', hbuf, hw, hw', hrep⟩ |
    ⟨n', happ, hgrow⟩
  · rw [happ] at hover ⊢
    rw [hgrow]
    -- The text and its NUL are one write here and two in the other appends.
    have hwrite : Cells.write cells sb'.len.toNat ((s ++ [nul]).map some) = some cells'' := by
      rw [List.map_append, Cells.write_append, hw, Option.bind_some, List.length_map, ← hlen]
      exact hw'
    have hne : s.length ≠ 2 ^ 31 - 1 := fun he => hover ⟨he, rfl⟩
    refine ⟨_, ?_, hrep⟩
    simp only [if_true, if_neg hne, hbuf, hwrite, Option.bind_some]
  · rw [happ, hgrow]
    exact ⟨sb, rfl, h⟩

theorem appendf_overflow (h : Represents sb a) (hbelow : a.text.length + s.length < 2 ^ 62)
    (hint : s.length = 2 ^ 31 - 1) (hroom : a.Room fails n s.length) :
    sb.appendf fails n (some s) = none := by
  have hslen : (UInt64.ofNat s.length).toNat = s.length := toNat_length (by omega)
  obtain ⟨sb', hgrow, -, -⟩ := @grow_spec fails n sb a (UInt64.ofNat s.length) h (by omega)
  have hok : (a.grow fails n s.length).1 = .ok := (StrBuf.grow_ok_iff fails n a s.length).mpr hroom
  rw [hslen, hok] at hgrow
  rw [appendf_eq (Nat.le_of_eq hint), hgrow, Option.bind_some, if_pos rfl, if_pos hint]

theorem clear_spec (h : Represents sb a) :
    ∃ sb', sb.clear = some sb' ∧ Represents sb' { a with text := [] } := by
  unfold clear
  rcases h.cells with ⟨hbuf, ha⟩ | ⟨rest, hbuf, hcap⟩
  · rw [hbuf]
    refine ⟨_, rfl, rfl, h.cap, Or.inl ⟨rfl, ?_⟩⟩
    rw [ha]
    rfl
  · obtain ⟨x, tail, htail⟩ : ∃ x tail, a.text.map some ++ some nul :: rest = x :: tail :=
      List.exists_cons_of_ne_nil (by simp)
    have hlen := congrArg List.length htail
    simp only [List.length_append, List.length_map, List.length_cons] at hlen
    rw [hbuf, htail]
    refine ⟨⟨some (some nul :: tail), 0, sb.cap⟩, ?_, rfl, h.cap, Or.inr ⟨tail, rfl, ?_⟩⟩
    · have hwrite : Cells.write (x :: tail) 0 [some nul] = some (some nul :: tail) :=
        Cells.write_one [] tail x (some nul)
      simp only [hwrite, Option.map_some]
    · simp only [List.length_nil]
      omega

end RawBuf

/-! ## Runs -/

namespace BufState

/-- What holds of a buffer between two operations: nothing is allocated, or there is room for more
than its content, which is what was appended, with a NUL after it. -/
inductive Sound (s : BufState) : Prop
  | unallocated (buf : s.sb.buf = none) (len : s.sb.len = 0) (cap : s.sb.cap = 0)
    (content : s.content = [])
  | allocated (cells : List (Option Char)) (buf : s.sb.buf = some cells)
    (room : cells.length = s.sb.cap.toNat) (lt : s.sb.len < s.sb.cap)
    (content : cells.take s.sb.len.toNat = s.content.map some)
    (terminated : cells[s.sb.len.toNat]? = some (some nul))

/-- The buffer is the one of the abstract machine. -/
structure Follows (s : BufState) (t : ℕ × StrBuf) : Prop where
  requests : s.requests = t.1
  sb : s.sb.Represents t.2
  content : s.content = t.2.text

variable {s : BufState} {t : ℕ × StrBuf}

theorem Follows.sound (h : Follows s t) : s.Sound := by
  rcases h.sb.cells with ⟨hbuf, ht⟩ | ⟨rest, hbuf, hcap⟩
  · have hlen := h.sb.len
    have hcap := h.sb.cap
    have hcontent := h.content
    rw [ht] at hlen hcap hcontent
    exact .unallocated hbuf (UInt64.toNat_inj.mp hlen) (UInt64.toNat_inj.mp hcap) hcontent
  · have hleft : (t.2.text.map some).length = s.sb.len.toNat := by rw [List.length_map, h.sb.len]
    refine .allocated _ hbuf ?_ ?_ ?_ ?_
    · rw [h.sb.cap, ← hcap]
      simp only [List.length_append, List.length_map, List.length_cons]
      omega
    · rw [UInt64.lt_iff_toNat_lt, h.sb.len, h.sb.cap]
      omega
    · rw [← hleft, List.take_left, h.content]
    · rw [← hleft, List.getElem?_append_right (Nat.le_refl _), Nat.sub_self]
      rfl

end BufState

namespace BufOp

open BufState

variable {fails : Faults} {s : BufState} {t : ℕ × StrBuf} {op : BufOp}

theorem follows_appended (h : Follows s t) {text : Text} {out : Err × ℕ × RawBuf} {sb : RawBuf}
    (hout : out = ((t.2.append fails t.1 text).1, (t.2.append fails t.1 text).2.1, sb))
    (hsb : sb.Represents (t.2.append fails t.1 text).2.2) :
    Follows (s.appended text out) (t.2.append fails t.1 text).2 := by
  subst hout
  refine ⟨rfl, hsb, ?_⟩
  rw [StrBuf.append_text, ← h.content]
  rfl

/-- **One operation** is defined and follows the abstract machine, unless it overflows. -/
theorem step_follows (h : Follows s t) (hbelow : op.Below t) (hover : op.NoOverflow fails t) :
    ∃ s', op.step fails s = some s' ∧ Follows s' (op.next fails t) := by
  have hcopy (text : Text) (hbelow : t.2.text.length + text.length < 2 ^ 62) :
      ∃ out, s.sb.copy fails s.requests text = some out ∧
        Follows (s.appended text out) (t.2.append fails t.1 text).2 := by
    obtain ⟨sb, hcopy, hsb⟩ := @RawBuf.copy_spec fails s.requests s.sb t.2 text h.sb hbelow
    rw [h.requests] at hcopy hsb ⊢
    exact ⟨_, hcopy, follows_appended h rfl hsb⟩
  cases op with
  | append text =>
    obtain ⟨out, hout, hf⟩ := hcopy text hbelow
    exact ⟨_, by rw [step, run, RawBuf.append, hout]; rfl, hf⟩
  | appendn text =>
    obtain ⟨out, hout, hf⟩ := hcopy text hbelow
    exact ⟨_, by rw [step, run, RawBuf.appendn, hout]; rfl, hf⟩
  | appendf text =>
    cases text with
    | none => exact ⟨_, rfl, h.requests, h.sb, h.content⟩
    | some text =>
      by_cases hlong : 2 ^ 31 - 1 < text.length
      · refine ⟨s, ?_, ?_⟩
        · rw [step, run, RawBuf.appendf, if_pos hlong]
          rfl
        · rw [next, if_pos hlong]
          exact h
      · have hroom : t.2.text.length + text.length < 2 ^ 62 := hbelow
        obtain ⟨sb, hout, hsb⟩ := RawBuf.appendf_spec h.sb hroom (Nat.le_of_not_lt hlong) hover
        rw [next, if_neg hlong]
        refine ⟨_, ?_, follows_appended h rfl hsb⟩
        rw [step, run, h.requests, hout]
        rfl
  | clear =>
    obtain ⟨sb, hsb, hrep⟩ := RawBuf.clear_spec h.sb
    exact ⟨⟨s.requests, sb, []⟩, by rw [step, run, hsb]; rfl, h.requests, hrep, rfl⟩
  | free => exact ⟨_, rfl, h.requests, RawBuf.represents_init, rfl⟩

theorem step_overflow (h : Follows s t) (hbelow : op.Below t) (hover : ¬ op.NoOverflow fails t) :
    op.step fails s = none := by
  cases op with
  | appendf text =>
    cases text with
    | none => exact absurd trivial hover
    | some text =>
      have hroom : t.2.text.length + text.length < 2 ^ 62 := hbelow
      rw [NoOverflow, not_not] at hover
      rw [step, run, h.requests, RawBuf.appendf_overflow h.sb hroom hover.1 hover.2]
      rfl
  | _ => exact absurd trivial hover

end BufOp

/-! ## Appends that fail -/

namespace RawBuf

variable {out : Err × ℕ × RawBuf}

theorem grow_err (h : sb.grow fails n extra = some out) (herr : out.1 ≠ .ok) : out.2.2 = sb := by
  rw [grow] at h
  split at h
  · obtain rfl := Option.some.inj h
    rfl
  · obtain ⟨newCap, -, h⟩ := Option.bind_eq_some_iff.mp h
    split at h
    · obtain rfl := Option.some.inj h
      rfl
    · obtain rfl := Option.some.inj h
      exact absurd rfl herr

theorem copy_err (h : sb.copy fails n s = some out) (herr : out.1 ≠ .ok) : out.2.2 = sb := by
  rw [copy] at h
  obtain ⟨out', hgrow, h⟩ := Option.bind_eq_some_iff.mp h
  by_cases hok : out'.1 = .ok
  · simp only [hok, if_true] at h
    obtain ⟨cells, -, h⟩ := Option.bind_eq_some_iff.mp h
    obtain ⟨cells', -, h⟩ := Option.bind_eq_some_iff.mp h
    obtain ⟨cells'', -, h⟩ := Option.bind_eq_some_iff.mp h
    obtain rfl := Option.some.inj h
    exact absurd rfl herr
  · simp only [if_neg hok] at h
    obtain rfl := Option.some.inj h
    exact grow_err hgrow hok

theorem appendf_err {text : Option Text} (h : sb.appendf fails n text = some out)
    (herr : out.1 ≠ .ok) : out.2.2 = sb := by
  cases text with
  | none =>
    obtain rfl := Option.some.inj h
    rfl
  | some s =>
    by_cases hint : s.length ≤ 2 ^ 31 - 1
    · rw [appendf_eq hint] at h
      obtain ⟨out', hgrow, h⟩ := Option.bind_eq_some_iff.mp h
      by_cases hok : out'.1 = .ok
      · rw [if_pos hok] at h
        split at h
        · cases h
        · obtain ⟨cells, -, h⟩ := Option.bind_eq_some_iff.mp h
          obtain ⟨cells', -, h⟩ := Option.bind_eq_some_iff.mp h
          obtain rfl := Option.some.inj h
          exact absurd rfl herr
      · rw [if_neg hok] at h
        obtain rfl := Option.some.inj h
        exact grow_err hgrow hok
    · rw [appendf, if_pos (Nat.lt_of_not_le hint)] at h
      obtain rfl := Option.some.inj h
      rfl

end RawBuf

theorem BufOp.run_err {fails : Faults} {s s' : BufState} {op : BufOp} {err : Err}
    (h : op.run fails s = some (err, s')) (herr : err ≠ .ok) :
    s'.sb = s.sb ∧ s'.content = s.content := by
  have happended {text : Text} {o : Option (Err × ℕ × RawBuf)}
      (h : (o.map fun out => (out.1, s.appended text out)) = some (err, s'))
      (ho : ∀ out, o = some out → out.1 ≠ .ok → out.2.2 = s.sb) :
      s'.sb = s.sb ∧ s'.content = s.content := by
    obtain ⟨out, hout, heq⟩ := Option.map_eq_some_iff.mp h
    obtain ⟨rfl, rfl⟩ := Prod.mk.inj heq
    exact ⟨ho out hout herr, if_neg herr⟩
  cases op with
  | append text => exact happended h fun out hout => RawBuf.copy_err hout
  | appendn text => exact happended h fun out hout => RawBuf.copy_err hout
  | appendf text => exact happended h fun out hout => RawBuf.appendf_err hout
  | clear =>
    obtain ⟨sb, -, heq⟩ := Option.map_eq_some_iff.mp h
    exact absurd (Prod.mk.inj heq).1.symm herr
  | free => exact absurd (Prod.mk.inj (Option.some.inj h)).1.symm herr

/-- **String buffers**: a run is defined, ends each of its loops and leaves every buffer sound
exactly when no operation formats a text of `INT_MAX` characters for which there is room. An append
that fails changes neither the buffer nor its content. -/
theorem strbuf_sound_iff (fails : Faults) (ops : List BufOp)
    (hbelow : Run.Along (BufOp.next fails) BufOp.Below (0, .init) ops) :
    (Run.Throughout (BufOp.step fails) BufState.Sound .start ops ↔
      Run.Along (BufOp.next fails) (BufOp.NoOverflow fails) (0, .init) ops) ∧
    ∀ s op err s', BufOp.run fails s op = some (err, s') → err ≠ .ok →
      s'.sb = s.sb ∧ s'.content = s.content := by
  have hstart : BufState.Follows .start (0, .init) := ⟨rfl, RawBuf.represents_init, rfl⟩
  have good (s : BufState) (t : ℕ × StrBuf) (op : BufOp) (h : s.Follows t) (hb : op.Below t)
      (hq : op.NoOverflow fails t) :
      ∃ s', op.step fails s = some s' ∧ s'.Follows (op.next fails t) := BufOp.step_follows h hb hq
  have bad (s : BufState) (t : ℕ × StrBuf) (op : BufOp) (h : s.Follows t) (hb : op.Below t)
      (hq : ¬ op.NoOverflow fails t) : op.step fails s = none := BufOp.step_overflow h hb hq
  exact ⟨Run.throughout_iff_along (fun _ _ h => h.sound) good bad hstart hbelow,
    fun _ _ _ _ h herr => BufOp.run_err h herr⟩

theorem overflow_first {s : Text} (hs : s.length = 2 ^ 31 - 1) :
    Run.Along (BufOp.next fun _ => false) BufOp.Below (0, .init) [.appendf (some s)] ∧
    ¬ Run.Throughout (BufOp.step fun _ => false) BufState.Sound .start [.appendf (some s)] := by
  have hbelow : BufOp.Below (0, .init) (.appendf (some s)) := by
    show ([] : Text).length + s.length < 2 ^ 62
    rw [hs]
    decide
  refine ⟨⟨hbelow, trivial⟩, ?_⟩
  rintro ⟨-, s', hstep, -⟩
  have hstart : BufState.Follows .start (0, .init) := ⟨rfl, RawBuf.represents_init, rfl⟩
  have hover : ¬ BufOp.NoOverflow (fun _ => false) (0, .init) (.appendf (some s)) :=
    fun h => h ⟨hs, Or.inr rfl⟩
  rw [BufOp.step_overflow hstart hbelow hover] at hstep
  cases hstep

/-- **A formatted text of `INT_MAX` characters**: the length of the string stays far below the
bound, but the run is not defined. -/
theorem strbuf_overflow :
    Run.Along (BufOp.next fun _ => false) BufOp.Below (0, .init)
      [.appendf (some (List.replicate (2 ^ 31 - 1) 'a'))] ∧
    ¬ Run.Throughout (BufOp.step fun _ => false) BufState.Sound .start
      [.appendf (some (List.replicate (2 ^ 31 - 1) 'a'))] :=
  overflow_first List.length_replicate

theorem strbuf_sound_iff_clear :
    (Run.Throughout (BufOp.step fun _ => false) BufState.Sound .start
        [.append "ab".toList, .clear, .appendf (some "c".toList)] ↔
      Run.Along (BufOp.next fun _ => false) (BufOp.NoOverflow fun _ => false) (0, .init)
        [.append "ab".toList, .clear, .appendf (some "c".toList)]) ∧
    ∀ s op err s', BufOp.run (fun _ => false) s op = some (err, s') → err ≠ .ok →
      s'.sb = s.sb ∧ s'.content = s.content :=
  strbuf_sound_iff _ _ ⟨by decide, by decide, by decide, trivial⟩

end Corm
