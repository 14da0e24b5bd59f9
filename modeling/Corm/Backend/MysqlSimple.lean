import Corm.Backend.MysqlResult
import Corm.Backend.PostgresIds

/-!
# The rows of a MySQL query without parameters

`corm_mysql_query` sends a text without parameters by `mysql_query`, and `mysql_simple_query` reads
the rows of its result, in which every value is a text.

* `MysqlCell`: a value of a row; `MysqlFormat`: how the server prints a double, and C reads it;
* `simpleValue`, `simpleLoop`, `mysqlSimpleOut`: the function with what it stores in `*out`;
* **`mysqlSimpleOut_iff`**: when it returns every row;
* **`protocols_agree_iff`**: when the prepared statement returns the same.
-/

namespace Corm

open Lifetime (MysqlOutcome)

/-! ## Values -/

/-- The bytes at `row[i]`, as many as `lengths[i]` says. -/
inductive MysqlCell
  | chars (s : Text)
  | bytes (data : List UInt8)
  deriving DecidableEq

namespace MysqlCell

/-- The C string there. -/
def text : MysqlCell → Text
  | chars s => cstr s
  | bytes data => cstr (data.map fun b => Char.ofNat b.toNat)

/-- All of them. -/
def data : MysqlCell → List UInt8
  | chars s => s.map fun c => UInt8.ofNat c.toNat
  | bytes data => data

end MysqlCell

/-- How the server prints a double, how `strtod` reads it, and whether `malloc(0)` is a null
pointer. -/
structure MysqlFormat where
  floatOut : UInt64 → Text
  strtod : Text → UInt64
  mallocNull : Bool

variable (F : MysqlFormat)

/-- A value of a row of `mysql_simple_query`; `copyOk` when `strdup` and `malloc` find memory. -/
def simpleValue (copyOk : Bool) (t : MysqlColumn) : Option MysqlCell → Value
  | none => ⟨t.fieldType, true, .zero⟩
  | some cell => ⟨t.fieldType, false,
    match t with
    | .int64 => .i (Int64.ofInt (Strtol.strtoll cell.text))
    | .double => .f (F.strtod cell.text)
    | .text => .s (if copyOk then some cell.text else none)
    | .blob =>
      if copyOk ∧ ¬ (cell.data = [] ∧ F.mallocNull = true) then .blob (some cell.data) else .zero⟩

/-- The text of a value that the server has stored. -/
def wire : (t : MysqlColumn) → t.Data → MysqlCell
  | .int64, (n : Int64) => .chars (toString n.toInt).toList
  | .double, (bits : UInt64) => .chars (F.floatOut bits)
  | .blob, (data : List UInt8) => .bytes data
  | .text, (s : Text) => .chars s

/-! ## The function -/

variable {R : MysqlStored}

/-- The outcomes of a call: `corm_result_new`, the copies of the names, and those of the values. -/
structure SimpleOutcome (n : ℕ) where
  resultOk : Bool
  nameOk : Fin n → Bool
  copyOk : ℕ → Fin n → Bool

variable (o : SimpleOutcome R.columnCount)

/-- The values of a row. -/
def simpleRow (r : ℕ) (row : R.Row) : Fin R.columnCount → Value :=
  fun i => simpleValue F (o.copyOk r i) (R.column i) ((row i).map (wire F (R.column i)))

/-- The loop from row `r` on; `none` when it writes past the last row. -/
def simpleLoop (r : ℕ) :
    List R.Row → List (Fin R.columnCount → Value) → Option (List (Fin R.columnCount → Value))
  | [], rows => some rows
  | row :: rest, rows =>
    if r < rows.length then simpleLoop (r + 1) rest (rows.set r (simpleRow F o r row)) else none

/-- `mysql_simple_query` for a stored result: its error, and what it stores in `*out`. The number of
rows is converted to `int`. -/
def mysqlSimpleOut : Option (Err × Option Result) :=
  if o.resultOk then
    if ∀ i, o.nameOk i = true then
      (simpleLoop F o 0 R.rows (List.replicate (toCInt R.rows.length).toNat zeroRow)).map fun rows =>
        (.ok, some (R.result rows))
    else some (.nomem, none)
  else some (.nomem, none)

/-- A value that the text stands for: its copy is made, a string has no NUL, a double is read as it
was printed, and there is memory for a blob. -/
def Printed (copyOk : Bool) : (t : MysqlColumn) → Option t.Data → Prop
  | _, none => True
  | .int64, some _ => True
  | .double, (some bits : Option UInt64) => F.strtod (cstr (F.floatOut bits)) = bits
  | .blob, (some data : Option (List UInt8)) =>
    copyOk = true ∧ ¬ (data = [] ∧ F.mallocNull = true)
  | .text, (some s : Option Text) => copyOk = true ∧ nul ∉ s

/-- Rows of such values, from row `r` on. -/
def AllPrinted (r : ℕ) : List R.Row → Prop
  | [] => True
  | row :: rest => (∀ i, Printed F (o.copyOk r i) (R.column i) (row i)) ∧ AllPrinted (r + 1) rest

/-! ## One value -/

theorem nul_notMem_toString (n : ℤ) : nul ∉ (toString n).toList := by
  have hdigits (k : ℕ) : nul ∉ Nat.toDigits 10 k := fun h => by
    have hdigit := Nat.isDigit_of_mem_toDigits (b := 10) (by decide) (by decide) h
    exact absurd hdigit (by decide)
  cases n with
  | ofNat k =>
    rw [toList_ofNat]
    exact hdigits k
  | negSucc k =>
    rw [toList_negSucc, List.mem_cons, not_or]
    exact ⟨by decide, hdigits (k + 1)⟩

/-- **A value that is read as it is stored.** -/
theorem simpleValue_iff (copyOk : Bool) (t : MysqlColumn) (x : Option t.Data) :
    simpleValue F copyOk t (x.map (wire F t)) = storedValue t x ↔ Printed F copyOk t x := by
  cases x with
  | none => cases t <;> exact iff_of_true rfl trivial
  | some x =>
    cases t with
    | int64 =>
      change Int64 at x
      refine iff_of_true ?_ trivial
      show (⟨.int64, false, .i (Int64.ofInt (Strtol.strtoll (cstr (toString x.toInt).toList)))⟩ :
        Value) = ⟨.int64, false, .i x⟩
      rw [cstr_eq_self.mpr (nul_notMem_toString _), strtoll_toString, Int64.ofInt_toInt]
    | double =>
      change UInt64 at x
      show (⟨.double, false, .f (F.strtod (cstr (F.floatOut x)))⟩ : Value) = ⟨.double, false, .f x⟩ ↔
        F.strtod (cstr (F.floatOut x)) = x
      simp
    | blob =>
      change List UInt8 at x
      show (⟨.blob, false, if copyOk = true ∧ ¬ (x = [] ∧ F.mallocNull = true) then
        .blob (some x) else .zero⟩ : Value) = ⟨.blob, false, .blob (some x)⟩ ↔
          copyOk = true ∧ ¬ (x = [] ∧ F.mallocNull = true)
      split_ifs with h
      · exact iff_of_true rfl h
      · exact iff_of_false (fun heq => nomatch (Value.mk.inj heq).2.2) h
    | text =>
      change Text at x
      show (⟨.text, false, .s (if copyOk = true then some (cstr x) else none)⟩ : Value) =
        ⟨.text, false, .s (some x)⟩ ↔ copyOk = true ∧ nul ∉ x
      cases copyOk with
      | true => simp [cstr_eq_self]
      | false => simp

/-! ## The loop -/

theorem simpleRow_iff (r : ℕ) (row : R.Row) : simpleRow F o r row = storedRow row ↔
    ∀ i, Printed F (o.copyOk r i) (R.column i) (row i) := by
  rw [funext_iff]
  exact forall_congr' fun i => simpleValue_iff F _ _ _

theorem simpleLoop_replicate (done : List (Fin R.columnCount → Value)) (rest : List R.Row) :
    simpleLoop F o done.length rest (done ++ List.replicate rest.length zeroRow) =
      some (done ++ rest.mapIdx fun i row => simpleRow F o (done.length + i) row) := by
  induction rest generalizing done with
  | nil => simp [simpleLoop]
  | cons row rest ih =>
    have hlt : done.length < (done ++ List.replicate (row :: rest).length zeroRow).length := by simp
    have hset : (done ++ List.replicate (row :: rest).length zeroRow).set done.length
        (simpleRow F o done.length row) =
          (done ++ [simpleRow F o done.length row]) ++ List.replicate rest.length zeroRow := by
      simp [List.replicate_succ]
    have hnext : done.length + 1 = (done ++ [simpleRow F o done.length row]).length := by simp
    rw [simpleLoop, if_pos hlt, hset, hnext, ih]
    simp [List.mapIdx_cons, Nat.add_assoc, Nat.add_comm 1]

theorem simpleLoop_short {rest : List R.Row} {r : ℕ} {rows : List (Fin R.columnCount → Value)}
    (hr : r ≤ rows.length) (h : rows.length < r + rest.length) :
    simpleLoop F o r rest rows = none := by
  induction rest generalizing r rows with
  | nil => exact absurd h (by simpa using hr)
  | cons row rest ih =>
    rw [simpleLoop]
    split_ifs with hlt
    · rw [List.length_cons] at h
      exact ih (by rw [List.length_set]; exact hlt) (by rw [List.length_set]; omega)
    · rfl

theorem mapIdx_simpleRow_iff (r : ℕ) (rest : List R.Row) :
    (rest.mapIdx fun i row => simpleRow F o (r + i) row) = rest.map storedRow ↔
      AllPrinted F o r rest := by
  induction rest generalizing r with
  | nil => exact iff_of_true rfl trivial
  | cons row rest ih =>
    have hnext : (rest.mapIdx fun i row => simpleRow F o (r + (i + 1)) row) =
        rest.mapIdx fun i row => simpleRow F o (r + 1 + i) row := by
      simp only [Nat.add_assoc, Nat.add_comm 1]
    rw [List.mapIdx_cons, List.map_cons, List.cons_eq_cons, hnext, ih, AllPrinted,
      Nat.add_zero, simpleRow_iff]

/-- **A query without parameters returns every row** when there is memory, there are fewer than
`2 ^ 31` rows, and each value is read as it is stored. -/
theorem mysqlSimpleOut_iff :
    mysqlSimpleOut F o = some (.ok, some (R.result (R.rows.map storedRow))) ↔
      o.resultOk = true ∧ (∀ i, o.nameOk i = true) ∧ R.rows.length < 2 ^ 31 ∧
        AllPrinted F o 0 R.rows := by
  unfold mysqlSimpleOut
  split_ifs with hres hnames
  · rw [and_iff_right hres, and_iff_right hnames]
    by_cases hcount : R.rows.length < 2 ^ 31
    · have hloop := simpleLoop_replicate F o [] R.rows
      rw [List.nil_append, List.nil_append, List.length_nil] at hloop
      rw [toCInt_toNat_iff.mpr hcount, hloop, and_iff_right hcount, ← mapIdx_simpleRow_iff]
      show some (Err.ok, some (R.result _)) = _ ↔ _
      simp only [Option.some.injEq, Prod.mk.injEq, true_and, result_inj]
    · have hshort : (toCInt R.rows.length).toNat < R.rows.length := by
        have hle := toCInt_toNat_iff.not.mpr hcount
        have hlt : toCInt R.rows.length < 2 ^ 31 := by
          unfold toCInt
          rw [Int.bmod_def]
          split_ifs <;> omega
        omega
      rw [simpleLoop_short F o (Nat.zero_le _) (by rw [List.length_replicate]; omega)]
      exact iff_of_false nofun fun h => hcount h.1
  · exact iff_of_false nofun fun h => hnames h.2.1
  · exact iff_of_false nofun fun h => hres h.1

/-! ## The two protocols -/

variable (C : MysqlClient) (e : FetchOutcome R.columnCount) {q : MysqlOutcome} {paramCount : ℕ}
  {handle : Except Err Stmt}

/-- **The same result with and without a prepared statement.** Where the texts of a result are read
as they are stored, the statement returns the same result when it comes to the fetch, and each value
has room in the buffer of its column. -/
theorem protocols_agree_iff
    (hsimple : mysqlSimpleOut F o = some (.ok, some (R.result (R.rows.map storedRow)))) :
    mysqlStmtOut C e q paramCount handle = mysqlSimpleOut F o ↔
      Reaches q paramCount handle (toCInt R.rows.length) ∧ AllReturned e 0 R.rows := by
  obtain ⟨-, -, hlt, -⟩ := (mysqlSimpleOut_iff F o).mp hsimple
  have hcount : (toCInt R.rows.length).toNat = R.rows.length := toCInt_toNat_iff.mpr hlt
  have hloop := fetchLoop_eq_iff C e [] R.rows fun i => zeroRoom (R.column i)
  rw [List.nil_append, List.nil_append, List.length_nil] at hloop
  rw [hsimple]
  by_cases hreach : Reaches q paramCount handle (toCInt R.rows.length)
  · rw [mysqlStmtOut_of_reaches C e hreach, and_iff_right hreach, ← hloop, hcount]
    split_ifs with hn
    · rw [Option.map_eq_some_iff]
      simp only [Prod.mk.injEq, Option.some.injEq, true_and, result_inj, exists_eq_right]
    · -- no rows, and no loop
      have hnil : R.rows = [] := List.length_eq_zero_iff.mp (by omega)
      rw [hnil]
      exact iff_of_true rfl rfl
  · obtain ⟨err, herr⟩ := mysqlStmtOut_of_not_reaches C e hreach
    rw [herr]
    exact iff_of_false nofun fun h => hreach h.1

/-! ## The long note again -/

/-- Every allocation succeeds. -/
def allCopied : SimpleOutcome 1 where
  resultOk := true
  nameOk _ := true
  copyOk _ _ := true

/-- A format for results without doubles. -/
def noDoubles : MysqlFormat where
  floatOut _ := []
  strtod _ := 0
  mallocNull := false

theorem long_note_printed :
    mysqlSimpleOut (R := longNotes) noDoubles allCopied =
      some (.ok, some (longNotes.result (longNotes.rows.map storedRow))) := by
  refine (mysqlSimpleOut_iff (R := longNotes) noDoubles allCopied).mpr
    ⟨rfl, fun _ => rfl, by decide, fun _ => ⟨rfl, ?_⟩, fun _ => ⟨rfl, ?_⟩, trivial⟩
  · exact fun h => absurd (List.eq_of_mem_replicate h) (by decide)
  · exact fun h => absurd (List.eq_of_mem_singleton h) (by decide)

theorem protocols_agree_iff_longNotes :
    mysqlStmtOut (R := longNotes) plainMysql allFetched allOk 1 (.ok 0) =
        mysqlSimpleOut (R := longNotes) noDoubles allCopied ↔
      Reaches allOk 1 (.ok 0) (toCInt longNotes.rows.length) ∧
        AllReturned (R := longNotes) allFetched 0 longNotes.rows :=
  protocols_agree_iff (R := longNotes) noDoubles allCopied plainMysql allFetched long_note_printed

end Corm
