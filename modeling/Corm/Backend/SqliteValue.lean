import Corm.Model
import Mathlib.Algebra.Group.Nat.Defs
import Mathlib.Data.Int.Notation
import Mathlib.Data.List.Forall2
import Mathlib.Data.List.TakeWhile

/-!
# Values through SQLite

`sqlite3.c`: how a value is bound to a parameter, and how the rows of a query become a result.

* `Cell`: a value of SQLite; `Sqlite`: what its interface leaves to it;
* `bindParam`: `sqlite_bind_params`; `sqliteQuery`: the result that `sqlite_query` builds;
* `fetchRows_eq`: the first row decides the type of each column;
* **`sqliteQuery_keeps_iff`**: when every cell keeps its type and its value.
-/

namespace Corm

/-! ## SQLite -/

/-- A value of SQLite, by its storage class. -/
inductive Cell
  | null
  | integer (n : Int64)
  | float (bits : UInt64)
  | text (s : List Char)
  | blob (data : List UInt8)
  deriving DecidableEq

/-- What SQLite returns for a value that is read as another storage class, what it binds for a
double (NULL for a NaN) and for a blob with a negative length, which its documentation leaves
undefined, and the bytes that a value has at most (`SQLITE_LIMIT_LENGTH`). -/
structure Sqlite where
  limit : ℕ
  columnInt64 : Cell → Int64
  columnDouble : Cell → UInt64
  columnText : Cell → Option (List Char)
  columnBlob : Cell → List UInt8
  bindDouble : UInt64 → Cell
  bindNegative : List UInt8 → ℤ → Cell
  limit_lt : limit < 2 ^ 31
  columnInt64_integer : ∀ n, columnInt64 (.integer n) = n
  columnDouble_float : ∀ bits, columnDouble (.float bits) = bits
  columnText_text : ∀ s, columnText (.text s) = some s
  columnBlob_blob : ∀ data, columnBlob (.blob data) = data

variable (L : Sqlite)

/-! ## Binding -/

/-- The conversion of a `size_t` to `int`. -/
def toCInt (n : ℕ) : ℤ := Int.bmod n (2 ^ 32)

/-- What `sqlite3_bind_text` binds: a text above the limit is refused with `SQLITE_TOOBIG`, which
nobody looks at, and the parameter stays NULL. -/
def bindText (s : List Char) : Cell := if s.length ≤ L.limit then .text s else .null

theorem bindText_of_le {L : Sqlite} {s : List Char} (h : s.length ≤ L.limit) :
    bindText L s = .text s := if_pos h

/-- What `sqlite3_bind_blob` binds: the first `(int)len` bytes, or NULL when they are too many. -/
def bindBlob (data : List UInt8) : Cell :=
  if 0 ≤ toCInt data.length then
    if (toCInt data.length).toNat ≤ L.limit then .blob (data.take (toCInt data.length).toNat)
    else .null
  else L.bindNegative data (toCInt data.length)

/-- One parameter of `sqlite_bind_params`; `none` when it reads a member of the union that was not
written. A null pointer is bound as NULL. -/
def bindParam (val : Value) : Option Cell :=
  if val.isNull then some .null
  else match val.type with
    | .int | .int64 => val.v.readI.map .integer
    | .float | .double => val.v.readF.map L.bindDouble
    | .string | .text => val.v.readS.map fun
      | some s => bindText L s
      | none => .null
    | .bool => val.v.readB.map fun b => .integer (if b then 1 else 0)
    | .blob => val.v.readBlob.map fun
      | some data => bindBlob L data
      | none => .null

/-! ## Results -/

/-- The type of a column with a value of this storage class. -/
def storageType : Cell → FieldType
  | .integer _ => .int64
  | .float _ => .double
  | .blob _ => .blob
  | .text _ | .null => .text

/-- `col_types[i]` after a cell; `CORM_INT`, which is 0, is the type of a column not seen yet. -/
def inferType (colType : FieldType) (c : Cell) : FieldType :=
  if c ≠ .null ∧ colType = .int then storageType c
  else if colType = .int then .text
  else colType

/-- The value of a cell in a column of a type. -/
def resultValue (type : FieldType) (c : Cell) : Value where
  type := type
  isNull := decide (c = .null)
  v :=
    if c = .null then .zero
    else match type with
      | .int64 => .i (L.columnInt64 c)
      | .double => .f (L.columnDouble c)
      | .text => .s ((L.columnText c).map cstr)
      | .blob => .blob (if L.columnBlob c = [] then none else some (L.columnBlob c))
      | _ => .zero

/-- The loop of `sqlite_query` over the rows. -/
def fetchRows {n : ℕ} (colTypes : Fin n → FieldType) :
    List (Fin n → Cell) → (Fin n → FieldType) × List (Fin n → Value)
  | [] => (colTypes, [])
  | row :: rows =>
    let colTypes := fun i => inferType (colTypes i) (row i)
    let rest := fetchRows colTypes rows
    (rest.1, (fun i => resultValue L (colTypes i) (row i)) :: rest.2)

/-- The result that `sqlite_query` builds. -/
def sqliteQuery {n : ℕ} (names : Fin n → Text) (rows : List (Fin n → Cell)) : Result where
  columnCount := n
  columnNames := names
  columnTypes := (fetchRows L (fun _ => .int) rows).1
  rows := (fetchRows L (fun _ => .int) rows).2

/-! ## The first row -/

/-- The type that a column gets from its first cell. -/
def columnType (col : List Cell) : FieldType := (col.head?.map storageType).getD .int

theorem storageType_ne (c : Cell) : storageType c ≠ .int := by
  intro h
  cases c <;> cases h

theorem inferType_first (c : Cell) : inferType .int c = storageType c := by
  cases c <;> rfl

theorem inferType_seen {t : FieldType} (h : t ≠ .int) (c : Cell) : inferType t c = t := by
  rw [inferType, if_neg fun hc => h hc.2, if_neg h]

theorem fetchRows_seen {n : ℕ} {colTypes : Fin n → FieldType} (h : ∀ i, colTypes i ≠ .int)
    (rows : List (Fin n → Cell)) : fetchRows L colTypes rows =
      (colTypes, rows.map fun row i => resultValue L (colTypes i) (row i)) := by
  induction rows with
  | nil => rfl
  | cons row rows ih =>
    have hseen : (fun i => inferType (colTypes i) (row i)) = colTypes := by
      funext i
      exact inferType_seen (h i) (row i)
    rw [fetchRows, hseen, ih, List.map_cons]

/-- **The first row decides the type of each column.** -/
theorem fetchRows_eq {n : ℕ} (rows : List (Fin n → Cell)) :
    (fetchRows L (fun _ => .int) rows).2 =
      rows.map fun row i => resultValue L (columnType (rows.map (· i))) (row i) := by
  cases rows with
  | nil => rfl
  | cons row rows =>
    have hfirst : (fun i => inferType .int (row i)) = fun i => storageType (row i) := by
      funext i
      exact inferType_first (row i)
    rw [fetchRows, hfirst, fetchRows_seen L fun i => storageType_ne (row i)]
    rfl

/-! ## Cells that keep their type -/

/-- The non-NULL values of a column share one storage class. -/
def OneClass (col : List Cell) : Prop :=
  ∀ c ∈ col, ∀ c' ∈ col, c ≠ .null → c' ≠ .null → storageType c = storageType c'

/-- The union that holds a value; an empty blob is a null pointer with length 0. -/
def Cell.payload : Cell → Payload
  | .null => .zero
  | .integer n => .i n
  | .float bits => .f bits
  | .text s => .s (some s)
  | .blob data => .blob (if data = [] then none else some data)

/-- The type of the columns whose member of the union a field reads; a BOOL reads its own member,
which no column has. -/
def FieldType.reads : FieldType → Option FieldType
  | .int | .int64 => some .int64
  | .float | .double => some .double
  | .string | .text => some .text
  | .blob => some .blob
  | .bool => none

/-- A value of a result that keeps a cell: NULL is marked; any other has the type of its storage
class, and is where that type is read; and no field of that type reads another member. -/
structure Keeps (c : Cell) (val : Value) : Prop where
  isNull : val.isNull = true ↔ c = .null
  type : c ≠ .null → val.type = storageType c
  value : c ≠ .null → val.v = c.payload
  readable : ∀ (record : Record) (f : Field), f.type.reads = some (storageType c) →
    (fieldSetValue record f val).isSome

/-- A column whose type can be inferred from its first cell: below a NULL there are only texts, and
no text has a NUL in it. -/
def Inferable (col : List Cell) : Prop :=
  (col.head? = some .null → ∀ c ∈ col, c = .null ∨ ∃ s, c = .text s) ∧
    ∀ s, .text s ∈ col → nul ∉ s

theorem cstr_eq_self {s : List Char} : cstr s = s ↔ nul ∉ s := by
  rw [cstr, List.takeWhile_eq_self_iff]
  constructor
  · intro h hn
    simpa using h nul hn
  · intro h c hc
    have hne : c ≠ nul := by
      rintro rfl
      exact h hc
    simpa using hne

variable {L} {c : Cell} {col : List Cell} {t : FieldType}

theorem resultValue_payload (hc : c ≠ .null) (ht : ∀ s, c = .text s → nul ∉ s) :
    (resultValue L (storageType c) c).v = c.payload := by
  cases c with
  | null => exact absurd rfl hc
  | integer n =>
    show Payload.i (L.columnInt64 (.integer n)) = _
    rw [L.columnInt64_integer]
    rfl
  | float bits =>
    show Payload.f (L.columnDouble (.float bits)) = _
    rw [L.columnDouble_float]
    rfl
  | text s =>
    show Payload.s ((L.columnText (.text s)).map cstr) = _
    rw [L.columnText_text, Option.map_some, cstr_eq_self.mpr (ht s rfl)]
    rfl
  | blob data =>
    show Payload.blob (if L.columnBlob (.blob data) = [] then none else
      some (L.columnBlob (.blob data))) = _
    rw [L.columnBlob_blob]
    rfl

theorem payload_readable (record : Record) {f : Field} {val : Value} (hv : val.v = c.payload)
    (hf : f.type.reads = some (storageType c)) : (fieldSetValue record f val).isSome := by
  obtain ⟨name, type, size, flags⟩ := f
  rw [fieldSetValue, Option.isSome_map, hv]
  cases type <;> cases c <;> first | rfl | cases hf

theorem resultValue_keeps_iff :
    Keeps c (resultValue L t c) ↔
      c = .null ∨ (t = storageType c ∧ ∀ s, c = .text s → nul ∉ s) := by
  by_cases hc : c = .null
  · subst hc
    refine iff_of_true ⟨by simp [resultValue], fun h => absurd rfl h, fun h => absurd rfl h,
      fun record f hf => ?_⟩ (Or.inl rfl)
    exact payload_readable (c := .null) record rfl hf
  · constructor
    · intro h
      have ht : t = storageType c := h.type hc
      refine Or.inr ⟨ht, fun s hs => ?_⟩
      subst hs
      have hv := h.value hc
      rw [ht] at hv
      change Payload.s ((L.columnText (.text s)).map cstr) = .s (some s) at hv
      rw [L.columnText_text, Payload.s.injEq, Option.map_some, Option.some.injEq] at hv
      exact cstr_eq_self.mp hv
    · rintro (h | ⟨rfl, ht⟩)
      · exact absurd h hc
      · have hv := resultValue_payload (L := L) hc ht
        exact ⟨by simp [resultValue, hc], fun _ => rfl, fun _ => hv,
          fun record f hf => payload_readable record hv hf⟩

/-- The cells of a column keep their type and value when its type can be inferred. -/
theorem column_keeps_iff (hone : OneClass col) :
    (∀ c ∈ col, Keeps c (resultValue L (columnType col) c)) ↔ Inferable col := by
  simp only [resultValue_keeps_iff]
  constructor
  · intro h
    refine ⟨fun hhead c hc => ?_, fun s hs => ?_⟩
    · rcases h c hc with hnull | ⟨htype, -⟩
      · exact Or.inl hnull
      · rw [columnType, hhead] at htype
        cases c with
        | null => exact Or.inl rfl
        | text s => exact Or.inr ⟨s, rfl⟩
        | _ => cases htype
    · rcases h _ hs with hnull | ⟨-, htext⟩
      · cases hnull
      · exact htext s rfl
  · rintro ⟨hhead, htext⟩ c hc
    by_cases hnull : c = .null
    · exact Or.inl hnull
    refine Or.inr ⟨?_, fun s hs => htext s (hs ▸ hc)⟩
    cases col with
    | nil => cases hc
    | cons first col =>
      show storageType first = storageType c
      by_cases hfirst : first = .null
      · subst hfirst
        obtain ⟨s, rfl⟩ := (hhead rfl c hc).resolve_left hnull
        rfl
      · exact hone first List.mem_cons_self c hc hfirst hnull

/-- **When the cells of a result keep their type**: when the type of each column can be inferred
from its first row. -/
theorem sqliteQuery_keeps_iff {n : ℕ} (names : Fin n → Text) (rows : List (Fin n → Cell))
    (hone : ∀ i, OneClass (rows.map (· i))) :
    List.Forall₂ (fun row out => ∀ i, Keeps (row i) (out i)) rows
        (sqliteQuery L names rows).rows ↔
      ∀ i, Inferable (rows.map (· i)) := by
  show List.Forall₂ (fun (row : Fin n → Cell) (out : Fin n → Value) => ∀ i, Keeps (row i) (out i))
    rows (fetchRows L (fun _ => .int) rows).2 ↔ _
  rw [fetchRows_eq, List.forall₂_map_right_iff, List.forall₂_same]
  simp only [← fun i => column_keeps_iff (L := L) (hone i), List.forall_mem_map]
  exact ⟨fun h i row hrow => h row hrow i, fun h row hrow i => h i row hrow⟩

/-! ## A column that was added later -/

/-- SQLite, with an integer read as a text in decimal and every other conversion empty. -/
def plainSqlite : Sqlite where
  limit := 10 ^ 9
  columnInt64
    | .integer n => n
    | _ => 0
  columnDouble
    | .float bits => bits
    | _ => 0
  columnText
    | .text s => some s
    | .integer n => some ((if n.toInt < 0 then ['-'] else []) ++ Nat.toDigits 10 n.toInt.natAbs)
    | _ => none
  columnBlob
    | .blob data => data
    | _ => []
  bindDouble := .float
  bindNegative _ _ := .null
  limit_lt := by decide
  columnInt64_integer _ := rfl
  columnDouble_float _ := rfl
  columnText_text _ := rfl
  columnBlob_blob _ := rfl

/-- A row from before a column was added, and one from after. -/
def addedColumn : List (Fin 1 → Cell) := [fun _ => .null, fun _ => .integer 5]

theorem oneClass_addedColumn (i : Fin 1) : OneClass (addedColumn.map (· i)) := by
  intro c hc c' hc' hn hn'
  have h : ∀ c ∈ addedColumn.map (· i), c ≠ .null → c = .integer 5 := by simp [addedColumn]
  rw [h c hc hn, h c' hc' hn']

/-- The number is returned as the text "5". -/
theorem sqliteQuery_retypes_addedColumn :
    (∀ i, OneClass (addedColumn.map (· i))) ∧
    ¬ List.Forall₂ (fun row out => ∀ i, Keeps (row i) (out i)) addedColumn
      (sqliteQuery plainSqlite (fun _ => "age".toList) addedColumn).rows := by
  refine ⟨oneClass_addedColumn, fun h => ?_⟩
  obtain ⟨-, h⟩ := List.forall₂_cons.mp h
  obtain ⟨h, -⟩ := List.forall₂_cons.mp h
  exact absurd ((h 0).type (by decide)) (by decide)

theorem sqliteQuery_keeps_iff_addedColumn :
    List.Forall₂ (fun row out => ∀ i, Keeps (row i) (out i)) addedColumn
        (sqliteQuery plainSqlite (fun _ => "age".toList) addedColumn).rows ↔
      ∀ i, Inferable (addedColumn.map (· i)) :=
  sqliteQuery_keeps_iff (fun _ => "age".toList) addedColumn oneClass_addedColumn

end Corm
