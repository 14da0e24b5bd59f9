import Corm.Types
import Mathlib.Logic.Function.Basic

/-!
# Models, records and values

`model.c`: the descriptors of a table's fields, and the way between the members of a C struct and
the values that are bound and fetched.

* `Value`: `corm_value_t`, with the union read as the member that was written;
* `Field`, `Model`, `validateModel`: descriptors, and the check of `corm_register_model`;
* `Record`: a C struct, as the member that each field describes;
* `fieldGetValue`, `fieldSetValue`: reading a member, and writing one;
* `Result`: the rows of a query.
-/

namespace Corm

/-! ## Values -/

/-- The union of `corm_value_t`, by the member that was written last. A `double` is its bits, and a
`blob` is its `data` with the `len` bytes there. -/
inductive Payload
  | i (n : Int64)
  | f (bits : UInt64)
  | s (p : Option Text)
  | blob (data : Option (List UInt8))
  | b (v : Bool)
  deriving DecidableEq

namespace Payload

/-- Zeroed memory. -/
def zero : Payload := .i 0

/-- The first eight bytes, where the value decides them: all of it was cleared before the member was
written, and a null pointer is zero. -/
def word : Payload → Option UInt64
  | .i n => some n.toUInt64
  | .f bits => some bits
  | .b v => some (if v then 1 else 0)
  | .s p => if p = none then some 0 else none
  | .blob data => if data = none then some 0 else none

/-- Reading `v.i`; `none` when it holds a pointer. -/
def readI : Payload → Option Int64
  | .i n => some n
  | v => v.word.map UInt64.toInt64

/-- Reading `v.f`. -/
def readF : Payload → Option UInt64
  | .f bits => some bits
  | v => v.word

/-- Reading `v.s`; `none` when it holds something else than a pointer to a string. -/
def readS : Payload → Option (Option Text)
  | .s p => some p
  | v => if v.word = some 0 then some none else none

/-- Reading `v.blob`; behind the pointer to a string there is a length of 0. -/
def readBlob : Payload → Option (Option (List UInt8))
  | .blob data => some data
  | .s (some _) => some (some [])
  | v => if v.word = some 0 then some none else none

/-- Reading `v.b`: the low byte, which has to be 0 or 1. -/
def readB : Payload → Option Bool
  | .b v => some v
  | v => v.word.bind fun w =>
    if w.toUInt8 = 0 then some false else if w.toUInt8 = 1 then some true else none

end Payload

/-- `corm_value_t`. -/
structure Value where
  type : FieldType
  isNull : Bool
  v : Payload
  deriving DecidableEq

/-! ## Descriptors -/

/-- `corm_field_t`, without the offset: a `Record` gives the member of each field. -/
structure Field where
  name : Option Text
  type : FieldType
  size : ℕ
  flags : ℕ
  deriving DecidableEq

namespace Field

variable (f : Field)

/-- The name of a validated field. -/
def nm : Text := f.name.getD []

/-- `flags & CORM_FLAG_PRIMARY`. -/
def isPrimary : Bool := f.flags.testBit 0

/-- `flags & CORM_FLAG_AUTOINC`. -/
def isAutoinc : Bool := f.flags.testBit 1

/-- `flags & CORM_FLAG_SOFT_DELETE`. -/
def isSoftDelete : Bool := f.flags.testBit 4

end Field

/-- An array of a fixed length. -/
abbrev Buffer (α : Type) (n : ℕ) := { l : List α // l.length = n }

/-- The C type of a member of a field type and size; `float` and `double` are their bits. -/
def Member (size : ℕ) : FieldType → Type
  | .int => Int32
  | .int64 => Int64
  | .float => UInt32
  | .double => UInt64
  | .string => Buffer Char size
  | .text => Option Text
  | .blob => Buffer UInt8 size
  | .bool => Bool

/-- A C struct: the member that each field describes. -/
abbrev Record := (f : Field) → Member f.size f.type

/-- `corm_hook_t`: its result for a null record, and its result and what it leaves of any other. -/
structure Hook where
  onNull : Err
  onRecord : Record → Err × Record

/-- `corm_model_t`; its primary key is one of its fields. -/
structure Model where
  tableName : Option Text
  structSize : ℕ
  fields : List Field
  primaryKey : Option Field
  primaryKey_mem : ∀ pk ∈ primaryKey, pk ∈ fields
  beforeCreate : Option Hook
  afterCreate : Option Hook
  beforeUpdate : Option Hook
  afterUpdate : Option Hook
  beforeDelete : Option Hook
  afterDelete : Option Hook
  afterFind : Option Hook

/-- The table name of a validated model. -/
def Model.table (m : Model) : Text := m.tableName.getD []

/-! ## Validation -/

/-- The characters of identifiers, `[a-zA-Z0-9_.*]`. -/
def isIdentChar (c : Char) : Bool :=
  (decide ('a' ≤ c) && decide (c ≤ 'z')) || (decide ('A' ≤ c) && decide (c ≤ 'Z')) ||
    (decide ('0' ≤ c) && decide (c ≤ '9')) || c == '_' || c == '.' || c == '*'

/-- `corm_is_valid_identifier`. -/
def isValidIdentifier (name : Option Text) : Bool :=
  match name with
  | none => false
  | some s => !s.isEmpty && s.all isIdentChar

/-- The loop of `corm_validate_model` over the fields. -/
def validateFields : List Field → Err
  | [] => .ok
  | f :: fs =>
    if !isValidIdentifier f.name then .type
    else if fs.any fun g => g.name.isSome && g.name == f.name then .dup
    else validateFields fs

/-- `corm_validate_model`. -/
def validateModel (m : Model) : Err :=
  if m.tableName.isNone || m.fields.isEmpty then .null
  else if !isValidIdentifier m.tableName then .type
  else if m.structSize = 0 then .bounds
  else validateFields m.fields

/-- A valid identifier, as a text. -/
def Ident (s : Text) : Prop := isValidIdentifier (some s) = true

/-- What validation guarantees. -/
structure Validated (m : Model) : Prop where
  table : Ident m.table
  ident : ∀ f ∈ m.fields, isValidIdentifier f.name = true
  nodup : (m.fields.map Field.nm).Nodup

theorem ident_nm {f : Field} (h : isValidIdentifier f.name = true) : Ident f.nm := by
  cases hn : f.name with
  | none => simp [hn, isValidIdentifier] at h
  | some s => rwa [Field.nm, hn, Ident, Option.getD_some, ← hn]

theorem validateFields_ok {fs : List Field} (h : validateFields fs = .ok) :
    (∀ f ∈ fs, isValidIdentifier f.name = true) ∧ (fs.map Field.nm).Nodup := by
  induction fs with
  | nil => simp
  | cons f fs ih =>
    unfold validateFields at h
    split_ifs at h with hid hdup
    obtain ⟨hids, hnodup⟩ := ih h
    have hf : isValidIdentifier f.name = true := by simpa using hid
    refine ⟨fun g hg => ?_, List.nodup_cons.mpr ⟨fun hm => hdup ?_, hnodup⟩⟩
    · rcases List.mem_cons.mp hg with rfl | hg
      · exact hf
      · exact hids g hg
    · obtain ⟨g, hg, hgf⟩ := List.mem_map.mp hm
      have hg' := hids g hg
      refine List.any_eq_true.mpr ⟨g, hg, ?_⟩
      cases hfn : f.name with
      | none => simp [hfn, isValidIdentifier] at hf
      | some s =>
        cases hgn : g.name with
        | none => simp [hgn, isValidIdentifier] at hg'
        | some t => simpa [Field.nm, hfn, hgn] using hgf

theorem validated_of_ok {m : Model} (h : validateModel m = .ok) : Validated m := by
  unfold validateModel at h
  split_ifs at h with hnull hid
  obtain ⟨hids, hnodup⟩ := validateFields_ok h
  refine ⟨?_, hids, hnodup⟩
  cases hn : m.tableName with
  | none => simp [hn, isValidIdentifier] at hid
  | some s => simpa [Ident, Model.table, hn] using hid

theorem Validated.ident_nm {m : Model} (h : Validated m) {f : Field} (hf : f ∈ m.fields) :
    Ident f.nm := Corm.ident_nm (h.ident f hf)

/-! ## Members and values -/

/-- The terminator of C strings. -/
def nul : Char := Char.ofNat 0

/-- The text in a `char` array, up to its NUL. -/
def cstr (buf : List Char) : Text := buf.takeWhile (· != nul)

/-- The union that `corm_field_get_value` fills from a member. -/
def memberPayload (size : ℕ) : (t : FieldType) → Member size t → Payload
  | .int, (n : Int32) => .i n.toInt64
  | .int64, n => .i n
  | .float, (bits : UInt32) => .f (Float32.ofBits bits).toFloat.toBits
  | .double, bits => .f bits
  | .string, (buf : Buffer Char size) => .s (some (cstr buf.1))
  | .text, p => .s p
  | .bool, v => .b v
  | .blob, (buf : Buffer UInt8 size) => .blob (some buf.1)

/-- `corm_field_get_value`. -/
def fieldGetValue (record : Record) (f : Field) : Value :=
  ⟨f.type, false, memberPayload f.size f.type (record f)⟩

/-- What `strncpy(ptr, s, n)` writes. -/
def strncpy (s : Text) (n : ℕ) : List Char := s.take n ++ List.replicate (n - s.length) nul

theorem strncpy_length (s : Text) (n : ℕ) : (strncpy s n).length = n := by
  simp only [strncpy, List.length_append, List.length_take, List.length_replicate]
  omega

/-- The array after `strncpy` of all but its last character, and a NUL there. -/
def copyString (size : ℕ) (old : Buffer Char size) (s : Text) : Buffer Char size :=
  if h : 0 < size then
    ⟨strncpy s (size - 1) ++ [nul], by
      rw [List.length_append, strncpy_length, List.length_singleton]
      omega⟩
  else old

/-- The array after `memcpy` of `data`, if it fits. -/
def copyBlob (size : ℕ) (old : Buffer UInt8 size) (data : List UInt8) : Buffer UInt8 size :=
  if h : data.length ≤ size then
    ⟨data ++ old.1.drop data.length, by
      rw [List.length_append, List.length_drop, old.2]
      omega⟩
  else old

/-- What `corm_field_set_value` writes to a member; `none` when it reads a member of the union that
was not written. -/
def memberSet (size : ℕ) : (t : FieldType) → Member size t → Payload → Option (Member size t)
  | .int, _, v => v.readI.map fun n => (n.toInt32 : Int32)
  | .int64, _, v => v.readI
  | .float, _, v => v.readF.map fun bits => ((Float.ofBits bits).toFloat32.toBits : UInt32)
  | .double, _, v => v.readF
  | .string, old, v => v.readS.map fun
    | some s => copyString size old s
    | none => old
  | .text, _, v => v.readS
  | .bool, _, v => v.readB
  | .blob, old, v => v.readBlob.map fun
    | some data => copyBlob size old data
    | none => old

/-- `corm_field_set_value`. -/
def fieldSetValue (record : Record) (f : Field) (val : Value) : Option Record :=
  (memberSet f.size f.type (record f) val.v).map fun x => Function.update record f x

/-- The member of zeroed memory. -/
def zeroMember (size : ℕ) : (t : FieldType) → Member size t
  | .int => (0 : Int32)
  | .int64 => (0 : Int64)
  | .float => (0 : UInt32)
  | .double => (0 : UInt64)
  | .string => (⟨List.replicate size nul, List.length_replicate⟩ : Buffer Char size)
  | .text => (none : Option Text)
  | .bool => false
  | .blob => (⟨List.replicate size 0, List.length_replicate⟩ : Buffer UInt8 size)

/-- A zeroed C struct. -/
def zeroRecord : Record := fun f => zeroMember f.size f.type

/-! ## Results -/

/-- `corm_result_t`, without its iterator and reference count. -/
structure Result where
  columnCount : ℕ
  columnNames : Fin columnCount → Text
  columnTypes : Fin columnCount → FieldType
  rows : List (Fin columnCount → Value)

end Corm
