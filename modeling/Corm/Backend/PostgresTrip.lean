import Corm.Backend.Params
import Corm.Backend.PostgresIds
import Corm.Backend.TypedTable

/-!
# Records through PostgreSQL

`pg_exec` sends the members of a record as text, the server converts them to the types that the
columns were declared with, and `pg_query` decodes the texts of a result by the OIDs of its columns.

* `PgType`: the types of columns, by their names in CREATE TABLE and by their OIDs;
* `PgClient`, `pgValue`: `libpq`, and one value of a result;
* `pgTyped`: the server and its client; `PgFits`: a member that has room in its column;
* `pg_passes_iff`: the members that come back;
* **`pg_trip_iff`**: the records that do.
-/

namespace Corm

open Sql (Row)

/-! ## Types -/

/-- The types of the columns that are declared. -/
inductive PgType
  | int4
  | int8
  | float4
  | float8
  | varchar (length : ℕ)
  | text
  | bytea
  | bool
  deriving DecidableEq

namespace PgType

/-- The OID in a result. -/
def oid : PgType → ℕ
  | bool => 16
  | bytea => 17
  | int8 => 20
  | int4 => 23
  | text => 25
  | float4 => 700
  | float8 => 701
  | varchar _ => 1043

/-- The declarations without a length. -/
def names : List (Text × PgType) :=
  [("SERIAL PRIMARY KEY".toList, .int4), ("INTEGER".toList, .int4), ("BIGINT".toList, .int8),
    ("REAL".toList, .float4), ("DOUBLE PRECISION".toList, .float8), ("TEXT".toList, .text),
    ("BYTEA".toList, .bytea), ("BOOLEAN".toList, .bool)]

/-- The type that a declaration stands for. -/
def ofName : Text → Option PgType := typeOfName names .varchar

/-- What the server stores of a value. -/
def assign (E : Encoding) : PgType → SqlValue → Option SqlValue
  | _, .null => some .null
  | .int4, .integer n => if -2 ^ 31 ≤ n ∧ n < 2 ^ 31 then some (.integer n) else none
  | .int8, .integer n => if -2 ^ 63 ≤ n ∧ n < 2 ^ 63 then some (.integer n) else none
  | .float4, .double bits | .float8, .double bits => some (.double bits)
  | .varchar length, .text s => (E.assignVarchar length s).map .text
  | .text, .text s => (E.chars s).map fun _ => .text s
  | .bytea, .blob data => some (.blob data)
  | .bool, .boolean v => some (.boolean v)
  | _, _ => none

end PgType

/-- The switch of `pg_query` over the OIDs. -/
def pgColumnType (oid : ℕ) : FieldType :=
  if oid = 20 ∨ oid = 21 ∨ oid = 23 ∨ oid = 26 then .int64
  else if oid = 700 ∨ oid = 701 then .double
  else if oid = 16 then .bool
  else if oid = 17 then .blob
  else .text

/-! ## Values -/

/-- What is left to `libpq`, the formats of the server and the C library: how doubles are printed and
read, `PQunescapeBytea` for the format of a `bytea`, and whether `malloc(0)` is a null pointer. -/
structure PgClient where
  formatG : UInt64 → Text
  floatOut : UInt64 → Text
  strtod : Text → UInt64
  byteaOut : List UInt8 → Text
  unescapeBytea : Text → List UInt8
  mallocNull : Bool
  unescape_out : ∀ data, unescapeBytea (byteaOut data) = data

/-- `PQgetvalue`, or NULL. -/
def PgClient.out (C : PgClient) : SqlValue → Option Text
  | .null => none
  | .integer n => some (toString n).toList
  | .boolean v => some (if v then ['t'] else ['f'])
  | .double bits => some (C.floatOut bits)
  | .text s => some s
  | .blob data => some (C.byteaOut data)

/-- A value of a result of `pg_query`. -/
def pgValue (C : PgClient) (type : FieldType) : Option Text → Value
  | none => ⟨type, true, .zero⟩
  | some s => ⟨type, false,
    match type with
    | .int64 => .i (Int64.ofInt (Strtol.strtoll s))
    | .double => .f (C.strtod s)
    | .bool => .b (s.head? == some 't')
    | .blob => .blob (if C.unescapeBytea s = [] ∧ C.mallocNull = true then none
      else some (C.unescapeBytea s))
    | _ => .s (some s)⟩

/-- A server with its tables: its encoding, the columns and their types, the keys that it gives to
SERIAL columns, how it evaluates predicates, and its counters. -/
structure PgDb where
  client : PgClient
  encoding : Encoding
  engine : Sql.Engine SqlValue
  columns : Text → List (Text × PgType)
  serial : Text → List (Row SqlValue) → Text → Int32
  lastInsertId : Store SqlValue → ℤ
  rowsAffected : Store SqlValue → ℤ

/-- The server and its client. -/
def pgTyped (P : PgDb) : TypedDb SqlValue PgType where
  type := .postgres
  engine := P.engine
  bind := pgSent P.client.formatG
  columns := P.columns
  assign := PgType.assign P.encoding
  fieldType ty := pgColumnType ty.oid
  decode ty v := pgValue P.client (pgColumnType ty.oid) (P.client.out v)
  omitted t rows c := .integer (P.serial t rows c).toInt64.toInt
  lastInsertId := P.lastInsertId
  rowsAffected := P.rowsAffected

theorem pgTyped_bind (P : PgDb) : (pgTyped P).bind = pgSent P.client.formatG := rfl

/-! ## Declarations -/

/-- The type of the column of a field that is inserted. -/
def FieldType.pgType (size : ℕ) : FieldType → PgType
  | .int => .int4
  | .int64 => .int8
  | .float => .float4
  | .double => .float8
  | .string => .varchar (varcharSize size)
  | .text => .text
  | .blob => .bytea
  | .bool => .bool

theorem ofName_typeName (type : FieldType) (size : ℕ) :
    PgType.ofName (dialectTypeNameStr .postgres type size) = some (type.pgType size) := by
  cases type with
  | string => exact typeOfName_varchar (by decide) size
  | _ => rfl

/-! ## Members -/

/-- A member that has room in its column: a text that is no null pointer, a string with not more
characters than the column, both in the encoding of the server, and a blob whose length is an
`int`. -/
def PgFits (E : Encoding) (size : ℕ) : (t : FieldType) → Member size t → Prop
  | .text, (p : Option Text) => ∃ s, p = some s ∧ (E.chars s).isSome = true
  | .string, (buf : Buffer Char size) => E.Fits (varcharSize size) (cstr buf.1)
  | .blob, (buf : Buffer UInt8 size) => WholeBlob size buf
  | _, _ => True

variable {P : PgDb} {accepts : Store SqlValue → Text → List Value → Bool} {m : Model}
  {s : Store SqlValue} {records : List Record}

theorem pgSent_int (formatG : UInt64 → Text) {t : FieldType} (ht : t = .int ∨ t = .int64)
    (n : Int64) : pgSent formatG ⟨t, false, .i n⟩ = some (.integer n.toInt) := by
  have hread : (readDecimal (snprintf 32 (toString n.toInt).toList)).map SqlValue.integer =
      some (.integer n.toInt) := by
    rw [snprintf_int, readDecimal_toString]
    rfl
  rcases ht with rfl | rfl <;> exact hread

theorem pgValue_int (C : PgClient) (n : Int64) :
    pgValue C .int64 (C.out (.integer n.toInt)) = ⟨.int64, false, .i n⟩ := by
  show (⟨.int64, false, .i (Int64.ofInt (Strtol.strtoll (toString n.toInt).toList))⟩ : Value) = _
  rw [strtoll_toString, Int64.ofInt_toInt]

theorem pg_set_blob (C : PgClient) {size : ℕ} (data : List UInt8) :
    memberSet size .blob (zeroMember size .blob) (pgValue C .blob (C.out (.blob data))).v =
      some (copyBlob size ⟨List.replicate size 0, List.length_replicate⟩ data) := by
  show memberSet size .blob _ (.blob (if C.unescapeBytea (C.byteaOut data) = [] ∧ C.mallocNull = true
    then none else some (C.unescapeBytea (C.byteaOut data)))) = _
  rw [C.unescape_out]
  split_ifs with hnil
  · rw [hnil.1]
    exact (memberSet_empty size _).symm
  · rfl

theorem copyBlob_take_iff {size n : ℕ} (x : Buffer UInt8 size) :
    x = copyBlob size ⟨List.replicate size 0, List.length_replicate⟩ (x.1.take n) ↔
      ∀ byte ∈ x.1.drop n, byte = 0 := by
  have hlen : (x.1.take n).length ≤ size := (List.length_take_le' _ _).trans x.2.le
  have hsub : size - min n size = size - n := by omega
  rw [← take_append_zeros_iff, Subtype.ext_iff, copyBlob, dif_pos hlen]
  show x.1 = x.1.take n ++ (List.replicate size 0).drop (x.1.take n).length ↔ _
  rw [List.drop_replicate, List.length_take, x.2, hsub]

theorem pg_blob_iff {size : ℕ} {x : Buffer UInt8 size} :
    (∃ v w y, pgSent P.client.formatG ⟨.blob, false, .blob (some x.1)⟩ = some v ∧
      PgType.bytea.assign P.encoding v = some w ∧
      memberSet size .blob (zeroMember size .blob) (pgValue P.client .blob (P.client.out w)).v =
        some y ∧ x = y) ↔ WholeBlob size x := by
  rw [pgSent_blob, x.2]
  show _ ↔ size % 2 ^ 32 < 2 ^ 31 ∧ ∀ byte ∈ x.1.drop (size % 2 ^ 32), byte = 0
  by_cases hlow : size % 2 ^ 32 < 2 ^ 31
  · rw [if_pos (toCInt_nonneg_iff.mpr hlow), toCInt_toNat hlow, ← copyBlob_take_iff,
      and_iff_right hlow]
    constructor
    · rintro ⟨v, w, y, hv, hw, hy, hxy⟩
      obtain rfl := Option.some.inj hv
      obtain rfl := Option.some.inj hw
      rw [pg_set_blob] at hy
      exact hxy.trans (Option.some.inj hy).symm
    · exact fun h => ⟨_, _, _, rfl, rfl, pg_set_blob _ _, h⟩
  · rw [if_neg fun h => hlow (toCInt_nonneg_iff.mp h)]
    exact iff_of_false (fun ⟨_, _, _, h, _⟩ => nomatch h) fun h => hlow h.1

/-- **The members that come back.** -/
theorem pg_passes_iff {f : Field} (hfloat : f.type ≠ .float) (hdouble : f.type ≠ .double)
    {x : Member f.size f.type} (hx : Terminated f.size f.type x) :
    Passes (pgTyped P) (f.type.pgType f.size) f x
      ⟨f.type, false, memberPayload f.size f.type x⟩ ↔ PgFits P.encoding f.size f.type x := by
  obtain ⟨name, type, size, flags⟩ := f
  unfold Passes
  cases type with
  | float => exact absurd rfl hfloat
  | double => exact absurd rfl hdouble
  | int =>
    change Int32 at x
    have hassign : PgType.int4.assign P.encoding (.integer x.toInt64.toInt) =
      some (.integer x.toInt64.toInt) := if_pos int32_in_range
    have hset : memberSet size .int (zeroMember size .int)
        (pgValue P.client .int64 (P.client.out (.integer x.toInt64.toInt))).v = some x := by
      rw [pgValue_int]
      exact congrArg some (Int32.toInt32_toInt64 x)
    exact iff_of_true ⟨_, _, x, pgSent_int P.client.formatG (Or.inl rfl) x.toInt64, hassign,
      hset, rfl⟩ trivial
  | int64 =>
    change Int64 at x
    have hassign : PgType.int8.assign P.encoding (.integer x.toInt) = some (.integer x.toInt) :=
      if_pos int64_in_range
    have hset : memberSet size .int64 (zeroMember size .int64)
        (pgValue P.client .int64 (P.client.out (.integer x.toInt))).v = some x := by
      rw [pgValue_int]
      rfl
    exact iff_of_true ⟨_, _, x, pgSent_int P.client.formatG (Or.inr rfl) x, hassign, hset,
      rfl⟩ trivial
  | bool =>
    change Bool at x
    cases x <;> exact iff_of_true ⟨_, _, _, rfl, rfl, rfl, rfl⟩ trivial
  | text =>
    change Option Text at x
    cases x with
    | none => exact iff_of_false (fun ⟨_, _, _, h, _⟩ => nomatch h) fun ⟨_, h, _⟩ => nomatch h
    | some s =>
      show _ ↔ ∃ s', some s = some s' ∧ (P.encoding.chars s').isSome = true
      simp only [Option.some.injEq, exists_eq_left']
      constructor
      · rintro ⟨v, w, y, hv, hw, -⟩
        obtain rfl := Option.some.inj hv
        obtain ⟨cs, hcs, -⟩ := Option.map_eq_some_iff.mp hw
        rw [hcs]
        rfl
      · intro h
        obtain ⟨cs, hcs⟩ := Option.isSome_iff_exists.mp h
        have hassign : PgType.text.assign P.encoding (.text s) = some (.text s) :=
          Option.map_eq_some_iff.mpr ⟨cs, hcs, rfl⟩
        exact ⟨_, _, _, rfl, hassign, rfl, rfl⟩
  | string =>
    change Buffer Char size at x
    have hassign (w : SqlValue) :
        (PgType.varchar (varcharSize size)).assign P.encoding (.text (cstr x.1)) = some w ↔
          ∃ s, P.encoding.assignVarchar (varcharSize size) (cstr x.1) = some s ∧ .text s = w :=
      Option.map_eq_some_iff
    refine Iff.trans ?_ (varchar_trip_iff P.encoding hx)
    constructor
    · rintro ⟨v, w, y, hv, hw, hy, hsame⟩
      obtain rfl := Option.some.inj hv
      obtain ⟨s, hs, rfl⟩ := (hassign w).mp hw
      exact ⟨s, y, hs, hy, hsame⟩
    · rintro ⟨s, y, hs, hy, hsame⟩
      exact ⟨_, _, y, rfl, (hassign _).mpr ⟨s, hs, rfl⟩, hy, hsame⟩
  | blob =>
    change Buffer UInt8 size at x
    have hval : (⟨.blob, false, memberPayload size .blob x⟩ : Value) =
      ⟨.blob, false, .blob (some x.1)⟩ := rfl
    rw [pgTyped_bind]
    show (∃ v w y, pgSent P.client.formatG ⟨.blob, false, memberPayload size .blob x⟩ = some v ∧
      PgType.bytea.assign P.encoding v = some w ∧ memberSet size .blob (zeroMember size .blob)
        (pgValue P.client .blob (P.client.out w)).v = some y ∧ x = y) ↔ WholeBlob size x
    rw [hval, pg_blob_iff]

/-! ## Records -/

/-- **Records that `corm_create` sends to PostgreSQL and `corm_find_all` reads back** are the same
exactly when each member has room in its column: the records of an empty table without a soft delete
whose constraints accept them, in the columns that the migration declares. -/
theorem pg_trip_iff (hm : validateModel m = .ok) (hsoft : softDeleteField m = none)
    (hu : Unhooked m) (hne : insertFields m ≠ [])
    (hexact : ∀ f ∈ m.fields, f.type ≠ .float ∧ f.type ≠ .double)
    (hP : (pgTyped P).Migrated PgType.ofName m)
    (hr : ∀ r ∈ records, ∀ f ∈ insertFields m, Terminated f.size f.type (r f))
    (hs : s.db m.table = []) (hacc : Accepted (pgTyped P) accepts m s records) :
    TypedTrip (pgTyped P) accepts m s records ↔
      ∀ r ∈ records, ∀ f ∈ insertFields m, PgFits P.encoding f.size f.type (r f) := by
  refine migrated_trip_iff (validated_of_ok hm) hsoft hu hne hP
    (fun f _ ha ty hty rows c => ?_) (fun r hrm f hf ty hty => ?_) hs hacc
  · -- a SERIAL column is an integer
    have hserial : PgType.ofName (declared .postgres f) = some .int4 := by
      rw [declared, ha]
      rfl
    obtain rfl := Option.some.inj (hserial.symm.trans hty)
    exact ⟨_, congrArg Value.v (pgValue_int P.client (P.serial m.table rows c).toInt64)⟩
  · obtain ⟨hfloat, hdouble⟩ := hexact f (List.mem_of_mem_filter hf)
    obtain rfl := Option.some.inj ((ofName_typeName f.type f.size).symm.trans hty)
    exact pg_passes_iff hfloat hdouble (hr r hrm f hf)

/-! ## A table of parcels -/

/-- The key of a parcel. -/
def parcelId : Field := ⟨some "id".toList, .int, 4, 3⟩

/-- A label with so much room that the column is declared with 255 characters. -/
def parcelLabel : Field := ⟨some "label".toList, .string, 70000, 0⟩

/-- The contents. -/
def parcelData : Field := ⟨some "data".toList, .blob, 16, 0⟩

/-- Parcels with a key that the server gives. -/
def parcelModel : Model where
  tableName := some "parcels".toList
  structSize := 70024
  fields := [parcelId, parcelLabel, parcelData]
  primaryKey := some parcelId
  primaryKey_mem := by simp
  beforeCreate := none
  afterCreate := none
  beforeUpdate := none
  afterUpdate := none
  beforeDelete := none
  afterDelete := none
  afterFind := none

/-- The two digits of a byte. -/
def hexByte (b : UInt8) : Text := [Nat.digitChar (b.toNat / 16), Nat.digitChar (b.toNat % 16)]

/-- The number of a digit. -/
def hexValue (c : Char) : ℕ := if c.isDigit then c.toNat - 48 else c.toNat - 87

/-- The bytes of an even number of digits. -/
def hexBytes : Text → List UInt8
  | c :: d :: cs => UInt8.ofNat (16 * hexValue c + hexValue d) :: hexBytes cs
  | _ => []

theorem hexBytes_hexByte (data : List UInt8) : hexBytes (data.flatMap hexByte) = data := by
  have hbyte : ∀ n : Fin 256, UInt8.ofNat (16 * hexValue (Nat.digitChar (n / 16)) +
      hexValue (Nat.digitChar (n % 16))) = UInt8.ofNat n := by decide +kernel
  induction data with
  | nil => rfl
  | cons b data ih =>
    have hhead : UInt8.ofNat (16 * hexValue (Nat.digitChar (b.toNat / 16)) +
        hexValue (Nat.digitChar (b.toNat % 16))) = b := by
      rw [hbyte ⟨b.toNat, b.toNat_lt⟩, UInt8.ofNat_toNat]
    rw [List.flatMap_cons]
    show _ :: hexBytes (data.flatMap hexByte) = _
    rw [ih, hhead]

/-- A server that numbers the parcels, and prints bytes as digits. -/
def parcelDb : PgDb where
  client :=
    { formatG := fun _ => []
      floatOut := fun _ => []
      strtod := fun _ => 0
      byteaOut := fun data => "\\x".toList ++ data.flatMap hexByte
      unescapeBytea := fun s => hexBytes (s.drop 2)
      mallocNull := false
      unescape_out := hexBytes_hexByte }
  encoding := singleByte
  engine := ⟨.null, fun _ _ => none⟩
  columns _ := [(parcelId.nm, .int4), (parcelLabel.nm, .varchar 255), (parcelData.nm, .bytea)]
  serial _ rows _ := Int32.ofNat (rows.length + 1)
  lastInsertId s := (s.db parcelModel.table).length
  rowsAffected _ := 1

theorem parcel_forall {p : Field → Prop} :
    (∀ f ∈ parcelModel.fields, p f) ↔ p parcelId ∧ p parcelLabel ∧ p parcelData := by
  simp [parcelModel]

theorem parcel_terminated : ∀ r ∈ [zeroRecord], ∀ f ∈ insertFields parcelModel,
    Terminated f.size f.type (r f) := by
  intro r hr f hf
  obtain rfl := List.mem_singleton.mp hr
  have hid : Terminated parcelId.size parcelId.type (zeroRecord parcelId) := trivial
  have hlabel : Terminated parcelLabel.size parcelLabel.type (zeroRecord parcelLabel) :=
    List.mem_replicate.mpr ⟨by decide, rfl⟩
  have hdata : Terminated parcelData.size parcelData.type (zeroRecord parcelData) := trivial
  exact (parcel_forall (p := fun f => Terminated f.size f.type (zeroRecord f))).mpr
    ⟨hid, hlabel, hdata⟩ f (List.mem_of_mem_filter hf)

end Corm
