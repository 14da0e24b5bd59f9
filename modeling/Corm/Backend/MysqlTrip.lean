import Corm.Backend.MysqlSimple
import Corm.Backend.Params
import Corm.Backend.TypedTable

/-!
# Records through MySQL

`mysql_exec` binds the members of a record, the server converts them to the types of the columns, and
`corm_find_all` reads them back by a query without parameters. The library reports TEXT columns as
blobs, and a blob has no NUL at its end.

* `MysqlType`: the types of columns, by their names in CREATE TABLE and by their types in a result;
* `MysqlDb`, `mysqlTyped`: the server and its client;
* `MysqlFits`: a member that has room in its column; `mysql_passes_iff`: the members that come back;
* **`mysql_trip_iff`**: the records that do; no record with a TEXT member is one of them.
-/

namespace Corm

open Sql (Row)

/-! ## Types -/

/-- The types of the columns that are declared. -/
inductive MysqlType
  | int
  | bigint
  | float
  | double
  | varchar (length : ℕ)
  | text
  | blob
  | tinyint
  deriving DecidableEq

namespace MysqlType

/-- The type in a result. -/
def wireType : MysqlType → MysqlFieldType
  | int => .long
  | bigint => .longlong
  | float => .float
  | double => .double
  | varchar _ => .other
  | text => .blob
  | blob => .blob
  | tinyint => .tiny

/-- The declarations without a length. -/
def names : List (Text × MysqlType) :=
  [("INT".toList, .int), ("BIGINT".toList, .bigint), ("FLOAT".toList, .float),
    ("DOUBLE".toList, .double), ("TEXT".toList, .text), ("BLOB".toList, .blob),
    ("TINYINT(1)".toList, .tinyint)]

/-- The type that a declaration stands for. -/
def ofName : Text → Option MysqlType := typeOfName names .varchar

/-- What the server stores of a value, in its strict mode. -/
def assign (E : Encoding) : MysqlType → SqlValue → Option SqlValue
  | _, .null => some .null
  | .int, .integer n => if -2 ^ 31 ≤ n ∧ n < 2 ^ 31 then some (.integer n) else none
  | .bigint, .integer n => if -2 ^ 63 ≤ n ∧ n < 2 ^ 63 then some (.integer n) else none
  | .float, .double bits | .double, .double bits => some (.double bits)
  | .varchar length, .text s => (E.assignVarchar length s).map .text
  | .text, .text s => ((E.chars s).bind fun _ => fitTo 65535 (s.map fun c => [c])).map .text
  | .blob, .blob data => if data.length ≤ 65535 then some (.blob data) else none
  | .tinyint, .boolean v => some (.integer (if v then 1 else 0))
  | _, _ => none

end MysqlType

/-! ## Values -/

/-- A value of a row, or NULL. -/
def MysqlFormat.out (F : MysqlFormat) : SqlValue → Option MysqlCell
  | .null => none
  | .integer n => some (.chars (toString n).toList)
  | .boolean v => some (.chars (if v then ['1'] else ['0']))
  | .double bits => some (.chars (F.floatOut bits))
  | .text s => some (.chars s)
  | .blob data => some (.bytes data)

/-- A server with its tables: its encoding, the columns and their types, the keys that it gives to
AUTO_INCREMENT columns, how it evaluates predicates, and its counters. -/
structure MysqlDb where
  format : MysqlFormat
  encoding : Encoding
  engine : Sql.Engine SqlValue
  columns : Text → List (Text × MysqlType)
  autoIncrement : Text → List (Row SqlValue) → Text → Int64
  lastInsertId : Store SqlValue → ℤ
  rowsAffected : Store SqlValue → ℤ

/-- The server and its client, where every allocation succeeds. -/
def mysqlTyped (D : MysqlDb) : TypedDb SqlValue MysqlType where
  type := .mysql
  engine := D.engine
  bind := mysqlSent
  columns := D.columns
  assign := MysqlType.assign D.encoding
  fieldType ty := (mysqlFieldToCormType ty.wireType).fieldType
  decode ty v := simpleValue D.format true (mysqlFieldToCormType ty.wireType) (D.format.out v)
  omitted t rows c := .integer (D.autoIncrement t rows c).toInt
  lastInsertId := D.lastInsertId
  rowsAffected := D.rowsAffected

/-- The type of the column of a field that is inserted. -/
def FieldType.mysqlType (size : ℕ) : FieldType → MysqlType
  | .int => .int
  | .int64 => .bigint
  | .float => .float
  | .double => .double
  | .string => .varchar (varcharSize size)
  | .text => .text
  | .blob => .blob
  | .bool => .tinyint

theorem ofName_mysqlTypeName (type : FieldType) (size : ℕ) :
    MysqlType.ofName (dialectTypeNameStr .mysql type size) = some (type.mysqlType size) := by
  cases type with
  | string => exact typeOfName_varchar (by decide) size
  | _ => rfl

/-! ## Members -/

/-- A member that has room in its column. No text has: it comes back without its NUL. -/
def MysqlFits (E : Encoding) (size : ℕ) : (t : FieldType) → Member size t → Prop
  | .text, _ => False
  | .string, (buf : Buffer Char size) => E.Fits (varcharSize size) (cstr buf.1)
  | .blob, _ => size ≤ 65535
  | _, _ => True

variable {D : MysqlDb} {accepts : Store SqlValue → Text → List Value → Bool} {m : Model}
  {s : Store SqlValue} {records : List Record}

theorem simpleValue_int (F : MysqlFormat) (n : Int64) :
    simpleValue F true .int64 (F.out (.integer n.toInt)) = ⟨.int64, false, .i n⟩ :=
  (simpleValue_iff F true .int64 (some n)).mpr trivial

theorem simpleValue_chars (F : MysqlFormat) {s : Text} (hs : nul ∉ s) :
    simpleValue F true .text (F.out (.text s)) = ⟨.text, false, .s (some s)⟩ :=
  (simpleValue_iff F true .text (some s)).mpr ⟨rfl, hs⟩

theorem simpleValue_text (F : MysqlFormat) {s : Text} {size : ℕ} {y : Option Text}
    (h : memberSet size .text (none : Option Text)
      (simpleValue F true .blob (F.out (.text s))).v = some y) : y = none := by
  have hcell : F.out (.text s) = some (.chars s) := rfl
  rw [hcell] at h
  by_cases hnull : (MysqlCell.chars s).data = [] ∧ F.mallocNull = true
  · have hv : (simpleValue F true .blob (some (.chars s))).v = .zero := by simp [simpleValue, hnull]
    rw [hv] at h
    exact (Option.some.inj h).symm
  · have hv : (simpleValue F true .blob (some (.chars s))).v =
        .blob (some (MysqlCell.chars s).data) := by
      show (if true = true ∧ ¬ _ then _ else _ : Payload) = _
      rw [if_pos ⟨rfl, hnull⟩]
    rw [hv] at h
    cases h

theorem mysql_set_blob (F : MysqlFormat) {size : ℕ} (data : List UInt8) :
    memberSet size .blob (zeroMember size .blob)
      (simpleValue F true .blob (F.out (.blob data))).v =
      some (copyBlob size ⟨List.replicate size 0, List.length_replicate⟩ data) := by
  show memberSet size .blob _ (if true = true ∧ ¬ (data = [] ∧ F.mallocNull = true) then
    Payload.blob (some data) else .zero) = _
  split_ifs with h
  · rfl
  · have hnil : data = [] := by
      by_contra hne
      exact h ⟨rfl, fun hnull => hne hnull.1⟩
    rw [hnil]
    exact (memberSet_empty size _).symm

theorem copyBlob_all {size : ℕ} (x old : Buffer UInt8 size) : copyBlob size old x.1 = x := by
  rw [Subtype.ext_iff, copyBlob, dif_pos x.2.le]
  show x.1 ++ old.1.drop x.1.length = x.1
  rw [x.2, List.drop_of_length_le old.2.le, List.append_nil]

/-- **The members that come back.** -/
theorem mysql_passes_iff {f : Field} (hfloat : f.type ≠ .float) (hdouble : f.type ≠ .double)
    {x : Member f.size f.type} (hx : Terminated f.size f.type x) :
    Passes (mysqlTyped D) (f.type.mysqlType f.size) f x
      ⟨f.type, false, memberPayload f.size f.type x⟩ ↔ MysqlFits D.encoding f.size f.type x := by
  obtain ⟨name, type, size, flags⟩ := f
  unfold Passes
  cases type with
  | float => exact absurd rfl hfloat
  | double => exact absurd rfl hdouble
  | int =>
    change Int32 at x
    have hassign : MysqlType.int.assign D.encoding (.integer x.toInt64.toInt) =
      some (.integer x.toInt64.toInt) := if_pos int32_in_range
    have hset : memberSet size .int (zeroMember size .int)
        (simpleValue D.format true .int64 (D.format.out (.integer x.toInt64.toInt))).v = some x := by
      rw [simpleValue_int]
      exact congrArg some (Int32.toInt32_toInt64 x)
    exact iff_of_true ⟨_, _, x, rfl, hassign, hset, rfl⟩ trivial
  | int64 =>
    change Int64 at x
    have hassign : MysqlType.bigint.assign D.encoding (.integer x.toInt) = some (.integer x.toInt) :=
      if_pos int64_in_range
    have hset : memberSet size .int64 (zeroMember size .int64)
        (simpleValue D.format true .int64 (D.format.out (.integer x.toInt))).v = some x := by
      rw [simpleValue_int]
      rfl
    exact iff_of_true ⟨_, _, x, rfl, hassign, hset, rfl⟩ trivial
  | bool =>
    change Bool at x
    have hset : memberSet size .bool (zeroMember size .bool)
        (simpleValue D.format true .int64
          (D.format.out (.integer (if x then 1 else 0)))).v = some x := by
      cases x
      · exact congrArg (fun v => memberSet size .bool _ (Value.v v)) (simpleValue_int D.format 0)
      · exact congrArg (fun v => memberSet size .bool _ (Value.v v)) (simpleValue_int D.format 1)
    exact iff_of_true ⟨_, _, x, rfl, rfl, hset, rfl⟩ trivial
  | text =>
    change Option Text at x
    refine iff_of_false ?_ id
    rintro ⟨v, w, y, hv, hw, hy, hsame⟩
    change mysqlSent ⟨.text, false, .s x⟩ = some v at hv
    cases x with
    | none => cases hv
    | some s =>
      obtain rfl := Option.some.inj hv
      obtain ⟨s', -, rfl⟩ := Option.map_eq_some_iff.mp hw
      obtain rfl := simpleValue_text D.format hy
      cases hsame
  | string =>
    change Buffer Char size at x
    have hsent : mysqlSent ⟨.string, false, .s (some (cstr x.1))⟩ = some (.text (cstr x.1)) := by
      show some (SqlValue.text ((cstr x.1).take (cstr x.1).length)) = _
      rw [List.take_length]
    have hassign (w : SqlValue) :
        (MysqlType.varchar (varcharSize size)).assign D.encoding (.text (cstr x.1)) = some w ↔
          ∃ s, D.encoding.assignVarchar (varcharSize size) (cstr x.1) = some s ∧ .text s = w :=
      Option.map_eq_some_iff
    refine Iff.trans ?_ (varchar_trip_iff D.encoding hx)
    constructor
    · rintro ⟨v, w, y, hv, hw, hy, hsame⟩
      obtain rfl := Option.some.inj (hsent.symm.trans hv)
      obtain ⟨s, hs, rfl⟩ := (hassign w).mp hw
      have hnul : nul ∉ s := notMem_assignVarchar (notMem_cstr _) hs
      have hv := congrArg Value.v (simpleValue_chars D.format hnul)
      exact ⟨s, y, hs, (congrArg _ hv).symm.trans hy, hsame⟩
    · rintro ⟨s, y, hs, hy, hsame⟩
      have hnul : nul ∉ s := notMem_assignVarchar (notMem_cstr _) hs
      have hv := congrArg Value.v (simpleValue_chars D.format hnul)
      exact ⟨_, _, y, hsent, (hassign _).mpr ⟨s, hs, rfl⟩, (congrArg _ hv).trans hy, hsame⟩
  | blob =>
    change Buffer UInt8 size at x
    have hsent : mysqlSent ⟨.blob, false, .blob (some x.1)⟩ = some (.blob x.1) := by
      show some (SqlValue.blob (x.1.take x.1.length)) = _
      rw [List.take_length]
    show _ ↔ size ≤ 65535
    constructor
    · rintro ⟨v, w, y, hv, hw, -⟩
      obtain rfl := Option.some.inj (hsent.symm.trans hv)
      change (if x.1.length ≤ 65535 then some (SqlValue.blob x.1) else none) = some w at hw
      split_ifs at hw with hle
      rwa [x.2] at hle
    · intro hle
      have hassign : MysqlType.blob.assign D.encoding (.blob x.1) = some (.blob x.1) :=
        if_pos (x.2.le.trans hle)
      refine ⟨_, _, _, hsent, hassign, mysql_set_blob D.format x.1, ?_⟩
      exact (copyBlob_all x _).symm

/-! ## Records -/

/-- **Records that `corm_create` sends to MySQL and `corm_find_all` reads back** are the same exactly
when each member has room in its column: the records of an empty table without a soft delete whose
constraints accept them, in the columns that the migration declares. -/
theorem mysql_trip_iff (hm : validateModel m = .ok) (hsoft : softDeleteField m = none)
    (hu : Unhooked m) (hne : insertFields m ≠ [])
    (hexact : ∀ f ∈ m.fields, f.type ≠ .float ∧ f.type ≠ .double)
    (hD : (mysqlTyped D).Migrated MysqlType.ofName m)
    (hr : ∀ r ∈ records, ∀ f ∈ insertFields m, Terminated f.size f.type (r f))
    (hs : s.db m.table = []) (hacc : Accepted (mysqlTyped D) accepts m s records) :
    TypedTrip (mysqlTyped D) accepts m s records ↔
      ∀ r ∈ records, ∀ f ∈ insertFields m, MysqlFits D.encoding f.size f.type (r f) := by
  refine migrated_trip_iff (validated_of_ok hm) hsoft hu hne hD
    (fun f hf ha ty hty rows c => ?_) (fun r hrm f hf ty hty => ?_) hs hacc
  · -- an AUTO_INCREMENT column is an integer
    have hname : MysqlType.ofName (declared .mysql f) = some (f.type.mysqlType f.size) := by
      rw [declared, ha]
      exact ofName_mysqlTypeName f.type f.size
    obtain rfl := Option.some.inj (hname.symm.trans hty)
    have hdecode := simpleValue_int D.format (D.autoIncrement m.table rows c)
    rcases hD.keys f hf ha with htype | htype <;>
      exact ⟨_, by rw [htype]; exact congrArg Value.v hdecode⟩
  · obtain ⟨hfloat, hdouble⟩ := hexact f (List.mem_of_mem_filter hf)
    obtain rfl := Option.some.inj ((ofName_mysqlTypeName f.type f.size).symm.trans hty)
    exact mysql_passes_iff hfloat hdouble (hr r hrm f hf)

/-! ## A table of badges -/

/-- The number of a badge. -/
def badgeId : Field := ⟨some "id".toList, .int64, 8, 3⟩

/-- The name on it. -/
def badgeName : Field := ⟨some "holder".toList, .string, 32, 0⟩

/-- Whether it opens a door. -/
def badgeValid : Field := ⟨some "valid".toList, .bool, 1, 0⟩

/-- The picture. -/
def badgePhoto : Field := ⟨some "photo".toList, .blob, 60000, 0⟩

/-- Badges, which the server numbers. -/
def badgeModel : Model where
  tableName := some "badges".toList
  structSize := 60048
  fields := [badgeId, badgeName, badgeValid, badgePhoto]
  primaryKey := some badgeId
  primaryKey_mem := by simp
  beforeCreate := none
  afterCreate := none
  beforeUpdate := none
  afterUpdate := none
  beforeDelete := none
  afterDelete := none
  afterFind := none

/-- A server that numbers the badges. -/
def badgeDb : MysqlDb where
  format := ⟨fun _ => [], fun _ => 0, true⟩
  encoding := singleByte
  engine := ⟨.null, fun _ _ => none⟩
  columns _ := [(badgeId.nm, .bigint), (badgeName.nm, .varchar 32), (badgeValid.nm, .tinyint),
    (badgePhoto.nm, .blob)]
  autoIncrement _ rows _ := Int64.ofNat (rows.length + 1)
  lastInsertId s := (s.db badgeModel.table).length
  rowsAffected _ := 1

theorem badge_forall {p : Field → Prop} : (∀ f ∈ badgeModel.fields, p f) ↔
    p badgeId ∧ p badgeName ∧ p badgeValid ∧ p badgePhoto := by
  simp [badgeModel]

theorem badge_terminated : ∀ r ∈ [zeroRecord], ∀ f ∈ insertFields badgeModel,
    Terminated f.size f.type (r f) := by
  intro r hr f hf
  obtain rfl := List.mem_singleton.mp hr
  have hid : Terminated badgeId.size badgeId.type (zeroRecord badgeId) := trivial
  have hname : Terminated badgeName.size badgeName.type (zeroRecord badgeName) :=
    List.mem_replicate.mpr ⟨by decide, rfl⟩
  have hvalid : Terminated badgeValid.size badgeValid.type (zeroRecord badgeValid) := trivial
  have hphoto : Terminated badgePhoto.size badgePhoto.type (zeroRecord badgePhoto) := trivial
  exact (badge_forall (p := fun f => Terminated f.size f.type (zeroRecord f))).mpr
    ⟨hid, hname, hvalid, hphoto⟩ f (List.mem_of_mem_filter hf)

end Corm
