import Corm.Backend.PostgresParam
import Corm.Backend.SqliteRecords

/-!
# The parameters of a record

`corm_create` binds the members of a record, and each backend has its own switch over their types.
MySQL and PostgreSQL take the length of a text without a look at its pointer, SQLite and PostgreSQL
keep the length of a blob in an `int`, and what is too long for SQLite is NULL there.

* `mysqlBindParam`: one parameter of `mysql_bind_params`;
* `sqliteSent`, `mysqlSent`, `pgSent`: the SQL value that a database gets from a parameter;
* `Transmit`: the three databases get the members of a record, and no null pointer is read;
* **`params_transmit_iff`**: the records that they all get.
-/

namespace Corm

/-! ## MySQL -/

/-- A `MYSQL_BIND`, by its `buffer_type`: the buffer, and `buffer_length` where it has one. -/
inductive MysqlBind
  | null
  | longlong (n : Int64)
  | double (bits : UInt64)
  | string (s : Text) (length : ℕ)
  | tiny (v : Bool)
  | blob (data : Option (List UInt8)) (length : ℕ)
  deriving DecidableEq

/-- One parameter of `mysql_bind_params`; `none` when it reads a member of the union that was not
written, or takes the length of a null pointer. -/
def mysqlBindParam (val : Value) : Option MysqlBind :=
  if val.isNull then some .null
  else match val.type with
    | .int | .int64 => val.v.readI.map .longlong
    | .float | .double => val.v.readF.map .double
    | .string | .text => val.v.readS.bind fun s => s.map fun s => .string s s.length
    | .bool => val.v.readB.map .tiny
    | .blob => val.v.readBlob.map fun data => .blob data (data.elim 0 List.length)

/-! ## What the databases get -/

/-- A value of SQL. -/
inductive SqlValue
  | null
  | integer (n : ℤ)
  | boolean (v : Bool)
  | double (bits : UInt64)
  | text (s : Text)
  | blob (data : List UInt8)
  deriving DecidableEq

/-- What SQLite gets; its booleans are the integers 0 and 1. -/
def sqliteSent (L : Sqlite) (val : Value) : Option SqlValue :=
  (bindParam L val).map fun
    | .null => .null
    | .integer n => if val.type = .bool then .boolean (decide (n ≠ 0)) else .integer n.toInt
    | .float bits => .double bits
    | .text s => .text s
    | .blob data => .blob data

/-- What MySQL gets; a string and a blob are as long as `buffer_length` says. -/
def mysqlSent (val : Value) : Option SqlValue :=
  (mysqlBindParam val).map fun
    | .null => .null
    | .longlong n => .integer n.toInt
    | .double bits => .double bits
    | .string s length => .text (s.take length)
    | .tiny v => .boolean v
    | .blob data length => .blob ((data.getD []).take length)

/-- What PostgreSQL gets of a C string for a column of a type; how it reads a double is left out. -/
def pgReadText (type : FieldType) (s : Text) : Option SqlValue :=
  match type with
  | .int | .int64 => (readDecimal s).map .integer
  | .bool => if s = ['t'] then some (.boolean true)
    else if s = ['f'] then some (.boolean false) else none
  | .string | .text => some (.text s)
  | .float | .double | .blob => none

/-- What PostgreSQL reads from a parameter; there is no value of a negative length. -/
def pgRead (type : FieldType) (p : PgParam) : Option SqlValue :=
  match p.value with
  | none => some .null
  | some (.chars s) => if p.format = 0 then pgReadText type s else none
  | some (.bytes data) =>
    if p.format = 1 ∧ 0 ≤ p.length then some (.blob (data.take p.length.toNat)) else none

/-- What PostgreSQL gets. -/
def pgSent (formatG : UInt64 → Text) (val : Value) : Option SqlValue :=
  (pgExecParam formatG val).bind (pgRead val.type)

/-! ## Records -/

/-- The SQL value of a member. -/
def memberSql (size : ℕ) : (t : FieldType) → Member size t → SqlValue
  | .int, (n : Int32) => .integer n.toInt64.toInt
  | .int64, (n : Int64) => .integer n.toInt
  | .float, (bits : UInt32) => .double (Float32.ofBits bits).toFloat.toBits
  | .double, bits => .double bits
  | .string, (buf : Buffer Char size) => .text (cstr buf.1)
  | .text, (some s : Option Text) => .text s
  | .text, (none : Option Text) => .null
  | .bool, v => .boolean v
  | .blob, (buf : Buffer UInt8 size) => .blob buf.1

/-- A text that is not NULL; and no text or blob is above the limit of SQLite. -/
def Sendable (limit size : ℕ) : (t : FieldType) → Member size t → Prop
  | .string, (buf : Buffer Char size) => (cstr buf.1).length ≤ limit
  | .text, (p : Option Text) => ∃ s, p = some s ∧ s.length ≤ limit
  | .blob, _ => size ≤ limit
  | _, _ => True

/-- The parameters of `corm_create`. -/
def createParams (bt : BackendType) (m : Model) (r : Record) : List Value :=
  (bindRecord (queryOp (queryNew bt m) .insert) (some r)).params

theorem createParams_eq (bt : BackendType) (m : Model) (r : Record) :
    createParams bt m r = (insertFields m).map (fieldGetValue r) := by
  have hbind : bindRecord (queryOp (queryNew bt m) .insert) (some r) =
      { queryOp (queryNew bt m) .insert with
        params := (insertFields m).map (fieldGetValue r) } := foldl_queryBind _ _ _
  rw [createParams, hbind]

/-- The three databases get the members of the record. -/
structure Transmit (L : Sqlite) (formatG : UInt64 → Text) (m : Model) (r : Record) : Prop where
  sqlite : (createParams .sqlite m r).map (sqliteSent L) =
    (insertFields m).map fun f => some (memberSql f.size f.type (r f))
  mysql : (createParams .mysql m r).map mysqlSent =
    (insertFields m).map fun f => some (memberSql f.size f.type (r f))
  postgres : (createParams .postgres m r).map (pgSent formatG) =
    (insertFields m).map fun f => some (memberSql f.size f.type (r f))

/-! ## One member -/

section Member

variable (L : Sqlite) (formatG : UInt64 → Text)

theorem pgRead_bytes (type : FieldType) (data : List UInt8) (length : ℤ) :
    pgRead type ⟨some (.bytes data), length, 1⟩ =
      if 0 ≤ length then some (.blob (data.take length.toNat)) else none := by
  simp only [pgRead, true_and]

theorem pgSent_blob (data : List UInt8) :
    pgSent formatG ⟨.blob, false, .blob (some data)⟩ =
      if 0 ≤ toCInt data.length then some (.blob (data.take (toCInt data.length).toNat))
      else none := by
  have hparam : pgExecParam formatG ⟨.blob, false, .blob (some data)⟩ = some (pgBinary data) := rfl
  rw [pgSent, hparam, Option.bind_some, pgBinary, pgRead_bytes]

theorem sqliteSent_text {t : FieldType} (ht : t = .string ∨ t = .text) (s : Text) :
    sqliteSent L ⟨t, false, .s (some s)⟩ = some (.text s) ↔ s.length ≤ L.limit := by
  have hsent : sqliteSent L ⟨t, false, .s (some s)⟩ =
      some (if s.length ≤ L.limit then .text s else .null) := by
    rcases ht with rfl | rfl
    all_goals
      show Option.map _ (some (bindText L s)) = _
      unfold bindText
      split_ifs <;> rfl
  rw [hsent]
  split_ifs with hle
  · exact iff_of_true rfl hle
  · exact iff_of_false nofun hle

theorem sqliteSent_blob {data : List UInt8} (hlow : data.length % 2 ^ 32 < 2 ^ 31) :
    sqliteSent L ⟨.blob, false, .blob (some data)⟩ =
      some (if data.length % 2 ^ 32 ≤ L.limit then .blob (data.take (data.length % 2 ^ 32))
        else .null) := by
  show Option.map _ (some (bindBlob L data)) = _
  rw [bindBlob_eq hlow]
  by_cases hle : data.length % 2 ^ 32 ≤ L.limit
  · rw [if_pos hle, if_pos hle]
    rfl
  · rw [if_neg hle, if_neg hle]
    rfl

theorem blob_sent_iff {size : ℕ} (x : Buffer UInt8 size) :
    (sqliteSent L ⟨.blob, false, .blob (some x.1)⟩ = some (.blob x.1) ∧
      mysqlSent ⟨.blob, false, .blob (some x.1)⟩ = some (.blob x.1) ∧
      pgSent formatG ⟨.blob, false, .blob (some x.1)⟩ = some (.blob x.1)) ↔ size ≤ L.limit := by
  have hmysql : mysqlSent ⟨.blob, false, .blob (some x.1)⟩ = some (.blob x.1) := by
    show some (SqlValue.blob (x.1.take x.1.length)) = _
    rw [List.take_length]
  rw [pgSent_blob]
  constructor
  · rintro ⟨hsqlite, -, h⟩
    split_ifs at h with hpos
    have hlow := toCInt_nonneg_iff.mp hpos
    rw [toCInt_toNat hlow, x.2] at h
    have htake : x.1.take (size % 2 ^ 32) = x.1 := SqlValue.blob.inj (Option.some.inj h)
    have hsize : size % 2 ^ 32 = size := by
      have hlen := congrArg List.length htake
      rw [List.length_take, x.2] at hlen
      omega
    rw [sqliteSent_blob L hlow, x.2, hsize] at hsqlite
    split_ifs at hsqlite with hle
    · exact hle
    · cases hsqlite
  · intro h
    have hlt := L.limit_lt
    have hmod : x.1.length % 2 ^ 32 = size := by
      rw [x.2]
      omega
    have hlow : x.1.length % 2 ^ 32 < 2 ^ 31 := hmod.trans_lt (h.trans_lt hlt)
    have hall : x.1.take (x.1.length % 2 ^ 32) = x.1 := by
      rw [hmod]
      exact List.take_of_length_le x.2.le
    refine ⟨?_, hmysql, ?_⟩
    · rw [sqliteSent_blob L hlow, if_pos (hmod.trans_le h), hall]
    · rw [if_pos (toCInt_nonneg_iff.mpr hlow), toCInt_toNat hlow, hall]

/-- **A member that the three databases get.** -/
theorem member_sent_iff {f : Field} (hfloat : f.type ≠ .float) (hdouble : f.type ≠ .double)
    (r : Record) :
    (sqliteSent L (fieldGetValue r f) = some (memberSql f.size f.type (r f)) ∧
      mysqlSent (fieldGetValue r f) = some (memberSql f.size f.type (r f)) ∧
      pgSent formatG (fieldGetValue r f) = some (memberSql f.size f.type (r f))) ↔
      Sendable L.limit f.size f.type (r f) := by
  unfold fieldGetValue
  generalize r f = x
  obtain ⟨name, type, size, flags⟩ := f
  have hint (n : Int64) (t : FieldType) (ht : t = .int ∨ t = .int64) :
      pgSent formatG ⟨t, false, .i n⟩ = some (.integer n.toInt) := by
    have hread : (readDecimal (snprintf 32 (toString n.toInt).toList)).map SqlValue.integer =
        some (.integer n.toInt) := by
      rw [snprintf_int, readDecimal_toString]
      rfl
    rcases ht with rfl | rfl <;> exact hread
  cases type with
  | float => exact absurd rfl hfloat
  | double => exact absurd rfl hdouble
  | int => exact iff_of_true ⟨rfl, rfl, hint _ _ (Or.inl rfl)⟩ trivial
  | int64 => exact iff_of_true ⟨rfl, rfl, hint _ _ (Or.inr rfl)⟩ trivial
  | bool =>
    change Bool at x
    cases x <;> exact iff_of_true ⟨rfl, rfl, rfl⟩ trivial
  | string =>
    change Buffer Char size at x
    refine Iff.trans (and_iff_left ⟨?_, rfl⟩) (sqliteSent_text L (Or.inl rfl) (cstr x.1))
    show some (SqlValue.text ((cstr x.1).take (cstr x.1).length)) = _
    rw [List.take_length]
    rfl
  | text =>
    change Option Text at x
    cases x with
    | none => exact iff_of_false (fun h => nomatch h.2.1) (by simp [Sendable])
    | some s =>
      have hmysql : mysqlSent ⟨.text, false, .s (some s)⟩ = some (.text s) := by
        show some (SqlValue.text (s.take s.length)) = _
        rw [List.take_length]
      refine Iff.trans (and_iff_left ⟨hmysql, rfl⟩)
        ((sqliteSent_text L (Or.inr rfl) s).trans ?_)
      show _ ↔ ∃ s', some s = some s' ∧ s'.length ≤ L.limit
      simp
  | blob => exact blob_sent_iff L formatG x

/-- **The records that all three databases get**: no text member is NULL, and no text and no blob is
above the limit of SQLite. -/
theorem params_transmit_iff {m : Model}
    (hm : ∀ f ∈ m.fields, f.type ≠ .float ∧ f.type ≠ .double) (r : Record) :
    Transmit L formatG m r ↔ ∀ f ∈ insertFields m, Sendable L.limit f.size f.type (r f) := by
  have hsplit : Transmit L formatG m r ↔ ∀ f ∈ insertFields m,
      sqliteSent L (fieldGetValue r f) = some (memberSql f.size f.type (r f)) ∧
      mysqlSent (fieldGetValue r f) = some (memberSql f.size f.type (r f)) ∧
      pgSent formatG (fieldGetValue r f) = some (memberSql f.size f.type (r f)) := by
    constructor
    · rintro ⟨hsqlite, hmysql, hpg⟩ f hf
      rw [createParams_eq, List.map_map, List.map_inj_left] at hsqlite hmysql hpg
      exact ⟨hsqlite f hf, hmysql f hf, hpg f hf⟩
    · intro h
      constructor <;> rw [createParams_eq, List.map_map, List.map_inj_left]
      · exact fun f hf => (h f hf).1
      · exact fun f hf => (h f hf).2.1
      · exact fun f hf => (h f hf).2.2
  rw [hsplit]
  refine forall₂_congr fun f hf => ?_
  obtain ⟨hfloat, hdouble⟩ := hm f (List.mem_of_mem_filter hf)
  exact member_sent_iff L formatG hfloat hdouble r

end Member

/-! ## A note without a body -/

/-- A text. -/
def noteBody : Field := ⟨some "body".toList, .text, 8, 0⟩

/-- A model with the one field. -/
def noteModel : Model where
  tableName := some "notes".toList
  structSize := 8
  fields := [noteBody]
  primaryKey := none
  primaryKey_mem := nofun
  beforeCreate := none
  afterCreate := none
  beforeUpdate := none
  afterUpdate := none
  beforeDelete := none
  afterDelete := none
  afterFind := none

theorem noteModel_exact : ∀ f ∈ noteModel.fields, f.type ≠ .float ∧ f.type ≠ .double := by
  decide

/-- NULL for SQLite; MySQL and PostgreSQL take the length of the null pointer. -/
theorem note_not_transmitted :
    validateModel noteModel = .ok ∧
      (createParams .sqlite noteModel zeroRecord).map (sqliteSent plainSqlite) = [some .null] ∧
      (createParams .mysql noteModel zeroRecord).map mysqlBindParam = [none] ∧
      (createParams .postgres noteModel zeroRecord).map (pgExecParam fun _ => []) = [none] ∧
      ¬ Transmit plainSqlite (fun _ => []) noteModel zeroRecord := by
  refine ⟨by decide +kernel, rfl, rfl, rfl, fun h => ?_⟩
  have hmysql := h.mysql
  have hne : [(none : Option SqlValue)] ≠ [some .null] := by decide
  exact hne hmysql

theorem params_transmit_iff_note :
    Transmit plainSqlite (fun _ => []) noteModel zeroRecord ↔
      ∀ f ∈ insertFields noteModel, Sendable plainSqlite.limit f.size f.type (zeroRecord f) :=
  params_transmit_iff plainSqlite (fun _ => []) noteModel_exact zeroRecord

end Corm
