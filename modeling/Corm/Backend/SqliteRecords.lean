import Corm.Backend.SqliteValue
import Corm.Create
import Corm.Fetch

/-!
# Records through SQLite

The members of records that are inserted with `corm_create_one`, and read back.

* `SqliteDb`, `sqliteBackend`: a database, and the backend over it;
* `createAll`: records, inserted one by one;
* `memberCell`: the cell of a member; **`memberTrip_iff`**: when the member comes back.
-/

namespace Corm

open Sql (Row)

/-! ## The backend -/

/-- A SQLite database: its interface, how it evaluates predicates, the columns of its tables, the
integer it gives to a column that an INSERT leaves out, and its counters. -/
structure SqliteDb where
  lib : Sqlite
  engine : Sql.Engine Cell
  columns : Text → List Text
  rowId : Text → List (Row Cell) → Text → Int64
  lastInsertId : Store Cell → ℤ
  rowsAffected : Store Cell → ℤ

variable (db : SqliteDb)

/-- The database under the statements. -/
def SqliteDb.dbms : Dbms Cell where
  engine := db.engine
  bind := bindParam db.lib
  omitted t rows c := .integer (db.rowId t rows c)
  lastInsertId := db.lastInsertId
  rowsAffected := db.rowsAffected

/-- The result of a query that returns rows of a table. -/
def tableResult (t : Text) (rows : List (Row Cell)) : Result :=
  sqliteQuery db.lib (db.columns t).get (rows.map fun row i => row ((db.columns t).get i))

/-- The SQLite backend. -/
def sqliteBackend : Backend (Store Cell) Result where
  type := .sqlite
  exec := db.dbms.exec .sqlite
  query s sql params :=
    match db.dbms.read .sqlite sql params with
    | some (.select t cond) =>
      match db.engine.select s.db (.select t cond) with
      | some rows => (.ok, some (tableResult db t rows), s)
      | none => (.backend, none, s)
    | _ => (.backend, none, s)
  begin_ := (sqlBackend .sqlite db.dbms).begin_
  commit := (sqlBackend .sqlite db.dbms).commit
  rollback := (sqlBackend .sqlite db.dbms).rollback
  lastInsertId := db.lastInsertId
  rowsAffected := db.rowsAffected

/-- The case of ASCII letters makes no difference to a name of SQLite. -/
def foldCase (name : Text) : Text := name.map Char.toLower

/-- One `corm_create_one` for each record; `none` when one of them fails. -/
def createAll {σ ρ : Type} (b : Backend σ ρ) (s : σ) (m : Model) : List Record → Option σ
  | [] => some s
  | r :: rs =>
    match createOne b s m r with
    | ⟨.ok, _, _, _, s⟩ => createAll b s m rs
    | _ => none

/-! ## Members -/

/-- The cell of a member. -/
def memberCell (L : Sqlite) (size : ℕ) : (t : FieldType) → Member size t → Cell
  | .int, (n : Int32) => .integer n.toInt64
  | .int64, n => .integer n
  | .float, (bits : UInt32) => L.bindDouble (Float32.ofBits bits).toFloat.toBits
  | .double, bits => L.bindDouble bits
  | .string, (buf : Buffer Char size) => bindText L (cstr buf.1)
  | .text, (some s : Option Text) => bindText L s
  | .text, (none : Option Text) => .null
  | .bool, (v : Bool) => .integer (if v then 1 else 0)
  | .blob, (buf : Buffer UInt8 size) => bindBlob L buf.1

theorem bindParam_payload (L : Sqlite) {size : ℕ} {t : FieldType} (x : Member size t) :
    bindParam L ⟨t, false, memberPayload size t x⟩ = some (memberCell L size t x) := by
  cases t with
  | text =>
    change Option Text at x
    cases x <;> rfl
  | _ => rfl

/-- The field types that the round trip is about. -/
def Field.Storable (f : Field) : Prop :=
  match f.type with
  | .int | .int64 | .bool | .text => True
  | .string | .blob => 0 < f.size
  | .float | .double => False

/-- A member that is a C string, where it has to be one: NUL-terminated within its size, or up to
its NUL. -/
def Terminated (size : ℕ) : (t : FieldType) → Member size t → Prop
  | .string, (buf : Buffer Char size) => nul ∈ buf.1
  | .text, (p : Option Text) => ∀ s ∈ p, nul ∉ s
  | _, _ => True

/-- Equal members; strings up to their NUL. -/
def SameMember (size : ℕ) : (t : FieldType) → Member size t → Member size t → Prop
  | .string, (a : Buffer Char size), (b : Buffer Char size) => cstr a.1 = cstr b.1
  | _, a, b => a = b

/-- A blob whose length is an `int`, up to zero bytes past the length it is converted to. -/
def WholeBlob (size : ℕ) (buf : Buffer UInt8 size) : Prop :=
  size % 2 ^ 32 < 2 ^ 31 ∧ ∀ byte ∈ buf.1.drop (size % 2 ^ 32), byte = 0

/-- A member that is stored as it is: no text is above the limit, and neither is the length that
the one of a blob is converted to. -/
def Whole (limit size : ℕ) : (t : FieldType) → Member size t → Prop
  | .string, (buf : Buffer Char size) => (cstr buf.1).length ≤ limit
  | .text, (p : Option Text) => ∀ s ∈ p, s.length ≤ limit
  | .blob, (buf : Buffer UInt8 size) => size % 2 ^ 32 ≤ limit ∧ WholeBlob size buf
  | _, _ => True

/-- A member that comes back: one that is stored as it is, or a blob of zeros in place of which NULL
is stored. -/
def ComesBackAs (limit size : ℕ) : (t : FieldType) → Member size t → Prop
  | .blob, (buf : Buffer UInt8 size) =>
    if size % 2 ^ 32 ≤ limit then WholeBlob size buf
    else size % 2 ^ 32 < 2 ^ 31 ∧ ∀ byte ∈ buf.1, byte = 0
  | t, x => Whole limit size t x

theorem comesBackAs_blob {limit size : ℕ} (hle : size % 2 ^ 32 ≤ limit) (buf : Buffer UInt8 size) :
    ComesBackAs limit size .blob buf ↔ WholeBlob size buf := by
  show (if size % 2 ^ 32 ≤ limit then WholeBlob size buf
    else size % 2 ^ 32 < 2 ^ 31 ∧ ∀ byte ∈ buf.1, byte = 0) ↔ _
  rw [if_pos hle]

theorem Whole.comesBack {limit size : ℕ} {t : FieldType} {x : Member size t}
    (h : Whole limit size t x) : ComesBackAs limit size t x := by
  cases t with
  | blob => exact (comesBackAs_blob h.1 x).mpr h.2
  | _ => exact h

/-- The type that a column gets from the cells of a field. -/
def FieldType.column : FieldType → FieldType
  | .int | .int64 | .bool => .int64
  | .float | .double => .double
  | .string | .text => .text
  | .blob => .blob

theorem toCInt_nonneg_iff {n : ℕ} : 0 ≤ toCInt n ↔ n % 2 ^ 32 < 2 ^ 31 := by
  unfold toCInt
  rw [Int.bmod_def]
  split_ifs <;> omega

theorem toCInt_toNat {n : ℕ} (h : n % 2 ^ 32 < 2 ^ 31) : (toCInt n).toNat = n % 2 ^ 32 := by
  unfold toCInt
  rw [Int.bmod_def]
  split_ifs <;> omega

theorem bindBlob_eq {L : Sqlite} {data : List UInt8} (h : data.length % 2 ^ 32 < 2 ^ 31) :
    bindBlob L data = if data.length % 2 ^ 32 ≤ L.limit then
      .blob (data.take (data.length % 2 ^ 32)) else .null := by
  rw [bindBlob, if_pos (toCInt_nonneg_iff.mpr h), toCInt_toNat h]

theorem bindText_type (L : Sqlite) (s : List Char) : storageType (bindText L s) = .text := by
  unfold bindText
  split_ifs <;> rfl

theorem memberCell_blob {L : Sqlite} {size : ℕ} (hsize : size % 2 ^ 32 < 2 ^ 31)
    (x : Buffer UInt8 size) : memberCell L size .blob x =
      if size % 2 ^ 32 ≤ L.limit then .blob (x.1.take (size % 2 ^ 32)) else .null := by
  show bindBlob L x.1 = _
  rw [bindBlob_eq (x.2.symm ▸ hsize), x.2]

/-- The cells of a field give their column its type, where a text is what NULL is; of a blob above
the limit every cell is NULL. -/
theorem storageType_member {L : Sqlite} {f : Field} (hf : f.Storable)
    (hb : f.type = .blob → f.size % 2 ^ 32 ≤ L.limit) (x : Member f.size f.type) :
    storageType (memberCell L f.size f.type x) = f.type.column := by
  obtain ⟨name, type, size, flags⟩ := f
  cases type with
  | float => cases hf
  | double => cases hf
  | string => exact bindText_type L _
  | text =>
    change Option Text at x
    cases x with
    | none => rfl
    | some s => exact bindText_type L s
  | blob =>
    change Buffer UInt8 size at x
    have hle : size % 2 ^ 32 ≤ L.limit := hb rfl
    show storageType (memberCell L size .blob x) = .blob
    rw [memberCell_blob (hle.trans_lt L.limit_lt), if_pos hle]
    rfl
  | _ => rfl

theorem memberCell_above {L : Sqlite} {f : Field} (hf : f.type = .blob)
    (hlow : f.size % 2 ^ 32 < 2 ^ 31) (hbig : ¬ f.size % 2 ^ 32 ≤ L.limit)
    (x : Member f.size f.type) : memberCell L f.size f.type x = .null := by
  obtain ⟨name, type, size, flags⟩ := f
  obtain rfl : type = .blob := hf
  exact (memberCell_blob hlow x).trans (if_neg hbig)

theorem cstr_copyString {size : ℕ} {s : Text} (hs : nul ∉ s) (hlen : s.length < size)
    (old : Buffer Char size) : cstr (copyString size old s).1 = s := by
  have hpos : 0 < size := by omega
  rw [copyString, dif_pos hpos]
  show cstr (strncpy s (size - 1) ++ [nul]) = s
  rw [strncpy, List.take_of_length_le (by omega), List.append_assoc]
  have hall : ∀ c ∈ s, (c != nul) = true := by
    intro c hc
    have hne : c ≠ nul := by
      rintro rfl
      exact hs hc
    simpa using hne
  rw [cstr, List.takeWhile_append_of_pos hall]
  cases size - 1 - s.length with
  | zero => simp
  | succ n => simp [List.replicate_succ]

theorem cstr_length_lt {buf : List Char} (h : nul ∈ buf) : (cstr buf).length < buf.length := by
  have hne : cstr buf ≠ buf := fun he => cstr_eq_self.mp he h
  have hle : (cstr buf).length ≤ buf.length := (List.takeWhile_sublist _).length_le
  refine lt_of_le_of_ne hle fun he => hne ?_
  exact (List.takeWhile_sublist _).eq_of_length he

theorem notMem_cstr (buf : List Char) : nul ∉ cstr buf := by
  intro h
  have := List.mem_takeWhile_imp h
  simp at this

theorem bindText_eq_text {L : Sqlite} {s s' : List Char} (h : bindText L s = .text s') :
    s' = s := by
  unfold bindText at h
  split_ifs at h
  exact (Cell.text.inj h).symm

theorem notMem_memberCell {L : Sqlite} {f : Field} (hf : f.Storable)
    (hb : f.type = .blob → f.size % 2 ^ 32 < 2 ^ 31) {x : Member f.size f.type}
    (hx : Terminated f.size f.type x) {s : Text}
    (hs : memberCell L f.size f.type x = .text s) : nul ∉ s := by
  obtain ⟨name, type, size, flags⟩ := f
  cases type with
  | float => cases hf
  | double => cases hf
  | string =>
    rw [bindText_eq_text hs]
    exact notMem_cstr _
  | text =>
    change Option Text at x
    cases x with
    | none => cases hs
    | some s' =>
      rw [bindText_eq_text hs]
      exact hx s' rfl
  | blob =>
    change Buffer UInt8 size at x
    have hsize : size % 2 ^ 32 < 2 ^ 31 := hb rfl
    change memberCell L size .blob x = .text s at hs
    rw [memberCell_blob hsize] at hs
    split_ifs at hs
  | _ => cases hs

/-- The value that a member's cell has in its column; NULL is the same in every column. -/
theorem resultValue_member {L : Sqlite} {f : Field} (hf : f.Storable)
    (hb : f.type = .blob → f.size % 2 ^ 32 < 2 ^ 31) {x : Member f.size f.type}
    (hx : Terminated f.size f.type x) {t : FieldType}
    (ht : t = storageType (memberCell L f.size f.type x) ∨ memberCell L f.size f.type x = .null) :
    (resultValue L t (memberCell L f.size f.type x)).v =
      (memberCell L f.size f.type x).payload := by
  by_cases hc : memberCell L f.size f.type x = .null
  · rw [hc]
    rfl
  · rw [ht.resolve_right hc]
    exact resultValue_payload hc fun s hs => notMem_memberCell hf hb hx hs

theorem take_append_zeros_iff {l : List UInt8} {n : ℕ} :
    l = l.take n ++ List.replicate (l.length - n) 0 ↔ ∀ byte ∈ l.drop n, byte = 0 := by
  have hl : l = l.take n ++ l.drop n := (List.take_append_drop n l).symm
  have hlen : (l.drop n).length = l.length - n := List.length_drop
  constructor
  · intro h byte hbyte
    have hd : l.drop n = List.replicate (l.length - n) 0 := by
      have hcat : l.take n ++ l.drop n = l.take n ++ List.replicate (l.length - n) 0 := by
        rw [← h, ← hl]
      exact List.append_cancel_left hcat
    rw [hd] at hbyte
    exact List.eq_of_mem_replicate hbyte
  · intro h
    have hd : l.drop n = List.replicate (l.length - n) 0 :=
      List.eq_replicate_iff.mpr ⟨hlen, h⟩
    rw [← hd, ← hl]

/-- What comes back of a blob: the bytes that were bound, and zeros after them. -/
theorem memberSet_blob {L : Sqlite} {size : ℕ} (hle : size % 2 ^ 32 ≤ L.limit)
    (x : Buffer UInt8 size) : ∃ y : Buffer UInt8 size,
    memberSet size .blob (zeroMember size .blob) (memberCell L size .blob x).payload = some y ∧
      y.1 = x.1.take (size % 2 ^ 32) ++ List.replicate (size - size % 2 ^ 32) 0 := by
  rw [memberCell_blob (hle.trans_lt L.limit_lt), if_pos hle]
  have hlen : (x.1.take (size % 2 ^ 32)).length = size % 2 ^ 32 := by
    rw [List.length_take, x.2]
    omega
  by_cases hnil : x.1.take (size % 2 ^ 32) = []
  · have h0 : size % 2 ^ 32 = 0 := by
      rw [← hlen, hnil, List.length_nil]
    refine ⟨⟨List.replicate size 0, List.length_replicate⟩, ?_, ?_⟩
    · rw [Cell.payload, if_pos hnil]
      rfl
    · rw [hnil, h0]
      rfl
  · refine ⟨copyBlob size ⟨List.replicate size 0, List.length_replicate⟩
      (x.1.take (size % 2 ^ 32)), ?_, ?_⟩
    · rw [Cell.payload, if_neg hnil]
      rfl
    · rw [copyBlob, dif_pos (by omega)]
      show _ ++ (List.replicate size 0).drop _ = _
      rw [hlen, List.drop_replicate]

theorem blobTrip_iff {L : Sqlite} {size : ℕ} (hsize : size % 2 ^ 32 < 2 ^ 31)
    (x : Buffer UInt8 size) :
    (∃ y, memberSet size .blob (zeroMember size .blob) (memberCell L size .blob x).payload =
        some y ∧ x = y) ↔ ComesBackAs L.limit size .blob x := by
  show _ ↔ if size % 2 ^ 32 ≤ L.limit then WholeBlob size x else _
  split_ifs with hle
  · obtain ⟨y, hy, hval⟩ := memberSet_blob hle x
    rw [hy]
    have heq : x = y ↔ ∀ byte ∈ x.1.drop (size % 2 ^ 32), byte = 0 := by
      rw [Subtype.ext_iff, hval, ← take_append_zeros_iff, x.2]
    constructor
    · rintro ⟨z, hz, hxz⟩
      obtain rfl := Option.some.inj hz
      exact ⟨hsize, heq.mp hxz⟩
    · rintro ⟨-, h⟩
      exact ⟨y, rfl, heq.mpr h⟩
  · -- what comes back of NULL are the zeros that were there
    rw [memberCell_blob hsize, if_neg hle]
    have hzero : x = (⟨List.replicate size 0, List.length_replicate⟩ : Buffer UInt8 size) ↔
        ∀ byte ∈ x.1, byte = 0 := by
      rw [Subtype.ext_iff, List.eq_replicate_iff, and_iff_right x.2]
    constructor
    · rintro ⟨z, hz, hxz⟩
      obtain rfl := Option.some.inj hz
      exact ⟨hsize, hzero.mp hxz⟩
    · rintro ⟨-, h⟩
      exact ⟨_, rfl, hzero.mpr h⟩

theorem textTrip_iff (L : Sqlite) (s : Text) :
    (∃ y : Option Text, (bindText L s).payload.readS = some y ∧ some s = y) ↔
      s.length ≤ L.limit := by
  unfold bindText
  split_ifs with hle
  · exact iff_of_true ⟨some s, rfl, rfl⟩ hle
  · refine iff_of_false ?_ hle
    rintro ⟨y, hy, rfl⟩
    exact nomatch hy

theorem stringTrip_iff (L : Sqlite) {size : ℕ} {x : Buffer Char size} (hx : nul ∈ x.1) :
    (∃ y, memberSet size .string (zeroMember size .string) (bindText L (cstr x.1)).payload =
        some y ∧ SameMember size .string x y) ↔ (cstr x.1).length ≤ L.limit := by
  have hlt : (cstr x.1).length < size := by
    have hlt := cstr_length_lt hx
    rwa [x.2] at hlt
  unfold bindText
  split_ifs with hle
  · exact iff_of_true ⟨_, rfl, (cstr_copyString (notMem_cstr _) hlt _).symm⟩ hle
  · refine iff_of_false ?_ hle
    rintro ⟨y, hy, hsame⟩
    obtain rfl := Option.some.inj hy
    change cstr x.1 = cstr (List.replicate size nul) at hsame
    have hnil : cstr (List.replicate size nul) = [] := by
      cases size with
      | zero => rfl
      | succ n => simp [cstr, List.replicate_succ]
    rw [hsame, hnil] at hle
    exact hle (Nat.zero_le _)

/-- **A member that comes back** into zeroed memory. -/
theorem memberTrip_iff {L : Sqlite} {f : Field} (hf : f.Storable)
    (hb : f.type = .blob → f.size % 2 ^ 32 < 2 ^ 31) {x : Member f.size f.type}
    (hx : Terminated f.size f.type x) {t : FieldType}
    (ht : t = storageType (memberCell L f.size f.type x) ∨ memberCell L f.size f.type x = .null) :
    (∃ y, memberSet f.size f.type (zeroMember f.size f.type)
        (resultValue L t (memberCell L f.size f.type x)).v = some y ∧
      SameMember f.size f.type x y) ↔ ComesBackAs L.limit f.size f.type x := by
  rw [resultValue_member hf hb hx ht]
  clear ht
  obtain ⟨name, type, size, flags⟩ := f
  cases type with
  | float => cases hf
  | double => cases hf
  | int =>
    change Int32 at x
    exact iff_of_true ⟨x, congrArg some (Int32.toInt32_toInt64 x), rfl⟩ trivial
  | int64 => exact iff_of_true ⟨x, rfl, rfl⟩ trivial
  | bool =>
    change Bool at x
    have hf : Payload.readB (.i 0) = some false := by decide
    have ht : Payload.readB (.i 1) = some true := by decide
    refine iff_of_true ⟨x, ?_, rfl⟩ trivial
    cases x
    · exact hf
    · exact ht
  | text =>
    change Option Text at x
    cases x with
    | none => exact iff_of_true ⟨none, rfl, rfl⟩ fun s hs => nomatch hs
    | some s =>
      refine (textTrip_iff L s).trans ?_
      show _ ↔ ∀ s' ∈ some s, s'.length ≤ L.limit
      simp
  | string => exact stringTrip_iff L hx
  | blob => exact blobTrip_iff (hb rfl) x

end Corm
