import Corm.Backend.SqliteValue
import Corm.Lib.Bytes
import Corm.Reading.Basic

/-!
# Integers as PostgreSQL parameters

`pg_exec` sends an integer as text, `pg_query` sends the bytes that it has in memory as binary. A
binary integer is read in network order, and the host is little-endian.

* `pgExecParam`, `pgQueryParam`: one parameter, as the two functions pass it to `PQexecParams`;
* `pgInt`: the integer that the server reads from it;
* `pgInt_text`: the text is right for every integer;
* **`pg_params_agree_iff`**: the integers for which the two mean the same.
-/

namespace Corm

open Bytes (toLE ofBE)

/-! ## The parameters -/

/-- What `paramValues[i]` points to: a C string, or bytes. -/
inductive PgData
  | chars (s : Text)
  | bytes (data : List UInt8)
  deriving DecidableEq

/-- A parameter of `PQexecParams`: a null pointer is NULL, format 0 is text and 1 is binary. -/
structure PgParam where
  value : Option PgData
  length : ℤ
  format : ℤ
  deriving DecidableEq

/-- A C string in text format. -/
def pgText (s : Text) : PgParam := ⟨some (.chars s), toCInt s.length, 0⟩

/-- Bytes in binary format. -/
def pgBinary (data : List UInt8) : PgParam := ⟨some (.bytes data), toCInt data.length, 1⟩

/-- The bytes of a 64-bit member of the union in memory. -/
def memoryBytes (bits : UInt64) : List UInt8 := toLE 8 bits.toNat

/-- The switch over the types, which is the same in both functions but for numbers; `none` when it
reads a member of the union that was not written, or takes the length of a null pointer. -/
def pgParam (int : Int64 → PgParam) (double : UInt64 → PgParam) (val : Value) : Option PgParam :=
  if val.isNull then some ⟨none, 0, 0⟩
  else match val.type with
    | .int | .int64 => val.v.readI.map int
    | .float | .double => val.v.readF.map double
    | .string | .text => val.v.readS.bind fun s => s.map pgText
    | .bool => val.v.readB.map fun b => pgText (if b then ['t'] else ['f'])
    | .blob => val.v.readBlob.map fun
      | some data => pgBinary data
      | none => ⟨none, 0, 1⟩

/-- A parameter of `pg_exec`; `formatG` is what `"%.15g"` makes of a double. -/
def pgExecParam (formatG : UInt64 → Text) : Value → Option PgParam :=
  pgParam (fun n => pgText (snprintf 32 (toString n.toInt).toList))
    fun bits => pgText (snprintf 64 (formatG bits))

/-- A parameter of `pg_query`. -/
def pgQueryParam : Value → Option PgParam :=
  pgParam (fun n => pgBinary (memoryBytes n.toUInt64)) fun bits => pgBinary (memoryBytes bits)

/-! ## The server -/

/-- A decimal text, perhaps with a sign. -/
def readDecimal : Text → Option ℤ
  | '-' :: ds => (Sql.digits ds).map fun n => -(n : ℤ)
  | ds => (Sql.digits ds).map fun n => (n : ℤ)

/-- The integer that the server reads: decimal text, or the 8 bytes of an `int8` in network order. -/
def pgInt (p : PgParam) : Option ℤ :=
  match p.value with
  | some (.chars s) => if p.format = 0 then readDecimal s else none
  | some (.bytes data) =>
    if p.format = 1 ∧ p.length = 8 ∧ data.length = 8 then
      some (UInt64.ofNat (ofBE data)).toInt64.toInt
    else none
  | none => none

/-! ## Integers -/

theorem readDecimal_toString (z : ℤ) : readDecimal (toString z).toList = some z := by
  cases z with
  | ofNat n =>
    rw [toList_ofNat]
    have hhead : ∀ ds, Nat.toDigits 10 n ≠ '-' :: ds := by
      intro ds h
      have hd : '-'.isDigit = true :=
        Nat.isDigit_of_mem_toDigits (b := 10) (n := n) (by decide) (by decide) (by simp [h])
      cases hd
    rw [readDecimal.eq_2 _ fun ds h => hhead ds h, Sql.digits_toDigits]
    rfl
  | negSucc n =>
    rw [toList_negSucc, readDecimal, Sql.digits_toDigits]
    rfl

theorem length_toString_lt (n : Int64) : (toString n.toInt).toList.length ≤ 31 := by
  have hlo : -2 ^ 63 ≤ n.toInt := n.le_toInt
  have hhi : n.toInt < 2 ^ 63 := n.toInt_lt
  have hdigits : ∀ k < 10 ^ 30, (Nat.toDigits 10 k).length ≤ 30 := fun k hk =>
    (Nat.length_toDigits_le_iff (by decide) (by decide)).mpr hk
  cases hz : n.toInt with
  | ofNat k =>
    rw [hz] at hhi
    rw [toList_ofNat]
    exact (hdigits k (by simp at hhi; omega)).trans (by decide)
  | negSucc k =>
    rw [hz] at hlo
    rw [toList_negSucc, List.length_cons]
    have := hdigits (k + 1) (by omega)
    omega

theorem snprintf_int (n : Int64) :
    snprintf 32 (toString n.toInt).toList = (toString n.toInt).toList :=
  List.take_of_length_le (length_toString_lt n)

theorem pgInt_text (n : Int64) :
    pgInt (pgText (snprintf 32 (toString n.toInt).toList)) = some n.toInt := by
  rw [snprintf_int]
  exact readDecimal_toString n.toInt

theorem length_memoryBytes (bits : UInt64) : (memoryBytes bits).length = 8 := Bytes.length_toLE ..

/-- Eight bytes that stand for a number below `2 ^ 64` stand for one `int64_t`. -/
theorem toInt64_ofNat_iff {k : ℕ} (hk : k < 2 ^ 64) (n : Int64) :
    (UInt64.ofNat k).toInt64 = n ↔ k = n.toUInt64.toNat := by
  have hback : n.toUInt64.toInt64 = n := rfl
  constructor
  · rintro rfl
    exact (UInt64.toNat_ofNat_of_lt hk).symm
  · intro h
    rw [h, UInt64.ofNat_toNat, hback]

theorem pgInt_bytes {data : List UInt8} (h : data.length = 8) :
    pgInt (pgBinary data) = some (UInt64.ofNat (ofBE data)).toInt64.toInt := by
  have hcast : toCInt 8 = 8 := by decide +kernel
  simp only [pgInt, pgBinary, h, hcast, and_self, if_true]

theorem pgInt_binary (n : Int64) :
    pgInt (pgBinary (memoryBytes n.toUInt64)) = some n.toInt ↔
      (memoryBytes n.toUInt64).reverse = memoryBytes n.toUInt64 := by
  have hlen := length_memoryBytes n.toUInt64
  have hlt : ofBE (memoryBytes n.toUInt64) < 2 ^ 64 := by
    have hlt := Bytes.ofLE_lt (memoryBytes n.toUInt64).reverse
    rwa [List.length_reverse, hlen] at hlt
  rw [pgInt_bytes hlen, Option.some_inj, Int64.toInt_inj, toInt64_ofNat_iff hlt]
  exact Bytes.ofBE_toLE_iff n.toUInt64.toNat_lt

/-- The parameter that each function passes for a value denotes the integer to the server. -/
def BothDenote (formatG : UInt64 → Text) (val : Value) (z : ℤ) : Prop :=
  (pgExecParam formatG val).bind pgInt = some z ∧ (pgQueryParam val).bind pgInt = some z

instance (formatG : UInt64 → Text) (val : Value) (z : ℤ) : Decidable (BothDenote formatG val z) :=
  inferInstanceAs (Decidable (_ ∧ _))

theorem pgParam_int {int : Int64 → PgParam} {double : UInt64 → PgParam} {t : FieldType}
    (ht : t = .int ∨ t = .int64) (n : Int64) :
    pgParam int double ⟨t, false, .i n⟩ = some (int n) := by
  rcases ht with rfl | rfl <;> rfl

/-- **When `pg_exec` and `pg_query` mean the same integer**: when its eight bytes are the same in
both directions. -/
theorem pg_params_agree_iff (formatG : UInt64 → Text) {t : FieldType} (ht : t = .int ∨ t = .int64)
    (n : Int64) : BothDenote formatG ⟨t, false, .i n⟩ n.toInt ↔
      (memoryBytes n.toUInt64).reverse = memoryBytes n.toUInt64 := by
  rw [BothDenote, pgExecParam, pgQueryParam, pgParam_int ht, pgParam_int ht, Option.bind_some,
    Option.bind_some, pgInt_binary]
  exact and_iff_right (pgInt_text n)

/-- The number 1 is `2 ^ 56` to the server. -/
theorem pg_params_one :
    ¬ BothDenote (fun _ => []) ⟨.int64, false, .i 1⟩ 1 ∧
      (pgQueryParam ⟨.int64, false, .i 1⟩).bind pgInt = some (2 ^ 56) := by
  decide +kernel

theorem pg_params_agree_iff_one :
    BothDenote (fun _ => []) ⟨.int64, false, .i 1⟩ (1 : Int64).toInt ↔
      (memoryBytes (1 : Int64).toUInt64).reverse = memoryBytes (1 : Int64).toUInt64 :=
  pg_params_agree_iff (fun _ => []) (Or.inr rfl) 1

end Corm
