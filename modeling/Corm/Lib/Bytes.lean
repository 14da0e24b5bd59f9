import Mathlib.Data.List.Basic
import Mathlib.Data.Nat.Digits.Defs

/-!
# Bytes of a number

* `toLE`: the bytes of a number, the least significant first;
* `ofLE`, `ofBE`: the number that bytes stand for, the least or the most significant first;
* **`ofBE_toLE_iff`**: when a number survives being read in the other order.
-/

namespace Corm.Bytes

/-- The `w` bytes of a number, the least significant first. -/
def toLE (w n : ℕ) : List UInt8 := (List.range w).map fun i => UInt8.ofNat (n / 256 ^ i)

/-- The number with these bytes, the least significant first. -/
def ofLE (bs : List UInt8) : ℕ := Nat.ofDigits 256 (bs.map UInt8.toNat)

/-- The number with these bytes, the most significant first. -/
def ofBE (bs : List UInt8) : ℕ := ofLE bs.reverse

@[simp] theorem length_toLE (w n : ℕ) : (toLE w n).length = w := by
  simp [toLE]

theorem ofLE_toLE (w n : ℕ) : ofLE (toLE w n) = n % 256 ^ w := by
  induction w with
  | zero => rw [pow_zero, Nat.mod_one]; rfl
  | succ w ih =>
    have hlast : toLE (w + 1) n = toLE w n ++ [UInt8.ofNat (n / 256 ^ w)] := by
      rw [toLE, List.range_succ, List.map_append]
      rfl
    have hbyte : (UInt8.ofNat (n / 256 ^ w)).toNat = n / 256 ^ w % 256 := UInt8.toNat_ofNat'
    have hlen : ((toLE w n).map UInt8.toNat).length = w := by
      rw [List.length_map, length_toLE]
    rw [hlast, ofLE, List.map_append, Nat.ofDigits_append, hlen, List.map_singleton,
      Nat.ofDigits_singleton, hbyte, Nat.mod_pow_succ]
    exact congrArg (· + _) ih

theorem ofLE_lt (bs : List UInt8) : ofLE bs < 256 ^ bs.length := by
  have h : ofLE bs < 256 ^ (bs.map UInt8.toNat).length :=
    Nat.ofDigits_lt_base_pow_length (by decide) fun d hd => by
      obtain ⟨b, -, rfl⟩ := List.mem_map.mp hd
      exact b.toNat_lt
  rwa [List.length_map] at h

theorem ofLE_inj {a b : List UInt8} (hlen : a.length = b.length) : ofLE a = ofLE b ↔ a = b := by
  refine ⟨fun h => ?_, congrArg ofLE⟩
  have hdigit (l : List UInt8) : ∀ d ∈ l.map UInt8.toNat, d < 256 := by
    intro d hd
    obtain ⟨byte, -, rfl⟩ := List.mem_map.mp hd
    exact byte.toNat_lt
  have hmap : a.map UInt8.toNat = b.map UInt8.toNat :=
    Nat.ofDigits_inj_of_len_eq (by decide) (by simpa using hlen) (hdigit a) (hdigit b) h
  exact List.map_injective_iff.mpr (fun _ _ => UInt8.toNat_inj.mp) hmap

/-- **A number that survives the other order**: its bytes are a palindrome. -/
theorem ofBE_toLE_iff {w n : ℕ} (h : n < 256 ^ w) :
    ofBE (toLE w n) = n ↔ (toLE w n).reverse = toLE w n := by
  have hn : ofLE (toLE w n) = n := by rw [ofLE_toLE, Nat.mod_eq_of_lt h]
  have hlen : (toLE w n).reverse.length = (toLE w n).length := List.length_reverse
  rw [← ofLE_inj hlen, hn]
  rfl

end Corm.Bytes
