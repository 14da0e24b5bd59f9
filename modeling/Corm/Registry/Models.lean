import Corm.Lib.Chained
import Corm.Registry.Validate
import Mathlib.Data.List.Induction

/-!
# The registry of models

`corm_register_model` and `corm_find_model`, over the hash table of `internal/hash.h`. A model is
a pointer of a type `P`, and a call comes with what the pointer leads to at that time.

* `hashStr`, `bucketOf`: `corm_hash_str`, and the bucket of a key among 32;
* `hashInsert`, `registerModel`, `findModel`: the calls, with allocations that may fail;
* `Registration.registers`: the model that a call registers under a name; `registers_eq_some_iff`:
  the well-formed ones, when there is memory;
* **`registry_last_writer`**: the last one is found, and every entry is in its bucket.
-/

namespace Corm

open Chained (Table)

/-! ## The hash table -/

/-- One round of the loop of `corm_hash_str`. -/
def hashStep (h : UInt64) (c : Char) : UInt64 := ((h <<< 5) + h) + c.toUInt8.toUInt64

/-- `corm_hash_str`. -/
def hashStr (key : Text) (bucketCount : UInt64) : UInt64 := key.foldl hashStep 5381 % bucketCount

/-- The bucket of a key in a table with 32 buckets. -/
def bucketOf (key : Text) : Fin 32 :=
  ⟨(hashStr key 32).toNat, by
    rw [hashStr, UInt64.toNat_mod]
    exact Nat.mod_lt _ (by decide)⟩

variable {P : Type}

/-- `db->registry.models_by_table`. -/
abbrev Registry (P : Type) := Table Text P 32

/-- `corm_hash_insert`; the entry and the copy of its key may not be allocated. -/
def hashInsert (entryOk keyOk : Bool) (ht : Registry P) (key : Text) (value : P) :
    Err × Registry P :=
  if !entryOk then (.nomem, ht)
  else if !keyOk then (.nomem, ht)
  else (.ok, ht.insert bucketOf key value)

/-! ## The calls -/

/-- A call of `corm_register_model`: the pointer, if it is not null, with the model there, and
whether the two allocations of an entry succeed. -/
structure Registration (P : Type) where
  model : Option (P × Descriptor)
  entryOk : Bool
  keyOk : Bool

/-- `corm_register_model`. -/
def registerModel (reg : Registry P) (r : Registration P) : Err × Registry P :=
  match r.model with
  | none => (.null, reg)
  | some (p, d) =>
    match (checkModel (some d)).1 with
    | .ok => hashInsert r.entryOk r.keyOk reg (d.tableName.getD []) p
    | err => (err, reg)

/-- `corm_find_model`. -/
def findModel (reg : Registry P) (tableName : Text) : Option P := reg.find bucketOf tableName

/-- The registry of a connection after some calls. -/
def registerAll (calls : List (Registration P)) : Registry P :=
  calls.foldl (fun reg r => (registerModel reg r).2) Table.empty

namespace Registration

variable (r : Registration P)

/-- What the call returns, whatever is in the registry. -/
def result : Err := (registerModel Table.empty r).1

/-- The table name of the model. -/
def tableName : Option Text := r.model.bind fun m => m.2.tableName

/-- The model that the call registers under the name `t`, if it succeeds. -/
def registers (t : Text) : Option P :=
  if r.result = .ok ∧ r.tableName = some t then r.model.map Prod.fst else none

end Registration

/-! ## One call -/

variable {reg : Registry P} {r : Registration P} {t : Text}

/-- **What a call can do**: it succeeds for a well-formed model and puts it under its name, or it
leaves the registry as it is. -/
theorem registerModel_cases (reg : Registry P) (r : Registration P) :
    (∃ p d t, r.model = some (p, d) ∧ d.tableName = some t ∧ d.WellFormed ∧ r.result = .ok ∧
      registerModel reg r = (.ok, reg.insert bucketOf t p)) ∨
    (r.result ≠ .ok ∧ registerModel reg r = (r.result, reg)) := by
  unfold Registration.result registerModel
  cases hm : r.model with
  | none => exact Or.inr ⟨by simp, rfl⟩
  | some m =>
    obtain ⟨p, d⟩ := m
    dsimp only
    cases hv : (checkModel (some d)).1 with
    | ok =>
      have hwf := (checkModel_ok_iff d).mp hv
      obtain ⟨t, ht, -⟩ := hwf.table
      simp only [hashInsert, ht, Option.getD_some]
      cases r.entryOk with
      | false => exact Or.inr ⟨by simp, rfl⟩
      | true =>
        cases r.keyOk with
        | false => exact Or.inr ⟨by simp, rfl⟩
        | true => exact Or.inl ⟨p, d, t, rfl, ht, hwf, rfl, rfl⟩
    | _ => exact Or.inr ⟨by simp, rfl⟩

/-- **A model is registered** under its name exactly when it is well formed, and its entry and its key
are allocated. -/
theorem registers_eq_some_iff {p : P} : r.registers t = some p ↔
    (∃ d, r.model = some (p, d) ∧ d.WellFormed ∧ d.tableName = some t) ∧
      r.entryOk = true ∧ r.keyOk = true := by
  unfold Registration.registers
  constructor
  · intro h
    split_ifs at h with hcall
    obtain ⟨hok, hname⟩ := hcall
    obtain ⟨⟨q, d⟩, hm, rfl⟩ := Option.map_eq_some_iff.mp h
    rw [Registration.tableName, hm, Option.bind_some] at hname
    simp only [Registration.result, registerModel, hm] at hok
    cases hv : (checkModel (some d)).1 with
    | ok =>
      simp only [hv, hashInsert] at hok
      refine ⟨⟨d, hm, (checkModel_ok_iff d).mp hv, hname⟩, ?_⟩
      cases hentry : r.entryOk <;> cases hkey : r.keyOk <;> simp [hentry, hkey] at hok ⊢
    | _ =>
      rw [hv] at hok
      cases hok
  · rintro ⟨⟨d, hm, hwf, hname⟩, hentry, hkey⟩
    have hv : (checkModel (some d)).1 = .ok := (checkModel_ok_iff d).mpr hwf
    have hok : r.result = .ok := by
      simp [Registration.result, registerModel, hm, hv, hashInsert, hentry, hkey]
    rw [if_pos ⟨hok, by rw [Registration.tableName, hm, Option.bind_some, hname]⟩, hm]
    rfl

theorem findModel_registerModel (reg : Registry P) (r : Registration P) (t : Text) :
    findModel (registerModel reg r).2 t = (r.registers t).or (findModel reg t) := by
  unfold Registration.registers
  rcases registerModel_cases reg r with ⟨p, d, t', hm, ht', -, hok, hreg⟩ | ⟨hok, hreg⟩
  · have hname : r.tableName = some t' := by rw [Registration.tableName, hm]; exact ht'
    rw [hreg, hname, hm, findModel, Table.find_insert]
    by_cases h : t = t'
    · simp [h, hok]
    · simp [h, Ne.symm h, findModel]
  · rw [hreg, if_neg fun h => hok h.1]
    rfl

theorem placed_registerModel (h : reg.Placed bucketOf) (r : Registration P) :
    (registerModel reg r).2.Placed bucketOf := by
  rcases registerModel_cases reg r with ⟨p, d, t, -, -, -, -, hreg⟩ | ⟨-, hreg⟩
  · rw [hreg]
    exact h.insert t p
  · rw [hreg]
    exact h

/-! ## Runs of calls -/

theorem registerAll_concat (calls : List (Registration P)) (r : Registration P) :
    registerAll (calls ++ [r]) = (registerModel (registerAll calls) r).2 := by
  rw [registerAll, List.foldl_append]
  rfl

theorem findModel_registerAll (calls : List (Registration P)) (t : Text) :
    findModel (registerAll calls) t = (calls.filterMap fun r => r.registers t).getLast? := by
  induction calls using List.reverseRecOn with
  | nil => rfl
  | append_singleton calls r ih =>
    rw [registerAll_concat, findModel_registerModel, ih, List.filterMap_append]
    cases hr : r.registers t <;> simp [hr]

theorem placed_registerAll (calls : List (Registration P)) :
    (registerAll calls).Placed bucketOf := by
  induction calls using List.reverseRecOn with
  | nil => exact Table.placed_empty
  | append_singleton calls r ih =>
    rw [registerAll_concat]
    exact placed_registerModel ih r

/-- **The registry**: after any calls, the model found under a name is the one that the last of
them registered under it, if there is one; these are the well-formed models with that name. A call
that fails, and one for another name, changes nothing of that, and every entry is in the bucket of its
key. -/
theorem registry_last_writer (calls : List (Registration P)) (t : Text) :
    findModel (registerAll calls) t = (calls.filterMap fun r => r.registers t).getLast? ∧
    (∀ (r : Registration P) p, r.registers t = some p ↔
      (∃ d, r.model = some (p, d) ∧ d.WellFormed ∧ d.tableName = some t) ∧
        r.entryOk = true ∧ r.keyOk = true) ∧
    (∀ r, (registerModel (registerAll calls) r).1 ≠ .ok ∨ r.tableName ≠ some t →
      findModel (registerModel (registerAll calls) r).2 t = findModel (registerAll calls) t) ∧
    (registerAll calls).Placed bucketOf := by
  refine ⟨findModel_registerAll calls t, fun r p => registers_eq_some_iff, fun r hr => ?_,
    placed_registerAll calls⟩
  rw [findModel_registerModel]
  have hnone : r.registers t = none := by
    refine if_neg fun h => ?_
    rcases hr with hr | hr
    · rcases registerModel_cases (registerAll calls) r with ⟨p, d, t', -, -, -, -, hreg⟩ | ⟨hok, -⟩
      · exact hr (congrArg Prod.fst hreg)
      · exact hok h.1
    · exact hr h.2
  rw [hnone, Option.none_or]

end Corm
