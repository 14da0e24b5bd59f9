import Corm.Lib.Refine
import Corm.Registry.Models

/-!
# The hash table of `internal/hash.h`

A key may be inserted more than once. The newest entry is found, and removing it brings the one
before it back.

* `bucketIn`: the bucket of a key in a table of any size; `hashInit`: the size of a new table;
* `HashOp`, `HashOp.step`: the calls on a table;
* `HashOp.abstract`: the same calls on an association list;
* **`hash_refines`**: a table answers as the list does, and keeps the number of its entries.
-/

namespace Corm

open Chained (Table)

/-- The size of the table that `corm_hash_init` makes. -/
def hashInit (initialSize : UInt64) : UInt64 := if initialSize = 0 then 32 else initialSize

theorem hashInit_pos (initialSize : UInt64) : 0 < (hashInit initialSize).toNat := by
  unfold hashInit
  split_ifs with h
  · decide
  · exact Nat.pos_of_ne_zero fun hzero => h (UInt64.toNat_inj.mp hzero)

/-- The bucket of a key. -/
def bucketIn (initialSize : UInt64) (key : Text) : Fin (hashInit initialSize).toNat :=
  ⟨(hashStr key (hashInit initialSize)).toNat, by
    rw [hashStr, UInt64.toNat_mod]
    exact Nat.mod_lt _ (hashInit_pos initialSize)⟩

variable {P : Type}

/-- The calls on a table; the entry and the copy of its key may not be allocated. -/
inductive HashOp (P : Type)
  | insert (entryOk keyOk : Bool) (key : Text) (value : P)
  | find (key : Text)
  | remove (key : Text)

/-- What a call returns. -/
inductive HashOut (P : Type)
  | err (e : Err)
  | value (p : Option P)
  | done
  deriving DecidableEq

namespace HashOp

/-- `corm_hash_insert`, `corm_hash_find` and `corm_hash_remove`. -/
def step {n : ℕ} (bucket : Text → Fin n) (ht : Table Text P n) : HashOp P → HashOut P × Table Text P n
  | insert entryOk keyOk key value =>
    if !entryOk then (.err .nomem, ht)
    else if !keyOk then (.err .nomem, ht)
    else (.err .ok, ht.insert bucket key value)
  | find key => (.value (ht.find bucket key), ht)
  | remove key => (.done, ht.remove bucket key)

/-- The calls on an association list, which has the newest entry first. -/
def abstract (l : List (Text × P)) : HashOp P → HashOut P × List (Text × P)
  | insert entryOk keyOk key value =>
    if entryOk && keyOk then (.err .ok, (key, value) :: l) else (.err .nomem, l)
  | find key => (.value ((l.find? fun e => decide (e.1 = key)).map Prod.snd), l)
  | remove key => (.done, l.eraseP fun e => decide (e.1 = key))

variable {n : ℕ} {bucket : Text → Fin n} {ht : Table Text P n} {l : List (Text × P)}

/-- **One call.** -/
theorem step_lists (h : ht.Lists bucket l) (op : HashOp P) :
    (op.step bucket ht).1 = (op.abstract l).1 ∧
      (op.step bucket ht).2.Lists bucket (op.abstract l).2 := by
  cases op with
  | insert entryOk keyOk key value =>
    cases entryOk with
    | false => exact ⟨rfl, h⟩
    | true =>
      cases keyOk with
      | false => exact ⟨rfl, h⟩
      | true => exact ⟨rfl, h.insert key value⟩
  | find key => exact ⟨congrArg HashOut.value (h.find key), h⟩
  | remove key => exact ⟨rfl, h.remove key⟩

end HashOp

/-- The entries that `corm_hash_free` frees, in its order. -/
def hashFreed {n : ℕ} (ht : Table Text P n) : List (Text × P) := ht.entries

/-- **The hash table** of any size answers any calls as an association list does. After them `count`
is the number of its entries, and `corm_hash_free` frees each of them once. -/
theorem hash_refines (initialSize : UInt64) (ops : List (HashOp P)) :
    Refine.outputs (HashOp.step (bucketIn initialSize)) Table.empty ops =
        Refine.outputs HashOp.abstract [] ops ∧
      (Refine.final (HashOp.step (bucketIn initialSize)) Table.empty ops).count =
        (Refine.final HashOp.abstract [] ops).length ∧
      (hashFreed (Refine.final (HashOp.step (bucketIn initialSize)) Table.empty ops)).Perm
        (Refine.final HashOp.abstract [] ops) := by
  obtain ⟨houts, hlists⟩ := Refine.outputs_eq (R := Table.Lists (bucketIn initialSize))
    (fun ht l op h => HashOp.step_lists h op) Table.lists_empty ops
  exact ⟨houts, hlists.count, hlists.entries⟩

end Corm
