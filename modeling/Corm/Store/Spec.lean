import Corm.Backend.SqliteRoundTrip
import Corm.Batch.Numbers

/-!
# A table as a list of records

What the functions for whole records do to a table, said of records.

* `SameKey`, `overwrite`, `withKey`: records with one key, what an update makes of a record, and
  what an insert does;
* `StoreOp`, `StoreOut`: the calls, and what they return;
* `StoreSpec`: what may come of a call.
-/

namespace Corm

variable {m : Model} {pk : Field}

/-! ## Keys -/

instance (size : ℕ) (t : FieldType) (a b : Member size t) : Decidable (SameMember size t a b) :=
  match t, a, b with
  | .int, (a : Int32), (b : Int32) => inferInstanceAs (Decidable (a = b))
  | .int64, (a : Int64), (b : Int64) => inferInstanceAs (Decidable (a = b))
  | .float, (a : UInt32), (b : UInt32) => inferInstanceAs (Decidable (a = b))
  | .double, (a : UInt64), (b : UInt64) => inferInstanceAs (Decidable (a = b))
  | .string, (a : Buffer Char size), (b : Buffer Char size) =>
    inferInstanceAs (Decidable (cstr a.1 = cstr b.1))
  | .text, (a : Option Text), (b : Option Text) => inferInstanceAs (Decidable (a = b))
  | .blob, (a : Buffer UInt8 size), (b : Buffer UInt8 size) => inferInstanceAs (Decidable (a = b))
  | .bool, (a : Bool), (b : Bool) => inferInstanceAs (Decidable (a = b))

/-- A null pointer, which is stored as NULL. -/
def NullMember (size : ℕ) : (t : FieldType) → Member size t → Prop
  | .text, (p : Option Text) => p = none
  | _, _ => False

instance (size : ℕ) (t : FieldType) (a : Member size t) : Decidable (NullMember size t a) :=
  match t, a with
  | .text, (a : Option Text) => inferInstanceAs (Decidable (a = none))
  | .int, _ | .int64, _ | .float, _ | .double, _ | .string, _ | .blob, _ | .bool, _ =>
    inferInstanceAs (Decidable False)

/-- The key of two records; NULL is no key. -/
def SameKey (pk : Field) (r r' : Record) : Prop :=
  ¬ NullMember pk.size pk.type (r pk) ∧ SameMember pk.size pk.type (r pk) (r' pk)

instance (pk : Field) (r r' : Record) : Decidable (SameKey pk r r') :=
  inferInstanceAs (Decidable (_ ∧ _))

/-- What an update with the records `us` makes of a record: the last of them with its key, under the
key it has. -/
def overwrite (pk : Field) (us : List Record) (r : Record) : Record :=
  match (us.filter fun u => decide (SameKey pk u r)).getLast? with
  | some u => Function.update u pk (r pk)
  | none => r

theorem overwrite_self (us : List Record) (r : Record) : overwrite pk us r pk = r pk := by
  unfold overwrite
  cases (us.filter fun u => decide (SameKey pk u r)).getLast? with
  | none => rfl
  | some u => exact Function.update_self _ _ _

theorem overwrite_of_ne {f : Field} (hf : f ≠ pk) (us : List Record) (r : Record) :
    overwrite pk us r f =
      ((us.filter fun u => decide (SameKey pk u r)).getLast?.getD r) f := by
  unfold overwrite
  cases (us.filter fun u => decide (SameKey pk u r)).getLast? with
  | none => rfl
  | some u => exact Function.update_of_ne hf _ _

/-- The member that an id is read back as. -/
def idMember (size : ℕ) : (t : FieldType) → ℤ → Member size t
  | .int, id => (Int32.ofInt id : Int32)
  | .int64, id => (Int64.ofInt id : Int64)
  | t, _ => zeroMember size t

/-- The record that an insert stores: an AUTOINC key is the id that is reported. -/
def withKey (pk : Field) (id : ℤ) (r : Record) : Record :=
  if pk.isAutoinc then Function.update r pk (idMember pk.size pk.type id) else r

/-! ## The calls -/

/-- A call of `corm_create_one`, `corm_update_batch`, `corm_delete_batch`, or of `corm_find_all` with
a zeroed array of a capacity. -/
inductive StoreOp
  | create (r : Record)
  | update (us : List Record)
  | delete (ds : List Record)
  | find (capacity : ℕ)

/-- What a call returns: its result with the insert id, its result, or the array and the count;
`found none` is undefined behaviour. -/
inductive StoreOut
  | created (err : Err) (id : Option ℤ)
  | changed (err : Err)
  | found (out : Option (Err × Option (List Record) × Option ℤ))

/-- A call. -/
def StoreOp.step {σ : Type} (b : Backend σ Result) (m : Model) (s : σ) : StoreOp → StoreOut × σ
  | .create r =>
    let d := createOne b s m r
    (.created d.err d.count, d.state)
  | .update us =>
    let d := updateBatch b s m us
    (.changed d.1, d.2.2)
  | .delete ds =>
    let d := deleteBatch b s m ds
    (.changed d.1, d.2.2)
  | .find capacity =>
    match findAll b s m none (some (List.replicate capacity zeroRecord)) (some (capacity : ℤ)) with
    | some (err, records, count, s) => (.found (some (err, records, count)), s)
    | none => (.found none, s)

/-- The same record, on the fields of the model. -/
def SameMembers (m : Model) (r r' : Record) : Prop :=
  ∀ f ∈ m.fields, SameMember f.size f.type (r f) (r' f)

/-- **What may come of a call**, on the records of a table, where calls may fail or not. A call that
fails changes nothing, and leaves the array and the count of a find as they were; a batch without
records always fails. -/
inductive StoreSpec (m : Model) (pk : Field) (mayFail : Prop) :
    List Record → StoreOp → StoreOut → List Record → Prop
  | created {rs : List Record} {r r' : Record} (id : ℤ)
    (hook : runHook m.beforeCreate (some r) = (.ok, some r')) :
    StoreSpec m pk mayFail rs (.create r) (.created .ok (some id)) (rs ++ [withKey pk id r'])
  | updated (rs us : List Record) :
    StoreSpec m pk mayFail rs (.update us) (.changed .ok) (rs.map (overwrite pk us))
  | deleted (rs ds : List Record) :
    StoreSpec m pk mayFail rs (.delete ds) (.changed .ok)
      (rs.filter fun r => !ds.any fun d => decide (SameKey pk d r))
  | found {rs out : List Record} {capacity : ℕ}
    (same : List.Forall₂ (SameMembers m) (rs.take capacity) out) :
    StoreSpec m pk mayFail rs (.find capacity) (.found (some (.ok,
      some (out ++ List.replicate (capacity - out.length) zeroRecord), some (out.length : ℤ)))) rs
  | notCreated {rs : List Record} {r : Record} {err : Err} (may : mayFail) (failed : err ≠ .ok) :
    StoreSpec m pk mayFail rs (.create r) (.created err none) rs
  | notUpdated {rs us : List Record} {err : Err} (may : mayFail ∨ us = []) (failed : err ≠ .ok) :
    StoreSpec m pk mayFail rs (.update us) (.changed err) rs
  | notDeleted {rs ds : List Record} {err : Err} (may : mayFail ∨ ds = []) (failed : err ≠ .ok) :
    StoreSpec m pk mayFail rs (.delete ds) (.changed err) rs
  | notFound {rs : List Record} {capacity : ℕ} {err : Err} (may : mayFail) (failed : err ≠ .ok) :
    StoreSpec m pk mayFail rs (.find capacity) (.found (some (err,
      some (List.replicate capacity zeroRecord), some (capacity : ℤ)))) rs

end Corm
