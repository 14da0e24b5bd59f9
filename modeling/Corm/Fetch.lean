import Corm.Exec
import Mathlib.Data.List.FinRange

/-!
# From results to records

`corm_find_all`, over any backend whose queries give a `corm_result_t`.

* `fillRecord`, `copyRows`, `findAll`: the loops over fields and rows, and the function;
* `SetTo`, `memberSet_eq_some_iff`: what a cell leaves in a member, by the type of the field;
* `FromRow`, **`fillRecord_eq_some`**: what the loop over the fields writes.

`none` is undefined behaviour: a member of a union that was not written is read, or more records are
written than the array has.
-/

namespace Corm

/-- The value in a row of the first column with a name. -/
def Result.value (res : Result) (row : Fin res.columnCount → Value) (name : Text) : Option Value :=
  ((List.finRange res.columnCount).find? fun j => res.columnNames j == name).map row

/-- The loop over the fields of a record. -/
def fillRecord (res : Result) (row : Fin res.columnCount → Value) :
    List Field → Record → Option Record
  | [], record => some record
  | f :: fs, record =>
    match res.value row f.nm with
    | some val => (fieldSetValue record f val).bind (fillRecord res row fs)
    | none => fillRecord res row fs record

/-- The loop over the rows, into the array of records. -/
def copyRows (m : Model) (res : Result) :
    List (Fin res.columnCount → Value) → List Record → Option (List Record)
  | [], records => some records
  | _ :: _, [] => none
  | row :: rows, record :: records => do
    let record ← fillRecord res row m.fields record
    let records ← copyRows m res rows records
    some ((runHook m.afterFind (some record)).2.getD record :: records)

/-- The number of rows that `corm_find_all` copies. -/
def copyCount (count : Option ℤ) (totalRows : ℕ) : ℕ :=
  let maxCapacity : ℤ := match count with
    | some c => if 0 < c then c else -1
    | none => -1
  if 0 < maxCapacity ∧ maxCapacity < totalRows then maxCapacity.toNat else totalRows

variable {σ : Type} (b : Backend σ Result)

/-- `corm_find_all`: its result, the array of records and `*count` after it, and the state. -/
def findAll (s : σ) (m : Model) (where_ : Option Text) (records : Option (List Record))
    (count : Option ℤ) : Option (Err × Option (List Record) × Option ℤ × σ) :=
  let q := match where_ with
    | some w => queryWhere (queryNew b.type m) w
    | none => queryNew b.type m
  match find b s q with
  | (.ok, some res, _, s) =>
    let n := copyCount count res.rows.length
    let done := fun records => (Err.ok, records, count.map fun _ => (n : ℤ), s)
    match records with
    | some records => (copyRows m res (res.rows.take n) records).map fun r => done (some r)
    | none => some (done none)
  | (.ok, none, _, s) => some (.ok, records, count, s)
  | (err, _, _, s) => some (err, records, count, s)

variable {res : Result} {row : Fin res.columnCount → Value} {fs : List Field}
  {record record' : Record}

theorem fieldSetValue_eq_some {f : Field} {val : Value} (h : fieldSetValue record f val = some record') :
    memberSet f.size f.type (record f) val.v = some (record' f) ∧
      ∀ g, g ≠ f → record' g = record g := by
  obtain ⟨x, hx, rfl⟩ := Option.map_eq_some_iff.mp h
  refine ⟨?_, fun g hg => Function.update_of_ne hg _ _⟩
  rw [Function.update_self, hx]

/-- What a cell leaves in a member, by the type of the field: an `int` is cut to its low half, a
string to all but the last byte of its array, which is filled up with NULs; where there is NULL, or
a blob that is longer than the array, the array stays. -/
def SetTo (size : ℕ) : (t : FieldType) → Member size t → Payload → Member size t → Prop
  | .int, _, v, (new : Int32) => ∃ n, v.readI = some n ∧ new = n.toInt32
  | .int64, _, v, (new : Int64) => v.readI = some new
  | .float, _, v, (new : UInt32) =>
    ∃ bits, v.readF = some bits ∧ new = (Float.ofBits bits).toFloat32.toBits
  | .double, _, v, (new : UInt64) => v.readF = some new
  | .string, (old : Buffer Char size), v, (new : Buffer Char size) =>
    v.readS = some none ∧ new = old ∨ ∃ s, v.readS = some (some s) ∧
      new.1 = (s.take (size - 1) ++ List.replicate size nul).take size
  | .text, _, v, (new : Option Text) => v.readS = some new
  | .bool, _, v, (new : Bool) => v.readB = some new
  | .blob, (old : Buffer UInt8 size), v, (new : Buffer UInt8 size) =>
    v.readBlob = some none ∧ new = old ∨ ∃ data, v.readBlob = some (some data) ∧
      if data.length ≤ size then new.1 = data ++ old.1.drop data.length else new = old

theorem copyString_val (size : ℕ) (old : Buffer Char size) (s : Text) :
    (copyString size old s).1 = (s.take (size - 1) ++ List.replicate size nul).take size := by
  cases size with
  | zero => exact List.length_eq_zero_iff.mp (copyString 0 old s).2
  | succ n =>
    have hlen : (s.take n).length ≤ n + 1 := (List.length_take_le n s).trans n.le_succ
    have hpad : List.replicate (n - s.length) nul ++ [nul] =
        (List.replicate (n + 1) nul).take (n + 1 - (s.take n).length) := by
      rw [List.take_replicate, List.length_take, ← List.replicate_succ']
      congr 1
      omega
    rw [copyString, dif_pos n.succ_pos]
    show strncpy s n ++ [nul] = (s.take n ++ List.replicate (n + 1) nul).take (n + 1)
    rw [strncpy, List.append_assoc, hpad, List.take_append, List.take_of_length_le hlen]

theorem copyBlob_eq_iff {size : ℕ} {old new : Buffer UInt8 size} {data : List UInt8} :
    copyBlob size old data = new ↔
      if data.length ≤ size then new.1 = data ++ old.1.drop data.length else new = old := by
  rw [copyBlob]
  split_ifs
  · rw [Subtype.ext_iff]
    exact eq_comm
  · exact eq_comm

/-- **What `corm_field_set_value` writes.** -/
theorem memberSet_eq_some_iff {size : ℕ} {t : FieldType} {v : Payload} {old new : Member size t} :
    memberSet size t old v = some new ↔ SetTo size t old v new := by
  cases t with
  | int | float =>
    refine Option.map_eq_some_iff.trans (exists_congr fun n => and_congr_right fun _ => ?_)
    exact eq_comm
  | string =>
    change Buffer Char size at old new
    refine Option.map_eq_some_iff.trans ?_
    rw [Option.exists]
    refine or_congr (and_congr_right fun _ => eq_comm)
      (exists_congr fun s => and_congr_right fun _ => ?_)
    show copyString size old s = new ↔ _
    rw [Subtype.ext_iff, copyString_val]
    exact eq_comm
  | blob =>
    refine Option.map_eq_some_iff.trans ?_
    rw [Option.exists]
    exact or_congr (and_congr_right fun _ => eq_comm)
      (exists_congr fun data => and_congr_right fun _ => copyBlob_eq_iff)
  | _ => exact Iff.rfl

/-- The record that a row makes of another: each field is set from the first column with its name, and
a field without a column stays. -/
structure FromRow (res : Result) (row : Fin res.columnCount → Value) (fs : List Field)
    (old new : Record) : Prop where
  column : ∀ f ∈ fs, ∀ val ∈ res.value row f.nm, SetTo f.size f.type (old f) val.v (new f)
  absent : ∀ f ∈ fs, res.value row f.nm = none → new f = old f
  other : ∀ f, f ∉ fs → new f = old f

/-- **What the loop over the fields writes.** -/
theorem fillRecord_eq_some (hn : (fs.map Field.nm).Nodup) :
    fillRecord res row fs record = some record' ↔ FromRow res row fs record record' := by
  induction fs generalizing record with
  | nil =>
    constructor
    · intro h
      obtain rfl := Option.some.inj h
      exact ⟨nofun, nofun, fun _ _ => rfl⟩
    · intro h
      exact congrArg some (funext fun f => (h.other f List.not_mem_nil).symm)
  | cons f fs ih =>
    obtain ⟨hnot, hn'⟩ := List.nodup_cons.mp hn
    have hne : ∀ g ∈ fs, g ≠ f := by
      rintro g hg rfl
      exact hnot (List.mem_map_of_mem hg)
    have hf : f ∉ fs := fun h => hne f h rfl
    rw [fillRecord]
    cases hval : res.value row f.nm with
    | none =>
      simp only
      rw [ih hn']
      constructor
      · rintro ⟨hcol, habs, hoth⟩
        refine ⟨List.forall_mem_cons.mpr ⟨by simp [hval], hcol⟩,
          List.forall_mem_cons.mpr ⟨fun _ => hoth f hf, habs⟩, fun g hg => hoth g ?_⟩
        exact fun h => hg (List.mem_cons_of_mem f h)
      · rintro ⟨hcol, habs, hoth⟩
        refine ⟨(List.forall_mem_cons.mp hcol).2, (List.forall_mem_cons.mp habs).2, fun g hg => ?_⟩
        by_cases hgf : g = f
        · exact hgf ▸ habs f List.mem_cons_self hval
        · exact hoth g (by simp [hgf, hg])
    | some val =>
      simp only [Option.bind_eq_some_iff, ih hn']
      constructor
      · rintro ⟨r, hr, hcol, habs, hoth⟩
        obtain ⟨hself, hother⟩ := fieldSetValue_eq_some hr
        refine ⟨List.forall_mem_cons.mpr ⟨fun v hv => ?_, fun g hg v hv => ?_⟩,
          List.forall_mem_cons.mpr ⟨by simp [hval], fun g hg hnone => ?_⟩, fun g hg => ?_⟩
        · obtain rfl := Option.some.inj (hval.symm.trans hv)
          rw [← memberSet_eq_some_iff, hself, hoth f hf]
        · rw [← hother g (hne g hg)]
          exact hcol g hg v hv
        · rw [habs g hg hnone, hother g (hne g hg)]
        · rw [List.mem_cons, not_or] at hg
          rw [hoth g hg.2, hother g hg.1]
      · rintro ⟨hcol, habs, hoth⟩
        have hself := memberSet_eq_some_iff.mpr (hcol f List.mem_cons_self val hval)
        refine ⟨Function.update record f (record' f), by rw [fieldSetValue, hself]; rfl,
          fun g hg v hv => ?_, fun g hg hnone => ?_, fun g hg => ?_⟩
        · rw [Function.update_of_ne (hne g hg)]
          exact hcol g (List.mem_cons_of_mem f hg) v hv
        · rw [Function.update_of_ne (hne g hg), habs g (List.mem_cons_of_mem f hg) hnone]
        · by_cases hgf : g = f
          · subst hgf
            rw [Function.update_self]
          · rw [Function.update_of_ne hgf, hoth g (by simp [hgf, hg])]

theorem fillRecord_eq (hn : (fs.map Field.nm).Nodup) (hcol : ∀ f ∈ fs, (res.value row f.nm).isSome) :
    (fillRecord res row fs record = some record' ↔
      (∀ f ∈ fs, ∀ val ∈ res.value row f.nm,
        memberSet f.size f.type (record f) val.v = some (record' f)) ∧
      ∀ f, f ∉ fs → record' f = record f) := by
  rw [fillRecord_eq_some hn]
  simp only [memberSet_eq_some_iff]
  refine ⟨fun h => ⟨h.column, h.other⟩, fun h => ⟨h.1, fun f hf hnone => ?_, h.2⟩⟩
  have hsome := hcol f hf
  rw [hnone] at hsome
  cases hsome

end Corm
