import Corm.Batch.Confined
import Corm.Store.Spec

/-!
# The rows of records

* `Kept`: the records that a table keeps as they are; `RowIs`: the row of a record;
* `memberCell_eq_iff`, **`keyEq_iff`**: the database compares keys as the records do;
* `rowIs_overwrite`, `rowIs_withKey`: what an update and an insert make of a row;
* **`readBack`**: the record of a row.
-/

namespace Corm

open Sql (Row)

variable {db : SqliteDb} {m : Model} {pk : Field} {r u : Record} {row : Row Cell}
  {rs us : List Record} {rows : List (Row Cell)}

/-! ## Members and cells -/

/-- A record that a table keeps as it is: its strings are C strings, and what it has of texts and
blobs is within the limit of the database. -/
structure Kept (limit : ℕ) (m : Model) (r : Record) : Prop where
  terminated : ∀ f ∈ m.fields, Terminated f.size f.type (r f)
  whole : ∀ f ∈ m.fields, Whole limit f.size f.type (r f)

/-- The row of a record. -/
def RowIs (db : SqliteDb) (m : Model) (r : Record) (row : Row Cell) : Prop :=
  ∀ f ∈ m.fields, row f.nm = memberCell db.lib f.size f.type (r f)

theorem Kept.blob {limit : ℕ} (h : Kept limit m r) {f : Field} (hf : f ∈ m.fields) :
    f.type = .blob → f.size % 2 ^ 32 ≤ limit := by
  intro ht
  have hw := h.whole f hf
  clear h hf
  obtain ⟨name, type, size, flags⟩ := f
  obtain rfl : type = .blob := ht
  exact hw.1

theorem take_inj_of_zeros {l l' : List UInt8} {n : ℕ} (hlen : l.length = l'.length)
    (h : ∀ byte ∈ l.drop n, byte = 0) (h' : ∀ byte ∈ l'.drop n, byte = 0) :
    l.take n = l'.take n ↔ l = l' := by
  refine ⟨fun htake => ?_, fun heq => by rw [heq]⟩
  rw [take_append_zeros_iff.mpr h, take_append_zeros_iff.mpr h', htake, hlen]

theorem sameMember_symm {size : ℕ} {t : FieldType} {x y : Member size t}
    (h : SameMember size t x y) : SameMember size t y x := by
  cases t <;> exact Eq.symm h

/-- **Equal members have equal cells**, and no others. -/
theorem memberCell_eq_iff {L : Sqlite} {f : Field} (hf : f.Storable) {x y : Member f.size f.type}
    (hx : Whole L.limit f.size f.type x) (hy : Whole L.limit f.size f.type y) :
    memberCell L f.size f.type x = memberCell L f.size f.type y ↔
      SameMember f.size f.type x y := by
  obtain ⟨name, type, size, flags⟩ := f
  cases type with
  | float => cases hf
  | double => cases hf
  | int =>
    change Int32 at x y
    show Cell.integer x.toInt64 = .integer y.toInt64 ↔ x = y
    rw [Cell.integer.injEq]
    exact ⟨fun h => by rw [← Int32.toInt32_toInt64 x, h, Int32.toInt32_toInt64], fun h => by rw [h]⟩
  | int64 =>
    change Int64 at x y
    show Cell.integer x = .integer y ↔ x = y
    rw [Cell.integer.injEq]
  | bool =>
    change Bool at x y
    show Cell.integer (if x then 1 else 0) = .integer (if y then 1 else 0) ↔ x = y
    cases x <;> cases y <;> decide
  | text =>
    change Option Text at x y
    change ∀ s ∈ x, s.length ≤ L.limit at hx
    change ∀ s ∈ y, s.length ≤ L.limit at hy
    show memberCell L size .text x = memberCell L size .text y ↔ x = y
    have hcell (s : Text) (hs : s.length ≤ L.limit) : memberCell L size .text (some s) = .text s :=
      bindText_of_le hs
    cases x with
    | none =>
      cases y with
      | none => exact iff_of_true rfl rfl
      | some t =>
        rw [hcell t (hy t rfl)]
        exact iff_of_false nofun nofun
    | some s =>
      rw [hcell s (hx s rfl)]
      cases y with
      | none => exact iff_of_false nofun nofun
      | some t => rw [hcell t (hy t rfl), Cell.text.injEq, Option.some.injEq]
  | string =>
    change Buffer Char size at x y
    show bindText L (cstr x.1) = bindText L (cstr y.1) ↔ cstr x.1 = cstr y.1
    rw [bindText_of_le hx, bindText_of_le hy, Cell.text.injEq]
  | blob =>
    change Buffer UInt8 size at x y
    show memberCell L size .blob x = memberCell L size .blob y ↔ x = y
    rw [memberCell_blob hx.2.1, memberCell_blob hx.2.1, if_pos hx.1, if_pos hx.1,
      Cell.blob.injEq, Subtype.ext_iff]
    exact take_inj_of_zeros (by rw [x.2, y.2]) hx.2.2 hy.2.2

theorem memberCell_null_iff {L : Sqlite} {f : Field} (hf : f.Storable) {x : Member f.size f.type}
    (hx : Whole L.limit f.size f.type x) :
    memberCell L f.size f.type x = .null ↔ NullMember f.size f.type x := by
  obtain ⟨name, type, size, flags⟩ := f
  cases type with
  | float => cases hf
  | double => cases hf
  | text =>
    change Option Text at x
    change ∀ s ∈ x, s.length ≤ L.limit at hx
    cases x with
    | none => exact iff_of_true rfl rfl
    | some s =>
      have hcell : memberCell L size .text (some s) = .text s := bindText_of_le (hx s rfl)
      exact iff_of_false (fun h => nomatch hcell.symm.trans h) nofun
  | string =>
    change Buffer Char size at x
    have hcell : memberCell L size .string x = .text (cstr x.1) := bindText_of_le hx
    refine iff_of_false (fun h => ?_) id
    cases hcell.symm.trans h
  | blob =>
    change Buffer UInt8 size at x
    show memberCell L size .blob x = .null ↔ False
    rw [memberCell_blob hx.2.1, if_pos hx.1]
    simp
  | _ => exact iff_of_false nofun id

/-! ## The model and the database -/

/-- A model for whole records: names that differ in more than case, one PRIMARY field and another
one, no soft delete, fields that can be stored, no other AUTOINC field than an integer key, and no
`after_find`. -/
structure StoreModel (m : Model) (pk : Field) : Prop where
  registered : validateModel m = .ok
  distinct : (m.fields.map fun f => foldCase f.nm).Nodup
  primary : (m.fields.filter fun f => f.isPrimary) = [pk]
  other : ∃ f ∈ m.fields, f ≠ pk
  hard : softDeleteField m = none
  storable : ∀ f ∈ m.fields, f.Storable
  autoinc : ∀ f ∈ m.fields, f.isAutoinc = true → f = pk ∧ (f.type = .int ∨ f.type = .int64)
  afterFind : m.afterFind = none

/-- The database of a model: it has the columns of the fields, compares values of the key's storage
class with `=`, reports the integer that it gives to an AUTOINC key, and keeps what `before_create`
makes of records that it keeps. -/
structure StoreDb (db : SqliteDb) (m : Model) (pk : Field) : Prop where
  columns : ∀ f ∈ m.fields, f.nm ∈ db.columns m.table
  beforeCreate : ∀ r r', Kept db.lib.limit m r →
    runHook m.beforeCreate (some r) = (.ok, some r') → Kept db.lib.limit m r'
  reads : db.engine.ReadsEq pk.nm
  compares : ∀ (row : Row Cell) (v : Cell), storageType (row pk.nm) = pk.type.column →
    storageType v = pk.type.column →
    (db.engine.pred (Sql.eqItems pk.nm v) row = some true ↔ row pk.nm = v ∧ v ≠ .null)
  reports : pk.isAutoinc = true → ∀ (s : Store Cell) (row : Row Cell),
    row pk.nm = .integer (db.rowId m.table (s.db m.table) pk.nm) →
    db.lastInsertId { s with db := Function.update s.db m.table (s.db m.table ++ [row]) } =
      (db.rowId m.table (s.db m.table) pk.nm).toInt

/-- The integer that the database gives to an AUTOINC key next fits into its member. -/
def IdFits (db : SqliteDb) (m : Model) (pk : Field) (rows : List (Row Cell)) : Prop :=
  pk.isAutoinc = true → pk.type = .int →
    (db.rowId m.table rows pk.nm).toInt32.toInt64 = db.rowId m.table rows pk.nm

namespace StoreModel

variable (hm : StoreModel m pk)

include hm

theorem valid : Validated m := validated_of_ok hm.registered

theorem pk_mem : pk ∈ m.fields := by
  have h : pk ∈ m.fields.filter fun f => f.isPrimary := hm.primary ▸ List.mem_singleton_self pk
  exact List.mem_of_mem_filter h

theorem updateFields_ne : updateFields m ≠ [] := by
  obtain ⟨f, hf⟩ := hm.other
  exact List.ne_nil_of_mem ((mem_updateFields_iff hm.primary).mpr hf)

theorem not_autoinc {f : Field} (hf : f ∈ m.fields) (hne : f ≠ pk) : f.isAutoinc = false :=
  Bool.eq_false_iff.mpr fun ha => hne (hm.autoinc f hf ha).1

end StoreModel

/-! ## Keys -/

variable (db) in
theorem mapM_bind_member (r : Record) (fs : List Field) :
    (fs.mapM fun f => db.dbms.bind (fieldGetValue r f)) =
      some (fs.map fun f => memberCell db.lib f.size f.type (r f)) := by
  rw [Sql.mapM_eq_some_iff, List.map_map]
  exact List.map_congr_left fun f _ => bind_member r f

/-- **The database compares keys as the records do.** -/
theorem keyEq_iff (hm : StoreModel m pk) (hdb : StoreDb db m pk) (hr : Kept db.lib.limit m r)
    (hu : Kept db.lib.limit m u) (hrow : RowIs db m r row) :
    keyEq db.dbms pk row u = decide (SameKey pk u r) := by
  have hpk := hm.pk_mem
  have hst := hm.storable pk hpk
  have hcell := hrow pk hpk
  have hclass : storageType (row pk.nm) = pk.type.column := by
    rw [hcell]
    exact storageType_member hst (hr.blob hpk) _
  have hpred := hdb.compares row _ hclass
    (storageType_member (L := db.lib) hst (hu.blob hpk) (u pk))
  rw [hcell, ne_eq, memberCell_null_iff hst (hu.whole pk hpk),
    memberCell_eq_iff hst (hr.whole pk hpk) (hu.whole pk hpk)] at hpred
  rw [Bool.eq_iff_iff, keyEq_eq_true, decide_eq_true_eq, SameKey]
  constructor
  · rintro ⟨v, hv, htrue⟩
    obtain rfl := Option.some.inj ((bind_member u pk).symm.trans hv)
    obtain ⟨hsame, hnull⟩ := hpred.mp htrue
    exact ⟨hnull, sameMember_symm hsame⟩
  · rintro ⟨hnull, hsame⟩
    exact ⟨_, bind_member u pk, hpred.mpr ⟨sameMember_symm hsame, hnull⟩⟩

/-! ## What the calls make of a row -/

theorem lastWith_eq (hm : StoreModel m pk) (hdb : StoreDb db m pk) (hr : Kept db.lib.limit m r)
    (hus : ∀ u ∈ us, Kept db.lib.limit m u) (hrow : RowIs db m r row) :
    lastWith db.dbms pk us row = (us.filter fun u => decide (SameKey pk u r)).getLast? := by
  unfold lastWith
  congr 1
  exact List.filter_congr fun u hu => keyEq_iff hm hdb hr (hus u hu) hrow

/-- **What an update makes of a row.** -/
theorem rowIs_overwrite (hm : StoreModel m pk) (hdb : StoreDb db m pk) (hr : Kept db.lib.limit m r)
    (hus : ∀ u ∈ us, Kept db.lib.limit m u) (hrow : RowIs db m r row) :
    RowIs db m (overwrite pk us r)
      (us.foldl (stepRow db.dbms pk (boundSets db.dbms (updateFields m))) row) := by
  have hcols (u : Record) : (boundSets db.dbms (updateFields m) u).map Prod.fst =
      (updateFields m).map Field.nm := boundSets_cols (mapM_bind_member db u _)
  have hnot := pk_notMem_updateFields hm.valid (pkField_of_filter hm.primary)
  rw [foldl_stepRow (D := db.dbms) hdb.reads (fun u _ => hcols u) hnot,
    lastWith_eq hm hdb hr hus hrow]
  intro f hf
  by_cases hfpk : f = pk
  · -- no assignment is to the key
    subst hfpk
    rw [overwrite_self, ← hrow f hf]
    cases (us.filter fun u => decide (SameKey f u r)).getLast? with
    | none => rfl
    | some u => exact Sql.assign_of_notMem (by rwa [hcols]) row
  · rw [overwrite_of_ne hfpk]
    cases (us.filter fun u => decide (SameKey pk u r)).getLast? with
    | none => exact hrow f hf
    | some u =>
      have hsub : (updateFields m).Sublist m.fields := List.filter_sublist
      -- assigning the values of the record once more changes nothing
      have hbound := (assign_boundSets_iff hm.valid hsub (mapM_bind_member db u _) _).mp
        (Sql.assign_assign rfl row) f ((mem_updateFields_iff hm.primary).mpr ⟨hf, hfpk⟩)
      rw [bind_member] at hbound
      exact (Option.some.inj hbound).symm

theorem overwrite_member {P : (f : Field) → Member f.size f.type → Prop}
    (hr : ∀ f ∈ m.fields, P f (r f)) (hus : ∀ u ∈ us, ∀ f ∈ m.fields, P f (u f)) :
    ∀ f ∈ m.fields, P f (overwrite pk us r f) := by
  intro f hf
  by_cases hfpk : f = pk
  · subst hfpk
    rw [overwrite_self]
    exact hr f hf
  · rw [overwrite_of_ne hfpk]
    cases hl : (us.filter fun u => decide (SameKey pk u r)).getLast? with
    | none => exact hr f hf
    | some u => exact hus u (List.mem_of_mem_filter (List.mem_of_getLast? hl)) f hf

theorem Kept.overwrite {limit : ℕ} (hr : Kept limit m r) (hus : ∀ u ∈ us, Kept limit m u) :
    Kept limit m (overwrite pk us r) where
  terminated := overwrite_member hr.terminated fun u hu => (hus u hu).terminated
  whole := overwrite_member hr.whole fun u hu => (hus u hu).whole

theorem idMember_cell {L : Sqlite} {size : ℕ} {t : FieldType} (ht : t = .int ∨ t = .int64)
    {n : Int64} (hn : t = .int → n.toInt32.toInt64 = n) :
    memberCell L size t (idMember size t n.toInt) = .integer n := by
  rcases ht with rfl | rfl
  · have hid : Int32.ofInt n.toInt = n.toInt32 := by simp
    show Cell.integer (Int32.ofInt n.toInt).toInt64 = _
    rw [hid, hn rfl]
  · show Cell.integer (Int64.ofInt n.toInt) = _
    rw [Int64.ofInt_toInt]

theorem kept_int (limit : ℕ) {size : ℕ} {t : FieldType} (ht : t = .int ∨ t = .int64)
    (x : Member size t) : Terminated size t x ∧ Whole limit size t x := by
  rcases ht with rfl | rfl <;> exact ⟨trivial, trivial⟩

/-- **The row of an insert**, under the key that is reported. -/
theorem rowIs_withKey (hm : StoreModel m pk) (hfits : IdFits db m pk rows)
    (hrow : createdRow db.dbms m rows r = some row) :
    RowIs db m (withKey pk (db.rowId m.table rows pk.nm).toInt r) row := by
  intro f hf
  unfold withKey
  cases ha : f.isAutoinc with
  | false =>
    have hbound := createdRow_field hm.valid hrow hf ha
    rw [bind_member] at hbound
    rw [← Option.some.inj hbound]
    split_ifs with hpk
    · have hne : f ≠ pk := by
        rintro rfl
        rw [hpk] at ha
        cases ha
      rw [Function.update_of_ne hne]
    · rfl
  | true =>
    obtain ⟨rfl, htype⟩ := hm.autoinc f hf ha
    rw [createdRow_autoinc hm.valid hrow hf ha, if_pos ha, Function.update_self]
    exact (idMember_cell htype (hfits ha)).symm

theorem Kept.withKey {limit : ℕ} (hr : Kept limit m r) (hm : StoreModel m pk) (id : ℤ) :
    Kept limit m (withKey pk id r) := by
  unfold Corm.withKey
  split_ifs with ha
  · have hint := @kept_int limit pk.size _ (hm.autoinc pk hm.pk_mem ha).2
    refine ⟨fun f hf => ?_, fun f hf => ?_⟩ <;> by_cases hfpk : f = pk
    · subst hfpk
      exact (hint _).1
    · rw [Function.update_of_ne hfpk]
      exact hr.terminated f hf
    · subst hfpk
      exact (hint _).2
    · rw [Function.update_of_ne hfpk]
      exact hr.whole f hf
  · exact hr

/-! ## Reading -/

theorem fieldValue_kept (hm : StoreModel m pk) (hrows : List.Forall₂ (RowIs db m) rs rows)
    (hrs : ∀ r ∈ rs, Kept db.lib.limit m r) (hr : Kept db.lib.limit m r)
    (hrow : RowIs db m r row) (hmem : row ∈ rows)
    {f : Field} (hf : f ∈ m.fields) :
    ∃ y, memberSet f.size f.type (zeroMember f.size f.type) (fieldValue db rows f row).v = some y ∧
      SameMember f.size f.type (r f) y := by
  have hst := hm.storable f hf
  have htype : columnType (rows.map fun row => row f.nm) = storageType (row f.nm) := by
    cases hrows with
    | nil => cases hmem
    | @cons first firstRow _ _ h _ =>
      show storageType (firstRow f.nm) = _
      rw [h f hf, hrow f hf, storageType_member hst ((hrs first List.mem_cons_self).blob hf),
        storageType_member hst (hr.blob hf)]
  have hlow (ht : f.type = .blob) : f.size % 2 ^ 32 < 2 ^ 31 :=
    (hr.blob hf ht).trans_lt db.lib.limit_lt
  rw [fieldValue, htype, hrow f hf]
  exact (memberTrip_iff hst hlow (hr.terminated f hf) (Or.inl rfl)).mpr (hr.whole f hf).comesBack

/-- **The record of a row.** -/
theorem readBack (hm : StoreModel m pk) (hdb : StoreDb db m pk)
    (hrows : List.Forall₂ (RowIs db m) rs rows) (hrs : ∀ r ∈ rs, Kept db.lib.limit m r)
    (hr : Kept db.lib.limit m r) (hrow : RowIs db m r row) (hmem : row ∈ rows) :
    ∃ o, fillRecord (tableResult db m.table rows) (rowValues db m.table rows row) m.fields
      zeroRecord = some o ∧ SameMembers m r o := by
  have hval : ∀ f ∈ m.fields, (tableResult db m.table rows).value
      (rowValues db m.table rows row) f.nm = some (fieldValue db rows f row) :=
    fun f hf => tableResult_value (hdb.columns f hf) row
  have hcols : ∀ f ∈ m.fields, ((tableResult db m.table rows).value
      (rowValues db m.table rows row) f.nm).isSome :=
    fun f hf => Option.isSome_iff_exists.mpr ⟨_, hval f hf⟩
  choose y hy hsame using fun f hf => fieldValue_kept hm hrows hrs hr hrow hmem (f := f) hf
  refine ⟨fun f => if hf : f ∈ m.fields then y f hf else zeroRecord f,
    (fillRecord_eq hm.valid.nodup hcols).mpr ⟨fun f hf val hv => ?_, fun f hf => dif_neg hf⟩,
    fun f hf => ?_⟩
  · rw [hval f hf] at hv
    obtain rfl := Option.some.inj hv
    rw [dif_pos hf]
    exact hy f hf
  · simp only [dif_pos hf]
    exact hsame f hf

end Corm
