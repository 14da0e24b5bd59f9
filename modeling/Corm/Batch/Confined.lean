import Corm.Batch.Statement
import Mathlib.Data.List.Induction
import Mathlib.Data.List.Nodup

/-!
# What a batch leaves alone

A batch looks for the rows of a record by the first PRIMARY field only.

* `batchLoop_ok`: a batch that succeeds ran the statement of every record;
* `foldl_stepRow_const`, `foldl_stepRow`: what the updates of all records make of a row;
* `FullKey`, `Confined`: a batch that changes only rows with the whole key of a record;
* **`batch_confined_iff`**: when it is; `fullKey_or_keeps`: always with one PRIMARY field.
-/

namespace Corm

open Sql (Row Engine Touches)

variable {V : Type} {bt : BackendType} {D : Dbms V} {m : Model} {pk f : Field} {s : Store V}
  {recs : List Record} {rec : Record} {r : Row V} {rows : List (Row V)}

/-! ## The loop -/

/-- The loop over the records, when each statement that succeeds has the effect `F` on a table. -/
theorem batchLoop_ok {one : Store V → Record → Done (Store V)} {t : Text}
    {F : Record → List (Row V) → List (Row V)}
    (hone : ∀ s rec, (one s rec).err = .ok →
      (one s rec).state = { s with db := Function.update s.db t (F rec (s.db t)) })
    {total : ℤ} (hok : (batchLoop one s total recs).1 = .ok) :
    (∀ rec ∈ recs, ∃ s', (one s' rec).err = .ok) ∧
    (batchLoop one s total recs).2.2 = { s with
      db := Function.update s.db t (recs.foldl (fun rows rec => F rec rows) (s.db t)) } := by
  induction recs generalizing s total with
  | nil => exact ⟨by simp, by simp [batchLoop]⟩
  | cons rec recs ih =>
    have hstep := hone s rec
    rw [batchLoop] at hok ⊢
    rcases hd : one s rec with ⟨err, q, record, count, s'⟩
    rw [hd] at hok hstep
    cases err with
    | ok =>
      simp only at hok hstep ⊢
      obtain rfl := hstep trivial
      obtain ⟨hall, hstate⟩ := ih hok
      refine ⟨List.forall_mem_cons.mpr ⟨⟨s, by rw [hd]⟩, hall⟩, ?_⟩
      rw [hstate]
      simp
    | _ => cases hok

theorem foldl_map_stepRow (sets : Record → List (Text × V)) :
    recs.foldl (fun rows rec => rows.map fun r => stepRow D pk sets r rec) rows =
      rows.map fun r => recs.foldl (stepRow D pk sets) r := by
  induction recs generalizing rows with
  | nil => simp
  | cons rec recs ih =>
    rw [List.foldl_cons, ih, List.map_map]
    rfl

theorem foldl_filter_keyEq :
    recs.foldl (fun rows rec => rows.filter fun r => !keyEq D pk r rec) rows =
      rows.filter fun r => !recs.any (keyEq D pk r) := by
  induction recs generalizing rows with
  | nil => simp
  | cons rec recs ih =>
    rw [List.foldl_cons, ih, List.filter_filter]
    refine List.filter_congr fun r _ => ?_
    rw [List.any_cons, Bool.not_or, Bool.and_comm]

/-! ## What becomes of a row -/

/-- With the same assignments for every record: they are made if any record has the key. -/
theorem foldl_stepRow_const (sets : List (Text × V)) (r : Row V) :
    recs.foldl (stepRow D pk fun _ => sets) r =
      if recs.any (keyEq D pk r) then Engine.assign sets r else r := by
  have hstay (recs : List Record) : recs.foldl (stepRow D pk fun _ => sets)
      (Engine.assign sets r) = Engine.assign sets r := by
    induction recs with
    | nil => rfl
    | cons rec recs ih =>
      have hs : stepRow D pk (fun _ => sets) (Engine.assign sets r) rec =
          Engine.assign sets r := by
        unfold stepRow
        split_ifs
        · exact Sql.assign_assign rfl r
        · rfl
      rw [List.foldl_cons, hs, ih]
  induction recs with
  | nil => rfl
  | cons rec recs ih =>
    rw [List.foldl_cons, List.any_cons, stepRow]
    by_cases hk : keyEq D pk r rec = true
    · simp only [hk, if_true, Bool.true_or, hstay]
    · simp only [Bool.not_eq_true] at hk
      simp only [hk, Bool.false_eq_true, if_false, Bool.false_or, ih]

/-- The record that decides what becomes of a row: the last one with its key. -/
def lastWith (D : Dbms V) (pk : Field) (recs : List Record) (r : Row V) : Option Record :=
  (recs.filter (keyEq D pk r)).getLast?

theorem keyEq_congr {c : Text} (heq : D.engine.ReadsAt pk.nm c) {r r' : Row V} (h : r c = r' c)
    (rec : Record) : keyEq D pk r rec = keyEq D pk r' rec := by
  unfold keyEq
  cases D.bind (fieldGetValue rec pk) with
  | none => rfl
  | some v =>
    show (D.engine.pred (Sql.eqItems pk.nm v) r == some true) = _
    rw [heq v r r' h]

/-- With assignments to the same columns, the key not among them: the last record with the key of
the row decides. -/
theorem foldl_stepRow {c : Text} (heq : D.engine.ReadsAt pk.nm c)
    {sets : Record → List (Text × V)} {cols : List Text}
    (hcols : ∀ rec ∈ recs, (sets rec).map Prod.fst = cols) (hpk : c ∉ cols) (r : Row V) :
    recs.foldl (stepRow D pk sets) r =
      match lastWith D pk recs r with
      | some rec => Engine.assign (sets rec) r
      | none => r := by
  induction recs using List.reverseRecOn with
  | nil => rfl
  | append_singleton recs rec ih =>
    have hcols' : ∀ rec ∈ recs, (sets rec).map Prod.fst = cols :=
      fun rec h => hcols rec (List.mem_append_left _ h)
    have hrec : (sets rec).map Prod.fst = cols := hcols rec (by simp)
    have ih := ih hcols'
    rw [List.foldl_append, List.foldl_cons, List.foldl_nil, stepRow]
    have hlast : lastWith D pk (recs ++ [rec]) r =
        if keyEq D pk r rec then some rec else lastWith D pk recs r := by
      unfold lastWith
      rw [List.filter_append, List.filter_singleton]
      cases keyEq D pk r rec <;> simp
    -- the records before leave the key of the row as it was
    have hfold : ∀ r', recs.foldl (stepRow D pk sets) r = r' → keyEq D pk r' rec = keyEq D pk r rec ∧
        Engine.assign (sets rec) r' = Engine.assign (sets rec) r := by
      rintro r' rfl
      rw [ih]
      cases hl : lastWith D pk recs r with
      | none => exact ⟨rfl, rfl⟩
      | some rec' =>
        have hmem : rec' ∈ recs := List.mem_of_mem_filter (List.mem_of_getLast? hl)
        have hk : Engine.assign (sets rec') r c = r c :=
          Sql.assign_of_notMem (by rw [hcols' rec' hmem]; exact hpk) r
        exact ⟨keyEq_congr heq hk rec, Sql.assign_assign (by rw [hcols' rec' hmem, hrec]) r⟩
    obtain ⟨hkey, hassign⟩ := hfold _ rfl
    rw [hkey, hassign, hlast]
    by_cases hk : keyEq D pk r rec = true
    · simp only [hk, if_true]
    · simp only [hk, if_false, Bool.false_eq_true]
      exact ih

theorem assign_boundSets_iff (hm : Validated m) {fs : List Field} (hsub : fs.Sublist m.fields)
    {vs : List V} (hvs : (fs.mapM fun f => D.bind (fieldGetValue rec f)) = some vs) (r : Row V) :
    Engine.assign (boundSets D fs rec) r = r ↔
      ∀ f ∈ fs, D.bind (fieldGetValue rec f) = some (r f.nm) := by
  have hnodup : (fs.map Field.nm).Nodup := hm.nodup.sublist (hsub.map Field.nm)
  have hmap := Sql.mapM_eq_some_iff.mp hvs
  have hlook {f : Field} (hf : f ∈ fs) :
      (boundSets D fs rec).lookup f.nm = D.bind (fieldGetValue rec f) := by
    rw [boundSets_eq hvs]
    exact lookup_zip hnodup hmap hf
  have hbound {f : Field} (hf : f ∈ fs) : ∃ v, D.bind (fieldGetValue rec f) = some v := by
    obtain ⟨v, -, hv⟩ := List.mem_map.mp (hmap ▸ List.mem_map_of_mem hf)
    exact ⟨v, hv.symm⟩
  have hcols := boundSets_cols hvs
  constructor
  · intro h f hf
    obtain ⟨v, hv⟩ := hbound hf
    have hc := congrFun h f.nm
    rw [Engine.assign, hlook hf, hv] at hc
    rw [hv, ← hc]
    rfl
  · intro h
    funext c
    by_cases hc : c ∈ (boundSets D fs rec).map Prod.fst
    · rw [hcols] at hc
      obtain ⟨f, hf, rfl⟩ := List.mem_map.mp hc
      rw [Engine.assign, hlook hf, h f hf]
      rfl
    · exact Sql.assign_of_notMem hc r

/-! ## Confinement -/

/-- The row has the value of the record in every PRIMARY field. -/
def FullKey (D : Dbms V) (m : Model) (r : Row V) (rec : Record) : Prop :=
  ∀ f ∈ m.fields, f.isPrimary = true → keyEq D f r rec = true

/-- From one state to another, only rows with the whole key of some record are changed or
removed. -/
def Confined (D : Dbms V) (m : Model) (recs : List Record) (s s' : Store V) : Prop :=
  (∀ t, t ≠ m.table → s'.db t = s.db t) ∧
    Touches (fun r => ∃ rec ∈ recs, FullKey D m r rec) (s.db m.table) (s'.db m.table)

/-- The two batch functions that look for rows. -/
inductive BatchOp
  | update
  | delete

/-- A call of a batch function. -/
def BatchOp.run {σ ρ : Type} (b : Backend σ ρ) (s : σ) (m : Model) (recs : List Record) :
    BatchOp → Err × ℤ × σ
  | .update => updateBatch b s m recs
  | .delete => deleteBatch b s m recs

/-- The row is as the batch would leave it: no record has its first PRIMARY field, or what the batch
writes stands there already. -/
def BatchOp.Keeps (D : Dbms V) (m : Model) (pk : Field) (recs : List Record) (r : Row V) :
    BatchOp → Prop
  | .update => ∀ rec, lastWith D pk recs r = some rec →
      ∀ f ∈ updateFields m, D.bind (fieldGetValue rec f) = some (r f.nm)
  | .delete => (∀ rec ∈ recs, keyEq D pk r rec = false) ∨
      ∃ f, softDeleteField m = some f ∧ D.bind tombstone = some (r f.nm)

/-- With one PRIMARY field, every row has the whole key of a record or is left as it is. -/
theorem fullKey_or_keeps (hone : ∀ f ∈ m.fields, f.isPrimary = true → f = pk) (op : BatchOp)
    (r : Row V) : (∃ rec ∈ recs, FullKey D m r rec) ∨ op.Keeps D m pk recs r := by
  by_cases hany : ∃ rec ∈ recs, keyEq D pk r rec = true
  · obtain ⟨rec, hrec, hk⟩ := hany
    refine Or.inl ⟨rec, hrec, fun f hf hprim => ?_⟩
    rw [hone f hf hprim]
    exact hk
  · have hnone : ∀ rec ∈ recs, keyEq D pk r rec = false :=
      fun rec hrec => Bool.eq_false_iff.mpr fun hk => hany ⟨rec, hrec, hk⟩
    refine Or.inr ?_
    cases op with
    | update =>
      intro rec hl
      obtain ⟨hmem, hk⟩ := List.mem_filter.mp (List.mem_of_getLast? hl)
      rw [hnone rec hmem] at hk
      cases hk
    | delete => exact Or.inl hnone

/-! ## What a batch does -/

/-- The transaction around the loop, when each statement that succeeds has the effect `F` on a
table. -/
theorem batchTransaction_ok {one : Store V → Record → Done (Store V)} {t : Text}
    {F : Record → List (Row V) → List (Row V)}
    (hone : ∀ s rec, (one s rec).err = .ok →
      (one s rec).state = { s with db := Function.update s.db t (F rec (s.db t)) })
    (hok : (batchTransaction (sqlBackend bt D) one s recs).1 = .ok) :
    (∀ rec ∈ recs, ∃ s', (one s' rec).err = .ok) ∧
    (batchTransaction (sqlBackend bt D) one s recs).2.2.db =
      Function.update s.db t (recs.foldl (fun rows rec => F rec rows) (s.db t)) := by
  have hbegin : ((sqlBackend bt D).begin_ s).2 = { s with saved := some s.db } := rfl
  rw [batchTransaction_eq, hbegin] at hok ⊢
  have hloop : (batchLoop one { s with saved := some s.db } 0 recs).1 = .ok := hok
  obtain ⟨hall, hstate⟩ := batchLoop_ok hone hloop
  refine ⟨hall, ?_⟩
  simp only [hloop, if_true]
  exact congrArg Store.db hstate

theorem updateBatch_ok (hm : Validated m) (hb : bt ≠ .postgres) (hne : updateFields m ≠ [])
    (hpk : pkField m = some pk) (hok : (updateBatch (sqlBackend bt D) s m recs).1 = .ok) :
    (∀ rec ∈ recs, ∃ vs, ((updateFields m).mapM fun f => D.bind (fieldGetValue rec f)) = some vs) ∧
    (updateBatch (sqlBackend bt D) s m recs).2.2.db = Function.update s.db m.table
      ((s.db m.table).map fun r =>
        recs.foldl (stepRow D pk (boundSets D (updateFields m))) r) := by
  unfold updateBatch at hok ⊢
  split_ifs at hok ⊢ with hnil
  simp only [hpk, sqlBackend_type] at hok ⊢
  have hone (s : Store V) (rec : Record) (h : (updateInternal (sqlBackend bt D) s
      (updateBatchQuery bt m pk rec) (some rec)).err = .ok) :
      (updateInternal (sqlBackend bt D) s (updateBatchQuery bt m pk rec) (some rec)).state =
        { s with db := Function.update s.db m.table ((s.db m.table).map fun r =>
            stepRow D pk (boundSets D (updateFields m)) r rec) } :=
    (updateBatch_one hm hb hne hpk h).2
  obtain ⟨hall, hdb⟩ := batchTransaction_ok hone hok
  refine ⟨fun rec hrec => ?_, ?_⟩
  · obtain ⟨s', hs'⟩ := hall rec hrec
    exact (updateBatch_one hm hb hne hpk hs').1
  · rw [hdb]
    simp only [foldl_map_stepRow]

/-- The assignment of a soft delete. -/
def tombstoneSets (D : Dbms V) (f : Field) : List (Text × V) :=
  ((D.bind tombstone).map fun v => (f.nm, v)).toList

theorem deleteBatch_ok_soft (hm : Validated m) (hb : bt ≠ .postgres) (hpk : pkField m = some pk)
    (hf : softDeleteField m = some f) (hok : (deleteBatch (sqlBackend bt D) s m recs).1 = .ok) :
    (∃ v, D.bind tombstone = some v) ∧
    (deleteBatch (sqlBackend bt D) s m recs).2.2.db = Function.update s.db m.table
      ((s.db m.table).map fun r => recs.foldl (stepRow D pk fun _ => tombstoneSets D f) r) := by
  unfold deleteBatch at hok ⊢
  split_ifs at hok ⊢ with hnil
  simp only [hpk, sqlBackend_type] at hok ⊢
  have hone (s : Store V) (rec : Record)
      (h : (deleteBatchOne (sqlBackend bt D) m s (deleteBatchQuery bt m pk rec) rec).err = .ok) :
      (deleteBatchOne (sqlBackend bt D) m s (deleteBatchQuery bt m pk rec) rec).state =
        { s with db := Function.update s.db m.table ((s.db m.table).map fun r =>
            stepRow D pk (fun _ => tombstoneSets D f) r rec) } := by
    obtain ⟨v, hv, hstate⟩ := deleteBatch_soft hm hb hpk hf h
    rw [hstate, tombstoneSets, hv]
    rfl
  obtain ⟨hall, hdb⟩ := batchTransaction_ok hone hok
  constructor
  · obtain ⟨rec, _, rfl⟩ := List.exists_cons_of_ne_nil hnil
    obtain ⟨s', hs'⟩ := hall rec List.mem_cons_self
    obtain ⟨v, hv, -⟩ := deleteBatch_soft hm hb hpk hf hs'
    exact ⟨v, hv⟩
  · rw [hdb]
    simp only [foldl_map_stepRow]

theorem deleteBatch_ok_hard (hm : Validated m) (hb : bt ≠ .postgres) (hpk : pkField m = some pk)
    (hf : softDeleteField m = none) (hok : (deleteBatch (sqlBackend bt D) s m recs).1 = .ok) :
    (deleteBatch (sqlBackend bt D) s m recs).2.2.db = Function.update s.db m.table
      ((s.db m.table).filter fun r => !recs.any (keyEq D pk r)) := by
  unfold deleteBatch at hok ⊢
  split_ifs at hok ⊢ with hnil
  simp only [hpk, sqlBackend_type] at hok ⊢
  have hone (s : Store V) (rec : Record)
      (h : (deleteBatchOne (sqlBackend bt D) m s (deleteBatchQuery bt m pk rec) rec).err = .ok) :
      (deleteBatchOne (sqlBackend bt D) m s (deleteBatchQuery bt m pk rec) rec).state =
        { s with db := Function.update s.db m.table ((s.db m.table).filter fun r =>
            !keyEq D pk r rec) } := deleteBatch_hard hm hb hpk hf h
  obtain ⟨-, hdb⟩ := batchTransaction_ok hone hok
  rw [hdb]
  simp only [foldl_filter_keyEq]

/-! ## When it is confined -/

theorem any_keyEq_false : recs.any (keyEq D pk r) = false ↔ ∀ rec ∈ recs, keyEq D pk r rec = false := by
  simp

theorem pk_notMem_updateFields (hm : Validated m) (hpk : pkField m = some pk) :
    pk.nm ∉ (updateFields m).map Field.nm := by
  intro h
  obtain ⟨f, hf, hnm⟩ := List.mem_map.mp h
  obtain ⟨hfm, hprim⟩ := List.mem_filter.mp hf
  have hpkm := pkField_mem hpk
  obtain rfl : f = pk := List.inj_on_of_nodup_map hm.nodup hfm hpkm hnm
  have hp := List.find?_some hpk
  rw [hp] at hprim
  cases hprim

theorem update_fixes_iff (hm : Validated m) (hpk : pkField m = some pk)
    (heq : D.engine.ReadsEq pk.nm)
    (hvs : ∀ rec ∈ recs, ∃ vs,
      ((updateFields m).mapM fun f => D.bind (fieldGetValue rec f)) = some vs) (r : Row V) :
    recs.foldl (stepRow D pk (boundSets D (updateFields m))) r = r ↔
      BatchOp.update.Keeps D m pk recs r := by
  have hcols : ∀ rec ∈ recs, (boundSets D (updateFields m) rec).map Prod.fst =
      (updateFields m).map Field.nm := by
    intro rec hrec
    obtain ⟨vs, hv⟩ := hvs rec hrec
    exact boundSets_cols hv
  rw [foldl_stepRow heq hcols (pk_notMem_updateFields hm hpk)]
  unfold BatchOp.Keeps
  cases hl : lastWith D pk recs r with
  | none => simp
  | some rec =>
    have hmem : rec ∈ recs := List.mem_of_mem_filter (List.mem_of_getLast? hl)
    obtain ⟨vs, hv⟩ := hvs rec hmem
    show Engine.assign (boundSets D (updateFields m) rec) r = r ↔ _
    have hsub : (updateFields m).Sublist m.fields := List.filter_sublist
    rw [assign_boundSets_iff hm hsub hv r]
    simp

theorem softDelete_fixes_iff (hf : softDeleteField m = some f) {v : V}
    (hv : D.bind tombstone = some v) (r : Row V) :
    recs.foldl (stepRow D pk fun _ => tombstoneSets D f) r = r ↔
      BatchOp.delete.Keeps D m pk recs r := by
  have hsets : tombstoneSets D f = [(f.nm, v)] := by rw [tombstoneSets, hv]; rfl
  have hself : Engine.assign [(f.nm, v)] r = r ↔ v = r f.nm := by
    constructor
    · intro h
      rw [← congrFun h f.nm, Sql.assign_single]
    · rintro rfl
      funext c
      by_cases hc : c = f.nm
      · rw [hc, Sql.assign_single]
      · exact Sql.assign_of_notMem (by simpa using hc) r
  rw [foldl_stepRow_const, hsets]
  unfold BatchOp.Keeps
  rw [← any_keyEq_false]
  cases hany : recs.any (keyEq D pk r) with
  | false => simp
  | true => simp [hself, hf, hv]

/-- **When a batch is confined to the keys of its records**, for one that succeeds on a dialect with
`?`: exactly when each row has the whole key of a record, or is one that the batch leaves as it is,
since no record has its first PRIMARY field, or since it has the values written already. -/
theorem batch_confined_iff (hm : validateModel m = .ok) (hb : bt ≠ .postgres)
    (hne : updateFields m ≠ []) (hpk : pkField m = some pk) (heq : D.engine.ReadsEq pk.nm)
    (op : BatchOp) (hok : (op.run (sqlBackend bt D) s m recs).1 = .ok) :
    Confined D m recs s (op.run (sqlBackend bt D) s m recs).2.2 ↔
      ∀ r ∈ s.db m.table, (∃ rec ∈ recs, FullKey D m r rec) ∨ op.Keeps D m pk recs r := by
  have hv := validated_of_ok hm
  have hframe {rows : List (Row V)} {db : Sql.Database V}
      (h : db = Function.update s.db m.table rows) :
      (∀ t, t ≠ m.table → db t = s.db t) ∧ db m.table = rows := by
    subst h
    exact ⟨fun t ht => Function.update_of_ne ht _ _, Function.update_self _ _ _⟩
  unfold Confined
  cases op with
  | update =>
    obtain ⟨hvs, hdb⟩ := updateBatch_ok hv hb hne hpk hok
    obtain ⟨hother, htable⟩ := hframe hdb
    show (∀ t, t ≠ m.table → (updateBatch _ s m recs).2.2.db t = s.db t) ∧
      Touches _ _ ((updateBatch _ s m recs).2.2.db m.table) ↔ _
    rw [htable, Sql.touches_map_iff, and_iff_right hother]
    simp only [update_fixes_iff hv hpk heq hvs]
  | delete =>
    show (∀ t, t ≠ m.table → (deleteBatch _ s m recs).2.2.db t = s.db t) ∧
      Touches _ _ ((deleteBatch _ s m recs).2.2.db m.table) ↔ _
    cases hf : softDeleteField m with
    | some f =>
      obtain ⟨⟨v, hbind⟩, hdb⟩ := deleteBatch_ok_soft hv hb hpk hf hok
      obtain ⟨hother, htable⟩ := hframe hdb
      rw [htable, Sql.touches_map_iff, and_iff_right hother]
      simp only [softDelete_fixes_iff hf hbind]
    | none =>
      obtain ⟨hother, htable⟩ := hframe (deleteBatch_ok_hard hv hb hpk hf hok)
      rw [htable, Sql.touches_filter_iff, and_iff_right hother]
      simp [BatchOp.Keeps, hf]

/-! ## A composite key -/

/-- The first field of the key of a role. -/
def tenantId : Field := ⟨some "tenant_id".toList, .int, 4, 1⟩

/-- The second field of the key. -/
def userId : Field := ⟨some "user_id".toList, .int, 4, 1⟩

/-- The model of the composite key in `test_migration.c`. -/
def userRoleModel : Model where
  tableName := some "user_roles".toList
  structSize := 40
  fields := [tenantId, userId, ⟨some "role".toList, .string, 32, 0⟩]
  primaryKey := none
  primaryKey_mem := by simp
  beforeCreate := none
  afterCreate := none
  beforeUpdate := none
  afterUpdate := none
  beforeDelete := none
  afterDelete := none
  afterFind := none

/-- A row of the table. -/
def userRole (tenant user role : String) : Row (Option Text) := fun c =>
  if c = tenantId.nm then some tenant.toList
  else if c = userId.nm then some user.toList
  else if c = "role".toList then some role.toList else none

/-- Two users of one tenant. -/
def userRoles : Store (Option Text) :=
  oneTable "user_roles".toList [userRole "1" "1" "admin", userRole "1" "2" "guest"]

/-- The record of the first user, without a role. -/
def firstUser : Record :=
  Function.update (Function.update zeroRecord tenantId (1 : Int32)) userId (1 : Int32)

/-- Updating the first user takes the role of the second one, too. -/
theorem updateBatch_changes_secondUser :
    validateModel userRoleModel = .ok ∧ updateFields userRoleModel ≠ [] ∧
    pkField userRoleModel = some tenantId ∧ textDbms.engine.ReadsEq tenantId.nm ∧
    (BatchOp.update.run (sqlBackend .sqlite textDbms) userRoles userRoleModel [firstUser]).1 = .ok ∧
    ¬ Confined textDbms userRoleModel [firstUser] userRoles
      (BatchOp.update.run (sqlBackend .sqlite textDbms) userRoles userRoleModel [firstUser]).2.2 := by
  refine ⟨by decide +kernel, by decide +kernel, by decide +kernel, Sql.texts_readsEq _,
    by decide +kernel, fun ⟨_, h⟩ => ?_⟩
  have hnot : ¬ ∃ rec ∈ [firstUser],
      FullKey textDbms userRoleModel (userRole "1" "2" "guest") rec := by
    rintro ⟨rec, hrec, hfull⟩
    rw [List.mem_singleton.mp hrec] at hfull
    have hk := hfull userId (by decide +kernel) (by decide +kernel)
    exact absurd hk (by decide +kernel)
  have hrows : userRoles.db userRoleModel.table =
      [userRole "1" "1" "admin", userRole "1" "2" "guest"] := oneTable_self _ _
  rw [hrows] at h
  have hmem := h.mem (List.mem_cons_of_mem _ List.mem_cons_self) hnot
  have hroles : ((BatchOp.update.run (sqlBackend .sqlite textDbms) userRoles userRoleModel
      [firstUser]).2.2.db userRoleModel.table).map (fun r => r "role".toList) =
        [some [], some []] := by
    decide +kernel
  have hrole := List.mem_map_of_mem (f := fun r : Row (Option Text) => r "role".toList) hmem
  rw [hroles] at hrole
  exact absurd hrole (by decide +kernel)

theorem batch_confined_iff_firstUser :
    Confined textDbms userRoleModel [firstUser] userRoles
      (BatchOp.update.run (sqlBackend .sqlite textDbms) userRoles userRoleModel [firstUser]).2.2 ↔
    ∀ r ∈ userRoles.db userRoleModel.table,
      (∃ rec ∈ [firstUser], FullKey textDbms userRoleModel r rec) ∨
        BatchOp.update.Keeps textDbms userRoleModel tenantId [firstUser] r :=
  batch_confined_iff (by decide +kernel) (by decide) (by decide +kernel) (by decide +kernel)
    (Sql.texts_readsEq _) .update (by decide +kernel)

end Corm
