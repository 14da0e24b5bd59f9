import Corm.Dbms
import Corm.Reading.Insert
import Mathlib.Data.List.Nodup

/-!
# What a create does

* `createdRow`: the row of a record; `createdRow_field`: its columns;
* **`createOne_ok`**: a create that succeeds adds that row to the table, and does nothing else.
-/

namespace Corm

open Sql (Row Engine)

variable {V : Type} {bt : BackendType} {D : Dbms V} {m : Model} {s : Store V} {record : Record}

/-- The row that the database makes of a record, next to the rows it has. -/
def createdRow (D : Dbms V) (m : Model) (rows : List (Row V)) (r : Record) : Option (Row V) :=
  ((insertFields m).mapM fun f => D.bind (fieldGetValue r f)).map fun vs =>
    Engine.newRow (insertNames m) vs (D.omitted m.table rows)

theorem lookup_zip {α : Type} {key : α → Text} {g : α → Option V} {l : List α} {vs : List V}
    (hn : (l.map key).Nodup) (h : l.map g = vs.map some) {a : α} (ha : a ∈ l) :
    ((l.map key).zip vs).lookup (key a) = g a := by
  induction l generalizing vs with
  | nil => cases ha
  | cons b l ih =>
    cases vs with
    | nil => cases h
    | cons v vs =>
      obtain ⟨hb, hl⟩ := List.cons.inj h
      obtain ⟨hnot, hn'⟩ := List.nodup_cons.mp hn
      rw [List.map_cons, List.zip_cons_cons, List.lookup_cons]
      rcases List.mem_cons.mp ha with rfl | ha
      · simp [hb]
      · have hne : key a ≠ key b := by
          intro he
          exact hnot (he ▸ List.mem_map_of_mem ha)
        rw [beq_false_of_ne hne]
        exact ih hn' hl ha

theorem createdRow_field (hm : Validated m) {rows : List (Row V)} {r : Record} {row : Row V}
    (hrow : createdRow D m rows r = some row) {f : Field} (hf : f ∈ m.fields)
    (ha : f.isAutoinc = false) : D.bind (fieldGetValue r f) = some (row f.nm) := by
  obtain ⟨vs, hvs, rfl⟩ := Option.map_eq_some_iff.mp hrow
  have hmem : f ∈ insertFields m := List.mem_filter.mpr ⟨hf, by simp [ha]⟩
  have hnodup : (insertNames m).Nodup := hm.nodup.sublist (List.filter_sublist.map Field.nm)
  have hmap := Sql.mapM_eq_some_iff.mp hvs
  have hlook : ((insertNames m).zip vs).lookup f.nm = D.bind (fieldGetValue r f) :=
    lookup_zip hnodup hmap hmem
  have hsome : ∃ v, D.bind (fieldGetValue r f) = some v := by
    obtain ⟨v, -, hv⟩ := List.mem_map.mp (hmap ▸ List.mem_map_of_mem hmem)
    exact ⟨v, hv.symm⟩
  obtain ⟨v, hv⟩ := hsome
  rw [Engine.newRow, hlook, hv]
  rfl

theorem newRow_autoinc (hm : Validated m) {f : Field} (hf : f ∈ m.fields) (ha : f.isAutoinc = true)
    (vs : List V) (rest : Text → V) : Engine.newRow (insertNames m) vs rest f.nm = rest f.nm := by
  have hnot : f.nm ∉ insertNames m := by
    intro h
    obtain ⟨g, hg, hgf⟩ := List.mem_map.mp h
    obtain ⟨hgm, hga⟩ := List.mem_filter.mp hg
    rw [List.inj_on_of_nodup_map hm.nodup hgm hf hgf, ha] at hga
    cases hga
  have hlook : ((insertNames m).zip vs).lookup f.nm = none := by
    rw [List.lookup_eq_none_iff]
    intro p hp
    rw [bne_iff_ne]
    intro heq
    exact hnot (heq ▸ (List.of_mem_zip hp).1)
  rw [Engine.newRow, hlook]
  rfl

theorem createdRow_autoinc (hm : Validated m) {rows : List (Row V)} {r : Record} {row : Row V}
    (hrow : createdRow D m rows r = some row) {f : Field} (hf : f ∈ m.fields)
    (ha : f.isAutoinc = true) : row f.nm = D.omitted m.table rows f.nm := by
  obtain ⟨vs, -, rfl⟩ := Option.map_eq_some_iff.mp hrow
  exact newRow_autoinc hm hf ha vs _

theorem foldl_queryBind (fs : List Field) (r : Record) (q : Query) :
    fs.foldl (fun q f => queryBind q (fieldGetValue r f)) q =
      { q with params := q.params ++ fs.map (fieldGetValue r) } := by
  induction fs generalizing q with
  | nil => simp
  | cons f fs ih =>
    rw [List.foldl_cons, ih]
    simp [queryBind]

theorem ident_returningCol (bt : BackendType) (hm : Validated m) (c : Text)
    (hc : returningCol (queryNew bt m) = some c) : Ident c := by
  unfold returningCol at hc
  split at hc
  · rename_i pk _ hpk
    cases hc
    exact hm.ident_nm (m.primaryKey_mem pk hpk)
  · cases hc

theorem read_insert (bt : BackendType) (hm : Validated m) (r : Record) :
    (D.read bt.dialect (buildInsert (queryNew bt m)) ((insertFields m).map (fieldGetValue r))).bind
      (D.engine.execute D.omitted s.db) =
    if insertFields m = [] then none
    else (createdRow D m (s.db m.table) r).map fun row =>
      Function.update s.db m.table (s.db m.table ++ [row]) := by
  have hns : ∀ f ∈ (queryNew bt m).model.fields, Ident f.nm := fun f hf => hm.ident_nm hf
  have hret := ident_returningCol bt hm
  unfold Dbms.read createdRow
  rw [List.mapM_map]
  show Option.bind (Option.bind (List.mapM (fun f => D.bind (fieldGetValue r f)) _) _) _ = _
  cases hvs : (insertFields m).mapM fun f => D.bind (fieldGetValue r f) with
  | none => split_ifs <;> rfl
  | some vs =>
    have hlen : (insertNames m).length = vs.length := by
      have := congrArg List.length (Sql.mapM_eq_some_iff.mp hvs)
      simpa [insertNames] using this
    split_ifs with hnil
    · rw [Option.bind_some, readStmt_insert_nil hm.table hns hret hnil]
      rfl
    · rw [Option.bind_some, readStmt_insert hm.table hns hret hnil hlen]
      rfl

theorem createOne_err (hm : Validated m) (hb : m.beforeCreate = none) (hne : insertFields m ≠ [])
    (hrow : (createdRow D m (s.db m.table) record).isSome) :
    (createOne (sqlBackend bt D) s m record).err = .ok := by
  obtain ⟨row, hrow⟩ := Option.isSome_iff_exists.mp hrow
  have hbind : bindRecord (queryOp (queryNew bt m) .insert) (some record) =
      { queryOp (queryNew bt m) .insert with
        params := (insertFields m).map (fieldGetValue record) } := foldl_queryBind _ _ _
  have hread := read_insert (D := D) (s := s) bt hm record
  rw [if_neg hne, hrow, Option.map_some] at hread
  have hhook : runHook (queryNew bt m).model.beforeCreate (some record) = (.ok, some record) := by
    show runHook m.beforeCreate _ = _
    rw [hb]
    rfl
  unfold createOne create execWithHooks
  rw [sqlBackend_type, hhook]
  simp only
  rw [hbind]
  have hexec : (sqlBackend bt D).exec s (buildSql (queryOp (queryNew bt m) .insert))
      ((insertFields m).map (fieldGetValue record)) = _ := exec_sql hread
  rw [hexec]

/-- **A create that succeeds** adds the row of the record to the table. -/
theorem createOne_ok (hm : Validated m)
    (hok : (createOne (sqlBackend bt D) s m record).err = .ok) :
    ∃ r row, runHook m.beforeCreate (some record) = (.ok, some r) ∧ insertFields m ≠ [] ∧
      createdRow D m (s.db m.table) r = some row ∧
      (createOne (sqlBackend bt D) s m record).state =
        { s with db := Function.update s.db m.table (s.db m.table ++ [row]) } := by
  obtain ⟨record', db, hhook, hrun, hstate⟩ := execWithHooks_ok hok
  obtain ⟨r, hr⟩ : ∃ r, record' = some r := by
    change runHook m.beforeCreate (some record) = _ at hhook
    unfold runHook at hhook
    cases hb : m.beforeCreate with
    | none =>
      rw [hb] at hhook
      exact ⟨_, (Prod.mk.inj hhook).2.symm⟩
    | some h =>
      rw [hb] at hhook
      exact ⟨_, (Prod.mk.inj hhook).2.symm⟩
  subst hr
  have hbind : bindRecord (queryOp (queryNew bt m) .insert) (some r) =
      { queryOp (queryNew bt m) .insert with
        params := (insertFields m).map (fieldGetValue r) } := foldl_queryBind _ _ _
  have hread : (D.read bt.dialect (buildInsert (queryNew bt m)) ((insertFields m).map (fieldGetValue r))).bind
      (D.engine.execute D.omitted s.db) = some db := by
    rw [show (sqlBackend bt D).type = bt from rfl, hbind] at hrun
    exact hrun
  rw [read_insert bt hm] at hread
  split_ifs at hread with hnil
  obtain ⟨row, hrow, rfl⟩ := Option.map_eq_some_iff.mp hread
  exact ⟨r, row, hhook, hnil, hrow, hstate⟩

end Corm
