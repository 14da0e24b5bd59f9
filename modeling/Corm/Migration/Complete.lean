import Corm.Migration.Model
import Mathlib.Logic.Relation

/-!
# Migrations that leave no column out

`corm_auto_migrate` does not look at the results of its ALTER TABLE statements.

* `Allowed`, `MigrateStep`: the requests of a migration, **`migrateModels_spec`**: it sends no
  others;
* `steps_records`, `steps_allowed`: what every request met, and what became of it;
* `MakesUp`: for every column that the database refuses, it accepts another ALTER TABLE;
* **`migration_complete_iff`**: when a migration that returns `CORM_OK` leaves no column out.
-/

namespace Corm

open Sql (Schema Session)
open Relation (ReflTransGen)

variable {D : MigrationDb} {bt : BackendType} {ms : List TableModel} {m : TableModel} {c : Column}
  {st st' : Migration}

/-! ## What is sent -/

/-- The requests of a migration in a schema: columns are added when their table exists without
them. -/
def Allowed (D : MigrationDb) (ms : List TableModel) (s : Schema) : DdlRequest → Prop
  | .createTable m => m ∈ ms
  | .addColumn m c => m ∈ ms ∧ c ∈ m.columns ∧ c.field.isPrimary = false ∧
    ∃ cols, s.tables (D.fold m.table) = some cols ∧ c.nm ∉ cols
  | .createIndex m c => m ∈ ms ∧ c ∈ m.columns ∧ c.isIndex = true

/-- One request. -/
def MigrateStep (D : MigrationDb) (bt : BackendType) (ms : List TableModel)
    (st st' : Migration) : Prop :=
  ∃ r, Allowed D ms st.schema r ∧ st' = st.exec D.toDdlEngine (DdlRequest.text bt) r

/-- What the statements are read as. -/
structure ReadsBack (δ : Sql.Dialect) (bt : BackendType) (ms : List TableModel) : Prop where
  table : ∀ m ∈ ms, ∃ rest : Option _, Sql.readDdl δ (createTableText bt m) =
    rest.map (Sql.Ddl.createTable m.table)
  column : ∀ m ∈ ms, ∀ c ∈ m.columns, ∃ rest : Option _, Sql.readDdl δ (addColumnText bt m c) =
    rest.map (Sql.Ddl.addColumn m.table c.nm)
  index : ∀ m ∈ ms, ∀ c ∈ m.columns, ∃ rest : Option _, Sql.readDdl δ (createIndexText bt m c) =
    rest.map (Sql.Ddl.createIndex (indexName m c))

theorem ident_column (hm : Validated m.model) (hc : c ∈ m.columns) : Ident c.nm := by
  refine hm.ident_nm ?_
  rw [← m.fields_eq]
  exact List.mem_map_of_mem hc

theorem readsBack_of_validated {δ : Sql.Dialect} (hv : ∀ m ∈ ms, Validated m.model) :
    ReadsBack δ bt ms where
  table m hm := read_createTable (hv m hm).table
  column m hm _ hc := read_addColumn (hv m hm).table (ident_column (hv m hm) hc)
  index m hm _ hc := read_createIndex (hv m hm).table (ident_column (hv m hm) hc)

theorem steps_grows (h : ReflTransGen (MigrateStep D bt ms) st st') :
    st.schema.Grows st'.schema := by
  induction h with
  | refl => exact .refl _
  | tail _ hstep ih =>
    obtain ⟨r, -, rfl⟩ := hstep
    exact ih.trans (Session.exec_grows _ r)

theorem steps_sent (h : ReflTransGen (MigrateStep D bt ms) st st') : st.sent ⊆ st'.sent := by
  induction h with
  | refl => exact List.Subset.refl _
  | tail _ hstep ih =>
    obtain ⟨r, -, rfl⟩ := hstep
    rw [Session.exec_sent]
    exact List.Subset.trans ih (List.subset_append_left _ _)

/-- **The record of a migration.** -/
theorem steps_records (h : ReflTransGen (MigrateStep D bt ms) st st')
    (hst : Session.Records D.toDdlEngine (DdlRequest.text bt) st) :
    Session.Records D.toDdlEngine (DdlRequest.text bt) st' := by
  induction h with
  | refl => exact hst
  | tail _ hstep ih =>
    obtain ⟨r, -, rfl⟩ := hstep
    exact ih.exec r

theorem steps_allowed (h : ReflTransGen (MigrateStep D bt ms) st st')
    (hst : ∀ e ∈ st.sent, Allowed D ms e.before e.request) :
    ∀ e ∈ st'.sent, Allowed D ms e.before e.request := by
  induction h with
  | refl => exact hst
  | tail _ hstep ih =>
    obtain ⟨r, hr, rfl⟩ := hstep
    rw [Session.exec_sent, List.forall_mem_append, List.forall_mem_singleton]
    exact ⟨ih, hr⟩

/-! ## One model -/

theorem cormExec_ok (st : Migration) (r : DdlRequest) :
    (cormExec D bt st r).1 = .ok ↔ (D.run st.schema (r.text bt)).isSome = true := by
  rw [cormExec_eq]
  split_ifs with h <;> simp [h]

theorem cormExec_sent (st : Migration) (r : DdlRequest) : (cormExec D bt st r).2.sent =
    st.sent ++ [⟨st.schema, r, (D.run st.schema (r.text bt)).isSome⟩] := Session.exec_sent st r

theorem mem_cormExec (D : MigrationDb) (bt : BackendType) (st : Migration) (r : DdlRequest) :
    ⟨st.schema, r, (D.run st.schema (r.text bt)).isSome⟩ ∈ (cormExec D bt st r).2.sent := by
  rw [cormExec_sent]
  exact List.mem_append_right _ (List.mem_singleton_self _)

theorem cormExec_step (r : DdlRequest) (hr : Allowed D ms st.schema r) :
    MigrateStep D bt ms st (cormExec D bt st r).2 := ⟨r, hr, rfl⟩

/-- What a request for one more column leaves of its table: all of it, with the column or without. -/
theorem tables_addColumn (hread : ∃ rest : Option _, Sql.readDdl D.dialect (addColumnText bt m c) =
      rest.map (Sql.Ddl.addColumn m.table c.nm)) {cols : List Text}
    (ht : st.schema.tables (D.fold m.table) = some cols) :
    ∃ cols', (cormExec D bt st (.addColumn m c)).2.schema.tables (D.fold m.table) = some cols' ∧
      ∀ n ∈ cols', n ∈ cols ∨ n = c.nm := by
  rw [cormExec_eq]
  cases hrun : D.run st.schema ((DdlRequest.addColumn m c).text bt) with
  | none =>
    rw [Session.exec_none hrun]
    exact ⟨cols, ht, fun n hn => Or.inl hn⟩
  | some s =>
    obtain ⟨rest, -, hexec⟩ := Sql.DdlEngine.execute_of_run hread hrun
    obtain ⟨cols', hcols, hcols'⟩ := Sql.DdlEngine.execute_addColumn hexec
    obtain rfl := Option.some.inj (ht.symm.trans hcols)
    rw [Session.exec_some hrun]
    exact ⟨_, hcols', fun n hn => by simpa using hn⟩

theorem has_addColumn (hread : ∃ rest : Option _, Sql.readDdl D.dialect (addColumnText bt m c) =
      rest.map (Sql.Ddl.addColumn m.table c.nm)) (st : Migration) :
    (cormExec D bt st (.addColumn m c)).2.schema.Has (D.fold m.table) c.nm ∨
      ∃ e ∈ (cormExec D bt st (.addColumn m c)).2.sent,
        e.request = .addColumn m c ∧ e.ok = false := by
  cases hrun : D.run st.schema ((DdlRequest.addColumn m c).text bt) with
  | none => exact Or.inr ⟨_, mem_cormExec D bt st _, rfl, by rw [hrun]; rfl⟩
  | some s =>
    obtain ⟨rest, -, hexec⟩ := Sql.DdlEngine.execute_of_run hread hrun
    obtain ⟨cols, -, hcols⟩ := Sql.DdlEngine.execute_addColumn hexec
    rw [cormExec_eq, Session.exec_some hrun]
    exact Or.inl ⟨_, hcols, by simp⟩

/-- **The loop that adds columns**: what it sends, and what it leaves out. `existing` names the
columns of `cs` that are there. -/
theorem addColumns_spec (hread : ReadsBack D.dialect bt ms) (hm : m ∈ ms) (existing : List Text)
    {cs : List Column} (hcs : cs ⊆ m.columns) (hnodup : (cs.map Column.nm).Nodup)
    {cols : List Text} (ht : st.schema.tables (D.fold m.table) = some cols)
    (hcols : ∀ c ∈ cs, c.nm ∈ cols → c.nm ∈ existing) :
    ReflTransGen (MigrateStep D bt ms) st (addColumns D bt m (some existing) st cs) ∧
    ∀ c ∈ cs, c.field.isPrimary = false → c.nm ∈ existing ∨
      (addColumns D bt m (some existing) st cs).schema.Has (D.fold m.table) c.nm ∨
      ∃ e ∈ (addColumns D bt m (some existing) st cs).sent,
        e.request = .addColumn m c ∧ e.ok = false := by
  induction cs generalizing st cols with
  | nil => exact ⟨.refl, by simp⟩
  | cons c cs ih =>
    obtain ⟨hc, hcs⟩ := List.cons_subset.mp hcs
    obtain ⟨hfirst, hnodup⟩ := List.nodup_cons.mp hnodup
    have hrest : ∀ c ∈ cs, c.nm ∈ cols → c.nm ∈ existing :=
      fun c hc => hcols c (List.mem_cons_of_mem _ hc)
    rw [addColumns]
    by_cases hp : c.field.isPrimary = true
    · rw [if_pos hp]
      obtain ⟨hsteps, hcov⟩ := ih hcs hnodup ht hrest
      refine ⟨hsteps, List.forall_mem_cons.mpr ⟨fun h => ?_, hcov⟩⟩
      rw [hp] at h
      cases h
    · rw [if_neg hp]
      by_cases hex : c.nm ∈ existing
      · rw [if_pos (by simpa using hex)]
        obtain ⟨hsteps, hcov⟩ := ih hcs hnodup ht hrest
        exact ⟨hsteps, List.forall_mem_cons.mpr ⟨fun _ => Or.inl hex, hcov⟩⟩
      · rw [if_neg (by simpa using hex)]
        have hmissing : c.nm ∉ cols := fun h => hex (hcols c List.mem_cons_self h)
        have hstep : MigrateStep D bt ms st (cormExec D bt st (.addColumn m c)).2 :=
          cormExec_step (.addColumn m c) ⟨hm, hc, by simpa using hp, cols, ht, hmissing⟩
        obtain ⟨cols', ht', hcols'⟩ := tables_addColumn (hread.column m hm c hc) ht
        obtain ⟨hsteps, hcov⟩ := ih hcs hnodup ht' fun d hd hmem => by
          refine (hcols' _ hmem).elim (hrest d hd) fun heq => absurd ?_ hfirst
          rw [← heq]
          exact List.mem_map_of_mem hd
        refine ⟨.head hstep hsteps, List.forall_mem_cons.mpr ⟨fun _ => Or.inr ?_, hcov⟩⟩
        refine (has_addColumn (hread.column m hm c hc) st).imp (steps_grows hsteps).has ?_
        rintro ⟨e, he, hreq⟩
        exact ⟨e, steps_sent hsteps he, hreq⟩

theorem createIndexes_steps (D : MigrationDb) (bt : BackendType) (hm : m ∈ ms) {cs : List Column}
    (hcs : cs ⊆ m.columns) (st : Migration) :
    ReflTransGen (MigrateStep D bt ms) st (createIndexes D bt m st cs) := by
  induction cs generalizing st with
  | nil => exact .refl
  | cons c cs ih =>
    obtain ⟨hc, hcs⟩ := List.cons_subset.mp hcs
    rw [createIndexes]
    split_ifs with hidx
    · exact .head (cormExec_step (.createIndex m c) ⟨hm, hc, hidx⟩) (ih hcs _)
    · exact ih hcs st

/-- The column is there, or an ALTER TABLE for it was refused. -/
def AddedOrRefused (D : MigrationDb) (st : Migration) (m : TableModel) (c : Column) : Prop :=
  st.schema.Has (D.fold m.table) c.nm ∨ ∃ e ∈ st.sent, e.request = .addColumn m c ∧ e.ok = false

theorem AddedOrRefused.steps (h : AddedOrRefused D st m c)
    (hsteps : ReflTransGen (MigrateStep D bt ms) st st') : AddedOrRefused D st' m c := by
  refine h.imp (steps_grows hsteps).has ?_
  rintro ⟨e, he, hreq⟩
  exact ⟨e, steps_sent hsteps he, hreq⟩

theorem nodup_columns (hv : Validated m.model) : (m.columns.map Column.nm).Nodup := by
  have hnodup := hv.nodup
  rw [← m.fields_eq, List.map_map] at hnodup
  exact hnodup

theorem has_createTable (D : MigrationDb) (st : Migration)
    (hread : ∃ rest : Option _, Sql.readDdl D.dialect (createTableText bt m) =
      rest.map (Sql.Ddl.createTable m.table)) (hok : (cormExec D bt st (.createTable m)).1 = .ok) :
    ∃ cols rest,
      (cormExec D bt st (.createTable m)).2.schema.tables (D.fold m.table) = some cols ∧
      Sql.readDdl D.dialect (createTableText bt m) = some (.createTable m.table rest) := by
  obtain ⟨s, hrun⟩ := Option.isSome_iff_exists.mp ((cormExec_ok st _).mp hok)
  obtain ⟨rest, hrest, hexec⟩ := Sql.DdlEngine.execute_of_run hread hrun
  obtain ⟨cols, hcols⟩ := Sql.DdlEngine.execute_createTable hexec
  rw [cormExec_eq, Session.exec_some hrun]
  exact ⟨cols, rest, hcols, hrest⟩

theorem migrateModel_rejected (h : (cormExec D bt st (.createTable m)).1 ≠ .ok) :
    migrateModel D bt st m = cormExec D bt st (.createTable m) := by
  unfold migrateModel
  rcases hcreate : cormExec D bt st (.createTable m) with ⟨err, st₁⟩
  rw [hcreate] at h
  cases err with
  | ok => exact absurd rfl h
  | _ => rfl

/-- A model whose CREATE TABLE is executed: columns are added, then indexes are created. -/
theorem migrateModel_created (hread : ReadsBack D.dialect bt ms) (hm : m ∈ ms) (hv : Validated m.model)
    (hdesc : ∀ s, D.describes s m.table = true)
    (hok : (cormExec D bt st (.createTable m)).1 = .ok) :
    ∃ st₂, ReflTransGen (MigrateStep D bt ms) (cormExec D bt st (.createTable m)).2 st₂ ∧
      migrateModel D bt st m = (.ok, createIndexes D bt m st₂ m.columns) ∧
      ∀ c ∈ m.columns, c.field.isPrimary = false → AddedOrRefused D st₂ m c := by
  obtain ⟨cols, -, ht, -⟩ := has_createTable D st (hread.table m hm) hok
  unfold migrateModel
  rcases hcreate : cormExec D bt st (.createTable m) with ⟨err, st₁⟩
  rw [hcreate] at hok ht
  obtain rfl : err = .ok := hok
  have hexisting : D.toSchemaDb.describeTable st₁.schema m.table = some cols := by
    rw [MigrationDb.toSchemaDb_describeTable, MigrationDb.describeTable, if_pos (hdesc _), ht]
    rfl
  obtain ⟨hadd, hcov⟩ := addColumns_spec hread hm cols (List.Subset.refl _) (nodup_columns hv) ht
    fun _ _ h => h
  simp only [hexisting]
  refine ⟨_, hadd, rfl, fun c hc hp => ?_⟩
  obtain hmem | hhas := hcov c hc hp
  · exact Or.inl ((steps_grows hadd).has ⟨cols, ht, hmem⟩)
  · exact hhas

/-- **One model**: what it sends, and what it leaves out. -/
theorem migrateModel_spec (hread : ReadsBack D.dialect bt ms) (hm : m ∈ ms) (hv : Validated m.model)
    (hdesc : ∀ s, D.describes s m.table = true) (st : Migration) :
    ReflTransGen (MigrateStep D bt ms) st (migrateModel D bt st m).2 ∧
    ((migrateModel D bt st m).1 = .ok → ∀ c ∈ m.columns, c.field.isPrimary = false →
      AddedOrRefused D (migrateModel D bt st m).2 m c) := by
  have hstep : MigrateStep D bt ms st (cormExec D bt st (.createTable m)).2 :=
    cormExec_step (.createTable m) hm
  by_cases hok : (cormExec D bt st (.createTable m)).1 = .ok
  · obtain ⟨st₂, hadd, heq, hcov⟩ := migrateModel_created hread hm hv hdesc hok
    have hindex := createIndexes_steps D bt hm (List.Subset.refl m.columns) st₂
    rw [heq]
    exact ⟨.head hstep (hadd.trans hindex), fun _ c hc hp => (hcov c hc hp).steps hindex⟩
  · rw [migrateModel_rejected hok]
    exact ⟨.single hstep, fun h => absurd h hok⟩

/-- **The loop over the models.** -/
theorem migrateModels_spec (hread : ReadsBack D.dialect bt ms) (hv : ∀ m ∈ ms, Validated m.model)
    (hdesc : ∀ m ∈ ms, ∀ s, D.describes s m.table = true) {ns : List TableModel} (hns : ns ⊆ ms)
    (st : Migration) :
    ReflTransGen (MigrateStep D bt ms) st (migrateModels D bt st ns).2 ∧
    ((migrateModels D bt st ns).1 = .ok → ∀ m ∈ ns, ∀ c ∈ m.columns, c.field.isPrimary = false →
      AddedOrRefused D (migrateModels D bt st ns).2 m c) := by
  induction ns generalizing st with
  | nil => exact ⟨.refl, by simp⟩
  | cons m ns ih =>
    obtain ⟨hm, hns⟩ := List.cons_subset.mp hns
    obtain ⟨hsteps, hcov⟩ := migrateModel_spec hread hm (hv m hm) (hdesc m hm) st
    rcases hmodel : migrateModel D bt st m with ⟨err, st₁⟩
    rw [hmodel] at hsteps hcov
    by_cases herr : err = .ok
    · subst herr
      rw [migrateModels_ok D bt hmodel]
      obtain ⟨hrest, hcovs⟩ := ih hns st₁
      refine ⟨hsteps.trans hrest, fun hok => List.forall_mem_cons.mpr ⟨fun c hc hp => ?_, hcovs hok⟩⟩
      exact (hcov rfl c hc hp).steps hrest
    · rw [migrateModels_err D bt hmodel herr]
      exact ⟨hsteps, fun h => absurd h herr⟩

/-! ## The whole migration -/

/-- For every column that the database refuses, it accepts another ALTER TABLE of the migration. -/
def MakesUp (D : MigrationDb) (out : Migration) : Prop :=
  ∀ e ∈ out.sent, e.ok = false → ∀ m c, e.request = .addColumn m c →
    ∃ e' ∈ out.sent, e'.ok = true ∧ ∃ m' c', e'.request = .addColumn m' c' ∧
      D.fold m'.table = D.fold m.table ∧ c'.nm = c.nm

theorem has_of_accepted (hread : ReadsBack D.dialect bt ms)
    (hrec : Session.Records D.toDdlEngine (DdlRequest.text bt) st)
    (hallowed : ∀ e ∈ st.sent, Allowed D ms e.before e.request) {e : Sql.Sent DdlRequest}
    (he : e ∈ st.sent) (hok : e.ok = true) (hreq : e.request = .addColumn m c) :
    st.schema.Has (D.fold m.table) c.nm := by
  have hadd := hallowed e he
  rw [hreq] at hadd
  obtain ⟨hm, hc, -, -⟩ := hadd
  obtain ⟨d, hd⟩ := hrec.read e he hok
  rw [hreq] at hd
  obtain ⟨rest, rfl⟩ := Sql.DdlEngine.eq_of_read (hread.column m hm c hc) hd
  refine hrec.added e he hok m.table c.nm rest ?_
  rw [hreq]
  exact hd

theorem request_of_read (hread : ReadsBack D.dialect bt ms) {s : Schema} {r : DdlRequest}
    (hr : Allowed D ms s r) {t n : Text} {rest : List Sql.Tok}
    (h : Sql.readDdl D.dialect (r.text bt) = some (.addColumn t n rest)) :
    ∃ m c, r = .addColumn m c ∧ m.table = t ∧ c.nm = n := by
  cases r with
  | createTable m =>
    obtain ⟨us, hus⟩ := Sql.DdlEngine.eq_of_read (hread.table m hr) h
    cases hus
  | addColumn m c =>
    obtain ⟨us, hus⟩ := Sql.DdlEngine.eq_of_read (hread.column m hr.1 c hr.2.1) h
    obtain ⟨ht, hn, -⟩ := Sql.Ddl.addColumn.inj hus
    exact ⟨m, c, rfl, ht.symm, hn.symm⟩
  | createIndex m c =>
    obtain ⟨us, hus⟩ := Sql.DdlEngine.eq_of_read (hread.index m hr.1 c hr.2.1) h
    cases hus

/-- **When a migration that returns `CORM_OK` leaves no column out**: exactly when every refused
ALTER TABLE is made up for by another one. -/
theorem migration_complete_iff (hv : ∀ m ∈ ms, validateModel m.model = .ok)
    (hdesc : ∀ m ∈ ms, ∀ s, D.describes s m.table = true) (s : Schema)
    (hok : (autoMigrate D bt s ms).1 = .ok) :
    (∀ m ∈ ms, ∀ c ∈ m.columns, c.field.isPrimary = false →
      (autoMigrate D bt s ms).2.schema.Has (D.fold m.table) c.nm) ↔
      MakesUp D (autoMigrate D bt s ms).2 := by
  have hvalid : ∀ m ∈ ms, Validated m.model := fun m hm => validated_of_ok (hv m hm)
  have hread : ReadsBack D.dialect bt ms := readsBack_of_validated hvalid
  obtain ⟨hsteps, hcov⟩ := migrateModels_spec hread hvalid hdesc (List.Subset.refl ms) ⟨s, []⟩
  have hrec := steps_records hsteps (Session.Records.start s)
  have hallowed := steps_allowed hsteps (by simp)
  constructor
  · intro h e he hrefused m c hreq
    have hadd := hallowed e he
    rw [hreq] at hadd
    obtain ⟨hm, hc, hp, cols, ht, hmissing⟩ := hadd
    obtain hbefore | ⟨e', he', hok', u, rest, hread', hu⟩ :=
      hrec.traced e he _ _ ⟨cols, ht⟩ (h m hm c hc hp)
    · obtain ⟨cols', ht', hmem⟩ := hbefore
      obtain rfl := Option.some.inj (ht.symm.trans ht')
      exact absurd hmem hmissing
    · obtain ⟨m', c', hreq', rfl, hn⟩ := request_of_read hread (hallowed e' he') hread'
      exact ⟨e', he', hok', m', c', hreq', hu, hn⟩
  · intro h m hm c hc hp
    obtain hhas | ⟨e, he, hreq, hrefused⟩ := hcov hok m hm c hc hp
    · exact hhas
    · obtain ⟨e', he', hok', m', c', hreq', htable, hn⟩ := h e he hrefused m c hreq
      have hhas := has_of_accepted hread hrec hallowed he' hok' hreq'
      rw [htable, hn] at hhas
      exact hhas

/-! ## A column that is left out -/

/-- A database that adds no UNIQUE column to a table, as SQLite. -/
def sqliteDb : MigrationDb where
  dialect := .sqlite
  fold := List.map Char.toLower
  columns := Sql.columnNames
  admits _ d := match d with
    | .addColumn _ _ rest => !rest.contains (.word "UNIQUE".toList)
    | _ => true
  describes _ _ := true

/-- A model for the table of `tests/test_migration.c`, with `id`, `name` and other fields. -/
def migUsers (structSize : ℕ) (fields : List Field) : TableModel where
  model := {
    tableName := some "mig_users".toList
    structSize := structSize
    fields := ⟨some "id".toList, .int, 4, 1⟩ :: ⟨some "name".toList, .string, 64, 0⟩ :: fields
    primaryKey := some ⟨some "id".toList, .int, 4, 1⟩
    primaryKey_mem := by simp
    beforeCreate := none
    afterCreate := none
    beforeUpdate := none
    afterUpdate := none
    beforeDelete := none
    afterDelete := none
    afterFind := none }
  columns := (⟨some "id".toList, .int, 4, 1⟩ :: ⟨some "name".toList, .string, 64, 0⟩ :: fields).map
    fun f => ⟨f, none, none⟩
  fields_eq := by simp [Function.comp_def]

/-- `UserV2` of `tests/test_migration.c`, with an email that is UNIQUE. -/
def uniqueUser : TableModel := migUsers 196 [⟨some "email".toList, .string, 128, 8⟩]

/-- The schema that `UserV1` leaves. -/
def firstVersion : Schema where
  tables t := if t = "mig_users".toList then some ["id".toList, "name".toList] else none
  indexes _ := none

/-- The migration returns `CORM_OK`, and the email is not in the table. -/
theorem migration_misses_email :
    validateModel uniqueUser.model = .ok ∧
    (autoMigrate sqliteDb .sqlite firstVersion [uniqueUser]).1 = .ok ∧
    ¬ ∀ m ∈ [uniqueUser], ∀ c ∈ m.columns, c.field.isPrimary = false →
      (autoMigrate sqliteDb .sqlite firstVersion [uniqueUser]).2.schema.Has
        (sqliteDb.fold m.table) c.nm := by
  have htable : (autoMigrate sqliteDb .sqlite firstVersion [uniqueUser]).2.schema.tables
      (sqliteDb.fold uniqueUser.table) = some ["id".toList, "name".toList] := by decide +kernel
  refine ⟨by decide +kernel, by decide +kernel, fun h => ?_⟩
  obtain ⟨cols, hcols, hmem⟩ := h uniqueUser List.mem_cons_self
    ⟨⟨some "email".toList, .string, 128, 8⟩, none, none⟩ (by simp [uniqueUser, migUsers])
    (by decide +kernel)
  obtain rfl := Option.some.inj (htable.symm.trans hcols)
  exact absurd hmem (by decide +kernel)

theorem migration_complete_iff_uniqueUser :
    (∀ m ∈ [uniqueUser], ∀ c ∈ m.columns, c.field.isPrimary = false →
      (autoMigrate sqliteDb .sqlite firstVersion [uniqueUser]).2.schema.Has
        (sqliteDb.fold m.table) c.nm) ↔
      MakesUp sqliteDb (autoMigrate sqliteDb .sqlite firstVersion [uniqueUser]).2 :=
  migration_complete_iff (by decide +kernel) (fun _ _ _ => rfl) firstVersion (by decide +kernel)

end Corm
