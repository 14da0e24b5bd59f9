import Corm.Migration.Whole

/-!
# Migrating twice

After a migration whose statements were all executed, `corm_auto_migrate` finds nothing to do.

* `UpToDate`: what a migration has to leave of a model, `UpToDate.grows`: it stays;
* `migrateModel_upToDate`: a model whose statements were executed is up to date;
* `migrateModels_again`: models that are up to date send no ALTER TABLE and change nothing;
* `Documented`: a database that executes whole statements as documented, and makes anything of other
  texts; `autoMigrate_documented`: what a migration with plain texts does to it;
* **`migration_idempotent`**: the second of two migrations;
* `migration_drops_name`: a default that goes on behind its column.
-/

namespace Corm

open Sql (Schema Session Tok)
open Relation (ReflTransGen)

variable {D : MigrationDb} {bt : BackendType} {ms : List TableModel} {m : TableModel} {c : Column}
  {st : Migration} {s s' : Schema}

/-! ## Models that are up to date -/

/-- The table, the columns and the indexes of a model are there, and the statements that would
create them can be read. -/
structure UpToDate (D : MigrationDb) (bt : BackendType) (s : Schema) (m : TableModel) : Prop where
  table : ∃ cols rest, s.tables (D.fold m.table) = some cols ∧
    Sql.readDdl D.dialect (createTableText bt m) = some (.createTable m.table rest)
  columns : ∀ c ∈ m.columns, c.field.isPrimary = false → s.Has (D.fold m.table) c.nm
  indexes : ∀ c ∈ m.columns, c.isIndex = true → ∃ d rest,
    s.indexes (D.fold (indexName m c)) = some d ∧
      Sql.readDdl D.dialect (createIndexText bt m c) = some (.createIndex (indexName m c) rest)

theorem UpToDate.grows (h : UpToDate D bt s m) (hgrows : s.Grows s') : UpToDate D bt s' m := by
  refine ⟨?_, fun c hc hp => hgrows.has (h.columns c hc hp), fun c hc hi => ?_⟩
  · obtain ⟨cols, rest, ht, hread⟩ := h.table
    obtain ⟨more, hmore⟩ := hgrows.tables _ _ ht
    exact ⟨_, rest, hmore, hread⟩
  · obtain ⟨d, rest, hd, hread⟩ := h.indexes c hc hi
    exact ⟨d, rest, hgrows.indexes _ _ hd, hread⟩

/-! ## The second migration -/

/-- The requests of a migration that adds no column. -/
def AddsNothing (st st' : Migration) : Prop :=
  st'.schema = st.schema ∧
    ∀ e ∈ st'.sent, e ∈ st.sent ∨ ∀ m c, e.request ≠ .addColumn m c

theorem AddsNothing.refl (st : Migration) : AddsNothing st st := ⟨rfl, fun _ he => Or.inl he⟩

theorem AddsNothing.trans {st st' st'' : Migration} (h : AddsNothing st st')
    (h' : AddsNothing st' st'') : AddsNothing st st'' := by
  refine ⟨h'.1.trans h.1, fun e he => ?_⟩
  exact (h'.2 e he).elim (h.2 e) Or.inr

theorem cormExec_addsNothing {r : DdlRequest} (hr : ∀ m c, r ≠ .addColumn m c)
    (hrun : D.run st.schema (r.text bt) = some st.schema) :
    (cormExec D bt st r).1 = .ok ∧ AddsNothing st (cormExec D bt st r).2 := by
  refine ⟨by rw [cormExec_ok, hrun]; rfl, ?_, ?_⟩
  · rw [cormExec_eq, Session.exec_some hrun]
  · rw [cormExec_sent, List.forall_mem_append, List.forall_mem_singleton]
    exact ⟨fun e he => Or.inl he, Or.inr hr⟩

theorem addColumns_again {existing : List Text} {cs : List Column}
    (hcs : ∀ c ∈ cs, c.field.isPrimary = false → c.nm ∈ existing) :
    addColumns D bt m (some existing) st cs = st := by
  induction cs with
  | nil => rfl
  | cons c cs ih =>
    obtain ⟨hc, hcs⟩ := List.forall_mem_cons.mp hcs
    rw [addColumns]
    split_ifs with hp hex
    · exact ih hcs
    · exact ih hcs
    · exact absurd (by simpa using hc (by simpa using hp)) hex

theorem createIndexes_again (h : UpToDate D bt st.schema m) {cs : List Column}
    (hcs : cs ⊆ m.columns) : AddsNothing st (createIndexes D bt m st cs) := by
  induction cs generalizing st with
  | nil => exact .refl st
  | cons c cs ih =>
    obtain ⟨hc, hcs⟩ := List.cons_subset.mp hcs
    rw [createIndexes]
    split_ifs with hi
    · obtain ⟨d, rest, hd, hread⟩ := h.indexes c hc hi
      have hrun : D.run st.schema ((DdlRequest.createIndex m c).text bt) = some st.schema :=
        Sql.DdlEngine.run_eq_some.mpr
          ⟨_, hread, Sql.DdlEngine.execute_createIndex_exists hd rest⟩
      obtain ⟨-, hnothing⟩ := cormExec_addsNothing (fun _ _ => by simp) hrun
      refine hnothing.trans (ih ?_ hcs)
      rw [hnothing.1]
      exact h
    · exact ih h hcs

theorem migrateModel_again (h : UpToDate D bt st.schema m)
    (hdesc : ∀ s, D.describes s m.table = true) :
    (migrateModel D bt st m).1 = .ok ∧ AddsNothing st (migrateModel D bt st m).2 := by
  obtain ⟨cols, rest, ht, hread⟩ := h.table
  have hrun : D.run st.schema ((DdlRequest.createTable m).text bt) = some st.schema :=
    Sql.DdlEngine.run_eq_some.mpr ⟨_, hread, Sql.DdlEngine.execute_createTable_exists ht rest⟩
  obtain ⟨hok, hnothing⟩ := cormExec_addsNothing (fun _ _ => by simp) hrun
  unfold migrateModel
  rcases hcreate : cormExec D bt st (.createTable m) with ⟨err, st₁⟩
  rw [hcreate] at hok hnothing
  obtain rfl : err = .ok := hok
  obtain ⟨hschema, hsent⟩ := hnothing
  simp only at hschema hsent ⊢
  have hexisting : D.toSchemaDb.describeTable st₁.schema m.table = some cols := by
    rw [MigrationDb.toSchemaDb_describeTable, MigrationDb.describeTable, if_pos (hdesc _), hschema,
      ht]
    rfl
  have hcolumns : ∀ c ∈ m.columns, c.field.isPrimary = false → c.nm ∈ cols := by
    intro c hc hp
    obtain ⟨cols', ht', hmem⟩ := h.columns c hc hp
    rwa [Option.some.inj (ht.symm.trans ht')]
  rw [hexisting, addColumns_again hcolumns]
  refine ⟨trivial, AddsNothing.trans ⟨hschema, hsent⟩ (createIndexes_again ?_ (List.Subset.refl _))⟩
  rw [hschema]
  exact h

/-- **Models that are up to date.** -/
theorem migrateModels_again (st : Migration) (h : ∀ m ∈ ms, UpToDate D bt st.schema m)
    (hdesc : ∀ m ∈ ms, ∀ s, D.describes s m.table = true) :
    AddsNothing st (migrateModels D bt st ms).2 := by
  induction ms generalizing st with
  | nil => exact .refl st
  | cons m ms ih =>
    obtain ⟨hm, hms⟩ := List.forall_mem_cons.mp h
    obtain ⟨hd, hds⟩ := List.forall_mem_cons.mp hdesc
    obtain ⟨hok, hnothing⟩ := migrateModel_again hm hd
    rcases hmodel : migrateModel D bt st m with ⟨err, st₁⟩
    rw [hmodel] at hok hnothing
    obtain rfl : err = .ok := hok
    rw [migrateModels_ok D bt hmodel]
    refine hnothing.trans (ih st₁ ?_ hds)
    rw [hnothing.1]
    exact hms

/-! ## The first migration -/

theorem has_createIndex (hread : ∃ rest : Option _, Sql.readDdl D.dialect (createIndexText bt m c) =
      rest.map (Sql.Ddl.createIndex (indexName m c)))
    (hok : (D.run st.schema ((DdlRequest.createIndex m c).text bt)).isSome = true) :
    ∃ d rest, (cormExec D bt st (.createIndex m c)).2.schema.indexes (D.fold (indexName m c)) =
        some d ∧
      Sql.readDdl D.dialect (createIndexText bt m c) = some (.createIndex (indexName m c) rest) := by
  obtain ⟨s, hrun⟩ := Option.isSome_iff_exists.mp hok
  obtain ⟨rest, hrest, hexec⟩ := Sql.DdlEngine.execute_of_run hread hrun
  obtain ⟨d, hd⟩ := Sql.DdlEngine.execute_createIndex hexec
  rw [cormExec_eq, Session.exec_some hrun]
  exact ⟨d, rest, hd, hrest⟩

theorem createIndexes_has (hread : ReadsBack D.dialect bt ms) (hm : m ∈ ms) {cs : List Column}
    (hcs : cs ⊆ m.columns) (hall : ∀ e ∈ (createIndexes D bt m st cs).sent, e.ok = true) :
    ∀ c ∈ cs, c.isIndex = true → ∃ d rest,
      (createIndexes D bt m st cs).schema.indexes (D.fold (indexName m c)) = some d ∧
        Sql.readDdl D.dialect (createIndexText bt m c) = some (.createIndex (indexName m c) rest) := by
  induction cs generalizing st with
  | nil => simp
  | cons c cs ih =>
    obtain ⟨hc, hcs⟩ := List.cons_subset.mp hcs
    rw [createIndexes] at hall ⊢
    split_ifs at hall ⊢ with hi
    · refine List.forall_mem_cons.mpr ⟨fun _ => ?_, ih hcs hall⟩
      have hsteps := createIndexes_steps D bt hm hcs (cormExec D bt st (.createIndex m c)).2
      have hok := hall _ (steps_sent hsteps (mem_cormExec D bt st _))
      obtain ⟨d, rest, hd, hrest⟩ := has_createIndex (hread.index m hm c hc) hok
      exact ⟨d, rest, (steps_grows hsteps).indexes _ _ hd, hrest⟩
    · refine List.forall_mem_cons.mpr ⟨fun h => absurd h hi, ih hcs hall⟩

/-- **One model** whose statements were executed. -/
theorem migrateModel_upToDate (hread : ReadsBack D.dialect bt ms) (hm : m ∈ ms) (hv : Validated m.model)
    (hdesc : ∀ s, D.describes s m.table = true) (st : Migration)
    (hall : ∀ e ∈ (migrateModel D bt st m).2.sent, e.ok = true) :
    (migrateModel D bt st m).1 = .ok ∧ UpToDate D bt (migrateModel D bt st m).2.schema m := by
  have hcreate : (cormExec D bt st (.createTable m)).1 = .ok := by
    by_contra hrejected
    rw [migrateModel_rejected hrejected] at hall
    exact hrejected ((cormExec_ok st _).mpr (hall _ (mem_cormExec D bt st _)))
  obtain ⟨cols, rest, ht, hrest⟩ := has_createTable D st (hread.table m hm) hcreate
  obtain ⟨st₂, hadd, heq, hcov⟩ := migrateModel_created hread hm hv hdesc hcreate
  have hindex := createIndexes_steps D bt hm (List.Subset.refl m.columns) st₂
  rw [heq] at hall ⊢
  obtain ⟨more, hmore⟩ := (steps_grows (hadd.trans hindex)).tables _ _ ht
  refine ⟨rfl, ⟨_, rest, hmore, hrest⟩, fun c hc hp => ?_,
    createIndexes_has hread hm (List.Subset.refl _) hall⟩
  obtain hhas | ⟨e, he, -, hrefused⟩ := (hcov c hc hp).steps hindex
  · exact hhas
  · rw [hall e he] at hrefused
    cases hrefused

/-- **Models** whose statements were executed. -/
theorem migrateModels_upToDate (hread : ReadsBack D.dialect bt ms) (hv : ∀ m ∈ ms, Validated m.model)
    (hdesc : ∀ m ∈ ms, ∀ s, D.describes s m.table = true) {ns : List TableModel} (hns : ns ⊆ ms)
    (hall : ∀ e ∈ (migrateModels D bt st ns).2.sent, e.ok = true) :
    ∀ m ∈ ns, UpToDate D bt (migrateModels D bt st ns).2.schema m := by
  induction ns generalizing st with
  | nil => simp
  | cons m ns ih =>
    obtain ⟨hm, hns⟩ := List.cons_subset.mp hns
    have hupToDate := migrateModel_upToDate hread hm (hv m hm) (hdesc m hm) st
    rcases hmodel : migrateModel D bt st m with ⟨err, st₁⟩
    rw [hmodel] at hupToDate
    by_cases herr : err = .ok
    · subst herr
      rw [migrateModels_ok D bt hmodel] at hall ⊢
      have hsteps := (migrateModels_spec hread hv hdesc hns st₁).1
      obtain ⟨-, hfirst⟩ := hupToDate fun e he => hall e (steps_sent hsteps he)
      exact List.forall_mem_cons.mpr ⟨hfirst.grows (steps_grows hsteps), ih hns hall⟩
    · rw [migrateModels_err D bt hmodel herr] at hall
      exact absurd (hupToDate hall).1 herr

/-! ## Databases -/

section Documented

variable {B : SchemaDb} {E : MigrationDb}

/-- The database executes the three statements as `E`, each where it ends with its definition, and
describes its tables as `E`. What it makes of other texts is its own. -/
structure Documented (B : SchemaDb) (E : MigrationDb) : Prop where
  run : ∀ s text d, Sql.readDdl E.dialect text = some d → d.Whole → B.run s text = E.execute s d
  describeTable : B.describeTable = E.describeTable

theorem Documented.cormExec (h : Documented B E) {r : DdlRequest}
    (hr : ∃ d, Sql.readDdl E.dialect (r.text bt) = some d ∧ d.Whole) (st : Migration) :
    cormExec B bt st r = cormExec E bt st r := by
  obtain ⟨d, hread, hwhole⟩ := hr
  have hrun : B.run st.schema (r.text bt) = E.run st.schema (r.text bt) := by
    rw [h.run _ _ d hread hwhole, Sql.DdlEngine.run, hread, Option.bind_some]
  rw [Corm.cormExec, cormExec_eq, Session.exec, Session.push, Session.push, hrun]

variable (h : Documented B E) (hread : ∀ r : DdlRequest, r.About ms →
  ∃ d, Sql.readDdl E.dialect (r.text bt) = some d ∧ d.Whole)
include h hread

theorem addColumns_documented (hm : m ∈ ms) (existing : Option (List Text)) (st : Migration)
    {cs : List Column} (hcs : cs ⊆ m.columns) :
    addColumns B bt m existing st cs = addColumns E bt m existing st cs := by
  induction cs generalizing st with
  | nil => rfl
  | cons c cs ih =>
    obtain ⟨hc, hcs⟩ := List.cons_subset.mp hcs
    rw [addColumns, addColumns, h.cormExec (hread (.addColumn m c) ⟨hm, hc⟩)]
    split_ifs
    · exact ih st hcs
    · exact ih st hcs
    · exact ih _ hcs

theorem createIndexes_documented (hm : m ∈ ms) (st : Migration) {cs : List Column}
    (hcs : cs ⊆ m.columns) : createIndexes B bt m st cs = createIndexes E bt m st cs := by
  induction cs generalizing st with
  | nil => rfl
  | cons c cs ih =>
    obtain ⟨hc, hcs⟩ := List.cons_subset.mp hcs
    rw [createIndexes, createIndexes, h.cormExec (hread (.createIndex m c) ⟨hm, hc⟩)]
    split_ifs
    · exact ih _ hcs
    · exact ih st hcs

theorem migrateModel_documented (hm : m ∈ ms) (st : Migration) :
    migrateModel B bt st m = migrateModel E bt st m := by
  have hcols := addColumns_documented h hread hm
  have hindexes := createIndexes_documented h hread hm
  unfold migrateModel
  rw [h.cormExec (hread (.createTable m) hm), h.describeTable]
  simp only [hcols _ _ (List.Subset.refl m.columns), hindexes _ (List.Subset.refl m.columns)]
  rfl

theorem migrateModels_documented {ns : List TableModel} (hns : ns ⊆ ms) (st : Migration) :
    migrateModels B bt st ns = migrateModels E bt st ns := by
  induction ns generalizing st with
  | nil => rfl
  | cons m ns ih =>
    obtain ⟨hm, hns⟩ := List.cons_subset.mp hns
    rw [migrateModels, migrateModels, migrateModel_documented h hread hm]
    rcases migrateModel E bt st m with ⟨err, st₁⟩
    cases err with
    | ok => exact ih hns st₁
    | _ => rfl

end Documented

/-- **What a migration with plain texts does** is what the documentation says of its statements. -/
theorem autoMigrate_documented {B : SchemaDb} {E : MigrationDb} (h : Documented B E)
    (hv : ∀ m ∈ ms, Validated m.model) (hplain : ∀ m ∈ ms, ∀ c ∈ m.columns, c.Plain E.dialect bt)
    (s : Schema) : autoMigrate B bt s ms = autoMigrate E bt s ms :=
  migrateModels_documented h (fun _ hr => request_whole hv hplain hr) (List.Subset.refl ms) ⟨s, []⟩

/-- **Migrating twice**: a migration whose defaults and references stay in their definitions only adds
to the schema; when all its statements were executed, the same migration again sends no ALTER TABLE,
and leaves the schema as it is. -/
theorem migration_idempotent (B : SchemaDb) (E : MigrationDb) (bt : BackendType)
    (ms : List TableModel) (hB : Documented B E) (hv : ∀ m ∈ ms, validateModel m.model = .ok)
    (hplain : ∀ m ∈ ms, ∀ c ∈ m.columns, c.Plain E.dialect bt)
    (hdesc : ∀ m ∈ ms, ∀ s, E.describes s m.table = true) (s : Schema) :
    let first := (autoMigrate B bt s ms).2
    s.Grows first.schema ∧
    ((∀ e ∈ first.sent, e.ok = true) →
      let second := (autoMigrate B bt first.schema ms).2
      (∀ e ∈ second.sent, ∀ m c, e.request ≠ .addColumn m c) ∧ second.schema = first.schema) := by
  have hvalid : ∀ m ∈ ms, Validated m.model := fun m hm => validated_of_ok (hv m hm)
  have hread : ReadsBack E.dialect bt ms := readsBack_of_validated hvalid
  simp only [autoMigrate_documented hB hvalid hplain]
  obtain ⟨hsteps, -⟩ := migrateModels_spec hread hvalid hdesc (List.Subset.refl ms) ⟨s, []⟩
  refine ⟨steps_grows hsteps, fun hall => ?_⟩
  have hupToDate := migrateModels_upToDate hread hvalid hdesc (List.Subset.refl ms) hall
  obtain ⟨hschema, hsent⟩ :=
    migrateModels_again ⟨(autoMigrate E bt s ms).2.schema, []⟩ hupToDate hdesc
  refine ⟨fun e he => ?_, hschema⟩
  exact (hsent e he).resolve_left (by simp)

/-! ## ALTER TABLE with several actions -/

/-- A table without a column. -/
def dropColumn (t : Text) (s : Schema) (c : Text) : Schema :=
  { s with tables := Function.update s.tables t ((s.tables t).map (·.filter (· ≠ c))) }

/-- The columns that the other actions of an ALTER TABLE drop. -/
def dropped (rest : List Tok) : List Text :=
  (Sql.pieces 0 rest).tail.filterMap fun ts =>
    match ts with
    | .word k :: .word c :: _ => if Sql.isKw "DROP".toList k then some c else none
    | _ => none

/-- A database that executes the other actions of an ALTER TABLE as well, as PostgreSQL and MySQL. -/
def severalActions (E : MigrationDb) : SchemaDb where
  run s text :=
    match Sql.readDdl E.dialect text with
    | some (.addColumn t c rest) =>
      (E.execute s (.addColumn t c rest)).map ((dropped rest).foldl (dropColumn (E.fold t)))
    | some d => E.execute s d
    | none => none
  describeTable := E.describeTable

theorem dropped_whole {t c : Text} {rest : List Tok} (h : (Sql.Ddl.addColumn t c rest).Whole) :
    dropped rest = [] := by
  obtain ⟨ts, hrest, hclosed⟩ := h
  have hcomma := hclosed.mono Sql.isBreak_comma
  have htail : ∀ us, (Sql.pieces 0 us).tail = [] → (Sql.pieces 0 (ts ++ us)).tail = [] := by
    intro us hus
    rw [Sql.pieces_append hcomma, List.tail_modifyHead, hus]
  rw [dropped]
  rcases hrest with rfl | rfl
  · rw [← List.append_nil rest, htail [] rfl, List.filterMap_nil]
  · rw [htail [.sym ';'] rfl, List.filterMap_nil]

theorem documented_severalActions (E : MigrationDb) : Documented (severalActions E) E where
  run s text d hread hwhole := by
    cases d with
    | addColumn t c rest =>
      simp only [severalActions, hread, dropped_whole hwhole]
      exact congrFun Option.map_id _
    | _ => simp only [severalActions, hread]
  describeTable := rfl

/-! ## Two models of one table -/

/-- `UserV1` of `tests/test_migration.c`, and `UserV2` with an index on its email. -/
def bothUsers : List TableModel :=
  [migUsers 68 [], migUsers 196 [⟨some "email".toList, .string, 128, 32⟩]]

/-- A database without tables. -/
def emptySchema : Schema := ⟨fun _ => none, fun _ => none⟩

theorem migration_idempotent_bothUsers :
    let first := (autoMigrate (severalActions sqliteDb) .sqlite emptySchema bothUsers).2
    let second := (autoMigrate (severalActions sqliteDb) .sqlite first.schema bothUsers).2
    (∀ e ∈ second.sent, ∀ m c, e.request ≠ .addColumn m c) ∧ second.schema = first.schema :=
  (migration_idempotent (severalActions sqliteDb) sqliteDb .sqlite bothUsers
    (documented_severalActions sqliteDb) (by decide +kernel) (fun m hm c hc p hp => by
      have hnone : ∀ m ∈ bothUsers, ∀ c ∈ m.columns, constraintParts c ++ referenceParts c = [] := by
        decide +kernel
      rw [hnone m hm c hc] at hp
      cases hp) (fun _ _ _ => rfl) emptySchema).2 (by decide +kernel)

/-- The first migration creates the table, adds the column and creates the index. -/
example : (autoMigrate sqliteDb .sqlite emptySchema bothUsers).2.schema.tables "mig_users".toList =
    some ["id".toList, "name".toList, "email".toList] := by decide +kernel

/-! ## A default that goes on behind its column -/

/-- PostgreSQL. -/
def pgServer : MigrationDb where
  dialect := .postgres
  fold := id
  columns := Sql.columnNames
  admits _ _ := true
  describes _ _ := true

/-- `UserV1` of `tests/test_migration.c`, with an age whose default ends with another action. -/
def alteredUser : TableModel :=
  let m := migUsers 72 [⟨some "age".toList, .int, 4, 0⟩]
  { m with
    columns := m.columns.map fun c =>
      if c.nm = "age".toList then { c with defaultValue := some "0, DROP name".toList } else c
    fields_eq := by decide +kernel }

/-- The migration adds the age, and the name is lost. -/
theorem migration_drops_name :
    Documented (severalActions pgServer) pgServer ∧ validateModel alteredUser.model = .ok ∧
    (∀ e ∈ (autoMigrate (severalActions pgServer) .postgres firstVersion [alteredUser]).2.sent,
      e.ok = true) ∧
    ¬ firstVersion.Grows
      (autoMigrate (severalActions pgServer) .postgres firstVersion [alteredUser]).2.schema := by
  have htable : (autoMigrate (severalActions pgServer) .postgres firstVersion
      [alteredUser]).2.schema.tables "mig_users".toList = some ["id".toList, "age".toList] := by
    decide +kernel
  refine ⟨documented_severalActions pgServer, by decide +kernel, by decide +kernel, fun h => ?_⟩
  obtain ⟨more, hmore⟩ := h.tables "mig_users".toList ["id".toList, "name".toList] rfl
  have hlist := Option.some.inj (htable.symm.trans hmore)
  exact absurd (List.cons.inj (List.cons.inj hlist).2).1 (by decide)

end Corm
