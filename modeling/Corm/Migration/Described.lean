import Corm.Memory.Describe
import Corm.Migration.Complete

/-!
# Migrations under failing allocations

`corm_auto_migrate` with the entries that `describe_table` returns, where any allocation may fail.

* `TableListing`: what a database lists of its tables;
* `hasColumn`, `autoMigrateMem`: the migration; it is undefined where a description is, and where it
  compares the name of a field with a name that was not copied;
* `addColumns_schema`: what is added to a table, whichever columns were found in it;
* **`migration_described`**: a migration leaves the same schema whatever is described, and nothing
  of the descriptions.
-/

namespace Corm

open Handle
open Sql (Schema)

/-! ## The migration -/

section Migrate

variable (D : MigrationDb) (bt : BackendType)

/-- What a database lists of its tables: a row for each column. No table of another schema has the
name, which `pg_describe_table` looks for in all of them. -/
structure TableListing where
  rows : Schema → Text → List (ColumnRow bt)
  names : ∀ s t cols, s.tables (D.fold t) = some cols →
    (rows s t).map (fun row => (ColumnRow.info bt row).name) = cols.map some

variable {D bt}

/-- The answer to the statement of `describe_table`. -/
def TableListing.answer (L : TableListing D bt) (s : Schema) (t : Text) :
    Option (List (ColumnRow bt)) :=
  if D.describes s t then some (L.rows s t) else none

/-- The entries that a migration looks at. -/
def Described.existing (d : Described) : Option (List ColumnInfo) :=
  if d.err = .ok then d.out.map Prod.snd else none

/-- The loop over the entries for the name of a field; undefined when it compares with a null
pointer. -/
def hasColumn (name : Text) : List ColumnInfo → Option Bool
  | [] => some false
  | info :: infos =>
    info.name.bind fun n => if n = name then some true else hasColumn name infos

variable (L : TableListing D bt)

variable (D bt) in
/-- The loop over the fields that adds columns. -/
def addColumnsMem (m : TableModel) (existing : Option (List ColumnInfo)) :
    Migration → List Column → Option Migration
  | st, [] => some st
  | st, c :: cs =>
    if c.field.isPrimary then addColumnsMem m existing st cs
    else match existing.elim (some false) (hasColumn c.nm) with
      | none => none
      | some true => addColumnsMem m existing st cs
      | some false => addColumnsMem m existing (cormExec D bt st (.addColumn m c)).2 cs

/-- What a migration leaves: its error, the schema, and what each description allocated and
freed. -/
structure MigrateOut where
  err : Err
  state : Migration
  logs : List InfoLog

/-- The description of the table of a model. -/
def describeModel (r : DescribeRun) (s : Schema) (m : TableModel) : Option Described :=
  describeTable r bt (L.answer s m.table)

/-- One model of `corm_auto_migrate`. -/
def migrateModelMem (r : DescribeRun) (st : Migration) (m : TableModel) : Option MigrateOut :=
  let created := cormExec D bt st (.createTable m)
  if created.1 = .ok then
    (describeModel L r created.2.schema m).bind fun d =>
      (addColumnsMem D bt m d.existing created.2 m.columns).map fun st =>
        ⟨.ok, createIndexes D bt m st m.columns, [columnInfoFree d.out d.log]⟩
  else some ⟨created.1, created.2, []⟩

/-- The loop of `corm_auto_migrate`, with what happens in each description. -/
def migrateModelsMem : Migration → List (TableModel × DescribeRun) → Option MigrateOut
  | st, [] => some ⟨.ok, st, []⟩
  | st, (m, r) :: calls =>
    (migrateModelMem L r st m).bind fun out =>
      if out.err = .ok then (migrateModelsMem out.state calls).map fun rest =>
        { rest with logs := out.logs ++ rest.logs }
      else some out

/-- `corm_auto_migrate`. -/
def autoMigrateMem (s : Schema) (calls : List (TableModel × DescribeRun)) : Option MigrateOut :=
  migrateModelsMem L ⟨s, []⟩ calls

end Migrate

variable {D : MigrationDb} {bt : BackendType} {L : TableListing D bt} {m : TableModel} {c : Column}
  {s : Schema} {st st' : Migration} {r : DescribeRun} {calls : List (TableModel × DescribeRun)}

/-! ## Names that were not copied -/

/-- No field is looked for past a name that was not copied. -/
def Searchable (infos : List ColumnInfo) (cs : List Column) : Prop :=
  ∀ c ∈ cs, c.field.isPrimary = false → ∀ before info after,
    infos = before ++ info :: after → info.name = none → some c.nm ∈ before.map ColumnInfo.name

theorem forall_split_cons {α : Type} {P : List α → α → Prop} {a : α} {l : List α} :
    (∀ before x after, a :: l = before ++ x :: after → P before x) ↔
      P [] a ∧ ∀ before x after, l = before ++ x :: after → P (a :: before) x := by
  constructor
  · intro h
    exact ⟨h [] a l rfl, fun before x after heq => h (a :: before) x after (congrArg _ heq)⟩
  · rintro ⟨hfirst, hrest⟩ before x after heq
    cases before with
    | nil =>
      obtain ⟨rfl, -⟩ := List.cons.inj heq
      exact hfirst
    | cons b before =>
      obtain ⟨rfl, htail⟩ := List.cons.inj heq
      exact hrest before x after htail

theorem hasColumn_isSome_iff {name : Text} {infos : List ColumnInfo} :
    (hasColumn name infos).isSome = true ↔ ∀ before info after,
      infos = before ++ info :: after → info.name = none →
        some name ∈ before.map ColumnInfo.name := by
  induction infos with
  | nil => exact iff_of_true rfl fun before info after h => absurd h (by simp)
  | cons first infos ih =>
    rw [forall_split_cons (P := fun before info =>
      info.name = none → some name ∈ before.map ColumnInfo.name), hasColumn]
    cases hfirst : first.name with
    | none =>
      exact iff_of_false Bool.false_ne_true fun h => absurd (h.1 rfl) List.not_mem_nil
    | some n =>
      rw [Option.bind_some]
      split_ifs with hn
      · refine iff_of_true rfl ⟨False.elim, ?_⟩
        intro before info after _ _
        rw [List.map_cons, hfirst, hn]
        exact List.mem_cons_self
      · rw [ih]
        refine ⟨fun h => ⟨False.elim, ?_⟩, ?_⟩
        · intro before info after heq hnone
          exact List.mem_cons_of_mem _ (h before info after heq hnone)
        · intro h before info after heq hnone
          have hmem := h.2 before info after heq hnone
          rw [List.map_cons, hfirst] at hmem
          exact (List.mem_cons.mp hmem).resolve_left fun h => hn (Option.some.inj h).symm

/-- Where it is defined, the loop looks for the name among those that were copied. -/
theorem hasColumn_eq {name : Text} {infos : List ColumnInfo} {found : Bool}
    (h : hasColumn name infos = some found) :
    found = (infos.filterMap ColumnInfo.name).contains name := by
  induction infos with
  | nil => exact (Option.some.inj h).symm
  | cons first infos ih =>
    rw [hasColumn] at h
    obtain ⟨n, hn, h⟩ := Option.bind_eq_some_iff.mp h
    rw [List.filterMap_cons_some hn, List.contains_cons]
    split_ifs at h with heq
    · rw [← Option.some.inj h, heq, beq_self_eq_true, Bool.true_or]
    · rw [ih h, beq_eq_false_iff_ne.mpr (Ne.symm heq), Bool.false_or]

/-- The names that were copied. -/
def copiedNames (existing : Option (List ColumnInfo)) : Option (List Text) :=
  existing.map (List.filterMap ColumnInfo.name)

/-- **The loop over the fields** is the loop over the names that were copied, where it is
defined. -/
theorem addColumnsMem_spec (D : MigrationDb) (bt : BackendType) (m : TableModel) (st : Migration)
    (existing : Option (List ColumnInfo)) (cs : List Column) :
    ((addColumnsMem D bt m existing st cs).isSome = true ↔
      ∀ infos ∈ existing, Searchable infos cs) ∧
    ∀ st₁, addColumnsMem D bt m existing st cs = some st₁ →
      st₁ = addColumns D bt m (copiedNames existing) st cs := by
  induction cs generalizing st with
  | nil =>
    refine ⟨iff_of_true rfl fun infos _ c hc => absurd hc List.not_mem_nil, fun st₁ h => ?_⟩
    exact (Option.some.inj h).symm
  | cons c cs ih =>
    have hcons : (∀ infos ∈ existing, Searchable infos (c :: cs)) ↔
        (c.field.isPrimary = false →
          (existing.elim (some false) (hasColumn c.nm)).isSome = true) ∧
        ∀ infos ∈ existing, Searchable infos cs := by
      cases existing with
      | none => simp
      | some infos =>
        simp only [Option.mem_some_iff, forall_eq', Option.elim_some, hasColumn_isSome_iff]
        exact List.forall_mem_cons
    rw [hcons, addColumnsMem, addColumns]
    by_cases hprimary : c.field.isPrimary = true
    · rw [if_pos hprimary, if_pos hprimary]
      obtain ⟨hiff, heq⟩ := ih st
      exact ⟨hiff.trans (and_iff_right fun h => absurd (hprimary.symm.trans h) (by simp)).symm, heq⟩
    · rw [if_neg hprimary, if_neg hprimary]
      have hnot : c.field.isPrimary = false := Bool.eq_false_iff.mpr hprimary
      cases hfound : existing.elim (some false) (hasColumn c.nm) with
      | none =>
        refine ⟨iff_of_false Bool.false_ne_true fun h => Bool.false_ne_true (h.1 hnot), ?_⟩
        exact fun st₁ h => absurd h.symm (Option.some_ne_none st₁)
      | some found =>
        have hcontains : found = ((copiedNames existing).getD []).contains c.nm := by
          cases existing with
          | none => exact (Option.some.inj hfound).symm
          | some infos => exact hasColumn_eq hfound
        rw [← hcontains]
        cases found with
        | true => exact ⟨(ih _).1.trans (and_iff_right fun _ => rfl).symm, (ih _).2⟩
        | false => exact ⟨(ih _).1.trans (and_iff_right fun _ => rfl).symm, (ih _).2⟩

/-! ## Schemas -/

/-- The database adds no column to a table that has it. -/
def MigrationDb.RefusesPresent (D : MigrationDb) : Prop :=
  ∀ s t c rest cols, s.tables (D.fold t) = some cols → c ∈ cols →
    D.admits s (.addColumn t c rest) = false

theorem cormExec_congr (h : st.schema = st'.schema) (q : DdlRequest) :
    (cormExec D bt st q).1 = (cormExec D bt st' q).1 ∧
      (cormExec D bt st q).2.schema = (cormExec D bt st' q).2.schema := by
  unfold cormExec Sql.Session.push
  rw [h]
  refine ⟨rfl, ?_⟩
  cases D.toSchemaDb.run st'.schema (q.text bt) <;> rfl

theorem cormExec_present (hrefuse : D.RefusesPresent) (hread : ∃ rest : Option (List Sql.Tok),
      Sql.readDdl D.dialect (addColumnText bt m c) = rest.map (Sql.Ddl.addColumn m.table c.nm))
    {cols : List Text} (ht : st.schema.tables (D.fold m.table) = some cols) (hc : c.nm ∈ cols) :
    (cormExec D bt st (.addColumn m c)).2.schema = st.schema := by
  have hrun : D.run st.schema ((DdlRequest.addColumn m c).text bt) = none := by
    obtain ⟨rest, hread⟩ := hread
    show D.run st.schema (addColumnText bt m c) = none
    rw [Sql.DdlEngine.run, hread]
    cases rest with
    | none => rfl
    | some ts =>
      have hno := hrefuse st.schema m.table c.nm ts cols ht hc
      show D.execute st.schema (.addColumn m.table c.nm ts) = none
      rw [Sql.DdlEngine.execute, ht]
      exact if_neg (by rw [hno]; exact Bool.false_ne_true)
  rw [cormExec_eq, Sql.Session.exec_none hrun]

/-- **What is added to a table** does not depend on which of its columns were found: those that are
there are refused. -/
theorem addColumns_schema (hrefuse : D.RefusesPresent) {cs : List Column}
    (hread : ∀ c ∈ cs, ∃ rest : Option (List Sql.Tok),
      Sql.readDdl D.dialect (addColumnText bt m c) = rest.map (Sql.Ddl.addColumn m.table c.nm))
    {existing existing' : Option (List Text)} {cols : List Text}
    (ht : st.schema.tables (D.fold m.table) = some cols) (hex : ∀ names ∈ existing, names ⊆ cols)
    (hex' : ∀ names ∈ existing', names ⊆ cols) (h : st.schema = st'.schema) :
    (addColumns D bt m existing st cs).schema = (addColumns D bt m existing' st' cs).schema := by
  induction cs generalizing st st' cols with
  | nil => exact h
  | cons c cs ih =>
    obtain ⟨hc, hcs⟩ := List.forall_mem_cons.mp hread
    have hmem {names : Option (List Text)} (hnames : ∀ n ∈ names, n ⊆ cols)
        (hfound : (names.getD []).contains c.nm = true) : c.nm ∈ cols := by
      cases names with
      | none => cases hfound
      | some ns => exact hnames ns rfl (List.contains_iff_mem.mp hfound)
    have ht' : st'.schema.tables (D.fold m.table) = some cols := h ▸ ht
    -- where one of the two has found the column, the request of the other is refused
    rw [addColumns, addColumns]
    split_ifs with hprimary hfound hfound' hfound'
    · exact ih hcs ht hex hex' h
    · exact ih hcs ht hex hex' h
    · have hst := cormExec_present hrefuse hc ht' (hmem hex hfound)
      exact ih hcs ht hex hex' (h.trans hst.symm)
    · have hst := cormExec_present hrefuse hc ht (hmem hex' hfound')
      exact ih hcs (hst ▸ ht) hex hex' (hst.trans h)
    · obtain ⟨more, hmore⟩ := (Sql.Session.exec_grows st (.addColumn m c)).tables _ cols ht
      have hgrown {names : Option (List Text)} (hnames : ∀ n ∈ names, n ⊆ cols) :
          ∀ n ∈ names, n ⊆ cols ++ more := fun n hn =>
        List.Subset.trans (hnames n hn) (List.subset_append_left cols more)
      exact ih hcs hmore (hgrown hex) (hgrown hex') (cormExec_congr h _).2

theorem createIndexes_schema (h : st.schema = st'.schema) (cs : List Column) :
    (createIndexes D bt m st cs).schema = (createIndexes D bt m st' cs).schema := by
  induction cs generalizing st st' with
  | nil => exact h
  | cons c cs ih =>
    rw [createIndexes, createIndexes]
    split_ifs
    · exact ih (cormExec_congr h _).2
    · exact ih h

/-! ## Descriptions -/

theorem mem_copyInfos {ok : InfoBlock → Bool} {i : ℕ} {infos : List ColumnInfo} {n : Text}
    (h : n ∈ (copyInfos ok i infos).filterMap ColumnInfo.name) :
    ∃ info ∈ infos, info.name = some n := by
  obtain ⟨info, hinfo, hn⟩ := List.mem_filterMap.mp h
  induction infos generalizing i with
  | nil => cases hinfo
  | cons first infos ih =>
    rcases List.mem_cons.mp hinfo with rfl | hinfo
    · have hname : (copyInfo ok i first).name = if ok (.part i .name) then first.name else none :=
        rfl
      rw [hname] at hn
      split_ifs at hn
      exact ⟨first, List.mem_cons_self, hn⟩
    · obtain ⟨info', hinfo', hn'⟩ := ih (List.mem_filterMap.mpr ⟨info, hinfo, hn⟩) hinfo
      exact ⟨info', List.mem_cons_of_mem _ hinfo', hn'⟩

theorem answer_eq {L : TableListing D bt} {t : Text} {listed : List (ColumnRow bt)}
    (h : listed ∈ L.answer s t) : listed = L.rows s t := by
  unfold TableListing.answer at h
  split_ifs at h
  · exact (Option.some.inj h).symm
  · cases h

theorem described_names {d : Described} (hd : describeModel L r s m = some d) {cols : List Text}
    (ht : s.tables (D.fold m.table) = some cols) :
    ∀ names ∈ copiedNames d.existing, names ⊆ cols := by
  intro names hnames n hn
  obtain ⟨infos, hinfos, rfl⟩ := Option.map_eq_some_iff.mp hnames
  unfold Described.existing at hinfos
  split_ifs at hinfos
  obtain ⟨out, hout, rfl⟩ := Option.map_eq_some_iff.mp hinfos
  obtain ⟨listed, hlisted, k, heq⟩ := (describe_spec hd).2 out hout
  rw [heq] at hn
  obtain ⟨info, hinfo, hname⟩ := mem_copyInfos hn
  obtain ⟨row, hrow, rfl⟩ := List.mem_map.mp (List.mem_of_mem_take hinfo)
  rw [answer_eq hlisted] at hrow
  have hmem := List.mem_map_of_mem (f := fun row => (ColumnRow.info bt row).name) hrow
  rw [L.names s m.table cols ht, hname] at hmem
  obtain ⟨c, hc, hcn⟩ := List.mem_map.mp hmem
  exact Option.some.inj hcn ▸ hc

theorem describeTable_names {cols : List Text} (ht : s.tables (D.fold m.table) = some cols) :
    ∀ names ∈ D.describeTable s m.table, names ⊆ cols := by
  intro names hnames
  rw [MigrationDb.describeTable, ht] at hnames
  split_ifs at hnames
  · obtain rfl := Option.some.inj hnames
    exact List.Subset.refl _
  · cases hnames

/-! ## Runs -/

/-- Once the table of the model is there, SQLite has memory for its quoted name, and its description
can be searched. -/
def SearchableAt (L : TableListing D bt) (m : TableModel) (r : DescribeRun) (st : Migration) :
    Prop :=
  (cormExec D bt st (.createTable m)).1 = .ok →
    (bt = .sqlite → r.ok .quoted = true) ∧
    ∀ d ∈ describeModel L r (cormExec D bt st (.createTable m)).2.schema m,
      ∀ infos ∈ d.existing, Searchable infos m.columns

theorem migrateModel_ok (h : (cormExec D bt st (.createTable m)).1 = .ok) :
    migrateModel D bt st m = (.ok, createIndexes D bt m (addColumns D bt m
      (D.describeTable (cormExec D bt st (.createTable m)).2.schema m.table)
      (cormExec D bt st (.createTable m)).2 m.columns) m.columns) := by
  unfold migrateModel
  rcases hcreate : cormExec D bt st (.createTable m) with ⟨err, st₁⟩
  rw [hcreate] at h
  obtain rfl : err = .ok := h
  rfl

/-- **One model**, next to the migration that is given the columns of the table. -/
theorem migrateModelMem_spec (L : TableListing D bt) (hrefuse : D.RefusesPresent)
    (hv : Validated m.model) (h : st.schema = st'.schema) (r : DescribeRun) :
    ((migrateModelMem L r st m).isSome = true ↔ SearchableAt L m r st') ∧
    ∀ out, migrateModelMem L r st m = some out → out.err = (migrateModel D bt st' m).1 ∧
      out.state.schema = (migrateModel D bt st' m).2.schema ∧ ∀ log ∈ out.logs, Holds log [] := by
  have herr : (cormExec D bt st (.createTable m)).1 = (cormExec D bt st' (.createTable m)).1 :=
    (cormExec_congr h _).1
  have hschema : (cormExec D bt st (.createTable m)).2.schema =
      (cormExec D bt st' (.createTable m)).2.schema := (cormExec_congr h _).2
  simp only [migrateModelMem, SearchableAt, herr]
  by_cases hok : (cormExec D bt st' (.createTable m)).1 = .ok
  · obtain ⟨cols, -, ht, -⟩ := has_createTable D st' (read_createTable hv.table) hok
    rw [if_pos hok, hschema, forall_prop_of_true hok]
    have hdefined : (describeModel L r (cormExec D bt st' (.createTable m)).2.schema m).isSome =
        true ↔ (bt = .sqlite → r.ok .quoted = true) := describeTable_isSome_iff r
    rw [← hdefined]
    cases hd : describeModel L r (cormExec D bt st' (.createTable m)).2.schema m with
    | none => exact ⟨iff_of_false Bool.false_ne_true fun h => Bool.false_ne_true h.1, nofun⟩
    | some d =>
      obtain ⟨hiff, hadd⟩ :=
        addColumnsMem_spec D bt m (cormExec D bt st (.createTable m)).2 d.existing m.columns
      simp only [Option.bind_some, Option.isSome_map, hiff, Option.isSome_some, true_and,
        Option.mem_some_iff, forall_eq']
      intro out hout
      obtain ⟨st₁, hst₁, rfl⟩ := Option.map_eq_some_iff.mp hout
      rw [hadd st₁ hst₁, migrateModel_ok hok]
      refine ⟨rfl, createIndexes_schema ?_ m.columns, List.forall_mem_singleton.mpr ?_⟩
      · refine addColumns_schema hrefuse (fun c hc => ?_) (hschema ▸ ht) (described_names hd ht)
          (describeTable_names ht) hschema
        exact read_addColumn hv.table (ident_column hv hc)
      · exact describe_freed hd
  · rw [if_neg hok, migrateModel_rejected hok]
    refine ⟨iff_of_true rfl fun h => absurd h hok, fun out hout => ?_⟩
    obtain rfl := Option.some.inj hout
    exact ⟨rfl, hschema, fun log hlog => absurd hlog List.not_mem_nil⟩

theorem migrateModelsMem_spec (L : TableListing D bt) (hrefuse : D.RefusesPresent)
    (hv : ∀ call ∈ calls, Validated call.1.model) (h : st.schema = st'.schema) :
    ((migrateModelsMem L st calls).isSome = true ↔
      ∀ before call after, calls = before ++ call :: after →
        ∀ st₁, migrateModels D bt st' (before.map Prod.fst) = (.ok, st₁) →
          SearchableAt L call.1 call.2 st₁) ∧
    ∀ out, migrateModelsMem L st calls = some out →
      out.err = (migrateModels D bt st' (calls.map Prod.fst)).1 ∧
      out.state.schema = (migrateModels D bt st' (calls.map Prod.fst)).2.schema ∧
      ∀ log ∈ out.logs, Holds log [] := by
  -- the two runs differ in what they have sent, and agree in the schema before each model
  induction calls generalizing st st' with
  | nil =>
    refine ⟨iff_of_true rfl fun before call after h => absurd h (by simp), fun out hout => ?_⟩
    obtain rfl := Option.some.inj hout
    exact ⟨rfl, h, fun log hlog => absurd hlog List.not_mem_nil⟩
  | cons call calls ih =>
    obtain ⟨m, r⟩ := call
    obtain ⟨hfirst, hrest⟩ := List.forall_mem_cons.mp hv
    obtain ⟨hiff, hout⟩ := migrateModelMem_spec L hrefuse hfirst h r
    rw [forall_split_cons (P := fun before call => ∀ st₁,
      migrateModels D bt st' (before.map Prod.fst) = (.ok, st₁) →
        SearchableAt L call.1 call.2 st₁)]
    have hhere : (∀ st₁, migrateModels D bt st' (([] : List (TableModel × DescribeRun)).map
        Prod.fst) = (.ok, st₁) → SearchableAt L m r st₁) ↔ SearchableAt L m r st' :=
      ⟨fun h => h st' rfl, fun h st₁ heq => (Prod.mk.inj heq).2 ▸ h⟩
    rw [hhere, ← hiff, migrateModelsMem]
    cases hmodel : migrateModelMem L r st m with
    | none =>
      refine ⟨iff_of_false Bool.false_ne_true fun h => Bool.false_ne_true h.1, fun out h => ?_⟩
      exact absurd h.symm (Option.some_ne_none out)
    | some first =>
      obtain ⟨herr, hschema, hlogs⟩ := hout first hmodel
      rw [Option.bind_some, List.map_cons]
      rcases hstep : migrateModel D bt st' m with ⟨err, st₁⟩
      rw [hstep] at herr hschema
      by_cases hok : err = .ok
      · rw [if_pos (herr.trans hok)]
        subst hok
        obtain ⟨ihiff, ihout⟩ := ih hrest hschema
        simp only [List.map_cons, migrateModels_ok D bt hstep, Option.isSome_map]
        refine ⟨ihiff.trans (and_iff_right rfl).symm, fun out hsome => ?_⟩
        obtain ⟨rest, hrest, rfl⟩ := Option.map_eq_some_iff.mp hsome
        obtain ⟨herr', hschema', hlogs'⟩ := ihout rest hrest
        exact ⟨herr', hschema', List.forall_mem_append.mpr ⟨hlogs, hlogs'⟩⟩
      · rw [if_neg (fun h => hok (herr.symm.trans h))]
        simp only [List.map_cons, migrateModels_err D bt hstep hok]
        refine ⟨iff_of_true rfl ⟨rfl, fun before call after _ st₂ heq => ?_⟩, fun out hsome => ?_⟩
        · exact absurd (Prod.mk.inj heq).1 hok
        · obtain rfl := Option.some.inj hsome
          exact ⟨herr, hschema, hlogs⟩

/-- A database that refuses a column that is there, as SQLite. -/
def strictDb : MigrationDb where
  toDdlEngine := { sqliteDb.toDdlEngine with
    admits := fun s d => match d with
      | .addColumn t c _ => !((s.tables (sqliteDb.fold t)).getD []).contains c
      | _ => true }
  describes _ _ := true

theorem strictDb_columns {t : Text} {cols : List Text}
    (ht : s.tables (strictDb.fold t) = some cols) : (s.tables (sqliteDb.fold t)).getD [] = cols :=
  congrArg (Option.getD · []) ht

theorem strictDb_refuses : strictDb.RefusesPresent := by
  intro s t c rest cols ht hc
  show (!((s.tables (sqliteDb.fold t)).getD []).contains c) = false
  rw [strictDb_columns ht, List.contains_iff_mem.mpr hc]
  rfl

/-- What `PRAGMA table_info` lists. -/
def strictListing : TableListing strictDb .sqlite where
  rows s t := ((s.tables (sqliteDb.fold t)).getD []).map fun c =>
    (⟨some c, some "TEXT".toList, 0, none, 0⟩ : SqliteColumnRow)
  names s t cols ht := by
    rw [strictDb_columns ht]
    exact List.map_map

/-- A migration in which the array of the description is not allocated. -/
def noArrayCalls : List (TableModel × DescribeRun) :=
  [(uniqueUser, ⟨true, 16, fun b => decide (b ≠ .array 0)⟩)]

theorem noArray_validated : ∀ call ∈ noArrayCalls, validateModel call.1.model = .ok :=
  List.forall_mem_singleton.mpr (by decide +kernel)

/-- The email is looked for past the name that is missing. -/
example : (autoMigrateMem strictListing firstVersion
    [(uniqueUser, ⟨true, 16, fun b => decide (b ≠ .part 1 .name)⟩)]).isSome = false := by
  decide +kernel

end Corm
