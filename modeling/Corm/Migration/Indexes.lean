import Corm.Migration.Idempotent

/-!
# The indexes of a migration

The name of an index is `idx_`, the table and the column with a `_` between them, which may stand in
both of them.

* `indexTarget`: what an index is on;
* `Indexed`, `FromFields`, **`steps_fromFields`**: the indexes of a database come from the fields that
  ask for them;
* **`every_index_iff`**: every field has its index exactly when fields of one index name are on the
  same column.
-/

namespace Corm

open Sql (Schema Session Tok lexPart lexPart_append_some)
open Relation (ReflTransGen)

variable {D : MigrationDb} {bt : BackendType} {ms : List TableModel} {m m' : TableModel}
  {c c' : Column} {st st' : Migration}

/-! ## What an index is on -/

/-- The table and the column of an index. -/
def indexTarget : List Tok → Option (Text × Text)
  | [.word on, .quoted _ t, .sym l, .quoted _ c, .sym r] =>
    if Sql.isKw "ON".toList on && l == '(' && r == ')' then some (t, c) else none
  | _ => none

theorem indexTarget_indexToks (bt : BackendType) (t c : Text) :
    indexTarget (indexToks bt t c) = some (t, c) := rfl

/-! ## Where the indexes come from -/

/-- A field of one of the models that has to have an index. -/
structure Indexed (ms : List TableModel) (m : TableModel) (c : Column) : Prop where
  model : m ∈ ms
  column : c ∈ m.columns
  flag : c.isIndex = true

/-- Every index is that of a field with its name. -/
def FromFields (D : MigrationDb) (bt : BackendType) (ms : List TableModel) (s : Schema) : Prop :=
  ∀ n d, s.indexes n = some d → ∃ m c, Indexed ms m c ∧ D.fold (indexName m c) = n ∧
    d = indexToks bt m.table c.nm

theorem FromFields.same {s s' : Schema} (h : FromFields D bt ms s) (hs : s'.indexes = s.indexes) :
    FromFields D bt ms s' := by
  intro n d hd
  exact h n d (hs ▸ hd)

/-- **One request** of a migration. -/
theorem step_fromFields (hv : ∀ m ∈ ms, Validated m.model) (h : FromFields D bt ms st.schema)
    (hstep : MigrateStep D bt ms st st') : FromFields D bt ms st'.schema := by
  obtain ⟨r, hr, rfl⟩ := hstep
  have hread : ReadsBack D.dialect bt ms := readsBack_of_validated hv
  cases hrun : D.run st.schema (r.text bt) with
  | none =>
    rw [Session.exec_none hrun]
    exact h
  | some s =>
    rw [Session.exec_some hrun]
    cases r with
    | createTable m =>
      obtain ⟨rest, -, hexec⟩ := Sql.DdlEngine.execute_of_run (hread.table m hr) hrun
      obtain ⟨_, _, -, -, rfl⟩ | ⟨_, _, -, -, rfl⟩ | ⟨_, _, _, _, heq, -⟩ | ⟨_, _, heq, -⟩ |
        ⟨_, _, heq, -⟩ := Sql.DdlEngine.execute_cases hexec
      · exact h
      · exact h.same rfl
      all_goals cases heq
    | addColumn m c =>
      obtain ⟨rest, -, hexec⟩ := Sql.DdlEngine.execute_of_run (hread.column m hr.1 c hr.2.1) hrun
      obtain ⟨_, _, heq, -⟩ | ⟨_, _, heq, -⟩ | ⟨_, _, _, _, -, -, rfl⟩ | ⟨_, _, heq, -⟩ |
        ⟨_, _, heq, -⟩ := Sql.DdlEngine.execute_cases hexec
      · cases heq
      · cases heq
      · exact h.same rfl
      all_goals cases heq
    | createIndex m c =>
      obtain ⟨hm, hc, hi⟩ := hr
      have hidx := read_createIndex_toks (δ := D.dialect) bt (hv m hm).table (ident_column (hv m hm) hc)
      obtain ⟨d, hd, hexec⟩ := Sql.DdlEngine.run_eq_some.mp hrun
      obtain rfl := Option.some.inj (hidx.symm.trans hd)
      obtain ⟨_, _, heq, -⟩ | ⟨_, _, heq, -⟩ | ⟨_, _, _, _, heq, -⟩ | ⟨_, _, -, -, rfl⟩ |
        ⟨i, rest, heq, hnone, rfl⟩ := Sql.DdlEngine.execute_cases hexec
      · cases heq
      · cases heq
      · cases heq
      · exact h
      · obtain ⟨rfl, rfl⟩ := Sql.Ddl.createIndex.inj heq
        intro n d hn
        by_cases hname : n = D.fold (indexName m c)
        · subst hname
          have hself := (Function.update_self _ _ _).symm.trans hn
          exact ⟨m, c, ⟨hm, hc, hi⟩, rfl, (Option.some.inj hself).symm⟩
        · exact h n d ((Function.update_of_ne hname _ _).symm.trans hn)

/-- **A run of requests.** -/
theorem steps_fromFields (hv : ∀ m ∈ ms, Validated m.model) (h : FromFields D bt ms st.schema)
    (hsteps : ReflTransGen (MigrateStep D bt ms) st st') : FromFields D bt ms st'.schema := by
  induction hsteps with
  | refl => exact h
  | tail _ hstep ih => exact step_fromFields hv ih hstep

/-! ## An index for every field -/

/-- There is an index on a column, as the database compares names. -/
def HasIndex (D : MigrationDb) (s : Schema) (table column : Text) : Prop :=
  ∃ n d t c, s.indexes n = some d ∧ indexTarget d = some (t, c) ∧ D.fold t = D.fold table ∧
    D.fold c = D.fold column

/-- SQLite compares names without regard to the case of their letters. -/
structure FoldsCase (D : MigrationDb) : Prop where
  fold : D.fold = List.map Char.toLower

theorem FoldsCase.indexName (h : FoldsCase D) (ht : D.fold m.table = D.fold m'.table)
    (hc : D.fold c.nm = D.fold c'.nm) :
    D.fold (indexName m c) = D.fold (indexName m' c') := by
  rw [h.fold] at ht hc ⊢
  simp only [Corm.indexName, List.map_append, ht, hc]

/-- The index on a column has the name that any field of this column would give it. -/
theorem HasIndex.named (hD : FoldsCase D) {s : Schema} (hfrom : FromFields D bt ms s)
    (h : HasIndex D s m.table c.nm) :
    ∃ t k, s.indexes (D.fold (indexName m c)) = some (indexToks bt t k) ∧
      D.fold t = D.fold m.table ∧ D.fold k = D.fold c.nm := by
  obtain ⟨n, d, t, k, hn, hd, ht, hk⟩ := h
  obtain ⟨m₁, c₁, -, rfl, rfl⟩ := hfrom n d hn
  obtain ⟨rfl, rfl⟩ := Prod.mk.inj (Option.some.inj hd)
  exact ⟨_, _, (hD.indexName ht hk) ▸ hn, ht, hk⟩

theorem autoMigrate_fromFields (hv : ∀ m ∈ ms, Validated m.model)
    (hdesc : ∀ m ∈ ms, ∀ s, D.describes s m.table = true) :
    FromFields D bt ms (autoMigrate D bt emptySchema ms).2.schema := by
  have hread : ReadsBack D.dialect bt ms := readsBack_of_validated hv
  obtain ⟨hsteps, -⟩ := migrateModels_spec hread hv hdesc (List.Subset.refl ms) ⟨emptySchema, []⟩
  exact steps_fromFields hv (fun _ _ h => by cases h) hsteps

/-- **Every field that has to have an index has one**, after a migration of a new SQLite database
whose statements all succeed, exactly when fields whose indexes have the same name are on the same
column of the same table. -/
theorem every_index_iff (hv : ∀ m ∈ ms, validateModel m.model = .ok) (hD : FoldsCase D)
    (hdesc : ∀ m ∈ ms, ∀ s, D.describes s m.table = true)
    (hall : ∀ e ∈ (autoMigrate D .sqlite emptySchema ms).2.sent, e.ok = true) :
    (∀ m c, Indexed ms m c →
      HasIndex D (autoMigrate D .sqlite emptySchema ms).2.schema m.table c.nm) ↔
    ∀ m c m' c', Indexed ms m c → Indexed ms m' c' →
      D.fold (indexName m c) = D.fold (indexName m' c') →
      D.fold m.table = D.fold m'.table ∧ D.fold c.nm = D.fold c'.nm := by
  have hvalid : ∀ m ∈ ms, Validated m.model := fun m hm => validated_of_ok (hv m hm)
  have hfrom : FromFields D .sqlite ms (autoMigrate D .sqlite emptySchema ms).2.schema :=
    autoMigrate_fromFields hvalid hdesc
  have hup := migrateModels_upToDate (readsBack_of_validated hvalid) hvalid hdesc
    (List.Subset.refl ms) hall
  constructor
  · intro hhas m c m' c' hi hi' hname
    obtain ⟨t, k, hidx, ht, hk⟩ := (hhas m c hi).named hD hfrom
    obtain ⟨t', k', hidx', ht', hk'⟩ := (hhas m' c' hi').named hD hfrom
    rw [hname] at hidx
    have htoks := congrArg indexTarget (Option.some.inj (hidx.symm.trans hidx'))
    rw [indexTarget_indexToks, indexTarget_indexToks] at htoks
    obtain ⟨rfl, rfl⟩ := Prod.mk.inj (Option.some.inj htoks)
    exact ⟨ht.symm.trans ht', hk.symm.trans hk'⟩
  · intro hinj m c hi
    obtain ⟨d, -, hd, -⟩ := (hup m hi.model).indexes c hi.column hi.flag
    obtain ⟨m', c', hi', hname, rfl⟩ := hfrom _ d hd
    obtain ⟨ht, hc⟩ := hinj m' c' m c hi' hi hname
    exact ⟨_, _, m'.table, c'.nm, hd, rfl, ht, hc⟩

/-! ## Two fields with one index name -/

/-- A table with one column, which is indexed. -/
def indexedTable (table column : String) : TableModel where
  model := {
    tableName := some table.toList
    structSize := 4
    fields := [⟨some column.toList, .int, 4, 32⟩]
    primaryKey := none
    primaryKey_mem := nofun
    beforeCreate := none
    afterCreate := none
    beforeUpdate := none
    afterUpdate := none
    beforeDelete := none
    afterDelete := none
    afterFind := none }
  columns := [⟨⟨some column.toList, .int, 4, 32⟩, none, none⟩]
  fields_eq := rfl

/-- A key that is indexed. -/
def indexedId : Column := ⟨⟨some "id".toList, .int, 4, 32⟩, none, none⟩

/-- The `role_id` of a `user`, and the `id` of a `user_role`. -/
def roleTables : List TableModel := [indexedTable "user" "role_id", indexedTable "user_role" "id"]

theorem roleTables_validated : ∀ m ∈ roleTables, validateModel m.model = .ok := by decide +kernel

theorem roleTables_succeed :
    ∀ e ∈ (autoMigrate sqliteDb .sqlite emptySchema roleTables).2.sent, e.ok = true := by
  decide +kernel

/-- **The second index is not created**: its name is taken. -/
theorem index_missing_userRole :
    (∀ m ∈ roleTables, validateModel m.model = .ok) ∧ FoldsCase sqliteDb ∧
    (roleTables.map TableModel.table).Nodup ∧
    (∀ e ∈ (autoMigrate sqliteDb .sqlite emptySchema roleTables).2.sent, e.ok = true) ∧
    ¬ ∀ m c, Indexed roleTables m c →
      HasIndex sqliteDb (autoMigrate sqliteDb .sqlite emptySchema roleTables).2.schema m.table
        c.nm := by
  refine ⟨roleTables_validated, ⟨rfl⟩, by decide +kernel, roleTables_succeed, fun h => ?_⟩
  have hvalid : ∀ m ∈ roleTables, Validated m.model :=
    fun m hm => validated_of_ok (roleTables_validated m hm)
  have hhas := h (indexedTable "user_role" "id") indexedId
    ⟨List.mem_cons_of_mem _ List.mem_cons_self, List.mem_cons_self, by decide +kernel⟩
  obtain ⟨t, k, hidx, ht, -⟩ := hhas.named ⟨rfl⟩ (autoMigrate_fromFields hvalid fun _ _ _ => rfl)
  have hfirst : (autoMigrate sqliteDb .sqlite emptySchema roleTables).2.schema.indexes
      (sqliteDb.fold (indexName (indexedTable "user_role" "id") indexedId)) =
        some (indexToks .sqlite "user".toList "role_id".toList) := by
    decide +kernel
  have htoks := congrArg indexTarget (Option.some.inj (hfirst.symm.trans hidx))
  rw [indexTarget_indexToks, indexTarget_indexToks] at htoks
  obtain ⟨rfl, rfl⟩ := Prod.mk.inj (Option.some.inj htoks)
  revert ht
  decide +kernel

theorem every_index_iff_roleTables :
    (∀ m c, Indexed roleTables m c →
      HasIndex sqliteDb (autoMigrate sqliteDb .sqlite emptySchema roleTables).2.schema m.table
        c.nm) ↔
    ∀ m c m' c', Indexed roleTables m c → Indexed roleTables m' c' →
      sqliteDb.fold (indexName m c) = sqliteDb.fold (indexName m' c') →
      sqliteDb.fold m.table = sqliteDb.fold m'.table ∧ sqliteDb.fold c.nm = sqliteDb.fold c'.nm :=
  every_index_iff roleTables_validated ⟨rfl⟩ (fun _ _ _ => rfl) roleTables_succeed

end Corm
