import Corm.Migration.Complete
import Mathlib.Data.List.Infix

/-!
# The parts of a column

The definitions that CREATE TABLE and ALTER TABLE give of a column, part by part. The texts of a
default and of a reference are the caller's, and are not looked into.

* `Part`, `Definition`: the parts of a column, and what stands between commas in CREATE TABLE;
* `createdParts`, `addedParts`: the parts that `create_table` and `corm_auto_migrate` write;
* `createTableText_eq`, `addColumnText_eq`: the statements are made of them;
* **`columns_agree_iff`**: when the two definitions of a column are the same;
* `KeyOnce`, **`declares_key_iff`**: when CREATE TABLE declares the primary key once.
-/

namespace Corm

open Sql (Tok lex)

/-! ## Parts -/

/-- A part of a definition of a column, after its name. -/
inductive Part
  | type (text : Text)
  /-- `corm_dialect_autoinc`. -/
  | autoinc
  | autoIncrement
  | notNull
  | unique
  | default (value : Text)
  | primaryKey
  | references (table column : Text)
  deriving DecidableEq

namespace Part

variable (bt : BackendType)

/-- The text of a part. -/
def text : Part → Text
  | type t => " ".toList ++ t
  | autoinc => " ".toList ++ dialectAutoinc bt
  | autoIncrement => " AUTO_INCREMENT".toList
  | notNull => " NOT NULL".toList
  | unique => " UNIQUE".toList
  | default value => " DEFAULT ".toList ++ value
  | primaryKey => " PRIMARY KEY".toList
  | references t c => " REFERENCES ".toList ++ (t ++ "(".toList ++ c ++ ")".toList)

theorem text_type (t : Text) : (type t).text bt = " ".toList ++ t := rfl

theorem text_autoinc : autoinc.text bt = " ".toList ++ dialectAutoinc bt := rfl

theorem text_references (t c : Text) : (references t c).text bt =
    " REFERENCES ".toList ++ (t ++ "(".toList ++ c ++ ")".toList) := rfl

/-- The words PRIMARY KEY stand in the text of the part; the caller's texts do not count. -/
def declaresKey : Part → Bool
  | autoinc => decide ([.word "PRIMARY".toList, .word "KEY".toList] <:+:
      (lex bt.dialect (autoinc.text bt)).getD [])
  | primaryKey => true
  | _ => false

end Part

section Parts

variable (bt : BackendType) (c : Column)

/-- NOT NULL, UNIQUE and DEFAULT. -/
def constraintParts : List Part :=
  (if c.isNotNull then [.notNull] else []) ++ (if c.isUnique then [.unique] else []) ++
    match c.defaultValue with
    | some value => if value = [] then [] else [.default value]
    | none => []

/-- REFERENCES, from "table.column" or a table alone. -/
def referenceParts : List Part :=
  match c.fkRef with
  | some ref =>
    if '.' ∈ ref then
      [.references (ref.takeWhile (· != '.')) (ref.dropWhile (· != '.')).tail]
    else [.references ref "id".toList]
  | none => []

/-- The parts that `create_table` writes, when the table has `pkCount` PRIMARY fields. -/
def createdParts (pkCount : ℕ) : List Part :=
  if c.field.isAutoinc && bt != .mysql then [.autoinc]
  else
    [Part.type (typeText bt c)] ++ (if c.field.isAutoinc then [.autoIncrement] else []) ++
      constraintParts c ++ (if c.field.isPrimary && pkCount == 1 then [.primaryKey] else []) ++
      referenceParts c

/-- The parts that `corm_auto_migrate` writes after ADD COLUMN. -/
def addedParts : List Part := .type (typeText bt c) :: constraintParts c

end Parts

/-- What stands between commas in a CREATE TABLE. -/
inductive Definition
  | column (name : Text) (parts : List Part)
  | primaryKey (names : List Text)
  deriving DecidableEq

namespace Definition

variable (bt : BackendType)

/-- The text of a definition. -/
def text : Definition → Text
  | column name parts => qident bt name ++ parts.flatMap (Part.text bt)
  | primaryKey names => "PRIMARY KEY (".toList ++ commaSep (names.map (qident bt)) ++ ")".toList

theorem text_column (name : Text) (parts : List Part) :
    (column name parts).text bt = qident bt name ++ parts.flatMap (Part.text bt) := rfl

theorem text_primaryKey (names : List Text) : (primaryKey names).text bt =
    "PRIMARY KEY (".toList ++ commaSep (names.map (qident bt)) ++ ")".toList := rfl

/-- The column that it defines. -/
def name : Definition → Option Text
  | column name _ => some name
  | primaryKey _ => none

/-- The primary keys that it declares, each with its columns. -/
def keys : Definition → List (List Text)
  | column name parts => (parts.filter (Part.declaresKey bt)).map fun _ => [name]
  | primaryKey names => [names]

end Definition

/-- The PRIMARY fields. -/
def TableModel.primaries (m : TableModel) : List Column := m.columns.filter fun c => c.field.isPrimary

section Definitions

variable (bt : BackendType) (m : TableModel) (c : Column)

/-- A column in the CREATE TABLE of its model. -/
def createdColumn : Definition := .column c.nm (createdParts bt c m.primaries.length)

/-- A column in an ALTER TABLE. -/
def alteredColumn : Definition := .column c.nm (addedParts bt c)

/-- The definitions that `create_table` writes. -/
def definitions : List Definition :=
  m.columns.map (createdColumn bt m) ++
    if 1 < m.primaries.length then [.primaryKey (m.primaries.map Column.nm)] else []

end Definitions

variable {bt : BackendType} {m : TableModel} {c : Column}

/-! ## The texts -/

theorem constraintText_eq (bt : BackendType) (c : Column) :
    constraintText c = (constraintParts c).flatMap (Part.text bt) := by
  unfold constraintText constraintParts
  rw [List.flatMap_append, List.flatMap_append]
  congr 1
  · congr 1 <;> split_ifs <;> rfl
  · cases c.defaultValue with
    | none => rfl
    | some value =>
      simp only
      split_ifs
      · rfl
      · exact (List.append_nil _).symm

theorem referenceText_eq (bt : BackendType) (c : Column) :
    referenceText c = (referenceParts c).flatMap (Part.text bt) := by
  unfold referenceText referenceParts
  cases c.fkRef with
  | none => rfl
  | some ref =>
    simp only
    split_ifs
    · rw [List.flatMap_singleton, Part.text_references]
    · have hid : "(id)".toList = "(".toList ++ "id".toList ++ ")".toList := by decide +kernel
      rw [List.flatMap_singleton, hid, Part.text_references]
      simp only [List.append_assoc]

/-- **A column of CREATE TABLE** is made of its parts. -/
theorem columnText_eq (pkCount : ℕ) : columnText bt c pkCount =
    (Definition.column c.nm (createdParts bt c pkCount)).text bt := by
  rw [columnText, createdParts, Definition.text_column]
  by_cases hauto : (c.field.isAutoinc && bt != .mysql) = true
  · rw [if_pos hauto, if_pos hauto, List.flatMap_singleton, Part.text_autoinc, List.append_assoc]
  · rw [if_neg hauto, if_neg hauto]
    have hinc : (if c.field.isAutoinc then " AUTO_INCREMENT".toList else []) =
        (if c.field.isAutoinc then [Part.autoIncrement] else []).flatMap (Part.text bt) := by
      split_ifs <;> rfl
    have hkey : (if c.field.isPrimary && pkCount == 1 then " PRIMARY KEY".toList else []) =
        (if c.field.isPrimary && pkCount == 1 then [Part.primaryKey] else []).flatMap
          (Part.text bt) := by
      split_ifs <;> rfl
    simp only [List.flatMap_append, List.flatMap_singleton, Part.text_type, List.append_assoc,
      constraintText_eq bt, referenceText_eq bt, hinc, hkey]

theorem commaSep_concat (parts : List Text) (part : Text) (hne : parts ≠ []) :
    commaSep (parts ++ [part]) = commaSep parts ++ (", ".toList ++ part) := by
  obtain ⟨p, ps, rfl⟩ := List.exists_cons_of_ne_nil hne
  rw [List.cons_append, commaSep_cons, commaSep_cons, led, led, List.flatMap_append,
    List.flatMap_singleton, List.append_assoc]

/-- **CREATE TABLE** is made of its definitions. -/
theorem createTableText_eq (bt : BackendType) (m : TableModel) : createTableText bt m =
    "CREATE TABLE ".toList ++ dialectIfNotExists bt ++ " ".toList ++ qident bt m.table ++
      (" (".toList ++ commaSep ((definitions bt m).map (Definition.text bt)) ++ ")".toList) := by
  have hcols : (m.columns.map fun c => columnText bt c m.primaries.length) =
      (m.columns.map (createdColumn bt m)).map (Definition.text bt) := by
    rw [List.map_map]
    exact List.map_congr_left fun c _ => columnText_eq _
  have hnames : (m.primaries.map fun c => qident bt c.nm) =
      (m.primaries.map Column.nm).map (qident bt) := by
    rw [List.map_map]
    rfl
  unfold createTableText
  simp only
  rw [show m.columns.filter (fun c => c.field.isPrimary) = m.primaries from rfl, hcols, primaryText,
    definitions]
  split_ifs with hkey
  · have hne : (m.columns.map (createdColumn bt m)).map (Definition.text bt) ≠ [] := by
      rw [Ne, List.map_eq_nil_iff, List.map_eq_nil_iff]
      intro hnil
      rw [TableModel.primaries, hnil] at hkey
      exact absurd hkey (by decide)
    have hcomma : ", PRIMARY KEY (".toList = ", ".toList ++ "PRIMARY KEY (".toList := by
      decide +kernel
    rw [List.map_append, List.map_singleton, commaSep_concat _ _ hne, hnames, Definition.text_primaryKey,
      hcomma]
    simp only [List.append_assoc]
  · simp only [List.append_nil]

/-- **ALTER TABLE** has the parts of the new column. -/
theorem addColumnText_eq (bt : BackendType) (m : TableModel) (c : Column) : addColumnText bt m c =
    "ALTER TABLE ".toList ++ qident bt m.table ++ " ADD COLUMN ".toList ++
      ((alteredColumn bt c).text bt ++ ";".toList) := by
  have hcolumn : (alteredColumn bt c).text bt =
      qident bt c.nm ++ (" ".toList ++ typeText bt c ++ constraintText c) := by
    rw [constraintText_eq bt]
    rfl
  unfold addColumnText
  rw [hcolumn]
  simp only [List.append_assoc]

/-! ## Created and added columns -/

/-- **The two definitions of a column** are the same exactly when it has no reference. -/
theorem columns_agree_iff (bt : BackendType) (m : TableModel) (hp : c.field.isPrimary = false)
    (ha : c.field.isAutoinc = false) :
    alteredColumn bt c = createdColumn bt m c ↔ c.fkRef = none := by
  have hparts : createdParts bt c m.primaries.length = addedParts bt c ++ referenceParts c := by
    simp [createdParts, addedParts, hp, ha]
  rw [alteredColumn, createdColumn, Definition.column.injEq, hparts, List.self_eq_append_right]
  simp only [true_and]
  unfold referenceParts
  cases c.fkRef with
  | none => simp
  | some ref =>
    simp only
    split_ifs <;> simp

/-- A column of `tests/test_migration.c`, the reference of `fk_emp` to `fk_dept`. -/
def deptId : Column := ⟨⟨some "dept_id".toList, .int, 4, 4⟩, none, some "fk_dept.id".toList⟩

/-- An employee of `tests/test_migration.c`. -/
def employees : TableModel where
  model := {
    tableName := some "fk_emp".toList
    structSize := 72
    fields := [⟨some "id".toList, .int, 4, 1⟩, deptId.field]
    primaryKey := some ⟨some "id".toList, .int, 4, 1⟩
    primaryKey_mem := by simp
    beforeCreate := none
    afterCreate := none
    beforeUpdate := none
    afterUpdate := none
    beforeDelete := none
    afterDelete := none
    afterFind := none }
  columns := [⟨⟨some "id".toList, .int, 4, 1⟩, none, none⟩, deptId]
  fields_eq := rfl

/-- **An ALTER TABLE has no reference** where the CREATE TABLE has one. -/
theorem columns_differ_deptId :
    validateModel employees.model = .ok ∧ deptId ∈ employees.columns ∧
    deptId.field.isPrimary = false ∧ deptId.field.isAutoinc = false ∧
    alteredColumn .sqlite deptId ≠ createdColumn .sqlite employees deptId :=
  ⟨by decide +kernel, by simp [employees], by decide +kernel, by decide +kernel, by decide +kernel⟩

theorem columns_agree_iff_deptId :
    alteredColumn .sqlite deptId = createdColumn .sqlite employees deptId ↔ deptId.fkRef = none :=
  columns_agree_iff .sqlite employees (by decide +kernel) (by decide +kernel)

/-! ## The primary key -/

/-- Every field is one column, in order, and the primary key is declared once, with the PRIMARY
fields. -/
structure KeyOnce (bt : BackendType) (m : TableModel) : Prop where
  columns : (definitions bt m).filterMap Definition.name = m.columns.map Column.nm
  keys : (definitions bt m).flatMap (Definition.keys bt) = [m.primaries.map Column.nm]

theorem definitions_name (bt : BackendType) (m : TableModel) :
    (definitions bt m).filterMap Definition.name = m.columns.map Column.nm := by
  have hcols : (m.columns.map (createdColumn bt m)).filterMap Definition.name =
      m.columns.map Column.nm := by
    rw [List.filterMap_map]
    exact congrFun List.filterMap_eq_map m.columns
  have hkey : (if 1 < m.primaries.length then
      [Definition.primaryKey (m.primaries.map Column.nm)] else []).filterMap Definition.name = [] := by
    split_ifs <;> rfl
  rw [definitions, List.filterMap_append, hcols, hkey, List.append_nil]

theorem declaresKey_autoinc : Part.autoinc.declaresKey bt = decide (bt ≠ .mysql) := by
  cases bt <;> rfl

theorem declaresKey_constraint {p : Part} (hp : p ∈ constraintParts c) :
    p.declaresKey bt = false := by
  simp only [constraintParts, List.mem_append] at hp
  rcases hp with (hp | hp) | hp
  · split_ifs at hp
    · rw [List.mem_singleton.mp hp]
      rfl
    · cases hp
  · split_ifs at hp
    · rw [List.mem_singleton.mp hp]
      rfl
    · cases hp
  · split at hp
    · split_ifs at hp
      · cases hp
      · rw [List.mem_singleton.mp hp]
        rfl
    · cases hp

theorem declaresKey_reference {p : Part} (hp : p ∈ referenceParts c) : p.declaresKey bt = false := by
  unfold referenceParts at hp
  split at hp
  · split_ifs at hp <;> rw [List.mem_singleton.mp hp] <;> rfl
  · cases hp

/-- **The keys that a column declares**: one for an AUTOINC field, unless the dialect is MySQL's, and
one for a PRIMARY field that is the only one. -/
theorem keys_createdColumn (bt : BackendType) (m : TableModel) (c : Column) :
    (createdColumn bt m c).keys bt =
      if c.field.isAutoinc && bt != .mysql then [[c.nm]]
      else if c.field.isPrimary && m.primaries.length == 1 then [[c.nm]] else [] := by
  have hkeys : (createdColumn bt m c).keys bt =
      ((createdParts bt c m.primaries.length).filter (Part.declaresKey bt)).map fun _ => [c.nm] := rfl
  have hcons : (constraintParts c).filter (Part.declaresKey bt) = [] :=
    List.filter_eq_nil_iff.mpr fun _ hp => by rw [declaresKey_constraint hp]; decide
  have href : (referenceParts c).filter (Part.declaresKey bt) = [] :=
    List.filter_eq_nil_iff.mpr fun _ hp => by rw [declaresKey_reference hp]; decide
  have htype : [Part.type (typeText bt c)].filter (Part.declaresKey bt) = [] := rfl
  have hinc : (if c.field.isAutoinc then [Part.autoIncrement] else []).filter (Part.declaresKey bt) =
      [] := by split_ifs <;> rfl
  rw [hkeys, createdParts]
  by_cases hauto : (c.field.isAutoinc && bt != .mysql) = true
  · have hb : bt ≠ .mysql := by simp_all
    have hdecl : [Part.autoinc].filter (Part.declaresKey bt) = [.autoinc] :=
      List.filter_eq_self.mpr fun p hp => by
        rw [List.mem_singleton.mp hp, declaresKey_autoinc, decide_eq_true hb]
    rw [if_pos hauto, if_pos hauto, hdecl]
    rfl
  · rw [if_neg hauto, if_neg hauto]
    simp only [List.filter_append, hcons, href, htype, hinc, List.nil_append, List.append_nil]
    split_ifs <;> rfl

/-- **When CREATE TABLE declares the primary key once**: unless the key has several fields, one of
them AUTOINC, on a dialect whose AUTOINC text declares a key of its own. -/
theorem declares_key_iff (bt : BackendType) (hprim : ∃ c ∈ m.columns, c.field.isPrimary = true)
    (hauto : ∀ c ∈ m.columns, c.field.isAutoinc = true → c.field.isPrimary = true) :
    KeyOnce bt m ↔
      ¬ (bt ≠ .mysql ∧ 1 < m.primaries.length ∧ ∃ c ∈ m.columns, c.field.isAutoinc = true) := by
  have hpos : 0 < m.primaries.length := by
    obtain ⟨c, hc, hp⟩ := hprim
    exact List.length_pos_of_mem (List.mem_filter.mpr ⟨hc, hp⟩)
  have hkeys : (definitions bt m).flatMap (Definition.keys bt) =
      (m.columns.flatMap fun c => (createdColumn bt m c).keys bt) ++
        if 1 < m.primaries.length then [m.primaries.map Column.nm] else [] := by
    rw [definitions, List.flatMap_append, List.flatMap_map]
    split_ifs <;> rfl
  constructor
  · rintro ⟨-, honce⟩ ⟨hb, hmany, c, hc, hinc⟩
    rw [hkeys, if_pos hmany] at honce
    -- the key of the AUTOINC column comes before the one of the table
    have hmem : [c.nm] ∈ m.columns.flatMap fun c => (createdColumn bt m c).keys bt := by
      refine List.mem_flatMap.mpr ⟨c, hc, ?_⟩
      rw [keys_createdColumn, if_pos (by simp [hinc, hb])]
      exact List.mem_singleton_self _
    have hlen := congrArg List.length honce
    have := List.length_pos_of_mem hmem
    simp only [List.length_append, List.length_singleton] at hlen
    omega
  · intro hnot
    refine ⟨definitions_name bt m, ?_⟩
    rw [hkeys]
    by_cases hmany : 1 < m.primaries.length
    · have hnone : (m.columns.flatMap fun c => (createdColumn bt m c).keys bt) = [] := by
        rw [List.flatMap_eq_nil_iff]
        intro c hc
        have hone : (m.primaries.length == 1) = false := by
          rw [beq_eq_false_iff_ne]
          omega
        have hinc : (c.field.isAutoinc && bt != .mysql) = false := by
          rw [Bool.eq_false_iff]
          intro h
          obtain ⟨hinc, hb⟩ := Bool.and_eq_true_iff.mp h
          exact hnot ⟨by simpa using hb, hmany, c, hc, hinc⟩
        rw [keys_createdColumn, hinc, hone, Bool.and_false]
        rfl
      rw [hnone, if_pos hmany, List.nil_append]
    · have hone : m.primaries.length = 1 := by omega
      have hcol (c : Column) (hc : c ∈ m.columns) : (createdColumn bt m c).keys bt =
          if c.field.isPrimary then [[c.nm]] else [] := by
        rw [keys_createdColumn, hone]
        cases hinc : c.field.isAutoinc with
        | true => simp [hauto c hc hinc]
        | false => simp
      have hall : (m.columns.flatMap fun c => (createdColumn bt m c).keys bt) =
          m.primaries.map fun c => [c.nm] := by
        rw [List.flatMap_congr hcol, TableModel.primaries]
        induction m.columns with
        | nil => rfl
        | cons c cs ih =>
          rw [List.flatMap_cons, List.filter_cons, ih]
          split_ifs <;> rfl
      obtain ⟨c, hc⟩ := List.length_eq_one_iff.mp hone
      rw [hall, if_neg hmany, hc, List.append_nil]
      rfl

/-- The composite key of `tests/test_migration.c`, with a tenant that is numbered. -/
def tenantUsers : TableModel where
  model := {
    tableName := some "user_roles".toList
    structSize := 40
    fields := [⟨some "tenant_id".toList, .int, 4, 3⟩, ⟨some "user_id".toList, .int, 4, 1⟩]
    primaryKey := none
    primaryKey_mem := nofun
    beforeCreate := none
    afterCreate := none
    beforeUpdate := none
    afterUpdate := none
    beforeDelete := none
    afterDelete := none
    afterFind := none }
  columns := [⟨⟨some "tenant_id".toList, .int, 4, 3⟩, none, none⟩,
    ⟨⟨some "user_id".toList, .int, 4, 1⟩, none, none⟩]
  fields_eq := rfl

theorem tenantUsers_primary : ∃ c ∈ tenantUsers.columns, c.field.isPrimary = true :=
  ⟨_, List.mem_cons_self, by decide +kernel⟩

theorem tenantUsers_autoinc :
    ∀ c ∈ tenantUsers.columns, c.field.isAutoinc = true → c.field.isPrimary = true := by
  decide +kernel

/-- **Its CREATE TABLE declares two primary keys**: that of the tenant, and the one of both. -/
theorem key_twice_tenantUsers :
    validateModel tenantUsers.model = .ok ∧
    (∃ c ∈ tenantUsers.columns, c.field.isPrimary = true) ∧
    (∀ c ∈ tenantUsers.columns, c.field.isAutoinc = true → c.field.isPrimary = true) ∧
    ¬ KeyOnce .sqlite tenantUsers := by
  refine ⟨by decide +kernel, tenantUsers_primary, tenantUsers_autoinc, fun h => ?_⟩
  have hkeys := h.keys
  revert hkeys
  decide +kernel

theorem declares_key_iff_tenantUsers : KeyOnce .sqlite tenantUsers ↔
    ¬ (BackendType.sqlite ≠ .mysql ∧ 1 < tenantUsers.primaries.length ∧
      ∃ c ∈ tenantUsers.columns, c.field.isAutoinc = true) :=
  declares_key_iff .sqlite tenantUsers_primary tenantUsers_autoinc

/-- The statement that SQLite is sent for it. -/
example : String.ofList (createTableText .sqlite tenantUsers) =
    "CREATE TABLE IF NOT EXISTS \"user_roles\" (" ++
      "\"tenant_id\" INTEGER PRIMARY KEY AUTOINCREMENT, \"user_id\" INTEGER, " ++
      "PRIMARY KEY (\"tenant_id\", \"user_id\"))" := by decide +kernel

end Corm
