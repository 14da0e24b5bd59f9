import Corm.Reading.Basic
import Corm.Sql.Ddl

/-!
# Migration

`migration.c`, and the functions of `dialect.c` that only it uses.

* `Column`, `TableModel`: a model, with the data of its fields that only a migration reads;
* `createTableText`, `addColumnText`, `createIndexText`: the three statements;
* `SchemaDb`: a database that makes anything of a text, and describes its tables; `MigrationDb`: one
  that executes the three statements;
* `autoMigrate`: `corm_auto_migrate`, with a record of what it sends;
* `read_createTable`, `read_addColumn`, `read_createIndex`: how the texts are read.
-/

namespace Corm

open Sql (Tok lex lexPart lexPart_append_some Joins)

/-! ## Models -/

/-- `corm_field_t`, with its `default_value` and its `fk_ref`. -/
structure Column where
  field : Field
  defaultValue : Option Text
  fkRef : Option Text

/-- `corm_model_t`, with the whole of its fields. -/
structure TableModel where
  model : Model
  columns : List Column
  fields_eq : columns.map Column.field = model.fields

namespace Column

variable {δ : Sql.Dialect} (c : Column)

/-- The name of the column. -/
abbrev nm : Text := c.field.nm

/-- `flags & CORM_FLAG_NOT_NULL`. -/
def isNotNull : Bool := c.field.flags.testBit 2

/-- `flags & CORM_FLAG_UNIQUE`. -/
def isUnique : Bool := c.field.flags.testBit 3

/-- `flags & CORM_FLAG_INDEX`. -/
def isIndex : Bool := c.field.flags.testBit 5

end Column

/-- The table name of a validated model. -/
abbrev TableModel.table (m : TableModel) : Text := m.model.table

/-! ## Dialects -/

/-- `corm_dialect_autoinc`. -/
def dialectAutoinc : BackendType → Text
  | .sqlite => "INTEGER PRIMARY KEY AUTOINCREMENT".toList
  | .mysql => "INTEGER AUTO_INCREMENT".toList
  | .postgres => "SERIAL PRIMARY KEY".toList

/-- `corm_dialect_if_not_exists`; the backend does not matter. -/
def dialectIfNotExists (_ : BackendType) : Text := "IF NOT EXISTS".toList

/-- The type of a string with a length. -/
def varchar (size : ℕ) : Text :=
  "VARCHAR(".toList ++ (toString (if 0 < size ∧ size < 65535 then size else 255)).toList ++
    ")".toList

/-- `corm_dialect_type_name_str`. -/
def dialectTypeNameStr (backend : BackendType) (type : FieldType) (size : ℕ) : Text :=
  match backend with
  | .sqlite =>
    match type with
    | .int | .int64 => "INTEGER".toList
    | .float | .double => "REAL".toList
    | .string | .text => "TEXT".toList
    | .blob => "BLOB".toList
    | .bool => "INTEGER".toList
  | .mysql =>
    match type with
    | .int => "INT".toList
    | .int64 => "BIGINT".toList
    | .float => "FLOAT".toList
    | .double => "DOUBLE".toList
    | .string => varchar size
    | .text => "TEXT".toList
    | .blob => "BLOB".toList
    | .bool => "TINYINT(1)".toList
  | .postgres =>
    match type with
    | .int => "INTEGER".toList
    | .int64 => "BIGINT".toList
    | .float => "REAL".toList
    | .double => "DOUBLE PRECISION".toList
    | .string => varchar size
    | .text => "TEXT".toList
    | .blob => "BYTEA".toList
    | .bool => "BOOLEAN".toList

/-- The type that a migration declares for a field of a new table. -/
def declared (bt : BackendType) (f : Field) : Text :=
  if f.isAutoinc && bt != .mysql then dialectAutoinc bt else dialectTypeNameStr bt f.type f.size

/-- The length of the column of a STRING field. -/
def varcharSize (size : ℕ) : ℕ := if 0 < size ∧ size < 65535 then size else 255

/-! ## Statements -/

section Statements

variable (bt : BackendType) (m : TableModel) (c : Column)

/-- The type of a column. -/
def typeText : Text := dialectTypeNameStr bt c.field.type c.field.size

/-- NOT NULL, UNIQUE and DEFAULT. -/
def constraintText : Text :=
  (if c.isNotNull then " NOT NULL".toList else []) ++
    (if c.isUnique then " UNIQUE".toList else []) ++
    match c.defaultValue with
    | some value => if value = [] then [] else " DEFAULT ".toList ++ value
    | none => []

/-- REFERENCES, from "table.column" or a table alone. -/
def referenceText : Text :=
  match c.fkRef with
  | some ref =>
    " REFERENCES ".toList ++
      if '.' ∈ ref then
        ref.takeWhile (· != '.') ++ "(".toList ++ (ref.dropWhile (· != '.')).tail ++ ")".toList
      else ref ++ "(id)".toList
  | none => []

/-- A column of CREATE TABLE, when the table has `pkCount` PRIMARY fields. -/
def columnText (pkCount : ℕ) : Text :=
  if c.field.isAutoinc && bt != .mysql then
    qident bt c.nm ++ " ".toList ++ dialectAutoinc bt
  else
    qident bt c.nm ++ " ".toList ++ typeText bt c ++
      (if c.field.isAutoinc then " AUTO_INCREMENT".toList else []) ++ constraintText c ++
      (if c.field.isPrimary && pkCount == 1 then " PRIMARY KEY".toList else []) ++
      referenceText c

/-- The columns of a composite key. -/
def primaryText (pks : List Column) : Text :=
  if 1 < pks.length then
    ", PRIMARY KEY (".toList ++ commaSep (pks.map fun c => qident bt c.nm) ++ ")".toList
  else []

/-- The statement of `create_table`. -/
def createTableText : Text :=
  let pks := m.columns.filter fun c => c.field.isPrimary
  "CREATE TABLE ".toList ++ dialectIfNotExists bt ++ " ".toList ++ qident bt m.table ++
    (" (".toList ++ commaSep (m.columns.map fun c => columnText bt c pks.length) ++
      primaryText bt pks ++ ")".toList)

/-- The ALTER TABLE of a missing column. -/
def addColumnText : Text :=
  "ALTER TABLE ".toList ++ qident bt m.table ++ " ADD COLUMN ".toList ++ qident bt c.nm ++
    (" ".toList ++ typeText bt c ++ constraintText c ++ ";".toList)

/-- The name of the index of a field. -/
def indexName : Text := "idx_".toList ++ m.table ++ "_".toList ++ c.nm

/-- The CREATE INDEX of a field. -/
def createIndexText : Text :=
  "CREATE INDEX IF NOT EXISTS ".toList ++ qident bt (indexName m c) ++
    (" ON ".toList ++ qident bt m.table ++ "(".toList ++ qident bt c.nm ++ ")".toList)

end Statements

/-- What a migration sends with `corm_exec`. -/
inductive DdlRequest
  | createTable (m : TableModel)
  | addColumn (m : TableModel) (c : Column)
  | createIndex (m : TableModel) (c : Column)

/-- Its text. -/
def DdlRequest.text (bt : BackendType) : DdlRequest → Text
  | .createTable m => createTableText bt m
  | .addColumn m c => addColumnText bt m c
  | .createIndex m c => createIndexText bt m c

/-! ## The migration -/

/-- A database that a migration works on: what it makes of a text (`none` when it refuses it), and
`describe_table`, the names of the columns of a table. -/
structure SchemaDb where
  run : Sql.Schema → Text → Option Sql.Schema
  describeTable : Sql.Schema → Text → Option (List Text)

/-- A database that executes the three statements and nothing else, and describes some tables. -/
structure MigrationDb extends Sql.DdlEngine where
  describes : Sql.Schema → Text → Bool

/-- A schema with a record of what a migration sent. -/
abbrev Migration := Sql.Session DdlRequest

namespace MigrationDb

variable (D : MigrationDb)

/-- The names of the columns of a table. -/
def describeTable (s : Sql.Schema) (table : Text) : Option (List Text) :=
  if D.describes s table then some ((s.tables (D.fold table)).getD []) else none

/-- The database under a migration. -/
def toSchemaDb : SchemaDb := ⟨D.run, D.describeTable⟩

instance : Coe MigrationDb SchemaDb := ⟨toSchemaDb⟩

@[simp] theorem toSchemaDb_run : D.toSchemaDb.run = D.run := rfl

@[simp] theorem toSchemaDb_describeTable : D.toSchemaDb.describeTable = D.describeTable := rfl

end MigrationDb

section Migrate

variable (D : SchemaDb) (bt : BackendType)

/-- `corm_exec`. -/
def cormExec (st : Migration) (r : DdlRequest) : Err × Migration :=
  (if (D.run st.schema (r.text bt)).isSome then .ok else .backend,
    st.push (DdlRequest.text bt) D.run r)

/-- The loop over the fields that adds columns; the results of `corm_exec` are not looked at. -/
def addColumns (m : TableModel) (existing : Option (List Text)) (st : Migration) :
    List Column → Migration
  | [] => st
  | c :: cs =>
    if c.field.isPrimary then addColumns m existing st cs
    else if (existing.getD []).contains c.nm then addColumns m existing st cs
    else addColumns m existing (cormExec D bt st (.addColumn m c)).2 cs

/-- The loop over the fields that creates indexes; the results are not looked at. -/
def createIndexes (m : TableModel) (st : Migration) : List Column → Migration
  | [] => st
  | c :: cs =>
    if c.isIndex then createIndexes m (cormExec D bt st (.createIndex m c)).2 cs
    else createIndexes m st cs

/-- One model of `corm_auto_migrate`. -/
def migrateModel (st : Migration) (m : TableModel) : Err × Migration :=
  match cormExec D bt st (.createTable m) with
  | (.ok, st) =>
    let st := addColumns D bt m (D.describeTable st.schema m.table) st m.columns
    (.ok, createIndexes D bt m st m.columns)
  | (err, st) => (err, st)

/-- The loop of `corm_auto_migrate`. -/
def migrateModels : Migration → List TableModel → Err × Migration
  | st, [] => (.ok, st)
  | st, m :: ms =>
    match migrateModel D bt st m with
    | (.ok, st) => migrateModels st ms
    | (err, st) => (err, st)

theorem migrateModels_ok {m : TableModel} {st st₁ : Migration}
    (h : migrateModel D bt st m = (.ok, st₁)) (ms : List TableModel) :
    migrateModels D bt st (m :: ms) = migrateModels D bt st₁ ms := by
  show (match migrateModel D bt st m with
    | (.ok, st) => migrateModels D bt st ms
    | (err, st) => (err, st)) = _
  rw [h]

theorem migrateModels_err {m : TableModel} {st st₁ : Migration} {err : Err}
    (h : migrateModel D bt st m = (err, st₁)) (herr : err ≠ .ok) (ms : List TableModel) :
    migrateModels D bt st (m :: ms) = (err, st₁) := by
  show (match migrateModel D bt st m with
    | (.ok, st) => migrateModels D bt st ms
    | (err, st) => (err, st)) = _
  rw [h]
  cases err with
  | ok => exact absurd rfl herr
  | _ => rfl

/-- The request of a migration to a database that executes the three statements. -/
theorem cormExec_eq (D : MigrationDb) (st : Migration) (r : DdlRequest) : cormExec D bt st r =
    (if (D.run st.schema (r.text bt)).isSome then .ok else .backend,
      st.exec D.toDdlEngine (DdlRequest.text bt) r) := rfl

/-- `corm_auto_migrate`. -/
def autoMigrate (s : Sql.Schema) (ms : List TableModel) : Err × Migration :=
  migrateModels D bt ⟨s, []⟩ ms

end Migrate

/-! ## How the statements are read -/

section Reading

variable {bt : BackendType} {m : TableModel} {c : Column}

theorem readDdl_append {head rest : Text} {ts : List Tok} (hhead : lexPart δ head = some ts)
    (hjoin : Joins δ head rest) {d : List Tok → Sql.Ddl}
    (hread : ∀ us, (Sql.readCreateTable (ts ++ us) <|> Sql.readAddColumn (ts ++ us) <|>
      Sql.readCreateIndex (ts ++ us)) = some (d us)) :
    Sql.readDdl δ (head ++ rest) = (lex δ rest).map d := by
  rw [Sql.readDdl, Sql.lex_append hhead hjoin]
  cases lex δ rest with
  | none => rfl
  | some us => exact hread us

theorem read_createTable (ht : Ident m.table) :
    ∃ rest : Option (List Tok), Sql.readDdl δ (createTableText bt m) =
      rest.map (Sql.Ddl.createTable m.table) := by
  have hk : lexPart δ ("CREATE TABLE ".toList ++ dialectIfNotExists bt ++ " ".toList) =
      some [.word "CREATE".toList, .word "TABLE".toList, .word "IF".toList, .word "NOT".toList,
        .word "EXISTS".toList] := by
    cases bt <;> cases δ <;> rfl
  have hi : (Sql.run δ .idle
      ("CREATE TABLE ".toList ++ dialectIfNotExists bt ++ " ".toList)).2 = .idle := by
    cases bt <;> cases δ <;> rfl
  have hhead := lexPart_append_some hk (lexPart_qident bt ht) (Or.inl hi)
  unfold createTableText
  exact ⟨_, readDdl_append hhead (joins_blank _ _) fun us => by cases bt <;> rfl⟩

theorem read_addColumn (ht : Ident m.table) (hc : Ident c.nm) :
    ∃ rest : Option (List Tok), Sql.readDdl δ (addColumnText bt m c) =
      rest.map (Sql.Ddl.addColumn m.table c.nm) := by
  have hk : lexPart δ "ALTER TABLE ".toList = some [.word "ALTER".toList, .word "TABLE".toList] := by
    cases δ <;> rfl
  have hi : (Sql.run δ .idle "ALTER TABLE ".toList).2 = .idle := by cases δ <;> rfl
  have ha : lexPart δ " ADD COLUMN ".toList = some [.word "ADD".toList, .word "COLUMN".toList] := by
    cases δ <;> rfl
  have hj : (Sql.run δ .idle " ADD COLUMN ".toList).2 = .idle := by cases δ <;> rfl
  have htable := lexPart_append_some hk (lexPart_qident bt ht) (Or.inl hi)
  have hcolumn := lexPart_append_some ha (lexPart_qident bt hc) (Or.inl hj)
  have hhead := lexPart_append_some htable hcolumn (joins_blank _ _)
  unfold addColumnText
  rw [← List.append_assoc] at hhead
  exact ⟨_, readDdl_append hhead (joins_blank _ _) fun us => by cases bt <;> rfl⟩

theorem ident_append {s t : Text} (hs : Ident s) (ht : Ident t) : Ident (s ++ t) := by
  have hne : s ++ t ≠ [] := List.append_ne_nil_of_left_ne_nil hs.ne_nil t
  simp only [Ident, isValidIdentifier, Bool.and_eq_true, List.all_eq_true]
  refine ⟨by simpa using hne, fun c hc => ?_⟩
  exact (List.mem_append.mp hc).elim hs.identChar ht.identChar

theorem ident_indexName (ht : Ident m.table) (hc : Ident c.nm) : Ident (indexName m c) := by
  have hidx : Ident "idx_".toList := by
    unfold Ident
    decide +kernel
  have hsep : Ident "_".toList := by
    unfold Ident
    decide +kernel
  exact ident_append (ident_append (ident_append hidx ht) hsep) hc

theorem readDdl_createIndex (ht : Ident m.table) (hc : Ident c.nm) :
    Sql.readDdl δ (createIndexText bt m c) =
      (lex δ (" ON ".toList ++ qident bt m.table ++ "(".toList ++ qident bt c.nm ++ ")".toList)).map
        (Sql.Ddl.createIndex (indexName m c)) := by
  have hk : lexPart δ "CREATE INDEX IF NOT EXISTS ".toList =
      some [.word "CREATE".toList, .word "INDEX".toList, .word "IF".toList, .word "NOT".toList,
        .word "EXISTS".toList] := by cases δ <;> rfl
  have hi : (Sql.run δ .idle "CREATE INDEX IF NOT EXISTS ".toList).2 = .idle := by cases δ <;> rfl
  have hhead := lexPart_append_some hk (lexPart_qident bt (ident_indexName ht hc)) (Or.inl hi)
  unfold createIndexText
  exact readDdl_append hhead (joins_blank _ _) fun us => by cases bt <;> rfl

theorem read_createIndex (ht : Ident m.table) (hc : Ident c.nm) :
    ∃ rest : Option (List Tok), Sql.readDdl δ (createIndexText bt m c) =
      rest.map (Sql.Ddl.createIndex (indexName m c)) := ⟨_, readDdl_createIndex ht hc⟩

end Reading

end Corm
