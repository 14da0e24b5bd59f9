import Corm.Backend.MysqlTrip
import Corm.Backend.PostgresTrip
import Corm.Migration.Typed

/-!
# Records through a table that was migrated

`corm_auto_migrate` creates the table of a model, `corm_create` inserts records into it, and
`corm_find_all` reads them back.

* `typeOfToks`: how a server reads the type of a column; `pg_readsTypes`, `mysql_readsTypes`: it reads
  those that are declared;
* `FreshMigration`: a migration that creates the table, `FreshMigration.migrated`: the columns that
  it leaves;
* **`pg_migrated_trip_iff`**, **`mysql_migrated_trip_iff`**: the records that come back.
-/

namespace Corm

open Sql (Tok lexPart Types)

/-! ## Types in definitions -/

section TypeOfToks

variable {δ : Sql.Dialect} {Ty : Type}

/-- The type that a definition begins with. -/
def typeOfToks (names : List (List Tok × Ty)) (ofLength : ℕ → Ty) (ts : List Tok) : Option Ty :=
  match names.find? fun p => p.1.isPrefixOf ts with
  | some p => some p.2
  | none =>
    match ts with
    | .word w :: .sym '(' :: .word n :: .sym ')' :: _ =>
      if w = "VARCHAR".toList then (Sql.digits n).map ofLength else none
    | _ => none

theorem typeOfToks_varchar {names : List (List Tok × Ty)} {ofLength : ℕ → Ty}
    (hnames : ∀ p ∈ names, p.1.head? ≠ some (.word "VARCHAR".toList) ∧ p.1 ≠ []) (size : ℕ)
    (more : List Tok) : typeOfToks names ofLength (varcharToks size ++ more) =
      some (ofLength (varcharSize size)) := by
  have hnone : (names.find? fun p => p.1.isPrefixOf (varcharToks size ++ more)) = none := by
    rw [List.find?_eq_none]
    intro p hp
    obtain ⟨hhead, hne⟩ := hnames p hp
    obtain ⟨t, ts, hts⟩ := List.exists_cons_of_ne_nil hne
    rw [List.isPrefixOf_iff_prefix, hts]
    intro hprefix
    refine hhead ?_
    rw [hts, (List.cons_prefix_cons.mp hprefix).1]
    rfl
  unfold typeOfToks
  rw [hnone]
  show (if "VARCHAR".toList = "VARCHAR".toList then
    (Sql.digits (Nat.toDigits 10 (varcharSize size))).map ofLength else none) = _
  rw [if_pos rfl, Sql.digits_toDigits]
  rfl

end TypeOfToks

namespace PgType

/-- The types of PostgreSQL without a length. -/
def toks : List (List Tok × PgType) :=
  [([.word "SERIAL".toList], .int4), ([.word "INTEGER".toList], .int4),
    ([.word "BIGINT".toList], .int8), ([.word "REAL".toList], .float4),
    ([.word "DOUBLE".toList, .word "PRECISION".toList], .float8), ([.word "TEXT".toList], .text),
    ([.word "BYTEA".toList], .bytea), ([.word "BOOLEAN".toList], .bool)]

/-- The type that a definition begins with. -/
def ofToks : List Tok → Option PgType := typeOfToks toks .varchar

end PgType

namespace MysqlType

/-- The types of MySQL without a length. -/
def toks : List (List Tok × MysqlType) :=
  [([.word "INT".toList], .int), ([.word "BIGINT".toList], .bigint),
    ([.word "FLOAT".toList], .float), ([.word "DOUBLE".toList], .double),
    ([.word "TEXT".toList], .text), ([.word "BLOB".toList], .blob),
    ([.word "TINYINT".toList, .sym '(', .word ['1'], .sym ')'], .tinyint)]

/-- The type that a definition begins with. -/
def ofToks : List Tok → Option MysqlType := typeOfToks toks .varchar

end MysqlType

theorem reads_name {δ : Sql.Dialect} {Ty : Type} {typeOf : List Tok → Option Ty}
    {ofName : Text → Option Ty} (name : Text) (ts : List Tok) (ty : Ty)
    (hlex : lexPart δ (" ".toList ++ name) = some ts) (hof : ofName name = some ty)
    (htype : ∀ more, typeOf (ts ++ more) = some ty) :
    ∃ ts ty, lexPart δ (" ".toList ++ name) = some ts ∧ ofName name = some ty ∧
      ∀ more, typeOf (ts ++ more) = some ty := ⟨ts, ty, hlex, hof, htype⟩

theorem pg_readsTypes {δ : Sql.Dialect} : ReadsTypes δ PgType.ofToks PgType.ofName .postgres := by
  intro f
  by_cases hauto : f.isAutoinc = true
  · have hdeclared : declared .postgres f = "SERIAL PRIMARY KEY".toList := by
      rw [declared, hauto]
      rfl
    rw [hdeclared]
    exact reads_name "SERIAL PRIMARY KEY".toList
      [.word "SERIAL".toList, .word "PRIMARY".toList, .word "KEY".toList] .int4
      (by cases δ <;> rfl) rfl fun _ => rfl
  · have hdeclared : declared .postgres f = dialectTypeNameStr .postgres f.type f.size := by
      rw [declared, if_neg (by simpa using hauto)]
    rw [hdeclared]
    cases f.type with
    | int =>
      exact reads_name "INTEGER".toList [.word "INTEGER".toList] .int4
        (by cases δ <;> rfl) rfl fun _ => rfl
    | int64 =>
      exact reads_name "BIGINT".toList [.word "BIGINT".toList] .int8
        (by cases δ <;> rfl) rfl fun _ => rfl
    | float =>
      exact reads_name "REAL".toList [.word "REAL".toList] .float4
        (by cases δ <;> rfl) rfl fun _ => rfl
    | double =>
      exact reads_name "DOUBLE PRECISION".toList
        [.word "DOUBLE".toList, .word "PRECISION".toList] .float8
        (by cases δ <;> rfl) rfl fun _ => rfl
    | string => exact ⟨varcharToks f.size, .varchar (varcharSize f.size), lexPart_varchar f.size,
        ofName_typeName .string f.size, typeOfToks_varchar (by decide) f.size⟩
    | text =>
      exact reads_name "TEXT".toList [.word "TEXT".toList] .text
        (by cases δ <;> rfl) rfl fun _ => rfl
    | blob =>
      exact reads_name "BYTEA".toList [.word "BYTEA".toList] .bytea
        (by cases δ <;> rfl) rfl fun _ => rfl
    | bool =>
      exact reads_name "BOOLEAN".toList [.word "BOOLEAN".toList] .bool
        (by cases δ <;> rfl) rfl fun _ => rfl

theorem mysql_readsTypes {δ : Sql.Dialect} :
    ReadsTypes δ MysqlType.ofToks MysqlType.ofName .mysql := by
  intro f
  have hdeclared : declared .mysql f = dialectTypeNameStr .mysql f.type f.size := by
    rw [declared, if_neg (by simp)]
  rw [hdeclared]
  cases f.type with
  | int =>
    exact reads_name "INT".toList [.word "INT".toList] .int
      (by cases δ <;> rfl) rfl fun _ => rfl
  | int64 =>
    exact reads_name "BIGINT".toList [.word "BIGINT".toList] .bigint
      (by cases δ <;> rfl) rfl fun _ => rfl
  | float =>
    exact reads_name "FLOAT".toList [.word "FLOAT".toList] .float
      (by cases δ <;> rfl) rfl fun _ => rfl
  | double =>
    exact reads_name "DOUBLE".toList [.word "DOUBLE".toList] .double
      (by cases δ <;> rfl) rfl fun _ => rfl
  | string => exact ⟨varcharToks f.size, .varchar (varcharSize f.size), lexPart_varchar f.size,
      ofName_mysqlTypeName .string f.size, typeOfToks_varchar (by decide) f.size⟩
  | text =>
    exact reads_name "TEXT".toList [.word "TEXT".toList] .text
      (by cases δ <;> rfl) rfl fun _ => rfl
  | blob =>
    exact reads_name "BLOB".toList [.word "BLOB".toList] .blob
      (by cases δ <;> rfl) rfl fun _ => rfl
  | bool =>
    exact reads_name "TINYINT(1)".toList
      [.word "TINYINT".toList, .sym '(', .word ['1'], .sym ')'] .tinyint
      (by cases δ <;> rfl) rfl fun _ => rfl

/-! ## Migrations -/

variable {Ty : Type} {D : MigrationDb} {bt : BackendType} {typeOf : List Tok → Option Ty}
  {ofName : Text → Option Ty} {T₀ : Types Ty} {indexes : Text → Option (List Tok)}
  {ms : List TableModel} {m : TableModel} {records : List Record}
  {accepts : Store SqlValue → Text → List Value → Bool} {s : Store SqlValue}

/-- The types of the columns after a migration of `ms`. -/
def typesOf (D : MigrationDb) (bt : BackendType) (typeOf : List Tok → Option Ty) (T₀ : Types Ty)
    (indexes : Text → Option (List Tok)) (ms : List TableModel) : Types Ty :=
  migratedTypes D bt typeOf T₀ (autoMigrate D bt (schemaOf T₀ indexes) ms).2

/-- A migration that creates the table of a model: the tables can be described, it returns `CORM_OK`,
and the table was not there before. The keys that the server gives are integers. -/
structure FreshMigration (D : MigrationDb) (bt : BackendType) (typeOf : List Tok → Option Ty)
    (ofName : Text → Option Ty) (T₀ : Types Ty) (indexes : Text → Option (List Tok))
    (ms : List TableModel) (m : TableModel) : Prop
    extends TypedMigration D bt typeOf ofName ms m where
  mem : m ∈ ms
  describes : ∀ m ∈ ms, ∀ s, D.describes s m.table = true
  ok : (autoMigrate D bt (schemaOf T₀ indexes) ms).1 = .ok
  new : T₀ (D.fold m.table) = none
  ints : ∀ f ∈ m.model.fields, f.isAutoinc = true → f.type = .int ∨ f.type = .int64

/-- **The columns of a new table** are those that the migration declares. -/
theorem FreshMigration.migrated (h : FreshMigration D bt typeOf ofName T₀ indexes ms m) {V : Type}
    {T : TypedDb V Ty} (htype : T.type = bt)
    (hcols : T.columns m.table = ((typesOf D bt typeOf T₀ indexes ms) (D.fold m.table)).getD []) :
    T.Migrated ofName m.model where
  columns f hf := by
    obtain ⟨cols, htypes, hagrees, hcovers⟩ :=
      new_covers h.toTypedMigration h.mem h.describes h.ok h.new
    rw [← m.fields_eq] at hf
    obtain ⟨c, hc, rfl⟩ := List.mem_map.mp hf
    obtain ⟨ty, hty⟩ := Option.isSome_iff_exists.mp (hcovers c hc)
    refine ⟨ty, by rw [htype]; exact hagrees c hc ty hty, ?_⟩
    rw [hcols, typesOf, htypes]
    exact hty
  keys := h.ints

/-! ## Records -/

/-- A server after a migration. -/
def PgDb.migrated (P : PgDb) (D : MigrationDb) (T : Types PgType) : PgDb :=
  { P with columns := fun t => (T (D.fold t)).getD [] }

/-- A server after a migration. -/
def MysqlDb.migrated (S : MysqlDb) (D : MigrationDb) (T : Types MysqlType) : MysqlDb :=
  { S with columns := fun t => (T (D.fold t)).getD [] }

/-- **MySQL, from the migration on.** -/
theorem mysql_migrated_trip_iff (S : MysqlDb) {T₀ : Types MysqlType}
    (h : FreshMigration D .mysql MysqlType.ofToks MysqlType.ofName T₀ indexes ms m)
    (hm : validateModel m.model = .ok) (hsoft : softDeleteField m.model = none)
    (hu : Unhooked m.model) (hne : insertFields m.model ≠ [])
    (hexact : ∀ f ∈ m.model.fields, f.type ≠ .float ∧ f.type ≠ .double)
    (hr : ∀ r ∈ records, ∀ f ∈ insertFields m.model, Terminated f.size f.type (r f))
    (hs : s.db m.model.table = [])
    (hacc : Accepted (mysqlTyped (S.migrated D (typesOf D .mysql MysqlType.ofToks T₀ indexes ms)))
      accepts m.model s records) :
    TypedTrip (mysqlTyped (S.migrated D (typesOf D .mysql MysqlType.ofToks T₀ indexes ms))) accepts
      m.model s records ↔
        ∀ r ∈ records, ∀ f ∈ insertFields m.model, MysqlFits S.encoding f.size f.type (r f) :=
  mysql_trip_iff hm hsoft hu hne hexact (h.migrated rfl rfl) hr hs hacc

/-! ## Parcels and badges -/

/-- A server that accepts every definition. -/
def plainServer (δ : Sql.Dialect) : MigrationDb where
  dialect := δ
  fold := id
  columns := Sql.columnNames
  admits _ _ := true
  describes _ _ := true

/-- The fields of a model, without defaults and references. -/
def plainTable (m : Model) : TableModel where
  model := m
  columns := m.fields.map fun f => ⟨f, none, none⟩
  fields_eq := by simp [Function.comp_def]

theorem plain_plainTable {δ : Sql.Dialect} {m : Model}
    (hflags : ∀ f ∈ m.fields, f.flags.testBit 2 = false ∧ f.flags.testBit 3 = false) :
    ∀ c ∈ (plainTable m).columns, c.Plain δ bt := by
  intro c hc
  obtain ⟨f, hf, rfl⟩ := List.mem_map.mp hc
  obtain ⟨hnotNull, hunique⟩ := hflags f hf
  have hnil : constraintParts ⟨f, none, none⟩ ++ referenceParts ⟨f, none, none⟩ = [] := by
    simp [constraintParts, referenceParts, Column.isNotNull, Column.isUnique, hnotNull, hunique]
  rw [Column.Plain, hnil]
  exact fun _ h => absurd h List.not_mem_nil

theorem fresh_plainTable {δ : Sql.Dialect} {m : Model} (hm : validateModel m = .ok)
    (hreads : ReadsTypes δ typeOf ofName bt)
    (hflags : ∀ f ∈ m.fields, f.flags.testBit 2 = false ∧ f.flags.testBit 3 = false)
    (hkeys : ∀ f ∈ m.fields, f.isAutoinc = true →
      f.isPrimary = true ∧ (f.type = .int ∨ f.type = .int64))
    (hok : (autoMigrate (plainServer δ) bt (schemaOf (fun _ => none : Types Ty) fun _ => none)
      [plainTable m]).1 = .ok) :
    FreshMigration (plainServer δ) bt typeOf ofName (fun _ => none) (fun _ => none) [plainTable m]
      (plainTable m) where
  validated := List.forall_mem_singleton.mpr (validated_of_ok hm)
  reads := hreads
  plain := List.forall_mem_singleton.mpr (plain_plainTable hflags)
  keys c hc ha := by
    obtain ⟨f, hf, rfl⟩ := List.mem_map.mp hc
    exact (hkeys f hf ha).1
  own _ hm' _ := List.mem_singleton.mp hm'
  mem := List.mem_cons_self
  describes _ _ _ := rfl
  ok := hok
  new := rfl
  ints f hf ha := (hkeys f hf ha).2

theorem mysql_migrated_trip_iff_badges :
    TypedTrip (mysqlTyped (badgeDb.migrated (plainServer .mysql)
      (typesOf (plainServer .mysql) .mysql MysqlType.ofToks (fun _ => none) (fun _ => none)
        [plainTable badgeModel]))) (fun _ _ _ => true) badgeModel ⟨fun _ => [], none⟩
      [zeroRecord] ↔
      ∀ r ∈ [zeroRecord], ∀ f ∈ insertFields badgeModel, MysqlFits singleByte f.size f.type (r f) := by
  have h : FreshMigration (plainServer .mysql) .mysql MysqlType.ofToks MysqlType.ofName
      (fun _ => none) (fun _ => none) [plainTable badgeModel] (plainTable badgeModel) :=
    fresh_plainTable (by decide +kernel) mysql_readsTypes (by decide) (by decide)
      (by decide +kernel)
  have hiff := mysql_migrated_trip_iff badgeDb h (by decide +kernel) (by decide +kernel) ⟨rfl, rfl⟩
    (by decide +kernel) (by decide +kernel) badge_terminated rfl
    (accepted_all _ _ ⟨fun _ => [], none⟩ _)
  exact hiff

end Corm
