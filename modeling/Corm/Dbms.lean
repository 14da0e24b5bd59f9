import Corm.Exec
import Corm.Reading.Basic
import Corm.Sql.Stmt
import Corm.Sql.Texts

/-!
# A backend over a database

* `Dbms`: what is left to the database and its client library; `Store`: its state;
* `sqlBackend`: the backend that reads each statement it is given and runs it;
* `tallyBackend`: the backend with a count of rows;
* `query_rows`, **`execWithHooks_ok`**: the rows of a query, and what a call that succeeds did;
* `textDbms`: a database that can be run.
-/

namespace Corm

variable {V : Type}

/-- The tables, and those that a rollback brings back. -/
structure Store (V : Type) where
  db : Sql.Database V
  saved : Option (Sql.Database V)

/-- A database: how it evaluates predicates, the value a bound parameter has in a statement (`none`
when it cannot be bound), the value of a column that an INSERT leaves out, and its counters. -/
structure Dbms (V : Type) where
  engine : Sql.Engine V
  bind : Value → Option V
  omitted : Sql.Omitted V
  lastInsertId : Store V → ℤ
  rowsAffected : Store V → ℤ

namespace Dbms

variable (D : Dbms V)

/-- Of the strings that can be bound, the null pointers are NULL, and no others. -/
def StoresStrings : Prop :=
  ∀ t p v, t = .string ∨ t = .text → D.bind ⟨t, false, .s p⟩ = some v →
    (v = D.engine.null ↔ p = none)

/-- A statement with its parameters, read by the lexical rules `δ`. -/
def read (δ : Sql.Dialect) (sql : Text) (params : List Value) : Option (Sql.Stmt V) :=
  (params.mapM D.bind).bind (Sql.readStmt δ sql)

/-- Run a statement that changes tables. -/
def exec (δ : Sql.Dialect) (s : Store V) (sql : Text) (params : List Value) : Err × Store V :=
  match (D.read δ sql params).bind (D.engine.execute D.omitted s.db) with
  | some db => (.ok, { s with db })
  | none => (.backend, s)

/-- Run a statement that returns rows. -/
def query (δ : Sql.Dialect) (s : Store V) (sql : Text) (params : List Value) :
    Err × Option (List (Sql.Row V)) × Store V :=
  match (D.read δ sql params).bind (D.engine.select s.db) with
  | some rows => (.ok, some rows, s)
  | none => (.backend, none, s)

end Dbms

/-- A backend of a given type over a database. -/
def sqlBackend (type : BackendType) (D : Dbms V) : Backend (Store V) (List (Sql.Row V)) where
  type := type
  exec := D.exec type.dialect
  query := D.query type.dialect
  begin_ s := (.ok, { s with saved := some s.db })
  commit s := (.ok, { s with saved := none })
  rollback s := (.ok, ⟨s.saved.getD s.db, none⟩)
  lastInsertId := D.lastInsertId
  rowsAffected := D.rowsAffected

@[simp] theorem sqlBackend_type (type : BackendType) (D : Dbms V) :
    (sqlBackend type D).type = type := rfl

variable {D : Dbms V} {δ : Sql.Dialect} {s : Store V} {sql : Text} {params : List Value}

theorem exec_sql {db : Sql.Database V}
    (h : (D.read δ sql params).bind (D.engine.execute D.omitted s.db) = some db) :
    D.exec δ s sql params = (.ok, { s with db }) := by
  rw [Dbms.exec, h]

theorem exec_sql_none (h : (D.read δ sql params).bind (D.engine.execute D.omitted s.db) = none) :
    D.exec δ s sql params = (.backend, s) := by
  rw [Dbms.exec, h]

theorem query_rows (s : Store V) (sql : Text) (params : List Value) :
    (D.query δ s sql params).2.1 = (D.read δ sql params).bind (D.engine.select s.db) := by
  unfold Dbms.query
  cases (D.read δ sql params).bind (D.engine.select s.db) <;> rfl

/-- **An executing call that succeeds** ran its statement. -/
theorem execWithHooks_ok {bt : BackendType} {before after : Option Hook} {count : Store V → ℤ}
    {bind : Query → Option Record → Query} {op : QueryOp} {q : Query} {record : Option Record}
    (hok : (execWithHooks (sqlBackend bt D) before after count bind op s q record).err = .ok) :
    ∃ record' db, runHook before record = (.ok, record') ∧
      (D.read bt.dialect (buildSql (queryOp q op)) (bind (queryOp q op) record').params).bind
        (D.engine.execute D.omitted s.db) = some db ∧
      (execWithHooks (sqlBackend bt D) before after count bind op s q record).state =
        { s with db } := by
  unfold execWithHooks at hok ⊢
  rcases hhook : runHook before record with ⟨err, record'⟩
  rw [hhook] at hok
  cases err with
  | ok =>
    simp only at hok ⊢
    cases hrun : (D.read bt.dialect (buildSql (queryOp q op)) (bind (queryOp q op) record').params).bind
        (D.engine.execute D.omitted s.db) with
    | none =>
      have hexec : (sqlBackend bt D).exec s (buildSql (queryOp q op))
          (bind (queryOp q op) record').params = (.backend, s) := exec_sql_none hrun
      rw [hexec] at hok
      cases hok
    | some db =>
      have hexec : (sqlBackend bt D).exec s (buildSql (queryOp q op))
          (bind (queryOp q op) record').params = (.ok, { s with db }) := exec_sql hrun
      rw [hexec]
      exact ⟨record', db, rfl, hrun, rfl⟩
  | _ => cases hok

/-! ## Counting -/

/-- A backend over a database that keeps the count of the last statement that succeeded. -/
def tallyBackend (type : BackendType) (tally : Store V → Text → List Value → ℤ) (D : Dbms V) :
    Backend (Store V × ℤ) (List (Sql.Row V)) where
  type := type
  exec s sql params :=
    match D.exec type.dialect s.1 sql params with
    | (.ok, s') => (.ok, s', tally s.1 sql params)
    | (err, s') => (err, s', s.2)
  query s sql params :=
    ((D.query type.dialect s.1 sql params).1, (D.query type.dialect s.1 sql params).2.1, s)
  begin_ s := (.ok, { s.1 with saved := some s.1.db }, s.2)
  commit s := (.ok, { s.1 with saved := none }, s.2)
  rollback s := (.ok, ⟨s.1.saved.getD s.1.db, none⟩, s.2)
  lastInsertId s := D.lastInsertId s.1
  rowsAffected := Prod.snd

/-- **A statement of a counting backend** does what it does without the count, and reports it. -/
theorem updateInternal_tally {type : BackendType} (tally : Store V → Text → List Value → ℤ)
    (s : Store V × ℤ) (q : Query) (record : Option Record) :
    (updateInternal (tallyBackend type tally D) s q record).err =
      (updateInternal (sqlBackend type D) s.1 q record).err ∧
    (updateInternal (tallyBackend type tally D) s q record).state.1 =
      (updateInternal (sqlBackend type D) s.1 q record).state ∧
    ((updateInternal (tallyBackend type tally D) s q record).err = .ok →
      (updateInternal (tallyBackend type tally D) s q record).count =
        some (tally s.1 (buildUpdate (queryOp q .update)) q.params)) := by
  unfold updateInternal execWithHooks
  rcases runHook q.model.beforeUpdate record with ⟨err, record'⟩
  cases err with
  | ok =>
    simp only [tallyBackend, sqlBackend]
    have hsql : buildSql (queryOp q .update) = buildUpdate (queryOp q .update) := rfl
    have hparams : (queryOp q .update).params = q.params := rfl
    rw [hsql, hparams]
    rcases D.exec type.dialect s.1 (buildUpdate (queryOp q .update)) q.params with ⟨err, s'⟩
    cases err with
    | ok => exact ⟨rfl, rfl, fun _ => rfl⟩
    | _ => exact ⟨rfl, rfl, nofun⟩
  | _ => exact ⟨rfl, rfl, nofun⟩

/-! ## A database of texts -/

/-- A value as a text: strings as they are, a null pointer as NULL, integers in decimal. -/
def textBind (v : Value) : Option (Option Text) :=
  if v.isNull then some none
  else match v.v with
    | .s p => some p
    | .i n => some (some ((if n.toInt < 0 then ['-'] else []) ++ Nat.toDigits 10 n.toInt.natAbs))
    | _ => none

/-- A database of texts that numbers the rows it inserts. -/
def textDbms : Dbms (Option Text) where
  engine := Sql.texts
  bind := textBind
  omitted _ rows _ := some (Nat.toDigits 10 (rows.length + 1))
  lastInsertId _ := 0
  rowsAffected _ := 0

theorem textDbms_storesStrings : textDbms.StoresStrings := by
  intro t p v _ hv
  have hp : p = v := Option.some.inj hv
  rw [hp]
  rfl

/-- A database with one table. -/
def oneTable (t : Text) (rows : List (Sql.Row V)) : Store V :=
  ⟨fun t' => if t' = t then rows else [], none⟩

theorem oneTable_self (t : Text) (rows : List (Sql.Row V)) : (oneTable t rows).db t = rows :=
  if_pos rfl

end Corm
