import Corm.Backend.SqliteValue
import Corm.Backend.Stmt

/-!
# Cached statements over a database

`sqlite3.c` on one connection whose schema changes: a cached statement keeps its bindings, its
position and the schema it was compiled under, and what `sqlite_exec` leaves unfinished in the cache
can lock a table.

* `Prepared`: a `sqlite3_stmt`; `SqliteVm`: what is left to SQLite; the driver calls on statements;
* `sqliteGetStmt`, `sqliteExec`, `sqliteQuery`: the functions of the backend;
* `freshCall`, `freshCalls`: the same calls on statements that were just prepared.
-/

namespace Corm.Cached

/-! ## SQLite -/

/-- What `sqlite3_prepare_v2` makes of a text: an error, no statement, or one with these columns. -/
inductive Compiled
  | error
  | empty
  | ok (names : List Text)

/-- A `sqlite3_stmt`: the schema it was compiled under, its parameters, and, since the first
`sqlite3_step` after a reset, the rows from the one that it stands on, and how it ends. -/
structure Prepared (S : Type) where
  sql : Text
  schema : S
  bound : ℕ → Cell
  cursor : Option (List (List Cell) × Bool)

/-- `sqlite3_stmt_busy`: the statement stands on a row. -/
def Prepared.busy {S : Type} (st : Prepared S) : Bool := st.cursor.any fun c => !c.1.isEmpty

/-- SQLite, with databases `D` whose schemas are `S`: what a text is compiled to under a schema, and
what running it with its parameters gives next to other statements that stand on a row, the rows,
whether it ends with `SQLITE_DONE`, and the database after it. -/
structure SqliteVm (D S : Type) where
  lib : Sqlite
  schema : D → S
  compile : S → Text → Compiled
  run : D → List (Prepared S) → Text → (ℕ → Cell) → List (List Cell) × Bool × D
  width : ∀ db others sql bound names, compile (schema db) sql = .ok names →
    ∀ row ∈ (run db others sql bound).1, row.length = names.length

variable {D S : Type} (vm : SqliteVm D S)

namespace Prepared

variable (st : Prepared S)

/-- A statement that was just prepared. -/
def new (sql : Text) (schema : S) : Prepared S := ⟨sql, schema, fun _ => .null, none⟩

/-- `sqlite3_reset`; the parameters stay. -/
def reset : Prepared S := { st with cursor := none }

/-- `sqlite3_clear_bindings`. -/
def clearBindings : Prepared S := { st with bound := fun _ => .null }

/-- A `sqlite3_bind`, which does nothing on a statement that runs. -/
def bind (i : ℕ) (c : Cell) : Prepared S :=
  if st.cursor.isNone then { st with bound := Function.update st.bound i c } else st

/-- The columns of the statement. -/
def columns : List Text :=
  match vm.compile st.schema st.sql with
  | .ok names => names
  | _ => []

/-- The rows that `sqlite3_step` returns, up to the end, next to other statements: the first step
compiles the statement for the schema of now, and runs it. -/
def start (db : D) (others : List (Prepared S)) : (List (List Cell) × Bool) × D × Prepared S :=
  match st.cursor with
  | some (rows, done) => ((rows.tail, done), db, st)
  | none =>
    match vm.compile (vm.schema db) st.sql with
    | .ok _ =>
      let (rows, done, db') := vm.run db others st.sql st.bound
      ((rows, done), db', { st with schema := vm.schema db, cursor := some (rows, done) })
    | _ => (([], false), db, { st with cursor := some ([], false) })

/-- The statement on another row. -/
def leave (cursor : List (List Cell) × Bool) : Prepared S := { st with cursor := some cursor }

/-- `sqlite_bind_params`, from the parameter with index `i` on. -/
def bindParams (st : Prepared S) (i : ℕ) : List Value → Option (Prepared S)
  | [] => some st
  | val :: vals => (bindParam vm.lib val).bind fun c => bindParams (st.bind (i + 1) c) (i + 1) vals

end Prepared

/-! ## The backend -/

/-- A connection: its database, its cache, and the statements that are not finalized. -/
structure Conn (D S : Type) where
  db : D
  cache : StmtCache Stmt
  stmts : Stmt → Option (Prepared S)
  fresh : Stmt

/-- The statements of a connection that stand on a row. -/
def Conn.unfinished (s : Conn D S) : List (Prepared S) :=
  (List.range s.fresh).filterMap fun h => (s.stmts h).filter Prepared.busy

/-- The outcomes of the allocations of a call: the cache entry, the arrays of `sqlite_query`, the
number of rows it can store, and its result. -/
structure Allocations where
  callocOk : Bool
  strdupOk : Bool
  buffersOk : Bool
  rowsOk : ℕ
  resultOk : Bool

/-- A new connection. -/
def Conn.start (S : Type) (capacity : ℕ) (db : D) : Except Err (Conn D S) :=
  (stmtCacheCreate Stmt capacity).map fun c =>
    ⟨db, stmtCacheSetDestroyFn c true, fun _ => none, 0⟩

/-- The statements after `sqlite3_finalize`. -/
def finalizeAll (stmts : Stmt → Option (Prepared S)) (gone : List Stmt) :
    Stmt → Option (Prepared S) := fun h => if h ∈ gone then none else stmts h

/-- `sqlite_get_stmt`. -/
def sqliteGetStmt (o : Allocations) (sql : Text) (s : Conn D S) :
    Option (Option Stmt × Conn D S) := do
  let (stmt, cache) ← stmtCacheGet s.cache (some sql)
  match stmt with
  | some h => do
    let st ← s.stmts h
    let stmts := Function.update s.stmts h (some st.reset.clearBindings)
    some (some h, { s with cache, stmts })
  | none =>
    match vm.compile (vm.schema s.db) sql with
    | .error => some (none, { s with cache })
    | .empty => do
      let (_, _, cache) ← stmtCachePut o.callocOk o.strdupOk cache (some sql) none
      some (none, { s with cache })
    | .ok _ => do
      let (_, gone, cache) ← stmtCachePut o.callocOk o.strdupOk cache (some sql) (some s.fresh)
      let stmts := Function.update s.stmts s.fresh (some (.new sql (vm.schema s.db)))
      some (some s.fresh, ⟨s.db, cache, finalizeAll stmts gone, s.fresh + 1⟩)

/-- `sqlite_cleanup_stmt`. -/
def sqliteCleanupStmt (sql : Text) (s : Conn D S) : Option (Conn D S) := do
  let (stmt, cache) ← stmtCacheRemove s.cache (some sql)
  some { s with cache, stmts := finalizeAll s.stmts stmt.toList }

/-- `sqlite_exec`: one `sqlite3_step`. -/
def sqliteExec (o : Allocations) (sql : Text) (params : List Value) (s : Conn D S) :
    Option (Err × Conn D S) := do
  let (stmt, s) ← sqliteGetStmt vm o sql s
  match stmt with
  | none => some (.backend, s)
  | some h => do
    let st ← s.stmts h
    let st ← st.bindParams vm 0 params
    let ((rows, done), db, st) := st.start vm s.db s.unfinished
    let s := { s with db, stmts := Function.update s.stmts h (some st) }
    if rows ≠ [] ∨ done = true then some (.ok, s)
    else do
      let s ← sqliteCleanupStmt sql s
      some (.backend, s)

/-- The columns below `n` of a row or of the names; beyond the last one there is nothing to read. -/
def readColumns {α : Type} (n : ℕ) (row : List α) : Option (Fin n → α) :=
  if h : n ≤ row.length then some fun i => row.get (i.castLE h) else none

/-- The loop of `sqlite_query` over the rows of a statement that ends as `done` says, and the result
it makes with `n` columns. -/
def assemble (o : Allocations) (n : ℕ) (names : List Text) (rows : List (List Cell)) (done : Bool) :
    Option (Err × Option Result) := do
  let stored ← (rows.take o.rowsOk).mapM (readColumns n)
  if o.rowsOk < rows.length then some (.nomem, none)
  else if done = false then some (.backend, none)
  else if o.resultOk = false then some (.nomem, none)
  else do
    let names ← readColumns n names
    some (.ok, some (Corm.sqliteQuery vm.lib names stored))

/-- `sqlite_query`. -/
def sqliteQuery (o : Allocations) (sql : Text) (params : List Value) (s : Conn D S) :
    Option ((Err × Option Result) × Conn D S) := do
  let (stmt, s) ← sqliteGetStmt vm o sql s
  match stmt with
  | none => some ((.backend, none), s)
  | some h => do
    let st ← s.stmts h
    let st ← st.bindParams vm 0 params
    -- the columns are counted before the first step
    let n := (st.columns vm).length
    if o.buffersOk then do
      let ((rows, done), db, st) := st.start vm s.db s.unfinished
      let s := { s with db, stmts := Function.update s.stmts h (some (st.leave ([], done))) }
      let out ← assemble vm o n (st.columns vm) rows done
      if out.1 = .ok then some (out, s)
      else do
        let s ← sqliteCleanupStmt sql s
        some (out, s)
    else do
      let s := { s with stmts := Function.update s.stmts h (some st) }
      let s ← sqliteCleanupStmt sql s
      some ((.nomem, none), s)

/-- A call of the backend. -/
inductive Call
  | exec (o : Allocations) (sql : Text) (params : List Value)
  | query (o : Allocations) (sql : Text) (params : List Value)

/-- The text of a call. -/
def Call.sql : Call → Text
  | .exec _ sql _ | .query _ sql _ => sql

/-- The values have the member of their type. -/
def Call.Bindable : Call → Prop
  | .exec _ _ params | .query _ _ params => ∀ val ∈ params, (bindParam vm.lib val).isSome

/-- What a call returns, and the connection after it. -/
def Conn.call (s : Conn D S) : Call → Option ((Err × Option Result) × Conn D S)
  | .exec o sql params => (sqliteExec vm o sql params s).map fun r => ((r.1, none), r.2)
  | .query o sql params => sqliteQuery vm o sql params s

/-- What a sequence of calls returns, and the database after it. -/
def Conn.calls (s : Conn D S) : List Call → Option (List (Err × Option Result) × D)
  | [] => some ([], s.db)
  | c :: cs => (s.call vm c).bind fun r => (r.2.calls cs).map fun rs => (r.1 :: rs.1, rs.2)

/-! ## Freshly prepared statements -/

/-- A call on a statement that was just prepared, and is finalized at the end of the call, and the
database after it. -/
def freshCall (db : D) : Call → Option ((Err × Option Result) × D)
  | .exec _ sql params =>
    match vm.compile (vm.schema db) sql with
    | .ok _ => do
      let st ← (Prepared.new sql (vm.schema db)).bindParams vm 0 params
      let (rows, done, db) := vm.run db [] sql st.bound
      some ((if rows ≠ [] ∨ done = true then .ok else .backend, none), db)
    | _ => some ((.backend, none), db)
  | .query o sql params =>
    match vm.compile (vm.schema db) sql with
    | .ok names => do
      let st ← (Prepared.new sql (vm.schema db)).bindParams vm 0 params
      if o.buffersOk then do
        let (rows, done, db) := vm.run db [] sql st.bound
        let out ← assemble vm o names.length names rows done
        some (out, db)
      else some ((.nomem, none), db)
    | _ => some ((.backend, none), db)

/-- A sequence of calls, each on a statement that was just prepared. -/
def freshCalls (db : D) : List Call → Option (List (Err × Option Result) × D)
  | [] => some ([], db)
  | c :: cs => (freshCall vm db c).bind fun r => (freshCalls r.2 cs).map fun rs => (r.1 :: rs.1, rs.2)

end Corm.Cached
