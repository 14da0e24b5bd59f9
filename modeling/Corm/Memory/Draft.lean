import Corm.Exec
import Corm.Memory.Pieces
import Corm.Memory.StrBuf
import Corm.Reading.Chain
import Corm.SoftDelete.Binding

/-!
# Queries and failing requests

The builder and the operations, with allocation requests that may fail in `corm_query_where`,
`corm_query_or_where`, `corm_query_bind` and `corm_build_sql`; none of them reports it. Texts that
the other functions append are appended in full.

* `Memory`: the requests that fail, and what becomes of the caller's own bytes;
* `Draft`: a query with its capacities; `DraftCall`: the calls of the builder;
* `Operation.run`: `corm_find`, `corm_update` and `corm_delete`.
-/

namespace Corm

/-! ## The builder -/

/-- The requests that fail, and what is at the address of some bytes of the caller, when they were
not copied, by the time that the statement is sent. -/
structure Memory where
  fails : Faults
  held : List UInt8 → List UInt8

/-- A query, with the capacity of its WHERE buffer and of its parameters, and the number of requests
so far. -/
structure Draft where
  query : Query
  whereCap : ℕ
  paramCap : ℕ
  requests : ℕ

variable (mem : Memory)

/-- `corm_param_deep_copy` after `n` requests: the requests after it, and the value. -/
def paramDeepCopy (n : ℕ) (val : Value) : ℕ × Value :=
  match val.type, val.v with
  | .text, .s (some _) | .string, .s (some _) =>
    if mem.fails n then (n + 1, { val with v := .s none }) else (n + 1, val)
  | .blob, .blob (some data) =>
    if data = [] then (n, val)
    else if mem.fails n then (n + 1, { val with v := .blob (some (mem.held data)) })
    else (n + 1, val)
  | _, _ => (n, val)

/-- The piece before a condition, if there is one. -/
def sepPieces (where_ connective : Text) : List Text := if where_ = [] then [] else [connective]

namespace Draft

variable (d : Draft)

/-- The WHERE buffer. -/
def whereBuf : StrBuf := ⟨d.query.where_, d.whereCap⟩

/-- The WHERE buffer after some requests. -/
def withWhere (n : ℕ) (sb : StrBuf) : Draft :=
  { d with query := { d.query with where_ := sb.text }, whereCap := sb.cap, requests := n }

/-- `corm_query_where` and `corm_query_or_where`, by their connective. -/
def addWhere (connective condition : Text) : Draft :=
  let out := StrBuf.appendAll mem.fails d.requests d.whereBuf
    (sepPieces d.query.where_ connective ++ [condition])
  d.withWhere out.1 out.2

/-- Texts that are appended to the WHERE in full. -/
def addText (pieces : List Text) : Draft :=
  d.withWhere d.requests (StrBuf.appendAll (fun _ => false) 0 d.whereBuf pieces).2

/-- The start of a condition on a field, appended in full. -/
def addField (field : Option Text) (test : Text) : Draft :=
  d.addText (sepPieces d.query.where_ " AND ".toList ++ [field.getD [], test])

/-- The copy of a value as the last parameter. -/
def store (val : Value) : Draft :=
  let (n, val) := paramDeepCopy mem d.requests val
  { d with query := queryBind d.query val, requests := n }

/-- `corm_query_bind`. -/
def bind (val : Value) : Draft :=
  if d.query.params.length < d.paramCap then d.store mem val
  else if mem.fails d.requests then { d with requests := d.requests + 1 }
  else
    store mem { d with
      paramCap := if d.paramCap = 0 then 8 else d.paramCap * 2
      requests := d.requests + 1 } val

/-- The placeholder of the next parameter. -/
def mark : Text := placeholderStr d.query.bt d.query.params.length

/-- The loop of `corm_query_where_in`, from the value with index `i` on. -/
def whereInLoop : Draft → ℕ → List Value → Draft
  | d, _, [] => d
  | d, i, val :: vals =>
    let d := d.addText ((if 0 < i then [", ".toList] else []) ++ [d.mark])
    whereInLoop (d.bind mem val) (i + 1) vals

/-- `corm_query_set`. -/
def set (field : Option Text) (val : Value) : Draft :=
  if isValidIdentifier field then
    let clause := (querySet d.query field val).setClause
    let d := bind mem { d with query := { d.query with setClause := clause } } val
    { d with query := { d.query with op := .update } }
  else d

end Draft

/-- A call that adds to the WHERE, or binds a value. -/
def WhereCall.draft (d : Draft) : WhereCall → Draft
  | .where_ condition => d.addWhere mem " AND ".toList condition
  | .orWhere condition => d.addWhere mem " OR ".toList condition
  | .bind val => d.bind mem val
  | .whereNull field =>
    if isValidIdentifier field then
      d.addField field " IS NULL".toList
    else d
  | .whereNotNull field =>
    if isValidIdentifier field then
      d.addField field " IS NOT NULL".toList
    else d
  | .whereIn field vals =>
    if isValidIdentifier field && !vals.isEmpty then
      let d := d.addField field " IN (".toList
      (d.whereInLoop mem 0 vals).addText [")".toList]
    else d
  | .whereBetween field minVal maxVal =>
    if isValidIdentifier field then
      let d := d.addField field " BETWEEN ".toList
      let d := (d.addText [d.mark]).bind mem minVal
      let d := d.addText [" AND ".toList]
      (d.addText [d.mark]).bind mem maxVal
    else d

/-- A call that changes another clause. -/
inductive ClauseCall
  | select (columns : Text)
  | join (clause : Option Text)
  | order (text : Option Text)
  | group (text : Option Text)
  | having_ (condition : Option Text)
  | limit (n : ℤ)
  | offset (n : ℤ)
  | setRaw (clause : Text)
  | unscoped
  | distinct

/-- The query after the call. -/
def ClauseCall.apply (q : Query) : ClauseCall → Query
  | .select columns => querySelect q columns
  | .join clause => queryJoin q clause
  | .order text => queryOrder q text
  | .group text => queryGroup q text
  | .having_ condition => queryHaving q condition
  | .limit n => queryLimit q n
  | .offset n => queryOffset q n
  | .setRaw clause => querySetRaw q clause
  | .unscoped => queryUnscoped q
  | .distinct => queryDistinct q

/-- A call of the builder. -/
inductive DraftCall
  | where_ (call : WhereCall)
  | set (field : Option Text) (val : Value)
  | clause (call : ClauseCall)

namespace DraftCall

/-- The call. -/
def apply (d : Draft) : DraftCall → Draft
  | .where_ call => call.draft mem d
  | .set field val => d.set mem field val
  | .clause call => { d with query := call.apply d.query }

/-- The call when no request fails. -/
def plain (q : Query) : DraftCall → Query
  | .where_ call => call.apply q
  | .set field val => querySet q field val
  | .clause call => call.apply q

end DraftCall

/-! ## The operations -/

/-- The text of the pieces of a statement, after `n` requests. -/
def built (n : ℕ) (pieces : List Text) : Text :=
  (StrBuf.appendAll mem.fails n .init pieces).2.text

/-- `corm_update_internal` without a record: its result, and what it sends to the backend. -/
def Draft.update (d : Draft) : Err × List (Text × List Value) :=
  match runHook d.query.model.beforeUpdate none with
  | (.ok, _) =>
    let q := queryOp d.query .update
    (.ok, [(built mem d.requests (updatePieces q), q.params)])
  | (err, _) => (err, [])

/-- The operations on a query. -/
inductive Operation
  | find
  | update
  | delete
  deriving DecidableEq

namespace Operation

/-- The operation: its result, up to the backend's, and what it sends to the backend. -/
def run (d : Draft) : Operation → Err × List (Text × List Value)
  | .find =>
    let q := queryOp (findScope d.query) .select
    (.ok, [(built mem d.requests (selectPieces q), q.params)])
  | .update => d.update mem
  | .delete =>
    match softDeleteField d.query.model with
    | some f => (d.set mem f.name tombstone).update mem
    | none =>
      match runHook d.query.model.beforeDelete none with
      | (.ok, _) =>
        let q := queryOp d.query .delete
        (.ok, [(built mem d.requests (deletePieces q), q.params)])
      | (err, _) => (err, [])

/-- What the operation sends when no request fails. -/
def plain (q : Query) : Operation → List (Text × List Value)
  | .find => (Corm.find (recorder q.bt) [] q).2.2.2
  | .update => (Corm.update (recorder q.bt) [] q).state
  | .delete => (Corm.delete (recorder q.bt) [] q).state

/-- The hook that may veto the operation. -/
def before (m : Model) : Operation → Option Hook
  | .find => none
  | .update => m.beforeUpdate
  | .delete => if (softDeleteField m).isSome then m.beforeUpdate else m.beforeDelete

end Operation

end Corm
