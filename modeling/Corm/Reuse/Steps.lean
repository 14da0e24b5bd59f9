import Corm.Calls
import Corm.Fetch

/-!
# One query for several requests

* `first`, `queryCount`: `corm_first` and `corm_query_count`, over any backend;
* `Step`, `Step.run`: a builder call, or an execution of the query;
* `Step.sent`: what a step hands to the backend, and the query after it;
* `Backend.logged`: a backend that keeps the statements it is given;
* **`run_logged`**: on every backend a step sends this, and leaves this query.
-/

namespace Corm

/-! ## Reading one row -/

section Reads

variable {σ : Type} (b : Backend σ Result)

/-- `corm_first`: its result and the record, the query and the state. -/
def first (s : σ) (q : Query) (record : Record) : Option (Err × Record) × Query × σ :=
  match find b s { q with limit := 1, offset := 0 } with
  | (.ok, some res, q, s) =>
    match res.rows with
    | [] => (some (.notfound, record), q, s)
    | row :: _ =>
      let found := (fillRecord res row q.model.fields record).map fun record =>
        (Err.ok, (runHook q.model.afterFind (some record)).2.getD record)
      (found, q, s)
  | (.ok, none, q, s) => (some (.notfound, record), q, s)
  | (err, _, q, s) => (some (err, record), q, s)

/-- The integer in the first column of a row; `none` when it is read from another member. -/
def firstColumn (res : Result) (row : Fin res.columnCount → Value) : Option Int64 :=
  if h : 0 < res.columnCount then (row ⟨0, h⟩).v.readI else none

/-- `corm_query_count`: its result and `*out_count`, where it is written, the query and the
state. -/
def queryCount (s : σ) (q : Query) : Option (Err × Option Int64) × Query × σ :=
  let (err, out, q', s) := find b s { q with selectCols := "COUNT(*)".toList }
  let q := { q' with selectCols := q.selectCols }
  match err, out with
  | .ok, some res =>
    match res.rows with
    | [] => (some (.ok, some 0), q, s)
    | row :: _ => ((firstColumn res row).map fun n => (.ok, some n), q, s)
  | .ok, none => (some (.ok, some 0), q, s)
  | err, _ => (some (err, none), q, s)

end Reads

/-- The query that `corm_find` runs. -/
def findQuery (q : Query) : Query := queryOp (findScope q) .select

/-! ## Steps -/

/-- A builder call, or an execution of the query. -/
inductive Step
  | call (c : BuilderCall)
  | find
  | first (record : Record)
  | count
  | create (record : Record)
  | update
  | delete

namespace Step

/-- The query and the state after the step. -/
def run {σ : Type} (b : Backend σ Result) (s : σ) (q : Query) : Step → Query × σ
  | .call c => (c.apply q, s)
  | .find => (Corm.find b s q).2.2
  | .first record => (Corm.first b s q record).2
  | .count => (queryCount b s q).2
  | .create record => ((Corm.create b s q record).query, (Corm.create b s q record).state)
  | .update => ((Corm.update b s q).query, (Corm.update b s q).state)
  | .delete => ((Corm.delete b s q).query, (Corm.delete b s q).state)

end Step

/-- The query and the state after a sequence of steps. -/
def runSteps {σ : Type} (b : Backend σ Result) (s : σ) (q : Query) : List Step → Query × σ
  | [] => (q, s)
  | step :: steps => runSteps b (step.run b s q).2 (step.run b s q).1 steps

/-! ## What a step sends -/

/-- What is handed to the backend, and the query after it. -/
abbrev Sent := List (Text × List Value) × Query

/-- A statement with its hooks: a veto of the before hook keeps it from being sent. -/
def hooked (before : Option Hook) (bind : Query → Option Record → Query) (op : QueryOp) (q : Query)
    (record : Option Record) : Sent :=
  match runHook before record with
  | (.ok, record) =>
    let q' := bind (queryOp q op) record
    ([(buildSql (queryOp q op), q'.params)], q')
  | _ => ([], q)

/-- A find. -/
def found (q : Query) : Sent := ([(buildSelect (findQuery q), (findQuery q).params)], findQuery q)

/-- An update. -/
def updated (q : Query) : Sent := hooked q.model.beforeUpdate (fun q _ => q) .update q none

namespace Step

/-- What the step sends, and the query after it. -/
def sent (q : Query) : Step → Sent
  | .call c => ([], c.apply q)
  | .find => found q
  | .first _ => found { q with limit := 1, offset := 0 }
  | .count =>
    let out := found { q with selectCols := "COUNT(*)".toList }
    (out.1, { out.2 with selectCols := q.selectCols })
  | .create record => hooked q.model.beforeCreate bindRecord .insert q (some record)
  | .update => updated q
  | .delete =>
    match softDeleteField q.model with
    | some f => updated (querySet q f.name tombstone)
    | none => hooked q.model.beforeDelete (fun q _ => q) .delete q none

end Step

/-- All that a sequence of steps sends. -/
def sentBy (q : Query) : List Step → List (Text × List Value)
  | [] => []
  | step :: steps => (step.sent q).1 ++ sentBy (step.sent q).2 steps

/-! ## Backends that keep a log -/

section Logged

variable {σ ρ : Type}

/-- A backend with a log of the statements it is given. -/
def Backend.logged (b : Backend σ ρ) : Backend (σ × List (Text × List Value)) ρ where
  type := b.type
  exec s sql params := ((b.exec s.1 sql params).1, (b.exec s.1 sql params).2, s.2 ++ [(sql, params)])
  query s sql params :=
    let (err, out, s') := b.query s.1 sql params
    (err, out, s', s.2 ++ [(sql, params)])
  begin_ s := ((b.begin_ s.1).1, (b.begin_ s.1).2, s.2)
  commit s := ((b.commit s.1).1, (b.commit s.1).2, s.2)
  rollback s := ((b.rollback s.1).1, (b.rollback s.1).2, s.2)
  lastInsertId s := b.lastInsertId s.1
  rowsAffected s := b.rowsAffected s.1

/-- The step left the query `out.2`, and added `out.1` to the log. -/
def Logs (s : σ × List (Text × List Value)) (out : Sent)
    (r : Query × σ × List (Text × List Value)) : Prop :=
  r.1 = out.2 ∧ r.2.2 = s.2 ++ out.1

theorem logs_find (b : Backend σ ρ) (s : σ × List (Text × List Value)) (q : Query) :
    Logs s (found q) (find b.logged s q).2.2 := ⟨rfl, rfl⟩

theorem logs_hooks (b : Backend σ ρ) (before after : Option Hook)
    (count : σ × List (Text × List Value) → ℤ) (bind : Query → Option Record → Query)
    (op : QueryOp) (s : σ × List (Text × List Value)) (q : Query) (record : Option Record) :
    let d := execWithHooks b.logged before after count bind op s q record
    Logs s (hooked before bind op q record) (d.query, d.state) := by
  unfold execWithHooks hooked
  rcases runHook before record with ⟨err, record'⟩
  cases err with
  | ok =>
    simp only [Backend.logged]
    rcases b.exec s.1 (buildSql (queryOp q op)) (bind (queryOp q op) record').params with ⟨err, s'⟩
    cases err <;> exact ⟨rfl, rfl⟩
  | _ => exact ⟨rfl, (List.append_nil _).symm⟩

end Logged

variable {σ : Type} (b : Backend σ Result)

theorem first_frame (s : σ) (q : Query) (record : Record) :
    (first b s q record).2 = (find b s { q with limit := 1, offset := 0 }).2.2 := by
  unfold first
  rcases find b s { q with limit := 1, offset := 0 } with ⟨err, out, q', s'⟩
  cases err with
  | ok =>
    cases out with
    | none => rfl
    | some res =>
      simp only
      split <;> rfl
  | _ => rfl

theorem count_frame (s : σ) (q : Query) :
    let out := (find b s { q with selectCols := "COUNT(*)".toList }).2.2
    (queryCount b s q).2 = ({ out.1 with selectCols := q.selectCols }, out.2) := by
  unfold queryCount
  rcases find b s { q with selectCols := "COUNT(*)".toList } with ⟨err, out, q', s'⟩
  cases err with
  | ok =>
    cases out with
    | none => rfl
    | some res =>
      simp only
      split <;> rfl
  | _ => rfl

/-- **What a step does on a backend**: the log grows by what it sends. -/
theorem run_logged (s : σ × List (Text × List Value)) (q : Query) (step : Step) :
    Logs s (step.sent q) (step.run b.logged s q) := by
  cases step with
  | call c => exact ⟨rfl, (List.append_nil _).symm⟩
  | find => exact logs_find b s q
  | first record =>
    rw [Step.run, first_frame]
    exact logs_find b s _
  | count =>
    rw [Step.run, count_frame]
    exact ⟨rfl, rfl⟩
  | create record => exact logs_hooks b _ _ _ _ _ s q (some record)
  | update => exact logs_hooks b _ _ _ _ _ s q none
  | delete =>
    unfold Step.run Step.sent delete deleteInternal
    cases softDeleteField q.model with
    | some f => exact logs_hooks b _ _ _ _ _ s _ none
    | none => exact logs_hooks b _ _ _ _ _ s q none

/-- **What a sequence of steps sends**, whatever the backend answers. -/
theorem runSteps_logged (s : σ × List (Text × List Value)) (q : Query) (steps : List Step) :
    (runSteps b.logged s q steps).2.2 = s.2 ++ sentBy q steps := by
  induction steps generalizing s q with
  | nil => exact (List.append_nil _).symm
  | cons step steps ih =>
    have h := run_logged b s q step
    rw [runSteps, ih, h.1, h.2, sentBy, List.append_assoc]

end Corm
