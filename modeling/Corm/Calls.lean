import Corm.Memory.Draft
import Corm.Placeholders.Fields

/-!
# Sequences of builder calls

* `BuilderCall`, `build`: every call of the builder, and the query after a sequence of them;
* `BuilderCall.piece`, `BuilderCall.vals`: what a call adds to WHERE, and the values it binds;
* `BuilderCall.opAfter` and the others: the operation, the window and the scope after a call;
* `frame_apply`: the values are all that the parameters get;
* **`apply_with`**: a call reads of these nothing but what it changes itself.
-/

namespace Corm

/-- A call of the builder. -/
inductive BuilderCall
  | draft (call : DraftCall)
  | op (op : QueryOp)
  | preload (relation : Option Text)

namespace BuilderCall

/-- The query after the call. -/
def apply (q : Query) : BuilderCall → Query
  | .draft call => call.plain q
  | .op kind => queryOp q kind
  | .preload relation => queryPreload q relation

/-- The call as one with a field name. -/
def field? : BuilderCall → Option FieldCall
  | .draft (.where_ (.whereNull field)) => some (.whereNull field)
  | .draft (.where_ (.whereNotNull field)) => some (.whereNotNull field)
  | .draft (.where_ (.whereIn field vals)) => some (.whereIn field vals)
  | .draft (.where_ (.whereBetween field minVal maxVal)) =>
    some (.whereBetween field minVal maxVal)
  | .draft (.set field val) => some (.set field val)
  | _ => none

/-- The connective and the text that the call adds to the WHERE of a query with `n` parameters. -/
def piece (bt : BackendType) (n : ℕ) : BuilderCall → Option (Text × Text)
  | .draft (.where_ (.where_ condition)) => some (" AND ".toList, condition)
  | .draft (.where_ (.orWhere condition)) => some (" OR ".toList, condition)
  | c => c.field?.bind fun f =>
    if f.accepted && !f.isSet then some (" AND ".toList, f.text bt n) else none

/-- The values that the call binds. -/
def vals : BuilderCall → List Value
  | .draft (.where_ (.bind val)) => [val]
  | c => (c.field?.map fun f => if f.accepted then f.vals else []).getD []

/-- The operation after the call. -/
def opAfter (op : QueryOp) : BuilderCall → QueryOp
  | .op kind => kind
  | .draft (.set field val) => if (FieldCall.set field val).accepted then .update else op
  | .draft (.clause (.setRaw _)) => .update
  | _ => op

/-- The limit after the call. -/
def limitAfter (limit : ℤ) : BuilderCall → ℤ
  | .draft (.clause (.limit n)) => n
  | _ => limit

/-- The offset after the call. -/
def offsetAfter (offset : ℤ) : BuilderCall → ℤ
  | .draft (.clause (.offset n)) => n
  | _ => offset

/-- The scope after the call. -/
def unscopedAfter (unscoped : Bool) : BuilderCall → Bool
  | .draft (.clause .unscoped) => true
  | _ => unscoped

end BuilderCall

/-- The query after a sequence of calls. -/
def build (q : Query) (calls : List BuilderCall) : Query := calls.foldl BuilderCall.apply q

/-- A WHERE with one more piece. -/
def glue (w : Text) : Option (Text × Text) → Text
  | none => w
  | some (connective, t) => (if w = [] then [] else w ++ connective) ++ t

theorem count_glue (w k t : Text) (hk : '?' ∉ k) :
    (glue w (some (k, t))).count '?' = w.count '?' + t.count '?' := by
  unfold glue
  split_ifs with hw
  · simp [hw]
  · rw [List.count_append, List.count_append, List.count_eq_zero.mpr hk]
    rfl

/-! ## Calls with a field name -/

theorem field_params (f : FieldCall) (q : Query) : (f.apply q).bt = q.bt ∧
    (f.apply q).model = q.model ∧
    (f.apply q).params = q.params ++ if f.accepted then f.vals else [] := by
  cases ha : f.accepted with
  | false =>
    rw [apply_rejected ha, if_neg Bool.false_ne_true, List.append_nil]
    exact ⟨rfl, rfl, rfl⟩
  | true =>
    rw [apply_accepted ha, if_pos rfl]
    split_ifs <;> exact ⟨rfl, rfl, rfl⟩

/-- A call with a field name on a query whose WHERE, operation, window and scope are others. -/
theorem field_with (f : FieldCall) (q : Query) (w : Text) (op : QueryOp) (limit offset : ℤ)
    (unscoped : Bool) :
    f.apply { q with
        where_ := w, op := op, limit := limit, offset := offset, unscoped := unscoped } =
      { f.apply q with
        where_ := glue w (if f.accepted && !f.isSet then
          some (" AND ".toList, f.text q.bt q.params.length) else none)
        op := if f.isSet && f.accepted then .update else op
        limit := limit
        offset := offset
        unscoped := unscoped } := by
  cases ha : f.accepted with
  | false =>
    simp only [apply_rejected ha, Bool.false_and, Bool.and_false, Bool.false_eq_true, if_false, glue]
  | true =>
    rw [apply_accepted ha, apply_accepted ha]
    cases hs : f.isSet with
    | true => rfl
    | false => rfl

/-! ## All calls -/

/-- **What a call binds**; it changes neither the database nor the model of a query. -/
theorem frame_apply (c : BuilderCall) (q : Query) : (c.apply q).bt = q.bt ∧
    (c.apply q).model = q.model ∧ (c.apply q).params = q.params ++ c.vals := by
  have hnil : q.params = q.params ++ [] := (List.append_nil _).symm
  cases c with
  | op => exact ⟨rfl, rfl, hnil⟩
  | preload relation =>
    show (queryPreload q relation).bt = _ ∧ (queryPreload q relation).model = _ ∧
      (queryPreload q relation).params = _
    unfold queryPreload
    split
    · split_ifs <;> exact ⟨rfl, rfl, hnil⟩
    · exact ⟨rfl, rfl, hnil⟩
  | draft call =>
    cases call with
    | set field val => exact field_params (.set field val) q
    | where_ call =>
      cases call with
      | where_ | orWhere => exact ⟨rfl, rfl, hnil⟩
      | bind => exact ⟨rfl, rfl, rfl⟩
      | whereNull field => exact field_params (.whereNull field) q
      | whereNotNull field => exact field_params (.whereNotNull field) q
      | whereIn field vals => exact field_params (.whereIn field vals) q
      | whereBetween field minVal maxVal =>
        exact field_params (.whereBetween field minVal maxVal) q
    | clause call =>
      cases call with
      | join text | order text | group text | having_ text =>
        cases text <;> exact ⟨rfl, rfl, hnil⟩
      | _ => exact ⟨rfl, rfl, hnil⟩

/-- **A call on a query whose WHERE, operation, window and scope are others** adds the same piece to
that WHERE, and makes the same changes everywhere else. -/
theorem apply_with (c : BuilderCall) (q : Query) (w : Text) (op : QueryOp) (limit offset : ℤ)
    (unscoped : Bool) :
    c.apply { q with
        where_ := w, op := op, limit := limit, offset := offset, unscoped := unscoped } =
      { c.apply q with
        where_ := glue w (c.piece q.bt q.params.length)
        op := c.opAfter op
        limit := c.limitAfter limit
        offset := c.offsetAfter offset
        unscoped := c.unscopedAfter unscoped } := by
  cases c with
  | op => rfl
  | preload relation =>
    cases relation with
    | none => rfl
    | some relation =>
      simp only [BuilderCall.apply, queryPreload]
      split_ifs <;> rfl
  | draft call =>
    cases call with
    | set field val =>
      exact field_with (.set field val) q w op limit offset unscoped
    | where_ call =>
      cases call with
      | where_ | orWhere | bind => rfl
      | whereNull field => exact field_with (.whereNull field) q w op limit offset unscoped
      | whereNotNull field => exact field_with (.whereNotNull field) q w op limit offset unscoped
      | whereIn field vals => exact field_with (.whereIn field vals) q w op limit offset unscoped
      | whereBetween field minVal maxVal =>
        exact field_with (.whereBetween field minVal maxVal) q w op limit offset unscoped
    | clause call =>
      cases call with
      | join text | order text | group text | having_ text => cases text <;> rfl
      | _ => rfl

variable {q : Query} {c : BuilderCall}

/-- **What a call adds to WHERE.** -/
theorem where_apply (c : BuilderCall) (q : Query) :
    (c.apply q).where_ = glue q.where_ (c.piece q.bt q.params.length) :=
  congrArg Query.where_ (apply_with c q q.where_ q.op q.limit q.offset q.unscoped)

theorem frame_build (q : Query) (calls : List BuilderCall) :
    (build q calls).bt = q.bt ∧ (build q calls).model = q.model := by
  induction calls generalizing q with
  | nil => exact ⟨rfl, rfl⟩
  | cons c calls ih =>
    obtain ⟨hbt, hmodel, -⟩ := frame_apply c q
    exact ⟨(ih _).1.trans hbt, (ih _).2.trans hmodel⟩

end Corm
