import Corm.Model
import Mathlib.Data.Int.Notation

/-!
# The query builder

`dialect.c` and the builder half of `query.c`. The clause buffers are texts, so every append
succeeds, and a query owns a list of parameters.

* `placeholderStr`, `dialectQuote`: the two dialect functions the builder uses;
* `Query`, `queryNew`: `struct corm_query`;
* `queryWhere`, `queryOrWhere`, `queryWhereNull`, `queryWhereIn`, `queryWhereBetween`, `queryBind`,
  `querySet` and the others: one function for each builder call.
-/

namespace Corm

/-- `corm_dialect_placeholder_str`. -/
def placeholderStr (backend : BackendType) (index : ℕ) : Text :=
  match backend with
  | .postgres => '$' :: Nat.toDigits 10 (index + 1)
  | .mysql | .sqlite => ['?']

/-- `corm_dialect_quote`; the name does not matter. -/
def dialectQuote (backend : BackendType) : Text :=
  match backend with
  | .postgres => ['"']
  | .mysql => [Char.ofNat 96]
  | .sqlite => ['"']

/-- `corm_query_op_t`. -/
inductive QueryOp
  | select
  | insert
  | update
  | delete
  deriving DecidableEq

/-- `struct corm_query`. Of `db` it keeps the backend type, which is SQLite's for a null `db`. -/
structure Query where
  bt : BackendType
  model : Model
  op : QueryOp
  selectCols : Text
  where_ : Text
  order : Text
  group : Text
  having_ : Text
  joins : Text
  setClause : Text
  params : List Value
  limit : ℤ
  offset : ℤ
  unscoped : Bool
  distinct : Bool
  preloadRel : Text

/-- `corm_query_new`. -/
def queryNew (bt : BackendType) (model : Model) : Query where
  bt := bt
  model := model
  op := .select
  selectCols := []
  where_ := []
  order := []
  group := []
  having_ := []
  joins := []
  setClause := []
  params := []
  limit := 0
  offset := 0
  unscoped := false
  distinct := false
  preloadRel := []

variable (q : Query)

/-- `corm_query_reset`. -/
def queryReset : Query :=
  { q with
    op := .select
    selectCols := []
    where_ := []
    order := []
    group := []
    having_ := []
    joins := []
    setClause := []
    params := []
    limit := 0
    offset := 0
    distinct := false
    preloadRel := [] }

/-- `corm_query_op`. -/
def queryOp (op : QueryOp) : Query := { q with op }

/-- `corm_query_select`. -/
def querySelect (columns : Text) : Query := { q with selectCols := columns }

/-- The WHERE buffer with the connective appended, unless it is empty. -/
def whereSep (connective : Text) : Text := if q.where_ = [] then [] else q.where_ ++ connective

/-- `corm_query_where`. -/
def queryWhere (condition : Text) : Query :=
  { q with where_ := whereSep q " AND ".toList ++ condition }

/-- `corm_query_or_where`. -/
def queryOrWhere (condition : Text) : Query :=
  { q with where_ := whereSep q " OR ".toList ++ condition }

/-- `corm_query_where_null`. -/
def queryWhereNull (field : Option Text) : Query :=
  match field with
  | some f =>
    if isValidIdentifier field then
      { q with where_ := whereSep q " AND ".toList ++ f ++ " IS NULL".toList }
    else q
  | none => q

/-- `corm_query_where_not_null`. -/
def queryWhereNotNull (field : Option Text) : Query :=
  match field with
  | some f =>
    if isValidIdentifier field then
      { q with where_ := whereSep q " AND ".toList ++ f ++ " IS NOT NULL".toList }
    else q
  | none => q

/-- `corm_query_bind`. The deep copy of the value is the value. -/
def queryBind (val : Value) : Query := { q with params := q.params ++ [val] }

/-- The loop of `corm_query_where_in`, from the value with index `i` on. -/
def whereInLoop (q : Query) (i : ℕ) : List Value → Query
  | [] => q
  | val :: vals =>
    let sep := if 0 < i then ", ".toList else []
    let q := { q with where_ := q.where_ ++ sep ++ placeholderStr q.bt q.params.length }
    whereInLoop (queryBind q val) (i + 1) vals

/-- `corm_query_where_in`. -/
def queryWhereIn (field : Option Text) (vals : List Value) : Query :=
  match field with
  | some f =>
    if isValidIdentifier field && !vals.isEmpty then
      let q := { q with where_ := whereSep q " AND ".toList ++ f ++ " IN (".toList }
      let q := whereInLoop q 0 vals
      { q with where_ := q.where_ ++ ")".toList }
    else q
  | none => q

/-- `corm_query_where_between`. -/
def queryWhereBetween (field : Option Text) (minVal maxVal : Value) : Query :=
  match field with
  | some f =>
    if isValidIdentifier field then
      let q := { q with where_ := whereSep q " AND ".toList ++ f ++ " BETWEEN ".toList }
      let q := { q with where_ := q.where_ ++ placeholderStr q.bt q.params.length }
      let q := queryBind q minVal
      let q := { q with where_ := q.where_ ++ " AND ".toList }
      let q := { q with where_ := q.where_ ++ placeholderStr q.bt q.params.length }
      queryBind q maxVal
    else q
  | none => q

/-- `corm_query_join`. -/
def queryJoin (clause : Option Text) : Query :=
  match clause with
  | some c => { q with joins := q.joins ++ c }
  | none => q

/-- `corm_query_order`. -/
def queryOrder (order : Option Text) : Query :=
  match order with
  | some o => { q with order := o }
  | none => q

/-- `corm_query_group`. -/
def queryGroup (group : Option Text) : Query :=
  match group with
  | some g => { q with group := g }
  | none => q

/-- `corm_query_having`. -/
def queryHaving (condition : Option Text) : Query :=
  match condition with
  | some c => { q with having_ := c }
  | none => q

/-- `corm_query_limit`. -/
def queryLimit (limit : ℤ) : Query := { q with limit }

/-- `corm_query_offset`. -/
def queryOffset (offset : ℤ) : Query := { q with offset }

/-- `corm_query_set`. -/
def querySet (field : Option Text) (val : Value) : Query :=
  match field with
  | some f =>
    if isValidIdentifier field then
      let sep := if q.setClause = [] then [] else q.setClause ++ ", ".toList
      let quote := dialectQuote q.bt
      let q := { q with
        setClause := sep ++ quote ++ f ++ quote ++ " = ".toList ++
          placeholderStr q.bt q.params.length }
      { queryBind q val with op := .update }
    else q
  | none => q

/-- `corm_query_set_raw`. -/
def querySetRaw (clause : Text) : Query := { q with setClause := clause, op := .update }

/-- `corm_query_unscoped`. -/
def queryUnscoped : Query := { q with unscoped := true }

/-- `corm_query_distinct`. -/
def queryDistinct : Query := { q with distinct := true }

/-- `corm_query_preload`; `preload_rel` holds 63 characters. -/
def queryPreload (relation : Option Text) : Query :=
  match relation with
  | some r => if isValidIdentifier relation then { q with preloadRel := r.take 63 } else q
  | none => q

/-! ## The model of a query -/

theorem model_whereNull (field : Option Text) : (queryWhereNull q field).model = q.model := by
  unfold queryWhereNull
  split
  · split_ifs <;> rfl
  · rfl

theorem model_whereNotNull (field : Option Text) : (queryWhereNotNull q field).model = q.model := by
  unfold queryWhereNotNull
  split
  · split_ifs <;> rfl
  · rfl

theorem model_whereInLoop (i : ℕ) (vals : List Value) :
    (whereInLoop q i vals).model = q.model := by
  induction vals generalizing q i with
  | nil => rfl
  | cons val vals ih =>
    rw [whereInLoop, ih]
    rfl

theorem model_whereIn (field : Option Text) (vals : List Value) :
    (queryWhereIn q field vals).model = q.model := by
  unfold queryWhereIn
  split
  · split_ifs
    · exact model_whereInLoop _ 0 vals
    · rfl
  · rfl

theorem model_whereBetween (field : Option Text) (minVal maxVal : Value) :
    (queryWhereBetween q field minVal maxVal).model = q.model := by
  unfold queryWhereBetween
  split
  · split_ifs <;> rfl
  · rfl

theorem model_querySet (field : Option Text) (val : Value) :
    (querySet q field val).model = q.model := by
  unfold querySet
  split
  · split_ifs <;> rfl
  · rfl

end Corm
