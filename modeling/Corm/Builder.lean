import Corm.Query

/-!
# From a query to its text

`builder.c`: the four statements, with the placeholders of the clauses numbered for the dialect.

* `appendWithPlaceholders`: `?` rewritten to the dialect's placeholders;
* `buildSql`: `corm_build_sql`.
-/

namespace Corm

/-- `qident`: a name between the dialect's quotes. -/
def qident (bt : BackendType) (name : Text) : Text := dialectQuote bt ++ name ++ dialectQuote bt

/-- `append_with_placeholders`: the text it appends, with `?` numbered from `startIndex`. -/
def appendWithPlaceholders (bt : BackendType) (startIndex : ℕ) : Text → Text
  | [] => []
  | c :: text =>
    if c = '?' then placeholderStr bt startIndex ++ appendWithPlaceholders bt (startIndex + 1) text
    else c :: appendWithPlaceholders bt startIndex text

/-- The parts with ", " between them, as the loops of the builder write them. -/
def commaSep : List Text → Text
  | [] => []
  | [part] => part
  | part :: parts => part ++ ", ".toList ++ commaSep parts

/-- The parts, each after a ", ". -/
def led (parts : List Text) : Text := parts.flatMap (", ".toList ++ ·)

theorem commaSep_cons (part : Text) (parts : List Text) :
    commaSep (part :: parts) = part ++ led parts := by
  induction parts generalizing part with
  | nil => simp [commaSep, led]
  | cons p ps ih =>
    rw [commaSep, ih]
    · simp [led]
    · simp

/-- The fields of an INSERT. -/
def insertFields (m : Model) : List Field := m.fields.filter fun f => !f.isAutoinc

/-- The fields of an UPDATE without a SET clause. -/
def updateFields (m : Model) : List Field := m.fields.filter fun f => !f.isPrimary

/-- A clause that is left out when its buffer is empty. -/
def clause (keyword text : Text) : Text := if text = [] then [] else keyword ++ text

/-- " WHERE " and the condition, with its placeholders numbered from `startIndex`. -/
def whereText (q : Query) (startIndex : ℕ) : Text :=
  if q.where_ = [] then []
  else " WHERE ".toList ++ appendWithPlaceholders q.bt startIndex q.where_

/-- The LIMIT and OFFSET of a SELECT. -/
def limitText (q : Query) : Text :=
  if 0 < q.limit ∨ 0 < q.offset then
    " LIMIT ".toList ++ (toString q.limit).toList ++
      if 0 < q.offset then " OFFSET ".toList ++ (toString q.offset).toList else []
  else []

/-- The case `CORM_OP_SELECT`. -/
def buildSelect (q : Query) : Text :=
  "SELECT ".toList ++ (if q.distinct then "DISTINCT ".toList else []) ++
    (if q.selectCols = [] then "*".toList else q.selectCols) ++ " FROM ".toList ++
    qident q.bt q.model.table ++ clause " ".toList q.joins ++ whereText q 0 ++
    clause " GROUP BY ".toList q.group ++ clause " HAVING ".toList q.having_ ++
    clause " ORDER BY ".toList q.order ++ limitText q

/-- The case `CORM_OP_INSERT`. -/
def buildInsert (q : Query) : Text :=
  let fields := insertFields q.model
  "INSERT INTO ".toList ++ qident q.bt q.model.table ++ " (".toList ++
    commaSep (fields.map fun f => qident q.bt f.nm) ++ ") VALUES (".toList ++
    commaSep ((List.range fields.length).map (placeholderStr q.bt)) ++ ")".toList ++
    match q.bt, q.model.primaryKey with
    | .postgres, some pk => " RETURNING ".toList ++ qident q.bt pk.nm
    | _, _ => []

/-- The assignments of an UPDATE without a SET clause. -/
def defaultSets (q : Query) : Text :=
  commaSep ((updateFields q.model).mapIdx fun i f =>
    qident q.bt f.nm ++ " = ".toList ++ placeholderStr q.bt i)

/-- The number of placeholders of the SET part, where those of the WHERE start. -/
def whereOffset (q : Query) : ℕ :=
  if q.setClause = [] then (updateFields q.model).length else q.setClause.count '?'

/-- The case `CORM_OP_UPDATE`. -/
def buildUpdate (q : Query) : Text :=
  "UPDATE ".toList ++ qident q.bt q.model.table ++ " SET ".toList ++
    (if q.setClause = [] then defaultSets q
      else appendWithPlaceholders q.bt 0 q.setClause) ++
    whereText q (whereOffset q)

/-- The case `CORM_OP_DELETE`. -/
def buildDelete (q : Query) : Text :=
  "DELETE FROM ".toList ++ qident q.bt q.model.table ++ whereText q 0

/-- `corm_build_sql`. -/
def buildSql (q : Query) : Text :=
  match q.op with
  | .select => buildSelect q
  | .insert => buildInsert q
  | .update => buildUpdate q
  | .delete => buildDelete q

end Corm
