import Corm.Reuse.Reading
import Corm.Select.Limit
import Corm.Sql.Clauses

/-!
# Counting the rows of a query

`corm_query_count` runs the query with `COUNT(*)` in the place of its select list.

* `Columns`, `Listing`: what a database makes of a select list, and the order of its rows;
* `Plan`, `Plan.result`: what a SELECT asks for, and its result; `selectBackend`: the backend;
* `InClauses`, `readSelect_select`: the texts that stay in their clauses, and how the statement is
  read;
* `planOf`, `find_plan`, `count_plan`: the plan of a find, and of the statement that counts;
* **`queryCount_right_iff`**: when the count is the number of rows of the find.
-/

namespace Corm

open Sql (Tok Item Row Engine Window Clauses Closed isClause lex lexPart lexPart_append_some readSelect
  readClauses)

variable {V : Type}

/-! ## Select lists -/

/-- The cells of a select list: some for each row, or for all rows together. -/
inductive Cells (V : Type) (n : ℕ)
  | each (cells : Row V → Fin n → Value)
  | whole (cells : List (Row V) → Fin n → Value)

/-- A select list. -/
structure Columns (V : Type) where
  count : ℕ
  names : Fin count → Text
  types : Fin count → FieldType
  cells : Cells V count

/-- The tokens of `COUNT(*)`. -/
def countToks : List Tok := [.word "COUNT".toList, .sym '(', .word ['*'], .sym ')']

/-- `COUNT(*)`: one row, with the number of rows. -/
def countStar : Columns V where
  count := 1
  names := fun _ => "COUNT(*)".toList
  types := fun _ => .int64
  cells := .whole fun rows _ => ⟨.int64, false, .i (Int64.ofNat rows.length)⟩

/-- An order of rows. -/
structure Sorter (V : Type) where
  run : List (Row V) → List (Row V)
  perm : ∀ rows, (run rows).Perm rows

/-- What a database makes of the select list; whether the terms of an ORDER BY can stand behind one,
and the order of the rows, with such terms and without; and the values that DISTINCT takes for one.
`COUNT(*)` counts the rows. -/
structure Listing (V : Type) where
  columns : List (Item V) → Option (Columns V)
  sorts : Columns V → List (Item V) → Bool
  order : Clauses → Option (List (Item V)) → Window → Sorter V
  same : Value → Value → Bool
  columns_count : columns (countToks.map .tok) = some countStar

/-! ## Plans -/

/-- What a SELECT asks for: the rows that satisfy its condition, and what is made of them. -/
structure Plan (V : Type) where
  distinct : Bool
  columns : Columns V
  sort : Window → Sorter V
  rows : List (Row V)

/-- No cells of the one row are other than those of the other row. -/
def sameCells {n : ℕ} (same : Value → Value → Bool) (x y : Fin n → Value) : Bool :=
  (List.finRange n).all fun j => same (x j) (y j)

/-- One of the rows that have the same cells, for each of these. -/
def distinctRows {n : ℕ} (same : Value → Value → Bool) (cells : Row V → Fin n → Value)
    (rows : List (Row V)) : List (Row V) :=
  rows.pwFilter fun r r' => sameCells same (cells r) (cells r') = false

namespace Plan

variable (p : Plan V) (same : Value → Value → Bool)

/-- The rows of the result, of which a window lets some through. -/
def cells (w : Window) : List (Fin p.columns.count → Value) :=
  match p.columns.cells with
  | .each cells =>
    ((p.sort w).run (if p.distinct then distinctRows same cells p.rows else p.rows)).map cells
  | .whole cells => [cells p.rows]

/-- The result, with the rows that a window lets through. -/
def result (w : Window) : Result where
  columnCount := p.columns.count
  columnNames := p.columns.names
  columnTypes := p.columns.types
  rows := w.apply (p.cells same w)

/-- The number of rows that satisfy the condition is what a count with the offset should be: with
an offset the count is 0, so there must be no row; else each row must have a row of the result. -/
def CountsRows (offset : ℤ) : Prop :=
  match p.columns.cells with
  | .each cells =>
    if 0 < offset then p.rows = []
    else p.distinct = true → p.rows.Pairwise fun r r' => sameCells same (cells r) (cells r') = false
  | .whole _ => ¬ 0 < offset ∧ p.rows.length = 1

end Plan

namespace Listing

variable (L : Listing V) (E : Engine V)

/-- A list of tokens that may be missing, with the values put in after `n` placeholders. -/
def fillOption (vs : List V) (n : ℕ) : Option (List Tok) → Option (Option (List (Item V)))
  | none => some none
  | some ts => (Sql.fill vs n ts).map some

/-- The plan of the clauses of a statement. -/
def plan (db : Sql.Database V) (vs : List V) (c : Clauses) : Option (Plan V) := do
  let cols ← Sql.fill vs 0 c.cols
  let cond ← fillOption vs (Sql.marks c.cols) c.cond
  let order ← fillOption vs (Sql.marks c.cols + Sql.marks (c.cond.getD [])) c.order
  let columns ← L.columns cols
  let keep ← E.selects cond
  if order.all (L.sorts columns) then
    some ⟨c.distinct, columns, L.order c order, (db c.table).filter keep⟩
  else none

theorem plan_eq_some {L : Listing V} {E : Engine V} {db : Sql.Database V} {vs : List V}
    {c : Clauses} {p : Plan V} (h : L.plan E db vs c = some p) :
    ∃ cols cond order columns keep, Sql.fill vs 0 c.cols = some cols ∧
      fillOption vs (Sql.marks c.cols) c.cond = some cond ∧
      fillOption vs (Sql.marks c.cols + Sql.marks (c.cond.getD [])) c.order = some order ∧
      L.columns cols = some columns ∧ E.selects cond = some keep ∧
      order.all (L.sorts columns) = true ∧
      p = ⟨c.distinct, columns, L.order c order, (db c.table).filter keep⟩ := by
  unfold plan at h
  obtain ⟨cols, hcols, h⟩ := Option.bind_eq_some_iff.mp h
  obtain ⟨cond, hcond, h⟩ := Option.bind_eq_some_iff.mp h
  obtain ⟨order, horder, h⟩ := Option.bind_eq_some_iff.mp h
  obtain ⟨columns, hcolumns, h⟩ := Option.bind_eq_some_iff.mp h
  obtain ⟨keep, hkeep, h⟩ := Option.bind_eq_some_iff.mp h
  split_ifs at h with hsorts
  exact ⟨cols, cond, order, columns, keep, hcols, hcond, horder, hcolumns, hkeep, hsorts,
    (Option.some.inj h).symm⟩

/-- The result of a SELECT. -/
def answer (δ : Sql.Dialect) (db : Sql.Database V) (sql : Text) (vs : List V) : Option Result :=
  (readSelect δ (fun vs ts => (readClauses ts).bind (L.plan E db vs)) sql vs).map fun r =>
    r.1.result L.same r.2

end Listing

/-- The backend over such a database. -/
def selectBackend (type : BackendType) (D : Dbms V) (L : Listing V) : Backend (Store V) Result where
  type := type
  exec := D.exec type.dialect
  query s sql params :=
    match (params.mapM D.bind).bind (L.answer D.engine type.dialect s.db sql) with
    | some res => (.ok, some res, s)
    | none => (.backend, none, s)
  begin_ s := (.ok, { s with saved := some s.db })
  commit s := (.ok, { s with saved := none })
  rollback s := (.ok, ⟨s.saved.getD s.db, none⟩)
  lastInsertId := D.lastInsertId
  rowsAffected := D.rowsAffected

/-! ## Reading the statement -/

/-- A SELECT on one table, without GROUP BY and HAVING. -/
structure OneTable (q : Query) : Prop where
  joins : q.joins = []
  group : q.group = []
  having_ : q.having_ = []

/-- The text of the select list. -/
def selectList (q : Query) : Text := if q.selectCols = [] then "*".toList else q.selectCols

/-- The select list, the condition and the order can be read, and stay in their clauses; the select
list takes no value of a placeholder. -/
structure InClauses (q : Query) (cs ws os : List Tok) : Prop where
  cols : lexPart q.bt.dialect (selectList q) = some cs
  where_ : lexPart q.bt.dialect (appendWithPlaceholders q.bt 0 q.where_) = some ws
  order : lexPart q.bt.dialect q.order = some os
  cols_closed : Closed isClause cs
  where_closed : Closed isClause ws
  order_closed : Closed isClause os
  cols_marks : Sql.marks cs = 0

theorem InClauses.unpaged {q : Query} {cs ws os : List Tok} (h : InClauses q cs ws os) :
    InClauses (unpaged q) cs ws os := ⟨h.1, h.2, h.3, h.4, h.5, h.6, h.7⟩

/-- The tokens of DISTINCT. -/
def distinctToks (q : Query) : List Tok := if q.distinct then [.word "DISTINCT".toList] else []

/-- The tokens of a clause; none, when its text is empty. -/
def clauseToks (text : Text) (ts : List Tok) : Option (List Tok) :=
  if text = [] then none else some ts

variable {q : Query} {cs ws os : List Tok}

theorem closed_clauseToks {text : Text} {ts : List Tok} (h : Closed isClause ts) :
    ∀ us ∈ clauseToks text ts, Closed isClause us := by
  intro us hus
  unfold clauseToks at hus
  split_ifs at hus
  · cases hus
  · cases hus
    exact h

theorem closed_distinctToks (q : Query) : Closed isClause (distinctToks q) := by
  unfold distinctToks
  split_ifs <;> decide

/-- The tokens of the statement. -/
def selectStmt (q : Query) (cs ws os : List Tok) : List Tok :=
  Sql.selectForm (distinctToks q ++ cs) (quoteOf q.bt) q.model.table (clauseToks q.where_ ws)
    (clauseToks q.order os)

theorem lexPart_append_order {δ : Sql.Dialect} {a : Text} {ts : List Tok}
    (ha : lexPart δ a = some ts) (ho : lexPart δ q.order = some os) :
    lexPart δ (a ++ clause " ORDER BY ".toList q.order) =
      some (ts ++ Sql.orderToks (clauseToks q.order os)) := by
  have hk : lexPart δ " ORDER BY ".toList = some [.word "ORDER".toList, .word "BY".toList] := by
    cases δ <;> rfl
  have hi : (Sql.run δ .idle " ORDER BY ".toList).2 = .idle := by cases δ <;> rfl
  unfold clause clauseToks
  split_ifs
  · rw [List.append_nil, ha]
    exact congrArg some (List.append_nil ts).symm
  · exact lexPart_append_some ha (lexPart_append_some hk ho (Or.inl hi)) (joins_blank a _)

theorem lexPart_append_whereText {a : Text} {ts : List Tok} (ha : lexPart q.bt.dialect a = some ts)
    (hw : lexPart q.bt.dialect (appendWithPlaceholders q.bt 0 q.where_) = some ws) :
    lexPart q.bt.dialect (a ++ whereText q 0) =
      some (ts ++ Sql.condToks (clauseToks q.where_ ws)) := by
  have hk : lexPart q.bt.dialect " WHERE ".toList = some [.word "WHERE".toList] := by
    cases q.bt <;> rfl
  have hi : (Sql.run q.bt.dialect .idle " WHERE ".toList).2 = .idle := by
    cases q.bt <;> rfl
  unfold whereText clauseToks
  split_ifs
  · rw [List.append_nil, ha]
    exact congrArg some (List.append_nil ts).symm
  · exact lexPart_append_some ha (lexPart_append_some hk hw (Or.inl hi)) (joins_blank a _)

theorem buildSelect_oneTable (hq : OneTable q) : buildSelect (unpaged q) =
    "SELECT ".toList ++ (if q.distinct then "DISTINCT ".toList else []) ++ selectList q ++
      (" FROM ".toList ++ qident q.bt q.model.table) ++ whereText q 0 ++
      clause " ORDER BY ".toList q.order := by
  have hlimit : limitText (unpaged q) = [] := rfl
  have hempty (k : Text) : clause k [] = [] := if_pos rfl
  unfold buildSelect
  rw [hlimit, List.append_nil]
  show _ ++ clause " ".toList q.joins ++ whereText q 0 ++ clause " GROUP BY ".toList q.group ++
    clause " HAVING ".toList q.having_ ++ clause " ORDER BY ".toList q.order = _
  rw [hq.joins, hq.group, hq.having_, hempty, hempty, hempty, List.append_nil, List.append_nil,
    List.append_nil, ← List.append_assoc _ " FROM ".toList]
  rfl

/-- **Reading the text of a SELECT.** -/
theorem lexPart_select (hq : OneTable q) (ht : Ident q.model.table) (h : InClauses q cs ws os) :
    lexPart q.bt.dialect (buildSelect (unpaged q)) = some (selectStmt q cs ws os) := by
  have hselect (δ : Sql.Dialect) :
      lexPart δ ("SELECT ".toList ++ (if q.distinct then "DISTINCT ".toList else [])) =
        some (.word "SELECT".toList :: distinctToks q) ∧
      (Sql.run δ .idle ("SELECT ".toList ++ (if q.distinct then "DISTINCT ".toList else []))).2 =
        .idle := by
    unfold distinctToks
    cases q.distinct <;> cases δ <;> exact ⟨by decide +kernel, by decide +kernel⟩
  have hfrom (δ : Sql.Dialect) : lexPart δ " FROM ".toList = some [.word "FROM".toList] := by
    cases δ <;> rfl
  have hfromi (δ : Sql.Dialect) : (Sql.run δ .idle " FROM ".toList).2 = .idle := by
    cases δ <;> rfl
  have htable := lexPart_append_some (hfrom q.bt.dialect) (lexPart_qident q.bt ht)
    (Or.inl (hfromi _))
  have hhead := lexPart_append_some (lexPart_append_some (hselect q.bt.dialect).1 h.cols
    (Or.inl (hselect _).2)) htable (joins_blank _ _)
  rw [buildSelect_oneTable hq, lexPart_append_order (lexPart_append_whereText hhead h.where_) h.order]
  simp [selectStmt, Sql.selectForm]

/-- The clauses of the statement. -/
def selectClauses (q : Query) (cs ws os : List Tok) : Clauses :=
  ⟨(Sql.splitDistinct (distinctToks q ++ cs)).1, (Sql.splitDistinct (distinctToks q ++ cs)).2,
    q.model.table, clauseToks q.where_ ws, clauseToks q.order os⟩

theorem readClauses_select (h : InClauses q cs ws os) :
    readClauses (selectStmt q cs ws os) = some (selectClauses q cs ws os) :=
  Sql.readClauses_form (quoteOf_ne q.bt) ((closed_distinctToks q).append h.cols_closed)
    (closed_clauseToks h.where_closed) (closed_clauseToks h.order_closed)

theorem closed_selectStmt (h : InClauses q cs ws os) :
    Closed Sql.isTail (selectStmt q cs ws os) :=
  Sql.closed_selectForm ((closed_distinctToks q).append h.cols_closed)
    (closed_clauseToks h.where_closed) (closed_clauseToks h.order_closed)

/-- **Reading a SELECT** with its limit and offset, over any meaning of its clauses. -/
theorem readSelect_select {α : Type} (hq : OneTable q) (ht : Ident q.model.table)
    (h : InClauses q cs ws os) (plan : List V → Clauses → Option α) (vs : List V) :
    readSelect q.bt.dialect (fun vs ts => (readClauses ts).bind (plan vs)) (buildSelect q) vs =
      (plan vs (selectClauses q cs ws os)).map fun x => (x, windowOf q) := by
  have hlex := Sql.lex_of_part (lexPart_append_limitText (lexPart_select hq ht h) q)
  rw [readSelect, buildSelect_limit, hlex, Option.bind_some,
    windowed_append_limitToks (closed_selectStmt h), Option.bind_some]
  simp only [readClauses_select h, Option.bind_some]

/-! ## The plan of a find -/

variable {D : Dbms V} {L : Listing V} {bt : BackendType} {s s' : Store V} {q' : Query}
  {res : Result} {p : Plan V} {vs : List V}

/-- The plan of the SELECT of a query. -/
def planOf (D : Dbms V) (L : Listing V) (s : Store V) (q : Query) : Option (Plan V) :=
  (q.params.mapM D.bind).bind fun vs => (lex q.bt.dialect (buildSelect (unpaged q))).bind
    fun ts => (readClauses ts).bind (L.plan D.engine s.db vs)

theorem planOf_eq (hq : OneTable q) (ht : Ident q.model.table) (h : InClauses q cs ws os) :
    planOf D L s q = (q.params.mapM D.bind).bind fun vs =>
      L.plan D.engine s.db vs (selectClauses q cs ws os) := by
  unfold planOf
  simp only [Sql.lex_of_part (lexPart_select hq ht h), Option.bind_some, readClauses_select h]

theorem find_unpaged (q : Query) : findQuery (unpaged q) = unpaged (findQuery q) := by
  rw [findQuery_eq, findQuery_eq]
  rfl

theorem find_answer (hbt : q.bt = bt) : find (selectBackend bt D L) s q =
    ((q.params.mapM D.bind).bind
      (L.answer D.engine q.bt.dialect s.db (buildSelect (findQuery q)))).elim
      (.backend, none, findQuery q, s) fun res => (.ok, some res, findQuery q, s) := by
  have hparams : (findQuery q).params = q.params := by rw [findQuery_eq]
  have hfind : find (selectBackend bt D L) s q =
      (((selectBackend bt D L).query s (buildSelect (findQuery q)) (findQuery q).params).1,
        ((selectBackend bt D L).query s (buildSelect (findQuery q)) (findQuery q).params).2.1,
        findQuery q,
        ((selectBackend bt D L).query s (buildSelect (findQuery q)) (findQuery q).params).2.2) := rfl
  rw [hfind, hparams, hbt]
  unfold selectBackend
  simp only
  cases (q.params.mapM D.bind).bind
    (L.answer D.engine bt.dialect s.db (buildSelect (findQuery q))) <;> rfl

theorem find_of_some (hbt : q.bt = bt) (h : (find (selectBackend bt D L) s q).2.1 = some res) :
    find (selectBackend bt D L) s q = (.ok, some res, findQuery q, s) := by
  rw [find_answer hbt] at h ⊢
  cases hanswer : (q.params.mapM D.bind).bind
      (L.answer D.engine q.bt.dialect s.db (buildSelect (findQuery q))) with
  | none =>
    rw [hanswer] at h
    cases h
  | some res' =>
    rw [hanswer] at h
    cases h
    rfl

/-- **A find without limit and offset** that succeeds. -/
theorem find_plan (hbt : q.bt = bt) (hq : OneTable (findQuery q)) (ht : Ident (findQuery q).model.table)
    (h : InClauses (findQuery q) cs ws os)
    (hfind : find (selectBackend bt D L) s (unpaged q) = (.ok, some res, q', s')) :
    ∃ vs p, q.params.mapM D.bind = some vs ∧
      L.plan D.engine s.db vs (selectClauses (findQuery q) cs ws os) = some p ∧
      res = p.result L.same ⟨none, 0⟩ := by
  rw [find_answer (q := unpaged q) hbt, find_unpaged] at hfind
  have hparams : (unpaged q).params = q.params := rfl
  have hdialect : (unpaged q).bt = (unpaged (findQuery q)).bt := by rw [findQuery_eq]; rfl
  have hclauses : selectClauses (unpaged (findQuery q)) cs ws os =
      selectClauses (findQuery q) cs ws os := rfl
  rw [hparams, hdialect] at hfind
  cases hvs : q.params.mapM D.bind with
  | none =>
    rw [hvs] at hfind
    cases hfind
  | some vs =>
    have hread := readSelect_select (q := unpaged (findQuery q)) ⟨hq.1, hq.2, hq.3⟩ ht
      (h.unpaged) (L.plan D.engine s.db) vs
    rw [hvs, Option.bind_some, Listing.answer, hread, hclauses] at hfind
    cases hp : L.plan D.engine s.db vs (selectClauses (findQuery q) cs ws os) with
    | none =>
      rw [hp] at hfind
      cases hfind
    | some p =>
      rw [hp] at hfind
      cases hfind
      exact ⟨vs, p, rfl, hp, rfl⟩

/-! ## The plan of a count -/

/-- The query that counts. -/
def countQuery (q : Query) : Query := { q with selectCols := "COUNT(*)".toList }

theorem find_countQuery (q : Query) : findQuery (countQuery q) = countQuery (findQuery q) := by
  rw [findQuery_eq, findQuery_eq]
  rfl

theorem inClauses_countQuery (h : InClauses q cs ws os) :
    InClauses (countQuery q) countToks ws os where
  cols := by
    show lexPart q.bt.dialect (if "COUNT(*)".toList = [] then "*".toList else "COUNT(*)".toList) = _
    cases q.bt <;> rfl
  where_ := h.where_
  order := h.order
  cols_closed := by decide
  where_closed := h.where_closed
  order_closed := h.order_closed
  cols_marks := rfl

theorem marks_splitDistinct (ts : List Tok) :
    Sql.marks (Sql.splitDistinct ts).2 = Sql.marks ts := by
  unfold Sql.splitDistinct
  split
  · split_ifs
    · rw [Sql.marks_cons]
      exact (Nat.zero_add _).symm
    · rfl
  · rfl

theorem marks_distinctToks (q : Query) : Sql.marks (distinctToks q) = 0 := by
  unfold distinctToks
  split_ifs <;> rfl

theorem selectClauses_marks (h : InClauses q cs ws os) :
    Sql.marks (selectClauses q cs ws os).cols = 0 := by
  show Sql.marks (Sql.splitDistinct _).2 = 0
  rw [marks_splitDistinct, Sql.marks_append, marks_distinctToks, h.cols_marks]

theorem selectClauses_count (q : Query) (ws os : List Tok) :
    selectClauses (countQuery q) countToks ws os =
      ⟨q.distinct, countToks, q.model.table, clauseToks q.where_ ws, clauseToks q.order os⟩ := by
  have hsplit : Sql.splitDistinct (distinctToks (countQuery q) ++ countToks) =
      (q.distinct, countToks) := by
    show Sql.splitDistinct (distinctToks q ++ countToks) = _
    unfold distinctToks
    cases q.distinct <;> decide
  unfold selectClauses
  rw [hsplit]
  rfl

/-- The plan of the statement that counts, in the parts of the plan of a find. -/
theorem plan_count (h : InClauses q cs ws os)
    (hp : L.plan D.engine s.db vs (selectClauses q cs ws os) = some p) :
    ∃ order, Listing.fillOption vs (Sql.marks ((clauseToks q.where_ ws).getD []))
        (clauseToks q.order os) = some order ∧
      L.plan D.engine s.db vs (selectClauses (countQuery q) countToks ws os) =
        if order.all (L.sorts countStar) then
          some ⟨q.distinct, countStar, L.order (selectClauses (countQuery q) countToks ws os) order,
            p.rows⟩
        else none := by
  have hcols : Sql.fill vs 0 countToks = some (countToks.map .tok) :=
    Sql.fill_plain (by simp [Sql.Plain, countToks]) vs 0
  have hcount : Sql.marks countToks = 0 := rfl
  obtain ⟨cols, cond, order, columns, keep, -, hcond, horder, -, hkeep, -, rfl⟩ :=
    Listing.plan_eq_some hp
  rw [selectClauses_marks h] at hcond horder
  rw [Nat.zero_add] at horder
  have hcond' : Listing.fillOption vs 0 (clauseToks q.where_ ws) = some cond := hcond
  have horder' : Listing.fillOption vs (Sql.marks ((clauseToks q.where_ ws).getD []))
      (clauseToks q.order os) = some order := horder
  refine ⟨order, horder', ?_⟩
  unfold Listing.plan
  rw [selectClauses_count]
  simp only [hcols, hcount, hcond', Nat.zero_add, horder', L.columns_count, hkeep,
    Option.bind_eq_bind, Option.bind_some]
  rfl

/-- **The statement that counts** asks for the same rows, and their number. -/
theorem count_plan {p' : Plan V} (h : InClauses q cs ws os)
    (hp : L.plan D.engine s.db vs (selectClauses q cs ws os) = some p)
    (hp' : L.plan D.engine s.db vs (selectClauses (countQuery q) countToks ws os) = some p') :
    ∃ sort, p' = ⟨q.distinct, countStar, sort, p.rows⟩ := by
  obtain ⟨order, -, hplan⟩ := plan_count h hp
  rw [hplan] at hp'
  split_ifs at hp'
  exact ⟨_, (Option.some.inj hp').symm⟩

theorem count_plan_unordered (ho : q.order = []) (h : InClauses q cs ws os)
    (hp : L.plan D.engine s.db vs (selectClauses q cs ws os) = some p) :
    ∃ p', L.plan D.engine s.db vs (selectClauses (countQuery q) countToks ws os) = some p' := by
  obtain ⟨order, horder, hplan⟩ := plan_count h hp
  rw [show clauseToks q.order os = none from if_pos ho] at horder
  obtain rfl := Option.some.inj horder
  exact ⟨_, hplan.trans (if_pos rfl)⟩

/-! ## The count -/

theorem apply_windowOf_single {α : Type} (q : Query) (x : α) :
    (windowOf q).apply [x] = if 0 < q.offset then [] else [x] := by
  by_cases ho : 0 < q.offset
  · have hdrop : [x].drop q.offset.toNat = [] := List.drop_of_length_le (by simp; omega)
    rw [windowOf, if_pos (Or.inr ho), if_pos ho, if_pos ho, Window.apply]
    simp only [hdrop, List.take_nil, ite_self]
  · rw [windowOf, if_neg ho]
    by_cases hl : 0 < q.limit
    · obtain ⟨n, hn⟩ := Nat.exists_eq_succ_of_ne_zero (show q.limit.toNat ≠ 0 by omega)
      rw [if_pos (Or.inl hl), if_neg ho, Window.apply]
      simp [hn, hl.le]
    · rw [if_neg (by omega), if_neg ho]
      rfl

theorem find_count (hbt : q.bt = bt) (hq : OneTable (findQuery q)) (ht : Ident (findQuery q).model.table)
    (h : InClauses (findQuery q) cs ws os) (hvs : q.params.mapM D.bind = some vs) :
    find (selectBackend bt D L) s (countQuery q) =
      ((L.plan D.engine s.db vs (selectClauses (countQuery (findQuery q)) countToks ws os)).elim
        (.backend, none, findQuery (countQuery q), s)
        fun p => (.ok, some (p.result L.same (windowOf q)), findQuery (countQuery q), s)) := by
  have hq' : OneTable (countQuery (findQuery q)) := ⟨hq.1, hq.2, hq.3⟩
  have h' := inClauses_countQuery h
  have hread := readSelect_select hq' ht h' (L.plan D.engine s.db) vs
  have hwindow : windowOf (countQuery (findQuery q)) = windowOf q := by
    rw [findQuery_eq]
    rfl
  have hdialect : (countQuery q).bt = (countQuery (findQuery q)).bt := by rw [findQuery_eq]; rfl
  have hparams : (countQuery q).params = q.params := rfl
  rw [find_answer (q := countQuery q) hbt, hparams, hvs, find_countQuery, Option.bind_some,
    Listing.answer, hdialect, hread, hwindow]
  cases L.plan D.engine s.db vs (selectClauses (countQuery (findQuery q)) countToks ws os) <;> rfl

/-- **What `corm_query_count` stores**, where the find without limit and offset succeeds; nothing,
where the ORDER BY cannot stand behind `COUNT(*)`. -/
theorem queryCount_eq (hbt : q.bt = bt) (hq : OneTable (findQuery q)) (ht : Ident (findQuery q).model.table)
    (h : InClauses (findQuery q) cs ws os) (hvs : q.params.mapM D.bind = some vs)
    (hp : L.plan D.engine s.db vs (selectClauses (findQuery q) cs ws os) = some p) :
    (queryCount (selectBackend bt D L) s q).1 =
      (L.plan D.engine s.db vs (selectClauses (countQuery (findQuery q)) countToks ws os)).elim
        (some (.backend, none))
        fun _ => some (.ok, some (if 0 < q.offset then 0 else Int64.ofNat p.rows.length)) := by
  unfold queryCount
  have hcount : find (selectBackend bt D L) s { q with selectCols := "COUNT(*)".toList } = _ :=
    find_count hbt hq ht h hvs
  rw [hcount]
  cases hp' : L.plan D.engine s.db vs (selectClauses (countQuery (findQuery q)) countToks ws os) with
  | none => rfl
  | some p' =>
    obtain ⟨sort, rfl⟩ := count_plan h hp hp'
    simp only [Option.elim_some]
    have hrows : ((⟨(findQuery q).distinct, countStar, sort, p.rows⟩ : Plan V).result L.same
        (windowOf q)).rows = if 0 < q.offset then [] else
          [fun _ => ⟨.int64, false, .i (Int64.ofNat p.rows.length)⟩] :=
      apply_windowOf_single q _
    by_cases ho : 0 < q.offset
    · rw [if_pos ho] at hrows ⊢
      rw [hrows]
    · rw [if_neg ho] at hrows ⊢
      rw [hrows]
      rfl

theorem ofNat_inj {a b : ℕ} (ha : a < 2 ^ 63) (hb : b < 2 ^ 63) :
    Int64.ofNat a = Int64.ofNat b ↔ a = b := by
  rw [← Int64.toInt_inj, Int64.toInt_ofNat_of_lt ha, Int64.toInt_ofNat_of_lt hb]
  exact Int.ofNat_inj

section Distinct

variable {n : ℕ} {same : Value → Value → Bool} {cells : Row V → Fin n → Value} {rows : List (Row V)}

theorem distinctRows_sublist : (distinctRows same cells rows).Sublist rows := List.pwFilter_sublist _

theorem distinctRows_eq_nil : distinctRows same cells rows = [] ↔ rows = [] := by
  refine ⟨fun h => ?_, fun h => by rw [h]; rfl⟩
  cases rows with
  | nil => rfl
  | cons r rows =>
    by_cases hall : ∀ r' ∈ distinctRows same cells rows, sameCells same (cells r) (cells r') = false
    · rw [distinctRows, List.pwFilter_cons_of_pos hall] at h
      cases h
    · rw [distinctRows, List.pwFilter_cons_of_neg hall] at h
      refine absurd (fun r' hr' => ?_) hall
      rw [distinctRows, h] at hr'
      cases hr'

/-- DISTINCT keeps every row exactly when no two of them have the same cells. -/
theorem length_distinctRows : rows.length = (distinctRows same cells rows).length ↔
    rows.Pairwise fun r r' => sameCells same (cells r) (cells r') = false := by
  rw [← List.pwFilter_eq_self]
  exact ⟨fun h => distinctRows_sublist.eq_of_length h.symm, fun h => (congrArg List.length h).symm⟩

end Distinct

theorem length_cells (p : Plan V) (same : Value → Value → Bool) (w : Window) :
    (p.cells same w).length ≤ max 1 p.rows.length := by
  unfold Plan.cells
  cases p.columns.cells with
  | whole cells => simp
  | each cells =>
    simp only [List.length_map, ((p.sort w).perm _).length_eq]
    split_ifs
    · exact (distinctRows_sublist.length_le).trans (le_max_right _ _)
    · exact le_max_right _ _

theorem countsRows_iff (p : Plan V) (same : Value → Value → Bool) (w : Window) (offset : ℤ) :
    p.CountsRows same offset ↔
      (if 0 < offset then 0 else p.rows.length) = (p.cells same w).length := by
  unfold Plan.CountsRows Plan.cells
  cases p.columns.cells with
  | whole cells =>
    simp only [List.length_singleton]
    split_ifs with ho
    · simp [ho]
    · simp [ho]
  | each cells =>
    simp only [List.length_map, ((p.sort w).perm _).length_eq]
    by_cases ho : 0 < offset
    · rw [if_pos ho, if_pos ho, eq_comm (a := 0), List.length_eq_zero_iff]
      split_ifs
      · exact distinctRows_eq_nil.symm
      · rfl
    · rw [if_neg ho, if_neg ho]
      cases p.distinct with
      | true => exact (forall_prop_of_true rfl).trans length_distinctRows.symm
      | false => simp

theorem length_plan {db : Sql.Database V} {c : Clauses} {E : Engine V}
    (hp : L.plan E db vs c = some p) : p.rows.length ≤ (db c.table).length := by
  obtain ⟨_, _, _, _, keep, -, -, -, -, -, -, rfl⟩ := Listing.plan_eq_some hp
  exact List.length_filter_le keep (db c.table)

/-- **When the count is the number of rows** that a find without limit and offset returns. -/
theorem queryCount_right_iff (hq : OneTable q) (ht : Ident q.model.table)
    (h : InClauses (findQuery q) cs ws os)
    (hfind : find (selectBackend q.bt D L) s (unpaged q) = (.ok, some res, q', s'))
    (hsize : (s.db q.model.table).length < 2 ^ 63) :
    (queryCount (selectBackend q.bt D L) s q).1 =
        some (.ok, some (Int64.ofNat res.rows.length)) ↔
      (planOf D L s (countQuery (findQuery q))).isSome ∧
        ∀ p ∈ planOf D L s (findQuery q), p.CountsRows L.same q.offset := by
  have hmodel : (findQuery q).model = q.model := by rw [findQuery_eq]
  have hparams : (findQuery q).params = q.params := by rw [findQuery_eq]
  have hq' : OneTable (findQuery q) := by
    rw [findQuery_eq]
    exact ⟨hq.1, hq.2, hq.3⟩
  have ht' : Ident (findQuery q).model.table := hmodel ▸ ht
  obtain ⟨vs, p, hvs, hp, rfl⟩ := find_plan rfl hq' ht' h hfind
  have hlen : p.rows.length < 2 ^ 63 := by
    have hle := length_plan hp
    rw [show (selectClauses (findQuery q) cs ws os).table = q.model.table by rw [← hmodel]; rfl] at hle
    exact hle.trans_lt hsize
  have hcells : ((p.result L.same ⟨none, 0⟩).rows).length < 2 ^ 63 :=
    (length_cells p L.same _).trans_lt (max_lt (by decide) hlen)
  have hq'' : OneTable (countQuery (findQuery q)) := ⟨hq'.1, hq'.2, hq'.3⟩
  have hplan : planOf D L s (countQuery (findQuery q)) =
      L.plan D.engine s.db vs (selectClauses (countQuery (findQuery q)) countToks ws os) := by
    rw [planOf_eq hq'' ht' (inClauses_countQuery h)]
    show ((findQuery q).params.mapM D.bind).bind _ = _
    rw [hparams, hvs, Option.bind_some]
  rw [queryCount_eq rfl hq' ht' h hvs hp, hplan, planOf_eq hq' ht' h, hparams, hvs, Option.bind_some, hp]
  simp only [Option.mem_some_iff, forall_eq', countsRows_iff p L.same ⟨none, 0⟩]
  cases L.plan D.engine s.db vs (selectClauses (countQuery (findQuery q)) countToks ws os) with
  | none => simp
  | some p' =>
    have hif : (if 0 < q.offset then 0 else Int64.ofNat p.rows.length) =
        Int64.ofNat (if 0 < q.offset then 0 else p.rows.length) := by
      split_ifs <;> rfl
    simp only [Option.elim_some, Option.isSome_some, true_and, Option.some.injEq, Prod.mk.injEq]
    rw [hif, ofNat_inj (by split_ifs; exacts [by decide, hlen]) hcells]
    rfl

/-! ## A name twice -/

/-- A column with a name. -/
def nameColumn (c : Text) : Columns (Option Text) where
  count := 1
  names := fun _ => c
  types := fun _ => .text
  cells := .each fun r _ => ⟨.text, (r c).isNone, .s (r c)⟩

/-- Select lists of one column, and `COUNT(*)`; the rows come as they are stored. -/
def textListing : Listing (Option Text) where
  columns is :=
    if is = countToks.map .tok then some countStar
    else match is with
      | [.tok (.word c)] => some (nameColumn c)
      | _ => none
  sorts _ _ := true
  order _ _ _ := ⟨id, .refl⟩
  same v w := v = w
  columns_count := if_pos rfl

/-- Two users of the same name. -/
def twoAdas : Store (Option Text) :=
  oneTable "test_users".toList [namedUser "Ada", namedUser "Ada"]

/-- `SELECT DISTINCT name`. -/
def distinctNames : Query :=
  { querySelect (queryNew .sqlite testUserModel) "name".toList with distinct := true }

/-- The names after the first one. -/
def laterNames : Query :=
  { querySelect (queryNew .sqlite testUserModel) "name".toList with offset := 1 }

theorem not_counted {n : ℕ} {k : Int64}
    (hfind : (find (selectBackend q.bt D L) s (unpaged q)).2.1.map (fun res => res.rows.length) =
      some n)
    (hcount : (queryCount (selectBackend q.bt D L) s q).1 = some (.ok, some k))
    (hne : k ≠ Int64.ofNat n) :
    ¬ ∀ res, (find (selectBackend q.bt D L) s (unpaged q)).2.1 = some res →
      (queryCount (selectBackend q.bt D L) s q).1 =
        some (.ok, some (Int64.ofNat res.rows.length)) := by
  intro h
  obtain ⟨res, hres, rfl⟩ := Option.map_eq_some_iff.mp hfind
  have hk := hcount.symm.trans (h res hres)
  simp only [Option.some.injEq, Prod.mk.injEq, true_and] at hk
  exact hne hk

/-- There is one name, and the count is two; there are two rows, and with an offset the count is
none. -/
theorem queryCount_wrong_names :
    (¬ ∀ res, (find (selectBackend .sqlite textDbms textListing) twoAdas
        (unpaged distinctNames)).2.1 = some res →
      (queryCount (selectBackend .sqlite textDbms textListing) twoAdas distinctNames).1 =
        some (.ok, some (Int64.ofNat res.rows.length))) ∧
    ¬ ∀ res, (find (selectBackend .sqlite textDbms textListing) twoAdas
        (unpaged laterNames)).2.1 = some res →
      (queryCount (selectBackend .sqlite textDbms textListing) twoAdas laterNames).1 =
        some (.ok, some (Int64.ofNat res.rows.length)) := by
  constructor
  · have htwo : (queryCount (selectBackend .sqlite textDbms textListing) twoAdas distinctNames).1 =
        some (.ok, some 2) := by
      decide +kernel
    exact not_counted (q := distinctNames) (n := 1) (by decide +kernel) htwo (by decide)
  · have hzero : (queryCount (selectBackend .sqlite textDbms textListing) twoAdas laterNames).1 =
        some (.ok, some 0) := by
      decide +kernel
    exact not_counted (q := laterNames) (n := 2) (by decide +kernel) hzero (by decide)

theorem inClauses_distinctNames :
    InClauses (findQuery distinctNames) [.word "name".toList] [] [] := by
  refine ⟨?_, ?_, ?_, ?_, ?_, ?_, ?_⟩ <;> rfl

theorem queryCount_right_iff_distinctNames :
    ∃ res, (find (selectBackend .sqlite textDbms textListing) twoAdas (unpaged distinctNames)).2.1 =
        some res ∧
      ((queryCount (selectBackend .sqlite textDbms textListing) twoAdas distinctNames).1 =
          some (.ok, some (Int64.ofNat res.rows.length)) ↔
        (planOf textDbms textListing twoAdas (countQuery (findQuery distinctNames))).isSome ∧
          ∀ p ∈ planOf textDbms textListing twoAdas (findQuery distinctNames),
            p.CountsRows textListing.same distinctNames.offset) := by
  have hok : (find (selectBackend .sqlite textDbms textListing) twoAdas
      (unpaged distinctNames)).2.1.isSome := by
    decide +kernel
  obtain ⟨res, hres⟩ := Option.isSome_iff_exists.mp hok
  have hm : Validated testUserModel := validated_of_ok (by decide +kernel)
  exact ⟨res, hres, queryCount_right_iff ⟨rfl, rfl, rfl⟩ hm.table inClauses_distinctNames
    (find_of_some rfl hres) (by decide +kernel)⟩

end Corm
