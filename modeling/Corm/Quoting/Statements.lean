import Corm.Lib.Spans
import Corm.Placeholders.Fields

/-!
# Names in the statements of a query

A statement in spans: the library's own text, text of the caller, and the names of the table and of
its fields.

* `qidentSpan`, `bareSpan`: a name as `qident` writes it, and as it is; `Quoted`: none is bare;
* `renumbered`: the spans with their placeholders numbered;
* `selectSpans`, `insertSpans`, `updateSpans`, `deleteSpans`: the statements of `corm_build_sql`,
  from the spans of their clauses;
* `text_selectSpans` and the others: they make the texts that the builder writes;
* **`quoted_selectSpans`** and the others: their names are quoted when those of the clauses are.
-/

namespace Corm

open Spans (Span Delimited)

/-- A text with the origins of its pieces. -/
abbrev Written := List (Span Char)

/-- A name as `qident` writes it. -/
def qidentSpan (bt : BackendType) (n : Text) : Span Char := .name n (dialectQuote bt)

/-- A name that is appended as it is. -/
def bareSpan (n : Text) : Span Char := .name n []

/-- Every name stands between the quotes of the dialect. -/
def Quoted (bt : BackendType) (l : Written) : Prop := Delimited (dialectQuote bt) l

instance (bt : BackendType) (l : Written) : Decidable (Quoted bt l) :=
  inferInstanceAs (Decidable (Delimited _ _))

@[simp] theorem text_own (t : Text) : (Span.own t).text = t := rfl

@[simp] theorem text_given (t : Text) : (Span.given t).text = t := rfl

theorem text_single (t : Text) : Spans.text [.own t] = t := List.append_nil t

@[simp] theorem text_qidentSpan (bt : BackendType) (n : Text) :
    (qidentSpan bt n).text = qident bt n := rfl

@[simp] theorem text_bareSpan (n : Text) : (bareSpan n).text = n := List.append_nil n

section Quoted

variable {bt : BackendType} {l l' : Written} {t n : Text}

@[simp] theorem quoted_nil : Quoted bt [] := Spans.delimited_nil

@[simp] theorem quoted_own : Quoted bt (.own t :: l) ↔ Quoted bt l := Spans.delimited_own

@[simp] theorem quoted_given : Quoted bt (.given t :: l) ↔ Quoted bt l := Spans.delimited_given

@[simp] theorem quoted_append : Quoted bt (l ++ l') ↔ Quoted bt l ∧ Quoted bt l' :=
  Spans.delimited_append

@[simp] theorem quoted_qidentSpan : Quoted bt (qidentSpan bt n :: l) ↔ Quoted bt l :=
  Spans.delimited_name.trans (and_iff_right rfl)

@[simp] theorem quoted_bareSpan : ¬ Quoted bt (bareSpan n :: l) := by
  intro h
  have hnil := (Spans.delimited_name.mp h).1
  cases bt <;> cases hnil

end Quoted

/-! ## Clauses -/

/-- The names are identifiers, and have no placeholder next to them. -/
def Names (l : Written) : Prop := ∀ n e, Span.name n e ∈ l → Ident n ∧ '?' ∉ e

theorem names_nil : Names [] := nofun

theorem Names.append {l l' : Written} (h : Names l) (h' : Names l') : Names (l ++ l') := by
  intro n e hmem
  exact (List.mem_append.mp hmem).elim (h n e) (h' n e)

theorem names_given (t : Text) : Names [.given t] := by
  intro n e hmem
  cases List.mem_singleton.mp hmem

theorem names_own (t : Text) : Names [.own t] := by
  intro n e hmem
  cases List.mem_singleton.mp hmem

theorem names_cons {n e : Text} {l : Written} (hn : Ident n) (he : '?' ∉ e) (hl : Names l) :
    Names (.name n e :: l) := by
  intro n' e' hmem
  rcases List.mem_cons.mp hmem with heq | hmem
  · obtain ⟨rfl, rfl⟩ := Span.name.inj heq
    exact ⟨hn, he⟩
  · exact hl n' e' hmem

theorem notMem_quote (bt : BackendType) : '?' ∉ dialectQuote bt := by
  cases bt <;> decide

/-- The spans with `?` numbered from `i` on, as `append_with_placeholders` does. -/
def renumbered (bt : BackendType) (i : ℕ) (l : Written) : Written :=
  Spans.rewrite (appendWithPlaceholders bt) (List.count '?') i l

theorem text_renumbered (bt : BackendType) (i : ℕ) {l : Written} (h : Names l) :
    Spans.text (renumbered bt i l) = appendWithPlaceholders bt i (Spans.text l) := by
  refine Spans.text_rewrite (fun _ => rfl) (appendWithPlaceholders_append bt) (fun n e hmem => ?_) i
  obtain ⟨hn, he⟩ := h n e hmem
  have hnone : '?' ∉ e ++ n ++ e := notMem_append (notMem_append he (hn.notMem rfl)) he
  exact ⟨List.count_eq_zero.mpr hnone, appendWithPlaceholders_id fun _ => hnone⟩

@[simp] theorem quoted_renumbered (bt : BackendType) (i : ℕ) (l : Written) :
    Quoted bt (renumbered bt i l) ↔ Quoted bt l := Spans.delimited_rewrite i

/-- Spans with ", " between them. -/
def commaSpans (parts : List Written) : Written := List.intercalate [.own ", ".toList] parts

theorem text_commaSpans (parts : List Written) :
    Spans.text (commaSpans parts) = commaSep (parts.map Spans.text) := by
  rw [commaSpans, Spans.text_intercalate, commaSep_intercalate]
  rfl

theorem quoted_commaSpans {bt : BackendType} {parts : List Written}
    (h : ∀ l ∈ parts, Quoted bt l) : Quoted bt (commaSpans parts) :=
  Spans.delimited_intercalate (by simp) h

/-- A clause of the caller, left out when it is empty. -/
def clauseSpans (keyword t : Text) : Written := if t = [] then [] else [.own keyword, .given t]

@[simp] theorem text_clauseSpans (keyword t : Text) :
    Spans.text (clauseSpans keyword t) = clause keyword t := by
  unfold clauseSpans clause
  split_ifs <;> simp

@[simp] theorem quoted_clauseSpans (bt : BackendType) (keyword t : Text) :
    Quoted bt (clauseSpans keyword t) := by
  unfold clauseSpans
  split_ifs <;> simp

section Statements

variable (q : Query) (w u : Written)

/-- The WHERE, from the spans `w` of its buffer. -/
def whereSpans (startIndex : ℕ) : Written :=
  if q.where_ = [] then [] else .own " WHERE ".toList :: renumbered q.bt startIndex w

/-- The columns of a SELECT. -/
def columnsSpan : Span Char := if q.selectCols = [] then .own "*".toList else .given q.selectCols

/-- `CORM_OP_SELECT`. -/
def selectSpans : Written :=
  [.own ("SELECT ".toList ++ if q.distinct then "DISTINCT ".toList else []), columnsSpan q,
    .own " FROM ".toList, qidentSpan q.bt q.model.table] ++
    clauseSpans " ".toList q.joins ++ whereSpans q w 0 ++ clauseSpans " GROUP BY ".toList q.group ++
    clauseSpans " HAVING ".toList q.having_ ++ clauseSpans " ORDER BY ".toList q.order ++
    [.own (limitText q)]

/-- The RETURNING of an INSERT. -/
def returningSpans (bt : BackendType) (pk : Option Field) : Written :=
  match bt, pk with
  | .postgres, some pk => [.own " RETURNING ".toList, qidentSpan bt pk.nm]
  | _, _ => []

/-- `CORM_OP_INSERT`. -/
def insertSpans : Written :=
  let fields := insertFields q.model
  [Span.own "INSERT INTO ".toList, qidentSpan q.bt q.model.table, .own " (".toList] ++
    commaSpans (fields.map fun f => [qidentSpan q.bt f.nm]) ++
    [.own (") VALUES (".toList ++
      commaSep ((List.range fields.length).map (placeholderStr q.bt)) ++ ")".toList)] ++
    returningSpans q.bt q.model.primaryKey

/-- The assignments of an UPDATE without a SET clause. -/
def defaultSetSpans : Written :=
  commaSpans ((updateFields q.model).mapIdx fun i f =>
    [qidentSpan q.bt f.nm, .own (" = ".toList ++ placeholderStr q.bt i)])

/-- `CORM_OP_UPDATE`, from the spans `u` of the SET clause and `w` of the WHERE. -/
def updateSpans : Written :=
  [Span.own "UPDATE ".toList, qidentSpan q.bt q.model.table, .own " SET ".toList] ++
    (if q.setClause = [] then defaultSetSpans q else renumbered q.bt 0 u) ++
    whereSpans q w (whereOffset q)

/-- `CORM_OP_DELETE`. -/
def deleteSpans : Written :=
  [Span.own "DELETE FROM ".toList, qidentSpan q.bt q.model.table] ++ whereSpans q w 0

end Statements

section Texts

variable {q : Query} {w u : Written}

theorem text_whereSpans (hw : Spans.text w = q.where_) (hn : Names w) (i : ℕ) :
    Spans.text (whereSpans q w i) = whereText q i := by
  unfold whereSpans whereText
  split_ifs
  · rfl
  · rw [Spans.text_cons, text_renumbered q.bt i hn, hw]
    rfl

/-- **A SELECT** is what its spans make. -/
theorem text_selectSpans (hw : Spans.text w = q.where_) (hn : Names w) :
    Spans.text (selectSpans q w) = buildSelect q := by
  have hcols : (columnsSpan q).text = if q.selectCols = [] then "*".toList else q.selectCols := by
    unfold columnsSpan
    split_ifs <;> rfl
  unfold selectSpans buildSelect
  simp only [Spans.text_append, Spans.text_cons, Spans.text_nil, text_own, text_qidentSpan,
    text_clauseSpans, hcols, text_whereSpans hw hn, List.append_assoc, List.append_nil]

/-- **An INSERT** is what its spans make. -/
theorem text_insertSpans (q : Query) : Spans.text (insertSpans q) = buildInsert q := by
  have hcols : ((insertFields q.model).map fun f => [qidentSpan q.bt f.nm]).map Spans.text =
      (insertFields q.model).map fun f => qident q.bt f.nm := by simp
  unfold insertSpans buildInsert
  simp only [Spans.text_append, Spans.text_cons, Spans.text_nil, text_own, text_qidentSpan,
    text_commaSpans, hcols, List.append_assoc]
  generalize q.bt = bt
  generalize q.model.primaryKey = pk
  cases bt <;> cases pk <;>
    simp only [returningSpans, Spans.text_cons, Spans.text_nil, text_own, text_qidentSpan,
      List.nil_append, List.append_nil]

theorem text_defaultSetSpans (q : Query) : Spans.text (defaultSetSpans q) = defaultSets q := by
  rw [defaultSetSpans, text_commaSpans, defaultSets, List.mapIdx_eq_zipIdx_map,
    List.mapIdx_eq_zipIdx_map, List.map_map]
  refine congrArg commaSep (List.map_congr_left fun p _ => ?_)
  simp

/-- **An UPDATE** is what its spans make. -/
theorem text_updateSpans (hw : Spans.text w = q.where_) (hu : Spans.text u = q.setClause)
    (hwn : Names w) (hun : Names u) : Spans.text (updateSpans q w u) = buildUpdate q := by
  have hset : Spans.text (if q.setClause = [] then defaultSetSpans q else renumbered q.bt 0 u) =
      if q.setClause = [] then defaultSets q else appendWithPlaceholders q.bt 0 q.setClause := by
    split_ifs
    · exact text_defaultSetSpans q
    · rw [text_renumbered q.bt 0 hun, hu]
  unfold updateSpans buildUpdate
  simp only [Spans.text_append, Spans.text_cons, Spans.text_nil, text_own, text_qidentSpan, hset,
    text_whereSpans hw hwn, List.append_assoc, List.append_nil]

/-- **A DELETE** is what its spans make. -/
theorem text_deleteSpans (hw : Spans.text w = q.where_) (hn : Names w) :
    Spans.text (deleteSpans q w) = buildDelete q := by
  unfold deleteSpans buildDelete
  simp only [Spans.text_append, Spans.text_cons, Spans.text_nil, text_own, text_qidentSpan,
    text_whereSpans hw hn, List.append_assoc, List.append_nil]

end Texts

section Quotes

variable {q : Query} {w u : Written}

theorem quoted_of_text_nil {bt : BackendType} (hw : Spans.text w = []) (hn : Names w) :
    Quoted bt w := by
  intro s hs
  cases s with
  | name n e =>
    have hnil : (Span.name n e).text = [] := List.flatMap_eq_nil_iff.mp hw _ hs
    exact absurd (List.append_eq_nil_iff.mp (List.append_eq_nil_iff.mp hnil).1).2 (hn n e hs).1.ne_nil
  | _ => trivial

theorem quoted_whereSpans (hw : Spans.text w = q.where_) (hn : Names w) (i : ℕ) :
    Quoted q.bt (whereSpans q w i) ↔ Quoted q.bt w := by
  unfold whereSpans
  split_ifs with hnil
  · exact iff_of_true quoted_nil (quoted_of_text_nil (hw.trans hnil) hn)
  · rw [quoted_own, quoted_renumbered]

theorem quoted_columnsSpan {l : Written} : Quoted q.bt (columnsSpan q :: l) ↔ Quoted q.bt l := by
  unfold columnsSpan
  split_ifs
  · exact quoted_own
  · exact quoted_given

theorem quoted_selectSpans (hw : Spans.text w = q.where_) (hn : Names w) :
    Quoted q.bt (selectSpans q w) ↔ Quoted q.bt w := by
  simp only [selectSpans, quoted_append, quoted_own, quoted_columnsSpan, quoted_qidentSpan,
    quoted_clauseSpans, quoted_whereSpans hw hn, quoted_nil, true_and, and_true]

theorem quoted_names (bt : BackendType) (ns : List Text) :
    Quoted bt (commaSpans (ns.map fun n => [qidentSpan bt n])) :=
  quoted_commaSpans fun l hl => by
    obtain ⟨n, -, rfl⟩ := List.mem_map.mp hl
    exact quoted_qidentSpan.mpr quoted_nil

theorem quoted_insertSpans (q : Query) : Quoted q.bt (insertSpans q) := by
  have hnames := quoted_names q.bt ((insertFields q.model).map Field.nm)
  rw [List.map_map] at hnames
  have hret : Quoted q.bt (returningSpans q.bt q.model.primaryKey) := by
    unfold returningSpans
    split <;> simp
  simp only [insertSpans, quoted_append, quoted_own, quoted_qidentSpan, quoted_nil, true_and,
    and_true]
  exact ⟨hnames, hret⟩

theorem quoted_updateSpans (hw : Spans.text w = q.where_) (hwn : Names w) (hu : Quoted q.bt u) :
    Quoted q.bt (updateSpans q w u) ↔ Quoted q.bt w := by
  have hset : Quoted q.bt
      (if q.setClause = [] then defaultSetSpans q else renumbered q.bt 0 u) := by
    split_ifs
    · refine quoted_commaSpans fun l hl => ?_
      obtain ⟨i, hi, rfl⟩ := List.mem_mapIdx.mp hl
      simp
    · exact (quoted_renumbered q.bt 0 u).mpr hu
  simp only [updateSpans, quoted_append, quoted_own, quoted_qidentSpan, quoted_nil, hset,
    quoted_whereSpans hw hwn, true_and]

theorem quoted_deleteSpans (hw : Spans.text w = q.where_) (hn : Names w) :
    Quoted q.bt (deleteSpans q w) ↔ Quoted q.bt w := by
  simp only [deleteSpans, quoted_append, quoted_own, quoted_qidentSpan, quoted_nil,
    quoted_whereSpans hw hn, true_and]

end Quotes

end Corm
