import Corm.Reading.Basic
import Corm.Sql.Stmt

/-!
# How SQL reads a WHERE

* `whereTokens`, `lex_append_whereText`: the tokens of the WHERE of a query, after any text;
* `readWhere`: its condition, with the values of its placeholders;
* `PlainSelect`, **`readStmt_select`**, **`readStmt_delete`**: the statements around it.
-/

namespace Corm

open Sql (Tok Quote lex lexPart lexPart_append_some Joins)

variable {δ : Sql.Dialect} {a : Text} {i : ℕ}

/-! ## Tokens -/

/-- The tokens of WHERE and a condition. -/
def whereToks : Option (List Tok) → List Tok
  | none => []
  | some ts => .word "WHERE".toList :: ts

/-- The tokens of the WHERE of a query, with its placeholders numbered from `i`; no condition is
`none`, and a condition that cannot be read fails. -/
def whereTokens (δ : Sql.Dialect) (q : Query) (i : ℕ) : Option (Option (List Tok)) :=
  if q.where_ = [] then some none else (lex δ (appendWithPlaceholders q.bt i q.where_)).map some

theorem lex_whereText (q : Query) (i : ℕ) :
    lex δ (whereText q i) = (whereTokens δ q i).map whereToks := by
  unfold whereText whereTokens
  by_cases hw : q.where_ = []
  · rw [if_pos hw, if_pos hw]
    rfl
  · have hk : lexPart δ " WHERE ".toList = some [.word "WHERE".toList] := by
      cases δ <;> rfl
    have hi : (Sql.run δ .idle " WHERE ".toList).2 = .idle := by cases δ <;> rfl
    rw [if_neg hw, if_neg hw, Sql.lex_append hk (Or.inl hi), Option.map_map]
    rfl

theorem lex_append_whereText {ts : List Tok} (h : lexPart δ a = some ts) (q : Query) (i : ℕ) :
    lex δ (a ++ whereText q i) = (whereTokens δ q i).map fun w => ts ++ whereToks w := by
  by_cases hw : q.where_ = []
  · simp [whereText, whereTokens, hw, Sql.lex_of_part h, whereToks]
  · have hj : Joins δ a (whereText q i) := by
      rw [whereText, if_neg hw]
      exact joins_blank a _
    rw [Sql.lex_append h hj, lex_whereText, Option.map_map]
    rfl

/-! ## Statements with their values -/

variable {V : Type}

/-- The condition of a query, read with the values `vs`, after `n` placeholders `?`. -/
def readWhere (δ : Sql.Dialect) (q : Query) (i : ℕ) (vs : List V) (n : ℕ) :
    Option (Option (List (Sql.Item V))) :=
  (whereTokens δ q i).bind fun
    | none => some none
    | some ts => (Sql.fill vs n ts).map some

theorem fill_whereToks (vs : List V) (n : ℕ) (w : Option (List Tok)) :
    Sql.fill vs n (whereToks w) = (match w with
      | none => some none
      | some ts => (Sql.fill vs n ts).map some).map Sql.whereItems := by
  cases w with
  | none => rfl
  | some ts =>
    rw [whereToks, Sql.fill_cons]
    show (Sql.fill vs n ts).map _ = _
    rw [Option.map_map]
    rfl

/-- **A statement that ends in the WHERE of a query**: its beginning `a` has the items `is`, and `k`
is the statement for a condition. -/
theorem readStmt_append_whereText {pre : List Tok} {vs : List V} {is : List (Sql.Item V)}
    {k : Option (List (Sql.Item V)) → Sql.Stmt V} (hlex : lexPart δ a = some pre)
    (hfill : Sql.fill vs 0 pre = some is)
    (hk : ∀ c, Sql.parseStmt (is ++ Sql.whereItems c) = some (k c)) (q : Query) (i : ℕ) :
    Sql.readStmt δ (a ++ whereText q i) vs = (readWhere δ q i vs (Sql.marks pre)).map k := by
  unfold Sql.readStmt readWhere
  rw [lex_append_whereText hlex]
  cases whereTokens δ q i with
  | none => rfl
  | some w =>
    simp only [Option.map_some, Option.bind_eq_bind, Option.bind_some]
    rw [Sql.fill_append, hfill, Option.bind_some, fill_whereToks, Nat.zero_add, Option.map_map]
    cases w with
    | none => exact hk none
    | some ts =>
      cases hf : Sql.fill vs (Sql.marks pre) ts with
      | none => simp [hf]
      | some cond => simpa [hf] using hk (some cond)

theorem values_readWhere {q : Query} {ts : List Tok}
    (h : lex δ (appendWithPlaceholders q.bt i q.where_) = some ts) (vs : List V) (n : ℕ) :
    (readWhere δ q i vs n).map (fun c => (c.map Sql.values).getD []) =
      (Sql.fill vs n ts).map Sql.values := by
  unfold readWhere whereTokens
  split_ifs with hw
  · rw [hw] at h
    obtain rfl : ts = [] := (Option.some.inj h).symm
    rfl
  · rw [h]
    simp only [Option.map_some, Option.bind_some, Option.map_map]
    rfl

/-! ## SELECT and DELETE -/

/-- A SELECT with nothing but a WHERE. -/
structure PlainSelect (q : Query) : Prop where
  selectCols : q.selectCols = []
  joins : q.joins = []
  group : q.group = []
  having_ : q.having_ = []
  order : q.order = []
  limit : q.limit = 0
  offset : q.offset = 0
  distinct : q.distinct = false

variable {q : Query}

theorem PlainSelect.keep (hp : PlainSelect q) (w : Text) (params : List Value) (op : QueryOp) :
    PlainSelect { q with where_ := w, params := params, op := op } :=
  ⟨hp.1, hp.2, hp.3, hp.4, hp.5, hp.6, hp.7, hp.8⟩

theorem buildSelect_eq (hp : PlainSelect q) :
    buildSelect q = "SELECT * FROM ".toList ++ qident q.bt q.model.table ++ whereText q 0 := by
  have hl : limitText q = [] := by
    unfold limitText
    rw [hp.limit, hp.offset]
    rfl
  unfold buildSelect
  rw [hl, hp.selectCols, hp.joins, hp.group, hp.having_, hp.order, hp.distinct]
  simp only [clause, if_true, List.append_nil]
  rw [if_neg (by decide)]
  rfl

/-- The tokens of a plain SELECT before its WHERE. -/
def selectToks (bt : BackendType) (t : Text) : List Tok :=
  [Tok.word "SELECT".toList, .word ['*'], .word "FROM".toList] ++ [Tok.quoted (quoteOf bt) t]

theorem lexPart_selectFrom (bt : BackendType) {t : Text} (ht : Ident t) :
    lexPart δ ("SELECT * FROM ".toList ++ qident bt t) = some (selectToks bt t) := by
  have hk : lexPart δ "SELECT * FROM ".toList =
      some [.word "SELECT".toList, .word ['*'], .word "FROM".toList] := by cases δ <;> rfl
  have hj : (Sql.run δ .idle "SELECT * FROM ".toList).2 = .idle := by cases δ <;> rfl
  exact lexPart_append_some hk (lexPart_qident bt ht) (Or.inl hj)

theorem plain_selectToks (bt : BackendType) (t : Text) : Sql.Plain (selectToks bt t) := by
  intro k
  simp [selectToks]

theorem readStmt_select (hp : PlainSelect q) (ht : Ident q.model.table) (vs : List V) :
    Sql.readStmt δ (buildSelect q) vs =
      (readWhere δ q 0 vs 0).map fun w => .select q.model.table w := by
  have hpl := plain_selectToks q.bt q.model.table
  have hr := readStmt_append_whereText (lexPart_selectFrom (δ := δ) q.bt ht) (Sql.fill_plain hpl vs 0)
    (fun c => Sql.parse_select (quoteOf_ne q.bt) q.model.table c) q 0
  rw [Sql.marks_plain hpl] at hr
  rw [buildSelect_eq hp, hr]

theorem readStmt_delete (ht : Ident q.model.table) (vs : List V) :
    Sql.readStmt δ (buildDelete q) vs =
      (readWhere δ q 0 vs 0).map fun w => .delete q.model.table w := by
  have hk : lexPart δ "DELETE FROM ".toList = some [.word "DELETE".toList, .word "FROM".toList] := by
    cases δ <;> rfl
  have hj : (Sql.run δ .idle "DELETE FROM ".toList).2 = .idle := by cases δ <;> rfl
  have hlex := lexPart_append_some hk (lexPart_qident q.bt ht) (Or.inl hj)
  have hpl : Sql.Plain ([Tok.word "DELETE".toList, .word "FROM".toList] ++
      [.quoted (quoteOf q.bt) q.model.table]) := by
    intro k
    simp
  have hr := readStmt_append_whereText hlex (Sql.fill_plain hpl vs 0)
    (fun c => Sql.parse_delete (quoteOf_ne q.bt) q.model.table c) q 0
  rw [Sql.marks_plain hpl] at hr
  exact hr

end Corm
