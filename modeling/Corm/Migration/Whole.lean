import Corm.Migration.Parts
import Corm.Sql.Columns

/-!
# Statements that are whole

The defaults and the references of a model are the caller's texts. One that goes on behind its column,
with a comma, a semicolon or a parenthesis, makes another statement of what a migration sends.

* `Part.Plain`, `Column.Plain`: texts of the caller that stay in their definitions;
* `plain_type`, `plain_autoinc`: the types that are declared;
* `lexPart_cons`: parts one after the other;
* `read_createTable_toks`, `read_addColumn_toks`, `read_createIndex_toks`: the tokens of the
  statements;
* **`request_whole`**: with plain texts, each statement of a migration is whole.
-/

namespace Corm

open Sql (Tok lexPart Closed isBreak isFlat quotedName)

variable {δ : Sql.Dialect} {bt : BackendType} {m : TableModel} {c : Column}

/-! ## Plain texts -/

/-- A part that is read on its own, and ends no definition. -/
def Part.Plain (δ : Sql.Dialect) (bt : BackendType) (p : Part) : Prop :=
  ∃ ts, lexPart δ (p.text bt) = some ts ∧ Closed isBreak ts

/-- The default and the reference of the column are read on their own. -/
def Column.Plain (δ : Sql.Dialect) (bt : BackendType) (c : Column) : Prop :=
  ∀ p ∈ constraintParts c ++ referenceParts c, p.Plain δ bt

theorem exists_closed {text : Text}
    (h : (lexPart δ text).any (fun ts => decide (Closed isBreak ts)) = true) :
    ∃ ts, lexPart δ text = some ts ∧ Closed isBreak ts := by
  obtain ⟨ts, hts, hclosed⟩ := (Option.any_eq_true _ _).mp h
  exact ⟨ts, hts, of_decide_eq_true hclosed⟩

theorem plain_autoIncrement : Part.autoIncrement.Plain δ bt :=
  exists_closed (by cases bt <;> cases δ <;> rfl)

theorem plain_primaryKey : Part.primaryKey.Plain δ bt :=
  exists_closed (by cases bt <;> cases δ <;> rfl)

theorem plain_autoinc : Part.autoinc.Plain δ bt :=
  exists_closed (by cases bt <;> cases δ <;> rfl)

/-- The tokens of a string with a length. -/
def varcharToks (size : ℕ) : List Tok :=
  [.word "VARCHAR".toList, .sym '(', .word (Nat.toDigits 10 (varcharSize size)), .sym ')']

theorem lexPart_varchar (size : ℕ) :
    lexPart δ (" ".toList ++ varchar size) = some (varcharToks size) := by
  have hhead : lexPart δ " VARCHAR(".toList = some [.word "VARCHAR".toList, .sym '('] := by
    cases δ <;> rfl
  have hidle : (Sql.run δ .idle " VARCHAR(".toList).2 = .idle := by cases δ <;> rfl
  have hclose : lexPart δ ")".toList = some [.sym ')'] := by cases δ <;> rfl
  have hall := Sql.lexPart_append_some
    (Sql.lexPart_append_some hhead (lexPart_int (varcharSize size)) (Or.inl hidle)) hclose
    (Or.inr ⟨')', [], rfl, rfl⟩)
  exact hall

theorem dialectTypeNameStr_cases (bt : BackendType) (t : FieldType) (size : ℕ) :
    dialectTypeNameStr bt t size = varchar size ∨
      dialectTypeNameStr bt t size = dialectTypeNameStr bt t 0 := by
  cases t with
  | string =>
    cases bt with
    | sqlite => exact Or.inr rfl
    | mysql | postgres => exact Or.inl rfl
  | _ => exact Or.inr (by cases bt <;> rfl)

/-- **The types that are declared** are read on their own. -/
theorem plain_type (bt bt' : BackendType) (t : FieldType) (size : ℕ) :
    (Part.type (dialectTypeNameStr bt t size)).Plain δ bt' := by
  rw [Part.Plain, Part.text_type]
  rcases dialectTypeNameStr_cases bt t size with h | h <;> rw [h]
  · exact ⟨_, lexPart_varchar size, rfl⟩
  · exact exists_closed (by cases δ <;> cases bt <;> cases t <;> rfl)

theorem text_blank (bt : BackendType) (p : Part) : ∃ s, p.text bt = ' ' :: s := by
  cases p <;> exact ⟨_, rfl⟩

theorem joins_parts (bt : BackendType) (text : Text) (p : Part) (parts : List Part) :
    Sql.Joins δ text ((p :: parts).flatMap (Part.text bt)) := by
  obtain ⟨s, hs⟩ := text_blank bt p
  rw [List.flatMap_cons, hs]
  exact joins_blank _ _

theorem lexPart_cons {p : Part} {parts : List Part} {ts : List Tok}
    (hp : lexPart δ (p.text bt) = some ts) (h : ∀ q ∈ parts, q.Plain δ bt) :
    ∃ us, lexPart δ ((p :: parts).flatMap (Part.text bt)) = some (ts ++ us) ∧
      Closed isBreak us := by
  induction parts generalizing p ts with
  | nil =>
    rw [List.flatMap_singleton]
    exact ⟨[], by rw [hp, List.append_nil], rfl⟩
  | cons q parts ih =>
    obtain ⟨⟨qs, hqs, hclosed⟩, hrest⟩ := List.forall_mem_cons.mp h
    obtain ⟨us, hus, hclosed'⟩ := ih hqs hrest
    rw [List.flatMap_cons]
    exact ⟨qs ++ us, Sql.lexPart_append_some hp hus (joins_parts bt _ q parts),
      hclosed.append hclosed'⟩

theorem createdParts_declared (hc : c.Plain δ bt) (pkCount : ℕ) : ∃ p parts,
    createdParts bt c pkCount = p :: parts ∧ p.text bt = " ".toList ++ declared bt c.field ∧
      p.Plain δ bt ∧ ∀ q ∈ parts, q.Plain δ bt := by
  unfold createdParts declared
  by_cases hauto : (c.field.isAutoinc && bt != .mysql) = true
  · rw [if_pos hauto, if_pos hauto]
    exact ⟨.autoinc, [], rfl, Part.text_autoinc bt, plain_autoinc, nofun⟩
  · rw [if_neg hauto, if_neg hauto]
    have hautos : ∀ q ∈ (if c.field.isAutoinc then [Part.autoIncrement] else []), q.Plain δ bt := by
      split_ifs
      · exact List.forall_mem_singleton.mpr plain_autoIncrement
      · nofun
    have hkeys : ∀ q ∈ (if c.field.isPrimary && pkCount == 1 then [Part.primaryKey] else []),
        q.Plain δ bt := by
      split_ifs
      · exact List.forall_mem_singleton.mpr plain_primaryKey
      · nofun
    refine ⟨.type (typeText bt c), (if c.field.isAutoinc then [.autoIncrement] else []) ++
      constraintParts c ++ (if c.field.isPrimary && pkCount == 1 then [.primaryKey] else []) ++
      referenceParts c, by simp only [List.append_assoc, List.cons_append, List.nil_append],
      Part.text_type bt _, plain_type bt bt _ _, ?_⟩
    simp only [List.forall_mem_append]
    exact ⟨⟨⟨hautos, fun q hq => hc q (List.mem_append_left _ hq)⟩, hkeys⟩,
      fun q hq => hc q (List.mem_append_right _ hq)⟩

/-! ## Definitions -/

/-- The tokens of a definition. -/
def defToks (δ : Sql.Dialect) (bt : BackendType) (d : Definition) : List Tok :=
  (lexPart δ (d.text bt)).getD []

theorem lexPart_createdColumn (m : TableModel) (hname : Ident c.nm) (hc : c.Plain δ bt) :
    ∃ ts us, lexPart δ (" ".toList ++ declared bt c.field) = some ts ∧
      lexPart δ ((createdColumn bt m c).text bt) =
        some (.quoted (quoteOf bt) c.nm :: (ts ++ us)) ∧
      Closed isBreak (.quoted (quoteOf bt) c.nm :: (ts ++ us)) := by
  obtain ⟨p, parts, hparts, hp, ⟨ts, hts, hclosed⟩, hplain⟩ :=
    createdParts_declared hc m.primaries.length
  obtain ⟨us, hus, hclosed'⟩ := lexPart_cons hts hplain
  refine ⟨ts, us, hp ▸ hts, ?_, ?_⟩
  · rw [createdColumn, Definition.text_column, hparts]
    exact Sql.lexPart_append_some (lexPart_qident bt hname) hus (joins_parts bt _ p parts)
  · have hquoted : Closed isBreak [.quoted (quoteOf bt) c.nm] := rfl
    exact hquoted.append (hclosed.append hclosed')

theorem lexPart_primaryKey (bt : BackendType) {names : List Text} (h : ∀ n ∈ names, Ident n) :
    ∃ ts, lexPart δ ((Definition.primaryKey names).text bt) = some ts ∧ Closed isBreak ts ∧
      quotedName ts = none := by
  have hhead : lexPart δ "PRIMARY KEY (".toList =
      some [.word "PRIMARY".toList, .word "KEY".toList, .sym '('] := by cases δ <;> rfl
  have hidle : (Sql.run δ .idle "PRIMARY KEY (".toList).2 = .idle := by cases δ <;> rfl
  have hclose : lexPart δ ")".toList = some [.sym ')'] := by cases δ <;> rfl
  have hnames : lexPart δ (commaSep (names.map (qident bt))) =
      some (commaToks (names.map fun n => [.quoted (quoteOf bt) n])) :=
    lexPart_commaSep _ _ _ fun n hn => lexPart_qident bt (h n hn)
  have hall := Sql.lexPart_append_some (Sql.lexPart_append_some hhead hnames (Or.inl hidle)) hclose
    (Or.inr ⟨')', [], rfl, rfl⟩)
  refine ⟨_, hall, ?_, rfl⟩
  have hflat : ∀ t ∈ commaToks (names.map fun n => [Tok.quoted (quoteOf bt) n]),
      isFlat t = true := by
    intro t ht
    rcases mem_commaToks ht with rfl | ⟨ts, hts, ht⟩
    · rfl
    · obtain ⟨n, -, rfl⟩ := List.mem_map.mp hts
      obtain rfl := List.mem_singleton.mp ht
      rfl
  have hwords : Closed isBreak [.word "PRIMARY".toList, .word "KEY".toList] := by rfl
  have hparens : Closed isBreak (.sym '(' ::
      commaToks (names.map fun n => [.quoted (quoteOf bt) n]) ++ [Tok.sym ')']) :=
    Closed.parens hflat rfl
  simpa only [List.append_assoc, List.cons_append, List.nil_append] using hwords.append hparens

theorem ident_primaries (hm : Validated m.model) : ∀ n ∈ m.primaries.map Column.nm, Ident n := by
  intro n hn
  obtain ⟨c, hc, rfl⟩ := List.mem_map.mp hn
  exact ident_column hm (List.mem_of_mem_filter hc)

theorem lexPart_definition (hm : Validated m.model) (hplain : ∀ c ∈ m.columns, c.Plain δ bt)
    {d : Definition} (hd : d ∈ definitions bt m) :
    lexPart δ (d.text bt) = some (defToks δ bt d) ∧ Closed isBreak (defToks δ bt d) := by
  have hlexed : ∃ ts, lexPart δ (d.text bt) = some ts ∧ Closed isBreak ts := by
    rcases List.mem_append.mp hd with hd | hd
    · obtain ⟨c, hc, rfl⟩ := List.mem_map.mp hd
      obtain ⟨ts, us, -, hts, hclosed⟩ :=
        lexPart_createdColumn m (ident_column hm hc) (hplain c hc)
      exact ⟨_, hts, hclosed⟩
    · split_ifs at hd
      · obtain rfl := List.mem_singleton.mp hd
        obtain ⟨ts, hts, hclosed, -⟩ := lexPart_primaryKey bt (ident_primaries hm)
        exact ⟨ts, hts, hclosed⟩
      · cases hd
  obtain ⟨ts, hts, hclosed⟩ := hlexed
  rw [defToks, hts]
  exact ⟨rfl, hclosed⟩

/-! ## Statements -/

theorem read_createTable_toks (hm : Validated m.model) (hplain : ∀ c ∈ m.columns, c.Plain δ bt) :
    Sql.readDdl δ (createTableText bt m) = some (.createTable m.table
      (.sym '(' :: (commaToks ((definitions bt m).map (defToks δ bt)) ++ [Tok.sym ')']))) := by
  have hk : lexPart δ ("CREATE TABLE ".toList ++ dialectIfNotExists bt ++ " ".toList) =
      some [.word "CREATE".toList, .word "TABLE".toList, .word "IF".toList, .word "NOT".toList,
        .word "EXISTS".toList] := by
    cases bt <;> cases δ <;> rfl
  have hi : (Sql.run δ .idle
      ("CREATE TABLE ".toList ++ dialectIfNotExists bt ++ " ".toList)).2 = .idle := by
    cases bt <;> cases δ <;> rfl
  have hhead := Sql.lexPart_append_some hk (lexPart_qident bt hm.table) (Or.inl hi)
  have hbody := lexPart_commaSep (Definition.text bt) (defToks δ bt) (definitions bt m)
    fun d hd => (lexPart_definition hm hplain hd).1
  have hopen : lexPart δ " (".toList = some [.sym '('] := by cases δ <;> rfl
  have hidle : (Sql.run δ .idle " (".toList).2 = .idle := by cases δ <;> rfl
  have hclose : lexPart δ ")".toList = some [.sym ')'] := by cases δ <;> rfl
  have hrest := Sql.lexPart_append_some (Sql.lexPart_append_some hopen hbody (Or.inl hidle)) hclose
    (Or.inr ⟨')', [], rfl, rfl⟩)
  have hjoin : Sql.Joins δ ("CREATE TABLE ".toList ++ dialectIfNotExists bt ++ " ".toList ++
      qident bt m.table) (" (".toList ++ commaSep ((definitions bt m).map (Definition.text bt)) ++
      ")".toList) := joins_blank _ _
  have hddl := readDdl_append (d := Sql.Ddl.createTable m.table) hhead hjoin
    fun us => by cases bt <;> rfl
  rw [createTableText_eq, hddl, Sql.lex_of_part hrest]
  rfl

/-- What is read of the `;` at the end of an ALTER TABLE: SQLite does not go beyond it. -/
def endToks : Sql.Dialect → List Tok
  | .sqlite => []
  | .mysql | .postgres => [.sym ';']

theorem read_addColumn_toks (hm : Validated m.model) (hc : c ∈ m.columns)
    (hplain : c.Plain δ bt) : ∃ ts us,
    lexPart δ (" ".toList ++ typeText bt c) = some ts ∧ Closed isBreak (ts ++ us) ∧
      Sql.readDdl δ (addColumnText bt m c) =
        some (.addColumn m.table c.nm (ts ++ us ++ endToks δ)) := by
  have htype : (Part.type (typeText bt c)).Plain δ bt := plain_type bt bt _ _
  obtain ⟨ts, hts, hclosed⟩ := htype
  have hconstraints : ∀ q ∈ constraintParts c, q.Plain δ bt :=
    fun q hq => hplain q (List.mem_append_left _ hq)
  obtain ⟨us, hus, hclosed'⟩ := lexPart_cons hts hconstraints
  have hsemi : Sql.lex δ ";".toList = some (endToks δ) := by cases δ <;> rfl
  have hrest := Sql.lex_append_some hus hsemi (Or.inr ⟨';', [], rfl, rfl⟩)
  have hk : lexPart δ "ALTER TABLE ".toList = some [.word "ALTER".toList, .word "TABLE".toList] := by
    cases δ <;> rfl
  have hi : (Sql.run δ .idle "ALTER TABLE ".toList).2 = .idle := by cases δ <;> rfl
  have ha : lexPart δ " ADD COLUMN ".toList = some [.word "ADD".toList, .word "COLUMN".toList] := by
    cases δ <;> rfl
  have hj : (Sql.run δ .idle " ADD COLUMN ".toList).2 = .idle := by cases δ <;> rfl
  have htable := Sql.lexPart_append_some hk (lexPart_qident bt hm.table) (Or.inl hi)
  have hcolumn := Sql.lexPart_append_some ha (lexPart_qident bt (ident_column hm hc)) (Or.inl hj)
  have hhead := Sql.lexPart_append_some htable hcolumn (joins_blank _ _)
  have htext : addColumnText bt m c = "ALTER TABLE ".toList ++ qident bt m.table ++
      (" ADD COLUMN ".toList ++ qident bt c.nm) ++
      ((Part.type (typeText bt c) :: constraintParts c).flatMap (Part.text bt) ++ ";".toList) := by
    rw [addColumnText_eq, alteredColumn, Definition.text_column]
    simp only [List.append_assoc]
    rfl
  have hjoin : Sql.Joins δ ("ALTER TABLE ".toList ++ qident bt m.table ++
      (" ADD COLUMN ".toList ++ qident bt c.nm))
      ((Part.type (typeText bt c) :: constraintParts c).flatMap (Part.text bt) ++ ";".toList) := by
    obtain ⟨s, hs⟩ := text_blank bt (Part.type (typeText bt c))
    rw [List.flatMap_cons, hs]
    exact joins_blank _ _
  have hddl := readDdl_append (d := Sql.Ddl.addColumn m.table c.nm) hhead hjoin
    fun us => by cases bt <;> rfl
  rw [hrest] at hddl
  exact ⟨ts, us, hts, hclosed.append hclosed', by rw [htext]; exact hddl⟩

/-- The tokens of an index on a column, after its name. -/
def indexToks (bt : BackendType) (table column : Text) : List Tok :=
  [.word "ON".toList, .quoted (quoteOf bt) table, .sym '(', .quoted (quoteOf bt) column, .sym ')']

/-- **The CREATE INDEX of a field** is on its column. -/
theorem read_createIndex_toks (bt : BackendType) (ht : Ident m.table) (hc : Ident c.nm) :
    Sql.readDdl δ (createIndexText bt m c) =
      some (.createIndex (indexName m c) (indexToks bt m.table c.nm)) := by
  have hon : lexPart δ " ON ".toList = some [.word "ON".toList] := by cases δ <;> rfl
  have hopen : lexPart δ "(".toList = some [.sym '('] := by cases δ <;> rfl
  have hclose : lexPart δ ")".toList = some [.sym ')'] := by cases δ <;> rfl
  have hoi : (Sql.run δ .idle " ON ".toList).2 = .idle := by cases δ <;> rfl
  have hpi : (Sql.run δ .idle "(".toList).2 = .idle := by cases δ <;> rfl
  have hcol := Sql.lexPart_append_some hopen (Sql.lexPart_append_some (lexPart_qident bt hc) hclose
    (Or.inr ⟨')', [], rfl, rfl⟩)) (Or.inl hpi)
  have htable := Sql.lexPart_append_some hon (Sql.lexPart_append_some (lexPart_qident bt ht) hcol
    (Or.inr ⟨'(', _, rfl, rfl⟩)) (Or.inl hoi)
  rw [readDdl_createIndex ht hc]
  simp only [List.append_assoc]
  rw [Sql.lex_of_part htable]
  rfl

/-! ## Whole statements -/

theorem closed_commaToks {stop : Tok → Bool} (hcomma : stop (.sym ',') = false)
    {tss : List (List Tok)} (h : ∀ ts ∈ tss, Closed stop ts) : Closed stop (commaToks tss) := by
  induction tss with
  | nil => rfl
  | cons ts tss ih =>
    obtain ⟨hts, htss⟩ := List.forall_mem_cons.mp h
    cases tss with
    | nil => exact hts
    | cons us tss =>
      have hsep : Closed stop [.sym ','] := by
        rw [Closed, Sql.upTo_cons fun hstop => by rw [hcomma] at hstop; cases hstop.2]
        rfl
      exact hts.append (hsep.append (ih htss))

/-- The models and the fields that a request is about. -/
def DdlRequest.About (ms : List TableModel) : DdlRequest → Prop
  | .createTable m => m ∈ ms
  | .addColumn m c | .createIndex m c => m ∈ ms ∧ c ∈ m.columns

/-- **With plain texts every statement is whole.** -/
theorem request_whole {ms : List TableModel} (hv : ∀ m ∈ ms, Validated m.model)
    (hplain : ∀ m ∈ ms, ∀ c ∈ m.columns, c.Plain δ bt) {r : DdlRequest} (hr : r.About ms) :
    ∃ d, Sql.readDdl δ (r.text bt) = some d ∧ d.Whole := by
  cases r with
  | createTable m =>
    refine ⟨_, read_createTable_toks (hv m hr) (hplain m hr), _, rfl, ?_⟩
    refine closed_commaToks rfl fun ts hts => ?_
    obtain ⟨d, hd, rfl⟩ := List.mem_map.mp hts
    exact (lexPart_definition (hv m hr) (hplain m hr) hd).2.mono Sql.isBreak_semicolon
  | addColumn m c =>
    obtain ⟨ts, us, -, hclosed, hread⟩ :=
      read_addColumn_toks (hv m hr.1) hr.2 (hplain m hr.1 c hr.2)
    cases δ with
    | sqlite => exact ⟨_, hread, _, Or.inl (List.append_nil _), hclosed⟩
    | mysql | postgres => exact ⟨_, hread, _, Or.inr rfl, hclosed⟩
  | createIndex m c =>
    have hvalid := hv m hr.1
    refine ⟨_, read_createIndex_toks bt hvalid.table (ident_column hvalid hr.2), ?_⟩
    have hwords : Closed Sql.isSemicolon
        [.word "ON".toList, .quoted (quoteOf bt) m.table] := rfl
    have hcolumn : ∀ t ∈ [Tok.quoted (quoteOf bt) c.nm], Sql.isFlat t = true :=
      List.forall_mem_singleton.mpr rfl
    exact hwords.append (Closed.parens hcolumn rfl)

end Corm
