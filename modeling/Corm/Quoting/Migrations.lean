import Corm.Migration.Complete
import Corm.Migration.Parts
import Corm.Quoting.Statements

/-!
# Names in the statements of a migration

The defaults and the references of a model are the caller's text.

* `ddlSpans`: what is sent with `corm_exec`; **`text_ddlSpans`**, **`quoted_ddlSpans`**;
* `describeText`: what `describe_table` sends, by the backend;
* `describeSpans`, **`quoted_describeSpans`**: SQLite's has a name without quotes;
* `SendsOn`, `migrateModels_sendsOn`: the record of a migration grows by requests about its models;
* **`quoted_autoMigrate`**: when all that a migration sends has its names quoted.
-/

namespace Corm

open Spans (Span)

section Spans

variable (bt : BackendType) (m : TableModel) (c : Column)

/-- A part of a column. -/
def partSpans : Part → Written
  | .default value => [.own " DEFAULT ".toList, .given value]
  | .references t column =>
    [.own " REFERENCES ".toList, .given t, .own "(".toList, .given column, .own ")".toList]
  | part => [.own (part.text bt)]

/-- What stands between commas in a CREATE TABLE. -/
def definitionSpans : Definition → Written
  | .column n parts => qidentSpan bt n :: parts.flatMap (partSpans bt)
  | .primaryKey ns =>
    .own "PRIMARY KEY (".toList :: commaSpans (ns.map fun n => [qidentSpan bt n]) ++
      [.own ")".toList]

/-- What a migration sends with `corm_exec`. The name of an index is one name, which is made of those
of the table and of the field. -/
def ddlSpans : DdlRequest → Written
  | .createTable m =>
    [.own ("CREATE TABLE ".toList ++ dialectIfNotExists bt ++ " ".toList), qidentSpan bt m.table,
      .own " (".toList] ++ commaSpans ((definitions bt m).map (definitionSpans bt)) ++
      [.own ")".toList]
  | .addColumn m c =>
    [Span.own "ALTER TABLE ".toList, qidentSpan bt m.table, .own " ADD COLUMN ".toList] ++
      definitionSpans bt (alteredColumn bt c) ++ [Span.own ";".toList]
  | .createIndex m c =>
    [.own "CREATE INDEX IF NOT EXISTS ".toList, qidentSpan bt (indexName m c), .own " ON ".toList,
      qidentSpan bt m.table, .own "(".toList, qidentSpan bt c.nm, .own ")".toList]

end Spans

variable {bt : BackendType} {m : TableModel} {c : Column}

theorem text_partSpans (bt : BackendType) (part : Part) :
    Spans.text (partSpans bt part) = part.text bt := by
  cases part with
  | default value => exact congrArg _ (List.append_nil value)
  | references t column =>
    rw [Part.text_references]
    simp only [partSpans, Spans.text_cons, Spans.text_nil, text_own, text_given, List.append_assoc,
      List.append_nil]
  | _ => exact List.append_nil _

theorem text_names (bt : BackendType) (ns : List Text) :
    Spans.text (commaSpans (ns.map fun n => [qidentSpan bt n])) = commaSep (ns.map (qident bt)) := by
  rw [text_commaSpans, List.map_map]
  refine congrArg commaSep (List.map_congr_left fun n _ => ?_)
  exact List.append_nil _

theorem text_definitionSpans (bt : BackendType) (d : Definition) :
    Spans.text (definitionSpans bt d) = d.text bt := by
  cases d with
  | column n parts =>
    have hparts : Spans.text (parts.flatMap (partSpans bt)) = parts.flatMap (Part.text bt) := by
      rw [Spans.text, List.flatMap_assoc]
      exact List.flatMap_congr fun part _ => text_partSpans bt part
    rw [definitionSpans, Spans.text_cons, hparts, Definition.text_column, text_qidentSpan]
  | primaryKey ns =>
    rw [definitionSpans, Spans.text_append, Spans.text_cons, text_names, Definition.text_primaryKey,
      text_own, Spans.text_cons, text_own, Spans.text_nil, List.append_nil]

/-- **A request of a migration** is what its spans make. -/
theorem text_ddlSpans (bt : BackendType) (r : DdlRequest) :
    Spans.text (ddlSpans bt r) = r.text bt := by
  cases r with
  | createTable m =>
    have hdefs : ((definitions bt m).map (definitionSpans bt)).map Spans.text =
        (definitions bt m).map (Definition.text bt) := by
      rw [List.map_map]
      exact List.map_congr_left fun d _ => text_definitionSpans bt d
    refine Eq.trans ?_ (createTableText_eq bt m).symm
    simp only [ddlSpans, Spans.text_append, Spans.text_cons, Spans.text_nil, text_own,
      text_qidentSpan, text_commaSpans, hdefs, List.append_assoc, List.append_nil]
  | addColumn m c =>
    refine Eq.trans ?_ (addColumnText_eq bt m c).symm
    simp only [ddlSpans, Spans.text_append, Spans.text_cons, Spans.text_nil, text_own,
      text_qidentSpan, text_definitionSpans, List.append_assoc, List.append_nil]
  | createIndex m c =>
    show _ = createIndexText bt m c
    unfold createIndexText
    simp only [ddlSpans, Spans.text_cons, Spans.text_nil, text_own, text_qidentSpan,
      List.append_assoc, List.append_nil]

theorem quoted_partSpans (bt : BackendType) (part : Part) : Quoted bt (partSpans bt part) := by
  cases part <;> simp [partSpans]

theorem quoted_definitionSpans (bt : BackendType) (d : Definition) :
    Quoted bt (definitionSpans bt d) := by
  cases d with
  | column n parts =>
    refine quoted_qidentSpan.mpr (Spans.delimited_flatMap.mpr fun part _ => ?_)
    exact quoted_partSpans bt part
  | primaryKey ns =>
    rw [definitionSpans, quoted_append, quoted_own]
    exact ⟨quoted_names bt ns, quoted_own.mpr quoted_nil⟩

/-- **What a migration sends with `corm_exec`** has its names quoted. -/
theorem quoted_ddlSpans (bt : BackendType) (r : DdlRequest) : Quoted bt (ddlSpans bt r) := by
  cases r with
  | createTable m =>
    have hdefs : Quoted bt (commaSpans ((definitions bt m).map (definitionSpans bt))) :=
      quoted_commaSpans fun l hl => by
        obtain ⟨d, -, rfl⟩ := List.mem_map.mp hl
        exact quoted_definitionSpans bt d
    simp only [ddlSpans, quoted_append, quoted_own, quoted_qidentSpan, quoted_nil, hdefs, and_true]
  | addColumn m c =>
    simp only [ddlSpans, quoted_append, quoted_own, quoted_qidentSpan, quoted_nil,
      quoted_definitionSpans, and_true]
  | createIndex m c =>
    simp only [ddlSpans, quoted_own, quoted_qidentSpan, quoted_nil]

/-! ## Describing a table -/

/-- `sqlite3_mprintf("%w", t)`: double quotes are doubled. -/
def mprintfW (t : Text) : Text := t.flatMap fun c => if c = '"' then ['"', '"'] else [c]

/-- `mysql_real_escape_string`. -/
def mysqlRealEscapeString (t : Text) : Text :=
  t.flatMap fun c =>
    if c = nul then ['\\', '0'] else if c = '\n' then ['\\', 'n']
    else if c = '\r' then ['\\', 'r'] else if c = Char.ofNat 26 then ['\\', 'Z']
    else if c = '\\' ∨ c = Char.ofNat 39 ∨ c = '"' then ['\\', c] else [c]

/-- The statement of `pg_describe_table`; the name of the table is its parameter. -/
def pgDescribeText : Text :=
  ("SELECT c.column_name, c.data_type, c.is_nullable," ++
    "  CASE WHEN pk.col IS NOT NULL THEN 1 ELSE 0 END," ++
    "  c.column_default " ++
    "FROM information_schema.columns c " ++
    "LEFT JOIN (" ++
    "  SELECT ku.column_name AS col" ++
    "  FROM information_schema.table_constraints tc" ++
    "  JOIN information_schema.key_column_usage ku" ++
    "    ON tc.constraint_name = ku.constraint_name" ++
    "  WHERE tc.table_name = $1" ++
    "    AND tc.constraint_type = 'PRIMARY KEY'" ++
    ") pk ON c.column_name = pk.col " ++
    "WHERE c.table_name = $1 " ++
    "ORDER BY c.ordinal_position").toList

/-- What `describe_table` sends, written into an array of 512 characters. -/
def describeText (bt : BackendType) (table : Text) : Text :=
  match bt with
  | .sqlite => snprintf 512 ("PRAGMA table_info(".toList ++ mprintfW table ++ ")".toList)
  | .mysql =>
    snprintf 512 ("SHOW COLUMNS FROM ".toList ++ dialectQuote .mysql ++
      mysqlRealEscapeString table ++ dialectQuote .mysql)
  | .postgres => pgDescribeText

/-- Its spans; a long name is cut. -/
def describeSpans (bt : BackendType) (table : Text) : Written :=
  match bt with
  | .sqlite =>
    [.own "PRAGMA table_info(".toList, bareSpan (table.take 493),
      .own (")".toList.take (493 - table.length))]
  | .mysql => [.own "SHOW COLUMNS FROM ".toList, qidentSpan .mysql table]
  | .postgres => [.own pgDescribeText]

theorem describeText_postgres (table : Text) : describeText .postgres table = pgDescribeText := rfl

theorem describeSpans_postgres (table : Text) :
    describeSpans .postgres table = [.own pgDescribeText] := rfl

theorem mprintfW_ident {t : Text} (ht : Ident t) : mprintfW t = t := by
  have hone : ∀ c ∈ t, (if c = '"' then ['"', '"'] else [c]) = [c] := fun c hc =>
    if_neg fun h => ht.notMem rfl (h ▸ hc)
  rw [mprintfW, List.flatMap_congr hone, List.flatMap_singleton']

theorem mysqlRealEscapeString_ident {t : Text} (ht : Ident t) : mysqlRealEscapeString t = t := by
  have hne (c d : Char) (hc : c ∈ t) (hd : isIdentChar d = false) : c ≠ d :=
    fun h => ht.notMem hd (h ▸ hc)
  rw [mysqlRealEscapeString]
  refine (List.flatMap_congr fun c hc => ?_).trans (List.flatMap_singleton' t)
  rw [if_neg (hne c _ hc rfl), if_neg (hne c _ hc rfl), if_neg (hne c _ hc rfl),
    if_neg (hne c _ hc rfl), if_neg]
  rintro (h | h | h)
  all_goals exact hne c _ hc rfl h

/-- **What `describe_table` sends** is what its spans make, with a name that MySQL allows. -/
theorem text_describeSpans {table : Text} (ht : Ident table)
    (hlen : bt = .mysql → table.length ≤ 64) :
    Spans.text (describeSpans bt table) = describeText bt table := by
  cases bt with
  | postgres =>
    rw [describeSpans_postgres, describeText_postgres, Spans.text_cons, text_own, Spans.text_nil,
      List.append_nil]
  | mysql =>
    have hlen := hlen rfl
    have hq : (dialectQuote .mysql).length = 1 := rfl
    have hs : "SHOW COLUMNS FROM ".toList.length = 18 := by decide +kernel
    show _ = snprintf 512 ("SHOW COLUMNS FROM ".toList ++ dialectQuote .mysql ++
      mysqlRealEscapeString table ++ dialectQuote .mysql)
    rw [mysqlRealEscapeString_ident ht, snprintf, List.take_of_length_le]
    · simp only [describeSpans, Spans.text_cons, Spans.text_nil, text_own, text_qidentSpan, qident,
        List.append_assoc, List.append_nil]
    · simp only [List.length_append, hq, hs]
      omega
  | sqlite =>
    have hs : "PRAGMA table_info(".toList.length = 18 := by decide +kernel
    show _ = snprintf 512 ("PRAGMA table_info(".toList ++ mprintfW table ++ ")".toList)
    rw [mprintfW_ident ht, snprintf, List.take_append, List.take_append,
      List.take_of_length_le (by rw [hs]; omega), List.length_append, hs]
    simp only [describeSpans, Spans.text_cons, Spans.text_nil, text_own, text_bareSpan,
      List.append_nil, List.append_assoc]
    congr 3
    omega

theorem quoted_describeSpans (bt : BackendType) (table : Text) :
    Quoted bt (describeSpans bt table) ↔ bt ≠ .sqlite := by
  cases bt with
  | postgres => simp only [describeSpans, quoted_own, quoted_nil, ne_eq, reduceCtorEq, not_false_eq_true]
  | mysql =>
    simp only [describeSpans, quoted_own, quoted_qidentSpan, quoted_nil, ne_eq, reduceCtorEq,
      not_false_eq_true]
  | sqlite => simp only [describeSpans, quoted_own, quoted_bareSpan, ne_eq, not_true_eq_false]

/-! ## What a migration sends -/

/-- The model of a request. -/
def DdlRequest.model : DdlRequest → TableModel
  | .createTable m => m
  | .addColumn m _ => m
  | .createIndex m _ => m

/-- The texts that are sent for a request: after a CREATE TABLE that succeeds the table is
described. -/
def sentTexts (bt : BackendType) (e : Sql.Sent DdlRequest) : List Text :=
  e.request.text bt :: match e.request with
    | .createTable m => if e.ok then [describeText bt m.table] else []
    | _ => []

/-- The spans of these texts. -/
def sentSpans (bt : BackendType) (e : Sql.Sent DdlRequest) : List Written :=
  ddlSpans bt e.request :: match e.request with
    | .createTable m => if e.ok then [describeSpans bt m.table] else []
    | _ => []

section Sending

variable {D : MigrationDb} {ms : List TableModel} {st st' st'' : Migration}

/-- The record grew by requests about these models, each with what became of it. -/
def SendsOn (D : MigrationDb) (bt : BackendType) (ms : List TableModel) (st st' : Migration) : Prop :=
  ∃ es, st'.sent = st.sent ++ es ∧
    ∀ e ∈ es, e.request.model ∈ ms ∧ e.ok = (D.run e.before (e.request.text bt)).isSome

theorem SendsOn.refl (st : Migration) : SendsOn D bt ms st st :=
  ⟨[], (List.append_nil _).symm, List.forall_mem_nil _⟩

theorem SendsOn.trans (h : SendsOn D bt ms st st') (h' : SendsOn D bt ms st' st'') :
    SendsOn D bt ms st st'' := by
  obtain ⟨es, hes, hall⟩ := h
  obtain ⟨es', hes', hall'⟩ := h'
  exact ⟨es ++ es', by rw [hes', hes, List.append_assoc], List.forall_mem_append.mpr ⟨hall, hall'⟩⟩

theorem cormExec_sendsOn (st : Migration) {r : DdlRequest} (hr : r.model ∈ ms) :
    SendsOn D bt ms st (cormExec D bt st r).2 :=
  ⟨_, cormExec_sent st r, List.forall_mem_singleton.mpr ⟨hr, rfl⟩⟩

theorem addColumns_sendsOn (hm : m ∈ ms) (existing : Option (List Text)) (st : Migration)
    (cs : List Column) : SendsOn D bt ms st (addColumns D bt m existing st cs) := by
  induction cs generalizing st with
  | nil => exact .refl st
  | cons c cs ih =>
    unfold addColumns
    split_ifs
    · exact ih st
    · exact ih st
    · exact (cormExec_sendsOn st hm).trans (ih _)

theorem createIndexes_sendsOn (hm : m ∈ ms) (st : Migration) (cs : List Column) :
    SendsOn D bt ms st (createIndexes D bt m st cs) := by
  induction cs generalizing st with
  | nil => exact .refl st
  | cons c cs ih =>
    unfold createIndexes
    split_ifs
    · exact (cormExec_sendsOn st hm).trans (ih _)
    · exact ih st

theorem migrateModel_sendsOn (hm : m ∈ ms) (st : Migration) :
    SendsOn D bt ms (cormExec D bt st (.createTable m)).2 (migrateModel D bt st m).2 := by
  unfold migrateModel
  rcases cormExec D bt st (.createTable m) with ⟨err, st₁⟩
  cases err with
  | ok => exact (addColumns_sendsOn hm _ st₁ m.columns).trans (createIndexes_sendsOn hm _ m.columns)
  | _ => exact .refl st₁

theorem migrateModels_cons_sendsOn {ms' : List TableModel}
    (hrest : ∀ st, SendsOn D bt ms st (migrateModels D bt st ms').2) (hm : m ∈ ms)
    (st : Migration) :
    SendsOn D bt ms (cormExec D bt st (.createTable m)).2 (migrateModels D bt st (m :: ms')).2 := by
  have hone : SendsOn D bt ms (cormExec D bt st (.createTable m)).2 (migrateModel D bt st m).2 :=
    migrateModel_sendsOn hm st
  rcases h : migrateModel D bt st m with ⟨err, st₁⟩
  rw [h] at hone
  by_cases herr : err = .ok
  · subst herr
    rw [migrateModels_ok D bt h]
    exact hone.trans (hrest st₁)
  · rw [migrateModels_err D bt h herr]
    exact hone

/-- **What a migration sends** is about its models. -/
theorem migrateModels_sendsOn {ms' : List TableModel} (hms : ms' ⊆ ms) (st : Migration) :
    SendsOn D bt ms st (migrateModels D bt st ms').2 := by
  induction ms' generalizing st with
  | nil => exact .refl st
  | cons m ms' ih =>
    have hm : m ∈ ms := hms List.mem_cons_self
    exact (cormExec_sendsOn st hm).trans
      (migrateModels_cons_sendsOn (ih fun m hm => hms (List.mem_cons_of_mem _ hm)) hm st)

theorem migrateModels_refused (h : D.run st.schema (createTableText bt m) = none)
    (ms : List TableModel) :
    (migrateModels D bt st (m :: ms)).2 = (cormExec D bt st (.createTable m)).2 := by
  have herr : (cormExec D bt st (.createTable m)).1 ≠ .ok := by
    rw [Ne, cormExec_ok]
    exact Option.not_isSome_iff_eq_none.mpr h
  have hone : migrateModel D bt st m = cormExec D bt st (.createTable m) := by
    unfold migrateModel
    rcases hr : cormExec D bt st (.createTable m) with ⟨err, st₁⟩
    rw [hr] at herr
    cases err with
    | ok => exact absurd rfl herr
    | _ => rfl
  exact congrArg Prod.snd (migrateModels_err D bt hone herr ms)

/-- MySQL has no tables with longer names. -/
def NameLimit (D : MigrationDb) (bt : BackendType) : Prop :=
  bt = .mysql → ∀ s m, (D.run s (createTableText bt m)).isSome = true → m.table.length ≤ 64

theorem text_sentSpans (hD : NameLimit D bt) {e : Sql.Sent DdlRequest}
    (ht : Ident e.request.model.table)
    (hok : e.ok = (D.run e.before (e.request.text bt)).isSome) :
    (sentSpans bt e).map Spans.text = sentTexts bt e := by
  unfold sentSpans sentTexts
  rw [List.map_cons, text_ddlSpans]
  congr 1
  rcases e with ⟨before, r, ok⟩
  cases r with
  | createTable m =>
    simp only at hok ⊢
    split_ifs with h
    · have hlen : bt = .mysql → m.table.length ≤ 64 := fun hb => hD hb before m (hok.symm.trans h)
      exact congrArg (fun l => [l]) (text_describeSpans ht hlen)
    · rfl
  | _ => rfl

/-- **What is sent for a request**: only the description of a table by SQLite has a name without
quotes. -/
theorem quoted_sentSpans (bt : BackendType) (e : Sql.Sent DdlRequest) :
    (∀ l ∈ sentSpans bt e, Quoted bt l) ↔
      (bt = .sqlite → ∀ m, e.request = .createTable m → e.ok = false) := by
  unfold sentSpans
  rw [List.forall_mem_cons, and_iff_right (quoted_ddlSpans bt e.request)]
  rcases e with ⟨before, r, ok⟩
  cases r with
  | createTable m =>
    cases ok with
    | true => simp [quoted_describeSpans]
    | false => simp
  | _ => simp

theorem text_autoMigrate (hD : NameLimit D bt) (hms : ∀ m ∈ ms, Ident m.table) (s : Sql.Schema) :
    ((autoMigrate D bt s ms).2.sent.flatMap (sentSpans bt)).map Spans.text =
      (autoMigrate D bt s ms).2.sent.flatMap (sentTexts bt) := by
  obtain ⟨es, hes, hall⟩ : SendsOn D bt ms ⟨s, []⟩ (migrateModels D bt ⟨s, []⟩ ms).2 :=
    migrateModels_sendsOn (List.Subset.refl ms) ⟨s, []⟩
  rw [autoMigrate, hes, List.nil_append, List.map_flatMap]
  refine List.flatMap_congr fun e he => ?_
  obtain ⟨hmem, hok⟩ := hall e he
  exact text_sentSpans hD (hms _ hmem) hok

/-- **What a migration sends** has its names quoted exactly when SQLite does not describe a table:
when it refuses the first CREATE TABLE. -/
theorem quoted_autoMigrate (D : MigrationDb) (bt : BackendType) (s : Sql.Schema)
    (ms : List TableModel) :
    (∀ l ∈ (autoMigrate D bt s ms).2.sent.flatMap (sentSpans bt), Quoted bt l) ↔
      (bt = .sqlite → ∀ m ∈ ms.head?, D.run s (createTableText bt m) = none) := by
  have hall : (∀ l ∈ (autoMigrate D bt s ms).2.sent.flatMap (sentSpans bt), Quoted bt l) ↔
      ∀ e ∈ (autoMigrate D bt s ms).2.sent, bt = .sqlite → ∀ m, e.request = .createTable m →
        e.ok = false := by
    simp only [List.mem_flatMap, ← quoted_sentSpans]
    exact ⟨fun h e he l hl => h l ⟨e, he, hl⟩, fun h l ⟨e, he, hl⟩ => h e he l hl⟩
  rw [hall]
  cases ms with
  | nil => exact iff_of_true (List.forall_mem_nil _) fun _ _ h => by cases h
  | cons m ms =>
    have hhead : (∀ m' ∈ (m :: ms).head?, D.run s (createTableText bt m') = none) ↔
        D.run s (createTableText bt m) = none := by simp
    rw [hhead]
    have hsent : (cormExec D bt ⟨s, []⟩ (.createTable m)).2.sent =
        [⟨s, .createTable m, (D.run s (createTableText bt m)).isSome⟩] :=
      cormExec_sent ⟨s, []⟩ (.createTable m)
    constructor
    · intro h hb
      obtain ⟨es, hes, -⟩ : SendsOn D bt (m :: ms) (cormExec D bt ⟨s, []⟩ (.createTable m)).2
          (migrateModels D bt ⟨s, []⟩ (m :: ms)).2 :=
        migrateModels_cons_sendsOn (migrateModels_sendsOn (List.subset_cons_self m ms))
          List.mem_cons_self ⟨s, []⟩
      have hmem : ⟨s, .createTable m, (D.run s (createTableText bt m)).isSome⟩ ∈
          (autoMigrate D bt s (m :: ms)).2.sent := by
        rw [autoMigrate, hes, hsent]
        exact List.mem_append_left _ List.mem_cons_self
      exact Option.not_isSome_iff_eq_none.mp
        (Bool.eq_false_iff.mp (h _ hmem hb m rfl))
    · intro h e he hb m' hm'
      rw [autoMigrate, migrateModels_refused (h hb) ms, hsent] at he
      rw [List.mem_singleton.mp he]
      exact Option.isSome_eq_false_iff.mpr (Option.isNone_iff_eq_none.mpr (h hb))

end Sending

end Corm
