import Corm.Create
import Corm.Quoting.Statements
import Corm.Reading.Update
import Corm.Reuse.Reset

/-!
# Queries that know where their text comes from

What earlier calls left in the WHERE and in the SET clause of a query is sent with the next
statement. A query starts with the caller's text only, as a new or a reset one does.

* `Traced`: a query with the spans of both;
* `Traced.call`, `Traced.scope`, `Traced.set`: a builder call, and what the library adds itself;
* `Step.spans`, `Step.trace`: the statement of a step, and the query after it;
* `statements`, `text_statements`: the statements of a run are those that are sent;
* **`quoted_statements`**: all their names are quoted exactly when no find filters.
-/

namespace Corm

open Spans (Span)

/-- A query, with the spans of its WHERE and of its SET clause. -/
structure Traced where
  query : Query
  where_ : Written
  sets : Written
  where_text : Spans.text where_ = query.where_
  sets_text : Spans.text sets = query.setClause
  where_names : Names where_
  sets_names : Names sets

namespace Traced

/-- A query with the caller's text. -/
def given (q : Query) : Traced where
  query := q
  where_ := [.given q.where_]
  sets := [.given q.setClause]
  where_text := List.append_nil _
  sets_text := List.append_nil _
  where_names := names_given _
  sets_names := names_given _

variable (t : Traced)

/-- Another query with the same WHERE and SET clause. -/
def on (q : Query) (hw : q.where_ = t.query.where_) (hs : q.setClause = t.query.setClause) :
    Traced :=
  { t with
    query := q
    where_text := t.where_text.trans hw.symm
    sets_text := t.sets_text.trans hs.symm }

end Traced

/-- The call replaces the SET clause. -/
def BuilderCall.replacesSets : BuilderCall → Bool
  | .draft (.clause (.setRaw _)) => true
  | _ => false

theorem prefix_where (c : BuilderCall) (q : Query) : q.where_ <+: (c.apply q).where_ := by
  rw [where_apply]
  unfold glue
  split
  · exact List.prefix_rfl
  · split_ifs with hw
    · rw [hw]
      exact List.nil_prefix
    · exact ⟨_, (List.append_assoc _ _ _).symm⟩

theorem prefix_field (f : FieldCall) (q : Query) : q.setClause <+: (f.apply q).setClause := by
  cases ha : f.accepted with
  | false => exact (apply_rejected ha q).symm ▸ List.prefix_rfl
  | true =>
    rw [apply_accepted ha]
    split_ifs with hset hnil
    · rw [hnil]
      exact List.nil_prefix
    · exact ⟨_, (List.append_assoc _ _ _).symm⟩
    · exact List.prefix_rfl

theorem prefix_setClause {c : BuilderCall} (h : c.replacesSets = false) (q : Query) :
    q.setClause <+: (c.apply q).setClause := by
  cases c with
  | op => exact List.prefix_rfl
  | preload relation =>
    show _ <+: (queryPreload q relation).setClause
    unfold queryPreload
    split
    · split_ifs <;> exact List.prefix_rfl
    · exact List.prefix_rfl
  | draft call =>
    cases call with
    | set field val => exact prefix_field (.set field val) q
    | where_ call =>
      cases call with
      | where_ | orWhere | bind => exact List.prefix_rfl
      | whereNull field => exact prefix_field (.whereNull field) q
      | whereNotNull field => exact prefix_field (.whereNotNull field) q
      | whereIn field vals => exact prefix_field (.whereIn field vals) q
      | whereBetween field minVal maxVal => exact prefix_field (.whereBetween field minVal maxVal) q
    | clause call =>
      cases call with
      | setRaw => cases h
      | join text | order text | group text | having_ text =>
        cases text <;> exact List.prefix_rfl
      | _ => exact List.prefix_rfl

namespace Traced

variable (t : Traced)

/-- A builder call; all that it adds is the caller's. -/
def call (c : BuilderCall) : Traced where
  query := c.apply t.query
  where_ := t.where_ ++ [Span.given ((c.apply t.query).where_.drop t.query.where_.length)]
  sets :=
    if c.replacesSets then [.given (c.apply t.query).setClause]
    else t.sets ++ [Span.given ((c.apply t.query).setClause.drop t.query.setClause.length)]
  where_text := by
    rw [Spans.text_append, t.where_text, Spans.text_cons, text_given, Spans.text_nil,
      List.append_nil]
    exact List.prefix_iff_eq_append.mp (prefix_where c t.query)
  sets_text := by
    split_ifs with h
    · exact List.append_nil _
    · rw [Spans.text_append, t.sets_text, Spans.text_cons, text_given, Spans.text_nil,
        List.append_nil]
      exact List.prefix_iff_eq_append.mp (prefix_setClause (Bool.eq_false_iff.mpr h) t.query)
  where_names := t.where_names.append (names_given _)
  sets_names := by
    split_ifs
    · exact names_given _
    · exact t.sets_names.append (names_given _)

/-- The WHERE with one more condition on a field, whose name is written as it is. -/
def bareWhere (f : Field) (condition : Text) : Written :=
  (if t.query.where_ = [] then [] else t.where_ ++ [Span.own " AND ".toList]) ++
    [bareSpan f.nm, .own condition]

theorem text_bareWhere (f : Field) (condition : Text) : Spans.text (t.bareWhere f condition) =
    whereSep t.query " AND ".toList ++ (f.nm ++ condition) := by
  rw [bareWhere, Spans.text_append, whereSep]
  congr 1
  · split_ifs
    · rfl
    · rw [Spans.text_append, t.where_text, text_single]
  · rw [Spans.text_cons, text_single, text_bareSpan]

theorem names_bareWhere {f : Field} (hf : isValidIdentifier f.name = true) (condition : Text) :
    Names (t.bareWhere f condition) := by
  have hsep : Names
      (if t.query.where_ = [] then [] else t.where_ ++ [Span.own " AND ".toList]) := by
    split_ifs
    · exact names_nil
    · exact t.where_names.append (names_own _)
  exact hsep.append (names_cons (ident_nm hf) nofun (names_own _))

/-- **Its name is not quoted.** -/
theorem unquoted_bareWhere (bt : BackendType) (f : Field) (condition : Text) :
    ¬ Quoted bt (t.bareWhere f condition) := fun h => quoted_bareSpan (quoted_append.mp h).2

/-- `corm_query_where_null`, called by `corm_find`. -/
def whereNull (f : Field) : Traced :=
  if hf : isValidIdentifier f.name = true then
    { t with
      query := queryWhereNull t.query f.name
      where_ := t.bareWhere f " IS NULL".toList
      where_text := by
        rw [queryWhereNull_eq hf]
        exact t.text_bareWhere f _
      sets_text := by
        rw [queryWhereNull_eq hf]
        exact t.sets_text
      where_names := t.names_bareWhere hf _ }
  else t

/-- The condition of the batch functions on the key, which is a field of a validated model. -/
def whereKey (pk : Field) (rec : Record) : Traced :=
  if hf : isValidIdentifier pk.name = true then
    { t with
      query := Corm.whereKey t.query pk rec
      where_ := t.bareWhere pk " = ?".toList
      where_text := t.text_bareWhere pk _
      where_names := t.names_bareWhere hf _ }
  else given (Corm.whereKey t.query pk rec)

/-- The filter of `corm_find`. -/
def scope : Traced :=
  if t.query.unscoped then t
  else match softDeleteField t.query.model with
    | some f => t.whereNull f
    | none => t

/-- `corm_query_set`, called by the library. -/
def set (f : Field) (v : Value) : Traced :=
  if hf : isValidIdentifier f.name = true then
    { t with
      query := querySet t.query f.name v
      sets := (if t.query.setClause = [] then [] else t.sets ++ [Span.own ", ".toList]) ++
        [qidentSpan t.query.bt f.nm,
          .own (" = ".toList ++ placeholderStr t.query.bt t.query.params.length)]
      where_text := by
        rw [querySet_eq hf]
        exact t.where_text
      sets_text := by
        have hone : Spans.text [qidentSpan t.query.bt f.nm,
            .own (" = ".toList ++ placeholderStr t.query.bt t.query.params.length)] =
            setOne t.query.bt t.query.params.length f.nm := by
          rw [Spans.text_cons, text_single, text_qidentSpan, setOne, List.append_assoc]
        rw [querySet_eq hf, Spans.text_append, hone, joinSets]
        split_ifs with hnil hone
        · rfl
        · exact absurd hone (setOne_ne_nil _ _ _)
        · rw [Spans.text_append, t.sets_text, text_single]
      sets_names := by
        have hsep : Names
            (if t.query.setClause = [] then [] else t.sets ++ [Span.own ", ".toList]) := by
          split_ifs
          · exact names_nil
          · exact t.sets_names.append (names_own _)
        exact hsep.append (names_cons (ident_nm hf) (notMem_quote _) (names_own _)) }
  else t

/-- The query that `corm_find` runs. -/
def find : Traced := t.scope.on (queryOp t.scope.query .select) rfl rfl

/-- A SELECT of the query. -/
def select : Written := selectSpans t.query t.where_

/-- An UPDATE of the query. -/
def update : Written := updateSpans t.query t.where_ t.sets

/-- A DELETE of the query. -/
def delete : Written := deleteSpans t.query t.where_

theorem query_whereNull (f : Field) :
    (t.whereNull f).query = queryWhereNull t.query f.name := by
  unfold whereNull
  by_cases hf : isValidIdentifier f.name = true
  · rw [dif_pos hf]
  · have hno : (FieldCall.whereNull f.name).accepted = false := by
      simp [FieldCall.accepted, FieldCall.field, hf]
    rw [dif_neg hf]
    exact (apply_rejected hno t.query).symm

theorem query_set (f : Field) (v : Value) : (t.set f v).query = querySet t.query f.name v := by
  unfold set
  by_cases hf : isValidIdentifier f.name = true
  · rw [dif_pos hf]
  · have hno : (FieldCall.set f.name v).accepted = false := by
      simp [FieldCall.accepted, FieldCall.field, hf]
    rw [dif_neg hf]
    exact (apply_rejected hno t.query).symm

theorem query_scope : t.scope.query = findScope t.query := by
  unfold scope findScope
  split_ifs
  · rfl
  · cases softDeleteField t.query.model with
    | none => rfl
    | some f => exact t.query_whereNull f

theorem text_select : Spans.text t.select = buildSelect t.query :=
  text_selectSpans t.where_text t.where_names

theorem text_update : Spans.text t.update = buildUpdate t.query :=
  text_updateSpans t.where_text t.sets_text t.where_names t.sets_names

theorem text_delete : Spans.text t.delete = buildDelete t.query :=
  text_deleteSpans t.where_text t.where_names

end Traced

/-! ## Steps -/

namespace Step

/-- The query that the statement of a step is built from. -/
def ready (t : Traced) : Step → Traced
  | .call c => t.call c
  | .find => t.find
  | .first _ => (t.on { t.query with limit := 1, offset := 0 } rfl rfl).find
  | .count => (t.on { t.query with selectCols := "COUNT(*)".toList } rfl rfl).find
  | .create _ => t
  | .update => t
  | .delete =>
    match softDeleteField t.query.model with
    | some f => t.set f tombstone
    | none => t

/-- The statement of a step. -/
def spans (t : Traced) (step : Step) : Written :=
  match step with
  | .call _ => []
  | .find | .first _ | .count => (step.ready t).select
  | .create _ => insertSpans t.query
  | .update => t.update
  | .delete =>
    match softDeleteField t.query.model with
    | some f => (t.set f tombstone).update
    | none => t.delete

end Step

theorem clauses_hooked (before : Option Hook) {bind : Query → Option Record → Query}
    (hbind : ∀ q record, (bind q record).where_ = q.where_ ∧
      (bind q record).setClause = q.setClause)
    (op : QueryOp) (q : Query) (record : Option Record) :
    (hooked before bind op q record).2.where_ = q.where_ ∧
      (hooked before bind op q record).2.setClause = q.setClause := by
  unfold hooked
  rcases runHook before record with ⟨err, record'⟩
  cases err with
  | ok => exact hbind (queryOp q op) record'
  | _ => exact ⟨rfl, rfl⟩

theorem clauses_bindRecord (q : Query) (record : Option Record) :
    (bindRecord q record).where_ = q.where_ ∧ (bindRecord q record).setClause = q.setClause := by
  cases record with
  | none => exact ⟨rfl, rfl⟩
  | some r =>
    rw [bindRecord, foldl_queryBind]
    exact ⟨rfl, rfl⟩

theorem text_hooked {before : Option Hook} {bind : Query → Option Record → Query} {op : QueryOp}
    {q : Query} {record : Option Record} :
    ∀ e ∈ (hooked before bind op q record).1, e.1 = buildSql (queryOp q op) := by
  unfold hooked
  rcases runHook before record with ⟨err, record'⟩
  cases err with
  | ok => exact fun e he => congrArg Prod.fst (List.mem_singleton.mp he)
  | _ => exact fun e he => absurd he List.not_mem_nil

theorem clauses_found (t : Traced) : (found t.query).2.where_ = t.find.query.where_ ∧
    (found t.query).2.setClause = t.find.query.setClause := by
  show (findScope t.query).where_ = t.scope.query.where_ ∧
    (findScope t.query).setClause = t.scope.query.setClause
  rw [t.query_scope]
  exact ⟨rfl, rfl⟩

theorem text_found (t : Traced) {e : Text × List Value} (he : e ∈ (found t.query).1) :
    e.1 = Spans.text t.find.select := by
  rw [Traced.text_select, List.mem_singleton.mp he]
  show buildSelect (findScope t.query) = buildSelect t.scope.query
  rw [t.query_scope]

theorem clauses_sent (t : Traced) (step : Step) :
    (step.sent t.query).2.where_ = (step.ready t).query.where_ ∧
      (step.sent t.query).2.setClause = (step.ready t).query.setClause := by
  cases step with
  | call c => exact ⟨rfl, rfl⟩
  | find => exact clauses_found t
  | first record => exact clauses_found (t.on { t.query with limit := 1, offset := 0 } rfl rfl)
  | count => exact clauses_found (t.on { t.query with selectCols := "COUNT(*)".toList } rfl rfl)
  | create record => exact clauses_hooked _ clauses_bindRecord .insert t.query (some record)
  | update => exact clauses_hooked _ (fun _ _ => ⟨rfl, rfl⟩) .update t.query none
  | delete =>
    unfold Step.sent Step.ready
    cases softDeleteField t.query.model with
    | some f =>
      simp only [t.query_set]
      exact clauses_hooked _ (fun _ _ => ⟨rfl, rfl⟩) .update _ none
    | none => exact clauses_hooked _ (fun _ _ => ⟨rfl, rfl⟩) .delete t.query none

/-- **What a step sends** is what the spans of its statement make. -/
theorem text_sent (t : Traced) (step : Step) :
    ∀ e ∈ (step.sent t.query).1, e.1 = Spans.text (step.spans t) := by
  intro e he
  cases step with
  | call c => cases he
  | find => exact text_found t he
  | first record => exact text_found (t.on { t.query with limit := 1, offset := 0 } rfl rfl) he
  | count =>
    exact text_found (t.on { t.query with selectCols := "COUNT(*)".toList } rfl rfl) he
  | create record => exact (text_hooked e he).trans (text_insertSpans t.query).symm
  | update => exact (text_hooked e he).trans t.text_update.symm
  | delete =>
    unfold Step.sent at he
    unfold Step.spans
    cases hf : softDeleteField t.query.model with
    | some f =>
      simp only [hf] at he ⊢
      rw [text_hooked e he, Traced.text_update, Traced.query_set]
      rfl
    | none =>
      simp only [hf] at he ⊢
      exact (text_hooked e he).trans t.text_delete.symm

/-- The query after a step. -/
def Step.trace (t : Traced) (step : Step) : Traced :=
  (step.ready t).on (step.sent t.query).2 (clauses_sent t step).1 (clauses_sent t step).2

/-- The statements of a run. -/
def statements (t : Traced) : List Step → List Written
  | [] => []
  | step :: steps =>
    ((step.sent t.query).1.map fun _ => step.spans t) ++ statements (step.trace t) steps

/-- **The statements of a run** make the texts that are sent. -/
theorem text_statements (t : Traced) (steps : List Step) :
    (statements t steps).map Spans.text = (sentBy t.query steps).map Prod.fst := by
  induction steps generalizing t with
  | nil => rfl
  | cons step steps ih =>
    rw [statements, sentBy, List.map_append, List.map_append, ih, List.map_map]
    congr 1
    exact List.map_congr_left fun e he => (text_sent t step e he).symm

/-! ## Quotes -/

/-- Nothing that the query has to send has a name without quotes. -/
structure Traced.Clean (bt : BackendType) (t : Traced) : Prop where
  bt_eq : t.query.bt = bt
  where_ : Quoted bt t.where_
  sets : Quoted bt t.sets

/-- A find on the query filters the rows. -/
def Traced.filters (t : Traced) : Bool := !t.query.unscoped && scopes t.query.model

variable {bt : BackendType} {t : Traced} {step : Step} {steps : List Step}

theorem Traced.Clean.given (q : Query) : (Traced.given q).Clean q.bt :=
  ⟨rfl, quoted_given.mpr quoted_nil, quoted_given.mpr quoted_nil⟩

/-- **The filter has the name of its field without quotes.** -/
theorem Traced.Clean.quoted_scope (h : t.Clean bt) :
    Quoted bt t.scope.where_ ↔ t.filters = false := by
  unfold Traced.scope Traced.filters scopes
  by_cases hu : t.query.unscoped = true
  · simp [hu, h.where_]
  · have hscoped : t.query.unscoped = false := Bool.eq_false_iff.mpr hu
    rw [if_neg hu, hscoped]
    cases softDeleteField t.query.model with
    | none => simp [h.where_]
    | some f =>
      simp only [Traced.whereNull]
      by_cases hf : isValidIdentifier f.name = true
      · rw [dif_pos hf, hf]
        exact iff_of_false (t.unquoted_bareWhere bt f _) (by decide)
      · simp [hf, h.where_]

theorem Traced.sets_scope (t : Traced) : t.scope.sets = t.sets := by
  unfold Traced.scope
  split_ifs
  · rfl
  · cases softDeleteField t.query.model with
    | none => rfl
    | some f =>
      simp only [Traced.whereNull]
      by_cases hf : isValidIdentifier f.name = true
      · rw [dif_pos hf]
      · rw [dif_neg hf]

theorem Traced.bt_scope (t : Traced) : t.scope.query.bt = t.query.bt := by
  rw [t.query_scope]
  obtain ⟨w, hw⟩ := findScope_where t.query
  rw [hw]

theorem Traced.Clean.set (h : t.Clean bt) (f : Field) (v : Value) : (t.set f v).Clean bt := by
  obtain ⟨rfl, hw, hs⟩ := h
  unfold Traced.set
  by_cases hf : isValidIdentifier f.name = true
  · have hsep : Quoted t.query.bt
        (if t.query.setClause = [] then [] else t.sets ++ [Span.own ", ".toList]) := by
      split_ifs
      · exact quoted_nil
      · exact quoted_append.mpr ⟨hs, quoted_own.mpr quoted_nil⟩
    rw [dif_pos hf]
    exact ⟨(frame_apply (.draft (.set f.name v)) t.query).1, hw,
      quoted_append.mpr ⟨hsep, quoted_qidentSpan.mpr (quoted_own.mpr quoted_nil)⟩⟩
  · rw [dif_neg hf]
    exact ⟨rfl, hw, hs⟩

theorem Traced.Clean.call (h : t.Clean bt) (c : BuilderCall) : (t.call c).Clean bt where
  bt_eq := (frame_apply c t.query).1.trans h.bt_eq
  where_ := quoted_append.mpr ⟨h.where_, quoted_given.mpr quoted_nil⟩
  sets := by
    unfold Traced.call
    split_ifs
    · exact quoted_given.mpr quoted_nil
    · exact quoted_append.mpr ⟨h.sets, quoted_given.mpr quoted_nil⟩

theorem Traced.Clean.quoted_find (h : t.Clean bt) :
    Quoted bt t.find.select ↔ t.filters = false := by
  have hbt : t.find.query.bt = bt := t.bt_scope.trans h.bt_eq
  rw [← h.quoted_scope, ← hbt]
  exact quoted_selectSpans t.find.where_text t.find.where_names

theorem Traced.Clean.quoted_update (h : t.Clean bt) : Quoted bt t.update := by
  obtain ⟨rfl, hw, hs⟩ := h
  exact (quoted_updateSpans t.where_text t.where_names hs).mpr hw

theorem Traced.Clean.quoted_delete (h : t.Clean bt) : Quoted bt t.delete := by
  obtain ⟨rfl, hw, -⟩ := h
  exact (quoted_deleteSpans t.where_text t.where_names).mpr hw

/-- **The statement of a step**: only a find that filters has a name without quotes. -/
theorem quoted_spans (h : t.Clean bt) (step : Step) :
    Quoted bt (step.spans t) ↔ (step.reads && t.filters) = false := by
  cases step with
  | call c => exact iff_of_true quoted_nil rfl
  | find => exact h.quoted_find
  | first record =>
    exact Traced.Clean.quoted_find
      (t := t.on { t.query with limit := 1, offset := 0 } rfl rfl) ⟨h.bt_eq, h.where_, h.sets⟩
  | count =>
    exact Traced.Clean.quoted_find
      (t := t.on { t.query with selectCols := "COUNT(*)".toList } rfl rfl)
      ⟨h.bt_eq, h.where_, h.sets⟩
  | create record =>
    obtain ⟨rfl, -, -⟩ := h
    exact iff_of_true (quoted_insertSpans t.query) rfl
  | update => exact iff_of_true h.quoted_update rfl
  | delete =>
    refine iff_of_true ?_ rfl
    unfold Step.spans
    cases softDeleteField t.query.model with
    | some f => exact (h.set f tombstone).quoted_update
    | none => exact h.quoted_delete

theorem Traced.Clean.find (h : t.Clean bt) (hf : t.filters = false) : t.find.Clean bt where
  bt_eq := t.bt_scope.trans h.bt_eq
  where_ := h.quoted_scope.mpr hf
  sets := (t.sets_scope).symm ▸ h.sets

/-- **One step** leaves nothing without quotes, unless it is a find that filters. -/
theorem Traced.Clean.trace (h : t.Clean bt) (hf : (step.reads && t.filters) = false) :
    (step.trace t).Clean bt := by
  have hready : (step.ready t).Clean bt := by
    cases step with
    | call c => exact h.call c
    | find => exact h.find hf
    | first record =>
      exact Traced.Clean.find
        (t := t.on { t.query with limit := 1, offset := 0 } rfl rfl) ⟨h.bt_eq, h.where_, h.sets⟩ hf
    | count =>
      exact Traced.Clean.find
        (t := t.on { t.query with selectCols := "COUNT(*)".toList } rfl rfl)
        ⟨h.bt_eq, h.where_, h.sets⟩ hf
    | create | update => exact h
    | delete =>
      unfold Step.ready
      cases softDeleteField t.query.model with
      | some f => exact h.set f tombstone
      | none => exact h
  exact ⟨(frame_sent step t.query).1.trans h.bt_eq, hready.where_, hready.sets⟩

theorem filters_trace (t : Traced) (step : Step) :
    (step.trace t).filters = (t.filters && !step.opensScope) := by
  obtain ⟨-, hmodel, hunscoped⟩ := frame_sent step t.query
  show (!(step.sent t.query).2.unscoped && scopes (step.sent t.query).2.model) = _
  rw [hmodel, hunscoped, Traced.filters]
  cases t.query.unscoped <;> cases step.opensScope <;> simp

/-- **All names in the statements of a run are quoted** exactly when the query does not filter, or is
not read before its scope is set. -/
theorem quoted_statements (h : t.Clean bt) (steps : List Step) :
    (∀ l ∈ statements t steps, Quoted bt l) ↔ t.filters = false ∨ readsScoped steps = false := by
  induction steps generalizing t with
  | nil => exact iff_of_true (List.forall_mem_nil _) (Or.inr rfl)
  | cons step steps ih =>
    rw [statements, List.forall_mem_append, readsScoped_cons]
    cases hf : step.reads && t.filters with
    | true =>
      -- the statement of this step has the name of the filter
      obtain ⟨hreads, hfilters⟩ := Bool.and_eq_true_iff.mp hf
      have hsent : (step.sent t.query).1 ≠ [] ∧ step.opensScope = false := by
        cases step with
        | find | first | count => exact ⟨List.cons_ne_nil _ _, rfl⟩
        | _ => cases hreads
      refine iff_of_false (fun hall => ?_) ?_
      · obtain ⟨e, es, he⟩ := List.exists_cons_of_ne_nil hsent.1
        have hmem : step.spans t ∈ (step.sent t.query).1.map fun _ => step.spans t := by
          rw [he]
          exact List.mem_cons_self
        have hquoted := (quoted_spans h step).mp (hall.1 _ hmem)
        rw [hf] at hquoted
        cases hquoted
      · simp [hsent.2, hreads, hfilters]
    | false =>
      have hhere : ∀ l ∈ (step.sent t.query).1.map fun _ => step.spans t, Quoted bt l := by
        intro l hl
        obtain ⟨e, -, rfl⟩ := List.mem_map.mp hl
        exact (quoted_spans h step).mpr hf
      rw [and_iff_right hhere, ih (h.trace hf), filters_trace]
      cases hfilters : t.filters with
      | false => simp
      | true =>
        rw [hfilters, Bool.and_true] at hf
        cases step.opensScope <;> simp [hf]

end Corm
