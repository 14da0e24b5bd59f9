import Corm.Memory.Draft
import Corm.Update.Order

/-!
# Statements and failing requests

When the operations send what they would send if no allocation request failed.

* `Lag`: how far a query is behind the one that no failing request makes;
* `BindKeeps`, `AllKeep`, `Operation.Keeps`: no request fails where something is lost by it;
* `allKeep_of_no_fails`, `keeps_of_no_fails`: nothing is lost when no request fails;
* **`lag_calls`**: the lag after any calls of the builder;
* **`never_weakened_iff`**: an operation reports an error or sends the same exactly when its hook
  vetoes it or nothing is lost.
-/

namespace Corm

/-! ## The condition -/

section Condition

variable (mem : Memory) (d : Draft) (val : Value)

/-- After `n` requests, no request for a copy of the value fails, unless the bytes of a blob stay
where they are. -/
def CopyKeeps (n : ℕ) : Prop :=
  match val.type, val.v with
  | .text, .s (some _) | .string, .s (some _) => mem.fails n = false
  | .blob, .blob (some data) => data = [] ∨ mem.fails n = false ∨ mem.held data = data
  | _, _ => True

namespace Draft

/-- No request of `corm_query_bind` fails. -/
def BindKeeps : Prop :=
  if d.query.params.length < d.paramCap then CopyKeeps mem val d.requests
  else mem.fails d.requests = false ∧ CopyKeeps mem val (d.requests + 1)

/-- No request of `corm_query_where` fails. -/
def WhereKeeps (connective condition : Text) : Prop :=
  StrBuf.Keeps mem.fails d.requests d.whereBuf
    (sepPieces d.query.where_ connective ++ [condition])

/-- No request of the `corm_query_bind` calls of `corm_query_where_in` fails. -/
def LoopKeeps : Draft → ℕ → List Value → Prop
  | _, _, [] => True
  | d, i, val :: vals =>
    let d := d.addText ((if 0 < i then [", ".toList] else []) ++ [d.mark])
    d.BindKeeps mem val ∧ LoopKeeps (d.bind mem val) (i + 1) vals

/-- No request of `corm_query_set` fails. -/
def SetKeeps (field : Option Text) : Prop := isValidIdentifier field = true → d.BindKeeps mem val

end Draft

/-- No request of the call fails. -/
def WhereCall.Keeps (d : Draft) : WhereCall → Prop
  | .where_ condition => d.WhereKeeps mem " AND ".toList condition
  | .orWhere condition => d.WhereKeeps mem " OR ".toList condition
  | .bind val => d.BindKeeps mem val
  | .whereIn field vals =>
    (isValidIdentifier field && !vals.isEmpty) = true →
      (d.addField field " IN (".toList).LoopKeeps mem 0 vals
  | .whereBetween field minVal maxVal =>
    isValidIdentifier field = true →
      let d := d.addField field " BETWEEN ".toList
      let d := d.addText [d.mark]
      d.BindKeeps mem minVal ∧
        let d := (d.bind mem minVal).addText [" AND ".toList]
        (d.addText [d.mark]).BindKeeps mem maxVal
  | _ => True

/-- No request of the call fails. -/
def DraftCall.Keeps (d : Draft) : DraftCall → Prop
  | .where_ call => call.Keeps mem d
  | .set field val => d.SetKeeps mem val field
  | .clause _ => True

/-- No request of the calls fails. -/
def AllKeep : Draft → List DraftCall → Prop
  | _, [] => True
  | d, c :: calls => c.Keeps mem d ∧ AllKeep (c.apply mem d) calls

/-- No request of `corm_build_sql` fails. -/
def BuildKeeps (n : ℕ) (pieces : List Text) : Prop := StrBuf.Keeps mem.fails n .init pieces

/-- No request of the operation fails. -/
def Operation.Keeps (d : Draft) : Operation → Prop
  | .find => BuildKeeps mem d.requests (selectPieces (findScope d.query))
  | .update => BuildKeeps mem d.requests (updatePieces d.query)
  | .delete =>
    match softDeleteField d.query.model with
    | some f =>
      d.SetKeeps mem tombstone f.name ∧
        BuildKeeps mem (d.set mem f.name tombstone).requests
          (updatePieces (d.set mem f.name tombstone).query)
    | none => BuildKeeps mem d.requests (deletePieces d.query)

end Condition

/-! ### Without failing requests -/

section NoFails

variable {mem : Memory} (hfails : ∀ n, mem.fails n = false) (d : Draft)

include hfails

theorem bindKeeps_of_no_fails (val : Value) : d.BindKeeps mem val := by
  have hcopy (n : ℕ) : CopyKeeps mem val n := by
    unfold CopyKeeps
    split
    · exact hfails n
    · exact hfails n
    · exact Or.inr (Or.inl (hfails n))
    · trivial
  unfold Draft.BindKeeps
  split_ifs
  · exact hcopy d.requests
  · exact ⟨hfails d.requests, hcopy (d.requests + 1)⟩

theorem loopKeeps_of_no_fails (i : ℕ) (vals : List Value) : d.LoopKeeps mem i vals := by
  induction vals generalizing d i with
  | nil => trivial
  | cons val vals ih => exact ⟨bindKeeps_of_no_fails hfails _ val, ih _ (i + 1)⟩

theorem callKeeps_of_no_fails (c : DraftCall) : c.Keeps mem d := by
  cases c with
  | where_ call =>
    cases call with
    | where_ condition | orWhere condition => exact StrBuf.keeps_of_no_fails hfails _
    | bind val => exact bindKeeps_of_no_fails hfails d val
    | whereIn field vals => exact fun _ => loopKeeps_of_no_fails hfails _ 0 vals
    | whereBetween field minVal maxVal =>
      exact fun _ => ⟨bindKeeps_of_no_fails hfails _ minVal, bindKeeps_of_no_fails hfails _ maxVal⟩
    | whereNull field | whereNotNull field => trivial
  | set field val => exact fun _ => bindKeeps_of_no_fails hfails d val
  | clause call => trivial

theorem allKeep_of_no_fails (calls : List DraftCall) : AllKeep mem d calls := by
  induction calls generalizing d with
  | nil => trivial
  | cons c calls ih => exact ⟨callKeeps_of_no_fails hfails d c, ih _⟩

theorem keeps_of_no_fails (op : Operation) : op.Keeps mem d := by
  cases op with
  | find | update => exact StrBuf.keeps_of_no_fails hfails _
  | delete =>
    unfold Operation.Keeps
    simp only
    split
    · exact ⟨fun _ => bindKeeps_of_no_fails hfails d _, StrBuf.keeps_of_no_fails hfails _⟩
    · exact StrBuf.keeps_of_no_fails hfails _

end NoFails

/-! ## Lists that are cut short -/

theorem sublist_append_eq_iff {α : Type} {a a' b b' : List α} (ha : List.Sublist a a')
    (hb : List.Sublist b b') : a ++ b = a' ++ b' ↔ a = a' ∧ b = b' := by
  constructor
  · intro h
    have hlen := congrArg List.length h
    have hla := ha.length_le
    have hlb := hb.length_le
    rw [List.length_append, List.length_append] at hlen
    exact ⟨ha.eq_of_length (by omega), hb.eq_of_length (by omega)⟩
  · rintro ⟨rfl, rfl⟩
    rfl

/-! ## The lag -/

/-- The query `q` lacks at most some parameters and some of the WHERE of `q₀`, and lacks neither
exactly if `kept`; with all its parameters it has the SET clause of `q₀`. -/
structure Lag (q q₀ : Query) (kept : Prop) : Prop where
  rest : { q₀ with where_ := q.where_, params := q.params, setClause := q.setClause } = q
  count : q.params.length ≤ q₀.params.length
  bound : q.params.length = q₀.params.length →
    List.Sublist q.where_ q₀.where_ ∧ q.setClause = q₀.setClause
  same : q.where_ = q₀.where_ ∧ q.params = q₀.params ↔ kept

namespace Lag

variable {q q₀ : Query} {kept k : Prop} (h : Lag q q₀ kept)

theorem refl (q : Query) : Lag q q True :=
  ⟨rfl, Nat.le_refl _, fun _ => ⟨List.Sublist.refl _, rfl⟩, by simp⟩

include h

theorem congr (hk : kept ↔ k) : Lag q q₀ k := ⟨h.rest, h.count, h.bound, h.same.trans hk⟩

theorem addText {t t₀ : Text}
    (ht : q.params.length = q₀.params.length → List.Sublist t t₀)
    (hk : q.where_ = q₀.where_ → q.params = q₀.params → (t = t₀ ↔ k)) :
    Lag { q with where_ := q.where_ ++ t } { q₀ with where_ := q₀.where_ ++ t₀ } (kept ∧ k) := by
  refine ⟨?_, h.count, fun hlen => ⟨(h.bound hlen).1.append (ht hlen), (h.bound hlen).2⟩, ?_⟩
  · exact congrArg (fun r : Query => { r with where_ := q.where_ ++ t }) h.rest
  · rw [← h.same]
    constructor
    · rintro ⟨htext, hps⟩
      have hlen := congrArg List.length hps
      rw [sublist_append_eq_iff (h.bound hlen).1 (ht hlen)] at htext
      exact ⟨⟨htext.1, hps⟩, (hk htext.1 hps).mp htext.2⟩
    · rintro ⟨⟨hw, hps⟩, hkept⟩
      exact ⟨by rw [hw, (hk hw hps).mpr hkept], hps⟩

theorem addSame {t t₀ : Text} (ht : q.params.length = q₀.params.length → List.Sublist t t₀)
    (hk : q.where_ = q₀.where_ → q.params = q₀.params → t = t₀) :
    Lag { q with where_ := q.where_ ++ t } { q₀ with where_ := q₀.where_ ++ t₀ } kept :=
  (h.addText ht fun hw hps => iff_true_intro (hk hw hps)).congr (by rw [and_true])

theorem bind {stored : List Value} {val : Value} (hlen : stored.length ≤ 1)
    (hk : stored = [val] ↔ k) :
    Lag { q with params := q.params ++ stored } (queryBind q₀ val) (kept ∧ k) := by
  have hcount := h.count
  have hle : (q.params ++ stored).length ≤ (q₀.params ++ [val]).length := by
    rw [List.length_append, List.length_append, List.length_singleton]
    omega
  refine ⟨?_, hle, fun heq => h.bound ?_, ?_⟩
  · exact congrArg (fun r : Query => { r with params := q.params ++ stored }) h.rest
  · have heq' : (q.params ++ stored).length = (q₀.params ++ [val]).length := heq
    rw [List.length_append, List.length_append, List.length_singleton] at heq'
    omega
  · show q.where_ = q₀.where_ ∧ q.params ++ stored = q₀.params ++ [val] ↔ kept ∧ k
    rw [← h.same, ← hk, and_assoc]
    refine and_congr_right fun _ => ⟨fun heq => ?_, fun heq => by rw [heq.1, heq.2]⟩
    have hlen' := congrArg List.length heq
    rw [List.length_append, List.length_append, List.length_singleton] at hlen'
    exact List.append_inj heq (by omega)

theorem setClause {c c₀ : Text} (hc : q.params.length = q₀.params.length → c = c₀) :
    Lag { q with setClause := c } { q₀ with setClause := c₀ } kept := by
  refine ⟨?_, h.count, fun hlen => ⟨(h.bound hlen).1, hc hlen⟩, h.same⟩
  exact congrArg (fun r : Query => { r with setClause := c }) h.rest

theorem op (o : QueryOp) : Lag (queryOp q o) (queryOp q₀ o) kept :=
  ⟨congrArg (fun r : Query => queryOp r o) h.rest, h.count, h.bound, h.same⟩

/-! ### What the queries share -/

theorem model : q.model = q₀.model := (congrArg Query.model h.rest).symm

theorem bt : q.bt = q₀.bt := (congrArg Query.bt h.rest).symm

theorem unscoped : q.unscoped = q₀.unscoped := (congrArg Query.unscoped h.rest).symm

theorem eq_of_params (hps : q.params = q₀.params) : { q₀ with where_ := q.where_ } = q := by
  have hset := (h.bound (congrArg List.length hps)).2
  have hrest := h.rest
  rw [hps, hset] at hrest
  exact hrest

theorem eq_of_kept (hkept : kept) : q = q₀ := by
  obtain ⟨hw, hps⟩ := h.same.mpr hkept
  have heq := h.eq_of_params hps
  rw [hw] at heq
  exact heq.symm

end Lag

/-! ## What the calls leave -/

variable (mem : Memory) {d : Draft} {q₀ : Query} {kept : Prop}

theorem paramDeepCopy_eq_iff (n : ℕ) (val : Value) :
    (paramDeepCopy mem n val).2 = val ↔ CopyKeeps mem val n := by
  obtain ⟨type, isNull, v⟩ := val
  unfold paramDeepCopy CopyKeeps
  simp only
  split
  · cases mem.fails n <;> simp
  · cases mem.fails n <;> simp
  · rename_i data
    by_cases hdata : data = []
    · simp [hdata]
    · cases mem.fails n <;> simp [hdata]
  · simp

theorem whereSep_eq (q : Query) (connective : Text) :
    whereSep q connective = q.where_ ++ (sepPieces q.where_ connective).flatten := by
  unfold whereSep sepPieces
  split_ifs with h <;> simp [h]

theorem sepPieces_sublist {w w₀ : Text} (h : List.Sublist w w₀) (connective : Text) :
    List.Sublist (sepPieces w connective).flatten (sepPieces w₀ connective).flatten := by
  unfold sepPieces
  split_ifs with hw hw₀ hw₀
  · exact List.Sublist.refl _
  · exact List.nil_sublist _
  · rw [hw₀] at h
    exact absurd (List.sublist_nil.mp h) hw
  · exact List.Sublist.refl _

theorem Lag.addField {q : Query} (h : Lag q q₀ kept) (name test : Text) :
    Lag { q with where_ := whereSep q " AND ".toList ++ name ++ test }
      { q₀ with where_ := whereSep q₀ " AND ".toList ++ name ++ test } kept := by
  rw [whereSep_eq, whereSep_eq]
  simp only [List.append_assoc]
  refine h.addSame (fun hlen => ?_) fun hw _ => by rw [hw]
  exact (sepPieces_sublist (h.bound hlen).1 _).append (List.Sublist.refl _)

namespace Draft

theorem store_query (d : Draft) (val : Value) :
    (d.store mem val).query = queryBind d.query (paramDeepCopy mem d.requests val).2 := rfl

/-- `corm_query_bind` adds at most one parameter, and the value exactly when no request fails. -/
theorem bind_query (d : Draft) (val : Value) : ∃ stored,
    (d.bind mem val).query = { d.query with params := d.query.params ++ stored } ∧
      stored.length ≤ 1 ∧ (stored = [val] ↔ d.BindKeeps mem val) := by
  unfold bind BindKeeps
  by_cases hroom : d.query.params.length < d.paramCap
  · rw [if_pos hroom, if_pos hroom]
    refine ⟨[(paramDeepCopy mem d.requests val).2], store_query mem d val, Nat.le_refl 1, ?_⟩
    rw [List.singleton_inj]
    exact paramDeepCopy_eq_iff mem _ _
  rw [if_neg hroom, if_neg hroom]
  by_cases hfail : mem.fails d.requests = true
  · rw [if_pos hfail]
    exact ⟨[], by simp, Nat.zero_le 1, by simp [hfail]⟩
  · rw [if_neg hfail]
    refine ⟨[(paramDeepCopy mem (d.requests + 1) val).2], store_query mem _ val, Nat.le_refl 1, ?_⟩
    rw [List.singleton_inj, paramDeepCopy_eq_iff]
    simp [hfail]

theorem addText_query (d : Draft) (pieces : List Text) :
    (d.addText pieces).query = { d.query with where_ := d.query.where_ ++ pieces.flatten } := by
  have htext := StrBuf.appendAll_text (fun _ => rfl) 0 d.whereBuf pieces
  unfold addText withWhere
  rw [htext]
  rfl

theorem addField_query (d : Draft) (field : Option Text) (test : Text) :
    (d.addField field test).query =
      { d.query with where_ := whereSep d.query " AND ".toList ++ field.getD [] ++ test } := by
  rw [addField, addText_query, whereSep_eq, List.flatten_append]
  simp

end Draft

/-! ## The lag of the calls -/

section Calls

variable (h : Lag d.query q₀ kept)

include h

theorem lag_bind (val : Value) :
    Lag (d.bind mem val).query (queryBind q₀ val) (kept ∧ d.BindKeeps mem val) := by
  obtain ⟨stored, hquery, hlen, hstored⟩ := d.bind_query mem val
  rw [hquery]
  exact h.bind hlen hstored

theorem lag_addText (pieces : List Text) {t : Text}
    (ht : d.query.params.length = q₀.params.length → pieces.flatten = t) :
    Lag (d.addText pieces).query { q₀ with where_ := q₀.where_ ++ t } kept := by
  rw [d.addText_query]
  refine h.addSame (fun hlen => ?_) fun _ hps => ht (congrArg List.length hps)
  rw [ht hlen]

theorem lag_addField (field : Option Text) (test : Text) :
    Lag (d.addField field test).query
      { q₀ with where_ := whereSep q₀ " AND ".toList ++ field.getD [] ++ test } kept := by
  rw [d.addField_query]
  exact h.addField (field.getD []) test

theorem lag_addWhere (connective condition : Text) :
    Lag (d.addWhere mem connective condition).query
      { q₀ with where_ := whereSep q₀ connective ++ condition }
      (kept ∧ d.WhereKeeps mem connective condition) := by
  obtain ⟨text, htext, hsub, hiff⟩ := StrBuf.appendAll_spec mem.fails d.requests d.whereBuf
    (sepPieces d.query.where_ connective ++ [condition])
  have hquery : (d.addWhere mem connective condition).query =
      { d.query with where_ := d.query.where_ ++ text } := by
    simp only [Draft.addWhere, Draft.withWhere, htext]
    rfl
  rw [List.flatten_append, List.flatten_singleton] at hsub hiff
  rw [hquery, whereSep_eq, List.append_assoc]
  refine h.addText (fun hlen => ?_) fun hw _ => ?_
  · exact hsub.trans ((sepPieces_sublist (h.bound hlen).1 _).append (List.Sublist.refl _))
  · rw [← hw]
    exact hiff

theorem lag_mark (hlen : d.query.params.length = q₀.params.length) :
    d.mark = placeholderStr q₀.bt q₀.params.length := by
  rw [Draft.mark, h.bt, hlen]

theorem lag_addMark : Lag (d.addText [d.mark]).query
    { q₀ with where_ := q₀.where_ ++ placeholderStr q₀.bt q₀.params.length } kept := by
  refine lag_addText h _ fun hlen => ?_
  rw [lag_mark h hlen, List.flatten_singleton]

theorem lag_whereInLoop (i : ℕ) (vals : List Value) :
    Lag (d.whereInLoop mem i vals).query (whereInLoop q₀ i vals)
      (kept ∧ d.LoopKeeps mem i vals) := by
  induction vals generalizing d q₀ kept i with
  | nil => exact h.congr (by simp [Draft.LoopKeeps])
  | cons val vals ih =>
    rw [Draft.whereInLoop, whereInLoop, Draft.LoopKeeps, ← and_assoc]
    refine ih (lag_bind mem (h := ?_) val) (i + 1)
    rw [List.append_assoc]
    refine lag_addText h _ fun hlen => ?_
    rw [lag_mark h hlen]
    split_ifs <;> simp

theorem lag_set (field : Option Text) (val : Value) :
    Lag (d.set mem field val).query (querySet q₀ field val) (kept ∧ d.SetKeeps mem val field) := by
  by_cases hvalid : isValidIdentifier field = true
  · cases field with
    | none => cases hvalid
    | some f =>
      have hclause (q : Query) : querySet q (some f) val = queryOp (queryBind
          { q with setClause := (querySet q (some f) val).setClause } val) .update := by
        simp only [querySet, hvalid, if_true]
        rfl
      have hsame : d.query.params.length = q₀.params.length →
          (querySet d.query (some f) val).setClause = (querySet q₀ (some f) val).setClause := by
        intro hlen
        simp only [querySet, hvalid, if_true, queryBind, hlen, h.bt, (h.bound hlen).2]
      let d' : Draft := { d with query := { d.query with
        setClause := (querySet d.query (some f) val).setClause } }
      have hset : Lag d'.query _ kept := h.setClause hsame
      have hbind := (lag_bind mem hset val).op .update
      rw [Draft.set, if_pos hvalid, hclause q₀]
      refine hbind.congr (and_congr_right fun _ => ?_)
      exact ⟨fun hk _ => hk, fun hk => hk hvalid⟩
  · have hplain : querySet q₀ field val = q₀ := by
      cases field with
      | none => rfl
      | some f => rw [querySet, if_neg hvalid]
    rw [Draft.set, if_neg hvalid, hplain]
    exact h.congr (by simp [Draft.SetKeeps, hvalid])

theorem lag_whereCall (c : WhereCall) :
    Lag (c.draft mem d).query (c.apply q₀) (kept ∧ c.Keeps mem d) := by
  cases c with
  | where_ condition => exact lag_addWhere mem h " AND ".toList condition
  | orWhere condition => exact lag_addWhere mem h " OR ".toList condition
  | bind val => exact lag_bind mem h val
  | whereNull field =>
    refine Lag.congr ?_ (iff_of_eq (and_true kept).symm)
    cases field with
    | none => exact h
    | some f =>
      unfold WhereCall.draft WhereCall.apply queryWhereNull
      simp only
      split_ifs
      · exact lag_addField h (some f) " IS NULL".toList
      · exact h
  | whereNotNull field =>
    refine Lag.congr ?_ (iff_of_eq (and_true kept).symm)
    cases field with
    | none => exact h
    | some f =>
      unfold WhereCall.draft WhereCall.apply queryWhereNotNull
      simp only
      split_ifs
      · exact lag_addField h (some f) " IS NOT NULL".toList
      · exact h
  | whereIn field vals =>
    cases field with
    | none => exact h.congr (by simp [WhereCall.Keeps, isValidIdentifier])
    | some f =>
      unfold WhereCall.draft WhereCall.apply queryWhereIn WhereCall.Keeps
      simp only
      split_ifs with hin
      · have hfield := lag_addField h (some f) " IN (".toList
        have hloop := lag_whereInLoop mem hfield 0 vals
        have hend := lag_addText hloop [")".toList] fun _ => List.flatten_singleton
        exact hend.congr (by simp [hin])
      · exact h.congr (by simp [hin])
  | whereBetween field minVal maxVal =>
    cases field with
    | none => exact h.congr (by simp [WhereCall.Keeps, isValidIdentifier])
    | some f =>
      unfold WhereCall.draft WhereCall.apply queryWhereBetween WhereCall.Keeps
      simp only
      split_ifs with hvalid
      · have hmin := lag_bind mem (lag_addMark (lag_addField h (some f) " BETWEEN ".toList)) minVal
        have hand := lag_addText hmin [" AND ".toList] fun _ => List.flatten_singleton
        have hmax := lag_bind mem (lag_addMark hand) maxVal
        refine hmax.congr ?_
        rw [and_assoc]
        exact and_congr_right fun _ => ⟨fun hk _ => hk, fun hk => hk hvalid⟩
      · exact h.congr (by simp [hvalid])

theorem lag_clauseCall (c : ClauseCall) : Lag (c.apply d.query) (c.apply q₀) kept := by
  have hrest := congrArg (ClauseCall.apply · c) h.rest
  cases c with
  | select _ | limit _ | offset _ | unscoped | distinct =>
    exact ⟨hrest, h.count, h.bound, h.same⟩
  | setRaw _ => exact ⟨hrest, h.count, fun hlen => ⟨(h.bound hlen).1, rfl⟩, h.same⟩
  | join text | order text | group text | having_ text =>
    cases text with
    | none => exact h
    | some _ => exact ⟨hrest, h.count, h.bound, h.same⟩

theorem lag_call (c : DraftCall) :
    Lag (c.apply mem d).query (c.plain q₀) (kept ∧ c.Keeps mem d) := by
  cases c with
  | where_ call => exact lag_whereCall mem h call
  | set field val => exact lag_set mem h field val
  | clause call => exact (lag_clauseCall h call).congr (by simp [DraftCall.Keeps])

/-- **The lag after calls of the builder**: there is none exactly if nothing was lost. -/
theorem lag_calls (calls : List DraftCall) :
    Lag (calls.foldl (DraftCall.apply mem) d).query (calls.foldl DraftCall.plain q₀)
      (kept ∧ AllKeep mem d calls) := by
  induction calls generalizing d q₀ kept with
  | nil => exact h.congr (by simp [AllKeep])
  | cons c calls ih =>
    rw [AllKeep, ← and_assoc]
    exact ih (lag_call mem h c)

end Calls

/-! ## What is sent -/

theorem lag_findScope {q : Query} (h : Lag q q₀ kept) : Lag (findScope q) (findScope q₀) kept := by
  unfold findScope
  rw [h.unscoped, h.model]
  split_ifs
  · exact h
  · cases softDeleteField q₀.model with
    | none => exact h
    | some f =>
      simp only
      unfold queryWhereNull
      cases f.name with
      | none => exact h
      | some name =>
        simp only
        split_ifs
        · exact h.addField name " IS NULL".toList
        · exact h

/-- A statement with a WHERE, and without other texts that depend on it. -/
def HasWhere (build : Query → Text) : Prop :=
  ∀ q : Query, ∃ pre i post, ∀ w,
    build { q with where_ := w } = pre ++ whereText { q with where_ := w } i ++ post

theorem hasWhere_select : HasWhere buildSelect := by
  intro q
  refine ⟨"SELECT ".toList ++ (if q.distinct then "DISTINCT ".toList else []) ++
    (if q.selectCols = [] then "*".toList else q.selectCols) ++ " FROM ".toList ++
    qident q.bt q.model.table ++ clause " ".toList q.joins, 0,
    clause " GROUP BY ".toList q.group ++ (clause " HAVING ".toList q.having_ ++
      (clause " ORDER BY ".toList q.order ++ limitText q)), fun w => ?_⟩
  unfold buildSelect
  rw [List.append_assoc, List.append_assoc, List.append_assoc]
  rfl

theorem hasWhere_update : HasWhere buildUpdate := by
  intro q
  refine ⟨"UPDATE ".toList ++ qident q.bt q.model.table ++ " SET ".toList ++
    (if q.setClause = [] then defaultSets q else appendWithPlaceholders q.bt 0 q.setClause),
    whereOffset q, [], fun w => ?_⟩
  rw [List.append_nil]
  rfl

theorem hasWhere_delete : HasWhere buildDelete := by
  intro q
  refine ⟨"DELETE FROM ".toList ++ qident q.bt q.model.table, 0, [], fun w => ?_⟩
  rw [List.append_nil]
  rfl

theorem HasWhere.length_lt {build : Query → Text} (hbuild : HasWhere build) (q : Query)
    {w w' : Text} (h : List.Sublist w w') (hne : w ≠ w') :
    (build { q with where_ := w }).length < (build { q with where_ := w' }).length := by
  obtain ⟨pre, i, post, hsplit⟩ := hbuild q
  have hlt := length_whereText_lt h hne q i
  rw [hsplit w, hsplit w']
  repeat rw [List.length_append]
  omega

/-- A statement that an append may cut short is the one of the other query exactly when the queries
do not differ and no append is lost. -/
theorem built_iff {q : Query} (h : Lag q q₀ kept) (n : ℕ) {build : Query → Text}
    {pieces : Query → List Text} (hpieces : ∀ q, (pieces q).flatten = build q)
    (hbuild : HasWhere build) :
    (built mem n (pieces q), q.params) = (build q₀, q₀.params) ↔
      kept ∧ BuildKeeps mem n (pieces q) := by
  obtain ⟨text, htext, hsub, hiff⟩ := StrBuf.appendAll_spec mem.fails n .init (pieces q)
  have hbuilt : built mem n (pieces q) = text := htext
  rw [hpieces] at hsub hiff
  rw [hbuilt, Prod.mk.injEq]
  constructor
  · rintro ⟨hsent, hps⟩
    have hw : q.where_ = q₀.where_ := by
      by_contra hne
      have hlt := hbuild.length_lt q₀ (h.bound (congrArg List.length hps)).1 hne
      rw [h.eq_of_params hps] at hlt
      have hle := hsub.length_le
      rw [hsent] at hle
      exact absurd hlt (Nat.not_lt.mpr hle)
    have hkept := h.same.mp ⟨hw, hps⟩
    rw [← h.eq_of_kept hkept] at hsent
    exact ⟨hkept, hiff.mp hsent⟩
  · rintro ⟨hkept, hkeeps⟩
    rw [hiff.mpr hkeeps, h.eq_of_kept hkept]
    exact ⟨rfl, rfl⟩

/-! ## The operations -/

/-- The operation reports an error and sends nothing, or it sends what it sends when no request
fails. -/
def NeverWeakened (mem : Memory) (d : Draft) (calls : List DraftCall) (op : Operation) : Prop :=
  let out := op.run mem (calls.foldl (DraftCall.apply mem) d)
  (out.1 ≠ .ok ∧ out.2 = []) ∨ out.2 = op.plain (calls.foldl DraftCall.plain d.query)

theorem update_weakened_iff (bt : BackendType) (h : Lag d.query q₀ kept) :
    ((d.update mem).1 ≠ .ok ∧ (d.update mem).2 = []) ∨
        (d.update mem).2 = (update (recorder bt) [] q₀).state ↔
      (runHook q₀.model.beforeUpdate none).1 ≠ .ok ∨
        (kept ∧ BuildKeeps mem d.requests (updatePieces d.query)) := by
  have hsent := built_iff mem (h.op .update) d.requests flatten_updatePieces hasWhere_update
  rw [update_recorder]
  unfold Draft.update
  rw [h.model]
  rcases runHook q₀.model.beforeUpdate none with ⟨err, rec⟩
  cases err with
  | ok =>
    simp only [ne_eq, not_true_eq_false, false_and, false_or, if_true, List.cons.injEq, and_true]
    exact hsent
  | _ => simp

theorem find_weakened_iff (h : Lag d.query q₀ kept) :
    (Operation.find.run mem d).2 = Operation.find.plain q₀ ↔
      kept ∧ BuildKeeps mem d.requests (selectPieces (findScope d.query)) := by
  have hsent := built_iff mem ((lag_findScope h).op .select) d.requests
    flatten_selectPieces hasWhere_select
  show [_] = [_] ↔ _
  rw [List.singleton_inj]
  exact hsent

theorem delete_weakened_iff (h : Lag d.query q₀ kept) :
    ((Operation.delete.run mem d).1 ≠ .ok ∧ (Operation.delete.run mem d).2 = []) ∨
        (Operation.delete.run mem d).2 = Operation.delete.plain q₀ ↔
      (runHook (Operation.delete.before q₀.model) none).1 ≠ .ok ∨
        (kept ∧ Operation.delete.Keeps mem d) := by
  unfold Operation.run Operation.plain Operation.before Operation.Keeps delete deleteInternal
  rw [h.model]
  cases hf : softDeleteField q₀.model with
  | some f =>
    have hset := lag_set mem h f.name tombstone
    have hupdate := update_weakened_iff mem q₀.bt hset
    rw [model_querySet, and_assoc] at hupdate
    exact hupdate
  | none =>
    have hsent := built_iff mem (h.op .delete) d.requests flatten_deletePieces
      hasWhere_delete
    unfold execWithHooks
    simp only [Option.isSome_none, Bool.false_eq_true, if_false]
    rcases runHook q₀.model.beforeDelete none with ⟨err, rec⟩
    cases err with
    | ok =>
      simp only [ne_eq, not_true_eq_false, false_and, false_or]
      show [_] = [_] ↔ _
      rw [List.singleton_inj]
      exact hsent
    | _ => simp

theorem model_plain (q : Query) (c : DraftCall) : (c.plain q).model = q.model := by
  cases c with
  | where_ call =>
    cases call with
    | where_ condition | orWhere condition | bind val => rfl
    | whereNull field => exact model_whereNull q field
    | whereNotNull field => exact model_whereNotNull q field
    | whereIn field vals => exact model_whereIn q field vals
    | whereBetween field minVal maxVal => exact model_whereBetween q field minVal maxVal
  | set field val => exact model_querySet q field val
  | clause call =>
    cases call with
    | join text | order text | group text | having_ text => cases text <;> rfl
    | _ => rfl

theorem model_plains (q : Query) (calls : List DraftCall) :
    (calls.foldl DraftCall.plain q).model = q.model := by
  induction calls generalizing q with
  | nil => rfl
  | cons c calls ih => rw [List.foldl_cons, ih, model_plain]

/-- **When a statement is never weakened**: a veto of the hook apart, exactly when no request fails
at which something is lost. -/
theorem never_weakened_iff (mem : Memory) (d : Draft) (calls : List DraftCall) (op : Operation) :
    NeverWeakened mem d calls op ↔ (runHook (op.before d.query.model) none).1 ≠ .ok ∨
      (AllKeep mem d calls ∧ op.Keeps mem (calls.foldl (DraftCall.apply mem) d)) := by
  have h := (lag_calls mem (Lag.refl d.query) calls).congr (iff_of_eq (true_and _))
  unfold NeverWeakened
  rw [← model_plains d.query calls]
  cases op with
  | find =>
    have hok : (runHook (Operation.find.before
        (calls.foldl DraftCall.plain d.query).model) none).1 = .ok := rfl
    have hrun (d : Draft) : (Operation.find.run mem d).1 = .ok := rfl
    simp only [hok, hrun, ne_eq, not_true_eq_false, false_and, false_or]
    exact find_weakened_iff mem h
  | update => exact update_weakened_iff mem _ h
  | delete => exact delete_weakened_iff mem h

/-! ## A DELETE without its WHERE -/

/-- The first request fails. -/
def firstFails : Memory := ⟨fun n => n == 0, id⟩

/-- A new query for the model of `tests/test_full_hooks.c`. -/
def newDraft : Draft := ⟨queryNew .sqlite fullHookModel, 0, 0, 0⟩

/-- The one call before `corm_delete` in `tests/test_full_hooks.c`. -/
def firstId : List DraftCall := [.where_ (.where_ "id = 1".toList)]

/-- When its first request fails, `corm_query_where` adds nothing, and every row is deleted. -/
theorem delete_loses_where :
    (firstId.foldl DraftCall.plain newDraft.query).where_ ≠ [] ∧
    Operation.delete.run firstFails (firstId.foldl (DraftCall.apply firstFails) newDraft) =
      (.ok, [("DELETE FROM \"full_hook_records\"".toList, [])]) ∧
    ¬ NeverWeakened firstFails newDraft firstId .delete := by
  have hrun : Operation.delete.run firstFails
      (firstId.foldl (DraftCall.apply firstFails) newDraft) =
        (.ok, [("DELETE FROM \"full_hook_records\"".toList, [])]) := by decide +kernel
  refine ⟨by decide +kernel, hrun, fun h => ?_⟩
  unfold NeverWeakened at h
  rw [hrun] at h
  exact absurd h (by decide +kernel)

end Corm
