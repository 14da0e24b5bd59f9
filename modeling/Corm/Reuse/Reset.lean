import Corm.Placeholders.Literals
import Corm.Reuse.Steps

/-!
# Queries that are reset

`corm_query_reset` sets all members of a query but the scope.

* `queryReset_eq`: a reset query is a new one, but unscoped if it was;
* `Step.opensScope`, `Step.reads`: the steps that set and that look at the scope;
* `sent_rescope`, `sent_scope_ne`: what a step sends, by the scope of the query;
* **`reset_fresh_iff`**: when a reset query sends what a new one sends.
-/

namespace Corm

variable {q : Query} {step : Step} {steps : List Step}

/-! ## The scope -/

/-- A find on the model filters the rows. -/
def scopes (m : Model) : Bool :=
  match softDeleteField m with
  | some f => isValidIdentifier f.name
  | none => false

/-- The call sets the scope. -/
def BuilderCall.opensScope : BuilderCall → Bool
  | .draft (.clause .unscoped) => true
  | _ => false

namespace Step

/-- The step sets the scope. -/
def opensScope : Step → Bool
  | .call c => c.opensScope
  | _ => false

/-- The step looks at the scope. -/
def reads : Step → Bool
  | .find | .first _ | .count => true
  | _ => false

end Step

/-- The query is read before its scope is set. -/
def readsScoped (steps : List Step) : Bool :=
  (steps.takeWhile fun step => !step.opensScope).any Step.reads

/-- The query with another scope. -/
def rescope (q : Query) (unscoped : Bool) : Query := { q with unscoped }

/-- **A reset query** is a new one, with the scope that it had. -/
theorem queryReset_eq (q : Query) : queryReset q = rescope (queryNew q.bt q.model) q.unscoped := rfl

theorem unscoped_apply (c : BuilderCall) (q : Query) :
    (c.apply q).unscoped = (q.unscoped || c.opensScope) := by
  have h := congrArg Query.unscoped (apply_with c q q.where_ q.op q.limit q.offset q.unscoped)
  refine Eq.trans h ?_
  cases c with
  | draft call =>
    cases call with
    | clause call => cases call <;> simp [BuilderCall.unscopedAfter, BuilderCall.opensScope]
    | _ => exact (Bool.or_false _).symm
  | _ => exact (Bool.or_false _).symm

theorem apply_rescope (c : BuilderCall) (q : Query) (unscoped : Bool) :
    c.apply (rescope q unscoped) = rescope (c.apply q) (unscoped || c.opensScope) := by
  have h := apply_with c q q.where_ q.op q.limit q.offset
  have hu := unscoped_apply c (rescope q unscoped)
  have hself := h q.unscoped
  have hwith : c.apply (rescope q unscoped) =
      rescope (c.apply q) (c.apply (rescope q unscoped)).unscoped := by
    rw [show rescope q unscoped = { q with
      where_ := q.where_, op := q.op, limit := q.limit, offset := q.offset, unscoped } from rfl,
      h unscoped]
    exact congrArg (rescope · (c.unscopedAfter unscoped)) hself.symm
  rw [hwith, hu]
  rfl

theorem unscoped_build (q : Query) (calls : List BuilderCall) :
    (build q calls).unscoped = (q.unscoped || calls.any BuilderCall.opensScope) := by
  induction calls generalizing q with
  | nil => exact (Bool.or_false _).symm
  | cons c calls ih =>
    rw [build, List.foldl_cons, List.any_cons, ← Bool.or_assoc, ← unscoped_apply]
    exact ih (c.apply q)

/-! ## Steps -/

theorem hooked_rescope (before : Option Hook) {bind : Query → Option Record → Query}
    (hbind : ∀ q record u, bind (rescope q u) record = rescope (bind q record) u) (op : QueryOp)
    (q : Query) (record : Option Record) (unscoped : Bool) :
    hooked before bind op (rescope q unscoped) record =
      ((hooked before bind op q record).1, rescope (hooked before bind op q record).2 unscoped) := by
  unfold hooked
  rcases runHook before record with ⟨err, record'⟩
  cases err with
  | ok =>
    have h := hbind (queryOp q op) record' unscoped
    simp only
    rw [show queryOp (rescope q unscoped) op = rescope (queryOp q op) unscoped from rfl, h]
    rfl
  | _ => rfl

theorem bindRecord_rescope (q : Query) (record : Option Record) (unscoped : Bool) :
    bindRecord (rescope q unscoped) record = rescope (bindRecord q record) unscoped := by
  cases record with
  | none => rfl
  | some r =>
    show (insertFields q.model).foldl _ (rescope q unscoped) =
      rescope ((insertFields q.model).foldl _ q) unscoped
    induction insertFields q.model generalizing q with
    | nil => rfl
    | cons f fs ih => exact ih (queryBind q (fieldGetValue r f))

theorem findScope_unfiltered (h : scopes q.model = false) : findScope q = q := by
  unfold scopes at h
  unfold findScope queryWhereNull
  cases hf : softDeleteField q.model with
  | none => split_ifs <;> rfl
  | some f =>
    rw [hf] at h
    cases hn : f.name with
    | none => split_ifs <;> simp [hn]
    | some n =>
      have hv : isValidIdentifier (some n) = false := hn ▸ h
      split_ifs <;> simp [hn, hv]

theorem found_unfiltered (h : scopes q.model = false) :
    found q = ([(buildSelect (queryOp q .select), q.params)], queryOp q .select) := by
  unfold found findQuery
  rw [findScope_unfiltered h]
  rfl

theorem found_rescope (h : scopes q.model = false) (unscoped : Bool) :
    found (rescope q unscoped) = ((found q).1, rescope (found q).2 unscoped) := by
  rw [found_unfiltered (q := rescope q unscoped) h, found_unfiltered h]
  rfl

theorem updated_rescope (q : Query) (unscoped : Bool) :
    updated (rescope q unscoped) = ((updated q).1, rescope (updated q).2 unscoped) :=
  hooked_rescope q.model.beforeUpdate (fun _ _ _ => rfl) .update q none unscoped

/-- **A step that does not look at the scope** sends the same in every scope. -/
theorem sent_rescope (h : step.reads = true → scopes q.model = false) (unscoped : Bool) :
    step.sent (rescope q unscoped) =
      ((step.sent q).1, rescope (step.sent q).2 (unscoped || step.opensScope)) := by
  cases step with
  | call c => exact congrArg (([], ·)) (apply_rescope c q unscoped)
  | find =>
    simp only [Step.opensScope, Bool.or_false]
    exact found_rescope (h rfl) unscoped
  | first record =>
    simp only [Step.opensScope, Bool.or_false]
    exact found_rescope (q := { q with limit := 1, offset := 0 }) (h rfl) unscoped
  | count =>
    have hf := found_rescope (q := { q with selectCols := "COUNT(*)".toList }) (h rfl) unscoped
    simp only [Step.opensScope, Bool.or_false]
    exact congrArg (fun out : Sent => (out.1, { out.2 with selectCols := q.selectCols })) hf
  | create record =>
    simp only [Step.opensScope, Bool.or_false]
    exact hooked_rescope q.model.beforeCreate bindRecord_rescope .insert q (some record) unscoped
  | update =>
    simp only [Step.opensScope, Bool.or_false]
    exact updated_rescope q unscoped
  | delete =>
    simp only [Step.opensScope, Bool.or_false]
    unfold Step.sent
    rw [show (rescope q unscoped).model = q.model from rfl]
    cases softDeleteField q.model with
    | some f =>
      have hset : querySet (rescope q unscoped) f.name tombstone =
          rescope (querySet q f.name tombstone) (unscoped || false) :=
        apply_rescope (.draft (.set f.name tombstone)) q unscoped
      simp only [hset, Bool.or_false]
      exact updated_rescope (querySet q f.name tombstone) unscoped
    | none => exact hooked_rescope q.model.beforeDelete (fun _ _ _ => rfl) .delete q none unscoped

/-! ## What a find shows of the scope -/

theorem appendWithPlaceholders_length_pos {bt : BackendType} {w : Text} (hw : w ≠ []) (i : ℕ) :
    0 < (appendWithPlaceholders bt i w).length := by
  cases w with
  | nil => exact absurd rfl hw
  | cons c w =>
    unfold appendWithPlaceholders
    split_ifs
    · cases bt <;> simp [placeholderStr]
    · simp

theorem length_buildSelect_lt {w x y : Text} (hw : q.where_ = w) (hy : y ≠ [])
    (hx : x = w ++ y) : (buildSelect q).length < (buildSelect { q with where_ := x }).length := by
  have hlen : (whereText q 0).length < (whereText { q with where_ := x } 0).length := by
    have hpos : 0 < (appendWithPlaceholders q.bt (0 + w.count '?') y).length :=
      appendWithPlaceholders_length_pos hy _
    have hne : x ≠ [] := fun h => hy (List.append_eq_nil_iff.mp (hx ▸ h)).2
    unfold whereText
    rw [if_neg hne, hw]
    simp only [hx, appendWithPlaceholders_append, List.length_append]
    split_ifs
    · simp only [List.length_nil]
      omega
    · rw [List.length_append]
      omega
  rw [buildSelect_parts, buildSelect_parts]
  simp only [List.length_append]
  exact Nat.add_lt_add_left (Nat.add_lt_add_right hlen _) _

/-- **A find shows the scope** of its query on a model with a filter. -/
theorem found_scope_ne (h : scopes q.model = true) (hq : q.unscoped = false) :
    (found (rescope q true)).1 ≠ (found q).1 := by
  unfold scopes at h
  cases hf : softDeleteField q.model with
  | none =>
    rw [hf] at h
    cases h
  | some f =>
    rw [hf] at h
    cases hn : f.name with
    | none => simp [hn, isValidIdentifier] at h
    | some n =>
      have hid : isValidIdentifier (some n) = true := hn ▸ (show isValidIdentifier f.name = true from h)
      have hscope : findQuery q = queryOp { q with
          where_ := whereSep q " AND ".toList ++ n ++ " IS NULL".toList } .select := by
        unfold findQuery findScope
        simp only [hq, Bool.false_eq_true, if_false, hf, hn, queryWhereNull, if_pos hid]
      have hlen := length_buildSelect_lt (q := queryOp q .select) (w := q.where_)
        (x := whereSep q " AND ".toList ++ n ++ " IS NULL".toList)
        (y := (if q.where_ = [] then [] else " AND ".toList) ++ n ++ " IS NULL".toList) rfl
        (by simp) (by unfold whereSep; split_ifs with hw <;> simp [hw])
      intro he
      have htext : buildSelect (findQuery (rescope q true)) = buildSelect (findQuery q) :=
        congrArg Prod.fst (List.cons.inj he).1
      have hfree : buildSelect (findQuery (rescope q true)) = buildSelect (queryOp q .select) := rfl
      rw [hscope, hfree] at htext
      rw [htext] at hlen
      exact lt_irrefl _ hlen

theorem sent_scope_ne (hr : step.reads = true) (h : scopes q.model = true)
    (hq : q.unscoped = false) : (step.sent (rescope q true)).1 ≠ (step.sent q).1 := by
  cases step with
  | find => exact found_scope_ne h hq
  | first record => exact found_scope_ne (q := { q with limit := 1, offset := 0 }) h hq
  | count => exact found_scope_ne (q := { q with selectCols := "COUNT(*)".toList }) h hq
  | _ => cases hr

/-! ## Sequences -/

theorem frame_hooked (before : Option Hook) {bind : Query → Option Record → Query}
    (hbind : ∀ q record, (bind q record).bt = q.bt ∧ (bind q record).model = q.model ∧
      (bind q record).unscoped = q.unscoped)
    (op : QueryOp) (q : Query) (record : Option Record) :
    (hooked before bind op q record).2.bt = q.bt ∧
      (hooked before bind op q record).2.model = q.model ∧
      (hooked before bind op q record).2.unscoped = q.unscoped := by
  unfold hooked
  rcases runHook before record with ⟨err, record'⟩
  cases err with
  | ok => exact hbind (queryOp q op) record'
  | _ => exact ⟨rfl, rfl, rfl⟩

theorem frame_bindRecord (q : Query) (record : Option Record) :
    (bindRecord q record).bt = q.bt ∧ (bindRecord q record).model = q.model ∧
      (bindRecord q record).unscoped = q.unscoped := by
  cases record with
  | none => exact ⟨rfl, rfl, rfl⟩
  | some r =>
    show ((insertFields q.model).foldl _ q).bt = _ ∧ ((insertFields q.model).foldl _ q).model = _ ∧
      ((insertFields q.model).foldl _ q).unscoped = _
    generalize insertFields q.model = fs
    induction fs generalizing q with
    | nil => exact ⟨rfl, rfl, rfl⟩
    | cons f fs ih => exact ih (queryBind q (fieldGetValue r f))

theorem frame_found (q : Query) : (found q).2.bt = q.bt ∧ (found q).2.model = q.model ∧
    (found q).2.unscoped = q.unscoped := by
  show (findScope q).bt = _ ∧ (findScope q).model = _ ∧ (findScope q).unscoped = _
  obtain ⟨w, hw⟩ := findScope_where q
  rw [hw]
  exact ⟨rfl, rfl, rfl⟩

theorem frame_sent (step : Step) (q : Query) : (step.sent q).2.bt = q.bt ∧
    (step.sent q).2.model = q.model ∧
    (step.sent q).2.unscoped = (q.unscoped || step.opensScope) := by
  cases step with
  | call c => exact ⟨(frame_apply c q).1, (frame_apply c q).2.1, unscoped_apply c q⟩
  | find =>
    simp only [Step.opensScope, Bool.or_false]
    exact frame_found q
  | first record =>
    simp only [Step.opensScope, Bool.or_false]
    exact frame_found { q with limit := 1, offset := 0 }
  | count =>
    simp only [Step.opensScope, Bool.or_false]
    exact frame_found { q with selectCols := "COUNT(*)".toList }
  | create record =>
    simp only [Step.opensScope, Bool.or_false]
    exact frame_hooked _ frame_bindRecord .insert q (some record)
  | update =>
    simp only [Step.opensScope, Bool.or_false]
    exact frame_hooked _ (fun _ _ => ⟨rfl, rfl, rfl⟩) .update q none
  | delete =>
    simp only [Step.opensScope, Bool.or_false]
    unfold Step.sent
    cases softDeleteField q.model with
    | some f =>
      have hset := unscoped_apply (.draft (.set f.name tombstone)) q
      have h : (updated (querySet q f.name tombstone)).2.bt = _ ∧
          (updated (querySet q f.name tombstone)).2.model = _ ∧
          (updated (querySet q f.name tombstone)).2.unscoped = _ :=
        frame_hooked _ (fun _ _ => ⟨rfl, rfl, rfl⟩) .update (querySet q f.name tombstone) none
      obtain ⟨hbt, hmodel, -⟩ := frame_apply (.draft (.set f.name tombstone)) q
      exact ⟨h.1.trans hbt, h.2.1.trans hmodel, h.2.2.trans (hset.trans (Bool.or_false _))⟩
    | none => exact frame_hooked _ (fun _ _ => ⟨rfl, rfl, rfl⟩) .delete q none

theorem readsScoped_cons (step : Step) (steps : List Step) : readsScoped (step :: steps) =
    (!step.opensScope && (step.reads || readsScoped steps)) := by
  unfold readsScoped
  rw [List.takeWhile_cons]
  cases step.opensScope <;> rfl

/-- **All that is sent, by the scope of the query.** -/
theorem sentBy_scope_iff (hq : q.unscoped = false) (steps : List Step) :
    sentBy (rescope q true) steps = sentBy q steps ↔
      scopes q.model = false ∨ readsScoped steps = false := by
  induction steps generalizing q with
  | nil => exact ⟨fun _ => Or.inr rfl, fun _ => rfl⟩
  | cons step steps ih =>
    obtain ⟨-, hmodel, hunscoped⟩ := frame_sent step q
    rw [hq, Bool.false_or] at hunscoped
    rw [readsScoped_cons, sentBy, sentBy]
    by_cases hr : step.reads = true ∧ scopes q.model = true
    · -- the first statements differ, and the rest does not matter
      have hne := sent_scope_ne hr.1 hr.2 hq
      have hlen : (step.sent (rescope q true)).1.length = (step.sent q).1.length := by
        cases step with
        | find | first | count => rfl
        | _ => cases hr.1
      have hopen : step.opensScope = false := by
        cases step with
        | call => cases hr.1
        | _ => rfl
      rw [hr.1, hr.2, hopen]
      constructor
      · intro h
        exact absurd (List.append_inj h hlen).1 hne
      · intro h
        rcases h with h | h <;> cases h
    · have hread (h : step.reads = true) : scopes q.model = false := by
        cases hs : scopes q.model with
        | false => rfl
        | true => exact absurd ⟨h, hs⟩ hr
      rw [sent_rescope hread, List.append_cancel_left_eq, Bool.true_or]
      cases hopen : step.opensScope with
      | true =>
        have hself : rescope (step.sent q).2 true = (step.sent q).2 := by
          unfold rescope
          rw [← hopen, ← hunscoped]
        rw [hself]
        exact ⟨fun _ => Or.inr rfl, fun _ => rfl⟩
      | false =>
        rw [ih (hunscoped.trans hopen), hmodel]
        cases hs : scopes q.model with
        | false => simp
        | true =>
          have hno : step.reads = false := by
            cases h : step.reads with
            | false => rfl
            | true => exact absurd (hread h) (by simp [hs])
          simp [hno]

/-- **Reset means fresh**, on every backend: after any builder calls and a reset, any calls and
executions send what they send on a new query if and only if the calls did not make the query
unscoped, the model has no filter for a find, or no find comes before the query is made unscoped. -/
theorem reset_fresh_iff {σ : Type} (b : Backend σ Result) (s : σ) (m : Model)
    (calls : List BuilderCall) (steps : List Step) :
    (runSteps b.logged (s, []) (queryReset (build (queryNew b.type m) calls)) steps).2.2 =
        (runSteps b.logged (s, []) (queryNew b.type m) steps).2.2 ↔
      calls.any BuilderCall.opensScope = false ∨ scopes m = false ∨
        readsScoped steps = false := by
  obtain ⟨hbt, hmodel⟩ := frame_build (queryNew b.type m) calls
  have hu : (build (queryNew b.type m) calls).unscoped = calls.any BuilderCall.opensScope :=
    unscoped_build (queryNew b.type m) calls
  rw [runSteps_logged, runSteps_logged, List.append_cancel_left_eq, queryReset_eq, hbt, hmodel, hu]
  cases calls.any BuilderCall.opensScope with
  | false => exact ⟨fun _ => Or.inl rfl, fun _ => rfl⟩
  | true =>
    rw [show queryNew (queryNew b.type m).bt (queryNew b.type m).model = queryNew b.type m from rfl,
      sentBy_scope_iff rfl]
    exact ⟨Or.inr, fun h => h.resolve_left Bool.noConfusion⟩

/-! ## A filter that is lost -/

/-- A backend that answers nothing. -/
def silent (type : BackendType) : Backend Unit Result where
  type := type
  exec s _ _ := (.ok, s)
  query s _ _ := (.ok, none, s)
  begin_ s := (.ok, s)
  commit s := (.ok, s)
  rollback s := (.ok, s)
  lastInsertId _ := 0
  rowsAffected _ := 0

/-- After `corm_query_unscoped`, a reset and `corm_find`, there is no filter in the statement. -/
theorem reset_stays_unscoped :
    ¬ (runSteps (silent .sqlite).logged ((), [])
        (queryReset (build (queryNew .sqlite softUserModel) [.draft (.clause .unscoped)]))
        [.find]).2.2 =
      (runSteps (silent .sqlite).logged ((), []) (queryNew .sqlite softUserModel) [.find]).2.2 := by
  decide +kernel

end Corm
