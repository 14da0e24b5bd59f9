import Corm.Calls
import Corm.Placeholders.Select

/-!
# Placeholders and parameters

On a dialect with `?`, the placeholders of a statement and the parameters it is sent with.

* `Served`: one bound value for each `?` of the texts given to `corm_query_where`,
  `corm_query_or_where` and `corm_query_set_raw`;
* `ledger_apply`, `ledger_build`: what a call, and any calls, add to the parameters and to WHERE;
* `count_select`, `count_update`, `count_delete`: the `?` of the statements;
* **`placeholders_bound_iff`**: when an operation sends as many parameters as placeholders.
-/

namespace Corm

variable {bt : BackendType} {m : Model} {q : Query} {w : Text} {c : BuilderCall}
  {calls : List BuilderCall}

/-! ## Values and placeholders of the calls -/

namespace BuilderCall

/-- The `?` that the caller binds a value for. -/
def asked : BuilderCall → ℕ
  | .draft (.where_ (.where_ condition)) | .draft (.where_ (.orWhere condition)) =>
    condition.count '?'
  | .draft (.clause (.setRaw clause)) => clause.count '?'
  | _ => 0

/-- The values that the caller binds. -/
def bound : BuilderCall → ℕ
  | .draft (.where_ (.bind _)) => 1
  | _ => 0

/-- The values for SET: those of `corm_query_set`, and one for each `?` of a `corm_query_set_raw`. -/
def forSet : BuilderCall → ℕ
  | .draft (.set field val) => if (FieldCall.set field val).accepted then 1 else 0
  | .draft (.clause (.setRaw clause)) => clause.count '?'
  | _ => 0

end BuilderCall

/-- One value is bound for each `?` of the texts. -/
def Served (calls : List BuilderCall) : Prop :=
  (calls.map BuilderCall.bound).sum = (calls.map BuilderCall.asked).sum

/-- The values that calls give for SET. -/
def forSet (calls : List BuilderCall) : ℕ := (calls.map BuilderCall.forSet).sum

theorem markChar_of_ne (hbt : bt ≠ .postgres) : markChar bt = '?' := by
  cases bt with
  | postgres => exact absurd rfl hbt
  | mysql | sqlite => rfl

theorem ledger_field (hbt : bt ≠ .postgres) (f : FieldCall) (n : ℕ) (w : Text) :
    (if f.accepted then f.vals else []).length + w.count '?' =
      (glue w (if f.accepted && !f.isSet then some (" AND ".toList, f.text bt n) else none)).count '?' +
        if f.isSet && f.accepted then f.vals.length else 0 := by
  cases ha : f.accepted with
  | false => simp [glue]
  | true =>
    cases hs : f.isSet with
    | true => simp [glue, Nat.add_comm]
    | false =>
      have hcount := count_writes (text_writes ha bt n)
      rw [markChar_of_ne hbt] at hcount
      simp only [Bool.not_false, Bool.and_true, if_true, Bool.false_eq_true, if_false]
      rw [count_glue _ _ _ (by decide), hcount]
      omega

theorem ledger_piece (hbt : bt ≠ .postgres) (c : BuilderCall) (n : ℕ) (w : Text) :
    c.vals.length + w.count '?' + c.asked =
      (glue w (c.piece bt n)).count '?' + c.bound + c.forSet := by
  have hraw (k t : Text) (hk : '?' ∉ k) := count_glue w k t hk
  cases c with
  | op | preload => exact Nat.zero_add _
  | draft call =>
    cases call with
    | set field val => exact ledger_field hbt (.set field val) n w
    | where_ call =>
      cases call with
      | where_ condition =>
        have h := hraw " AND ".toList condition (by decide)
        show 0 + w.count '?' + condition.count '?' =
          (glue w (some (" AND ".toList, condition))).count '?' + 0 + 0
        omega
      | orWhere condition =>
        have h := hraw " OR ".toList condition (by decide)
        show 0 + w.count '?' + condition.count '?' =
          (glue w (some (" OR ".toList, condition))).count '?' + 0 + 0
        omega
      | bind val => exact Nat.add_comm 1 (w.count '?')
      | whereNull field => exact ledger_field hbt (.whereNull field) n w
      | whereNotNull field => exact ledger_field hbt (.whereNotNull field) n w
      | whereIn field vals => exact ledger_field hbt (.whereIn field vals) n w
      | whereBetween field minVal maxVal =>
        exact ledger_field hbt (.whereBetween field minVal maxVal) n w
    | clause call =>
      cases call with
      | setRaw clause => exact congrArg (· + clause.count '?') (Nat.zero_add (w.count '?'))
      | _ => exact Nat.zero_add _

/-- **What a call adds** to the parameters and to the WHERE. -/
theorem ledger_apply (hbt : q.bt ≠ .postgres) (c : BuilderCall) :
    (c.apply q).params.length + q.where_.count '?' + c.asked =
      q.params.length + (c.apply q).where_.count '?' + c.bound + c.forSet := by
  have h := ledger_piece hbt c q.params.length q.where_
  rw [where_apply, (frame_apply c q).2.2, List.length_append]
  omega

theorem ledger_build (hbt : q.bt ≠ .postgres) (calls : List BuilderCall) :
    (build q calls).params.length + q.where_.count '?' + (calls.map BuilderCall.asked).sum =
      q.params.length + (build q calls).where_.count '?' + (calls.map BuilderCall.bound).sum +
        forSet calls := by
  induction calls generalizing q with
  | nil => rfl
  | cons c calls ih =>
    have hc := ledger_apply hbt c
    have hcs := ih (q := c.apply q) (by rwa [(frame_apply c q).1])
    simp only [build, forSet, List.foldl_cons, List.map_cons, List.sum_cons] at hcs ⊢
    omega

/-- **The parameters of a query** whose texts are served: one for each `?` of its WHERE, and the
values for SET. -/
theorem params_build (hbt : bt ≠ .postgres) (hs : Served calls) :
    (build (queryNew bt m) calls).params.length =
      (build (queryNew bt m) calls).where_.count '?' + forSet calls := by
  have h := ledger_build (q := queryNew bt m) hbt calls
  have hnew : (queryNew bt m).where_.count '?' = 0 ∧ (queryNew bt m).params.length = 0 := ⟨rfl, rfl⟩
  unfold Served at hs
  omega

/-! ## The placeholders of the statements -/

theorem count_clause {k : Text} (hk : '?' ∉ k) (w : Text) : (clause k w).count '?' = w.count '?' := by
  unfold clause
  split_ifs with hw
  · rw [hw]
  · rw [List.count_append, List.count_eq_zero.mpr hk, Nat.zero_add]

theorem count_whereText (hbt : q.bt ≠ .postgres) (i : ℕ) :
    (whereText q i).count '?' = q.where_.count '?' := by
  have hk : '?' ∉ " WHERE ".toList := by decide
  unfold whereText
  rw [appendWithPlaceholders_id fun h => absurd h hbt]
  split_ifs with hw
  · rw [hw]
  · rw [List.count_append, List.count_eq_zero.mpr hk, Nat.zero_add]

theorem count_qident {s : Text} (hs : Ident s) (bt : BackendType) : (qident bt s).count '?' = 0 := by
  have hq : (dialectQuote bt).count '?' = 0 := by cases bt <;> rfl
  rw [qident, List.count_append, List.count_append, hq, List.count_eq_zero.mpr (hs.notMem rfl)]

/-- The `?` of the clauses of a SELECT other than its WHERE. -/
def selectMarks (q : Query) : ℕ :=
  q.selectCols.count '?' + q.joins.count '?' + q.group.count '?' + q.having_.count '?' +
    q.order.count '?'

theorem count_selectHead (ht : Ident q.model.table) :
    (selectHead q).count '?' = q.selectCols.count '?' + q.joins.count '?' := by
  have hselect : "SELECT ".toList.count '?' = 0 := List.count_eq_zero.mpr (by decide)
  have hfrom : " FROM ".toList.count '?' = 0 := List.count_eq_zero.mpr (by decide)
  have hdistinct : (if q.distinct then "DISTINCT ".toList else []).count '?' = 0 := by
    split_ifs
    · exact List.count_eq_zero.mpr (by decide)
    · rfl
  have hcols : (if q.selectCols = [] then "*".toList else q.selectCols).count '?' =
      q.selectCols.count '?' := by
    split_ifs with h
    · rw [h]
      rfl
    · rfl
  have hjoins := count_clause (k := " ".toList) (by decide) q.joins
  unfold selectHead
  rw [List.count_append, List.count_append, List.count_append, List.count_append, List.count_append,
    hselect, hfrom, hdistinct, hcols, hjoins, count_qident ht]
  omega

theorem count_selectTail (q : Query) :
    (selectTail q).count '?' = q.group.count '?' + q.having_.count '?' + q.order.count '?' := by
  have hgroup := count_clause (k := " GROUP BY ".toList) (by decide) q.group
  have hhaving := count_clause (k := " HAVING ".toList) (by decide) q.having_
  have horder := count_clause (k := " ORDER BY ".toList) (by decide) q.order
  unfold selectTail
  rw [List.count_append, List.count_append, List.count_append, hgroup, hhaving, horder,
    List.count_eq_zero.mpr (notMem_limit q)]
  omega

theorem count_select (ht : Ident q.model.table) (hbt : q.bt ≠ .postgres) :
    (buildSelect q).count '?' = q.where_.count '?' + selectMarks q := by
  rw [buildSelect_parts, List.count_append, List.count_append, count_selectHead ht,
    count_whereText hbt, count_selectTail, selectMarks]
  omega

theorem count_commaSep (parts : List Text) :
    (commaSep parts).count '?' = (parts.map (List.count '?')).sum := by
  have hled (parts : List Text) : (led parts).count '?' = (parts.map (List.count '?')).sum := by
    have hk : '?' ∉ ", ".toList := by decide
    induction parts with
    | nil => rfl
    | cons p ps ih =>
      rw [led, List.flatMap_cons, List.count_append, List.count_append, List.count_eq_zero.mpr hk,
        Nat.zero_add, List.map_cons, List.sum_cons, ← ih, led]
  cases parts with
  | nil => rfl
  | cons p ps => rw [commaSep_cons, List.count_append, hled, List.map_cons, List.sum_cons]

theorem count_defaultSets (hm : Validated q.model) (hbt : q.bt ≠ .postgres) :
    (defaultSets q).count '?' = (updateFields q.model).length := by
  have hone : ∀ n ∈ ((updateFields q.model).mapIdx fun i f =>
      qident q.bt f.nm ++ " = ".toList ++ placeholderStr q.bt i).map (List.count '?'), n = 1 := by
    intro n hn
    obtain ⟨t, ht, rfl⟩ := List.mem_map.mp hn
    obtain ⟨i, hi, rfl⟩ := List.mem_mapIdx.mp ht
    have hf := List.mem_of_mem_filter (List.getElem_mem hi)
    have heq : " = ".toList.count '?' = 0 := List.count_eq_zero.mpr (by decide)
    have hmark := count_placeholder q.bt i
    rw [markChar_of_ne hbt] at hmark
    rw [List.count_append, List.count_append, count_qident (hm.ident_nm hf), heq, hmark]
  unfold defaultSets
  rw [count_commaSep, List.eq_replicate_of_mem hone]
  simp

theorem count_update (hm : Validated q.model) (hbt : q.bt ≠ .postgres) :
    (buildUpdate q).count '?' = whereOffset q + q.where_.count '?' := by
  have hupdate : "UPDATE ".toList.count '?' = 0 := List.count_eq_zero.mpr (by decide)
  have hset : " SET ".toList.count '?' = 0 := List.count_eq_zero.mpr (by decide)
  have hsets : (if q.setClause = [] then defaultSets q
      else appendWithPlaceholders q.bt 0 q.setClause).count '?' = whereOffset q := by
    unfold whereOffset
    split_ifs
    · exact count_defaultSets hm hbt
    · rw [appendWithPlaceholders_id fun h => absurd h hbt]
  unfold buildUpdate
  rw [List.count_append, List.count_append, List.count_append, List.count_append, hupdate, hset,
    hsets, count_qident hm.table, count_whereText hbt]
  omega

theorem count_delete (hm : Validated q.model) (hbt : q.bt ≠ .postgres) :
    (buildDelete q).count '?' = q.where_.count '?' := by
  have hdelete : "DELETE FROM ".toList.count '?' = 0 := List.count_eq_zero.mpr (by decide)
  unfold buildDelete
  rw [List.count_append, List.count_append, hdelete, count_qident hm.table, count_whereText hbt]
  omega

/-! ## The operations -/

/-- The placeholders of a statement are as many as its parameters. -/
def Balanced (e : Text × List Value) : Prop := marksOutside .idle e.1 = e.2.length

theorem balanced_iff {e : Text × List Value} (h : Bare e.1) :
    Balanced e ↔ e.1.count '?' = e.2.length := by
  unfold Balanced
  rw [marksOutside_bare h]

/-- The operation takes `n` values besides those of its WHERE. -/
def Operation.Takes (q : Query) (n : ℕ) : Operation → Prop
  | .find => n = selectMarks q
  | .update => n = whereOffset q
  | .delete => n = if (softDeleteField q.model).isSome then q.setClause.count '?' else 0

/-- The operation is vetoed by its hook. -/
def Operation.Vetoed (m : Model) (op : Operation) : Prop := (runHook (op.before m) none).1 ≠ .ok

theorem balanced_unless {err : Err} {e : Text × List Value}
    (hbare : ∀ e' ∈ (if err = .ok then [e] else []), Bare e'.1) {P : Prop}
    (hP : e.1.count '?' = e.2.length ↔ P) :
    (∀ e' ∈ (if err = .ok then [e] else []), Balanced e') ↔ err ≠ .ok ∨ P := by
  split_ifs at hbare ⊢ with herr
  · have he := balanced_iff (hbare e (List.mem_singleton_self e))
    simp only [List.mem_singleton, forall_eq, he, hP, herr, ne_eq, not_true, false_or]
  · simp [herr]

theorem frame_findScope (hbt : q.bt ≠ .postgres) : (findScope q).bt = q.bt ∧
    (findScope q).model = q.model ∧ selectMarks (findScope q) = selectMarks q ∧
    (findScope q).params = q.params ∧ (findScope q).where_.count '?' = q.where_.count '?' := by
  have hnull (field : Option Text) : (queryWhereNull q field).bt = q.bt ∧
      (queryWhereNull q field).model = q.model ∧
      selectMarks (queryWhereNull q field) = selectMarks q ∧
      (queryWhereNull q field).params = q.params ∧
      (queryWhereNull q field).where_.count '?' = q.where_.count '?' := by
    have hw := ledger_apply hbt (.draft (.where_ (.whereNull field)))
    have hkeep : (queryWhereNull q field).bt = q.bt ∧ (queryWhereNull q field).model = q.model ∧
        selectMarks (queryWhereNull q field) = selectMarks q ∧
        (queryWhereNull q field).params = q.params := by
      unfold queryWhereNull
      split
      · split_ifs <;> exact ⟨rfl, rfl, rfl, rfl⟩
      · exact ⟨rfl, rfl, rfl, rfl⟩
    have hparams : (queryWhereNull q field).params.length + q.where_.count '?' =
        q.params.length + (queryWhereNull q field).where_.count '?' := hw
    rw [hkeep.2.2.2] at hparams
    exact ⟨hkeep.1, hkeep.2.1, hkeep.2.2.1, hkeep.2.2.2, by omega⟩
  unfold findScope
  split_ifs
  · exact ⟨rfl, rfl, rfl, rfl, rfl⟩
  · split
    · exact hnull _
    · exact ⟨rfl, rfl, rfl, rfl, rfl⟩

theorem balanced_find (hm : Validated q.model) (hbt : q.bt ≠ .postgres)
    (hbare : ∀ e ∈ Operation.find.plain q, Bare e.1) {n : ℕ}
    (hn : q.params.length = q.where_.count '?' + n) :
    (∀ e ∈ Operation.find.plain q, Balanced e) ↔ n = selectMarks q := by
  obtain ⟨hb, hmodel, hmarks, hparams, hwhere⟩ := frame_findScope hbt
  have hplain : Operation.find.plain q =
      [(buildSelect (queryOp (findScope q) .select), (findScope q).params)] := rfl
  have hcount := count_select (q := queryOp (findScope q) .select)
    (show Ident (findScope q).model.table by rw [hmodel]; exact hm.table)
    (show (findScope q).bt ≠ .postgres by rwa [hb])
  have hsame : (queryOp (findScope q) .select).where_ = (findScope q).where_ ∧
      selectMarks (queryOp (findScope q) .select) = selectMarks (findScope q) := ⟨rfl, rfl⟩
  rw [hplain] at hbare ⊢
  simp only [List.mem_singleton, forall_eq] at hbare ⊢
  rw [balanced_iff hbare, hcount, hsame.1, hsame.2, hwhere, hmarks, hparams, hn]
  omega

theorem balanced_update (hm : Validated q.model) (hbt : q.bt ≠ .postgres) (b : BackendType)
    (hbare : ∀ e ∈ (update (recorder b) [] q).state, Bare e.1) {n : ℕ}
    (hn : q.params.length = q.where_.count '?' + n) :
    (∀ e ∈ (update (recorder b) [] q).state, Balanced e) ↔
      (runHook q.model.beforeUpdate none).1 ≠ .ok ∨ n = whereOffset q := by
  rw [update_recorder] at hbare ⊢
  refine balanced_unless hbare ?_
  have hcount := count_update (q := queryOp q .update) hm hbt
  have hw : whereOffset (queryOp q .update) = whereOffset q := rfl
  have hww : (queryOp q .update).where_ = q.where_ := rfl
  rw [hcount, hw, hww, hn]
  omega

theorem frame_tombstone (hbt : q.bt ≠ .postgres) {f : Field} (hf : isValidIdentifier f.name = true) :
    whereOffset (querySet q f.name tombstone) = q.setClause.count '?' + 1 ∧
    (querySet q f.name tombstone).params.length = q.params.length + 1 ∧
    (querySet q f.name tombstone).where_ = q.where_ := by
  have ha : (FieldCall.set f.name tombstone).accepted = true := (Bool.and_true _).trans hf
  have happly : querySet q f.name tombstone = _ := (apply_accepted ha q).trans (if_pos rfl)
  have hwrites := text_writes ha q.bt q.params.length
  have hcount := count_writes hwrites
  rw [markChar_of_ne hbt] at hcount
  have hsep : (if q.setClause = [] then [] else q.setClause ++ ", ".toList).count '?' =
      q.setClause.count '?' := by
    have hk : ", ".toList.count '?' = 0 := List.count_eq_zero.mpr (by decide)
    split_ifs with hs
    · rw [hs]
    · rw [List.count_append, hk, Nat.add_zero]
  rw [happly]
  refine ⟨?_, by rw [List.length_append]; rfl, rfl⟩
  unfold whereOffset
  rw [if_neg fun h => writes_ne_nil hwrites (List.append_eq_nil_iff.mp h).2, List.count_append, hsep,
    hcount]
  rfl

theorem balanced_delete (hm : Validated q.model) (hbt : q.bt ≠ .postgres)
    (hbare : ∀ e ∈ Operation.delete.plain q, Bare e.1) {n : ℕ}
    (hn : q.params.length = q.where_.count '?' + n) :
    (∀ e ∈ Operation.delete.plain q, Balanced e) ↔
      Operation.Vetoed q.model .delete ∨ Operation.Takes q n .delete := by
  unfold Operation.plain delete deleteInternal at hbare ⊢
  unfold Operation.Vetoed Operation.before Operation.Takes
  cases hf : softDeleteField q.model with
  | some f =>
    simp only [hf] at hbare ⊢
    obtain ⟨hoffset, hparams, hwhere⟩ :=
      frame_tombstone hbt (hm.ident f (softDeleteField_mem hf))
    have hmodel := model_querySet q f.name tombstone
    have hb : (querySet q f.name tombstone).bt = q.bt :=
      (frame_apply (.draft (.set f.name tombstone)) q).1
    have h := balanced_update (q := querySet q f.name tombstone) (by rwa [hmodel]) (by rwa [hb]) q.bt
      hbare (n := n + 1) (by rw [hparams, hwhere, hn]; omega)
    rw [hoffset, hmodel, Nat.add_left_inj] at h
    exact h
  | none =>
    simp only [hf] at hbare ⊢
    have hstate : (execWithHooks (recorder q.bt) q.model.beforeDelete q.model.afterDelete
        (recorder q.bt).rowsAffected (fun q _ => q) .delete [] q none).state =
        if (runHook q.model.beforeDelete none).1 = .ok then
          [(buildDelete (queryOp q .delete), q.params)] else [] := by
      unfold execWithHooks
      rcases runHook q.model.beforeDelete none with ⟨err, record⟩
      cases err <;> rfl
    rw [hstate] at hbare ⊢
    refine balanced_unless hbare ?_
    have hcount := count_delete (q := queryOp q .delete) hm hbt
    have hwhere : (queryOp q .delete).where_ = q.where_ := rfl
    rw [hcount, hwhere, hn, Option.isSome_none, if_neg Bool.false_ne_true]
    omega

/-- **Every placeholder has its parameter**, on a dialect with `?` and for any calls that bind one
value for each `?` of the texts given to `corm_query_where`, `corm_query_or_where` and
`corm_query_set_raw`: an operation sends as many parameters as placeholders if and only if its hook
vetoes it or the statement takes just the values that were given for SET. -/
theorem placeholders_bound_iff (hbt : bt ≠ .postgres) (hm : validateModel m = .ok)
    (hs : Served calls) (op : Operation)
    (hbare : ∀ e ∈ op.plain (build (queryNew bt m) calls), Bare e.1) :
    (∀ e ∈ op.plain (build (queryNew bt m) calls), Balanced e) ↔
      op.Vetoed m ∨ op.Takes (build (queryNew bt m) calls) (forSet calls) := by
  obtain ⟨hb, hmodel⟩ := frame_build (queryNew bt m) calls
  have hv : Validated (build (queryNew bt m) calls).model := by
    rw [hmodel]
    exact validated_of_ok hm
  have hb' : (build (queryNew bt m) calls).bt ≠ .postgres := by rwa [hb]
  have hn := params_build (m := m) hbt hs
  cases op with
  | find =>
    rw [balanced_find hv hb' hbare hn]
    exact ⟨Or.inr, fun h => h.resolve_left fun hveto => hveto rfl⟩
  | update =>
    have h := balanced_update hv hb' _ hbare hn
    rwa [hmodel] at h
  | delete =>
    have h := balanced_delete hv hb' hbare hn
    rwa [hmodel] at h

/-! ## An update without SET -/

/-- `id = ?` with its value. -/
def oneUser : List BuilderCall :=
  [.draft (.where_ (.where_ "id = ?".toList)), .draft (.where_ (.bind ⟨.int, false, .i 7⟩))]

theorem update_oneUser :
    Operation.update.plain (build (queryNew .sqlite testUserModel) oneUser) =
      [("UPDATE \"test_users\" SET \"name\" = ?, \"age\" = ? WHERE id = ?".toList,
        [⟨.int, false, .i 7⟩])] := by
  decide +kernel

theorem bare_oneUser :
    ∀ e ∈ Operation.update.plain (build (queryNew .sqlite testUserModel) oneUser), Bare e.1 := by
  rw [update_oneUser]
  simp only [List.mem_singleton, forall_eq]
  decide +kernel

/-- The implicit SET asks for two more values. -/
theorem update_unbound_oneUser :
    validateModel testUserModel = .ok ∧ Served oneUser ∧
    (∀ e ∈ Operation.update.plain (build (queryNew .sqlite testUserModel) oneUser), Bare e.1) ∧
    ¬ ∀ e ∈ Operation.update.plain (build (queryNew .sqlite testUserModel) oneUser),
      Balanced e := by
  refine ⟨by decide +kernel, rfl, bare_oneUser, ?_⟩
  rw [update_oneUser]
  simp only [List.mem_singleton, forall_eq]
  unfold Balanced
  decide +kernel

theorem placeholders_bound_iff_oneUser :
    (∀ e ∈ Operation.update.plain (build (queryNew .sqlite testUserModel) oneUser), Balanced e) ↔
      Operation.Vetoed testUserModel .update ∨
        Operation.Takes (build (queryNew .sqlite testUserModel) oneUser) (forSet oneUser) .update :=
  placeholders_bound_iff (by decide) (by decide +kernel) (show Served oneUser from rfl) .update
    bare_oneUser

end Corm
