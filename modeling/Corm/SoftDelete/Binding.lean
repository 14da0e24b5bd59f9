import Corm.Exec
import Corm.Reading.Number
import Corm.Reading.Update
import Corm.SoftDelete.Filter

/-!
# The values of a soft delete

`corm_delete` appends the parameter of its SET after those of the caller's WHERE, while SET stands
before WHERE in the text.

* `recorder`: a backend that keeps the statements it is given, `updateInternal_recorder`: those of
  an update;
* `InOrder`: a WHERE whose placeholders have their values bound in order;
* `BindsRight`: SET takes the tombstone, and each placeholder of the WHERE its own value;
* **`delete_binds_iff`**: when the statement of `corm_delete` does.
-/

namespace Corm

open Sql (Tok Item lex)

variable {q : Query} {f : Field} {ts : List Tok}

/-- A backend that does nothing but keep the statements, with their parameters. -/
def recorder (type : BackendType) : Backend (List (Text × List Value)) Unit where
  type := type
  exec log sql params := (.ok, log ++ [(sql, params)])
  query log sql params := (.ok, some (), log ++ [(sql, params)])
  begin_ log := (.ok, log)
  commit log := (.ok, log)
  rollback log := (.ok, log)
  lastInsertId _ := 0
  rowsAffected _ := 0

/-- What `corm_update_internal` hands to the backend: nothing after a veto of the before hook. -/
theorem updateInternal_recorder (b : BackendType) (log : List (Text × List Value)) (q : Query)
    (record : Option Record) :
    (updateInternal (recorder b) log q record).err = (runHook q.model.beforeUpdate record).1 ∧
    (updateInternal (recorder b) log q record).state =
      if (runHook q.model.beforeUpdate record).1 = .ok then
        log ++ [(buildUpdate (queryOp q .update), q.params)] else log := by
  unfold updateInternal execWithHooks
  rcases hr : runHook q.model.beforeUpdate record with ⟨err, rec⟩
  cases err <;> exact ⟨rfl, rfl⟩

theorem update_recorder (b : BackendType) (q : Query) :
    (update (recorder b) [] q).state =
      if (runHook q.model.beforeUpdate none).1 = .ok then
        [(buildUpdate (queryOp q .update), q.params)] else [] :=
  (updateInternal_recorder b [] q none).2

/-- The tokens of a WHERE text, with its placeholders as the dialect numbers them. -/
def markedToks (bt : BackendType) (w : Text) : Option (List Tok) :=
  match bt with
  | .postgres => number (Sql.finish .postgres) .idle 0 w
  | .mysql => lex .mysql w
  | .sqlite => lex .sqlite w

/-- The WHERE of a query has the tokens `ts`, and as many placeholders as there are parameters; a
dialect with `?` has no others. -/
structure InOrder (q : Query) (ts : List Tok) : Prop where
  read : markedToks q.bt q.where_ = some ts
  marked : q.bt ≠ .postgres → Sql.Marked ts
  count : (Sql.slots 0 ts).length = q.params.length

/-- The statement sets the soft-delete column `f` to the tombstone, and the placeholders of its
WHERE take the parameters of the caller, one after the other. -/
def BindsRight (q : Query) (f : Field) (e : Text × List Value) : Prop :=
  ∃ cond, Sql.readStmt q.bt.dialect e.1 e.2 = some (.update q.model.table [(f.nm, tombstone)] cond) ∧
    (cond.map Sql.values).getD [] = q.params

/-! ## The statement -/

/-- The query that `corm_delete` runs. -/
def softDeleteQuery (q : Query) (f : Field) : Query :=
  { q with
    setClause := setText q.bt q.params.length [f.nm]
    params := q.params ++ [tombstone]
    op := .update }

theorem querySet_tombstone (hm : Validated q.model) (hf : softDeleteField q.model = some f)
    (hset : q.setClause = []) : querySet q f.name tombstone = softDeleteQuery q f := by
  rw [querySet_eq (hm.ident f (softDeleteField_mem hf)), hset]
  rfl

theorem delete_soft {σ ρ : Type} (b : Backend σ ρ) (s : σ) (hm : Validated q.model)
    (hf : softDeleteField q.model = some f) (hset : q.setClause = []) :
    delete b s q = updateInternal b s (softDeleteQuery q f) none := by
  unfold delete deleteInternal
  simp only [hf, querySet_tombstone hm hf hset]

theorem delete_recorder (hm : Validated q.model) (hf : softDeleteField q.model = some f)
    (hset : q.setClause = []) (bt : BackendType) :
    (delete (recorder bt) [] q).state =
      if (runHook q.model.beforeUpdate none).1 = .ok then
        [(buildUpdate (softDeleteQuery q f), q.params ++ [tombstone])] else [] := by
  rw [delete_soft (recorder bt) [] hm hf hset]
  exact update_recorder bt (softDeleteQuery q f)

theorem InOrder.lex_where (h : InOrder q ts) :
    lex q.bt.dialect (appendWithPlaceholders q.bt 0 q.where_) = some ts := by
  have hr := h.read
  unfold markedToks at hr
  cases hb : q.bt with
  | postgres =>
    rw [hb] at hr
    exact lex_number hr
  | mysql =>
    rw [hb] at hr
    rw [appendWithPlaceholders_id (by simp)]
    exact hr
  | sqlite =>
    rw [hb] at hr
    rw [appendWithPlaceholders_id (by simp)]
    exact hr

/-- What the statement sets and where it takes its values from, on a dialect with `?` and on
PostgreSQL. -/
theorem bindsRight_iff (hm : Validated q.model) (hf : softDeleteField q.model = some f)
    (h : InOrder q ts) {k : ℕ} {v : Value}
    (hfill : Sql.fill (q.params ++ [tombstone]) 0 (setToks q.bt q.params.length [f.nm]) =
      some (Sql.assignItems (quoteOf q.bt) [(f.nm, v)]))
    (hk : Sql.marks (setToks q.bt q.params.length [f.nm]) = k) :
    BindsRight q f (buildUpdate (softDeleteQuery q f), q.params ++ [tombstone]) ↔
      v = tombstone ∧
        (Sql.fill (q.params ++ [tombstone]) k ts).map Sql.values = some q.params := by
  have hns : ∀ s ∈ [f.nm], Ident s := by
    intro s hs
    rw [List.mem_singleton.mp hs]
    exact hm.ident_nm (softDeleteField_mem hf)
  have hr := readStmt_update (δ := q.bt.dialect) (q := softDeleteQuery q f) (k := q.params.length) hm.table hns rfl
    (List.cons_ne_nil _ _) (List.cons_ne_nil _ _) hfill
  rw [show (softDeleteQuery q f).bt = q.bt from rfl, hk] at hr
  have hv := values_readWhere (q := softDeleteQuery q f) h.lex_where (q.params ++ [tombstone]) k
  unfold BindsRight
  simp only
  rw [hr]
  constructor
  · rintro ⟨cond, hstmt, hvals⟩
    obtain ⟨c, hc, hs⟩ := Option.map_eq_some_iff.mp hstmt
    obtain ⟨-, hsets, rfl⟩ := Sql.Stmt.update.inj hs
    refine ⟨(Prod.mk.inj (List.cons.inj hsets).1).2, ?_⟩
    rw [← hv, hc, ← hvals]
    rfl
  · rintro ⟨rfl, hvals⟩
    rw [← hv] at hvals
    obtain ⟨c, hc, hcv⟩ := Option.map_eq_some_iff.mp hvals
    refine ⟨c, ?_, hcv⟩
    rw [hc]
    rfl

/-! ## The two kinds of dialect -/

theorem append_tombstone_iff {α : Type} {vs : List α} {t : α} :
    vs ++ [t] = t :: vs ↔ ∀ v ∈ vs, v = t := by
  induction vs with
  | nil => simp
  | cons v vs ih =>
    rw [List.cons_append, List.cons.injEq, List.forall_mem_cons, ← ih]
    constructor
    · rintro ⟨rfl, h⟩
      exact ⟨rfl, h⟩
    · rintro ⟨rfl, h⟩
      exact ⟨rfl, h⟩

/-- With `?`, SET takes the first of the values, and the WHERE all the others. -/
theorem bindsRight_mark (hm : Validated q.model) (hf : softDeleteField q.model = some f)
    (h : InOrder q ts) (hb : q.bt ≠ .postgres) :
    BindsRight q f (buildUpdate (softDeleteQuery q f), q.params ++ [tombstone]) ↔
      ∀ v ∈ q.params, v = tombstone := by
  obtain ⟨v, vs, hvs⟩ : ∃ v vs, q.params ++ [tombstone] = v :: vs :=
    List.exists_cons_of_ne_nil (by simp)
  have htoks : setToks q.bt q.params.length [f.nm] =
      [.quoted (quoteOf q.bt) f.nm, .sym '=', .param none] := by
    cases hbt : q.bt with
    | postgres => exact absurd hbt hb
    | mysql => rfl
    | sqlite => rfl
  have hfill : Sql.fill (q.params ++ [tombstone]) 0 (setToks q.bt q.params.length [f.nm]) =
      some (Sql.assignItems (quoteOf q.bt) [(f.nm, v)]) := by
    rw [htoks, hvs]
    rfl
  have hk : Sql.marks (setToks q.bt q.params.length [f.nm]) = 1 := by
    rw [htoks]
    rfl
  have hlen : vs.length = Sql.marks ts := by
    have hl := congrArg List.length hvs
    rw [← Sql.slots_length_marked (h.marked hb) 0, h.count]
    simpa using hl.symm
  have hvals : (Sql.fill ([v] ++ vs ++ []) 1 ts).map Sql.values = some vs :=
    Sql.values_fill_marked (h.marked hb) rfl hlen []
  rw [List.append_nil, List.singleton_append, ← hvs] at hvals
  rw [bindsRight_iff hm hf h hfill hk, hvals, ← append_tombstone_iff, hvs, List.cons.injEq,
    Option.some.injEq]

theorem bindsRight_postgres (hm : Validated q.model) (hf : softDeleteField q.model = some f)
    (h : InOrder q ts) (hb : q.bt = .postgres) :
    BindsRight q f (buildUpdate (softDeleteQuery q f), q.params ++ [tombstone]) ↔
      (Sql.slots 0 ts).map (Sql.pick (q.params ++ [tombstone])) = q.params.map some := by
  have hget : (q.params ++ [tombstone])[q.params.length]? = some tombstone := by simp
  have hfill : Sql.fill (q.params ++ [tombstone]) 0 (setToks q.bt q.params.length [f.nm]) =
      some (Sql.assignItems (quoteOf q.bt) [(f.nm, tombstone)]) :=
    fill_setOne (Or.inl hb) hget f.nm
  have hk : Sql.marks (setToks q.bt q.params.length [f.nm]) = 0 := by
    rw [hb]
    rfl
  rw [bindsRight_iff hm hf h hfill hk, Sql.values_fill, Sql.mapM_eq_some_iff]
  simp

/-- **When a soft delete binds the right values**: when the before hook vetoes it; with `?`, when
every value of the caller is the tombstone, so when there is none; on PostgreSQL, when the number of
the `i`-th placeholder of the WHERE is that of a value equal to the `i`-th. -/
theorem delete_binds_iff (hm : validateModel q.model = .ok)
    (hf : softDeleteField q.model = some f) (hset : q.setClause = []) (h : InOrder q ts) :
    (∀ e ∈ (delete (recorder q.bt) [] q).state, BindsRight q f e) ↔
      (runHook q.model.beforeUpdate none).1 ≠ .ok ∨
      (q.bt ≠ .postgres ∧ ∀ v ∈ q.params, v = tombstone) ∨
      (q.bt = .postgres ∧
        (Sql.slots 0 ts).map (Sql.pick (q.params ++ [tombstone])) = q.params.map some) := by
  have hv := validated_of_ok hm
  rw [delete_recorder hv hf hset]
  by_cases hhook : (runHook q.model.beforeUpdate none).1 = .ok
  · rw [if_pos hhook, List.forall_mem_singleton]
    by_cases hb : q.bt = .postgres
    · simp [hhook, hb, bindsRight_postgres hv hf h hb]
    · simp [hhook, hb, bindsRight_mark hv hf h hb]
  · simp [hhook]

/-! ## A delete by id -/

/-- `id = ?` with the value 7. -/
def deleteById : Query :=
  chain (queryNew .sqlite softUserModel) [.where_ "id = ?".toList, .bind ⟨.int, false, .i 7⟩]

theorem inOrder_deleteById : InOrder deleteById [.word "id".toList, .sym '=', .param none] where
  read := by decide +kernel
  marked _ k := by simp
  count := by decide +kernel

/-- The delete by id sets the soft-delete column to the id, and looks for the id "deleted". -/
theorem delete_swaps_deleteById :
    validateModel deleteById.model = .ok ∧
    softDeleteField deleteById.model = some softUserDeletedAt ∧ deleteById.setClause = [] ∧
    InOrder deleteById [.word "id".toList, .sym '=', .param none] ∧
    ¬ ∀ e ∈ (delete (recorder deleteById.bt) [] deleteById).state,
      BindsRight deleteById softUserDeletedAt e := by
  refine ⟨by decide +kernel, by decide +kernel, by decide +kernel, inOrder_deleteById, fun h => ?_⟩
  have hstate : (delete (recorder .sqlite) [] deleteById).state.map
      (fun e => Sql.readStmt deleteById.bt.dialect e.1 e.2) =
        [some (.update "soft_users".toList [("deleted_at".toList, ⟨.int, false, .i 7⟩)]
          (some [.tok (.word "id".toList), .tok (.sym '='), .val tombstone]))] := by
    decide +kernel
  obtain ⟨e, he, hread⟩ := List.mem_map.mp (hstate ▸ List.mem_singleton_self _)
  obtain ⟨cond, hcond, -⟩ := h e he
  rw [hread] at hcond
  obtain ⟨-, hsets, -⟩ := Sql.Stmt.update.inj (Option.some.inj hcond)
  exact absurd hsets (by decide +kernel)

theorem delete_binds_iff_deleteById :
    (∀ e ∈ (delete (recorder deleteById.bt) [] deleteById).state,
      BindsRight deleteById softUserDeletedAt e) ↔
      (runHook deleteById.model.beforeUpdate none).1 ≠ .ok ∨
      (deleteById.bt ≠ .postgres ∧ ∀ v ∈ deleteById.params, v = tombstone) ∨
      (deleteById.bt = .postgres ∧ (Sql.slots 0 [.word "id".toList, .sym '=', .param none]).map
        (Sql.pick (deleteById.params ++ [tombstone])) = deleteById.params.map some) :=
  delete_binds_iff (by decide +kernel) (by decide +kernel) (by decide +kernel) inOrder_deleteById

end Corm
