import Corm.SoftDelete.Binding
import Mathlib.Data.List.Induction

/-!
# The values of an UPDATE

`corm_update` binds its parameters in the order of the calls, while SET stands before WHERE in the
text.

* `UpdateCall`, `updateQuery`: a sequence of `corm_query_set` and `corm_query_where` calls;
* `UpdateInv`: the clauses and the parameters after such a sequence;
* `AssignsRight`: each column takes the value of its call, and each placeholder of the WHERE its own;
* **`update_assigns_iff`**: when the statement of `corm_update` does, on a dialect with `?`.
-/

namespace Corm

open Sql (Tok Item lexPart lexPart_append_some)

/-! ## Calls -/

/-- A call of `corm_query_set`, or one of `corm_query_where` with a `corm_query_bind` for each of its
values. -/
inductive UpdateCall
  | set (field : Text) (val : Value)
  | where_ (condition : Text) (vals : List Value)

namespace UpdateCall

/-- The query after a call. -/
def apply (q : Query) : UpdateCall → Query
  | .set field val => querySet q (some field) val
  | .where_ condition vals => vals.foldl queryBind (queryWhere q condition)

/-- The field is an identifier; the condition can be read, and there is one value for each of its
placeholders, all of them `?`. -/
def WellFormed (bt : BackendType) : UpdateCall → Prop
  | .set field _ => Ident field
  | .where_ condition vals =>
    ∃ ts, lexPart bt.dialect condition = some ts ∧ Sql.Marked ts ∧ vals.length = Sql.marks ts

/-- The assignment of a call. -/
def assignment : UpdateCall → List (Text × Value)
  | .set field val => [(field, val)]
  | .where_ _ _ => []

/-- The values for the WHERE. -/
def whereVals : UpdateCall → List Value
  | .set _ _ => []
  | .where_ _ vals => vals

/-- The values in the order in which they are bound. -/
def vals : UpdateCall → List Value
  | .set _ val => [val]
  | .where_ _ vals => vals

end UpdateCall

/-- The query after calls on a new one. -/
def updateQuery (bt : BackendType) (m : Model) (calls : List UpdateCall) : Query :=
  calls.foldl UpdateCall.apply (queryNew bt m)

/-- The statement makes the assignments of the calls, and no others, and the placeholders of its
WHERE take the values of the conditions, one after the other. -/
def AssignsRight (bt : BackendType) (m : Model) (calls : List UpdateCall)
    (e : Text × List Value) : Prop :=
  ∃ cond, Sql.readStmt bt.dialect e.1 e.2 =
      some (.update m.table (calls.flatMap UpdateCall.assignment) cond) ∧
    (cond.map Sql.values).getD [] = calls.flatMap UpdateCall.whereVals

variable {bt : BackendType} {m : Model} {q : Query} {calls : List UpdateCall} {c : UpdateCall}
  {sets : List (Text × Value)} {ts : List Tok} {names : List Text} {n k : ℕ}

/-! ## The clauses -/

theorem setOne_mark (hb : bt ≠ .postgres) (k n : ℕ) (name : Text) :
    setOne bt k name = setOne bt n name := by
  cases bt with
  | postgres => exact absurd rfl hb
  | mysql => rfl
  | sqlite => rfl

theorem joinSets_setOne (bt : BackendType) (k : ℕ) (names : List Text) (name : Text) :
    joinSets (setText bt k names) (setOne bt (k + names.length) name) =
      setText bt k (names ++ [name]) := by
  have h1 := setOne_ne_nil bt (k + names.length) name
  induction names generalizing k with
  | nil => rfl
  | cons first names ih =>
    have hk : k + (first :: names).length = k + 1 + names.length := by
      rw [List.length_cons]
      omega
    rw [hk] at h1 ⊢
    cases names with
    | nil =>
      simp [joinSets, setText, setOne_ne_nil]
    | cons second names =>
      have h2 : setText bt (k + 1) (second :: names) ≠ [] := setText_ne_nil (by simp)
      have h3 := ih (k + 1) h1
      rw [joinSets, if_neg h2, if_neg h1] at h3
      have h4 : setText bt k (first :: second :: names) =
        setOne bt k first ++ ", ".toList ++ setText bt (k + 1) (second :: names) := rfl
      have h5 : setText bt k (first :: second :: names) ≠ [] := setText_ne_nil (by simp)
      have h6 : setText bt k (first :: second :: names ++ [name]) =
        setOne bt k first ++ ", ".toList ++ setText bt (k + 1) (second :: names ++ [name]) := rfl
      rw [joinSets, if_neg h5, if_neg h1, h4, h6, ← h3]
      simp only [List.append_assoc]

/-- What a sequence of calls leaves: the SET of the assignments, the tokens of the WHERE, and the
parameters in the order of the calls. -/
structure UpdateInv (bt : BackendType) (m : Model) (q : Query) (calls : List UpdateCall)
    (ts : List Tok) : Prop where
  bt_eq : q.bt = bt
  model_eq : q.model = m
  ident : ∀ s ∈ calls.flatMap UpdateCall.assignment, Ident s.1
  setClause : q.setClause = setText bt 0 ((calls.flatMap UpdateCall.assignment).map Prod.fst)
  where_ : lexPart bt.dialect q.where_ = some ts
  marked : Sql.Marked ts
  marks : (calls.flatMap UpdateCall.whereVals).length = Sql.marks ts
  params : q.params = calls.flatMap UpdateCall.vals

theorem foldl_bind (q : Query) (vals : List Value) :
    vals.foldl queryBind q = { q with params := q.params ++ vals } := by
  induction vals generalizing q with
  | nil => simp
  | cons v vals ih =>
    rw [List.foldl_cons, ih]
    simp [queryBind]

theorem lexPart_and {w : Text} {us : List Tok} (hq : lexPart bt.dialect q.where_ = some ts)
    (hw : lexPart bt.dialect w = some us) :
    ∃ vs, lexPart bt.dialect (whereSep q " AND ".toList ++ w) = some vs ∧
      (Sql.Marked ts → Sql.Marked us → Sql.Marked vs) ∧
      Sql.marks vs = Sql.marks ts + Sql.marks us := by
  unfold whereSep
  split_ifs with hnil
  · rw [hnil] at hq
    obtain rfl : ts = [] := (Option.some.inj hq).symm
    exact ⟨us, hw, fun _ h => h, (Nat.zero_add _).symm⟩
  · have hlex := lexPart_append_some hq (lexPart_andText hw) (joins_blank _ _)
    refine ⟨_, by rw [List.append_assoc]; exact hlex, fun hts hus k hk => ?_, ?_⟩
    · rcases List.mem_append.mp hk with h | h
      · exact hts k h
      · rcases List.mem_cons.mp h with h | h
        · cases h
        · exact hus k h
    · rw [Sql.marks_append, Sql.marks_cons]
      exact congrArg (Sql.marks ts + ·) (Nat.zero_add _)

theorem UpdateInv.apply (hb : bt ≠ .postgres) (h : UpdateInv bt m q calls ts)
    (hc : c.WellFormed bt) : ∃ us, UpdateInv bt m (c.apply q) (calls ++ [c]) us := by
  cases c with
  | set field val =>
    have hid : Ident field := hc
    have hset := querySet_eq (q := q) (f := ⟨some field, .int, 0, 0⟩) hid val
    change querySet q (some field) val = _ at hset
    refine ⟨ts, ?_⟩
    show UpdateInv bt m (querySet q (some field) val) _ ts
    rw [hset]
    constructor
    · exact h.bt_eq
    · exact h.model_eq
    · intro s hs
      rw [List.flatMap_append, List.mem_append] at hs
      rcases hs with hs | hs
      · exact h.ident s hs
      · have hs' : s = (field, val) := by simpa [UpdateCall.assignment] using hs
        rw [hs']
        exact hid
    · show joinSets q.setClause (setOne q.bt q.params.length field) = _
      rw [h.setClause, h.bt_eq, setOne_mark hb q.params.length
        (0 + ((calls.flatMap UpdateCall.assignment).map Prod.fst).length), joinSets_setOne]
      simp [UpdateCall.assignment]
    · exact h.where_
    · exact h.marked
    · rw [← h.marks]
      simp [UpdateCall.whereVals]
    · show q.params ++ [val] = _
      rw [h.params]
      simp [UpdateCall.vals]
  | where_ condition vals =>
    obtain ⟨us, hlex, hmarked, hlen⟩ := hc
    obtain ⟨vs, hvs, hmark, hmarks⟩ := lexPart_and h.where_ hlex
    refine ⟨vs, ?_⟩
    show UpdateInv bt m (vals.foldl queryBind (queryWhere q condition)) _ vs
    rw [foldl_bind]
    constructor
    · exact h.bt_eq
    · exact h.model_eq
    · simpa [UpdateCall.assignment] using h.ident
    · show q.setClause = _
      simpa [UpdateCall.assignment] using h.setClause
    · exact hvs
    · exact hmark h.marked hmarked
    · rw [hmarks, ← h.marks, ← hlen]
      simp [UpdateCall.whereVals]
    · show q.params ++ vals = _
      rw [h.params]
      simp [UpdateCall.vals]

/-- **The clauses after a sequence of calls.** -/
theorem updateInv (hb : bt ≠ .postgres) (m : Model) (hc : ∀ c ∈ calls, c.WellFormed bt) :
    ∃ ts, UpdateInv bt m (updateQuery bt m calls) calls ts := by
  induction calls using List.reverseRecOn with
  | nil =>
    refine ⟨[], rfl, rfl, by simp, rfl, rfl, fun k => List.not_mem_nil, rfl, rfl⟩
  | append_singleton calls c ih =>
    obtain ⟨ts, h⟩ := ih fun d hd => hc d (List.mem_append_left _ hd)
    obtain ⟨us, h'⟩ := h.apply hb (hc c (by simp))
    refine ⟨us, ?_⟩
    rw [updateQuery, List.foldl_append]
    exact h'

/-! ## The statement -/

theorem assigns_ne_nil {V : Type} {is rest : List (Item V)} {r : List (Text × V)}
    (h : Sql.assigns is = some (r, rest)) : r ≠ [] := by
  unfold Sql.assigns at h
  split at h
  · split_ifs at h
    split at h
    · split_ifs at h
      obtain ⟨r', -, hr'⟩ := Option.map_eq_some_iff.mp h
      rw [← (Prod.mk.inj hr').1]
      exact List.cons_ne_nil _ _
    · rw [← (Prod.mk.inj (Option.some.inj h)).1]
      exact List.cons_ne_nil _ _
  · cases h

theorem parseStmt_update {V : Type} {is : List (Item V)} {t : Text} {r : List (Text × V)}
    {cond : Option (List (Item V))} (h : Sql.parseStmt is = some (.update t r cond)) : r ≠ [] := by
  simp only [Sql.parseStmt, Option.orElse_eq_orElse, Option.orElse_eq_or, Option.or_eq_some_iff] at h
  rcases h with h | ⟨-, h | ⟨-, h | ⟨-, h⟩⟩⟩
  · simp [Sql.parseInsert, Option.bind_eq_some_iff] at h
  · simp [Sql.parseSelect, Option.bind_eq_some_iff] at h
  · simp only [Sql.parseUpdate, Option.bind_eq_bind, Option.bind_eq_some_iff] at h
    obtain ⟨_, -, _, -, _, -, ⟨r', _⟩, hassigns, _, -, hr⟩ := h
    obtain ⟨-, rfl, -⟩ := Sql.Stmt.update.inj (Option.some.inj hr)
    exact assigns_ne_nil hassigns
  · simp [Sql.parseDelete, Option.bind_eq_some_iff] at h

theorem length_vals (calls : List UpdateCall) : (calls.flatMap UpdateCall.vals).length =
    (calls.flatMap UpdateCall.assignment).length +
      (calls.flatMap UpdateCall.whereVals).length := by
  induction calls with
  | nil => rfl
  | cons c calls ih =>
    have hc : c.vals.length = c.assignment.length + c.whereVals.length := by
      cases c <;> simp [UpdateCall.vals, UpdateCall.assignment, UpdateCall.whereVals]
    simp only [List.flatMap_cons, List.length_append]
    omega

theorem zip_eq_iff {α β : Type} {l : List (α × β)} {bs : List β} (h : l.length = bs.length) :
    (l.map Prod.fst).zip bs = l ↔ bs = l.map Prod.snd := by
  constructor
  · intro hz
    have hs := congrArg (List.map Prod.snd) hz
    rwa [List.map_snd_zip (by simp [h])] at hs
  · rintro rfl
    exact (List.zip_of_prod rfl rfl).symm

theorem eq_append_iff {α : Type} {l a b : List α} (hn : a.length = n) :
    l = a ++ b ↔ l.take n = a ∧ l.drop n = b := by
  constructor
  · rintro rfl
    exact ⟨List.take_left' hn, List.drop_left' hn⟩
  · rintro ⟨rfl, rfl⟩
    exact (List.take_append_drop n l).symm

section

variable (hb : bt ≠ .postgres) (hm : Validated m) (h : UpdateInv bt m q calls ts)

include hb hm h

/-- **How SQL reads the statement**: SET takes the first of the values and WHERE the others. -/
theorem readStmt_updateInv (hne : calls.flatMap UpdateCall.assignment ≠ []) :
    let count := (calls.flatMap UpdateCall.assignment).length
    Sql.readStmt bt.dialect (buildUpdate (queryOp q .update)) q.params =
      (readWhere bt.dialect q 0 q.params count).map (.update m.table
        (((calls.flatMap UpdateCall.assignment).map Prod.fst).zip (q.params.take count))) := by
  intro count
  obtain ⟨rfl, rfl, hid, hset, -, -, -, hparams⟩ := h
  have hns : ∀ s ∈ (calls.flatMap UpdateCall.assignment).map Prod.fst, Ident s := by
    intro s hs
    obtain ⟨p, hp, rfl⟩ := List.mem_map.mp hs
    exact hid p hp
  have hlen : ((calls.flatMap UpdateCall.assignment).map Prod.fst).length =
      (q.params.take count).length := by
    rw [hparams, List.length_take, length_vals, List.length_map]
    omega
  have hcount : count ≠ 0 := mt List.length_eq_zero_iff.mp hne
  have hzip : ((calls.flatMap UpdateCall.assignment).map Prod.fst).zip (q.params.take count) ≠ [] := by
    intro hz
    have hl := congrArg List.length hz
    rw [List.length_zip, ← hlen, Nat.min_self, List.length_map] at hl
    exact hcount hl
  have hfill : Sql.fill ([] ++ q.params.take count ++ q.params.drop count) 0
      (setToks q.bt 0 ((calls.flatMap UpdateCall.assignment).map Prod.fst)) = _ :=
    fill_setText (Or.inr rfl) rfl hlen (q.params.drop count)
  rw [List.nil_append, List.take_append_drop] at hfill
  have hr := readStmt_update (δ := q.bt.dialect) (q := queryOp q .update) hm.table hns hset hzip
    (fun hn => hne (List.map_eq_nil_iff.mp hn)) hfill
  rw [show (queryOp q .update).bt = q.bt from rfl, marks_setToks hb, List.length_map] at hr
  exact hr

theorem assignsRight_iff : AssignsRight bt m calls (buildUpdate (queryOp q .update), q.params) ↔
    calls.flatMap UpdateCall.assignment ≠ [] ∧ calls.flatMap UpdateCall.vals =
      (calls.flatMap UpdateCall.assignment).map Prod.snd ++ calls.flatMap UpdateCall.whereVals := by
  by_cases hne : calls.flatMap UpdateCall.assignment = []
  · refine iff_of_false ?_ fun h => h.1 hne
    rintro ⟨cond, hread, -⟩
    simp only [Sql.readStmt, Option.bind_eq_bind, Option.bind_eq_some_iff] at hread
    obtain ⟨_, -, _, -, hparse⟩ := hread
    exact parseStmt_update hparse hne
  have hread := readStmt_updateInv hb hm h hne
  have hlen := length_vals calls
  have hlex : lexPart bt.dialect (appendWithPlaceholders q.bt 0 q.where_) = some ts := by
    rw [appendWithPlaceholders_id fun hbt => absurd (h.bt_eq ▸ hbt) hb]
    exact h.where_
  obtain ⟨count, hcount⟩ : ∃ count, (calls.flatMap UpdateCall.assignment).length = count := ⟨_, rfl⟩
  simp only [hcount] at hread hlen
  have htake : (q.params.take count).length = count := by
    rw [h.params, List.length_take]
    omega
  have hdrop : (q.params.drop count).length = Sql.marks ts := by
    rw [h.params, List.length_drop, ← h.marks]
    omega
  have hmarked : (Sql.fill (q.params.take count ++ q.params.drop count ++ []) count ts).map
      Sql.values = some (q.params.drop count) := Sql.values_fill_marked h.marked htake hdrop []
  rw [List.append_nil, List.take_append_drop, ← values_readWhere (Sql.lex_of_part hlex)] at hmarked
  obtain ⟨cond, hcond, hcv⟩ := Option.map_eq_some_iff.mp hmarked
  rw [← h.params, eq_append_iff (n := count) (by rw [List.length_map, hcount]),
    ← zip_eq_iff (by rw [hcount, htake]), ← hcv, AssignsRight]
  simp only [hread, hcond, Option.map_some, Option.some.injEq]
  constructor
  · rintro ⟨_, hstmt, hw⟩
    obtain ⟨-, hsets, rfl⟩ := Sql.Stmt.update.inj hstmt
    exact ⟨hne, hsets, hw⟩
  · rintro ⟨-, hsets, hw⟩
    exact ⟨cond, by rw [hsets], hw⟩

end

/-- **When an update assigns the right values** on a dialect with `?`: when the before hook vetoes
it, or when something is set and the values of SET are bound before those of the WHERE. -/
theorem update_assigns_iff (hb : bt ≠ .postgres) (hm : validateModel m = .ok)
    (hc : ∀ c ∈ calls, c.WellFormed bt) :
    (∀ e ∈ (update (recorder bt) [] (updateQuery bt m calls)).state, AssignsRight bt m calls e) ↔
      (runHook m.beforeUpdate none).1 ≠ .ok ∨
      (calls.flatMap UpdateCall.assignment ≠ [] ∧ calls.flatMap UpdateCall.vals =
        (calls.flatMap UpdateCall.assignment).map Prod.snd ++
          calls.flatMap UpdateCall.whereVals) := by
  obtain ⟨ts, h⟩ := updateInv hb m hc
  rw [update_recorder, h.model_eq]
  by_cases hhook : (runHook m.beforeUpdate none).1 = .ok
  · rw [if_pos hhook, List.forall_mem_singleton, assignsRight_iff hb (validated_of_ok hm) h]
    simp [hhook]
  · simp [hhook]

/-! ## A WHERE before a SET -/

/-- A hook that returns `CORM_OK` and does nothing. -/
def okHook : Hook := ⟨.ok, fun record => (.ok, record)⟩

/-- The model of `tests/test_full_hooks.c`. -/
def fullHookModel : Model where
  tableName := some "full_hook_records".toList
  structSize := 68
  fields := [⟨some "id".toList, .int, 4, 3⟩, ⟨some "name".toList, .string, 64, 0⟩]
  primaryKey := some ⟨some "id".toList, .int, 4, 3⟩
  primaryKey_mem := by simp
  beforeCreate := none
  afterCreate := none
  beforeUpdate := some okHook
  afterUpdate := some okHook
  beforeDelete := some okHook
  afterDelete := some okHook
  afterFind := some okHook

/-- The calls of `tests/test_full_hooks.c`, with the id bound: `id = ?` with 1, and the name set. -/
def renameFirst : List UpdateCall :=
  [.where_ "id = ?".toList [⟨.int, false, .i 1⟩],
    .set "name".toList ⟨.string, false, .s (some "Updated".toList)⟩]

theorem wellFormed_renameFirst : ∀ c ∈ renameFirst, c.WellFormed .sqlite := by
  have hlex : lexPart .sqlite "id = ?".toList = some [.word "id".toList, .sym '=', .param none] := by
    decide +kernel
  intro c hc
  rcases List.mem_cons.mp hc with rfl | hc
  · exact ⟨_, hlex, fun k => by simp, rfl⟩
  · rw [List.mem_singleton.mp hc]
    show isValidIdentifier (some "name".toList) = true
    decide +kernel

/-- The update sets the name to the id, and looks for the id "Updated". -/
theorem update_swaps_renameFirst :
    validateModel fullHookModel = .ok ∧ (∀ c ∈ renameFirst, c.WellFormed .sqlite) ∧
    ¬ ∀ e ∈ (update (recorder .sqlite) [] (updateQuery .sqlite fullHookModel renameFirst)).state,
      AssignsRight .sqlite fullHookModel renameFirst e := by
  refine ⟨by decide +kernel, wellFormed_renameFirst, fun h => ?_⟩
  have hstate : (update (recorder .sqlite) []
      (updateQuery .sqlite fullHookModel renameFirst)).state.map
        (fun e => Sql.readStmt (BackendType.dialect .sqlite) e.1 e.2) =
      [some (.update "full_hook_records".toList [("name".toList, ⟨.int, false, .i 1⟩)]
        (some [.tok (.word "id".toList), .tok (.sym '='),
          .val ⟨.string, false, .s (some "Updated".toList)⟩]))] := by
    decide +kernel
  obtain ⟨e, he, hread⟩ := List.mem_map.mp (hstate ▸ List.mem_singleton_self _)
  obtain ⟨cond, hcond, -⟩ := h e he
  rw [hread] at hcond
  obtain ⟨-, hsets, -⟩ := Sql.Stmt.update.inj (Option.some.inj hcond)
  exact absurd hsets (by decide +kernel)

theorem update_assigns_iff_renameFirst :
    (∀ e ∈ (update (recorder .sqlite) [] (updateQuery .sqlite fullHookModel renameFirst)).state,
      AssignsRight .sqlite fullHookModel renameFirst e) ↔
      (runHook fullHookModel.beforeUpdate none).1 ≠ .ok ∨
      (renameFirst.flatMap UpdateCall.assignment ≠ [] ∧ renameFirst.flatMap UpdateCall.vals =
        (renameFirst.flatMap UpdateCall.assignment).map Prod.snd ++
          renameFirst.flatMap UpdateCall.whereVals) :=
  update_assigns_iff (by decide) (by decide +kernel) wellFormed_renameFirst

end Corm
