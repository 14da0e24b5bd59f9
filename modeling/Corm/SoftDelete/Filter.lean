import Corm.Dbms
import Corm.Reading.Chain
import Corm.Sql.Weld

/-!
# The filter of a scoped find

`corm_find` adds `AND f IS NULL` to the text of the WHERE.

* `callerGroups`: the condition of the caller, as an OR of groups of predicates;
* `find_plain`: the rows of a find with nothing but a WHERE;
* `find_rows`: the filter joins the last group only;
* **`find_hides_deleted_iff`**: no deleted row is returned exactly when none satisfies an earlier
  group.
-/

namespace Corm

open Sql (Tok Item Row Engine lexPart lexPart_append_some bare)

variable {V : Type} {δ : Sql.Dialect} {bt : BackendType} {m : Model} {f : Field} {q : Query}
  {D : Dbms V} {s : Store V}

/-- The condition of a query, read with its parameters: groups of predicates, none without a
condition; `none` when the parameters cannot be bound or the condition cannot be read. -/
def callerGroups (D : Dbms V) (q : Query) : Option (List (List (List (Item V)))) :=
  (q.params.mapM D.bind).bind fun vs => (readWhere q.bt.dialect q 0 vs 0).bind fun
    | none => some []
    | some is => Sql.parseWhere is

/-- The groups with the filter. -/
def scopeGroups (c : Text) (gs : List (List (List (Item V)))) : List (List (List (Item V))) :=
  if gs = [] then [[Sql.isNullItems c]] else Sql.andLast (Sql.isNullItems c) gs

/-! ## Reading the filter -/

theorem softDeleteField_mem (h : softDeleteField m = some f) : f ∈ m.fields :=
  List.mem_of_find?_eq_some h

theorem findScope_eq (hm : Validated m) (hf : softDeleteField m = some f) (h : ChainInv bt m q) :
    findScope q =
      { q with where_ := whereSep q " AND ".toList ++ (f.nm ++ " IS NULL".toList) } := by
  have hid := hm.ident f (softDeleteField_mem hf)
  have hmod : softDeleteField q.model = some f := h.model_eq ▸ hf
  have hfil : ¬ q.unscoped = true := by
    rw [h.filtered]
    exact Bool.false_ne_true
  unfold findScope
  rw [if_neg hfil, hmod]
  exact queryWhereNull_eq hid q

/-- The tokens of the filter. -/
def isNullToks (c : Text) : List Tok := [.word c, .word "IS".toList, .word "NULL".toList]

theorem lexPart_isNull {c : Text} (hc : Ident c) :
    lexPart δ (c ++ " IS NULL".toList) = some (isNullToks c) := by
  have hlex : lexPart δ " IS NULL".toList = some [.word "IS".toList, .word "NULL".toList] := by
    cases δ <;> rfl
  exact lexPart_append_some (lexPart_ident hc) hlex (joins_blank _ _)

theorem appendWithPlaceholders_isNull {c : Text} (hc : Ident c) (i : ℕ) :
    appendWithPlaceholders bt i (c ++ " IS NULL".toList) = c ++ " IS NULL".toList :=
  appendWithPlaceholders_id (fun _ => notMem_append (hc.notMem rfl) (by decide)) i

theorem whereTokens_scope (h : ChainInv bt m q) {c : Text} (hc : Ident c) :
    whereTokens bt.dialect { q with where_ := whereSep q " AND ".toList ++ (c ++ " IS NULL".toList) } 0 =
      (whereTokens bt.dialect q 0).map fun
        | none => some (isNullToks c)
        | some ts => some (ts ++ .word "AND".toList :: isNullToks c) := by
  have hne : whereSep q " AND ".toList ++ (c ++ " IS NULL".toList) ≠ [] := by
    intro hnil
    exact hc.ne_nil (List.append_eq_nil_iff.mp (List.append_eq_nil_iff.mp hnil).2).1
  obtain rfl := h.bt_eq
  unfold whereTokens
  rw [if_neg hne]
  rcases h.readable with hnil | hp
  · simp only [whereSep, if_pos hnil, List.nil_append, appendWithPlaceholders_isNull hc,
      Sql.lex_of_part (lexPart_isNull hc)]
    rfl
  · obtain ⟨ts, hts, -⟩ := hp 0
    by_cases hnil : q.where_ = []
    · simp only [whereSep, if_pos hnil, List.nil_append, appendWithPlaceholders_isNull hc,
        Sql.lex_of_part (lexPart_isNull hc)]
      rfl
    · have hand : appendWithPlaceholders q.bt (0 + q.where_.count '?') " AND ".toList =
          " AND ".toList := appendWithPlaceholders_id (fun _ => by decide) _
      have hrest := Sql.lex_of_part (δ := q.bt.dialect) (lexPart_andText (lexPart_isNull hc))
      simp only [whereSep, if_neg hnil]
      rw [appendWithPlaceholders_append, appendWithPlaceholders_append, hand,
        appendWithPlaceholders_isNull hc, List.append_assoc,
        Sql.lex_append_some hts hrest (joins_blank _ _), Sql.lex_of_part hts]
      rfl

theorem fill_isNullToks (vs : List V) (n : ℕ) (c : Text) :
    Sql.fill vs n (isNullToks c) = some (Sql.isNullItems c) := rfl

/-- **The condition with the filter**: it joins the last group. -/
theorem selects_scope (h : ChainInv bt m q) {c : Text} (hc : D.engine.ReadsNull c) {ts : List Tok}
    (hts : whereTokens bt.dialect q 0 = some (some ts)) (vs : List V) :
    (Sql.fill vs 0 (ts ++ .word "AND".toList :: isNullToks c)).bind Sql.parseWhere =
      ((Sql.fill vs 0 ts).bind Sql.parseWhere).map (scopeGroups c) := by
  have hand (n : ℕ) : Sql.fill vs n (.word "AND".toList :: isNullToks c) =
      some (Sql.andItem :: Sql.isNullItems c) := rfl
  rw [Sql.fill_append, hand]
  cases hf : Sql.fill vs 0 ts with
  | none => rfl
  | some is =>
    show Sql.parseWhere (is ++ Sql.andItem :: Sql.isNullItems c) =
      (Sql.parseWhere is).map (scopeGroups c)
    cases hd : Sql.split .start is with
    | some d =>
      have hne : d.all ≠ [] := List.cons_ne_nil _ _
      have hparse : Sql.parseWhere is = some d.all := by
        rw [Sql.parseWhere, hd]
        rfl
      rw [hparse, Sql.parseWhere_and hc.atomic hparse]
      simp [scopeGroups, hne]
    | none =>
      -- the text of a chain that is no whole predicate cannot be read with anything after it
      have hnil : q.where_ ≠ [] := by
        intro hnil
        rw [whereTokens, if_pos hnil] at hts
        cases hts
      obtain rfl := h.bt_eq
      obtain ⟨us, hus, hset⟩ := h.readable.resolve_left hnil 0
      rw [whereTokens, if_neg hnil, Sql.lex_of_part hus] at hts
      obtain rfl : us = ts := by simpa using hts
      have hscan : Sql.scan .start is = none := by
        rw [Sql.scan_fill hf]
        refine hset.resolve_right fun hs => ?_
        rw [← Sql.scan_fill hf] at hs
        obtain ⟨d, hd'⟩ := Sql.split_isSome_iff.mpr hs
        rw [hd] at hd'
        cases hd'
      have hnone : Sql.split .start (is ++ Sql.andItem :: Sql.isNullItems c) = none := by
        refine Sql.split_eq_none ?_
        rw [Sql.scan_append, hscan]
        rfl
      rw [Sql.parseWhere, Sql.parseWhere, hd, hnone]
      rfl

/-! ## The rows of a find -/

theorem selects_isNull {c : Text} (hc : D.engine.ReadsNull c) :
    Sql.parseWhere (Sql.isNullItems (V := V) c) = some (scopeGroups c []) :=
  Sql.parseWhere_atomic hc.atomic

theorem selects_map (E : Engine V) (x : Option (List (Item V))) :
    (x.map some).bind E.selects = (x.bind Sql.parseWhere).map E.holds := by
  cases x <;> rfl

/-- **The rows of a plain find**: those that its WHERE selects. -/
theorem find_plain (hp : PlainSelect q) (ht : Ident q.model.table) (s : Store V) :
    (find (sqlBackend bt D) s q).2.1 = (q.params.mapM D.bind).bind fun vs =>
      ((readWhere bt.dialect (findScope q) 0 vs 0).bind D.engine.selects).map fun keep =>
        (s.db q.model.table).filter keep := by
  have hrows : (find (sqlBackend bt D) s q).2.1 = (D.query bt.dialect s
      (buildSelect (queryOp (findScope q) .select)) (findScope q).params).2.1 := rfl
  obtain ⟨w, hw⟩ := findScope_where q
  rw [hw] at hrows ⊢
  have hplain : PlainSelect (queryOp { q with where_ := w } .select) := hp.keep w q.params .select
  have hstmt (vs : List V) := readStmt_select (δ := bt.dialect) hplain ht vs
  rw [hrows, query_rows, Dbms.read]
  cases q.params.mapM D.bind with
  | none => rfl
  | some vs =>
    have hread : readWhere bt.dialect (queryOp { q with where_ := w } .select) 0 vs 0 =
        readWhere bt.dialect { q with where_ := w } 0 vs 0 := rfl
    rw [Option.bind_some, Option.bind_some, hstmt, hread]
    cases readWhere bt.dialect { q with where_ := w } 0 vs 0 <;> rfl

/-- **The rows of a scoped find**: those of the groups with the filter. -/
theorem find_rows (hm : Validated m) (hf : softDeleteField m = some f) (h : ChainInv bt m q)
    (hc : D.engine.ReadsNull f.nm) :
    (find (sqlBackend bt D) s q).2.1 = (callerGroups D q).map fun gs =>
      (s.db m.table).filter (D.engine.holds (scopeGroups f.nm gs)) := by
  have hid : Ident f.nm := hm.ident_nm (softDeleteField_mem hf)
  have ht : Ident q.model.table := h.model_eq ▸ hm.table
  rw [find_plain h.plain ht, callerGroups, h.model_eq, h.bt_eq]
  cases q.params.mapM D.bind with
  | none => rfl
  | some vs =>
    rw [Option.bind_some, Option.bind_some, findScope_eq hm hf h]
    unfold readWhere
    rw [whereTokens_scope h hid]
    cases hw : whereTokens bt.dialect q 0 with
    | none => rfl
    | some w =>
      cases w with
      | none => simp [Engine.selects, selects_isNull hc, fill_isNullToks]
      | some ts =>
        have hsel := selects_scope h hc hw vs
        simp only [Option.map_some, Option.bind_some]
        rw [selects_map, hsel]
        cases Sql.fill vs 0 ts with
        | none => rfl
        | some is => cases hp : Sql.parseWhere is <;> simp [hp]

/-- A row that the filter should hide is let through by the earlier groups, and by no other. -/
theorem holds_scopeGroups {c : Text} (hc : D.engine.ReadsNull c) {r : Row V}
    (hr : r c ≠ D.engine.null) (gs : List (List (List (Item V)))) :
    D.engine.holds (scopeGroups c gs) r = D.engine.holds gs.dropLast r := by
  have hpred : D.engine.pred (Sql.isNullItems c) r ≠ some true := fun h => hr ((hc.test r).mp h)
  unfold scopeGroups
  split_ifs with hnil
  · subst hnil
    simp [Engine.holds, Engine.meets, hpred]
  · exact Sql.holds_andLast_false hpred gs

/-- The model of `test_soft_delete.c`. -/
def softUserModel : Model where
  tableName := some "soft_users".toList
  structSize := 100
  fields := [⟨some "id".toList, .int, 4, 3⟩, ⟨some "name".toList, .string, 64, 0⟩,
    ⟨some "deleted_at".toList, .string, 32, 16⟩]
  primaryKey := some ⟨some "id".toList, .int, 4, 3⟩
  primaryKey_mem := by simp
  beforeCreate := none
  afterCreate := none
  beforeUpdate := none
  afterUpdate := none
  beforeDelete := none
  afterDelete := none
  afterFind := none

/-- Its soft-delete field. -/
def softUserDeletedAt : Field := ⟨some "deleted_at".toList, .string, 32, 16⟩

/-- The first user, deleted. -/
def deletedUser : Row (Option Text) := fun c =>
  if c = "id".toList then some "1".toList
  else if c = "deleted_at".toList then some "deleted".toList else none

theorem predicate_of_lex {w : Text} (hbt : bt ≠ .postgres) {ts : List Tok}
    (hlex : lexPart bt.dialect w = some ts) (hat : Sql.Atomic (bare ts)) : Predicate bt w := by
  intro i
  rw [appendWithPlaceholders_id fun h => absurd h hbt]
  exact ⟨ts, hlex, hat⟩

/-- `id = 1 OR id = 2`. -/
def eitherUser : List WhereCall := [.where_ "id = 1".toList, .orWhere "id = 2".toList]

theorem raw_eitherUser : ∀ c ∈ eitherUser, c.Raw .sqlite := by
  have h1 : Predicate .sqlite "id = 1".toList := by
    have hlex : lexPart .sqlite "id = 1".toList = some [.word "id".toList, .sym '=', .word "1".toList] := by
      decide +kernel
    exact predicate_of_lex (by decide) hlex (by decide +kernel)
  have h2 : Predicate .sqlite "id = 2".toList := by
    have hlex : lexPart .sqlite "id = 2".toList = some [.word "id".toList, .sym '=', .word "2".toList] := by
      decide +kernel
    exact predicate_of_lex (by decide) hlex (by decide +kernel)
  intro c hc
  rcases List.mem_cons.mp hc with rfl | hc
  · exact h1
  · rw [List.mem_singleton.mp hc]
    exact h2

end Corm
