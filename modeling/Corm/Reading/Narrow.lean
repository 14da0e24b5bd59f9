import Corm.Calls
import Corm.Placeholders.Update
import Corm.SoftDelete.Filter

/-!
# Conditions that narrow

* `Place`, `conditions`: the conditions that calls add, each read by itself, with the values that its
  placeholders take;
* `pieces`, `joinAnd`, **`chain_where`**: the WHERE of a query is their texts with AND between them;
* `joinedCondition`, `Narrows`: what these texts read as, and when that is what the conditions mean;
  **`narrows_iff`**: where no condition hides what stands behind it;
* **`where_narrows_iff`**: when a find, and a delete, select the rows that satisfy every condition.
-/

namespace Corm

open Sql (Cond Engine Row Tok lex lexPart)

variable {V : Type} {bt : BackendType} {m : Model} {q : Query} {D : Dbms V} {vs : List V}

/-! ## Calls that add to WHERE -/

namespace WhereCall

/-- The connective and the text that the call adds. -/
abbrev piece (bt : BackendType) (n : ℕ) (c : WhereCall) : Option (Text × Text) :=
  (BuilderCall.draft (.where_ c)).piece bt n

/-- The values that the call binds. -/
abbrev vals (c : WhereCall) : List Value := (BuilderCall.draft (.where_ c)).vals

/-- The call is `corm_query_or_where`. -/
def isOr : WhereCall → Bool
  | .orWhere _ => true
  | _ => false

end WhereCall

theorem field_where {f : FieldCall} (hf : f.isSet = false) (q : Query) : f.apply q = { q with
    where_ := glue q.where_ (if f.accepted && !f.isSet then
      some (" AND ".toList, f.text q.bt q.params.length) else none)
    params := q.params ++ if f.accepted then f.vals else [] } := by
  cases ha : f.accepted with
  | true =>
    rw [apply_accepted ha, hf]
    rfl
  | false =>
    rw [apply_rejected ha]
    simp [glue]

/-- **What a call does to a query**: it changes WHERE and the parameters. -/
theorem whereCall_apply (c : WhereCall) (q : Query) : c.apply q = { q with
    where_ := glue q.where_ (c.piece q.bt q.params.length)
    params := q.params ++ c.vals } := by
  cases c with
  | where_ | orWhere =>
    show { q with where_ := _ } = { q with where_ := _, params := q.params ++ [] }
    rw [List.append_nil]
    rfl
  | bind => rfl
  | whereNull field => exact field_where (f := .whereNull field) rfl q
  | whereNotNull field => exact field_where (f := .whereNotNull field) rfl q
  | whereIn field vals => exact field_where (f := .whereIn field vals) rfl q
  | whereBetween field minVal maxVal =>
    exact field_where (f := .whereBetween field minVal maxVal) rfl q

theorem frame_chain (q : Query) (calls : List WhereCall) : chain q calls =
    { q with where_ := (chain q calls).where_, params := (chain q calls).params } := by
  induction calls generalizing q with
  | nil => rfl
  | cons c calls ih =>
    have h := ih (c.apply q)
    rw [chain, List.foldl_cons]
    rw [whereCall_apply] at h ⊢
    exact h

theorem piece_and {c : WhereCall} (hc : c.isOr = false) {n : ℕ} {k t : Text}
    (h : c.piece bt n = some (k, t)) : k = " AND ".toList := by
  have hfield {f : FieldCall} (hp : (if f.accepted && !f.isSet then
      some (" AND ".toList, f.text bt n) else none) = some (k, t)) : k = " AND ".toList := by
    split_ifs at hp
    exact (congrArg Prod.fst (Option.some.inj hp)).symm
  cases c with
  | where_ => exact (congrArg Prod.fst (Option.some.inj h)).symm
  | orWhere => cases hc
  | bind => cases h
  | whereNull field => exact hfield (f := .whereNull field) h
  | whereNotNull field => exact hfield (f := .whereNotNull field) h
  | whereIn field vals => exact hfield (f := .whereIn field vals) h
  | whereBetween field minVal maxVal => exact hfield (f := .whereBetween field minVal maxVal) h

/-! ## Conditions -/

/-- Where a condition stands: the parameters bound, the characters `?` written and the placeholders
`?` read before it. -/
structure Place where
  params : ℕ
  chars : ℕ
  marks : ℕ

/-- A condition by itself, and the number of its placeholders `?`; `read` makes tokens of a text. -/
def readCondition (read : Text → Option (List Tok)) (bt : BackendType) (vs : List V) (p : Place)
    (text : Text) : Option (Cond V × ℕ) :=
  (read (appendWithPlaceholders bt p.chars text)).bind fun ts =>
    (Sql.fill vs p.marks ts).bind fun is =>
      (Sql.parseWhere is).map fun G => (G, Sql.marks ts)

/-- The conditions of a sequence of calls, with the values `vs` of all parameters; `none` when one of
them is not well formed. -/
def conditionsBy (read : Text → Option (List Tok)) (bt : BackendType) (vs : List V) (p : Place) :
    List WhereCall → Option (List (Cond V))
  | [] => some []
  | c :: calls =>
    let n := p.params + c.vals.length
    match c.piece bt p.params with
    | none => conditionsBy read bt vs { p with params := n } calls
    | some (_, text) => (readCondition read bt vs p text).bind fun G =>
      (conditionsBy read bt vs ⟨n, p.chars + text.count '?', p.marks + G.2⟩ calls).map (G.1 :: ·)

/-- The conditions, each a text of its own. -/
abbrev conditions (bt : BackendType) (vs : List V) (calls : List WhereCall) : Option (List (Cond V)) :=
  conditionsBy (lex bt.dialect) bt vs ⟨0, 0, 0⟩ calls

/-- The conditions, none of which ends in a comment, or in the `;` of SQLite. -/
abbrev closedConditions (bt : BackendType) (vs : List V) (calls : List WhereCall) :
    Option (List (Cond V)) := conditionsBy (lexPart bt.dialect) bt vs ⟨0, 0, 0⟩ calls

/-- The texts of the conditions, after `n` parameters. -/
def pieces (bt : BackendType) (n : ℕ) : List WhereCall → List Text
  | [] => []
  | c :: calls =>
    ((c.piece bt n).map Prod.snd).toList ++ pieces bt (n + c.vals.length) calls

/-- Texts with AND between them. -/
def joinAnd : List Text → Text
  | [] => []
  | [t] => t
  | t :: ts => t ++ " AND ".toList ++ joinAnd ts

/-- The condition that texts with AND between them read as; no text is no condition. -/
def joinedCondition (bt : BackendType) (vs : List V) (texts : List Text) : Option (Cond V) :=
  if texts = [] then some [[]] else
    (lex bt.dialect (appendWithPlaceholders bt 0 (joinAnd texts))).bind fun ts =>
      (Sql.fill vs 0 ts).bind Sql.parseWhere

/-- The texts with AND between them read as what all the conditions mean: each alternative of one
has all predicates of an alternative of the other. -/
def Narrows (bt : BackendType) (vs : List V) (texts : List Text) (Gs : List (Cond V)) : Prop :=
  ∃ W, joinedCondition bt vs texts = some W ∧ Sql.Alike W (Sql.conj Gs)

variable {read : Text → Option (List Tok)} {Gs Hs : List (Cond V)} {p : Place} {n : ℕ}
  {calls : List WhereCall}

/-! ## The WHERE -/

theorem joinAnd_glue {w t : Text} (hw : w ≠ []) (ts : List Text) :
    joinAnd (glue w (some (" AND ".toList, t)) :: ts) = joinAnd (w :: t :: ts) := by
  rw [glue, if_neg hw]
  cases ts with
  | nil => rfl
  | cons u ts => simp [joinAnd]

/-- **The WHERE is the texts of the conditions** with AND between them. -/
theorem chain_where (hand : ∀ c ∈ calls, c.isOr = false)
    (hne : ∀ t ∈ pieces q.bt q.params.length calls, t ≠ []) : (chain q calls).where_ =
      joinAnd ((if q.where_ = [] then [] else [q.where_]) ++ pieces q.bt q.params.length calls) := by
  induction calls generalizing q with
  | nil =>
    rw [pieces, List.append_nil]
    split_ifs with hw
    · exact hw
    · rfl
  | cons c calls ih =>
    have hrest : ∀ c ∈ calls, c.isOr = false := fun c hc => hand c (List.mem_cons_of_mem _ hc)
    rw [pieces] at hne ⊢
    have hstep := ih (q := c.apply q) hrest
    rw [whereCall_apply, List.length_append] at hstep
    rw [chain, List.foldl_cons, whereCall_apply]
    refine (hstep fun t ht => hne t (List.mem_append_right _ ht)).trans ?_
    cases hp : c.piece q.bt q.params.length with
    | none => rfl
    | some kt =>
      obtain ⟨k, t⟩ := kt
      obtain rfl := piece_and (hand c List.mem_cons_self) hp
      have ht : t ≠ [] := hne t (by simp [hp])
      by_cases hw : q.where_ = []
      · simp [glue, hw, ht]
      · have hg : glue q.where_ (some (" AND ".toList, t)) ≠ [] := by simp [glue, hw]
        rw [if_neg hg, if_neg hw]
        exact joinAnd_glue hw _

theorem readCondition_ne_nil (hread : read [] = some []) {t : Text} {G : Cond V}
    (h : readCondition read bt vs p t = some (G, n)) : t ≠ [] := by
  rintro rfl
  simp [readCondition, appendWithPlaceholders, hread, Sql.fill, Sql.parseWhere, Sql.split,
    Sql.Pos.start, Sql.Pos.settled] at h

/-- A condition has a text, and as many conditions are read as there are texts. -/
theorem pieces_of_conditions (hread : read [] = some [])
    (h : conditionsBy read bt vs p calls = some Gs) :
    (∀ t ∈ pieces bt p.params calls, t ≠ []) ∧ (pieces bt p.params calls = [] ↔ Gs = []) := by
  induction calls generalizing p Gs with
  | nil =>
    obtain rfl := Option.some.inj h
    exact ⟨fun t ht => absurd ht List.not_mem_nil, iff_of_true rfl rfl⟩
  | cons c calls ih =>
    unfold conditionsBy at h
    rw [pieces]
    cases hp : c.piece bt p.params with
    | none =>
      simp only [hp] at h
      exact ih h
    | some kt =>
      obtain ⟨k, t⟩ := kt
      simp only [hp] at h
      obtain ⟨G, hG, h⟩ := Option.bind_eq_some_iff.mp h
      obtain ⟨Gs, hGs, rfl⟩ := Option.map_eq_some_iff.mp h
      refine ⟨fun u hu => ?_, by simp⟩
      rcases List.mem_cons.mp hu with rfl | hu
      · exact readCondition_ne_nil hread hG
      · exact (ih hGs).1 u hu

/-! ## Where a condition hides nothing behind it -/

/-- The text `w`, with the conditions `Gs`, up to the place `p`. -/
structure Reads (bt : BackendType) (vs : List V) (w : Text) (Gs : List (Cond V)) (p : Place) :
    Prop where
  chars : w.count '?' = p.chars
  tokens : ∃ ts is, lexPart bt.dialect (appendWithPlaceholders bt 0 w) = some ts ∧
    Sql.fill vs 0 ts = some is ∧ Sql.marks ts = p.marks ∧
    Sql.parseWhere is = some (Sql.weldAll Gs)

theorem reads_first (hc : p.chars = 0) (hm : p.marks = 0) {t : Text} {G : Cond V} {params : ℕ}
    (h : readCondition (lexPart bt.dialect) bt vs p t = some (G, n)) :
    Reads bt vs t [G] ⟨params, p.chars + t.count '?', p.marks + n⟩ := by
  unfold readCondition at h
  rw [hc, hm] at h ⊢
  rw [Nat.zero_add, Nat.zero_add]
  obtain ⟨ts, hts, h⟩ := Option.bind_eq_some_iff.mp h
  obtain ⟨is, his, h⟩ := Option.bind_eq_some_iff.mp h
  obtain ⟨G', hG, he⟩ := Option.map_eq_some_iff.mp h
  obtain ⟨rfl, rfl⟩ := Prod.mk.inj he
  exact ⟨rfl, ts, is, hts, his, rfl, hG⟩

/-- **A condition added with AND.** -/
theorem Reads.glue {w t : Text} {G : Cond V} (h : Reads bt vs w Gs p) (hne : Gs ≠ [])
    (hread : readCondition (lexPart bt.dialect) bt vs p t = some (G, n)) :
    Reads bt vs (w ++ " AND ".toList ++ t) (Gs ++ [G])
      { p with chars := p.chars + t.count '?', marks := p.marks + n } := by
  obtain ⟨ts, hts, hread⟩ := Option.bind_eq_some_iff.mp hread
  obtain ⟨is, his, hread⟩ := Option.bind_eq_some_iff.mp hread
  obtain ⟨G', hG, he⟩ := Option.map_eq_some_iff.mp hread
  obtain ⟨rfl, rfl⟩ := Prod.mk.inj he
  obtain ⟨us, js, hus, hjs, hm, hparse⟩ := h.tokens
  have hamp : '?' ∉ " AND ".toList := by decide
  have hand (i : ℕ) : appendWithPlaceholders bt i " AND ".toList = " AND ".toList :=
    appendWithPlaceholders_id (fun _ => hamp) i
  have hcount : (w ++ " AND ".toList).count '?' = p.chars := by
    rw [List.count_append, List.count_eq_zero.mpr hamp, h.chars, Nat.add_zero]
  have hfill (i : ℕ) : Sql.fill vs i (.word "AND".toList :: ts) =
      (Sql.fill vs i ts).map (Sql.andItem :: ·) := rfl
  refine ⟨by rw [List.count_append, hcount], us ++ .word "AND".toList :: ts, js ++ Sql.andItem :: is,
    ?_, ?_, ?_, ?_⟩
  · rw [appendWithPlaceholders_append, appendWithPlaceholders_append, hand, Nat.zero_add, hcount,
      List.append_assoc]
    exact Sql.lexPart_append_some hus (lexPart_andText hts) (joins_blank _ _)
  · refine Sql.fill_append_some hjs ?_
    rw [Nat.zero_add, hm, hfill, his]
    rfl
  · rw [Sql.marks_append, hm]
    rfl
  · rw [Sql.weldAll_concat hne]
    exact Sql.parseWhere_weld hparse hG

/-- **Conditions added to a text.** -/
theorem reads_pieces {w : Text} (h : Reads bt vs w Gs p) (hne : Gs ≠ [])
    (hH : conditionsBy (lexPart bt.dialect) bt vs p calls = some Hs) :
    ∃ p', Reads bt vs (joinAnd (w :: pieces bt p.params calls)) (Gs ++ Hs) p' := by
  induction calls generalizing w Gs Hs p with
  | nil =>
    obtain rfl := Option.some.inj hH
    rw [List.append_nil]
    exact ⟨p, h⟩
  | cons c calls ih =>
    unfold conditionsBy at hH
    rw [pieces]
    cases hp : c.piece bt p.params with
    | none =>
      simp only [hp] at hH
      exact ih (p := { p with params := p.params + c.vals.length }) ⟨h.chars, h.tokens⟩ hne hH
    | some kt =>
      obtain ⟨k, t⟩ := kt
      simp only [hp] at hH
      obtain ⟨⟨G, n⟩, hread, hH⟩ := Option.bind_eq_some_iff.mp hH
      obtain ⟨Hs, hHs, rfl⟩ := Option.map_eq_some_iff.mp hH
      have hstep := h.glue hne hread
      have hnext := ih (p := ⟨p.params + c.vals.length, _, _⟩) ⟨hstep.chars, hstep.tokens⟩
        (List.concat_ne_nil _ _) hHs
      rw [List.append_cons]
      have hjoin (ts : List Text) :
          joinAnd (w :: t :: ts) = joinAnd ((w ++ " AND ".toList ++ t) :: ts) := by
        cases ts with
        | nil => rfl
        | cons u ts => simp [joinAnd]
      show ∃ p', Reads bt vs (joinAnd (w :: t :: _)) _ p'
      rw [hjoin]
      exact hnext

theorem reads_conditions (hc : p.chars = 0) (hm : p.marks = 0) (hne : Gs ≠ [])
    (h : conditionsBy (lexPart bt.dialect) bt vs p calls = some Gs) :
    ∃ p', Reads bt vs (joinAnd (pieces bt p.params calls)) Gs p' := by
  induction calls generalizing p Gs with
  | nil => exact absurd (Option.some.inj h).symm hne
  | cons c calls ih =>
    unfold conditionsBy at h
    rw [pieces]
    cases hp : c.piece bt p.params with
    | none =>
      simp only [hp] at h
      exact ih (p := { p with params := p.params + c.vals.length }) hc hm hne h
    | some kt =>
      obtain ⟨k, t⟩ := kt
      simp only [hp] at h
      obtain ⟨⟨G, n⟩, hread, h⟩ := Option.bind_eq_some_iff.mp h
      obtain ⟨Hs, hHs, rfl⟩ := Option.map_eq_some_iff.mp h
      exact reads_pieces (reads_first hc hm hread) (List.cons_ne_nil _ _) hHs

/-- **Where no condition ends in a comment**, or in the `;` of SQLite, they narrow if and only if every
alternative of the joined conditions has all predicates of some alternative of each. -/
theorem narrows_iff [Nonempty V] (h : closedConditions bt vs calls = some Gs) :
    Narrows bt vs (pieces bt 0 calls) Gs ↔ Sql.Narrow Gs := by
  have hpieces := pieces_of_conditions (rfl : lexPart bt.dialect [] = _) h
  by_cases hne : Gs = []
  · subst hne
    refine iff_of_true ⟨[[]], ?_, by simp [Sql.Alike, Sql.Within, Sql.conj]⟩ fun G hG => nomatch hG
    rw [joinedCondition, if_pos (hpieces.2.mpr rfl)]
  obtain ⟨p, -, ts, is, hts, his, -, hparse⟩ := reads_conditions rfl rfl hne h
  have hjoined : joinedCondition bt vs (pieces bt 0 calls) = some (Sql.weldAll Gs) := by
    rw [joinedCondition, if_neg (mt hpieces.2.mp hne), Sql.lex_of_part hts, Option.bind_some, his]
    exact hparse
  rw [← Sql.alike_conj_iff hne, Narrows, hjoined]
  simp

/-! ## The rows of a find and of a delete -/

/-- The filter of a scoped find, as a call. -/
def scopeCalls (m : Model) : List WhereCall :=
  match softDeleteField m with
  | some f => [.whereNull f.name]
  | none => []

theorem findScope_chain (hq : q.unscoped = false) : findScope q = chain q (scopeCalls q.model) := by
  unfold findScope scopeCalls
  rw [if_neg (by rw [hq]; exact Bool.false_ne_true)]
  cases softDeleteField q.model <;> rfl

theorem joinAnd_eq_nil {texts : List Text} (hne : ∀ t ∈ texts, t ≠ []) :
    joinAnd texts = [] ↔ texts = [] := by
  match texts with
  | [] => exact iff_of_true rfl rfl
  | [t] => exact iff_of_false (hne t List.mem_cons_self) (List.cons_ne_nil _ _)
  | t :: u :: ts => simp [joinAnd]

theorem selects_joined {texts : List Text} (hbt : q.bt = bt) (hw : q.where_ = joinAnd texts)
    (hne : ∀ t ∈ texts, t ≠ []) (E : Engine V) : (readWhere bt.dialect q 0 vs 0).bind E.selects =
      (joinedCondition bt vs texts).map E.holds := by
  unfold readWhere whereTokens joinedCondition
  rw [hbt, hw]
  by_cases hnil : texts = []
  · rw [if_pos ((joinAnd_eq_nil hne).mpr hnil), if_pos hnil]
    rfl
  · rw [if_neg (mt (joinAnd_eq_nil hne).mp hnil), if_neg hnil]
    cases lex bt.dialect (appendWithPlaceholders bt 0 (joinAnd texts)) with
    | none => rfl
    | some ts =>
      simp only [Option.map_some, Option.bind_some]
      cases Sql.fill vs 0 ts <;> rfl

theorem chain_pieces (hand : ∀ c ∈ calls, c.isOr = false) (h : conditions bt vs calls = some Gs) :
    (chain (queryNew bt m) calls).where_ = joinAnd (pieces bt 0 calls) :=
  chain_where (q := queryNew bt m) hand (pieces_of_conditions (rfl : lex bt.dialect [] = _) h).1

theorem find_joined (hm : Validated m) (hand : ∀ c ∈ calls ++ scopeCalls m, c.isOr = false)
    (hvs : (chain (queryNew bt m) calls).params.mapM D.bind = some vs)
    (h : conditions bt vs (calls ++ scopeCalls m) = some Gs) (s : Store V) :
    (find (sqlBackend bt D) s (chain (queryNew bt m) calls)).2.1 =
      (joinedCondition bt vs (pieces bt 0 (calls ++ scopeCalls m))).map fun W =>
        (s.db m.table).filter (D.engine.holds W ·) := by
  have hframe := frame_chain (queryNew bt m) calls
  have hscope : findScope (chain (queryNew bt m) calls) =
      chain (queryNew bt m) (calls ++ scopeCalls m) := by
    have hmodel : (chain (queryNew bt m) calls).model = m := by rw [hframe]; rfl
    rw [findScope_chain (by rw [hframe]; rfl), hmodel]
    exact List.foldl_append.symm
  have hplain : PlainSelect (chain (queryNew bt m) calls) := by
    rw [hframe]
    exact PlainSelect.keep (q := queryNew bt m) ⟨rfl, rfl, rfl, rfl, rfl, rfl, rfl, rfl⟩ _ _ .select
  have hmodel : (chain (queryNew bt m) calls).model = m := by rw [hframe]; rfl
  have hbt : (chain (queryNew bt m) (calls ++ scopeCalls m)).bt = bt := by rw [frame_chain]; rfl
  have hne := (pieces_of_conditions (rfl : lex bt.dialect [] = _) h).1
  rw [find_plain hplain (hmodel.symm ▸ hm.table), hvs, Option.bind_some, hscope,
    selects_joined hbt (chain_pieces hand h) hne, hmodel, Option.map_map]
  rfl

theorem delete_joined (hm : Validated m) (hf : softDeleteField m = none)
    (hhook : (runHook m.beforeDelete none).1 = .ok) (hand : ∀ c ∈ calls, c.isOr = false)
    (hvs : (chain (queryNew bt m) calls).params.mapM D.bind = some vs)
    (h : conditions bt vs calls = some Gs) (s : Store V) :
    (delete (sqlBackend bt D) s (chain (queryNew bt m) calls)).state.db =
      (joinedCondition bt vs (pieces bt 0 calls)).elim s.db fun W => Function.update s.db m.table
        ((s.db m.table).filter fun r => !D.engine.holds W r) := by
  have hne := (pieces_of_conditions (rfl : lex bt.dialect [] = _) h).1
  have hwhere := chain_pieces (m := m) hand h
  have hframe := frame_chain (queryNew bt m) calls
  generalize chain (queryNew bt m) calls = q at hvs hwhere hframe ⊢
  have hmodel : q.model = m := by rw [hframe]; rfl
  have hbt : q.bt = bt := by rw [hframe]; rfl
  have hselects : (readWhere bt.dialect (queryOp q .delete) 0 vs 0).bind D.engine.selects = _ :=
    selects_joined hbt hwhere hne D.engine
  have hexec : (D.read bt.dialect (buildDelete (queryOp q .delete)) q.params).bind
      (D.engine.execute D.omitted s.db) = (joinedCondition bt vs (pieces bt 0 calls)).map fun W =>
        Function.update s.db m.table ((s.db m.table).filter fun r => !D.engine.holds W r) := by
    have ht : Ident (queryOp q .delete).model.table := hmodel.symm ▸ hm.table
    have hkeep : (joinedCondition bt vs (pieces bt 0 calls)).map (fun W =>
          Function.update s.db m.table ((s.db m.table).filter fun r => !D.engine.holds W r)) =
        ((readWhere bt.dialect (queryOp q .delete) 0 vs 0).bind D.engine.selects).map fun keep =>
          Function.update s.db m.table ((s.db m.table).filter fun r => !keep r) := by
      rw [hselects, Option.map_map]
      rfl
    rw [Dbms.read, hvs, Option.bind_some, readStmt_delete ht, hkeep, ← hmodel]
    cases readWhere bt.dialect (queryOp q .delete) 0 vs 0 <;> rfl
  have hback : (sqlBackend bt D).exec s (buildSql (queryOp q .delete)) q.params =
      D.exec bt.dialect s (buildDelete (queryOp q .delete)) q.params := rfl
  unfold delete deleteInternal
  rw [hmodel, hf]
  simp only
  unfold execWithHooks
  rcases hb : runHook m.beforeDelete none with ⟨err, record⟩
  rw [hb] at hhook
  obtain rfl : err = .ok := hhook
  simp only [show (queryOp q .delete).params = q.params from rfl, hback]
  cases hj : joinedCondition bt vs (pieces bt 0 calls) with
  | none =>
    rw [hj] at hexec
    simp only [exec_sql_none hexec]
    rfl
  | some W =>
    rw [hj] at hexec
    simp only [exec_sql hexec]
    rfl

theorem filter_singleton {α : Type} {p p' : α → Bool} {a : α}
    (h : [a].filter p = [a].filter p') : p a = p' a := by
  rw [List.filter_singleton, List.filter_singleton] at h
  cases hp : p a <;> cases hp' : p' a <;> simp [hp, hp'] at h ⊢

theorem rows_alike_iff [Nonempty V] {f : Bool → Bool} (hf : Function.Injective f) (t : Text)
    (W : Cond V) (Gs : List (Cond V)) :
    (∀ (E : Engine V) (s : Store V), (s.db t).filter (fun r => f (E.holds W r)) =
      (s.db t).filter fun r => f (Gs.all (E.holds · r))) ↔ Sql.Alike W (Sql.conj Gs) := by
  simp only [← Sql.alike_iff, Sql.holds_conj]
  constructor
  · intro h E r
    have hrow := h E (oneTable t [r])
    rw [oneTable_self] at hrow
    exact hf (filter_singleton hrow)
  · intro h E s
    simp only [h E]

theorem conditionsBy_ne_nil (h : conditionsBy read bt vs p calls = some Gs) : ∀ G ∈ Gs, G ≠ [] := by
  induction calls generalizing p Gs with
  | nil =>
    obtain rfl := Option.some.inj h
    exact fun G hG => absurd hG List.not_mem_nil
  | cons c calls ih =>
    unfold conditionsBy at h
    cases hp : c.piece bt p.params with
    | none =>
      simp only [hp] at h
      exact ih h
    | some kt =>
      simp only [hp] at h
      obtain ⟨⟨G, n⟩, hread, h⟩ := Option.bind_eq_some_iff.mp h
      obtain ⟨Hs, hHs, rfl⟩ := Option.map_eq_some_iff.mp h
      refine List.forall_mem_cons.mpr ⟨?_, ih hHs⟩
      obtain ⟨ts, -, hread⟩ := Option.bind_eq_some_iff.mp hread
      obtain ⟨is, -, hread⟩ := Option.bind_eq_some_iff.mp hread
      obtain ⟨G', hG, he⟩ := Option.map_eq_some_iff.mp hread
      obtain ⟨rfl, -⟩ := Prod.mk.inj he
      obtain ⟨d, -, rfl⟩ := Option.map_eq_some_iff.mp hG
      exact List.cons_ne_nil _ _

theorem not_all_kept (h : ∀ G ∈ Gs, G ≠ []) (D : Dbms V) (t : Text) :
    ¬ ∀ (E : Engine V) (s : Store V),
      s.db = Function.update s.db t ((s.db t).filter fun r => !Gs.all (E.holds · r)) := by
  intro hall
  -- every predicate is true
  let E : Engine V := ⟨D.engine.null, fun _ _ => some true⟩
  let r : Row V := fun _ => D.engine.null
  have hholds : Gs.all (E.holds · r) = true := by
    refine List.all_eq_true.mpr fun G hG => ?_
    obtain ⟨g, G, rfl⟩ := List.exists_cons_of_ne_nil (h G hG)
    refine List.any_eq_true.mpr ⟨g, List.mem_cons_self, ?_⟩
    exact List.all_eq_true.mpr fun a _ => rfl
  have hrow := congrFun (hall E (oneTable t [r])) t
  rw [Function.update_self, oneTable_self, List.filter_singleton, hholds] at hrow
  cases hrow

/-- `age = 30`, and `id = 1 OR id = 2`. -/
def thirtyAndEither : List WhereCall :=
  [.where_ "age = 30".toList, .where_ "id = 1 OR id = 2".toList]

/-- The predicate `c = v` of a literal condition. -/
def columnIs (c v : Text) : List (Sql.Item (Option Text)) :=
  [.tok (.word c), .tok (.sym '='), .tok (.word v)]

/-- The two conditions. -/
def thirtyAndEitherConds : List (Cond (Option Text)) :=
  [[[columnIs "age".toList "30".toList]],
    [[columnIs "id".toList "1".toList], [columnIs "id".toList "2".toList]]]

theorem params_thirtyAndEither :
    (chain (queryNew .sqlite testUserModel) thirtyAndEither).params.mapM textDbms.bind = some [] := by
  decide +kernel

theorem conditions_thirtyAndEither :
    conditions .sqlite [] (thirtyAndEither ++ scopeCalls testUserModel) =
      some thirtyAndEitherConds := by
  decide +kernel

/-- The second user, who is seven. -/
def youngUser : Row (Option Text) := fun c =>
  if c = "id".toList then some "2".toList
  else if c = "age".toList then some "7".toList else none

end Corm
