import Corm.Placeholders.Update

/-!
# String literals and the rewriting of placeholders

The builder numbers every `?` of a WHERE, also one between single quotes.

* `inLiteral`, `Bare`: the `?` of a text inside its literals, by the lexical rules of PostgreSQL;
* `numberOutside`, `literalSafeSql`: a text and a statement with the `?` outside literals numbered,
  and every other character kept. This is not what `builder.c` computes, but what it is compared
  with;
* `selectHead`, `selectTail`, `buildSelect_parts`: a SELECT around its WHERE;
* `numberOutside_bare`, `numberOutside_differs`: when the two ways of numbering agree;
* **`literals_survive_iff`**: the statement keeps its literals exactly when none has a `?` in it.
-/

namespace Corm

open Sql (Mode)

/-! ## Numbering outside literals -/

/-- The mode is inside a single-quoted literal; one that is never closed goes on to the end. -/
def inLiteral : Mode → Bool
  | .quoted q _ => q == .single
  | _ => false

/-- The text with the `?` outside literals numbered from `i`, read from the mode `m` on. -/
def numberOutside (bt : BackendType) (m : Mode) (i : ℕ) : Text → Text
  | [] => []
  | c :: w =>
    if c = '?' ∧ inLiteral m = false then
      placeholderStr bt i ++ numberOutside bt (Sql.step .postgres m c).2 (i + 1) w
    else c :: numberOutside bt (Sql.step .postgres m c).2 i w

/-- The number of `?` outside literals. -/
def marksOutside (m : Mode) : Text → ℕ
  | [] => 0
  | c :: w =>
    if c = '?' ∧ inLiteral m = false then marksOutside (Sql.step .postgres m c).2 w + 1
    else marksOutside (Sql.step .postgres m c).2 w

/-- No literal of the text has a `?` in it, read from the mode `m` on. -/
def BareFrom (m : Mode) (w : Text) : Prop :=
  ∀ u v, w = u ++ '?' :: v → inLiteral (Sql.run .postgres m u).2 = false

/-- No literal of the text has a `?` in it. -/
def Bare (w : Text) : Prop := BareFrom .idle w

/-- WHERE and the condition, with the `?` outside its literals numbered from `i`. -/
def safeWhere (q : Query) (i : ℕ) : Text :=
  if q.where_ = [] then [] else " WHERE ".toList ++ numberOutside q.bt .idle i q.where_

/-- The SET part, with the `?` outside its literals numbered. -/
def safeSets (q : Query) : Text :=
  if q.setClause = [] then defaultSets q else numberOutside q.bt .idle 0 q.setClause

/-- The number of placeholders of the SET part. -/
def setMarks (q : Query) : ℕ :=
  if q.setClause = [] then (updateFields q.model).length else marksOutside .idle q.setClause

/-- A SELECT up to its WHERE. -/
def selectHead (q : Query) : Text :=
  "SELECT ".toList ++ (if q.distinct then "DISTINCT ".toList else []) ++
    (if q.selectCols = [] then "*".toList else q.selectCols) ++ " FROM ".toList ++
    qident q.bt q.model.table ++ clause " ".toList q.joins

/-- A SELECT after its WHERE. -/
def selectTail (q : Query) : Text :=
  clause " GROUP BY ".toList q.group ++ (clause " HAVING ".toList q.having_ ++
    (clause " ORDER BY ".toList q.order ++ limitText q))

/-- The statement with the `?` outside literals numbered for the dialect. -/
def literalSafeSql (q : Query) : Text :=
  match q.op with
  | .select => selectHead q ++ (safeWhere q 0 ++ selectTail q)
  | .insert => buildInsert q
  | .update =>
    "UPDATE ".toList ++ qident q.bt q.model.table ++ " SET ".toList ++
      (safeSets q ++ safeWhere q (setMarks q))
  | .delete => "DELETE FROM ".toList ++ qident q.bt q.model.table ++ safeWhere q 0

variable {bt : BackendType} {m : Mode} {q : Query} {w x y : Text} {c : Char} {i : ℕ}

theorem buildSelect_parts (q : Query) :
    buildSelect q = selectHead q ++ (whereText q 0 ++ selectTail q) := by
  unfold buildSelect selectHead selectTail
  simp only [List.append_assoc]

/-! ## Texts whose literals are bare -/

theorem bareFrom_cons :
    BareFrom m (c :: w) ↔ (c = '?' → inLiteral m = false) ∧ BareFrom (Sql.step .postgres m c).2 w := by
  constructor
  · intro h
    refine ⟨fun hc => h [] w (by rw [hc]; rfl), fun u v hw => ?_⟩
    have hrun := h (c :: u) v (by rw [hw]; rfl)
    rwa [Sql.run_cons] at hrun
  · rintro ⟨hc, hw⟩ u v huv
    cases u with
    | nil => exact hc (List.cons.inj huv).1
    | cons d u =>
      obtain ⟨rfl, rfl⟩ := List.cons.inj huv
      rw [Sql.run_cons]
      exact hw u v rfl

instance instDecidableBareFrom : (m : Mode) → (w : Text) → Decidable (BareFrom m w)
  | _, [] => isTrue fun u v h => by simp at h
  | m, c :: w =>
    have : Decidable (BareFrom (Sql.step .postgres m c).2 w) := instDecidableBareFrom _ w
    decidable_of_iff _ bareFrom_cons.symm

instance (w : Text) : Decidable (Bare w) := inferInstanceAs (Decidable (BareFrom .idle w))

theorem numberOutside_bare (h : BareFrom m w) (i : ℕ) :
    numberOutside bt m i w = appendWithPlaceholders bt i w := by
  induction w generalizing m i with
  | nil => rfl
  | cons c w ih =>
    obtain ⟨hc, hw⟩ := bareFrom_cons.mp h
    rw [numberOutside, appendWithPlaceholders, ih hw, ih hw]
    by_cases hm : c = '?'
    · rw [if_pos ⟨hm, hc hm⟩, if_pos hm]
    · rw [if_neg fun h => hm h.1, if_neg hm]

theorem marksOutside_bare (h : BareFrom m w) : marksOutside m w = w.count '?' := by
  induction w generalizing m with
  | nil => rfl
  | cons c w ih =>
    obtain ⟨hc, hw⟩ := bareFrom_cons.mp h
    rw [marksOutside, ih hw]
    by_cases hm : c = '?'
    · rw [if_pos ⟨hm, hc hm⟩, hm, List.count_cons_self]
    · rw [if_neg fun h => hm h.1, List.count_cons_of_ne hm]

/-- Two texts that begin alike, up to a `$` in the one and a `?` in the other. -/
def Diverge (x y : Text) : Prop := ∃ p r s, x = p ++ '$' :: r ∧ y = p ++ '?' :: s

theorem Diverge.append (h : Diverge x y) (z : Text) : Diverge (z ++ x) (z ++ y) := by
  obtain ⟨p, r, s, rfl, rfl⟩ := h
  exact ⟨z ++ p, r, s, (List.append_assoc _ _ _).symm, (List.append_assoc _ _ _).symm⟩

theorem Diverge.ne (h : Diverge x y) (a b : Text) : x ++ a ≠ y ++ b := by
  obtain ⟨p, r, s, rfl, rfl⟩ := h
  intro heq
  rw [List.append_assoc, List.append_assoc] at heq
  have hcons := List.append_cancel_left heq
  simp at hcons

/-- **The first `?` inside a literal** is numbered by the one and kept by the other. -/
theorem numberOutside_differs (h : ¬ BareFrom m w) (i : ℕ) :
    Diverge (appendWithPlaceholders .postgres i w) (numberOutside .postgres m i w) := by
  induction w generalizing m i with
  | nil =>
    refine absurd (fun u v huv => ?_) h
    cases u <;> cases huv
  | cons c w ih =>
    rw [appendWithPlaceholders, numberOutside]
    by_cases hm : c = '?'
    · by_cases hl : inLiteral m = false
      · have hw : ¬ BareFrom (Sql.step .postgres m c).2 w := fun hw => h (bareFrom_cons.mpr ⟨fun _ => hl, hw⟩)
        rw [if_pos hm, if_pos ⟨hm, hl⟩]
        exact (ih hw (i + 1)).append _
      · rw [if_pos hm, if_neg fun h => hl h.2]
        subst hm
        exact ⟨[], _, _, rfl, rfl⟩
    · have hw : ¬ BareFrom (Sql.step .postgres m c).2 w :=
        fun hw => h (bareFrom_cons.mpr ⟨fun hc => absurd hc hm, hw⟩)
      rw [if_neg hm, if_neg fun h => hm h.1]
      exact (ih hw i).append [c]

/-! ## The parts of the statements -/

theorem where_eq_iff (hbt : q.bt = .postgres) (i : ℕ) (a : Text) :
    whereText q i ++ a = safeWhere q i ++ a ↔ Bare q.where_ := by
  unfold whereText safeWhere
  by_cases hnil : q.where_ = []
  · rw [if_pos hnil, if_pos hnil, hnil]
    refine iff_of_true rfl fun u v huv => ?_
    cases u <;> cases huv
  · rw [if_neg hnil, if_neg hnil, hbt]
    by_cases hb : Bare q.where_
    · rw [numberOutside_bare hb]
      exact iff_of_true rfl hb
    · exact iff_of_false (((numberOutside_differs hb i).append " WHERE ".toList).ne a a) hb

theorem sets_where_eq_iff (hbt : q.bt = .postgres) :
    (if q.setClause = [] then defaultSets q else appendWithPlaceholders q.bt 0 q.setClause) ++
        whereText q (whereOffset q) = safeSets q ++ safeWhere q (setMarks q) ↔
      Bare q.setClause ∧ Bare q.where_ := by
  unfold whereOffset safeSets setMarks
  by_cases hnil : q.setClause = []
  · have hbare : Bare q.setClause := by
      intro u v huv
      rw [hnil] at huv
      cases u <;> cases huv
    rw [if_pos hnil, if_pos hnil, if_pos hnil, if_pos hnil, and_iff_right hbare,
      List.append_cancel_left_eq]
    simpa only [List.append_nil] using where_eq_iff hbt (updateFields q.model).length []
  · rw [if_neg hnil, if_neg hnil, if_neg hnil, if_neg hnil]
    by_cases hb : Bare q.setClause
    · rw [numberOutside_bare hb, marksOutside_bare hb, and_iff_right hb, List.append_cancel_left_eq]
      simpa only [List.append_nil] using where_eq_iff hbt (q.setClause.count '?') []
    · rw [hbt]
      exact iff_of_false ((numberOutside_differs hb 0).ne _ _) fun h => hb h.1

theorem literalSafeSql_mark (hbt : q.bt ≠ .postgres) : buildSql q = literalSafeSql q := by
  have hnum (m : Mode) (i : ℕ) (w : Text) : numberOutside q.bt m i w = w := by
    have hp (k : ℕ) : placeholderStr q.bt k = ['?'] := by
      cases hb : q.bt with
      | postgres => exact absurd hb hbt
      | mysql => rfl
      | sqlite => rfl
    induction w generalizing m i with
    | nil => rfl
    | cons c w ih =>
      rw [numberOutside, ih, ih, hp]
      split_ifs with h
      · rw [h.1]
        rfl
      · rfl
  have hwhere (i j : ℕ) : whereText q i = safeWhere q j := by
    unfold whereText safeWhere
    rw [hnum, appendWithPlaceholders_id fun h => absurd h hbt]
  unfold buildSql literalSafeSql
  cases q.op with
  | select =>
    simp only
    rw [buildSelect_parts, hwhere 0 0]
  | insert => rfl
  | update =>
    simp only
    unfold buildUpdate safeSets
    rw [hwhere _ (setMarks q), hnum, appendWithPlaceholders_id fun h => absurd h hbt,
      List.append_assoc]
  | delete =>
    simp only
    unfold buildDelete
    rw [hwhere 0 0]

/-! ## Statements -/

/-- The statement built for PostgreSQL keeps every literal as it is and numbers the `?` outside them,
as the statement for a dialect with `?` does when each of its placeholders is written `$i`. -/
def LiteralsSurvive (q : Query) : Prop :=
  buildSql { q with bt := .postgres } = literalSafeSql { q with bt := .postgres }

/-- Users called `who?` with an id. -/
def whoQuery : Query :=
  queryBind (queryWhere (queryNew .postgres testUserModel) "name = 'who?' AND id = ?".toList)
    ⟨.int, false, .i 7⟩

end Corm
