import Corm.Placeholders.Literals
import Corm.Reading.Number
import Mathlib.Algebra.GroupWithZero.Nat

/-!
# The placeholders of a SELECT

Five texts of the caller stand in a SELECT, and the builder rewrites one of them.

* `params`, `placeholders`: the placeholders of a list of tokens, and of a text;
* `MarksRead`, `WellMarked`: every `?` of a text is a placeholder;
* `numberToks`, `marksRead_number`: such a text after the rewriting;
* `placeholders_buildSelect`: the placeholders of the statement, clause by clause;
* **`select_numbered_iff`**: they are `$1` to `$n` exactly when the WHERE has all of them.
-/

namespace Corm

open Sql (Tok Mode lexPart)

/-! ## The placeholders of a text -/

/-- The placeholders among the tokens: `?` is `none`, and `$k` is `some k`. -/
def params (ts : List Tok) : List (Option ℕ) :=
  ts.filterMap fun
    | .param k => some k
    | _ => none

/-- The placeholders of a text that ends between tokens, from left to right. -/
def placeholders (text : Text) : Option (List (Option ℕ)) := (lexPart .postgres text).map params

/-- After the mode `m`, every `?` of the text stands between tokens, no `$` precedes it and no digit
follows it (which would make it a numbered placeholder), and the text ends between tokens. -/
def MarksRead (m : Mode) : Text → Prop
  | [] => (Sql.flush m).isSome
  | c :: w =>
    (c = '?' → (Sql.flush m).isSome ∧ w.head?.any Char.isDigit = false ∧ m ≠ .dollar []) ∧
      MarksRead (Sql.step .postgres m c).2 w

instance decidableMarksRead : (m : Mode) → (w : Text) → Decidable (MarksRead m w)
  | m, [] => inferInstanceAs (Decidable ((Sql.flush m).isSome = true))
  | m, c :: w =>
    have := decidableMarksRead (Sql.step .postgres m c).2 w
    inferInstanceAs (Decidable (_ ∧ _))

/-- Every `?` of the text is a placeholder, so none stands in a literal. -/
def WellMarked (w : Text) : Prop := MarksRead .idle w

instance (w : Text) : Decidable (WellMarked w) := decidableMarksRead .idle w

/-- The text has no placeholder `$k` of its own. -/
def NoneNumbered (w : Text) : Prop := ∀ ts, lexPart .postgres w = some ts → Sql.Marked ts

/-- The tokens with their `?` numbered, after `i` of them. -/
def numberToks (i : ℕ) : List Tok → List Tok
  | [] => []
  | .param none :: ts => .param (some (i + 1)) :: numberToks (i + 1) ts
  | t :: ts => t :: numberToks i ts

variable {m : Mode} {a b w : Text} {c : Char} {ts us : List Tok} {i n : ℕ}
  {ps qs : List (Option ℕ)} {q : Query}

theorem params_append : params (ts ++ us) = params ts ++ params us := List.filterMap_append

theorem marks_le_params (ts : List Tok) : Sql.marks ts ≤ (params ts).length := by
  induction ts with
  | nil => exact Nat.le_refl 0
  | cons t ts ih =>
    rw [Sql.marks_cons]
    cases t with
    | param k =>
      have hp : params (.param k :: ts) = k :: params ts := rfl
      rw [hp, List.length_cons]
      cases k with
      | none => show 1 + _ ≤ _; omega
      | some k => show 0 + _ ≤ _; omega
    | _ =>
      show 0 + Sql.marks ts ≤ (params ts).length
      omega

theorem params_length_iff : (params ts).length = Sql.marks ts ↔ Sql.Marked ts := by
  induction ts with
  | nil => exact iff_of_true rfl fun k h => nomatch h
  | cons t ts ih =>
    have hle := marks_le_params ts
    have hcons (h : ∀ k, t ≠ .param (some k)) : Sql.Marked (t :: ts) ↔ Sql.Marked ts := by
      simp [Sql.Marked, fun k => Ne.symm (h k)]
    rw [Sql.marks_cons]
    cases t with
    | param k =>
      have hp : params (.param k :: ts) = k :: params ts := rfl
      rw [hp, List.length_cons]
      cases k with
      | none =>
        rw [hcons (by simp), ← ih]
        show _ = 1 + _ ↔ _
        omega
      | some k =>
        refine iff_of_false (show ¬ _ = 0 + _ by omega) fun h => ?_
        exact h k List.mem_cons_self
    | _ =>
      rw [hcons (by simp), ← ih]
      show (params ts).length = 0 + _ ↔ _
      omega

/-! ## Numbering tokens -/

theorem numberToks_unmarked (h : .param none ∉ ts) (i : ℕ) (us : List Tok) :
    numberToks i (ts ++ us) = ts ++ numberToks i us ∧ Sql.marks ts = 0 := by
  induction ts with
  | nil => exact ⟨rfl, rfl⟩
  | cons t ts ih =>
    rw [List.mem_cons, not_or] at h
    obtain ⟨hnum, hmarks⟩ := ih h.2
    rw [Sql.marks_cons, hmarks, List.cons_append]
    rcases t with _ | _ | _ | (_ | k)
    case param.none => exact absurd rfl h.1
    all_goals exact ⟨congrArg (_ :: ·) hnum, rfl⟩

theorem params_numberToks_length (i : ℕ) (ts : List Tok) :
    (params (numberToks i ts)).length = (params ts).length := by
  induction ts generalizing i with
  | nil => rfl
  | cons t ts ih =>
    rcases t with _ | _ | _ | (_ | k)
    case param.none => exact congrArg (· + 1) (ih (i + 1))
    case param.some => exact congrArg (· + 1) (ih i)
    all_goals exact ih i

theorem params_numberToks (h : Sql.Marked ts) (i : ℕ) :
    params (numberToks i ts) = (List.range' (i + 1) (Sql.marks ts)).map some := by
  induction ts generalizing i with
  | nil => rfl
  | cons t ts ih =>
    have hts : Sql.Marked ts := fun k hk => h k (List.mem_cons_of_mem _ hk)
    rw [Sql.marks_cons]
    rcases t with _ | _ | _ | (_ | k)
    case param.some => exact absurd List.mem_cons_self (h k)
    case param.none =>
      show _ = (List.range' (i + 1) (1 + Sql.marks ts)).map some
      rw [Nat.add_comm 1, List.range'_succ, List.map_cons, ← ih hts]
      rfl
    all_goals
      show params (numberToks i ts) = (List.range' (i + 1) (0 + Sql.marks ts)).map some
      rw [Nat.zero_add, ih hts]

theorem notMem_flush (h : Sql.flush m = some us) : .param none ∉ us := by
  cases m with
  | dollar ds =>
    cases h
    unfold Sql.dollarTok
    split_ifs <;> simp
  | idle | word | closing | minus | slash | bar | amp =>
    cases h
    simp
  | quoted | escape | dashes | line | hint | block | star | nest | ended | stuck => cases h

theorem notMem_begin (h : .param none ∉ ts) (hc : c ≠ '?') :
    .param none ∉ (Sql.begin .postgres ts c).1 := by
  have hfirst : .param none ∉ (Sql.first .postgres c).1 := by
    simp only [Sql.first, reduceCtorEq, false_and, if_false]
    cases Sql.quote? c <;> split_ifs <;> simp
  simp [Sql.begin, h, hfirst]

theorem notMem_step (hc : c ≠ '?') (m : Mode) : .param none ∉ (Sql.step .postgres m c).1 := by
  have hite {us : List Tok} {x : List Tok × Mode} (hu : .param none ∉ us) (hx : .param none ∉ x.1)
      (p : Prop) [Decidable p] (m' : Mode) : .param none ∉ (if p then (us, m') else x).1 := by
    split_ifs
    · exact hu
    · exact hx
  have hnil : .param none ∉ ([] : List Tok) := List.not_mem_nil
  cases m with
  | idle => exact notMem_begin hnil hc
  | word w => exact hite hnil (hite hnil (notMem_begin (by simp) hc) _ _) _ _
  | dollar ds =>
    exact hite hnil (hite hnil (notMem_begin (notMem_flush (m := .dollar ds) rfl) hc) _ _) _ _
  | closing | minus | slash => exact hite hnil (notMem_begin (by simp) hc) _ _
  | bar | amp => exact hite (by simp) (notMem_begin (by simp) hc) _ _
  | quoted => simp [Sql.step]; split_ifs <;> simp
  | escape | line | hint | block | star | nest | ended | stuck => simp [Sql.step]
  | dashes => simp [Sql.step, Sql.afterDashes]

/-- **A text whose `?` are placeholders**, and the text after the rewriting: the tokens of the first
with their `?` numbered are those of the second. -/
theorem marksRead_number (h : MarksRead m w) (i : ℕ) : ∃ ts, lexFrom Sql.flush m w = some ts ∧
    number Sql.flush m i w = some (numberToks i ts) ∧ Sql.marks ts = w.count '?' := by
  induction w generalizing m i with
  | nil =>
    obtain ⟨us, hus⟩ := Option.isSome_iff_exists.mp h
    obtain ⟨hnum, hmarks⟩ := numberToks_unmarked (notMem_flush hus) i []
    refine ⟨us, ?_, ?_, hmarks⟩
    · show (Sql.flush m).map ([] ++ ·) = _
      rw [hus]
      rfl
    · rw [List.append_nil] at hnum
      rw [number, hus, hnum, numberToks, List.append_nil]
  | cons c w ih =>
    obtain ⟨hmark, hrest⟩ := h
    by_cases hc : c = '?'
    · subst hc
      obtain ⟨hflush, hdigit, hdollar⟩ := hmark rfl
      obtain ⟨us, hus⟩ := Option.isSome_iff_exists.mp hflush
      have hstep : Sql.step .postgres m '?' = (us ++ [Tok.param none], .idle) := Sql.step_boundary hus rfl
      rw [hstep] at hrest
      obtain ⟨ts, hlex, hnum, hcount⟩ := ih hrest (i + 1)
      obtain ⟨hnums, hmarks⟩ := numberToks_unmarked (notMem_flush hus) i (.param none :: ts)
      refine ⟨us ++ .param none :: ts, ?_, ?_, ?_⟩
      · rw [lexFrom_cons, hstep, hlex]
        simp
      · rw [number, if_pos rfl, hus, hnums]
        simp only [hdigit, hdollar, Bool.false_eq_true, or_self, if_false]
        rw [hnum]
        rfl
      · rw [Sql.marks_append, hmarks, Sql.marks_cons, hcount, List.count_cons_self]
        show 0 + (1 + _) = _
        omega
    · obtain ⟨ts, hlex, hnum, hcount⟩ := ih hrest i
      obtain ⟨hnums, hmarks⟩ := numberToks_unmarked (notMem_step hc m) i ts
      refine ⟨(Sql.step .postgres m c).1 ++ ts, ?_, ?_, ?_⟩
      · rw [lexFrom_cons, hlex]
        rfl
      · rw [number, if_neg hc, hnum, hnums]
        rfl
      · rw [Sql.marks_append, hmarks, hcount, List.count_cons_of_ne hc, Nat.zero_add]

theorem WellMarked.lexPart (h : WellMarked w) : ∃ ts, lexPart .postgres w = some ts ∧
    Sql.lexPart .postgres (appendWithPlaceholders .postgres 0 w) = some (numberToks 0 ts) ∧
    Sql.marks ts = w.count '?' := by
  obtain ⟨ts, hlex, hnum, hcount⟩ := marksRead_number h 0
  exact ⟨ts, hlex, lexPart_number hnum, hcount⟩

/-! ## Reading clause by clause -/

theorem placeholders_blank (ha : placeholders a = some ps) (hb : placeholders (' ' :: b) = some qs) :
    placeholders (a ++ ' ' :: b) = some (ps ++ qs) := by
  obtain ⟨ts, hts, rfl⟩ := Option.map_eq_some_iff.mp ha
  obtain ⟨us, hus, rfl⟩ := Option.map_eq_some_iff.mp hb
  rw [placeholders, Sql.lexPart_append_some hts hus (joins_blank a b)]
  exact congrArg some params_append

/-- A text of words that is read up to its last blank, and has no placeholders. -/
structure Keyword (k : Text) : Prop where
  idle : (Sql.run .postgres .idle k).2 = .idle
  none : params (Sql.run .postgres .idle k).1 = []

theorem placeholders_keyword {k : Text} (hk : Keyword k) (w : Text) :
    placeholders (k ++ w) = placeholders w := by
  have hlex : lexPart .postgres k = some (Sql.run .postgres .idle k).1 := by
    rw [lexPart, hk.idle]
    exact congrArg some (List.append_nil _)
  rw [placeholders, Sql.lexPart_append hlex (Or.inl hk.idle), placeholders, Option.map_map]
  congr 1
  funext ts
  rw [Function.comp_apply, params_append, hk.none, List.nil_append]

theorem placeholders_after {k : Text} (hk : Keyword k) (hb : k.head? = some ' ')
    (ha : placeholders a = some ps) (hw : placeholders w = some qs) :
    placeholders (a ++ (k ++ w)) = some (ps ++ qs) := by
  cases k with
  | nil => cases hb
  | cons c k =>
    obtain rfl : c = ' ' := Option.some.inj hb
    exact placeholders_blank ha ((placeholders_keyword hk w).trans hw)

theorem placeholders_clause {k : Text} (hk : Keyword k) (hb : k.head? = some ' ')
    (ha : placeholders a = some ps) (hw : placeholders w = some qs) :
    placeholders (a ++ clause k w) = some (ps ++ qs) := by
  unfold clause
  split_ifs with hnil
  · rw [hnil] at hw
    obtain rfl : [] = qs := Option.some.inj hw
    rw [List.append_nil, List.append_nil, ha]
  · exact placeholders_after hk hb ha hw

/-! ## Numbers -/

theorem placeholders_int (z : ℤ) : placeholders (toString z).toList = some [] := by
  rw [placeholders, lexPart_int]
  cases z <;> rfl

theorem notMem_int (z : ℤ) : '?' ∉ (toString z).toList := by
  have hdigits (n : ℕ) : '?' ∉ Nat.toDigits 10 n := by
    intro h
    have hd := Nat.isDigit_of_mem_toDigits (by decide) (by decide) h
    revert hd
    decide
  cases z with
  | ofNat n =>
    rw [toList_ofNat]
    exact hdigits n
  | negSucc n =>
    rw [toList_negSucc, List.mem_cons, not_or]
    exact ⟨by decide, hdigits (n + 1)⟩

theorem placeholders_limit (ha : placeholders a = some ps) (q : Query) :
    placeholders (a ++ limitText q) = some ps := by
  have hl : Keyword " LIMIT ".toList := ⟨by decide +kernel, by decide +kernel⟩
  have ho : Keyword " OFFSET ".toList := ⟨by decide +kernel, by decide +kernel⟩
  have hint := placeholders_int
  unfold limitText
  split_ifs
  · rw [List.append_assoc]
    have hoffset := placeholders_after ho (by decide +kernel) (hint q.limit) (hint q.offset)
    have hboth := placeholders_after hl (by decide +kernel) ha hoffset
    rwa [List.append_nil, List.append_nil] at hboth
  · rw [List.append_nil]
    have hlimit := placeholders_after hl (by decide +kernel) ha (hint q.limit)
    rwa [List.append_nil] at hlimit
  · rw [List.append_nil, ha]

/-! ## The statement -/

theorem notMem_rewritten (i : ℕ) (w : Text) : '?' ∉ appendWithPlaceholders .postgres i w := by
  induction w generalizing i with
  | nil => simp [appendWithPlaceholders]
  | cons c w ih =>
    rw [appendWithPlaceholders]
    split_ifs with hc
    · exact notMem_append (notMem_placeholder i) (ih (i + 1))
    · rw [List.mem_cons, not_or]
      exact ⟨Ne.symm hc, ih i⟩

theorem whereText_clause (q : Query) (i : ℕ) :
    whereText q i = clause " WHERE ".toList (appendWithPlaceholders q.bt i q.where_) := by
  unfold whereText clause
  cases hw : q.where_ with
  | nil => rfl
  | cons c w =>
    have hne : appendWithPlaceholders q.bt i (c :: w) ≠ [] := by
      rw [appendWithPlaceholders]
      split_ifs
      · cases q.bt <;> simp [placeholderStr]
      · simp
    rw [if_neg (List.cons_ne_nil c w), if_neg hne]

/-- **The placeholders of a SELECT**, clause by clause. -/
theorem placeholders_buildSelect {pc pj pw pg ph po : List (Option ℕ)} (ht : Ident q.model.table)
    (hc : placeholders q.selectCols = some pc) (hj : placeholders q.joins = some pj)
    (hw : placeholders (appendWithPlaceholders q.bt 0 q.where_) = some pw)
    (hg : placeholders q.group = some pg) (hh : placeholders q.having_ = some ph)
    (ho : placeholders q.order = some po) :
    placeholders (buildSelect q) = some (pc ++ pj ++ pw ++ pg ++ ph ++ po) := by
  have hselect : placeholders ("SELECT ".toList ++ (if q.distinct then "DISTINCT ".toList else []) ++
      (if q.selectCols = [] then "*".toList else q.selectCols)) = some pc := by
    have hk : Keyword ("SELECT ".toList ++ (if q.distinct then "DISTINCT ".toList else [])) := by
      cases q.distinct
      · exact ⟨by decide +kernel, by decide +kernel⟩
      · exact ⟨by decide +kernel, by decide +kernel⟩
    rw [placeholders_keyword hk]
    split_ifs with hnil
    · rw [hnil] at hc
      rw [← hc]
      decide +kernel
    · exact hc
  have hfrom : Keyword " FROM ".toList := ⟨by decide +kernel, by decide +kernel⟩
  have htable : placeholders (qident q.bt q.model.table) = some [] := by
    rw [placeholders, lexPart_qident q.bt ht]
    rfl
  have hhead := placeholders_after hfrom (by decide +kernel) hselect htable
  rw [List.append_nil, ← List.append_assoc] at hhead
  unfold buildSelect
  rw [whereText_clause]
  refine placeholders_limit (placeholders_clause ⟨by decide +kernel, by decide +kernel⟩
    (by decide +kernel) ?_ ho) q
  refine placeholders_clause ⟨by decide +kernel, by decide +kernel⟩ (by decide +kernel) ?_ hh
  refine placeholders_clause ⟨by decide +kernel, by decide +kernel⟩ (by decide +kernel) ?_ hg
  refine placeholders_clause ⟨by decide +kernel, by decide +kernel⟩ (by decide +kernel) ?_ hw
  exact placeholders_clause ⟨by decide +kernel, by decide +kernel⟩ (by decide +kernel) hhead hj

theorem mem_clause {k : Text} (hk : '?' ∉ k) : '?' ∈ clause k w ↔ '?' ∈ w := by
  unfold clause
  split_ifs with hnil
  · rw [hnil]
  · simp [hk]

theorem notMem_limit (q : Query) : '?' ∉ limitText q := by
  have hl : '?' ∉ " LIMIT ".toList := by decide
  have ho : '?' ∉ " OFFSET ".toList := by decide
  unfold limitText
  split_ifs
  · exact notMem_append (notMem_append hl (notMem_int _)) (notMem_append ho (notMem_int _))
  · exact notMem_append (notMem_append hl (notMem_int _)) (by simp)
  · simp

/-- The `?` of the statement for PostgreSQL are those of the texts that are not rewritten. -/
theorem mem_buildSelect (hbt : q.bt = .postgres) (ht : Ident q.model.table) :
    '?' ∈ buildSelect q ↔ '?' ∈ q.selectCols ∨ '?' ∈ q.joins ∨ '?' ∈ q.group ∨ '?' ∈ q.having_ ∨
      '?' ∈ q.order := by
  have hselect : '?' ∉ "SELECT ".toList := by decide
  have hdistinct : '?' ∉ (if q.distinct then "DISTINCT ".toList else []) := by
    split_ifs <;> decide
  have hcols : '?' ∈ (if q.selectCols = [] then "*".toList else q.selectCols) ↔
      '?' ∈ q.selectCols := by
    split_ifs with hnil
    · rw [hnil]
      decide
    · rfl
  have hfrom : '?' ∉ " FROM ".toList := by decide
  have htable : '?' ∉ qident q.bt q.model.table := by
    have hquote : '?' ∉ dialectQuote q.bt := by
      rw [hbt]
      decide
    exact notMem_append (notMem_append hquote (ht.notMem rfl)) hquote
  have hwhere : '?' ∉ whereText q 0 := by
    have hk : '?' ∉ " WHERE ".toList := by decide
    rw [whereText_clause, mem_clause hk, hbt]
    exact notMem_rewritten 0 _
  have hj := mem_clause (w := q.joins) (k := " ".toList) (by decide)
  have hg := mem_clause (w := q.group) (k := " GROUP BY ".toList) (by decide)
  have hh := mem_clause (w := q.having_) (k := " HAVING ".toList) (by decide)
  have ho := mem_clause (w := q.order) (k := " ORDER BY ".toList) (by decide)
  unfold buildSelect
  simp only [List.mem_append, hcols, hj, hg, hh, ho, hselect, hdistinct, hfrom, htable, hwhere,
    notMem_limit q, or_false, false_or, or_assoc]

/-! ## When they are numbered through -/

/-- The texts of the clauses of a SELECT. -/
def clauseTexts (q : Query) : List Text := [q.joins, q.where_, q.group, q.having_, q.order]

/-- The number of `?` in the clauses. -/
def clauseMarks (q : Query) : ℕ := ((clauseTexts q).map (List.count '?')).sum

/-- The statement has no `?`, and its placeholders from left to right are `$1` to `$n`. -/
def NumberedThrough (sql : Text) (n : ℕ) : Prop :=
  '?' ∉ sql ∧ placeholders sql = some ((List.range' 1 n).map some)

/-- The placeholders of a text whose `?` are placeholders, before and after the rewriting. -/
theorem WellMarked.placeholders (h : WellMarked w) : ∃ ps rs, placeholders w = some ps ∧
    Corm.placeholders (appendWithPlaceholders .postgres 0 w) = some rs ∧
    w.count '?' ≤ ps.length ∧ rs.length = ps.length ∧
    (ps.length = w.count '?' ↔ NoneNumbered w) ∧
    (NoneNumbered w → rs = (List.range' 1 (w.count '?')).map some) := by
  obtain ⟨ts, hts, hnum, hcount⟩ := h.lexPart
  have hnone : NoneNumbered w ↔ Sql.Marked ts := by
    refine ⟨fun h => h ts hts, fun h us hus => ?_⟩
    obtain rfl : ts = us := Option.some.inj (hts.symm.trans hus)
    exact h
  refine ⟨params ts, params (numberToks 0 ts), ?_, ?_, ?_, params_numberToks_length 0 ts, ?_, ?_⟩
  · rw [Corm.placeholders, hts]
    rfl
  · rw [Corm.placeholders, hnum]
    rfl
  · rw [← hcount]
    exact marks_le_params ts
  · rw [← hcount, params_length_iff, hnone]
  · intro h
    rw [params_numberToks (hnone.mp h), hcount]

theorem wellMarked_of_notMem (hw : '?' ∉ w) (h : (lexFrom Sql.flush m w).isSome) : MarksRead m w := by
  induction w generalizing m with
  | nil => simpa [lexFrom, Sql.run, MarksRead] using h
  | cons c w ih =>
    rw [List.mem_cons, not_or] at hw
    rw [lexFrom_cons, Option.isSome_map] at h
    exact ⟨fun hc => absurd hc.symm hw.1, ih hw.2 h⟩

/-- **The placeholders of a SELECT for PostgreSQL**, when the columns can be read and every `?` of
the clauses is a placeholder: the statement has no `?` and its placeholders are `$1` to `$n`, for the
`n` of the clauses, if and only if no text but the WHERE has a `?` and none has a placeholder `$k` of
its own. -/
theorem select_numbered_iff {q : Query} (hop : q.op = .select) (hbt : q.bt = .postgres)
    (hm : validateModel q.model = .ok) (hcols : (lexPart .postgres q.selectCols).isSome)
    (htexts : ∀ t ∈ clauseTexts q, WellMarked t) :
    NumberedThrough (buildSql q) (clauseMarks q) ↔
      ('?' ∉ q.selectCols ∧ '?' ∉ q.joins ∧ '?' ∉ q.group ∧ '?' ∉ q.having_ ∧ '?' ∉ q.order) ∧
        ∀ t ∈ q.selectCols :: clauseTexts q, NoneNumbered t := by
  have ht : Ident q.model.table := (validated_of_ok hm).table
  have hbuild : buildSql q = buildSelect q := by
    unfold buildSql
    rw [hop]
  have hall : ∀ P : Text → Prop, (∀ t ∈ clauseTexts q, P t) ↔ P q.joins ∧
      P q.where_ ∧ P q.group ∧ P q.having_ ∧ P q.order := by
    intro P
    simp [clauseTexts]
  rw [hall] at htexts
  rw [List.forall_mem_cons, hall, NumberedThrough, hbuild, mem_buildSelect hbt ht]
  simp only [not_or]
  refine and_congr_right fun ⟨mc, mj, mg, mh, mo⟩ => ?_
  obtain ⟨hj, hw, hg, hh, ho⟩ := htexts
  obtain ⟨pc, -, ec, -, -, -, nc, -⟩ := WellMarked.placeholders (wellMarked_of_notMem mc hcols)
  obtain ⟨pj, -, ej, -, -, -, nj, -⟩ := hj.placeholders
  obtain ⟨pw, rw_, -, ew, lw, hlen, nw, hrange⟩ := hw.placeholders
  obtain ⟨pg, -, eg, -, -, -, ng, -⟩ := hg.placeholders
  obtain ⟨ph, -, eh, -, -, -, nh, -⟩ := hh.placeholders
  obtain ⟨po, -, eo, -, -, -, no, -⟩ := ho.placeholders
  rw [← hbt] at ew
  rw [List.count_eq_zero.mpr mc] at nc
  rw [List.count_eq_zero.mpr mj] at nj
  rw [List.count_eq_zero.mpr mg] at ng
  rw [List.count_eq_zero.mpr mh] at nh
  rw [List.count_eq_zero.mpr mo] at no
  have hmarks : clauseMarks q = q.where_.count '?' := by
    simp [clauseMarks, clauseTexts, List.count_eq_zero.mpr mj, List.count_eq_zero.mpr mg,
      List.count_eq_zero.mpr mh, List.count_eq_zero.mpr mo]
  rw [placeholders_buildSelect ht ec ej ew eg eh eo, hmarks, Option.some.injEq, ← nc, ← nj, ← nw,
    ← ng, ← nh, ← no]
  constructor
  · -- there are as many placeholders as `?`, so none is left for the other texts
    intro heq
    have hlength := congrArg List.length heq
    simp only [List.length_append, List.length_map, List.length_range', hlen] at hlength
    omega
  · rintro ⟨zc, zj, zw, zg, zh, zo⟩
    simp only [List.length_eq_zero_iff] at zc zj zg zh zo
    rw [zc, zj, zg, zh, zo, hrange (nw.mp zw)]
    simp

/-! ## A HAVING with a placeholder -/

/-- The names that more than some number of users of an age have. -/
def commonNames : Query :=
  queryHaving (queryGroup (querySelect (queryWhere (queryNew .postgres testUserModel)
    "age = ?".toList) "name".toList) (some "name".toList)) (some "COUNT(*) > ?".toList)

theorem wellMarked_commonNames : ∀ t ∈ clauseTexts commonNames, WellMarked t := by
  decide +kernel

/-- The placeholder of the HAVING stays a `?`. -/
theorem select_unnumbered_commonNames :
    commonNames.op = .select ∧ commonNames.bt = .postgres ∧
    validateModel commonNames.model = .ok ∧ (lexPart .postgres commonNames.selectCols).isSome ∧
    (∀ t ∈ clauseTexts commonNames, WellMarked t) ∧
    ¬ NumberedThrough (buildSql commonNames) (clauseMarks commonNames) := by
  refine ⟨rfl, rfl, by decide +kernel, by decide +kernel, wellMarked_commonNames, fun h => h.1 ?_⟩
  have hsql : buildSql commonNames =
      "SELECT name FROM \"test_users\" WHERE age = $1 GROUP BY name HAVING COUNT(*) > ?".toList := by
    decide +kernel
  rw [hsql]
  decide

theorem select_numbered_iff_commonNames :
    NumberedThrough (buildSql commonNames) (clauseMarks commonNames) ↔
      ('?' ∉ commonNames.selectCols ∧ '?' ∉ commonNames.joins ∧ '?' ∉ commonNames.group ∧
          '?' ∉ commonNames.having_ ∧ '?' ∉ commonNames.order) ∧
        ∀ t ∈ commonNames.selectCols :: clauseTexts commonNames, NoneNumbered t :=
  select_numbered_iff rfl rfl (by decide +kernel) (by decide +kernel) wellMarked_commonNames

end Corm
