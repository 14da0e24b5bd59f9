import Corm.Placeholders.Update
import Corm.Reading.Chain
import Mathlib.Algebra.GroupWithZero.Nat
import Mathlib.Data.List.Forall2

/-!
# What the calls with a field name write

Five builder calls take the name of a field, which comes from outside in many programs.

* `FieldCall`, `fieldCalls`: the calls, and the query after a sequence of them;
* `FieldCall.Writes`: the predicate or assignment of a call, over the characters a name may have;
* `Fenced`: WHERE and SET are lists of such pieces, with one parameter for each placeholder;
* `fenced_apply`, `fenced_fieldCalls`: one call, and any sequence of calls;
* **`field_names_fenced`**: no field name and no value gets anything else into the statement.
-/

namespace Corm

/-! ## Calls -/

/-- A call that takes a field name. A `corm_query_where_in` with a null array or no values has the
empty list. -/
inductive FieldCall
  | whereNull (field : Option Text)
  | whereNotNull (field : Option Text)
  | whereIn (field : Option Text) (vals : List Value)
  | whereBetween (field : Option Text) (minVal maxVal : Value)
  | set (field : Option Text) (val : Value)

namespace FieldCall

/-- The query after the call. -/
def apply (q : Query) : FieldCall → Query
  | .whereNull field => queryWhereNull q field
  | .whereNotNull field => queryWhereNotNull q field
  | .whereIn field vals => queryWhereIn q field vals
  | .whereBetween field minVal maxVal => queryWhereBetween q field minVal maxVal
  | .set field val => querySet q field val

/-- The name it is given. -/
def field : FieldCall → Option Text
  | .whereNull field | .whereNotNull field | .whereIn field _ | .whereBetween field _ _
  | .set field _ => field

/-- The values it is given. -/
def vals : FieldCall → List Value
  | .whereNull _ | .whereNotNull _ => []
  | .whereIn _ vals => vals
  | .whereBetween _ minVal maxVal => [minVal, maxVal]
  | .set _ val => [val]

/-- The call assigns a value. -/
def isSet : FieldCall → Bool
  | .set _ _ => true
  | _ => false

/-- The name is accepted, and a `corm_query_where_in` has values. -/
def accepted (c : FieldCall) : Bool :=
  isValidIdentifier c.field && match c with
    | .whereIn _ vals => !vals.isEmpty
    | _ => true

/-- The call with other values. -/
def withVals (val : Value) : FieldCall → FieldCall
  | .whereNull field => .whereNull field
  | .whereNotNull field => .whereNotNull field
  | .whereIn field vals => .whereIn field (vals.map fun _ => val)
  | .whereBetween field _ _ => .whereBetween field val val
  | .set field _ => .set field val

end FieldCall

/-- The query after a sequence of calls. -/
def fieldCalls (q : Query) (calls : List FieldCall) : Query := calls.foldl FieldCall.apply q

/-! ## What they may write -/

/-- A character of `[A-Za-z0-9_.*]`. -/
def NameChar (c : Char) : Prop :=
  'A' ≤ c ∧ c ≤ 'Z' ∨ 'a' ≤ c ∧ c ≤ 'z' ∨ '0' ≤ c ∧ c ≤ '9' ∨ c = '_' ∨ c = '.' ∨ c = '*'

/-- A non-empty string of such characters. -/
def Name (f : Text) : Prop := f ≠ [] ∧ ∀ c ∈ f, NameChar c

/-- A placeholder of the dialect. -/
def IsPlaceholder (bt : BackendType) (p : Text) : Prop := ∃ i, p = placeholderStr bt i

/-- What a call may write for the name `f`: nothing but the name, a placeholder for each value, and
the fixed words around them. -/
inductive FieldCall.Writes (bt : BackendType) : FieldCall → Text → Prop
  | whereNull {f : Text} (hf : Name f) : Writes bt (.whereNull (some f)) (f ++ " IS NULL".toList)
  | whereNotNull {f : Text} (hf : Name f) :
    Writes bt (.whereNotNull (some f)) (f ++ " IS NOT NULL".toList)
  | whereIn {f : Text} {vals : List Value} {ps : List Text} (hf : Name f)
    (hps : ∀ p ∈ ps, IsPlaceholder bt p) (hlen : ps.length = vals.length) (hne : vals ≠ []) :
    Writes bt (.whereIn (some f) vals)
      (f ++ " IN (".toList ++ List.intercalate ", ".toList ps ++ ")".toList)
  | whereBetween {f p r : Text} {minVal maxVal : Value} (hf : Name f) (hp : IsPlaceholder bt p)
    (hr : IsPlaceholder bt r) : Writes bt (.whereBetween (some f) minVal maxVal)
      (f ++ " BETWEEN ".toList ++ p ++ " AND ".toList ++ r)
  | set {f p : Text} {val : Value} (hf : Name f) (hp : IsPlaceholder bt p) :
    Writes bt (.set (some f) val)
      (dialectQuote bt ++ f ++ dialectQuote bt ++ " = ".toList ++ p)

/-- The character that every placeholder has once, and nothing else that the calls write. -/
def markChar : BackendType → Char
  | .postgres => '$'
  | .mysql | .sqlite => '?'

/-- The query after the calls `calls` on a new one: WHERE is the predicates of the accepted ones,
SET their assignments, and there are as many placeholders as parameters. -/
structure Fenced (bt : BackendType) (calls : List FieldCall) (q : Query) : Prop where
  bt_eq : q.bt = bt
  where_ : ∃ preds, List.Forall₂ (FieldCall.Writes bt)
      (calls.filter fun c => c.accepted && !c.isSet) preds ∧
    q.where_ = List.intercalate " AND ".toList preds
  set : ∃ sets, List.Forall₂ (FieldCall.Writes bt)
      (calls.filter fun c => c.accepted && c.isSet) sets ∧
    q.setClause = List.intercalate ", ".toList sets
  params : q.where_.count (markChar bt) + q.setClause.count (markChar bt) = q.params.length

variable {bt : BackendType} {q : Query} {c : FieldCall} {calls : List FieldCall} {f p : Text}

theorem name_of_valid (h : isValidIdentifier (some f) = true) : Name f := by
  refine ⟨Ident.ne_nil h, fun c hc => ?_⟩
  have hi := Ident.identChar h hc
  simp only [isIdentChar, Bool.or_eq_true, Bool.and_eq_true, decide_eq_true_eq, beq_iff_eq] at hi
  unfold NameChar
  tauto

theorem accepted_valid (h : c.accepted = true) : ∃ f, c.field = some f ∧ Name f := by
  have hv := (Bool.and_eq_true_iff.mp h).1
  cases hf : c.field with
  | none =>
    rw [hf] at hv
    cases hv
  | some f => exact ⟨f, rfl, name_of_valid (hf ▸ hv)⟩

/-! ## Lists with separators -/

theorem intercalate_concat {α : Type} (sep : List α) (l : List (List α)) (x : List α) :
    List.intercalate sep (l ++ [x]) =
      if l = [] then x else List.intercalate sep l ++ sep ++ x := by
  induction l with
  | nil => simp
  | cons y l ih =>
    cases l with
    | nil => simp
    | cons z l =>
      rw [if_neg (by simp)] at ih ⊢
      rw [List.cons_append, List.cons_append, List.intercalate_cons_cons, ← List.cons_append, ih,
        List.intercalate_cons_cons]
      simp only [List.append_assoc]

theorem commaSep_intercalate (parts : List Text) :
    commaSep parts = List.intercalate ", ".toList parts := by
  induction parts with
  | nil => rfl
  | cons x parts ih =>
    cases parts with
    | nil => simp [commaSep]
    | cons y parts =>
      rw [commaSep, ih, List.intercalate_cons_cons]
      simp

/-! ## Counting placeholders -/

theorem count_placeholder (bt : BackendType) (i : ℕ) :
    (placeholderStr bt i).count (markChar bt) = 1 := by
  cases bt with
  | postgres =>
    have hd : '$' ∉ Nat.toDigits 10 (i + 1) := by
      intro h
      have hdigit := Nat.isDigit_of_mem_toDigits (by decide) (by decide) h
      revert hdigit
      decide
    show ('$' :: _).count '$' = 1
    rw [List.count_cons_self, List.count_eq_zero.mpr hd]
  | mysql => rfl
  | sqlite => rfl

theorem count_intercalate (bt : BackendType) {sep : Text} (hsep : markChar bt ∉ sep)
    (parts : List Text) : (List.intercalate sep parts).count (markChar bt) =
      (parts.map (List.count (markChar bt))).sum := by
  induction parts with
  | nil => simp
  | cons x parts ih =>
    cases parts with
    | nil => simp
    | cons y parts =>
      rw [List.intercalate_cons_cons, List.count_append, List.count_append, ih,
        List.count_eq_zero.mpr hsep]
      simp

theorem markChar_notMem {w : Text} (hd : '$' ∉ w) (hm : '?' ∉ w) (bt : BackendType) :
    markChar bt ∉ w := by
  cases bt <;> assumption

theorem Name.count (hf : Name f) (bt : BackendType) : f.count (markChar bt) = 0 := by
  refine List.count_eq_zero.mpr fun h => ?_
  have hc := hf.2 _ h
  revert hc
  unfold NameChar
  cases bt <;> decide

theorem count_writes (h : c.Writes bt p) : p.count (markChar bt) = c.vals.length := by
  have hplain {w : Text} (hd : '$' ∉ w) (hm : '?' ∉ w) : w.count (markChar bt) = 0 :=
    List.count_eq_zero.mpr (markChar_notMem hd hm bt)
  have hmark {p : Text} (hp : IsPlaceholder bt p) : p.count (markChar bt) = 1 := by
    obtain ⟨i, rfl⟩ := hp
    exact count_placeholder bt i
  cases h with
  | whereNull hf =>
    rw [List.count_append, hf.count, hplain (by decide) (by decide)]
    rfl
  | whereNotNull hf =>
    rw [List.count_append, hf.count, hplain (by decide) (by decide)]
    rfl
  | @whereIn f vals ps hf hps hlen hne =>
    have hsum : (ps.map (List.count (markChar bt))).sum = ps.length := by
      rw [List.map_congr_left fun p hp => hmark (hps p hp)]
      simp
    rw [List.count_append, List.count_append, List.count_append, hf.count,
      hplain (w := " IN (".toList) (by decide) (by decide),
      hplain (w := ")".toList) (by decide) (by decide),
      count_intercalate bt (markChar_notMem (by decide) (by decide) bt), hsum, hlen]
    show 0 + 0 + vals.length + 0 = vals.length
    omega
  | whereBetween hf hp hr =>
    rw [List.count_append, List.count_append, List.count_append, List.count_append, hf.count,
      hmark hp, hmark hr, hplain (w := " BETWEEN ".toList) (by decide) (by decide),
      hplain (w := " AND ".toList) (by decide) (by decide)]
    rfl
  | set hf hp =>
    have hquote : (dialectQuote bt).count (markChar bt) = 0 := by cases bt <;> rfl
    rw [List.count_append, List.count_append, List.count_append, List.count_append, hf.count,
      hmark hp, hquote, hplain (w := " = ".toList) (by decide) (by decide)]
    rfl

/-! ## One call -/

/-- The text of a call on a query with `n` parameters. -/
def FieldCall.text (bt : BackendType) (n : ℕ) : FieldCall → Text
  | .whereNull field => field.getD [] ++ " IS NULL".toList
  | .whereNotNull field => field.getD [] ++ " IS NOT NULL".toList
  | .whereIn field vals => field.getD [] ++ " IN (".toList ++
      List.intercalate ", ".toList ((List.range' n vals.length).map (placeholderStr bt)) ++
        ")".toList
  | .whereBetween field _ _ => field.getD [] ++ " BETWEEN ".toList ++ placeholderStr bt n ++
      " AND ".toList ++ placeholderStr bt (n + 1)
  | .set field _ => dialectQuote bt ++ field.getD [] ++ dialectQuote bt ++ " = ".toList ++
      placeholderStr bt n

theorem text_writes (h : c.accepted = true) (bt : BackendType) (n : ℕ) :
    c.Writes bt (c.text bt n) := by
  obtain ⟨f, hf, hname⟩ := accepted_valid h
  have hplace (i : ℕ) : IsPlaceholder bt (placeholderStr bt i) := ⟨i, rfl⟩
  cases c with
  | whereNull field =>
    obtain rfl : field = some f := hf
    exact .whereNull hname
  | whereNotNull field =>
    obtain rfl : field = some f := hf
    exact .whereNotNull hname
  | whereIn field vals =>
    obtain rfl : field = some f := hf
    refine .whereIn hname (fun p hp => ?_) (by simp) ?_
    · obtain ⟨i, -, rfl⟩ := List.mem_map.mp hp
      exact hplace i
    · have hne := (Bool.and_eq_true_iff.mp h).2
      simpa using hne
  | whereBetween field minVal maxVal =>
    obtain rfl : field = some f := hf
    exact .whereBetween hname (hplace n) (hplace (n + 1))
  | set field val =>
    obtain rfl : field = some f := hf
    exact .set hname (hplace n)

/-- **A call that is not accepted** leaves the query as it is. -/
theorem apply_rejected (h : c.accepted = false) (q : Query) : c.apply q = q := by
  unfold FieldCall.accepted at h
  cases c with
  | whereIn field vals =>
    cases field with
    | none => rfl
    | some f => exact if_neg (by simpa [FieldCall.field] using h)
  | whereNull field | whereNotNull field | whereBetween field _ _ | set field _ =>
    cases field with
    | none => rfl
    | some f => exact if_neg (by simpa [FieldCall.field] using h)

/-- **A call that is accepted** writes its text and binds its values. -/
theorem apply_accepted (h : c.accepted = true) (q : Query) : c.apply q =
    if c.isSet then
      { q with
        setClause := (if q.setClause = [] then [] else q.setClause ++ ", ".toList) ++
          c.text q.bt q.params.length
        params := q.params ++ c.vals
        op := .update }
    else
      { q with
        where_ := whereSep q " AND ".toList ++ c.text q.bt q.params.length
        params := q.params ++ c.vals } := by
  have hv := (Bool.and_eq_true_iff.mp h).1
  obtain ⟨f, hf, -⟩ := accepted_valid h
  cases c with
  | whereNull field =>
    obtain rfl : field = some f := hf
    show queryWhereNull q (some f) = _
    simp only [queryWhereNull, if_pos (show isValidIdentifier (some f) = true from hv)]
    simp [FieldCall.isSet, FieldCall.text, FieldCall.vals]
  | whereNotNull field =>
    obtain rfl : field = some f := hf
    show queryWhereNotNull q (some f) = _
    simp only [queryWhereNotNull, if_pos (show isValidIdentifier (some f) = true from hv)]
    simp [FieldCall.isSet, FieldCall.text, FieldCall.vals]
  | whereIn field vals =>
    obtain rfl : field = some f := hf
    show queryWhereIn q (some f) vals = _
    simp only [queryWhereIn, if_pos (show (isValidIdentifier (some f) && !vals.isEmpty) = true
      from h), whereInLoop_eq, inText_zero, commaSep_intercalate]
    simp [FieldCall.isSet, FieldCall.text, FieldCall.vals]
  | whereBetween field minVal maxVal =>
    obtain rfl : field = some f := hf
    show queryWhereBetween q (some f) minVal maxVal = _
    simp only [queryWhereBetween, if_pos (show isValidIdentifier (some f) = true from hv)]
    simp [FieldCall.isSet, FieldCall.text, FieldCall.vals, queryBind]
  | set field val =>
    obtain rfl : field = some f := hf
    show querySet q (some f) val = _
    simp only [querySet, if_pos (show isValidIdentifier (some f) = true from hv)]
    simp [FieldCall.isSet, FieldCall.text, FieldCall.vals, queryBind]

/-! ## Sequences of calls -/

theorem writes_ne_nil (h : c.Writes bt p) : p ≠ [] := by
  cases h with
  | whereNull | whereNotNull | whereIn | whereBetween => simp
  | set => cases bt <;> simp [dialectQuote]

theorem sep_concat {sep : Text} {parts : List Text} (hne : ∀ x ∈ parts, x ≠ []) {w : Text}
    (hw : w = List.intercalate sep parts) (p : Text) :
    (if w = [] then [] else w ++ sep) ++ p = List.intercalate sep (parts ++ [p]) := by
  rw [intercalate_concat]
  by_cases hnil : parts = []
  · rw [hw, hnil, if_pos rfl]
    rfl
  · have hwne : w ≠ [] := by
      obtain ⟨x, xs, rfl⟩ := List.exists_cons_of_ne_nil hnil
      have hx := hne x List.mem_cons_self
      rw [hw]
      cases xs with
      | nil => simpa using hx
      | cons y ys =>
        rw [List.intercalate_cons_cons]
        simp [hx]
    rw [if_neg hwne, if_neg hnil, hw]

theorem forall₂_ne_nil {l : List FieldCall} {parts : List Text}
    (h : List.Forall₂ (FieldCall.Writes bt) l parts) : ∀ x ∈ parts, x ≠ [] := by
  induction h with
  | nil => simp
  | cons hw _ ih => simpa [writes_ne_nil hw] using ih

theorem fenced_new (bt : BackendType) (m : Model) : Fenced bt [] (queryNew bt m) where
  bt_eq := rfl
  where_ := ⟨[], .nil, rfl⟩
  set := ⟨[], .nil, rfl⟩
  params := rfl

/-- **One call keeps the fence.** -/
theorem fenced_apply (h : Fenced bt calls q) (c : FieldCall) :
    Fenced bt (calls ++ [c]) (c.apply q) := by
  cases ha : c.accepted with
  | false =>
    rw [apply_rejected ha]
    have hfilter (b : Bool) : (calls ++ [c]).filter (fun c => c.accepted && b.xor c.isSet) =
        calls.filter fun c => c.accepted && b.xor c.isSet := by
      rw [List.filter_append]
      simp [ha]
    refine ⟨h.bt_eq, ?_, ?_, h.params⟩
    · have hf := hfilter true
      simp only [Bool.true_xor] at hf
      rw [hf]
      exact h.where_
    · have hf := hfilter false
      simp only [Bool.false_xor] at hf
      rw [hf]
      exact h.set
  | true =>
    have hbt := h.bt_eq
    obtain ⟨preds, hpreds, hwhere⟩ := h.where_
    obtain ⟨sets, hsets, hset⟩ := h.set
    have hwrites := text_writes ha bt q.params.length
    have hcount := count_writes hwrites
    have hparams := h.params
    rw [apply_accepted ha, hbt]
    have hand : markChar bt ∉ " AND ".toList := markChar_notMem (by decide) (by decide) bt
    have hcomma : markChar bt ∉ ", ".toList := markChar_notMem (by decide) (by decide) bt
    have hcountSep {w sep : Text} (hs : markChar bt ∉ sep) :
        (if w = [] then [] else w ++ sep).count (markChar bt) = w.count (markChar bt) := by
      split_ifs with hw
      · rw [hw]
      · rw [List.count_append, List.count_eq_zero.mpr hs, Nat.add_zero]
    cases hs : c.isSet with
    | true =>
      rw [if_pos rfl]
      refine ⟨rfl, ⟨preds, ?_, hwhere⟩, ⟨sets ++ [c.text bt q.params.length], ?_, ?_⟩, ?_⟩
      · simpa [List.filter_append, hs] using hpreds
      · rw [List.filter_append]
        exact List.rel_append hsets (by simpa [ha, hs] using hwrites)
      · exact sep_concat (forall₂_ne_nil hsets) hset _
      · simp only [List.count_append, List.length_append, hcountSep hcomma, hcount]
        omega
    | false =>
      rw [if_neg (by simp)]
      refine ⟨rfl, ⟨preds ++ [c.text bt q.params.length], ?_, ?_⟩, ⟨sets, ?_, hset⟩, ?_⟩
      · rw [List.filter_append]
        exact List.rel_append hpreds (by simpa [ha, hs] using hwrites)
      · exact sep_concat (forall₂_ne_nil hpreds) hwhere _
      · simpa [List.filter_append, hs] using hsets
      · simp only [whereSep, List.count_append, List.length_append, hcountSep hand, hcount]
        omega

theorem fenced_fieldCalls (h : Fenced bt calls q) (more : List FieldCall) :
    Fenced bt (calls ++ more) (fieldCalls q more) := by
  induction more generalizing calls q with
  | nil => simpa [fieldCalls] using h
  | cons c more ih =>
    have hrest := ih (fenced_apply h c)
    rwa [List.append_assoc] at hrest

/-! ## Other values -/

/-- The texts of two queries agree, and so do the numbers of their parameters. -/
structure SameTexts (q q' : Query) : Prop where
  bt : q.bt = q'.bt
  where_ : q.where_ = q'.where_
  set : q.setClause = q'.setClause
  params : q.params.length = q'.params.length

theorem accepted_withVals (c : FieldCall) (val : Value) : (c.withVals val).accepted = c.accepted := by
  cases c with
  | whereIn field vals => cases vals <;> rfl
  | _ => rfl

theorem text_withVals (c : FieldCall) (val : Value) (bt : BackendType) (n : ℕ) :
    (c.withVals val).text bt n = c.text bt n := by
  cases c with
  | whereIn field vals => simp [FieldCall.withVals, FieldCall.text]
  | _ => rfl

theorem sameTexts_apply {q' : Query} (h : SameTexts q q') (c : FieldCall) (val : Value) :
    SameTexts (c.apply q) ((c.withVals val).apply q') := by
  have hset : (c.withVals val).isSet = c.isSet := by cases c <;> rfl
  have hvals : (c.withVals val).vals.length = c.vals.length := by
    cases c <;> simp [FieldCall.withVals, FieldCall.vals]
  have hacc := accepted_withVals c val
  cases ha : c.accepted with
  | false => rwa [apply_rejected ha, apply_rejected (hacc.trans ha)]
  | true =>
    rw [apply_accepted ha, apply_accepted (hacc.trans ha), hset, text_withVals, ← h.bt, ← h.params]
    have hparams : (q.params ++ c.vals).length = (q'.params ++ (c.withVals val).vals).length := by
      rw [List.length_append, List.length_append, hvals, h.params]
    by_cases hs : c.isSet = true
    · rw [if_pos hs, if_pos hs]
      exact ⟨rfl, h.where_, by simp [h.set], hparams⟩
    · rw [if_neg hs, if_neg hs]
      exact ⟨rfl, by simp [whereSep, h.where_], h.set, hparams⟩

theorem sameTexts_fieldCalls {q' : Query} (h : SameTexts q q') (calls : List FieldCall)
    (val : Value) :
    SameTexts (fieldCalls q calls) (fieldCalls q' (calls.map (FieldCall.withVals val))) := by
  induction calls generalizing q q' with
  | nil => exact h
  | cons c calls ih => exact ih (sameTexts_apply h c val)

/-- **Field names cannot inject SQL**: after any calls with any names and values on a new query, WHERE
is the predicates of the accepted calls with " AND " between them, SET their assignments with ", "
between them, and both have one placeholder for each parameter; calls that differ in their values
only write the same text; and a call whose name is rejected changes nothing. -/
theorem field_names_fenced (bt : BackendType) (m : Model) (calls : List FieldCall) :
    Fenced bt calls (fieldCalls (queryNew bt m) calls) ∧
    (∀ val calls', calls'.map (FieldCall.withVals val) = calls.map (FieldCall.withVals val) →
      (fieldCalls (queryNew bt m) calls').where_ = (fieldCalls (queryNew bt m) calls).where_ ∧
      (fieldCalls (queryNew bt m) calls').setClause =
        (fieldCalls (queryNew bt m) calls).setClause) ∧
    ∀ c q, isValidIdentifier c.field = false → FieldCall.apply q c = q := by
  refine ⟨fenced_fieldCalls (fenced_new bt m) calls, fun val calls' heq => ?_, fun c q hc => ?_⟩
  · have hself : SameTexts (queryNew bt m) (queryNew bt m) := ⟨rfl, rfl, rfl, rfl⟩
    have h := sameTexts_fieldCalls hself calls val
    have h' := sameTexts_fieldCalls hself calls' val
    rw [heq] at h'
    exact ⟨h'.where_.trans h.where_.symm, h'.set.trans h.set.symm⟩
  · exact apply_rejected (by simp [FieldCall.accepted, hc]) q

/-- Two calls, and one whose name closes the quote of the dialect and goes on with a statement. -/
def hostileCalls : List FieldCall :=
  [.whereIn (some "age".toList) [⟨.int, false, .i 10⟩, ⟨.int, false, .i 20⟩],
    .set (some "name\" = 1; DROP TABLE users; --".toList) ⟨.int, false, .i 1⟩,
    .set (some "name".toList) ⟨.string, false, .s (some "x' OR '1'='1".toList)⟩]

example : (fieldCalls (queryNew .postgres testUserModel) hostileCalls).where_ =
    "age IN ($1, $2)".toList := by decide +kernel

example : (fieldCalls (queryNew .postgres testUserModel) hostileCalls).setClause =
    "\"name\" = $3".toList := by decide +kernel

end Corm
