import Corm.Reading.Where

/-!
# How SQL reads the WHERE of a chain of calls

* `WhereCall`, `chain`: any sequence of the calls that add to the WHERE of a query;
* `Predicate`: the conditions that are one atomic predicate;
* `Piece`: a text with whole tokens that either ends with a whole predicate or cannot be read at
  all, whatever follows; `piece_isNull`, `piece_in`, `piece_between`: those the calls write;
* `ChainInv`, **`chainInv_chain`**: the WHERE of a chain is such a text.
-/

namespace Corm

open Sql (Tok Item lexPart lexPart_append_some Joins bare scan Pos)

/-- A call that adds to the WHERE of a query, or binds a value for it. -/
inductive WhereCall
  | where_ (condition : Text)
  | orWhere (condition : Text)
  | whereNull (field : Option Text)
  | whereNotNull (field : Option Text)
  | whereIn (field : Option Text) (vals : List Value)
  | whereBetween (field : Option Text) (minVal maxVal : Value)
  | bind (val : Value)

/-- The query after a call. -/
def WhereCall.apply (q : Query) : WhereCall → Query
  | .where_ condition => queryWhere q condition
  | .orWhere condition => queryOrWhere q condition
  | .whereNull field => queryWhereNull q field
  | .whereNotNull field => queryWhereNotNull q field
  | .whereIn field vals => queryWhereIn q field vals
  | .whereBetween field minVal maxVal => queryWhereBetween q field minVal maxVal
  | .bind val => queryBind q val

/-- The query after a sequence of calls. -/
def chain (q : Query) (calls : List WhereCall) : Query := calls.foldl WhereCall.apply q

/-- A condition that is one atomic predicate, however its placeholders are numbered. -/
def Predicate (bt : BackendType) (condition : Text) : Prop :=
  ∀ i, ∃ ts, lexPart bt.dialect (appendWithPlaceholders bt i condition) = some ts ∧ Sql.Atomic (bare ts)

/-- The raw conditions of a call are atomic predicates. -/
def WhereCall.Raw (bt : BackendType) : WhereCall → Prop
  | .where_ condition => Predicate bt condition
  | .orWhere condition => Predicate bt condition
  | _ => True

variable {bt : BackendType} {q : Query} {s w : Text} {i : ℕ}

/-! ## Pieces -/

/-- The tokens end with a whole predicate, or cannot be read. -/
def Settles (ts : List Tok) : Prop :=
  scan .start (bare ts) = none ∨ scan .start (bare ts) = some .settled

/-- A piece of a WHERE: it settles, however its placeholders are numbered. -/
def Piece (bt : BackendType) (w : Text) : Prop :=
  ∀ i, ∃ ts, lexPart bt.dialect (appendWithPlaceholders bt i w) = some ts ∧ Settles ts

theorem Predicate.piece (h : Predicate bt w) : Piece bt w := by
  intro i
  obtain ⟨ts, hlex, hat⟩ := h i
  exact ⟨ts, hlex, Or.inr (Sql.scan_of_within hat)⟩

theorem piece_of_lex {ts : List Tok} (hq : bt = .postgres → '?' ∉ w)
    (hlex : lexPart bt.dialect w = some ts) (hs : Settles ts) : Piece bt w := by
  intro i
  rw [appendWithPlaceholders_id hq]
  exact ⟨ts, hlex, hs⟩

theorem Piece.connect {a b : Text} {k : List Char} {c : Sql.Cut} (ha : Piece bt a) (hb : Piece bt b)
    (hk : Ident k) (hadv : Sql.advance .settled (.tok (.word k) : Item Unit) = some (c, .start)) :
    Piece bt (a ++ (' ' :: (k ++ [' '])) ++ b) := by
  intro i
  have hmem : '?' ∉ ' ' :: (k ++ [' ']) := by
    have := hk.notMem (c := '?') rfl
    simp [this]
  have hsep : lexPart bt.dialect (' ' :: (k ++ [' '])) = some [.word k] := by
    have h1 : lexPart bt.dialect [' '] = some [] := rfl
    have h2 := lexPart_append_some (lexPart_ident hk) h1 (joins_blank _ _)
    exact lexPart_append_some h1 h2 (Or.inl rfl)
  have hidle : (Sql.run bt.dialect .idle (' ' :: (k ++ [' ']))).2 = .idle := by
    have hb : Sql.step bt.dialect (.word k) ' ' = ([.word k], .idle) := by
      rw [Sql.step_boundary (m := .word k) rfl rfl]
      rfl
    have hs : Sql.step bt.dialect .idle ' ' = ([], .idle) := rfl
    rw [Sql.run_cons, hs, Sql.run_append, Sql.run_word hk.wordChar hk.ne_nil, Sql.run_cons, hb]
    rfl
  obtain ⟨ts, hts, hsa⟩ := ha i
  obtain ⟨us, hus, hsb⟩ := hb (i + (a ++ (' ' :: (k ++ [' ']))).count '?')
  refine ⟨ts ++ .word k :: us, ?_, ?_⟩
  · rw [appendWithPlaceholders_append, appendWithPlaceholders_append,
      appendWithPlaceholders_id (w := ' ' :: (k ++ [' '])) fun _ => hmem, List.append_assoc]
    exact lexPart_append_some hts (lexPart_append_some hsep hus (Or.inl hidle)) (joins_blank _ _)
  · unfold Settles
    rw [bare, List.map_append, List.map_cons, Sql.scan_append]
    rcases hsa with h | h
    · exact Or.inl (by rw [h]; rfl)
    · rw [h, Option.bind_some, scan, hadv]
      exact hsb

/-- A name and an operator at the beginning of a predicate: a keyword makes them unreadable. -/
theorem settles_word {o : Text} {ts : List Tok} (ho : Sql.isOperator o = true)
    (h : scan .settled (bare (.word o :: ts)) = some .settled) (f : Text) :
    Settles (.word f :: .word o :: ts) := by
  have hstart : scan .start (bare (.word f :: .word o :: ts)) =
      (Sql.advance .start (.tok (.word f) : Item Unit)).bind fun s =>
        scan s.2 (bare (.word o :: ts)) := rfl
  rw [Settles, hstart]
  by_cases hconn : Sql.isConnective f = true
  · exact Or.inl (by rw [Sql.advance_connective hconn]; rfl)
  by_cases hcase : Sql.isCase f = true
  · -- no operand of a CASE begins with the operator
    have hnone : Sql.advance ⟨[.case], 0, true⟩ (.tok (.word o) : Item Unit) = none := by
      simp [Sql.advance, Sql.advanceInner, ho]
    refine Or.inl ?_
    rw [Sql.advance_case hconn hcase, Option.bind_some, bare, List.map_cons, scan, hnone]
    rfl
  · refine Or.inr ?_
    have hname : Sql.isReserved f = false := by simp [Sql.isReserved, hconn, hcase]
    rw [Sql.advance_name hname, Option.bind_some, h]

theorem piece_field {f : Text} (hf : Ident f) {rest o : Text} {ts : List Tok}
    (hlex : lexPart bt.dialect (' ' :: rest) = some (.word o :: ts))
    (hmem : bt = .postgres → '?' ∉ ' ' :: rest) (ho : Sql.isOperator o = true)
    (hs : scan .settled (bare (.word o :: ts)) = some .settled) : Piece bt (f ++ ' ' :: rest) := by
  refine piece_of_lex (fun hb => notMem_append (hf.notMem rfl) (hmem hb))
    (lexPart_append_some (lexPart_ident hf) hlex (joins_blank _ _)) (settles_word ho hs f)

theorem queryWhereNull_eq {f : Field} (hf : isValidIdentifier f.name = true) (q : Query) :
    queryWhereNull q f.name =
      { q with where_ := whereSep q " AND ".toList ++ (f.nm ++ " IS NULL".toList) } := by
  cases hn : f.name with
  | none => simp [hn, isValidIdentifier] at hf
  | some n =>
    have hnm : f.nm = n := by
      rw [Field.nm, hn]
      rfl
    have hv : isValidIdentifier (some n) = true := hn ▸ hf
    simp only [queryWhereNull, if_pos hv, hnm, List.append_assoc]

theorem piece_isNull {f : Text} (hf : Ident f) : Piece bt (f ++ " IS NULL".toList) := by
  have hlex : lexPart bt.dialect " IS NULL".toList = some [.word "IS".toList, .word "NULL".toList] := by
    cases bt <;> rfl
  exact piece_field hf hlex (fun _ => by decide) (by decide) (by cases bt <;> rfl)

theorem piece_isNotNull {f : Text} (hf : Ident f) : Piece bt (f ++ " IS NOT NULL".toList) := by
  have hlex : lexPart bt.dialect " IS NOT NULL".toList =
      some [.word "IS".toList, .word "NOT".toList, .word "NULL".toList] := by cases bt <;> rfl
  exact piece_field hf hlex (fun _ => by decide) (by decide) (by cases bt <;> rfl)

theorem scan_stay {p : Pos} {ts : List Tok}
    (h : ∀ t ∈ ts, Sql.advance p (.tok t : Item Unit) = some (.inside, p)) :
    scan p (bare ts) = some p := by
  induction ts with
  | nil => rfl
  | cons t ts ih =>
    rw [bare, List.map_cons, scan, h t List.mem_cons_self]
    exact ih fun t ht => h t (List.mem_cons_of_mem _ ht)

theorem piece_between {f : Text} (hf : Ident f) (k l : ℕ) :
    Piece bt (f ++ " BETWEEN ".toList ++ placeholderStr bt k ++ " AND ".toList ++
      placeholderStr bt l) := by
  have hb : lexPart bt.dialect " BETWEEN ".toList = some [.word "BETWEEN".toList] := by cases bt <;> rfl
  have hbi : (Sql.run bt.dialect .idle " BETWEEN ".toList).2 = .idle := by cases bt <;> rfl
  have h1 := lexPart_andText (δ := bt.dialect) (lexPart_placeholder bt l)
  have h2 := lexPart_append_some (lexPart_placeholder bt k) h1 (joins_blank _ _)
  have h3 := lexPart_append_some hb h2 (Or.inl hbi)
  simp only [List.append_assoc]
  refine piece_field hf h3 (fun h => ?_) (by decide) ?_
  · subst h
    have hw : '?' ∉ " BETWEEN ".toList := by decide
    have hw' : '?' ∉ " AND ".toList := by decide
    exact notMem_append hw (notMem_append (notMem_placeholder k)
      (notMem_append hw' (notMem_placeholder l)))
  · cases bt <;> rfl

/-! ## IN -/

/-- What the loop of `corm_query_where_in` appends for `n` values, from the value with index `i` and
the placeholder with index `k` on. -/
def inText (bt : BackendType) (k i : ℕ) : ℕ → Text
  | 0 => []
  | n + 1 => (if 0 < i then ", ".toList else []) ++ placeholderStr bt k ++ inText bt (k + 1) (i + 1) n

theorem whereInLoop_eq (q : Query) (i : ℕ) (vals : List Value) :
    whereInLoop q i vals = { q with
      where_ := q.where_ ++ inText q.bt q.params.length i vals.length
      params := q.params ++ vals } := by
  induction vals generalizing q i with
  | nil => simp [whereInLoop, inText]
  | cons val vals ih =>
    rw [whereInLoop, ih]
    simp [queryBind, inText]

theorem inText_succ (bt : BackendType) (k i n : ℕ) : inText bt k (i + 1) (n + 1) =
    ", ".toList ++ commaSep ((List.range' k (n + 1)).map (placeholderStr bt)) := by
  induction n generalizing k i with
  | zero => simp [inText, commaSep]
  | succ n ih =>
    rw [inText, ih, if_pos (Nat.succ_pos i)]
    simp [List.range'_succ, commaSep]

theorem inText_zero (bt : BackendType) (k n : ℕ) :
    inText bt k 0 n = commaSep ((List.range' k n).map (placeholderStr bt)) := by
  cases n with
  | zero => rfl
  | succ n =>
    cases n with
    | zero => simp [inText, commaSep]
    | succ n =>
      rw [inText, inText_succ, if_neg (Nat.lt_irrefl 0)]
      simp [List.range'_succ, commaSep]

theorem notMem_inText (k i n : ℕ) : '?' ∉ inText .postgres k i n := by
  induction n generalizing k i with
  | zero => simp [inText]
  | succ n ih =>
    have hc : '?' ∉ (if 0 < i then ", ".toList else []) := by split_ifs <;> decide
    exact notMem_append (notMem_append hc (notMem_placeholder k)) (ih _ _)

theorem piece_in {f : Text} (hf : Ident f) (k n : ℕ) :
    Piece bt (f ++ " IN (".toList ++ inText bt k 0 n ++ ")".toList) := by
  have ho : lexPart bt.dialect " IN (".toList = some [.word "IN".toList, .sym '('] := by cases bt <;> rfl
  have hoi : (Sql.run bt.dialect .idle " IN (".toList).2 = .idle := by cases bt <;> rfl
  have hc : lexPart bt.dialect ")".toList = some [.sym ')'] := by cases bt <;> rfl
  have hl := lexPart_commaSep (δ := bt.dialect) (placeholderStr bt) (fun j => [placeholderTok bt j])
    (List.range' k n) fun j _ => lexPart_placeholder (δ := bt.dialect) bt j
  rw [← inText_zero] at hl
  have h1 := lexPart_append_some hl hc (Or.inr ⟨')', _, rfl, rfl⟩)
  have h2 := lexPart_append_some ho h1 (Or.inl hoi)
  simp only [List.append_assoc]
  refine piece_field hf h2 (fun h => ?_) (by decide) ?_
  · subst h
    have hw : '?' ∉ " IN (".toList := by decide
    have hw' : '?' ∉ ")".toList := by decide
    exact notMem_append hw (notMem_append (notMem_inText k 0 n) hw')
  · -- between the parentheses the reader stays one level deep
    have hstay : scan ⟨[.paren], 0, false⟩
        (bare (commaToks ((List.range' k n).map fun j => [placeholderTok bt j]))) =
        some ⟨[.paren], 0, false⟩ := by
      refine scan_stay fun t ht => ?_
      rcases mem_commaToks ht with rfl | ⟨ts, hts, ht⟩
      · rfl
      · obtain ⟨j, -, rfl⟩ := List.mem_map.mp hts
        rw [List.mem_singleton.mp ht]
        rfl
    have hopen : scan .settled (bare [.word "IN".toList, .sym '(']) = some ⟨[.paren], 0, false⟩ := by
      decide +kernel
    show scan .settled (bare ([Tok.word "IN".toList, .sym '('] ++ _)) = _
    rw [bare, List.map_append, Sql.scan_append, hopen, Option.bind_some, List.map_append,
      Sql.scan_append, hstay]
    rfl

/-! ## Chains -/

/-- The text of a WHERE: empty, or a piece. -/
def Readable (bt : BackendType) (w : Text) : Prop := w = [] ∨ Piece bt w

/-- What the calls of a chain keep. -/
structure ChainInv (bt : BackendType) (m : Model) (q : Query) : Prop where
  bt_eq : q.bt = bt
  model_eq : q.model = m
  filtered : q.unscoped = false
  plain : PlainSelect q
  readable : Readable bt q.where_

theorem chainInv_queryNew (bt : BackendType) (m : Model) : ChainInv bt m (queryNew bt m) where
  bt_eq := rfl
  model_eq := rfl
  filtered := rfl
  plain := ⟨rfl, rfl, rfl, rfl, rfl, rfl, rfl, rfl⟩
  readable := Or.inl rfl

theorem ChainInv.update {m : Model} (h : ChainInv bt m q) (params : List Value)
    (hw : Readable bt w) : ChainInv bt m { q with where_ := w, params := params } where
  bt_eq := h.bt_eq
  model_eq := h.model_eq
  filtered := h.filtered
  plain := h.plain.keep w params q.op
  readable := hw

theorem readable_and {m : Model} (h : ChainInv bt m q) (hw : Piece bt w) :
    Piece bt (whereSep q " AND ".toList ++ w) := by
  unfold whereSep
  split_ifs with hnil
  · exact hw
  · exact (h.readable.resolve_left hnil).connect (k := "AND".toList) hw rfl rfl

theorem readable_or {m : Model} (h : ChainInv bt m q) (hw : Piece bt w) :
    Piece bt (whereSep q " OR ".toList ++ w) := by
  unfold whereSep
  split_ifs with hnil
  · exact hw
  · exact (h.readable.resolve_left hnil).connect (k := "OR".toList) hw rfl rfl

theorem chainInv_apply {m : Model} (h : ChainInv bt m q) {c : WhereCall} (hc : c.Raw bt) :
    ChainInv bt m (c.apply q) := by
  obtain rfl := h.bt_eq
  have hand {w : Text} (hw : Piece q.bt w) : Readable q.bt (whereSep q " AND ".toList ++ w) :=
    Or.inr (readable_and h hw)
  cases c with
  | where_ condition => exact h.update q.params (hand (Predicate.piece hc))
  | orWhere condition => exact h.update q.params (Or.inr (readable_or h (Predicate.piece hc)))
  | bind val => exact h.update _ h.readable
  | whereNull field =>
    cases field with
    | none => exact h
    | some f =>
      show ChainInv q.bt m (if _ then _ else _)
      split_ifs with hf
      · have := hand (piece_isNull hf)
        rw [← List.append_assoc] at this
        exact h.update q.params this
      · exact h
  | whereNotNull field =>
    cases field with
    | none => exact h
    | some f =>
      show ChainInv q.bt m (if _ then _ else _)
      split_ifs with hf
      · have := hand (piece_isNotNull hf)
        rw [← List.append_assoc] at this
        exact h.update q.params this
      · exact h
  | whereIn field vals =>
    cases field with
    | none => exact h
    | some f =>
      show ChainInv q.bt m (if _ then _ else _)
      split_ifs with hf
      · have hf' : Ident f := (Bool.and_eq_true_iff.mp hf).1
        have := hand (piece_in hf' q.params.length vals.length)
        simp only [whereInLoop_eq]
        simp only [← List.append_assoc] at this
        exact h.update _ this
      · exact h
  | whereBetween field minVal maxVal =>
    cases field with
    | none => exact h
    | some f =>
      show ChainInv q.bt m (if _ then _ else _)
      split_ifs with hf
      · have := hand (piece_between hf q.params.length (q.params ++ [minVal]).length)
        simp only [← List.append_assoc] at this
        simp only [queryBind]
        exact h.update _ this
      · exact h

/-- **Any sequence of calls keeps the WHERE readable.** -/
theorem chainInv_chain {m : Model} (h : ChainInv bt m q) {calls : List WhereCall}
    (hc : ∀ c ∈ calls, c.Raw bt) : ChainInv bt m (chain q calls) := by
  induction calls generalizing q with
  | nil => exact h
  | cons c calls ih =>
    exact ih (chainInv_apply h (hc c List.mem_cons_self))
      fun c h => hc c (List.mem_cons_of_mem _ h)

end Corm
