import Corm.Reading.Where

/-!
# How SQL reads an UPDATE

* `setText`, `foldl_querySet`: the SET clause that calls of `corm_query_set` build;
* `setToks`, `lexPart_setText`, `fill_setText`: its tokens, and its assignments;
* **`readStmt_update`**: the statement.
-/

namespace Corm

open Sql (Tok lex lexPart lexPart_append_some Joins)

variable {δ : Sql.Dialect} {bt : BackendType} {q : Query} {k n : ℕ} {s : Text} {ns : List Text}

/-! ## The clause -/

/-- The assignment to one column. -/
def setOne (bt : BackendType) (k : ℕ) (name : Text) : Text :=
  qident bt name ++ " = ".toList ++ placeholderStr bt k

/-- Assignments to columns, with placeholders from `k` on. -/
def setText (bt : BackendType) (k : ℕ) : List Text → Text
  | [] => []
  | [name] => setOne bt k name
  | name :: names => setOne bt k name ++ ", ".toList ++ setText bt (k + 1) names

/-- Two SET clauses, one after the other. -/
def joinSets (a b : Text) : Text :=
  if a = [] then b else if b = [] then a else a ++ ", ".toList ++ b

theorem qident_ne_nil (bt : BackendType) (name : Text) : qident bt name ≠ [] := by
  cases bt <;> exact List.cons_ne_nil _ _

theorem setOne_ne_nil (bt : BackendType) (k : ℕ) (name : Text) : setOne bt k name ≠ [] := by
  intro h
  rw [setOne, List.append_assoc] at h
  exact qident_ne_nil bt name (List.append_eq_nil_iff.mp h).1

theorem setText_ne_nil (hne : ns ≠ []) : setText bt k ns ≠ [] := by
  cases ns with
  | nil => exact absurd rfl hne
  | cons name names =>
    cases names with
    | nil => exact setOne_ne_nil bt k name
    | cons name' names =>
      intro h
      rw [setText, List.append_assoc] at h
      exact setOne_ne_nil bt k name (List.append_eq_nil_iff.mp h).1
      simp

theorem joinSets_setText_cons (a : Text) (name : Text) (names : List Text) :
    joinSets (joinSets a (setOne bt k name)) (setText bt (k + 1) names) =
      joinSets a (setText bt k (name :: names)) := by
  have h1 := setOne_ne_nil bt k name
  cases names with
  | nil => by_cases ha : a = [] <;> simp [joinSets, setText, ha, h1]
  | cons name' names =>
    have h2 : setText bt (k + 1) (name' :: names) ≠ [] := setText_ne_nil (by simp)
    have h3 : setText bt k (name :: name' :: names) =
        setOne bt k name ++ ", ".toList ++ setText bt (k + 1) (name' :: names) := rfl
    by_cases ha : a = []
    · simp [joinSets, ha, h1, h2, h3]
    · simp [joinSets, ha, h1, h2, h3]

theorem querySet_eq {f : Field} (hf : isValidIdentifier f.name = true) (v : Value) :
    querySet q f.name v = { q with
      setClause := joinSets q.setClause (setOne q.bt q.params.length f.nm)
      params := q.params ++ [v]
      op := .update } := by
  cases hn : f.name with
  | none => simp [hn, isValidIdentifier] at hf
  | some s =>
    rw [hn] at hf
    have hnm : f.nm = s := by rw [Field.nm, hn]; rfl
    have h1 := setOne_ne_nil q.bt q.params.length s
    rw [querySet, if_pos hf, hnm]
    by_cases hs : q.setClause = []
    · simp [joinSets, hs, setOne, qident, queryBind]
    · simp only [joinSets, if_neg hs, if_neg h1]
      simp [setOne, qident, queryBind]

/-- **A run of calls of `corm_query_set`.** -/
theorem foldl_querySet {fs : List Field} (hf : ∀ f ∈ fs, isValidIdentifier f.name = true)
    (g : Field → Value) (q : Query) :
    fs.foldl (fun q f => querySet q f.name (g f)) q = { q with
      setClause := joinSets q.setClause (setText q.bt q.params.length (fs.map Field.nm))
      params := q.params ++ fs.map g
      op := if fs = [] then q.op else .update } := by
  induction fs generalizing q with
  | nil =>
    have hj : joinSets q.setClause [] = q.setClause := by
      by_cases hs : q.setClause = [] <;> simp [joinSets, hs]
    simp [setText, hj]
  | cons f fs ih =>
    have hfs : ∀ f ∈ fs, isValidIdentifier f.name = true :=
      fun f h => hf f (List.mem_cons_of_mem _ h)
    rw [List.foldl_cons, ih hfs, querySet_eq (hf f List.mem_cons_self)]
    simp only [List.length_append, List.length_singleton, List.map_cons,
      joinSets_setText_cons, List.append_assoc, List.singleton_append]
    simp

/-! ## Its tokens -/

/-- The tokens of an assignment. -/
def setOneToks (bt : BackendType) (k : ℕ) (name : Text) : List Tok :=
  [.quoted (quoteOf bt) name, .sym '=', placeholderTok bt k]

/-- The tokens of assignments. -/
def setToks (bt : BackendType) (k : ℕ) : List Text → List Tok
  | [] => []
  | [name] => setOneToks bt k name
  | name :: names => setOneToks bt k name ++ .sym ',' :: setToks bt (k + 1) names

theorem lexPart_setOne (hn : Ident s) (bt : BackendType) (k : ℕ) :
    lexPart δ (setOne bt k s) = some (setOneToks bt k s) := by
  have he : lexPart δ " = ".toList = some [.sym '='] := by cases δ <;> rfl
  have hi : (Sql.run δ .idle " = ".toList).2 = .idle := by cases δ <;> rfl
  have hep := lexPart_append_some he (lexPart_placeholder bt k) (Or.inl hi)
  rw [setOne, List.append_assoc]
  exact lexPart_append_some (lexPart_qident bt hn) hep (joins_blank _ _)

theorem lexPart_setText (hns : ∀ s ∈ ns, Ident s) (hne : ns ≠ []) (bt : BackendType) (k : ℕ) :
    lexPart δ (setText bt k ns) = some (setToks bt k ns) := by
  induction ns generalizing k with
  | nil => exact absurd rfl hne
  | cons name names ih =>
    have hone := lexPart_setOne (δ := δ) (hns name List.mem_cons_self) bt k
    cases names with
    | nil => exact hone
    | cons name' names =>
      have hrest := ih (fun s h => hns s (List.mem_cons_of_mem _ h)) (by simp) (k + 1)
      have hc : lexPart δ ", ".toList = some [.sym ','] := by cases δ <;> rfl
      have hi : (Sql.run δ .idle ", ".toList).2 = .idle := by cases δ <;> rfl
      have htail := lexPart_append_some hc hrest (Or.inl hi)
      rw [setText, List.append_assoc]
      · exact lexPart_append_some hone htail (Or.inr ⟨',', _, rfl, rfl⟩)
      · simp

theorem notMem_setOne (hn : Ident s) (k : ℕ) : '?' ∉ setOne .postgres k s := by
  have hq : '?' ∉ qident .postgres s := by simp [qident, dialectQuote, hn.notMem (c := '?') rfl]
  have he : '?' ∉ " = ".toList := by decide
  exact notMem_append (notMem_append hq he) (notMem_placeholder k)

theorem notMem_setText (hns : ∀ s ∈ ns, Ident s) (k : ℕ) : '?' ∉ setText .postgres k ns := by
  induction ns generalizing k with
  | nil => simp [setText]
  | cons name names ih =>
    have hone := notMem_setOne (hns name List.mem_cons_self) k
    have hrest := ih (fun s h => hns s (List.mem_cons_of_mem _ h)) (k + 1)
    cases names with
    | nil => exact hone
    | cons name' names =>
      have hc : '?' ∉ ", ".toList := by decide
      exact notMem_append (notMem_append hone hc) hrest

variable {V : Type}

theorem fill_setOne (h : bt = .postgres ∨ n = k) {vs : List V} {v : V} (hv : vs[k]? = some v)
    (name : Text) : Sql.fill vs n (setOneToks bt k name) =
      some (Sql.assignItems (quoteOf bt) [(name, v)]) := by
  rw [setOneToks, Sql.fill_cons, Sql.fill_cons, Sql.fill_cons]
  simp only [Sql.tick, fillTok_placeholder h, hv]
  rfl

/-- **The assignments** of a SET clause: its placeholders take the values from `k` on. -/
theorem fill_setText (h : bt = .postgres ∨ n = k) {pre vals : List V} (hk : pre.length = k)
    (hlen : ns.length = vals.length) (post : List V) :
    Sql.fill (pre ++ vals ++ post) n (setToks bt k ns) =
      some (Sql.assignItems (quoteOf bt) (ns.zip vals)) := by
  induction ns generalizing n k pre vals with
  | nil => rfl
  | cons name names ih =>
    cases vals with
    | nil => cases hlen
    | cons v vals =>
      have hv : (pre ++ (v :: vals) ++ post)[k]? = some v := by
        subst hk
        simp
      have hone := fill_setOne h hv name
      cases names with
      | nil =>
        have hz : vals = [] := List.length_eq_zero_iff.mp (by simpa using hlen.symm)
        subst hz
        exact hone
      | cons name' names =>
        cases vals with
        | nil => cases hlen
        | cons v' vals =>
          have hm : n + Sql.marks (setOneToks bt k name) = Sql.tick n (placeholderTok bt k) := by
            rw [← Sql.foldl_tick]
            rfl
          have hrest : Sql.fill (pre ++ [v] ++ v' :: vals ++ post)
              (Sql.tick n (placeholderTok bt k)) (setToks bt (k + 1) (name' :: names)) = _ :=
            ih (tick_placeholder h) (by simp [hk]) (by simpa using hlen)
          have hl : pre ++ [v] ++ (v' :: vals) ++ post = pre ++ (v :: v' :: vals) ++ post := by
            simp
          rw [hl] at hrest
          rw [setToks, Sql.fill_append, hone, Option.bind_some, Sql.fill_cons, hm]
          · show Option.map _ (Option.map _ (Sql.fill _ (Sql.tick n _) _)) = _
            rw [hrest]
            rfl
          · simp

theorem marks_setToks (hb : bt ≠ .postgres) (k : ℕ) (ns : List Text) :
    Sql.marks (setToks bt k ns) = ns.length := by
  have hone (j : ℕ) (name : Text) : Sql.marks (setOneToks bt j name) = 1 := by
    cases bt with
    | postgres => exact absurd rfl hb
    | mysql => rfl
    | sqlite => rfl
  induction ns generalizing k with
  | nil => rfl
  | cons name names ih =>
    cases names with
    | nil => exact hone k name
    | cons name' names =>
      have hc (ts : List Tok) : Sql.marks (.sym ',' :: ts) = Sql.marks ts := by
        rw [Sql.marks_cons]
        exact Nat.zero_add _
      rw [setToks, Sql.marks_append, hone, hc, ih]
      · simp only [List.length_cons]
        omega
      · simp

/-! ## The statement -/

theorem buildUpdate_eq (hset : q.setClause = setText q.bt k ns) (hns : ∀ s ∈ ns, Ident s)
    (hne : ns ≠ []) : buildUpdate q =
      "UPDATE ".toList ++ qident q.bt q.model.table ++ " SET ".toList ++ setText q.bt k ns ++
        whereText q ((setText q.bt k ns).count '?') := by
  have hnil : q.setClause ≠ [] := by
    rw [hset]
    exact setText_ne_nil hne
  have hmem : q.bt = .postgres → '?' ∉ q.setClause := by
    intro hb
    rw [hset, hb]
    exact notMem_setText hns k
  unfold buildUpdate whereOffset
  rw [if_neg hnil]
  rw [if_neg hnil]
  rw [appendWithPlaceholders_id hmem, hset]

/-- On every dialect the numbering of the WHERE of an UPDATE starts from 0, where it matters. -/
theorem readWhere_setText (hns : ∀ s ∈ ns, Ident s) (vs : List V) (m : ℕ) :
    readWhere δ q ((setText q.bt k ns).count '?') vs m = readWhere δ q 0 vs m := by
  by_cases hb : q.bt = .postgres
  · have hc : (setText q.bt k ns).count '?' = 0 := by
      rw [hb, List.count_eq_zero]
      exact notMem_setText hns k
    rw [hc]
  · have hid : ∀ i, appendWithPlaceholders q.bt i q.where_ = q.where_ :=
      appendWithPlaceholders_id fun h => absurd h hb
    rw [readWhere, readWhere, whereTokens, whereTokens, hid, hid]

/-- The tokens of an UPDATE up to its assignments. -/
def updateToks (q : Query) : List Tok :=
  [.word "UPDATE".toList, .quoted (quoteOf q.bt) q.model.table, .word "SET".toList]

theorem plain_updateToks (q : Query) : Sql.Plain (updateToks q) := by
  intro j
  simp [updateToks]

theorem lexPart_updateHead (ht : Ident q.model.table) (hns : ∀ s ∈ ns, Ident s) (hne : ns ≠ [])
    (k : ℕ) :
    lexPart δ ("UPDATE ".toList ++ (qident q.bt q.model.table ++ (" SET ".toList ++
      setText q.bt k ns))) = some (updateToks q ++ setToks q.bt k ns) := by
  have hu : lexPart δ "UPDATE ".toList = some [.word "UPDATE".toList] := by cases δ <;> rfl
  have hui : (Sql.run δ .idle "UPDATE ".toList).2 = .idle := by cases δ <;> rfl
  have hs : lexPart δ " SET ".toList = some [.word "SET".toList] := by cases δ <;> rfl
  have hsi : (Sql.run δ .idle " SET ".toList).2 = .idle := by cases δ <;> rfl
  have hsets := lexPart_append_some hs (lexPart_setText hns hne q.bt k) (Or.inl hsi)
  have htable := lexPart_append_some (lexPart_qident q.bt ht) hsets (joins_blank _ _)
  rw [lexPart_append_some hu htable (Or.inl hui)]
  rfl

theorem lex_buildUpdate (ht : Ident q.model.table) (hns : ∀ s ∈ ns, Ident s)
    (hset : q.setClause = setText q.bt k ns) (hne : ns ≠ []) :
    lex δ (buildUpdate q) = (whereTokens δ q ((setText q.bt k ns).count '?')).map fun w =>
      updateToks q ++ setToks q.bt k ns ++ whereToks w := by
  have h := lex_append_whereText (δ := δ) (lexPart_updateHead ht hns hne k) q
    ((setText q.bt k ns).count '?')
  rw [buildUpdate_eq hset hns hne]
  simp only [List.append_assoc] at h ⊢
  exact h

theorem readStmt_update (ht : Ident q.model.table) (hns : ∀ s ∈ ns, Ident s)
    (hset : q.setClause = setText q.bt k ns) {vs : List V} {sets : List (Text × V)}
    (hne : sets ≠ []) (hns' : ns ≠ [])
    (hfill : Sql.fill vs 0 (setToks q.bt k ns) = some (Sql.assignItems (quoteOf q.bt) sets)) :
    Sql.readStmt δ (buildUpdate q) vs =
      (readWhere δ q 0 vs (Sql.marks (setToks q.bt k ns))).map fun w =>
        .update q.model.table sets w := by
  have hpl := plain_updateToks q
  have hfill' := Sql.fill_append_some (Sql.fill_plain hpl vs 0)
    (by rw [Sql.marks_plain hpl]; exact hfill)
  have hparse (c : Option (List (Sql.Item V))) :=
    Sql.parse_update (quoteOf_ne q.bt) q.model.table hne c
  have hr := readStmt_append_whereText (δ := δ) (lexPart_updateHead ht hns hns' k) hfill' (fun c => by
    rw [List.append_assoc]
    exact hparse c) q ((setText q.bt k ns).count '?')
  have hm : Sql.marks (updateToks q ++ setToks q.bt k ns) = Sql.marks (setToks q.bt k ns) := by
    rw [Sql.marks_append, Sql.marks_plain hpl, Nat.zero_add]
  rw [buildUpdate_eq hset hns hns', ← readWhere_setText (k := k) hns, ← hm]
  simp only [List.append_assoc] at hr ⊢
  exact hr

end Corm
