import Corm.Reading.Where

/-!
# How SQL reads an INSERT

* `nameToks`, `valToks`: the lists of names and of placeholders;
* `lexPart_insertHead`, `lex_buildInsert`: the tokens of the statement;
* **`readStmt_insert`**: its columns are the fields that are not AUTOINC, with the values in order.
-/

namespace Corm

open Sql (Tok lex lexPart lexPart_append_some Joins)

variable {δ : Sql.Dialect} {bt : BackendType} {q : Query} {k n : ℕ} {ns : List Text}

/-! ## The lists -/

/-- The tokens of the names of an INSERT, up to the closing parenthesis. -/
def nameToks (bt : BackendType) (ns : List Text) : List Tok :=
  commaToks (ns.map fun s => [.quoted (quoteOf bt) s])

/-- The tokens of the `m` placeholders of an INSERT, from `k` on. -/
def valToks (bt : BackendType) (k m : ℕ) : List Tok :=
  commaToks ((List.range' k m).map fun j => [placeholderTok bt j])

variable {V : Type}

theorem plain_nameToks (bt : BackendType) (ns : List Text) :
    Sql.Plain (nameToks bt ns ++ [Tok.sym ')']) := by
  induction ns with
  | nil =>
    intro k
    simp [nameToks, commaToks]
  | cons s ns ih =>
    cases ns with
    | nil =>
      intro k
      simp [nameToks, commaToks]
    | cons s' ns =>
      have he : nameToks bt (s :: s' :: ns) =
        .quoted (quoteOf bt) s :: .sym ',' :: nameToks bt (s' :: ns) := rfl
      intro k hk
      rw [he] at hk
      refine ih k ?_
      simpa using hk

theorem nameToks_items (bt : BackendType) (hne : ns ≠ []) :
    (nameToks bt ns ++ [Tok.sym ')']).map (Sql.Item.tok (V := V)) =
      Sql.nameItems (quoteOf bt) ns := by
  induction ns with
  | nil => exact absurd rfl hne
  | cons s ns ih =>
    cases ns with
    | nil => rfl
    | cons s' ns =>
      have he : nameToks bt (s :: s' :: ns) =
        .quoted (quoteOf bt) s :: .sym ',' :: nameToks bt (s' :: ns) := rfl
      have hi : Sql.nameItems (V := V) (quoteOf bt) (s :: s' :: ns) =
        Sql.nameItem (quoteOf bt) s :: Sql.symItem ',' :: Sql.nameItems (quoteOf bt) (s' :: ns) := rfl
      rw [he, hi, ← ih (by simp)]
      rfl

theorem fill_valToks (h : bt = .postgres ∨ n = k) {pre vals : List V} (hk : pre.length = k)
    (hne : vals ≠ []) (post : List V) :
    Sql.fill (pre ++ vals ++ post) n (valToks bt k vals.length ++ [Tok.sym ')']) =
      some (Sql.valItems vals) := by
  induction vals generalizing n k pre with
  | nil => exact absurd rfl hne
  | cons v vals ih =>
    have hv : (pre ++ (v :: vals) ++ post)[k]? = some v := by
      subst hk
      simp
    cases vals with
    | nil =>
      show Sql.fill _ n [placeholderTok bt k, .sym ')'] = _
      rw [Sql.fill_cons, fillTok_placeholder h, hv]
      rfl
    | cons v' vals =>
      have hrest : Sql.fill (pre ++ [v] ++ v' :: vals ++ post) (Sql.tick n (placeholderTok bt k))
          (valToks bt (k + 1) (v' :: vals).length ++ [Tok.sym ')']) = _ :=
        ih (tick_placeholder h) (by simp [hk]) (by simp)
      have hl : pre ++ [v] ++ (v' :: vals) ++ post = pre ++ (v :: v' :: vals) ++ post := by
        simp
      rw [hl] at hrest
      have he : valToks bt k (v :: v' :: vals).length ++ [Tok.sym ')'] =
        placeholderTok bt k :: .sym ',' :: (valToks bt (k + 1) (v' :: vals).length ++
          [Tok.sym ')']) := rfl
      rw [he, Sql.fill_cons, fillTok_placeholder h, hv, Sql.fill_cons]
      show Option.map _ (Option.map _ (Sql.fill _ (Sql.tick n _) _)) = _
      rw [hrest]
      rfl

/-! ## The statement -/

/-- The column of RETURNING, which only PostgreSQL has. -/
def returningCol (q : Query) : Option Text :=
  match q.bt, q.model.primaryKey with
  | .postgres, some pk => some pk.nm
  | _, _ => none

/-- The tokens of RETURNING. -/
def returningToks (q : Query) : List Tok :=
  match returningCol q with
  | some c => [.word "RETURNING".toList, .quoted (quoteOf q.bt) c]
  | none => []

/-- The text of RETURNING. -/
def returningText (q : Query) : Text :=
  match returningCol q with
  | some c => " RETURNING ".toList ++ qident q.bt c
  | none => []

theorem lexPart_returningText (hpk : ∀ c, returningCol q = some c → Ident c) :
    lexPart δ (")".toList ++ returningText q) = some (.sym ')' :: returningToks q) := by
  unfold returningText returningToks
  cases hc : returningCol q with
  | none => cases δ <;> rfl
  | some c =>
    have hr : lexPart δ ") RETURNING ".toList = some [.sym ')', .word "RETURNING".toList] := by
      cases δ <;> rfl
    have hi : (Sql.run δ .idle ") RETURNING ".toList).2 = .idle := by cases δ <;> rfl
    exact lexPart_append_some hr (lexPart_qident q.bt (hpk c hc)) (Or.inl hi)

theorem buildInsert_eq (q : Query) : buildInsert q =
    "INSERT INTO ".toList ++ (qident q.bt q.model.table ++ (" (".toList ++
      (commaSep ((insertFields q.model).map fun f => qident q.bt f.nm) ++
        (") VALUES (".toList ++
          (commaSep ((List.range' 0 (insertFields q.model).length).map (placeholderStr q.bt)) ++
            (")".toList ++ returningText q)))))) := by
  unfold buildInsert returningText returningCol
  simp only [List.range_eq_range', List.append_assoc]
  cases q.bt with
  | postgres => cases q.model.primaryKey <;> rfl
  | mysql => rfl
  | sqlite => rfl

/-- The names of the columns of an INSERT. -/
def insertNames (m : Model) : List Text := (insertFields m).map Field.nm

/-- The tokens of an INSERT up to the closing parenthesis of its columns, with the tokens `ts` of the
rest. -/
theorem lexPart_insertHead {m : Model} (ht : Ident m.table) (hns : ∀ f ∈ m.fields, Ident f.nm)
    {rest : Text} {ts : List Tok} (hrest : lexPart δ (')' :: rest) = some ts) :
    lexPart δ ("INSERT INTO ".toList ++ (qident bt m.table ++ (" (".toList ++
      (commaSep ((insertFields m).map fun f => qident bt f.nm) ++ (')' :: rest))))) =
      some ([Tok.word "INSERT".toList, .word "INTO".toList, .quoted (quoteOf bt) m.table,
        .sym '('] ++ (nameToks bt (insertNames m) ++ ts)) := by
  have hi : lexPart δ "INSERT INTO ".toList = some [.word "INSERT".toList, .word "INTO".toList] := by
    cases δ <;> rfl
  have hii : (Sql.run δ .idle "INSERT INTO ".toList).2 = .idle := by cases δ <;> rfl
  have ho : lexPart δ " (".toList = some [.sym '('] := by cases δ <;> rfl
  have hoi : (Sql.run δ .idle " (".toList).2 = .idle := by cases δ <;> rfl
  have hnames : lexPart δ (commaSep ((insertFields m).map fun f => qident bt f.nm)) =
      some (nameToks bt (insertNames m)) := by
    have h := lexPart_commaSep (δ := δ) (fun f : Field => qident bt f.nm)
      (fun f => [.quoted (quoteOf bt) f.nm]) (insertFields m)
      (fun f hf => lexPart_qident (δ := δ) bt (hns f (List.mem_of_mem_filter hf)))
    rw [h, nameToks, insertNames, List.map_map]
    rfl
  have h1 := lexPart_append_some hnames hrest (Or.inr ⟨')', rest, rfl, rfl⟩)
  have h2 := lexPart_append_some ho h1 (Or.inl hoi)
  have h3 := lexPart_append_some (lexPart_qident bt ht) h2 (joins_blank _ _)
  have h4 := lexPart_append_some hi h3 (Or.inl hii)
  exact h4

theorem plain_insertHead (bt : BackendType) (t : Text) :
    Sql.Plain [.word "INSERT".toList, .word "INTO".toList, .quoted (quoteOf bt) t, .sym '('] := by
  intro k
  simp

theorem lex_buildInsert (ht : Ident q.model.table) (hns : ∀ f ∈ q.model.fields, Ident f.nm)
    (hpk : ∀ c, returningCol q = some c → Ident c) :
    lex δ (buildInsert q) = some ([.word "INSERT".toList, .word "INTO".toList,
      .quoted (quoteOf q.bt) q.model.table, .sym '('] ++
      ((nameToks q.bt (insertNames q.model) ++ [Tok.sym ')']) ++
        ([Tok.word "VALUES".toList, .sym '('] ++
          ((valToks q.bt 0 (insertNames q.model).length ++ [Tok.sym ')']) ++
            returningToks q)))) := by
  have hv : lexPart δ ") VALUES (".toList = some [.sym ')', .word "VALUES".toList, .sym '('] := by
    cases δ <;> rfl
  have hvi : (Sql.run δ .idle ") VALUES (".toList).2 = .idle := by cases δ <;> rfl
  have hvals := lexPart_commaSep (δ := δ) (placeholderStr q.bt) (fun j => [placeholderTok q.bt j])
    (List.range' 0 (insertFields q.model).length) fun j _ => lexPart_placeholder (δ := δ) q.bt j
  have h1 := lexPart_append_some hvals (lexPart_returningText hpk) (Or.inr ⟨')', _, rfl, rfl⟩)
  have h2 := lexPart_append_some hv h1 (Or.inl hvi)
  rw [buildInsert_eq]
  refine (Sql.lex_of_part (lexPart_insertHead ht hns h2)).trans ?_
  simp [valToks, insertNames]

theorem plain_returningToks (q : Query) : Sql.Plain (returningToks q) := by
  intro k
  unfold returningToks
  cases returningCol q <;> simp

theorem returningToks_items (q : Query) :
    (returningToks q).map (Sql.Item.tok (V := V)) =
      Sql.returningItems (quoteOf q.bt) (returningCol q) := by
  unfold returningToks
  cases returningCol q <;> rfl

theorem fill_append_plain {a b : List Tok} (ha : Sql.Plain a) (vs : List V) (n : ℕ) :
    Sql.fill vs n (a ++ b) = (Sql.fill vs n b).map (a.map .tok ++ ·) := by
  rw [Sql.fill_append, Sql.fill_plain ha, Sql.marks_plain ha]
  rfl

section

variable (ht : Ident q.model.table) (hns : ∀ f ∈ q.model.fields, Ident f.nm)
  (hpk : ∀ c, returningCol q = some c → Ident c)

include ht hns hpk

theorem readStmt_insert (hne : insertFields q.model ≠ []) {vs : List V}
    (hlen : (insertNames q.model).length = vs.length) :
    Sql.readStmt δ (buildInsert q) vs =
      some (.insert q.model.table (insertNames q.model) vs) := by
  have hne' : insertNames q.model ≠ [] := by
    intro h
    exact hne (List.map_eq_nil_iff.mp h)
  have hvs : vs ≠ [] := by
    rintro rfl
    exact hne' (List.length_eq_zero_iff.mp hlen)
  have hh := plain_insertHead q.bt q.model.table
  have hw : Sql.Plain [.word "VALUES".toList, .sym '('] := by
    intro k
    simp
  have hvals : Sql.fill ([] ++ vs ++ []) 0 (valToks q.bt 0 vs.length ++ [Tok.sym ')']) = _ :=
    fill_valToks (Or.inr rfl) rfl hvs []
  rw [List.nil_append, List.append_nil] at hvals
  have hrest : Sql.fill vs 0 ((valToks q.bt 0 vs.length ++ [Tok.sym ')']) ++ returningToks q) =
      some (Sql.valItems vs ++ Sql.returningItems (quoteOf q.bt) (returningCol q)) := by
    rw [← returningToks_items]
    exact Sql.fill_append_some hvals (Sql.fill_plain (plain_returningToks q) _ _)
  have hp := Sql.parse_insert (quoteOf_ne q.bt) q.model.table hne' hlen (returningCol q)
  unfold Sql.readStmt
  rw [lex_buildInsert ht hns hpk, hlen]
  show (Sql.fill vs 0 _).bind _ = _
  rw [fill_append_plain hh, fill_append_plain (plain_nameToks q.bt _), fill_append_plain hw, hrest,
    nameToks_items q.bt hne']
  exact hp

theorem readStmt_insert_nil (hnil : insertFields q.model = []) (vs : List V) :
    Sql.readStmt δ (buildInsert q) vs = none := by
  have hn : insertNames q.model = [] := by rw [insertNames, hnil]; rfl
  have hh : Sql.Plain [.word "INSERT".toList, .word "INTO".toList,
      .quoted (quoteOf q.bt) q.model.table, .sym '(', .sym ')', .word "VALUES".toList, .sym '(',
      .sym ')'] := by
    intro k
    simp
  have hlex : lex δ (buildInsert q) = some ([.word "INSERT".toList, .word "INTO".toList,
      .quoted (quoteOf q.bt) q.model.table, .sym '(', .sym ')', .word "VALUES".toList, .sym '(',
      .sym ')'] ++ returningToks q) := by
    rw [lex_buildInsert ht hns hpk, hn]
    rfl
  unfold Sql.readStmt
  rw [hlex]
  show (Sql.fill vs 0 _).bind _ = _
  rw [fill_append_plain hh, Sql.fill_plain (plain_returningToks q)]
  -- a parenthesis closes where the first name is read
  have hfail (b : BackendType) (is : List (Sql.Item V)) : Sql.parseStmt
      ([Sql.kwItem "INSERT", Sql.kwItem "INTO", Sql.nameItem (quoteOf b) q.model.table,
        Sql.symItem '(', Sql.symItem ')', Sql.kwItem "VALUES", Sql.symItem '(',
        Sql.symItem ')'] ++ is) = none := by
    cases b <;> rfl
  exact hfail q.bt _

end

end Corm
