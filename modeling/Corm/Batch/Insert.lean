import Corm.Exec
import Corm.Reading.Insert
import Corm.Sql.Rows

/-!
# The INSERT of several records

* `insertBatch`: the statement of `corm_create_batch` for some records, with its parameters;
* `insertBatch_eq`: its loops skip the AUTOINC fields alike;
* **`readInserts_insertBatch`**: it inserts the values of each record in turn;
* **`slots_insertBatch`**: its placeholders are those of the parameters, in order.
-/

namespace Corm

open Sql (Tok lex lexPart lexPart_append_some)

/-! ## The statement -/

/-- The loop over the columns, after `ci` of them. -/
def columnList (bt : BackendType) (ci : ℕ) : List Field → Text
  | [] => []
  | f :: fs =>
    if f.isAutoinc then columnList bt ci fs
    else
      (if 0 < ci then ", ".toList else []) ++ qident bt f.nm ++ columnList bt (ci + 1) fs

/-- The loop over the placeholders of a row, after `fi` of them, and the index after it. -/
def rowPlaceholders (bt : BackendType) (fi paramIdx : ℕ) : List Field → Text × ℕ
  | [] => ([], paramIdx)
  | f :: fs =>
    if f.isAutoinc then rowPlaceholders bt fi paramIdx fs
    else
      let (rest, next) := rowPlaceholders bt (fi + 1) (paramIdx + 1) fs
      ((if 0 < fi then ", ".toList else []) ++ placeholderStr bt paramIdx ++ rest, next)

/-- The loop that binds the values of a row. -/
def bindRow (q : Query) (rec : Record) : Query :=
  q.model.fields.foldl (fun q f => if f.isAutoinc then q else queryBind q (fieldGetValue rec f)) q

/-- The loop over the rows of a statement, after `r` of them. -/
def batchRows (bt : BackendType) (m : Model) (r paramIdx : ℕ) (q : Query) :
    List Record → Text × Query
  | [] => ([], q)
  | rec :: recs =>
    let (placeholders, next) := rowPlaceholders bt 0 paramIdx m.fields
    let (rest, q) := batchRows bt m (r + 1) next (bindRow q rec) recs
    ((if 0 < r then ", (".toList else "(".toList) ++ placeholders ++ ")".toList ++ rest, q)

/-- The statement for some records, and its parameters. -/
def insertBatch (bt : BackendType) (m : Model) (recs : List Record) : Text × List Value :=
  let (rows, q) := batchRows bt m 0 0 (queryNew bt m) recs
  ("INSERT INTO ".toList ++ qident bt m.table ++ " (".toList ++ columnList bt 0 m.fields ++
    ") VALUES ".toList ++ rows, q.params)

/-! ## Its loops -/

variable {δ : Sql.Dialect} {bt : BackendType} {m : Model} {q : Query} {rec : Record} {recs : List Record}
  {n k j : ℕ}

/-- The values of a record that an INSERT binds. -/
def rowOf (m : Model) (rec : Record) : List Value := (insertFields m).map (fieldGetValue rec)

/-- The fields of a list that are not AUTOINC. -/
def bound (fs : List Field) : List Field := fs.filter fun f => !f.isAutoinc

theorem bound_cons (f : Field) (fs : List Field) :
    bound (f :: fs) = if f.isAutoinc then bound fs else f :: bound fs := by
  cases h : f.isAutoinc <;> simp [bound, h]

theorem columnList_succ (ci : ℕ) (fs : List Field) :
    columnList bt (ci + 1) fs = led ((bound fs).map fun f => qident bt f.nm) := by
  induction fs generalizing ci with
  | nil => rfl
  | cons f fs ih =>
    rw [columnList, bound_cons]
    split_ifs
    · exact ih ci
    · rw [ih, List.map_cons]
      simp [led]
    · omega

theorem columnList_eq (fs : List Field) :
    columnList bt 0 fs = commaSep ((bound fs).map fun f => qident bt f.nm) := by
  induction fs with
  | nil => rfl
  | cons f fs ih =>
    rw [columnList, bound_cons]
    split_ifs with ha h0
    · exact ih
    · omega
    · rw [columnList_succ, List.map_cons, commaSep_cons]
      rfl

theorem rowPlaceholders_succ (fi k : ℕ) (fs : List Field) :
    rowPlaceholders bt (fi + 1) k fs =
      (led ((List.range' k (bound fs).length).map (placeholderStr bt)), k + (bound fs).length) := by
  induction fs generalizing fi k with
  | nil => rfl
  | cons f fs ih =>
    rw [rowPlaceholders, bound_cons]
    split_ifs
    · exact ih fi k
    · rw [ih, List.length_cons, List.range'_succ, List.map_cons]
      refine Prod.ext ?_ ?_
      · simp [led]
      · show k + 1 + _ = _
        omega
    · omega

theorem rowPlaceholders_eq (k : ℕ) (fs : List Field) :
    rowPlaceholders bt 0 k fs =
      (commaSep ((List.range' k (bound fs).length).map (placeholderStr bt)),
        k + (bound fs).length) := by
  induction fs with
  | nil => rfl
  | cons f fs ih =>
    rw [rowPlaceholders, bound_cons]
    split_ifs with ha h0
    · exact ih
    · omega
    · rw [rowPlaceholders_succ, List.length_cons, List.range'_succ, List.map_cons, commaSep_cons]
      refine Prod.ext rfl ?_
      show k + 1 + _ = _
      omega

theorem bindRow_eq (hq : q.model = m) (rec : Record) :
    bindRow q rec = { q with params := q.params ++ rowOf m rec } := by
  have hfold (fs : List Field) (q : Query) :
      fs.foldl (fun q f => if f.isAutoinc then q else queryBind q (fieldGetValue rec f)) q =
        { q with params := q.params ++ (bound fs).map (fieldGetValue rec) } := by
    induction fs generalizing q with
    | nil => simp [bound]
    | cons f fs ih =>
      rw [List.foldl_cons, ih, bound_cons]
      split_ifs
      · rfl
      · simp [queryBind]
  subst hq
  exact hfold q.model.fields q

/-- The index of the first placeholder of each of `count` rows of `n`. -/
def starts (n k : ℕ) : ℕ → List ℕ
  | 0 => []
  | count + 1 => k :: starts n (k + n) count

/-- The placeholders of a row. -/
def tupleText (bt : BackendType) (n k : ℕ) : Text :=
  "(".toList ++ commaSep ((List.range' k n).map (placeholderStr bt)) ++ ")".toList

theorem batchRows_succ (hq : q.model = m) (r k : ℕ) (recs : List Record) :
    batchRows bt m (r + 1) k q recs =
      (led ((starts (insertFields m).length k recs.length).map
        (tupleText bt (insertFields m).length)),
        { q with params := q.params ++ recs.flatMap (rowOf m) }) := by
  induction recs generalizing r k q with
  | nil => simp [batchRows, starts, led]
  | cons rec recs ih =>
    rw [batchRows, rowPlaceholders_eq, bindRow_eq hq]
    simp only
    rw [ih (by exact hq), if_pos (by omega)]
    refine Prod.ext ?_ ?_
    · simp [led, starts, tupleText, bound, insertFields]
    · simp

theorem batchRows_eq (hq : q.model = m) (k : ℕ) (recs : List Record) :
    batchRows bt m 0 k q recs =
      (commaSep ((starts (insertFields m).length k recs.length).map
        (tupleText bt (insertFields m).length)),
        { q with params := q.params ++ recs.flatMap (rowOf m) }) := by
  cases recs with
  | nil => simp [batchRows, starts, commaSep]
  | cons rec recs =>
    rw [batchRows, rowPlaceholders_eq, bindRow_eq hq]
    simp only
    rw [batchRows_succ (by exact hq), if_neg (by omega)]
    refine Prod.ext ?_ ?_
    · rw [List.length_cons, starts, List.map_cons, commaSep_cons]
      simp [tupleText, bound, insertFields]
    · simp

/-- **The statement**: the columns of an INSERT, and a tuple for each record. -/
theorem insertBatch_eq (bt : BackendType) (m : Model) (recs : List Record) :
    insertBatch bt m recs =
      ("INSERT INTO ".toList ++ (qident bt m.table ++ (" (".toList ++
        (commaSep ((insertFields m).map fun f => qident bt f.nm) ++ (") VALUES ".toList ++
          commaSep ((starts (insertFields m).length 0 recs.length).map
            (tupleText bt (insertFields m).length)))))),
        recs.flatMap (rowOf m)) := by
  have hm : (queryNew bt m).model = m := rfl
  unfold insertBatch
  rw [batchRows_eq hm, columnList_eq]
  simp [bound, insertFields, queryNew]

/-! ## Its tokens -/

/-- The tokens of the placeholders of a row. -/
def tupleToks (bt : BackendType) (n k : ℕ) : List Tok :=
  .sym '(' :: (valToks bt k n ++ [Tok.sym ')'])

/-- The tokens of the rows. -/
def rowToks (bt : BackendType) (n k count : ℕ) : List Tok :=
  commaToks ((starts n k count).map (tupleToks bt n))

theorem rowToks_succ (bt : BackendType) (n k count : ℕ) : rowToks bt n k (count + 2) =
    tupleToks bt n k ++ .sym ',' :: rowToks bt n (k + n) (count + 1) := rfl

theorem lexPart_tupleText (bt : BackendType) (n k : ℕ) :
    lexPart δ (tupleText bt n k) = some (tupleToks bt n k) := by
  have ho : lexPart δ "(".toList = some [.sym '('] := by cases δ <;> rfl
  have hoi : (Sql.run δ .idle "(".toList).2 = .idle := by cases δ <;> rfl
  have hc : lexPart δ ")".toList = some [.sym ')'] := by cases δ <;> rfl
  have hvals := lexPart_commaSep (δ := δ) (placeholderStr bt) (fun j => [placeholderTok bt j])
    (List.range' k n) fun j _ => lexPart_placeholder (δ := δ) bt j
  have hclose := lexPart_append_some hvals hc (Or.inr ⟨')', [], rfl, rfl⟩)
  rw [tupleText, List.append_assoc]
  exact lexPart_append_some ho hclose (Or.inl hoi)

theorem lex_insertBatch (ht : Ident m.table) (hns : ∀ f ∈ m.fields, Ident f.nm)
    (recs : List Record) : lex δ (insertBatch bt m recs).1 =
      some ([Tok.word "INSERT".toList, .word "INTO".toList, .quoted (quoteOf bt) m.table,
        .sym '('] ++ ((nameToks bt (insertNames m) ++ [Tok.sym ')']) ++
          ([Tok.word "VALUES".toList] ++ rowToks bt (insertFields m).length 0 recs.length))) := by
  have hv : lexPart δ ") VALUES ".toList = some [.sym ')', .word "VALUES".toList] := by cases δ <;> rfl
  have hvi : (Sql.run δ .idle ") VALUES ".toList).2 = .idle := by cases δ <;> rfl
  have hrows : lexPart δ (commaSep ((starts (insertFields m).length 0 recs.length).map
      (tupleText bt (insertFields m).length))) =
        some (rowToks bt (insertFields m).length 0 recs.length) :=
    lexPart_commaSep _ (tupleToks bt (insertFields m).length) _ fun k _ => lexPart_tupleText bt _ k
  have htail := lexPart_append_some hv hrows (Or.inl hvi)
  rw [insertBatch_eq]
  refine (Sql.lex_of_part (lexPart_insertHead ht hns htail)).trans ?_
  simp

theorem plain_values : Sql.Plain [.word "VALUES".toList] := by
  intro j
  simp

/-! ## Its placeholders -/

theorem slots_valToks (h : bt = .postgres ∨ j = k) (n : ℕ) :
    Sql.slots j (valToks bt k n) = (List.range' k n).map some ∧
      (bt = .postgres ∨ j + Sql.marks (valToks bt k n) = k + n) := by
  have hslot (k j : ℕ) (h : bt = .postgres ∨ j = k) :
      Sql.slots j [placeholderTok bt k] = [some k] := by
    cases bt with
    | postgres => rfl
    | mysql => rw [h.resolve_left (by decide)]; rfl
    | sqlite => rw [h.resolve_left (by decide)]; rfl
  have htick (k j : ℕ) (h : bt = .postgres ∨ j = k) :
      bt = .postgres ∨ j + Sql.marks [placeholderTok bt k] = k + 1 := by
    rw [← Sql.foldl_tick]
    exact tick_placeholder h
  induction n generalizing j k with
  | zero => exact ⟨rfl, h⟩
  | succ n ih =>
    cases n with
    | zero => exact ⟨hslot k j h, htick k j h⟩
    | succ n =>
      have he : valToks bt k (n + 2) =
        [placeholderTok bt k] ++ ([Tok.sym ','] ++ valToks bt (k + 1) (n + 1)) := rfl
      have hcomma (i : ℕ) : Sql.slots i [.sym ','] = [] := rfl
      have hcomma' : Sql.marks [.sym ','] = 0 := rfl
      obtain ⟨hs, hm⟩ := ih (htick k j h)
      rw [he, Sql.slots_append, Sql.slots_append, hslot k j h, hcomma, hcomma', Nat.add_zero, hs,
        Sql.marks_append, Sql.marks_append, hcomma', Nat.zero_add]
      refine ⟨rfl, hm.imp_right fun hm => ?_⟩
      omega

theorem slots_tupleToks (h : bt = .postgres ∨ j = k) (n : ℕ) :
    Sql.slots j (tupleToks bt n k) = (List.range' k n).map some ∧
      (bt = .postgres ∨ j + Sql.marks (tupleToks bt n k) = k + n) := by
  obtain ⟨hs, hm⟩ := slots_valToks h n
  have ho : Sql.marks [.sym '('] = 0 := rfl
  have hc : Sql.marks [.sym ')'] = 0 := rfl
  have he : tupleToks bt n k = [Tok.sym '('] ++ (valToks bt k n ++ [Tok.sym ')']) := rfl
  rw [he, Sql.slots_append, Sql.slots_append, Sql.marks_append, Sql.marks_append, ho, hc]
  simp only [Nat.add_zero, Nat.zero_add]
  exact ⟨by rw [hs]; simp [Sql.slots], hm⟩

theorem slots_rowToks (h : bt = .postgres ∨ j = k) (n count : ℕ) :
    Sql.slots j (rowToks bt n k count) = (List.range' k (count * n)).map some := by
  induction count generalizing j k with
  | zero => simp [rowToks, starts, commaToks, Sql.slots]
  | succ count ih =>
    obtain ⟨hs, hm⟩ := slots_tupleToks h n
    cases count with
    | zero =>
      rw [Nat.one_mul]
      exact hs
    | succ count =>
      have hrest : Sql.slots (j + Sql.marks (tupleToks bt n k))
          (.sym ',' :: rowToks bt n (k + n) (count + 1)) = _ := ih hm
      rw [rowToks_succ, Sql.slots_append, hs, hrest, ← List.map_append, List.range'_append_1]
      congr 2
      rw [Nat.succ_mul (count + 1) n, Nat.add_comm]

theorem length_rowOf (m : Model) (rec : Record) :
    (rowOf m rec).length = (insertFields m).length := List.length_map _

/-- **The placeholders of the statement** are those of its parameters, in order. -/
theorem slots_insertBatch (hm : Validated m) (recs : List Record) :
    (lex δ (insertBatch bt m recs).1).map (Sql.slots 0) =
      some ((List.range (insertBatch bt m recs).2.length).map some) := by
  have hns : ∀ f ∈ m.fields, Ident f.nm := fun f hf => hm.ident_nm hf
  have hp := plain_insertHead bt m.table
  have hn := plain_nameToks bt (insertNames m)
  have hlen : (insertBatch bt m recs).2.length = recs.length * (insertFields m).length := by
    rw [insertBatch_eq, List.length_flatMap]
    simp [length_rowOf]
  rw [lex_insertBatch hm.table hns, hlen, Option.map_some, Sql.slots_append_plain hp,
    Sql.slots_append_plain hn, Sql.slots_append_plain plain_values, slots_rowToks (Or.inr rfl),
    List.range_eq_range']

variable {V : Type}

theorem fill_tupleToks (h : bt = .postgres ∨ j = k) {pre vals : List V} (hk : pre.length = k)
    (hne : vals ≠ []) (post : List V) :
    Sql.fill (pre ++ vals ++ post) j (tupleToks bt vals.length k) =
      some (Sql.symItem '(' :: Sql.valItems vals) := by
  rw [tupleToks, Sql.fill_cons]
  show Option.map _ (Sql.fill _ j _) = _
  rw [fill_valToks h hk hne post]
  rfl

theorem fill_rowToks (h : bt = .postgres ∨ j = k) {pre : List V} {rs : List (List V)}
    (hk : pre.length = k) (hrs : ∀ r ∈ rs, r.length = n) (hn : 0 < n) (hne : rs ≠ []) :
    Sql.fill (pre ++ rs.flatten) j (rowToks bt n k rs.length) =
      some (Sql.symItem '(' :: Sql.rowItems rs) := by
  induction rs generalizing pre j k with
  | nil => exact absurd rfl hne
  | cons r rs ih =>
    have hr : r.length = n := hrs r List.mem_cons_self
    have hr' : r ≠ [] := by
      rintro rfl
      exact Nat.ne_of_lt hn hr
    have hone := fill_tupleToks h hk hr' rs.flatten
    rw [hr, List.append_assoc] at hone
    cases rs with
    | nil => exact hone
    | cons r' rs =>
      obtain ⟨-, hm⟩ := slots_tupleToks h n
      have hk' : (pre ++ r).length = k + n := by
        rw [List.length_append, hk, hr]
      have hrest := ih hm hk' (fun x hx => hrs x (List.mem_cons_of_mem _ hx)) (by simp)
      rw [List.append_assoc] at hrest
      have hcomma : Sql.fill (pre ++ (r ++ (r' :: rs).flatten))
          (j + Sql.marks (tupleToks bt n k)) (.sym ',' :: rowToks bt n (k + n) (r' :: rs).length) =
            some (Sql.symItem ',' :: Sql.symItem '(' :: Sql.rowItems (r' :: rs)) := by
        rw [Sql.fill_cons]
        show Option.map _ (Sql.fill _ (j + Sql.marks (tupleToks bt n k)) _) = _
        rw [hrest]
        rfl
      rw [List.length_cons, List.length_cons, rowToks_succ]
      exact Sql.fill_append_some hone hcomma

/-- **The statement inserts the values of each record**, in turn. -/
theorem readInserts_insertBatch (hm : Validated m) (hne : insertFields m ≠ []) (hrecs : recs ≠ []) :
    Sql.readInserts δ (insertBatch bt m recs).1 (insertBatch bt m recs).2 =
      some (recs.map fun rec => .insert m.table (insertNames m) (rowOf m rec)) := by
  have hns : ∀ f ∈ m.fields, Ident f.nm := fun f hf => hm.ident_nm hf
  have hnames : insertNames m ≠ [] := mt List.map_eq_nil_iff.mp hne
  have hp := plain_insertHead bt m.table
  have hvals : (insertBatch bt m recs).2 = (recs.map (rowOf m)).flatten := by
    rw [insertBatch_eq]
    exact List.flatMap_def
  have hlen : ∀ r ∈ recs.map (rowOf m), r.length = (insertFields m).length := by
    intro r hr
    obtain ⟨rec, -, rfl⟩ := List.mem_map.mp hr
    exact length_rowOf m rec
  have hrows : Sql.fill ([] ++ (recs.map (rowOf m)).flatten) 0
      (rowToks bt (insertFields m).length 0 (recs.map (rowOf m)).length) = _ :=
    fill_rowToks (Or.inr rfl) rfl hlen (List.length_pos_iff.mpr hne)
      (mt List.map_eq_nil_iff.mp hrecs)
  rw [List.nil_append, List.length_map] at hrows
  have hparse := Sql.parse_inserts (quoteOf_ne bt) m.table hnames
    (mt List.map_eq_nil_iff.mp hrecs) fun r hr => by
      rw [hlen r hr]
      exact List.length_map _
  unfold Sql.readInserts
  rw [lex_insertBatch hm.table hns, hvals]
  show (Sql.fill _ 0 _).bind _ = _
  rw [fill_append_plain hp, fill_append_plain (plain_nameToks bt _), fill_append_plain plain_values, hrows,
    nameToks_items bt hnames]
  rw [List.map_map] at hparse
  exact hparse

end Corm
