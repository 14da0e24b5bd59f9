import Corm.Dbms
import Corm.Placeholders.Update
import Corm.Reading.Where

/-!
# Pages of a result

The LIMIT and the OFFSET that `corm_build_sql` writes, over any meaning of the rest of a SELECT.

* `unpaged`, `OwnLimit`, `EndsInComment`: a query without limit and offset, whose texts may have a
  LIMIT themselves, or end in a comment, or in the `;` of SQLite;
* `limitToks`, `windowOf`: how the clause is read;
* `readSelect_built`, `readSelect_own`, `readSelect_comment`: how the statement is read;
* `page`, `Paginates`: the rows that a limit and an offset leave, and a query that returns them;
* **`paginates_iff`**: when a query does.
-/

namespace Corm

open Sql (Tok Window lex lexPart lexPart_append_some readSelect readWindow upTo isTail)

variable {V R α : Type} {δ : Sql.Dialect} {q : Query} {a : Text} {ts : List Tok} {vs : List V}
  {rows : List R}

/-- The query without limit and offset. -/
def unpaged (q : Query) : Query := { q with limit := 0, offset := 0 }

/-- The texts of the caller have a LIMIT outside of all parentheses. -/
def OwnLimit (q : Query) : Prop :=
  ∃ ts r, lex q.bt.dialect (buildSelect (unpaged q)) = some ts ∧ upTo isTail 0 ts = some r ∧ r.2 ≠ []

/-- The texts of the caller end in a comment that goes on behind them, or, on SQLite, have a `;`, behind
which nothing is read. -/
def EndsInComment (q : Query) : Prop := lexPart q.bt.dialect (buildSelect (unpaged q)) = none

instance (q : Query) : Decidable (EndsInComment q) := inferInstanceAs (Decidable (_ = none))

/-! ## The clause -/

/-- The tokens of the clause. -/
def limitToks (q : Query) : List Tok :=
  if 0 < q.limit ∨ 0 < q.offset then
    .word "LIMIT".toList :: (Sql.numberToks q.limit ++
      if 0 < q.offset then .word "OFFSET".toList :: Sql.numberToks q.offset else [])
  else []

/-- The clause as it is read. -/
def windowOf (q : Query) : Window :=
  if 0 < q.limit ∨ 0 < q.offset then ⟨some q.limit, if 0 < q.offset then q.offset else 0⟩
  else ⟨none, 0⟩

theorem readWindow_limitToks (q : Query) : readWindow (limitToks q) = some (windowOf q) := by
  unfold limitToks windowOf
  split_ifs
  · exact Sql.readWindow_offset q.limit q.offset
  · rw [List.append_nil]
    exact Sql.readWindow_limit q.limit
  · rfl

theorem lexPart_append_limitText (h : lexPart δ a = some ts) (q : Query) :
    lexPart δ (a ++ limitText q) = some (ts ++ limitToks q) := by
  have hl : lexPart δ " LIMIT ".toList = some [.word "LIMIT".toList] := by cases δ <;> rfl
  have hli : (Sql.run δ .idle " LIMIT ".toList).2 = .idle := by cases δ <;> rfl
  have ho : lexPart δ " OFFSET ".toList = some [.word "OFFSET".toList] := by
    cases δ <;> rfl
  have hoi : (Sql.run δ .idle " OFFSET ".toList).2 = .idle := by cases δ <;> rfl
  have hlimit := lexPart_append_some hl (lexPart_int q.limit) (Or.inl hli)
  have hoffset := lexPart_append_some ho (lexPart_int q.offset) (Or.inl hoi)
  unfold limitText limitToks
  split_ifs
  · have hboth := lexPart_append_some hlimit hoffset (joins_blank _ _)
    rw [List.append_assoc, List.append_assoc] at hboth
    rw [List.append_assoc]
    exact lexPart_append_some h hboth (joins_blank a _)
  · rw [List.append_nil, List.append_nil]
    exact lexPart_append_some h hlimit (joins_blank a _)
  · rw [List.append_nil, List.append_nil, h]

theorem mem_int {z : ℤ} {c : Char} (h : c ∈ (toString z).toList) : c = '-' ∨ c.isDigit = true := by
  have hdigit {n : ℕ} (hn : c ∈ Nat.toDigits 10 n) : c.isDigit = true :=
    Nat.isDigit_of_mem_toDigits (by decide) (by decide) hn
  cases z with
  | ofNat n => exact Or.inr (hdigit (toList_ofNat n ▸ h))
  | negSucc n => exact (List.mem_cons.mp (toList_negSucc n ▸ h)).imp_right hdigit

theorem swallowed_limitText (q : Query) : Sql.Swallowed (limitText q) where
  blank := by
    unfold limitText
    split_ifs <;> simp [Sql.isBlank]
  stays := by
    intro c hc
    have hint {z : ℤ} (h : c ∈ (toString z).toList) : c ≠ '\n' ∧ c ≠ '*' ∧ c ≠ '/' := by
      rcases mem_int h with rfl | h
      · decide
      · refine ⟨?_, ?_, ?_⟩ <;> rintro rfl <;> cases h
    have hword {w : Text} (hw : w = " LIMIT ".toList ∨ w = " OFFSET ".toList) (h : c ∈ w) :
        c ≠ '\n' ∧ c ≠ '*' ∧ c ≠ '/' := by
      have hall : (w.all fun c => c ≠ '\n' ∧ c ≠ '*' ∧ c ≠ '/') = true := by
        rcases hw with rfl | rfl <;> decide
      exact of_decide_eq_true (List.all_eq_true.mp hall c h)
    unfold limitText at hc
    split_ifs at hc
    · simp only [List.mem_append] at hc
      rcases hc with (hc | hc) | hc | hc
      exacts [hword (Or.inl rfl) hc, hint hc, hword (Or.inr rfl) hc, hint hc]
    · simp only [List.mem_append, List.not_mem_nil, or_false] at hc
      exact hc.elim (hword (Or.inl rfl)) hint
    · cases hc

theorem buildSelect_limit (q : Query) : buildSelect q = buildSelect (unpaged q) ++ limitText q := by
  have hnil : limitText (unpaged q) = [] := rfl
  unfold buildSelect
  rw [hnil, List.append_nil]
  rfl

/-- What is read, and does not end in a comment, is a part of the statement. -/
theorem part_of_not_comment (hend : ¬ EndsInComment q)
    (h : lex q.bt.dialect (buildSelect (unpaged q)) = some ts) :
    lexPart q.bt.dialect (buildSelect (unpaged q)) = some ts := by
  obtain ⟨us, hus⟩ := Option.ne_none_iff_exists'.mp hend
  rw [hus, ← h, Sql.lex_of_part hus]

/-! ## The statement -/

variable {body : List V → List Tok → Option α}

theorem readSelect_eq_some {text : Text} {x : α} {w : Window}
    (h : readSelect δ body text vs = some (x, w)) :
    ∃ ts r, lex δ text = some ts ∧ upTo isTail 0 ts = some r ∧ readWindow r.2 = some w ∧
      body vs r.1 = some x := by
  obtain ⟨ts, hts, h⟩ := Option.bind_eq_some_iff.mp h
  obtain ⟨p, hp, h⟩ := Option.bind_eq_some_iff.mp h
  obtain ⟨r, hr, hw⟩ := Option.bind_eq_some_iff.mp hp
  obtain ⟨w', hw', rfl⟩ := Option.map_eq_some_iff.mp hw
  obtain ⟨x', hx', he⟩ := Option.map_eq_some_iff.mp h
  cases he
  exact ⟨ts, r, hts, hr, hw', hx'⟩

theorem windowed_append_limitToks (h : Sql.Closed isTail ts) (q : Query) :
    Sql.windowed (ts ++ limitToks q) = some (ts, windowOf q) := by
  have hall : upTo isTail 0 (ts ++ limitToks q) = some (ts, limitToks q) := by
    unfold limitToks
    split_ifs
    · exact h.upTo_append (by decide) _
    · exact h.upTo_append (by decide) _
    · rw [List.append_nil]
      exact h
  rw [Sql.windowed, hall, Option.bind_some, readWindow_limitToks]
  rfl

/-- Without a LIMIT in the texts of the caller, the statement has the clause of the query. -/
theorem readSelect_built {x : α} {w : Window} (hown : ¬ OwnLimit q) (hend : ¬ EndsInComment q)
    (h : readSelect q.bt.dialect body (buildSelect (unpaged q)) vs = some (x, w)) :
    w = ⟨none, 0⟩ ∧ readSelect q.bt.dialect body (buildSelect q) vs = some (x, windowOf q) := by
  obtain ⟨ts, ⟨pre, rest⟩, hts, hr, hw, hx⟩ := readSelect_eq_some h
  obtain rfl : rest = [] := by
    by_contra hne
    exact hown ⟨ts, _, hts, hr, hne⟩
  refine ⟨(Option.some.inj hw).symm, ?_⟩
  obtain rfl : pre = ts := by
    have hnil := Sql.upTo_append hr []
    rw [List.append_nil, hr] at hnil
    simpa [upTo] using hnil
  have hlex := Sql.lex_of_part (lexPart_append_limitText (part_of_not_comment hend hts) q)
  rw [readSelect, buildSelect_limit, hlex, Option.bind_some, windowed_append_limitToks hr,
    Option.bind_some, hx]
  rfl

theorem readSelect_own (hown : OwnLimit q) (hend : ¬ EndsInComment q)
    (hl : 0 < q.limit ∨ 0 < q.offset) :
    readSelect q.bt.dialect body (buildSelect q) vs = none := by
  obtain ⟨ts, ⟨pre, rest⟩, hts, hr, hne⟩ := hown
  obtain ⟨t, rest, rfl⟩ := List.exists_cons_of_ne_nil hne
  have hlex := Sql.lex_of_part (lexPart_append_limitText (part_of_not_comment hend hts) q)
  rw [readSelect, buildSelect_limit, hlex, Option.bind_some, Sql.windowed,
    Sql.upTo_append_stop hr, Option.bind_some, limitToks, if_pos hl, Sql.readWindow_twice t]
  rfl

theorem readSelect_comment (hend : EndsInComment q)
    (h : lex q.bt.dialect (buildSelect (unpaged q)) = some ts) :
    readSelect q.bt.dialect body (buildSelect q) vs =
      readSelect q.bt.dialect body (buildSelect (unpaged q)) vs := by
  rw [readSelect, readSelect, buildSelect_limit, h,
    Sql.lex_append_comment h hend (swallowed_limitText q)]

/-! ## The rows -/

/-- The rows after the first `offset`, and of these `limit`, when it is not 0. -/
def page (limit offset : ℤ) (rows : List R) : List R :=
  if 0 < limit then (rows.drop offset.toNat).take limit.toNat else rows.drop offset.toNat

/-- The rows that the SELECT of a query returns. -/
def selectRows (body : List V → List Tok → Option (List R)) (q : Query) (vs : List V) :
    Option (List R) :=
  (readSelect q.bt.dialect body (buildSelect q) vs).map fun r => r.2.apply r.1

/-- The query for the page with index `i`, of `k` rows. -/
def pageQuery (q : Query) (k i : ℕ) : Query := { q with limit := k, offset := (i * k : ℕ) }

/-- A query returns the page of its limit and offset, and the pages of every size make up the
result. -/
structure Paginates (body : List V → List Tok → Option (List R)) (q : Query) (vs : List V)
    (rows : List R) : Prop where
  page : selectRows body q vs = some (page q.limit q.offset rows)
  pages : ∀ k : ℕ, 1 ≤ k → ∀ n : ℕ, rows.length ≤ n * k →
    ∃ ps, ((List.range n).mapM fun i => selectRows body (pageQuery q k i) vs) = some ps ∧
      ps.flatten = rows

variable {body : List V → List Tok → Option (List R)}

/-- Without a LIMIT in the texts of the caller: the rows are those that the clause lets through. -/
theorem selectRows_built (hown : ¬ OwnLimit q) (hend : ¬ EndsInComment q)
    (h : selectRows body (unpaged q) vs = some rows) :
    selectRows body q vs = some ((windowOf q).apply rows) := by
  obtain ⟨⟨x, w⟩, hr, rfl⟩ := Option.map_eq_some_iff.mp h
  obtain ⟨rfl, hq⟩ := readSelect_built hown hend hr
  rw [selectRows, hq]
  rfl

theorem selectRows_own (hown : OwnLimit q) (hend : ¬ EndsInComment q)
    (hl : 0 < q.limit ∨ 0 < q.offset) : selectRows body q vs = none := by
  rw [selectRows, readSelect_own hown hend hl]
  rfl

theorem selectRows_comment (hend : EndsInComment q) (h : selectRows body (unpaged q) vs = some rows) :
    selectRows body q vs = some rows := by
  obtain ⟨⟨x, w⟩, hr, -⟩ := Option.map_eq_some_iff.mp h
  obtain ⟨ts, -, hts, -⟩ := readSelect_eq_some hr
  rw [selectRows, readSelect_comment hend hts]
  exact h

/-- What the clause lets through: nothing, where there is an offset and no limit. -/
theorem apply_windowOf (hlimit : 0 ≤ q.limit) (hoffset : 0 ≤ q.offset) (rows : List R) :
    (windowOf q).apply rows =
      if q.limit = 0 ∧ 0 < q.offset then [] else page q.limit q.offset rows := by
  by_cases hclause : 0 < q.limit ∨ 0 < q.offset
  · have ho : (if 0 < q.offset then q.offset else 0) = q.offset := by split_ifs <;> omega
    have hw : (windowOf q).apply rows = (rows.drop q.offset.toNat).take q.limit.toNat := by
      rw [windowOf, if_pos hclause, ho]
      exact if_pos hlimit
    rw [hw, page]
    by_cases hl : 0 < q.limit
    · rw [if_pos hl, if_neg (by omega)]
    · have hl0 : q.limit = 0 := by omega
      rw [hl0, if_pos ⟨rfl, hclause.resolve_left hl⟩]
      rfl
  · have hl0 : q.limit = 0 := by omega
    have ho0 : q.offset = 0 := by omega
    rw [windowOf, if_neg hclause, page, hl0, ho0]
    rfl

theorem page_of_le {n m : ℤ} (h : rows.length ≤ m) : page n m rows = [] := by
  have hdrop : rows.drop m.toNat = [] := List.drop_of_length_le (by omega)
  unfold page
  rw [hdrop, List.take_nil, ite_self]

theorem selectRows_page (hown : ¬ OwnLimit q) (hend : ¬ EndsInComment q)
    (h : selectRows body (unpaged q) vs = some rows) {k : ℕ} (hk : 1 ≤ k) (i : ℕ) :
    selectRows body (pageQuery q k i) vs = some ((rows.drop (i * k)).take k) := by
  have hlimit : (pageQuery q k i).limit = k := rfl
  have hoffset : (pageQuery q k i).offset = (i * k : ℕ) := rfl
  have hown' : ¬ OwnLimit (pageQuery q k i) := hown
  have hend' : ¬ EndsInComment (pageQuery q k i) := hend
  rw [selectRows_built hown' hend' h, apply_windowOf (by omega) (by omega), if_neg (by omega), page,
    if_pos (by omega), hlimit, hoffset, Int.toNat_natCast, Int.toNat_natCast]

/-- **The pages of one size** make up the result. -/
theorem pages_flatten (hown : ¬ OwnLimit q) (hend : ¬ EndsInComment q)
    (h : selectRows body (unpaged q) vs = some rows) {k n : ℕ} (hk : 1 ≤ k)
    (hn : rows.length ≤ n * k) :
    ∃ ps, ((List.range n).mapM fun i => selectRows body (pageQuery q k i) vs) = some ps ∧
      ps.flatten = rows := by
  refine ⟨(List.range n).map fun i => (rows.drop (i * k)).take k, ?_, ?_⟩
  · rw [Sql.mapM_eq_some_iff, List.map_map]
    exact List.map_congr_left fun i _ => selectRows_page hown hend h hk i
  · rw [Sql.flatten_pages, List.take_of_length_le hn]

/-- Behind a comment every page is the whole result, which is that of the pages only if it is empty. -/
theorem paginates_comment (hend : EndsInComment q) (hrows : selectRows body (unpaged q) vs = some rows) :
    Paginates body q vs rows ↔ rows = [] := by
  have hpage (k i : ℕ) : selectRows body (pageQuery q k i) vs = some rows :=
    selectRows_comment (q := pageQuery q k i) hend hrows
  have hall (k n : ℕ) : ((List.range n).mapM fun i => selectRows body (pageQuery q k i) vs) =
      some (List.replicate n rows) := by
    rw [Sql.mapM_eq_some_iff]
    simp [hpage, List.map_const']
  constructor
  · rintro ⟨-, hpages⟩
    obtain ⟨ps, hps, hflat⟩ := hpages 1 le_rfl (rows.length + 2) (by omega)
    obtain rfl := Option.some.inj ((hall 1 _).symm.trans hps)
    rw [List.replicate_succ, List.flatten_cons, List.append_right_eq_self] at hflat
    exact List.flatten_eq_nil_iff.mp hflat rows (by simp)
  · rintro rfl
    refine ⟨?_, fun k _ n _ => ⟨_, hall k n, ?_⟩⟩
    · rw [selectRows_comment hend hrows]
      simp [page]
    · simp

/-- **When a SELECT returns its page**, and its pages make up the result: exactly when the texts of
the caller have no LIMIT of their own, and there is a limit, or no offset, or no row after it; behind
a comment that the texts end in, or a `;` on SQLite, exactly when there are no rows. -/
theorem paginates_iff (hlimit : 0 ≤ q.limit) (hoffset : 0 ≤ q.offset)
    (hrows : selectRows body (unpaged q) vs = some rows) :
    Paginates body q vs rows ↔ if EndsInComment q then rows = [] else
      ¬ OwnLimit q ∧ (0 < q.limit ∨ q.offset = 0 ∨ rows.length ≤ q.offset) := by
  split_ifs with hend
  · exact paginates_comment hend hrows
  constructor
  · rintro ⟨hpage, hpages⟩
    have hown : ¬ OwnLimit q := by
      intro hown
      obtain ⟨ps, hps, -⟩ := hpages 1 le_rfl (rows.length + 1) (by omega)
      have hown' : OwnLimit (pageQuery q 1 0) := hown
      have hend' : ¬ EndsInComment (pageQuery q 1 0) := hend
      have hnone : selectRows body (pageQuery q 1 0) vs = none :=
        selectRows_own hown' hend' (Or.inl Int.one_pos)
      rw [List.range_succ_eq_map, List.mapM_cons, hnone] at hps
      cases hps
    refine ⟨hown, ?_⟩
    rw [selectRows_built hown hend hrows, apply_windowOf hlimit hoffset] at hpage
    by_contra! hnot
    rw [if_pos (by omega), page, if_neg (by omega)] at hpage
    have hdrop := List.drop_eq_nil_iff.mp (Option.some.inj hpage).symm
    omega
  · rintro ⟨hown, hcases⟩
    refine ⟨?_, fun k hk n hn => pages_flatten hown hend hrows hk hn⟩
    rw [selectRows_built hown hend hrows, apply_windowOf hlimit hoffset]
    split_ifs with h
    · rw [page_of_le (by omega)]
    · rfl

/-! ## The second user -/

/-- The rows of a SELECT on one table. -/
def tableBody (D : Dbms V) (db : Sql.Database V) (vs : List V) (ts : List Tok) :
    Option (List (Sql.Row V)) :=
  (Sql.fill vs 0 ts).bind fun is => (Sql.parseStmt is).bind (D.engine.select db)

/-- A user with a name. -/
def namedUser (name : String) : Sql.Row (Option Text) := fun c =>
  if c = "name".toList then some name.toList else none

/-- Two users. -/
def twoUsers : List (Sql.Row (Option Text)) := [namedUser "Ada", namedUser "Bob"]

/-- The query for the users after the first one. -/
def afterFirst : Query := { queryNew .sqlite testUserModel with offset := 1 }

theorem tableBody_twoUsers :
    tableBody textDbms (oneTable "test_users".toList twoUsers).db []
      (selectToks .sqlite "test_users".toList) = some twoUsers := by
  have hstmt : (Sql.fill [] 0 (selectToks .sqlite "test_users".toList)).bind Sql.parseStmt =
      some (.select (V := Option Text) "test_users".toList none) := by
    decide +kernel
  rw [tableBody, ← Option.bind_assoc, hstmt, Option.bind_some]
  show some ((oneTable "test_users".toList twoUsers).db "test_users".toList |>.filter _) = _
  rw [oneTable_self]
  rfl

theorem selectRows_twoUsers :
    selectRows (tableBody textDbms (oneTable "test_users".toList twoUsers).db) (unpaged afterFirst)
      [] = some twoUsers := by
  have hread : (lex (unpaged afterFirst).bt.dialect (buildSelect (unpaged afterFirst))).bind
      Sql.windowed = some (selectToks .sqlite "test_users".toList, ⟨none, 0⟩) := by
    decide +kernel
  rw [selectRows, readSelect, ← Option.bind_assoc, hread, Option.bind_some, tableBody_twoUsers]
  rfl

/-- The second user is not returned. -/
theorem paginates_loses_bob :
    ¬ Paginates (tableBody textDbms (oneTable "test_users".toList twoUsers).db) afterFirst []
      twoUsers := by
  intro h
  have hread : (lex afterFirst.bt.dialect (buildSelect afterFirst)).bind Sql.windowed =
      some (selectToks .sqlite "test_users".toList, ⟨some 0, 1⟩) := by
    decide +kernel
  have hnone : selectRows (tableBody textDbms (oneTable "test_users".toList twoUsers).db)
      afterFirst [] = some [] := by
    rw [selectRows, readSelect, ← Option.bind_assoc, hread, Option.bind_some, tableBody_twoUsers]
    rfl
  have hlen := congrArg (Option.map List.length) (hnone.symm.trans h.page)
  exact absurd hlen (by decide)

theorem paginates_iff_afterFirst :
    Paginates (tableBody textDbms (oneTable "test_users".toList twoUsers).db) afterFirst []
        twoUsers ↔ if EndsInComment afterFirst then twoUsers = [] else ¬ OwnLimit afterFirst ∧
      (0 < afterFirst.limit ∨ afterFirst.offset = 0 ∨ twoUsers.length ≤ afterFirst.offset) :=
  paginates_iff (by decide) (by decide) selectRows_twoUsers

end Corm
