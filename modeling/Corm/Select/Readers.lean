import Corm.Select.Count

/-!
# Counting, finding one, finding all

`corm_count`, `corm_find_one` and `corm_find_all` with the same condition.

* `whereQuery`, `findOne`, `countRows`: the functions;
* `EachRow`: `*` lists the rows, one by one;
* `find_star`, `first_star`, `count_star`: the rows of a plan through the three of them;
* `mem_copyRows`: each row is copied into a record;
* **`readers_agree`**: the count is the number of records that are found, and the one record is one
  of them.
-/

namespace Corm

open Sql (Tok Item Row Engine Window Clauses readSelect)

/-! ## The functions -/

/-- The query of a condition. -/
def whereQuery (bt : BackendType) (m : Model) : Option Text → Query
  | some w => queryWhere (queryNew bt m) w
  | none => queryNew bt m

section Functions

variable {σ : Type} (b : Backend σ Result) (s : σ) (m : Model) (where_ : Option Text)

/-- `corm_find_one`: its result and the record, and the state. -/
def findOne (record : Record) : Option (Err × Record) × σ :=
  let r := first b s (whereQuery b.type m where_) record
  (r.1, r.2.2)

/-- `corm_count`: its result and `*count`, and the state. -/
def countRows : Option (Err × ℤ) × σ :=
  let q := querySelect (queryNew b.type m) "COUNT(*)".toList
  let q := match where_ with
    | some w => queryWhere q w
    | none => q
  match find b s q with
  | (.ok, some res, _, s) =>
    match res.rows with
    | [] => (some (.ok, 0), s)
    | row :: _ => ((firstColumn res row).map fun n => (.ok, n.toInt32.toInt), s)
  | (.ok, none, _, s) => (some (.ok, 0), s)
  | (err, _, _, s) => (some (err, 0), s)

theorem countRows_eq : (countRows b s m where_).1 =
    (queryCount b s (whereQuery b.type m where_)).1.map fun r =>
      (r.1, ((r.2.getD 0).toInt32).toInt) := by
  have hquery : (match where_ with
      | some w => queryWhere (querySelect (queryNew b.type m) "COUNT(*)".toList) w
      | none => querySelect (queryNew b.type m) "COUNT(*)".toList) =
      { whereQuery b.type m where_ with selectCols := "COUNT(*)".toList } := by
    cases where_ <;> rfl
  unfold countRows queryCount
  simp only [hquery]
  rcases find b s { whereQuery b.type m where_ with selectCols := "COUNT(*)".toList } with
    ⟨err, out, q, s'⟩
  cases err with
  | ok =>
    cases out with
    | none => rfl
    | some res =>
      simp only
      cases res.rows with
      | nil => rfl
      | cons row rows =>
        simp only
        cases firstColumn res row <;> rfl
  | _ => rfl

theorem findAll_eq (records : Option (List Record)) (count : Option ℤ) :
    findAll b s m where_ records count =
      match find b s (whereQuery b.type m where_) with
      | (.ok, some res, _, s) =>
        let n := copyCount count res.rows.length
        let done := fun records => (Err.ok, records, count.map fun _ => (n : ℤ), s)
        match records with
        | some records => (copyRows m res (res.rows.take n) records).map fun r => done (some r)
        | none => some (done none)
      | (.ok, none, _, s) => some (.ok, records, count, s)
      | (err, _, _, s) => some (err, records, count, s) := by
  unfold findAll
  cases where_ <;> rfl

end Functions

/-! ## The rows of a plan -/

variable {V : Type} {bt : BackendType} {D : Dbms V} {L : Listing V} {s s' : Store V} {m : Model}
  {where_ : Option Text} {cs ws os : List Tok} {p : Plan V} {vs : List V} {res : Result}
  {record : Record}

/-- `SELECT *` has a row for each row of the table. -/
def Listing.EachRow (L : Listing V) : Prop :=
  ∀ cols, L.columns [.tok (.word ['*'])] = some cols → ∃ cells, cols.cells = .each cells

/-- The query that `corm_first` runs. -/
def firstQuery (q : Query) : Query := { q with limit := 1, offset := 0 }

theorem find_firstQuery (q : Query) : findQuery (firstQuery q) = firstQuery (findQuery q) := by
  rw [findQuery_eq, findQuery_eq]
  rfl

theorem findQuery_where (bt : BackendType) (m : Model) (where_ : Option Text) :
    OneTable (findQuery (whereQuery bt m where_)) ∧
    (findQuery (whereQuery bt m where_)).model = m ∧
    (findQuery (whereQuery bt m where_)).params = [] ∧
    (findQuery (whereQuery bt m where_)).selectCols = [] ∧
    (findQuery (whereQuery bt m where_)).distinct = false ∧
    (findQuery (whereQuery bt m where_)).order = [] := by
  rw [findQuery_eq]
  cases where_ <;> exact ⟨⟨rfl, rfl, rfl⟩, rfl, rfl, rfl, rfl, rfl⟩

theorem bt_where (bt : BackendType) (m : Model) (where_ : Option Text) :
    (whereQuery bt m where_).bt = bt := by cases where_ <;> rfl

theorem unpaged_where (bt : BackendType) (m : Model) (where_ : Option Text) :
    unpaged (whereQuery bt m where_) = whereQuery bt m where_ := by cases where_ <;> rfl

/-- The plan has no DISTINCT, and its cells are those of each row, in the order of a window. -/
theorem plan_star (hL : L.EachRow) (h : InClauses (findQuery (whereQuery bt m where_)) cs ws os)
    (hp : L.plan D.engine s.db vs (selectClauses (findQuery (whereQuery bt m where_)) cs ws os) =
      some p) : ∃ cells : List (Fin p.columns.count → Value), cells.length = p.rows.length ∧
        ∀ w, (p.cells L.same w).Perm cells := by
  obtain ⟨-, -, -, hcols, hdistinct, -⟩ := findQuery_where bt m where_
  obtain ⟨cols, cond, order, columns, keep, hfill, -, -, hcolumns, -, -, rfl⟩ :=
    Listing.plan_eq_some hp
  obtain rfl : cs = [Tok.word ['*']] := by
    have hlex := h.cols
    have hstar (δ : Sql.Dialect) : Sql.lexPart δ "*".toList = some [.word ['*']] := by
      cases δ <;> rfl
    rw [selectList, if_pos hcols] at hlex
    exact Option.some.inj (hlex.symm.trans (hstar _))
  have hsplit : Sql.splitDistinct (distinctToks (findQuery (whereQuery bt m where_)) ++
      [Tok.word ['*']]) = (false, [.word ['*']]) := by
    rw [distinctToks, hdistinct]
    decide
  unfold selectClauses at hfill
  simp only [hsplit] at hfill
  obtain rfl : [.tok (.word ['*'])] = cols := Option.some.inj hfill
  obtain ⟨cells, hcells⟩ := hL columns hcolumns
  unfold Plan.cells selectClauses
  simp only [hsplit, hcells]
  exact ⟨_, List.length_map _, fun w => ((Sorter.perm _ _).map _)⟩

theorem fillRecord_cons (res : Result) (row : Fin res.columnCount → Value) (f : Field)
    (fs : List Field) (record : Record) : fillRecord res row (f :: fs) record =
      ((res.value row f.nm).elim (some record) (fieldSetValue record f)).bind
        (fillRecord res row fs) := by
  rw [fillRecord]
  cases res.value row f.nm <;> rfl

theorem fillRecord_window (p : Plan V) (same : Value → Value → Bool) (w w' : Window)
    (row : Fin p.columns.count → Value) (fs : List Field) (record : Record) :
    fillRecord (p.result same w) row fs record = fillRecord (p.result same w') row fs record := by
  induction fs generalizing record with
  | nil => rfl
  | cons f fs ih =>
    calc fillRecord (p.result same w) row (f :: fs) record
        = _ := fillRecord_cons (p.result same w) row f fs record
      _ = _ := Option.bind_congr fun record _ => ih record
      _ = _ := (fillRecord_cons (p.result same w') row f fs record).symm

/-- **`corm_find_all`** that succeeds has a plan, and copies its rows. -/
theorem find_star (ht : Ident m.table)
    (h : InClauses (findQuery (whereQuery bt m where_)) cs ws os) {records out : List Record} {n : ℤ}
    (hall : findAll (selectBackend bt D L) s m where_ (some records) (some 0) =
      some (.ok, some out, some n, s')) :
    ∃ p : Plan V,
      L.plan D.engine s.db [] (selectClauses (findQuery (whereQuery bt m where_)) cs ws os) =
        some p ∧
      n = (p.cells L.same ⟨none, 0⟩).length ∧
      copyRows m (p.result L.same ⟨none, 0⟩) (p.cells L.same ⟨none, 0⟩) records = some out := by
  obtain ⟨hq, hmodel, hparams, -, -, -⟩ := findQuery_where bt m where_
  have hbt := bt_where bt m where_
  rw [findAll_eq] at hall
  rcases hfind : find (selectBackend bt D L) s (whereQuery bt m where_) with ⟨err, found, q, s₁⟩
  have hback : (selectBackend bt D L).type = bt := rfl
  rw [hback, hfind] at hall
  cases found with
  | none =>
    -- without a result, the backend has refused the statement
    rw [find_answer hbt] at hfind
    cases hanswer : ((whereQuery bt m where_).params.mapM D.bind).bind
        (L.answer D.engine (whereQuery bt m where_).bt.dialect s.db
          (buildSelect (findQuery (whereQuery bt m where_)))) with
    | none =>
      rw [hanswer] at hfind
      cases hfind
      cases hall
    | some res =>
      rw [hanswer] at hfind
      cases hfind
  | some res =>
    have hsome : (find (selectBackend bt D L) s (whereQuery bt m where_)).2.1 = some res := by
      rw [hfind]
    have hok := find_of_some hbt hsome
    rw [hfind] at hok
    cases hok
    have hplan := hfind
    rw [← unpaged_where] at hplan
    obtain ⟨vs, p, hvs, hp, rfl⟩ := find_plan hbt hq (by rw [hmodel]; exact ht) h hplan
    have hnone : (whereQuery bt m where_).params = [] := by cases where_ <;> rfl
    rw [hnone] at hvs
    obtain rfl := Option.some.inj hvs
    obtain ⟨out', hcopy, heq⟩ := Option.map_eq_some_iff.mp hall
    cases heq
    have hcopy' : copyRows m (p.result L.same ⟨none, 0⟩)
        ((p.result L.same ⟨none, 0⟩).rows.take (p.cells L.same ⟨none, 0⟩).length) records =
      some out := hcopy
    have htake : (p.result L.same ⟨none, 0⟩).rows.take (p.cells L.same ⟨none, 0⟩).length =
        p.cells L.same ⟨none, 0⟩ := List.take_length
    rw [htake] at hcopy'
    exact ⟨p, hp, rfl, hcopy'⟩

/-- **`corm_count`** stores the number of the rows. -/
theorem count_star (ht : Ident m.table)
    (h : InClauses (findQuery (whereQuery bt m where_)) cs ws os)
    (hp : L.plan D.engine s.db [] (selectClauses (findQuery (whereQuery bt m where_)) cs ws os) =
      some p) (hsize : p.rows.length < 2 ^ 31) :
    (countRows (selectBackend bt D L) s m where_).1 = some (Err.ok, (p.rows.length : ℤ)) := by
  obtain ⟨hq, hmodel, hparams, -, -, horder⟩ := findQuery_where bt m where_
  have hnone : (whereQuery bt m where_).params.mapM D.bind = some [] := by cases where_ <;> rfl
  have hoffset : (whereQuery bt m where_).offset = 0 := by cases where_ <;> rfl
  obtain ⟨p', hp'⟩ := count_plan_unordered horder h hp
  have hcount : (queryCount (selectBackend bt D L) s (whereQuery bt m where_)).1 =
      some (.ok, some (Int64.ofNat p.rows.length)) := by
    rw [queryCount_eq (bt_where bt m where_) hq (by rw [hmodel]; exact ht) h hnone hp, hp',
      Option.elim_some, hoffset, if_neg (lt_irrefl _)]
  have hback : (selectBackend bt D L).type = bt := rfl
  rw [countRows_eq, hback, hcount, Option.map_some]
  have hint : (Int64.ofNat p.rows.length).toInt32.toInt = p.rows.length := by
    rw [Int64.toInt32_ofNat', Int32.toInt_ofNat_of_lt hsize]
  simp only [Option.getD_some, hint]

/-- **`corm_find_one`** maps the first of the rows, in the order of its own statement. -/
theorem first_star (ht : Ident m.table)
    (h : InClauses (findQuery (whereQuery bt m where_)) cs ws os)
    (hp : L.plan D.engine s.db [] (selectClauses (findQuery (whereQuery bt m where_)) cs ws os) =
      some p) (record : Record) :
    (findOne (selectBackend bt D L) s m where_ record).1 =
      match p.cells L.same ⟨some 1, 0⟩ with
      | [] => some (.notfound, record)
      | row :: _ => (fillRecord (p.result L.same ⟨none, 0⟩) row m.fields record).map fun record =>
          (.ok, (runHook m.afterFind (some record)).2.getD record) := by
  obtain ⟨hq, hmodel, hparams, -, -, -⟩ := findQuery_where bt m where_
  have hbt := bt_where bt m where_
  have ht' : Ident (findQuery (whereQuery bt m where_)).model.table := by rw [hmodel]; exact ht
  have hq' : OneTable (firstQuery (findQuery (whereQuery bt m where_))) := ⟨hq.1, hq.2, hq.3⟩
  have h' : InClauses (firstQuery (findQuery (whereQuery bt m where_))) cs ws os :=
    ⟨h.cols, h.where_, h.order, h.cols_closed, h.where_closed, h.order_closed, h.cols_marks⟩
  have hread := readSelect_select hq' ht' h' (L.plan D.engine s.db) []
  have hclauses : selectClauses (firstQuery (findQuery (whereQuery bt m where_))) cs ws os =
      selectClauses (findQuery (whereQuery bt m where_)) cs ws os := rfl
  rw [hclauses, hp, Option.map_some] at hread
  have hfind : find (selectBackend bt D L) s (firstQuery (whereQuery bt m where_)) =
      (.ok, some (p.result L.same ⟨some 1, 0⟩), firstQuery (findQuery (whereQuery bt m where_)),
        s) := by
    have hnone : (firstQuery (whereQuery bt m where_)).params.mapM D.bind = some [] := by
      cases where_ <;> rfl
    have hdialect : (firstQuery (whereQuery bt m where_)).bt =
        (firstQuery (findQuery (whereQuery bt m where_))).bt := by rw [findQuery_eq]; rfl
    rw [find_answer (q := firstQuery (whereQuery bt m where_)) hbt, hnone, Option.bind_some,
      find_firstQuery, Listing.answer, hdialect, hread]
    rfl
  have hback : (selectBackend bt D L).type = bt := rfl
  have hfirst : find (selectBackend bt D L) s
      { whereQuery bt m where_ with limit := 1, offset := 0 } = _ := hfind
  have hmodel' : (firstQuery (findQuery (whereQuery bt m where_))).model = m := hmodel
  unfold findOne first
  rw [hback, hfirst]
  simp only [hmodel']
  have hrows : (p.result L.same ⟨some 1, 0⟩).rows = (p.cells L.same ⟨some 1, 0⟩).take 1 := rfl
  rw [hrows]
  cases hcells : p.cells L.same ⟨some 1, 0⟩ with
  | nil => rfl
  | cons row rows =>
    show Option.map _ (fillRecord (p.result L.same ⟨some 1, 0⟩) row m.fields record) = _
    rw [fillRecord_window p L.same ⟨some 1, 0⟩ ⟨none, 0⟩]

/-! ## Agreement -/

theorem mem_copyRows {rows : List (Fin res.columnCount → Value)} {k : ℕ} {out : List Record}
    (h : copyRows m res rows (List.replicate k record) = some out) :
    ∀ row ∈ rows, ∃ r, fillRecord res row m.fields record = some r ∧
      (runHook m.afterFind (some r)).2.getD r ∈ out.take rows.length := by
  induction rows generalizing k out with
  | nil => exact fun row hrow => absurd hrow List.not_mem_nil
  | cons row rows ih =>
    cases k with
    | zero => cases h
    | succ k =>
      have hcons : copyRows m res (row :: rows) (List.replicate (k + 1) record) =
          (fillRecord res row m.fields record).bind fun r =>
            (copyRows m res rows (List.replicate k record)).bind fun rs =>
              some ((runHook m.afterFind (some r)).2.getD r :: rs) := rfl
      obtain ⟨r, hr, h⟩ := Option.bind_eq_some_iff.mp (hcons.symm.trans h)
      obtain ⟨rs, hrs, h⟩ := Option.bind_eq_some_iff.mp h
      obtain rfl := Option.some.inj h
      refine List.forall_mem_cons.mpr ⟨⟨r, hr, List.mem_cons_self⟩, fun row' hrow' => ?_⟩
      obtain ⟨r', hr', hmem⟩ := ih hrs row' hrow'
      exact ⟨r', hr', List.mem_cons_of_mem _ hmem⟩

/-- `*` is the name; otherwise like `textListing`. -/
def starListing : Listing (Option Text) where
  columns is :=
    if is = [.tok (.word ['*'])] then some (nameColumn "name".toList) else textListing.columns is
  sorts := textListing.sorts
  order := textListing.order
  same := textListing.same
  columns_count := textListing.columns_count

theorem starListing_eachRow : starListing.EachRow := by
  intro cols hcols
  have hstar : starListing.columns [.tok (.word ['*'])] = some (nameColumn "name".toList) := by
    simp [starListing]
  obtain rfl := Option.some.inj (hstar.symm.trans hcols)
  exact ⟨_, rfl⟩

end Corm
