import Corm.Backend.SqliteRecords
import Corm.Guard

/-!
# The round trip of records through SQLite

* `createAll_rows`, `findAll_table`: the rows of the records, and the records of the rows;
* `RoundTrip`: the records come back, on every field that is not AUTOINC;
* `rowTrip_iff`: when the record of one row comes back;
* **`sqlite_roundTrip_iff`**: when every record does, whatever the database does.

A column whose name differs from the one of its field in case is written, as SQLite folds case, but
`corm_find_all` compares names with `strcmp` and does not read it.
-/

namespace Corm

open Sql (Row)

variable {db : SqliteDb} {accepts : Store Cell → Text → List Value → Bool} {m : Model}
  {s s' : Store Cell} {records : List Record} {rows : List (Row Cell)}

/-! ## Writing -/

/-- No hook changes a record on the way. -/
structure Unhooked (m : Model) : Prop where
  beforeCreate : m.beforeCreate = none
  afterFind : m.afterFind = none

/-- The row of a record: its members, and integers in the columns that INSERT leaves out. -/
structure RowOf (db : SqliteDb) (m : Model) (r : Record) (row : Row Cell) : Prop where
  bound : ∀ f ∈ m.fields, f.isAutoinc = false →
    row f.nm = memberCell db.lib f.size f.type (r f)
  given : ∀ f ∈ m.fields, f.isAutoinc = true →
    ∃ rows, row f.nm = .integer (db.rowId m.table rows f.nm)

theorem runHook_none {hook : Option Hook} (h : hook = none) (r : Option Record) :
    runHook hook r = (.ok, r) := by
  rw [h]
  rfl

theorem bind_member (r : Record) (f : Field) :
    db.dbms.bind (fieldGetValue r f) = some (memberCell db.lib f.size f.type (r f)) :=
  bindParam_payload db.lib (r f)

/-- SQLite, with statements that are refused. -/
abbrev storeBackend (db : SqliteDb) (accepts : Store Cell → Text → List Value → Bool) :
    Backend (Store Cell) Result :=
  (sqliteBackend db).guard accepts

theorem createOne_row (hm : Validated m) (hb : m.beforeCreate = none) {r : Record}
    (hok : (createOne (storeBackend db accepts) s m r).err = .ok) :
    ∃ row, RowOf db m r row ∧
      (createOne (storeBackend db accepts) s m r).state.db m.table = s.db m.table ++ [row] := by
  have hone : createOne (storeBackend db accepts) s m r =
      createOne (sqlBackend .sqlite db.dbms) s m r := execWithHooks_guard hok
  rw [hone] at hok ⊢
  obtain ⟨r', row, hhook, -, hrow, hstate⟩ := createOne_ok hm hok
  rw [runHook_none hb] at hhook
  obtain rfl : r = r' := Option.some.inj (Prod.mk.inj hhook).2
  refine ⟨row, ⟨fun f hf ha => ?_, fun f hf ha => ?_⟩, ?_⟩
  · have hbound := createdRow_field hm hrow hf ha
    rw [bind_member] at hbound
    exact (Option.some.inj hbound).symm
  · exact ⟨s.db m.table, createdRow_autoinc hm hrow hf ha⟩
  · rw [hstate]
    exact Function.update_self _ _ _

/-- **The rows of the records**, in order. -/
theorem createAll_rows (hm : Validated m) (hb : m.beforeCreate = none)
    (h : createAll (storeBackend db accepts) s m records = some s') :
    ∃ rows, List.Forall₂ (RowOf db m) records rows ∧
      s'.db m.table = s.db m.table ++ rows := by
  induction records generalizing s with
  | nil =>
    obtain rfl := Option.some.inj h
    exact ⟨[], .nil, (List.append_nil _).symm⟩
  | cons r records ih =>
    rw [createAll] at h
    split at h
    · rename_i q rec count s₁ hone
      have hok : (createOne (storeBackend db accepts) s m r).err = .ok := by rw [hone]
      obtain ⟨row, hrow, htable⟩ := createOne_row hm hb hok
      rw [hone] at htable
      obtain ⟨rows, hrows, hs'⟩ := ih h
      exact ⟨row :: rows, .cons hrow hrows, by rw [hs', htable, List.append_assoc]; rfl⟩
    · cases h

theorem createdRow_isSome (r : Record) (rows : List (Row Cell)) :
    (createdRow db.dbms m rows r).isSome := by
  have hall : (insertFields m).mapM (fun f => db.dbms.bind (fieldGetValue r f)) =
      some ((insertFields m).map fun f => memberCell db.lib f.size f.type (r f)) := by
    rw [Sql.mapM_eq_some_iff, List.map_map]
    exact List.map_congr_left fun f _ => bind_member r f
  rw [createdRow, hall]
  rfl

/-- The parameters of the INSERT of a record. -/
def insertParams (m : Model) (r : Record) : List Value := (insertFields m).map (fieldGetValue r)

theorem bound_insertParams (hb : m.beforeCreate = none) (bt : BackendType) (r : Record) :
    (bindRecord (queryOp (queryNew bt m) .insert)
      (runHook (queryNew bt m).model.beforeCreate (some r)).2).params = insertParams m r := by
  have hhook : (runHook (queryNew bt m).model.beforeCreate (some r)).2 = some r :=
    congrArg Prod.snd (runHook_none hb (some r))
  rw [hhook]
  exact congrArg Query.params (foldl_queryBind _ _ _)

/-- An insert succeeds when there is a column to insert and the statement is accepted. -/
theorem createOne_err_iff (hm : Validated m) (hb : m.beforeCreate = none) (s : Store Cell)
    (r : Record) : (createOne (storeBackend db accepts) s m r).err = .ok ↔
      insertFields m ≠ [] ∧ accepts s (buildInsert (queryOp (queryNew .sqlite m) .insert))
        (insertParams m r) = true := by
  have hok : (createOne (sqlBackend .sqlite db.dbms) s m r).err = .ok ↔ insertFields m ≠ [] := by
    constructor
    · intro h
      obtain ⟨_, _, -, hcols, -⟩ := createOne_ok hm h
      exact hcols
    · exact fun hne => createOne_err hm hb hne (createdRow_isSome r _)
  refine (execWithHooks_guard_iff (b := sqliteBackend db)).trans (and_congr hok ?_)
  show accepts s _ (bindRecord (queryOp (queryNew .sqlite m) .insert)
    (runHook (queryNew .sqlite m).model.beforeCreate (some r)).2).params = true ↔ _
  rw [bound_insertParams hb]
  rfl

/-- Every insert succeeds when there is a column to insert and every row is accepted. -/
theorem createAll_isSome (hm : Validated m) (hb : m.beforeCreate = none)
    (hne : insertFields m ≠ []) {stores : List Value → Bool} (s : Store Cell)
    (hall : ∀ r ∈ records, stores (insertParams m r) = true) :
    (createAll (storeBackend db fun _ _ params => stores params) s m records).isSome := by
  induction records generalizing s with
  | nil => rfl
  | cons r records ih =>
    obtain ⟨hr, hrest⟩ := List.forall_mem_cons.mp hall
    have hok : (createOne (storeBackend db fun _ _ params => stores params) s m r).err = .ok :=
      (createOne_err_iff hm hb s r).mpr ⟨hne, hr⟩
    rcases hone : createOne (storeBackend db fun _ _ params => stores params) s m r with
      ⟨err, q, rec, count, s₁⟩
    rw [hone] at hok
    obtain rfl : err = .ok := hok
    rw [createAll, hone]
    exact ih s₁ hrest

theorem createOne_of_createAll {σ ρ : Type} {b : Backend σ ρ} {s s' : σ} {r : Record}
    (h : createAll b s m records = some s') (hr : r ∈ records) :
    ∃ s₁, (createOne b s₁ m r).err = .ok := by
  induction records generalizing s with
  | nil => cases hr
  | cons r₀ records ih =>
    rw [createAll] at h
    split at h
    · rename_i q rec count s₁ hone
      rcases List.mem_cons.mp hr with rfl | hr
      · exact ⟨s, by rw [hone]⟩
      · exact ih h hr
    · cases h

/-! ## Reading -/

/-- The values of a row in the result of its table. -/
def rowValues (db : SqliteDb) (t : Text) (rows : List (Row Cell)) (row : Row Cell)
    (i : Fin (tableResult db t rows).columnCount) : Value :=
  resultValue db.lib (columnType (rows.map fun row => row ((db.columns t).get i)))
    (row ((db.columns t).get i))

theorem tableResult_rows (t : Text) (rows : List (Row Cell)) :
    (tableResult db t rows).rows = rows.map (rowValues db t rows) := by
  show (fetchRows db.lib (fun _ => .int) _).2 = _
  rw [fetchRows_eq]
  simp only [List.map_map]
  rfl

theorem tableResult_value {t c : Text} (hc : c ∈ db.columns t) (row : Row Cell) :
    (tableResult db t rows).value (rowValues db t rows row) c =
      some (resultValue db.lib (columnType (rows.map fun row => row c)) (row c)) := by
  obtain ⟨j, hj⟩ : ∃ j, (tableResult db t rows).columnNames j = c := List.get_of_mem hc
  have hsome : ((List.finRange (tableResult db t rows).columnCount).find? fun j =>
      (tableResult db t rows).columnNames j == c).isSome := by
    rw [List.find?_isSome]
    exact ⟨j, List.mem_finRange j, beq_iff_eq.mpr hj⟩
  obtain ⟨k, hk⟩ := Option.isSome_iff_exists.mp hsome
  have hbeq := List.find?_some hk
  have hkc : (db.columns t).get k = c := beq_iff_eq.mp hbeq
  rw [Result.value, hk, Option.map_some, rowValues, hkc]

theorem tableResult_absent {t c : Text} (hc : c ∉ db.columns t) (rows : List (Row Cell))
    (row : Row Cell) :
    (tableResult db t rows).value (rowValues db t rows row) c = none := by
  rw [Result.value, Option.map_eq_none_iff, List.find?_eq_none]
  intro j _ hj
  have hname : (db.columns t).get j = c := beq_iff_eq.mp hj
  exact hc (hname ▸ List.get_mem _ _)

theorem query_select {sql : Text} {params : List Value} {t : Text}
    {cond : Option (List (Sql.Item Cell))} {rows : List (Row Cell)}
    (hread : db.dbms.read .sqlite sql params = some (.select t cond))
    (hsel : db.engine.select s.db (.select t cond) = some rows) :
    (sqliteBackend db).query s sql params = (.ok, some (tableResult db t rows), s) := by
  unfold sqliteBackend
  simp only [hread, hsel]

theorem find_table (hm : Validated m) (hsoft : softDeleteField m = none) (s : Store Cell) :
    find (sqliteBackend db) s (queryNew .sqlite m) =
      (.ok, some (tableResult db m.table (s.db m.table)),
        queryOp (queryNew .sqlite m) .select, s) := by
  have hscope : findScope (queryNew .sqlite m) = queryNew .sqlite m := findScope_none hsoft
  have hread : db.dbms.read .sqlite (buildSql (queryOp (queryNew .sqlite m) .select))
      (queryOp (queryNew .sqlite m) .select).params = some (.select m.table none) := by
    have hplain : PlainSelect (queryOp (queryNew .sqlite m) .select) :=
      ⟨rfl, rfl, rfl, rfl, rfl, rfl, rfl, rfl⟩
    have hsql : buildSql (queryOp (queryNew .sqlite m) .select) =
      buildSelect (queryOp (queryNew .sqlite m) .select) := rfl
    have hparams : (queryOp (queryNew .sqlite m) .select).params.mapM db.dbms.bind = some [] := rfl
    rw [Dbms.read, hparams, Option.bind_some, hsql, readStmt_select hplain hm.table]
    rfl
  have hsel : db.engine.select s.db (.select m.table none) = some (s.db m.table) :=
    congrArg some (List.filter_true _)
  unfold find
  rw [hscope]
  simp only [query_select hread hsel]

theorem copyRows_replicate (hf : m.afterFind = none) {res : Result}
    (rows : List (Fin res.columnCount → Value)) (r : Record) (spare : ℕ) :
    copyRows m res rows (List.replicate (rows.length + spare) r) =
      (rows.mapM fun row => fillRecord res row m.fields r).map
        (· ++ List.replicate spare r) := by
  induction rows with
  | nil => simp [copyRows]
  | cons row rows ih =>
    rw [List.length_cons, Nat.add_right_comm, List.replicate_succ, copyRows, ih, List.mapM_cons]
    cases fillRecord res row m.fields r with
    | none => rfl
    | some r' =>
      cases rows.mapM fun row => fillRecord res row m.fields r with
      | none => rfl
      | some rs => simp [runHook_none hf]

theorem copyCount_all {count : Option ℤ} {n : ℕ} (h : ∀ c ∈ count, 0 < c → (n : ℤ) ≤ c) :
    copyCount count n = n := by
  unfold copyCount
  refine if_neg fun hlt => ?_
  cases count with
  | none => simp at hlt
  | some c =>
    have hc := h c rfl
    simp only at hlt
    split_ifs at hlt <;> omega

/-- **What `corm_find_all` returns** of a table. -/
theorem findAll_table (hm : Validated m) (hsoft : softDeleteField m = none)
    (hf : m.afterFind = none) {n : ℕ} (hn : (s.db m.table).length = n) {count : Option ℤ}
    (hcount : ∀ c ∈ count, 0 < c → (n : ℤ) ≤ c) (spare : ℕ) :
    findAll (sqliteBackend db) s m none (some (List.replicate (n + spare) zeroRecord)) count =
      (((s.db m.table).mapM fun row => fillRecord (tableResult db m.table (s.db m.table))
        (rowValues db m.table (s.db m.table) row) m.fields zeroRecord).map fun out =>
          (.ok, some (out ++ List.replicate spare zeroRecord), count.map fun _ => (n : ℤ), s)) := by
  have hlen : (tableResult db m.table (s.db m.table)).rows.length = n := by
    rw [tableResult_rows, List.length_map, hn]
  unfold findAll
  rw [show (sqliteBackend db).type = .sqlite from rfl]
  simp only
  rw [find_table hm hsoft]
  simp only [hlen]
  rw [copyCount_all hcount, List.take_of_length_le hlen.le, ← hlen, copyRows_replicate hf]
  rw [tableResult_rows, List.mapM_map, Option.map_map]
  rfl

/-! ## The round trip -/

/-- The same record, on the fields that are not AUTOINC. -/
def SameRecord (m : Model) (r r' : Record) : Prop :=
  ∀ f ∈ m.fields, f.isAutoinc = false → SameMember f.size f.type (r f) (r' f)

/-- The records that are inserted into an empty table are found again, in an array that is large
enough. -/
def RoundTrip (db : SqliteDb) (accepts : Store Cell → Text → List Value → Bool) (m : Model)
    (records : List Record) : Prop :=
  ∀ s s', s.db m.table = [] → createAll (storeBackend db accepts) s m records = some s' →
    ∀ (spare : ℕ) (count : Option ℤ), (∀ c ∈ count, 0 < c → (records.length : ℤ) ≤ c) →
      ∃ out, List.Forall₂ (SameRecord m) records out ∧
        findAll (sqliteBackend db) s' m none
          (some (List.replicate (records.length + spare) zeroRecord)) count =
            some (.ok, some (out ++ List.replicate spare zeroRecord),
              count.map fun _ => (records.length : ℤ), s')

/-- The value of a field in a row of a table. -/
def fieldValue (db : SqliteDb) (rows : List (Row Cell)) (f : Field) (row : Row Cell) : Value :=
  resultValue db.lib (columnType (rows.map fun row => row f.nm)) (row f.nm)

/-- A cell of the column of a field, or none when there is no such column, can be read into zeroed
memory, and is the member of the record unless the field is AUTOINC. -/
def CellTrip (cell : Option Value) (r : Record) (f : Field) : Prop :=
  ∃ y, (match cell with
    | some val => memberSet f.size f.type (zeroMember f.size f.type) val.v
    | none => some (zeroMember f.size f.type)) = some y ∧
    (f.isAutoinc = false → SameMember f.size f.type (r f) y)

/-- The cell of a field in a row of the table of its model. -/
def fieldCell (db : SqliteDb) (m : Model) (rows : List (Row Cell)) (row : Row Cell) (f : Field) :
    Option Value :=
  if f.nm ∈ db.columns m.table then some (fieldValue db rows f row) else none

theorem fillRecord_trip_iff {res : Result} {row : Fin res.columnCount → Value} (hm : Validated m)
    (r : Record) :
    (∃ o, fillRecord res row m.fields zeroRecord = some o ∧ SameRecord m r o) ↔
      ∀ f ∈ m.fields, CellTrip (res.value row f.nm) r f := by
  simp only [fillRecord_eq_some hm.nodup]
  constructor
  · rintro ⟨o, ho, hsame⟩ f hf
    refine ⟨o f, ?_, hsame f hf⟩
    cases hval : res.value row f.nm with
    | none => exact congrArg some (ho.absent f hf hval).symm
    | some val => exact memberSet_eq_some_iff.mpr (ho.column f hf val hval)
  · intro h
    choose y hy hsame using h
    refine ⟨fun f => if hf : f ∈ m.fields then y f hf else zeroRecord f,
      ⟨fun f hf val hval => ?_, fun f hf hnone => ?_, fun f hf => dif_neg hf⟩, fun f hf ha => ?_⟩
    · have hset := hy f hf
      rw [hval] at hset
      rw [dif_pos hf]
      exact memberSet_eq_some_iff.mp hset
    · have hzero := hy f hf
      rw [hnone] at hzero
      rw [dif_pos hf]
      exact (Option.some.inj hzero).symm
    · simp only [dif_pos hf]
      exact hsame f hf ha

theorem rowTrip_iff (hm : Validated m) (r : Record) (row : Row Cell) :
    (∃ o, fillRecord (tableResult db m.table rows) (rowValues db m.table rows row) m.fields
        zeroRecord = some o ∧ SameRecord m r o) ↔
      ∀ f ∈ m.fields, CellTrip (fieldCell db m rows row f) r f := by
  rw [fillRecord_trip_iff hm]
  refine forall₂_congr fun f _ => ?_
  unfold fieldCell
  split_ifs with hcol
  · rw [tableResult_value hcol]
    rfl
  · rw [tableResult_absent hcol]

theorem forall₂_mapM_iff {α β γ : Type} {g : β → Option γ} {R : α → γ → Prop} {as : List α}
    {bs : List β} : (∃ cs, bs.mapM g = some cs ∧ List.Forall₂ R as cs) ↔
      List.Forall₂ (fun a b => ∃ c, g b = some c ∧ R a c) as bs := by
  simp only [Sql.mapM_eq_some_iff]
  constructor
  · rintro ⟨cs, hcs, h⟩
    induction h generalizing bs with
    | nil =>
      obtain rfl := List.map_eq_nil_iff.mp hcs
      exact .nil
    | cons hR _ ih =>
      cases bs with
      | nil => cases hcs
      | cons b bs =>
        obtain ⟨hb, hbs⟩ := List.cons.inj hcs
        exact .cons ⟨_, hb, hR⟩ (ih hbs)
  · intro h
    induction h with
    | nil => exact ⟨[], rfl, .nil⟩
    | cons hR _ ih =>
      obtain ⟨c, hc, hRc⟩ := hR
      obtain ⟨cs, hcs, hRs⟩ := ih
      exact ⟨c :: cs, by rw [List.map_cons, hc, hcs]; rfl, .cons hRc hRs⟩

theorem roundTrip_iff (hm : Validated m) (hsoft : softDeleteField m = none) (hu : Unhooked m) :
    RoundTrip db accepts m records ↔
      ∀ s s', s.db m.table = [] → createAll (storeBackend db accepts) s m records = some s' →
        List.Forall₂ (fun r row => ∀ f ∈ m.fields,
          CellTrip (fieldCell db m (s'.db m.table) row f) r f) records (s'.db m.table) := by
  have hrows {s s' : Store Cell} (hs : s.db m.table = [])
      (h : createAll (storeBackend db accepts) s m records = some s') :
      (s'.db m.table).length = records.length := by
    obtain ⟨rows, hrows, heq⟩ := createAll_rows hm hu.beforeCreate h
    rw [heq, hs, List.nil_append, hrows.length_eq]
  simp only [← rowTrip_iff hm, ← forall₂_mapM_iff]
  constructor
  · intro h s s' hs hcreate
    obtain ⟨out, hout, hfind⟩ := h s s' hs hcreate 0 none (by simp)
    rw [findAll_table hm hsoft hu.afterFind (hrows hs hcreate) (by simp)] at hfind
    obtain ⟨out', hmap, heq⟩ := Option.map_eq_some_iff.mp hfind
    obtain rfl : out' = out := by simpa using heq
    exact ⟨out', hmap, hout⟩
  · intro h s s' hs hcreate spare count hcount
    obtain ⟨out, hmap, hout⟩ := h s s' hs hcreate
    refine ⟨out, hout, ?_⟩
    rw [findAll_table hm hsoft hu.afterFind (hrows hs hcreate) hcount, hmap]
    rfl

/-! ## When it holds -/

/-- The type of the column of a field is that of its cells, unless they are NULL. -/
theorem columnType_member (hrow : List.Forall₂ (RowOf db m) records rows) (hne : records ≠ [])
    {f : Field} (hf : f ∈ m.fields) (ha : f.isAutoinc = false) (hst : f.Storable)
    (hb : f.type = .blob → f.size % 2 ^ 32 < 2 ^ 31) (x : Member f.size f.type) :
    columnType (rows.map fun row => row f.nm) = storageType (memberCell db.lib f.size f.type x) ∨
      memberCell db.lib f.size f.type x = .null := by
  by_cases hle : f.type = .blob → f.size % 2 ^ 32 ≤ db.lib.limit
  · refine Or.inl ?_
    cases hrow with
    | nil => exact absurd rfl hne
    | @cons _ first _ _ h _ =>
      show storageType (first f.nm) = _
      rw [h.bound f hf ha, storageType_member hst hle, storageType_member hst hle]
  · obtain ⟨ht, hbig⟩ := Classical.not_imp.mp hle
    exact Or.inr (memberCell_above ht (hb ht) hbig x)

theorem fieldValue_autoinc (hrow : List.Forall₂ (RowOf db m) records rows) {row : Row Cell}
    (hmem : row ∈ rows) {f : Field} (hf : f ∈ m.fields) (ha : f.isAutoinc = true) {n : Int64}
    (hn : row f.nm = .integer n) : (fieldValue db rows f row).v = .i n := by
  have htype : columnType (rows.map fun row => row f.nm) = .int64 := by
    cases hrow with
    | nil => cases hmem
    | @cons _ first _ _ h _ =>
      obtain ⟨_, hfirst⟩ := h.given f hf ha
      show storageType (first f.nm) = _
      rw [hfirst]
      rfl
  rw [fieldValue, htype, hn]
  exact congrArg Payload.i (db.lib.columnInt64_integer n)

theorem memberSet_two {f : Field} (hf : f.Storable) {y : Member f.size f.type}
    (h : memberSet f.size f.type (zeroMember f.size f.type) (.i 2) = some y) :
    f.type = .int ∨ f.type = .int64 := by
  have hs : Payload.readS (.i 2) = none := by decide
  have hblob : Payload.readBlob (.i 2) = none := by decide
  have hbool : Payload.readB (.i 2) = none := by decide
  obtain ⟨name, type, size, flags⟩ := f
  cases type with
  | int => exact Or.inl rfl
  | int64 => exact Or.inr rfl
  | float => cases hf
  | double => cases hf
  | string => exact absurd h (by simp [memberSet, hs])
  | text => exact absurd h (by simp [memberSet, hs])
  | blob => exact absurd h (by simp [memberSet, hblob])
  | bool => exact absurd h (by simp [memberSet, hbool])

/-- An AUTOINC field that is an integer, or has no column of its name, can be read. -/
theorem cellTrip_autoinc (hrow : List.Forall₂ (RowOf db m) records rows) {r : Record}
    {row : Row Cell} (hmem : row ∈ rows) (hr : RowOf db m r row) {f : Field} (hf : f ∈ m.fields)
    (ha : f.isAutoinc = true)
    (ht : f.nm ∈ db.columns m.table → f.type = .int ∨ f.type = .int64) :
    CellTrip (fieldCell db m rows row f) r f := by
  unfold CellTrip fieldCell
  split_ifs with hcol
  · obtain ⟨_, hn⟩ := hr.given f hf ha
    simp only
    rw [fieldValue_autoinc hrow hmem hf ha hn, ha]
    have hint := ht hcol
    clear hn hr hmem hrow ha hf ht hcol
    obtain ⟨name, type, size, flags⟩ := f
    rcases hint with h | h
    · obtain rfl : type = .int := h
      exact ⟨_, rfl, by simp⟩
    · obtain rfl : type = .int64 := h
      exact ⟨_, rfl, by simp⟩
  · exact ⟨_, rfl, by simp [ha]⟩

/-- A field that comes back, where the table has the columns `cols`. -/
def FieldBack (limit : ℕ) (cols : List Text) (r : Record) (f : Field) : Prop :=
  if f.nm ∈ cols then ComesBackAs limit f.size f.type (r f)
  else SameMember f.size f.type (r f) (zeroMember f.size f.type)

/-- Another field comes back when it is whole, or blank where it has no column of its name. -/
theorem cellTrip_bound (hrow : List.Forall₂ (RowOf db m) records rows) {r : Record}
    {row : Row Cell} (hne : records ≠ []) (hr : RowOf db m r row) {f : Field} (hf : f ∈ m.fields)
    (ha : f.isAutoinc = false) (hst : f.Storable) (hterm : Terminated f.size f.type (r f))
    (hb : f.nm ∈ db.columns m.table → f.type = .blob → f.size % 2 ^ 32 < 2 ^ 31) :
    CellTrip (fieldCell db m rows row f) r f ↔
      FieldBack db.lib.limit (db.columns m.table) r f := by
  unfold CellTrip fieldCell FieldBack
  split_ifs with hcol
  · have htype := columnType_member hrow hne hf ha hst (hb hcol) (r f)
    simp only [ha, forall_const]
    rw [← memberTrip_iff (L := db.lib) hst (hb hcol) hterm htype]
    unfold fieldValue
    rw [hr.bound f hf ha]
  · simp only [ha, forall_const, Option.some.injEq, exists_eq_left']

/-- The records that come back from every table with the columns `cols` that stores only what
`stores` allows: each AUTOINC field, which is read too, is an integer, and the other fields come
back; or some record is not stored. -/
def ComesBack (limit : ℕ) (cols : List Text) (stores : List Value → Bool) (m : Model)
    (records : List Record) : Prop :=
  records = [] ∨ insertFields m = [] ∨ (∃ r ∈ records, stores (insertParams m r) = false) ∨
    ((∀ f ∈ m.fields, f.isAutoinc = true → f.nm ∈ cols → f.type = .int ∨ f.type = .int64) ∧
      ∀ r ∈ records, ∀ f ∈ m.fields, f.isAutoinc = false → FieldBack limit cols r f)

theorem FieldBack.blob {limit : ℕ} {cols : List Text} {r : Record} {f : Field}
    (h : FieldBack limit cols r f) (hcol : f.nm ∈ cols) (ht : f.type = .blob) :
    f.size % 2 ^ 32 < 2 ^ 31 := by
  rw [FieldBack, if_pos hcol] at h
  clear hcol
  obtain ⟨name, type, size, flags⟩ := f
  obtain rfl : type = .blob := ht
  revert h
  show (if size % 2 ^ 32 ≤ limit then _ else _) → _
  split_ifs
  · exact fun h => h.1
  · exact fun h => h.1

/-- A model for the round trip, and the columns of a table for it: each field has a column of its
own, under its name up to case. -/
structure TripModel (m : Model) (cols : List Text) : Prop where
  registered : validateModel m = .ok
  hard : softDeleteField m = none
  unhooked : Unhooked m
  storable : ∀ f ∈ m.fields, f.Storable
  column : ∀ f ∈ m.fields, ∃ c ∈ cols, foldCase c = foldCase f.nm
  own : (m.fields.map fun f => foldCase f.nm).Nodup

theorem TripModel.valid {cols : List Text} (h : TripModel m cols) : Validated m :=
  validated_of_ok h.registered

theorem roundTrip_of_comesBack (hm : TripModel m (db.columns m.table))
    (hterm : ∀ r ∈ records, ∀ f ∈ m.fields, Terminated f.size f.type (r f))
    {stores : List Value → Bool}
    (hstores : ∀ s sql params, accepts s sql params = true → stores params = true)
    (h : ComesBack db.lib.limit (db.columns m.table) stores m records) :
    RoundTrip db accepts m records := by
  have hu := hm.unhooked
  rw [roundTrip_iff hm.valid hm.hard hu]
  intro s s' hs hcreate
  obtain ⟨rows, hrows, hs'⟩ := createAll_rows hm.valid hu.beforeCreate hcreate
  rw [hs, List.nil_append] at hs'
  rw [hs']
  have hran (r : Record) (hr : r ∈ records) :
      insertFields m ≠ [] ∧ stores (insertParams m r) = true := by
    obtain ⟨s₁, hok⟩ := createOne_of_createAll hcreate hr
    obtain ⟨hne, hacc⟩ := (createOne_err_iff hm.valid hu.beforeCreate s₁ r).mp hok
    exact ⟨hne, hstores _ _ _ hacc⟩
  refine (List.forall₂_iff_zip.mpr ⟨hrows.length_eq, fun {r row} hmem f hf => ?_⟩)
  have hr : RowOf db m r row := (List.forall₂_iff_zip.mp hrows).2 hmem
  obtain ⟨hrmem, hrowmem⟩ := List.of_mem_zip hmem
  have hne : records ≠ [] := List.ne_nil_of_mem hrmem
  have hrefused : ¬ ∃ r ∈ records, stores (insertParams m r) = false := by
    rintro ⟨r, hr, hfalse⟩
    rw [(hran r hr).2] at hfalse
    cases hfalse
  obtain ⟨hauto, hback⟩ :=
    ((h.resolve_left hne).resolve_left (hran r hrmem).1).resolve_left hrefused
  by_cases ha : f.isAutoinc = true
  · exact cellTrip_autoinc hrows hrowmem hr hf ha (hauto f hf ha)
  · have ha' := Bool.not_eq_true _ ▸ ha
    have hf' := hback r hrmem f hf ha'
    exact (cellTrip_bound hrows hne hr hf ha' (hm.storable f hf) (hterm r hrmem f hf)
      hf'.blob).mpr hf'

/-! ## A database for each record that does not come back -/

/-- A database that puts 2 in the columns that are left out, and for a blob of negative length binds
one byte, not its first. -/
def hostileDb {limit : ℕ} (hlimit : limit < 2 ^ 31) (cols : List Text) : SqliteDb where
  lib := { plainSqlite with
    limit := limit
    limit_lt := hlimit
    bindNegative := fun data _ => .blob [data.headD 0 + 1] }
  engine := ⟨.null, fun _ _ => none⟩
  columns _ := cols
  rowId _ _ _ := 2
  lastInsertId _ := 0
  rowsAffected _ := 0

section Hostile

variable {limit : ℕ} {hlimit : limit < 2 ^ 31} {cols : List Text}

theorem hostile_cell {size : ℕ} (hneg : ¬ size % 2 ^ 32 < 2 ^ 31) (x : Buffer UInt8 size) :
    memberCell (hostileDb hlimit cols).lib size .blob x = .blob [x.1.headD 0 + 1] := by
  show bindBlob (hostileDb hlimit cols).lib x.1 = _
  rw [bindBlob, if_neg]
  · rfl
  · rw [toCInt_nonneg_iff, x.2]
    exact hneg

theorem hostile_member {size : ℕ} (hsize : 0 < size) (hneg : ¬ size % 2 ^ 32 < 2 ^ 31)
    (x y : Buffer UInt8 size) (hy : memberSet size .blob (zeroMember size .blob)
      (resultValue (hostileDb hlimit cols).lib .blob
        (memberCell (hostileDb hlimit cols).lib size .blob x)).v = some y) : x ≠ y := by
  rw [hostile_cell hneg] at hy
  have hcopy : copyBlob size ⟨List.replicate size 0, List.length_replicate⟩
    [x.1.headD 0 + 1] = y := Option.some.inj hy
  have hlen : [x.1.headD 0 + 1].length ≤ size := hsize
  rintro rfl
  rw [copyBlob, dif_pos hlen] at hcopy
  have hhead : x.1.headD 0 + 1 = x.1.headD 0 :=
    congrArg (fun b : Buffer UInt8 size => b.1.headD 0) hcopy
  have hnat := congrArg UInt8.toNat hhead
  rw [UInt8.toNat_add] at hnat
  have hlt := (x.1.headD 0).toNat_lt
  simp only [UInt8.toNat_one] at hnat
  omega

theorem hostile_blob (hrow : List.Forall₂ (RowOf (hostileDb hlimit cols) m) records rows)
    {r : Record} {row : Row Cell} (hr : RowOf (hostileDb hlimit cols) m r row) (hmem : row ∈ rows)
    {f : Field} (hf : f ∈ m.fields) (ha : f.isAutoinc = false) (hcol : f.nm ∈ cols)
    (ht : f.type = .blob) (hsize : 0 < f.size) (hneg : ¬ f.size % 2 ^ 32 < 2 ^ 31) :
    ¬ CellTrip (fieldCell (hostileDb hlimit cols) m rows row f) r f := by
  have hfirst : columnType (rows.map fun row => row f.nm) = .blob := by
    cases hrow with
    | nil => cases hmem
    | @cons r₀ first _ _ h _ =>
      show storageType (first f.nm) = _
      rw [h.bound f hf ha]
      clear h hr hmem hf ha hsize hcol
      obtain ⟨name, type, size, flags⟩ := f
      obtain rfl : type = .blob := ht
      exact congrArg storageType (hostile_cell hneg _)
  have hcell : fieldCell (hostileDb hlimit cols) m rows row f =
      some (fieldValue (hostileDb hlimit cols) rows f row) := if_pos hcol
  unfold CellTrip
  rw [hcell]
  unfold fieldValue
  rw [hfirst, hr.bound f hf ha, ha]
  clear hfirst hr hmem hf ha hcell hcol
  obtain ⟨name, type, size, flags⟩ := f
  obtain rfl : type = .blob := ht
  rintro ⟨y, hy, hsame⟩
  exact hostile_member hsize hneg _ y hy (hsame rfl)

theorem comesBack_of_roundTrip (hm : TripModel m cols)
    (hterm : ∀ r ∈ records, ∀ f ∈ m.fields, Terminated f.size f.type (r f))
    {stores : List Value → Bool}
    (h : RoundTrip (hostileDb hlimit cols) (fun _ _ params => stores params) m records) :
    ComesBack limit cols stores m records := by
  have hu := hm.unhooked
  by_cases hne : records = []
  · exact Or.inl hne
  by_cases hfields : insertFields m = []
  · exact Or.inr (Or.inl hfields)
  by_cases hstored : ∃ r ∈ records, stores (insertParams m r) = false
  · exact Or.inr (Or.inr (Or.inl hstored))
  refine Or.inr (Or.inr (Or.inr ?_))
  have hall : ∀ r ∈ records, stores (insertParams m r) = true := by
    intro r hr
    by_contra hfalse
    exact hstored ⟨r, hr, Bool.eq_false_iff.mpr hfalse⟩
  have hsome : (createAll (storeBackend (hostileDb hlimit cols) fun _ _ params => stores params)
      ⟨fun _ => [], none⟩ m records).isSome :=
    createAll_isSome hm.valid hu.beforeCreate hfields _ hall
  obtain ⟨s', hcreate⟩ := Option.isSome_iff_exists.mp hsome
  have htrip := (roundTrip_iff hm.valid hm.hard hu).mp h _ s' rfl hcreate
  obtain ⟨rows, hrows, hs'⟩ := createAll_rows hm.valid hu.beforeCreate hcreate
  rw [List.nil_append] at hs'
  rw [hs'] at htrip
  have hpair : ∀ r ∈ records, ∃ row ∈ rows, RowOf (hostileDb hlimit cols) m r row ∧
      ∀ f ∈ m.fields, CellTrip (fieldCell (hostileDb hlimit cols) m rows row f) r f := by
    intro r hr
    obtain ⟨i, hi, rfl⟩ := List.getElem_of_mem hr
    have hi' : i < rows.length := hrows.length_eq ▸ hi
    exact ⟨rows[i], List.getElem_mem hi', hrows.get hi hi', htrip.get hi hi'⟩
  refine ⟨fun f hf ha hcol => ?_, fun r hr f hf ha => ?_⟩
  · obtain ⟨r, hr⟩ := List.exists_mem_of_ne_nil _ hne
    obtain ⟨row, hmem, hrow, hback⟩ := hpair r hr
    obtain ⟨_, hn⟩ := hrow.given f hf ha
    obtain ⟨y, hy, -⟩ := hback f hf
    have hcell : fieldCell (hostileDb hlimit cols) m rows row f =
        some (fieldValue (hostileDb hlimit cols) rows f row) := if_pos hcol
    rw [hcell] at hy
    simp only at hy
    rw [fieldValue_autoinc hrows hmem hf ha hn] at hy
    exact memberSet_two (hm.storable f hf) hy
  · obtain ⟨row, hmem, hrow, hback⟩ := hpair r hr
    have hst := hm.storable f hf
    refine (cellTrip_bound hrows hne hrow hf ha hst (hterm r hr f hf) fun hcol ht => ?_).mp
      (hback f hf)
    by_contra hneg
    have hsize : 0 < f.size := by rwa [Field.Storable, ht] at hst
    exact hostile_blob hrows hrow hmem hf ha hcol ht hsize hneg (hback f hf)

end Hostile

/-- **When records come back from SQLite**, whatever it does where it is free: when every AUTOINC
field is an integer, every text is within the limit of SQLite, and every blob has a length that is
an `int` and within the limit, or zero bytes where it is not stored; a field whose column is spelled
otherwise is blank. Or some record is not stored at all. -/
theorem sqlite_roundTrip_iff {limit : ℕ} (hlimit : limit < 2 ^ 31) {cols : List Text}
    {stores : List Value → Bool} (hm : TripModel m cols)
    (hterm : ∀ r ∈ records, ∀ f ∈ m.fields, Terminated f.size f.type (r f)) :
    (∀ (db : SqliteDb) (accepts : Store Cell → Text → List Value → Bool),
      db.lib.limit = limit → db.columns m.table = cols →
      (∀ s sql params, accepts s sql params = true → stores params = true) →
      RoundTrip db accepts m records) ↔ ComesBack limit cols stores m records := by
  constructor
  · intro h
    exact comesBack_of_roundTrip hm hterm
      (h (hostileDb hlimit cols) _ rfl rfl fun _ _ _ => id)
  · rintro h db accepts rfl rfl hstores
    exact roundTrip_of_comesBack hm hterm hstores h

/-! ## A blob that does not come back -/

/-- A blob of more than 4 GiB. -/
def archiveData : Field := ⟨some "data".toList, .blob, 2 ^ 32 + 1, 0⟩

/-- The model with that field. -/
def archiveModel : Model where
  tableName := some "archives".toList
  structSize := 2 ^ 32 + 1
  fields := [archiveData]
  primaryKey := none
  primaryKey_mem := by simp
  beforeCreate := none
  afterCreate := none
  beforeUpdate := none
  afterUpdate := none
  beforeDelete := none
  afterDelete := none
  afterFind := none

/-- The member with 1 in every byte. -/
def oneMember (size : ℕ) : (t : FieldType) → Member size t
  | .blob => (⟨List.replicate size 1, List.length_replicate⟩ : Buffer UInt8 size)
  | t => zeroMember size t

/-- The record with 1 in every byte of its blobs. -/
def oneRecord : Record := fun f => oneMember f.size f.type

theorem archive_model : TripModel archiveModel ["data".toList] where
  registered := by decide +kernel
  hard := by decide +kernel
  unhooked := ⟨rfl, rfl⟩
  storable f hf := by
    rw [List.mem_singleton.mp hf]
    exact Nat.succ_pos _
  column f hf := by
    rw [List.mem_singleton.mp hf]
    exact ⟨_, List.mem_singleton_self _, rfl⟩
  own := List.nodup_singleton _

theorem archive_terminated : ∀ r ∈ [oneRecord], ∀ f ∈ archiveModel.fields,
    Terminated f.size f.type (r f) := by
  intro r _ f hf
  rw [List.mem_singleton.mp hf]
  trivial

/-- Only its first byte is stored, and the others come back as 0. -/
theorem archive_truncated :
    TripModel archiveModel ["data".toList] ∧
    (∀ r ∈ [oneRecord], ∀ f ∈ archiveModel.fields, Terminated f.size f.type (r f)) ∧
    ¬ ∀ (db : SqliteDb) (accepts : Store Cell → Text → List Value → Bool),
      db.lib.limit = 10 ^ 9 → db.columns archiveModel.table = ["data".toList] →
      RoundTrip db accepts archiveModel [oneRecord] := by
  refine ⟨archive_model, archive_terminated, fun h => ?_⟩
  have hback := comesBack_of_roundTrip archive_model archive_terminated
    (h (hostileDb (by decide : 10 ^ 9 < 2 ^ 31) ["data".toList]) (fun _ _ _ => true) rfl rfl)
  rcases hback with hnil | hnil | ⟨_, -, hfalse⟩ | ⟨-, hwhole⟩
  · cases hnil
  · exact absurd hnil (by decide +kernel)
  · cases hfalse
  · have hdata := hwhole oneRecord (List.mem_singleton_self _) archiveData
      (List.mem_singleton_self _) (by decide)
    rw [FieldBack, if_pos (by decide)] at hdata
    have hlow : (2 ^ 32 + 1) % 2 ^ 32 ≤ 10 ^ 9 := by decide
    have hblob : WholeBlob (2 ^ 32 + 1) (oneMember (2 ^ 32 + 1) .blob) := 
      (comesBackAs_blob hlow _).mp hdata
    have hmem : (1 : UInt8) ∈ (List.replicate (2 ^ 32 + 1) 1).drop ((2 ^ 32 + 1) % 2 ^ 32) := by
      rw [List.drop_replicate]
      exact List.mem_replicate.mpr ⟨by omega, rfl⟩
    exact absurd (hblob.2 1 hmem) (by decide)

theorem sqlite_roundTrip_iff_archive :
    (∀ (db : SqliteDb) (accepts : Store Cell → Text → List Value → Bool),
      db.lib.limit = 10 ^ 9 → db.columns archiveModel.table = ["data".toList] →
      (∀ s sql params, accepts s sql params = true → (fun _ => true) params = true) →
      RoundTrip db accepts archiveModel [oneRecord]) ↔
      ComesBack (10 ^ 9) ["data".toList] (fun _ => true) archiveModel [oneRecord] :=
  sqlite_roundTrip_iff (by decide) archive_model archive_terminated

end Corm
