import Corm.Backend.MysqlSimple
import Corm.Backend.SqliteValue
import Corm.Memory.Results

/-!
# The memory of a query

What `mysql_simple_query` and `sqlite_query` allocate and free, where any allocation may fail.

* `nameLoop`, `simpleMem`: `mysql_simple_query`;
* **`simple_memory_iff`**: it frees a name twice when the copy of a later one fails;
* `sqliteCopy`, `sqliteLoop`, `sqliteMem`: `sqlite_query`, where the copy of a text or a blob may fail;
* **`sqlite_memory`**: a query that fails leaves the values that it has copied behind.
-/

namespace Corm

open Handle

/-! ## Names and values -/

section Loops

variable (ok : Block → Bool)

/-- The loop of `mysql_simple_query` over the names, from column `i` on, with `k` left: the column
whose name is not copied. -/
def nameLoop (i : ℕ) : ℕ → MemLog → Option ℕ × MemLog
  | 0, log => (none, log)
  | k + 1, log =>
    if ok (.name i) then nameLoop (i + 1) k (.opened (.name i) :: log) else (some i, log)

/-- The blocks of the values, from row `r` on. -/
def valueBlocks {n : ℕ} (r : ℕ) : List (Fin n → Value) → List Block
  | [] => []
  | vals :: rest => cellBlocks r vals ++ valueBlocks (r + 1) rest

theorem nameLoop_spec (i k : ℕ) (log : MemLog) :
    (nameLoop ok i k log = (none, openAll ((List.range' i k).map .name) log) ∧
      ∀ j, i ≤ j → j < i + k → ok (.name j) = true) ∨
    ∃ m < k, nameLoop ok i k log = (some (i + m), openAll ((List.range' i m).map .name) log) ∧
      ok (.name (i + m)) = false ∧ ∀ j, i ≤ j → j < i + m → ok (.name j) = true := by
  induction k generalizing i log with
  | zero => exact Or.inl ⟨rfl, fun j h1 h2 => by omega⟩
  | succ k ih =>
    rw [nameLoop]
    by_cases hok : ok (.name i) = true
    · rw [if_pos hok]
      have hfrom {m : ℕ} (h : ∀ j, i + 1 ≤ j → j < i + 1 + m → ok (.name j) = true) :
          ∀ j, i ≤ j → j < i + (m + 1) → ok (.name j) = true := by
        intro j h1 h2
        rcases Nat.eq_or_lt_of_le h1 with rfl | h1
        · exact hok
        · exact h j h1 (by omega)
      rcases ih (i + 1) (.opened (.name i) :: log) with ⟨hloop, hall⟩ | ⟨m, hm, hloop, hno, hall⟩
      · exact Or.inl ⟨hloop, hfrom hall⟩
      · refine Or.inr ⟨m + 1, by omega, ?_, ?_, hfrom hall⟩
        · rw [hloop, Nat.add_assoc, Nat.add_comm 1]
          rfl
        · rwa [Nat.add_assoc, Nat.add_comm 1] at hno
    · rw [if_neg hok]
      exact Or.inr ⟨0, by omega, rfl, by simpa using hok, fun j h1 h2 => by omega⟩

end Loops

/-! ## MySQL -/

section Simple

variable (F : MysqlFormat) {R : MysqlStored} (ok : Block → Bool)

/-- The outcomes of the allocations, for the values of the result. -/
def simpleOutcome (R : MysqlStored) : SimpleOutcome R.columnCount where
  resultOk := (resultNew ok (toCInt R.rows.length) [.opened .stored]).1
  nameOk j := ok (.name j)
  copyOk r j := ok (.cell r j)

/-- The array of the rows that `corm_result_new` makes. -/
def rowArrayOf (rowCount : ℤ) : Option ℕ := if 0 < rowCount then some 0 else none

/-- The result of `mysql_simple_query`. -/
def simpleKept (R : MysqlStored) : ResultBlocks R.columnCount where
  rowArray := rowArrayOf (toCInt R.rows.length)
  values := R.rows.mapIdx (simpleRow F (simpleOutcome ok R))
  named _ := true

/-- `mysql_simple_query` for a stored result with fewer than `2 ^ 31` rows: its error, and what it
allocates and frees. The names that are copied before one that is not are freed, and the result is
released after that. -/
def simpleMem (R : MysqlStored) : Err × MemLog :=
  match resultNew ok (toCInt R.rows.length) [.opened .stored] with
  | (false, log) => (.nomem, .closed .stored :: log)
  | (true, log) =>
    match nameLoop ok 0 R.columnCount log with
    | (some i, log) =>
      (.nomem, closeAll (ResultBlocks.blocks (n := R.columnCount) ⟨rowArrayOf (toCInt R.rows.length),
        List.replicate R.rows.length zeroRow, fun j => decide (j < i)⟩)
        (.closed .stored :: closeAll ((List.range i).map .name) log))
    | (none, log) =>
      (.ok, .closed .stored :: openAll (valueBlocks 0 (simpleKept F ok R).values) log)

variable {F ok}

theorem simpleMem_out (hrows : R.rows.length < 2 ^ 31) (h : (simpleMem F ok R).1 = .ok) :
    mysqlSimpleOut F (simpleOutcome ok R) =
      some (.ok, some (R.result (simpleKept F ok R).values)) := by
  unfold simpleMem at h
  rcases hnew : resultNew ok (toCInt R.rows.length) [.opened .stored] with ⟨b, log⟩
  rw [hnew] at h
  cases b with
  | false => cases h
  | true =>
    rcases nameLoop_spec ok 0 R.columnCount log with ⟨hloop, hall⟩ | ⟨m, -, hloop, -⟩
    · have hresult : (simpleOutcome ok R).resultOk = true := congrArg Prod.fst hnew
      have hnames : ∀ j, (simpleOutcome ok R).nameOk j = true := fun j =>
        hall j (Nat.zero_le _) (by rw [Nat.zero_add]; exact j.2)
      have hrun := simpleLoop_replicate F (simpleOutcome ok R) [] R.rows
      simp only [List.nil_append, List.length_nil, Nat.zero_add] at hrun
      rw [mysqlSimpleOut, if_pos hresult, if_pos hnames, toCInt_toNat_iff.mpr hrows, hrun]
      rfl
    · simp only [hloop] at h
      cases h

end Simple

/-! ## Blocks of a result -/

section Blocks

variable {n : ℕ} {r : ℕ} {vals : List (Fin n → Value)}

theorem mem_cellBlocks {r : ℕ} {vals : Fin n → Value} {b : Block} :
    b ∈ cellBlocks r vals ↔ ∃ j, (vals j).owns = true ∧ b = .cell r j := by
  constructor
  · intro h
    obtain ⟨j, hj, rfl⟩ := List.mem_map.mp h
    exact ⟨j, (List.mem_filter.mp hj).2, rfl⟩
  · rintro ⟨j, hj, rfl⟩
    exact List.mem_map.mpr ⟨j, List.mem_filter.mpr ⟨List.mem_finRange j, hj⟩, rfl⟩

theorem mem_valueBlocks {b : Block} (h : b ∈ valueBlocks r vals) :
    ∃ r' j, r ≤ r' ∧ r' < r + vals.length ∧ b = .cell r' j := by
  induction vals generalizing r with
  | nil => cases h
  | cons v vals ih =>
    rw [List.length_cons]
    rcases List.mem_append.mp h with h | h
    · obtain ⟨j, -, rfl⟩ := mem_cellBlocks.mp h
      exact ⟨r, j, le_rfl, by omega, rfl⟩
    · obtain ⟨r', j, h1, h2, rfl⟩ := ih h
      exact ⟨r', j, by omega, by omega, rfl⟩

theorem cellBlocks_nodup (r : ℕ) (vals : Fin n → Value) : (cellBlocks r vals).Nodup :=
  ((List.nodup_finRange n).filter _).map fun _ _ h => Fin.val_injective (Block.cell.inj h).2

theorem valueBlocks_nodup (r : ℕ) (vals : List (Fin n → Value)) : (valueBlocks r vals).Nodup := by
  induction vals generalizing r with
  | nil => exact List.nodup_nil
  | cons v vals ih =>
    refine (cellBlocks_nodup r v).append (ih (r + 1)) fun b hb hb' => ?_
    obtain ⟨j, -, rfl⟩ := mem_cellBlocks.mp hb
    obtain ⟨r', j', h1, -, heq⟩ := mem_valueBlocks hb'
    have hr := (Block.cell.inj heq).1
    omega

theorem valueBlocks_eq_nil_iff (r : ℕ) {vals : List (Fin n → Value)} :
    valueBlocks r vals = [] ↔ ∀ v ∈ vals, ∀ j, (v j).owns = false := by
  induction vals generalizing r with
  | nil => exact iff_of_true rfl nofun
  | cons v vals ih =>
    have hcells : cellBlocks r v = [] ↔ ∀ j, (v j).owns = false := by
      simp [cellBlocks, List.filter_eq_nil_iff]
    rw [valueBlocks, List.append_eq_nil_iff, hcells, ih (r + 1), List.forall_mem_cons]

theorem rowBlocks_perm (r : ℕ) (vals : List (Fin n → Value)) :
    (rowBlocks r vals).Perm (valueBlocks r vals ++ (List.range' r vals.length).map .row) := by
  induction vals generalizing r with
  | nil => rfl
  | cons v vals ih =>
    rw [rowBlocks, valueBlocks, List.append_assoc, List.length_cons, List.range'_succ, List.map_cons]
    exact ((ih (r + 1)).cons _ |>.trans List.perm_middle.symm).append_left _

theorem valueBlocks_zero (r k : ℕ) :
    valueBlocks r (List.replicate k (zeroRow : Fin n → Value)) = [] := by
  refine (valueBlocks_eq_nil_iff r).mpr fun v hv j => ?_
  rw [List.eq_of_mem_replicate hv]
  rfl

/-- A result by the blocks that `corm_result_new` makes, those of its names and those of its
values. -/
theorem kept_blocks_perm (vals : List (Fin n → Value)) (k : ℕ) (hk : vals.length = k)
    (named : ℕ → Bool) :
    (ResultBlocks.blocks (n := n) ⟨rowArrayOf k, vals, named⟩).Perm
      (valueBlocks 0 vals ++ (((List.range n).filter named).map .name ++ newBlocks k)) := by
  have hrows := rowBlocks_perm 0 vals
  rw [hk, ← List.range_eq_range'] at hrows
  unfold ResultBlocks.blocks rowArrayOf newBlocks
  refine (hrows.append_right _ |>.append_right _ |>.append_right _).trans ?_
  refine List.perm_iff_count.mpr fun b => ?_
  split_ifs with hpos
  · simp only [List.count_append, Option.map_some, Option.toList_some, List.count_cons,
      List.count_nil, Int.toNat_natCast]
    omega
  · have hzero : k = 0 := by omega
    subst hzero
    simp only [List.count_append, Option.map_none, Option.toList_none, List.count_cons,
      List.count_nil, List.range_zero, List.map_nil]
    omega

theorem mem_newBlocks {k : ℤ} {b : Block} (h : b ∈ newBlocks k) :
    b = .header ∨ b = .names ∨ b = .types ∨ b = .rows 0 ∨ ∃ r, b = .row r := by
  unfold newBlocks at h
  split_ifs at h
  · simp only [List.mem_append, List.mem_cons, List.mem_map, List.not_mem_nil, or_false] at h
    rcases h with (rfl | rfl | rfl) | rfl | ⟨r, -, rfl⟩ <;> simp
  · simp only [List.mem_append, List.mem_cons, List.not_mem_nil, or_false] at h
    rcases h with rfl | rfl | rfl <;> simp

end Blocks

/-! ## The names are freed twice -/

section SimpleMemory

variable {F : MysqlFormat} {R : MysqlStored} {ok : Block → Bool}

theorem holds_unstored {log : MemLog} {blocks : List Block}
    (hh : Holds log (blocks ++ [Block.stored])) : Holds (.closed .stored :: log) blocks :=
  (hh.perm (List.perm_append_singleton _ _).symm).closed

theorem not_opened_new {log : MemLog} {rowCount : ℤ}
    (hopen : ∀ b, .opened b ∈ log → b ∈ newBlocks rowCount ++ [Block.stored]) :
    (∀ j, .opened (.name j) ∉ log) ∧ ∀ r j, .opened (.cell r j) ∉ log := by
  constructor <;> intros <;> intro hm <;> rcases List.mem_append.mp (hopen _ hm) with h | h
  · rcases mem_newBlocks h with h | h | h | h | ⟨r, h⟩ <;> cases h
  · cases List.mem_singleton.mp h
  · rcases mem_newBlocks h with h | h | h | h | ⟨r, h⟩ <;> cases h
  · cases List.mem_singleton.mp h

theorem holds_named {log : MemLog} {rowCount : ℤ}
    (hh : Holds log (newBlocks rowCount ++ [Block.stored]))
    (hopen : ∀ b, .opened b ∈ log → b ∈ newBlocks rowCount ++ [Block.stored]) (k : ℕ) :
    Holds (openAll ((List.range k).map .name) log)
      ((List.range k).map .name ++ (newBlocks rowCount ++ [Block.stored])) := by
  refine hh.openAll (List.nodup_range.map fun _ _ => Block.name.inj) fun b hb hm => ?_
  obtain ⟨j, -, rfl⟩ := List.mem_map.mp hb
  exact (not_opened_new hopen).1 j hm

theorem holds_valued {log : MemLog} (hh : Holds log (newBlocks R.rows.length ++ [Block.stored]))
    (hopen : ∀ b, .opened b ∈ log → b ∈ newBlocks R.rows.length ++ [Block.stored])
    (vals : List (Fin R.columnCount → Value)) (hlen : vals.length = R.rows.length) :
    Holds (.closed .stored ::
        openAll (valueBlocks 0 vals) (openAll ((List.range R.columnCount).map .name) log))
      (ResultBlocks.blocks (n := R.columnCount) ⟨rowArrayOf R.rows.length, vals, fun _ => true⟩) := by
  have hnames := holds_named hh hopen R.columnCount
  have hvalues := hnames.openAll (valueBlocks_nodup 0 vals) fun b hb hm => by
    obtain ⟨r, j, -, -, rfl⟩ := mem_valueBlocks hb
    rcases mem_openAll_opened.mp hm with hm | hm
    · obtain ⟨i, -, h⟩ := List.mem_map.mp hm
      cases h
    · exact (not_opened_new hopen).2 r j hm
  have hperm := kept_blocks_perm vals R.rows.length hlen fun _ => true
  rw [List.filter_true] at hperm
  refine holds_unstored (hvalues.perm ?_)
  rw [← List.append_assoc, ← List.append_assoc, List.append_assoc (valueBlocks 0 vals)]
  exact hperm.append_right _

/-- The copy of the name of the first column fails: the result is released, and nothing is left. -/
theorem holds_unnamed {log : MemLog} (hh : Holds log (newBlocks R.rows.length ++ [Block.stored])) :
    Holds (closeAll (ResultBlocks.blocks (n := R.columnCount) ⟨rowArrayOf R.rows.length,
      List.replicate R.rows.length zeroRow, fun j => decide (j < 0)⟩)
      (.closed .stored :: log)) [] := by
  have hperm := kept_blocks_perm (n := R.columnCount) (List.replicate R.rows.length zeroRow)
    R.rows.length List.length_replicate fun j => decide (j < 0)
  have hnone : (List.range R.columnCount).filter (fun j => decide (j < 0)) = [] := by simp
  rw [valueBlocks_zero, hnone] at hperm
  refine Holds.closeAll ?_
  rw [List.append_nil]
  exact (holds_unstored hh).perm hperm

/-- That of a later one fails: the name of the first column has been freed, and is freed again. -/
theorem not_clean_named (log : MemLog) {m : ℕ} (hm : 0 < m) (hlt : m < R.columnCount) :
    ¬ Clean (closeAll (ResultBlocks.blocks (n := R.columnCount) ⟨rowArrayOf R.rows.length,
      List.replicate R.rows.length zeroRow, fun j => decide (j < m)⟩)
      (.closed .stored :: closeAll ((List.range m).map .name) log)) := by
  intro hclean
  have hfirst : Block.name 0 ∈ (List.range m).map Block.name :=
    List.mem_map_of_mem (List.mem_range.mpr hm)
  have hagain : Block.name 0 ∈ ResultBlocks.blocks (n := R.columnCount) ⟨rowArrayOf R.rows.length,
      List.replicate R.rows.length zeroRow, fun j => decide (j < m)⟩ := by
    have hnamed : Block.name 0 ∈ ((List.range R.columnCount).filter fun j => decide (j < m)).map
        Block.name :=
      List.mem_map_of_mem (List.mem_filter.mpr ⟨List.mem_range.mpr (by omega), by simpa using hm⟩)
    exact List.mem_append_left _ (List.mem_append_right _ hnamed)
  exact hclean.closeAll_new _ hagain
    (List.mem_cons_of_mem _ (mem_closeAll_closed.mpr (Or.inl hfirst)))

theorem toCInt_eq {k : ℕ} (hk : k < 2 ^ 31) : toCInt k = k := by
  have hnat := toCInt_toNat_iff.mpr hk
  have hpos : 0 ≤ toCInt k := by
    unfold toCInt
    rw [Int.bmod_def]
    split_ifs <;> omega
  omega

/-- **A name is freed twice** by `mysql_simple_query` exactly when the copy of a name fails after that
of the first column. Otherwise, whatever fails, what is live in the end is the result that it
returns, or nothing. -/
theorem simple_memory_iff (hrows : R.rows.length < 2 ^ 31) :
    (Clean (simpleMem F ok R).2 ↔ ((resultNew ok R.rows.length [.opened .stored]).1 = true →
      ∀ i, 0 < i → i < R.columnCount → (∀ j < i, ok (.name j) = true) → ok (.name i) = true)) ∧
    (Clean (simpleMem F ok R).2 → Holds (simpleMem F ok R).2
      (if (simpleMem F ok R).1 = .ok then (simpleKept F ok R).blocks else [])) := by
  unfold simpleMem simpleKept
  rw [toCInt_eq hrows]
  have hstored : Holds ([.opened .stored] : MemLog) [.stored] := Holds.nil.opened List.not_mem_nil
  have hfresh : ∀ b ∈ newBlocks R.rows.length, .opened b ∉ ([.opened .stored] : MemLog) := by
    intro b hb hm
    obtain rfl := Event.opened.inj (List.mem_singleton.mp hm)
    rcases mem_newBlocks hb with h | h | h | h | ⟨r, h⟩ <;> cases h
  have hspec := resultNew_spec ok R.rows.length hstored hfresh
  rcases hnew : resultNew ok R.rows.length [.opened .stored] with ⟨b, log⟩
  rw [hnew] at hspec
  cases b with
  | false =>
    have hnone : Holds (.closed .stored :: log) [] := (hspec.2 rfl).closed
    exact ⟨iff_of_true hnone.clean nofun, fun _ => hnone⟩
  | true =>
    have hlog : log = openAll (newBlocks R.rows.length) [.opened .stored] := hspec.1 rfl
    have hopen : ∀ b, .opened b ∈ log → b ∈ newBlocks R.rows.length ++ [Block.stored] := by
      intro b hb
      rw [hlog, mem_openAll_opened] at hb
      rcases hb with hb | hb
      · exact List.mem_append_left _ hb
      · obtain rfl := Event.opened.inj (List.mem_singleton.mp hb)
        exact List.mem_append_right _ List.mem_cons_self
    have hh : Holds log (newBlocks R.rows.length ++ [Block.stored]) := by
      rw [hlog]
      exact hstored.openAll (newBlocks_nodup R.rows.length) hfresh
    rcases nameLoop_spec ok 0 R.columnCount log with ⟨hloop, hall⟩ | ⟨m, hm, hloop, hno, hall⟩
    · rw [← List.range_eq_range'] at hloop
      simp only [hloop]
      have hholds := holds_valued hh hopen (R.rows.mapIdx (simpleRow F (simpleOutcome ok R)))
        List.length_mapIdx
      exact ⟨iff_of_true hholds.clean fun _ i _ hi _ => hall i (Nat.zero_le _) (by omega),
        fun _ => hholds⟩
    · rw [Nat.zero_add, ← List.range_eq_range'] at hloop
      rw [Nat.zero_add] at hno hall
      simp only [hloop]
      rcases Nat.eq_zero_or_pos m with rfl | hpos
      · have hnone := holds_unnamed (R := R) hh
        refine ⟨iff_of_true hnone.clean fun _ i hi _ hok => ?_, fun _ => hnone⟩
        rw [hok 0 hi] at hno
        cases hno
      · have hbad := not_clean_named (R := R) (openAll ((List.range m).map .name) log) hpos hm
        refine ⟨iff_of_false hbad fun hgood => ?_, fun hclean => absurd hclean hbad⟩
        have hok := hgood trivial m hpos hm fun j hj => hall j (Nat.zero_le _) hj
        rw [hno] at hok
        cases hok

end SimpleMemory

/-- The copy of the second name fails. -/
def secondName (b : Block) : Bool := decide (b ≠ .name 1)

/-- Two columns without rows. -/
def twoColumns : MysqlStored where
  columnCount := 2
  columnCount_pos := Nat.two_pos
  names i := if i.val = 0 then "id".toList else "name".toList
  types _ := .long
  rows := []

theorem simple_memory_iff_twoColumns :
    (Clean (simpleMem noDoubles secondName twoColumns).2 ↔
      ((resultNew secondName twoColumns.rows.length [.opened .stored]).1 = true → ∀ i, 0 < i →
        i < twoColumns.columnCount → (∀ j < i, secondName (.name j) = true) →
          secondName (.name i) = true)) ∧
    (Clean (simpleMem noDoubles secondName twoColumns).2 →
      Holds (simpleMem noDoubles secondName twoColumns).2
        (if (simpleMem noDoubles secondName twoColumns).1 = .ok then
          (simpleKept noDoubles secondName twoColumns).blocks else [])) :=
  simple_memory_iff (by decide)

/-! ## SQLite -/

/-- A row that `sqlite3_step` finds: its cells, and whether the array of rows can grow and the row be
allocated. -/
structure RowRun (n : ℕ) where
  growOk : Bool
  rowOk : Bool
  cells : Fin n → Cell

/-- A call of `sqlite_query`: its error, the values that it has read, the result that it returns, and
what it allocates and frees. -/
structure SqliteCall (n : ℕ) where
  err : Err
  read : List (Fin n → Value)
  result : Option (ResultBlocks n)
  log : MemLog

/-- A value of `sqlite_query`: without memory for its copy, a text or a blob is a null pointer. -/
def sqliteCopy (copyOk : Bool) (val : Value) : Value := if copyOk then val else val.uncopied

/-- The copies of the values, from row `r` on. -/
def copiedRows {n : ℕ} (ok : Block → Bool) (r : ℕ) :
    List (Fin n → Value) → List (Fin n → Value)
  | [] => []
  | vals :: rest => (fun j => sqliteCopy (ok (.cell r j)) (vals j)) :: copiedRows ok (r + 1) rest

section Sqlite

variable {n : ℕ} (L : Sqlite)

/-- What every failing branch frees: the rows, their array and the types. -/
def freeRows (read : List (Fin n → Value)) (moved : ℕ) (log : MemLog) : MemLog :=
  closeAll ((List.range read.length).map .row ++ [Block.rows moved, .colTypes]) log

/-- Room for one more row: whether there is, the new capacity, and how often the array has moved. -/
def growRows (growOk : Bool) (count cap moved : ℕ) (log : MemLog) : Bool × ℕ × ℕ × MemLog :=
  if cap ≤ count then
    if growOk then
      (true, 2 * cap, moved + 1, .opened (.rows (moved + 1)) :: .closed (.rows moved) :: log)
    else (false, cap, moved, log)
  else (true, cap, moved, log)

/-- The loop of `sqlite_query`, with the rows that are left: whether it ends, the values that were
read, and how often the array of rows, which has room for `cap`, has moved. The result of a copy is
not looked at. -/
def sqliteLoop (ok : Block → Bool) (colTypes : Fin n → FieldType) (read : List (Fin n → Value))
    (cap moved : ℕ) : List (RowRun n) → MemLog → Bool × List (Fin n → Value) × ℕ × MemLog
  | [], log => (true, read, moved, log)
  | row :: rest, log =>
    match growRows row.growOk read.length cap moved log with
    | (false, _, moved, log) => (false, read, moved, freeRows read moved log)
    | (true, cap, moved, log) =>
      if row.rowOk then
        let colTypes := fun i => inferType (colTypes i) (row.cells i)
        let vals := fun i : Fin n =>
          sqliteCopy (ok (.cell read.length i)) (resultValue L (colTypes i) (row.cells i))
        sqliteLoop ok colTypes (read ++ [vals]) cap moved rest
          (openAll (cellBlocks read.length vals) (.opened (.row read.length) :: log))
      else (false, read, moved, freeRows read moved log)

/-- `sqlite_query` from the first allocation on, where `done` is `rc == SQLITE_DONE`. -/
def sqliteMem (rowsOk typesOk : Bool) (rows : List (RowRun n)) (done : Bool) (ok : Block → Bool) :
    SqliteCall n :=
  if rowsOk && typesOk then
    match sqliteLoop L ok (fun _ => .int) [] 16 0 rows (openAll [.rows 0, .colTypes] []) with
    | (false, read, _, log) => ⟨.nomem, read, none, log⟩
    | (true, read, moved, log) =>
      if done then
        match resultNew ok 0 log with
        | (false, log) => ⟨.nomem, read, none, freeRows read moved log⟩
        | (true, log) =>
          ⟨.ok, read, some ⟨some moved, read, fun j => ok (.name j)⟩, .closed .colTypes ::
            openAll (((List.range n).filter fun j => ok (.name j)).map .name) log⟩
      else ⟨.backend, read, none, freeRows read moved log⟩
  else
    let got := (if rowsOk then [.rows 0] else []) ++ if typesOk then [.colTypes] else []
    ⟨.nomem, [], none, closeAll got (openAll got [])⟩

variable {L} {ok : Block → Bool} {read : List (Fin n → Value)} {moved : ℕ} {log : MemLog}

/-- In the loop: what is live, and what has been allocated. -/
structure Reading (read : List (Fin n → Value)) (moved : ℕ) (log : MemLog) : Prop where
  holds : Holds log ((List.range read.length).map .row ++ [Block.rows moved, .colTypes] ++
    valueBlocks 0 read)
  seen : ∀ b, .opened b ∈ log → b = .colTypes ∨ (∃ k ≤ moved, b = .rows k) ∨
    (∃ r < read.length, b = .row r) ∨ ∃ r < read.length, ∃ j, b = .cell r j

theorem valueBlocks_append (r : ℕ) (read : List (Fin n → Value)) (vals : Fin n → Value) :
    valueBlocks r (read ++ [vals]) = valueBlocks r read ++ cellBlocks (r + read.length) vals := by
  induction read generalizing r with
  | nil => simp [valueBlocks]
  | cons v read ih =>
    rw [List.cons_append, valueBlocks, ih, valueBlocks, List.append_assoc, List.length_cons]
    congr 3
    omega

theorem Reading.free (h : Reading read moved log) :
    Holds (freeRows read moved log) (valueBlocks 0 read) := h.holds.closeAll

theorem Reading.grow (h : Reading read moved log) (growOk : Bool) (cap : ℕ) {enough : Bool}
    {cap' moved' : ℕ} {log' : MemLog}
    (hgrow : growRows growOk read.length cap moved log = (enough, cap', moved', log')) :
    Reading read moved' log' := by
  unfold growRows at hgrow
  split_ifs at hgrow with hfull hok <;> cases hgrow
  · have hfirst : Holds log (.rows moved ::
        ((List.range read.length).map .row ++ [Block.colTypes] ++ valueBlocks 0 read)) := by
      refine h.holds.perm (List.perm_iff_count.mpr fun b => ?_)
      simp only [List.count_append, List.count_cons, List.count_nil]
      omega
    have hnew : .opened (.rows (moved + 1)) ∉ .closed (.rows moved) :: log := by
      intro hm
      have hm : .opened (.rows (moved + 1)) ∈ log := by simpa using hm
      rcases h.seen _ hm with heq | ⟨k, hk, heq⟩ | ⟨r, -, heq⟩ | ⟨r, -, j, heq⟩ <;> cases heq
      omega
    refine ⟨(hfirst.closed.opened hnew).perm (List.perm_iff_count.mpr fun b => ?_),
      fun b hb => ?_⟩
    · simp only [List.count_append, List.count_cons, List.count_nil]
      omega
    · rcases List.mem_cons.mp hb with heq | hb
      · exact Or.inr (Or.inl ⟨moved + 1, le_rfl, Event.opened.inj heq⟩)
      · have hb : .opened b ∈ log := by simpa using hb
        rcases h.seen b hb with heq | ⟨k, hk, heq⟩ | hrest
        · exact Or.inl heq
        · exact Or.inr (Or.inl ⟨k, by omega, heq⟩)
        · exact Or.inr (Or.inr hrest)
  · exact h
  · exact h

theorem Reading.row (h : Reading read moved log) (vals : Fin n → Value) :
    Reading (read ++ [vals]) moved
      (openAll (cellBlocks read.length vals) (.opened (.row read.length) :: log)) := by
  have hrow : .opened (.row read.length) ∉ log := fun hm => by
    rcases h.seen _ hm with heq | ⟨k, -, heq⟩ | ⟨r, hr, heq⟩ | ⟨r, -, j, heq⟩ <;> cases heq
    omega
  have hcells : ∀ b ∈ cellBlocks read.length vals,
      .opened b ∉ .opened (.row read.length) :: log := fun b hb hm => by
    obtain ⟨j, -, rfl⟩ := mem_cellBlocks.mp hb
    rcases List.mem_cons.mp hm with heq | hm
    · cases heq
    · rcases h.seen _ hm with heq | ⟨k, -, heq⟩ | ⟨r, -, heq⟩ | ⟨r, hr, j, heq⟩ <;> cases heq
      omega
  have hlive := (h.holds.opened hrow).openAll (cellBlocks_nodup read.length vals) hcells
  refine ⟨hlive.perm (List.perm_iff_count.mpr fun b => ?_), fun b hb => ?_⟩
  · simp only [List.count_append, List.count_cons, List.count_nil, valueBlocks_append,
      List.length_append, List.length_singleton, List.range_succ, List.map_append, List.map_cons,
      List.map_nil, Nat.zero_add]
    omega
  · have hlt : read.length < (read ++ [vals]).length := by simp
    rcases mem_openAll_opened.mp hb with hb | hb
    · obtain ⟨j, -, rfl⟩ := mem_cellBlocks.mp hb
      exact Or.inr (Or.inr (Or.inr ⟨_, hlt, j, rfl⟩))
    rcases List.mem_cons.mp hb with heq | hb
    · exact Or.inr (Or.inr (Or.inl ⟨_, hlt, Event.opened.inj heq⟩))
    rcases h.seen b hb with heq | hrows | ⟨r, hr, heq⟩ | ⟨r, hr, hcell⟩
    · exact Or.inl heq
    · exact Or.inr (Or.inl hrows)
    · exact Or.inr (Or.inr (Or.inl ⟨r, hr.trans hlt, heq⟩))
    · exact Or.inr (Or.inr (Or.inr ⟨r, hr.trans hlt, hcell⟩))

theorem sqliteLoop_spec (h : Reading read moved log) (colTypes : Fin n → FieldType) (cap : ℕ)
    (rows : List (RowRun n)) {finished : Bool} {read' : List (Fin n → Value)} {moved' : ℕ}
    {log' : MemLog}
    (hloop : sqliteLoop L ok colTypes read cap moved rows log = (finished, read', moved', log')) :
    read' <+: read ++ copiedRows ok read.length (fetchRows L colTypes (rows.map RowRun.cells)).2 ∧
    (finished = true → Reading read' moved' log' ∧
      read' = read ++ copiedRows ok read.length (fetchRows L colTypes (rows.map RowRun.cells)).2) ∧
    (finished = false → Holds log' (valueBlocks 0 read')) := by
  induction rows generalizing read moved log colTypes cap with
  | nil =>
    obtain ⟨rfl, rfl, rfl, rfl⟩ : true = finished ∧ read = read' ∧ moved = moved' ∧ log = log' := by
      simpa [sqliteLoop] using hloop
    rw [List.map_nil, fetchRows, copiedRows, List.append_nil]
    exact ⟨List.prefix_rfl, fun _ => ⟨h, rfl⟩, fun hno => absurd hno.symm Bool.false_ne_true⟩
  | cons row rows ih =>
    rw [sqliteLoop] at hloop
    rcases hgrow : growRows row.growOk read.length cap moved log with ⟨enough, cap₁, moved₁, log₁⟩
    have h₁ := h.grow row.growOk cap hgrow
    rw [hgrow] at hloop
    have hstop (hstop : (false, read, moved₁, freeRows read moved₁ log₁) =
        (finished, read', moved', log')) :
        read' <+: read ++ copiedRows ok read.length
          (fetchRows L colTypes ((row :: rows).map RowRun.cells)).2 ∧
        (finished = true → Reading read' moved' log' ∧
          read' = read ++ copiedRows ok read.length
            (fetchRows L colTypes ((row :: rows).map RowRun.cells)).2) ∧
        (finished = false → Holds log' (valueBlocks 0 read')) := by
      cases hstop
      exact ⟨List.prefix_append _ _, fun hno => absurd hno Bool.false_ne_true, fun _ => h₁.free⟩
    cases enough with
    | false => exact hstop hloop
    | true =>
      simp only at hloop
      split_ifs at hloop with hok
      · have hspec := ih (h₁.row _) _ cap₁ hloop
        rwa [List.append_assoc, List.length_append, List.length_singleton] at hspec
      · exact hstop hloop

theorem reading_start :
    Reading ([] : List (Fin n → Value)) 0 (openAll [.rows 0, .colTypes] []) where
  holds := Holds.nil.openAll (by decide) fun _ _ => List.not_mem_nil
  seen b hb := by
    rcases mem_openAll_opened.mp hb with hb | hb
    · rcases List.mem_pair.mp hb with rfl | rfl
      · exact Or.inr (Or.inl ⟨0, le_rfl, rfl⟩)
      · exact Or.inl rfl
    · cases hb

variable (L ok) in
/-- What is live after a call: the result that it returns, with the copies of all values, or the
copies of the values that it has read. -/
structure SqliteCall.Settled (q : SqliteCall n) (cells : List (Fin n → Cell)) : Prop where
  read : q.read <+: copiedRows ok 0 (fetchRows L (fun _ => .int) cells).2
  returned : ∀ K ∈ q.result, q.err = .ok ∧ Holds q.log K.blocks ∧
    K.values = copiedRows ok 0 (fetchRows L (fun _ => .int) cells).2
  failed : q.result = none → q.err ≠ .ok ∧ Holds q.log (valueBlocks 0 q.read)

theorem settled_failed {cells : List (Fin n → Cell)} {err : Err} (herr : err ≠ .ok)
    (hread : read <+: copiedRows ok 0 (fetchRows L (fun _ => .int) cells).2)
    (hlive : Holds log (valueBlocks 0 read)) :
    SqliteCall.Settled L ok ⟨err, read, none, log⟩ cells :=
  ⟨hread, nofun, fun _ => ⟨herr, hlive⟩⟩

theorem Reading.result (h : Reading read moved log) {log' : MemLog}
    (hnew : resultNew ok 0 log = (true, log')) :
    Holds (.closed .colTypes ::
        openAll (((List.range n).filter fun j => ok (.name j)).map .name) log')
      (ResultBlocks.blocks (n := n) ⟨some moved, read, fun j => ok (.name j)⟩) := by
  have hmade : ∀ b ∈ newBlocks 0, .opened b ∉ log := fun b hb hm => by
    rcases h.seen b hm with rfl | ⟨k, -, rfl⟩ | ⟨r, -, rfl⟩ | ⟨r, -, j, rfl⟩ <;>
      simp [newBlocks] at hb
  have hlog : log' = openAll (newBlocks 0) log := by
    have hspec := (resultNew_spec ok 0 h.holds hmade).1
    rw [hnew] at hspec
    exact hspec rfl
  have hlive := h.holds.openAll (newBlocks_nodup 0) hmade
  rw [← hlog] at hlive
  have hnames : ∀ b ∈ ((List.range n).filter fun j => ok (.name j)).map Block.name,
      .opened b ∉ log' := fun b hb hm => by
    obtain ⟨j, -, rfl⟩ := List.mem_map.mp hb
    rw [hlog, mem_openAll_opened] at hm
    rcases hm with hm | hm
    · simp [newBlocks] at hm
    · rcases h.seen _ hm with heq | ⟨k, -, heq⟩ | ⟨r, -, heq⟩ | ⟨r, -, j, heq⟩ <;> cases heq
  have hnodup : (((List.range n).filter fun j => ok (.name j)).map Block.name).Nodup :=
    (List.nodup_range.filter _).map fun _ _ => Block.name.inj
  have hrows := rowBlocks_perm 0 read
  rw [← List.range_eq_range'] at hrows
  refine Holds.closed ((hlive.openAll hnodup hnames).perm ?_)
  unfold ResultBlocks.blocks
  refine ((hrows.append_right _ |>.append_right _ |>.append_right _).cons _).trans ?_
  refine List.perm_iff_count.mpr fun b => ?_
  simp only [newBlocks, List.count_append, Option.map_some, Option.toList_some, List.count_cons,
    List.count_nil, lt_irrefl, if_false]
  omega

theorem sqliteMem_settled (rowsOk typesOk : Bool) (rows : List (RowRun n)) (done : Bool)
    (ok : Block → Bool) :
    (sqliteMem L rowsOk typesOk rows done ok).Settled L ok (rows.map RowRun.cells) := by
  unfold sqliteMem
  by_cases harrays : (rowsOk && typesOk) = true
  · rw [if_pos harrays]
    rcases hloop : sqliteLoop L ok (fun _ => .int) [] 16 0 rows
      (openAll [.rows 0, .colTypes] []) with ⟨finished, read, moved, log⟩
    obtain ⟨hread, hall, hstop⟩ := sqliteLoop_spec reading_start (fun _ => .int) 16 rows hloop
    rw [List.nil_append] at hread hall
    cases finished with
    | false => exact settled_failed nofun hread (hstop rfl)
    | true =>
      obtain ⟨hreading, hvalues⟩ := hall rfl
      cases done with
      | false => exact settled_failed nofun hread hreading.free
      | true =>
        rcases hnew : resultNew ok 0 log with ⟨b, log'⟩
        simp only [hnew, if_true]
        cases b with
        | true =>
          refine ⟨hread, fun K hK => ?_, nofun⟩
          obtain rfl := Option.some.inj hK
          exact ⟨rfl, hreading.result hnew, hvalues⟩
        | false =>
          have hmade : ∀ b ∈ newBlocks 0, .opened b ∉ log := fun b hb hm => by
            rcases hreading.seen b hm with rfl | ⟨k, -, rfl⟩ | ⟨r, -, rfl⟩ | ⟨r, -, j, rfl⟩ <;>
              simp [newBlocks] at hb
          have hlive := (resultNew_spec ok 0 hreading.holds hmade).2
          rw [hnew] at hlive
          exact settled_failed nofun hread (hlive rfl).closeAll
  · rw [if_neg harrays]
    have hnone (got : List Block) (hn : got.Nodup) :
        Holds (closeAll got (openAll got []) : MemLog) [] :=
      (Holds.nil.openAll hn fun _ _ => List.not_mem_nil).closeAll
    refine settled_failed nofun List.nil_prefix (hnone _ ?_)
    cases rowsOk <;> cases typesOk <;> decide

/-- **The memory of `sqlite_query`**, whatever fails: nothing is freed twice; a result that is
returned has the values of all rows, with a null pointer for each text and blob that was not copied,
and is all that is live; and a call that fails leaves the copies of the texts and blobs of the rows
that it has read, so that nothing is lost exactly when there are none. -/
theorem sqlite_memory (rowsOk typesOk : Bool) (rows : List (RowRun n)) (done : Bool)
    (ok : Block → Bool) :
    (sqliteMem L rowsOk typesOk rows done ok).Settled L ok (rows.map RowRun.cells) ∧
    ((sqliteMem L rowsOk typesOk rows done ok).result = none →
      (Holds (sqliteMem L rowsOk typesOk rows done ok).log [] ↔
        ∀ vals ∈ (sqliteMem L rowsOk typesOk rows done ok).read, ∀ j, (vals j).owns = false)) := by
  have hsettled := sqliteMem_settled (L := L) rowsOk typesOk rows done ok
  refine ⟨hsettled, fun hnone => ?_⟩
  obtain ⟨-, hlive⟩ := hsettled.failed hnone
  rw [← valueBlocks_eq_nil_iff 0]
  constructor
  · intro hempty
    refine List.eq_nil_iff_forall_not_mem.mpr fun b hb => ?_
    exact List.not_mem_nil ((hempty.live b).mp ((hlive.live b).mpr hb))
  · intro hnil
    rwa [hnil] at hlive

end Sqlite

end Corm
