import Corm.Lib.Handle
import Corm.Types
import Mathlib.Data.Int.Notation

/-!
# The memory of a description

What the three `describe_table` functions and `corm_column_info_free` allocate and free, where any
allocation may fail.

* `ColumnInfo`, `ColumnRow`: an entry of the array, and the rows that each server answers with;
* `InfoBlock`: the blocks; `tableBlocks`: what `corm_column_info_free` frees, in its order;
* `growLoop`, **`growLoop_spec`**: the loop of SQLite and MySQL, whose array grows;
* `describeTable`, **`describe_spec`**: the functions keep the array with its strings, or nothing;
  SQLite's is undefined when the quoted name of the table is not allocated.
-/

namespace Corm

open Handle

/-! ## Entries -/

/-- `corm_column_info_t`. -/
structure ColumnInfo where
  name : Option Text
  typeName : Option Text
  notNull : ℤ
  isPk : ℤ
  defaultValue : Option Text

/-- A row of `PRAGMA table_info`, as `sqlite3_column_text` and `sqlite3_column_int` read it. -/
structure SqliteColumnRow where
  name : Option Text
  type : Option Text
  notNull : ℤ
  dflt : Option Text
  pk : ℤ

/-- A row of `SHOW COLUMNS`. -/
structure MysqlColumnRow where
  field : Option Text
  type : Option Text
  null : Option Text
  key : Option Text
  default : Option Text

/-- A row of `information_schema.columns`, as `PQgetvalue` reads it. -/
structure PgColumnRow where
  columnName : Text
  dataType : Text
  isNullable : Text
  pk : Text
  columnDefault : Text

/-- The rows that a server answers with. -/
def ColumnRow : BackendType → Type
  | .sqlite => SqliteColumnRow
  | .mysql => MysqlColumnRow
  | .postgres => PgColumnRow

/-- The entry of a row, if all of its strings are copied. -/
def ColumnRow.info : (bt : BackendType) → ColumnRow bt → ColumnInfo
  | .sqlite, (row : SqliteColumnRow) => ⟨row.name, row.type, row.notNull, row.pk, row.dflt⟩
  | .mysql, (row : MysqlColumnRow) =>
    ⟨row.field, row.type, if row.null.any (· ≠ "YES".toList) then 1 else 0,
      if row.key = some "PRI".toList then 1 else 0, row.default⟩
  | .postgres, (row : PgColumnRow) =>
    ⟨some row.columnName, some row.dataType, if row.isNullable = "NO".toList then 1 else 0,
      if row.pk.head? = some '1' then 1 else 0,
      if row.columnDefault = [] then none else some row.columnDefault⟩

/-! ## Blocks -/

/-- The strings of an entry. -/
inductive InfoPart
  | name
  | typeName
  | defaultValue
  deriving DecidableEq

/-- The array, which may have moved; the strings of its entries; what the client library keeps of an
answer; and the name that `sqlite3_mprintf` quotes. -/
inductive InfoBlock
  | array (moved : ℕ)
  | part (i : ℕ) (p : InfoPart)
  | answer
  | quoted
  deriving DecidableEq

/-- What was allocated and freed. -/
abbrev InfoLog := List (Event Empty InfoBlock)

/-- The strings that the entry `i` points to, in the order in which they are freed. -/
def ColumnInfo.blocks (i : ℕ) (info : ColumnInfo) : List InfoBlock :=
  (if info.name.isSome then [.part i .name] else []) ++
    (if info.typeName.isSome then [.part i .typeName] else []) ++
    if info.defaultValue.isSome then [.part i .defaultValue] else []

/-- The strings of the entries from `i` on. -/
def infoBlocks (i : ℕ) : List ColumnInfo → List InfoBlock
  | [] => []
  | info :: infos => info.blocks i ++ infoBlocks (i + 1) infos

/-- What `corm_column_info_free` frees. -/
def tableBlocks (moved : ℕ) (infos : List ColumnInfo) : List InfoBlock :=
  infoBlocks 0 infos ++ [InfoBlock.array moved]

/-- `corm_column_info_free`, of a null pointer or of an array. -/
def columnInfoFree (out : Option (ℕ × List ColumnInfo)) (log : InfoLog) : InfoLog :=
  closeAll (out.elim [] fun p => tableBlocks p.1 p.2) log

/-! ## The functions -/

section Describe

variable (ok : InfoBlock → Bool)

/-- The entry `i`, with the strings that `strdup` could copy. -/
def copyInfo (i : ℕ) (info : ColumnInfo) : ColumnInfo :=
  { info with
    name := if ok (.part i .name) then info.name else none
    typeName := if ok (.part i .typeName) then info.typeName else none
    defaultValue := if ok (.part i .defaultValue) then info.defaultValue else none }

/-- The entries from `i` on. -/
def copyInfos (i : ℕ) : List ColumnInfo → List ColumnInfo
  | [] => []
  | info :: infos => copyInfo ok i info :: copyInfos (i + 1) infos

/-- The loop of `sqlite_describe_table` and `mysql_describe_table`, with room for `cap` entries and
those of `read` filled in. The array is freed when it cannot grow. -/
def growLoop (moved cap : ℕ) (read : List ColumnInfo) :
    List ColumnInfo → InfoLog → Option (ℕ × List ColumnInfo) × InfoLog
  | [], log => (some (moved, read), log)
  | row :: rows, log =>
    let info := copyInfo ok read.length row
    if read.length < cap then
      growLoop moved cap (read ++ [info]) rows (openAll (info.blocks read.length) log)
    else if ok (.array (moved + 1)) then
      growLoop (moved + 1) (2 * cap) (read ++ [info]) rows
        (openAll (info.blocks read.length)
          (.opened (.array (moved + 1)) :: .closed (.array moved) :: log))
    else (none, columnInfoFree (some (moved, read)) log)

/-- What `describe_table` leaves: its error, the array in `*out` with `*count` entries, and what was
allocated and freed. -/
structure Described where
  err : Err
  out : Option (ℕ × List ColumnInfo)
  log : InfoLog

/-- SQLite and MySQL from the array on, with room for `cap` entries; the answer is freed in any
case. -/
def growTable (cap : ℕ) (rows : List ColumnInfo) (log : InfoLog) : Described :=
  if ok (.array 0) then
    match growLoop ok 0 cap [] rows (.opened (.array 0) :: .opened .answer :: log) with
    | (some out, log) => ⟨.ok, some out, .closed .answer :: log⟩
    | (none, log) => ⟨.nomem, none, .closed .answer :: log⟩
  else ⟨.nomem, none, .closed .answer :: .opened .answer :: log⟩

end Describe

/-- What happens in a call besides the answer: whether the client library has an object for it, how
many rows `sqlite3_step` returns before it stops, and which allocations succeed. -/
structure DescribeRun where
  stored : Bool
  read : ℕ
  ok : InfoBlock → Bool

variable (r : DescribeRun)

/-- `sqlite_describe_table`; the answer is `none` when the statement is not prepared. The result of
`sqlite3_mprintf` is printed with `%s`, also when it is a null pointer. -/
def sqliteDescribeTable (answer : Option (List ColumnInfo)) : Option Described :=
  if r.ok .quoted then
    match answer with
    | none => some ⟨.backend, none, [.closed .quoted, .opened .quoted]⟩
    | some rows =>
      some (growTable r.ok 16 (rows.take r.read) [.closed .quoted, .opened .quoted])
  else none

/-- `mysql_describe_table`; `none` when the statement fails. -/
def mysqlDescribeTable : Option (List ColumnInfo) → Described
  | none => ⟨.backend, none, []⟩
  | some rows => if r.stored then growTable r.ok 32 rows [] else ⟨.ok, none, []⟩

/-- `pg_describe_table`; `none` when the statement fails. An array without entries may be a null
pointer. -/
def pgDescribeTable : Option (List ColumnInfo) → Described
  | none => ⟨.backend, none, if r.stored then [.closed .answer, .opened .answer] else []⟩
  | some rows =>
    if r.ok (.array 0) then
      let infos := copyInfos r.ok 0 rows
      ⟨.ok, some (0, infos),
        .closed .answer :: openAll (infoBlocks 0 infos) [.opened (.array 0), .opened .answer]⟩
    else ⟨if rows = [] then .ok else .nomem, none, [.closed .answer, .opened .answer]⟩

/-- The `describe_table` of a backend; `none` when it is undefined. -/
def describeTable (bt : BackendType) (rows : Option (List (ColumnRow bt))) : Option Described :=
  match bt with
  | .sqlite => sqliteDescribeTable r (rows.map (List.map (ColumnRow.info .sqlite)))
  | .mysql => some (mysqlDescribeTable r (rows.map (List.map (ColumnRow.info .mysql))))
  | .postgres => some (pgDescribeTable r (rows.map (List.map (ColumnRow.info .postgres))))

theorem describeTable_isSome_iff {bt : BackendType} {rows : Option (List (ColumnRow bt))} :
    (describeTable r bt rows).isSome = true ↔ (bt = .sqlite → r.ok .quoted = true) := by
  cases bt with
  | sqlite =>
    unfold describeTable sqliteDescribeTable
    rw [forall_prop_of_true rfl]
    split_ifs with hquoted
    · exact iff_of_true (by cases rows <;> rfl) hquoted
    · exact iff_of_false Bool.false_ne_true hquoted
  | mysql | postgres => exact iff_of_true rfl nofun

/-! ## Blocks that are live -/

section Blocks

variable {log : InfoLog} {moved : ℕ} {read : List ColumnInfo} {info : ColumnInfo}

theorem mem_blocks {i : ℕ} {b : InfoBlock} (h : b ∈ info.blocks i) : ∃ p, b = .part i p := by
  unfold ColumnInfo.blocks at h
  simp only [List.mem_append, List.mem_ite_nil_right, List.mem_singleton] at h
  obtain (⟨-, rfl⟩ | ⟨-, rfl⟩) | ⟨-, rfl⟩ := h <;> exact ⟨_, rfl⟩

theorem blocks_nodup (i : ℕ) (info : ColumnInfo) : (info.blocks i).Nodup := by
  unfold ColumnInfo.blocks
  split_ifs <;> simp

theorem infoBlocks_append (i : ℕ) (infos : List ColumnInfo) (info : ColumnInfo) :
    infoBlocks i (infos ++ [info]) = infoBlocks i infos ++ info.blocks (i + infos.length) := by
  induction infos generalizing i with
  | nil => exact List.append_nil _
  | cons first infos ih =>
    rw [List.cons_append, infoBlocks, ih, infoBlocks, List.append_assoc, List.length_cons,
      Nat.add_assoc, Nat.add_comm 1]

theorem mem_infoBlocks {i : ℕ} {infos : List ColumnInfo} {b : InfoBlock}
    (h : b ∈ infoBlocks i infos) : ∃ j p, i ≤ j ∧ b = .part j p := by
  induction infos generalizing i with
  | nil => cases h
  | cons info infos ih =>
    rcases List.mem_append.mp h with h | h
    · obtain ⟨p, rfl⟩ := mem_blocks h
      exact ⟨i, p, Nat.le_refl i, rfl⟩
    · obtain ⟨j, p, hij, rfl⟩ := ih h
      exact ⟨j, p, Nat.le_of_succ_le hij, rfl⟩

theorem infoBlocks_nodup (i : ℕ) (infos : List ColumnInfo) : (infoBlocks i infos).Nodup := by
  induction infos generalizing i with
  | nil => exact List.nodup_nil
  | cons info infos ih =>
    refine (blocks_nodup i info).append (ih (i + 1)) fun b hb hb' => ?_
    obtain ⟨p, rfl⟩ := mem_blocks hb
    obtain ⟨j, p', hij, heq⟩ := mem_infoBlocks hb'
    have hi := (InfoBlock.part.inj heq).1
    omega

/-- While the array is filled in: it is live with the strings of its entries and the answer, and the
strings and arrays to come are new. -/
structure Growing (log : InfoLog) (moved : ℕ) (read : List ColumnInfo) : Prop where
  holds : Holds log (tableBlocks moved read ++ [InfoBlock.answer])
  parts : ∀ i p, read.length ≤ i → .opened (.part i p) ∉ log
  arrays : ∀ k, moved < k → .opened (.array k) ∉ log

/-- Nothing is live yet, and nothing but the quoted name was allocated. -/
structure Unstarted (log : InfoLog) : Prop where
  holds : Holds log []
  seen : ∀ b, .opened b ∈ log → b = .quoted

theorem unstarted_nil : Unstarted [] := ⟨Holds.nil, nofun⟩

theorem unstarted_quoted : Unstarted [.closed .quoted, .opened .quoted] :=
  ⟨(Holds.nil.opened List.not_mem_nil).closed, by simp⟩

theorem Unstarted.answer (h : Unstarted log) : Holds (.opened .answer :: log) [.answer] :=
  h.holds.opened fun hm => by cases h.seen _ hm

theorem growing_start (h : Unstarted log) :
    Growing (.opened (.array 0) :: .opened .answer :: log) 0 [] := by
  have hnew {b : InfoBlock} (hb : b ≠ .quoted) (harray : b ≠ .array 0) (hanswer : b ≠ .answer) :
      .opened b ∉ (.opened (.array 0) :: .opened .answer :: log : InfoLog) := by
    simp only [List.mem_cons, Event.opened.injEq, not_or]
    exact ⟨harray, hanswer, fun hm => hb (h.seen b hm)⟩
  refine ⟨h.answer.opened ?_, fun i p _ => hnew nofun nofun nofun, fun k hk => ?_⟩
  · rw [List.mem_cons, not_or]
    exact ⟨nofun, fun hm => by cases h.seen _ hm⟩
  · refine hnew nofun (fun heq => ?_) nofun
    rw [InfoBlock.array.inj heq] at hk
    exact Nat.lt_irrefl 0 hk

theorem Growing.copy (h : Growing log moved read) (info : ColumnInfo) :
    Growing (openAll (info.blocks read.length) log) moved (read ++ [info]) := by
  refine ⟨?_, fun i p hi hm => ?_, fun k hk hm => ?_⟩
  · refine (h.holds.openAll (blocks_nodup _ _) fun b hb => ?_).perm ?_
    · obtain ⟨p, rfl⟩ := mem_blocks hb
      exact h.parts _ p (Nat.le_refl _)
    · rw [tableBlocks, tableBlocks, infoBlocks_append, Nat.zero_add, List.append_assoc,
        List.append_assoc, List.append_assoc]
      exact List.perm_append_comm_assoc ..
  · rw [List.length_append, List.length_singleton] at hi
    rcases mem_openAll_opened.mp hm with hm | hm
    · obtain ⟨p', heq⟩ := mem_blocks hm
      have hlen := (InfoBlock.part.inj heq).1
      omega
    · exact h.parts i p (by omega) hm
  · rcases mem_openAll_opened.mp hm with hm | hm
    · obtain ⟨p', heq⟩ := mem_blocks hm
      cases heq
    · exact h.arrays k hk hm

theorem Growing.move (h : Growing log moved read) :
    Growing (.opened (.array (moved + 1)) :: .closed (.array moved) :: log) (moved + 1) read := by
  have hnew : .opened (.array (moved + 1)) ∉ (.closed (.array moved) :: log : InfoLog) := by
    rw [List.mem_cons, not_or]
    exact ⟨fun heq => (by cases heq), h.arrays _ (Nat.lt_succ_self moved)⟩
  have hclosed : Holds (.closed (.array moved) :: log)
      (infoBlocks 0 read ++ [InfoBlock.answer]) := by
    refine Holds.closed (h.holds.perm ?_)
    rw [tableBlocks, List.append_assoc]
    exact List.perm_middle.symm
  refine ⟨(hclosed.opened hnew).perm ?_, fun i p hi hm => ?_, fun k hk hm => ?_⟩
  · rw [tableBlocks, List.append_assoc]
    exact List.perm_middle
  · have hm : .opened (.part i p) ∈ log := by simpa using hm
    exact h.parts i p hi hm
  · rcases List.mem_cons.mp hm with heq | hm
    · have hkm := InfoBlock.array.inj (Event.opened.inj heq)
      omega
    · have hm : .opened (.array k) ∈ log := by simpa using hm
      exact h.arrays k (by omega) hm

/-- **The loop** fills in all entries, or frees those that it has. -/
theorem growLoop_spec (h : Growing log moved read) (ok : InfoBlock → Bool) (cap : ℕ)
    (rows : List ColumnInfo) :
    (∀ out, (growLoop ok moved cap read rows log).1 = some out →
      out.2 = read ++ copyInfos ok read.length rows ∧
      Holds (growLoop ok moved cap read rows log).2
        (tableBlocks out.1 out.2 ++ [InfoBlock.answer])) ∧
    ((growLoop ok moved cap read rows log).1 = none →
      Holds (growLoop ok moved cap read rows log).2 [.answer]) := by
  induction rows generalizing moved cap read log with
  | nil =>
    refine ⟨fun out hout => ?_, nofun⟩
    obtain rfl := Option.some.inj hout
    exact ⟨(List.append_nil read).symm, h.holds⟩
  | cons row rows ih =>
    have hnext : read ++ copyInfos ok read.length (row :: rows) =
        read ++ [copyInfo ok read.length row] ++
          copyInfos ok (read ++ [copyInfo ok read.length row]).length rows := by
      rw [copyInfos, List.length_append, List.length_singleton, List.append_assoc]
      rfl
    rw [hnext, growLoop]
    split_ifs with hroom hmove
    · exact ih (h.copy (copyInfo ok read.length row)) cap
    · exact ih (h.move.copy (copyInfo ok read.length row)) (2 * cap)
    · exact ⟨nofun, fun _ => h.holds.closeAll⟩

end Blocks

/-! ## What is kept -/

/-- The call keeps what `corm_column_info_free` will free. -/
def Described.kept (d : Described) : List InfoBlock := d.out.elim [] fun p => tableBlocks p.1 p.2

theorem growTable_spec {log : InfoLog} (h : Unstarted log) (ok : InfoBlock → Bool) (cap : ℕ)
    (rows : List ColumnInfo) :
    Holds (growTable ok cap rows log).log (growTable ok cap rows log).kept ∧
    ∀ out, (growTable ok cap rows log).out = some out → out.2 = copyInfos ok 0 rows := by
  unfold growTable
  split_ifs with harray
  · obtain ⟨hsome, hnone⟩ := growLoop_spec (growing_start h) ok cap rows
    rcases hloop : growLoop ok 0 cap [] rows (.opened (.array 0) :: .opened .answer :: log) with
      ⟨_ | out, log'⟩ <;> rw [hloop] at hsome hnone
    · exact ⟨(hnone rfl).closed, nofun⟩
    · obtain ⟨hout, hholds⟩ := hsome out rfl
      refine ⟨(hholds.perm List.perm_append_comm).closed, fun out' hout' => ?_⟩
      obtain rfl := Option.some.inj hout'
      exact hout
  · exact ⟨h.answer.closed, nofun⟩

theorem pgDescribeTable_spec (r : DescribeRun) (rows : Option (List ColumnInfo)) :
    Holds (pgDescribeTable r rows).log (pgDescribeTable r rows).kept ∧
    ∀ out, (pgDescribeTable r rows).out = some out →
      ∃ listed ∈ rows, out.2 = copyInfos r.ok 0 listed := by
  have hanswer : Holds ([.closed .answer, .opened .answer] : InfoLog) [] :=
    (Holds.nil.opened List.not_mem_nil).closed
  cases rows with
  | none =>
    rw [pgDescribeTable]
    split_ifs
    · exact ⟨hanswer, nofun⟩
    · exact ⟨Holds.nil, nofun⟩
  | some listed =>
    rw [pgDescribeTable]
    by_cases harray : r.ok (.array 0) = true
    · rw [if_pos harray]
      have hstart := growing_start unstarted_nil
      have hlive := hstart.holds.openAll (infoBlocks_nodup 0 (copyInfos r.ok 0 listed))
        fun b hb => by
          obtain ⟨j, p, -, rfl⟩ := mem_infoBlocks hb
          exact hstart.parts j p (Nat.zero_le j)
      have hperm : (InfoBlock.answer :: tableBlocks 0 (copyInfos r.ok 0 listed)).Perm
          (infoBlocks 0 (copyInfos r.ok 0 listed) ++ (tableBlocks 0 [] ++ [InfoBlock.answer])) := by
        have hassoc : tableBlocks 0 (copyInfos r.ok 0 listed) ++ [InfoBlock.answer] =
            infoBlocks 0 (copyInfos r.ok 0 listed) ++ (tableBlocks 0 [] ++ [InfoBlock.answer]) :=
          List.append_assoc ..
        rw [← hassoc]
        exact (List.perm_append_comm : ([InfoBlock.answer] ++ _).Perm _)
      refine ⟨(hlive.perm hperm).closed, fun out hout => ?_⟩
      obtain rfl := Option.some.inj hout
      exact ⟨listed, rfl, rfl⟩
    · rw [if_neg harray]
      exact ⟨hanswer, nofun⟩

/-- **A description**: what is live after the call is what `corm_column_info_free` frees, and the
entries are those of the first rows of the answer, without the strings that could not be copied. -/
theorem describe_spec {bt : BackendType} {r : DescribeRun} {rows : Option (List (ColumnRow bt))}
    {d : Described} (hd : describeTable r bt rows = some d) :
    Holds d.log d.kept ∧ ∀ out, d.out = some out → ∃ listed ∈ rows, ∃ k,
      out.2 = copyInfos r.ok 0 ((listed.map (ColumnRow.info bt)).take k) := by
  cases bt with
  | sqlite =>
    unfold describeTable sqliteDescribeTable at hd
    simp only at hd
    split_ifs at hd
    cases rows with
    | none =>
      obtain rfl := Option.some.inj hd
      exact ⟨unstarted_quoted.holds, nofun⟩
    | some listed =>
      obtain rfl := Option.some.inj hd
      obtain ⟨hholds, hout⟩ := growTable_spec unstarted_quoted r.ok 16
        ((listed.map (ColumnRow.info .sqlite)).take r.read)
      exact ⟨hholds, fun out h => ⟨listed, rfl, r.read, hout out h⟩⟩
  | mysql =>
    obtain rfl := Option.some.inj hd
    cases rows with
    | none => exact ⟨Holds.nil, nofun⟩
    | some listed =>
      obtain ⟨hholds, hout⟩ :=
        growTable_spec unstarted_nil r.ok 32 (listed.map (ColumnRow.info .mysql))
      show Holds (mysqlDescribeTable r (some _)).log (mysqlDescribeTable r (some _)).kept ∧
        ∀ out, (mysqlDescribeTable r (some _)).out = some out → _
      rw [mysqlDescribeTable]
      split_ifs
      · exact ⟨hholds, fun out h => ⟨listed, rfl, listed.length, by
          rw [hout out h, ← List.length_map (ColumnRow.info .mysql), List.take_length]⟩⟩
      · exact ⟨Holds.nil, nofun⟩
  | postgres =>
    obtain rfl := Option.some.inj hd
    obtain ⟨hholds, hout⟩ := pgDescribeTable_spec r (rows.map (List.map (ColumnRow.info .postgres)))
    refine ⟨hholds, fun out h => ?_⟩
    obtain ⟨infos, hinfos, heq⟩ := hout out h
    obtain ⟨listed, hlisted, rfl⟩ := Option.map_eq_some_iff.mp hinfos
    exact ⟨listed, hlisted, listed.length, by
      rw [heq, ← List.length_map (ColumnRow.info .postgres), List.take_length]⟩

theorem describe_freed {bt : BackendType} {r : DescribeRun} {rows : Option (List (ColumnRow bt))}
    {d : Described} (hd : describeTable r bt rows = some d) :
    Holds (columnInfoFree d.out d.log) [] := by
  refine Holds.closeAll ?_
  rw [List.append_nil]
  exact (describe_spec hd).1

end Corm
