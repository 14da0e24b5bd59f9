import Corm.Backend.MysqlStmt
import Corm.Backend.SqliteRecords

/-!
# The rows of a prepared MySQL query

`mysql_stmt_query` makes as many zeroed rows as the stored result has, and fills them one by one
until `mysql_stmt_fetch` returns something else than 0: the end of the data, an error, or a value
that has no room in the buffer of its column.

* `MysqlStored`: a stored result; `MysqlClient`: how the library fills a buffer;
* `fetchLoop`: the loop; `mysqlStmtOut`: the function with what it stores in `*out`;
* `mysqlStmtQuery_err`: the same errors as in the life of the handles;
* **`fetchLoop_eq_iff`**, **`every_row_iff`**: when the result has every row.
-/

namespace Corm

open Lifetime (MysqlOutcome)

/-! ## Columns -/

/-- `enum_field_types`, with the types that `mysql_field_to_corm_type` names. -/
inductive MysqlFieldType
  | decimal
  | tiny
  | short
  | long
  | float
  | double
  | longlong
  | int24
  | blob
  | other
  deriving DecidableEq

/-- The types of the columns of a result. -/
inductive MysqlColumn
  | int64
  | double
  | blob
  | text
  deriving DecidableEq

/-- `mysql_field_to_corm_type`. -/
def mysqlFieldToCormType : MysqlFieldType → MysqlColumn
  | .tiny | .short | .long | .int24 | .longlong => .int64
  | .float | .double | .decimal => .double
  | .blob => .blob
  | .other => .text

namespace MysqlColumn

/-- The type in `column_types`. -/
def fieldType : MysqlColumn → FieldType
  | int64 => .int64
  | double => .double
  | blob => .blob
  | text => .text

/-- The values that the library delivers for a column. -/
def Data : MysqlColumn → Type
  | int64 => Int64
  | double => UInt64
  | blob => List UInt8
  | text => Text

/-- `buf_lens[i]`. -/
def bufferLength (maxLength : ℕ) : MysqlColumn → ℕ
  | int64 => 8
  | double => 8
  | blob => if 0 < maxLength then maxLength else 65536
  | text => if 0 < maxLength then maxLength + 1 else 4096

end MysqlColumn

/-- `fields[i].max_length`: 0, because nothing asks the library to update it. -/
def maxLength : ℕ := 0

/-- The buffer of a blob. -/
abbrev blobRoom : ℕ := MysqlColumn.blob.bufferLength maxLength

/-- The buffer of a text. -/
abbrev textRoom : ℕ := MysqlColumn.text.bufferLength maxLength

/-- `buffers[i]`; a number is the bytes that it has in memory. -/
def MysqlColumn.Room : MysqlColumn → Type
  | int64 => Int64
  | double => UInt64
  | blob => Buffer UInt8 blobRoom
  | text => Buffer Char textRoom

/-- A stored result: a value or NULL in each column of each row. -/
structure MysqlStored where
  columnCount : ℕ
  columnCount_pos : 0 < columnCount
  names : Fin columnCount → Text
  types : Fin columnCount → MysqlFieldType
  rows : List ((i : Fin columnCount) → Option (mysqlFieldToCormType (types i)).Data)

namespace MysqlStored

variable (R : MysqlStored)

/-- The type of a column. -/
abbrev column (i : Fin R.columnCount) : MysqlColumn := mysqlFieldToCormType (R.types i)

/-- A row. -/
abbrev Row : Type := (i : Fin R.columnCount) → Option (R.column i).Data

/-- The result with these rows. -/
def result (rows : List (Fin R.columnCount → Value)) : Result where
  columnCount := R.columnCount
  columnNames := R.names
  columnTypes := fun i => (R.column i).fieldType
  rows := rows

end MysqlStored

/-! ## The library -/

/-- How the library writes a value into a buffer that has room for it: from its beginning, with a
NUL after a string when there is room for that, too. -/
structure MysqlClient where
  writeText : {size : ℕ} → Text → Buffer Char size → Buffer Char size
  writeBlob : {size : ℕ} → List UInt8 → Buffer UInt8 size → Buffer UInt8 size
  take_writeText : ∀ {size : ℕ} (s : Text) (buf : Buffer Char size), s.length ≤ size →
    (writeText s buf).1.take s.length = s
  drop_writeText : ∀ {size : ℕ} (s : Text) (buf : Buffer Char size), s.length < size →
    ((writeText s buf).1.drop s.length).head? = some nul
  take_writeBlob : ∀ {size : ℕ} (data : List UInt8) (buf : Buffer UInt8 size),
    data.length ≤ size → (writeBlob data buf).1.take data.length = data

/-- The outcomes of the loop over `n` columns: the fetches that report an error, the buffers that
were allocated, and the copies of values that were. -/
structure FetchOutcome (n : ℕ) where
  fetchError : ℕ → Bool
  bufferOk : Fin n → Bool
  copyOk : ℕ → Fin n → Bool

/-- The value has room in the buffer of its column. -/
def HasRoom : (t : MysqlColumn) → Option t.Data → Prop
  | .blob, (some data : Option (List UInt8)) => data.length ≤ blobRoom
  | .text, (some s : Option Text) => s.length ≤ textRoom
  | _, _ => True

instance (t : MysqlColumn) (x : Option t.Data) : Decidable (HasRoom t x) :=
  match t, x with
  | .blob, (some data : Option (List UInt8)) =>
    inferInstanceAs (Decidable (data.length ≤ blobRoom))
  | .text, (some s : Option Text) => inferInstanceAs (Decidable (s.length ≤ textRoom))
  | .blob, (none : Option (List UInt8)) | .text, (none : Option Text) | .int64, _ | .double, _ =>
    .isTrue trivial

variable (C : MysqlClient)

/-- What `mysql_stmt_fetch` leaves in a buffer; a NULL leaves it alone. -/
def storeValue : (t : MysqlColumn) → Option t.Data → t.Room → t.Room
  | .int64, (some n : Option Int64), _ => n
  | .double, (some bits : Option UInt64), _ => bits
  | .blob, (some data : Option (List UInt8)), buf => C.writeBlob data buf
  | .text, (some s : Option Text), buf => C.writeText s buf
  | _, none, buf => buf

/-- A value of a row, from the buffer of its column; `none` when `strdup` runs over its end. -/
def copyValue (copyOk : Bool) : (t : MysqlColumn) → Option t.Data → t.Room → Option Value
  | t, none, _ => some ⟨t.fieldType, true, .zero⟩
  | .int64, some _, (n : Int64) => some ⟨.int64, false, .i n⟩
  | .double, some _, (bits : UInt64) => some ⟨.double, false, .f bits⟩
  | .text, some _, (buf : Buffer Char textRoom) =>
    if nul ∈ buf.1 then some ⟨.text, false, .s (if copyOk then some (cstr buf.1) else none)⟩
    else none
  | .blob, (some data : Option (List UInt8)), (buf : Buffer UInt8 blobRoom) =>
    some ⟨.blob, false, if copyOk then .blob (some (buf.1.take data.length)) else .zero⟩

/-- The value of a row that the stored one stands for. -/
def storedValue : (t : MysqlColumn) → Option t.Data → Value
  | t, none => ⟨t.fieldType, true, .zero⟩
  | .int64, (some n : Option Int64) => ⟨.int64, false, .i n⟩
  | .double, (some bits : Option UInt64) => ⟨.double, false, .f bits⟩
  | .text, (some s : Option Text) => ⟨.text, false, .s (some s)⟩
  | .blob, (some data : Option (List UInt8)) => ⟨.blob, false, .blob (some data)⟩

/-! ## The function -/

section Loop

variable {R : MysqlStored} (e : FetchOutcome R.columnCount)

/-- The values of a row, from the buffers. -/
def copyRow (copyOk : Fin R.columnCount → Bool) (row : R.Row)
    (bufs : (i : Fin R.columnCount) → (R.column i).Room) : Option (Fin R.columnCount → Value) :=
  if h : ∀ i, (copyValue (copyOk i) (R.column i) (row i) (bufs i)).isSome then
    some fun i => (copyValue (copyOk i) (R.column i) (row i) (bufs i)).get (h i)
  else none

/-- The buffers after a row is fetched. -/
def storeRow (row : R.Row) (bufs : (i : Fin R.columnCount) → (R.column i).Room) :
    (i : Fin R.columnCount) → (R.column i).Room :=
  fun i => storeValue C (R.column i) (row i) (bufs i)

/-- The loop from row `r` on, with the rows that are left; `none` when it writes through a null
pointer, after the last row, or reads over the end of a buffer. -/
def fetchLoop (r : ℕ) (bufs : (i : Fin R.columnCount) → (R.column i).Room) :
    List R.Row → List (Fin R.columnCount → Value) → Option (List (Fin R.columnCount → Value))
  | [], rows => some rows
  | row :: rest, rows =>
    if e.fetchError r then some rows
    else if ∀ i, (row i).isSome → e.bufferOk i then
      if ∀ i, HasRoom (R.column i) (row i) then
        match copyRow (e.copyOk r) row (storeRow C row bufs) with
        | some vals =>
          if r < rows.length then fetchLoop (r + 1) (storeRow C row bufs) rest (rows.set r vals)
          else none
        | none => none
      else some rows
    else none

/-- A row of zeroed memory; its type is `CORM_INT`. -/
def zeroRow {n : ℕ} : Fin n → Value := fun _ => ⟨.int, false, .zero⟩

/-- A zeroed buffer. -/
def zeroRoom : (t : MysqlColumn) → t.Room
  | .int64 => (0 : Int64)
  | .double => (0 : UInt64)
  | .blob => (⟨List.replicate blobRoom 0, List.length_replicate⟩ : Buffer UInt8 blobRoom)
  | .text => (⟨List.replicate textRoom nul, List.length_replicate⟩ : Buffer Char textRoom)

/-- `mysql_stmt_query` from `mysql_stmt_execute` on: its error, and what it stores in `*out`; `none`
outside of what C defines. -/
def mysqlFetchOut (o : MysqlOutcome) : Option (Err × Option Result) :=
  if o.executeOk then
    if o.hasMetadata then
      if o.storeOk then
        if o.resultOk then
          -- the number of rows is converted to `int`
          if 0 < toCInt R.rows.length then
            if o.buffersOk then
              if o.bindResultOk then
                (fetchLoop C e 0 (fun i => zeroRoom (R.column i)) R.rows
                  (List.replicate (toCInt R.rows.length).toNat zeroRow)).map fun rows =>
                    (.ok, some (R.result rows))
              else some (.backend, none)
            else some (.nomem, none)
          else some (.ok, some (R.result []))
        else some (.nomem, none)
      else some (.backend, none)
    else some (.ok, none)
  else some (.backend, none)

/-- `mysql_stmt_query` with the handle that it works with, or the error of its first block. -/
def mysqlStmtOut (o : MysqlOutcome) (paramCount : ℕ) :
    Except Err Stmt → Option (Err × Option Result)
  | .error err => some (err, none)
  | .ok _ =>
    if 0 < paramCount then
      if o.bindAllocOk then
        if o.bindOk then mysqlFetchOut C e o else some (.backend, none)
      else some (.nomem, none)
    else mysqlFetchOut C e o

theorem mysqlFetchStmt_err {o : MysqlOutcome}
    (hrows : o.rowCount = (toCInt R.rows.length).toNat) (stmt : Stmt) (s : Lifetime.MysqlConn)
    {err : Err} {out : Option Result} (h : mysqlFetchOut C e o = some (err, out)) :
    (Lifetime.mysqlFetchStmt o stmt s).1 = err := by
  have hpos : 0 < o.rowCount ↔ 0 < toCInt R.rows.length := by
    rw [hrows]
    exact Int.pos_iff_toNat_pos.symm
  unfold mysqlFetchOut at h
  unfold Lifetime.mysqlFetchStmt
  simp only [hpos]
  split_ifs at h ⊢
  -- the loop, where every call has succeeded
  case pos =>
    obtain ⟨rows, -, hout⟩ := Option.map_eq_some_iff.mp h
    exact (Prod.mk.inj hout).1
  all_goals exact (Prod.mk.inj (Option.some.inj h)).1

theorem mysqlStmtQuery_err {o : MysqlOutcome} {paramCount : ℕ} {sql : Text}
    {s s' : Lifetime.MysqlConn} {handle : Except Err Stmt}
    (hget : Lifetime.mysqlGetStmt o sql s = some (handle, s'))
    (hrows : o.rowCount = (toCInt R.rows.length).toNat) {err : Err} {out : Option Result}
    (h : mysqlStmtOut C e o paramCount handle = some (err, out)) :
    (Lifetime.mysqlStmtQuery o sql paramCount s).map Prod.fst = some err := by
  rw [Lifetime.mysqlStmtQuery, hget]
  cases handle with
  | error err' =>
    cases h
    rfl
  | ok stmt =>
    refine congrArg some (?_ : (Lifetime.mysqlQueryStmt o stmt paramCount s').1 = err)
    simp only [mysqlStmtOut] at h
    unfold Lifetime.mysqlQueryStmt
    split_ifs at h ⊢
    · exact mysqlFetchStmt_err C e hrows stmt _ h
    · exact (Prod.mk.inj (Option.some.inj h)).1
    · exact (Prod.mk.inj (Option.some.inj h)).1
    · exact mysqlFetchStmt_err C e hrows stmt _ h

/-- A value with room in its buffer, whose copy is allocated; a text with room for a NUL after it,
and without one in it. -/
def Returned (bufferOk copyOk : Bool) : (t : MysqlColumn) → Option t.Data → Prop
  | _, none => True
  | .int64, some _ => bufferOk = true
  | .double, some _ => bufferOk = true
  | .blob, (some data : Option (List UInt8)) =>
    bufferOk = true ∧ copyOk = true ∧ data.length ≤ blobRoom
  | .text, (some s : Option Text) =>
    bufferOk = true ∧ copyOk = true ∧ s.length < textRoom ∧ nul ∉ s

/-- A row whose fetch reports no error, of such values. -/
def RowReturned (r : ℕ) (row : R.Row) : Prop :=
  e.fetchError r = false ∧
    ∀ i, Returned (e.bufferOk i) (e.copyOk r i) (R.column i) (row i)

/-- Such rows, from row `r` on. -/
def AllReturned (r : ℕ) : List R.Row → Prop
  | [] => True
  | row :: rest => RowReturned e r row ∧ AllReturned (r + 1) rest

/-- The row that the stored one stands for. -/
def storedRow (row : R.Row) : Fin R.columnCount → Value :=
  fun i => storedValue (R.column i) (row i)

/-! ## One value -/

theorem strdup_writeText_iff {s : Text} (buf : Buffer Char textRoom) (hroom : s.length ≤ textRoom) :
    (nul ∈ (C.writeText s buf).1 ∧ cstr (C.writeText s buf).1 = s) ↔
      s.length < textRoom ∧ nul ∉ s := by
  have htake := C.take_writeText s buf hroom
  constructor
  · rintro ⟨hnul, hs⟩
    have hlt := cstr_length_lt hnul
    rw [hs, (C.writeText s buf).2] at hlt
    exact ⟨hlt, hs ▸ notMem_cstr _⟩
  · rintro ⟨hlt, hnul⟩
    have hsplit := List.take_append_drop s.length (C.writeText s buf).1
    obtain ⟨rest, hdrop⟩ := List.head?_eq_some_iff.mp (C.drop_writeText s buf hlt)
    rw [htake, hdrop] at hsplit
    rw [← hsplit]
    have hall : ∀ c ∈ s, (c != nul) = true := by
      intro c hc
      have hne : c ≠ nul := by
        rintro rfl
        exact hnul hc
      simpa using hne
    refine ⟨by simp, ?_⟩
    rw [cstr, List.takeWhile_append_of_pos hall]
    simp

/-- **A value that is returned.** -/
theorem copyValue_iff (bufferOk copyOk : Bool) (t : MysqlColumn) (x : Option t.Data) (buf : t.Room) :
    ((x.isSome → bufferOk) ∧ HasRoom t x ∧
      copyValue copyOk t x (storeValue C t x buf) = some (storedValue t x)) ↔
      Returned bufferOk copyOk t x := by
  cases x with
  | none => cases t <;> exact iff_of_true ⟨nofun, trivial, rfl⟩ trivial
  | some x =>
    cases t with
    | int64 => exact ⟨fun h => h.1 rfl, fun h => ⟨fun _ => h, trivial, rfl⟩⟩
    | double => exact ⟨fun h => h.1 rfl, fun h => ⟨fun _ => h, trivial, rfl⟩⟩
    | blob =>
      change List UInt8 at x
      change Buffer UInt8 blobRoom at buf
      have hvalue (hroom : x.length ≤ blobRoom) :
          copyValue copyOk .blob (some x) (storeValue C .blob (some x) buf) =
            some ⟨.blob, false, if copyOk then .blob (some x) else .zero⟩ := by
        show some (Value.mk .blob false (if copyOk then
          .blob (some ((C.writeBlob x buf).1.take x.length)) else .zero)) = _
        rw [C.take_writeBlob x buf hroom]
      constructor
      · rintro ⟨hb, hroom, h⟩
        rw [hvalue hroom] at h
        refine ⟨hb rfl, ?_, hroom⟩
        cases copyOk with
        | true => rfl
        | false => cases h
      · rintro ⟨hb, rfl, hroom⟩
        exact ⟨fun _ => hb, hroom, hvalue hroom⟩
    | text =>
      change List Char at x
      change Buffer Char textRoom at buf
      have hvalue : copyValue copyOk .text (some x) (storeValue C .text (some x) buf) =
          if nul ∈ (C.writeText x buf).1 then
            some ⟨.text, false, .s (if copyOk then some (cstr (C.writeText x buf).1) else none)⟩
          else none := rfl
      rw [hvalue]
      constructor
      · rintro ⟨hb, hroom, h⟩
        split_ifs at h with hnul hc
        · obtain ⟨-, -, hs⟩ := Value.mk.inj (Option.some.inj h)
          have hcopy := Option.some.inj (Payload.s.inj hs)
          exact ⟨hb rfl, hc, (strdup_writeText_iff C buf hroom).mp ⟨hnul, hcopy⟩⟩
        · cases h
      · rintro ⟨hb, rfl, hlt, hnul⟩
        obtain ⟨hmem, hcopy⟩ := (strdup_writeText_iff C buf hlt.le).mpr ⟨hlt, hnul⟩
        refine ⟨fun _ => hb, hlt.le, ?_⟩
        rw [if_pos hmem, hcopy]
        rfl

/-! ## The loop -/

theorem copyRow_eq_some {copyOk : Fin R.columnCount → Bool} {row : R.Row}
    {bufs : (i : Fin R.columnCount) → (R.column i).Room} {vals : Fin R.columnCount → Value} :
    copyRow copyOk row bufs = some vals ↔
      ∀ i, copyValue (copyOk i) (R.column i) (row i) (bufs i) = some (vals i) := by
  unfold copyRow
  constructor
  · intro h i
    split_ifs at h with hsome
    rw [← Option.some.inj h]
    exact (Option.some_get _).symm
  · intro h
    rw [dif_pos fun i => Option.isSome_iff_exists.mpr ⟨_, h i⟩]
    congr
    funext i
    exact Option.get_of_eq_some _ (h i)

theorem fetchLoop_stop {row : R.Row} {rest : List R.Row} {r : ℕ}
    {bufs : (i : Fin R.columnCount) → (R.column i).Room}
    {rows : List (Fin R.columnCount → Value)} (herr : e.fetchError r = false)
    (hbuf : ∀ i, (row i).isSome → e.bufferOk i) (hroom : ¬ ∀ i, HasRoom (R.column i) (row i)) :
    fetchLoop C e r bufs (row :: rest) rows = some rows := by
  rw [fetchLoop, herr, if_neg Bool.false_ne_true, if_pos hbuf, if_neg hroom]

theorem fetchLoop_keeps {rest : List R.Row} {r : ℕ}
    {bufs : (i : Fin R.columnCount) → (R.column i).Room}
    {rows out : List (Fin R.columnCount → Value)}
    (h : fetchLoop C e r bufs rest rows = some out) :
    out.length = rows.length ∧ out.take r = rows.take r := by
  induction rest generalizing r bufs rows with
  | nil =>
    obtain rfl := Option.some.inj h
    exact ⟨rfl, rfl⟩
  | cons row rest ih =>
    have hstop (h : some rows = some out) :
        out.length = rows.length ∧ out.take r = rows.take r := by
      obtain rfl := Option.some.inj h
      exact ⟨rfl, rfl⟩
    rw [fetchLoop] at h
    cases hvals : copyRow (e.copyOk r) row (storeRow C row bufs) with
    | none =>
      rw [hvals] at h
      split_ifs at h <;> exact hstop h
    | some vals =>
      rw [hvals] at h
      split_ifs at h
      · exact hstop h
      · obtain ⟨hlen, htake⟩ := ih h
        refine ⟨hlen.trans List.length_set, ?_⟩
        have hfirst := congrArg (List.take r) htake
        rwa [List.take_take, List.take_take, min_eq_left (Nat.le_succ r),
          List.take_set_of_le le_rfl] at hfirst
      · exact hstop h

theorem storedRow_ne_zeroRow (row : R.Row) : storedRow row ≠ zeroRow := by
  intro h
  have htype (t : MysqlColumn) (x : Option t.Data) : (storedValue t x).type ≠ .int := by
    cases t <;> cases x <;> nofun
  exact htype _ _ (congrArg Value.type (congrFun h ⟨0, R.columnCount_pos⟩))

theorem rowReturned_iff (r : ℕ) (row : R.Row)
    (bufs : (i : Fin R.columnCount) → (R.column i).Room) :
    (e.fetchError r = false ∧ (∀ i, (row i).isSome → e.bufferOk i) ∧
      (∀ i, HasRoom (R.column i) (row i)) ∧
      copyRow (e.copyOk r) row (storeRow C row bufs) = some (storedRow row)) ↔
      RowReturned e r row := by
  refine and_congr_right fun _ => ?_
  rw [copyRow_eq_some, ← forall_and, ← forall_and]
  exact forall_congr' fun i => copyValue_iff C _ _ _ _ _

/-- **The loop fills every row exactly when each one is returned.** -/
theorem fetchLoop_eq_iff (done : List (Fin R.columnCount → Value)) (rest : List R.Row)
    (bufs : (i : Fin R.columnCount) → (R.column i).Room) :
    fetchLoop C e done.length bufs rest (done ++ List.replicate rest.length zeroRow) =
      some (done ++ rest.map storedRow) ↔ AllReturned e done.length rest := by
  induction rest generalizing done bufs with
  | nil => exact iff_of_true rfl trivial
  | cons row rest ih =>
    -- a loop that ends here leaves the row at zero
    have hstop : some (done ++ List.replicate (row :: rest).length zeroRow) ≠
        some (done ++ (row :: rest).map storedRow) := by
      intro h
      have hrow := List.append_cancel_left (Option.some.inj h)
      exact storedRow_ne_zeroRow row (List.cons.inj hrow).1.symm
    have hlt : done.length < (done ++ List.replicate (row :: rest).length zeroRow).length := by
      simp
    rw [AllReturned, ← rowReturned_iff C e _ row bufs, fetchLoop]
    split_ifs with herr hbuf hroom
    · exact iff_of_false hstop fun h => by simp [herr] at h
    · cases hvals : copyRow (e.copyOk done.length) row (storeRow C row bufs) with
      | none => exact iff_of_false nofun fun h => nomatch h.1.2.2.2
      | some vals =>
        have hset : (done ++ List.replicate (row :: rest).length zeroRow).set done.length vals =
            (done ++ [vals]) ++ List.replicate rest.length zeroRow := by
          simp [List.replicate_succ]
        have hnext : done.length + 1 = (done ++ [vals]).length := by simp
        have hdone : done ++ (row :: rest).map storedRow =
            (done ++ [storedRow row]) ++ rest.map storedRow := by simp
        simp only [hset, hnext, hdone]
        by_cases hrow : vals = storedRow row
        · subst hrow
          rw [ih]
          exact (and_iff_right ⟨by simpa using herr, hbuf, hroom, rfl⟩).symm
        · refine iff_of_false (fun h => hrow ?_) fun h => hrow (Option.some.inj h.1.2.2.2)
          -- the rows that are filled stay as they are
          have hkeep := (fetchLoop_keeps C e h).2
          rw [List.take_left, List.take_left' (by simp)] at hkeep
          exact (List.cons.inj (List.append_cancel_left hkeep)).1.symm
    · exact iff_of_false hstop fun h => hroom h.1.2.2.1
    · exact iff_of_false nofun fun h => hbuf h.1.2.1

/-! ## Every row -/

/-- The steps before the fetch succeed, up to a result with `rowCount` rows. -/
structure Reaches (o : MysqlOutcome) (paramCount : ℕ) (handle : Except Err Stmt) (rowCount : ℤ) :
    Prop where
  handle : ∃ stmt, handle = .ok stmt
  params : 0 < paramCount → o.bindAllocOk = true ∧ o.bindOk = true
  execute : o.executeOk = true
  metadata : o.hasMetadata = true
  store : o.storeOk = true
  result : o.resultOk = true
  buffers : 0 < rowCount → o.buffersOk = true ∧ o.bindResultOk = true

variable {o : MysqlOutcome} {paramCount : ℕ} {handle : Except Err Stmt}

theorem mysqlStmtOut_of_reaches (h : Reaches o paramCount handle (toCInt R.rows.length)) :
    mysqlStmtOut C e o paramCount handle =
      if 0 < toCInt R.rows.length then
        (fetchLoop C e 0 (fun i => zeroRoom (R.column i)) R.rows
          (List.replicate (toCInt R.rows.length).toNat zeroRow)).map fun rows =>
            (.ok, some (R.result rows))
      else some (.ok, some (R.result [])) := by
  obtain ⟨⟨stmt, rfl⟩, hparams, hexecute, hmeta, hstore, hresult, hbuffers⟩ := h
  have hfetch : mysqlStmtOut C e o paramCount (.ok stmt) = mysqlFetchOut C e o := by
    simp only [mysqlStmtOut]
    split_ifs with hp hb hb'
    · rfl
    · exact absurd (hparams hp).2 hb'
    · exact absurd (hparams hp).1 hb
    · rfl
  rw [hfetch, mysqlFetchOut, if_pos hexecute, if_pos hmeta, if_pos hstore, if_pos hresult]
  split_ifs with hn hb hb'
  · rfl
  · exact absurd (hbuffers hn).2 hb'
  · exact absurd (hbuffers hn).1 hb
  · rfl

theorem mysqlFetchOut_stops (h : ¬ (o.executeOk = true ∧ o.hasMetadata = true ∧ o.storeOk = true ∧
    o.resultOk = true ∧
    (0 < toCInt R.rows.length → o.buffersOk = true ∧ o.bindResultOk = true))) :
    ∃ err, mysqlFetchOut C e o = some (err, none) := by
  unfold mysqlFetchOut
  generalize toCInt R.rows.length = rowCount at h ⊢
  split_ifs with hexecute hmeta hstore hresult hn hbuffers hbind
  · exact absurd ⟨hexecute, hmeta, hstore, hresult, fun _ => ⟨hbuffers, hbind⟩⟩ h
  · exact ⟨_, rfl⟩
  · exact ⟨_, rfl⟩
  · exact absurd ⟨hexecute, hmeta, hstore, hresult, fun hpos => absurd hpos hn⟩ h
  all_goals exact ⟨_, rfl⟩

theorem mysqlStmtOut_of_not_reaches (h : ¬ Reaches o paramCount handle (toCInt R.rows.length)) :
    ∃ err, mysqlStmtOut C e o paramCount handle = some (err, none) := by
  cases handle with
  | error err => exact ⟨err, rfl⟩
  | ok stmt =>
    have hstop (hp : 0 < paramCount → o.bindAllocOk = true ∧ o.bindOk = true) :
        ∃ err, mysqlFetchOut C e o = some (err, none) :=
      mysqlFetchOut_stops C e fun ⟨hexecute, hmeta, hstore, hresult, hbuffers⟩ =>
        h ⟨⟨stmt, rfl⟩, hp, hexecute, hmeta, hstore, hresult, hbuffers⟩
    rw [mysqlStmtOut]
    split_ifs with hp halloc hbind
    · exact hstop fun _ => ⟨halloc, hbind⟩
    · exact ⟨_, rfl⟩
    · exact ⟨_, rfl⟩
    · exact hstop fun hpos => absurd hpos hp

theorem toCInt_toNat_iff {n : ℕ} : (toCInt n).toNat = n ↔ n < 2 ^ 31 := by
  unfold toCInt
  rw [Int.bmod_def]
  split_ifs <;> omega

theorem result_inj {a b : List (Fin R.columnCount → Value)} : R.result a = R.result b ↔ a = b := by
  simp [MysqlStored.result]

variable (o paramCount handle) in
/-- The function does what C defines, and the result that it returns with `CORM_OK` is the stored
one, row by row. -/
def EveryRow : Prop :=
  ∃ err out, mysqlStmtOut C e o paramCount handle = some (err, out) ∧
    (err = .ok → ∀ res ∈ out, res = R.result (R.rows.map storedRow))

/-- **When a prepared query returns every row**: when it has no result to return, and when there are
fewer than `2 ^ 31` rows and each of them is returned. -/
theorem every_row_iff : EveryRow C e o paramCount handle ↔
    (Reaches o paramCount handle (toCInt R.rows.length) →
      R.rows.length < 2 ^ 31 ∧ AllReturned e 0 R.rows) := by
  unfold EveryRow
  by_cases hreach : Reaches o paramCount handle (toCInt R.rows.length)
  · rw [mysqlStmtOut_of_reaches C e hreach]
    simp only [hreach, true_implies]
    have hloop := fetchLoop_eq_iff C e [] R.rows fun i => zeroRoom (R.column i)
    have hcount := toCInt_toNat_iff (n := R.rows.length)
    split_ifs with hn
    · constructor
      · rintro ⟨err, out, hout, hrows⟩
        obtain ⟨rows, hfetch, hpair⟩ := Option.map_eq_some_iff.mp hout
        obtain ⟨rfl, rfl⟩ := Prod.mk.inj hpair
        obtain rfl := result_inj.mp (hrows rfl _ rfl)
        have hlen := (fetchLoop_keeps C e hfetch).1
        rw [List.length_map, List.length_replicate] at hlen
        rw [← hlen] at hfetch
        exact ⟨hcount.mp hlen.symm, hloop.mp hfetch⟩
      · rintro ⟨hlt, hall⟩
        rw [hcount.mpr hlt]
        have hfetch := hloop.mpr hall
        rw [List.nil_append, List.nil_append] at hfetch
        refine ⟨.ok, some (R.result (R.rows.map storedRow)), ?_, ?_⟩
        · exact congrArg (Option.map _) hfetch
        · rintro - res hres
          exact (Option.mem_some_iff.mp hres).symm
    · have hzero : (toCInt R.rows.length).toNat = 0 := by omega
      rw [hzero] at hcount
      constructor
      · rintro ⟨err, out, hout, hrows⟩
        obtain ⟨rfl, rfl⟩ := Prod.mk.inj (Option.some.inj hout)
        have hnil := List.map_eq_nil_iff.mp (result_inj.mp (hrows rfl _ rfl)).symm
        rw [hnil]
        exact ⟨Nat.two_pow_pos 31, trivial⟩
      · rintro ⟨hlt, -⟩
        have hnil := List.length_eq_zero_iff.mp (hcount.mpr hlt).symm
        refine ⟨.ok, _, rfl, ?_⟩
        rintro - res hres
        rw [hnil]
        exact (Option.mem_some_iff.mp hres).symm
  · obtain ⟨err, herr⟩ := mysqlStmtOut_of_not_reaches C e hreach
    exact iff_of_true ⟨err, none, herr, fun _ => nofun⟩ fun h => absurd h hreach

end Loop

/-! ## A long value before a short one -/

section Plain

variable {size : ℕ} (s : Text) (data : List UInt8)

theorem length_plainText (buf : Buffer Char size) :
    ((s ++ [nul]).take size ++ buf.1.drop (s.length + 1)).length = size := by
  rw [List.length_append, List.length_take, List.length_drop, buf.2, List.length_append,
    List.length_singleton]
  omega

theorem length_plainBlob (buf : Buffer UInt8 size) :
    (data.take size ++ buf.1.drop data.length).length = size := by
  rw [List.length_append, List.length_take, List.length_drop, buf.2]
  omega

theorem take_plainText (rest : List Char) (h : s.length ≤ size) :
    ((s ++ [nul]).take size ++ rest).take s.length = s := by
  have hlen : s.length ≤ ((s ++ [nul]).take size).length := by
    rw [List.length_take, List.length_append]
    omega
  rw [List.take_append_of_le_length hlen, List.take_take, Nat.min_eq_left h, List.take_left]

theorem drop_plainText (rest : List Char) (h : s.length < size) :
    (((s ++ [nul]).take size ++ rest).drop s.length).head? = some nul := by
  have hlen : (s ++ [nul]).length ≤ size := by
    rw [List.length_append, List.length_singleton]
    omega
  rw [List.take_of_length_le hlen, List.append_assoc, List.drop_left]
  rfl

theorem take_plainBlob (rest : List UInt8) (h : data.length ≤ size) :
    (data.take size ++ rest).take data.length = data := by
  rw [List.take_of_length_le h, List.take_left]

end Plain

/-- A library that leaves the rest of a buffer as it was. -/
def plainMysql : MysqlClient where
  writeText {size} s buf :=
    ⟨(s ++ [nul]).take size ++ buf.1.drop (s.length + 1), length_plainText s buf⟩
  writeBlob {size} data buf :=
    ⟨data.take size ++ buf.1.drop data.length, length_plainBlob data buf⟩
  take_writeText s _ h := take_plainText s _ h
  drop_writeText s _ h := drop_plainText s _ h
  take_writeBlob data _ h := take_plainBlob data _ h

/-- A row with a text that has no room. -/
def longRow : Fin 1 → Option (mysqlFieldToCormType .other).Data :=
  fun _ => some (List.replicate 4097 'a')

/-- A row with a text that has. -/
def shortRow : Fin 1 → Option (mysqlFieldToCormType .other).Data := fun _ => some ['b']

/-- The two rows. -/
abbrev longNotes : MysqlStored where
  columnCount := 1
  columnCount_pos := Nat.one_pos
  names := fun _ => "body".toList
  types := fun _ => .other
  rows := [longRow, shortRow]

/-- Every call succeeds. -/
def allOk : MysqlOutcome where
  plainOk := true
  initOk := true
  prepareOk := true
  callocOk := true
  strdupOk := true
  bindAllocOk := true
  bindOk := true
  executeOk := true
  hasMetadata := true
  storeOk := true
  resultOk := true
  rowCount := 2
  buffersOk := true
  bindResultOk := true
  fetched := 0

/-- Every fetch and every allocation succeeds. -/
def allFetched : FetchOutcome 1 where
  fetchError _ := false
  bufferOk _ := true
  copyOk _ _ := true

/-- **Two rows at zero**, with `CORM_OK`. -/
theorem long_note_loses_rows :
    mysqlStmtOut (R := longNotes) plainMysql allFetched allOk 1 (.ok 0) =
        some (.ok, some (longNotes.result [zeroRow, zeroRow])) ∧
      ¬ EveryRow (R := longNotes) plainMysql allFetched allOk 1 (.ok 0) := by
  have hreach : Reaches allOk 1 (.ok 0) (toCInt longNotes.rows.length) :=
    ⟨⟨0, rfl⟩, fun _ => ⟨rfl, rfl⟩, rfl, rfl, rfl, rfl, fun _ => ⟨rfl, rfl⟩⟩
  have hcount : toCInt longNotes.rows.length = 2 := by decide +kernel
  have hroom : ¬ ∀ i, HasRoom (longNotes.column i) (longRow i) := by
    intro h
    have hle : (List.replicate 4097 'a').length ≤ textRoom := h (0 : Fin 1)
    rw [List.length_replicate] at hle
    exact absurd hle (by decide)
  have hrows : longNotes.rows = [longRow, shortRow] := rfl
  have hzero : mysqlStmtOut (R := longNotes) plainMysql allFetched allOk 1 (.ok 0) =
      some (.ok, some (longNotes.result [zeroRow, zeroRow])) := by
    rw [mysqlStmtOut_of_reaches plainMysql allFetched hreach, hcount, if_pos (by decide), hrows,
      fetchLoop_stop plainMysql allFetched rfl (fun _ _ => rfl) hroom]
    rfl
  refine ⟨hzero, ?_⟩
  rintro ⟨err, out, h, hrows⟩
  rw [hzero] at h
  obtain ⟨rfl, rfl⟩ := Prod.mk.inj (Option.some.inj h)
  have hrow := (List.cons.inj (result_inj.mp (hrows rfl _ rfl))).1
  exact storedRow_ne_zeroRow (R := longNotes) _ hrow.symm

end Corm
