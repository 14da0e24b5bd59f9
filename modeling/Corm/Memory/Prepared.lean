import Corm.Memory.Queries

/-!
# The memory of a prepared MySQL query

What `mysql_stmt_query` allocates and frees from `mysql_stmt_result_metadata` on, where any
allocation may fail.

* `WorkArrays`: arrays that are made together, and freed together;
* `stmtMem`: the function; `stmtMem_out`: its result has the values of the loop over the rows;
* `FetchDefined`, `fetchLoop_isSome_iff`: when that loop is defined;
* **`stmt_memory_iff`**: when the function is defined, and that it keeps the result or nothing.
-/

namespace Corm

open Handle
open Lifetime (MysqlOutcome)

/-! ## Arrays that are made together -/

/-- The arrays, in their order; `pointers` has a pointer for each column or each parameter. -/
structure WorkArrays where
  front : List WorkArray
  pointers : WorkArray
  back : List WorkArray
  nodup : (front ++ pointers :: back).Nodup

/-- Those that are allocated. -/
def gotArrays (ok : Block → Bool) (as : List WorkArray) : List Block :=
  (as.filter fun a => ok (.work a)).map .work

/-- What the pointers of `0, …, n - 1` that are needed point to. -/
def gotParts (ok : Block → Bool) (needed : ℕ → Bool) (n : ℕ) : List Block :=
  ((List.range n).filter fun j => needed j && ok (.part j)).map .part

namespace WorkArrays

variable (A : WorkArrays) (ok : Block → Bool)

/-- All of them. -/
def all : List WorkArray := A.front ++ A.pointers :: A.back

/-- Freeing them, with what the pointers point to. -/
def free (parts : List Block) (log : MemLog) : MemLog :=
  closeAll (gotArrays ok A.front ++ parts ++ gotArrays ok (A.pointers :: A.back)) log

/-- Making them: when one is missing, the others are freed, in a loop that reads `count` pointers;
`none` when it reads through a null pointer. -/
def alloc (count : ℕ) (log : MemLog) : Option (Bool × MemLog) :=
  if A.all.all fun a => ok (.work a) then some (true, openAll (gotArrays ok A.all) log)
  else if ok (.work A.pointers) = true ∨ count = 0 then
    some (false, A.free ok [] (openAll (gotArrays ok A.all) log))
  else none

variable {A ok} {rank : Block → ℕ} {k count : ℕ} {log log' : MemLog} {hs parts : List Block}

theorem gotArrays_append (as bs : List WorkArray) :
    gotArrays ok (as ++ bs) = gotArrays ok as ++ gotArrays ok bs := by
  simp [gotArrays]

theorem free_staged (h : Staged rank log (parts ++ (gotArrays ok A.all ++ hs)) k) :
    Staged rank (A.free ok parts log) hs k := by
  refine Staged.closeAll (h.perm (List.perm_iff_count.mpr fun b => ?_))
  rw [all, gotArrays_append]
  simp only [List.count_append]
  omega

theorem alloc_eq_none_iff :
    A.alloc ok count log = none ↔ ok (.work A.pointers) = false ∧ 0 < count := by
  unfold alloc
  split_ifs with hall hptr
  · have hpointers : ok (.work A.pointers) = true :=
      List.all_eq_true.mp hall _ (List.mem_append_right _ List.mem_cons_self)
    simp [hpointers]
  · refine iff_of_false nofun fun ⟨hno, hpos⟩ => ?_
    rcases hptr with hyes | hzero
    · rw [hno] at hyes
      exact Bool.false_ne_true hyes
    · omega
  · obtain ⟨hno, hne⟩ := not_or.mp hptr
    exact iff_of_true rfl ⟨by simpa using hno, Nat.pos_of_ne_zero hne⟩

variable (A ok) in
theorem opened_staged (h : Staged rank log hs k) (hrank : ∀ a, rank (.work a) = k) :
    Staged rank (openAll (gotArrays ok A.all) log) (gotArrays ok A.all ++ hs) (k + 1) := by
  refine h.openAll ((A.nodup.filter _).map fun _ _ => Block.work.inj) fun b hb => ?_
  obtain ⟨a, -, rfl⟩ := List.mem_map.mp hb
  exact hrank a

theorem alloc_made {made : Bool} (h : A.alloc ok count log = some (made, log')) :
    made = A.all.all fun a => ok (.work a) := by
  unfold alloc at h
  split_ifs at h with hall
  · exact (Prod.mk.inj (Option.some.inj h)).1.symm.trans hall.symm
  · exact (Prod.mk.inj (Option.some.inj h)).1.symm.trans (Bool.eq_false_iff.mpr hall).symm

/-- **The arrays are all there, or none of them.** -/
theorem alloc_staged (h : Staged rank log hs k) (hrank : ∀ a, rank (.work a) = k) {made : Bool}
    (halloc : A.alloc ok count log = some (made, log')) :
    Staged rank log' (if made then gotArrays ok A.all ++ hs else hs) (k + 1) := by
  have hopen := opened_staged A ok h hrank
  unfold alloc at halloc
  split_ifs at halloc with hall hptr <;>
    obtain ⟨rfl, rfl⟩ := Prod.mk.inj (Option.some.inj halloc)
  · exact hopen
  · exact free_staged hopen

end WorkArrays

theorem gotParts_staged (ok : Block → Bool) {rank : Block → ℕ} {k : ℕ} {log : MemLog}
    {hs : List Block} (h : Staged rank log hs k) (hrank : ∀ j, rank (.part j) = k)
    (needed : ℕ → Bool) (n : ℕ) :
    Staged rank (openAll (gotParts ok needed n) log) (gotParts ok needed n ++ hs) (k + 1) := by
  refine h.openAll ((List.nodup_range.filter _).map fun _ _ => Block.part.inj) fun b hb => ?_
  obtain ⟨j, -, rfl⟩ := List.mem_map.mp hb
  exact hrank j

/-! ## The function -/

/-- A call of a query function: its error, the result that it returns, and what it allocates and
frees. -/
structure QueryCall (n : ℕ) where
  err : Err
  result : Option (ResultBlocks n)
  log : MemLog

/-- Nothing is freed twice; what is live in the end is the result that is returned, or nothing. -/
structure QueryCall.Balanced {n : ℕ} (q : QueryCall n) : Prop where
  returned : ∀ K ∈ q.result, q.err = .ok ∧ Holds q.log K.blocks
  failed : q.result = none → q.err ≠ .ok ∧ Holds q.log []

/-- The arrays of `mysql_stmt_query`. -/
def mysqlArrays : WorkArrays where
  front := [.resultBind, .isNull, .lengths, .errors]
  pointers := .buffers
  back := [.bufLens]
  nodup := by decide

section Function

variable (C : MysqlClient) (ok : Block → Bool) (fetchError : ℕ → Bool) (R : MysqlStored)

/-- The outcomes of the loop over the rows. -/
def fetchOutcome : FetchOutcome R.columnCount where
  fetchError := fetchError
  bufferOk i := ok (.part i)
  copyOk r i := ok (.cell r i)

/-- The names that are copied; a null pointer is no error. -/
def nameBlocks (n : ℕ) : List Block := ((List.range n).filter fun j => ok (.name j)).map .name

/-- A result of which no row is filled. -/
def emptyRows (n : ℕ) (rowCount : ℤ) : ResultBlocks n where
  rowArray := rowArrayOf rowCount
  values := List.replicate rowCount.toNat zeroRow
  named j := ok (.name j)

theorem emptyRows_values (n : ℕ) (rowCount : ℤ) :
    (emptyRows ok n rowCount).values = List.replicate rowCount.toNat zeroRow := rfl

/-- The block of `mysql_stmt_query` for results with rows, and the end of the function. -/
def stmtFetch (bindResultOk : Bool) (log : MemLog) : Option (QueryCall R.columnCount) :=
  let empty := emptyRows ok R.columnCount (toCInt R.rows.length)
  match mysqlArrays.alloc ok R.columnCount log with
  | none => none
  | some (false, log) => some ⟨.nomem, none, closeAll empty.blocks (.closed .stored :: log)⟩
  | some (true, log) =>
    let buffers := gotParts ok (fun _ => true) R.columnCount
    let log := openAll buffers log
    if bindResultOk then
      (fetchLoop C (fetchOutcome ok fetchError R) 0 (fun i => zeroRoom (R.column i)) R.rows
        empty.values).map fun rows =>
          ⟨.ok, some { empty with values := rows },
            .closed .stored :: mysqlArrays.free ok buffers (openAll (valueBlocks 0 rows) log)⟩
    else some ⟨.backend, none,
      closeAll empty.blocks (.closed .stored :: mysqlArrays.free ok buffers log)⟩

/-- `mysql_stmt_query` after `mysql_stmt_store_result`. The number of rows is converted to `int`.
`none` outside of what C defines. -/
def stmtMem (bindResultOk : Bool) : Option (QueryCall R.columnCount) :=
  match resultNew ok (toCInt R.rows.length) [.opened .stored] with
  | (false, log) => some ⟨.nomem, none, .closed .stored :: log⟩
  | (true, log) =>
    let log := openAll (nameBlocks ok R.columnCount) log
    if 0 < toCInt R.rows.length then stmtFetch C ok fetchError R bindResultOk log
    else some ⟨.ok, some (emptyRows ok R.columnCount (toCInt R.rows.length)), .closed .stored :: log⟩

/-- The outcomes of the calls, for the values of the result. -/
def stmtOutcome (bindResultOk : Bool) : MysqlOutcome where
  plainOk := true
  initOk := true
  prepareOk := true
  callocOk := true
  strdupOk := true
  bindAllocOk := true
  bindOk := true
  executeOk := true
  hasMetadata := true
  storeOk := true
  resultOk := (resultNew ok (toCInt R.rows.length) [.opened .stored]).1
  rowCount := (toCInt R.rows.length).toNat
  buffersOk := mysqlArrays.all.all fun a => ok (.work a)
  bindResultOk := bindResultOk
  fetched := 0

end Function

section Result

variable {C : MysqlClient} {ok : Block → Bool} {fetchError : ℕ → Bool} {R : MysqlStored}
  {bindResultOk : Bool} {q : QueryCall R.columnCount} {log : MemLog}

theorem stmtFetch_out (h : stmtFetch C ok fetchError R bindResultOk log = some q) :
    (if mysqlArrays.all.all fun a => ok (.work a) then
      if bindResultOk then
        (fetchLoop C (fetchOutcome ok fetchError R) 0 (fun i => zeroRoom (R.column i)) R.rows
          (List.replicate (toCInt R.rows.length).toNat zeroRow)).map fun rows =>
            (Err.ok, some (R.result rows))
      else some (.backend, none)
    else some (.nomem, none)) = some (q.err, q.result.map fun K => R.result K.values) := by
  unfold stmtFetch at h
  rcases halloc : mysqlArrays.alloc ok R.columnCount log with _ | ⟨made, log'⟩
  · rw [halloc] at h
    cases h
  · rw [halloc] at h
    rw [← WorkArrays.alloc_made halloc]
    cases made with
    | false =>
      obtain rfl := Option.some.inj h
      rfl
    | true =>
      cases bindResultOk with
      | false =>
        obtain rfl := Option.some.inj h
        rfl
      | true =>
        obtain ⟨rows, hrows, rfl⟩ := Option.map_eq_some_iff.mp h
        rw [emptyRows_values] at hrows
        rw [if_pos rfl, if_pos rfl, hrows]
        rfl

/-- Where the function is defined, it returns what the values are modelled to be. -/
theorem stmtMem_out (h : stmtMem C ok fetchError R bindResultOk = some q) :
    mysqlFetchOut C (fetchOutcome ok fetchError R) (stmtOutcome ok R bindResultOk) =
      some (q.err, q.result.map fun K => R.result K.values) := by
  unfold stmtMem at h
  unfold mysqlFetchOut stmtOutcome
  rcases hnew : resultNew ok (toCInt R.rows.length) [.opened .stored] with ⟨made, log⟩
  rw [hnew] at h
  cases made with
  | false =>
    obtain rfl := Option.some.inj h
    rfl
  | true =>
    simp only [if_true]
    by_cases hpos : 0 < toCInt R.rows.length
    · simp only [if_pos hpos] at h ⊢
      exact stmtFetch_out h
    · simp only [if_neg hpos] at h ⊢
      obtain rfl := Option.some.inj h
      have hzero : (toCInt R.rows.length).toNat = 0 := by omega
      simp [emptyRows, hzero]

end Result

/-! ## The loop over the rows -/

section Defined

variable (C : MysqlClient) {R : MysqlStored} (e : FetchOutcome R.columnCount)

/-- `strdup` finds the end of a text in its buffer. -/
def TextEnds : (t : MysqlColumn) → Option t.Data → Prop
  | .text, (some s : Option Text) => s.length < textRoom ∨ nul ∈ s
  | _, _ => True

/-- The rows from row `r` on, into an array of `total` rows. A row whose fetch reports no error has a
buffer for each value that is not NULL; when all of its values have room, texts end in their
buffers, and the array has a row for it. -/
def FetchDefined (total : ℕ) : ℕ → List R.Row → Prop
  | _, [] => True
  | r, row :: rest => e.fetchError r = false →
    (∀ i, (row i).isSome → e.bufferOk i = true) ∧
    ((∀ i, HasRoom (R.column i) (row i)) →
      (∀ i, TextEnds (R.column i) (row i)) ∧ r < total ∧ FetchDefined total (r + 1) rest)

theorem nul_mem_writeText_iff {s : Text} (buf : Buffer Char textRoom) (hroom : s.length ≤ textRoom) :
    nul ∈ (C.writeText s buf).1 ↔ s.length < textRoom ∨ nul ∈ s := by
  have htake := C.take_writeText s buf hroom
  constructor
  · intro hnul
    rcases hroom.lt_or_eq with hlt | heq
    · exact Or.inl hlt
    · -- the text fills its buffer
      refine Or.inr ?_
      rwa [← htake, List.take_of_length_le (by rw [(C.writeText s buf).2, heq])]
  · rintro (hlt | hnul)
    · exact List.mem_of_mem_drop (List.mem_of_mem_head? (C.drop_writeText s buf hlt))
    · rw [← htake] at hnul
      exact List.mem_of_mem_take hnul

theorem copyValue_isSome_iff (copyOk : Bool) (t : MysqlColumn) (x : Option t.Data) (buf : t.Room)
    (hroom : HasRoom t x) :
    (copyValue copyOk t x (storeValue C t x buf)).isSome = true ↔ TextEnds t x := by
  cases x with
  | none => cases t <;> exact iff_of_true rfl trivial
  | some x =>
    cases t with
    | text =>
      change List Char at x
      change Buffer Char textRoom at buf
      have hvalue : copyValue copyOk .text (some x) (storeValue C .text (some x) buf) =
          if nul ∈ (C.writeText x buf).1 then
            some ⟨.text, false, .s (if copyOk then some (cstr (C.writeText x buf).1) else none)⟩
          else none := rfl
      have hend := nul_mem_writeText_iff C buf hroom
      rw [hvalue]
      by_cases hnul : nul ∈ (C.writeText x buf).1
      · rw [if_pos hnul]
        exact iff_of_true rfl (hend.mp hnul)
      · rw [if_neg hnul]
        exact iff_of_false Bool.false_ne_true fun h => hnul (hend.mpr h)
    | int64 | double | blob => exact iff_of_true rfl trivial

theorem copyRow_isSome_iff (copyOk : Fin R.columnCount → Bool) (row : R.Row)
    (bufs : (i : Fin R.columnCount) → (R.column i).Room)
    (hroom : ∀ i, HasRoom (R.column i) (row i)) :
    (copyRow copyOk row (storeRow C row bufs)).isSome = true ↔
      ∀ i, TextEnds (R.column i) (row i) := by
  have hvalues : (∀ i, (copyValue (copyOk i) (R.column i) (row i)
      (storeRow C row bufs i)).isSome = true) ↔ ∀ i, TextEnds (R.column i) (row i) :=
    forall_congr' fun i => copyValue_isSome_iff C (copyOk i) _ _ _ (hroom i)
  rw [← hvalues]
  unfold copyRow
  split_ifs with h
  · exact iff_of_true rfl h
  · exact iff_of_false Bool.false_ne_true h

/-- **When the loop is defined.** -/
theorem fetchLoop_isSome_iff (r : ℕ) (bufs : (i : Fin R.columnCount) → (R.column i).Room)
    (rest : List R.Row) (rows : List (Fin R.columnCount → Value)) :
    (fetchLoop C e r bufs rest rows).isSome = true ↔ FetchDefined e rows.length r rest := by
  induction rest generalizing r bufs rows with
  | nil => exact iff_of_true rfl trivial
  | cons row rest ih =>
    rw [fetchLoop, FetchDefined]
    by_cases herr : e.fetchError r = true
    · rw [if_pos herr]
      exact iff_of_true rfl fun h => absurd (h.symm.trans herr) Bool.false_ne_true
    · rw [if_neg herr, forall_prop_of_true (Bool.eq_false_iff.mpr herr)]
      by_cases hbuf : ∀ i, (row i).isSome → e.bufferOk i = true
      · rw [if_pos hbuf, and_iff_right hbuf]
        by_cases hroom : ∀ i, HasRoom (R.column i) (row i)
        · rw [if_pos hroom, forall_prop_of_true hroom,
            ← copyRow_isSome_iff C (e.copyOk r) row bufs hroom]
          cases copyRow (e.copyOk r) row (storeRow C row bufs) with
          | none => exact iff_of_false Bool.false_ne_true fun h => Bool.false_ne_true h.1
          | some vals =>
            rw [and_iff_right (show (some vals).isSome = true from rfl)]
            show (if r < rows.length then
              fetchLoop C e (r + 1) (storeRow C row bufs) rest (rows.set r vals) else none).isSome =
                true ↔ _
            by_cases hlt : r < rows.length
            · rw [if_pos hlt, and_iff_right hlt, ih, List.length_set]
            · rw [if_neg hlt]
              exact iff_of_false Bool.false_ne_true fun h => hlt h.1
        · rw [if_neg hroom]
          exact iff_of_true rfl fun h => absurd h hroom
      · rw [if_neg hbuf]
        exact iff_of_false Bool.false_ne_true fun h => hbuf h.1

end Defined

/-! ## What is live -/

/-- The order in which the function allocates. -/
def stage : Block → ℕ
  | .stored | .colTypes | .unescaped _ _ => 0
  | .header | .names | .types | .rows _ | .row _ => 1
  | .name _ => 2
  | .work _ => 3
  | .part _ => 4
  | .cell _ _ => 5

section Live

variable {ok : Block → Bool} {rank : Block → ℕ} {n k : ℕ} {c : ℤ} {log : MemLog} {hs : List Block}

/-- A result by the blocks of its values, those of its names and those of `corm_result_new`. -/
theorem made_perm (c : ℤ) {vals : List (Fin n → Value)} (hlen : vals.length = c.toNat) :
    (ResultBlocks.blocks (n := n) ⟨rowArrayOf c, vals, fun j => ok (.name j)⟩).Perm
      (valueBlocks 0 vals ++ (nameBlocks ok n ++ newBlocks c)) := by
  have hperm := kept_blocks_perm vals c.toNat hlen fun j => ok (.name j)
  have hpos : (0 : ℤ) < (c.toNat : ℤ) ↔ 0 < c := by omega
  have harray : rowArrayOf (c.toNat : ℤ) = rowArrayOf c := by simp only [rowArrayOf, hpos]
  have hnew : newBlocks (c.toNat : ℤ) = newBlocks c := by
    simp only [newBlocks, hpos, Int.toNat_natCast]
  rw [harray, hnew] at hperm
  exact hperm

variable (ok c) in
theorem resultNew_staged (hst : Staged rank log hs k) (hrank : ∀ b ∈ newBlocks c, rank b = k)
    (hnew : (resultNew ok c log).1 = true) :
    Staged rank (resultNew ok c log).2 (newBlocks c ++ hs) (k + 1) := by
  have hfresh : ∀ b ∈ newBlocks c, .opened b ∉ log := fun b hb hopen =>
    absurd (hst.seen b hopen) (by rw [hrank b hb]; exact lt_irrefl k)
  rw [(resultNew_spec ok c hst.holds hfresh).1 hnew]
  exact hst.openAll (newBlocks_nodup c) hrank

variable (ok) in
theorem nameBlocks_staged (hst : Staged rank log hs k) (hrank : ∀ j, rank (.name j) = k) (n : ℕ) :
    Staged rank (openAll (nameBlocks ok n) log) (nameBlocks ok n ++ hs) (k + 1) := by
  refine hst.openAll ((List.nodup_range.filter _).map fun _ _ => Block.name.inj) fun b hb => ?_
  obtain ⟨j, -, rfl⟩ := List.mem_map.mp hb
  exact hrank j

theorem holds_kept {vals : List (Fin n → Value)} (hlen : vals.length = c.toNat)
    (h : Holds log (valueBlocks 0 vals ++ (nameBlocks ok n ++ (newBlocks c ++ [Block.stored])))) :
    Holds (.closed .stored :: log)
      (ResultBlocks.blocks (n := n) ⟨rowArrayOf c, vals, fun j => ok (.name j)⟩) := by
  refine (Holds.closed (h.perm (List.perm_iff_count.mpr fun b => ?_))).perm (made_perm c hlen)
  simp only [List.count_append, List.count_cons, List.count_nil]
  omega

theorem holds_released (h : Holds log (nameBlocks ok n ++ (newBlocks c ++ [Block.stored]))) :
    Holds (closeAll (emptyRows ok n c).blocks (.closed .stored :: log)) [] := by
  refine Holds.closeAll ?_
  rw [List.append_nil]
  refine holds_kept List.length_replicate ?_
  rw [valueBlocks_zero]
  exact h

end Live

section Balance

variable {C : MysqlClient} {ok : Block → Bool} {fetchError : ℕ → Bool} {R : MysqlStored}
  {bindResultOk : Bool} {q : QueryCall R.columnCount} {log : MemLog}

theorem stage_newBlocks {c : ℤ} : ∀ b ∈ newBlocks c, stage b = 1 := by
  intro b hb
  rcases mem_newBlocks hb with rfl | rfl | rfl | rfl | ⟨r, rfl⟩ <;> rfl

theorem stmtFetch_balanced
    (hst : Staged stage log (nameBlocks ok R.columnCount ++
      (newBlocks (toCInt R.rows.length) ++ [Block.stored])) 3)
    (h : stmtFetch C ok fetchError R bindResultOk log = some q) : q.Balanced := by
  unfold stmtFetch at h
  rcases halloc : mysqlArrays.alloc ok R.columnCount log with _ | ⟨made, log'⟩
  · rw [halloc] at h
    cases h
  · have harrays := WorkArrays.alloc_staged hst (fun _ => rfl) halloc
    rw [halloc] at h
    cases made with
    | false =>
      obtain rfl := Option.some.inj h
      rw [if_neg Bool.false_ne_true] at harrays
      refine ⟨nofun, fun _ => ⟨nofun, ?_⟩⟩
      dsimp only
      exact holds_released harrays.holds
    | true =>
      rw [if_pos rfl] at harrays
      have hparts := gotParts_staged ok harrays (fun _ => rfl) (fun _ => true) R.columnCount
      cases bindResultOk with
      | false =>
        obtain rfl := Option.some.inj h
        refine ⟨nofun, fun _ => ⟨nofun, ?_⟩⟩
        dsimp only
        exact holds_released (WorkArrays.free_staged hparts).holds
      | true =>
        obtain ⟨rows, hrows, rfl⟩ := Option.map_eq_some_iff.mp h
        rw [emptyRows_values] at hrows
        have hlen := (fetchLoop_keeps C (fetchOutcome ok fetchError R) hrows).1
        rw [List.length_replicate] at hlen
        have hvalues := hparts.openAll (valueBlocks_nodup 0 rows) fun b hb => by
          obtain ⟨r, j, -, -, rfl⟩ := mem_valueBlocks hb
          rfl
        -- the values stay when the buffers and the arrays are freed
        have hfree := WorkArrays.free_staged (hvalues.perm (List.perm_append_comm_assoc ..) |>.perm
          ((List.perm_append_comm_assoc ..).append_left _))
        refine ⟨fun K hK => ?_, nofun⟩
        obtain rfl := Option.some.inj hK
        refine ⟨rfl, ?_⟩
        dsimp only [emptyRows]
        exact holds_kept hlen hfree.holds

theorem stmtMem_balanced (h : stmtMem C ok fetchError R bindResultOk = some q) : q.Balanced := by
  have hstored : Staged stage ([.opened .stored] : MemLog) [.stored] 1 :=
    Staged.nil.openAll (List.nodup_singleton _) fun b hb => by rw [List.mem_singleton.mp hb]; rfl
  have hnone := (resultNew_spec ok (toCInt R.rows.length) hstored.holds fun b hb hopen =>
    absurd (hstored.seen b hopen) (by rw [stage_newBlocks b hb]; exact lt_irrefl 1)).2
  have hmade := resultNew_staged ok (toCInt R.rows.length) hstored stage_newBlocks
  unfold stmtMem at h
  rcases hnew : resultNew ok (toCInt R.rows.length) [.opened .stored] with ⟨made, log⟩
  rw [hnew] at h hnone hmade
  cases made with
  | false =>
    obtain rfl := Option.some.inj h
    exact ⟨nofun, fun _ => ⟨nofun, (hnone rfl).closed⟩⟩
  | true =>
    have hnames := nameBlocks_staged ok (hmade rfl) (fun _ => rfl) R.columnCount
    simp only at h
    split_ifs at h with hpos
    · exact stmtFetch_balanced hnames h
    · obtain rfl := Option.some.inj h
      refine ⟨fun K hK => ?_, nofun⟩
      obtain rfl := Option.some.inj hK
      refine ⟨rfl, holds_kept List.length_replicate ?_⟩
      rw [valueBlocks_zero]
      exact hnames.holds

variable (C ok fetchError R bindResultOk) in
/-- `buffers` is there when one of the arrays is missing, and the loop over the rows is defined. -/
structure StmtDefined : Prop where
  buffers : ok (.work .buffers) = true
  rows : (∀ a ∈ mysqlArrays.all, ok (.work a) = true) → bindResultOk = true →
    FetchDefined (fetchOutcome ok fetchError R) (toCInt R.rows.length).toNat 0 R.rows

theorem stmtFetch_isSome_iff : (stmtFetch C ok fetchError R bindResultOk log).isSome = true ↔
    StmtDefined ok fetchError R bindResultOk := by
  unfold stmtFetch
  rcases halloc : mysqlArrays.alloc ok R.columnCount log with _ | ⟨made, log'⟩
  · obtain ⟨hno, -⟩ := WorkArrays.alloc_eq_none_iff.mp halloc
    exact iff_of_false Bool.false_ne_true fun h =>
      Bool.false_ne_true (hno.symm.trans h.buffers)
  · have hbuffers : ok (.work .buffers) = true := by
      by_contra hno
      have hnone : mysqlArrays.alloc ok R.columnCount log = none :=
        WorkArrays.alloc_eq_none_iff.mpr ⟨Bool.eq_false_iff.mpr hno, R.columnCount_pos⟩
      rw [halloc] at hnone
      cases hnone
    have hmade := WorkArrays.alloc_made halloc
    cases made with
    | false =>
      refine iff_of_true rfl ⟨hbuffers, fun hall => ?_⟩
      exact absurd (hmade.trans (List.all_eq_true.mpr hall)) Bool.false_ne_true
    | true =>
      have hall := List.all_eq_true.mp hmade.symm
      cases bindResultOk with
      | false => exact iff_of_true rfl ⟨hbuffers, fun _ h => absurd h Bool.false_ne_true⟩
      | true =>
        have hloop := fetchLoop_isSome_iff C (fetchOutcome ok fetchError R) 0
          (fun i => zeroRoom (R.column i)) R.rows
          (List.replicate (toCInt R.rows.length).toNat zeroRow)
        rw [List.length_replicate] at hloop
        simp only [if_true, Option.isSome_map, emptyRows_values]
        rw [hloop]
        exact ⟨fun h => ⟨hbuffers, fun _ _ => h⟩, fun h => h.rows hall rfl⟩

/-- **The memory of `mysql_stmt_query`**, whatever fails. It is undefined exactly when there are rows
for a result and the array of buffers is missing, or a row is fetched with a value that is not NULL
and has no buffer, or with a text that fills its buffer, or after the last row of the result.
Otherwise nothing is freed twice, what is live in the end is the result that it returns, or nothing,
and the rows of the result are those that the loop has filled. -/
theorem stmt_memory_iff :
    ((stmtMem C ok fetchError R bindResultOk).isSome = true ↔
      ((resultNew ok (toCInt R.rows.length) [.opened .stored]).1 = true →
        0 < toCInt R.rows.length → StmtDefined ok fetchError R bindResultOk)) ∧
    ∀ q, stmtMem C ok fetchError R bindResultOk = some q → q.Balanced ∧
      mysqlFetchOut C (fetchOutcome ok fetchError R) (stmtOutcome ok R bindResultOk) =
        some (q.err, q.result.map fun K => R.result K.values) := by
  refine ⟨?_, fun q h => ⟨stmtMem_balanced h, stmtMem_out h⟩⟩
  unfold stmtMem
  rcases hnew : resultNew ok (toCInt R.rows.length) [.opened .stored] with ⟨made, log⟩
  cases made with
  | false => exact iff_of_true rfl fun h => absurd h Bool.false_ne_true
  | true =>
    simp only [forall_true_left]
    split_ifs with hpos
    · rw [stmtFetch_isSome_iff, forall_prop_of_true hpos]
    · exact iff_of_true rfl fun h => absurd h hpos

end Balance

end Corm
