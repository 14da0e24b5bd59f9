import Corm.Lib.Handle
import Corm.Lib.Run
import Corm.Model
import Mathlib.Algebra.Group.Nat.Defs
import Mathlib.Algebra.Ring.Int.Defs
import Mathlib.Data.List.Range

/-!
# The memory of a result

`result.c`: a result is a header, the arrays of its names, types and rows, a block for each row, and
the blocks that its names and values point to.

* `Block`, `Value.owns`: the blocks, and the values that point to one;
* `resultNew`: `corm_result_new`, where any allocation may fail;
* `ResultBlocks`: a result in memory; `ResultBlocks.blocks`: what `corm_result_release` frees, in
  its order;
* `RefOp.step`: `corm_result_retain` and `corm_result_release`;
* **`freed_by_last_owner`**: a result stays as it is until its last owner releases it, and nothing of
  it stays after that.
-/

namespace Corm

open Handle

/-! ## Blocks -/

/-- The arrays that `mysql_stmt_query` makes for the buffers of the columns, and those that `pg_query`
makes for the parameters. -/
inductive WorkArray
  | resultBind
  | isNull
  | lengths
  | errors
  | buffers
  | bufLens
  | paramValues
  | paramLengths
  | paramFormats
  | tmpStrs
  deriving DecidableEq

/-- The blocks of a result; the array of row pointers may have moved. The others are what a query
keeps on the way: `colTypes` in `sqlite_query`, the arrays with what `buffers` and `tmp_strs` point
to, the object in which the library has the result, and what `PQunescapeBytea` returns. -/
inductive Block
  | header
  | names
  | types
  | rows (moved : ℕ)
  | row (r : ℕ)
  | name (j : ℕ)
  | cell (r j : ℕ)
  | colTypes
  | work (a : WorkArray)
  | part (j : ℕ)
  | stored
  | unescaped (r j : ℕ)
  deriving DecidableEq

/-- What was allocated and freed. -/
abbrev MemLog := List (Event Empty Block)

/-- The value points to a block that `corm_result_release` frees. -/
def Value.owns (v : Value) : Bool :=
  match v.type, v.v with
  | .text, .s (some _) | .string, .s (some _) | .blob, .blob (some _) => true
  | _, _ => false

/-- The value without the block that it points to. -/
def Value.uncopied (val : Value) : Value :=
  { val with v := match val.v with
    | .s _ => .s none
    | .blob _ => .blob none
    | v => v }

/-- The blocks of the values of row `r`. -/
def cellBlocks {n : ℕ} (r : ℕ) (vals : Fin n → Value) : List Block :=
  ((List.finRange n).filter fun j => (vals j).owns).map fun j : Fin n => .cell r j.val

/-- The blocks of the rows, from row `r` on. -/
def rowBlocks {n : ℕ} (r : ℕ) : List (Fin n → Value) → List Block
  | [] => []
  | vals :: rest => cellBlocks r vals ++ .row r :: rowBlocks (r + 1) rest

/-- A result in memory: whether it has an array of rows, and how often that has moved; its values;
and the names that are no null pointers. -/
structure ResultBlocks (n : ℕ) where
  rowArray : Option ℕ
  values : List (Fin n → Value)
  named : ℕ → Bool

/-- The blocks of a result, in the order in which `corm_result_release` frees them. -/
def ResultBlocks.blocks {n : ℕ} (K : ResultBlocks n) : List Block :=
  rowBlocks 0 K.values ++ (K.rowArray.map Block.rows).toList ++
    ((List.range n).filter K.named).map .name ++ [Block.names, .types, .header]

/-! ## Allocation -/

section New

variable (ok : Block → Bool)

/-- The loop of `corm_result_new` from row `i` on, with `k` rows left. -/
def newRows (i : ℕ) : ℕ → MemLog → Bool × MemLog
  | 0, log => (true, log)
  | k + 1, log =>
    if ok (.row i) then newRows (i + 1) k (.opened (.row i) :: log)
    else (false, closeAll ((List.range i).map .row ++ [Block.rows 0, .types, .names, .header]) log)

/-- `corm_result_new`; `false` when it returns a null pointer. -/
def resultNew (rowCount : ℤ) (log : MemLog) : Bool × MemLog :=
  if ok .header then
    if ok .names then
      if ok .types then
        if 0 < rowCount then
          if ok (.rows 0) then
            newRows ok 0 rowCount.toNat (openAll [.header, .names, .types, .rows 0] log)
          else (false, closeAll [.types, .names, .header] (openAll [.header, .names, .types] log))
        else (true, openAll [.header, .names, .types] log)
      else (false, closeAll [.names, .header] (openAll [.header, .names] log))
    else (false, closeAll [.header] (openAll [.header] log))
  else (false, log)

/-- The blocks that it allocates. -/
def newBlocks (rowCount : ℤ) : List Block :=
  [Block.header, .names, .types] ++
    if 0 < rowCount then .rows 0 :: (List.range rowCount.toNat).map .row else []

variable {log : MemLog} {hs : List Block}

theorem newRows_spec {i k : ℕ}
    (hh : Holds log ((List.range i).map .row ++ [Block.rows 0, .types, .names, .header] ++ hs))
    (hnew : ∀ j, i ≤ j → j < i + k → .opened (.row j) ∉ log) :
    ((newRows ok i k log).1 = true → (newRows ok i k log).2 =
      openAll ((List.range' i k).map .row) log) ∧
    ((newRows ok i k log).1 = false → Holds (newRows ok i k log).2 hs) := by
  induction k generalizing i log with
  | zero => exact ⟨fun _ => rfl, nofun⟩
  | succ k ih =>
    rw [newRows]
    split_ifs with hok
    · have hnext : Holds (.opened (.row i) :: log)
          ((List.range (i + 1)).map .row ++ [Block.rows 0, .types, .names, .header] ++ hs) := by
        refine (hh.opened (hnew i le_rfl (by omega))).perm ?_
        simp only [List.range_succ, List.map_append, List.map_cons, List.map_nil, List.append_assoc,
          List.cons_append, List.nil_append]
        exact List.perm_middle
      exact ih hnext fun j hj hlt hm => by
        rcases List.mem_cons.mp hm with heq | hm
        · have hij : j = i := Block.row.inj (Event.opened.inj heq)
          omega
        · exact hnew j (by omega) (by omega) hm
    · exact ⟨nofun, fun _ => hh.closeAll⟩

theorem newBlocks_nodup (rowCount : ℤ) : (newBlocks rowCount).Nodup := by
  have hrows : ((List.range rowCount.toNat).map Block.row).Nodup :=
    List.nodup_range.map fun _ _ => Block.row.inj
  unfold newBlocks
  split_ifs <;> simp [hrows]

/-- **`corm_result_new`** allocates all blocks, or keeps none. -/
theorem resultNew_spec (rowCount : ℤ) (hh : Holds log hs)
    (hnew : ∀ b ∈ newBlocks rowCount, .opened b ∉ log) :
    ((resultNew ok rowCount log).1 = true → (resultNew ok rowCount log).2 =
      openAll (newBlocks rowCount) log) ∧
    ((resultNew ok rowCount log).1 = false → Holds (resultNew ok rowCount log).2 hs) := by
  have hopen (bs bs' : List Block) (hp : bs'.Perm bs) (hn : bs.Nodup)
      (hbs : ∀ b ∈ bs, b ∈ newBlocks rowCount) : Holds (openAll bs log) (bs' ++ hs) :=
    (hh.openAll hn fun b hb => hnew b (hbs b hb)).perm (hp.append_right hs)
  have hfirst : ∀ b ∈ [.header, .names, .types], b ∈ newBlocks rowCount := fun b hb =>
    List.mem_append_left _ hb
  unfold resultNew
  split_ifs with _ _ _ hpos
  · have hrest : .rows 0 :: (List.range rowCount.toNat).map .row ⊆ newBlocks rowCount := by
      rw [newBlocks, if_pos hpos]
      exact List.subset_append_right _ _
    have hfour : Holds (openAll [.header, .names, .types, .rows 0] log)
        ((List.range 0).map .row ++ [Block.rows 0, .types, .names, .header] ++ hs) := by
      refine hopen _ _ (by decide) (by decide) fun b hb => ?_
      have hb : b ∈ [Block.header, .names, .types] ++ [Block.rows 0] := hb
      rcases List.mem_append.mp hb with hb | hb
      · exact hfirst b hb
      · exact hrest (List.mem_singleton.mp hb ▸ List.mem_cons_self)
    have hrows : ∀ j, 0 ≤ j → j < 0 + rowCount.toNat →
        .opened (.row j) ∉ openAll [.header, .names, .types, .rows 0] log := by
      intro j _ hj
      rw [mem_openAll_opened, not_or]
      refine ⟨by simp, hnew _ (hrest (List.mem_cons_of_mem _ (List.mem_map_of_mem ?_)))⟩
      exact List.mem_range.mpr (by omega)
    obtain ⟨hall, hnone⟩ := newRows_spec ok hfour hrows
    refine ⟨fun h => (hall h).trans ?_, hnone⟩
    rw [← List.range_eq_range', newBlocks, if_pos hpos]
    rfl
  · exact ⟨nofun, fun _ => (hopen _ _ (by decide) (by decide) hfirst).closeAll⟩
  · rw [newBlocks, if_neg hpos]
    exact ⟨fun _ => rfl, nofun⟩
  · exact ⟨nofun, fun _ => (hopen _ _ (by decide) (by decide) fun b hb =>
      hfirst b (List.mem_of_mem_take (i := 2) hb)).closeAll⟩
  · exact ⟨nofun, fun _ => (hopen _ _ (by decide) (by decide) fun b hb =>
      hfirst b (List.mem_of_mem_take (i := 1) hb)).closeAll⟩
  · exact ⟨nofun, fun _ => hh⟩

end New

/-! ## Owners -/

/-- A result that several owners share: its `refcount`, and what was allocated and freed. -/
structure Counted where
  refcount : ℤ
  log : MemLog

/-- The calls of the owners. -/
inductive RefOp
  | retain
  | release
  deriving DecidableEq

namespace RefOp

variable {n : ℕ} {K : ResultBlocks n} {log : MemLog} {k : ℤ}

/-- `corm_result_retain` and `corm_result_release`; undefined where the result has been freed, and
where `refcount` overflows. -/
def step (K : ResultBlocks n) (s : Counted) : RefOp → Option Counted
  | retain =>
    if .closed .header ∈ s.log ∨ s.refcount + 1 = 2 ^ 31 then none
    else some { s with refcount := s.refcount + 1 }
  | release =>
    if .closed .header ∈ s.log then none
    else if 0 < s.refcount - 1 then some { s with refcount := s.refcount - 1 }
    else some ⟨s.refcount - 1, closeAll K.blocks s.log⟩

/-- What a call does to the number of owners. -/
def change : RefOp → ℤ
  | retain => 1
  | release => -1

/-- Each call is made by an owner, where there were `k` before. -/
def Owned : ℤ → List RefOp → Prop
  | _, [] => True
  | k, op :: ops => 0 < k ∧ Owned (k + op.change) ops

/-- How many owners there are after a run of calls, where there were `k` before. -/
def owners : ℤ → List RefOp → ℤ
  | k, [] => k
  | k, op :: ops => owners (k + op.change) ops

theorem header_mem_blocks (K : ResultBlocks n) : .header ∈ K.blocks := by simp [ResultBlocks.blocks]

theorem step_freed {s : Counted} (h : .closed .header ∈ s.log) (op : RefOp) : op.step K s = none := by
  cases op <;> simp [step, h]

/-- **The calls of the owners**: as long as each is made by one, the result is there until the last
of them releases it, and then all of it is freed. -/
theorem exec_owned (hh : Holds log K.blocks) (hk : 0 < k) {ops : List RefOp}
    (hsmall : k + ops.length < 2 ^ 31) :
    ((Run.exec (fun s op => step K s op) ⟨k, log⟩ ops).isSome = true ↔ Owned k ops) ∧
    ∀ s', Run.exec (fun s op => step K s op) ⟨k, log⟩ ops = some s' →
      s'.refcount = owners k ops ∧
        Holds s'.log (if 0 < s'.refcount then K.blocks else []) := by
  induction ops generalizing k log with
  | nil =>
    refine ⟨iff_of_true rfl trivial, fun s' hs' => ?_⟩
    obtain rfl := Option.some.inj hs'
    exact ⟨rfl, by rw [if_pos hk]; exact hh⟩
  | cons op ops ih =>
    have hlive : .closed .header ∉ log :=
      ((hh.live .header).mpr (header_mem_blocks K)).2
    rw [List.length_cons] at hsmall
    cases op with
    | retain =>
      have hstep : step K ⟨k, log⟩ retain = some ⟨k + 1, log⟩ := by
        have hmax : ¬ (Event.closed Block.header ∈ log ∨ k + 1 = 2 ^ 31) := by
          rintro (h | h)
          · exact hlive h
          · omega
        exact if_neg hmax
      obtain ⟨hiff, hfinal⟩ := ih hh (k := k + 1) (by omega) (by omega)
      rw [Run.exec, hstep, Option.bind_some, Owned]
      exact ⟨hiff.trans (and_iff_right hk).symm, hfinal⟩
    | release =>
      by_cases hlast : 0 < k - 1
      · have hstep : step K ⟨k, log⟩ release = some ⟨k - 1, log⟩ := by
          rw [step, if_neg hlive, if_pos hlast]
        obtain ⟨hiff, hfinal⟩ := ih hh (k := k - 1) hlast (by omega)
        rw [Run.exec, hstep, Option.bind_some, Owned]
        exact ⟨hiff.trans (and_iff_right hk).symm, hfinal⟩
      · -- the last owner
        have hstep : step K ⟨k, log⟩ release = some ⟨k - 1, closeAll K.blocks log⟩ := by
          rw [step, if_neg hlive, if_neg hlast]
        have hnone : Holds (closeAll K.blocks log) [] :=
          Holds.closeAll (by rw [List.append_nil]; exact hh)
        have hfreed : .closed .header ∈ closeAll K.blocks log :=
          mem_closeAll_closed.mpr (Or.inl (header_mem_blocks K))
        rw [Run.exec, hstep, Option.bind_some, Owned]
        cases ops with
        | nil =>
          refine ⟨iff_of_true rfl ⟨hk, trivial⟩, fun s' hs' => ?_⟩
          obtain rfl := Option.some.inj hs'
          exact ⟨rfl, by rw [if_neg hlast]; exact hnone⟩
        | cons op ops =>
          have hundef : Run.exec (fun s op => step K s op) ⟨k - 1, closeAll K.blocks log⟩
              (op :: ops) = none := by
            rw [Run.exec, step_freed hfreed, Option.bind_none]
          rw [hundef]
          refine ⟨iff_of_false Bool.false_ne_true fun h => hlast ?_,
            fun s' hs' => absurd hs' (Option.some_ne_none s').symm⟩
          have hnext := h.2.1
          rw [change] at hnext
          omega

end RefOp

/-- **A result is freed by its last owner.** From a result in memory with one owner, a run of calls
is defined exactly when each of them is made by an owner; `refcount` is the number of owners, and
what is live is the whole result while there is one, and nothing of it when there is none. -/
theorem freed_by_last_owner {n : ℕ} {K : ResultBlocks n} {log : MemLog} (hh : Holds log K.blocks)
    {ops : List RefOp} (hsmall : 1 + ops.length < 2 ^ 31) :
    ((Run.exec (fun s op => RefOp.step K s op) ⟨1, log⟩ ops).isSome = true ↔ RefOp.Owned 1 ops) ∧
    ∀ s', Run.exec (fun s op => RefOp.step K s op) ⟨1, log⟩ ops = some s' →
      s'.refcount = RefOp.owners 1 ops ∧
        Holds s'.log (if 0 < s'.refcount then K.blocks else []) :=
  RefOp.exec_owned hh Int.one_pos (by omega)

/-- The result of a query with one column, and a text in its only row. -/
def oneText : ResultBlocks 1 := ⟨some 0, [fun _ => ⟨.text, false, .s (some ['a'])⟩], fun _ => true⟩

theorem holds_oneText : Holds (openAll oneText.blocks [] : MemLog) oneText.blocks := by
  have hopen : Holds (openAll oneText.blocks [] : MemLog) (oneText.blocks ++ []) :=
    Holds.nil.openAll (by decide) fun _ _ => List.not_mem_nil
  rwa [List.append_nil] at hopen

theorem freed_by_last_owner_oneText :
    ((Run.exec (fun s op => RefOp.step oneText s op) ⟨1, openAll oneText.blocks []⟩
        [.retain, .release, .release]).isSome = true ↔
      RefOp.Owned 1 [.retain, .release, .release]) ∧
    ∀ s', Run.exec (fun s op => RefOp.step oneText s op) ⟨1, openAll oneText.blocks []⟩
        [.retain, .release, .release] = some s' →
      s'.refcount = RefOp.owners 1 [.retain, .release, .release] ∧
        Holds s'.log (if 0 < s'.refcount then oneText.blocks else []) :=
  freed_by_last_owner holds_oneText (by decide)

end Corm
