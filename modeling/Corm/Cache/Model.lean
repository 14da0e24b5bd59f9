import Corm.Lib.Dll
import Corm.Types

/-!
# The prepared-statement cache

`internal/stmt_cache.c`, pointer by pointer: a heap of `corm_stmt_entry_t` cells, doubly linked
from `head` to `tail`. The result `none` of an operation is a read or write through a dangling or
null pointer, or a loop that does not end in `size` turns.

* `StmtCache`: `corm_stmt_cache_t` and the memory of its entries;
* `stmtCacheGet`, `stmtCachePut`, `stmtCacheRemove`, `stmtCacheDestroy`: the operations. `S` is
  what `void *stmt` points to, and a null `sql` or `stmt` argument is `none`;
* `CacheOp`, `cacheRun`: sequences of calls and what they return.
-/

namespace Corm

open Dll

/-- `corm_stmt_cache_t`. The value of a cell is its `(sql, stmt)`; `hasDestroyFn` tells whether
`entry_destroy_fn` is set, and `fresh` is the address of the next `calloc`. -/
structure StmtCache (S : Type) where
  capacity : ℕ
  size : ℕ
  head : Option Ptr
  tail : Option Ptr
  hasDestroyFn : Bool
  heap : Heap (Text × S)
  fresh : Ptr

variable {S : Type}

/-- `corm_stmt_cache_create`. -/
def stmtCacheCreate (S : Type) (capacity : ℕ) : Except Err (StmtCache S) :=
  if capacity = 0 then .error .null
  else .ok ⟨capacity, 0, none, none, false, fun _ => none, 0⟩

namespace StmtCache

variable (c : StmtCache S)

/-- The loop `while (curr)` from `head`, up to the entry of `sql`. -/
def locate (sql : Text) : Option (Option Ptr) :=
  search (fun e => e.1 = sql) c.heap (c.size + 1) c.head

/-- `free(curr)`. -/
def freeCell (h : Heap (Text × S)) (p : Ptr) : Heap (Text × S) := Function.update h p none

/-- The calls of `entry_destroy_fn` on `stmt`. -/
def callDestroyFn (stmt : S) : List S := if c.hasDestroyFn then [stmt] else []

/-- The "move to head" block of `corm_stmt_cache_get_unlocked`. -/
def moveToHead (p : Ptr) : Option (StmtCache S) := do
  let curr ← c.heap p
  let h ← setNext c.heap curr.prev curr.next
  let curr ← h p
  let h ← setPrev h curr.next curr.prev
  let curr ← h p
  let tail := if some p = c.tail then curr.prev else c.tail
  let h ← setNext h (some p) c.head
  let h ← setPrev h (some p) none
  let h ← setPrev h c.head (some p)
  some { c with heap := h, head := some p, tail }

/-- `corm_stmt_cache_get_unlocked`. -/
def getUnlocked (sql : Text) : Option (Option S × StmtCache S) := do
  match ← c.locate sql with
  | none => some (none, c)
  | some p =>
    let c' ← if some p = c.head then some c else c.moveToHead p
    let curr ← c'.heap p
    some (some curr.val.2, c')

/-- The block "evict tail if full" of `corm_stmt_cache_put`, with the destroyed statements. -/
def evictTail : Option (List S × StmtCache S) :=
  match c.tail with
  | none => some ([], c)
  | some p =>
    if c.capacity ≤ c.size then do
      let evict ← c.heap p
      let h ← setNext c.heap evict.prev none
      let evict ← h p
      let head := if c.head = some p then none else c.head
      some (c.callDestroyFn evict.val.2,
        { c with heap := freeCell h p, head, tail := evict.prev, size := c.size - 1 })
    else some ([], c)

/-- The last block of `corm_stmt_cache_put`: link a new entry in front. -/
def insertHead (sql : Text) (stmt : S) : Option (StmtCache S) := do
  let entry := c.fresh
  let h := Function.update c.heap entry (some ⟨(sql, stmt), none, none⟩)
  let h ← setNext h (some entry) c.head
  let h ← setPrev h c.head (some entry)
  let tail := if c.tail = none then some entry else c.tail
  some { c with heap := h, head := some entry, tail, size := c.size + 1, fresh := c.fresh + 1 }

/-- The unlinking block of `corm_stmt_cache_remove`. -/
def unlinkEntry (p : Ptr) : Option (Option S × StmtCache S) := do
  let curr ← c.heap p
  let stmt := curr.val.2
  let h ← setNext c.heap curr.prev curr.next
  let curr ← h p
  let h ← setPrev h curr.next curr.prev
  let curr ← h p
  let head := if some p = c.head then curr.next else c.head
  let tail := if some p = c.tail then curr.prev else c.tail
  some (some stmt, { c with heap := freeCell h p, head, tail, size := c.size - 1 })

/-- The loop of `corm_stmt_cache_destroy`, with the destroyed statements. -/
def destroyLoop : ℕ → Heap (Text × S) → Option Ptr → Option (List S)
  | 0, _, _ => none
  | _ + 1, _, none => some []
  | n + 1, h, some p => do
    let curr ← h p
    let rest ← destroyLoop n (freeCell h p) curr.next
    some (c.callDestroyFn curr.val.2 ++ rest)

end StmtCache

/-- `corm_stmt_cache_set_destroy_fn`; the flag is `fn != NULL`. -/
def stmtCacheSetDestroyFn (c : StmtCache S) (fn : Bool) : StmtCache S :=
  { c with hasDestroyFn := fn }

/-- `corm_stmt_cache_get`. -/
def stmtCacheGet (c : StmtCache S) (sql : Option Text) : Option (Option S × StmtCache S) :=
  match sql with
  | none => some (none, c)
  | some sql => c.getUnlocked sql

/-- `corm_stmt_cache_put`: its result, the statements it destroys and the cache. `callocOk` and
`strdupOk` are the outcomes of the two allocations. -/
def stmtCachePut (callocOk strdupOk : Bool) (c : StmtCache S) (sql : Option Text)
    (stmt : Option S) : Option (Err × List S × StmtCache S) :=
  match sql, stmt with
  | some sql, some stmt => do
    let (existing, c) ← c.getUnlocked sql
    if existing.isSome then some (.ok, [], c)
    else
      let (destroyed, c) ← c.evictTail
      if callocOk && strdupOk then
        let c ← c.insertHead sql stmt
        some (.ok, destroyed, c)
      else some (.nomem, destroyed, c)
  | _, _ => some (.null, [], c)

/-- `corm_stmt_cache_remove`. -/
def stmtCacheRemove (c : StmtCache S) (sql : Option Text) : Option (Option S × StmtCache S) :=
  match sql with
  | none => some (none, c)
  | some sql => do
    match ← c.locate sql with
    | none => some (none, c)
    | some p => c.unlinkEntry p

/-- `corm_stmt_cache_destroy`: the statements it destroys. -/
def stmtCacheDestroy (c : StmtCache S) : Option (List S) :=
  c.destroyLoop (c.size + 1) c.heap c.head

/-! ## Sequences of calls -/

/-- A call on the cache. -/
inductive CacheOp (S : Type)
  | get (sql : Option Text)
  | put (sql : Option Text) (stmt : Option S)
  | remove (sql : Option Text)

/-- What a call shows to its caller: the result, and the statements it destroyed. -/
inductive CacheOut (S : Type)
  | value (stmt : Option S)
  | status (err : Err) (destroyed : List S)

/-- One call, with the allocations succeeding. -/
def cacheStep (c : StmtCache S) : CacheOp S → Option (CacheOut S × StmtCache S)
  | .get sql => do
    let (r, c) ← stmtCacheGet c sql
    some (.value r, c)
  | .put sql stmt => do
    let (err, destroyed, c) ← stmtCachePut true true c sql stmt
    some (.status err destroyed, c)
  | .remove sql => do
    let (r, c) ← stmtCacheRemove c sql
    some (.value r, c)

/-- A sequence of calls. -/
def cacheRun (c : StmtCache S) : List (CacheOp S) → Option (List (CacheOut S) × StmtCache S)
  | [] => some ([], c)
  | op :: ops => do
    let (out, c) ← cacheStep c op
    let (outs, c) ← cacheRun c ops
    some (out :: outs, c)

end Corm
