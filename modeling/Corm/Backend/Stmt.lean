import Corm.Cache.Refine
import Corm.Lib.Handle
import Corm.Lib.Run
import Mathlib.Data.Int.Notation

/-!
# Prepared statements behind the statement cache

What the SQLite and the MySQL backend share: a connection with its statement cache, and a log of
what happens to the statement handles.

* `StmtConn`: the connection; `A` names the driver calls that use a handle;
* `Owns cap s m rest`: the open handles are those in the cache, which holds `m`, and those in `rest`;
* `Owns.get`, `Owns.put`, `Owns.remove`, `Owns.new`, `Owns.use`, `Owns.close`: what each call does
  to the ownership;
* `Owns.destroy`: `corm_stmt_cache_destroy` closes each cached handle once.
-/

namespace Corm

open Handle

/-- A prepared-statement handle, numbered in the order the driver hands them out. -/
abbrev Stmt := ℕ

/-- The part of `corm_t` that prepared statements live in, with the log of their handles. -/
structure StmtConn (A : Type) where
  cache : StmtCache Stmt
  log : List (Event A Stmt)
  fresh : Stmt

variable {A : Type}

/-- `corm_open_with_config`: the cache gets the size `stmt_cache_size`, by default 64, and the
backend sets its destroy function. -/
def StmtConn.open (A : Type) (stmtCacheSize : ℤ) : Except Err (StmtConn A) :=
  match stmtCacheCreate Stmt (if 0 < stmtCacheSize then stmtCacheSize.toNat else 64) with
  | .ok c => .ok ⟨stmtCacheSetDestroyFn c true, [], 0⟩
  | .error e => .error e

namespace StmtConn

variable (s : StmtConn A)

/-- A driver call on a handle. -/
def use (how : A) (stmt : Stmt) : StmtConn A := { s with log := .used how stmt :: s.log }

/-- A sequence of driver calls on a handle. -/
def useAll (hows : List A) (stmt : Stmt) : StmtConn A := hows.foldl (fun s how => s.use how stmt) s

/-- The driver closes a handle. -/
def close (stmt : Stmt) : StmtConn A := { s with log := .closed stmt :: s.log }

/-- The driver hands out a new handle, `s.fresh`. -/
def new : StmtConn A := { s with log := .opened s.fresh :: s.log, fresh := s.fresh + 1 }

/-- `corm_stmt_cache_get`. -/
def get (sql : Text) : Option (Option Stmt × StmtConn A) := do
  let (r, cache) ← stmtCacheGet s.cache (some sql)
  some (r, { s with cache })

/-- `corm_stmt_cache_put`, which closes the handles it evicts. -/
def put (callocOk strdupOk : Bool) (sql : Text) (stmt : Option Stmt) : Option (StmtConn A) := do
  let (_, destroyed, cache) ← stmtCachePut callocOk strdupOk s.cache (some sql) stmt
  some { s with cache, log := closeAll destroyed s.log }

/-- `corm_stmt_cache_remove`. -/
def remove (sql : Text) : Option (Option Stmt × StmtConn A) := do
  let (r, cache) ← stmtCacheRemove s.cache (some sql)
  some (r, { s with cache })

/-- The log after `corm_stmt_cache_destroy`. -/
def destroy : Option (List (Event A Stmt)) := do
  let destroyed ← stmtCacheDestroy s.cache
  some (closeAll destroyed s.log)

/-- What a lookup of `sql` in the cache returns. -/
def lookup (sql : Text) : Option (Option Stmt) := (s.get sql).map Prod.fst

/-- The cache would hand out `stmt`. -/
def Cached (stmt : Stmt) : Prop := ∃ sql, s.lookup sql = some (some stmt)

/-- No handle of the connection has been or will be closed twice or used after its end: the log is
clean, now and after the destruction of the cache, and no cached handle has been closed. -/
structure Safe [DecidableEq A] : Prop where
  clean : Clean s.log
  once : ∀ stmt, s.log.count (.closed stmt) ≤ 1
  cached : ∀ stmt, s.Cached stmt → .closed stmt ∉ s.log
  destroy : ∃ log, s.destroy = some log ∧ Clean log ∧ ∀ stmt, log.count (.closed stmt) ≤ 1

end StmtConn

/-- The cache holds `m`, and the live handles are those in `m` and those in `rest`. -/
structure Owns (cap : ℕ) (s : StmtConn A) (m : List (Text × Stmt)) (rest : List Stmt) : Prop where
  refines : Refines cap true s.cache m
  holds : Holds s.log (m.map Prod.snd ++ rest)
  fresh : ∀ h, .opened h ∈ s.log → h < s.fresh

variable {cap : ℕ} {s : StmtConn A} {m : List (Text × Stmt)} {rest : List Stmt} {h : Stmt}
  {sql : Text}

theorem owns_open {n : ℤ} (ho : StmtConn.open A n = .ok s) : ∃ cap, Owns cap s [] [] := by
  unfold StmtConn.open at ho
  split at ho
  · rename_i c hc
    cases ho
    exact ⟨_, refines_create true hc, Holds.nil, fun h hm => by cases hm⟩
  · cases ho

theorem Owns.keys (ho : Owns cap s m rest) : (m.map Prod.fst).Nodup := ho.refines.2.2.2.2.nodup

theorem Owns.use (ho : Owns cap s m rest) (hm : h ∈ m.map Prod.snd ++ rest) (how : A) :
    Owns cap (s.use how h) m rest :=
  ⟨ho.refines, ho.holds.used hm how,
    fun h' hm => ho.fresh h' (by simpa [StmtConn.use] using hm)⟩

theorem Owns.useAll (ho : Owns cap s m rest) (hm : h ∈ m.map Prod.snd ++ rest) (hows : List A) :
    Owns cap (s.useAll hows h) m rest := by
  induction hows generalizing s with
  | nil => exact ho
  | cons how hows ih => exact ih (ho.use hm how)

theorem Owns.new (ho : Owns cap s m rest) : Owns cap s.new m (s.fresh :: rest) := by
  refine ⟨ho.refines, ?_, fun h hm => ?_⟩
  · exact (ho.holds.opened fun hm => Nat.lt_irrefl _ (ho.fresh _ hm)).perm List.perm_middle
  · rcases List.mem_cons.mp hm with heq | hm
    · cases heq
      exact Nat.lt_succ_self _
    · exact Nat.lt_succ_of_lt (ho.fresh h hm)

theorem Owns.close (ho : Owns cap s m (h :: rest)) : Owns cap (s.close h) m rest :=
  ⟨ho.refines, (ho.holds.perm List.perm_middle.symm).closed,
    fun h' hm => ho.fresh h' (by simpa [StmtConn.close] using hm)⟩

theorem Owns.get (ho : Owns cap s m rest) (sql : Text) :
    ∃ s', s.get sql = some ((Lru.get m sql).1, s') ∧ Owns cap s' (Lru.get m sql).2 rest ∧
      s'.log = s.log ∧ s'.fresh = s.fresh := by
  obtain ⟨c, e, hr⟩ := ho.refines.get sql
  refine ⟨{ s with cache := c }, ?_, ⟨hr, ho.holds.perm ?_, ho.fresh⟩, rfl, rfl⟩
  · rw [StmtConn.get, e]
    rfl
  · exact ((Lru.perm_get ho.keys).map Prod.snd).append_right _

/-- Putting a new handle: in the cache if both allocations succeed, and left over if not. -/
theorem Owns.put (ho : Owns cap s m (h :: rest)) (hf : Lru.find m sql = none)
    (callocOk strdupOk : Bool) :
    ∃ s', s.put callocOk strdupOk sql (some h) = some s' ∧ s'.fresh = s.fresh ∧
      if callocOk && strdupOk then Owns cap s' ((sql, h) :: (Lru.evict cap m).2) rest
      else Owns cap s' (Lru.evict cap m).2 (h :: rest) := by
  obtain ⟨c, e, hr⟩ := ho.refines.put callocOk strdupOk sql h
  simp only [lruPut, Lru.get_none hf] at e hr
  have hp : (m.map Prod.snd ++ h :: rest).Perm
      ((Lru.evict cap m).1.map Prod.snd ++ ((Lru.evict cap m).2.map Prod.snd ++ h :: rest)) := by
    conv => lhs; rw [← @Lru.evict_append _ _ cap m]
    rw [List.map_append, List.append_assoc]
    exact List.perm_append_comm_assoc _ _ _
  have hh := (ho.holds.perm hp.symm).closeAll
  simp only [StmtConn.put, e, Option.bind_eq_bind, Option.bind_some]
  refine ⟨_, rfl, rfl, ?_⟩
  cases hb : callocOk && strdupOk with
  | false =>
    rw [hb] at hr
    exact ⟨hr, hh, fun h hm => ho.fresh h (mem_closeAll_opened.mp hm)⟩
  | true =>
    rw [hb] at hr
    exact ⟨hr, hh.perm List.perm_middle.symm, fun h hm => ho.fresh h (mem_closeAll_opened.mp hm)⟩

theorem Owns.remove (ho : Owns cap s m rest) (hf : Lru.find m sql = some h) :
    ∃ s', s.remove sql = some (some h, s') ∧ Owns cap s' (Lru.erase m sql) (h :: rest) := by
  obtain ⟨c, e, hr⟩ := ho.refines.remove sql
  simp only [Lru.remove, hf] at e hr
  refine ⟨{ s with cache := c }, ?_, hr, ho.holds.perm ?_, ho.fresh⟩
  · rw [StmtConn.remove, e]
    rfl
  · obtain ⟨a, b, rfl, -⟩ := Lru.exists_of_find hf
    rw [Lru.erase_middle ho.keys]
    simp only [List.map_append, List.map_cons, List.append_assoc, List.cons_append]
    exact List.perm_middle.append_left _

theorem Refines.lookup (hr : Refines cap true s.cache m) (sql : Text) :
    s.lookup sql = some (Lru.find m sql) := by
  obtain ⟨c, e, -⟩ := hr.get sql
  rw [StmtConn.lookup, StmtConn.get, e, ← Lru.get_fst]
  rfl

theorem Refines.cached_iff (hr : Refines cap true s.cache m) :
    s.Cached h ↔ h ∈ m.map Prod.snd := by
  simp only [StmtConn.Cached, hr.lookup, Option.some.injEq]
  constructor
  · rintro ⟨sql, hf⟩
    exact List.mem_map.mpr ⟨_, Lru.mem_of_find hf, rfl⟩
  · intro hm
    obtain ⟨⟨sql, h⟩, he, rfl⟩ := List.mem_map.mp hm
    exact ⟨sql, Lru.find_of_mem hr.2.2.2.2.nodup he⟩

theorem Owns.destroy (ho : Owns cap s m rest) : ∃ log, s.destroy = some log ∧ Holds log rest := by
  refine ⟨closeAll (m.map Prod.snd) s.log, ?_, ho.holds.closeAll⟩
  rw [StmtConn.destroy, ho.refines.destroy]
  rfl

theorem Owns.safe [DecidableEq A] (ho : Owns cap s m rest) : s.Safe := by
  refine ⟨ho.holds.clean, ho.holds.clean.count_closed, fun stmt hc => ?_, ?_⟩
  · have hm := ho.refines.cached_iff.mp hc
    exact ((ho.holds.live stmt).mpr (List.mem_append_left _ hm)).2
  · obtain ⟨log, e, hh⟩ := ho.destroy
    exact ⟨log, e, hh.clean, hh.clean.count_closed⟩

end Corm
