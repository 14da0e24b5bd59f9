import Mathlib.Algebra.BigOperators.Group.Finset.Basic
import Mathlib.Data.Fintype.Basic
import Mathlib.Logic.Relation
import Mathlib.Tactic.Simps.Basic

/-!
# The connection pool as a transition system

`corm_pool_acquire` and `corm_pool_release` take the pool's mutex for short sections and run
pings, opens and closes between them. A state of the system is the pool and, for every thread,
where it stands in the code (`Phase`) and which connections it holds.

* `Pool`, `acquireLocked`, `releaseLocked`: the data under the mutex and the two sections of code
  that read it, each as one function;
* `Step`: one locked section, or the outcome of one ping, open or wait, of one thread;
* `Signal`: `pthread_cond_signal` wakes one sleeping waiter, if there is one.

The parameter `may` of `Step` says which connections a client hands to `corm_pool_release`.
-/

namespace Corm

/-- A connection (`corm_t *`), numbered in the order of the opens. -/
abbrev Conn := ℕ

/-- The fields of `struct corm_pool` that the mutex protects; `idle` is the list from
`idle_head`. -/
structure Pool where
  currentOpen : ℤ
  idleCount : ℤ
  idle : List Conn

namespace Pool

/-- The fields of `corm_config_t` that the pool reads. -/
structure Config where
  maxOpenConns : ℤ
  maxIdleConns : ℤ
  connMaxLifetimeMs : ℤ
  timeoutMs : ℤ

/-- What the section at the top of `corm_pool_acquire` decides. -/
inductive Entry
  /-- Block on the condition variable. -/
  | wait
  /-- Timed out with no idle connection: return `CORM_ERR_GENERIC`. -/
  | giveUp
  /-- The idle connection is too old: it is closed, then `goto retry_acquire`. -/
  | expired (c : Conn)
  /-- The idle connection is taken and has to be pinged. -/
  | check (c : Conn)
  /-- A slot is reserved for a new connection. -/
  | reserve
  deriving DecidableEq

/-- The locked section of `corm_pool_acquire`, from the wait loop to the unlock. `timedOut` is
`rc != 0` of the wait the thread just left, `old` is the `conn_max_lifetime_ms` test. -/
def acquireLocked (cfg : Config) (old : Conn → Bool) (timedOut : Bool) (p : Pool) : Pool × Entry :=
  if timedOut && p.idle.isEmpty then (p, .giveUp)
  else if p.idle.isEmpty && decide (0 < cfg.maxOpenConns) &&
      decide (cfg.maxOpenConns ≤ p.currentOpen) then (p, .wait)
  else match p.idle with
    | c :: rest =>
      if old c then
        (⟨p.currentOpen - 1, p.idleCount - 1, rest⟩, .expired c)
      else
        (⟨p.currentOpen, p.idleCount - 1, rest⟩, .check c)
    | [] => (⟨p.currentOpen + 1, p.idleCount, []⟩, .reserve)

/-- The locked section of `corm_pool_release`; the flag tells whether `db` was closed, which
happens above `max_idle_conns` and when the list node cannot be allocated. -/
def releaseLocked (cfg : Config) (nodeOk : Bool) (c : Conn) (p : Pool) : Pool × Bool :=
  if decide (0 < cfg.maxIdleConns) && decide (cfg.maxIdleConns ≤ p.idleCount) then
    (⟨p.currentOpen - 1, p.idleCount, p.idle⟩, true)
  else if nodeOk then (⟨p.currentOpen, p.idleCount + 1, c :: p.idle⟩, false)
  else (⟨p.currentOpen - 1, p.idleCount, p.idle⟩, true)

/-- Where a thread stands. -/
inductive Phase
  /-- Not inside a pool call. -/
  | out
  /-- At `retry_acquire`, before the lock. -/
  | retry
  /-- Blocked on the condition variable. -/
  | asleep
  /-- Woken, before it rechecks the condition; `timedOut` is `rc != 0`. -/
  | woken (timedOut : Bool)
  /-- Inside `corm_ping`. -/
  | pinging (c : Conn)
  /-- The ping failed and the connection is closed, not yet discounted. -/
  | pingFailed
  /-- Inside the open loop, after `retried` failures. -/
  | opening (retried : ℕ)
  /-- The open failed three times, the slot is not yet discounted. -/
  | openFailed
  deriving DecidableEq

/-- The system: the pool, the threads, and the connections opened and closed so far. -/
structure State (T : Type) where
  pool : Pool
  phase : T → Phase
  held : T → List Conn
  createdAt : Conn → ℤ
  closed : List Conn
  fresh : Conn

variable {T : Type} [DecidableEq T]

/-- `corm_pool_create`. -/
def init : State T := ⟨⟨0, 0, []⟩, fun _ => .out, fun _ => [], fun _ => 0, [], 0⟩

/-- The `conn_max_lifetime_ms` test at time `now`. -/
def expired (cfg : Config) (s : State T) (now : ℤ) (c : Conn) : Bool :=
  decide (0 < cfg.connMaxLifetimeMs) && decide (cfg.connMaxLifetimeMs ≤ now - s.createdAt c)

namespace State

variable (s : State T)

/-- Thread `t` moves to phase `ph`. -/
@[simps] def goto (t : T) (ph : Phase) : State T := { s with phase := Function.update s.phase t ph }

/-- The pool's fields are overwritten. -/
@[simps] def setPool (p : Pool) : State T := { s with pool := p }

/-- `corm_close(db)`. -/
@[simps] def close (c : Conn) : State T := { s with closed := c :: s.closed }

/-- `*out_db = db`: thread `t` now holds `c`. -/
@[simps] def lend (t : T) (c : Conn) : State T :=
  { s with held := Function.update s.held t (c :: s.held t) }

/-- Thread `t` gives up its hold on `c`. -/
@[simps] def handBack (t : T) (c : Conn) : State T :=
  { s with held := Function.update s.held t ((s.held t).erase c) }

/-- A new connection comes out of `corm_open_with_config` at time `now`. -/
@[simps] def opened (now : ℤ) : State T :=
  { s with createdAt := Function.update s.createdAt s.fresh now, fresh := s.fresh + 1 }

end State

/-- `pthread_cond_signal`: one sleeping waiter wakes, if there is one. -/
def Signal (s s' : State T) : Prop :=
  (∃ t, s.phase t = .asleep ∧ s' = s.goto t (.woken false)) ∨
    (∀ t, s.phase t ≠ .asleep) ∧ s' = s

/-- A thread that is about to run the section at the top of `corm_pool_acquire`, with the result
`rc != 0` of the wait it comes from. -/
inductive Entering : Phase → Bool → Prop
  | retry : Entering .retry false
  | woken (timedOut : Bool) : Entering (.woken timedOut) timedOut

/-- One atomic step of one thread. -/
inductive Step (cfg : Config) (may : State T → T → Conn → Prop) : State T → State T → Prop
  /-- A client calls `corm_pool_acquire`. -/
  | call {s : State T} (t : T) (h : s.phase t = .out) : Step cfg may s (s.goto t .retry)
  | wait {s : State T} {p : Pool} (t : T) (now : ℤ) (b : Bool) (h : Entering (s.phase t) b)
      (hp : acquireLocked cfg (expired cfg s now) b s.pool = (p, .wait)) :
      Step cfg may s ((s.setPool p).goto t .asleep)
  | giveUp {s : State T} {p : Pool} (t : T) (now : ℤ) (b : Bool) (h : Entering (s.phase t) b)
      (hp : acquireLocked cfg (expired cfg s now) b s.pool = (p, .giveUp)) :
      Step cfg may s ((s.setPool p).goto t .out)
  | expire {s s' : State T} {p : Pool} {c : Conn} (t : T) (now : ℤ) (b : Bool)
      (h : Entering (s.phase t) b)
      (hp : acquireLocked cfg (expired cfg s now) b s.pool = (p, .expired c))
      (hs : Signal (((s.setPool p).close c).goto t .retry) s') : Step cfg may s s'
  | check {s : State T} {p : Pool} {c : Conn} (t : T) (now : ℤ) (b : Bool)
      (h : Entering (s.phase t) b)
      (hp : acquireLocked cfg (expired cfg s now) b s.pool = (p, .check c)) :
      Step cfg may s ((s.setPool p).goto t (.pinging c))
  | reserve {s : State T} {p : Pool} (t : T) (now : ℤ) (b : Bool) (h : Entering (s.phase t) b)
      (hp : acquireLocked cfg (expired cfg s now) b s.pool = (p, .reserve)) :
      Step cfg may s ((s.setPool p).goto t (.opening 0))
  /-- `pthread_cond_wait` returns with no signal. -/
  | spurious {s : State T} (t : T) (h : s.phase t = .asleep) :
      Step cfg may s (s.goto t (.woken false))
  /-- `pthread_cond_timedwait` returns `ETIMEDOUT`. -/
  | timeout {s : State T} (t : T) (h : s.phase t = .asleep) (ht : 0 < cfg.timeoutMs) :
      Step cfg may s (s.goto t (.woken true))
  | pingOk {s : State T} {c : Conn} (t : T) (h : s.phase t = .pinging c) :
      Step cfg may s ((s.lend t c).goto t .out)
  | pingFail {s : State T} {c : Conn} (t : T) (h : s.phase t = .pinging c) :
      Step cfg may s ((s.close c).goto t .pingFailed)
  | pingDiscount {s s' : State T} (t : T) (h : s.phase t = .pingFailed)
      (hs : Signal ((s.setPool { s.pool with currentOpen := s.pool.currentOpen - 1 }).goto t .retry)
        s') : Step cfg may s s'
  | openOk {s : State T} {n : ℕ} (t : T) (now : ℤ) (h : s.phase t = .opening n) :
      Step cfg may s (((s.lend t s.fresh).opened now).goto t .out)
  /-- One failed attempt of the `do … while (++retried < 3)` loop. -/
  | openFail {s : State T} {n : ℕ} (t : T) (h : s.phase t = .opening n) :
      Step cfg may s (s.goto t (if n + 1 < 3 then .opening (n + 1) else .openFailed))
  | openDiscount {s s' : State T} (t : T) (h : s.phase t = .openFailed)
      (hs : Signal ((s.setPool { s.pool with currentOpen := s.pool.currentOpen - 1 }).goto t .out)
        s') : Step cfg may s s'
  | releaseIdle {s s' : State T} {p : Pool} {c : Conn} (t : T) (nodeOk : Bool)
      (h : s.phase t = .out) (hc : may s t c)
      (hp : releaseLocked cfg nodeOk c s.pool = (p, false))
      (hs : Signal ((s.setPool p).handBack t c) s') : Step cfg may s s'
  | releaseClose {s s' : State T} {p : Pool} {c : Conn} (t : T) (nodeOk : Bool)
      (h : s.phase t = .out) (hc : may s t c)
      (hp : releaseLocked cfg nodeOk c s.pool = (p, true))
      (hs : Signal (((s.setPool p).close c).handBack t c) s') : Step cfg may s s'

/-- The states of all runs from the empty pool. -/
def Reachable (cfg : Config) (may : State T → T → Conn → Prop) (s : State T) : Prop :=
  Relation.ReflTransGen (Step cfg may) init s

/-- Clients release only a connection they hold; releasing it ends the hold, so only once. -/
def OnlyHeld (s : State T) (t : T) (c : Conn) : Prop := c ∈ s.held t

end Pool

end Corm
