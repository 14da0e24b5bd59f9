import Corm.Pool.Timeout

/-!
# One acquire, alone

`corm_pool_acquire` of one thread while no other runs: what it does depends on the ages of the idle
connections, their pings and the opens.

* `World`: these three; `move`: the next step of the thread, as a function;
* `step_of_move`: a move is a step of the system;
* `Returns`: the run of the thread to a return, and the phase it returns from;
* `Drained`, `drain`: by induction on the idle list, the first connection that is young enough and
  alive is lent, those before it are closed, and with none a connection is opened;
* `nobody_asleep`: no thread waits for a connection that is idle or for a slot that is free, unless
  another one is about to take it;
* **`acquire_drains`**: so it is in every reachable state with an idle connection or a free slot.
-/

namespace Corm.Pool

variable {T : Type} [DecidableEq T]

/-- What `corm_pool_acquire` finds outside the pool. -/
structure World where
  /-- `now_ms - created_at_ms` when a connection is taken from the idle list. -/
  age : Conn → ℤ
  /-- `corm_ping(db) == CORM_OK`. -/
  alive : Conn → Bool
  /-- Whether the attempt after so many failures to open succeeds. -/
  opens : ℕ → Bool
  openedAt : ℤ

/-- The `conn_max_lifetime_ms` test. -/
def tooOld (cfg : Config) (w : World) (c : Conn) : Bool :=
  decide (0 < cfg.connMaxLifetimeMs) && decide (cfg.connMaxLifetimeMs ≤ w.age c)

/-- A connection that `corm_pool_acquire` does not lend. -/
def stale (cfg : Config) (w : World) (c : Conn) : Bool := tooOld cfg w c || !w.alive c

/-- The section at the top of `corm_pool_acquire`. -/
def enter (cfg : Config) (w : World) (t : T) (b : Bool) (s : State T) : State T :=
  match acquireLocked cfg (tooOld cfg w) b s.pool with
  | (p, .wait) => (s.setPool p).goto t .asleep
  | (p, .giveUp) => (s.setPool p).goto t .out
  | (p, .expired c) => ((s.setPool p).close c).goto t .retry
  | (p, .check c) => (s.setPool p).goto t (.pinging c)
  | (p, .reserve) => (s.setPool p).goto t (.opening 0)

/-- The slot of a failed ping or open is given back. -/
def discount (s : State T) : State T :=
  s.setPool { s.pool with currentOpen := s.pool.currentOpen - 1 }

/-- The next step of thread `t`, which nobody else disturbs; `none` outside the pool and while it
sleeps. -/
def move (cfg : Config) (w : World) (t : T) (s : State T) : Option (State T) :=
  match s.phase t with
  | .out | .asleep => none
  | .retry => some (enter cfg w t false s)
  | .woken b => some (enter cfg w t b s)
  | .pinging c =>
    some (if w.alive c then (s.lend t c).goto t .out else (s.close c).goto t .pingFailed)
  | .pingFailed => some ((discount s).goto t .retry)
  | .opening n =>
    some (if w.opens n then ((s.lend t s.fresh).opened w.openedAt).goto t .out
      else s.goto t (if n + 1 < 3 then .opening (n + 1) else .openFailed))
  | .openFailed => some ((discount s).goto t .out)

variable {cfg : Config} {may : State T → T → Conn → Prop} {w : World} {t : T} {s s' : State T}

section Move

variable (cfg)

theorem move_retry (h : s.phase t = .retry) : move cfg w t s = some (enter cfg w t false s) := by
  rw [move, h]

theorem move_alive {c : Conn} (h : s.phase t = .pinging c) (hw : w.alive c = true) :
    move cfg w t s = some ((s.lend t c).goto t .out) := by
  rw [move, h]
  simp only [hw, if_true]

theorem move_dead {c : Conn} (h : s.phase t = .pinging c) (hw : w.alive c = false) :
    move cfg w t s = some ((s.close c).goto t .pingFailed) := by
  rw [move, h]
  simp only [hw, Bool.false_eq_true, if_false]

theorem move_pingFailed (h : s.phase t = .pingFailed) :
    move cfg w t s = some ((discount s).goto t .retry) := by
  rw [move, h]

theorem move_opened {n : ℕ} (h : s.phase t = .opening n) (hw : w.opens n = true) :
    move cfg w t s = some (((s.lend t s.fresh).opened w.openedAt).goto t .out) := by
  rw [move, h]
  simp only [hw, if_true]

theorem move_again {n : ℕ} (h : s.phase t = .opening n) (hw : w.opens n = false) :
    move cfg w t s = some (s.goto t (if n + 1 < 3 then .opening (n + 1) else .openFailed)) := by
  rw [move, h]
  simp only [hw, Bool.false_eq_true, if_false]

theorem move_openFailed (h : s.phase t = .openFailed) :
    move cfg w t s = some ((discount s).goto t .out) := by
  rw [move, h]

end Move

theorem phase_goto (s : State T) (t : T) (ph : Phase) : (s.goto t ph).phase t = ph :=
  Function.update_self ..

/-! ## Moves are steps -/

omit [DecidableEq T] in
theorem acquireLocked_expired (cfg : Config) (w : World) (b : Bool) (s : State T) :
    ∃ now, acquireLocked cfg (expired cfg s now) b s.pool =
      acquireLocked cfg (tooOld cfg w) b s.pool := by
  rcases hp : s.pool with ⟨n, k, _ | ⟨c, rest⟩⟩
  · exact ⟨0, rfl⟩
  · refine ⟨w.age c + s.createdAt c, ?_⟩
    have hc : expired cfg s (w.age c + s.createdAt c) c = tooOld cfg w c := by
      rw [expired, tooOld, add_sub_cancel_right]
    simp only [acquireLocked, hc]

theorem signal_none (h : ∀ u, s.phase u ≠ .asleep) : Signal s s := Or.inr ⟨h, rfl⟩

theorem goto_awake {s₁ : State T} {ph : Phase} (h : s₁.phase = s.phase) (hph : ph ≠ .asleep)
    (hs : ∀ u, u ≠ t → s.phase u ≠ .asleep) (u : T) : (s₁.goto t ph).phase u ≠ .asleep := by
  rw [State.goto_phase, h]
  by_cases hu : u = t
  · rwa [hu, Function.update_self]
  · rw [Function.update_of_ne hu]
    exact hs u hu

theorem step_enter {b : Bool} (h : Entering (s.phase t) b)
    (hs : ∀ u, u ≠ t → s.phase u ≠ .asleep) : Step cfg may s (enter cfg w t b s) := by
  obtain ⟨now, hnow⟩ := acquireLocked_expired cfg w b s
  unfold enter
  rcases hp : acquireLocked cfg (tooOld cfg w) b s.pool with ⟨p, e⟩
  rw [hp] at hnow
  cases e with
  | wait => exact .wait t now b h hnow
  | giveUp => exact .giveUp t now b h hnow
  | expired c => exact .expire t now b h hnow (signal_none (goto_awake rfl nofun hs))
  | check c => exact .check t now b h hnow
  | reserve => exact .reserve t now b h hnow

/-- **A move is a step of the system** while no other thread sleeps. -/
theorem step_of_move (h : move cfg w t s = some s') (hs : ∀ u, u ≠ t → s.phase u ≠ .asleep) :
    Step cfg may s s' := by
  unfold move at h
  split at h
  · cases h
  · cases h
  · rename_i hph
    obtain rfl := Option.some.inj h
    exact step_enter (by rw [hph]; exact Entering.retry) hs
  · rename_i b hph
    obtain rfl := Option.some.inj h
    exact step_enter (by rw [hph]; exact Entering.woken b) hs
  · rename_i c hph
    obtain rfl := Option.some.inj h
    split
    · exact .pingOk t hph
    · exact .pingFail t hph
  · rename_i hph
    obtain rfl := Option.some.inj h
    exact .pingDiscount t hph (signal_none (goto_awake rfl nofun hs))
  · rename_i n hph
    obtain rfl := Option.some.inj h
    split
    · exact .openOk t w.openedAt hph
    · exact .openFail t hph
  · rename_i hph
    obtain rfl := Option.some.inj h
    exact .openDiscount t hph (signal_none (goto_awake rfl nofun hs))

theorem move_off (h : move cfg w t s = some s') {u : T} (hu : u ≠ t) : s'.phase u = s.phase u := by
  unfold move at h
  split at h
  · cases h
  · cases h
  · obtain rfl := Option.some.inj h
    unfold enter
    split <;> exact Function.update_of_ne hu _ _
  · obtain rfl := Option.some.inj h
    unfold enter
    split <;> exact Function.update_of_ne hu _ _
  · obtain rfl := Option.some.inj h
    split <;> exact Function.update_of_ne hu _ _
  · obtain rfl := Option.some.inj h
    exact Function.update_of_ne hu _ _
  · obtain rfl := Option.some.inj h
    split <;> exact Function.update_of_ne hu _ _
  · obtain rfl := Option.some.inj h
    exact Function.update_of_ne hu _ _

/-! ## The run of a call -/

variable (cfg w t) in
/-- The moves of thread `t`. -/
def Moves : State T → State T → Prop :=
  Relation.ReflTransGen fun s s' => move cfg w t s = some s'

variable (cfg w t) in
/-- Thread `t` moves from `s` to a `return` in phase `ph`, which leaves `s'`. -/
def Returns (s : State T) (ph : Phase) (s' : State T) : Prop :=
  ∃ s₁, Moves cfg w t s s₁ ∧ s₁.phase t = ph ∧ move cfg w t s₁ = some s' ∧ s'.phase t = .out

theorem Returns.head {s₁ : State T} {ph : Phase} (h : move cfg w t s = some s₁)
    (hr : Returns cfg w t s₁ ph s') : Returns cfg w t s ph s' := by
  obtain ⟨s₂, hm, hr⟩ := hr
  exact ⟨s₂, .head h hm, hr⟩

theorem returns_last (h : move cfg w t s = some s') (ho : s'.phase t = .out) :
    Returns cfg w t s (s.phase t) s' := ⟨s, .refl, rfl, h, ho⟩

/-- The end of the open loop: the first attempt that succeeds, after fewer than three failures, is
lent, or the third failure is returned. `n` slots are open besides the reserved one. -/
def OpenResult (w : World) (t : T) (s : State T) (n : ℤ) (ph : Phase) (s' : State T) : Prop :=
  (∃ k < 3, (∀ i < k, w.opens i = false) ∧ w.opens k = true ∧ ph = .opening k ∧
    s'.held = Function.update s.held t (s.fresh :: s.held t) ∧ s'.fresh = s.fresh + 1 ∧
    s'.pool.currentOpen = n + 1) ∨
  (∀ i < 3, w.opens i = false) ∧ ph = .openFailed ∧ s'.held = s.held ∧ s'.fresh = s.fresh ∧
    s'.pool.currentOpen = n

/-- What a call of `corm_pool_acquire` leaves behind. -/
structure Drained (cfg : Config) (w : World) (t : T) (s : State T) (ph : Phase) (s' : State T) :
    Prop where
  /-- The stale connections at the front of the idle list are closed. -/
  closed : s'.closed = (s.pool.idle.takeWhile (stale cfg w)).reverse ++ s.closed
  /-- Those after the first live one stay. -/
  idle : s'.pool.idle = (s.pool.idle.dropWhile (stale cfg w)).tail
  /-- The first live one is lent. -/
  live : ∀ c rest, s.pool.idle.dropWhile (stale cfg w) = c :: rest → ph = .pinging c ∧
    s'.held = Function.update s.held t (c :: s.held t) ∧ s'.fresh = s.fresh ∧
    s'.pool.currentOpen = s.pool.currentOpen - (s.pool.idle.takeWhile (stale cfg w)).length
  /-- With none, a connection is opened. -/
  none : s.pool.idle.dropWhile (stale cfg w) = [] →
    OpenResult w t s (s.pool.currentOpen - s.pool.idle.length) ph s'

/-- Where the open loop ends from `s`, in which a slot is reserved. -/
def OpensTo (cfg : Config) (w : World) (t : T) (s : State T) : Prop :=
  ∃ ph s', Returns cfg w t s ph s' ∧ s'.closed = s.closed ∧ s'.pool.idle = s.pool.idle ∧
    OpenResult w t s (s.pool.currentOpen - 1) ph s'

theorem open_now {n : ℕ} (hn : n < 3) (h : s.phase t = .opening n)
    (hfail : ∀ i < n, w.opens i = false) (hw : w.opens n = true) : OpensTo cfg w t s := by
  refine ⟨.opening n, ((s.lend t s.fresh).opened w.openedAt).goto t .out, ?_, rfl, rfl,
    Or.inl ⟨n, hn, hfail, hw, rfl, rfl, rfl, ?_⟩⟩
  · rw [← h]
    exact returns_last (move_opened cfg h hw) (phase_goto ..)
  · simp

theorem open_failed (h : s.phase t = .openFailed) (hfail : ∀ i < 3, w.opens i = false) :
    OpensTo cfg w t s := by
  refine ⟨.openFailed, (discount s).goto t .out, ?_, rfl, rfl,
    Or.inr ⟨hfail, rfl, rfl, rfl, rfl⟩⟩
  rw [← h]
  exact returns_last (move_openFailed cfg h) (phase_goto ..)

theorem OpensTo.head {ph : Phase} (h : move cfg w t s = some (s.goto t ph))
    (ho : OpensTo cfg w t (s.goto t ph)) : OpensTo cfg w t s := by
  obtain ⟨ph', s', hr, ho⟩ := ho
  exact ⟨ph', s', hr.head h, ho⟩

variable (cfg) in
theorem open_loop {n m : ℕ} (hm : n + m = 2) (h : s.phase t = .opening n)
    (hfail : ∀ i < n, w.opens i = false) : OpensTo cfg w t s := by
  induction m generalizing n s with
  | zero =>
    obtain rfl : n = 2 := hm
    cases hw : w.opens 2 with
    | true => exact open_now (by omega) h hfail hw
    | false =>
      have hfail' : ∀ i < 3, w.opens i = false := Nat.forall_lt_succ_right.mpr ⟨hfail, hw⟩
      exact OpensTo.head (move_again cfg h hw) (open_failed (phase_goto ..) hfail')
  | succ m ih =>
    cases hw : w.opens n with
    | true => exact open_now (by omega) h hfail hw
    | false =>
      have hfail' : ∀ i < n + 1, w.opens i = false := Nat.forall_lt_succ_right.mpr ⟨hfail, hw⟩
      have hmove := move_again cfg h hw
      rw [if_pos (by omega)] at hmove
      exact OpensTo.head hmove (ih (by omega) (phase_goto ..) hfail')

/-! ## Draining the idle list -/

/-- A slot is free, or will be once the idle connections are closed. -/
def Room (cfg : Config) (p : Pool) : Prop :=
  0 < cfg.maxOpenConns → p.currentOpen - p.idle.length < cfg.maxOpenConns

theorem enter_expired {c : Conn} {rest : List Conn} (hp : s.pool.idle = c :: rest)
    (hc : tooOld cfg w c = true) : enter cfg w t false s =
      ((s.setPool ⟨s.pool.currentOpen - 1, s.pool.idleCount - 1, rest⟩).close c).goto t .retry := by
  simp [enter, acquireLocked, hp, hc]

theorem enter_check {c : Conn} {rest : List Conn} (hp : s.pool.idle = c :: rest)
    (hc : tooOld cfg w c = false) : enter cfg w t false s =
      (s.setPool ⟨s.pool.currentOpen, s.pool.idleCount - 1, rest⟩).goto t (.pinging c) := by
  simp [enter, acquireLocked, hp, hc]

theorem enter_reserve (hp : s.pool.idle = []) (hr : Room cfg s.pool) : enter cfg w t false s =
      (s.setPool ⟨s.pool.currentOpen + 1, s.pool.idleCount, []⟩).goto t (.opening 0) := by
  have hfree : ¬ (0 < cfg.maxOpenConns ∧ cfg.maxOpenConns ≤ s.pool.currentOpen) := by
    rintro ⟨h0, hle⟩
    have := hr h0
    rw [hp, List.length_nil] at this
    omega
  have hb : (decide (0 < cfg.maxOpenConns) && decide (cfg.maxOpenConns ≤ s.pool.currentOpen)) =
      false := by simpa using hfree
  simp only [enter, acquireLocked, hp, List.isEmpty_nil, Bool.true_and, Bool.false_and, hb,
    Bool.false_eq_true, if_false]

theorem moves_stale {c : Conn} {rest : List Conn} (h : s.phase t = .retry)
    (hp : s.pool.idle = c :: rest) (hc : stale cfg w c = true) :
    ∃ s₁, Moves cfg w t s s₁ ∧ s₁.phase t = .retry ∧ s₁.held = s.held ∧ s₁.fresh = s.fresh ∧
      s₁.closed = c :: s.closed ∧ s₁.pool.idle = rest ∧
      s₁.pool.currentOpen = s.pool.currentOpen - 1 := by
  have hmove := move_retry cfg (w := w) h
  cases ho : tooOld cfg w c with
  | true =>
    rw [enter_expired hp ho] at hmove
    exact ⟨_, .single hmove, phase_goto .., rfl, rfl, rfl, rfl, rfl⟩
  | false =>
    have hw : w.alive c = false := by simpa [stale, ho] using hc
    rw [enter_check hp ho] at hmove
    generalize hs₁ : (s.setPool ⟨s.pool.currentOpen, s.pool.idleCount - 1, rest⟩).goto t
      (.pinging c) = s₁ at hmove
    have hdead : move cfg w t s₁ = some ((s₁.close c).goto t .pingFailed) :=
      move_dead cfg (by rw [← hs₁]; exact phase_goto ..) hw
    have hback := move_pingFailed cfg (w := w) (phase_goto (s₁.close c) t .pingFailed)
    refine ⟨_, .head hmove (.head hdead (.single hback)), phase_goto .., ?_⟩
    subst hs₁
    exact ⟨rfl, rfl, rfl, rfl, rfl⟩

variable (cfg w) in
/-- **The run of a call**, by induction on the idle list. -/
theorem drain (h : s.phase t = .retry) (hr : Room cfg s.pool) :
    ∃ ph s', Returns cfg w t s ph s' ∧ Drained cfg w t s ph s' := by
  generalize hl : s.pool.idle = l
  induction l generalizing s with
  | nil =>
    have hmove := move_retry cfg (w := w) h
    rw [enter_reserve hl hr] at hmove
    obtain ⟨ph, s', hret, hcl, hidle, hres⟩ := open_loop cfg (w := w) (zero_add 2)
      (phase_goto (s.setPool ⟨s.pool.currentOpen + 1, s.pool.idleCount, []⟩) t (.opening 0)) nofun
    have hnil : ∀ c rest, s.pool.idle.dropWhile (stale cfg w) ≠ c :: rest := by
      rw [hl]
      exact nofun
    refine ⟨ph, s', hret.head hmove, ⟨by rw [hcl, hl]; rfl, by rw [hidle, hl]; rfl,
      fun c rest e => absurd e (hnil c rest), fun _ => ?_⟩⟩
    rw [State.goto_pool, State.setPool_pool, add_sub_cancel_right] at hres
    have hn : s.pool.currentOpen - (s.pool.idle.length : ℤ) = s.pool.currentOpen := by
      rw [hl]
      exact sub_zero _
    rw [hn]
    exact hres
  | cons c rest ih =>
    cases hc : stale cfg w c with
    | true =>
      obtain ⟨s₁, hm, hph, hheld, hfresh, hclosed, hidle, hopen⟩ := moves_stale h hl hc
      have hr₁ : Room cfg s₁.pool := by
        intro h0
        have := hr h0
        rw [hl, List.length_cons] at this
        rw [hidle, hopen]
        push_cast at this
        omega
      obtain ⟨ph, s', ⟨s₂, hm', hret⟩, hd⟩ := ih hph hr₁ hidle
      have htake : s.pool.idle.takeWhile (stale cfg w) = c :: s₁.pool.idle.takeWhile (stale cfg w) := by
        rw [hl, hidle, List.takeWhile_cons_of_pos hc]
      have hdrop : s.pool.idle.dropWhile (stale cfg w) = s₁.pool.idle.dropWhile (stale cfg w) := by
        rw [hl, hidle, List.dropWhile_cons_of_pos hc]
      refine ⟨ph, s', ⟨s₂, hm.trans hm', hret⟩, ⟨?_, ?_, fun d rest' e => ?_, fun e => ?_⟩⟩
      · rw [hd.closed, htake, hclosed, List.reverse_cons, List.append_assoc, List.singleton_append]
      · rw [hd.idle, hdrop]
      · obtain ⟨h1, h2, h3, h4⟩ := hd.live d rest' (hdrop ▸ e)
        refine ⟨h1, by rw [h2, hheld], by rw [h3, hfresh], ?_⟩
        rw [h4, hopen, htake, List.length_cons]
        push_cast
        omega
      · have hn : s₁.pool.currentOpen - (s₁.pool.idle.length : ℤ) =
            s.pool.currentOpen - (s.pool.idle.length : ℤ) := by
          rw [hopen, hidle, hl, List.length_cons]
          push_cast
          omega
        have := hd.none (hdrop ▸ e)
        rwa [hn, OpenResult, hheld, hfresh] at this
    | false =>
      obtain ⟨ho, hw⟩ : tooOld cfg w c = false ∧ w.alive c = true := by
        simpa [stale] using hc
      have hmove := move_retry cfg (w := w) h
      rw [enter_check hl ho] at hmove
      have hph := phase_goto (s.setPool ⟨s.pool.currentOpen, s.pool.idleCount - 1, rest⟩) t
        (.pinging c)
      have hret := (returns_last (move_alive cfg hph hw) (phase_goto ..)).head hmove
      rw [hph] at hret
      have htake : s.pool.idle.takeWhile (stale cfg w) = [] := by
        rw [hl, List.takeWhile_cons_of_neg (by simp [hc])]
      have hdrop : s.pool.idle.dropWhile (stale cfg w) = c :: rest := by
        rw [hl, List.dropWhile_cons_of_neg (by simp [hc])]
      refine ⟨_, _, hret, ⟨by rw [htake]; rfl, by rw [hdrop]; rfl, fun d rest' e => ?_, fun e => ?_⟩⟩
      · rw [hdrop] at e
        obtain ⟨rfl, rfl⟩ := List.cons.inj e
        exact ⟨rfl, rfl, rfl, by rw [htake]; simp⟩
      · rw [hdrop] at e
        cases e

/-! ## From a reachable state -/

theorem reachable_moves (hm : Moves cfg w t s s') (h : Reachable cfg may s)
    (hout : ∀ u, u ≠ t → s.phase u = .out) :
    Reachable cfg may s' ∧ ∀ u, u ≠ t → s'.phase u = .out := by
  induction hm with
  | refl => exact ⟨h, hout⟩
  | tail _ hmove ih =>
    obtain ⟨hr, ho⟩ := ih
    refine ⟨hr.tail (step_of_move hmove fun u hu => ?_), fun u hu => ?_⟩
    · rw [ho u hu]
      exact nofun
    · rw [move_off hmove hu, ho u hu]

/-- A connection is idle or a slot is free. -/
def Available (cfg : Config) (p : Pool) : Prop :=
  p.idle ≠ [] ∨ (0 < cfg.maxOpenConns → p.currentOpen < cfg.maxOpenConns)

/-- A sleeper has no use for what is available, so a thread was signalled for it. -/
theorem nobody_asleep [Fintype T] (h : Reachable cfg OnlyHeld s)
    (hquiet : ∀ u, s.phase u = .out ∨ s.phase u = .asleep) (ha : Available cfg s.pool) (u : T) :
    s.phase u = .out := by
  refine (hquiet u).resolve_right fun hu => ?_
  obtain ⟨past, hrun⟩ := reachable_iff_run.mp h
  have h0 := ((full_of_run hrun).waiting u (hu ▸ Waiting.asleep)).1
  have hA := accounted_of_reachable h
  have hsum : ∑ v, signalled (s.phase v) = 0 := Finset.sum_eq_zero fun v _ => by
    rcases hquiet v with hv | hv <;> rw [hv] <;> rfl
  have hcap := (served_of_reachable h).cover ⟨u, hu⟩
  have hidle := hA.idleEq
  have hle := hA.openLe h0
  rw [hsum, capacity] at hcap
  rcases ha with hne | hfree
  · have := List.length_pos_iff.mpr hne
    omega
  · have := hfree h0
    omega

/-- **Acquire drains stale connections.** In a reachable state in which no thread runs inside the
pool, with an idle connection or a free slot, a call returns, having closed the stale connections at
the front of the idle list; it lends the first live one, and with none it opens a connection or
returns the error of the third failed open, with `current_open` the number of lent connections. -/
theorem acquire_drains [Fintype T] (w : World) (t : T) (h : Reachable cfg OnlyHeld s)
    (ht : s.phase t = .out) (hquiet : ∀ u, s.phase u = .out ∨ s.phase u = .asleep)
    (ha : Available cfg s.pool) :
    ∃ ph s', Returns cfg w t (s.goto t .retry) ph s' ∧ Drained cfg w t s ph s' ∧
      Sound cfg s' ∧ (∀ u, s'.phase u = .out) ∧
      (ph = .openFailed → s'.pool.currentOpen = ((∑ u, (s'.held u).length : ℕ) : ℤ)) := by
  have hout := nobody_asleep h hquiet ha
  have hA := accounted_of_reachable h
  have hr : Room cfg s.pool := by
    intro h0
    rcases ha with hne | hfree
    · have := hA.openLe h0
      have := List.length_pos_iff.mpr hne
      omega
    · have := hfree h0
      omega
  obtain ⟨ph, s', ⟨s₁, hm, hph, hmove, hend⟩, hd⟩ :=
    drain cfg w (s := s.goto t .retry) (phase_goto s t .retry) hr
  have hcall : Reachable cfg OnlyHeld (s.goto t .retry) := h.tail (.call t ht)
  obtain ⟨hreach, ho⟩ := reachable_moves (hm.tail hmove) hcall fun u hu => by
    rw [State.goto_phase, Function.update_of_ne hu, hout u]
  have hout' : ∀ u, s'.phase u = .out := by
    intro u
    by_cases hu : u = t
    · rw [hu, hend]
    · exact ho u hu
  have hS := (accounted_of_reachable hreach).sound
  refine ⟨ph, s', ⟨s₁, hm, hph, hmove, hend⟩, ⟨hd.closed, hd.idle, hd.live, hd.none⟩, hS, hout',
    fun hfail => ?_⟩
  have hnil : s'.pool.idle = [] := by
    rw [hd.idle]
    cases hl : s.pool.idle.dropWhile (stale cfg w) with
    | nil => rw [State.goto_pool, hl]; rfl
    | cons c rest =>
      have := (hd.live c rest hl).1
      rw [hfail] at this
      cases this
  rw [hS.openEq, hnil]
  simp [hout', pingSlots, openSlots]

/-- The idle connection of `afterRelease` is dead, and so is the server. -/
def deadServer : World := ⟨fun _ => 0, fun _ => false, fun _ => false, 0⟩

theorem acquire_drains_deadServer :
    ∃ ph s', Returns ⟨1, 2, 0, 30000⟩ deadServer 1 (afterRelease.goto 1 .retry) ph s' ∧
      Drained ⟨1, 2, 0, 30000⟩ deadServer 1 afterRelease ph s' ∧ Sound ⟨1, 2, 0, 30000⟩ s' ∧
      (∀ u, s'.phase u = .out) ∧
      (ph = .openFailed → s'.pool.currentOpen = ((∑ u, (s'.held u).length : ℕ) : ℤ)) :=
  acquire_drains deadServer 1 reachable_afterRelease (by decide) (by decide)
    (Or.inl (List.cons_ne_nil 0 []))

end Corm.Pool
