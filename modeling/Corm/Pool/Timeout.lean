import Corm.Pool.Wakeup
import Mathlib.Data.List.Infix

/-!
# What a pool timeout means

A waiter whose `pthread_cond_timedwait` failed gives up when the idle list is empty, whatever
`current_open` is by then.

* `Run`: the states of a run, the latest first;
* `slotsFreed`, `slotsTaken`: how often `current_open` went down and up since a thread last fell
  asleep;
* `Full`, `full_of_run`: a waiter saw a full pool when it fell asleep, so the slots freed and taken
  since then say how full the pool is now;
* **`timeouts_exhausted_iff`**: the waiters of a run give up on an exhausted pool only, exactly when
  each finds every slot freed during its wait taken again.
-/

namespace Corm.Pool

variable {T : Type} [DecidableEq T]

/-- The runs from the empty pool, as the list of their states, the latest first. -/
inductive Run (cfg : Config) (may : State T → T → Conn → Prop) : List (State T) → Prop
  | start : Run cfg may [init]
  | step {s s' : State T} {past : List (State T)} (h : Run cfg may (s :: past))
      (hs : Step cfg may s s') : Run cfg may (s' :: s :: past)

/-- No connection is idle and no slot is free. -/
def Exhausted (cfg : Config) (p : Pool) : Prop := p.idle = [] ∧ cfg.maxOpenConns ≤ p.currentOpen

/-- Thread `t` leaves `corm_pool_acquire` with `CORM_ERR_GENERIC` from the wait loop. -/
def GivesUp (cfg : Config) (s : State T) (t : T) (s' : State T) : Prop :=
  ∃ p now b, Entering (s.phase t) b ∧
    acquireLocked cfg (expired cfg s now) b s.pool = (p, .giveUp) ∧ s' = (s.setPool p).goto t .out

/-- Every thread that gives up in a run does so in a state, with the states before it, of `P`. -/
def EachTimeout (cfg : Config) (P : T → State T → List (State T) → Prop) (run : List (State T)) :
    Prop :=
  ∀ t s s' past, (s' :: s :: past) <:+ run → GivesUp cfg s t s' → P t s past

/-- Thread `t` falls asleep between two states. -/
def FallsAsleep (t : T) (s s' : State T) : Prop := s'.phase t = .asleep ∧ s.phase t ≠ .asleep

instance (t : T) (s s' : State T) : Decidable (FallsAsleep t s s') := inferInstanceAs (Decidable (_ ∧ _))

/-- How often `current_open` went down since `t` last fell asleep. -/
def slotsFreed (t : T) : State T → List (State T) → ℕ
  | _, [] => 0
  | s', s :: past =>
    if FallsAsleep t s s' then 0
    else slotsFreed t s past + if s'.pool.currentOpen < s.pool.currentOpen then 1 else 0

/-- How often `current_open` went up since `t` last fell asleep. -/
def slotsTaken (t : T) : State T → List (State T) → ℕ
  | _, [] => 0
  | s', s :: past =>
    if FallsAsleep t s s' then 0
    else slotsTaken t s past + if s.pool.currentOpen < s'.pool.currentOpen then 1 else 0

variable {cfg : Config} {may : State T → T → Conn → Prop} {s s' : State T}

/-! ## One step -/

/-- The thread is in the wait loop. -/
inductive Waiting : Phase → Prop
  | asleep : Waiting .asleep
  | woken (b : Bool) : Waiting (.woken b)

/-- `current_open` changes by one at most, and goes up below the limit only. -/
structure OneSlot (cfg : Config) (s s' : State T) : Prop where
  down : s.pool.currentOpen ≤ s'.pool.currentOpen + 1
  up : s'.pool.currentOpen ≤ s.pool.currentOpen ∨
    s'.pool.currentOpen = s.pool.currentOpen + 1 ∧
      (0 < cfg.maxOpenConns → s.pool.currentOpen < cfg.maxOpenConns)

omit [DecidableEq T] in
theorem oneSlot_of_eq (h : s'.pool.currentOpen = s.pool.currentOpen) : OneSlot cfg s s' :=
  ⟨by omega, Or.inl h.le⟩

omit [DecidableEq T] in
theorem oneSlot_of_sub (h : s'.pool.currentOpen = s.pool.currentOpen - 1) : OneSlot cfg s s' :=
  ⟨by omega, Or.inl (by omega)⟩

/-- Every waiter of `s'` was one in `s`, and none fell asleep. -/
structure NoneJoins (s s' : State T) : Prop where
  waiting : ∀ u, Waiting (s'.phase u) → Waiting (s.phase u)
  asleep : ∀ u, s'.phase u = .asleep → s.phase u = .asleep

omit [DecidableEq T] in
theorem noneJoins_of_eq (h : s'.phase = s.phase) : NoneJoins s s' :=
  ⟨fun u hu => by rwa [← h], fun u hu => by rwa [← h]⟩

theorem noneJoins_goto {s₁ : State T} {t : T} {ph : Phase} (h : s₁.phase = s.phase)
    (hph : Waiting ph → Waiting (s.phase t)) (hne : ph ≠ .asleep) :
    NoneJoins s (s₁.goto t ph) := by
  constructor
  · intro u hu
    by_cases hut : u = t
    · subst hut
      rw [State.goto_phase, Function.update_self] at hu
      exact hph hu
    · rwa [goto_off s₁ t ph u hut, h] at hu
  · intro u hu
    by_cases hut : u = t
    · subst hut
      rw [State.goto_phase, Function.update_self] at hu
      exact absurd hu hne
    · rwa [goto_off s₁ t ph u hut, h] at hu

theorem noneJoins_wake {t : T} {b : Bool} (h : s.phase t = .asleep) :
    NoneJoins s (s.goto t (.woken b)) :=
  noneJoins_goto rfl (fun _ => h ▸ Waiting.asleep) nofun

theorem NoneJoins.signal {s₁ : State T} (h : NoneJoins s s₁) (hs : Signal s₁ s') :
    NoneJoins s s' := by
  obtain ⟨t, ht, rfl⟩ | ⟨-, rfl⟩ := hs
  · have hw := noneJoins_wake (b := false) ht
    exact ⟨fun u hu => h.waiting u (hw.waiting u hu), fun u hu => h.asleep u (hw.asleep u hu)⟩
  · exact h

theorem OneSlot.signal {s₁ : State T} (h : OneSlot cfg s s₁) (hs : Signal s₁ s') :
    OneSlot cfg s s' := by
  obtain ⟨hp, -⟩ := hs.frame
  exact ⟨by rw [hp]; exact h.down, by rw [hp]; exact h.up⟩

/-- **Inversion of a step.** A thread falls asleep at a full pool, which it leaves as it is; no
other step makes a waiter, and each moves at most one slot. -/
theorem step_oneSlot (h : Step cfg may s s') :
    (∃ t, s' = s.goto t .asleep ∧ s.phase t ≠ .asleep ∧ 0 < cfg.maxOpenConns ∧
      cfg.maxOpenConns ≤ s.pool.currentOpen) ∨
    NoneJoins s s' ∧ OneSlot cfg s s' := by
  cases h with
  | wait t now b h hp =>
    obtain ⟨rfl, -, h1, h2⟩ := acquireLocked_spec hp
    refine Or.inl ⟨t, rfl, fun ht => ?_, h1, h2⟩
    rw [ht] at h
    cases h
  | call t h => exact Or.inr ⟨noneJoins_goto rfl nofun nofun, oneSlot_of_eq rfl⟩
  | giveUp t now b h hp =>
    obtain ⟨rfl, -⟩ := acquireLocked_spec hp
    exact Or.inr ⟨noneJoins_goto rfl nofun nofun, oneSlot_of_eq rfl⟩
  | @expire _ p c t now b h hp hs =>
    obtain ⟨-, h2, -⟩ := acquireLocked_spec hp
    have hj : NoneJoins s (((s.setPool p).close c).goto t .retry) := noneJoins_goto rfl nofun nofun
    exact Or.inr ⟨hj.signal hs, (oneSlot_of_sub h2).signal hs⟩
  | check t now b h hp =>
    obtain ⟨-, h2, -⟩ := acquireLocked_spec hp
    exact Or.inr ⟨noneJoins_goto rfl nofun nofun, oneSlot_of_eq h2⟩
  | reserve t now b h hp =>
    obtain ⟨-, -, h3, -, -, h4⟩ := acquireLocked_spec hp
    refine Or.inr ⟨noneJoins_goto rfl nofun nofun, ?_, Or.inr ⟨h3, h4⟩⟩
    rw [State.goto_pool, State.setPool_pool]
    omega
  | spurious t h => exact Or.inr ⟨noneJoins_wake h, oneSlot_of_eq rfl⟩
  | timeout t h ht => exact Or.inr ⟨noneJoins_wake h, oneSlot_of_eq rfl⟩
  | pingOk t h => exact Or.inr ⟨noneJoins_goto rfl nofun nofun, oneSlot_of_eq rfl⟩
  | pingFail t h => exact Or.inr ⟨noneJoins_goto rfl nofun nofun, oneSlot_of_eq rfl⟩
  | pingDiscount t h hs =>
    have hj : NoneJoins s ((s.setPool { s.pool with currentOpen := s.pool.currentOpen - 1 }).goto t
      .retry) := noneJoins_goto rfl nofun nofun
    exact Or.inr ⟨hj.signal hs, (oneSlot_of_sub rfl).signal hs⟩
  | openOk t now h => exact Or.inr ⟨noneJoins_goto rfl nofun nofun, oneSlot_of_eq rfl⟩
  | @openFail n t h =>
    refine Or.inr ⟨noneJoins_goto rfl ?_ ?_, oneSlot_of_eq rfl⟩
    · split <;> exact nofun
    · split <;> exact nofun
  | openDiscount t h hs =>
    have hj : NoneJoins s ((s.setPool { s.pool with currentOpen := s.pool.currentOpen - 1 }).goto t
      .out) := noneJoins_goto rfl nofun nofun
    exact Or.inr ⟨hj.signal hs, (oneSlot_of_sub rfl).signal hs⟩
  | @releaseIdle _ p c t nodeOk h hc hp hs =>
    obtain ⟨hb, -⟩ | ⟨-, -, h2, -⟩ := releaseLocked_spec hp
    · cases hb
    have hj : NoneJoins s ((s.setPool p).handBack t c) := noneJoins_of_eq rfl
    exact Or.inr ⟨hj.signal hs, (oneSlot_of_eq h2).signal hs⟩
  | @releaseClose _ p c t nodeOk h hc hp hs =>
    obtain ⟨-, -, h2, -⟩ | ⟨hb, -⟩ := releaseLocked_spec hp
    · have hj : NoneJoins s (((s.setPool p).close c).handBack t c) := noneJoins_of_eq rfl
      exact Or.inr ⟨hj.signal hs, (oneSlot_of_sub h2).signal hs⟩
    · cases hb

/-! ## Every run -/

/-- **The invariant of the waiters**: a waiter fell asleep at `max_open_conns` open slots. -/
structure Full (cfg : Config) (s : State T) (past : List (State T)) : Prop where
  openLe : 0 < cfg.maxOpenConns → s.pool.currentOpen ≤ cfg.maxOpenConns
  waiting : ∀ t, Waiting (s.phase t) → 0 < cfg.maxOpenConns ∧
    s.pool.currentOpen + slotsFreed t s past = cfg.maxOpenConns + slotsTaken t s past

omit [DecidableEq T] in
theorem OneSlot.openLe (h : OneSlot cfg s s')
    (hs : 0 < cfg.maxOpenConns → s.pool.currentOpen ≤ cfg.maxOpenConns) :
    0 < cfg.maxOpenConns → s'.pool.currentOpen ≤ cfg.maxOpenConns := by
  intro h0
  have h1 := hs h0
  rcases h.up with h2 | ⟨h2, h3⟩
  · exact h2.trans h1
  · rw [h2]
    exact h3 h0

omit [DecidableEq T] in
theorem OneSlot.counts {t : T} (past : List (State T)) (h : OneSlot cfg s s')
    (ht : ¬ FallsAsleep t s s') :
    s'.pool.currentOpen + slotsFreed t s' (s :: past) + slotsTaken t s past =
      s.pool.currentOpen + slotsFreed t s past + slotsTaken t s' (s :: past) := by
  have h1 := h.down
  rw [slotsFreed, slotsTaken, if_neg ht, if_neg ht]
  rcases h.up with h2 | ⟨h2, -⟩
  · split_ifs <;> omega
  · split_ifs <;> omega

/-- **The invariant holds along every run.** -/
theorem full_of_run {past : List (State T)} (h : Run cfg may (s :: past)) : Full cfg s past := by
  generalize hr : s :: past = run at h
  induction h generalizing s past with
  | start =>
    obtain ⟨rfl, rfl⟩ := List.cons.inj hr
    exact ⟨fun h0 => h0.le, fun t ht => nomatch ht⟩
  | @step s₁ s₂ past₁ _ hs ih =>
    obtain ⟨rfl, rfl⟩ := List.cons.inj hr
    have hf := ih rfl
    obtain ⟨t, rfl, hne, h0, hle⟩ | ⟨hj, ho⟩ := step_oneSlot hs
    · refine ⟨hf.openLe, fun u hu => ⟨h0, ?_⟩⟩
      by_cases hut : u = t
      · subst hut
        have hfall : FallsAsleep u s₁ (s₁.goto u .asleep) := ⟨Function.update_self .., hne⟩
        have := hf.openLe h0
        rw [slotsFreed, slotsTaken, if_pos hfall, if_pos hfall, State.goto_pool]
        omega
      · have hoff := goto_off s₁ t .asleep u hut
        have ho : OneSlot cfg s₁ (s₁.goto t .asleep) := oneSlot_of_eq rfl
        have hc := ho.counts (t := u) past₁ fun h => h.2 (by rw [← hoff]; exact h.1)
        have := (hf.waiting u (by rwa [hoff] at hu)).2
        omega
    · refine ⟨ho.openLe hf.openLe, fun u hu => ?_⟩
      obtain ⟨h0, heq⟩ := hf.waiting u (hj.waiting u hu)
      have hc := ho.counts past₁ fun h => h.2 (hj.asleep u h.1)
      exact ⟨h0, by omega⟩

/-- A waiter finds as many open slots as it left when those freed meanwhile were taken again. -/
theorem exhausted_iff {past : List (State T)} {t : T} (h : Run cfg may (s :: past))
    (hg : GivesUp cfg s t s') :
    Exhausted cfg s.pool ↔ slotsFreed t s past ≤ slotsTaken t s past := by
  obtain ⟨p, now, b, hb, hp, -⟩ := hg
  obtain ⟨-, hidle, rfl⟩ := acquireLocked_spec hp
  have hw : Waiting (s.phase t) := by
    generalize s.phase t = ph at hb
    cases hb
    exact Waiting.woken true
  have hf := full_of_run h
  obtain ⟨h0, heq⟩ := hf.waiting t hw
  have hle := hf.openLe h0
  constructor
  · rintro ⟨-, hmax⟩
    omega
  · intro hc
    exact ⟨hidle, by omega⟩

theorem Run.suffix {run past : List (State T)} (h : Run cfg may run) (hs : (s :: past) <:+ run) :
    Run cfg may (s :: past) := by
  induction h with
  | start =>
    obtain ⟨rfl, rfl⟩ | hs := List.suffix_cons_iff.mp hs
    · exact .start
    · simp at hs
  | step h hstep ih =>
    rcases List.suffix_cons_iff.mp hs with e | hs
    · obtain ⟨rfl, rfl⟩ := List.cons.inj e
      exact h.step hstep
    · exact ih hs

theorem reachable_iff_run : Reachable cfg may s ↔ ∃ past, Run cfg may (s :: past) := by
  constructor
  · intro h
    induction h with
    | refl => exact ⟨[], .start⟩
    | tail _ hstep ih =>
      obtain ⟨past, hr⟩ := ih
      exact ⟨_, hr.step hstep⟩
  · rintro ⟨past, h⟩
    generalize hr : s :: past = run at h
    induction h generalizing s past with
    | start =>
      obtain ⟨rfl, rfl⟩ := List.cons.inj hr
      exact .refl
    | step _ hs ih =>
      obtain ⟨rfl, rfl⟩ := List.cons.inj hr
      exact (ih _ rfl).tail hs

/-- **The waiters of a run give up on an exhausted pool only**, exactly when each that gives up finds
the slots that were freed since it fell asleep taken again. -/
theorem timeouts_exhausted_iff {run : List (State T)} (h : Run cfg may run) :
    EachTimeout cfg (fun _ s _ => Exhausted cfg s.pool) run ↔
      EachTimeout cfg (fun t s past => slotsFreed t s past ≤ slotsTaken t s past) run := by
  constructor
  · intro hP t s s' past hs hg
    have hr := h.suffix ((List.suffix_cons s' (s :: past)).trans hs)
    exact (exhausted_iff hr hg).mp (hP t s s' past hs hg)
  · intro hP t s s' past hs hg
    have hr := h.suffix ((List.suffix_cons s' (s :: past)).trans hs)
    exact (exhausted_iff hr hg).mpr (hP t s s' past hs hg)

/-- After `oneAsleep` the timer of the waiter fires. -/
def timerFired : State Bool := oneAsleep.goto true (.woken true)

theorem run_timerFired : ∃ past, Run ⟨1, 2, 0, 30000⟩ OnlyHeld (timerFired :: past) := by
  obtain ⟨past, h⟩ := reachable_iff_run.mp reachable_oneAsleep
  exact ⟨_, h.step (.timeout true rfl (by decide))⟩

theorem timeouts_exhausted_timerFired :
    ∃ past, EachTimeout ⟨1, 2, 0, 30000⟩ (fun _ s _ => Exhausted ⟨1, 2, 0, 30000⟩ s.pool)
        (timerFired.goto true .out :: timerFired :: past) ↔
      EachTimeout ⟨1, 2, 0, 30000⟩ (fun t s past => slotsFreed t s past ≤ slotsTaken t s past)
        (timerFired.goto true .out :: timerFired :: past) := by
  obtain ⟨past, h⟩ := run_timerFired
  exact ⟨past, timeouts_exhausted_iff (h.step (.giveUp true 0 true (Entering.woken true) rfl))⟩

/-- After `timerFired` the three opens of the other thread fail, and its slot is freed. -/
def slotBack : State Bool :=
  ((((timerFired.goto false (.opening 1)).goto false (.opening 2)).goto false .openFailed).setPool
    ⟨0, 0, []⟩).goto false .out

/-- **A waiter gives up although a slot is free.** -/
theorem timeout_not_exhausted :
    ∃ run : List (State Bool), Run ⟨1, 2, 0, 30000⟩ OnlyHeld run ∧
      ¬ EachTimeout ⟨1, 2, 0, 30000⟩ (fun _ s _ => Exhausted ⟨1, 2, 0, 30000⟩ s.pool) run := by
  obtain ⟨past, h⟩ := run_timerFired
  have hfail := ((h.step (.openFail false (n := 0) rfl)).step (.openFail false (n := 1) rfl)).step
    (.openFail false (n := 2) rfl)
  have hback : Run ⟨1, 2, 0, 30000⟩ OnlyHeld (slotBack :: _) :=
    hfail.step (.openDiscount false rfl (Or.inr ⟨by decide, rfl⟩))
  have hgive : GivesUp ⟨1, 2, 0, 30000⟩ slotBack true (slotBack.goto true .out) :=
    ⟨_, 0, true, Entering.woken true, rfl, rfl⟩
  refine ⟨_, hback.step (.giveUp true 0 true (Entering.woken true) rfl), fun hall => ?_⟩
  obtain ⟨-, hfull⟩ := hall true slotBack _ _ (List.suffix_refl _) hgive
  exact absurd hfull (by decide)

end Corm.Pool
