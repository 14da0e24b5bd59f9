import Corm.Pool.Timeout
import Corm.Pool.Wakeup
import Mathlib.Algebra.Group.Action.Defs
import Mathlib.Algebra.Order.BigOperators.Group.Finset

/-!
# Progress of the pool

A call of `corm_pool_acquire` goes on by itself until it returns or waits, and it waits for a
connection that some client holds.

* `Inner`: the steps in which a call goes on; `inner_of_running`: a call that can go on does;
* `effort`, `pending`: the steps that the calls under way can still take;
* `inner_pending`: each step takes one of them;
* **`acquires_progress`**: the runs of such steps are finite, and where they end, every thread is
  outside the pool, or waits while clients hold all connections that may be open;
* `destroy`, **`destroy_closes_iff`**: what `corm_pool_destroy` leaves open.
-/

namespace Corm.Pool

variable {T : Type} [DecidableEq T]

/-! ## The steps of a call -/

/-- A step in which a call goes on: no client calls the pool or hands a connection back, and no wait
ends without a signal. -/
def Inner (cfg : Config) (s s' : State T) : Prop :=
  Step cfg (fun _ _ _ => False) s s' ∧ (s'.pool ≠ s.pool ∨
    ∃ t, s.phase t ≠ .out ∧ s.phase t ≠ .asleep ∧ s'.phase t ≠ s.phase t)

variable {cfg : Config} {s s' s₁ : State T} {t : T}

theorem not_inner_goto {ph : Phase} (h : s.phase t = .out ∨ s.phase t = .asleep) :
    ¬ Inner cfg s (s.goto t ph) := by
  rintro ⟨-, hpool | ⟨u, hout, hasleep, hmoves⟩⟩
  · exact hpool rfl
  · have hut : u = t := by
      by_contra hne
      exact hmoves (goto_off s t ph u hne)
    subst hut
    exact h.elim hout hasleep

theorem exists_signal (s : State T) : ∃ s', Signal s s' := by
  by_cases h : ∃ t, s.phase t = .asleep
  · obtain ⟨t, ht⟩ := h
    exact ⟨_, Or.inl ⟨t, ht, rfl⟩⟩
  · exact ⟨s, Or.inr ⟨not_exists.mp h, rfl⟩⟩

theorem inner_goto {ph : Phase} (hstep : Step cfg (fun _ _ _ => False) s (s₁.goto t ph))
    (hout : s.phase t ≠ .out) (hasleep : s.phase t ≠ .asleep) (hph : ph ≠ s.phase t) :
    Inner cfg s (s₁.goto t ph) := by
  refine ⟨hstep, Or.inr ⟨t, hout, hasleep, ?_⟩⟩
  rwa [State.goto_phase, Function.update_self]

theorem inner_discount (s₁ : State T) (hopen : s₁.pool.currentOpen = s.pool.currentOpen - 1)
    (hstep : ∀ s', Signal s₁ s' → Step cfg (fun _ _ _ => False) s s') : ∃ s', Inner cfg s s' := by
  obtain ⟨s', hs⟩ := exists_signal s₁
  refine ⟨s', hstep s' hs, Or.inl fun hpool => ?_⟩
  have hsame := congrArg Pool.currentOpen hpool
  rw [hs.frame.1, hopen] at hsame
  omega

theorem inner_of_entering {b : Bool} (h : Entering (s.phase t) b) : ∃ s', Inner cfg s s' := by
  have hout : s.phase t ≠ .out := by
    intro ht
    rw [ht] at h
    cases h
  have hasleep : s.phase t ≠ .asleep := by
    intro ht
    rw [ht] at h
    cases h
  have hmoves {ph : Phase} (hph : ∀ b, ¬ Entering ph b) : ph ≠ s.phase t := by
    rintro rfl
    exact hph b h
  rcases hlocked : acquireLocked cfg (expired cfg s 0) b s.pool with ⟨p, e⟩
  cases e with
  | wait => exact ⟨_, inner_goto (.wait t 0 b h hlocked) hout hasleep (hmoves nofun)⟩
  | giveUp => exact ⟨_, inner_goto (.giveUp t 0 b h hlocked) hout hasleep (hmoves nofun)⟩
  | check c => exact ⟨_, inner_goto (.check t 0 b h hlocked) hout hasleep (hmoves nofun)⟩
  | reserve => exact ⟨_, inner_goto (.reserve t 0 b h hlocked) hout hasleep (hmoves nofun)⟩
  | expired c =>
    obtain ⟨-, hopen, -⟩ := acquireLocked_spec hlocked
    exact inner_discount (((s.setPool p).close c).goto t .retry) hopen
      fun s' hs => .expire t 0 b h hlocked hs

/-- **A call that does not wait can go on.** -/
theorem inner_of_running (hout : s.phase t ≠ .out) (hasleep : s.phase t ≠ .asleep) :
    ∃ s', Inner cfg s s' := by
  cases hph : s.phase t with
  | out => exact absurd hph hout
  | asleep => exact absurd hph hasleep
  | retry => exact inner_of_entering (hph ▸ Entering.retry)
  | woken b => exact inner_of_entering (hph ▸ Entering.woken b)
  | pinging c => exact ⟨_, inner_goto (.pingOk t hph) hout hasleep (by rw [hph]; nofun)⟩
  | opening n => exact ⟨_, inner_goto (.openOk t 0 hph) hout hasleep (by rw [hph]; nofun)⟩
  | pingFailed =>
    exact inner_discount ((s.setPool { s.pool with
      currentOpen := s.pool.currentOpen - 1 }).goto t .retry) rfl fun s' hs => .pingDiscount t hph hs
  | openFailed =>
    exact inner_discount ((s.setPool { s.pool with
      currentOpen := s.pool.currentOpen - 1 }).goto t .out) rfl fun s' hs => .openDiscount t hph hs

/-! ## How long a call goes on -/

/-- The steps that a thread can still take. A step that signals leaves one to the thread it wakes. -/
def effort : Phase → ℕ
  | .out => 0
  | .openFailed => 2
  | .opening n => 3 + (2 - n)
  | .asleep => 6
  | .retry => 7
  | .woken _ => 7
  | .pingFailed => 9
  | .pinging _ => 10

theorem effort_le (ph : Phase) : effort ph ≤ 10 := by
  cases ph <;> simp only [effort] <;> omega

theorem effort_entering {ph : Phase} {b : Bool} (h : Entering ph b) : effort ph = 7 := by
  cases h <;> rfl

variable [Fintype T]

/-- The steps that all calls can still take; an idle connection can be checked and found dead. -/
def pending (s : State T) : ℕ := ∑ t, effort (s.phase t) + 4 * s.pool.idle.length

theorem pending_move {s s₁ : State T} {ph : Phase}
    (h : s₁.phase = Function.update s.phase t ph) :
    pending s₁ + effort (s.phase t) + 4 * s.pool.idle.length =
      pending s + effort ph + 4 * s₁.pool.idle.length := by
  have hsum := sum_add_eq_of_eq_off (f := fun u => effort (s₁.phase u))
    (g := fun u => effort (s.phase u)) t fun u hu => by
      simp only [h, Function.update_of_ne hu]
  simp only [h, Function.update_self] at hsum
  simp only [pending, h]
  omega

theorem pending_lt {ph : Phase} (hph : s₁.phase = Function.update s.phase t ph)
    (hlt : effort ph + 4 * s₁.pool.idle.length < effort (s.phase t) + 4 * s.pool.idle.length) :
    pending s₁ < pending s := by
  have hmove := pending_move hph
  omega

theorem pending_signal_lt {ph : Phase} (hs : Signal s₁ s')
    (hph : s₁.phase = Function.update s.phase t ph)
    (hlt : effort ph + 4 * s₁.pool.idle.length + 1 <
      effort (s.phase t) + 4 * s.pool.idle.length) : pending s' < pending s := by
  have hmove := pending_move hph
  have hsignal : pending s' ≤ pending s₁ + 1 := by
    obtain ⟨u, hu, rfl⟩ | ⟨-, rfl⟩ := hs
    · have hphase : (s₁.goto u (.woken false)).phase = Function.update s₁.phase u (.woken false) := rfl
      have hwake := pending_move hphase
      rw [hu, show effort .asleep = 6 from rfl, show effort (.woken false) = 7 from rfl,
        State.goto_pool] at hwake
      omega
    · exact Nat.le_succ _
  omega

/-- **Each step of a call takes one of those that are left.** -/
theorem inner_pending (h : Inner cfg s s') : pending s' < pending s := by
  obtain ⟨hstep, -⟩ := id h
  cases hstep with
  | call t ht => exact absurd h (not_inner_goto (Or.inl ht))
  | spurious t ht => exact absurd h (not_inner_goto (Or.inr ht))
  | timeout t ht hpos => exact absurd h (not_inner_goto (Or.inr ht))
  | releaseIdle t nodeOk ht hc hp hs => exact hc.elim
  | releaseClose t nodeOk ht hc hp hs => exact hc.elim
  | wait t now b he hp =>
    obtain ⟨rfl, -⟩ := acquireLocked_spec hp
    exact pending_lt rfl (by rw [effort_entering he]; simp [effort])
  | giveUp t now b he hp =>
    obtain ⟨rfl, -⟩ := acquireLocked_spec hp
    exact pending_lt rfl (by rw [effort_entering he]; simp [effort])
  | expire t now b he hp hs =>
    obtain ⟨hidle, -⟩ := acquireLocked_spec hp
    exact pending_signal_lt hs rfl (by rw [effort_entering he, hidle]; simp [effort]; omega)
  | check t now b he hp =>
    obtain ⟨hidle, -⟩ := acquireLocked_spec hp
    exact pending_lt rfl (by rw [effort_entering he, hidle]; simp [effort]; omega)
  | reserve t now b he hp =>
    obtain ⟨hidle, hidle', -⟩ := acquireLocked_spec hp
    exact pending_lt rfl (by rw [effort_entering he, hidle]; simp [effort, hidle'])
  | pingOk t ht => exact pending_lt rfl (by rw [ht]; simp [effort])
  | pingFail t ht => exact pending_lt rfl (by rw [ht]; simp [effort])
  | pingDiscount t ht hs => exact pending_signal_lt hs rfl (by rw [ht]; simp [effort]; omega)
  | openOk t now ht => exact pending_lt rfl (by rw [ht]; simp [effort])
  | @openFail n t ht =>
    refine pending_lt rfl ?_
    rw [ht]
    split_ifs with hn <;> simp only [effort, State.goto_pool] <;> omega
  | openDiscount t ht hs => exact pending_signal_lt hs rfl (by rw [ht]; simp [effort]; omega)

omit [DecidableEq T] in
theorem pending_le (s : State T) : pending s ≤ 10 * Fintype.card T + 4 * s.pool.idle.length := by
  have hsum : ∑ t, effort (s.phase t) ≤ ∑ _t : T, 10 :=
    Finset.sum_le_sum fun t _ => effort_le (s.phase t)
  rw [Finset.sum_const, Finset.card_univ, smul_eq_mul] at hsum
  unfold pending
  omega

/-- **A run of such steps ends.** -/
theorem inner_run_length {run : List (State T)} (h : List.IsChain (Inner cfg) (s :: run)) :
    run.length ≤ pending s := by
  induction run generalizing s with
  | nil => exact Nat.zero_le _
  | cons s' run ih =>
    obtain ⟨hstep, hrest⟩ := List.isChain_cons_cons.mp h
    have hlt := inner_pending hstep
    have hle := ih hrest
    rw [List.length_cons]
    omega

/-! ## Where a run ends -/

/-- Outside the pool, or waiting while clients hold every connection that may be open. -/
def Settled (cfg : Config) (s : State T) (t : T) : Prop :=
  s.phase t = .out ∨ s.phase t = .asleep ∧ 0 < cfg.maxOpenConns ∧ s.pool.idle = [] ∧
    ((∑ u, (s.held u).length : ℕ) : ℤ) = cfg.maxOpenConns

theorem settled_of_stuck (h : Reachable cfg OnlyHeld s) (hstuck : ∀ s', ¬ Inner cfg s s') (t : T) :
    Settled cfg s t := by
  have hquiet : ∀ u, s.phase u = .out ∨ s.phase u = .asleep := by
    intro u
    by_contra hne
    rw [not_or] at hne
    obtain ⟨s', hs'⟩ := inner_of_running hne.1 hne.2
    exact hstuck s' hs'
  rcases hquiet t with ht | ht
  · exact Or.inl ht
  obtain ⟨past, hrun⟩ := reachable_iff_run.mp h
  obtain ⟨hpos, -⟩ := (full_of_run hrun).waiting t (ht ▸ Waiting.asleep)
  have hacc := accounted_of_reachable h
  have hcover := (served_of_reachable h).cover ⟨t, ht⟩
  have hsignalled : ∑ u, signalled (s.phase u) = 0 := Finset.sum_eq_zero fun u _ => by
    rcases hquiet u with hu | hu <;> rw [hu] <;> rfl
  have hslots : tally slots s = ∑ u, (s.held u).length := Finset.sum_congr rfl fun u _ => by
    rcases hquiet u with hu | hu <;> rw [hu] <;> rfl
  have hopen := hacc.openEq
  have hle := hacc.openLe hpos
  have hidle := hacc.idleEq
  rw [hsignalled] at hcover
  rw [hslots] at hopen
  unfold capacity at hcover
  have hnil : s.pool.idle.length = 0 := by omega
  exact Or.inr ⟨ht, hpos, List.length_eq_zero_iff.mp hnil, by omega⟩

/-- **Calls of `corm_pool_acquire` end, or wait for a client.** From every state that the pool can
reach, the calls under way take a bounded number of steps by themselves; and where none can take
another one, each thread is outside the pool or waits while the clients hold `max_open_conns`
connections and none is idle. -/
theorem acquires_progress (h : Reachable cfg OnlyHeld s) :
    (∀ run, List.IsChain (Inner cfg) (s :: run) →
      run.length ≤ 10 * Fintype.card T + 4 * s.pool.idle.length) ∧
    ((∀ s', ¬ Inner cfg s s') → ∀ t, Settled cfg s t) :=
  ⟨fun _ hrun => (inner_run_length hrun).trans (pending_le s), settled_of_stuck h⟩

theorem acquires_progress_oneAsleep :
    (∀ run, List.IsChain (Inner ⟨1, 2, 0, 30000⟩) (oneAsleep :: run) →
      run.length ≤ 10 * Fintype.card Bool + 4 * oneAsleep.pool.idle.length) ∧
    ((∀ s', ¬ Inner ⟨1, 2, 0, 30000⟩ oneAsleep s') → ∀ t, Settled ⟨1, 2, 0, 30000⟩ oneAsleep t) :=
  acquires_progress reachable_oneAsleep

/-! ## Destruction -/

/-- `corm_pool_destroy`: the idle connections are closed, from the first one on. -/
def destroy (s : State T) : State T :=
  { s with pool := { s.pool with idle := [] }, closed := s.pool.idle.reverse ++ s.closed }

/-- **A pool that is destroyed closes what it has**: after any run that has left every thread outside
the pool, all connections that were ever opened are closed, each of them once, exactly when no client
holds one. -/
theorem destroy_closes_iff (h : Reachable cfg OnlyHeld s) (hout : ∀ t, s.phase t = .out) :
    (∀ c, (destroy s).closed.count c = if c < s.fresh then 1 else 0) ↔ ∀ t, s.held t = [] := by
  have hplaces (c : Conn) : tally (places c) s = ∑ t, (s.held t).count c :=
    Finset.sum_congr rfl fun t _ => by rw [hout t]; simp [places]
  have hcount (c : Conn) : (destroy s).closed.count c + ∑ t, (s.held t).count c =
      if c < s.fresh then 1 else 0 := by
    have hconns := (accounted_of_reachable h).conns c
    rw [hplaces, born] at hconns
    rw [← hconns]
    simp only [destroy, List.count_append, List.count_reverse]
    omega
  have hnone (c : Conn) : ∑ t, (s.held t).count c = 0 ↔ ∀ t, c ∉ s.held t := by
    simp [Finset.sum_eq_zero_iff, List.count_eq_zero]
  constructor
  · intro hclosed t
    refine List.eq_nil_iff_forall_not_mem.mpr fun c => ?_
    have hzero : ∑ t, (s.held t).count c = 0 := by
      have hc := hcount c
      rw [hclosed c] at hc
      omega
    exact (hnone c).mp hzero t
  · intro hheld c
    have hzero := (hnone c).mpr fun t => by rw [hheld t]; exact List.not_mem_nil
    rw [← hcount c, hzero]
    rfl

theorem destroy_closes_iff_afterRelease :
    (∀ c, (destroy afterRelease).closed.count c = if c < afterRelease.fresh then 1 else 0) ↔
      ∀ t, afterRelease.held t = [] :=
  destroy_closes_iff reachable_afterRelease fun _ => by decide +revert

end Corm.Pool
