import Corm.Pool.Accounting

/-!
# No lost wakeup

* `capacity`: the connections an acquirer could get at once, idle ones and free slots;
* `signalled`: the waiters that left `pthread_cond_wait` and have not rechecked the condition,
  those that timed out apart (they give up when they find no idle connection);
* `Frees`, `step_frees`: a step that frees one unit of capacity signals once, and a thread that
  stops counting as signalled takes one unit with it or goes back to sleep with none left;
* `Served`, **`served_of_reachable`**: while a waiter sleeps, the signalled waiters cover the
  capacity.
-/

namespace Corm.Pool

variable {T : Type}

/-- `idle_count + max_open_conns - current_open`. -/
def capacity (cfg : Config) (p : Pool) : ℤ := p.idleCount + cfg.maxOpenConns - p.currentOpen

/-- The thread is woken and `pthread_cond_wait` did not time out. -/
def signalled (ph : Phase) : ℕ := if ph = .woken false then 1 else 0

/-- The thread is woken and has not rechecked the condition. -/
def wokenUp : Phase → ℕ
  | .woken _ => 1
  | _ => 0

theorem signalled_le_wokenUp (ph : Phase) : signalled ph ≤ wokenUp ph := by
  unfold signalled
  split
  · rename_i h
    rw [h]
    rfl
  · exact Nat.zero_le _

/-- Thread `t` moves from `s` to `s'` and does not fall asleep; the capacity it neither takes nor
leaves to other signalled waiters is at most `k`. -/
structure Frees (cfg : Config) (s s' : State T) (t : T) (k : ℕ) : Prop where
  off : ∀ u, u ≠ t → s'.phase u = s.phase u
  awake : s'.phase t ≠ .asleep
  count : s'.pool.idleCount + s.pool.idle.length = s.pool.idleCount + s'.pool.idle.length
  cap : capacity cfg s'.pool + signalled (s.phase t) ≤
    capacity cfg s.pool + signalled (s'.phase t) + k

variable [DecidableEq T] {cfg : Config} {may : State T → T → Conn → Prop} {s s' : State T}

theorem goto_off (s : State T) (t : T) (ph : Phase) : ∀ u, u ≠ t → (s.goto t ph).phase u = s.phase u :=
  fun _ hu => Function.update_of_ne hu _ _

theorem signalled_entering {ph : Phase} {b : Bool} (h : Entering ph b) : signalled ph ≤ 1 := by
  cases h
  · exact Nat.zero_le _
  · unfold signalled; split <;> omega

/-- **Inversion of a step.** Without a signal nothing is freed; with one, at most one unit is; and
a thread that falls asleep saw an empty idle list and no free slot. -/
theorem step_frees (h : Step cfg may s s') :
    (∃ t, Frees cfg s s' t 0) ∨ (∃ t s₁, Frees cfg s s₁ t 1 ∧ Signal s₁ s') ∨
      ∃ t, s' = s.goto t .asleep ∧ s.pool.idle = [] ∧ cfg.maxOpenConns ≤ s.pool.currentOpen := by
  cases h with
  | call t h => exact Or.inl ⟨t, goto_off s t _, by simp, rfl, by simp [h, signalled]⟩
  | wait t now b h hp =>
    obtain ⟨rfl, h1, -, h2⟩ := acquireLocked_spec hp
    exact Or.inr (Or.inr ⟨t, rfl, h1, h2⟩)
  | giveUp t now b h hp =>
    obtain ⟨rfl, -, rfl⟩ := acquireLocked_spec hp
    refine Or.inl ⟨t, goto_off _ t _, by simp, rfl, ?_⟩
    generalize s.phase t = ph at h
    cases h
    simp [signalled]
  | @expire _ p c t now b h hp hs =>
    obtain ⟨h1, h2, h3⟩ := acquireLocked_spec hp
    have h4 := signalled_entering h
    refine Or.inr (Or.inl ⟨t, _, ?_, hs⟩)
    refine ⟨goto_off _ t _, by simp, ?_, ?_⟩
    · simp [h1, h3]
    · simp [capacity, h2, h3]; omega
  | @check p c t now b h hp =>
    obtain ⟨h1, h2, h3⟩ := acquireLocked_spec hp
    have h4 := signalled_entering h
    refine Or.inl ⟨t, goto_off _ t _, by simp, ?_, ?_⟩
    · simp [h1, h3]
    · simp [capacity, h2, h3]; omega
  | @reserve p t now b h hp =>
    obtain ⟨h1, h2, h3, h5, -, -⟩ := acquireLocked_spec hp
    have h4 := signalled_entering h
    refine Or.inl ⟨t, goto_off _ t _, by simp, ?_, ?_⟩
    · simp [h1, h2, h5]
    · simp [capacity, h3, h5]; omega
  | spurious t h => exact Or.inl ⟨t, goto_off s t _, by simp, rfl, by simp [h, signalled]⟩
  | timeout t h ht => exact Or.inl ⟨t, goto_off s t _, by simp, rfl, by simp [h, signalled]⟩
  | pingOk t h => exact Or.inl ⟨t, goto_off _ t _, by simp, rfl, by simp [h, signalled]⟩
  | pingFail t h => exact Or.inl ⟨t, goto_off _ t _, by simp, rfl, by simp [h, signalled]⟩
  | pingDiscount t h hs =>
    refine Or.inr (Or.inl ⟨t, _, ?_, hs⟩)
    refine ⟨goto_off _ t _, by simp, by simp, ?_⟩
    simp [capacity, h, signalled]
  | openOk t now h => exact Or.inl ⟨t, goto_off _ t _, by simp, rfl, by simp [h, signalled]⟩
  | openFail t h =>
    have h0 : signalled (s.phase t) = 0 := by rw [h]; rfl
    refine Or.inl ⟨t, goto_off s t _, ?_, rfl, ?_⟩
    · rw [State.goto_phase, Function.update_self]
      split <;> simp
    · rw [h0, State.goto_pool]
      omega
  | openDiscount t h hs =>
    refine Or.inr (Or.inl ⟨t, _, ?_, hs⟩)
    refine ⟨goto_off _ t _, by simp, by simp, ?_⟩
    simp [capacity, h, signalled]
  | @releaseIdle _ p c t nodeOk h hc hp hs =>
    obtain ⟨hb, -⟩ | ⟨-, h1, h2, h3, -⟩ := releaseLocked_spec hp
    · cases hb
    refine Or.inr (Or.inl ⟨t, _, ?_, hs⟩)
    refine ⟨fun _ _ => rfl, by simp [h], ?_, ?_⟩
    · simp [h1, h3]; omega
    · simp [capacity, h2, h3]; omega
  | @releaseClose _ p c t nodeOk h hc hp hs =>
    obtain ⟨-, h1, h2, h3⟩ | ⟨hb, -⟩ := releaseLocked_spec hp
    swap
    · cases hb
    refine Or.inr (Or.inl ⟨t, _, ?_, hs⟩)
    refine ⟨fun _ _ => rfl, by simp [h], ?_, ?_⟩
    · simp [h1, h3]
    · simp [capacity, h2, h3]; omega

/-! ## Every reachable state -/

variable [Fintype T]

/-- **The wakeup invariant.** -/
structure Served (cfg : Config) (s : State T) : Prop where
  idleEq : s.pool.idleCount = s.pool.idle.length
  cover : (∃ t, s.phase t = .asleep) → capacity cfg s.pool ≤ ((∑ t, signalled (s.phase t) : ℕ) : ℤ)

theorem served_frees {t : T} (h : Served cfg s) (hf : Frees cfg s s' t 0) : Served cfg s' where
  idleEq := by
    have h1 := h.idleEq
    have h2 := hf.count
    omega
  cover := by
    rintro ⟨u, hu⟩
    have hut : u ≠ t := fun e => hf.awake (e ▸ hu)
    have h1 := h.cover ⟨u, by rw [← hf.off u hut]; exact hu⟩
    have h2 := sum_add_eq_of_eq_off (f := fun u => signalled (s'.phase u))
      (g := fun u => signalled (s.phase u)) t fun u hu => by simp only [hf.off u hu]
    have h3 := hf.cap
    omega

theorem served_signal {t : T} {s₁ : State T} (h : Served cfg s) (hf : Frees cfg s s₁ t 1)
    (hs : Signal s₁ s') : Served cfg s' where
  idleEq := by
    have h1 := h.idleEq
    have h2 := hf.count
    rw [hs.frame.1]
    omega
  cover := by
    rcases hs with ⟨u, hu, rfl⟩ | ⟨hno, rfl⟩
    · intro _
      have hut : u ≠ t := fun e => hf.awake (e ▸ hu)
      have h1 := h.cover ⟨u, by rw [← hf.off u hut]; exact hu⟩
      have h2 := sum_add_eq_of_eq_off (f := fun u => signalled (s₁.phase u))
        (g := fun u => signalled (s.phase u)) t fun u hu => by simp only [hf.off u hu]
      have h3 := sum_add_eq_of_eq_off (f := fun v => signalled ((s₁.goto u (.woken false)).phase v))
        (g := fun v => signalled (s₁.phase v)) u fun v hv => by simp only [goto_off s₁ u _ v hv]
      have h4 := hf.cap
      simp only [State.goto_phase, Function.update_self, hu] at h2 h3
      simp only [State.goto_pool, State.goto_phase]
      simp only [signalled, if_true, reduceCtorEq, if_false] at h3
      simp only [signalled] at h1 h2 h4 ⊢
      omega
    · rintro ⟨u, hu⟩
      exact absurd hu (hno u)

theorem served_asleep {t : T} (h : Served cfg s) (hi : s.pool.idle = [])
    (ho : cfg.maxOpenConns ≤ s.pool.currentOpen) : Served cfg (s.goto t .asleep) where
  idleEq := h.idleEq
  cover _ := by
    have h1 := h.idleEq
    rw [hi, List.length_nil] at h1
    simp only [State.goto_pool, capacity]
    omega

/-- **The wakeup invariant holds along every run**, whatever the clients release. -/
theorem served_of_reachable (h : Reachable cfg may s) : Served cfg s := by
  induction h with
  | refl => exact ⟨rfl, fun ⟨t, ht⟩ => by cases ht⟩
  | tail _ hstep ih =>
    obtain ⟨t, hf⟩ | ⟨t, s₁, hf, hs⟩ | ⟨t, rfl, hi, ho⟩ := step_frees hstep
    · exact served_frees ih hf
    · exact served_signal ih hf hs
    · exact served_asleep ih hi ho

/-- **No lost wakeup.** While some waiter sleeps, the available capacity is at most the number of
woken waiters that have not rechecked the condition. -/
theorem no_lost_wakeup (h : Reachable cfg may s) {t : T} (ht : s.phase t = .asleep) :
    s.pool.idleCount + cfg.maxOpenConns - s.pool.currentOpen ≤
      ((∑ u, wokenUp (s.phase u) : ℕ) : ℤ) := by
  refine ((served_of_reachable h).cover ⟨t, ht⟩).trans ?_
  exact_mod_cast Finset.sum_le_sum fun u _ => signalled_le_wokenUp (s.phase u)

/-- Thread `false` opens the only connection allowed, thread `true` waits for it. -/
def oneAsleep : State Bool :=
  ((((init.goto false .retry).setPool ⟨1, 0, []⟩).goto false (.opening 0)).goto true .retry).goto
    true .asleep

theorem reachable_oneAsleep : Reachable ⟨1, 2, 0, 30000⟩ OnlyHeld oneAsleep :=
  .tail (.tail (.tail (.tail .refl (.call false rfl)) (.reserve false 0 false Entering.retry rfl))
    (.call true rfl)) (.wait true 0 false Entering.retry rfl)

theorem no_lost_wakeup_oneAsleep :
    oneAsleep.pool.idleCount + 1 - oneAsleep.pool.currentOpen ≤
      ((∑ u, wokenUp (oneAsleep.phase u) : ℕ) : ℤ) :=
  no_lost_wakeup reachable_oneAsleep (t := true) rfl

end Corm.Pool
