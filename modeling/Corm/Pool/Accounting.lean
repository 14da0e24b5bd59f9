import Corm.Pool.Model
import Mathlib.Algebra.Order.BigOperators.Group.Finset

/-!
# Pool accounting

* `acquireLocked_spec`, `releaseLocked_spec`: all that the two locked sections can do;
* `tally`: a weight of a thread's phase and connections, summed over the threads;
* `Balanced`, `step_balanced`: a step moves one thread, and the slots and connections that it
  takes from one place it adds to another;
* `Accounted`, **`accounted_of_reachable`**: every slot of `current_open` is idle, lent, being
  pinged or being opened, and every connection ever opened is in exactly one place.
-/

namespace Corm.Pool

/-! ## The locked sections -/

theorem acquireLocked_spec {cfg : Config} {old : Conn → Bool} {b : Bool} {p q : Pool} {e : Entry}
    (h : acquireLocked cfg old b p = (q, e)) :
    match e with
    | .wait => q = p ∧ p.idle = [] ∧ 0 < cfg.maxOpenConns ∧ cfg.maxOpenConns ≤ p.currentOpen
    | .giveUp => q = p ∧ p.idle = [] ∧ b = true
    | .expired c => p.idle = c :: q.idle ∧ q.currentOpen = p.currentOpen - 1 ∧
        q.idleCount = p.idleCount - 1
    | .check c => p.idle = c :: q.idle ∧ q.currentOpen = p.currentOpen ∧
        q.idleCount = p.idleCount - 1
    | .reserve => p.idle = [] ∧ q.idle = [] ∧ q.currentOpen = p.currentOpen + 1 ∧
        q.idleCount = p.idleCount ∧ b = false ∧
        (0 < cfg.maxOpenConns → p.currentOpen < cfg.maxOpenConns) := by
  unfold acquireLocked at h
  obtain ⟨n, k, l⟩ := p
  cases l with
  | nil =>
    by_cases hb : b = true
    · simp only [hb, List.isEmpty_nil, Bool.and_true, if_true, Prod.mk.injEq] at h
      obtain ⟨rfl, rfl⟩ := h
      exact ⟨rfl, rfl, hb⟩
    · rw [Bool.not_eq_true] at hb
      subst hb
      by_cases hw : 0 < cfg.maxOpenConns ∧ cfg.maxOpenConns ≤ n
      · simp only [List.isEmpty_nil, Bool.false_eq_true, if_false, hw.1, hw.2, decide_true,
          Bool.and_true, if_true, Prod.mk.injEq] at h
        obtain ⟨rfl, rfl⟩ := h
        exact ⟨rfl, rfl, hw⟩
      · rw [if_neg (by simp), if_neg (by simpa using hw)] at h
        simp only [Prod.mk.injEq] at h
        obtain ⟨rfl, rfl⟩ := h
        exact ⟨rfl, rfl, rfl, rfl, rfl, fun h0 => by simp only [not_and, not_le] at hw; exact hw h0⟩
  | cons c l =>
    simp only [List.isEmpty_cons, Bool.and_false, Bool.false_eq_true, if_false,
      Bool.false_and] at h
    split at h <;> simp only [Prod.mk.injEq] at h <;> obtain ⟨rfl, rfl⟩ := h <;>
      exact ⟨rfl, rfl, rfl⟩

theorem releaseLocked_spec {cfg : Config} {nodeOk b : Bool} {c : Conn} {p q : Pool}
    (h : releaseLocked cfg nodeOk c p = (q, b)) :
    (b = true ∧ q.idle = p.idle ∧ q.currentOpen = p.currentOpen - 1 ∧ q.idleCount = p.idleCount) ∨
    (b = false ∧ q.idle = c :: p.idle ∧ q.currentOpen = p.currentOpen ∧
      q.idleCount = p.idleCount + 1 ∧
      (0 < cfg.maxIdleConns → p.idleCount < cfg.maxIdleConns)) := by
  unfold releaseLocked at h
  split at h
  · simp only [Prod.mk.injEq] at h
    obtain ⟨rfl, rfl⟩ := h
    exact Or.inl ⟨rfl, rfl, rfl, rfl⟩
  · rename_i hlim
    split at h <;> simp only [Prod.mk.injEq] at h <;> obtain ⟨rfl, rfl⟩ := h
    · refine Or.inr ⟨rfl, rfl, rfl, rfl, fun h0 => ?_⟩
      by_contra hle
      exact hlim (by simp [h0, not_lt.mp hle])
    · exact Or.inl ⟨rfl, rfl, rfl, rfl⟩

variable {T : Type}

/-! ## Sums over the threads -/

section Tally

variable [Fintype T]

/-- The total of a weight over the threads. -/
def tally (w : Phase → List Conn → ℕ) (s : State T) : ℕ := ∑ t, w (s.phase t) (s.held t)

/-- Two functions that agree off `t` have sums that differ by their values at `t`. -/
theorem sum_add_eq_of_eq_off [DecidableEq T] {f g : T → ℕ} (t : T) (h : ∀ u, u ≠ t → f u = g u) :
    ∑ u, f u + g t = ∑ u, g u + f t := by
  have hf := Finset.sum_erase_add Finset.univ f (Finset.mem_univ t)
  have hg := Finset.sum_erase_add Finset.univ g (Finset.mem_univ t)
  have he : ∑ u ∈ Finset.univ.erase t, f u = ∑ u ∈ Finset.univ.erase t, g u :=
    Finset.sum_congr rfl fun u hu => h u (Finset.ne_of_mem_erase hu)
  omega

theorem tally_move [DecidableEq T] (w : Phase → List Conn → ℕ) {s s' : State T} (t : T)
    (h : ∀ u, u ≠ t → s'.phase u = s.phase u ∧ s'.held u = s.held u) :
    tally w s' + w (s.phase t) (s.held t) = tally w s + w (s'.phase t) (s'.held t) :=
  sum_add_eq_of_eq_off (f := fun u => w (s'.phase u) (s'.held u))
    (g := fun u => w (s.phase u) (s.held u)) t fun u hu => by
      simp only [(h u hu).1, (h u hu).2]

theorem le_tally (w : Phase → List Conn → ℕ) (s : State T) (t : T) :
    w (s.phase t) (s.held t) ≤ tally w s :=
  Finset.single_le_sum (f := fun u => w (s.phase u) (s.held u)) (fun _ _ => Nat.zero_le _)
    (Finset.mem_univ t)

theorem add_le_tally (w : Phase → List Conn → ℕ) (s : State T) {t u : T} (h : t ≠ u) :
    w (s.phase t) (s.held t) + w (s.phase u) (s.held u) ≤ tally w s :=
  Finset.add_le_sum (f := fun u => w (s.phase u) (s.held u)) (fun _ _ => Nat.zero_le _)
    (Finset.mem_univ t) (Finset.mem_univ u) h

end Tally

variable [DecidableEq T]

theorem Signal.frame {s s' : State T} (h : Signal s s') :
    s'.pool = s.pool ∧ s'.held = s.held ∧ s'.closed = s.closed ∧ s'.fresh = s.fresh := by
  rcases h with ⟨t, _, rfl⟩ | ⟨_, rfl⟩
  · exact ⟨rfl, rfl, rfl, rfl⟩
  · exact ⟨rfl, rfl, rfl, rfl⟩

/-- A weight that does not tell a sleeping from a woken thread is kept by a signal. -/
theorem Signal.tally_eq [Fintype T] {w : Phase → List Conn → ℕ}
    (hw : ∀ l, w (.woken false) l = w .asleep l) {s s' : State T} (h : Signal s s') :
    tally w s' = tally w s := by
  rcases h with ⟨t, ht, rfl⟩ | ⟨_, rfl⟩
  · have hm := @tally_move T _ _ w s (s.goto t (.woken false)) t fun u hu =>
      ⟨Function.update_of_ne hu _ _, rfl⟩
    simp only [State.goto, Function.update_self, hw, ht] at hm
    simp only [State.goto]
    omega
  · rfl

/-! ## The invariant -/

/-- The slots of `current_open` a thread accounts for because of a ping. -/
def pingSlots : Phase → ℕ
  | .pinging _ | .pingFailed => 1
  | _ => 0

/-- The slots of `current_open` a thread accounts for because of an open. -/
def openSlots : Phase → ℕ
  | .opening _ | .openFailed => 1
  | _ => 0

/-- All slots a thread accounts for. -/
def slots (ph : Phase) (l : List Conn) : ℕ := l.length + pingSlots ph + openSlots ph

@[simp] theorem slots_out (l : List Conn) : slots .out l = l.length := rfl
@[simp] theorem slots_retry (l : List Conn) : slots .retry l = l.length := rfl
@[simp] theorem slots_pinging (c : Conn) (l : List Conn) : slots (.pinging c) l = l.length + 1 := rfl
@[simp] theorem slots_pingFailed (l : List Conn) : slots .pingFailed l = l.length + 1 := rfl
@[simp] theorem slots_opening (n : ℕ) (l : List Conn) : slots (.opening n) l = l.length + 1 := rfl

/-- How often a thread has connection `c`: held, or taken and being pinged. -/
def places (c : Conn) (ph : Phase) (l : List Conn) : ℕ :=
  l.count c + if ph = .pinging c then 1 else 0

/-- How often connection `c` was opened. -/
def born (c n : Conn) : ℕ := if c < n then 1 else 0

/-- **The accounting invariant.** -/
structure Accounted [Fintype T] (cfg : Config) (s : State T) : Prop where
  openEq : s.pool.currentOpen = s.pool.idle.length + tally slots s
  idleEq : s.pool.idleCount = s.pool.idle.length
  openLe : 0 < cfg.maxOpenConns → s.pool.currentOpen ≤ cfg.maxOpenConns
  idleLe : 0 < cfg.maxIdleConns → s.pool.idleCount ≤ cfg.maxIdleConns
  conns : ∀ c, s.pool.idle.count c + tally (places c) s + s.closed.count c = born c s.fresh

/-- Thread `t` moves from `s` to `s'`: slots and connections change place, none is lost. -/
structure Balanced (cfg : Config) (s s' : State T) (t : T) : Prop where
  off : ∀ u, u ≠ t → s'.phase u = s.phase u ∧ s'.held u = s.held u
  slots : s'.pool.currentOpen + s.pool.idle.length + slots (s.phase t) (s.held t) =
    s.pool.currentOpen + s'.pool.idle.length + slots (s'.phase t) (s'.held t)
  count : s'.pool.idleCount + s.pool.idle.length = s.pool.idleCount + s'.pool.idle.length
  conns : ∀ c, s'.pool.idle.count c + places c (s'.phase t) (s'.held t) + s'.closed.count c +
      born c s.fresh =
    s.pool.idle.count c + places c (s.phase t) (s.held t) + s.closed.count c + born c s'.fresh
  openLe : s'.pool.currentOpen ≤ s.pool.currentOpen ∨
    s'.pool.currentOpen = s.pool.currentOpen + 1 ∧
      (0 < cfg.maxOpenConns → s.pool.currentOpen < cfg.maxOpenConns)
  idleLe : s'.pool.idleCount ≤ s.pool.idleCount ∨
    s'.pool.idleCount = s.pool.idleCount + 1 ∧
      (0 < cfg.maxIdleConns → s.pool.idleCount < cfg.maxIdleConns)

section Step

variable {cfg : Config} {s s₁ : State T} {t : T}

/-- A state in which only `t` moved, to phase `ph` with connections `l`, is in balance when the
numbers are. -/
theorem balanced_of {ph : Phase} {l : List Conn} (hph : s₁.phase = Function.update s.phase t ph)
    (hl : s₁.held = Function.update s.held t l)
    (hs : s₁.pool.currentOpen + s.pool.idle.length + slots (s.phase t) (s.held t) =
      s.pool.currentOpen + s₁.pool.idle.length + slots ph l)
    (hn : s₁.pool.idleCount + s.pool.idle.length = s.pool.idleCount + s₁.pool.idle.length)
    (hc : ∀ c, s₁.pool.idle.count c + places c ph l + s₁.closed.count c + born c s.fresh =
      s.pool.idle.count c + places c (s.phase t) (s.held t) + s.closed.count c + born c s₁.fresh)
    (ho : s₁.pool.currentOpen ≤ s.pool.currentOpen ∨
      s₁.pool.currentOpen = s.pool.currentOpen + 1 ∧
        (0 < cfg.maxOpenConns → s.pool.currentOpen < cfg.maxOpenConns))
    (hi : s₁.pool.idleCount ≤ s.pool.idleCount ∨
      s₁.pool.idleCount = s.pool.idleCount + 1 ∧
        (0 < cfg.maxIdleConns → s.pool.idleCount < cfg.maxIdleConns)) :
    Balanced cfg s s₁ t where
  off u hu := by rw [hph, hl, Function.update_of_ne hu, Function.update_of_ne hu]; exact ⟨rfl, rfl⟩
  slots := by rw [hph, hl, Function.update_self, Function.update_self]; exact hs
  count := hn
  conns c := by rw [hph, hl, Function.update_self, Function.update_self]; exact hc c
  openLe := ho
  idleLe := hi

omit [DecidableEq T] in
theorem count_erase_add {l : List Conn} {c : Conn} (h : c ∈ l) (d : Conn) :
    (l.erase c).count d + (if c = d then 1 else 0) = l.count d := by
  have := List.count_pos_iff.mpr h
  rw [List.count_erase]
  by_cases hd : c = d
  · subst hd
    simp only [beq_self_eq_true, if_true]
    omega
  · simp [hd]

theorem entering_weight {ph : Phase} {b : Bool} (h : Entering ph b) (l : List Conn) :
    slots ph l = l.length ∧ ∀ c, places c ph l = l.count c := by
  cases h <;> exact ⟨rfl, fun c => by simp [places]⟩

theorem balanced_goto {ph : Phase} (hs : slots ph (s.held t) = slots (s.phase t) (s.held t))
    (hp : ∀ c, places c ph (s.held t) = places c (s.phase t) (s.held t)) :
    Balanced cfg s (s.goto t ph) t :=
  balanced_of rfl (Function.update_eq_self t s.held).symm (by simp [hs]) (by simp)
    (fun c => by simp [hp]) (Or.inl le_rfl) (Or.inl le_rfl)

theorem balanced_discount {ph : Phase} (hs : slots (s.phase t) (s.held t) = slots ph (s.held t) + 1)
    (hp : ∀ c, places c ph (s.held t) = places c (s.phase t) (s.held t)) :
    Balanced cfg s
      ((s.setPool { s.pool with currentOpen := s.pool.currentOpen - 1 }).goto t ph) t := by
  refine balanced_of rfl (Function.update_eq_self t s.held).symm ?_ ?_ (fun c => ?_) (Or.inl ?_)
    (Or.inl le_rfl)
  · simp only [State.goto_pool, State.setPool, hs]; omega
  · simp [State.setPool]
  · simp [State.setPool, hp]
  · simp [State.setPool]

/-- **Inversion of a step.** One thread moves, in balance, and a waiter may be signalled. -/
theorem step_balanced {s' : State T} (h : Step cfg OnlyHeld s s') :
    ∃ t s₁, Balanced cfg s s₁ t ∧ (s' = s₁ ∨ Signal s₁ s') := by
  cases h with
  | call t h =>
    exact ⟨t, _, balanced_goto (by rw [h]; rfl) (fun c => by rw [h]; rfl), Or.inl rfl⟩
  | wait t now b h hp =>
    obtain ⟨rfl, -⟩ := acquireLocked_spec hp
    obtain ⟨h1, h2⟩ := entering_weight h (s.held t)
    exact ⟨t, _, balanced_goto (by rw [h1]; rfl) (fun c => by rw [h2]; simp [places]), Or.inl rfl⟩
  | giveUp t now b h hp =>
    obtain ⟨rfl, -⟩ := acquireLocked_spec hp
    obtain ⟨h1, h2⟩ := entering_weight h (s.held t)
    exact ⟨t, _, balanced_goto (by rw [h1]; rfl) (fun c => by rw [h2]; simp [places]), Or.inl rfl⟩
  | @expire _ p c t now b h hp hs =>
    obtain ⟨h1, h2, h3⟩ := acquireLocked_spec hp
    obtain ⟨h4, h5⟩ := entering_weight h (s.held t)
    refine ⟨t, ((s.setPool p).close c).goto t .retry, balanced_of rfl
      (Function.update_eq_self t s.held).symm ?_ ?_ (fun d => ?_) (Or.inl ?_) (Or.inl ?_),
      Or.inr hs⟩
    · simp [h1, h2, h4]
    · simp [h1, h3]
    · rw [h5]; simp [h1, places, List.count_cons]; omega
    · simp [h2]
    · simp [h3]
  | @check p c t now b h hp =>
    obtain ⟨h1, h2, h3⟩ := acquireLocked_spec hp
    obtain ⟨h4, h5⟩ := entering_weight h (s.held t)
    refine ⟨t, (s.setPool p).goto t (.pinging c), balanced_of rfl
      (Function.update_eq_self t s.held).symm ?_ ?_ (fun d => ?_) (Or.inl ?_) (Or.inl ?_),
      Or.inl rfl⟩
    · simp [h1, h2, h4]; omega
    · simp [h1, h3]
    · rw [h5]; simp [h1, places, List.count_cons]; omega
    · simp [h2]
    · simp [h3]
  | @reserve p t now b h hp =>
    obtain ⟨h1, h2, h3, h6, -, h7⟩ := acquireLocked_spec hp
    obtain ⟨h4, h5⟩ := entering_weight h (s.held t)
    refine ⟨t, (s.setPool p).goto t (.opening 0), balanced_of rfl
      (Function.update_eq_self t s.held).symm ?_ ?_ (fun d => ?_) (Or.inr ⟨?_, h7⟩) (Or.inl ?_),
      Or.inl rfl⟩
    · simp [h1, h2, h3, h4]; omega
    · simp [h1, h2, h6]
    · rw [h5]; simp [h1, h2, places]
    · simp [h3]
    · simp [h6]
  | spurious t h =>
    exact ⟨t, _, balanced_goto (by rw [h]; rfl) (fun c => by rw [h]; rfl), Or.inl rfl⟩
  | timeout t h ht =>
    exact ⟨t, _, balanced_goto (by rw [h]; rfl) (fun c => by rw [h]; rfl), Or.inl rfl⟩
  | @pingOk c t h =>
    refine ⟨t, (s.lend t c).goto t .out, balanced_of rfl rfl ?_ ?_ (fun d => ?_) (Or.inl le_rfl)
      (Or.inl le_rfl), Or.inl rfl⟩
    · simp [h]
    · simp
    · simp [h, places, List.count_cons]
  | @pingFail c t h =>
    refine ⟨t, (s.close c).goto t .pingFailed, balanced_of rfl
      (Function.update_eq_self t s.held).symm ?_ ?_ (fun d => ?_) (Or.inl le_rfl) (Or.inl le_rfl),
      Or.inl rfl⟩
    · simp [h]
    · simp
    · simp [h, places, List.count_cons]; omega
  | pingDiscount t h hs =>
    exact ⟨t, _, balanced_discount (by rw [h]; rfl) (fun c => by rw [h]; rfl), Or.inr hs⟩
  | @openOk n t now h =>
    refine ⟨t, ((s.lend t s.fresh).opened now).goto t .out, balanced_of rfl rfl ?_ ?_ (fun d => ?_)
      (Or.inl le_rfl) (Or.inl le_rfl), Or.inl rfl⟩
    · simp [h]
    · simp
    · rcases lt_trichotomy d s.fresh with hd | rfl | hd
      · simp [h, places, born, hd, hd.ne', Nat.lt_succ_of_lt hd]
      · simp [h, places, born]; omega
      · simp [h, places, born, hd.ne, hd.not_gt, Nat.not_lt.mpr hd]
  | @openFail n t h =>
    refine ⟨t, _, balanced_goto ?_ (fun c => ?_), Or.inl rfl⟩
    · rw [h]; split <;> rfl
    · rw [h]; split <;> rfl
  | openDiscount t h hs =>
    exact ⟨t, _, balanced_discount (by rw [h]; rfl) (fun c => by rw [h]; rfl), Or.inr hs⟩
  | @releaseIdle _ p c t nodeOk h hc hp hs =>
    obtain ⟨hb, -⟩ | ⟨-, h1, h2, h3, h4⟩ := releaseLocked_spec hp
    · cases hb
    have hlen := List.length_erase_add_one hc
    refine ⟨t, (s.setPool p).handBack t c, balanced_of (Function.update_eq_self t s.phase).symm rfl
      ?_ ?_ (fun d => ?_) (Or.inl ?_) (Or.inr ⟨?_, h4⟩), Or.inr hs⟩
    · simp [h1, h2, h]; omega
    · simp [h1, h3]; omega
    · have := count_erase_add hc d
      simp [h1, h, places, List.count_cons]; omega
    · simp [h2]
    · simp [h3]
  | @releaseClose _ p c t nodeOk h hc hp hs =>
    obtain ⟨-, h1, h2, h3⟩ | ⟨hb, -⟩ := releaseLocked_spec hp
    swap
    · cases hb
    have hlen := List.length_erase_add_one hc
    refine ⟨t, ((s.setPool p).close c).handBack t c, balanced_of
      (Function.update_eq_self t s.phase).symm rfl ?_ ?_ (fun d => ?_) (Or.inl ?_) (Or.inl ?_),
      Or.inr hs⟩
    · simp [h1, h2, h]; omega
    · simp [h1, h3]
    · have := count_erase_add hc d
      simp [h1, h, places, List.count_cons]; omega
    · simp [h2]
    · simp [h3]

end Step

/-! ## Every reachable state -/

section Reach

variable [Fintype T] {cfg : Config} {s s' : State T}

omit [DecidableEq T] in
theorem accounted_init : Accounted cfg (init : State T) where
  openEq := by simp [init, tally]
  idleEq := rfl
  openLe h := h.le
  idleLe h := h.le
  conns c := by simp [init, tally, places, born]

theorem accounted_balanced {t : T} (h : Accounted cfg s) (hb : Balanced cfg s s' t) :
    Accounted cfg s' where
  openEq := by
    have h1 := tally_move slots t hb.off
    have h2 := h.openEq
    have h3 := hb.slots
    omega
  idleEq := by
    have h1 := h.idleEq
    have h2 := hb.count
    omega
  openLe h0 := by
    have h1 := h.openLe h0
    rcases hb.openLe with h2 | ⟨h2, h3⟩
    · exact h2.trans h1
    · rw [h2]; exact h3 h0
  idleLe h0 := by
    have h1 := h.idleLe h0
    rcases hb.idleLe with h2 | ⟨h2, h3⟩
    · exact h2.trans h1
    · rw [h2]; exact h3 h0
  conns c := by
    have h1 := tally_move (places c) t hb.off
    have h2 := h.conns c
    have h3 := hb.conns c
    omega

theorem accounted_signal (h : Accounted cfg s) (hs : Signal s s') : Accounted cfg s' := by
  obtain ⟨hp, -, hc, hf⟩ := hs.frame
  have h1 : tally slots s' = tally slots s := hs.tally_eq fun _ => rfl
  have h2 : ∀ c, tally (places c) s' = tally (places c) s := fun c =>
    hs.tally_eq fun _ => by simp [places]
  exact ⟨by rw [hp, h1]; exact h.openEq, by rw [hp]; exact h.idleEq, by rw [hp]; exact h.openLe,
    by rw [hp]; exact h.idleLe, fun c => by rw [hp, h2, hc, hf]; exact h.conns c⟩

/-- **The accounting invariant holds along every run.** -/
theorem accounted_of_reachable (h : Reachable cfg OnlyHeld s) : Accounted cfg s := by
  induction h with
  | refl => exact accounted_init
  | tail _ hstep ih =>
    obtain ⟨t, s₁, hb, rfl | hs⟩ := step_balanced hstep
    · exact accounted_balanced ih hb
    · exact accounted_signal (accounted_balanced ih hb) hs

omit [DecidableEq T] in
theorem tally_slots (s : State T) : tally slots s =
    ∑ t, (s.held t).length + ∑ t, pingSlots (s.phase t) + ∑ t, openSlots (s.phase t) := by
  simp only [tally, slots, Finset.sum_add_distrib]

omit [DecidableEq T] in
theorem Accounted.exclusive (h : Accounted cfg s) (c : Conn) :
    s.pool.idle.count c + tally (places c) s + s.closed.count c ≤ 1 := by
  rw [h.conns c, born]
  split <;> omega

omit [DecidableEq T] in
theorem count_le_tally (s : State T) (t : T) (c : Conn) :
    (s.held t).count c ≤ tally (places c) s :=
  (Nat.le_add_right _ _).trans (le_tally (places c) s t)

/-- What the accounting promises about one state. -/
structure Sound (cfg : Config) (s : State T) : Prop where
  /-- `current_open` is the idle, the lent, the pinged and the opened slots together. -/
  openEq : s.pool.currentOpen = s.pool.idle.length + ((∑ t, (s.held t).length +
    ∑ t, pingSlots (s.phase t) + ∑ t, openSlots (s.phase t) : ℕ) : ℤ)
  idleEq : s.pool.idleCount = s.pool.idle.length
  openLe : 0 < cfg.maxOpenConns → s.pool.currentOpen ≤ cfg.maxOpenConns
  idleLe : 0 < cfg.maxIdleConns → s.pool.idleCount ≤ cfg.maxIdleConns
  idleOnce : s.pool.idle.Nodup
  heldOnce : ∀ t, (s.held t).Nodup
  heldByOne : ∀ c t u, c ∈ s.held t → c ∈ s.held u → t = u
  heldNotIdle : ∀ c t, c ∈ s.held t → c ∉ s.pool.idle
  closedGone : ∀ c ∈ s.closed, c ∉ s.pool.idle ∧ ∀ t, c ∉ s.held t

omit [DecidableEq T] in
theorem Accounted.sound (hA : Accounted cfg s) : Sound cfg s := by
  refine ⟨by rw [← tally_slots]; exact hA.openEq, hA.idleEq, hA.openLe, hA.idleLe,
    List.nodup_iff_count_le_one.mpr fun c => ?_,
    fun t => List.nodup_iff_count_le_one.mpr fun c => ?_, fun c t u ht hu => ?_, fun c t ht hi => ?_,
    fun c hc => ⟨fun hi => ?_, fun t ht => ?_⟩⟩
  · have := hA.exclusive c
    omega
  · have h1 := hA.exclusive c
    have h2 := count_le_tally s t c
    omega
  · by_contra hne
    have h1 := hA.exclusive c
    have h2 := add_le_tally (places c) s hne
    have h3 := List.count_pos_iff.mpr ht
    have h4 := List.count_pos_iff.mpr hu
    simp only [places] at h2
    omega
  · have h1 := hA.exclusive c
    have h2 := count_le_tally s t c
    have h3 := List.count_pos_iff.mpr ht
    have h4 := List.count_pos_iff.mpr hi
    omega
  · have h1 := hA.exclusive c
    have h3 := List.count_pos_iff.mpr hc
    have h4 := List.count_pos_iff.mpr hi
    omega
  · have h1 := hA.exclusive c
    have h2 := count_le_tally s t c
    have h3 := List.count_pos_iff.mpr hc
    have h4 := List.count_pos_iff.mpr ht
    omega

/-- **Pool accounting.** Every state of every run of clients that release only a connection they
hold, and only once, is sound. -/
theorem pool_accounting (h : Reachable cfg OnlyHeld s) : Sound cfg s :=
  (accounted_of_reachable h).sound

end Reach

/-- Thread `0` of two threads has opened a connection and released it again. -/
def afterRelease : State (Fin 2) :=
  ((((((init.goto 0 .retry).setPool ⟨1, 0, []⟩).goto 0 (.opening 0)).lend 0 0).opened 7).goto 0
    .out |>.setPool ⟨1, 1, [0]⟩).handBack 0 0

theorem reachable_afterRelease : Reachable ⟨1, 2, 0, 30000⟩ OnlyHeld afterRelease := by
  refine .tail (.tail (.tail (.tail .refl (.call 0 rfl)) (.reserve 0 0 false ?_ rfl))
    (.openOk 0 7 rfl)) (.releaseIdle 0 true rfl ?_ rfl (Or.inr ⟨?_, rfl⟩))
  · exact Entering.retry
  · exact List.mem_singleton.mpr rfl
  · decide

theorem pool_accounting_afterRelease : Sound ⟨1, 2, 0, 30000⟩ afterRelease :=
  pool_accounting reachable_afterRelease

end Corm.Pool
