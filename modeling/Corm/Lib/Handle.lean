import Mathlib.Data.List.Nodup

/-!
# The life of a handle

A log of what happens to handles: each is opened, used any number of times, and closed. The latest
event of a log comes first.

* `Live log h`: the handle `h` is open;
* `Clean log`: only open handles are used or closed, and no handle is opened twice;
* `Clean.count_closed`: in a clean log a handle is closed at most once;
* `Holds log hs`: the live handles are the handles `hs`; **`Holds.opened`**, **`Holds.closed`**,
  **`Holds.openAll`**, **`Holds.closeAll`**: what opening and closing do to them;
* `Staged rank log hs k`: no handle of rank `k` or more has been opened, so that those are new;
* **`Holds.embed`**: a log of handles of one kind, after a log of handles of other kinds.
-/

namespace Handle

/-- What happens to a handle; `A` names the ways of using one. -/
inductive Event (A H : Type)
  | opened (h : H)
  | used (how : A) (h : H)
  | closed (h : H)
  deriving DecidableEq

variable {A H : Type}

/-- The handle `h` was opened and not closed. -/
def Live (log : List (Event A H)) (h : H) : Prop := .opened h ∈ log ∧ .closed h ∉ log

/-- Only live handles are used or closed, and no handle is opened twice. -/
def Clean : List (Event A H) → Prop
  | [] => True
  | .opened h :: log => .opened h ∉ log ∧ Clean log
  | .used _ h :: log => Live log h ∧ Clean log
  | .closed h :: log => Live log h ∧ Clean log

/-- Open the handles `hs`, in order. -/
def openAll : List H → List (Event A H) → List (Event A H)
  | [], log => log
  | h :: hs, log => openAll hs (.opened h :: log)

/-- Close the handles `hs`, in order. -/
def closeAll : List H → List (Event A H) → List (Event A H)
  | [], log => log
  | h :: hs, log => closeAll hs (.closed h :: log)

variable {log : List (Event A H)} {h h' : H} {how : A} {hs hs' : List H}

theorem Clean.opened_of_closed (hc : Clean log) (h : H) (hm : .closed h ∈ log) :
    .opened h ∈ log := by
  induction log with
  | nil => cases hm
  | cons e log ih =>
    rcases e with h' | ⟨_, h'⟩ | h'
    case closed =>
      rcases List.mem_cons.mp hm with heq | hm
      · cases heq
        exact List.mem_cons_of_mem _ hc.1.1
      · exact List.mem_cons_of_mem _ (ih hc.2 hm)
    all_goals
      have hm : .closed h ∈ log := by simpa using hm
      exact List.mem_cons_of_mem _ (ih hc.2 hm)

theorem Clean.count_closed [DecidableEq A] [DecidableEq H] (hc : Clean log) (h : H) :
    log.count (.closed h) ≤ 1 := by
  induction log with
  | nil => simp
  | cons e log ih =>
    have hi : log.count (.closed h) ≤ 1 := by
      rcases e with _ | _ | _ <;> exact ih hc.2
    rw [List.count_cons]
    split
    · rename_i heq
      obtain rfl : e = .closed h := by simpa using heq
      have h0 : log.count (.closed h) = 0 := List.count_eq_zero.mpr hc.1.2
      omega
    · omega

theorem live_opened : Live (.opened h' :: log) h ↔ (h = h' ∨ .opened h ∈ log) ∧ .closed h ∉ log := by
  simp [Live]

theorem live_used : Live (.used how h' :: log) h ↔ Live log h := by
  simp [Live]

theorem live_closed : Live (.closed h' :: log) h ↔ Live log h ∧ h ≠ h' := by
  simp only [Live, List.mem_cons, reduceCtorEq, false_or, Event.closed.injEq, not_or]
  tauto

theorem mem_closeAll_opened : .opened h ∈ closeAll hs log ↔ .opened h ∈ log := by
  induction hs generalizing log with
  | nil => rfl
  | cons h' hs ih =>
    rw [closeAll, ih]
    simp

theorem mem_openAll_opened : .opened h ∈ openAll hs log ↔ h ∈ hs ∨ .opened h ∈ log := by
  induction hs generalizing log with
  | nil => simp [openAll]
  | cons h' hs ih =>
    rw [openAll, ih, List.mem_cons, List.mem_cons, Event.opened.injEq]
    tauto

theorem Clean.of_closeAll (hc : Clean (closeAll hs log)) : Clean log := by
  induction hs generalizing log with
  | nil => exact hc
  | cons h hs ih => exact (ih hc).2

theorem Clean.closeAll_new (hc : Clean (closeAll hs log)) : ∀ h ∈ hs, .closed h ∉ log := by
  induction hs generalizing log with
  | nil => exact nofun
  | cons h hs ih =>
    have hfirst : Clean (.closed h :: log) := Clean.of_closeAll (A := A) hc
    refine List.forall_mem_cons.mpr ⟨hfirst.1.2, fun h' hm hclosed => ?_⟩
    exact ih hc h' hm (List.mem_cons_of_mem _ hclosed)

theorem mem_closeAll_closed : .closed h ∈ closeAll hs log ↔ h ∈ hs ∨ .closed h ∈ log := by
  induction hs generalizing log with
  | nil => simp [closeAll]
  | cons h' hs ih =>
    rw [closeAll, ih, List.mem_cons, List.mem_cons, Event.closed.injEq]
    tauto

/-! ## Who holds the live handles -/

/-- A clean log whose live handles are exactly the handles `hs`, each listed once. -/
structure Holds (log : List (Event A H)) (hs : List H) : Prop where
  clean : Clean log
  nodup : hs.Nodup
  live : ∀ h, Live log h ↔ h ∈ hs

theorem Holds.nil : Holds ([] : List (Event A H)) [] :=
  ⟨trivial, List.nodup_nil, fun h => by simp [Live]⟩

theorem Holds.perm (hh : Holds log hs) (hp : hs'.Perm hs) : Holds log hs' :=
  ⟨hh.clean, hp.nodup_iff.mpr hh.nodup, fun h => (hh.live h).trans hp.mem_iff.symm⟩

theorem Holds.used (hh : Holds log hs) (hm : h ∈ hs) (how : A) : Holds (.used how h :: log) hs :=
  ⟨⟨(hh.live h).mpr hm, hh.clean⟩, hh.nodup, fun h' => live_used.trans (hh.live h')⟩

theorem Holds.opened (hh : Holds log hs) (hnew : .opened h ∉ log) :
    Holds (.opened h :: log) (h :: hs) := by
  have hcl : .closed h ∉ log := fun hm => hnew (hh.clean.opened_of_closed _ hm)
  have hnot : h ∉ hs := fun hm => hnew ((hh.live h).mpr hm).1
  refine ⟨⟨hnew, hh.clean⟩, List.nodup_cons.mpr ⟨hnot, hh.nodup⟩, fun h' => ?_⟩
  rw [live_opened, List.mem_cons, ← hh.live]
  constructor
  · rintro ⟨rfl | hm, hc⟩
    · exact Or.inl rfl
    · exact Or.inr ⟨hm, hc⟩
  · rintro (rfl | ⟨hm, hc⟩)
    · exact ⟨Or.inl rfl, hcl⟩
    · exact ⟨Or.inr hm, hc⟩

theorem Holds.closed (hh : Holds log (h :: hs)) : Holds (.closed h :: log) hs := by
  obtain ⟨hnot, hn⟩ := List.nodup_cons.mp hh.nodup
  refine ⟨⟨(hh.live h).mpr List.mem_cons_self, hh.clean⟩, hn, fun h' => ?_⟩
  rw [live_closed, hh.live, List.mem_cons]
  constructor
  · rintro ⟨rfl | hm, hne⟩
    · exact absurd rfl hne
    · exact hm
  · intro hm
    exact ⟨Or.inr hm, ne_of_mem_of_not_mem hm hnot⟩

/-- **Opening new handles** adds them to the live ones. -/
theorem Holds.openAll (hh : Holds log hs') (hn : hs.Nodup) (hnew : ∀ h ∈ hs, .opened h ∉ log) :
    Holds (openAll hs log) (hs ++ hs') := by
  induction hs generalizing log hs' with
  | nil => exact hh
  | cons h hs ih =>
    obtain ⟨hnot, hn⟩ := List.nodup_cons.mp hn
    obtain ⟨hh', hnew⟩ := List.forall_mem_cons.mp hnew
    refine (ih (hh.opened hh') hn fun h'' hm hopen => ?_).perm List.perm_middle.symm
    rcases List.mem_cons.mp hopen with heq | hopen
    · obtain rfl := Event.opened.inj heq
      exact hnot hm
    · exact hnew h'' hm hopen

/-- **Closing some of the live handles** leaves the others. -/
theorem Holds.closeAll (hh : Holds log (hs ++ hs')) : Holds (closeAll hs log) hs' := by
  induction hs generalizing log with
  | nil => exact hh
  | cons h hs ih => exact ih hh.closed

/-! ## Handles in stages -/

/-- The live handles are the handles `hs`, and every handle ever opened has a rank below `k`. -/
structure Staged (rank : H → ℕ) (log : List (Event A H)) (hs : List H) (k : ℕ) : Prop where
  holds : Holds log hs
  seen : ∀ h, .opened h ∈ log → rank h < k

variable {rank : H → ℕ} {k k' : ℕ}

theorem Staged.nil : Staged rank ([] : List (Event A H)) [] 0 :=
  ⟨Holds.nil, fun _ h => absurd h List.not_mem_nil⟩

theorem Staged.perm (hs' : Staged rank log hs k) {hs₁ : List H} (hp : hs₁.Perm hs) :
    Staged rank log hs₁ k := ⟨hs'.holds.perm hp, hs'.seen⟩

theorem Staged.mono (hst : Staged rank log hs k) (hk : k ≤ k') : Staged rank log hs k' :=
  ⟨hst.holds, fun h hm => Nat.lt_of_lt_of_le (hst.seen h hm) hk⟩

/-- **Opening the handles of one stage**, or some of them. -/
theorem Staged.openAll (hst : Staged rank log hs' k) (hn : hs.Nodup) (hrank : ∀ h ∈ hs, rank h = k) :
    Staged rank (openAll hs log) (hs ++ hs') (k + 1) := by
  refine ⟨hst.holds.openAll hn fun h hm hopen => ?_, fun h hm => ?_⟩
  · exact absurd (hst.seen h hopen) (by rw [hrank h hm]; exact Nat.lt_irrefl k)
  · rcases mem_openAll_opened.mp hm with hm | hm
    · rw [hrank h hm]
      exact Nat.lt_succ_self k
    · exact Nat.lt_succ_of_lt (hst.seen h hm)

/-- **Closing some of the live handles.** -/
theorem Staged.closeAll (hst : Staged rank log (hs ++ hs') k) :
    Staged rank (closeAll hs log) hs' k :=
  ⟨hst.holds.closeAll, fun h hm => hst.seen h (mem_closeAll_opened.mp hm)⟩

/-! ## Handles of several kinds -/

section Embed

variable {G : Type} {f : H → G} {base : List (Event A G)} {gs : List G}

/-- The same event of a handle of another type. -/
def Event.map (f : H → G) : Event A H → Event A G
  | .opened h => .opened (f h)
  | .used how h => .used how (f h)
  | .closed h => .closed (f h)

theorem mem_map_opened (hf : Function.Injective f) :
    .opened (f h) ∈ log.map (Event.map f) ↔ .opened h ∈ log := by
  refine ⟨fun hm => ?_, fun hm => List.mem_map.mpr ⟨_, hm, rfl⟩⟩
  obtain ⟨e, he, heq⟩ := List.mem_map.mp hm
  cases e with
  | opened h' => exact hf (Event.opened.inj heq) ▸ he
  | used how h' => cases heq
  | closed h' => cases heq

theorem mem_map_closed (hf : Function.Injective f) :
    .closed (f h) ∈ log.map (Event.map f) ↔ .closed h ∈ log := by
  refine ⟨fun hm => ?_, fun hm => List.mem_map.mpr ⟨_, hm, rfl⟩⟩
  obtain ⟨e, he, heq⟩ := List.mem_map.mp hm
  cases e with
  | opened h' => cases heq
  | used how h' => cases heq
  | closed h' => exact hf (Event.closed.inj heq) ▸ he

theorem not_mem_map (log : List (Event A H)) {g : G} (hg : ∀ h, f h ≠ g) :
    .opened g ∉ log.map (Event.map f) ∧ .closed g ∉ log.map (Event.map f) := by
  constructor <;> intro hm <;> obtain ⟨e, -, heq⟩ := List.mem_map.mp hm
  · cases e with
    | opened h' => exact hg h' (Event.opened.inj heq)
    | used how h' => cases heq
    | closed h' => cases heq
  · cases e with
    | opened h' => cases heq
    | used how h' => cases heq
    | closed h' => exact hg h' (Event.closed.inj heq)

theorem live_embed (hf : Function.Injective f) (hout : ∀ h, .opened (f h) ∉ base)
    (hb : Clean base) : Live (log.map (Event.map f) ++ base) (f h) ↔ Live log h := by
  have hclosed : .closed (f h) ∉ base := fun hm => hout h (hb.opened_of_closed _ hm)
  simp only [Live, List.mem_append, mem_map_opened hf, mem_map_closed hf, hout h, hclosed, or_false]

theorem Clean.embed (hf : Function.Injective f) (hout : ∀ h, .opened (f h) ∉ base)
    (hb : Clean base) (hc : Clean log) : Clean (log.map (Event.map f) ++ base) := by
  induction log with
  | nil => exact hb
  | cons e log ih =>
    cases e with
    | opened h =>
      refine ⟨fun hm => ?_, ih hc.2⟩
      rcases List.mem_append.mp hm with hm | hm
      · exact hc.1 ((mem_map_opened hf).mp hm)
      · exact hout h hm
    | used how h => exact ⟨(live_embed hf hout hb).mpr hc.1, ih hc.2⟩
    | closed h => exact ⟨(live_embed hf hout hb).mpr hc.1, ih hc.2⟩

/-- **A log after a log of other handles.** -/
theorem Holds.embed (hf : Function.Injective f) (hout : ∀ h, .opened (f h) ∉ base)
    (hb : Holds base gs) (hh : Holds log hs) :
    Holds (log.map (Event.map f) ++ base) (hs.map f ++ gs) := by
  have hgs : ∀ h, f h ∉ gs := fun h hm => hout h ((hb.live _).mpr hm).1
  refine ⟨hb.clean.embed hf hout hh.clean, ?_, fun g => ?_⟩
  · refine List.nodup_append'.mpr ⟨hh.nodup.map hf, hb.nodup, fun g hg hg' => ?_⟩
    obtain ⟨h, -, rfl⟩ := List.mem_map.mp hg
    exact hgs h hg'
  · rw [List.mem_append]
    by_cases hg : ∃ h, f h = g
    · obtain ⟨h, rfl⟩ := hg
      rw [live_embed hf hout hb.clean, hh.live, List.mem_map_of_injective hf]
      exact (or_iff_left (hgs h)).symm
    · have hne : ∀ h, f h ≠ g := fun h heq => hg ⟨h, heq⟩
      obtain ⟨hopen, hclose⟩ := not_mem_map log hne
      have hmap : g ∉ hs.map f := fun hm => by
        obtain ⟨h, -, heq⟩ := List.mem_map.mp hm
        exact hne h heq
      rw [or_iff_right hmap, ← hb.live]
      simp only [Live, List.mem_append, hopen, hclose, false_or]

end Embed

/-- When no handle is live, every handle ever opened has been closed exactly once. -/
theorem Holds.count_closed [DecidableEq A] [DecidableEq H] (hh : Holds log []) (h : H)
    (ho : .opened h ∈ log) : log.count (.closed h) = 1 := by
  have hle := hh.clean.count_closed h
  have hmem : .closed h ∈ log := by
    by_contra hc
    exact List.not_mem_nil ((hh.live h).mp ⟨ho, hc⟩)
  have hpos := List.count_pos_iff.mpr hmem
  omega

end Handle
