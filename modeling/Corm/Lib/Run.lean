/-!
# Runs of a partial step function

* `exec`: the state after a list of actions, if every step is defined;
* `Throughout`, `EachStep`: a property of every state of a run, and of every step of it;
* `EachReached`: a property of every step that is reached, whether it is defined or not;
* `exec_of_inv`: what every step keeps holds after every run;
* **`throughout_iff`**: a property holds throughout a run exactly when every step of it meets a
  condition, once an invariant is kept by the steps that meet it and the others break the property;
* `collected`, **`exec_collects`**: what the steps of a run leave behind;
* `eachStep_congr`: two conditions on the steps of a run;
* `Along`, **`throughout_iff_along`**: the same, for a condition on the run of an abstract machine
  that is always defined, where the steps that do not meet it are undefined.
-/

namespace Run

variable {S A : Type} (step : S → A → Option S)

/-- The state after the actions `as`. -/
def exec : S → List A → Option S
  | s, [] => some s
  | s, a :: as => (step s a).bind fun s' => exec s' as

/-- The run is defined and `P` holds in each of its states, the first and the last included. -/
def Throughout (P : S → Prop) : S → List A → Prop
  | s, [] => P s
  | s, a :: as => P s ∧ ∃ s', step s a = some s' ∧ Throughout P s' as

/-- The run is defined and `Q` holds of each of its steps, taken in the state before it. -/
def EachStep (Q : S → A → Prop) : S → List A → Prop
  | _, [] => True
  | s, a :: as => Q s a ∧ ∃ s', step s a = some s' ∧ EachStep Q s' as

/-- `Q` holds of each step that the run comes to, taken in the state before it. -/
def EachReached (Q : S → A → Prop) : S → List A → Prop
  | _, [] => True
  | s, a :: as => Q s a ∧ ∀ s', step s a = some s' → EachReached Q s' as

variable {step} {Inv P : S → Prop} {Q : S → A → Prop} {s : S}

theorem exec_of_inv {as : List A}
    (hstep : ∀ s, ∀ a ∈ as, Inv s → ∃ s', step s a = some s' ∧ Inv s') (hs : Inv s) :
    ∃ s', exec step s as = some s' ∧ Inv s' := by
  induction as generalizing s with
  | nil => exact ⟨s, rfl, hs⟩
  | cons a as ih =>
    obtain ⟨s₁, e1, h1⟩ := hstep s a List.mem_cons_self hs
    obtain ⟨s₂, e2, h2⟩ := ih (fun s a ha => hstep s a (List.mem_cons_of_mem _ ha)) h1
    exact ⟨s₂, by rw [exec, e1]; exact e2, h2⟩

theorem eachReached_of_forall {as : List A} (h : ∀ a ∈ as, ∀ s, Q s a) (s : S) :
    EachReached step Q s as := by
  induction as generalizing s with
  | nil => trivial
  | cons a as ih =>
    obtain ⟨ha, has⟩ := List.forall_mem_cons.mp h
    exact ⟨ha s, fun s' _ => ih has s'⟩

theorem Throughout.head {as : List A} (h : Throughout step P s as) : P s := by
  cases as with
  | nil => exact h
  | cons a as => exact h.1

/-- **A property holds throughout a run exactly when each step meets the condition `Q`.** -/
theorem throughout_iff (hP : ∀ s, Inv s → P s)
    (good : ∀ s a, Inv s → Q s a → ∃ s', step s a = some s' ∧ Inv s')
    (bad : ∀ s a, Inv s → ¬ Q s a → ∃ s', step s a = some s' ∧ ¬ P s') (hs : Inv s) (as : List A) :
    Throughout step P s as ↔ EachStep step Q s as := by
  induction as generalizing s with
  | nil => exact ⟨fun _ => trivial, fun _ => hP s hs⟩
  | cons a as ih =>
    by_cases hq : Q s a
    · obtain ⟨s₁, e1, h1⟩ := good s a hs hq
      constructor
      · rintro ⟨-, s₂, e2, h2⟩
        obtain rfl : s₁ = s₂ := Option.some.inj (e1.symm.trans e2)
        exact ⟨hq, s₁, e1, (ih h1).mp h2⟩
      · rintro ⟨-, s₂, e2, h2⟩
        obtain rfl : s₁ = s₂ := Option.some.inj (e1.symm.trans e2)
        exact ⟨hP s hs, s₁, e1, (ih h1).mpr h2⟩
    · obtain ⟨s₁, e1, h1⟩ := bad s a hs hq
      constructor
      · rintro ⟨-, s₂, e2, h2⟩
        obtain rfl : s₁ = s₂ := Option.some.inj (e1.symm.trans e2)
        exact absurd h2.head h1
      · intro h
        exact absurd h.1 hq

section Collect

variable {T : Type} {add : S → A → List T} {Has : S → List T → Prop}

variable (step add) in
/-- What the steps of a run leave behind, the last first. -/
def collected : S → List A → List T
  | _, [] => []
  | s, a :: as =>
    match step s a with
    | some s' => collected s' as ++ add s a
    | none => []

theorem collected_cons {s' : S} {a : A} (h : step s a = some s') (as : List A) :
    collected step add s (a :: as) = collected step add s' as ++ add s a := by rw [collected, h]

/-- **What a run leaves behind** is what each of its steps does. -/
theorem exec_collects
    (hstep : ∀ s l a, Has s l → ∃ s', step s a = some s' ∧ Has s' (add s a ++ l)) {l : List T}
    (hs : Has s l) (as : List A) :
    ∃ s', exec step s as = some s' ∧ Has s' (collected step add s as ++ l) := by
  induction as generalizing s l with
  | nil => exact ⟨s, rfl, hs⟩
  | cons a as ih =>
    obtain ⟨s₁, e1, h1⟩ := hstep s l a hs
    obtain ⟨s₂, e2, h2⟩ := ih h1
    refine ⟨s₂, by rw [exec, e1]; exact e2, ?_⟩
    rwa [collected_cons e1, List.append_assoc]

theorem collected_eq_nil_iff (hadd : ∀ s a, add s a = [] ↔ Q s a) {as : List A}
    (hrun : (exec step s as).isSome = true) :
    collected step add s as = [] ↔ EachStep step Q s as := by
  induction as generalizing s with
  | nil => exact iff_of_true rfl trivial
  | cons a as ih =>
    cases e : step s a with
    | none =>
      rw [exec, e] at hrun
      cases hrun
    | some s' =>
      rw [exec, e] at hrun
      rw [collected_cons e, List.append_eq_nil_iff, ih hrun, hadd, and_comm]
      refine and_congr_right fun _ => ⟨fun h => ⟨s', e, h⟩, ?_⟩
      rintro ⟨s₁, e1, h⟩
      rwa [Option.some.inj (e.symm.trans e1)]

end Collect

theorem eachStep_congr {Q' : S → A → Prop}
    (h : ∀ s a s', step s a = some s' → (Q s a ↔ Q' s a)) (s : S) (as : List A) :
    EachStep step Q s as ↔ EachStep step Q' s as := by
  induction as generalizing s with
  | nil => exact Iff.rfl
  | cons a as ih =>
    constructor
    · rintro ⟨hq, s', hs, hrest⟩
      exact ⟨(h s a s' hs).mp hq, s', hs, (ih s').mp hrest⟩
    · rintro ⟨hq, s', hs, hrest⟩
      exact ⟨(h s a s' hs).mpr hq, s', hs, (ih s').mpr hrest⟩

/-! ## Runs of an abstract machine -/

/-- `Q` holds of each action, in the state before it, for a step function that is always defined. -/
def Along {T : Type} (next : T → A → T) (Q : T → A → Prop) : T → List A → Prop
  | _, [] => True
  | t, a :: as => Q t a ∧ Along next Q (next t a) as

/-- **A run that an abstract machine follows**: it is defined, and has the property throughout,
exactly when each action meets `Q` in the abstract state before it. `B` is what every action is
promised to meet. -/
theorem throughout_iff_along {T : Type} {R : S → T → Prop} {next : T → A → T}
    {B Q : T → A → Prop} (hP : ∀ s t, R s t → P s)
    (good : ∀ s t a, R s t → B t a → Q t a → ∃ s', step s a = some s' ∧ R s' (next t a))
    (bad : ∀ s t a, R s t → B t a → ¬ Q t a → step s a = none) {t : T} (hs : R s t) {as : List A}
    (hB : Along next B t as) : Throughout step P s as ↔ Along next Q t as := by
  induction as generalizing s t with
  | nil => exact ⟨fun _ => trivial, fun _ => hP s t hs⟩
  | cons a as ih =>
    obtain ⟨hb, hB⟩ := hB
    by_cases hq : Q t a
    · obtain ⟨s₁, e1, h1⟩ := good s t a hs hb hq
      constructor
      · rintro ⟨-, s₂, e2, h2⟩
        obtain rfl : s₁ = s₂ := Option.some.inj (e1.symm.trans e2)
        exact ⟨hq, (ih h1 hB).mp h2⟩
      · exact fun h => ⟨hP s t hs, s₁, e1, (ih h1 hB).mpr h.2⟩
    · constructor
      · rintro ⟨-, s₂, e2, -⟩
        rw [bad s t a hs hb hq] at e2
        cases e2
      · exact fun h => absurd h.1 hq

end Run
