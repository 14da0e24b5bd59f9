import Corm.Lib.Run

/-!
# Refinement of machines with outputs

* `outputs`, `final`: what a machine answers to a list of actions, and where it ends;
* `Runs`: the runs of a specification, which may answer in several ways;
* **`refines`**: a machine whose steps are steps of the specification gives no answers that the
  specification does not give, over runs of any length;
* **`outputs_eq`**: two machines that answer alike step by step.
-/

namespace Refine

variable {S T A O : Type} (step : S → A → O × S) (spec : T → A → O → T → Prop)

/-- The outputs of a machine, one for each action. -/
def outputs : S → List A → List O
  | _, [] => []
  | s, a :: as => (step s a).1 :: outputs (step s a).2 as

/-- The state after all actions. -/
def final : S → List A → S
  | s, [] => s
  | s, a :: as => final (step s a).2 as

/-- A run of the specification, with its outputs. -/
inductive Runs : T → List A → List O → T → Prop
  | nil (t : T) : Runs t [] [] t
  | cons {t t' t'' : T} {a : A} {as : List A} {o : O} {os : List O} :
    spec t a o t' → Runs t' as os t'' → Runs t (a :: as) (o :: os) t''

variable {step spec}

/-- **Forward simulation.** `B` is what each action is promised to meet, in the state before it. -/
theorem refines {R : S → T → Prop} {B : S → A → Prop}
    (hstep : ∀ s t a, B s a → R s t → ∃ t', spec t a (step s a).1 t' ∧ R (step s a).2 t')
    {as : List A} {s : S} {t : T} (has : Run.Along (fun s a => (step s a).2) B s as) (h : R s t) :
    ∃ t', Runs spec t as (outputs step s as) t' ∧ R (final step s as) t' := by
  induction as generalizing s t with
  | nil => exact ⟨t, .nil t, h⟩
  | cons a as ih =>
    obtain ⟨ha, has⟩ := has
    obtain ⟨t₁, hspec, h₁⟩ := hstep s t a ha h
    obtain ⟨t₂, hruns, h₂⟩ := ih has h₁
    exact ⟨t₂, .cons hspec hruns, h₂⟩

/-- **Bisimulation** of two machines, which give the same answers to every list of actions. -/
theorem outputs_eq {step' : T → A → O × T} {R : S → T → Prop}
    (hstep : ∀ s t a, R s t → (step s a).1 = (step' t a).1 ∧ R (step s a).2 (step' t a).2)
    {s : S} {t : T} (h : R s t) (as : List A) :
    outputs step s as = outputs step' t as ∧ R (final step s as) (final step' t as) := by
  induction as generalizing s t with
  | nil => exact ⟨rfl, h⟩
  | cons a as ih =>
    obtain ⟨hout, hnext⟩ := hstep s t a h
    obtain ⟨houts, hfinal⟩ := ih hnext
    exact ⟨by rw [outputs, outputs, hout, houts], hfinal⟩

end Refine
