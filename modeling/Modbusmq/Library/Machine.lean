import Mathlib.Tactic

/-!
# Machines

A machine is a step function on states. A run is a list of actions, and a condition can
be asked of every action of a run in the state it is taken in.
-/

namespace Machine

variable {σ α : Type*} (step : σ → α → σ)

def run (actions : List α) (s : σ) : σ := actions.foldl step s

/-- A condition on every action of a run. -/
def Along (Q : σ → α → Prop) : List α → σ → Prop
  | [], _ => True
  | a :: actions, s => Q s a ∧ Along Q actions (step s a)

instance Along.decidable {Q : σ → α → Prop} [∀ s a, Decidable (Q s a)] :
    ∀ (actions : List α) (s : σ), Decidable (Along step Q actions s)
  | [], _ => isTrue trivial
  | a :: actions, s =>
    have := Along.decidable (Q := Q) actions (step s a)
    inferInstanceAs (Decidable (_ ∧ _))

variable {step} {Q R : σ → α → Prop} {I : σ → Prop} {actions before after : List α} {s : σ}

@[simp] theorem run_nil : run step [] s = s := rfl

@[simp] theorem run_cons (a : α) : run step (a :: actions) s = run step actions (step s a) := rfl

theorem run_append : run step (before ++ after) s = run step after (run step before s) :=
  List.foldl_append

theorem Along.keeps (h : Along step Q actions s) (hstep : ∀ s a, I s → Q s a → I (step s a))
    (hs : I s) : I (run step actions s) := by
  induction actions generalizing s with
  | nil => exact hs
  | cons a actions ih => exact ih h.2 (hstep s a hs h.1)

theorem run_keeps (hstep : ∀ s a, I s → I (step s a)) (hs : I s) : I (run step actions s) := by
  induction actions generalizing s with
  | nil => exact hs
  | cons a actions ih => exact ih (hstep s a hs)

theorem along_of_forall (h : ∀ a ∈ actions, ∀ s, Q s a) : Along step Q actions s := by
  induction actions generalizing s with
  | nil => trivial
  | cons a actions ih =>
    exact ⟨h a List.mem_cons_self s, ih fun b hb => h b (List.mem_cons_of_mem a hb)⟩

end Machine
