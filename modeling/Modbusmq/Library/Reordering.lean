import Mathlib.Tactic

/-!
# Reordering a run

A run of updates that may fail comes out the same in another order, as long as
the updates that change places commute.
-/

namespace Reordering

variable {S A : Type*}

/-- Two updates that may fail come out the same in either order. -/
def Commute (f g : S → Option S) : Prop := ∀ s, (f s).bind g = (g s).bind f

theorem Commute.symm {f g : S → Option S} (h : Commute f g) : Commute g f := fun s => (h s).symm

theorem commute_some (f : S → Option S) : Commute some f := fun s => by simp

/-- Do one update after another, as long as none fails. -/
def run (step : A → S → Option S) : List A → S → Option S
  | [], s => some s
  | a :: rest, s => (step a s).bind (run step rest)

variable {step : A → S → Option S}

theorem run_append (actions more : List A) (s : S) :
    run step (actions ++ more) s = (run step actions s).bind (run step more) := by
  induction actions generalizing s with
  | nil => rfl
  | cons a rest ih =>
    have hrest : run step (rest ++ more) = fun s => (run step rest s).bind (run step more) :=
      funext ih
    rw [List.cons_append, run, run, hrest, Option.bind_assoc]

theorem run_congr {step' : A → S → Option S} {actions : List A}
    (h : ∀ a ∈ actions, step a = step' a) : run step actions = run step' actions := by
  induction actions with
  | nil => rfl
  | cons a rest ih =>
    funext s
    rw [run, run, h a List.mem_cons_self, ih fun b hb => h b (List.mem_cons_of_mem _ hb)]

theorem run_map {B : Type*} (f : B → A) (actions : List B) :
    run step (actions.map f) = run (fun b => step (f b)) actions := by
  induction actions with
  | nil => rfl
  | cons b rest ih =>
    funext s
    rw [List.map_cons, run, run, ih]

/-- An update that commutes with those in front of it may as well come first. -/
theorem run_bubble {a : A} {before : List A} (after : List A)
    (h : ∀ b ∈ before, Commute (step b) (step a)) (s : S) :
    run step (before ++ a :: after) s = run step (a :: (before ++ after)) s := by
  induction before generalizing s with
  | nil => rfl
  | cons b before ih =>
    have hrest : run step (before ++ a :: after) =
        fun s => (step a s).bind (run step (before ++ after)) := by
      funext s
      exact ih (fun b hb => h b (List.mem_cons_of_mem _ hb)) s
    calc run step (b :: (before ++ a :: after)) s
        = (step b s).bind (run step (before ++ a :: after)) := rfl
      _ = ((step b s).bind (step a)).bind (run step (before ++ after)) := by
        rw [hrest, Option.bind_assoc]
      _ = ((step a s).bind (step b)).bind (run step (before ++ after)) := by
        rw [h b List.mem_cons_self s]
      _ = run step (a :: b :: (before ++ after)) s := by
        rw [Option.bind_assoc]
        rfl

/-- Two orders of the same updates come out the same if those that change places commute. -/
theorem run_reordered {actions actions' : List A} (hperm : actions.Perm actions')
    (hswap : ∀ a b, [a, b].Sublist actions → [b, a].Sublist actions' →
      Commute (step a) (step b)) (s : S) :
    run step actions s = run step actions' s := by
  induction actions' generalizing actions s with
  | nil => rw [List.perm_nil.1 hperm]
  | cons a rest ih =>
    obtain ⟨before, after, rfl⟩ :=
      List.append_of_mem (hperm.mem_iff.2 (List.mem_cons_self (a := a) (l := rest)))
    have hrest : (before ++ after).Perm rest :=
      (List.perm_cons a).1 (List.perm_middle.symm.trans hperm)
    have hcommute : ∀ b ∈ before, Commute (step b) (step a) := by
      intro b hb
      refine hswap b a ?_ ?_
      · exact (List.singleton_sublist.2 hb).append (List.singleton_sublist.2 List.mem_cons_self)
      · exact (List.singleton_sublist.2 (hrest.subset (List.mem_append_left _ hb))).cons_cons a
    have hkept : (before ++ after).Sublist (before ++ a :: after) :=
      (List.sublist_cons_self a after).append_left before
    have htail : ∀ s, run step (before ++ after) s = run step rest s :=
      ih hrest fun x y hxy hyx => hswap x y (hxy.trans hkept) (hyx.cons a)
    rw [run_bubble after hcommute]
    exact congrArg (step a s).bind (funext htail)

end Reordering
