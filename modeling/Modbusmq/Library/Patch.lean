import Mathlib.Data.List.GetD
import Mathlib.Tactic

/-!
# Patches

A buffer that is written piece by piece. A cell that no piece covers keeps its
contents, and a cell that one piece covers alone gets them from it.
-/

/-- A run of cells to be written from `start` on. -/
structure Patch (α : Type*) where
  start : ℕ
  cells : List α

namespace Patch

variable {α : Type*} {f : ℕ → α} {p : Patch α} {ps : List (Patch α)} {i : ℕ}

def Covers (p : Patch α) (i : ℕ) : Prop := p.start ≤ i ∧ i < p.start + p.cells.length

instance (p : Patch α) (i : ℕ) : Decidable (p.Covers i) := inferInstanceAs (Decidable (_ ∧ _))

def apply (f : ℕ → α) (p : Patch α) (i : ℕ) : α :=
  if p.start ≤ i then p.cells.getD (i - p.start) (f i) else f i

def applyAll (f : ℕ → α) (ps : List (Patch α)) : ℕ → α := ps.foldl apply f

theorem apply_outside (h : ¬ p.Covers i) : apply f p i = f i := by
  unfold apply
  split_ifs with hstart
  · exact List.getD_eq_default _ _ (by unfold Covers at h; omega)
  · rfl

theorem apply_inside (h : p.Covers i) (d : α) : apply f p i = p.cells.getD (i - p.start) d := by
  obtain ⟨hstart, hend⟩ := h
  unfold apply
  rw [if_pos hstart, List.getD_eq_getElem _ _ (by omega), List.getD_eq_getElem _ _ (by omega)]

theorem applyAll_outside (h : ∀ p ∈ ps, ¬ p.Covers i) : applyAll f ps i = f i := by
  unfold applyAll
  induction ps generalizing f with
  | nil => rfl
  | cons p ps ih =>
    rw [List.foldl_cons, ih fun q hq => h q (List.mem_cons_of_mem _ hq)]
    exact apply_outside (h p (List.mem_cons_self ..))

theorem applyAll_inside (hp : p ∈ ps) (hcovers : p.Covers i)
    (halone : ∀ q ∈ ps, q.Covers i → q = p) (d : α) :
    applyAll f ps i = p.cells.getD (i - p.start) d := by
  unfold applyAll
  induction ps generalizing f with
  | nil => exact absurd hp List.not_mem_nil
  | cons q ps ih =>
    rw [List.foldl_cons]
    by_cases hrest : p ∈ ps
    · exact ih hrest fun r hr => halone r (List.mem_cons_of_mem _ hr)
    · have hq : q = p := ((List.mem_cons.1 hp).resolve_right hrest).symm
      have houtside : ∀ r ∈ ps, ¬ r.Covers i := by
        intro r hr hcover
        rw [halone r (List.mem_cons_of_mem _ hr) hcover] at hr
        exact hrest hr
      have hkeep : applyAll (apply f q) ps i = apply f q i := applyAll_outside houtside
      rw [hq] at hkeep ⊢
      exact hkeep.trans (apply_inside hcovers d)

end Patch
