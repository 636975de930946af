import Mathlib.Data.List.DropRight
import Mathlib.Tactic

/-!
# Trimming

A list without the elements of a kind at its two ends.
-/

namespace Trim

variable {α : Type*} {p : α → Bool} {l : List α}

/-- Drop the elements that satisfy `p` at both ends. -/
def trim (p : α → Bool) (l : List α) : List α := (l.dropWhile p).rdropWhile p

/-- Neither the first nor the last element satisfies `p`. -/
structure Trimmed (p : α → Bool) (l : List α) : Prop where
  head : ∀ a ∈ l.head?, ¬ p a
  last : ∀ a ∈ l.getLast?, ¬ p a

theorem trim_trimmed (p : α → Bool) (l : List α) : Trimmed p (trim p l) where
  head := by
    intro a ha
    obtain ⟨rest, hrest⟩ := List.rdropWhile_prefix p (l.dropWhile p)
    have hhead : (l.dropWhile p).head? = some a := by
      rw [← hrest, List.head?_append]
      unfold trim at ha
      rw [Option.mem_def.1 ha]
      rfl
    have hnot := List.head?_dropWhile_not p l
    rw [hhead] at hnot
    simpa using hnot
  last := by
    intro a ha
    unfold trim at ha
    have hne : (l.dropWhile p).rdropWhile p ≠ [] := by
      intro hnil
      rw [hnil] at ha
      exact absurd ha (by simp)
    rw [List.getLast?_eq_some_getLast hne] at ha
    rw [← Option.some.inj ha]
    exact List.rdropWhile_last_not p _ hne

theorem Trimmed.trim_eq (h : Trimmed p l) : trim p l = l := by
  have hfirst : l.dropWhile p = l := by
    rw [List.dropWhile_eq_self_iff]
    intro hl
    exact h.head _ (by simp [List.head?_eq_getElem?])
  unfold trim
  rw [hfirst, List.rdropWhile_eq_self_iff]
  intro hl
  exact h.last _ (List.getLast?_eq_some_getLast hl)

theorem trim_subset (p : α → Bool) (l : List α) : trim p l ⊆ l := by
  apply List.Subset.trans (List.rdropWhile_prefix p _).subset
  exact List.dropWhile_subset p

theorem trim_length (p : α → Bool) (l : List α) : (trim p l).length ≤ l.length :=
  (List.rdropWhile_prefix p _).length_le.trans (List.dropWhile_suffix p).length_le

theorem trim_split (p : α → Bool) (l : List α) :
    ∃ before after, l = before ++ trim p l ++ after ∧ (∀ a ∈ before, p a) ∧ ∀ a ∈ after, p a := by
  refine ⟨l.takeWhile p, (l.dropWhile p).rtakeWhile p, ?_, ?_, ?_⟩
  · rw [List.append_assoc, trim, List.rdropWhile_append_rtakeWhile, List.takeWhile_append_dropWhile]
  · exact fun a ha => List.mem_takeWhile_imp ha
  · exact fun a ha => List.mem_rtakeWhile_imp ha

end Trim
