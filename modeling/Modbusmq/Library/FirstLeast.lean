import Mathlib.Tactic

/-!
# The first least element of a row

A scan that keeps the index of the least element so far, and moves on to a later one only
if that is strictly less.
-/

def firstLeast {α : Type*} [LT α] [DecidableLT α] (f : ℕ → α) (n : ℕ) : ℕ :=
  (List.range n).foldl (fun best i => if f i < f best then i else best) 0

namespace FirstLeast

theorem firstLeast_comp {α β : Type*} [LT α] [DecidableLT α] [LT β] [DecidableLT β] {m : α → β}
    (hm : ∀ a b, a < b ↔ m a < m b) (f : ℕ → α) (n : ℕ) :
    firstLeast f n = firstLeast (m ∘ f) n := by
  unfold firstLeast
  simp only [Function.comp_apply, hm]

variable {α : Type*} [LinearOrder α] {f : ℕ → α} {n : ℕ}

theorem firstLeast_succ (f : ℕ → α) (n : ℕ) : firstLeast f (n + 1) =
    if f n < f (firstLeast f n) then n else firstLeast f n := by
  unfold firstLeast
  rw [List.range_succ, List.foldl_append]
  rfl

/-- What the scan has found in a row that is not empty. -/
structure Found (f : ℕ → α) (n best : ℕ) : Prop where
  inside : best < n
  least : ∀ i < n, f best ≤ f i
  first : ∀ i < best, f best < f i

theorem firstLeast_found (hn : 0 < n) : Found f n (firstLeast f n) := by
  induction n with
  | zero => exact absurd hn (Nat.lt_irrefl 0)
  | succ n ih =>
    rw [firstLeast_succ]
    rcases Nat.eq_zero_or_pos n with rfl | hpos
    · have hzero : firstLeast f 0 = 0 := rfl
      rw [hzero, ite_self]
      refine ⟨Nat.one_pos, fun i hi => ?_, fun i hi => absurd hi (Nat.not_lt_zero i)⟩
      rw [Nat.lt_one_iff.1 hi]
    · have hfound := ih hpos
      split_ifs with hless
      · refine ⟨Nat.lt_succ_self n, fun i hi => ?_, fun i hi => hless.trans_le (hfound.least i hi)⟩
        rcases Nat.lt_succ_iff_lt_or_eq.1 hi with hi | rfl
        · exact (hless.trans_le (hfound.least i hi)).le
        · exact le_rfl
      · refine ⟨hfound.inside.trans (Nat.lt_succ_self n), fun i hi => ?_, hfound.first⟩
        rcases Nat.lt_succ_iff_lt_or_eq.1 hi with hi | rfl
        · exact hfound.least i hi
        · exact not_lt.1 hless

end FirstLeast
