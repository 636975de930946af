import Mathlib.Tactic

/-!
# Pacing

Something is done each time it has become due, and the due times are a period
apart. If it is never done more than a period late, no window of time holds more
than two of them beyond the periods that fit into the window.
-/

namespace Pacing

variable {period : ℕ}

/-- Times that are a period apart fill the time between the bounds. -/
theorem length_mul_le {times : List ℕ} {lo hi : ℕ}
    (hspaced : times.Pairwise fun x y => x + period ≤ y) (hlo : ∀ x ∈ times, lo ≤ x)
    (hhi : ∀ x ∈ times, x ≤ hi) : times.length * period ≤ hi - lo + period := by
  induction times generalizing lo with
  | nil => simp
  | cons x times ih =>
    obtain ⟨hfirst, hrest⟩ := List.pairwise_cons.1 hspaced
    have hx := hlo x (List.mem_cons_self ..)
    have hnext : ∀ y ∈ times, lo + period ≤ y := fun y hy => by
      have hy := hfirst y hy
      omega
    have hlength := ih hrest hnext fun y hy => hhi y (List.mem_cons_of_mem _ hy)
    rw [List.length_cons, Nat.succ_mul]
    cases times with
    | nil => simp
    | cons y times =>
      have hy := hnext y (List.mem_cons_self ..)
      have hy' := hhi y (List.mem_cons_of_mem _ (List.mem_cons_self ..))
      omega

/-- What is done in time: each entry has the time it became due and the time it was done. -/
structure InTime (period : ℕ) (done : List (ℕ × ℕ)) : Prop where
  spaced : done.Pairwise fun x y => x.1 + period ≤ y.1
  due : ∀ x ∈ done, x.1 ≤ x.2
  soon : ∀ x ∈ done, x.2 ≤ x.1 + period

theorem InTime.nil : InTime period [] := ⟨.nil, nofun, nofun⟩

theorem InTime.append {done : List (ℕ × ℕ)} (h : InTime period done) {due now : ℕ}
    (hafter : ∀ x ∈ done, x.1 + period ≤ due) (hdue : due ≤ now) (hsoon : now ≤ due + period) :
    InTime period (done ++ [(due, now)]) where
  spaced := List.pairwise_append.2 ⟨h.spaced, List.pairwise_singleton ..,
    fun x hx _ hy => List.mem_singleton.1 hy ▸ hafter x hx⟩
  due x hx := (List.mem_append.1 hx).elim (h.due x) fun hx => List.mem_singleton.1 hx ▸ hdue
  soon x hx := (List.mem_append.1 hx).elim (h.soon x) fun hx => List.mem_singleton.1 hx ▸ hsoon

theorem InTime.length_window_le {done : List (ℕ × ℕ)} (h : InTime period done)
    (hperiod : 0 < period) (start width : ℕ) :
    ((done.map Prod.snd).filter fun t => start ≤ t ∧ t ≤ start + width).length ≤
      width / period + 2 := by
  rw [List.filter_map, List.length_map]
  set inside := done.filter ((fun t => decide (start ≤ t ∧ t ≤ start + width)) ∘ Prod.snd)
  have hinside : ∀ x ∈ inside, x ∈ done ∧ start ≤ x.2 ∧ x.2 ≤ start + width := by
    intro x hx
    obtain ⟨hmem, htest⟩ := List.mem_filter.1 hx
    exact ⟨hmem, of_decide_eq_true htest⟩
  have hspaced : (inside.map Prod.fst).Pairwise fun x y => x + period ≤ y :=
    List.pairwise_map.2 (h.spaced.sublist List.filter_sublist)
  have hlo : ∀ x ∈ inside.map Prod.fst, start - period ≤ x := by
    intro due hdue
    obtain ⟨x, hx, rfl⟩ := List.mem_map.1 hdue
    have hsoon := h.soon x (hinside x hx).1
    have hstart := (hinside x hx).2.1
    omega
  have hhi : ∀ x ∈ inside.map Prod.fst, x ≤ start + width := by
    intro due hdue
    obtain ⟨x, hx, rfl⟩ := List.mem_map.1 hdue
    exact (h.due x (hinside x hx).1).trans (hinside x hx).2.2
  have hlength := length_mul_le hspaced hlo hhi
  rw [List.length_map] at hlength
  have hfit : (inside.length - 2) * period ≤ width := by
    rw [Nat.sub_mul]
    omega
  have hdiv := (Nat.le_div_iff_mul_le hperiod).2 hfit
  omega

end Pacing
