import Mathlib.Tactic

/-!
# A cycle of waits

Slots on a cycle whose length is the sum of all waits, each slot one wait behind
the slot before it. The first slot is at 0, and its own wait closes the cycle.
-/

namespace Cycle

variable {waits : List ℕ} {k m : ℕ}

def period (waits : List ℕ) : ℕ := waits.sum

def slot (waits : List ℕ) (k : ℕ) : ℕ := (waits.tail.take k).sum

def due (waits : List ℕ) (k j : ℕ) : ℕ := slot waits k + j * period waits

def turn (waits : List ℕ) (m : ℕ) : ℕ := due waits (m % waits.length) (m / waits.length)

@[simp] theorem slot_zero (waits : List ℕ) : slot waits 0 = 0 := by
  unfold slot
  rw [List.take_zero, List.sum_nil]

theorem slot_succ (h : k + 1 < waits.length) :
    slot waits (k + 1) = slot waits k + waits[k + 1] := by
  cases waits with
  | nil => exact absurd h (Nat.not_lt_zero _)
  | cons wait waits =>
    have hk : k < waits.length := Nat.lt_of_succ_lt_succ h
    unfold slot
    rw [List.tail_cons, List.take_add_one, List.sum_append, List.getElem?_eq_getElem hk]
    simp

theorem slot_last (h : 0 < waits.length) :
    slot waits (waits.length - 1) + waits[0] = period waits := by
  cases waits with
  | nil => exact absurd h (Nat.lt_irrefl _)
  | cons wait waits =>
    unfold slot period
    simp [Nat.add_comm]

theorem slot_append (more : List ℕ) (h : k < waits.length) :
    slot (waits ++ more) k = slot waits k := by
  cases waits with
  | nil => exact absurd h (Nat.not_lt_zero _)
  | cons wait waits =>
    unfold slot
    rw [List.cons_append, List.tail_cons, List.tail_cons,
      List.take_append_of_le_length (Nat.lt_succ_iff.1 h)]

theorem slot_concat (wait : ℕ) (h : 0 < waits.length) :
    slot (waits ++ [wait]) waits.length = slot waits (waits.length - 1) + wait := by
  have hlt : waits.length - 1 + 1 < (waits ++ [wait]).length := by
    rw [List.length_append, List.length_singleton]
    omega
  have hsucc := slot_succ hlt
  have hkept : slot (waits ++ [wait]) (waits.length - 1) = slot waits (waits.length - 1) :=
    slot_append [wait] (by omega)
  rw [hkept] at hsucc
  simpa [Nat.sub_add_cancel h] using hsucc

variable (hpos : ∀ wait ∈ waits, 0 < wait)
include hpos

theorem slot_lt_succ (h : k + 1 < waits.length) : slot waits k < slot waits (k + 1) := by
  have hwait := hpos _ (List.getElem_mem h)
  rw [slot_succ h]
  omega

theorem slot_lt (h : k < m) (hm : m < waits.length) : slot waits k < slot waits m := by
  induction m with
  | zero => exact absurd h (Nat.not_lt_zero k)
  | succ m ih =>
    have hstep := slot_lt_succ hpos hm
    rcases Nat.lt_succ_iff_lt_or_eq.1 h with hlt | rfl
    · exact (ih hlt (by omega)).trans hstep
    · exact hstep

theorem slot_lt_period (h : k < waits.length) : slot waits k < period waits := by
  have hclose : slot waits (waits.length - 1) + waits[0] = period waits := slot_last (by omega)
  have hwait : 0 < waits[0] := hpos _ (List.getElem_mem (by omega))
  rcases Nat.lt_or_eq_of_le (Nat.le_sub_one_of_lt h) with hlt | heq
  · have := slot_lt hpos hlt (by omega)
    omega
  · rw [heq]
    omega

theorem slot_mod_inj (hk : k < waits.length) (hm : m < waits.length)
    (h : slot waits k % period waits = slot waits m % period waits) : k = m := by
  rw [Nat.mod_eq_of_lt (slot_lt_period hpos hk), Nat.mod_eq_of_lt (slot_lt_period hpos hm)] at h
  rcases Nat.lt_trichotomy k m with hlt | heq | hlt
  · exact absurd h (slot_lt hpos hlt hm).ne
  · exact heq
  · exact absurd h (slot_lt hpos hlt hk).ne'

/-- A stretch of one cycle holds exactly one time of each slot. -/
theorem due_once (h : k < waits.length) (start : ℕ) :
    ∃! j, start ≤ due waits k j ∧ due waits k j < start + period waits := by
  have hslot := slot_lt_period hpos h
  set length := period waits
  have hlength : 0 < length := by omega
  -- the first time of the slot that is not before the stretch
  have hceil : ∃ j, start ≤ slot waits k + j * length ∧
      slot waits k + j * length < start + length := by
    rcases Nat.le_total start (slot waits k) with hle | hle
    · exact ⟨0, by omega, by omega⟩
    · refine ⟨(start - slot waits k + (length - 1)) / length, ?_, ?_⟩
      · have := Nat.lt_div_mul_add (a := start - slot waits k + (length - 1)) hlength
        omega
      · have := Nat.div_mul_le_self (start - slot waits k + (length - 1)) length
        omega
  obtain ⟨j, hj⟩ := hceil
  refine ⟨j, hj, ?_⟩
  rintro j' ⟨hstart, hend⟩
  change start ≤ slot waits k + j' * length at hstart
  change slot waits k + j' * length < start + length at hend
  rcases Nat.lt_trichotomy j' j with hlt | heq | hlt
  · have := Nat.mul_le_mul_right length hlt
    rw [Nat.succ_mul] at this
    omega
  · exact heq
  · have := Nat.mul_le_mul_right length hlt
    rw [Nat.succ_mul] at this
    omega

omit hpos in
theorem turn_succ (h : 0 < waits.length) (m : ℕ) :
    turn waits (m + 1) =
      turn waits m + waits.get ⟨(m + 1) % waits.length, Nat.mod_lt _ h⟩ := by
  unfold turn due
  have hdiv := Nat.div_add_mod m waits.length
  have hmod := Nat.mod_lt m h
  generalize m / waits.length = cycle at hdiv ⊢
  generalize m % waits.length = k at hdiv hmod ⊢
  have hm : m + 1 = waits.length * cycle + (k + 1) := by omega
  rw [hm]
  rcases (Nat.lt_or_eq_of_le hmod : k + 1 < waits.length ∨ k + 1 = waits.length) with hlt | hlast
  · have hnext : (waits.length * cycle + (k + 1)) % waits.length = k + 1 := by
      rw [Nat.mul_add_mod, Nat.mod_eq_of_lt hlt]
    have hcycle : (waits.length * cycle + (k + 1)) / waits.length = cycle := by
      rw [Nat.mul_add_div h, Nat.div_eq_of_lt hlt, Nat.add_zero]
    simp only [hnext, hcycle, List.get_eq_getElem]
    rw [slot_succ hlt]
    omega
  · have hnext : (waits.length * cycle + (k + 1)) % waits.length = 0 := by
      rw [hlast, Nat.mul_add_mod, Nat.mod_self]
    have hcycle : (waits.length * cycle + (k + 1)) / waits.length = cycle + 1 := by
      rw [hlast, Nat.mul_add_div h, Nat.div_self h]
    have hclose := slot_last h
    have hk : waits.length - 1 = k := by omega
    rw [hk] at hclose
    simp only [hnext, hcycle, List.get_eq_getElem, slot_zero]
    rw [Nat.succ_mul]
    omega

end Cycle
