import Mathlib.Tactic

/-!
# Packed bits

Bits laid eight to a byte, the lowest first. Setting some leaves the others.
-/

namespace PackedBits

variable {f : ℕ → UInt8} {i j : ℕ} {bits : List ℕ}

def get (f : ℕ → UInt8) (i : ℕ) : Bool := (f (i / 8)).toNat.testBit (i % 8)

def set (f : ℕ → UInt8) (i : ℕ) : ℕ → UInt8 :=
  Function.update f (i / 8) (f (i / 8) ||| UInt8.ofNat (1 <<< (i % 8)))

theorem mask_toNat (i : ℕ) : (UInt8.ofNat (1 <<< (i % 8))).toNat = 2 ^ (i % 8) := by
  have hlt : 2 ^ (i % 8) < 2 ^ 8 := Nat.pow_lt_pow_right (by decide) (Nat.mod_lt _ (by decide))
  rw [UInt8.toNat_ofNat', Nat.one_shiftLeft, Nat.mod_eq_of_lt hlt]

theorem get_set : get (set f i) j = (get f j || decide (j = i)) := by
  unfold get set
  by_cases hbyte : j / 8 = i / 8
  · have hbit : i % 8 = j % 8 ↔ j = i := by omega
    rw [hbyte, Function.update_self, UInt8.toNat_or, Nat.testBit_or, mask_toNat,
      Nat.testBit_two_pow, decide_eq_decide.2 hbit]
  · have hne : j ≠ i := fun h => hbyte (h ▸ rfl)
    rw [Function.update_of_ne hbyte, decide_eq_false hne, Bool.or_false]

/-- After some bits were set, exactly these and the old ones are. -/
theorem get_foldl_set : get (bits.foldl set f) j = (get f j || decide (j ∈ bits)) := by
  induction bits generalizing f with
  | nil => simp
  | cons i bits ih =>
    rw [List.foldl_cons, ih, get_set, Bool.or_assoc, ← Bool.decide_or,
      decide_eq_decide.2 List.mem_cons.symm]

theorem shift_and_one (i : ℕ) : (f (i / 8)).toNat >>> (i % 8) &&& 1 = (get f i).toNat := by
  rw [get, Nat.testBit, Nat.and_comm 1, Nat.and_one_is_mod]
  rcases Nat.mod_two_eq_zero_or_one ((f (i / 8)).toNat >>> (i % 8)) with h | h <;> simp [h]

end PackedBits
