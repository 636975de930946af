import Mathlib.Data.List.GetD
import Mathlib.Tactic

/-!
# Shift registers

A register of `n` bits that a row of bits is fed into, the lowest first: the bit is
added to the lowest place, everything moves down by one, and what drops out is
folded back as `poly`. All of this is linear in exclusive or. Where the top bit of
`poly` is set no step loses anything, so a register is emptied by one row of at
most `n` bits only: its own.
-/

namespace ShiftRegister

variable {n : ℕ} (poly : BitVec n)

def shift (s : BitVec n) : BitVec n := if s.getLsbD 0 then s >>> 1 ^^^ poly else s >>> 1

def bit (n : ℕ) (b : Bool) : BitVec n := if b then 1#n else 0#n

def feed (bits : List Bool) (s : BitVec n) : BitVec n :=
  bits.foldl (fun s b => shift poly (s ^^^ bit n b)) s

def word (n : ℕ) : List Bool → BitVec n
  | [] => 0#n
  | b :: bits => bit n b ^^^ word n bits <<< 1

@[simp] theorem feed_nil (s : BitVec n) : feed poly [] s = s := rfl

@[simp] theorem feed_cons (b : Bool) (bits : List Bool) (s : BitVec n) :
    feed poly (b :: bits) s = feed poly bits (shift poly (s ^^^ bit n b)) := rfl

theorem feed_append (xs ys : List Bool) (s : BitVec n) :
    feed poly (xs ++ ys) s = feed poly ys (feed poly xs s) := List.foldl_append

@[simp] theorem bit_getLsbD (b : Bool) (i : ℕ) :
    (bit n b).getLsbD i = (b && decide (i = 0) && decide (0 < n)) := by
  cases b <;> cases i <;> simp [bit, BitVec.getLsbD_one]

theorem bit_xor (a b : Bool) : bit n (a ^^ b) = bit n a ^^^ bit n b := by
  cases a <;> cases b <;> simp [bit]

theorem word_getLsbD (bits : List Bool) (i : ℕ) :
    (word n bits).getLsbD i = (decide (i < n) && bits.getD i false) := by
  induction bits generalizing i with
  | nil => simp [word]
  | cons b bits ih =>
    rw [word, BitVec.getLsbD_xor, bit_getLsbD, BitVec.getLsbD_shiftLeft]
    cases i with
    | zero => simp [Bool.and_comm]
    | succ i =>
      rw [Nat.add_sub_cancel, ih, List.getD_cons_succ]
      by_cases hi : i + 1 < n
      · simp [hi, Nat.lt_of_succ_lt hi]
      · simp [hi]

theorem shift_xor (s t : BitVec n) : shift poly (s ^^^ t) = shift poly s ^^^ shift poly t := by
  unfold shift
  rw [BitVec.getLsbD_xor, BitVec.ushiftRight_xor_distrib]
  cases s.getLsbD 0 <;> cases t.getLsbD 0
  · simp
  · simp [BitVec.xor_assoc]
  · simp [BitVec.xor_assoc, BitVec.xor_comm poly]
  · have htwice : s >>> 1 ^^^ poly ^^^ (t >>> 1 ^^^ poly) =
        s >>> 1 ^^^ t >>> 1 ^^^ (poly ^^^ poly) := by
      ac_rfl
    simp [htwice]

@[simp] theorem shift_zero : shift poly 0#n = 0#n := by simp [shift]

/-- Two rows fed at once: the registers add up as the rows do. -/
theorem feed_xor {xs ys : List Bool} (h : xs.length = ys.length) (s t : BitVec n) :
    feed poly (List.zipWith xor xs ys) (s ^^^ t) = feed poly xs s ^^^ feed poly ys t := by
  induction xs generalizing ys s t with
  | nil =>
    obtain rfl : ys = [] := List.length_eq_zero_iff.1 h.symm
    rfl
  | cons x xs ih =>
    cases ys with
    | nil => cases h
    | cons y ys =>
      have hstep : shift poly (s ^^^ t ^^^ bit n (x ^^ y)) =
          shift poly (s ^^^ bit n x) ^^^ shift poly (t ^^^ bit n y) := by
        rw [← shift_xor, bit_xor]
        ac_rfl
      rw [List.zipWith_cons_cons, feed_cons, hstep, ih (Nat.succ.inj h)]
      rfl

/-- Nothing fed into an empty register leaves it empty. -/
theorem feed_replicate_false (k : ℕ) : feed poly (List.replicate k false) 0#n = 0#n := by
  induction k with
  | zero => rfl
  | succ k ih => simpa [List.replicate_succ, bit] using ih

/-- A word that leaves the lowest place free only moves down. -/
theorem shift_shiftLeft {t : BitVec n} (h : t.getLsbD (n - 1) = false) :
    shift poly (t <<< 1) = t := by
  have hlow : (t <<< 1).getLsbD 0 = false := by simp
  unfold shift
  rw [hlow, if_neg Bool.false_ne_true]
  apply BitVec.eq_of_getLsbD_eq
  intro i hi
  rw [BitVec.getLsbD_ushiftRight, BitVec.getLsbD_shiftLeft, Nat.add_sub_cancel_left]
  by_cases htop : 1 + i < n
  · simp [htop]
  · obtain rfl : i = n - 1 := by omega
    rw [h, Bool.and_false]

/-- Feeding a row bit by bit, or its word at once and then moving down as often. -/
theorem feed_eq_iterate {bits : List Bool} (h : bits.length ≤ n) (s : BitVec n) :
    feed poly bits s = (shift poly)^[bits.length] (s ^^^ word n bits) := by
  induction bits generalizing s with
  | nil => simp [word]
  | cons b bits ih =>
    have hlength : bits.length < n := h
    have hfree : (word n bits).getLsbD (n - 1) = false := by
      rw [word_getLsbD, List.getD_eq_default _ _ (by omega), Bool.and_false]
    rw [feed_cons, ih hlength.le, List.length_cons, Function.iterate_succ_apply]
    congr 1
    calc shift poly (s ^^^ bit n b) ^^^ word n bits
        = shift poly (s ^^^ bit n b) ^^^ shift poly (word n bits <<< 1) := by
          rw [shift_shiftLeft poly hfree]
      _ = shift poly (s ^^^ word n (b :: bits)) := by
          rw [← shift_xor, word, BitVec.xor_assoc]

variable {poly}

/-- With the top bit of `poly` set, the top place tells what dropped out. -/
theorem shift_getLsbD_top (hpoly : poly.getLsbD (n - 1) = true) (s : BitVec n) :
    (shift poly s).getLsbD (n - 1) = s.getLsbD 0 := by
  have hpos : 0 < n := by
    by_contra h
    obtain rfl : n = 0 := by omega
    simp at hpoly
  have htop : (s >>> 1).getLsbD (n - 1) = false := by
    rw [BitVec.getLsbD_ushiftRight]
    exact BitVec.getLsbD_of_ge _ _ (by omega)
  unfold shift
  cases hlow : s.getLsbD 0 with
  | true => rw [if_pos rfl, BitVec.getLsbD_xor, htop, hpoly, Bool.false_xor]
  | false => rw [if_neg Bool.false_ne_true, htop]

/-- At most `n` bits empty a register only if they are the register's own. -/
theorem feed_eq_zero_iff (hpoly : poly.getLsbD (n - 1) = true) {bits : List Bool}
    (h : bits.length ≤ n) (s : BitVec n) :
    feed poly bits s = 0#n ↔ ∀ i, s.getLsbD i = bits.getD i false := by
  induction bits generalizing s with
  | nil =>
    constructor
    · rintro rfl i
      simp
    · intro hall
      apply BitVec.eq_of_getLsbD_eq
      intro i hi
      rw [feed_nil, hall]
      simp
  | cons b bits ih =>
    have hlength : bits.length < n := h
    have hlow : (s ^^^ bit n b).getLsbD 0 = (s.getLsbD 0 ^^ b) := by
      rw [BitVec.getLsbD_xor, bit_getLsbD, decide_eq_true (Nat.zero_lt_of_lt hlength)]
      simp only [decide_true, Bool.and_true]
    have hmoved : ∀ i, ((s ^^^ bit n b) >>> 1).getLsbD i = s.getLsbD (i + 1) := by
      intro i
      simp [Nat.add_comm 1 i]
    rw [feed_cons, ih hlength.le]
    constructor
    · intro hall
      -- the rest is too short to reach the top place, so nothing may have dropped out
      have hout : (s.getLsbD 0 ^^ b) = false := by
        rw [← hlow, ← shift_getLsbD_top hpoly, hall, List.getD_eq_default _ _ (by omega)]
      intro i
      cases i with
      | zero => simpa using hout
      | succ i =>
        have hi := hall i
        rw [shift, hlow, hout, if_neg Bool.false_ne_true, hmoved] at hi
        rw [hi, List.getD_cons_succ]
    · intro hall i
      have hout : (s.getLsbD 0 ^^ b) = false := by
        rw [hall 0, List.getD_cons_zero, Bool.xor_self]
      rw [shift, hlow, hout, if_neg Bool.false_ne_true, hmoved, hall, List.getD_cons_succ]

/-- A register that holds something holds something after any number of empty bits. -/
theorem feed_replicate_false_ne (hpoly : poly.getLsbD (n - 1) = true) {s : BitVec n}
    (hs : s ≠ 0#n) (k : ℕ) : feed poly (List.replicate k false) s ≠ 0#n := by
  have hpos : 0 < n := by
    by_contra h
    obtain rfl : n = 0 := by omega
    exact hs (Subsingleton.elim _ _)
  induction k generalizing s with
  | zero => exact hs
  | succ k ih =>
    rw [List.replicate_succ, feed_cons]
    apply ih
    intro hzero
    have hshort : [false].length ≤ n := hpos
    have hall := (feed_eq_zero_iff hpoly hshort s).1 hzero
    apply hs
    apply BitVec.eq_of_getLsbD_eq
    intro i hi
    rw [hall]
    cases i <;> simp

/-- No row whose set bits lie within `n` places of each other leaves the register empty. -/
theorem feed_burst_ne (hpoly : poly.getLsbD (n - 1) = true) {burst : List Bool}
    (hlength : burst.length ≤ n) (hset : true ∈ burst) (before after : ℕ) :
    feed poly (List.replicate before false ++ burst ++ List.replicate after false) 0#n ≠ 0#n := by
  rw [feed_append, feed_append, feed_replicate_false]
  apply feed_replicate_false_ne hpoly
  intro hzero
  obtain ⟨i, hi, hbit⟩ := List.mem_iff_getElem.1 hset
  have hclear := (feed_eq_zero_iff hpoly hlength 0#n).1 hzero i
  rw [List.getD_eq_getElem _ _ hi, hbit] at hclear
  simp at hclear

end ShiftRegister
