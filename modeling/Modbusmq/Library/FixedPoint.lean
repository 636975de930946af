import Mathlib.Data.Rat.Floor
import Mathlib.Tactic

/-!
# Fixed-point texts

Exact numbers printed with a fixed number of decimals. A number that has no more
decimals than that is read back from its text.
-/

namespace FixedPoint

def roundEven (x : ℚ) : ℤ :=
  if x - ⌊x⌋ < 1 / 2 then ⌊x⌋
  else if 1 / 2 < x - ⌊x⌋ then ⌊x⌋ + 1
  else if 2 ∣ ⌊x⌋ then ⌊x⌋
  else ⌊x⌋ + 1

def lastDigits : ℕ → ℕ → List Char
  | 0, _ => []
  | width + 1, n => lastDigits width (n / 10) ++ [Nat.digitChar (n % 10)]

/-- `x` with `places` decimals; nothing stands for a point that no digit follows. -/
def print (places : ℕ) (x : ℚ) : List Char :=
  let n := (roundEven (|x| * 10 ^ places)).toNat
  (if x < 0 then ['-'] else []) ++ Nat.toDigits 10 (n / 10 ^ places) ++
    if places = 0 then [] else '.' :: lastDigits places n

/-- The number that the digits of a text make, whatever stands between them. -/
def digitsValue (text : List Char) : ℕ := Nat.ofDigitChars 10 (text.filter Char.isDigit) 0

theorem roundEven_intCast (n : ℤ) : roundEven n = n := by
  unfold roundEven
  rw [Int.floor_intCast, sub_self, if_pos (by norm_num)]

theorem digitChar_isDigit {d : ℕ} (h : d < 10) : (Nat.digitChar d).isDigit := by
  rw [Nat.isDigit_digitChar]
  exact decide_eq_true h

theorem lastDigits_isDigit (width n : ℕ) : ∀ ch ∈ lastDigits width n, ch.isDigit := by
  induction width generalizing n with
  | zero => exact fun ch hch => absurd hch List.not_mem_nil
  | succ width ih =>
    intro ch hch
    rcases List.mem_append.1 hch with hch | hch
    · exact ih _ ch hch
    · rw [List.mem_singleton.1 hch]
      exact digitChar_isDigit (Nat.mod_lt _ (by decide))

theorem ofDigitChars_lastDigits (width n front : ℕ) :
    Nat.ofDigitChars 10 (lastDigits width n) front = 10 ^ width * front + n % 10 ^ width := by
  induction width generalizing n with
  | zero => simp [lastDigits, Nat.mod_one]
  | succ width ih =>
    have hsplit : n % 10 ^ (width + 1) = 10 * (n / 10 % 10 ^ width) + n % 10 := by
      rw [Nat.pow_succ', Nat.mod_mul]
      omega
    rw [lastDigits, Nat.ofDigitChars_append, ih,
      Nat.ofDigitChars_cons_digitChar_of_lt_ten (Nat.mod_lt _ (by decide)), Nat.ofDigitChars_nil,
      hsplit]
    ring

theorem digitsValue_print (places : ℕ) (x : ℚ) :
    digitsValue (print places x) = (roundEven (|x| * 10 ^ places)).toNat := by
  unfold print
  dsimp only
  generalize (roundEven (|x| * 10 ^ places)).toNat = n
  have hsign : (if x < 0 then ['-'] else []).filter Char.isDigit = [] := by
    split_ifs <;> rfl
  have hwhole : (Nat.toDigits 10 (n / 10 ^ places)).filter Char.isDigit =
      Nat.toDigits 10 (n / 10 ^ places) :=
    List.filter_eq_self.2 fun ch hch => Nat.isDigit_of_mem_toDigits (by decide) (by decide) hch
  have hfraction : (if places = 0 then [] else '.' :: lastDigits places n).filter Char.isDigit =
      lastDigits places n := by
    split_ifs with hplaces
    · rw [hplaces]
      rfl
    · exact List.filter_eq_self.2 (lastDigits_isDigit places n)
  rw [digitsValue, List.filter_append, List.filter_append, hsign, hwhole, hfraction,
    List.nil_append, Nat.ofDigitChars_append, Nat.ofDigitChars_ten_toDigits,
    ofDigitChars_lastDigits, Nat.div_add_mod]

theorem print_head (places : ℕ) (x : ℚ) : (print places x).head? = some '-' ↔ x < 0 := by
  unfold print
  dsimp only
  generalize (roundEven (|x| * 10 ^ places)).toNat = n
  by_cases hneg : x < 0
  · rw [if_pos hneg]
    exact iff_of_true rfl hneg
  · rw [if_neg hneg, List.nil_append]
    refine iff_of_false ?_ hneg
    cases hdigits : Nat.toDigits 10 (n / 10 ^ places) with
    | nil => exact absurd hdigits Nat.toDigits_ne_nil
    | cons ch rest =>
      have hdigit : ch.isDigit := Nat.isDigit_of_mem_toDigits (by decide) (by decide)
        (hdigits ▸ List.mem_cons_self : ch ∈ Nat.toDigits 10 (n / 10 ^ places))
      rw [List.cons_append, List.head?_cons, Option.some.injEq]
      rintro rfl
      exact absurd hdigit (by decide)

theorem digitsValue_scaled (places : ℕ) (n : ℤ) :
    digitsValue (print places (n / 10 ^ places)) = n.natAbs := by
  have hpow : (10 : ℚ) ^ places ≠ 0 := by positivity
  have habs : |(n : ℚ) / 10 ^ places| * 10 ^ places = ((|n| : ℤ) : ℚ) := by
    rw [abs_div, abs_of_pos (by positivity : (0 : ℚ) < 10 ^ places), div_mul_cancel₀ _ hpow,
      Int.cast_abs]
  rw [digitsValue_print, habs, roundEven_intCast, Int.abs_eq_natAbs, Int.toNat_natCast]

theorem scaled_neg (places : ℕ) (n : ℤ) : (n : ℚ) / 10 ^ places < 0 ↔ n < 0 := by
  rw [div_lt_iff₀ (by positivity), zero_mul, Int.cast_lt_zero]

/-- Numbers with that many decimals are told apart by their texts. -/
theorem print_scaled_injective {places : ℕ} {n m : ℤ}
    (h : print places (n / 10 ^ places) = print places (m / 10 ^ places)) : n = m := by
  have habs : n.natAbs = m.natAbs := by
    rw [← digitsValue_scaled places n, h, digitsValue_scaled]
  have hsign : n < 0 ↔ m < 0 := by
    rw [← scaled_neg places n, ← print_head, h, print_head, scaled_neg]
  omega

theorem digitsValue_zeros {text : List Char} (h : ∀ ch ∈ text, ch = '0' ∨ ch = '.') :
    digitsValue text = 0 := by
  have hzeros : ∀ ch ∈ text.filter Char.isDigit, ch = '0' := by
    intro ch hch
    obtain ⟨hmem, hdigit⟩ := List.mem_filter.1 hch
    refine (h ch hmem).resolve_right ?_
    rintro rfl
    exact absurd hdigit (by decide)
  rw [digitsValue, List.eq_replicate_of_mem hzeros, Nat.ofDigitChars_replicate_zero, Nat.mul_zero]

end FixedPoint
