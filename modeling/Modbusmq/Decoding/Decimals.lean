import Modbusmq.Configuration.Keys
import Modbusmq.Encoding.Scaling
import Modbusmq.Library.FixedPoint

/-!
# The decimals of a value

`modbusmq_channel_decimals`, in `int`s, and `modbusmq_channel_format_value` where
the arithmetic is exact and the buffer large enough. The divisor is negated as an
`int`, which the least one is not made for.
-/

namespace Modbusmq

/-- The result of an operation on `int`s; one that does not fit is not defined. -/
def checkedInt (x : ℤ) : Option ℤ := if -2 ^ 31 ≤ x ∧ x < 2 ^ 31 then some x else none

/-- The loop of `modbusmq_channel_decimals`: what is left of a divisor, and the tens. -/
def peelTens (remaining tens : ℤ) : Option (ℤ × ℤ) :=
  if 1 < remaining ∧ remaining.tmod 10 = 0 then
    (checkedInt (tens + 1)).bind fun tens => peelTens (remaining.tdiv 10) tens
  else some (remaining, tens)
termination_by remaining.toNat
decreasing_by
  rename_i h _
  rw [Int.tdiv_eq_ediv_of_nonneg (by omega)]
  omega

def floatFormats : List DataFormat := [.float_ba, .float_abcd, .float_badc, .float_dcba, .float_cdab]

def channelDecimals (type : Option InputType) (channel : ConfigChannel) : Option ℤ :=
  if channel.hasDecimals then some channel.decimals
  else if ∃ t ∈ type, t.IsBit then some 0
  else if channel.format ∈ floatFormats then some 3
  else if channel.mod < 0 then
    (checkedInt (-channel.mod)).bind fun remaining =>
      (peelTens remaining 0).map fun (remaining, tens) => if remaining = 1 then tens else 3
  else some 0

def stripZeroSign : List Char → List Char
  | '-' :: rest => if rest.all fun ch => ch = '0' ∨ ch = '.' then rest else '-' :: rest
  | text => text

def formatValue (type : Option InputType) (channel : ConfigChannel) (value : Double) :
    Option (List Char) :=
  match value with
  | none => some "null".toList
  | some value => (channelDecimals type channel).map fun decimals =>
      stripZeroSign (FixedPoint.print decimals.toNat value)

/-- The decimals that a divisor asks for. -/
structure DecimalsOf (mod d : ℤ) : Prop where
  undivided : 0 ≤ mod → d = 0
  power : ∀ k : ℕ, -mod = 10 ^ k → d = k
  other : mod < 0 → (∀ k : ℕ, -mod ≠ 10 ^ k) → d = 3

def rawText (type : Option InputType) (channel : ConfigChannel) (raw : ℤ) : Option (List Char) :=
  formatValue type channel (some (scaleRead id channel.add channel.mod channel.mul raw))

/-- A channel that is printed with the decimals of its divisor, which keep raw values apart. -/
structure DecimalsKept (type : Option InputType) (channel : ConfigChannel) : Prop where
  decimals : ∃ d, channelDecimals type channel = some d ∧ DecimalsOf channel.mod d
  distinct : ∀ k : ℕ, channel.mod = -10 ^ k → channel.mul = 0 → ∀ raw raw' : ℤ, raw ≠ raw' →
    ∃ text text', rawText type channel raw = some text ∧ rawText type channel raw' = some text' ∧
      text ≠ text'

/-- The tens that the loop peels off are factors of the divisor, and none is left. -/
structure Peeled (remaining : ℤ) (tens : ℕ) (rest : ℤ) (more : ℕ) : Prop where
  result : peelTens remaining tens = some (rest, ((tens + more : ℕ) : ℤ))
  product : remaining = rest * 10 ^ more
  pos : 1 ≤ rest
  stop : 1 < rest → ¬ 10 ∣ rest

theorem peelTens_peeled {remaining : ℤ} (hpos : 1 ≤ remaining) {tens : ℕ}
    (hfits : remaining * 10 ^ tens < 2 ^ 31) : ∃ rest more, Peeled remaining tens rest more := by
  induction hn : remaining.toNat using Nat.strong_induction_on generalizing remaining tens with
  | _ n ih =>
    by_cases hten : 1 < remaining ∧ 10 ∣ remaining
    · obtain ⟨quotient, hquotient⟩ := hten.2
      have htens : ((tens + 1 : ℕ) : ℤ) < 2 ^ 31 :=
        calc ((tens + 1 : ℕ) : ℤ)
            ≤ 10 ^ tens := by exact_mod_cast Nat.lt_pow_self (by decide : 1 < 10)
          _ ≤ remaining * 10 ^ tens := le_mul_of_one_le_left (by positivity) hpos
          _ < 2 ^ 31 := hfits
      have hloop : peelTens remaining tens = peelTens quotient ((tens + 1 : ℕ) : ℤ) := by
        have hmod : remaining.tmod 10 = 0 := Int.tmod_eq_zero_of_dvd hten.2
        have hdiv : remaining.tdiv 10 = quotient := by
          rw [hquotient]
          exact Int.mul_tdiv_cancel_left _ (by decide)
        have hcheck : checkedInt ((tens : ℤ) + 1) = some ((tens + 1 : ℕ) : ℤ) := by
          rw [checkedInt, if_pos (by push_cast at htens; omega)]
          rfl
        rw [peelTens, if_pos ⟨hten.1, hmod⟩, hcheck, Option.bind_some, hdiv]
      have hfits' : quotient * 10 ^ (tens + 1) < 2 ^ 31 := by
        have hsame : quotient * 10 ^ (tens + 1) = remaining * 10 ^ tens := by
          rw [hquotient]
          ring
        exact hsame.trans_lt hfits
      obtain ⟨rest, more, h⟩ := ih quotient.toNat (by omega) (by omega) hfits' rfl
      refine ⟨rest, more + 1, ⟨?_, ?_, h.pos, h.stop⟩⟩
      · rw [hloop, h.result]
        congr 2
        omega
      · rw [hquotient, h.product]
        ring
    · have hstop : ¬ (1 < remaining ∧ remaining.tmod 10 = 0) := fun h =>
        hten ⟨h.1, Int.dvd_of_tmod_eq_zero h.2⟩
      refine ⟨remaining, 0, ⟨?_, by ring, hpos, fun hlt hdvd => hten ⟨hlt, hdvd⟩⟩⟩
      rw [peelTens, if_neg hstop]
      rfl

theorem Peeled.power_iff {remaining rest : ℤ} {tens more : ℕ} (h : Peeled remaining tens rest more) :
    rest = 1 ↔ ∃ k : ℕ, remaining = 10 ^ k := by
  constructor
  · rintro rfl
    exact ⟨more, by rw [h.product, one_mul]⟩
  · rintro ⟨k, hk⟩
    by_contra hrest
    have hlt : 1 < rest := lt_of_le_of_ne h.pos (Ne.symm hrest)
    have hpower : rest * 10 ^ more = 10 ^ k := h.product.symm.trans hk
    have hle : more < k := by
      by_contra hle
      have hgrows : (10 : ℤ) ^ k ≤ 10 ^ more := pow_le_pow_right₀ (by decide) (by omega)
      nlinarith [pow_pos (by decide : (0 : ℤ) < 10) more]
    obtain ⟨further, rfl⟩ := Nat.exists_eq_add_of_lt hle
    have hcancel : rest = 10 ^ further * 10 := by
      apply mul_right_cancel₀ (pow_ne_zero more (by decide : (10 : ℤ) ≠ 0))
      rw [hpower]
      ring
    exact h.stop hlt ⟨10 ^ further, by rw [hcancel, mul_comm]⟩

section

variable {type : Option InputType} {channel : ConfigChannel}

/-- What `modbusmq_channel_decimals` makes of the divisor of an integer in a register. -/
theorem channelDecimals_integer (hregister : ¬ ∃ t ∈ type, t.IsBit)
    (hdecimals : channel.hasDecimals = false) (hformat : channel.format ∉ floatFormats) :
    channelDecimals type channel =
      if channel.mod < 0 then
        (checkedInt (-channel.mod)).bind fun remaining =>
          (peelTens remaining 0).map fun (remaining, tens) => if remaining = 1 then tens else 3
      else some 0 := by
  rw [channelDecimals, if_neg (by simp [hdecimals]), if_neg hregister, if_neg hformat]

theorem channelDecimals_decimalsOf (hregister : ¬ ∃ t ∈ type, t.IsBit)
    (hdecimals : channel.hasDecimals = false) (hformat : channel.format ∉ floatFormats)
    (hlow : -2 ^ 31 < channel.mod) :
    ∃ d, channelDecimals type channel = some d ∧ DecimalsOf channel.mod d := by
  rw [channelDecimals_integer hregister hdecimals hformat]
  by_cases hneg : channel.mod < 0
  · have hcheck : checkedInt (-channel.mod) = some (-channel.mod) := if_pos (by omega)
    have hpos : 1 ≤ -channel.mod := by omega
    have hfits : -channel.mod * 10 ^ 0 < 2 ^ 31 := by omega
    obtain ⟨rest, more, hpeeled⟩ := peelTens_peeled hpos hfits
    have hresult : peelTens (-channel.mod) 0 = some (rest, (more : ℤ)) := by
      simpa using hpeeled.result
    rw [if_pos hneg, hcheck, Option.bind_some, hresult]
    refine ⟨_, rfl, fun h => absurd hneg (not_lt.2 h), fun k hk => ?_, fun _ hnone => ?_⟩
    · have hone := hpeeled.power_iff.2 ⟨k, hk⟩
      have hpower : (10 : ℤ) ^ more = 10 ^ k := by
        rw [← hk, hpeeled.product, hone, one_mul]
      dsimp only
      rw [if_pos hone, Int.pow_right_injective (by decide) hpower]
    · have hrest : rest ≠ 1 := fun hone =>
        (hpeeled.power_iff.1 hone).elim fun k hk => hnone k hk
      exact if_neg hrest
  · rw [if_neg hneg]
    refine ⟨0, rfl, fun _ => rfl, fun k hk => ?_, fun h => absurd h hneg⟩
    have hpos : (0 : ℤ) < 10 ^ k := by positivity
    omega

end

/-- The text of a number with that many decimals has a sign only where it is not zero. -/
theorem stripZeroSign_scaled (places : ℕ) (n : ℤ) :
    stripZeroSign (FixedPoint.print places (n / 10 ^ places)) =
      FixedPoint.print places (n / 10 ^ places) := by
  have hhead := FixedPoint.print_head places (n / 10 ^ places)
  have hdigits := FixedPoint.digitsValue_scaled places n
  rw [FixedPoint.scaled_neg] at hhead
  generalize FixedPoint.print places (n / 10 ^ places) = text at hhead hdigits
  unfold stripZeroSign
  split
  · rename_i rest
    have hneg : n < 0 := hhead.1 rfl
    rw [if_neg]
    intro hzeros
    have hzero : FixedPoint.digitsValue rest = 0 :=
      FixedPoint.digitsValue_zeros (by simpa using hzeros)
    have hsame : FixedPoint.digitsValue ('-' :: rest) = FixedPoint.digitsValue rest := rfl
    omega
  · rfl

section

variable {type : Option InputType} {channel : ConfigChannel}

theorem rawText_scaled (hregister : ¬ ∃ t ∈ type, t.IsBit) (hdecimals : channel.hasDecimals = false)
    (hformat : channel.format ∉ floatFormats) (hlow : -2 ^ 31 < channel.mod) {k : ℕ}
    (hmod : channel.mod = -10 ^ k) (hmul : channel.mul = 0) (raw : ℤ) :
    rawText type channel raw =
      some (FixedPoint.print k (((raw + channel.add : ℤ) : ℚ) / 10 ^ k)) := by
  obtain ⟨d, hd, hof⟩ := channelDecimals_decimalsOf hregister hdecimals hformat hlow
  have hk : d = k := hof.power k (by rw [hmod, neg_neg])
  have hneg : channel.mod < 0 := by
    rw [hmod, neg_lt_zero]
    positivity
  have hvalue : scaleRead id channel.add channel.mod channel.mul raw =
      ((raw + channel.add : ℤ) : ℚ) / 10 ^ k := by
    unfold scaleRead
    dsimp only [id]
    rw [if_neg (not_lt.2 hneg.le), if_pos hneg, if_neg (not_not.2 hmul), hmod]
    push_cast
    rw [neg_neg]
  rw [rawText, hvalue, formatValue, hd, Option.map_some, hk, Int.toNat_natCast,
    stripZeroSign_scaled]

/-- The decimals of an integer's divisor are right, and keep raw values apart, just where the
divisor has a magnitude among the `int`s. -/
theorem decimals_kept_iff (hregister : ¬ ∃ t ∈ type, t.IsBit)
    (hdecimals : channel.hasDecimals = false) (hformat : channel.format ∉ floatFormats)
    (hint : -2 ^ 31 ≤ channel.mod ∧ channel.mod < 2 ^ 31) :
    DecimalsKept type channel ↔ channel.mod ≠ -2 ^ 31 := by
  constructor
  · intro h hleast
    obtain ⟨d, hd, -⟩ := h.decimals
    have hcheck : checkedInt (-channel.mod) = none := if_neg (by omega)
    rw [channelDecimals_integer hregister hdecimals hformat, if_pos (by omega), hcheck] at hd
    exact absurd hd (by simp)
  · intro hleast
    have hlow : -2 ^ 31 < channel.mod := lt_of_le_of_ne hint.1 (Ne.symm hleast)
    refine ⟨channelDecimals_decimalsOf hregister hdecimals hformat hlow, ?_⟩
    intro k hmod hmul raw raw' hne
    refine ⟨_, _, rawText_scaled hregister hdecimals hformat hlow hmod hmul raw,
      rawText_scaled hregister hdecimals hformat hlow hmod hmul raw', fun htext => hne ?_⟩
    exact add_right_cancel (FixedPoint.print_scaled_injective htext)

end

def hundredthsChannel : ConfigChannel := { blankChannel with format := .ab, mod := -100 }

theorem decimals_kept_iff_example :
    DecimalsKept (some .holdingRegister) hundredthsChannel ↔ hundredthsChannel.mod ≠ -2 ^ 31 :=
  decimals_kept_iff (by decide) rfl (by decide) (by decide)

/-- The least `int` as a divisor has no magnitude. -/
theorem least_divisor_overflows :
    ¬ ∀ (type : Option InputType) (channel : ConfigChannel), (¬ ∃ t ∈ type, t.IsBit) →
      channel.hasDecimals = false → channel.format ∉ floatFormats →
        -2 ^ 31 ≤ channel.mod ∧ channel.mod < 2 ^ 31 → DecimalsKept type channel := by
  intro hall
  have hkept := hall (some .holdingRegister) { blankChannel with format := .ab, mod := -2 ^ 31 }
    (by decide) rfl (by decide) (by decide)
  obtain ⟨d, hd, -⟩ := hkept.decimals
  rw [channelDecimals_integer (by decide) rfl (by decide), if_pos (by decide)] at hd
  exact absurd hd (by simp [checkedInt])

end Modbusmq
