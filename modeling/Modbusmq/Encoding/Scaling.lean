import Modbusmq.Decoding.Values
import Modbusmq.Encoding.Blocks

/-!
# Scaling, there and back

The scaling of `modbusmq_read_channel`, and `modbusmq_encode_scaled` as its
inverse where the arithmetic is exact.
-/

namespace Modbusmq

section

variable (rounded : ℚ → ℚ) (number : UInt32 → Double)

/-- What `modbusmq_read_channel` makes of a raw value, `rounded` being what a `float` keeps of an
exact result. -/
def scaleRead (add mod mul : ℤ) (value : ℚ) : ℚ :=
  let f := rounded (value + rounded add)
  let f :=
    if 0 < mod then rounded (f * rounded mod)
    else if mod < 0 then rounded (f / -rounded mod)
    else f
  if mul ≠ 0 then rounded (f * rounded mul) else f

/-- The result of `modbusmq_read_channel`, which is not scaled where there is nothing to read;
`number` reads the bits of a `float`. -/
def readScaled (add mod mul : ℤ) : ChannelValue → Double
  | .skipped => some 0
  | .na => none
  | .raw (.int k) => some (scaleRead rounded add mod mul (rounded k))
  | .raw (.float bits) => (number bits).map (scaleRead rounded add mod mul)

end

def DataFormat.IsRegisterInteger (format : DataFormat) : Prop :=
  format ∈ [.ab, .ba, .int16_ab, .int16_ba, .abcd, .badc, .uint32_abcd, .uint32_badc]

instance : DecidablePred DataFormat.IsRegisterInteger := fun _ => inferInstanceAs (Decidable (_ ∈ _))

def wireBytes (regs : List UInt16) : List UInt8 :=
  regs.flatMap fun w => [UInt8.ofNat (w.toNat / 256), UInt8.ofNat w.toNat]

/-- The raw value a device sees: in an unsigned 16-bit format a negative one stands for its
pattern. -/
def patternOf (format : DataFormat) (raw : ℤ) : ℤ :=
  if format = .ab ∨ format = .ba then raw % 65536 else raw

def roundAway (x : ℚ) : ℤ := if x < 0 then -truncate (-x + 1 / 2) else truncate (x + 1 / 2)

/-- `modbusmq_encode_scaled` in exact arithmetic makes registers of the value in which a device
reads `raw`. -/
def EncodesRaw (single : ℚ → UInt32) (format : DataFormat) (add mod mul : ℤ) (value : Double)
    (raw : ℤ) : Prop :=
  ∃ regs, encodeScaled id single format add mod mul value = some regs ∧
    readRaw format (wireBytes regs) = some (.int raw)

def Nearest (x : ℚ) (n : ℤ) : Prop := ∀ m : ℤ, |x - n| ≤ |x - m|

theorem truncate_nonneg {value : ℚ} (h : 0 ≤ value) : truncate value = ⌊value⌋ := by
  unfold truncate
  rw [Rat.floor_def', Int.tdiv_eq_ediv_of_nonneg (Rat.num_nonneg.2 h)]

theorem truncate_add_half {k : ℤ} (h : 0 ≤ k) : truncate ((k : ℚ) + 1 / 2) = k := by
  have hk : (0 : ℚ) ≤ k := Int.cast_nonneg h
  rw [truncate_nonneg (by linarith), Int.floor_eq_iff]
  constructor <;> linarith

theorem truncate_half_dist {x : ℚ} (h : 0 ≤ x) : |x - truncate (x + 1 / 2)| ≤ 1 / 2 := by
  have hlo := Int.floor_le (x + 1 / 2)
  have hhi := Int.lt_floor_add_one (x + 1 / 2)
  rw [truncate_nonneg (by linarith), abs_le]
  constructor <;> linarith

theorem roundAway_dist (x : ℚ) : |x - roundAway x| ≤ 1 / 2 := by
  unfold roundAway
  split_ifs with hneg
  · have hdist := truncate_half_dist (x := -x) (by linarith)
    have hflip : x - ((-truncate (-x + 1 / 2) : ℤ) : ℚ) = -(-x - truncate (-x + 1 / 2)) := by
      push_cast
      ring
    rw [hflip, abs_neg]
    exact hdist
  · exact truncate_half_dist (not_lt.1 hneg)

theorem roundAway_nearest (x : ℚ) : Nearest x (roundAway x) := by
  intro m
  have hhalf := roundAway_dist x
  by_cases hsame : roundAway x = m
  · rw [hsame]
  · -- another integer is at least one away from the chosen one
    have hone : (1 : ℚ) ≤ |(roundAway x : ℚ) - m| := by
      have hint : 1 ≤ |roundAway x - m| := Int.one_le_abs (sub_ne_zero.2 hsame)
      exact_mod_cast hint
    have htriangle := abs_sub_le (roundAway x : ℚ) x m
    rw [abs_sub_comm (roundAway x : ℚ) x] at htriangle
    linarith

theorem roundAway_intCast (k : ℤ) : roundAway k = k := by
  unfold roundAway
  split_ifs with hneg
  · have hsign : k < 0 := Int.cast_lt_zero.1 hneg
    have hminus : -(k : ℚ) + 1 / 2 = ((-k : ℤ) : ℚ) + 1 / 2 := by push_cast; rfl
    rw [hminus, truncate_add_half (by omega), neg_neg]
  · exact truncate_add_half (Int.cast_nonneg_iff.1 (not_lt.1 hneg))

theorem unscale_scaleRead (add mod mul : ℤ) (value : ℚ) :
    unscale id add mod mul (scaleRead id add mod mul value) = value := by
  have hmul : ∀ f : ℚ, mul ≠ 0 → f * mul / mul = f := fun f hmul =>
    mul_div_cancel_right₀ f (Int.cast_ne_zero.2 hmul)
  have hmod : ∀ f : ℚ, 0 < mod → f * mod / mod = f := fun f hmod =>
    mul_div_cancel_right₀ f (Int.cast_ne_zero.2 hmod.ne')
  have hdiv : ∀ f : ℚ, mod < 0 → f / -mod * -mod = f := fun f hmod =>
    div_mul_cancel₀ f (neg_ne_zero.2 (Int.cast_ne_zero.2 hmod.ne))
  unfold unscale scaleRead
  simp only [id]
  split_ifs with hpos hzero hneg hzero hzero
  · rw [hmul _ hzero, hmod _ hpos, add_sub_cancel_right]
  · rw [hmod _ hpos, add_sub_cancel_right]
  · rw [hmul _ hzero, hdiv _ hneg, add_sub_cancel_right]
  · rw [hdiv _ hneg, add_sub_cancel_right]
  · rw [hmul _ hzero, add_sub_cancel_right]
  · exact add_sub_cancel_right _ _

theorem scaledRaw_rounded {format : DataFormat} (hformat : ¬ format.IsFloat) {add mod mul : ℤ}
    {value : ℚ} (hlo : ((scaledBounds format).1 : ℚ) - 1 ≤ unscale id add mod mul value)
    (hhi : unscale id add mod mul value ≤ (scaledBounds format).2 + 1) :
    scaledRaw id format add mod mul value = roundAway (unscale id add mod mul value) := by
  unfold scaledRaw roundAway
  dsimp only [id]
  rw [if_pos ⟨hformat, hlo, hhi⟩]
  split_ifs
  · push_cast
    rfl
  · rfl

theorem DataFormat.IsRegisterInteger.not_float {format : DataFormat}
    (h : format.IsRegisterInteger) : ¬ format.IsFloat := by
  unfold IsRegisterInteger at h
  cases format <;> first | exact not_false | exact absurd h (by decide)

theorem patternOf_range {format : DataFormat} {raw : ℤ} (hlo : (formatRange format).1 ≤ raw)
    (hhi : raw ≤ (formatRange format).2) : patternOf format raw = raw := by
  unfold patternOf
  split_ifs with hunsigned
  · rcases hunsigned with rfl | rfl <;> exact Int.emod_eq_of_lt hlo (Int.lt_of_le_of_lt hhi (by decide))
  · rfl

theorem encodeValue_admitted {format : DataFormat} (hformat : format.IsRegisterInteger) {raw : ℤ}
    (hlo : (scaledBounds format).1 ≤ raw) (hhi : raw ≤ (scaledBounds format).2)
    (single : UInt32) : ∃ bytes, encodeValue format raw single = some bytes ∧
      (bytes.length = 2 ∨ bytes.length = 4) ∧
      readRaw format bytes = some (.int (patternOf format raw)) := by
  have hword := be16_byteOf raw
  by_cases hunsigned : format = .ab ∨ format = .ba
  · rcases hunsigned with rfl | rfl
    · refine ⟨_, rfl, .inl rfl, ?_⟩
      simp [readRaw, patternOf, truncate_intCast, hword]
    · refine ⟨_, rfl, .inl rfl, ?_⟩
      simp [readRaw, patternOf, truncate_intCast, hword]
  · have hrange : formatRange format = scaledBounds format := by
      unfold DataFormat.IsRegisterInteger at hformat
      cases format <;> first | rfl | exact absurd hformat (by decide) | simp at hunsigned
    have hencodable : format.Encodable := by
      unfold DataFormat.IsRegisterInteger at hformat
      cases format <;> first | decide | exact absurd hformat (by decide)
    obtain ⟨bytes, hbytes⟩ := Option.isSome_iff_exists.1
      ((encodeValue_isSome_iff format raw single).2 hencodable)
    have hlength := encodeValue_length hbytes
    refine ⟨bytes, hbytes, ?_, ?_⟩
    · unfold DataFormat.IsRegisterInteger at hformat
      rw [hlength]
      cases format <;> first | exact .inl rfl | exact .inr rfl | exact absurd hformat (by decide)
    · have hvalue : Representable format (raw : ℚ) := by
        refine .inr ?_
        rw [truncate_intCast, hrange]
        exact ⟨rfl, hlo, hhi⟩
      rw [readRaw_encodeValue hbytes hvalue]
      unfold rawValue patternOf
      rw [if_neg hformat.not_float, truncate_intCast, if_neg hunsigned]

/-- What `modbusmq_encode_scaled` makes of a finite value, by what its inverse scaling rounds
to. -/
theorem encodesRaw_rounded {format : DataFormat} (hformat : format.IsRegisterInteger)
    (single : ℚ → UInt32) {add mod mul : ℤ} {value : ℚ}
    (hlo : (scaledBounds format).1 ≤ roundAway (unscale id add mod mul value))
    (hhi : roundAway (unscale id add mod mul value) ≤ (scaledBounds format).2) :
    EncodesRaw single format add mod mul (some value)
      (patternOf format (roundAway (unscale id add mod mul value))) := by
  obtain ⟨hbelow, habove⟩ := abs_le.1 (roundAway_dist (unscale id add mod mul value))
  have hloCast : ((scaledBounds format).1 : ℚ) ≤ roundAway (unscale id add mod mul value) :=
    Int.cast_le.2 hlo
  have hhiCast : (roundAway (unscale id add mod mul value) : ℚ) ≤ (scaledBounds format).2 :=
    Int.cast_le.2 hhi
  have hraw : scaledRaw id format add mod mul value = roundAway (unscale id add mod mul value) :=
    scaledRaw_rounded hformat.not_float (by linarith) (by linarith)
  obtain ⟨bytes, hbytes, hlength, hread⟩ :=
    encodeValue_admitted hformat hlo hhi (single (roundAway (unscale id add mod mul value)))
  refine ⟨packRegisters bytes, ?_, ?_⟩
  · unfold encodeScaled
    dsimp only
    rw [hraw, if_neg (by rintro ⟨-, hout⟩; rcases hout with hout | hout <;> linarith), hbytes]
    exact if_neg (by omega)
  · unfold wireBytes
    rw [unpack_packRegisters (by omega), hread]

/-- What is not refused has been rounded into the range. -/
theorem encodeScaled_admitted {format : DataFormat} (hformat : format.IsRegisterInteger)
    {single : ℚ → UInt32} {add mod mul : ℤ} {value : ℚ}
    (h : encodeScaled id single format add mod mul (some value) ≠ none) :
    (scaledBounds format).1 ≤ roundAway (unscale id add mod mul value) ∧
      roundAway (unscale id add mod mul value) ≤ (scaledBounds format).2 := by
  have hin : ((scaledBounds format).1 : ℚ) ≤ scaledRaw id format add mod mul value ∧
      scaledRaw id format add mod mul value ≤ (scaledBounds format).2 := by
    unfold encodeScaled at h
    dsimp only at h
    split_ifs at h with hout
    · exact absurd rfl h
    · rw [not_and, not_or, not_lt, not_lt] at hout
      exact hout hformat.not_float
  by_cases hround : ((scaledBounds format).1 : ℚ) - 1 ≤ unscale id add mod mul value ∧
      unscale id add mod mul value ≤ (scaledBounds format).2 + 1
  · rw [scaledRaw_rounded hformat.not_float hround.1 hround.2] at hin
    exact ⟨Int.cast_le.1 hin.1, Int.cast_le.1 hin.2⟩
  · -- what is left alone is out of range
    have hkept : scaledRaw id format add mod mul value = unscale id add mod mul value := by
      unfold scaledRaw
      dsimp only
      rw [if_neg fun hall => hround hall.2]
    rw [hkept] at hin
    exact absurd ⟨by linarith [hin.1], by linarith [hin.2]⟩ hround

theorem readRaw_range {format : DataFormat} (hformat : format.IsRegisterInteger)
    (bytes : List UInt8) : ∃ raw, (formatRange format).1 ≤ raw ∧ raw ≤ (formatRange format).2 ∧
      readRaw format bytes = some (.int raw) := by
  have hsigned : ∀ (n m : ℕ), 0 < m → -(m : ℤ) ≤ (n : ℤ).bmod (2 * m) ∧
      (n : ℤ).bmod (2 * m) ≤ m - 1 := by
    intro n m hm
    have hle := Int.le_bmod (x := n) (m := 2 * m) (by omega)
    have hlt := Int.bmod_lt (x := n) (m := 2 * m) (by omega)
    omega
  unfold DataFormat.IsRegisterInteger at hformat
  cases format <;> try exact absurd hformat (by decide)
  case ab | ba =>
    refine ⟨_, ?_, ?_, rfl⟩
    · exact Int.natCast_nonneg _
    · exact Int.le_sub_one_of_lt (Int.ofNat_lt.2 (be16_lt _ _))
  case int16_ab | int16_ba =>
    exact ⟨_, (hsigned _ (2 ^ 15) (by decide)).1, (hsigned _ (2 ^ 15) (by decide)).2, rfl⟩
  case abcd | badc =>
    exact ⟨_, (hsigned _ (2 ^ 31) (by decide)).1, (hsigned _ (2 ^ 31) (by decide)).2, rfl⟩
  case uint32_abcd | uint32_badc =>
    refine ⟨_, ?_, ?_, rfl⟩
    · exact Int.natCast_nonneg _
    · exact Int.le_sub_one_of_lt (Int.ofNat_lt.2 (UInt32.toNat_lt _))

/-- In exact arithmetic every raw value of an integer format of a register or two survives reading
and writing back, a channel of such a format is read as one, and what is written for any value is
the nearest integer the format admits. -/
theorem scaled_writes_invert_reads {format : DataFormat} (hformat : format.IsRegisterInteger)
    (single : ℚ → UInt32) (number : UInt32 → Double) (add mod mul : ℤ) :
    (∀ raw, (formatRange format).1 ≤ raw → raw ≤ (formatRange format).2 →
      EncodesRaw single format add mod mul
        (readScaled id number add mod mul (.raw (.int raw))) raw) ∧
    (∀ t config r input channel, ¬ input.type.IsBit → channelInRange t config r input channel →
      channel.format = format → ∃ raw, (formatRange format).1 ≤ raw ∧
        raw ≤ (formatRange format).2 ∧
        readChannel t config none r input channel = .raw (.int raw)) ∧
    ∀ value, encodeScaled id single format add mod mul value = none ∨
      ∃ finite raw, value = some finite ∧ (scaledBounds format).1 ≤ raw ∧
        raw ≤ (scaledBounds format).2 ∧ Nearest (unscale id add mod mul finite) raw ∧
        EncodesRaw single format add mod mul value (patternOf format raw) := by
  refine ⟨fun raw hlo hhi => ?_, fun t config r input channel hbit hrange hchannel => ?_,
    fun value => ?_⟩
  · have hexact : roundAway (unscale id add mod mul (scaleRead id add mod mul raw)) = raw := by
      rw [unscale_scaleRead, roundAway_intCast]
    obtain ⟨hloAdmitted, hhiAdmitted⟩ := formatRange_within format
    have hloRaw : (scaledBounds format).1 ≤
        roundAway (unscale id add mod mul (scaleRead id add mod mul raw)) := by omega
    have hhiRaw : roundAway (unscale id add mod mul (scaleRead id add mod mul raw)) ≤
        (scaledBounds format).2 := by omega
    have hencoded := encodesRaw_rounded hformat single hloRaw hhiRaw
    rwa [hexact, patternOf_range hlo hhi] at hencoded
  · obtain ⟨raw, hlo, hhi, hread⟩ := readRaw_range (hchannel ▸ hformat)
      ((List.range (decodeSize channel)).map fun i =>
        frameData t r ((channelByteOffset config input channel).toNat + i))
    rw [hchannel] at hlo hhi
    refine ⟨raw, hlo, hhi, ?_⟩
    unfold readChannel channelData
    rw [if_pos hrange, if_neg hbit]
    dsimp only
    rw [if_neg hbit, hread]
    rfl
  · by_cases hnone : encodeScaled id single format add mod mul value = none
    · exact .inl hnone
    · right
      cases value with
      | none => exact absurd rfl hnone
      | some finite =>
        obtain ⟨hlo, hhi⟩ := encodeScaled_admitted hformat hnone
        exact ⟨finite, _, rfl, hlo, hhi, roundAway_nearest _,
          encodesRaw_rounded hformat single hlo hhi⟩

/-- Tenths of a degree in a signed register. -/
theorem scaled_writes_invert_reads_example :
    (∀ raw : ℤ, -32768 ≤ raw → raw ≤ 32767 → EncodesRaw (fun _ => 0) .int16_ab 0 (-10) 0
      (readScaled id (fun _ => none) 0 (-10) 0 (.raw (.int raw))) raw) ∧
    scaleRead id 0 (-10) 0 255 = 51 / 2 ∧ unscale id 0 (-10) 0 (51 / 2) = 255 :=
  ⟨(scaled_writes_invert_reads (show DataFormat.IsRegisterInteger .int16_ab by decide) (fun _ => 0)
      (fun _ => none) 0 (-10) 0).1,
    by decide +kernel, by decide +kernel⟩

end Modbusmq
