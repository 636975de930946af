import Modbusmq.Configuration.Validation
import Modbusmq.Encoding.Scaling

/-!
# The formats of a configuration

Five places switch over the data formats: the parser, the table of sizes, the
reader, the encoder and the validators. What the bytes of a channel mean is
stated once more here, without a switch over decoders, and what the parser and
the validators let through is compared with it.
-/

namespace Modbusmq

def configDataformat : String → DataFormat
  | "int_a" => .int8
  | "int_ab" => .int16_ab
  | "int_ba" => .int16_ba
  | "int_abcd" => .abcd
  | "int_badc" => .badc
  | "uint_a" => .a
  | "uint_ab" => .ab
  | "uint_ba" => .ba
  | "uint_abcd" => .uint32_abcd
  | "uint_badc" => .uint32_badc
  | "float_ba" => .float_ba
  | "float_abcd" => .float_abcd
  | "float_badc" => .float_badc
  | "float_dcba" => .float_dcba
  | "float_cdab" => .float_cdab
  | "ascii_ab" => .ascii_ab
  | "ascii_ba" => .ascii_ba
  | "bcd_ab" => .bcd_ab
  | "bcd_ba" => .bcd_ba
  | "version_ab" => .version_ab
  | "version_abcd" => .version_abcd
  | "version_regs" => .version_regs
  | "date_ymd_abcd" => .date_ymd_abcd
  | "datetime_regs" => .datetime_regs
  | "epoch32_abcd" => .epoch32_abcd
  | "epoch32_badc" => .epoch32_badc
  | _ => .unknown

def InputChannel.setFormat (channel : InputChannel) (value : String) : Option InputChannel :=
  let format := configDataformat value
  if format = .unknown then none
  else some { channel with
    format := format
    length := if channel.hasLength then channel.length else formatSize format }

def WriteEntry.setFormat (write : WriteEntry) (value : String) : Option WriteEntry :=
  let format := configDataformat value
  if format = .unknown then none
  else if formatIsText format then none
  else some { write with format := format }

def WriteChannel.setFormat (channel : WriteChannel) (value : String) : Option WriteChannel :=
  let format := configDataformat value
  if format = .unknown then none else some { channel with format := format }

/-- What the lines of a file make of an entry: it starts without a format, its `format` key sets
one, and every other key leaves the format. -/
inductive FormatRead {Entry : Type} (format : Entry → DataFormat)
    (setFormat : Entry → String → Option Entry) : Entry → Prop
  | blank {entry : Entry} (h : format entry = .unknown) : FormatRead format setFormat entry
  | set {entry entry' : Entry} {value : String} (h : FormatRead format setFormat entry)
      (hset : setFormat entry value = some entry') : FormatRead format setFormat entry'
  | other {entry entry' : Entry} (h : FormatRead format setFormat entry)
      (hformat : format entry' = format entry) : FormatRead format setFormat entry'

/-- The scaling of an entry is three C `int`s. -/
def IntScaling (add mod mul : ℤ) : Prop :=
  ∀ k ∈ [add, mod, mul], -2 ^ 31 ≤ k ∧ k < 2 ^ 31

instance (add mod mul : ℤ) : Decidable (IntScaling add mod mul) :=
  inferInstanceAs (Decidable (∀ _ ∈ _, _))

structure ParsedConfig extends AcceptedConfig where
  channels : ∀ input ∈ source.inputs, ∀ channel ∈ input.channels,
    FormatRead InputChannel.format InputChannel.setFormat channel
  writes : ∀ write ∈ source.writes, FormatRead WriteEntry.format WriteEntry.setFormat write ∧
    IntScaling write.add write.mod write.mul
  blocks : ∀ write ∈ source.writes, ∀ channel ∈ write.channels,
    FormatRead WriteChannel.format WriteChannel.setFormat channel ∧
      IntScaling channel.add channel.mod channel.mul

/-- Where the bytes of a number stand in the data, highest first. -/
def wireOrder : DataFormat → List ℕ
  | .a | .int8 => [0]
  | .ab | .int16_ab => [0, 1]
  | .ba | .int16_ba | .float_ba => [1, 0]
  | .abcd | .uint32_abcd | .float_abcd => [0, 1, 2, 3]
  | .badc | .uint32_badc | .float_badc => [1, 0, 3, 2]
  | .float_dcba => [3, 2, 1, 0]
  | .float_cdab => [2, 3, 0, 1]
  | _ => []

def DataFormat.IsSigned (format : DataFormat) : Prop :=
  format ∈ [.int8, .int16_ab, .int16_ba, .abcd, .badc]

instance : DecidablePred DataFormat.IsSigned := fun _ => inferInstanceAs (Decidable (_ ∈ _))

/-- The formats that `modbusmq.na_value` applies to. -/
def DataFormat.IsInt16 (format : DataFormat) : Prop :=
  format ∈ [.ab, .int16_ab, .ba, .int16_ba]

instance : DecidablePred DataFormat.IsInt16 := fun _ => inferInstanceAs (Decidable (_ ∈ _))

def denotedWord (format : DataFormat) (bytes : List UInt8) : ℕ :=
  (wireOrder format).foldl (fun word i => word * 256 + (bytes.getD i 0).toNat) 0

/-- The number the bytes of a channel denote. `float_ba` is two bytes with the low one first,
taken as they are. -/
def denotedNumber (format : DataFormat) (bytes : List UInt8) : Raw :=
  if format.IsFloat then .float (UInt32.ofNat (denotedWord format bytes))
  else if format.IsSigned then
    .int ((denotedWord format bytes : ℤ).bmod (256 ^ formatSize format))
  else .int (denotedWord format bytes)

/-- What is read from a channel: its number, unless the device marks it as having none. -/
def denotedValue (naValue : Option ℕ) (format : DataFormat) (bytes : List UInt8) : ChannelValue :=
  if format.IsInt16 ∧ naValue = some (denotedWord format bytes) then .na
  else .raw (denotedNumber format bytes)

def channelBytes (t : Transport) (config : Option Config) (r : Frame .reader) (input : Input)
    (channel : Channel) : List UInt8 :=
  (List.range (formatSize channel.format)).map fun i =>
    frameData t r ((channelByteOffset config input channel).toNat + i)

/-- A channel of an input that is published as a number of some format. -/
structure InputChannel.Numeric (channel : InputChannel) : Prop where
  used : channel.topic.isSome
  known : channel.format ≠ .unknown
  number : formatIsText channel.format = false

/-- The library carries every number format of a configuration: it reads a channel as what its
bytes mean, and it encodes whatever the format of a write can represent. -/
structure FormatsCarried (rounded : ℚ → ℚ) (single : ℚ → UInt32) (config : BridgeConfig) :
    Prop where
  inputs : ∀ entry ∈ config.inputs, ∀ numeric ∈ entry.channels, numeric.Numeric →
    ∀ t config naValue r input channel, (input.type.IsBit ↔ ∃ type ∈ entry.type, type.IsBit) →
      channel.format = numeric.format → channelInRange t config r input channel →
        readChannel t config naValue r input channel =
          denotedValue naValue channel.format (channelBytes t config r input channel)
  writes : ∀ write ∈ config.writes, write.channels = [] → write.function ≠ .coil → ∀ value,
    Representable write.format
        (scaledRaw rounded write.format write.add write.mod write.mul value) →
      (writeEncode rounded single write (some value)).isSome
  blocks : ∀ write ∈ config.writes, ∀ channel ∈ write.channels, ∀ value,
    Representable channel.format (channelRaw rounded channel value) →
      (writeChannelEncode rounded single channel (some value)).isSome

/-- No channel of a configuration that is in use is in `float_ba`. -/
structure NoFloatBa (config : BridgeConfig) : Prop where
  inputs : ∀ input ∈ config.inputs, ∀ channel ∈ input.channels, channel.topic.isSome →
    channel.format ≠ .float_ba
  writes : ∀ write ∈ config.writes, write.format ≠ .float_ba
  blocks : ∀ write ∈ config.writes, ∀ channel ∈ write.channels, channel.format ≠ .float_ba

/-- A `double` holds every half of an integer of 53 bits exactly. -/
def HalvesExact (rounded : ℚ → ℚ) : Prop :=
  ∀ k : ℤ, -2 ^ 53 ≤ k → k ≤ 2 ^ 53 → rounded (k / 2) = k / 2

theorem denotedWord_two (format : DataFormat) (bytes : List UInt8) (i j : ℕ)
    (h : wireOrder format = [i, j]) :
    denotedWord format bytes = be16 (bytes.getD i 0) (bytes.getD j 0) := by
  unfold denotedWord
  rw [h, be16_eq]
  simp only [List.foldl_cons, List.foldl_nil]
  omega

theorem denotedWord_four (format : DataFormat) (bytes : List UInt8) (i j k l : ℕ)
    (h : wireOrder format = [i, j, k, l]) : denotedWord format bytes =
      (be32 (bytes.getD i 0) (bytes.getD j 0) (bytes.getD k 0) (bytes.getD l 0)).toNat := by
  unfold denotedWord
  rw [h, be32_toNat]
  simp only [List.foldl_cons, List.foldl_nil]
  omega

/-- Every number format but one has a decoder, and it reads what the bytes denote. -/
theorem readRaw_denoted {format : DataFormat} (hknown : format ≠ .unknown)
    (hnumber : formatIsText format = false) (hformat : format ≠ .float_ba) (bytes : List UInt8) :
    readRaw format bytes = some (denotedNumber format bytes) := by
  have htwo := denotedWord_two format bytes
  have hfour := denotedWord_four format bytes
  unfold denotedNumber
  cases format
  case unknown | float_ba => contradiction
  case a | int8 => simp [readRaw, denotedWord, wireOrder, DataFormat.IsFloat, DataFormat.IsSigned,
      formatSize]
  case ab | int16_ab => rw [htwo 0 1 rfl]; rfl
  case ba | int16_ba => rw [htwo 1 0 rfl]; rfl
  case abcd | uint32_abcd => rw [hfour 0 1 2 3 rfl]; rfl
  case badc | uint32_badc => rw [hfour 1 0 3 2 rfl]; rfl
  case float_abcd => rw [hfour 0 1 2 3 rfl, UInt32.ofNat_toNat]; rfl
  case float_badc => rw [hfour 1 0 3 2 rfl, UInt32.ofNat_toNat]; rfl
  case float_dcba => rw [hfour 3 2 1 0 rfl, UInt32.ofNat_toNat]; rfl
  case float_cdab => rw [hfour 2 3 0 1 rfl, UInt32.ofNat_toNat]; rfl
  all_goals contradiction

theorem channelIsNa_denoted (naValue : Option ℕ) (format : DataFormat) (bytes : List UInt8) :
    channelIsNa naValue format bytes =
      decide (format.IsInt16 ∧ naValue = some (denotedWord format bytes)) := by
  have htwo := denotedWord_two format bytes
  unfold channelIsNa DataFormat.IsInt16
  cases naValue with
  | none => simp
  | some na =>
    cases format
    case ab | int16_ab => simp [htwo 0 1 rfl, eq_comm]
    case ba | int16_ba => simp [htwo 1 0 rfl, eq_comm]
    all_goals simp

theorem decodeSize_number {channel : Channel} (hknown : channel.format ≠ .unknown)
    (hnumber : formatIsText channel.format = false) (hformat : channel.format ≠ .float_ba) :
    decodeSize channel = formatSize channel.format := by
  unfold decodeSize
  split <;> simp_all [formatIsText]

theorem readChannel_denoted {t : Transport} {config : Option Config} {naValue : Option ℕ}
    {r : Frame .reader} {input : Input} {channel : Channel} (hbit : ¬ input.type.IsBit)
    (hrange : channelInRange t config r input channel) (hknown : channel.format ≠ .unknown)
    (hnumber : formatIsText channel.format = false) (hformat : channel.format ≠ .float_ba) :
    readChannel t config naValue r input channel =
      denotedValue naValue channel.format (channelBytes t config r input channel) := by
  have hdata : channelData t config r input channel =
      some (channelBytes t config r input channel) := by
    unfold channelData channelBytes
    rw [if_pos hrange, if_neg hbit, decodeSize_number hknown hnumber hformat]
  unfold readChannel denotedValue
  rw [hdata]
  dsimp only
  rw [if_neg hbit, channelIsNa_denoted, readRaw_denoted hknown hnumber hformat]
  simp only [decide_eq_true_eq]
  rfl

/-- A channel without a decoder is skipped, which reads as zero. -/
theorem readChannel_float_ba {t : Transport} {config : Option Config} {naValue : Option ℕ}
    {r : Frame .reader} {input : Input} {channel : Channel} (hbit : ¬ input.type.IsBit)
    (hformat : channel.format = .float_ba) :
    readChannel t config naValue r input channel = .skipped := by
  unfold readChannel
  rw [hformat]
  cases channelData t config r input channel with
  | none => rfl
  | some data =>
    dsimp only
    rw [if_neg hbit]
    cases naValue <;> rfl

theorem denotedValue_ne_skipped (naValue : Option ℕ) (format : DataFormat) (bytes : List UInt8) :
    denotedValue naValue format bytes ≠ .skipped := by
  unfold denotedValue
  split_ifs <;> nofun

def oneRegister (hi lo : UInt8) : Frame .reader :=
  { Frame.zero .reader with
    xmit := 11
    buf := fun i => if i = 7 then 3 else if i = 8 then 2 else if i = 9 then hi else
      if i = 10 then lo else 0 }

section

variable {rounded : ℚ → ℚ} {single : ℚ → UInt32}

theorem HalvesExact.int (h : HalvesExact rounded) {k : ℤ} (hlo : -2 ^ 52 ≤ k) (hhi : k ≤ 2 ^ 52) :
    rounded k = k := by
  have hdouble := h (2 * k) (by omega) (by omega)
  push_cast at hdouble
  rwa [mul_div_cancel_left₀ _ two_ne_zero] at hdouble

theorem HalvesExact.half (h : HalvesExact rounded) {k : ℤ} (hlo : 0 ≤ k) (hhi : k < 2 ^ 52) :
    rounded ((k : ℚ) + 1 / 2) = k + 1 / 2 := by
  have hodd := h (2 * k + 1) (by omega) (by omega)
  have hsplit : ((2 * k + 1 : ℤ) : ℚ) / 2 = k + 1 / 2 := by
    push_cast
    ring
  rwa [hsplit] at hodd

/-- Scaling that comes out at an integer needs no rounding. -/
theorem scaledRaw_int (h : HalvesExact rounded) {format : DataFormat} {add mod mul : ℤ} {value : ℚ}
    {k : ℤ} (hk : unscale rounded add mod mul value = k) (hlo : -2 ^ 31 ≤ k) (hhi : k < 2 ^ 31) :
    scaledRaw rounded format add mod mul value = k := by
  unfold scaledRaw
  rw [hk]
  dsimp only
  split_ifs with hrange hneg
  · have hminus : -(k : ℚ) + 1 / 2 = ((-k : ℤ) : ℚ) + 1 / 2 := by push_cast; rfl
    have hsign : k < 0 := Int.cast_lt_zero.1 hneg
    rw [hminus, h.half (by omega) (by omega), truncate_add_half (by omega)]
    push_cast
    exact neg_neg _
  · have hsign : 0 ≤ k := Int.cast_nonneg_iff.1 (not_lt.1 hneg)
    rw [h.half (by omega) (by omega), truncate_add_half hsign]
  · rfl

/-- Minus one and zero come through any scaling exactly. -/
theorem exists_unscale (h : HalvesExact rounded) {add mod mul c : ℤ}
    (hscaling : IntScaling add mod mul) (hc : c = -1 ∨ c = 0) :
    ∃ value, unscale rounded add mod mul value =
      ((if mod < 0 then c * -mod else c) - add : ℤ) := by
  have hadd := hscaling add (by simp)
  have hmod := hscaling mod (by simp)
  obtain ⟨shifted, hshifted⟩ : ∃ s : ℤ, s = if 0 < mod then c * mod else c := ⟨_, rfl⟩
  obtain ⟨k, hk⟩ : ∃ k : ℤ, k = if mod < 0 then c * -mod else c := ⟨_, rfl⟩
  have hsmall : (-2 ^ 31 ≤ shifted ∧ shifted ≤ 0) ∧ -2 ^ 31 ≤ k ∧ k ≤ 0 := by
    rcases hc with rfl | rfl <;> split_ifs at hshifted hk <;> omega
  obtain ⟨value, hvalue⟩ : ∃ v : ℚ, v = if mul ≠ 0 then (shifted : ℚ) * mul else shifted :=
    ⟨_, rfl⟩
  have hfirst : (if mul ≠ 0 then rounded (value / mul) else value) = shifted := by
    split_ifs at hvalue ⊢ with hzero
    · have hne : (mul : ℚ) ≠ 0 := Int.cast_ne_zero.2 hzero
      rw [hvalue, mul_div_cancel_right₀ _ hne, h.int (by omega) (by omega)]
    · exact hvalue
  have hsecond : (if 0 < mod then rounded ((shifted : ℚ) / mod)
      else if mod < 0 then rounded ((shifted : ℚ) * -mod) else shifted) = k := by
    split_ifs at hshifted hk ⊢ with hpos hneg
    · omega
    · have hne : (mod : ℚ) ≠ 0 := Int.cast_ne_zero.2 hpos.ne'
      rw [hshifted, Int.cast_mul, mul_div_cancel_right₀ _ hne, ← hk, h.int (by omega) (by omega)]
    · have hproduct : (shifted : ℚ) * -mod = k := by
        rw [hshifted, hk]
        push_cast
        rfl
      rw [hproduct, h.int (by omega) (by omega)]
    · rw [hshifted, hk]
  refine ⟨value, ?_⟩
  unfold unscale
  dsimp only
  rw [hfirst, hsecond, ← Int.cast_sub, h.int (by omega) (by omega), hk]

/-- Whatever its scaling, a `float_ba` channel has a value it can represent. -/
theorem exists_representable (h : HalvesExact rounded) {add mod mul : ℤ}
    (hscaling : IntScaling add mod mul) :
    ∃ value, Representable .float_ba (scaledRaw rounded .float_ba add mod mul value) := by
  have hadd := hscaling add (by simp)
  have hmod := hscaling mod (by simp)
  -- the raw value of zero is `-add`, which is too large for the lowest `add` only
  obtain ⟨c, hc⟩ : ∃ c : ℤ, c = if add = -2 ^ 31 then -1 else 0 := ⟨_, rfl⟩
  obtain ⟨value, hvalue⟩ := exists_unscale h hscaling (show c = -1 ∨ c = 0 by
    split_ifs at hc <;> omega)
  obtain ⟨k, hk⟩ : ∃ k : ℤ, k = (if mod < 0 then c * -mod else c) - add := ⟨_, rfl⟩
  have hbound : -2 ^ 31 ≤ k ∧ k < 2 ^ 31 := by
    split_ifs at hc hk <;> subst hc <;> omega
  rw [← hk] at hvalue
  refine ⟨value, .inr ?_⟩
  rw [scaledRaw_int h hvalue hbound.1 hbound.2, truncate_intCast]
  exact ⟨rfl, hbound.1, Int.le_sub_one_of_lt hbound.2⟩

theorem FormatRead.holds {Entry : Type} {format : Entry → DataFormat}
    {setFormat : Entry → String → Option Entry} {P : DataFormat → Prop} (hblank : P .unknown)
    (hset : ∀ {entry entry' value}, setFormat entry value = some entry' → P (format entry'))
    {entry : Entry} (h : FormatRead format setFormat entry) : P (format entry) := by
  induction h with
  | blank hformat =>
    rw [hformat]
    exact hblank
  | set _ hvalue _ => exact hset hvalue
  | other _ hformat ih =>
    rw [hformat]
    exact ih

theorem WriteEntry.setFormat_number {write write' : WriteEntry} {value : String}
    (h : write.setFormat value = some write') : formatIsText write'.format = false := by
  unfold WriteEntry.setFormat at h
  dsimp only at h
  split_ifs at h with _ hnumber
  obtain rfl := Option.some.inj h
  exact Bool.eq_false_iff.2 hnumber

/-- What the formats and the scaling of the writes have, the accepted ones have as well, when the
integer formats of an old configuration have it too. -/
theorem accepted_writes_keep {config accepted : BridgeConfig}
    (h : acceptConfig config = .ok accepted) {P Q : DataFormat → ℤ → ℤ → ℤ → Prop}
    (hP : ∀ {format add mod mul}, P format add mod mul → P (unsignedFormat format) add mod mul)
    (hQ : ∀ {format add mod mul}, Q format add mod mul → Q (unsignedFormat format) add mod mul)
    (hwrites : ∀ write ∈ config.writes, P write.format write.add write.mod write.mul ∧
      ∀ channel ∈ write.channels, Q channel.format channel.add channel.mod channel.mul)
    {write : WriteEntry} (hwrite : write ∈ accepted.writes) :
    P write.format write.add write.mod write.mul ∧
      ∀ channel ∈ write.channels, Q channel.format channel.add channel.mod channel.mul := by
  obtain ⟨-, inputs, writes, -, hexpand, -, hvalid⟩ := acceptConfig_ok h
  obtain ⟨versioned, hversioned, hsettled⟩ := validateWrites_mem hvalid hwrite
  obtain ⟨expanded, hexpanded, rfl⟩ := List.mem_map.1 hversioned
  obtain ⟨-, -, type, function, naddress, hasNaddress, defaults, rfl⟩ := validateWrite_ok hsettled
  have hkept : P expanded.format expanded.add expanded.mod expanded.mul ∧
      ∀ channel ∈ expanded.channels, Q channel.format channel.add channel.mod channel.mul := by
    rcases expandTemplates_mem hexpand hexpanded with ⟨hmem, -⟩ | ⟨entry, hmem, -, m, -, rfl⟩
    · exact hwrites expanded hmem
    · exact hwrites entry hmem
  unfold applyVersionWrite
  split_ifs with hsigned
  · exact hkept
  · refine ⟨hP hkept.1, fun channel hchannel => ?_⟩
    obtain ⟨old, hold, rfl⟩ := List.mem_map.1 hchannel
    exact hQ (hkept.2 old hold)

theorem formatIsText_unsignedFormat (format : DataFormat) :
    formatIsText (unsignedFormat format) = formatIsText format := by
  cases format <;> rfl

namespace ParsedConfig

variable (c : ParsedConfig)

/-- The writes of a parsed configuration are numbers, scaled by C `int`s. -/
theorem write_number {write : WriteEntry} (hwrite : write ∈ c.config.writes) :
    (formatIsText write.format = false ∧ IntScaling write.add write.mod write.mul) ∧
      ∀ channel ∈ write.channels, IntScaling channel.add channel.mod channel.mul :=
  accepted_writes_keep c.accepted
    (P := fun format add mod mul => formatIsText format = false ∧ IntScaling add mod mul)
    (Q := fun _ add mod mul => IntScaling add mod mul)
    (fun h => ⟨(formatIsText_unsignedFormat _).trans h.1, h.2⟩) (fun h => h)
    (fun write hmem =>
      ⟨⟨(c.writes write hmem).1.holds (P := fun format => formatIsText format = false) rfl
          WriteEntry.setFormat_number, (c.writes write hmem).2⟩,
        fun channel hchannel => (c.blocks write hmem channel hchannel).2⟩) hwrite

theorem write_laid {write : WriteEntry} (hwrite : write ∈ c.config.writes) :
    (write.channels = [] → write.SingleLaid) ∧
      (write.channels ≠ [] → BlockLaid write ∧ write.format = .unknown) := by
  obtain ⟨-, inputs, writes, -, -, -, hvalid⟩ := acceptConfig_ok c.accepted
  obtain ⟨entry, -, hsettled⟩ := validateWrites_mem hvalid hwrite
  exact ⟨(validateWrite_ok hsettled).1, (validateWrite_ok hsettled).2.1⟩

theorem channel_registers {entry : InputEntry} (hentry : entry ∈ c.config.inputs)
    {channel : InputChannel} (hchannel : channel ∈ entry.channels) (hused : channel.topic.isSome)
    (hknown : channel.format ≠ .unknown) : ¬ ∃ type ∈ entry.type, type.IsBit := by
  obtain ⟨⟨-, -, hvalid⟩, -⟩ := acceptConfig_ok c.accepted
  intro hbit
  have hchecked := validateInputs_ok hvalid hentry hchannel
  have htopic : ¬ channel.topic.isNone := by
    obtain ⟨topic, hsome⟩ := Option.isSome_iff_exists.1 hused
    rw [hsome]
    exact Bool.false_ne_true
  unfold validateChannel at hchecked
  dsimp only at hchecked
  rw [if_neg htopic, if_pos hbit, if_pos hknown] at hchecked
  exact nomatch hchecked

theorem carried (h : NoFloatBa c.config) : FormatsCarried rounded single c.config where
  inputs := by
    intro entry hentry numeric hnumeric hused t config naValue r input channel hbit hformat hrange
    have hregisters := c.channel_registers hentry hnumeric hused.used hused.known
    refine readChannel_denoted (fun hinput => hregisters (hbit.1 hinput)) hrange ?_ ?_ ?_
    · exact hformat ▸ hused.known
    · exact hformat ▸ hused.number
    · exact hformat ▸ h.inputs entry hentry numeric hnumeric hused.used
  writes := by
    intro write hwrite hsingle hregister value hvalue
    have hlaid := (c.write_laid hwrite).1 hsingle
    unfold WriteEntry.SingleLaid at hlaid
    rw [if_neg hregister] at hlaid
    obtain ⟨hknown, hlength⟩ := hlaid
    unfold WriteEntry.length at hlength
    rw [if_neg hknown] at hlength
    obtain ⟨bytes, -, -, henc⟩ := encodeScaled_encodable single hknown
      (c.write_number hwrite).1.1 hlength hvalue (h.writes write hwrite)
    rw [writeEncode, henc]
    rfl
  blocks := by
    intro write hwrite channel hchannel value hvalue
    obtain ⟨hlaid, -⟩ := (c.write_laid hwrite).2 (List.ne_nil_of_mem hchannel)
    have hwritable := hlaid.writable channel hchannel
    have hsize := hwritable.size
    unfold WriteChannel.length at hsize
    obtain ⟨bytes, -, -, henc⟩ := encodeScaled_encodable single hwritable.known hwritable.number
      (by omega) hvalue (h.blocks write hwrite channel hchannel)
    rw [writeChannelEncode, henc]
    rfl

/-- A channel in `float_ba` is not read: a reply of one register comes out as nothing. -/
theorem noFloatBa_inputs (h : FormatsCarried rounded single c.config) {entry : InputEntry}
    (hentry : entry ∈ c.config.inputs) {channel : InputChannel} (hchannel : channel ∈ entry.channels)
    (hused : channel.topic.isSome) : channel.format ≠ .float_ba := by
  intro hformat
  have hknown : channel.format ≠ .unknown := by
    rw [hformat]
    decide
  have hregisters := c.channel_registers hentry hchannel hused hknown
  let input : Input := ⟨1, entry.type.getD .holdingRegister, 0, 0, 1, .fast, []⟩
  have hbit : input.type.IsBit ↔ ∃ type ∈ entry.type, type.IsBit := by
    cases htype : entry.type with
    | none => simp [input, htype, InputType.IsBit]
    | some type => simp [input, htype]
  have hinput : ¬ input.type.IsBit := fun hb => hregisters (hbit.1 hb)
  have hrange : channelInRange .tcp none (oneRegister 0 1) input ⟨0, 2, .float_ba⟩ := by
    unfold channelInRange
    rw [if_neg hinput]
    rfl
  have hread := h.inputs entry hentry channel hchannel ⟨hused, hknown, by rw [hformat]; rfl⟩ .tcp
    none none (oneRegister 0 1) input ⟨0, 2, .float_ba⟩ hbit hformat.symm hrange
  rw [readChannel_float_ba hinput rfl] at hread
  exact denotedValue_ne_skipped _ _ _ hread.symm

theorem noFloatBa_writes (hrounded : HalvesExact rounded)
    (h : FormatsCarried rounded single c.config) {write : WriteEntry}
    (hwrite : write ∈ c.config.writes) : write.format ≠ .float_ba := by
  intro hformat
  have hsingle : write.channels = [] := by
    by_contra hblock
    have hunknown := ((c.write_laid hwrite).2 hblock).2
    rw [hformat] at hunknown
    exact nomatch hunknown
  have hregister : write.function ≠ .coil := by
    intro hcoil
    have hlaid := (c.write_laid hwrite).1 hsingle
    unfold WriteEntry.SingleLaid at hlaid
    rw [if_pos hcoil, hformat] at hlaid
    exact nomatch hlaid
  obtain ⟨value, hvalue⟩ := exists_representable hrounded (c.write_number hwrite).1.2
  have hsome := h.writes write hwrite hsingle hregister value (by rw [hformat]; exact hvalue)
  rw [writeEncode, hformat, encodeScaled_float_ba] at hsome
  exact nomatch hsome

theorem noFloatBa_blocks (hrounded : HalvesExact rounded)
    (h : FormatsCarried rounded single c.config) {write : WriteEntry}
    (hwrite : write ∈ c.config.writes) {channel : WriteChannel}
    (hchannel : channel ∈ write.channels) : channel.format ≠ .float_ba := by
  intro hformat
  obtain ⟨value, hvalue⟩ :=
    exists_representable hrounded ((c.write_number hwrite).2 channel hchannel)
  have hsome := h.blocks write hwrite channel hchannel value (by
    unfold channelRaw
    rw [hformat]
    exact hvalue)
  rw [writeChannelEncode, hformat, encodeScaled_float_ba] at hsome
  exact nomatch hsome

end ParsedConfig

/-- The library carries all the formats of an accepted configuration exactly when none of its
channels in use is in `float_ba`. -/
theorem accepted_formats_carried_iff (c : ParsedConfig) (hrounded : HalvesExact rounded) :
    FormatsCarried rounded single c.config ↔ NoFloatBa c.config := by
  constructor
  · intro h
    exact ⟨fun _ hentry _ hchannel hused => c.noFloatBa_inputs h hentry hchannel hused,
      fun _ hwrite => c.noFloatBa_writes hrounded h hwrite,
      fun _ hwrite _ hchannel => c.noFloatBa_blocks hrounded h hwrite hchannel⟩
  · exact c.carried

/-- A channel of one register, as read from its `topic` and `format` keys. -/
def temperatureChannel (format : DataFormat) : InputChannel where
  topic := some "temperature"
  length := formatSize format
  hasLength := false
  format := format
  add := 0
  mod := -10
  mul := 0
  timefmt := none
  localtime := false
  hasDecimals := false
  hasMinChange := false
  hasMinChangeRel := false

def temperatureWrite (format : DataFormat) : WriteEntry where
  slave := 1
  hasSlave := true
  template := false
  type := some .holdingRegister
  function := .register
  address := 0x1000
  hasAddress := true
  format := format
  add := 0
  mod := -10
  mul := 0
  onValue := 1
  offValue := 0
  hasOnValue := false
  hasOffValue := false
  topic := "command/temperature"
  naddress := 0
  hasNaddress := false
  channels := []
  hasDefaults := false

/-- One format for a channel of an input, for a write and for a channel of a block. -/
def oneFormat (format : DataFormat) : BridgeConfig where
  signedInts := true
  queryMode := .parallell
  moduleCount := 0
  moduleSlaveFirst := 1
  inputs := [⟨1, false, some .holdingRegister, 0x1000, 0, 1, 1000, [temperatureChannel format]⟩]
  writes := [temperatureWrite format, setpointBlock format]

/-- The same, read from a file that has the format under its name. -/
def parsedFormat (name : String) (hknown : configDataformat name ≠ .unknown)
    (hnumber : formatIsText (configDataformat name) = false)
    (haccepted : acceptConfig (oneFormat (configDataformat name)) =
      .ok (oneFormat (configDataformat name))) : ParsedConfig where
  source := oneFormat (configDataformat name)
  config := oneFormat (configDataformat name)
  accepted := haccepted
  channels := by
    intro input hinput channel hchannel
    obtain rfl := List.mem_singleton.1 hinput
    obtain rfl := List.mem_singleton.1 hchannel
    exact .set (.blank (show (temperatureChannel .unknown).format = .unknown from rfl))
      (if_neg hknown)
  writes := by
    intro write hwrite
    rcases List.mem_pair.1 hwrite with rfl | rfl
    · refine ⟨.set (.blank (show (temperatureWrite .unknown).format = .unknown from rfl))
        ((if_neg hknown).trans (if_neg ?_)), show IntScaling 0 (-10) 0 by decide⟩
      rw [hnumber]
      exact Bool.false_ne_true
    · exact ⟨.blank rfl, show IntScaling 0 0 0 by decide⟩
  blocks := by
    intro write hwrite channel hchannel
    rcases List.mem_pair.1 hwrite with rfl | rfl
    · exact absurd hchannel List.not_mem_nil
    · have hread : ∀ {format : DataFormat} {value : String},
          configDataformat value = format → format ≠ .unknown →
            ∀ channel : WriteChannel, channel.format = format →
              FormatRead WriteChannel.format WriteChannel.setFormat channel := by
        rintro format value rfl hformat channel hchannel
        refine .set (.blank (show ({ channel with format := .unknown } : WriteChannel).format =
          .unknown from rfl)) ((if_neg hformat).trans ?_)
        rw [← hchannel]
      simp only [setpointBlock, List.mem_cons, List.not_mem_nil, or_false] at hchannel
      rcases hchannel with rfl | rfl | rfl
      · exact ⟨hread (show configDataformat "int_abcd" = .abcd by decide) (by decide) _ rfl,
          by decide⟩
      · exact ⟨hread (show configDataformat "uint_ab" = .ab by decide) (by decide) _ rfl,
          by decide⟩
      · exact ⟨hread rfl hknown _ rfl, show IntScaling 0 0 0 by decide⟩

theorem halvesExact_id : HalvesExact id := fun _ _ _ => rfl

theorem accepted_formats_carried_iff_example :
    FormatsCarried id (fun _ => 0)
      (parsedFormat "int_ab" (by decide) (by decide) rfl).config :=
  (accepted_formats_carried_iff _ halvesExact_id).2
    ⟨by decide, by decide, by decide⟩

/-- A channel in `float_ba` is accepted, and 21.5 degrees read as nothing; so is a write, and
nothing is ever written through it. -/
theorem accepted_float_ba_not_carried :
    readChannel .tcp none none (oneRegister 215 0) ⟨1, .holdingRegister, 0x1000, 0, 1, .fast, []⟩
        ⟨0, 2, .float_ba⟩ = .skipped ∧
      (∀ value, writeEncode id (fun _ => 0) (temperatureWrite .float_ba) value = none) ∧
      ¬ FormatsCarried id (fun _ => 0)
        (parsedFormat "float_ba" (by decide) (by decide) rfl).config := by
  have hskipped : readChannel .tcp none none (oneRegister 215 0)
      ⟨1, .holdingRegister, 0x1000, 0, 1, .fast, []⟩ ⟨0, 2, .float_ba⟩ = .skipped :=
    readChannel_float_ba id rfl
  refine ⟨hskipped, fun value => encodeScaled_float_ba 0 (-10) 0 value, fun h => ?_⟩
  have hread := h.inputs _ (List.mem_singleton.2 rfl) (temperatureChannel .float_ba)
    (List.mem_singleton.2 rfl) ⟨by decide, by decide, by decide⟩ .tcp none none (oneRegister 215 0)
    ⟨1, .holdingRegister, 0x1000, 0, 1, .fast, []⟩ ⟨0, 2, .float_ba⟩ (by simp) rfl (by decide)
  exact denotedValue_ne_skipped _ _ _ (hread.symm.trans hskipped)

end

end Modbusmq
