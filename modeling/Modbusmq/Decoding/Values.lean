import Modbusmq.Decoding.Channels
import Modbusmq.Decoding.Formats

/-!
# Reading a channel

What `modbusmq_read_channel` takes from a reply, before `add`, `mod` and `mul`
are applied to it.
-/

namespace Modbusmq

/-- `modbusmq_channel_is_na`; the marker is `none` where the configuration has none. -/
def channelIsNa (naValue : Option ℕ) (format : DataFormat) (data : List UInt8) : Bool :=
  match naValue with
  | none => false
  | some na =>
    match format with
    | .ab | .int16_ab => be16 (data.getD 0 0) (data.getD 1 0) = na
    | .ba | .int16_ba => be16 (data.getD 1 0) (data.getD 0 0) = na
    | _ => false

/-- The result for one channel; `skipped` is its 0 for a channel out of range or without a
decoder, `na` its NaN. -/
inductive ChannelValue
  | skipped
  | na
  | raw (value : Raw)
  deriving DecidableEq, Repr

def readChannel (t : Transport) (config : Option Config) (naValue : Option ℕ) (r : Frame .reader)
    (input : Input) (channel : Channel) : ChannelValue :=
  match channelData t config r input channel with
  | none => .skipped
  | some data =>
    if input.type.IsBit then
      .raw (.int ((data.getD 0 0).toNat >>> ((channelBit input channel).toNat % 8) &&& 1 : ℕ))
    else if channelIsNa naValue channel.format data then .na
    else (readRaw channel.format data).elim .skipped .raw

/-- The word a 16-bit format carries is the device's marker for "no value". -/
def IsMarker (naValue : Option ℕ) (format : DataFormat) (value : ℚ) : Prop :=
  (format = .ab ∨ format = .int16_ab ∨ format = .ba ∨ format = .int16_ba) ∧
    naValue = some (truncate value % 65536).toNat

instance (naValue : Option ℕ) (format : DataFormat) (value : ℚ) :
    Decidable (IsMarker naValue format value) :=
  inferInstanceAs (Decidable (_ ∧ _))

/-- An encoded value is taken for the marker exactly when it is the marker. -/
theorem channelIsNa_encodeValue {naValue : Option ℕ} {format : DataFormat} {value : ℚ}
    {single : UInt32} {bytes : List UInt8} (h : encodeValue format value single = some bytes) :
    channelIsNa naValue format bytes = decide (IsMarker naValue format value) := by
  have hword := be16_byteOf (truncate value)
  have hmarker : ∀ na, be16 (byteOf (truncate value / 256)) (byteOf (truncate value)) = na ↔
      some na = some (truncate value % 65536).toNat := by
    intro na
    rw [Option.some_inj]
    omega
  cases naValue with
  | none => exact (decide_eq_false fun hno => nomatch hno.2).symm
  | some na =>
    unfold channelIsNa IsMarker
    cases format <;> cases h
    case some.ab | some.ba | some.int16_ab | some.int16_ba =>
      simpa using hmarker na
    all_goals simp

end Modbusmq
