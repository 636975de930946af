import Modbusmq.Configuration.Keys
import Modbusmq.Decoding.Channels

/-!
# The range check

`modbusmq_channel_in_range` beside the place of a channel in unbounded integers.
Offsets come unchecked from the configuration, and the check computes with them
in `int`.
-/

namespace Modbusmq

/-- A channel as the range check reads it; a length below zero is none. -/
def ConfigChannel.channel (channel : ConfigChannel) : Channel where
  offset := channel.offset
  length := channel.length.toNat
  format := channel.format

def offsetUnit (config : Option Config) : ℤ :=
  match config with
  | some config => if 0 < config.offsetSize then config.offsetSize else 1
  | none => 1

def byteStart (config : Option Config) (input : Input) (channel : Channel) : ℤ :=
  channel.offset * offsetUnit config - input.addressOffset * 2

def bitPlace (input : Input) (channel : Channel) : ℤ := channel.offset - input.addressOffset

section

variable (t : Transport) (config : Option Config) (r : Frame .reader) (input : Input)
  (channel : Channel)

def InPayload : Prop :=
  if input.type.IsBit then
    0 ≤ bitPlace input channel ∧ bitPlace input channel < frameNbytes t r * 8
  else
    0 ≤ byteStart config input channel ∧
      byteStart config input channel + channelSize channel ≤ frameNbytes t r

/-- What is left of a bit or of an offset in 32 bits is in the payload where the number is not, or
the end of the channel is no `int`. -/
def WrapsInto : Prop :=
  0 ≤ frameNbytes t r ∧
    if input.type.IsBit then
      bitPlace input channel % 2 ^ 32 ≠ bitPlace input channel ∧
        bitPlace input channel % 2 ^ 32 < frameNbytes t r * 8
    else
      byteStart config input channel % 2 ^ 32 < 2 ^ 31 ∧
        (2 ^ 31 ≤ byteStart config input channel % 2 ^ 32 + channelSize channel ∨
          byteStart config input channel % 2 ^ 32 ≠ byteStart config input channel ∧
            byteStart config input channel % 2 ^ 32 + channelSize channel ≤ frameNbytes t r)

variable {t config r input channel}

instance : Decidable (InPayload t config r input channel) := inferInstanceAs (Decidable (ite _ _ _))

theorem cInt_nonneg {x : ℤ} : 0 ≤ cInt x ↔ x % 2 ^ 32 < 2 ^ 31 := by
  unfold cInt
  rw [Int.bmod_def]
  split_ifs <;> omega

theorem cInt_of_nonneg {x : ℤ} (h : 0 ≤ cInt x) : cInt x = x % 2 ^ 32 := by
  have hlow := cInt_nonneg.1 h
  unfold cInt
  rw [Int.bmod_def]
  exact if_pos (by omega)

/-- Adding a length to a place is exact, or it ends below zero. -/
theorem cInt_add {place size : ℤ} (hplace : 0 ≤ place) (hplace' : place < 2 ^ 31) (hsize : 0 ≤ size)
    (hsize' : size < 2 ^ 31) {n : ℤ} (hn : 0 ≤ n) (hn' : n < 2 ^ 31) :
    cInt (place + size) ≤ n ↔ 2 ^ 31 ≤ place + size ∨ place + size ≤ n := by
  unfold cInt
  rw [Int.bmod_def]
  split_ifs <;> omega

theorem frameNbytes_lt (t : Transport) (r : Frame .reader) : frameNbytes t r < 256 := by
  cases t with
  | tcp =>
    have hbyte := (r.buf 8).toNat_lt
    change (if IsRead (r.buf 7) then ((r.buf 8).toNat : ℤ) else -1) < 256
    split_ifs <;> omega
  | rtu =>
    have hbyte := (r.buf 2).toNat_lt
    change (if IsRead (r.buf 1) then ((r.buf 2).toNat : ℤ) else -1) < 256
    split_ifs <;> omega

theorem channelInRange_bit (hbit : input.type.IsBit) :
    channelInRange t config r input channel = true ↔
      0 ≤ frameNbytes t r ∧ bitPlace input channel % 2 ^ 32 < frameNbytes t r * 8 := by
  have hbytes := frameNbytes_lt t r
  have hplace : channelBit input channel = cInt (bitPlace input channel) := rfl
  have hresidue := Int.emod_nonneg (bitPlace input channel) (by decide : (2 ^ 32 : ℤ) ≠ 0)
  unfold channelInRange
  dsimp only
  rw [if_pos hbit, hplace]
  by_cases hlow : bitPlace input channel % 2 ^ 32 < 2 ^ 31
  · have hnonneg := cInt_nonneg.2 hlow
    rw [cInt_of_nonneg hnonneg, Int.tdiv_eq_ediv_of_nonneg hresidue]
    split_ifs with hout
    · exact iff_of_false id (by omega)
    · exact iff_of_true rfl (by omega)
  · have hnegative : cInt (bitPlace input channel) < 0 := by
      by_contra hnonneg
      exact hlow (cInt_nonneg.1 (not_lt.1 hnonneg))
    rw [if_pos (.inl hnegative)]
    exact iff_of_false Bool.false_ne_true (by omega)

theorem channelInRange_bytes (hbit : ¬ input.type.IsBit) (hsize : channelSize channel < 2 ^ 31) :
    channelInRange t config r input channel = true ↔
      0 ≤ frameNbytes t r ∧ byteStart config input channel % 2 ^ 32 < 2 ^ 31 ∧
        (2 ^ 31 ≤ byteStart config input channel % 2 ^ 32 + channelSize channel ∨
          byteStart config input channel % 2 ^ 32 + channelSize channel ≤ frameNbytes t r) := by
  have hbytes := frameNbytes_lt t r
  have hstart : channelByteOffset config input channel = cInt (byteStart config input channel) := rfl
  have hresidue := Int.emod_nonneg (byteStart config input channel) (by decide : (2 ^ 32 : ℤ) ≠ 0)
  unfold channelInRange
  dsimp only
  rw [if_neg hbit, hstart]
  by_cases hlow : byteStart config input channel % 2 ^ 32 < 2 ^ 31
  · have hnonneg := cInt_nonneg.2 hlow
    rw [cInt_of_nonneg hnonneg]
    by_cases hreply : 0 ≤ frameNbytes t r
    · have hend := cInt_add hresidue hlow (Int.natCast_nonneg _) (by exact_mod_cast hsize) hreply
        (by omega)
      rw [← hend]
      split_ifs with hout
      · exact iff_of_false id (by omega)
      · exact iff_of_true rfl (by omega)
    · rw [if_pos (.inr (.inl (not_le.1 hreply)))]
      exact iff_of_false Bool.false_ne_true (by omega)
  · have hnegative : cInt (byteStart config input channel) < 0 := by
      by_contra hnonneg
      exact hlow (cInt_nonneg.1 (not_lt.1 hnonneg))
    rw [if_pos (.inl hnegative)]
    exact iff_of_false Bool.false_ne_true (by omega)

theorem InPayload.channelInRange (h : InPayload t config r input channel)
    (hsize : channelSize channel < 2 ^ 31) :
    Modbusmq.channelInRange t config r input channel = true := by
  have hbytes := frameNbytes_lt t r
  unfold InPayload at h
  split_ifs at h with hbit
  · rw [channelInRange_bit hbit, Int.emod_eq_of_lt h.1 (by omega)]
    omega
  · rw [channelInRange_bytes hbit hsize, Int.emod_eq_of_lt h.1 (by omega)]
    omega

theorem channelInRange_iff (hsize : channelSize channel < 2 ^ 31) :
    channelInRange t config r input channel = true ↔
      InPayload t config r input channel ∨ WrapsInto t config r input channel := by
  refine ⟨fun hpassed => ?_, fun h => h.elim (·.channelInRange hsize) fun hwraps => ?_⟩
  · by_cases hbit : input.type.IsBit
    · rw [channelInRange_bit hbit] at hpassed
      unfold InPayload WrapsInto
      rw [if_pos hbit, if_pos hbit]
      omega
    · rw [channelInRange_bytes hbit hsize] at hpassed
      unfold InPayload WrapsInto
      rw [if_neg hbit, if_neg hbit]
      omega
  · unfold WrapsInto at hwraps
    split_ifs at hwraps with hbit
    · rw [channelInRange_bit hbit]
      exact ⟨hwraps.1, hwraps.2.2⟩
    · rw [channelInRange_bytes hbit hsize]
      exact ⟨hwraps.1, hwraps.2.1, hwraps.2.2.imp_right And.right⟩

theorem WrapsInto.outside (h : WrapsInto t config r input channel) :
    ¬ InPayload t config r input channel := by
  have hbytes := frameNbytes_lt t r
  unfold WrapsInto at h
  unfold InPayload
  split_ifs at h ⊢ with hbit
  · omega
  · omega

end

/-- The range check is exact but for a place that wraps into the payload. -/
theorem channel_range_exact_iff (t : Transport) (config : Option Config) (r : Frame .reader)
    (input : Input) {stored : ConfigChannel} (hlength : stored.length < 2 ^ 31) :
    (channelInRange t config r input stored.channel = true ↔
        InPayload t config r input stored.channel) ↔
      ¬ WrapsInto t config r input stored.channel := by
  have hsize : channelSize stored.channel < 2 ^ 31 := by
    have hformat : formatSize stored.channel.format < 2 ^ 31 :=
      (formatSize_le _).trans_lt (by decide)
    unfold channelSize
    split_ifs
    · exact (Int.toNat_lt' (by decide)).2 hlength
    · exact hformat
  rw [channelInRange_iff hsize]
  constructor
  · exact fun hexact hwraps => hwraps.outside (hexact.1 (.inr hwraps))
  · exact fun hno => ⟨fun hpassed => hpassed.resolve_right hno, .inl⟩

/-- A serial number of 64 bytes, close to the last `int`. -/
def farChannel : ConfigChannel :=
  { blankChannel with offset := 2147483600, length := 64, format := .ascii_ab, hasLength := true }

def farInput : Input := ⟨1, .holdingRegister, 0, 0, 1, .fast, [farChannel.channel]⟩

def farReply : Frame .reader := .holding [0, 1, 0, 0, 0, 5, 1, 3, 2, 0, 7] 11

theorem channel_range_exact_iff_example :
    (channelInRange .tcp none farReply farInput farChannel.channel = true ↔
        InPayload .tcp none farReply farInput farChannel.channel) ↔
      ¬ WrapsInto .tcp none farReply farInput farChannel.channel :=
  channel_range_exact_iff .tcp none farReply farInput (by decide)

/-- The sum of its offset and its length is below zero, and it is read far behind the reply. -/
theorem far_channel_in_range :
    configUnsigned "2147483600".toList = farChannel.offset ∧
      channelInRange .tcp none farReply farInput farChannel.channel = true ∧
      ¬ InPayload .tcp none farReply farInput farChannel.channel := by
  decide +kernel

end Modbusmq
