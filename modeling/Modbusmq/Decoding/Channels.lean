import Modbusmq.Core.Config
import Modbusmq.Transport.Dispatch

/-!
# What is decoded from a reply

The range check in front of the channel decoders, the bytes the decoders work
on, and the text a raw request is answered with. How a format turns its bytes
into a number is left out: it sees nothing but these bytes.
-/

namespace Modbusmq

/-- A C `int` after an operation that may have left its range. -/
def cInt (x : ℤ) : ℤ := x.bmod (2 ^ 32)

theorem cInt_eq {x : ℤ} (hlo : -2 ^ 31 ≤ x) (hhi : x < 2 ^ 31) : cInt x = x :=
  Int.bmod_eq_of_le (by omega) (by omega)

def channelByteOffset (config : Option Config) (input : Input) (channel : Channel) : ℤ :=
  let offsetSize : ℤ := match config with
    | some config => if 0 < config.offsetSize then config.offsetSize else 1
    | none => 1
  cInt (channel.offset * offsetSize - input.addressOffset * 2)

def channelBit (input : Input) (channel : Channel) : ℤ :=
  cInt (channel.offset - input.addressOffset)

def channelSize (channel : Channel) : ℕ :=
  if 0 < channel.length then channel.length else formatSize channel.format

def channelInRange (t : Transport) (config : Option Config) (r : Frame .reader) (input : Input)
    (channel : Channel) : Bool :=
  let nbytes := frameNbytes t r
  if input.type.IsBit then
    let bit := channelBit input channel
    if bit < 0 ∨ nbytes < 0 ∨ nbytes ≤ bit.tdiv 8 then false else true
  else
    let offset := channelByteOffset config input channel
    if offset < 0 ∨ nbytes < 0 ∨ nbytes < cInt (offset + channelSize channel) then false else true

/-- How many bytes the decoder of a format reads: a text field all of its length, a number
or a date what its format takes, and a format without a decoder nothing. -/
def decodeSize (channel : Channel) : ℕ :=
  match channel.format with
  | .unknown | .float_ba => 0
  | .ascii_ab | .ascii_ba | .bcd_ab | .bcd_ba => channel.length
  | .version_ab | .version_abcd | .version_regs => channel.length
  | format => formatSize format

/-- The bytes `modbusmq_read_channel` or `modbusmq_read_channel_text` decodes; `none` where
the range check skips the channel. -/
def channelData (t : Transport) (config : Option Config) (r : Frame .reader) (input : Input)
    (channel : Channel) : Option (List UInt8) :=
  if channelInRange t config r input channel then
    if input.type.IsBit then some [frameData t r ((channelBit input channel).toNat / 8)]
    else some ((List.range (decodeSize channel)).map fun i =>
      frameData t r ((channelByteOffset config input channel).toNat + i))
  else none

/-- A channel as a parsed configuration leaves it: a length, if there is one, holds the
format. The sum in the range check is an `int`; beyond that the source is undefined. -/
structure Channel.Configured (channel : Channel) (config : Option Config) (input : Input) :
    Prop where
  sized : channel.length = 0 ∨ formatSize channel.format ≤ channel.length
  int : channelByteOffset config input channel + channelSize channel < 2 ^ 31

def hexDigit (n : ℕ) : Char := if n < 10 then Char.ofNat (48 + n) else Char.ofNat (55 + n)

def hexWord (n : ℕ) : String :=
  String.ofList ['0', 'x', hexDigit (n / 4096 % 16), hexDigit (n / 256 % 16),
    hexDigit (n / 16 % 16), hexDigit (n % 16)]

/-- The result `modbusmq_raw_done` prints: bits as a string of digits, registers as words,
and a write as ok. -/
def rawResult (t : Transport) (fc count : ℕ) (r : Frame .reader) : String :=
  match fc with
  | 1 | 2 =>
    String.ofList ((List.range count).map fun i =>
      Char.ofNat (48 + ((frameData t r (i / 8)).toNat >>> (i % 8) &&& 1)))
  | 3 | 4 =>
    String.intercalate " " ((List.range count).map fun i =>
      hexWord (be16 (frameData t r (2 * i)) (frameData t r (2 * i + 1))))
  | _ => "ok"

example : hexWord 0x12AF = "0x12AF" := by decide

/-- The payload lies inside the received bytes. -/
structure PayloadReceived (t : Transport) (r : Frame .reader) : Prop where
  header : t.dataOffset ≤ r.xmit
  payload : (t.dataOffset : ℤ) + frameNbytes t r ≤ r.xmit

theorem SameReceived.frameNbytes {t : Transport} {r r' : Frame .reader}
    (h : SameReceived r r') (hheader : t.dataOffset ≤ r.xmit) :
    frameNbytes t r' = frameNbytes t r := by
  cases t with
  | tcp =>
    change 9 ≤ r.xmit at hheader
    simp only [Modbusmq.frameNbytes, tcpFrameNbytes]
    rw [h.buf 7 (by omega), h.buf 8 (by omega)]
  | rtu =>
    change 3 ≤ r.xmit at hheader
    simp only [Modbusmq.frameNbytes, rtuFrameNbytes]
    rw [h.buf 1 (by omega), h.buf 2 (by omega)]

theorem SameReceived.frameData {t : Transport} {r r' : Frame .reader}
    (h : SameReceived r r') (hr : PayloadReceived t r) {i : ℕ}
    (hi : (i : ℤ) < Modbusmq.frameNbytes t r) : frameData t r' i = frameData t r i := by
  have hpayload := hr.payload
  exact h.buf _ (by omega)

theorem decodeSize_le {channel : Channel} {config : Option Config} {input : Input}
    (h : channel.Configured config input) : decodeSize channel ≤ channelSize channel := by
  have hsized := h.sized
  unfold decodeSize channelSize
  cases hformat : channel.format
  all_goals
    rw [hformat] at hsized
    simp only [formatSize] at hsized ⊢
    split_ifs <;> omega

/-- A channel is decoded from received bytes, and skipped on account of received bytes. -/
theorem channelData_congr {t : Transport} {config : Option Config} {r r' : Frame .reader}
    {input : Input} {channel : Channel} (h : SameReceived r r') (hr : PayloadReceived t r)
    (hchannel : channel.Configured config input) :
    channelData t config r' input channel = channelData t config r input channel := by
  have hnbytes := h.frameNbytes hr.header
  have hrange : channelInRange t config r' input channel =
      channelInRange t config r input channel := by
    unfold channelInRange
    rw [hnbytes]
  unfold channelData
  rw [hrange]
  by_cases hin : channelInRange t config r input channel = true
  · rw [if_pos hin, if_pos hin]
    unfold channelInRange at hin
    by_cases hbit : input.type.IsBit
    · rw [if_pos hbit] at hin
      rw [if_pos hbit, if_pos hbit]
      dsimp only at hin
      split_ifs at hin with hout
      have hindex : (channelBit input channel).tdiv 8 = channelBit input channel / 8 :=
        Int.tdiv_eq_ediv_of_nonneg (by omega)
      rw [hindex] at hout
      rw [h.frameData hr (by omega)]
    · rw [if_neg hbit] at hin
      rw [if_neg hbit, if_neg hbit]
      dsimp only at hin
      split_ifs at hin with hout
      have hsize := decodeSize_le hchannel
      have hint : cInt (channelByteOffset config input channel + channelSize channel) =
          channelByteOffset config input channel + channelSize channel := by
        have hlt := hchannel.int
        exact Int.bmod_eq_of_le (by omega) (by omega)
      rw [hint] at hout
      congr 1
      apply List.map_congr_left
      intro i hi
      rw [List.mem_range] at hi
      exact h.frameData hr (by omega)
  · rw [if_neg hin, if_neg hin]

theorem rawResult_congr {t : Transport} {fc count : ℕ} {r r' : Frame .reader}
    (h : SameReceived r r') (hr : PayloadReceived t r)
    (hasked : ((if fc = 1 ∨ fc = 2 then (count + 7) / 8 else count * 2 : ℕ) : ℤ) ≤
      frameNbytes t r) :
    rawResult t fc count r' = rawResult t fc count r := by
  have hbits : (fc = 1 ∨ fc = 2) → ∀ i ∈ List.range count,
      frameData t r' (i / 8) = frameData t r (i / 8) := by
    intro hfc i hi
    rw [if_pos hfc] at hasked
    rw [List.mem_range] at hi
    exact h.frameData hr (by omega)
  have hwords : ¬ (fc = 1 ∨ fc = 2) → ∀ i ∈ List.range count,
      frameData t r' (2 * i) = frameData t r (2 * i) ∧
        frameData t r' (2 * i + 1) = frameData t r (2 * i + 1) := by
    intro hfc i hi
    rw [if_neg hfc] at hasked
    rw [List.mem_range] at hi
    exact ⟨h.frameData hr (by omega), h.frameData hr (by omega)⟩
  unfold rawResult
  split
  · rw [List.map_congr_left fun i hi => by rw [hbits (.inl rfl) i hi]]
  · rw [List.map_congr_left fun i hi => by rw [hbits (.inr rfl) i hi]]
  · rw [List.map_congr_left fun i hi => by
      rw [(hwords (by decide) i hi).1, (hwords (by decide) i hi).2]]
  · rw [List.map_congr_left fun i hi => by
      rw [(hwords (by decide) i hi).1, (hwords (by decide) i hi).2]]
  · rfl

end Modbusmq
