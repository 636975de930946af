import Modbusmq.Decoding.TextValues

/-!
# Word-swapped epochs

`epoch32_badc` is there for a device that sends the low register of a time stamp
first. Its decoder and its encoder exchange the bytes of each register instead.
-/

namespace Modbusmq

def stampBytes (stamp : UInt32) : List UInt8 :=
  [wordByte stamp 24, wordByte stamp 16, wordByte stamp 8, wordByte stamp 0]

/-- Two registers with the other one first. -/
def exchangeRegisters : List UInt8 → List UInt8
  | [a, b, c, d] => [c, d, a, b]
  | bytes => bytes

/-- What `epoch32_badc` is documented to do with a time stamp. -/
structure WordSwapped (stamp : UInt32) : Prop where
  decoded : epochRaw .epoch32_badc (exchangeRegisters (stampBytes stamp)) = stamp
  read : ∀ (library : TimeLibrary) (channel : TextChannel) (t : Transport)
    (config : Option Config) (r : Frame .reader) (input : Input),
    channel.format = .epoch32_badc → ¬ input.type.IsBit →
      channelData t config r input channel.toChannel = some (exchangeRegisters (stampBytes stamp)) →
        readChannelText library t config r input channel textMax =
          textEpoch library channel stamp textMax
  encoded : ∀ (channel : Channel) (text : List UInt8) (room : ℕ),
    channel.format = .epoch32_badc → channel.length = 4 → 4 ≤ room →
      strtoull 0 text = some (stamp.toNat, []) →
        encodeText channel text room = (true, exchangeRegisters (stampBytes stamp))

theorem epochRaw_stampBytes (stamp : UInt32) : epochRaw .epoch32_abcd (stampBytes stamp) = stamp :=
  be32_wordByte stamp

theorem doubleOf_exact {n : ℕ} (h : n < 2 ^ 53) : doubleOf n = n := by
  have hlog : n.log2 - 52 = 0 := by
    rcases Nat.eq_zero_or_pos n with rfl | hpos
    · rfl
    · have := (Nat.log2_lt hpos.ne').2 h
      omega
  simp [doubleOf, hlog, Nat.mod_one]

theorem encodeText_epoch {channel : Channel} {text : List UInt8} {room : ℕ} {stamp : UInt32}
    (hlength : channel.length = 4) (hroom : 4 ≤ room)
    (htext : strtoull 0 text = some (stamp.toNat, [])) :
    (channel.format = .epoch32_abcd → encodeText channel text room = (true, stampBytes stamp)) ∧
      (channel.format = .epoch32_badc → encodeText channel text room =
        (true, [wordByte stamp 16, wordByte stamp 24, wordByte stamp 0, wordByte stamp 8])) := by
  have hexact : doubleOf stamp.toNat = stamp.toNat :=
    doubleOf_exact (stamp.toNat_lt.trans (by decide))
  have htruncate : truncate ((stamp.toNat : ℕ) : ℚ) = stamp.toNat := by
    exact_mod_cast truncate_intCast (stamp.toNat : ℤ)
  have hword : UInt32.ofInt (truncate ((stamp.toNat : ℕ) : ℚ)) = stamp := by
    rw [htruncate]
    exact ofInt_word (emod_word stamp.toNat_lt)
  constructor <;> intro hformat <;> unfold encodeText <;>
    rw [if_neg (by omega), hformat, hlength] <;> dsimp only <;> unfold encodeEpoch <;>
    rw [htext] <;> dsimp only <;> rw [hexact] <;>
    simp only [encodeValue, DataFormat.IsFloat, if_false, hword] <;> rfl

/-- `epoch32_badc` does what it is documented to do for a time stamp exactly if the time stamp
has the same bytes from either end. -/
theorem word_swapped_iff (stamp : UInt32) : WordSwapped stamp ↔
    wordByte stamp 24 = wordByte stamp 0 ∧ wordByte stamp 16 = wordByte stamp 8 := by
  have himage : epochRaw .epoch32_badc (exchangeRegisters (stampBytes stamp)) =
      be32 (wordByte stamp 0) (wordByte stamp 8) (wordByte stamp 16) (wordByte stamp 24) := rfl
  constructor
  · intro h
    have hbytes := wordByte_be32 (wordByte stamp 0) (wordByte stamp 8) (wordByte stamp 16)
      (wordByte stamp 24)
    rw [← himage, h.decoded] at hbytes
    exact ⟨hbytes.1, hbytes.2.1⟩
  · rintro ⟨houter, hinner⟩
    have hdecoded : epochRaw .epoch32_badc (exchangeRegisters (stampBytes stamp)) = stamp := by
      rw [himage, ← houter, ← hinner]
      conv_rhs => rw [← be32_wordByte stamp]
      rw [← houter, ← hinner]
    refine ⟨hdecoded, ?_, ?_⟩
    · intro library channel t config r input hformat hbit hdata
      unfold readChannelText
      rw [if_neg (by simp [textMax, hformat, formatIsText, hbit]), hdata]
      unfold decodeText
      rw [hformat]
      dsimp only
      rw [hdecoded]
    · intro channel text room hformat hlength hroom htext
      rw [(encodeText_epoch hlength hroom htext).2 hformat]
      simp only [exchangeRegisters, stampBytes, ← houter, ← hinner]

/-- A moment in September 2025, sent low register first, is read as one in 1970. -/
theorem word_swapped_misread : ¬ WordSwapped 0x68C67600 := by
  intro h
  exact absurd h.decoded (by decide +kernel)

end Modbusmq
