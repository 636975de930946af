import Modbusmq.Core.Layout
import Modbusmq.Library.ShiftRegister

/-!
# What the CRC of a frame detects

The bit loop of `modbusmq_rtu_crc16` is a shift register of sixteen bits fed with
the frame in the order the line carries it, and a frame passes the check where the
register runs empty over all of it, CRC included. An error within sixteen
consecutive bits, wherever it falls, leaves something behind.
-/

namespace Modbusmq

def byteBits (b : UInt8) : List Bool := (List.range 8).map b.toBitVec.getLsbD

/-- The bits of a frame in the order they are sent. -/
def transmitted (frame : List UInt8) : List Bool := frame.flatMap byteBits

/-- An error pattern that is not empty and confined to 16 consecutive bits. -/
def IsBurst (error : List UInt8) : Prop :=
  ∃ (before after : ℕ) (burst : List Bool),
    transmitted error = List.replicate before false ++ burst ++ List.replicate after false ∧
      burst.length ≤ 16 ∧ true ∈ burst

/-- What `modbusmq_rtu_msg_check` compares on a complete frame. -/
def CrcPasses (r : Frame .reader) : Prop := rtuCarriedCrc r r.length = rtuComputedCrc r r.length

def crcPoly : BitVec 16 := 0xA001#16

theorem crcPoly_top : crcPoly.getLsbD (16 - 1) = true := by decide

theorem crc16Bit_toBitVec (crc : UInt16) :
    (crc16Bit crc).toBitVec = ShiftRegister.shift crcPoly crc.toBitVec := by
  have hodd : crc &&& 0x0001 ≠ 0 ↔ crc.toBitVec.getLsbD 0 = true := by
    rw [Ne, ← UInt16.toNat_inj, UInt16.toNat_and]
    change ¬ crc.toNat &&& 1 = 0 ↔ crc.toNat.testBit 0 = true
    rw [Nat.and_one_is_mod, Nat.testBit_zero, decide_eq_true_eq]
    omega
  unfold crc16Bit ShiftRegister.shift
  by_cases h : crc &&& 0x0001 ≠ 0
  · rw [if_pos h, if_pos (hodd.1 h)]
    rfl
  · rw [if_neg h, if_neg (mt hodd.2 h)]
    rfl

theorem crc16Bit_iterate (k : ℕ) (crc : UInt16) :
    (crc16Bit^[k] crc).toBitVec = (ShiftRegister.shift crcPoly)^[k] crc.toBitVec := by
  induction k generalizing crc with
  | zero => rfl
  | succ k ih =>
    rw [Function.iterate_succ_apply, Function.iterate_succ_apply, ih, crc16Bit_toBitVec]

@[simp] theorem byteBits_length (b : UInt8) : (byteBits b).length = 8 := by simp [byteBits]

theorem byteBits_getD (b : UInt8) (i : ℕ) : (byteBits b).getD i false = b.toBitVec.getLsbD i := by
  by_cases hi : i < 8
  · simp [byteBits, List.getD_eq_getElem?_getD, hi]
  · rw [List.getD_eq_default _ _ (by simpa using hi), BitVec.getLsbD_of_ge _ _ (by omega)]

theorem word_byteBits (b : UInt8) :
    ShiftRegister.word 16 (byteBits b) = b.toUInt16.toBitVec := by
  apply BitVec.eq_of_getLsbD_eq
  intro i hi
  rw [ShiftRegister.word_getLsbD, byteBits_getD, UInt8.toBitVec_toUInt16, BitVec.getLsbD_setWidth]

theorem crc16Byte_toBitVec (crc : UInt16) (b : UInt8) :
    (crc16Byte crc b).toBitVec = ShiftRegister.feed crcPoly (byteBits b) crc.toBitVec := by
  rw [crc16Byte, crc16Bit_iterate, ShiftRegister.feed_eq_iterate _ (by simp), word_byteBits,
    byteBits_length, UInt16.toBitVec_xor]

theorem crc16_toBitVec (frame : List UInt8) (crc : UInt16) :
    (frame.foldl crc16Byte crc).toBitVec =
      ShiftRegister.feed crcPoly (transmitted frame) crc.toBitVec := by
  induction frame generalizing crc with
  | nil => rfl
  | cons b frame ih =>
    rw [List.foldl_cons, ih, crc16Byte_toBitVec]
    exact (ShiftRegister.feed_append ..).symm

/-- The register after a whole frame, its CRC included. -/
def residue (frame : List UInt8) : BitVec 16 :=
  ShiftRegister.feed crcPoly (transmitted frame) 0xFFFF#16

/-- Two bytes with the bits of a 16-bit number, the low one first. -/
theorem crc_bytes (crc : UInt16) (lo hi : UInt8) :
    be16 hi lo = crc.toNat ↔
      ∀ i, crc.toBitVec.getLsbD i = (byteBits lo ++ byteBits hi).getD i false := by
  have hpair : ∀ i, (byteBits lo ++ byteBits hi).getD i false = (be16 hi lo).testBit i := by
    intro i
    rw [be16, Nat.testBit_or, Nat.testBit_shiftLeft]
    by_cases hi' : i < 8
    · rw [List.getD_append _ _ _ _ (by simpa using hi'), byteBits_getD, decide_eq_false (by omega),
        Bool.false_and, Bool.false_or]
      rfl
    · have hlow : lo.toNat.testBit i = false :=
        Nat.testBit_lt_two_pow (lo.toNat_lt.trans_le (Nat.pow_le_pow_right (by decide) (by omega)))
      rw [List.getD_append_right _ _ _ _ (by simpa using hi'), byteBits_getD, byteBits_length,
        decide_eq_true (by omega), Bool.true_and, hlow, Bool.or_false]
      rfl
  simp only [hpair]
  constructor
  · rintro h i
    rw [h]
    rfl
  · intro h
    apply Nat.eq_of_testBit_eq
    intro i
    rw [← h]
    rfl

theorem residue_eq_zero_iff (body : List UInt8) (lo hi : UInt8) :
    residue (body ++ [lo, hi]) = 0#16 ↔ be16 hi lo = (rtuCrc16 body).toNat := by
  have hsplit : transmitted (body ++ [lo, hi]) =
      transmitted body ++ (byteBits lo ++ byteBits hi) := by
    simp [transmitted]
  have hbody : ShiftRegister.feed crcPoly (transmitted body) 0xFFFF#16 = (rtuCrc16 body).toBitVec :=
    (crc16_toBitVec body 0xFFFF).symm
  rw [residue, hsplit, ShiftRegister.feed_append, hbody,
    ShiftRegister.feed_eq_zero_iff crcPoly_top (by simp), crc_bytes]

/-- A frame splits into what the CRC covers and the two bytes it is carried in. -/
theorem Frame.bytes_crc {role : Role} {f : Frame role} (h : 2 ≤ f.length) :
    f.bytes f.length = f.bytes (f.length - 2) ++ [f.buf (f.length - 2), f.buf (f.length - 1)] := by
  obtain ⟨n, hn⟩ := Nat.exists_eq_add_of_le' h
  rw [hn]
  simp [Frame.bytes, List.range_succ]

theorem crcPasses_iff {r : Frame .reader} (h : 2 ≤ r.length) :
    CrcPasses r ↔ residue (r.bytes r.length) = 0#16 := by
  rw [Frame.bytes_crc h, residue_eq_zero_iff]
  rfl

/-- `modbusmq_rtu_msg_check` takes no answer that fails the comparison. -/
theorem rtuMsgCheck_passes {w : Frame .writer} {r : Frame .reader} (hw : rtuMsgBroadcast w = false)
    (h : (rtuMsgCheck w r).1 = 0) : CrcPasses (rtuMsgCheck w r).2 := by
  unfold rtuMsgCheck at h ⊢
  dsimp only at h ⊢
  split_ifs at h ⊢ <;> simp_all [CrcPasses]

theorem transmitted_xor {xs ys : List UInt8} (h : xs.length = ys.length) :
    transmitted (List.zipWith (· ^^^ ·) xs ys) =
      List.zipWith xor (transmitted xs) (transmitted ys) := by
  induction xs generalizing ys with
  | nil => rfl
  | cons x xs ih =>
    cases ys with
    | nil => cases h
    | cons y ys =>
      have hbyte : byteBits (x ^^^ y) = List.zipWith xor (byteBits x) (byteBits y) := by
        simp [byteBits, List.zipWith_map, List.zipWith_self]
      have hrest := ih (Nat.succ.inj h)
      unfold transmitted at hrest ⊢
      rw [List.zipWith_cons_cons, List.flatMap_cons, hbyte, hrest, List.flatMap_cons,
        List.flatMap_cons, List.zipWith_append (by simp)]

theorem transmitted_length (frame : List UInt8) :
    (transmitted frame).length = 8 * frame.length := by
  simp [transmitted, List.length_flatMap, Nat.mul_comm]

/-- An error moves the residue by what it leaves in an empty register. -/
theorem residue_xor {sent error : List UInt8} (h : sent.length = error.length) :
    residue (List.zipWith (· ^^^ ·) sent error) =
      residue sent ^^^ ShiftRegister.feed crcPoly (transmitted error) 0#16 := by
  have hlength : (transmitted sent).length = (transmitted error).length := by
    rw [transmitted_length, transmitted_length, h]
  rw [residue, residue, ← ShiftRegister.feed_xor crcPoly hlength, transmitted_xor h,
    BitVec.xor_zero]

/-- What a CRC is for: the frame passes, and no burst of errors does. -/
structure CrcProtected (sent : List UInt8) : Prop where
  passes : ∀ r : Frame .reader, r.bytes r.length = sent → CrcPasses r
  detects : ∀ (error : List UInt8) (r : Frame .reader), error.length = sent.length →
    IsBurst error → r.bytes r.length = List.zipWith (· ^^^ ·) sent error → ¬ CrcPasses r
  refuses : ∀ (error : List UInt8) (w : Frame .writer) (r : Frame .reader),
    error.length = sent.length → IsBurst error → rtuMsgBroadcast w = false →
      (rtuMsgCheck w r).2.bytes (rtuMsgCheck w r).2.length = List.zipWith (· ^^^ ·) sent error →
        (rtuMsgCheck w r).1 ≠ 0

theorem residue_burst_ne {sent error : List UInt8} (hsent : residue sent = 0#16)
    (h : error.length = sent.length) (hburst : IsBurst error) :
    residue (List.zipWith (· ^^^ ·) sent error) ≠ 0#16 := by
  obtain ⟨before, after, burst, hbits, hlength, hset⟩ := hburst
  rw [residue_xor h.symm, hsent, BitVec.zero_xor, hbits]
  exact ShiftRegister.feed_burst_ne crcPoly_top hlength hset before after

theorem CrcProtected.of_residue {sent : List UInt8} (htwo : 2 ≤ sent.length)
    (h : residue sent = 0#16) : CrcProtected sent := by
  have hdetects : ∀ (error : List UInt8) (r : Frame .reader), error.length = sent.length →
      IsBurst error → r.bytes r.length = List.zipWith (· ^^^ ·) sent error → ¬ CrcPasses r := by
    intro error r hlength hburst hbytes hpasses
    have hr : r.length = sent.length := by
      rw [← Frame.bytes_length r r.length, hbytes, List.length_zipWith, hlength, Nat.min_self]
    rw [crcPasses_iff (by omega), hbytes] at hpasses
    exact residue_burst_ne h hlength hburst hpasses
  constructor
  · intro r hbytes
    have hr : r.length = sent.length := by
      rw [← hbytes, Frame.bytes_length]
    rwa [crcPasses_iff (by omega), hbytes]
  · exact hdetects
  · intro error w r hlength hburst hw hbytes hzero
    exact hdetects error _ hlength hburst hbytes (rtuMsgCheck_passes hw hzero)

/-- Every frame `modbusmq_rtu_msg_prepare` finishes is protected by the CRC it appends. -/
theorem prepared_crc_protected (m : Msg) :
    CrcProtected ((rtuMsgPrepare m).writer.bytes (rtuMsgPrepare m).writer.length) := by
  obtain ⟨hlength, hbytes⟩ := rtuMsgPrepare_bytes (rfl : m.writer.bytes m.writer.length = _)
  apply CrcProtected.of_residue
  · rw [Frame.bytes_length, hlength]
    omega
  · rw [hbytes, residue_eq_zero_iff]
    exact be16_byteOf_nat (rtuCrc16 _).toNat_lt

-- the error of one bit, sent last, in a frame of two
example : IsBurst [0x00, 0x80] := ⟨15, 0, [true], by decide, by decide, by decide⟩

end Modbusmq
