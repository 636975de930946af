import Modbusmq.Reading.Outstanding

/-!
# What an accepted RTU reply is

`modbusmq_rtu_msg_check` runs on the reader the staged reading left behind. A
reply it accepts is one complete frame from the slave that was asked, with the
function, the byte count and the length the request calls for and the right
CRC, and the payload the decoders are given ends before the CRC.
-/

namespace Modbusmq

/-- One complete RTU frame that answers the request. -/
structure RtuAnswers (w : Frame .writer) (s : List UInt8) : Prop where
  slave : s.getD 0 0 = rtuFrameSlave w
  function : s.getD 1 0 = rtuFrameFunction w
  normal : ¬ HasExceptionBit (s.getD 1 0)
  crc : CrcValid s
  byteCount : IsRead (rtuFrameFunction w) → (s.getD 2 0).toNat = bytesAsked .rtu w
  length : s.length = if IsRead (s.getD 1 0) then 3 + (s.getD 2 0).toNat + 2
    else rtuEchoLength (s.getD 1 0)

theorem rtuMsgCheck_reader (w : Frame .writer) (r : Frame .reader) :
    (rtuMsgCheck w r).2 = (rtuMsgCheckHeader w r).2 := by
  unfold rtuMsgCheck
  dsimp only
  split_ifs <;> rfl

theorem rtuSettleLength_again (n : ℕ) (r : Frame .reader) :
    rtuSettleLength n (rtuSettleLength n r).2 = rtuSettleLength n r := by
  unfold rtuSettleLength
  split_ifs <;> rfl

theorem rtuMsgCheckHeader_again (w : Frame .writer) (r : Frame .reader) :
    rtuMsgCheckHeader w (rtuMsgCheckHeader w r).2 = rtuMsgCheckHeader w r := by
  have hkept (n : ℕ) : (rtuSettleLength n r).2.xmit = r.xmit ∧
      (rtuSettleLength n r).2.buf = r.buf := by
    unfold rtuSettleLength
    split_ifs <;> exact ⟨rfl, rfl⟩
  by_cases hsame : (rtuMsgCheckHeader w r).2 = r
  · rw [hsame]
  by_cases hshort : r.xmit < 3
  · exact absurd (congrArg Prod.snd (if_pos hshort)) hsame
  by_cases hslave : w.buf 0 ≠ r.buf 0
  · exact absurd (congrArg Prod.snd ((if_neg hshort).trans (if_pos hslave))) hsame
  by_cases hfunction : w.buf 1 = r.buf 1
  · have hmatch : ∀ r' : Frame .reader, r'.xmit = r.xmit → r'.buf = r.buf →
        rtuMsgCheckHeader w r' = (rtuExpectedNbytes w).elim
          (rtuSettleLength (rtuEchoLength (rtuFrameFunction w)) r')
          fun expected => if (r.buf 2).toNat ≠ expected then (-4, r')
            else rtuSettleLength (expected + 3 + 2) r' := by
      intro r' hxmit hbuf
      unfold rtuMsgCheckHeader
      rw [hxmit, hbuf, if_neg hshort, if_neg hslave, if_pos hfunction]
      cases rtuExpectedNbytes w <;> rfl
    rw [hmatch r rfl rfl] at hsame ⊢
    cases hbytes : rtuExpectedNbytes w with
    | none =>
      rw [hbytes] at hmatch
      exact (hmatch _ (hkept _).1 (hkept _).2).trans (rtuSettleLength_again _ r)
    | some expected =>
      rw [hbytes] at hsame hmatch
      by_cases hcount : (r.buf 2).toNat ≠ expected
      · exact absurd (congrArg Prod.snd (if_pos hcount)) hsame
      · rw [Option.elim_some, if_neg hcount]
        exact (hmatch _ (hkept _).1 (hkept _).2).trans
          ((if_neg hcount).trans (rtuSettleLength_again _ r))
  by_cases hexception : r.buf 1 = w.buf 1 ||| 0x80
  · have hresized : rtuMsgCheckHeader w r = ((5 : ℤ) - r.xmit, r.resize 5) :=
      (if_neg hshort).trans ((if_neg hslave).trans ((if_neg hfunction).trans (if_pos hexception)))
    rw [hresized]
    exact (if_neg hshort).trans ((if_neg hslave).trans ((if_neg hfunction).trans (if_pos hexception)))
  · exact absurd (congrArg Prod.snd ((if_neg hshort).trans ((if_neg hslave).trans
      ((if_neg hfunction).trans (if_neg hexception))))) hsame

/-- What `modbusmq_rtu_msg_check` has established when it accepts a reply that is not that
of a broadcast. -/
theorem rtuMsgCheck_accepts {w : Frame .writer} {r : Frame .reader}
    (hb : rtuMsgBroadcast w = false) (h : (rtuMsgCheck w r).1 = 0) :
    0 ≤ (rtuMsgCheckHeader w r).1 ∧ w.xmit = w.length ∧
      (rtuMsgCheckHeader w r).2.xmit = (rtuMsgCheckHeader w r).2.length ∧
      ¬ HasExceptionBit ((rtuMsgCheckHeader w r).2.buf 1) ∧
      rtuCarriedCrc (rtuMsgCheckHeader w r).2 (rtuMsgCheckHeader w r).2.length =
        rtuComputedCrc (rtuMsgCheckHeader w r).2 (rtuMsgCheckHeader w r).2.length := by
  unfold rtuMsgCheck at h
  dsimp only at h
  split_ifs at h with hneg hsent hbroadcast hwhole hshort hbit hcrc
  · exact absurd h hneg.ne
  · exact absurd h (by simp)
  · exact absurd hbroadcast (by simp [hb])
  · exact absurd h (by simp)
  · exact absurd h (by simp)
  · exact absurd h (by simp)
  · exact absurd h (by simp)
  · exact ⟨not_lt.1 hneg, not_not.1 hsent, not_not.1 hwhole, hbit, not_not.1 hcrc⟩

theorem rtuExpectedNbytes_eq {w : Frame .writer} {expected : ℕ}
    (h : rtuExpectedNbytes w = some expected) : expected = bytesAsked .rtu w := by
  unfold rtuExpectedNbytes at h
  unfold bytesAsked
  change expected = if rtuFrameFunction w = readCoils ∨ rtuFrameFunction w = readDiscreteInputs
    then (rtuFrameNaddr w + 7) / 8 else rtuFrameNaddr w * 2
  split_ifs at h ⊢
  · exact (Option.some.inj h).symm
  · exact (Option.some.inj h).symm

/-- Without an exception bit the expected length is the one the function and the byte
count imply. -/
theorem rtuExpectedLength_normal {w : Frame .writer} {held : List UInt8}
    (h3 : 3 ≤ held.length) (hbit : ¬ HasExceptionBit (held.getD 1 0)) :
    rtuExpectedLength w held = if IsRead (held.getD 1 0) then 3 + (held.getD 2 0).toNat + 2
      else rtuEchoLength (held.getD 1 0) := by
  rw [rtuExpectedLength, if_neg (by omega)]
  by_cases hecho : w.buf 0 = held.getD 0 0 ∧ w.buf 1 = held.getD 1 0 ∧ rtuExpectedNbytes w = none
  · rw [if_pos hecho]
    obtain ⟨-, hfunction, hnone⟩ := hecho
    have hwrite : ¬ IsRead (held.getD 1 0) := fun h =>
      rtuExpectedNbytes_of_isRead (hfunction ▸ h) hnone
    rw [if_neg hwrite, hfunction]
  · rw [if_neg hecho, ownLength, if_neg hbit]

/-- A header check that passes without an exception bit has matched the slave, the function
and, for a read, the byte count. -/
theorem rtuMsgCheckHeader_matches {w : Frame .writer} {r : Frame .reader} (h3 : 3 ≤ r.xmit)
    (hv : 0 ≤ (rtuMsgCheckHeader w r).1) (hbit : ¬ HasExceptionBit (r.buf 1)) :
    w.buf 0 = r.buf 0 ∧ w.buf 1 = r.buf 1 ∧
      (IsRead (w.buf 1) → (r.buf 2).toNat = bytesAsked .rtu w) := by
  have hcase := rtuMsgCheckHeader_cases w r
  generalize rtuMsgCheckHeader w r = out at hcase hv
  cases hcase with
  | short h => omega
  | slave => exact absurd hv (by simp)
  | function => exact absurd hv (by simp)
  | byteCount => exact absurd hv (by simp)
  | exception _ _ _ he => exact absurd (he ▸ hasExceptionBit_or _) hbit
  | data _ hs hf hx hn => exact ⟨hs, hf, fun _ => hn.trans (rtuExpectedNbytes_eq hx)⟩
  | echo _ hs hf hx => exact ⟨hs, hf, fun h => absurd hx (rtuExpectedNbytes_of_isRead h)⟩

/-- A frame that holds its bytes and is accepted answers the request, and the check leaves
it as it was. -/
theorem Receiving.rtuAnswers {w : Frame .writer} {r : Frame .reader} {held : List UInt8}
    (hheld : Receiving .rtu w r held) (hb : rtuMsgBroadcast w = false)
    (h : (rtuMsgCheck w r).1 = 0) :
    RtuAnswers w held ∧ (rtuMsgCheck w r).2 = r := by
  have hframe := hheld.frame
  have hfits := hheld.fits
  subst hframe
  obtain ⟨hv, -, hwhole, hbit, hcrc⟩ := rtuMsgCheck_accepts hb h
  rw [rtuMsgCheck_reader]
  have hlo := (rtuExpectedLength_bounds w held).1
  by_cases h3 : held.length < 3
  · rw [rtuMsgCheckHeader, if_pos (by exact h3)] at hwhole
    have hlen : held.length = rtuExpectedLength w held := hwhole
    omega
  have hsized : 3 ≤ held.length := not_lt.1 h3
  have hsame : (rtuMsgCheckHeader w (.holding held (expectedLength .rtu w held))).2 =
      .holding held (rtuExpectedLength w held) := by
    refine (rtuMsgCheckHeader_holding _ hsized hfits).1 ?_
    rw [← checkHeader_verdict .rtu w held (expectedLength .rtu w held)]
    exact hv
  rw [hsame] at hwhole hbit hcrc ⊢
  have hlen : held.length = rtuExpectedLength w held := hwhole
  obtain ⟨hslave, hfunction, hcount⟩ := rtuMsgCheckHeader_matches hsized hv hbit
  refine ⟨⟨hslave.symm, hfunction.symm, hbit, ?_, hcount, ?_⟩, rfl⟩
  · rw [Frame.holding_length, ← hlen] at hcrc
    exact (rtuCrc_holding held _).1 hcrc
  · rw [hlen]
    exact rtuExpectedLength_normal hsized hbit

/-- The RTU acceptance check is sound: what it accepts for an outstanding request is one
complete frame that answers this request, and the payload ends before the CRC. -/
theorem rtu_accepted_reply_answers {m : Msg} (hout : Outstanding .rtu m)
    (hb : msgBroadcast .rtu m.writer = false) (h : (check .rtu m.writer m.reader).1 = 0) :
    RtuAnswers m.writer (received m) ∧ (check .rtu m.writer m.reader).2 = m.reader ∧
      (Transport.rtu.dataOffset : ℤ) + frameNbytes .rtu m.reader + 2 ≤ (received m).length := by
  have hsent := (rtuMsgCheck_accepts hb h).2.1
  have hheld := hout.receiving hsent
  obtain ⟨hanswer, hreader⟩ := hheld.rtuAnswers hb h
  refine ⟨hanswer, hreader, ?_⟩
  have hnbytes : frameNbytes .rtu m.reader =
      if IsRead ((received m).getD 1 0) then (((received m).getD 2 0).toNat : ℤ) else -1 := by
    rw [hheld.frame]
    rfl
  have hecho := rtuEchoLength_bounds ((received m).getD 1 0)
  have hlength := hanswer.length
  rw [hnbytes]
  simp only [Transport.dataOffset]
  split_ifs at hlength ⊢ <;> omega

/-- Two registers of slave 1, read in two pieces. -/
theorem rtu_accepted_reply_answers_example :
    (received (readMore .rtu (readMore .rtu (sentPoll .rtu 2) [1, 3, 4]).msg
      [0, 42, 0, 7, 0x9a, 0x39]).msg) = [1, 3, 4, 0, 42, 0, 7, 0x9a, 0x39] ∧
    RtuAnswers (sentPoll .rtu 2).writer [1, 3, 4, 0, 42, 0, 7, 0x9a, 0x39] := by
  have hreceived : (received (readMore .rtu (readMore .rtu (sentPoll .rtu 2) [1, 3, 4]).msg
      [0, 42, 0, 7, 0x9a, 0x39]).msg) = [1, 3, 4, 0, 42, 0, 7, 0x9a, 0x39] := by
    decide +kernel
  have hout := readMore_outstanding
    (readMore_outstanding (sentPoll_outstanding .rtu 2 (by decide +kernel))
      [1, 3, 4] (by decide +kernel)) [0, 42, 0, 7, 0x9a, 0x39] (by decide +kernel)
  have hanswer := (rtu_accepted_reply_answers hout (by decide +kernel) (by decide +kernel)).1
  rw [hreceived] at hanswer
  exact ⟨hreceived, hanswer⟩

end Modbusmq
