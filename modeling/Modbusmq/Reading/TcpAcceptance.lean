import Modbusmq.Reading.Outstanding

/-!
# What an accepted TCP reply is

`modbusmq_tcp_msg_check` compares the transaction, the protocol and the unit
ids and, from the ninth byte on, the function. It does not look at what a write
is answered with, and the allowance that lets an exception reply wait for its
code lets a frame through that ends before the code.
-/

namespace Modbusmq

def mbapLength (s : List UInt8) : ℕ := be16 (s.getD 4 0) (s.getD 5 0)

/-- The size of the echo a write is answered with, the MBAP header included. -/
def tcpEchoLength (function : UInt8) : ℕ := if function = maskWriteRegister then 14 else 12

/-- One complete TCP frame that answers the request. -/
structure TcpAnswers (w : Frame .writer) (s : List UInt8) : Prop where
  transaction : s.getD 0 0 = w.buf 0 ∧ s.getD 1 0 = w.buf 1
  protocol : s.getD 2 0 = w.buf 2 ∧ s.getD 3 0 = w.buf 3
  unit : s.getD 6 0 = tcpFrameSlave w
  function : s.getD 7 0 = tcpFrameFunction w
  normal : ¬ HasExceptionBit (s.getD 7 0)
  declared : mbapLength s + 6 = s.length
  echo : IsWrite (tcpFrameFunction w) → s.length = tcpEchoLength (tcpFrameFunction w)

/-- What the check relies on without looking: the frame does not end right behind the
function byte of an exception, and a write's reply is sized like its echo. -/
structure TcpWellSized (w : Frame .writer) (s : List UInt8) : Prop where
  codePresent : HasExceptionBit (s.getD 7 0) → mbapLength s ≠ 2
  echoSized : IsWrite (tcpFrameFunction w) → mbapLength s + 6 = tcpEchoLength (tcpFrameFunction w)

instance (w : Frame .writer) (s : List UInt8) : Decidable (TcpWellSized w s) :=
  decidable_of_iff
    ((HasExceptionBit (s.getD 7 0) → mbapLength s ≠ 2) ∧
      (IsWrite (tcpFrameFunction w) → mbapLength s + 6 = tcpEchoLength (tcpFrameFunction w)))
    ⟨fun h => ⟨h.1, h.2⟩, fun h => ⟨h.1, h.2⟩⟩

theorem tcpMsgCheck_reader (w : Frame .writer) (r : Frame .reader) :
    (tcpMsgCheck w r).2 = (tcpMsgCheckHeader w r).2 := by
  unfold tcpMsgCheck
  dsimp only
  split_ifs <;> rfl

theorem tcpMsgCheckHeader_again (w : Frame .writer) (r : Frame .reader) :
    tcpMsgCheckHeader w (tcpMsgCheckHeader w r).2 = tcpMsgCheckHeader w r := by
  by_cases hsame : (tcpMsgCheckHeader w r).2 = r
  · rw [hsame]
  · unfold tcpMsgCheckHeader at hsame
    split_ifs at hsame with hid hprotocol hsize hdeclared
    · exact absurd rfl hsame
    · exact absurd rfl hsame
    · have hresized : tcpMsgCheckHeader w r =
          (tcpCheckAddressee w r, r.resize (tcpDeclared r)) := by
        unfold tcpMsgCheckHeader
        rw [if_neg hid, if_neg hprotocol, if_pos hsize, if_pos hdeclared]
      rw [hresized]
      exact (if_neg hid).trans ((if_neg hprotocol).trans ((if_pos hsize).trans (if_pos hdeclared)))
    · exact absurd rfl hsame
    · exact absurd rfl hsame

theorem tcpMsgCheck_accepts {w : Frame .writer} {r : Frame .reader}
    (h : (tcpMsgCheck w r).1 = 0) :
    0 ≤ (tcpMsgCheckHeader w r).1 ∧ w.xmit = w.length ∧
      (tcpMsgCheckHeader w r).2.xmit = (tcpMsgCheckHeader w r).2.length := by
  unfold tcpMsgCheck at h
  dsimp only at h
  split_ifs at h with hneg hsent hwhole
  · exact absurd h hneg.ne
  · exact absurd h (by simp)
  · exact absurd h (by simp)
  · exact ⟨not_lt.1 hneg, not_not.1 hsent, not_not.1 hwhole⟩

/-- An addressee check that passes has matched the unit and the function, or has seen an
exception bit and no ninth byte. -/
theorem tcpCheckAddressee_passes {w : Frame .writer} {r : Frame .reader} (h8 : 8 ≤ r.xmit)
    (h : 0 ≤ tcpCheckAddressee w r) :
    w.buf 6 = r.buf 6 ∧ (w.buf 7 = r.buf 7 ∨ HasExceptionBit (r.buf 7) ∧ r.xmit < 9) := by
  unfold tcpCheckAddressee at h
  split_ifs at h with hunit hfunction hwaits
  · exact absurd h (by decide)
  · have hu : w.buf 6 = r.buf 6 := not_not.1 fun hne => hunit ⟨by omega, hne⟩
    exact ⟨hu, .inr hwaits⟩
  · exact absurd h (by decide)
  · have hu : w.buf 6 = r.buf 6 := not_not.1 fun hne => hunit ⟨by omega, hne⟩
    have hf : w.buf 7 = r.buf 7 := not_not.1 fun hne => hfunction ⟨h8, hne⟩
    exact ⟨hu, .inl hf⟩

theorem tcpMsgCheckHeader_passes {w : Frame .writer} {r : Frame .reader} (h8 : 8 ≤ r.xmit)
    (h : 0 ≤ (tcpMsgCheckHeader w r).1) :
    (w.buf 0 = r.buf 0 ∧ w.buf 1 = r.buf 1) ∧
      (r.buf 2 = 0 ∧ r.buf 3 = 0 ∧ w.buf 2 = 0 ∧ w.buf 3 = 0) ∧
      0 ≤ tcpCheckAddressee w r := by
  unfold tcpMsgCheckHeader at h
  split_ifs at h with htransaction hprotocol hsize hfits
  · exact absurd h (by simp)
  · exact absurd h (by simp)
  · exact ⟨not_not.1 fun hne => htransaction ⟨by omega, hne⟩,
      not_not.1 fun hne => hprotocol ⟨by omega, hne⟩, h⟩
  · exact absurd h (by simp)
  · exact ⟨not_not.1 fun hne => htransaction ⟨by omega, hne⟩,
      not_not.1 fun hne => hprotocol ⟨by omega, hne⟩, h⟩

/-- What the TCP check establishes about a reader that holds its bytes. -/
structure TcpAccepted (w : Frame .writer) (held : List UInt8) : Prop where
  sized : 8 ≤ held.length
  declared : mbapLength held + 6 = held.length
  transaction : held.getD 0 0 = w.buf 0 ∧ held.getD 1 0 = w.buf 1
  protocol : held.getD 2 0 = w.buf 2 ∧ held.getD 3 0 = w.buf 3
  unit : held.getD 6 0 = w.buf 6
  function : held.getD 7 0 = w.buf 7 ∨ HasExceptionBit (held.getD 7 0) ∧ held.length = 8

theorem Receiving.tcpAccepted {w : Frame .writer} {r : Frame .reader} {held : List UInt8}
    (hheld : Receiving .tcp w r held) (h : (tcpMsgCheck w r).1 = 0) :
    TcpAccepted w held ∧ (tcpMsgCheck w r).2 = r := by
  have hframe := hheld.frame
  have hlo := (expectedLength_bounds w hheld.usable).1
  subst hframe
  obtain ⟨hv, -, hwhole⟩ := tcpMsgCheck_accepts h
  have hcheck := tcpMsgCheckHeader_holding w held
  change tcpMsgCheckHeader w (.holding held (expectedLength .tcp w held)) = _ at hcheck
  have hlen : held.length = tcpExpectedLength held := by
    rw [hcheck] at hwhole
    exact hwhole
  have h8 : 8 ≤ held.length := by
    change 8 ≤ tcpExpectedLength held at hlo
    omega
  obtain ⟨htransaction, ⟨hr2, hr3, hw2, hw3⟩, haddressee⟩ := tcpMsgCheckHeader_passes h8 hv
  obtain ⟨hunit, hfunction⟩ := tcpCheckAddressee_passes h8 haddressee
  have hdeclared : tcpExpectedLength held = mbapLength held + 6 := if_neg (by omega)
  refine ⟨⟨h8, by omega, ⟨htransaction.1.symm, htransaction.2.symm⟩,
    ⟨hr2.trans hw2.symm, hr3.trans hw3.symm⟩, hunit.symm, ?_⟩, ?_⟩
  · rcases hfunction with hf | ⟨hbit, hshort⟩
    · exact .inl hf.symm
    · have hshort' : held.length < 9 := hshort
      exact .inr ⟨hbit, by omega⟩
  · rw [tcpMsgCheck_reader, hcheck]
    rfl

/-- The TCP check is sound for replies that are sized like an answer, and for no others. -/
theorem tcp_accepted_reply_answers_iff {m : Msg} (hout : Outstanding .tcp m)
    (h : (check .tcp m.writer m.reader).1 = 0) :
    TcpAnswers m.writer (received m) ↔ TcpWellSized m.writer (received m) := by
  have hheld := hout.receiving (tcpMsgCheck_accepts h).2.1
  obtain ⟨haccepted, -⟩ := hheld.tcpAccepted h
  have hdeclared := haccepted.declared
  constructor
  · intro hanswer
    refine ⟨fun hbit => absurd hbit hanswer.normal, fun hwrite => ?_⟩
    rw [hdeclared]
    exact hanswer.echo hwrite
  · intro hsized
    have hfunction : (received m).getD 7 0 = m.writer.buf 7 := by
      rcases haccepted.function with hf | ⟨hbit, hlen⟩
      · exact hf
      · exact absurd (by omega) (hsized.codePresent hbit)
    refine ⟨haccepted.transaction, haccepted.protocol, haccepted.unit, hfunction, ?_,
      hdeclared, fun hwrite => ?_⟩
    · rw [hfunction]
      rcases hout.underway.request.function with hread | hwrite
      · exact hread.not_exception
      · exact hwrite.not_exception
    · rw [← hdeclared]
      exact hsized.echoSized hwrite

/-- A poll of one register that is answered. -/
theorem tcp_accepted_reply_answers_iff_example :
    TcpAnswers (sentPoll .tcp 1).writer [0, 1, 0, 0, 0, 5, 1, 3, 2, 0x12, 0x34] := by
  have hreceived : received (readMore .tcp (readMore .tcp (sentPoll .tcp 1)
      [0, 1, 0, 0, 0, 5, 1, 3]).msg [2, 0x12, 0x34]).msg =
        [0, 1, 0, 0, 0, 5, 1, 3, 2, 0x12, 0x34] := by
    decide +kernel
  have hout := readMore_outstanding
    (readMore_outstanding (sentPoll_outstanding .tcp 1 (by decide +kernel))
      [0, 1, 0, 0, 0, 5, 1, 3] (by decide +kernel)) [2, 0x12, 0x34] (by decide +kernel)
  have hanswer := (tcp_accepted_reply_answers_iff hout (by decide +kernel)).2 (by decide +kernel)
  rw [hreceived] at hanswer
  exact hanswer

/-- Register 7 of slave 1 written to, with the last byte of the request sent. -/
def sentWrite : Msg :=
  (writeMore .tcp (preparedMsg .tcp 1
    ⟨0, 1, 0, frameInit .tcp 1 writeSingleRegister 7 42, Frame.zero .reader⟩)).msg

theorem sentWrite_outstanding : Outstanding .tcp sentWrite :=
  writeMore_outstanding
    (.posted ⟨1, .writeRegister 7 42, 1, _, rfl, rfl, rfl⟩) (by decide +kernel)

/-- An exception that ends before its code acknowledges a write, and so does an echo that
ends behind the function byte. -/
theorem tcp_accepts_false_acknowledgements :
    (¬ ∀ m, Outstanding .tcp m → (check .tcp m.writer m.reader).1 = 0 →
      TcpAnswers m.writer (received m)) ∧
    ∃ m, Outstanding .tcp m ∧ (check .tcp m.writer m.reader).1 = 0 ∧
      IsWrite (tcpFrameFunction m.writer) ∧ received m = [0, 1, 0, 0, 0, 2, 1, 6] := by
  constructor
  · intro hsound
    have hout := readMore_outstanding sentWrite_outstanding
      [0, 1, 0, 0, 0, 2, 1, 0x86] (by decide +kernel)
    have hanswer := hsound _ hout (by decide +kernel)
    exact absurd hanswer.normal (by decide +kernel)
  · exact ⟨_, readMore_outstanding sentWrite_outstanding
      [0, 1, 0, 0, 0, 2, 1, 6] (by decide +kernel), by decide +kernel,
      by decide +kernel, by decide +kernel⟩

end Modbusmq
