import Modbusmq.Decoding.Channels
import Modbusmq.Reading.RtuAcceptance
import Modbusmq.Reading.TcpAcceptance

/-!
# The payload of an accepted reply

The decoders trust the byte count of the reply. On RTU the header check has
compared it with the request; on TCP nothing has, so the payload is inside the
reply exactly when the reply's own fields agree with each other and with the
count that was asked for.
-/

namespace Modbusmq

/-- The payload of the reply an outstanding read has received holds what was asked for,
and nothing is decoded from anywhere else. -/
structure PayloadWindow (t : Transport) (m : Msg) : Prop where
  received : (t.dataOffset : ℤ) + frameNbytes t m.reader ≤ (received m).length
  asked : (bytesAsked t m.writer : ℤ) ≤ frameNbytes t m.reader
  channels : ∀ (config : Option Config) (input : Input) (channel : Channel),
    channel.Configured config input → ∀ r, SameReceived m.reader r →
      channelData t config r input channel = channelData t config m.reader input channel
  raw : ∀ r, SameReceived m.reader r →
    rawResult t (frameFunction t m.writer).toNat (frameNaddr t m.writer) r =
      rawResult t (frameFunction t m.writer).toNat (frameNaddr t m.writer) m.reader

/-- The length fields of a TCP reply agree: its byte count is covered by its MBAP length
and covers what was asked for. -/
structure TcpCountsAgree (w : Frame .writer) (s : List UInt8) : Prop where
  covered : 3 + (s.getD 8 0).toNat ≤ mbapLength s
  covers : bytesAsked .tcp w ≤ (s.getD 8 0).toNat

instance (w : Frame .writer) (s : List UInt8) : Decidable (TcpCountsAgree w s) :=
  decidable_of_iff (3 + (s.getD 8 0).toNat ≤ mbapLength s ∧ bytesAsked .tcp w ≤ (s.getD 8 0).toNat)
    ⟨fun h => ⟨h.1, h.2⟩, fun h => ⟨h.1, h.2⟩⟩

/-- Once the payload is received, a read whose count it covers is decoded from it alone. -/
theorem payloadWindow_of_received {t : Transport} {m : Msg}
    (hread : IsRead (frameFunction t m.writer)) (hpayload : PayloadReceived t m.reader)
    (hasked : (bytesAsked t m.writer : ℤ) ≤ frameNbytes t m.reader) : PayloadWindow t m where
  received := by
    rw [Modbusmq.received, Frame.bytes_length]
    exact hpayload.payload
  asked := hasked
  channels := fun _ _ _ hchannel _ hsame => channelData_congr hsame hpayload hchannel
  raw := by
    intro r hsame
    apply rawResult_congr hsame hpayload
    have hbits : ((frameFunction t m.writer).toNat = 1 ∨ (frameFunction t m.writer).toNat = 2) ↔
        (frameFunction t m.writer = readCoils ∨
          frameFunction t m.writer = readDiscreteInputs) := by
      rcases hread with h | h | h | h <;> rw [h] <;> decide
    simp only [hbits]
    exact hasked

theorem tcpFrameNbytes_holding {held : List UInt8} (n : ℕ) :
    frameNbytes .tcp (.holding held n) =
      if IsRead (held.getD 7 0) then ((held.getD 8 0).toNat : ℤ) else -1 := rfl

/-- The payload of an accepted TCP reply lies inside the reply and holds what was asked for
when the reply's length fields agree, and only then. -/
theorem tcp_payload_window_iff {m : Msg} (hout : Outstanding .tcp m)
    (hread : IsRead (frameFunction .tcp m.writer))
    (h : (check .tcp m.writer m.reader).1 = 0) :
    PayloadWindow .tcp m ↔ TcpCountsAgree m.writer (received m) := by
  have hheld := hout.receiving (tcpMsgCheck_accepts h).2.1
  obtain ⟨haccepted, -⟩ := hheld.tcpAccepted h
  have hdeclared := haccepted.declared
  have hnbytes : frameNbytes .tcp m.reader =
      if IsRead ((received m).getD 7 0) then (((received m).getD 8 0).toNat : ℤ) else -1 := by
    rw [hheld.frame]
    exact tcpFrameNbytes_holding _
  constructor
  · intro hwindow
    have hreceived := hwindow.received
    have hasked := hwindow.asked
    simp only [Transport.dataOffset] at hreceived
    rw [hnbytes] at hreceived hasked
    -- without a byte count the payload length is -1, which covers nothing
    split_ifs at hreceived hasked with hreply
    · exact ⟨by omega, by omega⟩
    · omega
  · intro hagree
    have hcovered := hagree.covered
    have hfunction : (received m).getD 7 0 = m.writer.buf 7 := by
      rcases haccepted.function with hf | ⟨-, hlen⟩
      · exact hf
      · omega
    have hreply : IsRead ((received m).getD 7 0) := by
      rw [hfunction]
      exact hread
    rw [if_pos hreply] at hnbytes
    have hxmit : m.reader.xmit = (received m).length := (Frame.bytes_length _ _).symm
    refine payloadWindow_of_received hread ⟨?_, ?_⟩ ?_
    · simp only [Transport.dataOffset]
      omega
    · simp only [Transport.dataOffset]
      omega
    · rw [hnbytes]
      exact_mod_cast hagree.covers

/-- A poll of one register that is answered. -/
theorem tcp_payload_window_iff_example :
    PayloadWindow .tcp (readMore .tcp (readMore .tcp (sentPoll .tcp 1)
      [0, 1, 0, 0, 0, 5, 1, 3]).msg [2, 0x12, 0x34]).msg :=
  (tcp_payload_window_iff (readMore_outstanding (readMore_outstanding
    (sentPoll_outstanding .tcp 1 (by decide +kernel)) _ (by decide +kernel)) _ (by decide +kernel))
    (by decide +kernel) (by decide +kernel)).2 (by decide +kernel)

/-- Ten registers asked for and none sent, under a byte count that promises all ten. -/
theorem tcp_payload_outside_reply :
    ¬ ∀ m, Outstanding .tcp m → IsRead (frameFunction .tcp m.writer) →
      (check .tcp m.writer m.reader).1 = 0 → PayloadWindow .tcp m := by
  intro hall
  have hwindow := hall _ (readMore_outstanding (readMore_outstanding
    (sentPoll_outstanding .tcp 10 (by decide +kernel))
    [0, 1, 0, 0, 0, 3, 1, 3] (by decide +kernel))
    [20] (by decide +kernel)) (by decide +kernel) (by decide +kernel)
  exact absurd hwindow.received (by decide +kernel)

end Modbusmq
