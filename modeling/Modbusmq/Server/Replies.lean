import Modbusmq.Reading.StaleFrames
import Modbusmq.Server.Agreement
import Modbusmq.Server.Connection

/-!
# Responses as the client reads them

Whatever the server makes of a request of the library is the answer or the exception
reply that the reader of this request waits for. The frame may come in any pieces; the
call that reads the last byte is the one that completes the request.
-/

namespace Modbusmq

/-- A request frame as `modbusmq_msg_prepare` leaves it, whatever part of it is sent. -/
structure WholeRequest (w : Frame .writer) : Prop extends RequestFrame .tcp w where
  length : 12 ≤ w.length
  declared : tcpDeclared w = w.length

/-- The request as the server has it when all of it is in. -/
def requestOf (w : Frame .writer) : Frame .reader := .holding (w.bytes w.length) w.length

/-- The exception reply to the request. -/
structure Refusal (w : Frame .writer) (s : List UInt8) : Prop where
  length : s.length = 9
  declared : declaredLength s = 9
  transaction : s.getD 0 0 = w.buf 0 ∧ s.getD 1 0 = w.buf 1
  protocol : s.getD 2 0 = 0 ∧ s.getD 3 0 = 0
  unit : s.getD 6 0 = w.buf 6
  function : s.getD 7 0 = w.buf 7 ||| 0x80
  code : s.getD 8 0 ≠ 0

/-- A frame that ends the request. -/
def Reply (w : Frame .writer) (s : List UInt8) : Prop := Answer .tcp w s ∨ Refusal w s

theorem preparedMsg_declared {m : Msg} (transactionId : ℕ) (hfits : m.writer.length ≤ frameMax)
    (hsix : 6 ≤ m.writer.length) :
    tcpDeclared (tcpMsgPrepare transactionId m).writer = m.writer.length := by
  have hfour : (tcpMsgPrepare transactionId m).writer.buf 4 =
      byteOf (((m.writer.length : ℤ) - 6) / 256) := rfl
  have hfive : (tcpMsgPrepare transactionId m).writer.buf 5 =
      byteOf ((m.writer.length : ℤ) - 6) := rfl
  have hword := be16_byteOf ((m.writer.length : ℤ) - 6)
  unfold tcpDeclared
  rw [hfour, hfive]
  unfold frameMax at hfits
  omega

theorem Posted.wholeRequest {m : Msg} (h : Posted .tcp m) : WholeRequest m.writer := by
  have hframe := h.requestFrame
  obtain ⟨slaveId, request, transactionId, m₀, hbuild, -, rfl⟩ := h
  have hbuilt := (Request.build_built hbuild).header
  have hlength : (preparedMsg .tcp transactionId m₀).writer.length = m₀.writer.length := rfl
  have hfits := hframe.fits
  rw [hlength] at hfits
  exact ⟨hframe, hbuilt, preparedMsg_declared transactionId hfits (le_trans (by decide) hbuilt)⟩

theorem WholeRequest.sent {w : Frame .writer} (h : WholeRequest w) (n : ℕ) :
    WholeRequest { w with xmit := n } :=
  ⟨⟨h.header, h.fits, h.function, h.protocol⟩, h.length, h.declared⟩

/-- Serving a request changes nothing but the cursor of its frame. -/
theorem Outstanding.wholeRequest {m : Msg} (h : Outstanding .tcp m) : WholeRequest m.writer := by
  induction h with
  | posted h => exact h.wholeRequest
  | step h ht revents env hrc ih =>
    have hunder := h.underway
    rw [← ht] at hunder
    obtain ⟨-, -, n, -, -, -, hwriter, -⟩ :=
      (handleWriteRead_served (G := False) revents env hunder False.elim).moved
    rw [hwriter]
    exact ih.sent _

variable {w : Frame .writer} {s : List UInt8}

theorem requestOf_buf {i : ℕ} (hi : i < w.length) : (requestOf w).buf i = w.buf i :=
  holding_bytes_buf w hi

theorem getD_bytes {role : Role} (f : Frame role) {n i : ℕ} (h : i < n) :
    (f.bytes n).getD i 0 = f.buf i := by
  have hheld : (Frame.holding (f.bytes n) n : Frame .reader).buf i = f.buf i :=
    holding_bytes_buf f h
  exact hheld

theorem declaredLength_bytes {role : Role} (f : Frame role) {n : ℕ} (h : 6 ≤ n) :
    declaredLength (f.bytes n) = tcpDeclared f := by
  unfold declaredLength tcpDeclared
  rw [getD_bytes f (by omega), getD_bytes f (by omega)]

theorem WholeRequest.normal (h : WholeRequest w) : ¬ HasExceptionBit (w.buf 7) := by
  rcases h.function with hread | hwrite
  · exact hread.not_exception
  · exact hwrite.not_exception

theorem filledResponse_header (config : ServedConfig) (req : Frame .reader) :
    (filledResponse config req (.zero .writer)).buf 2 = 0 ∧
      (filledResponse config req (.zero .writer)).buf 3 = 0 ∧
        Answers req (filledResponse config req (.zero .writer)) := by
  rcases filledResponse_cases config req (.zero .writer) with ⟨-, hres⟩ | ⟨-, hres⟩ |
    ⟨-, -, hcount, hres⟩ | ⟨-, -, -, hcount, hres⟩
  all_goals rw [hres]
  · exact ⟨rfl, rfl, answerException_answers req _⟩
  · exact ⟨rfl, rfl, answerEcho_answers req _⟩
  · have hfill := setCoil_fills (servedCoils config req)
    exact ⟨hfill.header _ (by decide) (by decide), hfill.header _ (by decide) (by decide),
      answerPayload_answers req _ (by omega) hfill⟩
  · have hfill := servedPatches_fill config req
    exact ⟨hfill.header _ (by decide) (by decide), hfill.header _ (by decide) (by decide),
      answerPayload_answers req _ (by omega) hfill⟩

theorem filledResponse_function (config : ServedConfig) (req : Frame .reader) :
    ((filledResponse config req (.zero .writer)).buf 7 = req.buf 7 ∧
      9 ≤ (filledResponse config req (.zero .writer)).length) ∨
    (filledResponse config req (.zero .writer)).buf 7 = req.buf 7 ||| 0x80 ∧
      (filledResponse config req (.zero .writer)).buf 8 = 3 ∧
        (filledResponse config req (.zero .writer)).length = 9 := by
  rcases filledResponse_cases config req (.zero .writer) with ⟨-, hres⟩ | ⟨-, hres⟩ |
    ⟨-, -, -, hres⟩ | ⟨-, -, -, -, hres⟩
  all_goals rw [hres]
  · exact .inr ⟨rfl, rfl, rfl⟩
  · exact .inl ⟨rfl, (by decide : 9 ≤ 12)⟩
  · have hfill := setCoil_fills (servedCoils config req)
    exact .inl ⟨hfill.header _ (by decide) (by decide), Nat.le_add_left 9 _⟩
  · have hfill := servedPatches_fill config req
    exact .inl ⟨hfill.header _ (by decide) (by decide), Nat.le_add_left 9 _⟩

/-- The server's response to a request of the library ends this request, and no other. -/
theorem WholeRequest.reply (h : WholeRequest w) (config : ServedConfig) :
    Reply w (responseBytes config (requestOf w)) := by
  have hlength := h.length
  obtain ⟨htwo, hthree, hanswers⟩ := filledResponse_header config (requestOf w)
  have hfunction := filledResponse_function config (requestOf w)
  obtain ⟨hzero, hone⟩ := hanswers.transaction
  have hunit := hanswers.unit
  have hdeclared := hanswers.mbap
  have hfits := hanswers.fits
  unfold responseBytes
  generalize filledResponse config (requestOf w) (.zero .writer) = res at *
  rw [requestOf_buf (by omega)] at hzero hone hunit
  rw [requestOf_buf (by omega)] at hfunction
  have hsize : (res.bytes res.length).length = res.length := Frame.bytes_length _ _
  have hnine : 9 ≤ res.length := by
    rcases hfunction with ⟨-, hnine⟩ | ⟨-, -, hnine⟩ <;> omega
  have hget : ∀ i < 9, (res.bytes res.length).getD i 0 = res.buf i :=
    fun i hi => getD_bytes res (by omega)
  have hcount : declaredLength (res.bytes res.length) = res.length := by
    rw [declaredLength_bytes res (by omega), hdeclared]
  rcases hfunction with ⟨hsame, -⟩ | ⟨hbit, hcode, hnine'⟩
  · refine .inl ⟨by omega, by omega, by omega, ?_, ?_, ?_, ?_, ?_, ?_⟩
    all_goals rw [hget _ (by decide)]
    · exact hzero.symm
    · exact hone.symm
    · exact htwo
    · exact hthree
    · exact hunit.symm
    · exact hsame.symm
  · refine .inr ⟨by omega, by omega, ⟨?_, ?_⟩, ⟨?_, ?_⟩, ?_, ?_, ?_⟩
    all_goals rw [hget _ (by decide)]
    · exact hzero
    · exact hone
    · exact htwo
    · exact hthree
    · exact hunit
    · exact hbit
    · rw [hcode]
      decide

theorem Refusal.delimited (h : Refusal w s) : Delimited .tcp w s :=
  tcp_delimited (by rw [h.length]; decide) (by rw [h.length]; decide) (by rw [h.length, h.declared])

theorem Reply.delimited (hw : WholeRequest w) (h : Reply w s) : Delimited .tcp w s :=
  h.elim (·.delimited hw.toRequestFrame) (·.delimited)

theorem Refusal.bit (h : Refusal w s) : HasExceptionBit (s.getD 7 0) := by
  rw [h.function]
  exact hasExceptionBit_or _

theorem WholeRequest.masked (h : WholeRequest w) : (w.buf 7 ||| 0x80) &&& 0x7f = w.buf 7 := by
  rcases h.function with hread | hwrite
  · change IsRead (w.buf 7) at hread
    rcases hread with hf | hf | hf | hf <;> rw [hf] <;> decide
  · change IsWrite (w.buf 7) at hwrite
    rcases hwrite with hf | hf | hf | hf | hf <;> rw [hf] <;> decide

theorem Refusal.verdict (hw : WholeRequest w) (h : Refusal w s) : headerVerdict .tcp w s < 0 := by
  have hlength := h.length
  obtain ⟨h0, h1⟩ := h.transaction
  obtain ⟨h2, h3⟩ := h.protocol
  obtain ⟨w2, w3⟩ := hw.protocol rfl
  have hid : ¬ (2 ≤ s.length ∧ ¬ (w.buf 0 = s.getD 0 0 ∧ w.buf 1 = s.getD 1 0)) :=
    fun hno => hno.2 ⟨h0.symm, h1.symm⟩
  have hprotocol : ¬ (4 ≤ s.length ∧
      ¬ (s.getD 2 0 = 0 ∧ s.getD 3 0 = 0 ∧ w.buf 2 = 0 ∧ w.buf 3 = 0)) :=
    fun hno => hno.2 ⟨h2, h3, w2, w3⟩
  have hsized : ¬ (6 ≤ s.length ∧ declaredLength s ≠ s.length) :=
    fun hno => hno.2 (h.declared.trans hlength.symm)
  have hunit : ¬ (7 ≤ s.length ∧ w.buf 6 ≠ s.getD 6 0) := fun hno => hno.2 h.unit.symm
  have hfunction : 8 ≤ s.length ∧ w.buf 7 ≠ s.getD 7 0 :=
    ⟨by omega, fun hsame => hw.normal (hsame ▸ h.bit)⟩
  have hcode : ¬ (HasExceptionBit (s.getD 7 0) ∧ s.length < 9) := fun hshort => by omega
  have haddressee : tcpCheckAddressee w (.holding s 0) = -6 :=
    (if_neg hunit).trans ((if_pos hfunction).trans (if_neg hcode))
  have hcheck : tcpMsgCheckHeader w (.holding s 0) =
      (tcpCheckAddressee w (.holding s 0), .holding s 0) :=
    (if_neg hid).trans ((if_neg hprotocol).trans (if_neg hsized))
  change (tcpMsgCheckHeader w (.holding s 0)).1 < 0
  rw [hcheck, haddressee]
  exact (by decide : (-6 : ℤ) < 0)

theorem Refusal.exceptionCode (hw : WholeRequest w) (h : Refusal w s) :
    0 < exceptionCode .tcp w s := by
  have hlength := h.length
  obtain ⟨h0, h1⟩ := h.transaction
  have hcode : tcpFrameException (.holding s 0) = (s.getD 8 0).toNat :=
    (if_neg (by rw [Frame.holding_xmit]; omega)).trans (if_neg (not_not.2 h.bit))
  have hpos : (s.getD 8 0).toNat ≠ 0 := fun hzero => h.code (UInt8.toNat_inj.1 hzero)
  have hid : ¬ (s.getD 0 0 ≠ w.buf 0 ∨ s.getD 1 0 ≠ w.buf 1) := by
    rw [h0, h1]
    simp
  have hfunction : ¬ s.getD 7 0 &&& 0x7f ≠ w.buf 7 := by
    rw [h.function, hw.masked, ne_eq, not_not]
  change 0 < tcpMsgException w (.holding s 0)
  unfold tcpMsgException
  dsimp only
  rw [hcode, if_neg hpos]
  exact Nat.pos_of_ne_zero fun hzero => hpos
    (((if_neg hid).trans ((if_neg (not_not.2 h.unit)).trans (if_neg hfunction))).symm.trans hzero)

theorem readHalf_exception {c : Context} {m : Msg} {held all : List UInt8} {env : Env}
    (hheld : Receiving c.transport m.writer m.reader held)
    (hopen : held.length < expectedLength c.transport m.writer held)
    (hread : readResult c env ≠ .error) (hall : all = held ++ delivered c m.reader env)
    (hu : Usable c.transport all) (hv : headerVerdict c.transport m.writer all < 0)
    (hx : 0 < exceptionCode c.transport m.writer all) : (readHalf c m env).rc = errException := by
  have hframe : readFrame { c with lastReadMs := env.clock .stamp } m.reader env =
      if readResult c env = .error ∨ ¬ Usable c.transport all then
        ⟨-1, afterRead c m.reader env, .holding all (expectedLength c.transport m.writer held)⟩
      else
        ⟨(delivered c m.reader env).length, afterRead c m.reader env,
          .holding all (stagedLength c.transport m.writer held all)⟩ := by
    rw [hall]
    exact readFrame_receiving (c := { c with lastReadMs := env.clock .stamp }) hheld hopen env
  have hcheck := checkHeader_staged (hheld.delivered_fits env) (hall ▸ hu)
  rw [← hall] at hcheck
  rw [if_neg (fun h => h.elim hread fun hno => hno hu)] at hframe
  unfold readHalf
  rw [hframe]
  dsimp only [afterRead_transport]
  rw [if_neg (by omega), hcheck]
  dsimp only
  rw [if_pos hv, if_pos hv]
  have hcode := exceptionCode_holding c.transport m.writer all
    (stagedLength c.transport m.writer held all)
  exact congrArg WriteRead.rc (if_pos (hcode.symm ▸ hx))

/-- What a read does inside a reply: more of it is held, or it is complete. -/
inductive ReplyStep (w : Frame .writer) (all ahead : List UInt8) : ℤ → Frame .reader → Prop
  | more {rc : ℤ} {r : Frame .reader} (hmore : ahead ≠ []) (hrc : 0 < rc)
      (h : Receiving .tcp w r all) : ReplyStep w all ahead rc r
  | answered (hend : ahead = []) (h : Answer .tcp w all) :
      ReplyStep w all ahead 0 (.holding all all.length)
  | refused (hend : ahead = []) (h : Refusal w all) :
      ReplyStep w all ahead errException (.holding all all.length)

theorem readHalf_in_reply {c : Context} {m : Msg} {held later : List UInt8} {env : Env}
    (ht : c.transport = .tcp) (hw : WholeRequest m.writer) (hsent : m.writer.xmit = m.writer.length)
    (hheld : Receiving .tcp m.writer m.reader held)
    (hs : Reply m.writer (held ++ (c.input ++ later))) (harrived : c.input ≠ [])
    (hconn : c.connected) (hgot : ∃ k, 0 < k ∧ env.got = .data k) :
    ∃ reader, ReplyStep m.writer (held ++ delivered c m.reader env)
        ((afterRead c m.reader env).input ++ later) (readHalf c m env).rc reader ∧
      (readHalf c m env).msg = { m with reader := reader } ∧
      (readHalf c m env).ctx = afterRead c m.reader env := by
  obtain ⟨k, -, hdata⟩ := hgot
  have hread : readResult c env ≠ .error := by
    rw [readResult, if_pos hconn, hdata]
    simp
  have hd := hs.delimited hw
  have hopen := hd.open (by simp [harrived])
  have hinput : (afterRead c m.reader env).input = c.input.drop (delivered c m.reader env).length :=
    rfl
  have hsplit : held ++ (c.input ++ later) =
      held ++ delivered c m.reader env ++ ((afterRead c m.reader env).input ++ later) := by
    rw [hinput, List.append_assoc, ← List.append_assoc (delivered c m.reader env),
      delivered_append_drop]
  rw [hsplit] at hs hd
  generalize (afterRead c m.reader env).input ++ later = ahead at hs hd ⊢
  have hwhole_iff := hd.whole_iff
  have hout := readHalf_outcome env hsent (ht ▸ hheld) (ht ▸ hopen)
  have hexception := @readHalf_exception c m held _ env (ht ▸ hheld) (ht ▸ hopen) hread rfl
  rw [ht] at hexception
  generalize readHalf c m env = s at hout hexception
  cases hout with
  | failed hall hfailed =>
    subst hall
    rw [ht] at hfailed
    exact absurd hd.of_start.1 (hfailed.resolve_left hread)
  | answering hall hu hv hrc hdone =>
    subst hall
    rw [ht] at hu hv hdone
    refine ⟨_, ?_, rfl, rfl⟩
    rw [ht]
    by_cases hend : ahead = []
    · obtain rfl := hdone.2 (hwhole_iff.1 hend)
      rw [hend, List.append_nil] at hs
      rw [← hwhole_iff.1 hend]
      rcases hs with hs | hs
      · exact .answered hend hs
      · exact absurd (hs.verdict hw) (not_lt.2 hv)
    · exact .more hend (lt_of_le_of_ne hrc fun h => hend (hwhole_iff.2 (hdone.1 h.symm)))
        ⟨rfl, (hd.open hend).le, hu⟩
  | refused hall hu hv hx =>
    subst hall
    rw [ht] at hu hv hx
    refine ⟨_, ?_, rfl, rfl⟩
    rcases hs with hs | hs
    · exact absurd hx (not_refused hw.toRequestFrame (.inr hs) hv)
    · have hnine : 9 ≤ (held ++ delivered c m.reader env).length := (tcpMsgException_pos hx).1
      have hend : ahead = [] := by
        have hlength := hs.length
        rw [List.length_append] at hlength
        exact List.length_eq_zero_iff.1 (by omega)
      rw [hend, List.append_nil] at hs
      rw [ht, ← hwhole_iff.1 hend]
      exact .refused hend hs
  | sizing hall hu hv hpart hrc =>
    subst hall
    rw [ht] at hu hpart
    refine ⟨_, ?_, rfl, rfl⟩
    rw [ht]
    exact .more (fun hend => absurd (hwhole_iff.1 hend) (by omega)) hrc ⟨rfl, hpart.le, hu⟩
  | steppedOver hall hv hwhole hg hrc =>
    subst hall
    rw [ht] at hv hwhole
    rw [hwhole_iff.2 hwhole, List.append_nil] at hs
    rcases hs with hs | hs
    · exact absurd (hs.verdict hw.toRequestFrame) (not_le.2 hv)
    · obtain rfl := hexception hs.delimited.usable hv (hs.exceptionCode hw)
      exact absurd hrc (by decide)
  | noise hall hv hwhole hg =>
    rw [ht] at hg
    exact absurd trivial hg

end Modbusmq
