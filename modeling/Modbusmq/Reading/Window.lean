import Modbusmq.Reading.Outstanding

/-!
# The receive window

Whatever arrives, in whatever pieces, an outstanding request never holds more
than it expects nor expects more than the frame buffer holds, no `read()`
reaches past that buffer, and a step is decided by received bytes only: two
readers that agree on these behave the same, whatever the rest of their memory
is.
-/

namespace Modbusmq

theorem Underway.bounded {t : Transport} {m : Msg} (h : Underway t m) :
    m.reader.xmit ≤ m.reader.length ∧ m.reader.length ≤ frameMax := by
  rcases h.stage with hsend | ⟨-, held, hheld⟩
  · have hmax : t.headerLength ≤ frameMax := by
      cases t <;> decide
    exact ⟨by rw [hsend.empty]; exact Nat.zero_le _, hsend.header.trans hmax⟩
  · rw [hheld.frame]
    exact ⟨hheld.fits, (expectedLength_bounds m.writer hheld.usable).2⟩

/-- The part of the frame buffer a `read()` may fill. -/
def InWindow : Event → Prop
  | .read offset window => offset + window ≤ frameMax
  | _ => True

theorem beforeWrite_log (c : Context) (m : Msg) (env : Env) :
    (beforeWrite c m env).log = c.log ∨ (beforeWrite c m env).log = c.log ++ [.flushed] := by
  unfold beforeWrite
  split_ifs
  · exact .inr rfl
  · exact .inl rfl

theorem afterWrite_log (c : Context) (m : Msg) (env : Env) : ∃ n unread,
    (afterWrite c m env).log = (beforeWrite c m env).log ++ [.wrote m.serial m.writer n unread] :=
  ⟨_, _, rfl⟩

theorem WriteOutcome.log {c : Context} {m : Msg} {env : Env} {s : WriteRead}
    (h : WriteOutcome c m env s) :
    ∃ new, s.ctx.log = c.log ++ new ∧ ∀ e ∈ new, InWindow e := by
  have hbefore := beforeWrite_log c m env
  obtain ⟨n, unread, hwrote⟩ := afterWrite_log c m env
  have hafter : ∃ new, (afterWrite c m env).log = c.log ++ new ∧ ∀ e ∈ new, InWindow e := by
    rw [hwrote]
    rcases hbefore with hlog | hlog
    · exact ⟨[.wrote m.serial m.writer n unread], by rw [hlog], by simp [InWindow]⟩
    · exact ⟨[.flushed, .wrote m.serial m.writer n unread], by rw [hlog, List.append_assoc]; rfl,
        by simp [InWindow]⟩
  cases h with
  | gap => exact ⟨[], by simp, by simp⟩
  | failed =>
    rcases hbefore with hlog | hlog
    · exact ⟨[], by simp [hlog], by simp⟩
    · exact ⟨[.flushed], hlog, by simp [InWindow]⟩
  | part => exact hafter
  | broadcast => exact hafter
  | whole => exact hafter

theorem ReadOutcome.log {c : Context} {m : Msg} {held : List UInt8} {env : Env} {s : WriteRead}
    (h : ReadOutcome c m held env s) :
    s.ctx.log = c.log ++ [.read m.reader.xmit m.reader.window] ∨
      s.ctx.log = c.log ++ [.read m.reader.xmit m.reader.window, .flushed] := by
  cases h with
  | noise => exact .inr (List.append_assoc _ _ _)
  | failed => exact .inl rfl
  | answering => exact .inl rfl
  | refused => exact .inl rfl
  | sizing => exact .inl rfl
  | steppedOver => exact .inl rfl

theorem Receiving.inWindow {t : Transport} {w : Frame .writer} {r : Frame .reader}
    {held : List UInt8} (h : Receiving t w r held) : InWindow (.read r.xmit r.window) := by
  have hmax := (expectedLength_bounds w h.usable).2
  have hfits := h.fits
  have hxmit : r.xmit = held.length := congrArg Frame.xmit h.frame
  change r.xmit + r.window ≤ frameMax
  rw [h.window, hxmit]
  omega

/-- No step of an outstanding request reads past the frame buffer. -/
theorem Underway.log {c : Context} {m : Msg} (h : Underway c.transport m) (revents : Revents)
    (env : Env) :
    ∃ new, (handleWriteRead c m revents env).ctx.log = c.log ++ new ∧ ∀ e ∈ new, InWindow e := by
  have hout := handleWriteRead_outcome revents env h
  generalize handleWriteRead c m revents env = s at hout
  cases hout with
  | waits => exact ⟨[], by simp, by simp⟩
  | complete => exact ⟨[], by simp, by simp⟩
  | writing _ _ hwrite => exact hwrite.log
  | reading _ _ hheld _ hread =>
    have hin := hheld.inWindow
    rcases hread.log with hlog | hlog
    · exact ⟨_, hlog, by simpa using hin⟩
    · exact ⟨_, hlog, by simpa [InWindow] using hin⟩

/-- Two results of an operation that resizes the reader. -/
def SameResult (s s' : ℤ × Frame .reader) : Prop := s'.1 = s.1 ∧ SameReceived s.2 s'.2

theorem SameReceived.refl (r : Frame .reader) : SameReceived r r := ⟨rfl, rfl, fun _ _ => rfl⟩

theorem SameReceived.resize {r r' : Frame .reader} (h : SameReceived r r') (n : ℕ) :
    SameReceived (r.resize n) (r'.resize n) := ⟨rfl, h.xmit, h.buf⟩

theorem SameReceived.append {r r' : Frame .reader} (h : SameReceived r r') (chunk : List UInt8) :
    SameReceived (r.append chunk) (r'.append chunk) := by
  refine ⟨h.length, by simp [Frame.append, h.xmit], fun i hi => ?_⟩
  simp only [Frame.append, h.xmit] at hi ⊢
  by_cases hchunk : r.xmit ≤ i ∧ i < r.xmit + chunk.length
  · rw [if_pos hchunk, if_pos hchunk]
  · rw [if_neg hchunk, if_neg hchunk, h.buf i (by omega)]

theorem SameReceived.declared {r r' : Frame .reader} (h : SameReceived r r') (hx : 6 ≤ r.xmit) :
    tcpDeclared r' = tcpDeclared r := by
  unfold tcpDeclared
  rw [h.buf 4 (by omega), h.buf 5 (by omega)]

theorem tcpCheckAddressee_same {r r' : Frame .reader} (h : SameReceived r r')
    (w : Frame .writer) : tcpCheckAddressee w r' = tcpCheckAddressee w r := by
  unfold tcpCheckAddressee
  rw [h.xmit]
  by_cases h8 : 8 ≤ r.xmit
  · rw [h.buf 6 (by omega), h.buf 7 (by omega)]
  · by_cases h7 : 7 ≤ r.xmit
    · simp only [h8, false_and, if_false]
      rw [h.buf 6 (by omega)]
    · simp only [h8, h7, false_and, if_false]

theorem tcpMsgCheckHeader_same {r r' : Frame .reader} (h : SameReceived r r')
    (w : Frame .writer) : SameResult (tcpMsgCheckHeader w r) (tcpMsgCheckHeader w r') := by
  have haddressee := tcpCheckAddressee_same h w
  have htransaction : (2 ≤ r'.xmit ∧ ¬ (w.buf 0 = r'.buf 0 ∧ w.buf 1 = r'.buf 1)) ↔
      2 ≤ r.xmit ∧ ¬ (w.buf 0 = r.buf 0 ∧ w.buf 1 = r.buf 1) := by
    rw [h.xmit]
    exact and_congr_right fun hx => by rw [h.buf 0 (by omega), h.buf 1 (by omega)]
  have hprotocol :
      (4 ≤ r'.xmit ∧ ¬ (r'.buf 2 = 0 ∧ r'.buf 3 = 0 ∧ w.buf 2 = 0 ∧ w.buf 3 = 0)) ↔
        4 ≤ r.xmit ∧ ¬ (r.buf 2 = 0 ∧ r.buf 3 = 0 ∧ w.buf 2 = 0 ∧ w.buf 3 = 0) := by
    rw [h.xmit]
    exact and_congr_right fun hx => by rw [h.buf 2 (by omega), h.buf 3 (by omega)]
  unfold tcpMsgCheckHeader
  by_cases h1 : 2 ≤ r.xmit ∧ ¬ (w.buf 0 = r.buf 0 ∧ w.buf 1 = r.buf 1)
  · rw [if_pos h1, if_pos (htransaction.2 h1)]
    exact ⟨rfl, h⟩
  rw [if_neg h1, if_neg (mt htransaction.1 h1)]
  by_cases h2 : 4 ≤ r.xmit ∧ ¬ (r.buf 2 = 0 ∧ r.buf 3 = 0 ∧ w.buf 2 = 0 ∧ w.buf 3 = 0)
  · rw [if_pos h2, if_pos (hprotocol.2 h2)]
    exact ⟨rfl, h⟩
  rw [if_neg h2, if_neg (mt hprotocol.1 h2)]
  by_cases h6 : 6 ≤ r.xmit
  · have hdeclared := h.declared h6
    rw [h.xmit, hdeclared]
    split_ifs
    · exact ⟨haddressee, h.resize _⟩
    · exact ⟨rfl, h⟩
    · exact ⟨haddressee, h⟩
  · rw [if_neg fun hno => h6 hno.1, if_neg fun hno => h6 (h.xmit ▸ hno.1)]
    exact ⟨haddressee, h⟩

theorem rtuMsgCheckHeader_same {r r' : Frame .reader} (h : SameReceived r r')
    (w : Frame .writer) : SameResult (rtuMsgCheckHeader w r) (rtuMsgCheckHeader w r') := by
  unfold rtuMsgCheckHeader
  rw [h.xmit]
  by_cases hshort : r.xmit < 3
  · rw [if_pos hshort, if_pos hshort]
    exact ⟨rfl, h⟩
  rw [if_neg hshort, if_neg hshort, h.buf 0 (by omega), h.buf 1 (by omega), h.buf 2 (by omega)]
  have hsettle : ∀ n, SameResult (rtuSettleLength n r) (rtuSettleLength n r') := by
    intro n
    unfold rtuSettleLength
    split_ifs
    · exact ⟨rfl, h⟩
    · exact ⟨by simp only [h.xmit], h.resize n⟩
  split_ifs
  · exact ⟨rfl, h⟩
  · cases rtuExpectedNbytes w with
    | none => exact hsettle _
    | some expected =>
      dsimp only
      split_ifs
      · exact ⟨rfl, h⟩
      · exact hsettle _
  · exact ⟨rfl, h.resize 5⟩
  · exact ⟨rfl, h⟩

theorem checkHeader_same {r r' : Frame .reader} (h : SameReceived r r') (t : Transport)
    (w : Frame .writer) : SameResult (checkHeader t w r) (checkHeader t w r') := by
  cases t with
  | tcp => exact tcpMsgCheckHeader_same h w
  | rtu => exact rtuMsgCheckHeader_same h w

theorem tcpFrameDrain_same {r r' : Frame .reader} (h : SameReceived r r') :
    SameResult (tcpFrameDrain r) (tcpFrameDrain r') := by
  unfold tcpFrameDrain
  rw [h.xmit]
  by_cases hshort : r.xmit < 6
  · rw [if_pos hshort, if_pos hshort]
    exact ⟨rfl, h⟩
  rw [if_neg hshort, if_neg hshort, h.declared (by omega)]
  split_ifs
  · exact ⟨rfl, h⟩
  · exact ⟨rfl, h.resize _⟩
  · exact ⟨rfl, h⟩

theorem rtuOwnLength_same {r r' : Frame .reader} (h : SameReceived r r') (hx : 2 ≤ r.xmit) :
    rtuOwnLength r' = rtuOwnLength r := by
  unfold rtuOwnLength
  rw [h.buf 1 (by omega), h.xmit]
  by_cases h3 : r.xmit < 3
  · simp only [h3, if_true]
  · rw [h.buf 2 (by omega)]

theorem SameReceived.bytes {r r' : Frame .reader} (h : SameReceived r r') {n : ℕ}
    (hn : n ≤ r.xmit) : r'.bytes n = r.bytes n :=
  List.map_congr_left fun i hi => h.buf i ((List.mem_range.1 hi).trans_le hn)

theorem rtuFrameDrain_same {r r' : Frame .reader} (h : SameReceived r r') :
    SameResult (rtuFrameDrain r) (rtuFrameDrain r') := by
  unfold rtuFrameDrain
  rw [h.xmit]
  by_cases hshort : r.xmit < 2
  · rw [if_pos hshort, if_pos hshort]
    exact ⟨rfl, h⟩
  rw [if_neg hshort, if_neg hshort, rtuOwnLength_same h (by omega)]
  cases rtuOwnLength r with
  | none => exact ⟨rfl, h⟩
  | some length =>
    dsimp only
    by_cases hbad : length < 4 ∨ frameMax < length ∨ length < r.xmit
    · rw [if_pos hbad, if_pos hbad]
      exact ⟨rfl, h⟩
    rw [if_neg hbad, if_neg hbad]
    by_cases hpart : r.xmit < length
    · rw [if_pos hpart, if_pos hpart]
      exact ⟨rfl, h.resize _⟩
    have hcarried : rtuCarriedCrc r' length = rtuCarriedCrc r length := by
      unfold rtuCarriedCrc
      rw [h.buf (length - 1) (by omega), h.buf (length - 2) (by omega)]
    have hcomputed : rtuComputedCrc r' length = rtuComputedCrc r length := by
      unfold rtuComputedCrc
      rw [h.bytes (by omega)]
    rw [if_neg hpart, if_neg hpart, hcarried, hcomputed]
    split_ifs
    · exact ⟨rfl, h⟩
    · exact ⟨rfl, h⟩

theorem frameDrain_same {r r' : Frame .reader} (h : SameReceived r r') (t : Transport) :
    SameResult (frameDrain t r) (frameDrain t r') := by
  cases t with
  | tcp => exact tcpFrameDrain_same h
  | rtu => exact rtuFrameDrain_same h

theorem tcpMsgException_same {r r' : Frame .reader} (h : SameReceived r r') (w : Frame .writer) :
    tcpMsgException w r' = tcpMsgException w r := by
  by_cases hshort : r.xmit < 9
  · have hnone : tcpFrameException r = 0 := if_pos hshort
    have hnone' : tcpFrameException r' = 0 := if_pos (by rwa [h.xmit])
    simp [tcpMsgException, hnone, hnone']
  · unfold tcpMsgException tcpFrameException
    rw [h.xmit, h.buf 0 (by omega), h.buf 1 (by omega), h.buf 6 (by omega), h.buf 7 (by omega),
      h.buf 8 (by omega)]

theorem rtuMsgException_same {r r' : Frame .reader} (h : SameReceived r r') (w : Frame .writer) :
    rtuMsgException w r' = rtuMsgException w r := by
  by_cases hshort : r.xmit < 3
  · have hnone : rtuFrameException r = 0 := if_pos hshort
    have hnone' : rtuFrameException r' = 0 := if_pos (by rwa [h.xmit])
    simp [rtuMsgException, hnone, hnone']
  · unfold rtuMsgException rtuFrameException
    rw [h.xmit, h.buf 0 (by omega), h.buf 1 (by omega), h.buf 2 (by omega)]

theorem msgException_same {r r' : Frame .reader} (h : SameReceived r r') (t : Transport)
    (w : Frame .writer) : msgException t w r' = msgException t w r := by
  cases t with
  | tcp => exact tcpMsgException_same h w
  | rtu => exact rtuMsgException_same h w

/-- Two reads that behaved the same. -/
structure SameRead (s s' : ReadStep) : Prop where
  rc : s'.rc = s.rc
  ctx : s'.ctx = s.ctx
  frame : SameReceived s.frame s'.frame

theorem readWindow_same {r r' : Frame .reader} (h : SameReceived r r') (c : Context) (env : Env) :
    SameRead (readWindow c r env) (readWindow c r' env) := by
  have hwindow : r'.window = r.window := by
    unfold Frame.window
    rw [h.length, h.xmit]
  have hdelivered : delivered c r' env = delivered c r env := by
    unfold delivered
    rw [hwindow]
  refine ⟨?_, ?_, ?_⟩
  · simp only [readWindow, hdelivered]
  · simp only [readWindow, hdelivered, hwindow, h.xmit]
  · simp only [readWindow, hdelivered]
    exact h.append _

theorem tcpRefineLength_same {s s' : ReadStep} (h : SameRead s s') :
    SameRead (tcpRefineLength s) (tcpRefineLength s') := by
  unfold tcpRefineLength
  rw [h.frame.xmit]
  by_cases hshort : s.frame.xmit < 6
  · rw [if_pos hshort, if_pos hshort]
    exact h
  rw [if_neg hshort, if_neg hshort, h.frame.declared (by omega)]
  split_ifs
  · exact ⟨rfl, h.ctx, h.frame⟩
  · exact ⟨h.rc, h.ctx, h.frame.resize _⟩

theorem tcpRead_same {r r' : Frame .reader} (h : SameReceived r r') (c : Context) (env : Env) :
    SameRead (tcpRead c r env) (tcpRead c r' env) := by
  have hsized : ∀ {r r' : Frame .reader}, SameReceived r r' →
      SameRead (tcpReadSized c r env) (tcpReadSized c r' env) := by
    intro r r' h
    have hread := readWindow_same h c env
    unfold tcpReadSized
    rw [h.length, h.xmit]
    split_ifs
    · exact ⟨rfl, rfl, h⟩
    · cases readResult c env with
      | data k => exact tcpRefineLength_same hread
      | wouldBlock => exact hread
      | error => exact hread
  unfold tcpRead
  rw [h.length]
  split_ifs
  · exact hsized (h.resize 6)
  · exact hsized h

theorem rtuRead_same {r r' : Frame .reader} (h : SameReceived r r') (c : Context) (env : Env) :
    SameRead (rtuRead c r env) (rtuRead c r' env) := by
  unfold rtuRead
  rw [h.length]
  split_ifs
  · apply readWindow_same
    exact ⟨rfl, rfl, fun i hi => absurd hi (Nat.not_lt_zero i)⟩
  · exact readWindow_same h c env

theorem readFrame_same {r r' : Frame .reader} (h : SameReceived r r') (c : Context) (env : Env) :
    SameRead (readFrame c r env) (readFrame c r' env) := by
  unfold readFrame
  cases c.transport with
  | tcp => exact tcpRead_same h c env
  | rtu => exact rtuRead_same h c env

/-- Two steps that behaved the same. -/
structure SameStep (s s' : WriteRead) : Prop where
  rc : s'.rc = s.rc
  ctx : s'.ctx = s.ctx
  msg : s'.msg = { s.msg with reader := s'.msg.reader }
  reader : SameReceived s.msg.reader s'.msg.reader

theorem SameStep.refl (s : WriteRead) : SameStep s s := ⟨rfl, rfl, rfl, .refl _⟩

theorem finish_same {r r' : Frame .reader} (h : SameReceived r r') (moved : ℤ) (c : Context)
    (m : Msg) :
    SameStep (finish moved c { m with reader := r }) (finish moved c { m with reader := r' }) := by
  have hpending : pendingRc c.transport { m with reader := r' } =
      pendingRc c.transport { m with reader := r } := by
    unfold pendingRc
    rw [h.length, h.xmit]
  unfold finish
  rw [hpending]
  split_ifs
  · exact ⟨rfl, rfl, rfl, h⟩
  · exact ⟨rfl, rfl, rfl, h⟩

theorem headerMismatch_same {r r' : Frame .reader} (h : SameReceived r r') (c : Context)
    (m : Msg) (env : Env) :
    SameStep (headerMismatch c { m with reader := r } env)
      (headerMismatch c { m with reader := r' } env) := by
  have hexception := msgException_same h c.transport m.writer
  obtain ⟨hrc, hframe⟩ := frameDrain_same h c.transport
  unfold headerMismatch
  dsimp only
  rw [hexception]
  generalize frameDrain c.transport r = d at hrc hframe
  generalize frameDrain c.transport r' = d' at hrc hframe
  obtain ⟨rc, r₁⟩ := d
  obtain ⟨rc', r₁'⟩ := d'
  dsimp only at hrc hframe ⊢
  subst hrc
  split_ifs
  · exact ⟨rfl, rfl, rfl, h⟩
  · exact finish_same (.refl _) 0 c m
  · exact finish_same hframe 0 c m
  · exact ⟨rfl, rfl, rfl, .refl _⟩

theorem readHalf_same {m : Msg} {r' : Frame .reader} (h : SameReceived m.reader r') (c : Context)
    (env : Env) :
    SameStep (readHalf c m env) (readHalf c { m with reader := r' } env) := by
  have hread := readFrame_same h { c with lastReadMs := env.clock .stamp } env
  unfold readHalf
  dsimp only
  generalize readFrame { c with lastReadMs := env.clock .stamp } m.reader env = s at hread
  generalize readFrame { c with lastReadMs := env.clock .stamp } r' env = s' at hread
  obtain ⟨rc, ctx, r₁⟩ := s
  obtain ⟨rc', ctx', r₁'⟩ := s'
  obtain ⟨hrc, hctx, hframe⟩ := hread
  dsimp only at hrc hctx hframe ⊢
  subst hrc hctx
  obtain ⟨hok, hchecked⟩ := checkHeader_same hframe c.transport m.writer
  generalize checkHeader c.transport m.writer r₁ = k at hok hchecked
  generalize checkHeader c.transport m.writer r₁' = k' at hok hchecked
  obtain ⟨ok, r₂⟩ := k
  obtain ⟨ok', r₂'⟩ := k'
  dsimp only at hok hchecked ⊢
  subst hok
  rw [hchecked.length, hchecked.xmit]
  split_ifs
  · exact ⟨rfl, rfl, rfl, hframe⟩
  · exact headerMismatch_same hchecked ctx' m env
  · exact finish_same hchecked 0 ctx' m
  · exact finish_same hchecked rc' ctx' m

theorem writeHalf_same {m : Msg} {r' : Frame .reader} (h : SameReceived m.reader r')
    (c : Context) (env : Env) :
    SameStep (writeHalf c m env) (writeHalf c { m with reader := r' } env) := by
  have hbefore : beforeWrite c { m with reader := r' } env = beforeWrite c m env := rfl
  have haccepted : accepted (beforeWrite c m env) { m with reader := r' } env =
      accepted (beforeWrite c m env) m env := rfl
  unfold writeHalf writeFrame
  rw [hbefore, haccepted]
  dsimp only
  by_cases hgap : m.writer.xmit = 0 ∧ 0 < frameDelayLeft c (env.clock .gap)
  · rw [if_pos hgap, if_pos hgap]
    exact ⟨rfl, rfl, rfl, h⟩
  rw [if_neg hgap, if_neg hgap]
  by_cases hsend : sendResult (beforeWrite c m env) env = .error
  · rw [if_pos hsend, if_pos hsend]
    exact ⟨rfl, rfl, rfl, h⟩
  rw [if_neg hsend, if_neg hsend]
  dsimp only
  split_ifs
  · exact ⟨rfl, rfl, rfl, h⟩
  · exact ⟨rfl, rfl, rfl, h⟩
  · exact .refl _
  · exact finish_same h _ _ (m.sent _)

/-- A step with any other memory behind what is received. -/
theorem handleWriteRead_same {m : Msg} {r' : Frame .reader} (h : SameReceived m.reader r')
    (c : Context) (revents : Revents) (env : Env) :
    SameStep (handleWriteRead c m revents env)
      (handleWriteRead c { m with reader := r' } revents env) := by
  have hincomplete : frameIncomplete c.transport r' = frameIncomplete c.transport m.reader := by
    unfold frameIncomplete
    dsimp only
    rw [h.length, h.xmit]
  have hsame : SameStep (finish 0 c m) (finish 0 c { m with reader := r' }) :=
    finish_same h 0 c m
  unfold handleWriteRead
  dsimp only
  rw [hincomplete]
  split_ifs
  · exact writeHalf_same h c env
  · exact hsame
  · exact readHalf_same h c env
  · exact hsame
  · exact ⟨rfl, rfl, rfl, h⟩

/-- What is received stays within what is expected and that within the frame buffer; no
step reads past the buffer or depends on anything behind the received bytes. -/
structure ReceiveWindow (t : Transport) (m : Msg) : Prop where
  received : m.reader.xmit ≤ m.reader.length
  expected : m.reader.length ≤ frameMax
  reads : ∀ c : Context, c.transport = t → ∀ (revents : Revents) (env : Env),
    ∃ new, (handleWriteRead c m revents env).ctx.log = c.log ++ new ∧ ∀ e ∈ new, InWindow e
  decisions : ∀ c : Context, c.transport = t → ∀ (revents : Revents) (env : Env) (r' : Frame .reader),
    SameReceived m.reader r' → SameStep (handleWriteRead c m revents env)
      (handleWriteRead c { m with reader := r' } revents env)

/-- The receive window of a request holds after every step that leaves it outstanding. -/
theorem outstanding_receive_window {t : Transport} {m : Msg} (h : Outstanding t m) :
    ReceiveWindow t m where
  received := h.underway.bounded.1
  expected := h.underway.bounded.2
  reads := by
    rintro c rfl revents env
    exact h.underway.log revents env
  decisions := fun c _ revents env _ hr => handleWriteRead_same hr c revents env

theorem outstanding_receive_window_example : ReceiveWindow .tcp (sentPoll .tcp 1) :=
  outstanding_receive_window (sentPoll_outstanding .tcp 1 (.inl (by decide +kernel)))

end Modbusmq
