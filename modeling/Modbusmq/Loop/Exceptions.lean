import Modbusmq.Loop.QuietGap
import Modbusmq.Reading.RtuAcceptance

/-!
# Exception replies on RTU

`modbusmq_rtu_msg_check` refuses a reply with the exception bit before it looks
at the CRC, and `modbusmq_reject_reason` then takes the refused bytes for an
exception whatever their CRC is. So the loop reports an exception for exactly
the five-byte frames that look like one.
-/

namespace Modbusmq

/-- Five bytes that look like an exception reply to the request. -/
structure ExceptionBytes (w : Frame .writer) (s : List UInt8) : Prop where
  length : s.length = 5
  slave : s.getD 0 0 = rtuFrameSlave w
  function : s.getD 1 0 = rtuFrameFunction w ||| 0x80
  code : 0 < (s.getD 2 0).toNat

/-- The slave is counted as answering: misses are forgiven, or it is no longer held to be
unresponsive. -/
def CountsAnswering (timers timers' : List Timer) : Prop :=
  ∃ (i : ℕ) (t t' : Timer), timers[i]? = some t ∧ timers'[i]? = some t' ∧
    (t'.misses < t.misses ∨ t.unresponsive ∧ ¬ t'.unresponsive)

/-- The call of the loop lets the request `m` leave with this error. -/
def LeavesWith (c : Context) (revents : Revents) (env : Env) (m : Msg) (error : ℤ) : Prop :=
  ∃ δ, (loopWriteRead c revents env).2.log = c.log ++ δ ∧ .released m error ∈ δ

/-- What an exception report and the credit it gives the slave have to rest on. -/
structure ExceptionSound (c : Context) (revents : Revents) (env : Env) : Prop where
  reports : ∀ m, LeavesWith c revents env m errException →
    ExceptionBytes m.writer (received m) ∧ CrcValid (received m)
  counts : ∀ m error, LeavesWith c revents env m error → error ≠ 0 →
    CountsAnswering c.timers (loopWriteRead c revents env).2.timers →
      ExceptionBytes m.writer (received m) ∧ CrcValid (received m)

def receivedAfter (c : Context) (m : Msg) (revents : Revents) (env : Env) : List UInt8 :=
  if m.writer.xmit = m.writer.length ∧ revents.pollin then received m ++ delivered c m.reader env
  else received m

/-- Five bytes that look like an exception but whose CRC is wrong. -/
def CorruptException (w : Frame .writer) (s : List UInt8) : Prop :=
  ExceptionBytes w s ∧ ¬ CrcValid s

theorem exceptionBit_masked {function : UInt8} (h : ¬ HasExceptionBit function) :
    (function ||| 0x80) &&& 0x7f = function := by
  have hall : ∀ n : Fin 256, ¬ HasExceptionBit (UInt8.ofFin n) →
      (UInt8.ofFin n ||| 0x80) &&& 0x7f = UInt8.ofFin n := by
    decide +kernel
  exact hall function.toFin h

theorem RequestFrame.normal {w : Frame .writer} (h : RequestFrame .rtu w) :
    ¬ HasExceptionBit (w.buf 1) := by
  rcases h.function with h | h
  · exact h.not_exception
  · exact h.not_exception

theorem rtuMsgException_holding (w : Frame .writer) (held : List UInt8) (n : ℕ) :
    rtuMsgException w (.holding held n) =
      if rtuFrameException (.holding held n : Frame .reader) = 0 then 0
      else if held.getD 0 0 ≠ w.buf 0 then 0
      else if held.getD 1 0 &&& 0x7f ≠ w.buf 1 then 0
      else rtuFrameException (.holding held n : Frame .reader) := rfl

theorem rtuFrameException_holding {held : List UInt8} (hlength : held.length = 5)
    (hbit : HasExceptionBit (held.getD 1 0)) (n : ℕ) :
    rtuFrameException (.holding held n : Frame .reader) = (held.getD 2 0).toNat := by
  unfold rtuFrameException
  simp only [Frame.holding_xmit, Frame.holding_buf, hlength, hbit]
  simp

/-- A complete reply is taken for an exception exactly if it looks like one. -/
theorem rtuMsgException_pos_iff {w : Frame .writer} (hw : RequestFrame .rtu w)
    {held : List UInt8} (hwhole : held.length = rtuExpectedLength w held) (n : ℕ) :
    0 < rtuMsgException w (.holding held n) ↔ ExceptionBytes w held := by
  have hlo := (rtuExpectedLength_bounds w held).1
  constructor
  · intro hpos
    obtain ⟨hs, hf, he⟩ := rtuMsgException_pos hpos
    have hbit : HasExceptionBit (held.getD 1 0) := by
      change held.getD 1 0 = w.buf 1 ||| 0x80 at he
      rw [he]
      exact hasExceptionBit_or _
    have hlength : held.length = 5 := by
      rw [hwhole, rtuExpectedLength, if_neg (by omega), if_neg fun h => hf h.2.1, ownLength,
        if_pos hbit]
    refine ⟨hlength, hs.symm, he, ?_⟩
    by_contra hzero
    rw [rtuMsgException_holding, rtuFrameException_holding hlength hbit,
      if_pos (Nat.eq_zero_of_not_pos hzero)] at hpos
    exact absurd hpos (lt_irrefl 0)
  · rintro ⟨hlength, hs, hf, hcode⟩
    change held.getD 0 0 = w.buf 0 at hs
    have hbit : HasExceptionBit (held.getD 1 0) := by
      rw [hf]
      exact hasExceptionBit_or _
    have hmask : held.getD 1 0 &&& 0x7f = w.buf 1 := by
      rw [hf]
      exact exceptionBit_masked hw.normal
    rw [rtuMsgException_holding, rtuFrameException_holding hlength hbit, if_neg hcode.ne',
      if_neg (not_not.2 hs), if_neg (not_not.2 hmask)]
    exact hcode

/-- What a call of the loop does after its step on the head. -/
inductive LoopShape (c : Context) (s : WriteRead) (c' : Context) : Prop
  | waits (hlog : c'.log = s.ctx.log)
  | answered {m : Msg} {told : List Event} (htold : ∀ m error, Event.released m error ∉ told)
      (hlog : c'.log = s.ctx.log ++ told ++ [.released m 0])
  | failed {m : Msg} {error : ℤ} {pending : Bool} {told : List Event}
      (hends : Ends s m error pending) (hne : error ≠ 0)
      (htold : ∀ m error, Event.released m error ∉ told)
      (htimers : error ≠ errException → c'.timers = s.ctx.timers)
      (hlog : c'.log = s.ctx.log ++ told ++ [.released m error])

theorem Told.not_leaves {c : Context} {flags : Flags} {m : Msg} {told : List Event}
    (h : Told c flags m told) (m' : Msg) (error : ℤ) : Event.released m' error ∉ told := by
  intro hmem
  rcases h with ⟨report, rfl⟩ | ⟨hsilent, -⟩
  · simp at hmem
  · exact hsilent _ hmem

/-- A failure that is no exception and no timeout says nothing about the slave. -/
theorem reportError_timers {c : Context} {m : Msg} {error : ℤ} (env : Env)
    (htimeout : error ≠ errTimeout) (hexception : error ≠ errException) :
    (reportError c m error env).timers = c.timers := by
  unfold reportError
  split
  · rfl
  · simp only [htimeout, hexception, or_self, and_false, if_false]
    split_ifs <;> rfl

theorem rejectReason_cases (t : Transport) (m : Msg) :
    rejectReason t m = errException ∨ rejectReason t m = errProtocol := by
  unfold rejectReason
  split_ifs
  · exact .inl rfl
  · exact .inr rfl

theorem shape_failed {c : Context} {s : WriteRead} (c₁ : Context) {m : Msg} {error : ℤ}
    {pending : Bool} {δ : List Event} (hends : Ends s m error pending) (hne : error ≠ 0)
    (htimeout : error ≠ errTimeout) (hδ : ∀ e ∈ δ, e.Silent) (hlog : c₁.log = s.ctx.log ++ δ)
    (htimers : c₁.timers = s.ctx.timers) (env : Env) :
    LoopShape c s (dropHead (reportError c₁ m error env) m error) := by
  obtain ⟨told, htoldlog, htold⟩ := (reportError_telling c₁ .post m error env).log
  have hnone : ∀ m' error', Event.released m' error' ∉ δ ++ told := by
    intro m' error' hmem
    rcases List.mem_append.1 hmem with hmem | hmem
    · exact hδ _ hmem
    · exact htold.not_leaves _ _ hmem
  refine .failed hends hne hnone (fun h => (reportError_timers env htimeout h).trans htimers) ?_
  change (reportError c₁ m error env).log ++ _ = _
  rw [htoldlog, hlog, List.append_assoc s.ctx.log]

theorem rejectReason_failure (t : Transport) (m : Msg) :
    rejectReason t m ≠ 0 ∧ rejectReason t m ≠ errTimeout := by
  rcases rejectReason_cases t m with h | h <;> rw [h] <;> decide

theorem handleMsg_shape {c c₁ : Context} {wrapper : Wrapper} {s : WriteRead} (hrc : s.rc = 0)
    (htransport : c₁.transport = s.ctx.transport) (hlog : c₁.log = s.ctx.log)
    (htimers : c₁.timers = s.ctx.timers) (env : Env) :
    LoopShape c s (handleMsg c₁ { wrapper with msg := s.msg } env).2 := by
  rcases handleMsg_cases c₁ { wrapper with msg := s.msg } env with
    ⟨rc, reader, hcheck, hne, hresult⟩ | ⟨reader, hcheck, hresult⟩
  · rw [hresult, htransport]
    rw [htransport] at hcheck
    obtain ⟨hzero, htimeout⟩ := rejectReason_failure s.ctx.transport { s.msg with reader := reader }
    refine shape_failed (δ := [.flushed]) (resynced c₁ env) (.rejected hrc hcheck hne) hzero htimeout
      (by simp [Event.Silent]) ?_ htimers env
    change c₁.log ++ _ = _
    rw [hlog]
  · rw [hresult]
    obtain ⟨told, htoldlog, htold⟩ :=
      (reportAnswer_telling c₁ wrapper.flags { s.msg with reader := reader } env).log
    refine .answered htold.not_leaves ?_ (m := { s.msg with reader := reader })
    change (reportAnswer _ _ _ env).log ++ _ = _
    rw [htoldlog, hlog]

theorem loopWriteRead_shape {c : Context} {wrapper : Wrapper} {rest : List Wrapper}
    (hq : c.queue = wrapper :: rest) (revents : Revents) (env : Env) :
    LoopShape c (handleWriteRead c wrapper.msg revents env) (loopWriteRead c revents env).2 := by
  obtain ⟨s, hs⟩ : ∃ s, handleWriteRead c wrapper.msg revents env = s := ⟨_, rfl⟩
  unfold loopWriteRead
  rw [hq]
  dsimp only
  rw [hs]
  obtain ⟨hzero, htimeout⟩ := rejectReason_failure s.ctx.transport s.msg
  split_ifs with hdone hexception hprotocol hneg
  · refine handleMsg_shape hdone ?_ ?_ ?_ env <;> rfl
  · refine shape_failed (δ := []) _ (.refused hexception) (by decide) (by decide) (by simp) ?_ ?_ env
    · exact (List.append_nil _).symm
    · rfl
  · refine shape_failed (δ := []) _ (.noise hprotocol) hzero htimeout (by simp) ?_ ?_ env
    · exact (List.append_nil _).symm
    · rfl
  · refine shape_failed (δ := []) _ (.failed hneg hexception hprotocol) (by decide) (by decide)
      (by simp) ?_ ?_ env
    · exact (List.append_nil _).symm
    · rfl
  · exact .waits rfl

variable {c : Context} {m : Msg} {revents : Revents} {env : Env}

theorem ExceptionBytes.expectedLength {w : Frame .writer} (hw : RequestFrame .rtu w)
    {s : List UInt8} (h : ExceptionBytes w s) : rtuExpectedLength w s = 5 := by
  have hbit : HasExceptionBit (s.getD 1 0) := by
    rw [h.function]
    exact hasExceptionBit_or _
  have hother : w.buf 1 ≠ s.getD 1 0 := fun hsame => hw.normal (hsame ▸ hbit)
  rw [rtuExpectedLength, if_neg (by rw [h.length]; decide), if_neg fun hecho => hother hecho.2.1,
    ownLength, if_pos hbit]

theorem ExceptionBytes.passes {w : Frame .writer} (hw : RequestFrame .rtu w) {s : List UInt8}
    (h : ExceptionBytes w s) : ¬ headerVerdict .rtu w s < 0 := by
  intro hv
  have hlength := h.expectedLength hw
  have hwhole : s.length = rtuExpectedLength w s := by
    rw [hlength, h.length]
  have hnone := rtu_exceptionCode_eq_zero hwhole.le hv
  have hpos := (rtuMsgException_pos_iff hw hwhole 0).2 h
  exact absurd hnone hpos.ne'

/-- A reader that holds a whole frame is not read further. -/
theorem Receiving.delivered_eq_nil {t : Transport} {w : Frame .writer} {r : Frame .reader}
    {held : List UInt8} (h : Receiving t w r held) (hwhole : held.length = expectedLength t w held) :
    delivered c r env = [] := by
  have hle := delivered_length_le c r env
  rw [h.window, hwhole, Nat.sub_self] at hle
  exact List.length_eq_zero_iff.1 (Nat.le_zero.1 hle)

theorem handleWriteRead_complete {held : List UInt8} (h : Underway .rtu m)
    (ht : c.transport = .rtu) (hsent : m.writer.xmit = m.writer.length)
    (hheld : Receiving .rtu m.writer m.reader held)
    (hwhole : held.length = rtuExpectedLength m.writer held) :
    handleWriteRead c m revents env = ⟨0, c, m⟩ := by
  have hwriter := (frameIncomplete_writer h.request).2 hsent
  have hreader := (frameIncomplete_reader hheld).2 hwhole
  rw [handleWriteRead, ht, if_neg (not_not.2 hwriter), if_neg (not_not.2 hreader)]

/-- A step that completes a request leaves nothing received, or the whole of a reply. -/
theorem handleWriteRead_done (ht : c.transport = .rtu) (h : Underway .rtu m) {s : WriteRead}
    (hs : handleWriteRead c m revents env = s) (hrc : s.rc = 0) :
    RequestFrame .rtu s.msg.writer ∧ ∃ held n,
      s.msg.reader = .holding held n ∧ (held = [] ∨
        s.msg.writer = m.writer ∧ m.writer.xmit = m.writer.length ∧
          held.length = rtuExpectedLength m.writer held ∧
          held = receivedAfter c m revents env) := by
  have hout := handleWriteRead_outcome revents env (ht ▸ h : Underway c.transport m)
  rw [hs] at hout
  have hempty : Sending c.transport m → m.reader = .holding [] 3 := fun hsend => hsend.rtu ht
  cases hout with
  | waits hpos => exact absurd hrc hpos.ne'
  | complete hsent hheld hwhole =>
    rw [ht] at hheld hwhole
    have hnone : delivered c m.reader env = [] := hheld.delivered_eq_nil hwhole
    refine ⟨h.request, _, _, hheld.frame, .inr ⟨rfl, hsent, hwhole, ?_⟩⟩
    rw [receivedAfter, hnone, List.append_nil, ite_self, hheld.received]
  | writing _ hopen hwrite =>
    cases hwrite with
    | gap => exact ⟨h.request, [], 3, hempty hopen, .inl rfl⟩
    | failed => exact absurd hrc (by decide : errTransport ≠ 0)
    | part _ _ hpos => exact absurd hrc hpos.ne'
    | broadcast => exact ⟨h.request.sent _, [], 3, hempty hopen, .inl rfl⟩
    | whole _ _ _ hpos => exact absurd hrc hpos.ne'
  | reading hready hsent hheld _ hread =>
    cases hread with
    | failed => exact absurd hrc (by decide : errTransport ≠ 0)
    | answering hall _ _ _ hdone =>
      rw [ht] at hdone
      refine ⟨h.request, _, _, rfl, .inr ⟨rfl, hsent, hdone.1 hrc, ?_⟩⟩
      rw [receivedAfter, if_pos ⟨hsent, hready⟩, hheld.received, hall]
    | refused => exact absurd hrc (by decide : errException ≠ 0)
    | sizing _ _ _ _ hpos => exact absurd hrc hpos.ne'
    | steppedOver _ _ _ _ hpos => exact absurd hrc hpos.ne'
    | noise => exact absurd hrc (by decide : errProtocol ≠ 0)

theorem rtuMsgCheck_holding (w : Frame .writer) (held : List UInt8) (n : ℕ) :
    ∃ k, (rtuMsgCheck w (.holding held n)).2 = .holding held k := by
  have hcase := rtuMsgCheckHeader_cases w (.holding held n)
  rw [rtuMsgCheck_reader]
  generalize rtuMsgCheckHeader w (.holding held n) = out at hcase
  cases hcase with
  | short => exact ⟨n, rfl⟩
  | slave => exact ⟨n, rfl⟩
  | function => exact ⟨n, rfl⟩
  | exception => exact ⟨5, rfl⟩
  | byteCount => exact ⟨n, rfl⟩
  | data => exact ⟨_, rfl⟩
  | echo => exact ⟨_, rfl⟩

/-- Bytes that look like an exception are accepted only after a broadcast, which has no
answer. -/
theorem ExceptionBytes.check_eq_zero_iff {w : Frame .writer} (hw : RequestFrame .rtu w)
    (hsent : w.xmit = w.length) {s : List UInt8} (h : ExceptionBytes w s) (n : ℕ) :
    (rtuMsgCheck w (.holding s n)).1 = 0 ↔ rtuMsgBroadcast w = true := by
  have hpasses : ¬ (rtuMsgCheckHeader w (.holding s n)).1 < 0 := by
    change ¬ (checkHeader .rtu w (.holding s n)).1 < 0
    rw [checkHeader_verdict]
    exact h.passes hw
  constructor
  · intro hzero
    by_contra hb
    obtain ⟨-, -, -, hnormal, -⟩ := rtuMsgCheck_accepts (by simpa using hb) hzero
    obtain ⟨k, hk⟩ := rtuMsgCheck_holding w s n
    rw [rtuMsgCheck_reader] at hk
    rw [hk, Frame.holding_buf, h.function] at hnormal
    exact hnormal (hasExceptionBit_or _)
  · intro hb
    unfold rtuMsgCheck
    dsimp only
    rw [if_neg hpasses, if_neg (not_not.2 hsent), if_pos hb]

theorem rejectReason_eq_exception {t : Transport} {m : Msg} :
    rejectReason t m = errException ↔ 0 < msgException t m.writer m.reader := by
  unfold rejectReason
  split_ifs with h
  · simp [h]
  · simp only [h, iff_false]
    decide

/-- On RTU a step ends with an exception only on bytes that look like one. -/
theorem ends_exception (ht : c.transport = .rtu) (h : Underway .rtu m) {s : WriteRead}
    (hs : handleWriteRead c m revents env = s) {m' : Msg} {pending : Bool}
    (hends : Ends s m' errException pending) :
    ExceptionBytes m'.writer (received m') ∧ m'.writer = m.writer ∧
      msgBroadcast .rtu m.writer = false ∧ received m' = receivedAfter c m revents env := by
  have hunder : Underway c.transport m := ht ▸ h
  have htransport : s.ctx.transport = c.transport := by
    rw [← hs]
    exact (handleWriteRead_served (G := False) revents env hunder False.elim).transport
  generalize herror : errException = error at hends
  cases hends with
  | answered => exact absurd herror (by decide)
  | @rejected rc reader hrc hcheck hne =>
    obtain ⟨hw, held, n, hreader, hheld⟩ := handleWriteRead_done ht h hs hrc
    rw [htransport, ht, hreader] at hcheck
    obtain ⟨k, hk⟩ := rtuMsgCheck_holding s.msg.writer held n
    obtain rfl : Frame.holding held k = reader := by
      rw [← hk]
      exact congrArg Prod.snd hcheck
    have hpos : 0 < rtuMsgException s.msg.writer (.holding held k) := by
      rw [htransport, ht] at herror
      exact rejectReason_eq_exception.1 herror.symm
    have hreceived : received { s.msg with reader := .holding held k } = held :=
      received_holding rfl
    rcases hheld with rfl | ⟨hwriter, hsent, hwhole, hafter⟩
    · exact absurd hpos (lt_irrefl 0)
    · rw [← hwriter] at hwhole hsent ⊢
      have hbytes := (rtuMsgException_pos_iff hw hwhole k).1 hpos
      rw [hreceived]
      refine ⟨hbytes, rfl, ?_, hafter⟩
      by_contra hb
      refine hne ((congrArg Prod.fst hcheck).symm.trans ?_)
      exact (hbytes.check_eq_zero_iff hw hsent n).2 (eq_true_of_ne_false hb)
  | refused hrc =>
    rcases handleWriteRead_neg revents env hunder hs (by rw [hrc]; decide) with
      ⟨hneg, -⟩ | ⟨-, hsent, -, all, hall, ⟨hneg, -⟩ | ⟨-, -, hv, hx⟩ | ⟨hneg, -⟩⟩
    · exact absurd (hneg.symm.trans hrc) (by decide)
    · exact absurd (hneg.symm.trans hrc) (by decide)
    · rw [ht] at hv hx
      rcases h.stage with hsend | ⟨-, held, hheld⟩
      · exact absurd hsend.unsent hsent.not_lt
      · rw [hheld.received] at hall
        have hheld' : Receiving c.transport m.writer m.reader held := ht ▸ hheld
        have hfits' := hheld'.delivered_fits env
        rw [ht] at hfits'
        have hfits : all.length ≤ rtuExpectedLength m.writer all := by
          rw [hall]
          exact fits_append hfits' trivial
        exact absurd (rtu_exceptionCode_eq_zero hfits hv) hx.ne'
    · exact absurd (hneg.symm.trans hrc) (by decide)
  | noise hrc =>
    rcases handleWriteRead_neg revents env hunder hs (by rw [hrc]; decide) with
      ⟨hneg, -⟩ | ⟨-, -, -, all, -, ⟨hneg, -⟩ | ⟨hneg, -⟩ | ⟨-, -, harmed⟩⟩
    · exact absurd (hneg.symm.trans hrc) (by decide)
    · exact absurd (hneg.symm.trans hrc) (by decide)
    · exact absurd (hneg.symm.trans hrc) (by decide)
    · have hpos := rejectReason_eq_exception.1 herror.symm
      rw [harmed, htransport, ht] at hpos
      exact absurd hpos (lt_irrefl 0)
  | failed => exact absurd herror (by decide)

theorem Sending.received_eq_nil {t : Transport} (h : Sending t m) : received m = [] := by
  rw [received, h.empty]
  rfl

theorem handleWriteRead_exception (ht : c.transport = .rtu) (h : Underway .rtu m)
    (hbytes : ExceptionBytes m.writer (receivedAfter c m revents env)) {s : WriteRead}
    (hs : handleWriteRead c m revents env = s) :
    s.rc = 0 ∧ s.msg.writer = m.writer ∧ m.writer.xmit = m.writer.length ∧
      s.msg.reader = .holding (receivedAfter c m revents env) 5 := by
  have hexpected := hbytes.expectedLength h.request
  have hlength := hbytes.length
  have hpasses := hbytes.passes h.request
  have hsent : m.writer.xmit = m.writer.length := by
    by_contra hunsent
    rcases h.stage with hsend | ⟨hsent, -⟩
    · rw [receivedAfter, if_neg (fun h => hunsent h.1), hsend.received_eq_nil] at hlength
      exact absurd hlength (by decide)
    · exact hunsent hsent
  obtain ⟨held, hheld⟩ : ∃ held, Receiving .rtu m.writer m.reader held := by
    rcases h.stage with hsend | ⟨-, hheld⟩
    · exact absurd hsend.unsent hsent.not_lt
    · exact hheld
  have hafter : receivedAfter c m revents env =
      if revents.pollin then held ++ delivered c m.reader env else held := by
    simp only [receivedAfter, hsent, true_and, hheld.received]
  by_cases hwhole : held.length = rtuExpectedLength m.writer held
  · have hnone : delivered c m.reader env = [] := hheld.delivered_eq_nil hwhole
    rw [hnone, List.append_nil, ite_self] at hafter
    rw [handleWriteRead_complete h ht hsent hheld hwhole] at hs
    subst hs
    refine ⟨rfl, rfl, hsent, ?_⟩
    rw [hheld.frame, hafter]
    rw [hafter] at hexpected
    exact congrArg (Frame.holding held) hexpected
  · have hopen : held.length < rtuExpectedLength m.writer held :=
      lt_of_le_of_ne hheld.fits hwhole
    have hready : revents.pollin = true := by
      by_contra hno
      rw [if_neg hno] at hafter
      rw [hafter] at hexpected hlength
      omega
    rw [if_pos hready] at hafter
    have hheld' : Receiving c.transport m.writer m.reader held := ht ▸ hheld
    have hopen' : held.length < expectedLength c.transport m.writer held := by
      rw [ht]
      exact hopen
    have hread := readHalf_outcome env hsent hheld' hopen'
    rw [← handleWriteRead_reading env (ht ▸ h.request) hsent hheld' hopen' hready, hs] at hread
    rw [hafter] at hexpected hlength hpasses ⊢
    cases hread with
    | failed hall herror =>
      rcases herror with herror | hunusable
      · have hnone : delivered c m.reader env = [] := by
          rw [delivered, herror]
        rw [hnone, List.append_nil] at hexpected hlength
        omega
      · rw [ht] at hunusable
        exact absurd trivial hunusable
    | answering hall _ _ _ hdone =>
      subst hall
      rw [ht] at hdone ⊢
      refine ⟨hdone.2 ?_, rfl, hsent, congrArg (Frame.holding _) hexpected⟩
      exact hlength.trans hexpected.symm
    | refused hall _ hv =>
      subst hall
      rw [ht] at hv
      exact absurd hv hpasses
    | sizing hall _ hv =>
      subst hall
      rw [ht] at hv
      exact absurd hv hpasses
    | steppedOver hall hv =>
      subst hall
      rw [ht] at hv
      exact absurd hv hpasses
    | noise hall hv =>
      subst hall
      rw [ht] at hv
      exact absurd hv hpasses

theorem handleWriteRead_timers (revents : Revents) (env : Env) (h : Underway c.transport m) :
    (handleWriteRead c m revents env).ctx.timers = c.timers := by
  have hout := handleWriteRead_outcome revents env h
  have hbefore : (beforeWrite c m env).timers = c.timers := by
    unfold beforeWrite
    split_ifs <;> rfl
  generalize handleWriteRead c m revents env = s at hout
  cases hout with
  | waits => rfl
  | complete => rfl
  | writing _ _ hwrite => cases hwrite <;> first | rfl | exact hbefore
  | reading _ _ _ _ hread => cases hread <;> rfl

theorem Served.not_leaves {G : Prop} {s : WriteRead} (h : Served G c m s) :
    ∃ δ, s.ctx.log = c.log ++ δ ∧ ∀ m' error, Event.released m' error ∉ δ := by
  obtain ⟨quiet, sent, n, hlog, hquiet, hsent, -⟩ := h.moved
  refine ⟨quiet ++ sent, by rw [hlog, List.append_assoc], fun m' error hmem => ?_⟩
  rcases List.mem_append.1 hmem with hmem | hmem
  · exact hquiet _ hmem
  · rcases hsent with ⟨rfl, -⟩ | ⟨unread, rfl⟩ <;> simp at hmem

theorem LeavesWith.ends {wrapper : Wrapper} {rest : List Wrapper} (hq : c.queue = wrapper :: rest)
    (hunder : Underway c.transport wrapper.msg) {error : ℤ} (h : LeavesWith c revents env m error)
    (hne : error ≠ 0) :
    (∃ pending, Ends (handleWriteRead c wrapper.msg revents env) m error pending) ∧
      (error ≠ errException → (loopWriteRead c revents env).2.timers = c.timers) := by
  obtain ⟨δ, hlog, hmem⟩ := h
  have hserved := handleWriteRead_served (G := False) revents env hunder False.elim
  obtain ⟨δ', hlog', hnone⟩ := hserved.not_leaves
  have htimers := handleWriteRead_timers revents env hunder
  have hshape := loopWriteRead_shape hq revents env
  generalize handleWriteRead c wrapper.msg revents env = s at hlog' hshape htimers
  cases hshape with
  | waits hsame =>
    rw [hsame, hlog', List.append_cancel_left_eq] at hlog
    exact absurd (hlog ▸ hmem) (hnone m error)
  | answered htold hsame =>
    rw [hsame, hlog', List.append_assoc, List.append_assoc, List.append_cancel_left_eq] at hlog
    rw [← hlog] at hmem
    simp only [List.mem_append, hnone, htold, List.mem_singleton, false_or,
      Event.released.injEq] at hmem
    exact absurd hmem.2 hne
  | failed hends _ htold hkept hsame =>
    rw [hsame, hlog', List.append_assoc, List.append_assoc, List.append_cancel_left_eq] at hlog
    rw [← hlog] at hmem
    simp only [List.mem_append, hnone, htold, List.mem_singleton, false_or,
      Event.released.injEq] at hmem
    obtain ⟨rfl, rfl⟩ := hmem
    exact ⟨⟨_, hends⟩, fun h => (hkept h).trans htimers⟩

theorem exceptionBytes_reported {wrapper : Wrapper} {rest : List Wrapper}
    (revents : Revents) (env : Env) (ht : c.transport = .rtu) (hq : c.queue = wrapper :: rest)
    (h : Underway .rtu wrapper.msg) (hb : msgBroadcast .rtu wrapper.msg.writer = false)
    (hbytes : ExceptionBytes wrapper.msg.writer (receivedAfter c wrapper.msg revents env)) :
    ∃ m, LeavesWith c revents env m errException ∧
      received m = receivedAfter c wrapper.msg revents env := by
  have hunder : Underway c.transport wrapper.msg := ht ▸ h
  have hserved := handleWriteRead_served (G := False) revents env hunder False.elim
  obtain ⟨s, hs⟩ : ∃ s, handleWriteRead c wrapper.msg revents env = s := ⟨_, rfl⟩
  obtain ⟨hrc, hwriter, hsent, hreader⟩ := handleWriteRead_exception ht h hbytes hs
  rw [hs] at hserved
  obtain ⟨δ, hlog, -⟩ := hserved.not_leaves
  obtain ⟨c₁, hc₁⟩ : ∃ c₁, c₁ = { s.ctx with
      queue := { wrapper with msg := s.msg } :: rest
      tx := s.ctx.tx + 1
      rx := s.ctx.rx + 1 } := ⟨_, rfl⟩
  have hcall : (loopWriteRead c revents env).2 =
      (handleMsg c₁ { wrapper with msg := s.msg } env).2 := by
    unfold loopWriteRead
    rw [hq]
    dsimp only
    rw [hs, if_pos hrc, hc₁]
  have htransport : c₁.transport = .rtu := by
    rw [hc₁]
    exact hserved.transport.trans ht
  rcases handleMsg_cases c₁ { wrapper with msg := s.msg } env with
    ⟨rc, reader, hcheck, -, hresult⟩ | ⟨reader, hcheck, -⟩
  · obtain ⟨k, hk⟩ := rtuMsgCheck_holding s.msg.writer (receivedAfter c wrapper.msg revents env) 5
    obtain rfl : Frame.holding (receivedAfter c wrapper.msg revents env) k = reader := by
      rw [← hk, ← hreader]
      rw [htransport] at hcheck
      exact congrArg Prod.snd hcheck
    have hreason : rejectReason c₁.transport { s.msg with
        reader := .holding (receivedAfter c wrapper.msg revents env) k } = errException := by
      rw [htransport, rejectReason_eq_exception]
      change 0 < rtuMsgException s.msg.writer (.holding _ k)
      rw [hwriter, rtuMsgException_pos_iff h.request ?_ k]
      · exact hbytes
      · rw [hbytes.length, hbytes.expectedLength h.request]
    obtain ⟨told, htold, -⟩ := (reportError_telling (resynced c₁ env) .post { s.msg with
      reader := .holding (receivedAfter c wrapper.msg revents env) k } errException env).log
    refine ⟨{ s.msg with reader := .holding (receivedAfter c wrapper.msg revents env) k },
      ⟨δ ++ [.flushed] ++ told ++ [.released _ errException], ?_,
        List.mem_append_right _ (List.mem_singleton.2 rfl)⟩, received_holding rfl⟩
    rw [hcall, hresult, hreason]
    change (reportError _ _ _ env).log ++ _ = _
    rw [htold]
    change c₁.log ++ [.flushed] ++ _ ++ _ = _
    rw [hc₁]
    change s.ctx.log ++ [.flushed] ++ _ ++ _ = _
    rw [hlog]
    simp only [List.append_assoc]
  · rw [htransport] at hcheck
    have hzero : (rtuMsgCheck s.msg.writer s.msg.reader).1 = 0 := congrArg Prod.fst hcheck
    rw [hwriter, hreader, hbytes.check_eq_zero_iff h.request hsent 5] at hzero
    exact absurd (hb.symm.trans hzero) (by decide)

theorem not_countsAnswering (timers : List Timer) : ¬ CountsAnswering timers timers := by
  rintro ⟨i, t, t', ht, ht', hless⟩
  obtain rfl : t = t' := Option.some.inj (ht.symm.trans ht')
  rcases hless with hless | ⟨hset, hclear⟩
  · exact lt_irrefl _ hless
  · exact hclear hset

/-- The loop reports an exception, and credits the slave with it, on sound evidence exactly if
what it has received does not look like an exception with a wrong CRC. -/
theorem exception_sound_iff {wrapper : Wrapper} {rest : List Wrapper}
    (ht : c.transport = .rtu) (hq : c.queue = wrapper :: rest)
    (hhead : Outstanding .rtu wrapper.msg) (revents : Revents) (env : Env) :
    ExceptionSound c revents env ↔
      ¬ (msgBroadcast .rtu wrapper.msg.writer = false ∧
        CorruptException wrapper.msg.writer (receivedAfter c wrapper.msg revents env)) := by
  have hunder := hhead.underway
  have hunder' : Underway c.transport wrapper.msg := ht ▸ hunder
  constructor
  · rintro hsound ⟨hb, hbytes, hcrc⟩
    obtain ⟨m, hleaves, hreceived⟩ := exceptionBytes_reported _ _ ht hq hunder hb hbytes
    exact hcrc (hreceived ▸ (hsound.reports m hleaves).2)
  · intro hintact
    have hreports : ∀ m, LeavesWith c revents env m errException →
        ExceptionBytes m.writer (received m) ∧ CrcValid (received m) := by
      intro m hleaves
      obtain ⟨⟨pending, hends⟩, -⟩ := hleaves.ends hq hunder' (by decide)
      obtain ⟨hbytes, hwriter, hb, hreceived⟩ := ends_exception ht hunder rfl hends
      refine ⟨hbytes, ?_⟩
      by_contra hcrc
      rw [hwriter, hreceived] at hbytes
      rw [hreceived] at hcrc
      exact hintact ⟨hb, hbytes, hcrc⟩
    refine ⟨hreports, fun m error hleaves hne hcounts => ?_⟩
    obtain ⟨-, htimers⟩ := hleaves.ends hq hunder' hne
    by_cases hexception : error = errException
    · exact hreports m (hexception ▸ hleaves)
    · rw [htimers hexception] at hcounts
      exact absurd hcounts (not_countsAnswering _)

/-- The head has received the first three bytes of an exception reply and these arrive. -/
def exceptionContext (input : List UInt8) : Context :=
  { sampleContext .rtu input with
    queue := [⟨.post, 0, (readMore .rtu (sentPoll .rtu 2) [1, 0x83, 2]).msg⟩] }

theorem exceptionContext_outstanding :
    Outstanding .rtu (readMore .rtu (sentPoll .rtu 2) [1, 0x83, 2]).msg :=
  readMore_outstanding (sentPoll_outstanding .rtu 2 (by decide +kernel)) _ (by decide +kernel)

theorem exception_sound_iff_example :
    ExceptionSound (exceptionContext [0xc0, 0xf1]) ⟨true, false, false, false⟩ sampleEnv ∧
      receivedAfter (exceptionContext [0xc0, 0xf1])
        (readMore .rtu (sentPoll .rtu 2) [1, 0x83, 2]).msg ⟨true, false, false, false⟩ sampleEnv =
          [1, 0x83, 2, 0xc0, 0xf1] := by
  refine ⟨(exception_sound_iff rfl rfl exceptionContext_outstanding _ _).2 ?_, by decide +kernel⟩
  exact fun h => h.2.2 (by decide +kernel)

theorem corrupt_exception_reported :
    ¬ ∀ (c : Context) (wrapper : Wrapper) (rest : List Wrapper) (revents : Revents) (env : Env),
      c.transport = .rtu → c.queue = wrapper :: rest → Outstanding .rtu wrapper.msg →
        ExceptionSound c revents env := by
  intro hall
  have ht : (exceptionContext [0, 0]).transport = .rtu := rfl
  have hq : (exceptionContext [0, 0]).queue =
      [⟨.post, 0, (readMore .rtu (sentPoll .rtu 2) [1, 0x83, 2]).msg⟩] := rfl
  have hsound := hall _ _ _ ⟨true, false, false, false⟩ sampleEnv ht hq exceptionContext_outstanding
  obtain ⟨m, hleaves, hreceived⟩ := exceptionBytes_reported ⟨true, false, false, false⟩ sampleEnv
    ht hq exceptionContext_outstanding.underway (by decide +kernel)
    ⟨by decide +kernel, by decide +kernel, by decide +kernel, by decide +kernel⟩
  exact absurd (hreceived ▸ (hsound.reports m hleaves).2) (by decide +kernel)

end Modbusmq
