import Modbusmq.Reading.Step
import Modbusmq.Writing.Step

/-!
# Outstanding requests

The messages a posted request can have become after any number of calls of
`modbusmq_handle_write_read` that left it outstanding, whatever the context, the
poll events and the answers of the operating system were at each call.
-/

namespace Modbusmq

/-- The return values after which a caller keeps the request: more to do, complete, or
(in `modbusmq_send`) a frame that was rejected while the wait goes on. -/
def KeepsRequest (rc : ℤ) : Prop := 0 ≤ rc ∨ rc = errProtocol

instance (rc : ℤ) : Decidable (KeepsRequest rc) := inferInstanceAs (Decidable (_ ∨ _))

theorem not_keepsRequest_transport : ¬ KeepsRequest errTransport := by
  simp [KeepsRequest, errTransport, errProtocol]

theorem not_keepsRequest_exception : ¬ KeepsRequest errException := by
  simp [KeepsRequest, errException, errProtocol]

inductive Outstanding (t : Transport) : Msg → Prop
  | posted {m : Msg} (h : Posted t m) : Outstanding t m
  | step {m : Msg} (h : Outstanding t m) {c : Context} (ht : c.transport = t)
      (revents : Revents) (env : Env) (hrc : KeepsRequest (handleWriteRead c m revents env).rc) :
      Outstanding t (handleWriteRead c m revents env).msg

/-- The request still has bytes to send, and nothing can have been received. -/
structure Sending (t : Transport) (m : Msg) : Prop where
  unsent : m.writer.xmit < m.writer.length
  empty : m.reader.xmit = 0
  header : m.reader.length ≤ t.headerLength
  rtu : t = .rtu → m.reader = armed .rtu

/-- What is true of an outstanding request between two calls. -/
structure Underway (t : Transport) (m : Msg) : Prop where
  request : RequestFrame t m.writer
  stage : Sending t m ∨
    m.writer.xmit = m.writer.length ∧ ∃ held, Receiving t m.writer m.reader held

/-- What one call does with a request that is underway. -/
inductive StepOutcome (c : Context) (m : Msg) (revents : Revents) (env : Env) :
    WriteRead → Prop
  /-- the descriptor is not ready for what the request needs next -/
  | waits {rc : ℤ} (hrc : 0 < rc) (hwrite : m.writer.xmit < m.writer.length → ¬ revents.pollout)
      (hread : m.writer.xmit = m.writer.length → ¬ revents.pollin) :
      StepOutcome c m revents env ⟨rc, c, m⟩
  /-- the answer is already complete -/
  | complete {held : List UInt8} (hsent : m.writer.xmit = m.writer.length)
      (h : Receiving c.transport m.writer m.reader held)
      (hwhole : held.length = expectedLength c.transport m.writer held) :
      StepOutcome c m revents env ⟨0, c, m⟩
  | writing {s : WriteRead} (hready : revents.pollout) (hopen : Sending c.transport m)
      (h : WriteOutcome c m env s) : StepOutcome c m revents env s
  | reading {s : WriteRead} {held : List UInt8} (hready : revents.pollin)
      (hsent : m.writer.xmit = m.writer.length)
      (hheld : Receiving c.transport m.writer m.reader held)
      (hopen : held.length < expectedLength c.transport m.writer held)
      (h : ReadOutcome c m held env s) : StepOutcome c m revents env s

theorem Posted.underway {t : Transport} {m : Msg} (h : Posted t m) : Underway t m := by
  have hframe := h.requestFrame
  have hmin : 0 < t.reqHeaderMin := by
    cases t <;> decide
  refine ⟨hframe, .inl ⟨?_, h.reader.1, h.reader.2, ?_⟩⟩
  · rw [h.unsent]
    exact lt_of_lt_of_le hmin hframe.header
  · rintro rfl
    exact h.reader_rtu

theorem RequestFrame.sent {t : Transport} {m : Msg} (h : RequestFrame t m.writer) (n : ℕ) :
    RequestFrame t (m.sent n).writer :=
  ⟨h.header, h.fits, by cases t <;> exact h.function, h.protocol⟩

theorem frameIncomplete_writer {t : Transport} {w : Frame .writer} (h : RequestFrame t w) :
    frameIncomplete t w = 0 ↔ w.xmit = w.length := by
  simp [frameIncomplete, h.header]

theorem frameIncomplete_reader {t : Transport} {w : Frame .writer} {r : Frame .reader}
    {held : List UInt8} (h : Receiving t w r held) :
    frameIncomplete t r = 0 ↔ held.length = expectedLength t w held := by
  have hlo := (expectedLength_bounds w h.usable).1
  have hmin := resHeaderMin_le w h.usable
  have hpos : 0 < t.headerLength := by
    cases t <;> decide
  have hfits := h.fits
  have hlength : r.length = expectedLength t w held := congrArg Frame.length h.frame
  have hxmit : r.xmit = held.length := congrArg Frame.xmit h.frame
  rw [← hlength] at hlo hmin hfits ⊢
  rw [← hxmit] at hfits ⊢
  unfold frameIncomplete
  dsimp only
  rw [if_neg (by omega)]
  split_ifs with hshort hwhole
  · omega
  · simp [hwhole]
  · simp [hwhole]

/-- A reader that waits for bytes is read when there are some. -/
theorem handleWriteRead_reading {c : Context} {m : Msg} {held : List UInt8} {revents : Revents}
    (env : Env) (hrequest : RequestFrame c.transport m.writer)
    (hsent : m.writer.xmit = m.writer.length)
    (hheld : Receiving c.transport m.writer m.reader held)
    (hopen : held.length < expectedLength c.transport m.writer held) (hready : revents.pollin) :
    handleWriteRead c m revents env = readHalf c m env := by
  have hwriter := (frameIncomplete_writer hrequest).2 hsent
  have hreader : frameIncomplete c.transport m.reader ≠ 0 := fun h =>
    absurd ((frameIncomplete_reader hheld).1 h) (by omega)
  rw [handleWriteRead, if_neg (not_not.2 hwriter), if_pos hreader, if_pos hready]

theorem handleWriteRead_outcome {c : Context} {m : Msg} (revents : Revents) (env : Env)
    (h : Underway c.transport m) :
    StepOutcome c m revents env (handleWriteRead c m revents env) := by
  have hwriter := frameIncomplete_writer h.request
  rcases h.stage with hsend | ⟨hsent, held, hheld⟩
  · have hopen := hsend.unsent
    rw [handleWriteRead, if_pos (by rw [ne_eq, hwriter]; omega)]
    by_cases hready : revents.pollout = true
    · rw [if_pos hready]
      exact .writing hready hsend (writeHalf_outcome env hopen h.request.fits hsend.empty)
    · obtain ⟨rc, hfin, hrc⟩ := finish_pos 0 c m le_rfl
        (fun _ => ⟨hopen, by rw [hsend.empty]; omega⟩)
      rw [if_neg hready, hfin]
      exact .waits hrc (fun _ => hready) (fun hsent => absurd hsent (by omega))
  · have hreader := frameIncomplete_reader hheld
    by_cases hwhole : held.length = expectedLength c.transport m.writer held
    · rw [handleWriteRead, if_neg (by rw [ne_eq, hwriter, not_not]; exact hsent),
        if_neg (by rw [ne_eq, hreader, not_not]; exact hwhole)]
      exact .complete hsent hheld hwhole
    · have hopen : held.length < expectedLength c.transport m.writer held := by
        have := hheld.fits
        omega
      by_cases hready : revents.pollin = true
      · have hhalf := handleWriteRead_reading env h.request hsent hheld hopen hready
        rw [hhalf]
        exact .reading hready hsent hheld hopen (readHalf_outcome env hsent hheld hopen)
      · obtain ⟨rc, hfin, hrc, hdone⟩ := finish_holding (c := c) (m := m) hsent
          (resHeaderMin_le m.writer hheld.usable) hheld.fits le_rfl (fun _ => rfl)
        have hm : { m with reader := .holding held (expectedLength c.transport m.writer held) } =
            m := by
          rw [← hheld.frame]
        rw [hm] at hfin
        rw [handleWriteRead, if_neg (by rw [ne_eq, hwriter, not_not]; exact hsent),
          if_pos (by rw [ne_eq, hreader]; exact hwhole), if_neg hready, hfin]
        exact .waits (by omega) (fun hno => absurd hno (by omega)) (fun _ => hready)

theorem Underway.step {c : Context} {m : Msg} (revents : Revents) (env : Env)
    (h : Underway c.transport m) (hrc : KeepsRequest (handleWriteRead c m revents env).rc) :
    Underway c.transport (handleWriteRead c m revents env).msg := by
  have hout := handleWriteRead_outcome revents env h
  generalize handleWriteRead c m revents env = s at hrc hout
  cases hout with
  | waits => exact h
  | complete => exact h
  | writing _ hopen hwrite =>
    cases hwrite with
    | gap => exact h
    | failed => exact absurd hrc not_keepsRequest_transport
    | part _ hpart =>
      exact ⟨h.request.sent _, .inl ⟨hpart, hopen.empty, hopen.header, hopen.rtu⟩⟩
    | @broadcast n _ hwhole hb =>
      have hrtu : c.transport = .rtu := by
        cases ht : c.transport with
        | tcp =>
          rw [ht] at hb
          exact absurd hb (by simp [msgBroadcast])
        | rtu => rfl
      refine ⟨h.request.sent _, .inr ⟨hwhole, [], ?_⟩⟩
      have harmed := receiving_armed c.transport (m.sent n).writer
      rwa [hrtu, ← hopen.rtu hrtu, ← hrtu] at harmed
    | whole _ hwhole =>
      exact ⟨h.request.sent _, .inr ⟨hwhole, [], receiving_armed _ _⟩⟩
  | reading _ hsent hheld hopen hread =>
    have hfits := hheld.delivered_fits env
    cases hread with
    | failed => exact absurd hrc not_keepsRequest_transport
    | refused => exact absurd hrc not_keepsRequest_exception
    | answering hall hu _ _ _ =>
      subst hall
      exact ⟨h.request, .inr ⟨hsent, _, rfl, fits_append hfits hu, hu⟩⟩
    | sizing hall hu _ hpart _ =>
      exact ⟨h.request, .inr ⟨hsent, _, rfl, hpart.le, hu⟩⟩
    | steppedOver => exact ⟨h.request, .inr ⟨hsent, [], receiving_armed _ _⟩⟩
    | noise => exact ⟨h.request, .inr ⟨hsent, [], receiving_armed _ _⟩⟩

theorem Outstanding.underway {t : Transport} {m : Msg} (h : Outstanding t m) : Underway t m := by
  induction h with
  | posted h => exact h.underway
  | step _ ht revents env hrc ih =>
    subst ht
    exact ih.step revents env hrc

def received (m : Msg) : List UInt8 := m.reader.bytes m.reader.xmit

theorem Receiving.received {t : Transport} {m : Msg} {held : List UInt8}
    (h : Receiving t m.writer m.reader held) : received m = held := by
  rw [Modbusmq.received, h.frame]
  exact Frame.bytes_holding held _

theorem Outstanding.receiving {t : Transport} {m : Msg} (h : Outstanding t m)
    (hsent : m.writer.xmit = m.writer.length) :
    Receiving t m.writer m.reader (Modbusmq.received m) := by
  rcases h.underway.stage with hsend | ⟨-, held, hheld⟩
  · exact absurd hsend.unsent (by omega)
  · rwa [hheld.received]

theorem received_holding {m : Msg} {held : List UInt8} {n : ℕ} (h : m.reader = .holding held n) :
    received m = held := by
  rw [received, h]
  exact Frame.bytes_holding held n

/-- The ways a step on an outstanding request returns a negative value: a write that failed,
or a read. -/
theorem handleWriteRead_neg {c : Context} {m : Msg} (revents : Revents) (env : Env)
    (h : Underway c.transport m) {s : WriteRead} (hs : handleWriteRead c m revents env = s)
    (hneg : s.rc < 0) :
    s.rc = errTransport ∧ s.msg = m ∨
      revents.pollin ∧ m.writer.xmit = m.writer.length ∧ s.msg.writer = m.writer ∧
        ∃ all, all = received m ++ delivered c m.reader env ∧
          (s.rc = errTransport ∧ received s.msg = all ∨
            s.rc = errException ∧
              s.msg.reader = .holding all (expectedLength c.transport m.writer all) ∧
              headerVerdict c.transport m.writer all < 0 ∧
              0 < exceptionCode c.transport m.writer all ∨
            s.rc = errProtocol ∧ s.ctx.resyncPending = true ∧
              s.msg.reader = armed c.transport) := by
  have hout := handleWriteRead_outcome revents env h
  rw [hs] at hout
  cases hout with
  | waits hpos => exact absurd hneg (not_lt.2 hpos.le)
  | complete => exact absurd hneg (lt_irrefl 0)
  | writing _ _ hwrite =>
    cases hwrite with
    | gap => exact absurd hneg (lt_irrefl 0)
    | failed => exact .inl ⟨rfl, rfl⟩
    | part _ _ hpos => exact absurd hneg (not_lt.2 hpos.le)
    | broadcast => exact absurd hneg (lt_irrefl 0)
    | whole _ _ _ hpos => exact absurd hneg (not_lt.2 hpos.le)
  | reading hready hsent hheld _ hread =>
    right
    rw [hheld.received]
    cases hread with
    | failed hall => exact ⟨hready, hsent, rfl, _, hall, .inl ⟨rfl, received_holding rfl⟩⟩
    | answering _ _ _ hpos => exact absurd hneg (not_lt.2 hpos)
    | refused hall _ hv hx => exact ⟨hready, hsent, rfl, _, hall, .inr (.inl ⟨rfl, rfl, hv, hx⟩)⟩
    | sizing _ _ _ _ hpos => exact absurd hneg (not_lt.2 hpos.le)
    | steppedOver _ _ _ _ hpos => exact absurd hneg (not_lt.2 hpos.le)
    | noise hall => exact ⟨hready, hsent, rfl, _, hall, .inr (.inr ⟨rfl, rfl, rfl⟩)⟩

/-- The payload bytes a read asks for: eight coils or half a register in each. -/
def bytesAsked (t : Transport) (w : Frame .writer) : ℕ :=
  if frameFunction t w = readCoils ∨ frameFunction t w = readDiscreteInputs then
    (frameNaddr t w + 7) / 8
  else frameNaddr t w * 2

/-- A poll of `naddr` holding registers of slave 1, as posted. -/
def samplePoll (t : Transport) (naddr : ℤ) : Msg :=
  preparedMsg t 1 ⟨1, 1, 0, frameInit t 1 readHoldingRegisters 0 naddr, Frame.zero .reader⟩

def sampleContext (t : Transport) (input : List UInt8) : Context :=
  { newContext t with connected := true, input := input }

/-- A descriptor that takes and gives all it is asked for. -/
def sampleEnv : Env := ⟨fun _ => 0, .accepted 260, .data 260, 260⟩

def writeMore (t : Transport) (m : Msg) : WriteRead :=
  handleWriteRead (sampleContext t []) m ⟨false, true, false, false⟩ sampleEnv

def sentPoll (t : Transport) (naddr : ℤ) : Msg := (writeMore t (samplePoll t naddr)).msg

theorem samplePoll_posted (t : Transport) (naddr : ℤ) : Posted t (samplePoll t naddr) :=
  ⟨1, .readHoldingRegisters 0 naddr, 1, _, rfl, rfl, rfl⟩

theorem writeMore_outstanding {t : Transport} {m : Msg} (h : Outstanding t m)
    (hrc : KeepsRequest (writeMore t m).rc) : Outstanding t (writeMore t m).msg :=
  .step h rfl _ _ hrc

theorem sentPoll_outstanding (t : Transport) (naddr : ℤ)
    (h : KeepsRequest (writeMore t (samplePoll t naddr)).rc) : Outstanding t (sentPoll t naddr) :=
  writeMore_outstanding (.posted (samplePoll_posted t naddr)) h

def readMore (t : Transport) (m : Msg) (input : List UInt8) : WriteRead :=
  handleWriteRead (sampleContext t input) m ⟨true, false, false, false⟩ sampleEnv

theorem readMore_outstanding {t : Transport} {m : Msg} (h : Outstanding t m)
    (input : List UInt8) (hrc : KeepsRequest (readMore t m input).rc) :
    Outstanding t (readMore t m input).msg :=
  .step h rfl _ _ hrc

end Modbusmq
