import Modbusmq.Loop.Steps
import Modbusmq.Server.Response

/-!
# A connection of the virtual server

What one turn of the `select` loop of `modbusmq_server.c` does for one TCP
client: the read half collects a request and prepares its response, the write
half sends the response and clears the message. A message is shared by the two
halves, so the reader is the request here and the writer the response. The
other clients and the clock that picks the idlest of them are left out.
-/

namespace Modbusmq

/-- `modbusmq_connection_t` with the context as this client's descriptor sees it: `connected`
is its own, and `input` is what the client has sent and the server has not read. Everything
the client has sent is kept in `arrived`, a ghost. -/
structure Connection where
  ctx : Context
  msg : Msg
  arrived : List UInt8

def clearedMsg : Msg := .ofFrame 0 (.zero .writer)

def acceptedClient : Connection := ⟨{ newContext .tcp with connected := true }, clearedMsg, []⟩

namespace Connection

/-- The condition under which the loop asks for POLLOUT: the request is in, the response
is not out. -/
def wantsWrite (s : Connection) : Prop :=
  frameIncomplete s.ctx.transport s.msg.reader = 0 ∧
    frameIncomplete s.ctx.transport s.msg.writer ≠ 0

instance (s : Connection) : Decidable s.wantsWrite := inferInstanceAs (Decidable (_ ∧ _))

/-- The read half; `false` is its `continue`. Of a response that overruns its frame this follows
what is in the frame. -/
def readRequest (config : ServedConfig) (s : Connection) (env : Env) : Connection × Bool :=
  if frameIncomplete s.ctx.transport s.msg.reader = 0 then (s, true)
  else
    let got := readFrame s.ctx s.msg.reader env
    let msg := { s.msg with reader := got.frame }
    if got.rc < 0 then ({ s with ctx := { got.ctx with err := got.ctx.err + 1 }, msg := msg }, false)
    else if got.rc = 0 then ({ s with ctx := { got.ctx with connected := false }, msg := msg }, true)
    else if msg.reader.xmit = msg.reader.length then
      ({ s with
        ctx := got.ctx
        msg := { msg with writer := filledResponse config msg.reader msg.writer } }, true)
    else ({ s with ctx := got.ctx, msg := msg }, true)

/-- The write half. The message is cleared after any write that did not fail. -/
def writeResponse (s : Connection) (env : Env) : Connection :=
  if frameIncomplete s.ctx.transport s.msg.writer = 0 then s
  else
    let put := writeFrame s.ctx s.msg env
    if put.rc < 0 then
      { s with ctx := { put.ctx with err := put.ctx.err + 1, connected := false }, msg := put.msg }
    else { s with ctx := { put.ctx with lastWriteMs := env.clock .stamp }, msg := clearedMsg }

/-- One turn of the loop for a client, with what `select` reports of it. -/
def turn (config : ServedConfig) (s : Connection) (readable writable : Bool) (env : Env) :
    Connection :=
  if ¬ s.ctx.connected then s
  else
    let (s', go) := if readable then s.readRequest config env else (s, true)
    if go ∧ s'.ctx.connected ∧ writable ∧ s.wantsWrite then s'.writeResponse env else s'

def written (s : Connection) : List UInt8 := bytesWritten s.ctx.log

/-- What `read` has delivered of what the client sent. -/
def received (s : Connection) : List UInt8 :=
  s.arrived.take (s.arrived.length - s.ctx.input.length)

/-- What is left of the response that is being sent. -/
def unsent (s : Connection) : List UInt8 :=
  (s.msg.writer.bytes s.msg.writer.length).drop s.msg.writer.xmit

end Connection

inductive ServerAction
  | arrive (bytes : List UInt8)
  | turn (readable writable : Bool)

def ServerAction.perform (config : ServedConfig) (s : Connection) (env : Env) :
    ServerAction → Connection
  | arrive bytes =>
    { s with
      ctx := { s.ctx with input := s.ctx.input ++ bytes }
      arrived := s.arrived ++ bytes }
  | turn readable writable => s.turn config readable writable env

def Connection.run (config : ServedConfig) (actions : List (ServerAction × Env))
    (s : Connection) : Connection :=
  actions.foldl (fun s action => action.1.perform config s action.2) s

/-- A condition on every action of a run, each in the state it is taken in. -/
def Connection.Along (config : ServedConfig) (Q : Connection → Env → ServerAction → Prop) :
    List (ServerAction × Env) → Connection → Prop
  | [], _ => True
  | action :: actions, s =>
    Q s action.2 action.1 ∧ Along config Q actions (action.1.perform config s action.2)

/-- The requests in a stream: whole frames by their length field. A header whose field cannot
be used is skipped. -/
def requestsOf (stream : List UInt8) : List (Frame .reader) :=
  if stream.length < 6 then []
  else if ¬ Usable .tcp stream then requestsOf (stream.drop 6)
  else if stream.length < declaredLength stream then []
  else .holding (stream.take (declaredLength stream)) (declaredLength stream) ::
    requestsOf (stream.drop (declaredLength stream))
termination_by stream.length
decreasing_by
  all_goals
    rw [List.length_drop]
    have := tcpDeclared_ge (.holding stream 0 : Frame .reader)
    rw [tcpDeclared_holding] at this
    omega

def responseBytes (config : ServedConfig) (req : Frame .reader) : List UInt8 :=
  (filledResponse config req (.zero .writer)).bytes
    (filledResponse config req (.zero .writer)).length

/-- What is on the wire and what waits to be sent are the responses to the requests that were
read, in order. -/
def Answered (config : ServedConfig) (s : Connection) : Prop :=
  s.written ++ s.unsent = (requestsOf s.received).flatMap (responseBytes config)

/-- A write of a prepared response takes all of it, unless it fails. -/
def TakesWhole (s : Connection) (env : Env) : ServerAction → Prop
  | .arrive _ => True
  | .turn _ writable => s.ctx.connected → writable → s.wantsWrite → s.msg.writer.length ≠ 0 →
      env.sent = .error ∨ ∃ k ≥ s.msg.writer.length, env.sent = .accepted k

theorem requestsOf_short {stream : List UInt8} (h : stream.length < 6) : requestsOf stream = [] := by
  rw [requestsOf, if_pos h]

theorem requestsOf_nil : requestsOf [] = [] := requestsOf_short (by decide)

theorem requestsOf_part {stream : List UInt8} (hu : Usable .tcp stream)
    (h : stream.length < declaredLength stream) : requestsOf stream = [] := by
  rw [requestsOf, if_neg (not_not.2 hu), if_pos h, ite_self]

theorem declaredLength_append {held : List UInt8} (h : 6 ≤ held.length) (rest : List UInt8) :
    declaredLength (held ++ rest) = declaredLength held := by
  unfold declaredLength
  rw [List.getD_append _ _ _ _ (by omega), List.getD_append _ _ _ _ (by omega)]

theorem usable_append {held : List UInt8} (h : 6 ≤ held.length) (rest : List UInt8) :
    Usable .tcp (held ++ rest) ↔ Usable .tcp held := by
  unfold Usable
  dsimp only
  rw [declaredLength_append h, List.length_append]
  exact ⟨fun hu _ => hu (by omega), fun hu _ => hu h⟩

theorem requestsOf_refused {held : List UInt8} (h : held.length = 6) (hu : ¬ Usable .tcp held)
    (rest : List UInt8) : requestsOf (held ++ rest) = requestsOf rest := by
  have hlong : ¬ (held ++ rest).length < 6 := by
    rw [List.length_append]
    omega
  rw [requestsOf, if_neg hlong, if_pos (mt (usable_append h.ge rest).1 hu),
    List.drop_left' h]

theorem requestsOf_whole {held : List UInt8} (h : 6 ≤ held.length) (hu : Usable .tcp held)
    (hwhole : held.length = declaredLength held) (rest : List UInt8) :
    requestsOf (held ++ rest) = .holding held held.length :: requestsOf rest := by
  have hdeclared := declaredLength_append h rest
  have hlong : ¬ (held ++ rest).length < 6 := by
    rw [List.length_append]
    omega
  have hpart : ¬ (held ++ rest).length < declaredLength (held ++ rest) := by
    rw [hdeclared, List.length_append]
    omega
  rw [requestsOf, if_neg hlong, if_neg (not_not.2 ((usable_append h rest).2 hu)), if_neg hpart,
    hdeclared, ← hwhole, List.take_left, List.drop_left]

def requestLength (held : List UInt8) : ℕ :=
  if held.length < 6 then 6 else declaredLength held

/-- A request that is partly in. -/
structure Collecting (r : Frame .reader) (held : List UInt8) : Prop where
  frame : r = .holding held (requestLength held) ∨ held = [] ∧ r = .zero .reader
  part : held.length < requestLength held
  usable : Usable .tcp held

theorem collecting_zero : Collecting (.zero .reader) [] where
  frame := .inr ⟨rfl, rfl⟩
  part := by decide
  usable := fun h => absurd h (by decide)

theorem Collecting.length_le {r : Frame .reader} {held : List UInt8} (h : Collecting r held) :
    6 ≤ requestLength held ∧ requestLength held ≤ frameMax := by
  unfold requestLength
  split_ifs with hshort
  · decide
  · have hu := h.usable (by omega)
    omega

theorem Collecting.tcpRead_eq {r : Frame .reader} {held : List UInt8} (h : Collecting r held)
    (c : Context) (env : Env) :
    tcpRead c r env = tcpReadSized c (.holding held (requestLength held)) env := by
  have hlength := h.length_le
  rcases h.frame with rfl | ⟨rfl, rfl⟩
  · rw [tcpRead, if_neg (by rw [Frame.holding_length]; omega)]
  · rfl

def afterChunk (c : Context) (held chunk : List UInt8) : Context :=
  { c with
    input := c.input.drop chunk.length
    log := c.log ++ [.read held.length (requestLength held - held.length)] }

/-- What one `read` brings a request to that is in up to `held`. -/
inductive RequestRead (c : Context) (held : List UInt8) : ReadStep → Prop
  | failed : RequestRead c held ⟨-1, afterChunk c held [], .holding held (requestLength held)⟩
  | refused {chunk : List UInt8} (hchunk : chunk <+: c.input)
      (hfits : (held ++ chunk).length ≤ requestLength held) (hu : ¬ Usable .tcp (held ++ chunk)) :
      RequestRead c held
        ⟨-1, afterChunk c held chunk, .holding (held ++ chunk) (requestLength held)⟩
  | taken {chunk : List UInt8} (hchunk : chunk <+: c.input)
      (hfits : (held ++ chunk).length ≤ requestLength held) (hu : Usable .tcp (held ++ chunk)) :
      RequestRead c held
        ⟨chunk.length, afterChunk c held chunk,
          .holding (held ++ chunk) (requestLength (held ++ chunk))⟩

theorem tcpRefineLength_request {c : Context} {held chunk : List UInt8} (hchunk : chunk <+: c.input)
    (hfits : (held ++ chunk).length ≤ requestLength held) :
    RequestRead c held (tcpRefineLength
      ⟨chunk.length, afterChunk c held chunk, .holding (held ++ chunk) (requestLength held)⟩) := by
  unfold tcpRefineLength
  rw [Frame.holding_xmit, tcpDeclared_holding]
  by_cases hshort : (held ++ chunk).length < 6
  · have hheld : held.length < 6 := by
      rw [List.length_append] at hshort
      omega
    have hlength : requestLength held = requestLength (held ++ chunk) := by
      rw [requestLength, requestLength, if_pos hshort, if_pos hheld]
    have hu : Usable .tcp (held ++ chunk) := fun hlong => absurd hlong (by omega)
    rw [if_pos hshort]
    have htaken := RequestRead.taken hchunk hfits hu
    rwa [← hlength] at htaken
  · rw [if_neg hshort]
    by_cases hbad : declaredLength (held ++ chunk) < 8 ∨ frameMax < declaredLength (held ++ chunk)
    · rw [if_pos hbad]
      refine .refused hchunk hfits fun hu => ?_
      have := hu (by omega)
      omega
    · rw [if_neg hbad]
      have hu : Usable .tcp (held ++ chunk) := fun _ => by omega
      have htaken := RequestRead.taken hchunk hfits hu
      rwa [show requestLength (held ++ chunk) = declaredLength (held ++ chunk) from if_neg hshort]
        at htaken

theorem Collecting.read {r : Frame .reader} {held : List UInt8} (h : Collecting r held)
    (c : Context) (env : Env) : RequestRead c held (tcpRead c r env) := by
  have hlength := h.length_le
  have hpart := h.part
  set sized : Frame .reader := .holding held (requestLength held) with hsized
  have hguard : ¬ (sized.length ≤ sized.xmit ∨ frameMax < sized.length) := by
    simp only [hsized, Frame.holding_length, Frame.holding_xmit]
    omega
  have hwindow : sized.window = requestLength held - held.length :=
    Frame.window_eq hpart.le hlength.2
  have hsome := delivered_length_le c sized env
  have hchunk : delivered c sized env <+: c.input := ⟨_, delivered_append_drop c sized env⟩
  have hfits : (held ++ delivered c sized env).length ≤ requestLength held := by
    rw [List.length_append]
    omega
  have hread : readWindow c sized env = ⟨if readResult c env = .error then -1 else
      ((delivered c sized env).length : ℤ), afterChunk c held (delivered c sized env),
      .holding (held ++ delivered c sized env) (requestLength held)⟩ := by
    rw [readWindow, Frame.append_holding, hwindow]
    rfl
  rw [h.tcpRead_eq, tcpReadSized, if_neg hguard, hread]
  cases hgot : readResult c env with
  | error =>
    have hnone : delivered c sized env = [] := by rw [delivered, hgot]
    rw [hnone, List.append_nil]
    exact .failed
  | wouldBlock =>
    have hnone : delivered c sized env = [] := by rw [delivered, hgot]
    rw [hnone] at hchunk hfits ⊢
    have htaken := RequestRead.taken hchunk hfits (by rw [List.append_nil]; exact h.usable)
    rwa [List.append_nil] at htaken ⊢
  | data k => exact tcpRefineLength_request hchunk hfits

/-- What a message holds while `held` is in of the request it is about. -/
inductive Phase (config : ServedConfig) (m : Msg) (held : List UInt8) : Prop
  | collecting (hreader : Collecting m.reader held) (hwriter : m.writer = .zero .writer)
  | refused (hreader : m.reader = .holding held 6) (hlength : held.length = 6)
      (hu : ¬ Usable .tcp held) (hwriter : m.writer = .zero .writer)
  | answering (hreader : m.reader = .holding held held.length) (hsome : 6 ≤ held.length)
      (hu : Usable .tcp held) (hwhole : held.length = declaredLength held)
      (hwriter : m.writer = filledResponse config (.holding held held.length) (.zero .writer))

theorem Phase.unsent {config : ServedConfig} {m : Msg} {held : List UInt8}
    (h : Phase config m held) : m.writer.xmit = 0 ∧ m.writer.length ≤ frameMax := by
  cases h with
  | collecting _ hwriter | refused _ _ _ hwriter =>
    rw [hwriter]
    exact ⟨rfl, Nat.zero_le _⟩
  | answering _ _ _ _ hwriter =>
    rw [hwriter]
    exact ⟨filledResponse_xmit _ _ _, filledResponse_fits _ _ _⟩

/-- The requests `done` in `consumed` have been answered in full, and `held` is in of the next. -/
structure Serving (config : ServedConfig) (s : Connection) (done : List (Frame .reader))
    (consumed held : List UInt8) : Prop where
  tcp : s.ctx.transport = .tcp
  arrived : s.arrived = consumed ++ held ++ s.ctx.input
  requests : ∀ rest, requestsOf (consumed ++ rest) = done ++ requestsOf rest
  written : s.written = done.flatMap (responseBytes config)
  phase : Phase config s.msg held

theorem serving_accepted (config : ServedConfig) : Serving config acceptedClient [] [] [] where
  tcp := rfl
  arrived := rfl
  requests := fun _ => rfl
  written := rfl
  phase := .collecting collecting_zero rfl

variable {config : ServedConfig} {s : Connection} {done : List (Frame .reader)}
  {consumed held : List UInt8}

theorem Serving.received (h : Serving config s done consumed held) :
    s.received = consumed ++ held := by
  unfold Connection.received
  rw [h.arrived]
  refine List.take_left' ?_
  simp only [List.length_append]
  omega

theorem Serving.answered (h : Serving config s done consumed held) : Answered config s := by
  unfold Answered Connection.unsent
  rw [h.received, h.requests, h.written, List.flatMap_append, h.phase.unsent.1, List.drop_zero]
  congr 1
  cases h.phase with
  | collecting hreader hwriter =>
    have hnone : requestsOf held = [] := by
      by_cases hshort : held.length < 6
      · exact requestsOf_short hshort
      · have hpart := hreader.part
        rw [requestLength, if_neg hshort] at hpart
        exact requestsOf_part hreader.usable hpart
    rw [hwriter, hnone]
    rfl
  | refused _ hlength hu hwriter =>
    have hnone := requestsOf_refused hlength hu []
    rw [List.append_nil, requestsOf_nil] at hnone
    rw [hwriter, hnone]
    rfl
  | answering _ hsome hu hwhole hwriter =>
    have hone := requestsOf_whole hsome hu hwhole []
    rw [List.append_nil, requestsOf_nil] at hone
    rw [hwriter, hone]
    exact (List.append_nil _).symm

theorem frameIncomplete_holding (held : List UInt8) (n : ℕ) :
    frameIncomplete .tcp (.holding held n : Frame .reader) = 0 ↔ 6 ≤ held.length ∧ held.length = n := by
  change (if n = 0 then 6 else if held.length < 6 then 6 - held.length
    else if held.length = n then 0 else 1) = 0 ↔ 6 ≤ held.length ∧ held.length = n
  by_cases hzero : n = 0
  · rw [if_pos hzero]
    omega
  · rw [if_neg hzero]
    by_cases hshort : held.length < 6
    · rw [if_pos hshort]
      omega
    · rw [if_neg hshort, ite_eq_left_iff]
      omega

theorem Collecting.incomplete {r : Frame .reader} (h : Collecting r held) :
    frameIncomplete .tcp r ≠ 0 := by
  have hpart := h.part
  rcases h.frame with rfl | ⟨-, rfl⟩
  · rw [ne_eq, frameIncomplete_holding]
    omega
  · decide

/-- A request that is in, or a header that cannot be used. -/
theorem Serving.complete (h : Serving config s done consumed held)
    (hin : frameIncomplete s.ctx.transport s.msg.reader = 0) :
    (s.msg.writer = .zero .writer ∧ ∀ rest, requestsOf (held ++ rest) = requestsOf rest) ∨
      (∀ rest, requestsOf (held ++ rest) = .holding held held.length :: requestsOf rest) ∧
        s.msg.writer = filledResponse config (.holding held held.length) (.zero .writer) := by
  cases h.phase with
  | collecting hreader hwriter =>
    rw [h.tcp] at hin
    exact absurd hin hreader.incomplete
  | refused _ hlength hu hwriter => exact .inl ⟨hwriter, requestsOf_refused hlength hu⟩
  | answering _ hsome hu hwhole hwriter =>
    exact .inr ⟨requestsOf_whole hsome hu hwhole, hwriter⟩

theorem Serving.arrive (h : Serving config s done consumed held) (bytes : List UInt8) (env : Env) :
    Serving config (ServerAction.perform config s env (.arrive bytes)) done consumed held :=
  ⟨h.tcp, by
    change s.arrived ++ bytes = _
    rw [h.arrived, List.append_assoc]
    rfl, h.requests, h.written, h.phase⟩

theorem requestLength_append {held chunk : List UInt8}
    (hfits : (held ++ chunk).length ≤ requestLength held) (hu : Usable .tcp (held ++ chunk)) :
    (held ++ chunk).length ≤ requestLength (held ++ chunk) := by
  by_cases hshort : held.length < 6
  · rw [requestLength, if_pos hshort] at hfits
    unfold requestLength
    split_ifs with hall
    · exact hfits
    · have := hu (by omega)
      omega
  · have hdeclared := declaredLength_append (not_lt.1 hshort) chunk
    rw [requestLength, if_neg hshort] at hfits
    rwa [requestLength, if_neg (by rw [List.length_append]; omega), hdeclared]

/-- Only a header that has just come in can be unusable. -/
theorem Collecting.refused_length {r : Frame .reader} {chunk : List UInt8}
    (h : Collecting r held) (hfits : (held ++ chunk).length ≤ requestLength held)
    (hu : ¬ Usable .tcp (held ++ chunk)) :
    (held ++ chunk).length = 6 ∧ requestLength held = 6 := by
  have hlong : 6 ≤ (held ++ chunk).length := by
    by_contra hshort
    exact hu fun hlong => absurd hlong hshort
  by_cases hshort : held.length < 6
  · have hsix : requestLength held = 6 := if_pos hshort
    omega
  · exact absurd ((usable_append (by omega) chunk).2 h.usable) hu

theorem Serving.chunk (h : Serving config s done consumed held) {chunk : List UInt8}
    (hchunk : chunk <+: s.ctx.input) {c : Context} {m : Msg}
    (hc : c = afterChunk s.ctx held chunk ∨
      c = { afterChunk s.ctx held chunk with connected := false } ∨
        ∃ n, c = { afterChunk s.ctx held chunk with err := n })
    (hphase : Phase config m (held ++ chunk)) :
    Serving config ⟨c, m, s.arrived⟩ done consumed (held ++ chunk) := by
  obtain ⟨rest, hrest⟩ := hchunk
  have hkeeps : c.transport = s.ctx.transport ∧ c.input = s.ctx.input.drop chunk.length ∧
      c.log = s.ctx.log ++ [.read held.length (requestLength held - held.length)] := by
    rcases hc with rfl | rfl | ⟨n, rfl⟩ <;> exact ⟨rfl, rfl, rfl⟩
  refine ⟨hkeeps.1.trans h.tcp, ?_, h.requests, ?_, hphase⟩
  · change s.arrived = _
    rw [h.arrived, hkeeps.2.1, ← hrest, List.drop_left]
    simp only [List.append_assoc]
  · change bytesWritten c.log = _
    rw [hkeeps.2.2, bytesWritten_append]
    exact (List.append_nil _).trans h.written

theorem Serving.readRequest (h : Serving config s done consumed held) (env : Env) :
    ∃ held', Serving config (s.readRequest config env).1 done consumed held' := by
  unfold Connection.readRequest
  by_cases hin : frameIncomplete s.ctx.transport s.msg.reader = 0
  · rw [if_pos hin]
    exact ⟨held, h⟩
  rw [if_neg hin]
  have hread : readFrame s.ctx s.msg.reader env = tcpRead s.ctx s.msg.reader env := by
    rw [readFrame, h.tcp]
  cases h.phase with
  | refused hreader hlength =>
    rw [hreader, h.tcp, frameIncomplete_holding] at hin
    exact absurd ⟨hlength.ge, hlength⟩ hin
  | answering hreader hsome =>
    rw [hreader, h.tcp, frameIncomplete_holding] at hin
    exact absurd ⟨hsome, rfl⟩ hin
  | collecting hreader hwriter =>
    have houtcome := hreader.read s.ctx env
    rw [← hread] at houtcome
    generalize readFrame s.ctx s.msg.reader env = got at houtcome
    cases houtcome with
    | failed =>
      refine ⟨held ++ [], h.chunk List.nil_prefix (.inr (.inr ⟨_, rfl⟩)) ?_⟩
      rw [List.append_nil]
      exact .collecting ⟨.inl rfl, hreader.part, hreader.usable⟩ hwriter
    | @refused chunk hchunk hfits hu =>
      obtain ⟨hlength, hsix⟩ := hreader.refused_length hfits hu
      refine ⟨_, h.chunk hchunk (.inr (.inr ⟨_, rfl⟩)) (.refused ?_ hlength hu hwriter)⟩
      exact congrArg (Frame.holding (held ++ chunk)) hsix
    | @taken chunk hchunk hfits hu =>
      have hle := requestLength_append hfits hu
      dsimp only
      rw [if_neg (by omega)]
      split_ifs with hnone hwhole
      · refine ⟨_, h.chunk hchunk (.inr (.inl rfl)) (.collecting ⟨.inl rfl, ?_, hu⟩ hwriter)⟩
        obtain rfl : chunk = [] := List.length_eq_zero_iff.1 (by omega)
        rw [List.append_nil]
        exact hreader.part
      · have hwhole : (held ++ chunk).length = requestLength (held ++ chunk) := hwhole
        have hsome : 6 ≤ (held ++ chunk).length := by
          by_contra hshort
          have hsix : requestLength (held ++ chunk) = 6 := if_pos (not_le.1 hshort)
          exact hshort (hwhole.trans hsix).ge
        have hdeclared : requestLength (held ++ chunk) = declaredLength (held ++ chunk) :=
          if_neg (not_lt.2 hsome)
        refine ⟨_, h.chunk hchunk (.inl rfl)
          (.answering ?_ hsome hu (hwhole.trans hdeclared) ?_)⟩
        · exact congrArg (Frame.holding (held ++ chunk)) hwhole.symm
        · dsimp only
          rw [hwriter, ← hwhole]
      · exact ⟨_, h.chunk hchunk (.inl rfl)
          (.collecting ⟨.inl rfl, lt_of_le_of_ne hle hwhole, hu⟩ hwriter)⟩

/-- A write that did not fail puts what it took on the wire and clears the message. -/
theorem Serving.writeResponse_sent (h : Serving config s done consumed held) {env : Env}
    (hopen : s.ctx.connected) (hwants : s.wantsWrite) (hsent : env.sent ≠ .error) :
    (s.writeResponse env).written =
        s.written ++ s.msg.writer.bytes (accepted s.ctx s.msg env) ∧
      (s.writeResponse env).msg = clearedMsg ∧ (s.writeResponse env).arrived = s.arrived ∧
        (s.writeResponse env).ctx.input = s.ctx.input ∧ (s.writeResponse env).ctx.transport = .tcp := by
  have hresult : sendResult s.ctx env ≠ .error := by rwa [sendResult, if_pos hopen]
  unfold Connection.writeResponse writeFrame
  rw [if_neg hwants.2, if_neg hresult]
  dsimp only
  rw [if_neg (by omega)]
  refine ⟨?_, rfl, rfl, rfl, h.tcp⟩
  have hbytes : bytesWritten (s.ctx.log ++
      [.wrote s.msg.serial s.msg.writer (accepted s.ctx s.msg env) s.ctx.input.length]) =
        bytesWritten s.ctx.log ++ s.msg.writer.bytes (accepted s.ctx s.msg env) := by
    rw [bytesWritten_append]
    change _ ++ ((List.range _).map (fun i => s.msg.writer.buf (s.msg.writer.xmit + i)) ++ []) = _
    rw [h.phase.unsent.1, List.append_nil]
    simp only [Nat.zero_add]
    rfl
  exact hbytes

/-- A write that failed closes the connection and leaves everything else. -/
theorem Serving.writeResponse_failed (h : Serving config s done consumed held) {env : Env}
    (hwants : s.wantsWrite) (hsent : env.sent = .error) :
    Serving config (s.writeResponse env) done consumed held := by
  have hresult : sendResult s.ctx env = .error := by
    unfold sendResult
    rw [hsent, ite_self]
  unfold Connection.writeResponse writeFrame
  rw [if_neg hwants.2, if_pos hresult, if_pos (by decide : (-1 : ℤ) < 0)]
  exact ⟨h.tcp, h.arrived, h.requests, h.written, h.phase⟩

theorem Serving.cleared (h : Serving config s done consumed held) {s' : Connection}
    (answered : List (Frame .reader)) (htcp : s'.ctx.transport = .tcp)
    (hinput : s'.ctx.input = s.ctx.input) (harrived : s'.arrived = s.arrived)
    (hmsg : s'.msg = clearedMsg)
    (hheld : ∀ rest, requestsOf (held ++ rest) = answered ++ requestsOf rest)
    (hwritten : s'.written = s.written ++ answered.flatMap (responseBytes config)) :
    Serving config s' (done ++ answered) (consumed ++ held) [] where
  tcp := htcp
  arrived := by rw [harrived, h.arrived, hinput, List.append_nil]
  requests rest := by rw [List.append_assoc, h.requests, hheld, List.append_assoc]
  written := by rw [hwritten, h.written, List.flatMap_append]
  phase := by
    rw [hmsg]
    exact .collecting collecting_zero rfl

theorem Serving.accepted_eq (h : Serving config s done consumed held) {env : Env} {k : ℕ}
    (hopen : s.ctx.connected) (hsent : env.sent = .accepted k) :
    accepted s.ctx s.msg env = min k s.msg.writer.length := by
  obtain ⟨hxmit, hfits⟩ := h.phase.unsent
  have hresult : sendResult s.ctx env = .accepted k := by rw [sendResult, if_pos hopen, hsent]
  have hwindow := Frame.window_eq (f := s.msg.writer) (by omega) hfits
  rw [accepted, hresult]
  dsimp only
  rw [hwindow, hxmit, Nat.sub_zero]

theorem Serving.writeResponse (h : Serving config s done consumed held) {env : Env}
    (hopen : s.ctx.connected) (hwants : s.wantsWrite)
    (htakes : s.msg.writer.length ≠ 0 →
      env.sent = .error ∨ ∃ k ≥ s.msg.writer.length, env.sent = .accepted k) :
    ∃ done' consumed' held', Serving config (s.writeResponse env) done' consumed' held' := by
  by_cases hfailed : env.sent = .error
  · exact ⟨_, _, _, h.writeResponse_failed hwants hfailed⟩
  obtain ⟨hwritten, hmsg, harrived, hinput, htcp⟩ := h.writeResponse_sent hopen hwants hfailed
  rcases h.complete hwants.1 with ⟨hwriter, hheld⟩ | ⟨hheld, hwriter⟩
  · have hnone : accepted s.ctx s.msg env = 0 := by
      cases hsent : env.sent with
      | accepted k =>
        rw [h.accepted_eq hopen hsent, hwriter]
        exact Nat.min_zero k
      | wouldBlock => rw [accepted, sendResult, if_pos hopen, hsent]
      | error => exact absurd hsent hfailed
    rw [hnone] at hwritten
    exact ⟨_, _, _, h.cleared [] htcp hinput harrived hmsg hheld hwritten⟩
  · refine ⟨_, _, _, h.cleared [.holding held held.length] htcp hinput harrived hmsg hheld
      ?_⟩
    have hwhole : accepted s.ctx s.msg env = s.msg.writer.length := by
      by_cases hlength : s.msg.writer.length = 0
      · cases hsent : env.sent with
        | accepted k =>
          rw [h.accepted_eq hopen hsent, hlength]
          exact Nat.min_zero k
        | wouldBlock => rw [accepted, sendResult, if_pos hopen, hsent, hlength]
        | error => exact absurd hsent hfailed
      · rcases htakes hlength with hsent | ⟨k, hk, hsent⟩
        · exact absurd hsent hfailed
        · rw [h.accepted_eq hopen hsent, min_eq_right hk]
    rw [hwritten, hwhole, hwriter, List.flatMap_singleton]
    rfl

theorem Connection.turn_writes {readable writable : Bool} {env : Env} (hopen : s.ctx.connected)
    (hwritable : writable) (hwants : s.wantsWrite) :
    s.turn config readable writable env = s.writeResponse env := by
  have hread : s.readRequest config env = (s, true) := if_pos hwants.1
  unfold Connection.turn
  rw [if_neg (not_not.2 hopen), hread, ite_self]
  exact if_pos ⟨rfl, hopen, hwritable, hwants⟩

theorem Connection.turn_reads {readable writable : Bool} {env : Env}
    (h : ¬ (s.ctx.connected ∧ writable ∧ s.wantsWrite)) :
    s.turn config readable writable env = s ∨
      s.turn config readable writable env = (s.readRequest config env).1 := by
  unfold Connection.turn
  by_cases hopen : s.ctx.connected
  · rw [if_neg (not_not.2 hopen)]
    have hidle : ∀ r : Connection × Bool,
        ¬ (r.2 ∧ r.1.ctx.connected ∧ writable ∧ s.wantsWrite) :=
      fun r hall => h ⟨hopen, hall.2.2⟩
    cases readable with
    | false => exact .inl (if_neg (hidle (s, true)))
    | true => exact .inr (if_neg (hidle (s.readRequest config env)))
  · exact .inl (if_pos hopen)

theorem Connection.turn_not_writing {readable writable : Bool} {env : Env}
    (hopen : s.ctx.connected) (h : ¬ (writable ∧ s.wantsWrite)) :
    s.turn config readable writable env =
      if readable then (s.readRequest config env).1 else s := by
  have hidle : ∀ r : Connection × Bool,
      ¬ (r.2 ∧ r.1.ctx.connected ∧ writable ∧ s.wantsWrite) := fun r hall => h hall.2.2
  unfold Connection.turn
  rw [if_neg (not_not.2 hopen)]
  cases readable with
  | false => exact if_neg (hidle (s, true))
  | true => exact if_neg (hidle (s.readRequest config env))

theorem Serving.perform (h : Serving config s done consumed held) {action : ServerAction} {env : Env}
    (htakes : TakesWhole s env action) :
    ∃ done' consumed' held', Serving config (action.perform config s env) done' consumed' held' := by
  cases action with
  | arrive bytes => exact ⟨_, _, _, h.arrive bytes env⟩
  | turn readable writable =>
    change ∃ done' consumed' held', Serving config (s.turn config readable writable env) _ _ _
    by_cases hwrites : s.ctx.connected ∧ writable ∧ s.wantsWrite
    · obtain ⟨hopen, hwritable, hwants⟩ := hwrites
      rw [Connection.turn_writes hopen hwritable hwants]
      exact h.writeResponse hopen hwants (htakes hopen hwritable hwants)
    · rcases Connection.turn_reads hwrites with hsame | hread
      · rw [hsame]
        exact ⟨_, _, _, h⟩
      · obtain ⟨held', hheld'⟩ := h.readRequest env
        rw [hread]
        exact ⟨_, _, _, hheld'⟩

/-- A write that takes a part of a response, or none of it, loses the rest. -/
theorem Serving.loses (h : Serving config s done consumed held) {action : ServerAction} {env : Env}
    (htakes : ¬ TakesWhole s env action) : ¬ Answered config (action.perform config s env) := by
  cases action with
  | arrive bytes => exact absurd trivial htakes
  | turn readable writable =>
    change ¬ Answered config (s.turn config readable writable env)
    unfold TakesWhole at htakes
    push Not at htakes
    obtain ⟨hopen, hwritable, hwants, hlength, hfailed, hshort⟩ := htakes
    rw [Connection.turn_writes hopen hwritable hwants]
    obtain ⟨hwritten, hmsg, harrived, hinput, -⟩ := h.writeResponse_sent hopen hwants hfailed
    have hreceived : (s.writeResponse env).received = consumed ++ held := by
      rw [← h.received, Connection.received, harrived, hinput]
      rfl
    have hunsent : (s.writeResponse env).unsent = [] := by
      rw [Connection.unsent, hmsg]
      rfl
    have hpart : accepted s.ctx s.msg env < s.msg.writer.length := by
      cases hsent : env.sent with
      | accepted k =>
        rw [h.accepted_eq hopen hsent]
        have hk : k < s.msg.writer.length := by
          by_contra hlong
          exact hshort k (not_lt.1 hlong) hsent
        omega
      | wouldBlock =>
        rw [accepted, sendResult, if_pos hopen, hsent]
        exact Nat.pos_of_ne_zero hlength
      | error => exact absurd hsent hfailed
    rcases h.complete hwants.1 with ⟨hwriter, -⟩ | ⟨hheld, hwriter⟩
    · rw [hwriter] at hlength
      exact absurd rfl hlength
    · have hone := hheld []
      rw [List.append_nil, requestsOf_nil] at hone
      intro hall
      unfold Answered at hall
      rw [hwritten, hunsent, hreceived, h.requests, hone, h.written, List.append_nil,
        List.flatMap_append, List.flatMap_singleton] at hall
      have hbytes := congrArg List.length (List.append_cancel_left hall)
      rw [responseBytes, ← hwriter, Frame.bytes_length, Frame.bytes_length] at hbytes
      omega

theorem serving_run (actions : List (ServerAction × Env)) (h : Serving config s done consumed held)
    (htakes : Connection.Along config TakesWhole actions s) :
    ∃ done' consumed' held', Serving config (s.run config actions) done' consumed' held' := by
  induction actions generalizing s done consumed held with
  | nil => exact ⟨_, _, _, h⟩
  | cons action actions ih =>
    obtain ⟨_, _, _, hnext⟩ := h.perform htakes.1
    exact ih hnext htakes.2

theorem Connection.Along.start {Q : Connection → Env → ServerAction → Prop}
    {before after : List (ServerAction × Env)} (h : Connection.Along config Q (before ++ after) s) :
    Connection.Along config Q before s := by
  induction before generalizing s with
  | nil => trivial
  | cons action before ih => exact ⟨h.1, ih h.2⟩

theorem Serving.takesWhole (h : Serving config s done consumed held)
    (actions : List (ServerAction × Env))
    (hall : ∀ before, before <+: actions → Answered config (s.run config before)) :
    Connection.Along config TakesWhole actions s := by
  induction actions generalizing s done consumed held with
  | nil => trivial
  | cons action actions ih =>
    have htakes : TakesWhole s action.2 action.1 := by
      by_contra hloses
      exact h.loses hloses (hall [action] ⟨actions, rfl⟩)
    obtain ⟨_, _, _, hnext⟩ := h.perform htakes
    refine ⟨htakes, ih hnext fun before hbefore => ?_⟩
    exact hall (action :: before) (List.cons_prefix_cons.2 ⟨rfl, hbefore⟩)

/-- Every response goes out whole and once, in order, exactly as long as every write of a
prepared response takes all of it. -/
theorem responses_sent_iff (config : ServedConfig) (actions : List (ServerAction × Env)) :
    (∀ before, before <+: actions → Answered config (acceptedClient.run config before)) ↔
      Connection.Along config TakesWhole actions acceptedClient := by
  constructor
  · exact (serving_accepted config).takesWhole actions
  · rintro htakes before ⟨after, rfl⟩
    obtain ⟨_, _, _, hserving⟩ := serving_run before (serving_accepted config) htakes.start
    exact hserving.answered

/-- An operating system whose `read` gives all it is asked for and whose `send` takes one byte. -/
def oneByteEnv : Env := ⟨fun _ => 0, .accepted 1, .data 12, 0⟩

def readOneRegister : List UInt8 := [0, 1, 0, 0, 0, 6, 1, 3, 0, 0, 0, 1]

/-- The request arrives, is read, header first, and answered. -/
def oneByteRun : List (ServerAction × Env) :=
  [(.arrive readOneRegister, oneByteEnv), (.turn true false, oneByteEnv),
    (.turn true false, oneByteEnv), (.turn false true, oneByteEnv)]

theorem partial_write_loses_response :
    ¬ ∀ (config : ServedConfig) (actions : List (ServerAction × Env)),
      Answered config (acceptedClient.run config actions) := by
  intro hall
  have hlost := hall ⟨[], 1⟩ oneByteRun
  have hreceived : (acceptedClient.run ⟨[], 1⟩ oneByteRun).received = readOneRegister := by
    decide +kernel
  have hone := requestsOf_whole (by decide : 6 ≤ readOneRegister.length) (by decide)
    (by decide) []
  rw [List.append_nil, requestsOf_nil] at hone
  unfold Answered at hlost
  rw [hreceived, hone] at hlost
  exact absurd hlost (by decide +kernel)

end Modbusmq
