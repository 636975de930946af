import Modbusmq.Library.Machine
import Modbusmq.Server.Exchange

/-!
# A bridge that talks to the virtual server

The library on a TCP context and one client of the server, with the bytes that are on
their way between them. Calls of the library, turns of the server and arrivals of bytes,
in pieces of any size, come in any order. As long as the connection works and no request
times out, every request is served once, in the order in which the requests leave the
queue, and it leaves with the server's response to it.
-/

namespace Modbusmq

/-- The two ends and what is on its way between them. -/
structure Conversation where
  client : Context
  server : Connection
  toServer : List UInt8
  toClient : List UInt8

/-- What happens next: a call of the library, a turn of the server, or `n` bytes arrive. -/
inductive Move
  | call (call : Call)
  | turn (readable writable : Bool)
  | carry (n : ℕ)
  | bring (n : ℕ)

/-- What a move does; what an end writes in it is on its way afterwards. -/
def Move.perform (config : ServedConfig) (s : Conversation) : Move × Env → Conversation
  | (call made, env) =>
    let client := made.perform s.client env
    { s with
      client := client
      toServer := s.toServer ++
        (bytesWritten client.log).drop (bytesWritten s.client.log).length }
  | (turn readable writable, env) =>
    let server := s.server.turn config readable writable env
    { s with
      server := server
      toClient := s.toClient ++ server.written.drop s.server.written.length }
  | (carry n, env) =>
    { s with
      server := ServerAction.perform config s.server env (.arrive (s.toServer.take n))
      toServer := s.toServer.drop n }
  | (bring n, env) =>
    { s with
      client := Call.perform s.client env (.arrive (s.toClient.take n))
      toClient := s.toClient.drop n }

/-- What `select` reports is so, and a response is taken whole. -/
structure Selected (s : Connection) (readable writable : Bool) (env : Env) : Prop where
  readable : readable → s.ctx.input ≠ [] ∧ ∃ k, 0 < k ∧ env.got = .data k
  writable : writable → s.wantsWrite → ∃ k ≥ s.msg.writer.length, env.sent = .accepted k

/-- The connection works, nobody closes it, and no request times out. -/
def Orderly (s : Conversation) : Move × Env → Prop
  | (.call made, env) =>
    made.StaysOff s.client env ∨ ∃ revents, made = .writeRead revents ∧ Truthful s.client revents env
  | (.turn readable writable, env) => Selected s.server readable writable env
  | (.carry _, _) | (.bring _, _) => True

/-- The conversation when both ends have just been connected. -/
def conversationOf (client : Context) : Conversation := ⟨client, acceptedClient, [], []⟩

def Event.ended : Event → Option (Frame .reader)
  | released m _ => some (requestOf m.writer)
  | _ => none

def endedRequests (log : List Event) : List (Frame .reader) := log.filterMap Event.ended

/-- The request has left the queue with the server's response to it. -/
structure ServerAnswered (config : ServedConfig) (m : Msg) (error : ℤ) : Prop where
  response : received m = responseBytes config (requestOf m.writer)
  reader : m.reader = .holding (received m) (received m).length
  error : error = 0 ∧ Answer .tcp m.writer (received m) ∨
    error = errException ∧ Refusal m.writer (received m)

def sentBytes (c : Context) : List UInt8 :=
  c.queue.head?.elim [] fun w => w.msg.writer.bytes w.msg.writer.xmit

/-- Who has the floor: the client until the server has served its request, then the server
until the response is taken. -/
inductive Floor (config : ServedConfig) (s : Conversation) : Prop
  | client {consumed held : List UInt8}
      (serving : Serving config s.server (endedRequests s.client.log) consumed held)
      (silent : s.client.input = [] ∧ s.toClient = [])
      (nothing : ∀ w ∈ s.client.queue.head?, w.msg.reader.xmit = 0)
      (sent : sentBytes s.client = held ++ (s.server.ctx.input ++ s.toServer))
  | server {consumed : List UInt8} {wrapper : Wrapper} {rest : List Wrapper}
      (head : s.client.queue = wrapper :: rest)
      (serving : Serving config s.server
        (endedRequests s.client.log ++ [requestOf wrapper.msg.writer]) consumed [])
      (taken : s.server.ctx.input = [] ∧ s.toServer = [])
      (sent : wrapper.msg.writer.xmit = wrapper.msg.writer.length)
      (reply : received wrapper.msg ++ (s.client.input ++ s.toClient) =
        responseBytes config (requestOf wrapper.msg.writer))
      (more : s.client.input ++ s.toClient ≠ [])

/-- What is true of a conversation between two moves. -/
structure Talking (config : ServedConfig) (s : Conversation) : Prop where
  wellFormed : WellFormed s.client
  tcp : s.client.transport = .tcp
  clientOpen : s.client.connected
  serverOpen : s.server.ctx.connected
  floor : Floor config s
  answered : ∀ m error, .released m error ∈ s.client.log → ServerAnswered config m error

theorem endedRequests_append (log δ : List Event) :
    endedRequests (log ++ δ) = endedRequests log ++ endedRequests δ := List.filterMap_append

theorem endedRequests_idle {δ : List Event} (h : ∀ e ∈ δ, e.Idle) : endedRequests δ = [] :=
  List.filterMap_eq_nil_iff.2 fun e he => by
    have hidle := h e he
    cases e <;> first | rfl | exact hidle.elim

variable {config : ServedConfig} {s : Conversation} {env : Env}

theorem Talking.carry (h : Talking config s) (n : ℕ) (env : Env) :
    Talking config (Move.perform config s (.carry n, env)) where
  wellFormed := h.wellFormed
  tcp := h.tcp
  clientOpen := h.clientOpen
  serverOpen := h.serverOpen
  answered := h.answered
  floor := by
    cases h.floor with
    | client serving silent nothing sent =>
      refine .client (serving.arrive (s.toServer.take n) env) silent nothing ?_
      change _ = _ ++ (s.server.ctx.input ++ s.toServer.take n ++ s.toServer.drop n)
      rw [List.append_assoc s.server.ctx.input, List.take_append_drop]
      exact sent
    | server head serving taken sent reply more =>
      refine .server head (serving.arrive (s.toServer.take n) env) ⟨?_, ?_⟩ sent reply more
      · change s.server.ctx.input ++ s.toServer.take n = []
        rw [taken.1, taken.2, List.take_nil]
        rfl
      · change s.toServer.drop n = []
        rw [taken.2, List.drop_nil]

theorem Talking.bring (h : Talking config s) (n : ℕ) (env : Env) :
    Talking config (Move.perform config s (.bring n, env)) where
  wellFormed := run_wellFormed h.wellFormed [(.arrive (s.toClient.take n), env)]
  tcp := h.tcp
  clientOpen := h.clientOpen
  serverOpen := h.serverOpen
  answered := h.answered
  floor := by
    have harrived : s.client.input ++ s.toClient.take n ++ s.toClient.drop n =
        s.client.input ++ s.toClient := by
      rw [List.append_assoc, List.take_append_drop]
    cases h.floor with
    | client serving silent nothing sent =>
      refine .client serving ⟨?_, ?_⟩ nothing sent
      · change s.client.input ++ s.toClient.take n = []
        rw [silent.1, silent.2, List.take_nil]
        rfl
      · change s.toClient.drop n = []
        rw [silent.2, List.drop_nil]
    | server head serving taken sent reply more =>
      refine .server head serving taken sent ?_ ?_
      · change received _ ++ (s.client.input ++ s.toClient.take n ++ s.toClient.drop n) = _
        rw [harrived]
        exact reply
      · change s.client.input ++ s.toClient.take n ++ s.toClient.drop n ≠ []
        rw [harrived]
        exact more

/-- A head of which nothing is sent has received nothing. -/
theorem WellFormed.unread {c : Context} (hc : WellFormed c) {w : Wrapper} (hw : w ∈ c.queue.head?)
    (hunsent : w.msg.writer.xmit = 0) : w.msg.reader.xmit = 0 :=
  ((hc.head w hw).underway.sending hunsent).empty

theorem sentBytes_head {c : Context} {w : Wrapper} (hw : w ∈ c.queue.head?) :
    sentBytes c = w.msg.writer.bytes w.msg.writer.xmit := by
  unfold sentBytes
  rw [Option.mem_def.1 hw]
  rfl

theorem sentBytes_unsent {c : Context} (h : ∀ w ∈ c.queue.head?, w.msg.writer.xmit = 0) :
    sentBytes c = [] := by
  cases hq : c.queue.head? with
  | none =>
    unfold sentBytes
    rw [hq]
    rfl
  | some w =>
    rw [sentBytes_head hq, h w hq]
    rfl

theorem Talking.offBus (h : Talking config s) {made : Call}
    (hoff : OffBus s.client (made.perform s.client env)) :
    Talking config (Move.perform config s (.call made, env)) := by
  have hc := run_wellFormed h.wellFormed [(made, env)]
  have hwritten : (bytesWritten (made.perform s.client env).log).drop
      (bytesWritten s.client.log).length = [] := by
    rw [hoff.bytesWritten, List.drop_length]
  have hended : endedRequests (made.perform s.client env).log = endedRequests s.client.log := by
    obtain ⟨δ, hlog, hδ⟩ := hoff.log
    rw [hlog, endedRequests_append, endedRequests_idle hδ, List.append_nil]
  have hmove : Move.perform config s (.call made, env) =
      ⟨made.perform s.client env, s.server, s.toServer, s.toClient⟩ := by
    change Conversation.mk _ _ (s.toServer ++ _) _ = _
    rw [hwritten, List.append_nil]
  rw [hmove]
  change WellFormed (made.perform s.client env) at hc
  generalize made.perform s.client env = c' at hoff hc hended ⊢
  refine ⟨hc, hoff.transport.trans h.tcp, ?_, h.serverOpen, ?_, fun m error hmem =>
    h.answered m error (hoff.released hmem)⟩
  · change c'.connected = true
    rw [hoff.connected]
    exact h.clientOpen
  cases h.floor with
  | client serving silent nothing sent =>
    refine .client (hended.symm ▸ serving) ⟨hoff.input.trans silent.1, silent.2⟩ ?_ ?_
    · intro w hw
      cases hq : s.client.queue with
      | nil => exact hc.unread hw (hoff.fresh hq w hw)
      | cons wrapper rest =>
        have hhead : wrapper ∈ s.client.queue.head? := by rw [hq]; rfl
        obtain ⟨w', hw', hmsg, -⟩ := hoff.head wrapper hhead
        obtain rfl : w' = w := Option.mem_unique hw' hw
        rw [hmsg]
        exact nothing wrapper hhead
    · refine Eq.trans ?_ sent
      cases hq : s.client.queue with
      | nil =>
        rw [sentBytes_unsent (hoff.fresh hq), sentBytes_unsent (by rw [hq]; simp)]
      | cons wrapper rest =>
        have hhead : wrapper ∈ s.client.queue.head? := by rw [hq]; rfl
        obtain ⟨w', hw', hmsg, -⟩ := hoff.head wrapper hhead
        rw [sentBytes_head hw', sentBytes_head hhead, hmsg]
  | @server consumed wrapper rest head serving taken sent reply more =>
    have hhead : wrapper ∈ s.client.queue.head? := by rw [head]; rfl
    obtain ⟨w', hw', hmsg, -⟩ := hoff.head wrapper hhead
    obtain ⟨rest', hq'⟩ := List.head?_eq_some_iff.1 hw'
    refine @Floor.server config _ consumed _ _ hq' ?_ taken ?_ ?_ ?_
    · change Serving config s.server (endedRequests c'.log ++ [requestOf w'.msg.writer]) consumed []
      rw [hended, hmsg]
      exact serving
    · rw [hmsg]
      exact sent
    · change received w'.msg ++ (c'.input ++ s.toClient) = _
      rw [hmsg, hoff.input]
      exact reply
    · change c'.input ++ s.toClient ≠ []
      rw [hoff.input]
      exact more

theorem Ended.answered {c c' : Context} {wrapper : Wrapper} {rest : List Wrapper}
    (h : Ended c wrapper rest c')
    (hold : ∀ m error, .released m error ∈ c.log → ServerAnswered config m error)
    (hreply : received wrapper.msg ++ c.input = responseBytes config (requestOf wrapper.msg.writer)) :
    ∀ m error, .released m error ∈ c'.log → ServerAnswered config m error := by
  obtain ⟨m, error, δ, hlog, hδ, hw, hm, hreader, herror⟩ := h.log
  intro m' error' hmem
  rw [hlog, List.mem_append, List.mem_append, List.mem_singleton] at hmem
  rcases hmem with (hmem | hmem) | hmem
  · exact hold m' error' hmem
  · exact absurd (hδ _ hmem) id
  · obtain ⟨rfl, rfl⟩ := Event.released.inj hmem
    refine ⟨?_, hreader, herror⟩
    rw [hm, hreply, hw]

theorem Ended.requests {c c' : Context} {wrapper : Wrapper} {rest : List Wrapper}
    (h : Ended c wrapper rest c') :
    endedRequests c'.log = endedRequests c.log ++ [requestOf wrapper.msg.writer] := by
  obtain ⟨m, error, δ, hlog, hδ, hw, -⟩ := h.log
  rw [hlog, endedRequests_append, endedRequests_append, endedRequests_idle hδ, List.append_nil, ← hw]
  rfl

theorem Ended.written {c c' : Context} {wrapper : Wrapper} {rest : List Wrapper}
    (h : Ended c wrapper rest c') : bytesWritten c'.log = bytesWritten c.log := by
  obtain ⟨m, error, δ, hlog, hδ, -⟩ := h.log
  rw [hlog, bytesWritten_append, bytesWritten_append, bytesWritten_idle hδ, List.append_nil]
  exact List.append_nil _

theorem Sends.written {c c' : Context} {wrapper : Wrapper} {rest : List Wrapper}
    (hq : c.queue = wrapper :: rest) (h : Sends c wrapper rest c') :
    ∃ sent, bytesWritten c'.log = bytesWritten c.log ++ sent ∧
      sentBytes c' = sentBytes c ++ sent ∧ endedRequests c'.log = endedRequests c.log ∧
        ∀ m error, .released m error ∈ c'.log → .released m error ∈ c.log := by
  obtain ⟨m, n, hqueue, hw, -, quiet, sent, hlog, hquiet, hsent⟩ := h.head
  refine ⟨bytesWritten sent, ?_, ?_, ?_, ?_⟩
  · rw [hlog, bytesWritten_append, bytesWritten_append, bytesWritten_silent hquiet, List.append_nil]
  · have hhead : wrapper ∈ c.queue.head? := by rw [hq]; rfl
    have hhead' : { wrapper with msg := m } ∈ c'.queue.head? := by rw [hqueue]; rfl
    rw [sentBytes_head hhead, sentBytes_head hhead', hsent.bytes, hw]
    exact wrapper.msg.writer.bytes_add _ n
  · have hnone : endedRequests sent = [] := by
      rcases hsent with ⟨rfl, -⟩ | ⟨unread, rfl⟩ <;> rfl
    rw [hlog, endedRequests_append, endedRequests_append, hnone,
      endedRequests_idle fun e he => (hquiet e he).idle, List.append_nil, List.append_nil]
  · intro m' error hmem
    rw [hlog, List.mem_append, List.mem_append] at hmem
    rcases hmem with (hmem | hmem) | hmem
    · exact hmem
    · exact absurd (hquiet _ hmem) id
    · rcases hsent with ⟨rfl, -⟩ | ⟨unread, rfl⟩ <;> simp at hmem

theorem Takes.written {c c' : Context} {wrapper : Wrapper} {rest : List Wrapper}
    (h : Takes c wrapper rest c') : bytesWritten c'.log = bytesWritten c.log ∧
      endedRequests c'.log = endedRequests c.log ∧
        ∀ m error, .released m error ∈ c'.log → .released m error ∈ c.log := by
  obtain ⟨δ, hlog, hδ⟩ := h.log
  refine ⟨?_, ?_, fun m error hmem => ?_⟩
  · rw [hlog, bytesWritten_append, bytesWritten_idle hδ, List.append_nil]
  · rw [hlog, endedRequests_append, endedRequests_idle hδ, List.append_nil]
  · rw [hlog, List.mem_append] at hmem
    exact hmem.resolve_right fun hmem => absurd (hδ _ hmem) id

theorem perform_writeRead {revents : Revents} {sent : List UInt8}
    (hsent : bytesWritten (loopWriteRead s.client revents env).2.log =
      bytesWritten s.client.log ++ sent) :
    Move.perform config s (.call (.writeRead revents), env) =
      ⟨(loopWriteRead s.client revents env).2, s.server, s.toServer ++ sent, s.toClient⟩ := by
  change Conversation.mk _ _ (s.toServer ++
    (bytesWritten (loopWriteRead s.client revents env).2.log).drop _) _ = _
  rw [hsent, List.drop_left]
  rfl

/-- The client has the floor, and more of its request is sent. -/
theorem Talking.sends (h : Talking config s) {wrapper : Wrapper} {rest : List Wrapper}
    (hq : s.client.queue = wrapper :: rest) {c' : Context} (hc : WellFormed c')
    (hsends : Sends s.client wrapper rest c') {consumed held more : List UInt8}
    (serving : Serving config s.server (endedRequests s.client.log) consumed held)
    (silent : s.toClient = []) (sent : sentBytes s.client = held ++ (s.server.ctx.input ++ s.toServer))
    (hbytes : sentBytes c' = sentBytes s.client ++ more) :
    Talking config ⟨c', s.server, s.toServer ++ more, s.toClient⟩ := by
  obtain ⟨_, _, _, hended, hreleased⟩ := hsends.written hq
  obtain ⟨m, n, hqueue, -, hreader, -⟩ := hsends.head
  refine ⟨hc, hsends.transport.trans h.tcp, hsends.connected, h.serverOpen,
    .client (hended.symm ▸ serving) ⟨hsends.input, silent⟩ ?_ ?_,
    fun m error hmem => h.answered m error (hreleased m error hmem)⟩
  · intro w hw
    rw [hqueue] at hw
    obtain rfl : _ = w := Option.some.inj hw
    exact hreader
  · change sentBytes c' = _ ++ (s.server.ctx.input ++ (s.toServer ++ more))
    rw [hbytes, sent]
    simp only [List.append_assoc]

/-- The server has the floor, and more of its response is taken. -/
theorem Talking.takes (h : Talking config s) {wrapper : Wrapper} {rest : List Wrapper}
    {c' : Context} (hc : WellFormed c') (htakes : Takes s.client wrapper rest c')
    {consumed : List UInt8} (serving : Serving config s.server
      (endedRequests s.client.log ++ [requestOf wrapper.msg.writer]) consumed [])
    (taken : s.server.ctx.input = [] ∧ s.toServer = [])
    (sent : wrapper.msg.writer.xmit = wrapper.msg.writer.length)
    (reply : received wrapper.msg ++ (s.client.input ++ s.toClient) =
      responseBytes config (requestOf wrapper.msg.writer)) (hmore : c'.input ++ s.toClient ≠ []) :
    Talking config ⟨c', s.server, s.toServer, s.toClient⟩ := by
  obtain ⟨-, hended, hreleased⟩ := htakes.written
  obtain ⟨m, hqueue, hw, hreceived⟩ := htakes.head
  refine ⟨hc, htakes.transport.trans h.tcp, htakes.connected, h.serverOpen,
    @Floor.server config _ consumed _ _ hqueue ?_ taken ?_ ?_ hmore,
    fun m error hmem => h.answered m error (hreleased m error hmem)⟩
  · change Serving config s.server (endedRequests c'.log ++ [requestOf m.writer]) consumed []
    rw [hended, hw]
    exact serving
  · change m.writer.xmit = m.writer.length
    rw [hw]
    exact sent
  · change received m ++ (c'.input ++ s.toClient) = responseBytes config (requestOf m.writer)
    rw [hw, ← reply, ← List.append_assoc, hreceived, List.append_assoc]

/-- The response is complete: the floor is the client's again. -/
theorem Talking.ends (h : Talking config s) {wrapper : Wrapper} {rest : List Wrapper}
    (hq : s.client.queue = wrapper :: rest) {c' : Context} (hc : WellFormed c')
    (hends : Ended s.client wrapper rest c') {consumed : List UInt8}
    (serving : Serving config s.server
      (endedRequests s.client.log ++ [requestOf wrapper.msg.writer]) consumed [])
    (taken : s.server.ctx.input = [] ∧ s.toServer = []) (hlater : s.toClient = [])
    (reply : received wrapper.msg ++ s.client.input =
      responseBytes config (requestOf wrapper.msg.writer)) :
    Talking config ⟨c', s.server, s.toServer, s.toClient⟩ := by
  have hrequests := hends.requests
  have hanswered := hends.answered h.answered reply
  have hnext : ∀ w ∈ c'.queue.head?, w.msg.writer.xmit = 0 := by
    intro w hw
    rw [hends.queue] at hw
    have hwaits : w ∈ s.client.queue.tail := by
      rw [hq]
      exact List.mem_of_mem_head? hw
    exact (h.wellFormed.waiting w hwaits).unsent
  refine ⟨hc, hends.transport.trans h.tcp, hends.connected, h.serverOpen,
    @Floor.client config _ consumed [] (hrequests.symm ▸ serving)
      ⟨hends.input, hlater⟩ (fun w hw => hc.unread hw (hnext w hw)) ?_, hanswered⟩
  change sentBytes c' = [] ++ (s.server.ctx.input ++ s.toServer)
  rw [sentBytes_unsent hnext, taken.1, taken.2]
  rfl

theorem Talking.writeRead (h : Talking config s) {revents : Revents}
    (htrue : Truthful s.client revents env) :
    Talking config (Move.perform config s (.call (.writeRead revents), env)) := by
  have hc := run_wellFormed h.wellFormed [(.writeRead revents, env)]
  cases hq : s.client.queue with
  | nil =>
    refine h.offBus ?_
    change OffBus s.client (loopWriteRead s.client revents env).2
    unfold loopWriteRead
    rw [hq]
    dsimp only
    split_ifs
    · exact offBus_fields rfl rfl rfl rfl hq.symm rfl
    · exact .refl _
  | cons wrapper rest =>
    have hhead : wrapper ∈ s.client.queue.head? := by rw [hq]; rfl
    change WellFormed (loopWriteRead s.client revents env).2 at hc
    cases h.floor with
    | client serving silent nothing sent =>
      rcases loopWriteRead_asking h.wellFormed h.tcp h.clientOpen hq htrue silent.1
        (nothing wrapper hhead) with hoff | hsends
      · exact h.offBus hoff
      · obtain ⟨more, hwritten, hbytes, -⟩ := hsends.written hq
        rw [perform_writeRead hwritten]
        exact h.sends hq hc hsends serving silent.2 sent hbytes
    | @server consumed wrapper' rest' head serving taken sent reply more =>
      rw [hq] at head
      obtain ⟨rfl, rfl⟩ := List.cons.inj head
      have hposted := h.wellFormed.head wrapper hhead
      rw [h.tcp] at hposted
      have hreply := hposted.wholeRequest.reply config
      rw [← reply] at hreply
      rcases loopWriteRead_replying h.wellFormed h.tcp h.clientOpen hq htrue sent hreply more with
        hoff | ⟨htakes, hmore⟩ | ⟨hlater, hends⟩
      · exact h.offBus hoff
      · have hwritten := htakes.written.1.trans (List.append_nil _).symm
        rw [perform_writeRead hwritten, List.append_nil]
        exact h.takes hc htakes serving taken sent reply hmore
      · rw [hlater, List.append_nil] at reply
        have hwritten := hends.written.trans (List.append_nil _).symm
        rw [perform_writeRead hwritten, List.append_nil]
        exact h.ends hq hc hends serving taken hlater reply

theorem Connection.readRequest_arrived (config : ServedConfig) (s : Connection) (env : Env) :
    (s.readRequest config env).1.arrived = s.arrived := by
  unfold Connection.readRequest
  split_ifs
  · rfl
  · dsimp only
    split_ifs <;> rfl

theorem Collecting.read_rc {r : Frame .reader} {held : List UInt8} (h : Collecting r held)
    {c : Context} {env : Env} (hconn : c.connected) (hinput : c.input ≠ [])
    (hgot : ∃ k, 0 < k ∧ env.got = .data k) : (tcpRead c r env).rc ≠ 0 := by
  obtain ⟨k, hk, hdata⟩ := hgot
  have hlength := h.length_le
  have hpart := h.part
  have hread : readResult c env = .data k := by rw [readResult, if_pos hconn, hdata]
  have hwindow : (Frame.holding held (requestLength held) : Frame .reader).window =
      requestLength held - held.length := Frame.window_eq hpart.le hlength.2
  have hsome : (delivered c (.holding held (requestLength held)) env).length ≠ 0 := by
    have hpos := List.length_pos_iff.2 hinput
    unfold delivered
    rw [hread]
    dsimp only
    rw [List.length_take, hwindow]
    omega
  have hguard : ¬ ((Frame.holding held (requestLength held) : Frame .reader).length ≤
      (Frame.holding held (requestLength held) : Frame .reader).xmit ∨
        frameMax < (Frame.holding held (requestLength held) : Frame .reader).length) := by
    simp only [Frame.holding_length, Frame.holding_xmit]
    omega
  rw [h.tcpRead_eq, tcpReadSized, if_neg hguard, hread]
  dsimp only
  have hrc : (readWindow c (.holding held (requestLength held)) env).rc ≠ 0 := by
    unfold readWindow
    dsimp only
    rw [hread, if_neg (by simp)]
    omega
  unfold tcpRefineLength
  split_ifs
  · exact hrc
  · exact (by decide : (-1 : ℤ) ≠ 0)
  · exact hrc

theorem Serving.readRequest_connected {server : Connection} {done : List (Frame .reader)}
    {consumed held : List UInt8} (h : Serving config server done consumed held)
    (hopen : server.ctx.connected) (hinput : server.ctx.input ≠ [])
    (hgot : ∃ k, 0 < k ∧ env.got = .data k) :
    (server.readRequest config env).1.ctx.connected := by
  unfold Connection.readRequest
  split_ifs with hin
  · exact hopen
  have hread : readFrame server.ctx server.msg.reader env =
      tcpRead server.ctx server.msg.reader env := by
    rw [readFrame, h.tcp]
  cases h.phase with
  | refused hreader hlength =>
    rw [hreader, h.tcp, frameIncomplete_holding] at hin
    exact absurd ⟨hlength.ge, hlength⟩ hin
  | answering hreader hsome =>
    rw [hreader, h.tcp, frameIncomplete_holding] at hin
    exact absurd ⟨hsome, rfl⟩ hin
  | collecting hreader =>
    have hrc := hreader.read_rc hopen hinput hgot
    have hconn : (tcpRead server.ctx server.msg.reader env).ctx.connected = server.ctx.connected := by
      have houtcome := hreader.read server.ctx env
      generalize tcpRead server.ctx server.msg.reader env = got at houtcome
      cases houtcome <;> rfl
    rw [hread]
    dsimp only
    split_ifs
    · exact hconn.trans hopen
    · exact hconn.trans hopen
    · exact hconn.trans hopen

/-- What is in of a request that the server has not answered is the front of the head. -/
theorem Talking.asking (h : Talking config s) {held rest : List UInt8}
    (hsent : sentBytes s.client = held ++ rest) (hsome : 6 ≤ held.length) :
    ∃ wrapper ∈ s.client.queue.head?, WholeRequest wrapper.msg.writer ∧
      wrapper.msg.writer.xmit ≤ wrapper.msg.writer.length ∧
        held ++ rest = wrapper.msg.writer.bytes wrapper.msg.writer.xmit := by
  cases hq : s.client.queue.head? with
  | none =>
    rw [sentBytes_unsent (by rw [hq]; simp)] at hsent
    rw [(List.append_eq_nil_iff.1 hsent.symm).1] at hsome
    exact absurd hsome (by decide)
  | some wrapper =>
    have houtstanding := h.wellFormed.head wrapper hq
    rw [h.tcp] at houtstanding
    exact ⟨wrapper, rfl, houtstanding.wholeRequest, houtstanding.underway.fits, by
      rw [← hsent, sentBytes_head hq]⟩

/-- A request that the server has in whole is the one at the head, sent to its end. -/
theorem WholeRequest.held {w : Frame .writer} (hw : WholeRequest w) (hxmit : w.xmit ≤ w.length)
    {held rest : List UInt8} (h : held ++ rest = w.bytes w.xmit) (hsome : 6 ≤ held.length) :
    declaredLength held = w.length ∧ (held.length = declaredLength held →
      rest = [] ∧ w.xmit = w.length ∧ Frame.holding held held.length = requestOf w) := by
  have hlength : held.length + rest.length = w.xmit := by
    rw [← List.length_append, h, Frame.bytes_length]
  have hdeclared : declaredLength held = w.length := by
    rw [← declaredLength_append hsome rest, h, declaredLength_bytes w (by omega), hw.declared]
  refine ⟨hdeclared, fun hwhole => ?_⟩
  obtain rfl : rest = [] := List.length_eq_zero_iff.1 (by omega)
  rw [List.append_nil] at h
  have hend : w.xmit = w.length := by
    rw [List.length_nil] at hlength
    omega
  refine ⟨rfl, hend, ?_⟩
  unfold requestOf
  rw [h, hend, Frame.bytes_length]

/-- What a turn of the server that does not write is for the conversation. -/
theorem Move.perform_silent {server : Connection} {readable writable : Bool}
    (hturn : s.server.turn config readable writable env = server)
    (hwritten : server.written = s.server.written) :
    Move.perform config s (.turn readable writable, env) = { s with server := server } := by
  change Conversation.mk _ (s.server.turn config readable writable env) _ (s.toClient ++
    (s.server.turn config readable writable env).written.drop _) = _
  rw [hturn, hwritten, List.drop_length, List.append_nil]

theorem Talking.serverReads (h : Talking config s) {readable writable : Bool}
    (hselected : Selected s.server readable writable env)
    (hidle : ¬ (writable ∧ s.server.wantsWrite)) :
    Talking config (Move.perform config s (.turn readable writable, env)) := by
  have hturn : s.server.turn config readable writable env =
      if readable then (s.server.readRequest config env).1 else s.server :=
    Connection.turn_not_writing h.serverOpen hidle
  by_cases hready : readable = true
  · rw [if_pos hready] at hturn
    obtain ⟨hinput, hgot⟩ := hselected.readable hready
    cases hfloor : h.floor with
    | @client consumed held serving silent nothing sent =>
      obtain ⟨held', hserving⟩ := serving.readRequest env
      have hopen := serving.readRequest_connected h.serverOpen hinput hgot
      have harrived := Connection.readRequest_arrived config s.server env
      generalize (s.server.readRequest config env).1 = server at *
      rw [Move.perform_silent hturn (hserving.written.trans serving.written.symm)]
      refine ⟨h.wellFormed, h.tcp, h.clientOpen, hopen, .client hserving silent nothing ?_, h.answered⟩
      have hsplit : held' ++ server.ctx.input = held ++ s.server.ctx.input := by
        have hall := hserving.arrived.symm.trans (harrived.trans serving.arrived)
        rw [List.append_assoc, List.append_assoc] at hall
        exact List.append_cancel_left hall
      change sentBytes s.client = held' ++ (server.ctx.input ++ s.toServer)
      rw [sent, ← List.append_assoc, ← List.append_assoc, hsplit]
    | server _ _ taken => exact absurd taken.1 hinput
  · rw [if_neg hready] at hturn
    rw [Move.perform_silent hturn rfl]
    exact h

theorem Collecting.requests {r : Frame .reader} {held : List UInt8} (h : Collecting r held) :
    requestsOf held = [] := by
  by_cases hshort : held.length < 6
  · exact requestsOf_short hshort
  · have hpart := h.part
    rw [requestLength, if_neg hshort] at hpart
    exact requestsOf_part h.usable hpart

/-- Before a request starts to come in there is nothing to answer. -/
theorem Phase.incomplete {m : Msg} (h : Phase config m []) : frameIncomplete .tcp m.reader ≠ 0 := by
  cases h with
  | collecting hreader => exact hreader.incomplete
  | refused _ hlength => exact absurd hlength (by decide)
  | answering _ hsome => exact absurd hsome (by decide)

theorem Connection.writeResponse_connected {server : Connection} (hopen : server.ctx.connected)
    (hwants : server.wantsWrite) (hsent : env.sent ≠ .error) :
    (server.writeResponse env).ctx.connected := by
  have hresult : sendResult server.ctx env ≠ .error := by rwa [sendResult, if_pos hopen]
  unfold Connection.writeResponse writeFrame
  rw [if_neg hwants.2, if_neg hresult]
  dsimp only
  rw [if_neg (by omega)]
  exact hopen

theorem Talking.serverWrites (h : Talking config s) {readable writable : Bool}
    (hselected : Selected s.server readable writable env)
    (hwrites : writable ∧ s.server.wantsWrite) :
    Talking config (Move.perform config s (.turn readable writable, env)) := by
  obtain ⟨hwritable, hwants⟩ := hwrites
  obtain ⟨k, hk, haccepts⟩ := hselected.writable hwritable hwants
  have hsent : env.sent ≠ .error := by
    rw [haccepts]
    simp
  have hturn : s.server.turn config readable writable env = s.server.writeResponse env :=
    Connection.turn_writes h.serverOpen hwritable hwants
  cases h.floor with
  | @client consumed held serving silent nothing sent =>
    obtain ⟨hwritten, hmsg, harrived, hinput, htcp⟩ :=
      serving.writeResponse_sent h.serverOpen hwants hsent
    have hopen := Connection.writeResponse_connected h.serverOpen hwants hsent
    have hall : accepted s.server.ctx s.server.msg env = s.server.msg.writer.length := by
      rw [serving.accepted_eq h.serverOpen haccepts, min_eq_right hk]
    have hsome : 6 ≤ held.length := by
      have hin := hwants.1
      rw [serving.tcp] at hin
      cases serving.phase with
      | collecting hreader => exact absurd hin hreader.incomplete
      | refused _ hlength => exact hlength.ge
      | answering _ hsome => exact hsome
    obtain ⟨wrapper, hhead, hw, hfits, hbytes⟩ := h.asking sent hsome
    obtain ⟨rest, hq⟩ := List.head?_eq_some_iff.1 hhead
    obtain ⟨hdeclared, hwhole⟩ := hw.held hfits hbytes hsome
    have husable : Usable .tcp held := by
      have hlo := hw.length
      exact fun _ => by rw [hdeclared]; exact ⟨by omega, hw.fits⟩
    have hphase : held.length = declaredLength held ∧ s.server.msg.writer =
        filledResponse config (.holding held held.length) (.zero .writer) := by
      have hin := hwants.1
      rw [serving.tcp] at hin
      cases serving.phase with
      | collecting hreader => exact absurd hin hreader.incomplete
      | refused _ _ hu => exact absurd husable hu
      | answering _ _ _ hwhole hwriter => exact ⟨hwhole, hwriter⟩
    obtain ⟨hrest, hend, hrequest⟩ := hwhole hphase.1
    have hone := requestsOf_whole hsome husable hphase.1
    rw [hrequest] at hphase hone
    have hresponse : (s.server.writeResponse env).written = s.server.written ++
        [requestOf wrapper.msg.writer].flatMap (responseBytes config) := by
      rw [hwritten, hall, hphase.2, List.flatMap_singleton]
      rfl
    have hserving := serving.cleared _ htcp hinput harrived hmsg hone hresponse
    have hmove : Move.perform config s (.turn readable writable, env) =
        ⟨s.client, s.server.writeResponse env, s.toServer,
          responseBytes config (requestOf wrapper.msg.writer)⟩ := by
      change Conversation.mk _ (s.server.turn config readable writable env) _ (s.toClient ++
        (s.server.turn config readable writable env).written.drop _) = _
      rw [hturn, hresponse, List.drop_left, silent.2, List.flatMap_singleton]
      rfl
    obtain ⟨hnone, hgone⟩ := List.append_eq_nil_iff.1 hrest
    have hempty : received wrapper.msg = [] := by
      rw [received, nothing wrapper hhead]
      rfl
    rw [hmove]
    refine ⟨h.wellFormed, h.tcp, h.clientOpen, hopen,
      .server hq hserving ⟨hinput.trans hnone, hgone⟩ hend ?_ ?_, h.answered⟩
    · change received wrapper.msg ++ (s.client.input ++ _) = _
      rw [hempty, silent.1]
      rfl
    · change s.client.input ++ _ ≠ []
      rw [silent.1]
      exact ((hw.reply config).delimited hw).ne_nil
  | server _ serving =>
    have hin := hwants.1
    rw [serving.tcp] at hin
    exact absurd hin serving.phase.incomplete

theorem Talking.perform (h : Talking config s) {move : Move × Env} (horderly : Orderly s move) :
    Talking config (Move.perform config s move) := by
  obtain ⟨move, env⟩ := move
  cases move with
  | call made =>
    rcases horderly with hoff | ⟨revents, rfl, htrue⟩
    · exact h.offBus (Call.offBus h.wellFormed hoff)
    · exact h.writeRead htrue
  | turn readable writable =>
    by_cases hwrites : writable ∧ s.server.wantsWrite
    · exact h.serverWrites horderly hwrites
    · exact h.serverReads horderly hwrites
  | carry n => exact h.carry n env
  | bring n => exact h.bring n env

structure JustConnected (c : Context) : Prop extends Fresh c where
  tcp : c.transport = .tcp
  connected : c.connected
  input : c.input = []

theorem JustConnected.talking {c : Context} (h : JustConnected c) (config : ServedConfig) :
    Talking config (conversationOf c) where
  wellFormed := h.toFresh.wellFormed
  tcp := h.tcp
  clientOpen := h.connected
  serverOpen := rfl
  floor := by
    refine @Floor.client config _ [] [] ?_ ⟨h.input, rfl⟩ ?_ ?_
    · change Serving config acceptedClient (endedRequests c.log) [] []
      rw [h.log]
      exact serving_accepted config
    · change ∀ w ∈ c.queue.head?, _
      rw [h.queue]
      simp
    · change sentBytes c = _
      rw [sentBytes_unsent (by rw [h.queue]; simp)]
      rfl
  answered m error hmem := by
    change Event.released m error ∈ c.log at hmem
    rw [h.log] at hmem
    exact absurd hmem List.not_mem_nil

theorem talking_run {client : Context} (h : JustConnected client) (config : ServedConfig)
    {moves : List (Move × Env)}
    (horderly : Machine.Along (Move.perform config) Orderly moves (conversationOf client)) :
    Talking config (Machine.run (Move.perform config) moves (conversationOf client)) :=
  horderly.keeps (fun _ _ htalking => htalking.perform) (h.talking config)

/-- However calls, turns and arriving bytes interleave, a request leaves the queue with the
server's response to this very request. -/
theorem conversation_answers {client : Context} (h : JustConnected client) (config : ServedConfig)
    {moves : List (Move × Env)}
    (horderly : Machine.Along (Move.perform config) Orderly moves (conversationOf client))
    {m : Msg} {error : ℤ} (hleft : .released m error ∈
      (Machine.run (Move.perform config) moves (conversationOf client)).client.log) :
    ServerAnswered config m error :=
  (talking_run h config horderly).answered m error hleft

/-- A poll of one register that is answered, the response in two pieces. -/
def onePoll : List (Move × Env) :=
  [(.call (.post 1 (.readHoldingRegisters 0 1)), sampleEnv),
    (.call (.writeRead ⟨false, true, false, false⟩), sampleEnv), (.carry 12, sampleEnv),
    (.turn true false, sampleEnv), (.turn true false, sampleEnv), (.turn false true, sampleEnv),
    (.bring 9, sampleEnv), (.call (.writeRead ⟨true, false, false, false⟩), sampleEnv),
    (.bring 2, sampleEnv), (.call (.writeRead ⟨true, false, false, false⟩), sampleEnv)]

theorem sampleContext_justConnected : JustConnected (sampleContext .tcp []) :=
  ⟨⟨rfl, rfl, rfl, rfl⟩, rfl, rfl, rfl⟩

theorem onePoll_orderly : Machine.Along (Move.perform ⟨[], 1⟩) Orderly onePoll
    (conversationOf (sampleContext .tcp [])) := by
  refine ⟨.inl trivial, .inr ⟨_, rfl, ?_⟩, trivial, ?_, ?_, ?_, trivial, .inr ⟨_, rfl, ?_⟩, trivial,
    .inr ⟨_, rfl, ?_⟩, trivial⟩
  · exact ⟨fun h => absurd h (by decide), fun _ _ _ _ => rfl, by decide⟩
  · exact ⟨fun _ => ⟨by decide +kernel, 260, by decide, rfl⟩, fun h => absurd h (by decide)⟩
  · exact ⟨fun _ => ⟨by decide +kernel, 260, by decide, rfl⟩, fun h => absurd h (by decide)⟩
  · exact ⟨fun h => absurd h (by decide), fun _ _ => ⟨260, by decide +kernel, rfl⟩⟩
  all_goals
    exact ⟨fun _ => ⟨by decide +kernel, 260, by decide, rfl⟩, fun h => absurd h (by decide), by decide⟩

theorem conversation_answers_example : ∃ m, ServerAnswered ⟨[], 1⟩ m 0 := by
  obtain ⟨m, hlast⟩ : ∃ m, (Machine.run (Move.perform ⟨[], 1⟩) onePoll
      (conversationOf (sampleContext .tcp []))).client.log.getLast? = some (.released m 0) := ⟨_, rfl⟩
  exact ⟨m, conversation_answers sampleContext_justConnected ⟨[], 1⟩ onePoll_orderly
    (List.mem_of_getLast? hlast)⟩

/-- The requests that the server has received are those that have left the client's queue, in
this order, and at most the one at its head. -/
theorem conversation_once {client : Context} (h : JustConnected client) (config : ServedConfig)
    {moves : List (Move × Env)} {s : Conversation}
    (hrun : s = Machine.run (Move.perform config) moves (conversationOf client))
    (horderly : Machine.Along (Move.perform config) Orderly moves (conversationOf client)) :
    requestsOf s.server.received = endedRequests s.client.log ∨
      ∃ wrapper ∈ s.client.queue.head?, requestsOf s.server.received =
        endedRequests s.client.log ++ [requestOf wrapper.msg.writer] := by
  have htalking := talking_run h config horderly
  rw [← hrun] at htalking
  cases htalking.floor with
  | @client consumed held serving silent nothing sent =>
    rw [serving.received, serving.requests]
    cases serving.phase with
    | collecting hreader => exact .inl (by rw [hreader.requests, List.append_nil])
    | refused _ hlength hu =>
      have hnone := requestsOf_refused hlength hu []
      rw [List.append_nil, requestsOf_nil] at hnone
      exact .inl (by rw [hnone, List.append_nil])
    | answering _ hsome hu hwhole =>
      obtain ⟨wrapper, hhead, hw, hfits, hbytes⟩ := htalking.asking sent hsome
      obtain ⟨-, -, hrequest⟩ := (hw.held hfits hbytes hsome).2 hwhole
      have hone := requestsOf_whole hsome hu hwhole []
      rw [List.append_nil, requestsOf_nil, hrequest] at hone
      exact .inr ⟨wrapper, hhead, by rw [hone]⟩
  | @server _ wrapper _ head serving =>
    refine .inr ⟨wrapper, by rw [head]; rfl, ?_⟩
    rw [serving.received, serving.requests, requestsOf_nil, List.append_nil]

theorem conversation_once_example :
    requestsOf (Machine.run (Move.perform ⟨[], 1⟩) onePoll
      (conversationOf (sampleContext .tcp []))).server.received =
        endedRequests (Machine.run (Move.perform ⟨[], 1⟩) onePoll
          (conversationOf (sampleContext .tcp []))).client.log := by
  rcases conversation_once sampleContext_justConnected ⟨[], 1⟩ rfl onePoll_orderly with
    hsame | ⟨wrapper, hwrapper, -⟩
  · exact hsame
  · have hempty : (Machine.run (Move.perform ⟨[], 1⟩) onePoll
        (conversationOf (sampleContext .tcp []))).client.queue.head?.isNone := by decide +kernel
    rw [Option.isNone_iff_eq_none.1 hempty] at hwrapper
    exact absurd hwrapper (by simp)

end Modbusmq
