import Modbusmq.Loop.OffBus
import Modbusmq.Server.Replies

/-!
# One call of an exchange with the server

What `modbusmq_loop_write_read` does to the request at the head on a TCP connection that
works: it sends more of it while nothing has come back, and once the reply comes it takes
more of it, or ends with it.
-/

namespace Modbusmq

/-- What `poll()` reports is so, and the write half is entered outside the quiet gap only. -/
structure Truthful (c : Context) (revents : Revents) (env : Env) : Prop where
  readable : revents.pollin → c.input ≠ [] ∧ ∃ k, 0 < k ∧ env.got = .data k
  writable : revents.pollout → ∀ wrapper ∈ c.queue.head?, wrapper.msg.writer.xmit = 0 →
    frameDelayLeft c (env.clock .gap) = 0
  healthy : env.sent ≠ .error

/-- More of the head has been sent. -/
structure Sends (c : Context) (wrapper : Wrapper) (rest : List Wrapper) (c' : Context) : Prop where
  transport : c'.transport = c.transport
  connected : c'.connected
  input : c'.input = []
  head : ∃ m n, c'.queue = { wrapper with msg := m } :: rest ∧
    m.writer = { wrapper.msg.writer with xmit := wrapper.msg.writer.xmit + n } ∧
      m.reader.xmit = 0 ∧ ∃ quiet sent, c'.log = c.log ++ quiet ++ sent ∧
        (∀ e ∈ quiet, e.Silent) ∧ Sent wrapper.msg n sent

/-- More of the reply has been taken. -/
structure Takes (c : Context) (wrapper : Wrapper) (rest : List Wrapper) (c' : Context) : Prop where
  transport : c'.transport = c.transport
  connected : c'.connected
  head : ∃ m, c'.queue = { wrapper with msg := m } :: rest ∧ m.writer = wrapper.msg.writer ∧
    received m ++ c'.input = received wrapper.msg ++ c.input
  log : ∃ δ, c'.log = c.log ++ δ ∧ ∀ e ∈ δ, e.Idle

/-- The head has left with a reply. -/
structure Ended (c : Context) (wrapper : Wrapper) (rest : List Wrapper) (c' : Context) : Prop where
  transport : c'.transport = c.transport
  connected : c'.connected
  input : c'.input = []
  queue : c'.queue = rest
  log : ∃ m error δ, c'.log = c.log ++ δ ++ [.released m error] ∧ (∀ e ∈ δ, e.Idle) ∧
    m.writer = wrapper.msg.writer ∧ received m = received wrapper.msg ++ c.input ∧
      m.reader = .holding (received m) (received m).length ∧
        (error = 0 ∧ Answer .tcp m.writer (received m) ∨
          error = errException ∧ Refusal m.writer (received m))

theorem Event.Silent.idle {e : Event} (h : e.Silent) : e.Idle := by
  cases e <;> trivial

theorem Told.idle {c : Context} {flags : Flags} {m : Msg} {told : List Event}
    (h : Told c flags m told) : ∀ e ∈ told, e.Idle := by
  intro e he
  rcases h with ⟨report, rfl⟩ | ⟨hsilent, -⟩
  · rw [List.mem_singleton.1 he]
    trivial
  · exact (hsilent e he).idle

theorem slaveUpdate_bus (c : Context) (timerId : ℕ) (answered : Bool) (env : Env) :
    (slaveUpdate c timerId answered env).connected = c.connected ∧
      (slaveUpdate c timerId answered env).input = c.input := by
  unfold slaveUpdate
  dsimp only
  split
  · exact ⟨rfl, rfl⟩
  · split_ifs <;> exact ⟨rfl, rfl⟩

theorem reportError_bus (c : Context) (m : Msg) (error : ℤ) (env : Env) :
    (reportError c m error env).connected = c.connected ∧
      (reportError c m error env).input = c.input := by
  unfold reportError
  split
  · exact ⟨rfl, rfl⟩
  · dsimp only
    split_ifs
    all_goals first | exact slaveUpdate_bus .. | exact ⟨rfl, rfl⟩

theorem reportAnswer_bus (c : Context) (flags : Flags) (m : Msg) (env : Env) :
    (reportAnswer c flags m env).connected = c.connected ∧
      (reportAnswer c flags m env).input = c.input := by
  have honce : ∀ c' : Context, (onceDone c' m.msgId).connected = c'.connected ∧
      (onceDone c' m.msgId).input = c'.input := by
    intro c'
    unfold onceDone
    split <;> exact ⟨rfl, rfl⟩
  cases flags with
  | post =>
    unfold reportAnswer
    dsimp only
    split
    · exact ⟨rfl, rfl⟩
    · split_ifs <;> exact ⟨rfl, rfl⟩
  | subscribe =>
    unfold reportAnswer
    dsimp only
    split_ifs
    · obtain ⟨hconn, hinput⟩ := honce (slaveUpdate c m.msgId true env)
      obtain ⟨hconn', hinput'⟩ := slaveUpdate_bus c m.msgId true env
      exact ⟨hconn.trans hconn', hinput.trans hinput'⟩
    · exact ⟨rfl, rfl⟩

variable {c : Context} {wrapper : Wrapper} {rest : List Wrapper} {revents : Revents} {env : Env}

theorem loopWriteRead_more (hq : c.queue = wrapper :: rest)
    (hrc : 0 < (handleWriteRead c wrapper.msg revents env).rc) :
    (loopWriteRead c revents env).2 =
      { (handleWriteRead c wrapper.msg revents env).ctx with
        queue := { wrapper with msg := (handleWriteRead c wrapper.msg revents env).msg } :: rest } := by
  have hexception : errException < 0 := by decide
  have hprotocol : errProtocol < 0 := by decide
  unfold loopWriteRead
  rw [hq]
  dsimp only
  rw [if_neg hrc.ne', if_neg (by omega), if_neg (by omega), if_neg (by omega)]

theorem loopWriteRead_done (hq : c.queue = wrapper :: rest) {s : WriteRead}
    (hs : handleWriteRead c wrapper.msg revents env = s) (hrc : s.rc = 0) {reader : Frame .reader}
    (hcheck : check s.ctx.transport s.msg.writer s.msg.reader = (0, reader)) :
    (loopWriteRead c revents env).2 =
      dropHead (reportAnswer
        { s.ctx with
          queue := { wrapper with msg := s.msg } :: rest
          tx := s.ctx.tx + 1
          rx := s.ctx.rx + 1 } wrapper.flags { s.msg with reader := reader } env)
        { s.msg with reader := reader } 0 := by
  unfold loopWriteRead handleMsg
  rw [hq]
  dsimp only
  rw [hs, if_pos hrc, hcheck]
  rfl

theorem loopWriteRead_refused (hq : c.queue = wrapper :: rest) {s : WriteRead}
    (hs : handleWriteRead c wrapper.msg revents env = s) (hrc : s.rc = errException) :
    (loopWriteRead c revents env).2 =
      dropHead (reportError
        { s.ctx with
          queue := { wrapper with msg := s.msg } :: rest
          err := s.ctx.err + 1 } s.msg errException env) s.msg errException := by
  unfold loopWriteRead
  rw [hq]
  dsimp only
  rw [hs, if_neg (by rw [hrc]; decide), if_pos hrc]

theorem waits_offBus (hq : c.queue = wrapper :: rest) {rc : ℤ} (hrc : 0 < rc)
    (hs : handleWriteRead c wrapper.msg revents env = ⟨rc, c, wrapper.msg⟩) :
    OffBus c (loopWriteRead c revents env).2 := by
  rw [loopWriteRead_more hq (by rw [hs]; exact hrc), hs]
  exact offBus_fields rfl rfl rfl rfl hq.symm rfl

/-- While nothing has come back, a call sends more of the head or leaves everything alone. -/
theorem loopWriteRead_asking (hc : WellFormed c) (ht : c.transport = .tcp) (hconn : c.connected)
    (hq : c.queue = wrapper :: rest) (htrue : Truthful c revents env) (hinput : c.input = [])
    (hnothing : wrapper.msg.reader.xmit = 0) :
    OffBus c (loopWriteRead c revents env).2 ∨
      Sends c wrapper rest (loopWriteRead c revents env).2 := by
  have hhead : c.queue.head? = some wrapper := by rw [hq]; rfl
  have hunder := (hc.head wrapper hhead).underway
  have hserved := handleWriteRead_served (G := False) revents env hunder False.elim
  obtain ⟨quiet, sent, n, hlog, hquiet, hsent, hwriter, -⟩ := hserved.moved
  have hout := handleWriteRead_outcome revents env hunder
  have hempty : (beforeWrite c wrapper.msg env).input = [] := by
    unfold beforeWrite
    dsimp only
    split_ifs
    · change (if c.connected then c.input.drop env.drained else c.input) = []
      rw [hinput, List.drop_nil, ite_self]
    · exact hinput
  have hkept : (beforeWrite c wrapper.msg env).connected = c.connected := by
    unfold beforeWrite
    dsimp only
    split_ifs <;> rfl
  have hsends : ∀ {rc : ℤ} {m : Msg}, handleWriteRead c wrapper.msg revents env =
      ⟨rc, afterWrite c wrapper.msg env, m⟩ → 0 < rc → m.reader.xmit = 0 →
        Sends c wrapper rest (loopWriteRead c revents env).2 := by
    intro rc m hs hrc hreader
    rw [loopWriteRead_more hq (by rw [hs]; exact hrc)]
    rw [hs] at hlog hwriter ⊢
    refine ⟨beforeWrite_transport .., ?_, hempty, m, n, rfl, hwriter, hreader, quiet, sent, hlog,
      hquiet, hsent⟩
    change (beforeWrite c wrapper.msg env).connected = true
    rw [hkept]
    exact hconn
  generalize hs : handleWriteRead c wrapper.msg revents env = s at hout
  cases hout with
  | waits hrc => exact .inl (waits_offBus hq hrc hs)
  | complete _ hheld hwhole =>
    obtain rfl : _ = [] := List.length_eq_zero_iff.1 (hheld.frame ▸ hnothing)
    rw [expectedLength_nil, ht] at hwhole
    exact absurd hwhole (by decide)
  | writing hready hsend hwrite =>
    cases hwrite with
    | gap hunsent hgap =>
      have hover := htrue.writable hready wrapper hhead hunsent
      rw [hover] at hgap
      exact absurd hgap (UInt64.lt_irrefl _)
    | failed herror =>
      rw [sendResult, if_pos hconn] at herror
      exact absurd herror htrue.healthy
    | part _ _ hrc => exact .inr (hsends hs hrc hnothing)
    | broadcast _ _ hb =>
      rw [ht] at hb
      exact absurd hb (by simp [msgBroadcast])
    | whole _ _ _ hrc => exact .inr (hsends hs hrc rfl)
  | reading hready => exact absurd hinput (htrue.readable hready).1

theorem Answer.accepted {w : Frame .writer} {s : List UInt8} (hw : WholeRequest w)
    (hsent : w.xmit = w.length) (h : Answer .tcp w s) :
    check .tcp w (.holding s s.length) = (0, .holding s s.length) := by
  have hverdict := h.verdict hw.toRequestFrame
  have hexpected : tcpExpectedLength s = s.length := by
    rw [tcpExpectedLength, if_neg (by have := h.1; omega)]
    exact h.2.2.1.symm
  have hheader := tcpMsgCheckHeader_holding w s
  rw [hexpected] at hheader
  change tcpMsgCheck w (.holding s s.length) = _
  unfold tcpMsgCheck
  rw [hheader]
  dsimp only
  rw [if_neg (not_lt.2 hverdict), if_neg (not_not.2 hsent)]
  exact if_neg (not_not.2 rfl)

theorem afterRead_idle (c : Context) (r : Frame .reader) (env : Env) :
    ∃ δ, (afterRead c r env).log = c.log ++ δ ∧ ∀ e ∈ δ, e.Idle :=
  ⟨_, rfl, by simp [Event.Idle]⟩

theorem dropHead_ended {c₁ c₂ : Context} {flags : Flags} {m : Msg} {error : ℤ} {head : Wrapper}
    (htell : Telling flags m c₁ c₂) (hbus : c₂.connected = c₁.connected ∧ c₂.input = c₁.input)
    (ht : c₁.transport = c.transport) (hconn : c₁.connected) (hinput : c₁.input = [])
    (hq : c₁.queue = head :: rest) (hlog : ∃ δ, c₁.log = c.log ++ δ ∧ ∀ e ∈ δ, e.Idle)
    (hw : m.writer = wrapper.msg.writer) (hm : received m = received wrapper.msg ++ c.input)
    (hreader : m.reader = .holding (received m) (received m).length)
    (herror : error = 0 ∧ Answer .tcp m.writer (received m) ∨
      error = errException ∧ Refusal m.writer (received m)) :
    Ended c wrapper rest (dropHead c₂ m error) where
  transport := htell.transport.trans ht
  connected := by
    change c₂.connected = true
    rw [hbus.1]
    exact hconn
  input := hbus.2.trans hinput
  queue := by
    change c₂.queue.tail = rest
    rw [htell.queue, hq]
    rfl
  log := by
    obtain ⟨δ, hlog, hδ⟩ := hlog
    obtain ⟨told, htold, hidle⟩ := htell.log
    refine ⟨m, error, δ ++ told, ?_, fun e he => ?_, hw, hm, hreader, herror⟩
    · change c₂.log ++ _ = _
      rw [htold, hlog, List.append_assoc c.log]
    · exact (List.mem_append.1 he).elim (hδ e) (hidle.idle e)

/-- Nothing of a request that has been sent can be read yet. -/
theorem handleWriteRead_waiting {m : Msg} (hunder : Underway c.transport m) (ht : c.transport = .tcp)
    (hsent : m.writer.xmit = m.writer.length)
    (hopen : (received m).length < expectedLength .tcp m.writer (received m))
    (hready : ¬ revents.pollin = true) :
    ∃ rc : ℤ, 0 < rc ∧ handleWriteRead c m revents env = ⟨rc, c, m⟩ := by
  have hout := handleWriteRead_outcome revents env hunder
  generalize handleWriteRead c m revents env = s at hout
  cases hout with
  | waits hrc => exact ⟨_, hrc, rfl⟩
  | complete _ hheld hwhole =>
    rw [← hheld.received, ht] at hwhole
    exact absurd hopen (by omega)
  | writing _ hsend => exact absurd hsend.unsent hsent.not_lt
  | reading hpollin => exact absurd hpollin hready

/-- Once the reply comes, a call takes more of it, ends with it or leaves everything alone. -/
theorem loopWriteRead_replying {later : List UInt8} (hc : WellFormed c) (ht : c.transport = .tcp)
    (hconn : c.connected) (hq : c.queue = wrapper :: rest) (htrue : Truthful c revents env)
    (hsent : wrapper.msg.writer.xmit = wrapper.msg.writer.length)
    (hs : Reply wrapper.msg.writer (received wrapper.msg ++ (c.input ++ later)))
    (hmore : c.input ++ later ≠ []) :
    OffBus c (loopWriteRead c revents env).2 ∨
      (Takes c wrapper rest (loopWriteRead c revents env).2 ∧
        (loopWriteRead c revents env).2.input ++ later ≠ []) ∨
      later = [] ∧ Ended c wrapper rest (loopWriteRead c revents env).2 := by
  have hhead : c.queue.head? = some wrapper := by rw [hq]; rfl
  have houtstanding := hc.head wrapper hhead
  have hunder := houtstanding.underway
  rw [ht] at houtstanding
  have hw := houtstanding.wholeRequest
  have hreceiving := houtstanding.receiving hsent
  have hopen := (hs.delimited hw).open hmore
  by_cases hready : revents.pollin = true
  · obtain ⟨harrived, hgot⟩ := htrue.readable hready
    have hhalf := handleWriteRead_reading env hunder.request hsent (ht ▸ hreceiving) (ht ▸ hopen)
      hready
    obtain ⟨reader, hstep, hmsg, hctx⟩ :=
      readHalf_in_reply ht hw hsent hreceiving hs harrived hconn hgot
    rw [← hhalf] at hstep hmsg hctx
    have htake := delivered_append_drop c wrapper.msg.reader env
    have hinput : (afterRead c wrapper.msg.reader env).input =
        c.input.drop (delivered c wrapper.msg.reader env).length := rfl
    obtain ⟨δ, hlog, hδ⟩ := afterRead_idle c wrapper.msg.reader env
    have hheldAll : (afterRead c wrapper.msg.reader env).input = [] →
        received wrapper.msg ++ delivered c wrapper.msg.reader env =
          received wrapper.msg ++ c.input := by
      intro hnone
      rw [hinput] at hnone
      rw [hnone, List.append_nil] at htake
      rw [htake]
    have hreceived : ∀ held n, received { wrapper.msg with reader := .holding held n } = held :=
      fun held n => Frame.bytes_holding held n
    generalize hrun : handleWriteRead c wrapper.msg revents env = s at hstep hmsg hctx
    obtain ⟨rc, ctx, m⟩ := s
    dsimp only at hstep hmsg hctx
    subst hmsg hctx
    cases hstep with
    | more hmore' hrc hheld =>
      refine .inr (.inl ?_)
      rw [loopWriteRead_more hq (by rw [hrun]; exact hrc), hrun]
      refine ⟨⟨rfl, hconn, ⟨_, rfl, rfl, ?_⟩, δ, hlog, hδ⟩, hmore'⟩
      rw [Receiving.received (m := { wrapper.msg with reader := reader }) hheld]
      change _ ++ (afterRead c wrapper.msg.reader env).input = _
      rw [List.append_assoc, hinput, htake]
    | answered hend hanswer =>
      obtain ⟨hnone, rfl⟩ := List.append_eq_nil_iff.1 hend
      have hall := hheldAll hnone
      have hcheck := hanswer.accepted hw hsent
      rw [loopWriteRead_done hq hrun rfl (by rw [afterRead_transport, ht]; exact hcheck)]
      refine .inr (.inr ⟨rfl, dropHead_ended (reportAnswer_telling _ wrapper.flags _ env)
        (reportAnswer_bus _ _ _ env) rfl hconn hnone rfl ⟨δ, hlog, hδ⟩ rfl ?_ ?_ (.inl ⟨rfl, ?_⟩)⟩)
      · rw [hreceived, hall]
      · rw [hreceived]
      · rw [hreceived]
        exact hanswer
    | refused hend hrefusal =>
      obtain ⟨hnone, rfl⟩ := List.append_eq_nil_iff.1 hend
      have hall := hheldAll hnone
      rw [loopWriteRead_refused hq hrun rfl]
      refine .inr (.inr ⟨rfl, dropHead_ended (reportError_telling _ wrapper.flags _ _ env)
        (reportError_bus _ _ _ env) rfl hconn hnone rfl ⟨δ, hlog, hδ⟩ rfl ?_ ?_ (.inr ⟨rfl, ?_⟩)⟩)
      · rw [hreceived, hall]
      · rw [hreceived]
      · rw [hreceived]
        exact hrefusal
  · obtain ⟨rc, hrc, hwaits⟩ := handleWriteRead_waiting hunder ht hsent hopen hready
    exact .inl (waits_offBus hq hrc hwaits)

end Modbusmq
