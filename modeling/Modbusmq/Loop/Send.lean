import Modbusmq.Loop.Run

/-!
# The blocking send

`modbusmq_send` drives one request of its own, next to the queue, until it is
answered, fails or the wait expires. One turn of its `do`-loop is one step here,
so that bytes may arrive between two turns. No other call of the library is
made while it runs.
-/

namespace Modbusmq

/-- The locals of `modbusmq_send` between two turns: 1 in `result` is "no complete
response yet". -/
structure SendState where
  msg : Msg
  result : ℤ
  startMs : Millitime
  waitMs : Millitime

/-- What `poll()` answers; `ready` without an event is its timeout. -/
inductive PollAnswer
  | interrupted
  | failed
  | ready (revents : Revents)

def sendStart (c : Context) (writer : Frame .writer) (mswait : ℤ) (env : Env) :
    Context × SendState :=
  let reqId := nextReqId c.reqIdNext
  let transactionId := nextTransaction c.transport c.transactionId
  let msg := preparedMsg c.transport transactionId
    { Msg.ofFrame 0 writer with reqId := reqId, serial := c.serialNext }
  ({ c with reqIdNext := reqId, transactionId := transactionId, serialNext := c.serialNext + 1 },
    { msg := msg
      result := 1
      startMs := env.clock .start
      waitMs := if 0 < mswait then UInt64.ofInt mswait else 0 })

def sendEvents (c : Context) (m : Msg) (now : Millitime) : Revents :=
  if frameIncomplete c.transport m.writer ≠ 0 then
    ⟨false, ¬ (m.writer.xmit = 0 ∧ 0 < frameDelayLeft c now), false, false⟩
  else ⟨frameIncomplete c.transport m.reader ≠ 0, false, false, false⟩

/-- `poll()` reports what was asked for, and errors. -/
def Revents.among (revents asked : Revents) : Revents where
  pollin := revents.pollin && asked.pollin
  pollout := revents.pollout && asked.pollout
  pollerr := revents.pollerr
  pollhup := revents.pollhup

def sendDone (c : Context) (m : Msg) (error : ℤ) : Context × Option SendState :=
  (c.note (.released m error), none)

/-- The loop condition, and what follows the loop when the wait has expired. -/
def sendTest (c : Context) (s : SendState) (env : Env) : Context × Option SendState :=
  if env.clock .now - s.startMs < s.waitMs then (c, some s)
  else if 0 < s.result then sendDone (reportError c s.msg errTimeout env) s.msg errTimeout
  else sendDone c s.msg s.result

def sendReady (c : Context) (s : SendState) (revents : Revents) (env : Env) :
    Context × Option SendState :=
  let h := handleWriteRead c s.msg revents env
  if h.rc = errProtocol then
    -- the reader has been rearmed: wait on, but remember the failure
    sendTest (reportError h.ctx h.msg (rejectReason h.ctx.transport h.msg) env)
      { s with msg := h.msg, result := errProtocol } env
  else if h.rc = errException then
    sendDone (reportError h.ctx h.msg errException env) h.msg errException
  else if h.rc < 0 then sendDone (reportError h.ctx h.msg errTransport env) h.msg errTransport
  else if h.rc = 0 then
    let (rc, reader) := check h.ctx.transport h.msg.writer h.msg.reader
    let msg := { h.msg with reader := reader }
    if rc ≠ 0 then
      let c := { flush h.ctx env with resyncPending := true }
      let reason := rejectReason c.transport msg
      sendDone (reportError c msg reason env) msg reason
    else sendDone h.ctx msg 0
  else sendTest h.ctx { s with msg := h.msg } env

def sendTurn (c : Context) (s : SendState) (answer : PollAnswer) (env : Env) :
    Context × Option SendState :=
  match answer with
  | .interrupted => sendTest c s env
  | .failed => sendDone c s.msg errTransport
  | .ready revents =>
    let revents := revents.among (sendEvents c s.msg (env.clock .now))
    if revents.pollin ∨ revents.pollout then sendReady c s revents env else sendTest c s env

/-- A context and the blocking send that is running on it. -/
structure World where
  ctx : Context
  sending : Option SendState

/-- A call of the library, the start of a blocking send or a turn of it. -/
inductive Action
  | call (call : Call)
  | send (slaveId : ℤ) (request : Request) (mswait : ℤ)
  | turn (answer : PollAnswer)

/-- The world after an action. While a send runs, only its turns and arriving bytes change
anything. -/
def Action.perform (w : World) (env : Env) : Action → World
  | .call made =>
    match w.sending, made with
    | none, made => { w with ctx := made.perform w.ctx env }
    | some _, .arrive bytes => { w with ctx := Call.perform w.ctx env (.arrive bytes) }
    | some _, _ => w
  | .send slaveId request mswait =>
    match w.sending, request.build w.ctx.transport slaveId with
    | none, some writer =>
      let (c, s) := sendStart (setSlave w.ctx slaveId) writer mswait env
      ⟨c, some s⟩
    | none, none => { w with ctx := setSlave w.ctx slaveId }
    | some _, _ => w
  | .turn answer =>
    match w.sending with
    | some s =>
      let (c, s) := sendTurn w.ctx s answer env
      ⟨c, s⟩
    | none => w

def World.run (actions : List (Action × Env)) (w : World) : World :=
  actions.foldl (fun w action => action.1.perform w action.2) w

@[simp] theorem World.run_nil (w : World) : World.run [] w = w := rfl

@[simp] theorem World.run_cons (action : Action × Env) (actions : List (Action × Env)) (w : World) :
    World.run (action :: actions) w = World.run actions (action.1.perform w action.2) := rfl

/-- A condition on every action of a run, each in the world it is taken in. -/
def World.Along (Q : World → Env → Action → Prop) : List (Action × Env) → World → Prop
  | [], _ => True
  | action :: actions, w =>
    Q w action.2 action.1 ∧ World.Along Q actions (action.1.perform w action.2)

end Modbusmq
