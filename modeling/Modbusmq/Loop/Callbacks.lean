import Modbusmq.Loop.Send

/-!
# Callbacks that post

The calls of the library with callbacks that call back: each may post requests
before it returns. `modbusmq_reset_queue` walks its list while the callbacks
insert into it, and frees the head it inserts behind. With callbacks that post
nothing these are the calls of the modules before this one.
-/

namespace Modbusmq

inductive Posting
  | post (slaveId : ℤ) (request : Request)
  | raw (text : String) (stray : ℕ → UInt8)

/-- What a callback does: it posts one request after the other. A raw request that is refused
has its reply callback called at once, which does `refused`. -/
inductive Reaction
  | done
  | posts (posting : Posting) (refused next : Reaction)

def Posting.perform (c : Context) : Posting → ℤ × Context
  | post slaveId request => (0, postRequest c slaveId request)
  | raw text stray => rawRequest c text stray

def Reaction.run : Reaction → Context → Context
  | done, c => c
  | posts posting refused next, c =>
    let (rc, c) := posting.perform c
    next.run (if rc < 0 then refused.run c else c)

/-- What every callback of one call does, by the length of the log once it is called. -/
abbrev Reactions := ℕ → Reaction

namespace Reentrant

variable (rs : Reactions)

/-- The callback that was noted, if one was, runs. -/
def react (before c : Context) : Context :=
  if before.log.length < c.log.length then (rs c.log.length).run c else c

def reportError (c : Context) (msg : Msg) (error : ℤ) (env : Env) : Context :=
  react rs c (Modbusmq.reportError c msg error env)

/-- Hand a poll's answer to every input it matches. -/
def deliver (c : Context) (msg : Msg) : Context :=
  (c.processConfig.inputs.filter (inputMatches c.transport msg.writer)).foldl
    (fun c input => react rs c (c.note (.delivered msg input))) c

/-- What `modbusmq_handle_msg` tells the application about an accepted answer. -/
def reportAnswer (c : Context) (flags : Flags) (msg : Msg) (env : Env) : Context :=
  match flags with
  | .post => react rs c (Modbusmq.reportAnswer c .post msg env)
  | .subscribe =>
    if c.subscribeCb then deliver rs (onceDone (slaveUpdate c msg.msgId true env) msg.msgId) msg
    else c

def handleMsg (c : Context) (wrapper : Wrapper) (env : Env) : ℤ × Context :=
  let (rc, reader) := check c.transport wrapper.msg.writer wrapper.msg.reader
  let msg := { wrapper.msg with reader := reader }
  if rc ≠ 0 then
    let c := flush { c with err := c.err + 1 } env
    let reason := rejectReason c.transport msg
    let c := reportError rs { c with resyncPending := true } msg reason env
    (errProtocol, dropHead c msg reason)
  else (0, dropHead (reportAnswer rs c wrapper.flags msg env) msg 0)

def loopWriteRead (c : Context) (revents : Revents) (env : Env) : ℤ × Context :=
  match c.queue with
  | [] =>
    if revents.pollerr ∨ revents.pollhup then (errTransport, { c with err := c.err + 1 }) else (0, c)
  | wrapper :: rest =>
    let s := handleWriteRead c wrapper.msg revents env
    let c := { s.ctx with queue := { wrapper with msg := s.msg } :: rest }
    if s.rc = 0 then
      handleMsg rs { c with tx := c.tx + 1, rx := c.rx + 1 } { wrapper with msg := s.msg } env
    else if s.rc = errException then
      let c := reportError rs { c with err := c.err + 1 } s.msg errException env
      (errProtocol, dropHead c s.msg errException)
    else if s.rc = errProtocol then
      let reason := rejectReason c.transport s.msg
      (errProtocol, dropHead (reportError rs c s.msg reason env) s.msg reason)
    else if s.rc < 0 then
      let c := reportError rs { c with err := c.err + 1 } s.msg errTransport env
      (s.rc, dropHead c s.msg errTransport)
    else (s.rc, c)

/-- The part of `modbusmq_loop_prepare` that times out the head. -/
def timeOutHead (c : Context) (env : Env) : Context :=
  match c.queue with
  | [] => c
  | wrapper :: rest =>
    let now := env.clock .head
    let wrapper := stampHead wrapper now
    let c := { c with queue := wrapper :: rest }
    let w := wrapper.msg.writer
    let requestSent : Bool := 0 < w.length ∧ w.xmit = w.length
    if requestSent ∧ c.frameTimeoutMs ≤ now - c.lastWriteMs then
      let c := dropHead (reportError rs c wrapper.msg errTimeout env) wrapper.msg errTimeout
      let c := flush { c with
        err := c.err + 1, tx := c.tx + 1, lastWriteMs := 0, lastReadMs := now } env
      { c with resyncPending := true }
    else if ¬ requestSent ∧ c.frameTimeoutMs ≤ now - wrapper.headSinceMs then
      let c := dropHead (reportError rs c wrapper.msg errTimeout env) wrapper.msg errTimeout
      let c := flush { c with err := c.err + 1, lastWriteMs := 0 } env
      { c with resyncPending := true }
    else c

def loopPrepare (c : Context) (sleepTime : Millitime) (env : Env) : Prepared :=
  if c.connected then
    prepareEvents (loopPrepareSubscription (timeOutHead rs c env) sleepTime env) env
  else ⟨false, c, sleepTime, false, false⟩

/-- The turns of `modbusmq_reset_queue` behind the first. The head is freed by now: a callback
that posts reads freed memory, and nothing can be said any more. -/
def dropRest (env : Env) : List Wrapper → Context → Option Context
  | [], c => some c
  | wrapper :: rest, c =>
    let told := Modbusmq.reportError { c with queue := wrapper :: rest } wrapper.msg errTransport env
    let after := react rs c told
    if after.serialNext ≠ told.serialNext then none
    else dropRest env rest (dropHead after wrapper.msg errTransport)

/-- Where the walk goes on behind the first entry: at the entry that was the next one before the
callback ran. -/
def walkOn (next : Option Wrapper) (behind : List Wrapper) : List Wrapper :=
  match next with
  | none => []
  | some next => behind.dropWhile fun wrapper => wrapper.msg.serial ≠ next.msg.serial

/-- `modbusmq_reset_queue`; whatever the walk has not reached is cut off at the end. -/
def resetQueue (c : Context) (env : Env) : Option Context :=
  match c.queue with
  | [] => some (onceRearm c env)
  | wrapper :: rest =>
    let after := reportError rs c wrapper.msg errTransport env
    let left := walkOn rest.head? after.queue.tail
    (dropRest rs env left { after with
      queue := left, log := after.log ++ [.released wrapper.msg errTransport] }).map
        fun c => onceRearm c env

def performCall (c : Context) (env : Env) : Call → Option Context
  | .raw text stray =>
    let (rc, after) := rawRequest c text stray
    some (if rc < 0 then react rs c after else after)
  | .prepare sleepTime => some (loopPrepare rs c sleepTime env).ctx
  | .writeRead revents => some (loopWriteRead rs c revents env).2
  | .reset => resetQueue rs c env
  | call => some (call.perform c env)

/-- The loop condition of `modbusmq_send`, and what follows the loop. -/
def sendTest (c : Context) (s : SendState) (env : Env) : Context × Option SendState :=
  if env.clock .now - s.startMs < s.waitMs then (c, some s)
  else if 0 < s.result then sendDone (reportError rs c s.msg errTimeout env) s.msg errTimeout
  else sendDone c s.msg s.result

/-- A turn of `modbusmq_send` in which the descriptor is ready. -/
def sendReady (c : Context) (s : SendState) (revents : Revents) (env : Env) :
    Context × Option SendState :=
  let h := handleWriteRead c s.msg revents env
  if h.rc = errProtocol then
    sendTest rs (reportError rs h.ctx h.msg (rejectReason h.ctx.transport h.msg) env)
      { s with msg := h.msg, result := errProtocol } env
  else if h.rc = errException then
    sendDone (reportError rs h.ctx h.msg errException env) h.msg errException
  else if h.rc < 0 then sendDone (reportError rs h.ctx h.msg errTransport env) h.msg errTransport
  else if h.rc = 0 then
    let (rc, reader) := check h.ctx.transport h.msg.writer h.msg.reader
    let msg := { h.msg with reader := reader }
    if rc ≠ 0 then
      let c := { flush h.ctx env with resyncPending := true }
      let reason := rejectReason c.transport msg
      sendDone (reportError rs c msg reason env) msg reason
    else sendDone h.ctx msg 0
  else sendTest rs h.ctx { s with msg := h.msg } env

def sendTurn (c : Context) (s : SendState) (answer : PollAnswer) (env : Env) :
    Context × Option SendState :=
  match answer with
  | .interrupted => sendTest rs c s env
  | .failed => sendDone c s.msg errTransport
  | .ready revents =>
    let revents := revents.among (sendEvents c s.msg (env.clock .now))
    if revents.pollin ∨ revents.pollout then sendReady rs c s revents env
    else sendTest rs c s env

def perform (w : World) (env : Env) : Action → Option World
  | .call made =>
    match w.sending, made with
    | none, made => (performCall rs w.ctx env made).map fun c => { w with ctx := c }
    | some _, .arrive bytes => some { w with ctx := Call.perform w.ctx env (.arrive bytes) }
    | some _, _ => some w
  | .send slaveId request mswait => some (Action.perform w env (.send slaveId request mswait))
  | .turn answer =>
    match w.sending with
    | some s =>
      let (c, s) := sendTurn rs w.ctx s answer env
      some ⟨c, s⟩
    | none => some w

/-- An action, what the operating system answers during it, and what its callbacks do. -/
structure Turn where
  action : Action
  env : Env
  reactions : Reactions

def run : List Turn → World → Option World
  | [], w => some w
  | turn :: turns, w => (perform turn.reactions w turn.env turn.action).bind (run turns)

def silent : Reactions := fun _ => .done

@[simp] theorem react_silent (before c : Context) : react silent before c = c := by
  unfold react
  split_ifs <;> rfl

@[simp] theorem reportError_silent (c : Context) (msg : Msg) (error : ℤ) (env : Env) :
    reportError silent c msg error env = Modbusmq.reportError c msg error env :=
  react_silent ..

@[simp] theorem reportAnswer_silent (c : Context) (flags : Flags) (msg : Msg) (env : Env) :
    reportAnswer silent c flags msg env = Modbusmq.reportAnswer c flags msg env := by
  cases flags with
  | post => exact react_silent ..
  | subscribe =>
    have hdeliver : ∀ c : Context, deliver silent c msg = Modbusmq.deliver c msg := by
      intro c
      have hfold : ∀ (inputs : List Input) (c : Context),
          inputs.foldl (fun c input => react silent c (c.note (.delivered msg input))) c =
            { c with log := c.log ++ inputs.map fun input => .delivered msg input } := by
        intro inputs
        induction inputs with
        | nil => exact fun c => by simp
        | cons input inputs ih =>
          intro c
          rw [List.foldl_cons, react_silent, ih]
          simp [Context.note]
      exact hfold _ c
    unfold reportAnswer Modbusmq.reportAnswer
    simp only [hdeliver]

theorem handleMsg_silent (c : Context) (wrapper : Wrapper) (env : Env) :
    handleMsg silent c wrapper env = Modbusmq.handleMsg c wrapper env := by
  unfold handleMsg Modbusmq.handleMsg
  simp only [reportError_silent, reportAnswer_silent]

theorem loopWriteRead_silent (c : Context) (revents : Revents) (env : Env) :
    loopWriteRead silent c revents env = Modbusmq.loopWriteRead c revents env := by
  unfold loopWriteRead Modbusmq.loopWriteRead
  cases c.queue with
  | nil => rfl
  | cons wrapper rest => simp only [reportError_silent, handleMsg_silent]

theorem loopPrepare_silent (c : Context) (sleepTime : Millitime) (env : Env) :
    loopPrepare silent c sleepTime env = Modbusmq.loopPrepare c sleepTime env := by
  have htimeout : timeOutHead silent c env = Modbusmq.timeOutHead c env := by
    unfold timeOutHead Modbusmq.timeOutHead
    cases c.queue with
    | nil => rfl
    | cons wrapper rest => simp only [reportError_silent]
  unfold loopPrepare Modbusmq.loopPrepare
  rw [htimeout]

theorem dropRest_silent (env : Env) (queue : List Wrapper) (c : Context) :
    dropRest silent env queue c = some (dropAll env queue c) := by
  induction queue generalizing c with
  | nil => rfl
  | cons wrapper rest ih =>
    unfold dropRest dropAll
    simp only [react_silent, ne_eq, not_true, if_false]
    exact ih _

theorem resetQueue_silent (c : Context) (env : Env) :
    resetQueue silent c env = some (Modbusmq.resetQueue c env) := by
  unfold resetQueue Modbusmq.resetQueue
  cases hq : c.queue with
  | nil => rfl
  | cons wrapper rest =>
    have hsame : ({ c with queue := wrapper :: rest } : Context) = c := by rw [← hq]
    have hqueue : (Modbusmq.reportError c wrapper.msg errTransport env).queue = wrapper :: rest :=
      (reportError_telling c wrapper.flags wrapper.msg errTransport env).queue.trans hq
    have hleft : walkOn rest.head? rest = rest := by
      cases rest with
      | nil => rfl
      | cons next rest => simp [walkOn, List.dropWhile]
    have hwalk : dropAll env (wrapper :: rest) c = dropAll env rest
        (dropHead (Modbusmq.reportError { c with queue := wrapper :: rest } wrapper.msg
          errTransport env) wrapper.msg errTransport) := rfl
    simp only [reportError_silent, hqueue, List.tail_cons, hleft, dropRest_silent, Option.map_some]
    rw [hwalk, hsame, dropHead, hqueue]
    rfl

theorem performCall_silent (c : Context) (env : Env) (call : Call) :
    performCall silent c env call = some (call.perform c env) := by
  cases call with
  | raw text stray =>
    unfold performCall
    simp only [react_silent, ite_self]
    rfl
  | prepare sleepTime => exact congrArg (fun p => some p.ctx) (loopPrepare_silent ..)
  | writeRead revents => exact congrArg (fun p => some p.2) (loopWriteRead_silent ..)
  | reset => exact resetQueue_silent ..
  | _ => rfl

theorem sendTest_silent (c : Context) (s : SendState) (env : Env) :
    sendTest silent c s env = Modbusmq.sendTest c s env := by
  unfold sendTest Modbusmq.sendTest
  rw [reportError_silent]

theorem sendReady_silent (c : Context) (s : SendState) (revents : Revents) (env : Env) :
    sendReady silent c s revents env = Modbusmq.sendReady c s revents env := by
  unfold sendReady Modbusmq.sendReady
  simp only [reportError_silent, sendTest_silent]

theorem sendTurn_silent (c : Context) (s : SendState) (answer : PollAnswer) (env : Env) :
    sendTurn silent c s answer env = Modbusmq.sendTurn c s answer env := by
  cases answer with
  | interrupted => exact sendTest_silent ..
  | failed => rfl
  | ready revents =>
    unfold sendTurn Modbusmq.sendTurn
    simp only [sendReady_silent, sendTest_silent]

/-- Without posting callbacks an action is the action of the model before. -/
theorem perform_silent (w : World) (env : Env) (action : Action) :
    perform silent w env action = some (action.perform w env) := by
  cases action with
  | call made =>
    unfold perform Action.perform
    cases w.sending with
    | none => simp only [performCall_silent, Option.map_some]
    | some s => cases made <;> rfl
  | send slaveId request mswait => rfl
  | turn answer =>
    unfold perform Action.perform
    cases w.sending with
    | none => rfl
    | some s => simp only [sendTurn_silent]

end Reentrant

end Modbusmq
