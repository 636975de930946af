import Modbusmq.Core.WriteRead
import Modbusmq.Decoding.Channels
import Modbusmq.Loop.Timers

/-!
# Telling the application

How a request that failed or was answered is reported, and how the head leaves
the queue. Callbacks are events of the log; they do not call back into the
library here.
-/

namespace Modbusmq

def strerror (error : ℤ) : String :=
  if error = errTransport then "connection lost"
  else if error = errProtocol then "frame rejected, stream resynced"
  else if error = errTimeout then "no response within frame timeout"
  else "device returned a Modbus exception"

/-- `modbusmq_raw_reply`: the slot is cleared and its line handed over. -/
def rawReply (c : Context) (slot : RawSlot) (msg : Msg) (result : String) : Context :=
  { c with
    raw := none
    log := c.log ++ [.reported msg (.raw (slot.text ++ " -> " ++ result))] }

def rawPending (c : Context) (msg : Msg) : Option RawSlot :=
  c.raw.filter fun slot => msg.reqId = slot.reqId

def rawError (c : Context) (slot : RawSlot) (msg : Msg) (error : ℤ) : Context :=
  rawReply c slot msg
    (if error = errException then
      let code := frameExceptionCode c.transport msg.reader
      "error exception " ++ toString code ++ " " ++ exceptionString code
    else "error " ++ strerror error)

def rawDone (c : Context) (slot : RawSlot) (msg : Msg) : Context :=
  rawReply c slot msg (rawResult c.transport slot.fc slot.count msg.reader)

def reportError (c : Context) (msg : Msg) (error : ℤ) (env : Env) : Context :=
  match rawPending c msg with
  | some slot => rawError c slot msg error
  | none =>
    let c :=
      if 0 < msg.msgId ∧ (error = errTimeout ∨ error = errException) then
        slaveUpdate c msg.msgId (error = errException) env
      else c
    if c.errorCb then c.note (.reported msg (.error error)) else c

def rejectReason (t : Transport) (msg : Msg) : ℤ :=
  if 0 < msgException t msg.writer msg.reader then errException else errProtocol

def dropHead (c : Context) (msg : Msg) (error : ℤ) : Context :=
  { c with queue := c.queue.tail, log := c.log ++ [.released msg error] }

def onceDone (c : Context) (timerId : ℕ) : Context :=
  match timerFind c.timers timerId with
  | none => c
  | some timer =>
    { c with
      timers := c.timers.map fun t =>
        if t.timerId = timerId ∧ timer.isOnce then { t with timerNextTime := neverAgain } else t }

/-- Hand a poll's answer to every input it matches. -/
def deliver (c : Context) (msg : Msg) : Context :=
  { c with
    log := c.log ++ (c.processConfig.inputs.filter (inputMatches c.transport msg.writer)).map
      fun input => .delivered msg input }

/-- What `modbusmq_handle_msg` tells the application about an accepted answer. -/
def reportAnswer (c : Context) (flags : Flags) (msg : Msg) (env : Env) : Context :=
  match flags with
  | .post =>
    match rawPending c msg with
    | some slot => rawDone c slot msg
    | none => if c.messageCb then c.note (.reported msg .message) else c
  | .subscribe =>
    if c.subscribeCb then deliver (onceDone (slaveUpdate c msg.msgId true env) msg.msgId) msg
    else c

def handleMsg (c : Context) (wrapper : Wrapper) (env : Env) : ℤ × Context :=
  let (rc, reader) := check c.transport wrapper.msg.writer wrapper.msg.reader
  let msg := { wrapper.msg with reader := reader }
  if rc ≠ 0 then
    let c := flush { c with err := c.err + 1 } env
    let reason := rejectReason c.transport msg
    let c := reportError { c with resyncPending := true } msg reason env
    (errProtocol, dropHead c msg reason)
  else (0, dropHead (reportAnswer c wrapper.flags msg env) msg 0)

def loopWriteRead (c : Context) (revents : Revents) (env : Env) : ℤ × Context :=
  match c.queue with
  | [] =>
    if revents.pollerr ∨ revents.pollhup then (errTransport, { c with err := c.err + 1 }) else (0, c)
  | wrapper :: rest =>
    let s := handleWriteRead c wrapper.msg revents env
    let c := { s.ctx with queue := { wrapper with msg := s.msg } :: rest }
    if s.rc = 0 then
      handleMsg { c with tx := c.tx + 1, rx := c.rx + 1 } { wrapper with msg := s.msg } env
    else if s.rc = errException then
      let c := reportError { c with err := c.err + 1 } s.msg errException env
      (errProtocol, dropHead c s.msg errException)
    else if s.rc = errProtocol then
      let reason := rejectReason c.transport s.msg
      (errProtocol, dropHead (reportError c s.msg reason env) s.msg reason)
    else if s.rc < 0 then
      let c := reportError { c with err := c.err + 1 } s.msg errTransport env
      (s.rc, dropHead c s.msg errTransport)
    else (s.rc, c)

/-- The loop of `modbusmq_reset_queue`: every request is reported on its way out. -/
def dropAll (env : Env) : List Wrapper → Context → Context
  | [], c => c
  | wrapper :: rest, c =>
    dropAll env rest
      (dropHead (reportError { c with queue := wrapper :: rest } wrapper.msg errTransport env)
        wrapper.msg errTransport)

def resetQueue (c : Context) (env : Env) : Context := onceRearm (dropAll env c.queue c) env

/-- `modbusmq_connect`; a connection that fails leaves the old descriptor. -/
def connect (c : Context) (opened : Bool) : ℤ × Context :=
  if opened then
    (0, { c with connected := true, input := [], resyncPending := true, log := c.log ++ [.connected] })
  else (-1, c)

def close (c : Context) : Context := { c with connected := false, input := [] }

end Modbusmq
