import Modbusmq.Core.Context

/-!
# One step of a request: `modbusmq_handle_write_read`

The write half sends what is left of the request, the read half reads what the
reader expects and decides from the bytes held so far whether they are the
answer, a stale frame to step over, or noise. The return value is overloaded as
in the source: 0 is complete, positive is more to do, negative is an error.
-/

namespace Modbusmq

def frameIncomplete (t : Transport) : {role : Role} → Frame role → ℕ
  | .writer, w => if t.reqHeaderMin ≤ w.length ∧ w.xmit = w.length then 0 else 1
  | .reader, r =>
    if r.length = 0 then t.resHeaderMin
    else if r.xmit < t.resHeaderMin then t.resHeaderMin - r.xmit
    else if r.xmit = r.length then 0
    else 1

def frameDelayLeft (c : Context) (now : Millitime) : Millitime :=
  let delay : ℤ := match c.config with
    | some config => config.frameDelayMs
    | none => 0
  if delay ≤ 0 ∨ c.lastReadMs + UInt64.ofInt delay ≤ now then 0
  else c.lastReadMs + UInt64.ofInt delay - now

def flush (c : Context) (env : Env) : Context :=
  { c with
    input := if c.connected then c.input.drop env.drained else c.input
    log := c.log ++ [.flushed] }

def resync (c : Context) (env : Env) : Context :=
  flush { c with resyncPending := false } env

/-- The result of a read: return value, context and frame. -/
structure ReadStep where
  rc : ℤ
  ctx : Context
  frame : Frame .reader

/-- What `read()` answers; without a descriptor it fails. -/
def readResult (c : Context) (env : Env) : ReadResult := if c.connected then env.got else .error

/-- What `send()` or `write()` answers; without a descriptor it fails. -/
def sendResult (c : Context) (env : Env) : SendResult := if c.connected then env.sent else .error

def delivered (c : Context) (r : Frame .reader) (env : Env) : List UInt8 :=
  match readResult c env with
  | .data k => c.input.take (min k r.window)
  | .wouldBlock | .error => []

/-- The `read()` call both transports make: the window starts at the cursor, and a
read that would block counts as 0 bytes. -/
def readWindow (c : Context) (r : Frame .reader) (env : Env) : ReadStep where
  rc := if readResult c env = .error then -1 else (delivered c r env).length
  ctx :=
    { c with
      input := c.input.drop (delivered c r env).length
      log := c.log ++ [.read r.xmit r.window] }
  frame := r.append (delivered c r env)

/-- The end of `modbusmq_tcp_read`: the length is refined once its field is in. -/
def tcpRefineLength (s : ReadStep) : ReadStep :=
  if s.frame.xmit < 6 then s
  else if tcpDeclared s.frame < 8 ∨ frameMax < tcpDeclared s.frame then { s with rc := -1 }
  else { s with frame := s.frame.resize (tcpDeclared s.frame) }

def tcpReadSized (c : Context) (r : Frame .reader) (env : Env) : ReadStep :=
  if r.length ≤ r.xmit ∨ frameMax < r.length then ⟨-1, c, r⟩
  else
    match readResult c env with
    | .data _ => tcpRefineLength (readWindow c r env)
    | .wouldBlock | .error => readWindow c r env

def tcpRead (c : Context) (r : Frame .reader) (env : Env) : ReadStep :=
  tcpReadSized c (if r.length = 0 then r.resize 6 else r) env

def rtuRead (c : Context) (r : Frame .reader) (env : Env) : ReadStep :=
  readWindow c (if r.length = 0 then { r with length := 8, xmit := 0 } else r) env

def readFrame (c : Context) (r : Frame .reader) (env : Env) : ReadStep :=
  match c.transport with
  | .tcp => tcpRead c r env
  | .rtu => rtuRead c r env

/-- The result of a write: return value, context and message. -/
structure WriteRead where
  rc : ℤ
  ctx : Context
  msg : Msg

def accepted (c : Context) (m : Msg) (env : Env) : ℕ :=
  match sendResult c env with
  | .accepted k => min k m.writer.window
  | .wouldBlock | .error => 0

/-- `modbusmq_write`; the two transports differ only in how the bus is driven, and a
write that would block counts as 0 bytes. -/
def writeFrame (c : Context) (m : Msg) (env : Env) : WriteRead :=
  if sendResult c env = .error then ⟨-1, c, m⟩
  else
    ⟨accepted c m env, c.note (.wrote m.serial m.writer (accepted c m env) c.input.length),
      { m with writer := { m.writer with xmit := m.writer.xmit + accepted c m env } }⟩

/-- The bytes still pending after a step, as the end of the source function
counts them: never 0 while the reader has not received a whole frame. -/
def pendingRc (t : Transport) (m : Msg) : ℤ :=
  let rc : ℤ := (m.writer.length : ℤ) - m.writer.xmit + m.reader.length - m.reader.xmit
  if rc = 0 ∧ (m.reader.length < t.resHeaderMin ∨ m.reader.xmit ≠ m.reader.length) then
    if (t.resHeaderMin : ℤ) - m.reader.xmit ≤ 0 then 1 else (t.resHeaderMin : ℤ) - m.reader.xmit
  else rc

/-- The common end of a step that moved `rc` bytes. -/
def finish (rc : ℤ) (c : Context) (m : Msg) : WriteRead :=
  if rc ≠ 0 then ⟨rc, c, m⟩ else ⟨pendingRc c.transport m, c, m⟩

/-- What the write half does before it writes: drain what a frame given up on may have
left, and stamp the time. -/
def beforeWrite (c : Context) (m : Msg) (env : Env) : Context :=
  let c := if c.resyncPending ∧ m.writer.xmit = 0 then resync c env else c
  { c with lastWriteMs := env.clock .stamp }

def writeHalf (c : Context) (m : Msg) (env : Env) : WriteRead :=
  if m.writer.xmit = 0 ∧ 0 < frameDelayLeft c (env.clock .gap) then ⟨0, c, m⟩
  else
    let s := writeFrame (beforeWrite c m env) m env
    if s.rc < 0 then ⟨-1, { s.ctx with err := s.ctx.err + 1 }, s.msg⟩
    else if s.msg.writer.length = s.msg.writer.xmit then
      -- a broadcast is done once it is on the wire
      if msgBroadcast c.transport s.msg.writer then ⟨0, s.ctx, s.msg⟩
      else finish s.rc s.ctx { s.msg with reader := armed c.transport }
    else finish s.rc s.ctx s.msg

/-- The read half once the held bytes failed the header check. -/
def headerMismatch (c : Context) (m : Msg) (env : Env) : WriteRead :=
  if 0 < msgException c.transport m.writer m.reader then ⟨errException, c, m⟩
  else
    let (rc, r) := frameDrain c.transport m.reader
    if 0 < rc then finish 0 c { m with reader := armed c.transport }
    else if rc = 0 then finish 0 c { m with reader := r }
    else
      let c := flush { c with err := c.err + 1 } env
      ⟨errProtocol, { c with resyncPending := true }, { m with reader := armed c.transport }⟩

def readHalf (c : Context) (m : Msg) (env : Env) : WriteRead :=
  let s := readFrame { c with lastReadMs := env.clock .stamp } m.reader env
  if s.rc < 0 then
    ⟨errTransport, { s.ctx with err := s.ctx.err + 1 }, { m with reader := s.frame }⟩
  else
    let (ok, r) := checkHeader c.transport m.writer s.frame
    let m := { m with reader := r }
    if ok < 0 then headerMismatch s.ctx m env
    else if r.xmit = r.length then finish 0 s.ctx m
    else finish s.rc s.ctx m

def handleWriteRead (c : Context) (m : Msg) (revents : Revents) (env : Env) : WriteRead :=
  if frameIncomplete c.transport m.writer ≠ 0 then
    if revents.pollout then writeHalf c m env else finish 0 c m
  else if frameIncomplete c.transport m.reader ≠ 0 then
    if revents.pollin then readHalf c m env else finish 0 c m
  else ⟨0, c, m⟩

end Modbusmq
