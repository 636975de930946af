import Modbusmq.Core.Config
import Modbusmq.Transport.Dispatch

/-!
# The context, its queue and its timers

`modbusmq_context_t` with the queue and timer lists it owns, and what the
operating system answers during one library call. Two parts of the state are
not in the source: `input`, the bytes that have arrived and are not read yet,
and the ghosts `serialNext` and `log`, a record of what the library did that
no decision depends on.
-/

namespace Modbusmq

/-- `millitime_t`, so time arithmetic wraps as it does in the source. -/
abbrev Millitime := UInt64

def errTransport : ℤ := -1
def errProtocol : ℤ := -2
def errTimeout : ℤ := -3
def errException : ℤ := -4

/-- `MODBUSMQ_MSG_POST` and `MODBUSMQ_MSG_SUBSCRIBE`. -/
inductive Flags
  | post
  | subscribe
  deriving DecidableEq, Repr

structure Wrapper where
  flags : Flags
  headSinceMs : Millitime
  msg : Msg

structure Timer where
  timerId : ℕ
  timerStart : Millitime
  timerNextTime : Millitime
  timerInterval : Millitime
  origInterval : Millitime
  tier : Tier
  slave : ℕ
  isOnce : Bool
  misses : ℕ
  unresponsive : Bool
  retryMs : UInt32
  retryAt : Millitime
  msg : Msg

structure RawSlot where
  text : String
  reqId : UInt32
  count : ℕ
  fc : ℕ

/-- What the application is told about a request. -/
inductive Report
  | message
  | error (code : ℤ)
  | raw (line : String)

inductive Event
  /-- a request entered the queue -/
  | posted (flags : Flags) (msg : Msg)
  /-- `send()` or `write()` was called and took `count` bytes of request `serial` from
  `writer.xmit` on, with `unread` bytes waiting in the receive buffer -/
  | wrote (serial : ℕ) (writer : Frame .writer) (count unread : ℕ)
  /-- `read()` was called with this offset and window into the frame buffer -/
  | read (offset window : ℕ)
  /-- `modbusmq_flush` was called -/
  | flushed
  /-- a raw request was refused with this line -/
  | refused (line : String)
  /-- a message, error or raw reply callback ran -/
  | reported (msg : Msg) (report : Report)
  /-- the subscription callback ran -/
  | delivered (msg : Msg) (input : Input)
  /-- the request was completed or given up, and left the queue if it was in it; `error` is
  0 after an answer and a `MODBUSMQ_ERR_*` code otherwise -/
  | released (msg : Msg) (error : ℤ)
  /-- `modbusmq_connect` opened a connection -/
  | connected

/-- `modbusmq_context_t`. `processConfig` is what `modbusmq_config_get` returns, which
belongs to the process; `config` is what `modbusmq_set_config` was given. -/
structure Context where
  transport : Transport
  slaveId : ℤ
  connected : Bool
  lastWriteMs : Millitime
  lastReadMs : Millitime
  frameTimeoutMs : Millitime
  queue : List Wrapper
  timers : List Timer
  roundActive : Bool
  roundStartMs : Millitime
  roundCount : UInt32
  roundLastMs : Millitime
  roundDeepSlave : ℤ
  roundFocus : ℤ
  resyncPending : Bool
  messageCb : Bool
  subscribeCb : Bool
  errorCb : Bool
  raw : Option RawSlot
  reqIdNext : UInt32
  config : Option Config
  processConfig : Config
  transactionId : ℕ
  timerIdNext : ℕ
  tx : UInt32
  rx : UInt32
  err : UInt32
  input : List UInt8
  serialNext : ℕ
  log : List Event

/-- The context `modbusmq_tcp_context` or `modbusmq_rtu_context` allocates. -/
def newContext (t : Transport) : Context where
  transport := t
  slaveId := 0xff
  connected := false
  lastWriteMs := 0
  lastReadMs := 0
  frameTimeoutMs := 0
  queue := []
  timers := []
  roundActive := false
  roundStartMs := 0
  roundCount := 0
  roundLastMs := 0
  roundDeepSlave := -1
  roundFocus := -1
  resyncPending := false
  messageCb := false
  subscribeCb := false
  errorCb := false
  raw := none
  reqIdNext := 0
  config := none
  processConfig := ⟨[], 0, .parallell, 0, 0, 0, false⟩
  transactionId := 0
  timerIdNext := 0
  tx := 0
  rx := 0
  err := 0
  input := []
  serialNext := 0
  log := []

namespace Context

/-- Append to the ghost log. -/
def note (c : Context) (e : Event) : Context := { c with log := c.log ++ [e] }

end Context

/-- What `read()` answers: up to `k` of the bytes that have arrived, or nothing
for now, or an error. `data 0` is end of file. -/
inductive ReadResult
  | data (k : ℕ)
  | wouldBlock
  | error
  deriving DecidableEq, Repr

inductive SendResult
  | accepted (k : ℕ)
  | wouldBlock
  | error
  deriving DecidableEq, Repr

structure Revents where
  pollin : Bool
  pollout : Bool
  pollerr : Bool
  pollhup : Bool
  deriving DecidableEq, Repr

/-- The places of the source that read the clock. One call reads it at most
once at each, so its readings are a function of the place. -/
inductive Site
  | head
  | update
  | due
  | gap
  | stamp
  | turn (i : ℕ)
  | fast (i : ℕ)
  | deep (i : ℕ)
  | focus (i : ℕ)
  | rearm (i : ℕ)
  | start
  | now
  deriving DecidableEq, Repr

/-- What the operating system answers during one library call. `drained` is how
many bytes a drain gets before it stops. -/
structure Env where
  clock : Site → Millitime
  sent : SendResult
  got : ReadResult
  drained : ℕ

end Modbusmq
