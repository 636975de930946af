import Mathlib.Data.UInt
import Modbusmq.Core.Requests

/-!
# Subscription timers

`modbusmq_subscribe` with its three ways to order the timer list, the backoff
of slaves that do not answer, and the re-arming of inputs that are read once.
The backoff fields are kept in every timer of a slave, as in the source.
-/

namespace Modbusmq

def slaveMissMax : ℕ := 3

def slaveRetryFirstMs : UInt32 := 1000

def onceRetryMs : Millitime := 10000

/-- `UINT64_MAX`, the due time of a once input that has been read. -/
def neverAgain : Millitime := 0xFFFFFFFFFFFFFFFF

theorem toNat_interval {k : ℤ} (hlo : 0 < k) (hhi : k < 2 ^ 31) :
    ((UInt64.ofInt k).toNat : ℤ) = k := by
  rw [UInt64.ofInt, UInt64.toNat_ofNat']
  omega

theorem toNat_since {now last : Millitime} (h : last ≤ now) :
    ((now - last).toNat : ℤ) = now.toNat - last.toNat := by
  rw [UInt64.toNat_sub_of_le _ _ h]
  have hle := UInt64.le_iff_toNat_le.1 h
  omega

def timerFind (timers : List Timer) (timerId : ℕ) : Option Timer :=
  timers.find? (·.timerId = timerId)

/-- The end of `modbusmq_slave_update`: one verdict for every timer of the slave. -/
def slaveSettle (now : Millitime) (slave misses : ℕ) (unresponsive : Bool) (retryMs : UInt32)
    (t : Timer) : Timer :=
  if t.slave ≠ slave then t
  else
    -- the device may have been swapped, so its once values are read again
    { t with
      timerNextTime :=
        if t.unresponsive ∧ ¬ unresponsive ∧ t.isOnce then now else t.timerNextTime
      misses := misses
      unresponsive := unresponsive
      retryMs := retryMs
      retryAt := now + retryMs.toUInt64 }

def slaveUpdate (c : Context) (timerId : ℕ) (answered : Bool) (env : Env) : Context :=
  let retryMax : ℤ := match c.config with
    | some config => config.slaveRetryMaxMs
    | none => 0
  let now := env.clock .update
  match timerFind c.timers timerId with
  | none => c
  | some timer =>
    if answered then
      { c with timers := c.timers.map (slaveSettle now timer.slave 0 false 0) }
    else if retryMax ≤ 0 then c
    else if ¬ timer.unresponsive then
      if timer.misses + 1 < slaveMissMax then
        { c with
          timers := c.timers.map fun t =>
            if t.slave = timer.slave then { t with misses := timer.misses + 1 } else t }
      else
        let retryMs := min slaveRetryFirstMs (UInt32.ofInt retryMax)
        { c with
          timers := c.timers.map (slaveSettle now timer.slave (timer.misses + 1) true retryMs) }
    else
      let retryMs := min (timer.retryMs * 2) (UInt32.ofInt retryMax)
      { c with timers := c.timers.map (slaveSettle now timer.slave timer.misses true retryMs) }

/-- `modbusmq_slave_gate`: may this timer be posted, and the timers after asking. -/
def slaveGate (c : Context) (timer : Timer) (now : Millitime) : Bool × Context :=
  if ¬ timer.unresponsive then (true, c)
  else if now < timer.retryAt then (false, c)
  else
    (true, { c with
      timers := c.timers.map fun t =>
        if t.slave = timer.slave then { t with retryAt := now + timer.retryMs.toUInt64 } else t })

/-- Whether an input describes a request, on slave, function and address. -/
def inputMatches (t : Transport) (w : Frame .writer) (input : Input) : Bool :=
  input.slave = (frameSlave t w).toNat ∧ input.type.code = (frameFunction t w).toNat ∧
    input.address + input.addressOffset = frameAddr t w

def msgInput (c : Context) (w : Frame .writer) : Option Input :=
  match c.config with
  | some config => config.inputs.find? (inputMatches c.transport w)
  | none => none

theorem msgInput_of_config {c : Context} {config : Config} (h : c.config = some config)
    (w : Frame .writer) :
    msgInput c w = config.inputs.find? (inputMatches c.transport w) := by
  unfold msgInput
  rw [h]

/-- Put a repeating timer into the list of parallel mode, behind its equals. -/
def insertParallel (timers : List Timer) (timer : Timer) : List Timer :=
  timers.takeWhile (fun t => ¬ timer.timerInterval < t.timerInterval) ++
    timer :: timers.dropWhile (fun t => ¬ timer.timerInterval < t.timerInterval)

/-- Put a repeating timer at the end of a series, which then takes as long as all of
its intervals. -/
def insertSeries (timers : List Timer) (timer : Timer) : List Timer :=
  let total := (timers.map (·.origInterval)).sum + timer.origInterval
  let last := timers.getLast?.elim 0 (·.timerNextTime)
  (timers ++ [{ timer with timerNextTime := last + timer.origInterval }]).map fun t : Timer =>
    if t.isOnce then t else { t with timerInterval := total }

def insertTimer (mode : QueryMode) (timers : List Timer) (timer : Timer) : List Timer :=
  match timers with
  | [] => [timer]
  | head :: _ =>
    if timer.isOnce ∧ mode ≠ .rounds then timer :: timers
    else
      match mode with
      | .rounds => timers ++ [timer]
      | .parallell =>
        insertParallel timers
          { timer with timerStart := head.timerStart, timerNextTime := head.timerStart }
      | .series => insertSeries timers { timer with timerStart := head.timerStart }

theorem insertTimer_rounds (timers : List Timer) (timer : Timer) :
    insertTimer .rounds timers timer = timers ++ [timer] := by
  unfold insertTimer
  cases timers with
  | nil => rfl
  | cons head rest => simp

def newTimer (c : Context) (config : Config) (msg : Msg) (interval : ℤ) (env : Env) : Timer :=
  let once : Bool := interval = intervalOnce
  { timerId := c.timerIdNext + 1
    timerStart := env.clock .head
    timerNextTime := env.clock .head
    timerInterval := if once then onceRetryMs else UInt64.ofInt interval
    origInterval := if once then 0 else UInt64.ofInt interval
    tier :=
      if config.queryMode = .rounds then (msgInput c msg.writer).elim .fast (·.tier) else .fast
    slave := (frameSlave c.transport msg.writer).toNat
    isOnce := once
    misses := 0
    unresponsive := false
    retryMs := 0
    retryAt := 0
    msg := msg }

/-- `modbusmq_subscribe`; without a configuration it fails, and an interval outside its
assertion never gets here. -/
def subscribe (c : Context) (msg : Msg) (interval : ℤ) (env : Env) : ℤ × Context :=
  match c.config with
  | none => (-1, c)
  | some config =>
    if config.queryMode ≠ .rounds ∧ interval ≤ 0 ∧ interval ≠ intervalOnce then (-1, c)
    else
      (0, { c with
        timerIdNext := c.timerIdNext + 1
        timers := insertTimer config.queryMode c.timers (newTimer c config msg interval env) })

def onceRearm (c : Context) (env : Env) : Context :=
  { c with
    timers := c.timers.mapIdx fun i t =>
      if t.isOnce then { t with timerNextTime := env.clock (.rearm i) } else t }

end Modbusmq
