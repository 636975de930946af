import Mathlib.Logic.Relation
import Modbusmq.Loop.Reporting

/-!
# Preparing one turn of the loop

`modbusmq_loop_prepare`: time out the head, post the polls that are due, one
timer at a time or a round at a time, and say how long to sleep and what to
wait for.
-/

namespace Modbusmq

/-- A context and the sleep time that has been found so far. -/
structure Scheduled where
  ctx : Context
  sleepTime : Millitime

/-- Post the poll of timer `i`; its template keeps the stamped request id. -/
def postTimer (c : Context) (i : ℕ) : Context :=
  match c.timers[i]? with
  | none => c
  | some timer =>
    let c := postInternal c { timer.msg with msgId := timer.timerId } .subscribe
    { c with
      timers := c.timers.modify i fun t =>
        { t with msg := { t.msg with msgId := t.timerId, reqId := c.reqIdNext } } }

/-- Post the poll of a timer if the gate of its slave lets it. -/
def gatePost (c : Context) (timer : Timer) (now : Millitime) (i : ℕ) : Context :=
  if (slaveGate c timer now).1 then postTimer (slaveGate c timer now).2 i
  else (slaveGate c timer now).2

def advanceTimer (c : Context) (i : ℕ) : Context :=
  { c with
    timers := c.timers.modify i fun t =>
      { t with timerNextTime := t.timerNextTime + t.timerInterval } }

/-- One turn of the timer walk of `modbusmq_loop_prepare_subscription`. -/
def pollTimer (now : Millitime) (s : Scheduled) (i : ℕ) : Scheduled :=
  match s.ctx.timers[i]? with
  | none => s
  | some timer =>
    let c :=
      if timer.timerNextTime ≤ now ∧ ¬ s.ctx.queue.any (·.msg.msgId = timer.timerId) then
        advanceTimer (gatePost s.ctx timer now i) i
      else s.ctx
    let due := c.timers[i]?.elim 0 (·.timerNextTime)
    { ctx := c, sleepTime := min s.sleepTime (due - now) }

def roundBusy (c : Context) : Bool := c.queue.any (·.flags = .subscribe)

/-- The slaves with deep inputs, in the order of the round list; one that does not answer
has no turn before its probe is due. -/
def deepOrder (c : Context) (env : Env) : List ℕ :=
  c.timers.zipIdx.foldl
    (fun order (timer, i) =>
      if timer.tier ≠ .deep ∨ timer.slave ∈ order ∨
          (timer.unresponsive ∧ env.clock (.turn i) < timer.retryAt) then order
      else order ++ [timer.slave]) []

def roundNextDeepSlave (c : Context) (env : Env) : ℤ :=
  let order := deepOrder c env
  match order with
  | [] => -1
  | first :: _ =>
    match order.findIdx? (fun slave : ℕ => (slave : ℤ) = c.roundDeepSlave) with
    | some i => (order.getD ((i + 1) % order.length) first : ℕ)
    | none => first

def roundPostTimer (tier : Tier) (slave : ℤ) (clock : ℕ → Millitime) (c : Context) (i : ℕ) :
    Context :=
  match c.timers[i]? with
  | none => c
  | some timer =>
    if timer.tier ≠ tier ∨ (0 ≤ slave ∧ (timer.slave : ℤ) ≠ slave) then c
    else if timer.isOnce ∧ timer.timerNextTime = neverAgain then c
    else gatePost c timer (clock i) i

def roundPost (c : Context) (tier : Tier) (slave : ℤ) (clock : ℕ → Millitime) : Context :=
  (List.range c.timers.length).foldl (roundPostTimer tier slave clock) c

/-- A round that starts now: every fast input, the deep inputs of the slave whose turn it
is, and those of the focus slave. -/
def roundStart (c : Context) (env : Env) : Context :=
  let deepSlave := roundNextDeepSlave c env
  let c := { c with
    roundActive := true, roundStartMs := env.clock .due, roundCount := c.roundCount + 1 }
  let c := roundPost c .fast (-1) (env.clock ∘ .fast)
  let c :=
    if 0 ≤ deepSlave then
      { roundPost c .deep deepSlave (env.clock ∘ .deep) with roundDeepSlave := deepSlave }
    else c
  if 0 ≤ c.roundFocus ∧ c.roundFocus ≠ deepSlave then
    roundPost c .deep c.roundFocus (env.clock ∘ .focus)
  else c

def loopPrepareRounds (c : Context) (config : Config) (sleepTime : Millitime) (env : Env) :
    Scheduled :=
  let sleepTime := if 0 < sleepTime then sleepTime else 1000
  let now := env.clock .due
  let c :=
    if c.roundActive ∧ ¬ roundBusy c then
      { c with roundActive := false, roundLastMs := now - c.roundStartMs }
    else c
  let due := c.roundStartMs + UInt64.ofInt config.roundIntervalMs
  if ¬ c.roundActive ∧ c.timers ≠ [] then
    if due ≤ now then ⟨roundStart c env, sleepTime⟩ else ⟨c, min sleepTime (due - now)⟩
  else ⟨c, sleepTime⟩

def loopPrepareTimers (c : Context) (sleepTime : Millitime) (env : Env) : Scheduled :=
  (List.range c.timers.length).foldl (pollTimer (env.clock .due))
    ⟨c, if 0 < sleepTime then sleepTime else 1000⟩

def loopPrepareSubscription (c : Context) (sleepTime : Millitime) (env : Env) : Scheduled :=
  match c.config with
  | some config =>
    if config.queryMode = .rounds then loopPrepareRounds c config sleepTime env
    else loopPrepareTimers c sleepTime env
  | none => loopPrepareTimers c sleepTime env

def stampHead (wrapper : Wrapper) (now : Millitime) : Wrapper :=
  if wrapper.headSinceMs = 0 then { wrapper with headSinceMs := now } else wrapper

/-- The part of `modbusmq_loop_prepare` that times out the head. -/
def timeOutHead (c : Context) (env : Env) : Context :=
  match c.queue with
  | [] => c
  | wrapper :: rest =>
    let now := env.clock .head
    let wrapper := stampHead wrapper now
    let c := { c with queue := wrapper :: rest }
    let w := wrapper.msg.writer
    let requestSent : Bool := 0 < w.length ∧ w.xmit = w.length
    if requestSent ∧ c.frameTimeoutMs ≤ now - c.lastWriteMs then
      let c := dropHead (reportError c wrapper.msg errTimeout env) wrapper.msg errTimeout
      let c := flush { c with
        err := c.err + 1, tx := c.tx + 1, lastWriteMs := 0, lastReadMs := now } env
      { c with resyncPending := true }
    else if ¬ requestSent ∧ c.frameTimeoutMs ≤ now - wrapper.headSinceMs then
      let c := dropHead (reportError c wrapper.msg errTimeout env) wrapper.msg errTimeout
      let c := flush { c with err := c.err + 1, lastWriteMs := 0 } env
      { c with resyncPending := true }
    else c

/-- What `modbusmq_loop_prepare` returns: whether there is a descriptor to poll, for how
long, and for what. -/
structure Prepared where
  polled : Bool
  ctx : Context
  sleepTime : Millitime
  pollin : Bool
  pollout : Bool

def prepareEvents (s : Scheduled) (env : Env) : Prepared :=
  match s.ctx.queue with
  | [] => ⟨true, s.ctx, s.sleepTime, false, false⟩
  | wrapper :: _ =>
    if frameIncomplete s.ctx.transport wrapper.msg.writer ≠ 0 then
      let left := frameDelayLeft s.ctx (env.clock .gap)
      -- in the quiet gap the caller sleeps instead of asking for POLLOUT
      if wrapper.msg.writer.xmit = 0 ∧ 0 < left then
        ⟨true, s.ctx, min s.sleepTime left, false, false⟩
      else ⟨true, s.ctx, s.sleepTime, false, true⟩
    else if frameIncomplete s.ctx.transport wrapper.msg.reader ≠ 0 then
      ⟨true, s.ctx, s.sleepTime, true, false⟩
    else ⟨true, s.ctx, s.sleepTime, false, false⟩

@[simp] theorem prepareEvents_ctx (s : Scheduled) (env : Env) :
    (prepareEvents s env).ctx = s.ctx := by
  unfold prepareEvents
  split
  · rfl
  · dsimp only
    split_ifs <;> rfl

def loopPrepare (c : Context) (sleepTime : Millitime) (env : Env) : Prepared :=
  if c.connected then
    prepareEvents (loopPrepareSubscription (timeOutHead c env) sleepTime env) env
  else ⟨false, c, sleepTime, false, false⟩

def setFocus (c : Context) (slave : ℤ) : ℤ × Context :=
  match c.config with
  | none => (-1, c)
  | some config =>
    if config.queryMode ≠ .rounds then (-1, c)
    else if slave = -1 then (0, { c with roundFocus := -1 })
    else if c.timers.any (fun t => t.tier = .deep ∧ (t.slave : ℤ) = slave) then
      (0, { c with roundFocus := slave })
    else (-1, c)

/-- Scheduling keeps the books of the rounds and asks for polls: of a timer that is due, or of
one whose turn it is in a round. -/
inductive ScheduleStep (env : Env) (c : Context) : Context → Prop
  | books (active : Bool) (startMs : Millitime) (count : UInt32) (lastMs : Millitime) (deepSlave : ℤ) :
      ScheduleStep env c { c with
        roundActive := active, roundStartMs := startMs, roundCount := count, roundLastMs := lastMs,
        roundDeepSlave := deepSlave }
  | due {i : ℕ} {timer : Timer} (ht : c.timers[i]? = some timer)
      (hdue : timer.timerNextTime ≤ env.clock .due)
      (hidle : ¬ c.queue.any (·.msg.msgId = timer.timerId)) :
      ScheduleStep env c (advanceTimer (gatePost c timer (env.clock .due) i) i)
  | turn {i : ℕ} {timer : Timer} (ht : c.timers[i]? = some timer)
      (hopen : ¬ (timer.isOnce ∧ timer.timerNextTime = neverAgain)) (site : Site) :
      ScheduleStep env c (gatePost c timer (env.clock site) i)

abbrev ScheduleSteps (env : Env) : Context → Context → Prop :=
  Relation.ReflTransGen (ScheduleStep env)

theorem foldl_schedule {α : Type*} (get : α → Context) {env : Env} {f : α → ℕ → α}
    (hf : ∀ a i, ScheduleSteps env (get a) (get (f a i))) (l : List ℕ) (a : α) :
    ScheduleSteps env (get a) (get (l.foldl f a)) := by
  induction l generalizing a with
  | nil => exact .refl
  | cons i l ih => exact (hf a i).trans (ih _)

theorem pollTimer_schedule (env : Env) (s : Scheduled) (i : ℕ) :
    ScheduleSteps env s.ctx (pollTimer (env.clock .due) s i).ctx := by
  unfold pollTimer
  split
  · exact .refl
  · rename_i timer htimer
    dsimp only
    split_ifs with hdue
    · exact .single (.due htimer hdue.1 hdue.2)
    · exact .refl

theorem loopPrepareTimers_schedule (c : Context) (sleepTime : Millitime) (env : Env) :
    ScheduleSteps env c (loopPrepareTimers c sleepTime env).ctx :=
  foldl_schedule Scheduled.ctx (pollTimer_schedule env) _ ⟨c, _⟩

theorem roundPostTimer_schedule (tier : Tier) (slave : ℤ) (env : Env) (site : ℕ → Site)
    (c : Context) (i : ℕ) :
    ScheduleSteps env c (roundPostTimer tier slave (env.clock ∘ site) c i) := by
  unfold roundPostTimer
  split
  · exact .refl
  · rename_i timer htimer
    split_ifs with htier hdone
    · exact .refl
    · exact .refl
    · exact .single (.turn htimer hdone (site i))

theorem roundPost_schedule (c : Context) (tier : Tier) (slave : ℤ) (env : Env) (site : ℕ → Site) :
    ScheduleSteps env c (roundPost c tier slave (env.clock ∘ site)) :=
  foldl_schedule id (roundPostTimer_schedule tier slave env site) _ c

theorem roundStart_schedule (c : Context) (env : Env) : ScheduleSteps env c (roundStart c env) := by
  unfold roundStart
  dsimp only
  have hbegin : ScheduleSteps env c { c with
      roundActive := true, roundStartMs := env.clock .due, roundCount := c.roundCount + 1 } :=
    .single (.books ..)
  have hfast := hbegin.trans (roundPost_schedule _ .fast (-1) env .fast)
  generalize roundPost _ .fast (-1) (env.clock ∘ .fast) = c₂ at hfast ⊢
  have hdeep : ScheduleSteps env c (if 0 ≤ roundNextDeepSlave c env then
      { roundPost c₂ .deep (roundNextDeepSlave c env) (env.clock ∘ .deep) with
        roundDeepSlave := roundNextDeepSlave c env } else c₂) := by
    split_ifs
    · exact (hfast.trans (roundPost_schedule _ .deep _ env .deep)).tail (.books ..)
    · exact hfast
  generalize (if 0 ≤ roundNextDeepSlave c env then
      { roundPost c₂ .deep (roundNextDeepSlave c env) (env.clock ∘ .deep) with
        roundDeepSlave := roundNextDeepSlave c env } else c₂) = c₃ at hdeep ⊢
  split_ifs
  · exact hdeep.trans (roundPost_schedule _ .deep _ env .focus)
  · exact hdeep

theorem loopPrepareSubscription_schedule (c : Context) (sleepTime : Millitime) (env : Env) :
    ScheduleSteps env c (loopPrepareSubscription c sleepTime env).ctx := by
  have hrounds : ∀ config, ScheduleSteps env c (loopPrepareRounds c config sleepTime env).ctx := by
    intro config
    have hover : ScheduleSteps env c { c with
        roundActive := false, roundLastMs := env.clock .due - c.roundStartMs } :=
      .single (.books ..)
    unfold loopPrepareRounds
    dsimp only
    split_ifs
    all_goals first
      | exact hover.trans (roundStart_schedule _ env)
      | exact roundStart_schedule _ env
      | exact hover
      | exact .refl
  unfold loopPrepareSubscription
  split
  · split_ifs
    · exact hrounds _
    · exact loopPrepareTimers_schedule c sleepTime env
  · exact loopPrepareTimers_schedule c sleepTime env

end Modbusmq
