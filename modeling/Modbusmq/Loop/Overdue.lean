import Modbusmq.Loop.Deadlines
import Modbusmq.Loop.Sleep

/-!
# When a timeout is noticed

The sleep time is the time to the next poll, or the caller's own. The moment at
which the request on the wire times out is not among what lowers it: the request
is given up by the first call that comes at this moment or later.
-/

namespace Modbusmq

/-- The moment at which the request on the wire times out. -/
def timeoutAt (c : Context) : ℕ := c.lastWriteMs.toNat + c.frameTimeoutMs.toNat

/-- The head is on the wire and waits for its answer. -/
structure HeadWaits (c : Context) (wrapper : Wrapper) : Prop where
  connected : c.connected
  head : wrapper ∈ c.queue.head?
  sent : wrapper.msg.OnWire

/-- What a caller gets that asks, at `now`, how long to sleep while a request waits. -/
structure WaitContract (c : Context) (wrapper : Wrapper) (sleepTime now : Millitime) (env : Env) :
    Prop where
  ceiling : (loopPrepare c sleepTime env).sleepTime ≤ sleepCeiling sleepTime
  /-- only what is scheduled lowers the sleep time -/
  lowered : (loopPrepare c sleepTime env).sleepTime = sleepCeiling sleepTime ∨
    ∃ deadline, Deadline (loopPrepare c sleepTime env).ctx now deadline ∧
      (loopPrepare c sleepTime env).sleepTime = deadline - now
  patient : c.lastWriteMs ≤ now → ¬ GivesUp c env (.prepare sleepTime) wrapper.msg
  declared : ∀ (sleepTime' : Millitime) (env' : Env), timeoutAt c ≤ (env'.clock .head).toNat →
    GivesUp c env (.prepare sleepTime) wrapper.msg ∨
      GivesUp (loopPrepare c sleepTime env).ctx env' (.prepare sleepTime') wrapper.msg
  /-- a caller that sleeps as told is back before another ceiling has passed -/
  late : ∀ now' : Millitime,
    now'.toNat ≤ now.toNat + (loopPrepare c sleepTime env).sleepTime.toNat →
      now'.toNat < timeoutAt c + (sleepCeiling sleepTime).toNat

/-- The head, its times and the record stay. -/
structure HeadStays (c c' : Context) : Prop where
  head : ∀ wrapper ∈ c.queue.head?, wrapper ∈ c'.queue.head?
  connected : c'.connected = c.connected
  lastWriteMs : c'.lastWriteMs = c.lastWriteMs
  frameTimeoutMs : c'.frameTimeoutMs = c.frameTimeoutMs
  log : c.log <+: c'.log

theorem HeadStays.trans {c₁ c₂ c₃ : Context} (h : HeadStays c₁ c₂) (h' : HeadStays c₂ c₃) :
    HeadStays c₁ c₃ where
  head wrapper hw := h'.head wrapper (h.head wrapper hw)
  connected := h'.connected.trans h.connected
  lastWriteMs := h'.lastWriteMs.trans h.lastWriteMs
  frameTimeoutMs := h'.frameTimeoutMs.trans h.frameTimeoutMs
  log := h.log.trans h'.log

theorem headStays_same {c c' : Context} (hqueue : c'.queue = c.queue)
    (hconn : c'.connected = c.connected) (hwrite : c'.lastWriteMs = c.lastWriteMs)
    (htimeout : c'.frameTimeoutMs = c.frameTimeoutMs) (hlog : c'.log = c.log) : HeadStays c c' :=
  ⟨fun _ hw => hqueue ▸ hw, hconn, hwrite, htimeout, hlog ▸ List.prefix_refl _⟩

theorem postInternal_headStays (c : Context) (m : Msg) (flags : Flags) :
    HeadStays c (postInternal c m flags) where
  head wrapper hw := by
    rw [postInternal_queue]
    cases hq : c.queue with
    | nil =>
      rw [hq] at hw
      exact absurd hw (by simp)
    | cons head rest =>
      rw [hq] at hw
      obtain ⟨rest', henqueue, -⟩ := enqueue_cons head rest ⟨flags, 0,
        preparedMsg c.transport (nextTransaction c.transport c.transactionId)
          { m with reqId := nextReqId c.reqIdNext, serial := c.serialNext }⟩
      rw [henqueue]
      exact hw
  connected := rfl
  lastWriteMs := rfl
  frameTimeoutMs := rfl
  log := List.prefix_append _ _

theorem gatePost_headStays (c : Context) (timer : Timer) (now : Millitime) (i : ℕ) :
    HeadStays c (gatePost c timer now i) := by
  have hgate : HeadStays c (slaveGate c timer now).2 := by
    unfold slaveGate
    split_ifs <;> exact headStays_same rfl rfl rfl rfl rfl
  have hpost : ∀ c' : Context, HeadStays c' (postTimer c' i) := by
    intro c'
    unfold postTimer
    split
    · exact headStays_same rfl rfl rfl rfl rfl
    · exact (postInternal_headStays c' _ _).trans (headStays_same rfl rfl rfl rfl rfl)
  unfold gatePost
  split_ifs
  · exact hgate.trans (hpost _)
  · exact hgate

theorem ScheduleSteps.headStays {env : Env} {c c' : Context} (h : ScheduleSteps env c c') :
    HeadStays c c' := by
  induction h with
  | refl => exact headStays_same rfl rfl rfl rfl rfl
  | tail _ hstep ih =>
    refine ih.trans ?_
    cases hstep with
    | books => exact headStays_same rfl rfl rfl rfl rfl
    | due => exact (gatePost_headStays ..).trans (headStays_same rfl rfl rfl rfl rfl)
    | turn => exact gatePost_headStays ..

/-- A head that times out leaves with the error that says so. -/
theorem timedOut_released (c : Context) (wrapper : Wrapper) (rest : List Wrapper) (env : Env) :
    ∃ δ, (timedOut c wrapper rest env).log = c.log ++ δ ∧ .released wrapper.msg errTimeout ∈ δ := by
  obtain ⟨told, htold, -⟩ := (reportError_telling
    { c with queue := stampHead wrapper (env.clock .head) :: rest } wrapper.flags wrapper.msg
    errTimeout env).log
  have hcount : ∀ c' : Context,
      (countTimeout c' wrapper.msg.writer (env.clock .head)).log = c'.log := by
    intro c'
    unfold countTimeout
    split_ifs <;> rfl
  refine ⟨told ++ [.released wrapper.msg errTimeout] ++ [.flushed], ?_, by simp⟩
  unfold timedOut flush
  dsimp only
  rw [hcount, dropHead, htold]
  simp

theorem givesUp_of_timesOut {c : Context} {wrapper : Wrapper} {env : Env} (hconn : c.connected)
    (hhead : wrapper ∈ c.queue.head?) (hout : TimesOut c wrapper env) (sleepTime : Millitime) :
    GivesUp c env (.prepare sleepTime) wrapper.msg := by
  obtain ⟨rest, hq⟩ := List.head?_eq_some_iff.1 hhead
  obtain ⟨δ, hlog, hmem⟩ := timedOut_released c wrapper rest env
  obtain ⟨more, hmore⟩ := (ScheduleSteps.headStays
    (loopPrepareSubscription_schedule (timedOut c wrapper rest env) sleepTime env)).log
  refine ⟨δ ++ more, ?_, .inl (List.mem_append_left _ hmem)⟩
  change (loopPrepare c sleepTime env).ctx.log = _
  rw [loopPrepare, if_pos hconn, prepareEvents_ctx, timeOutHead_cons hq, if_pos hout, ← hmore, hlog,
    List.append_assoc]

theorem loopPrepare_headStays {c : Context} {wrapper : Wrapper} {env : Env} (hconn : c.connected)
    (hhead : wrapper ∈ c.queue.head?) (hout : ¬ TimesOut c wrapper env) (sleepTime : Millitime) :
    ∃ wrapper' ∈ (loopPrepare c sleepTime env).ctx.queue.head?, wrapper'.msg = wrapper.msg ∧
      (loopPrepare c sleepTime env).ctx.connected ∧
        timeoutAt (loopPrepare c sleepTime env).ctx = timeoutAt c := by
  obtain ⟨rest, hq⟩ := List.head?_eq_some_iff.1 hhead
  have hstays := ScheduleSteps.headStays
    (loopPrepareSubscription_schedule (timeOutHead c env) sleepTime env)
  rw [loopPrepare, if_pos hconn, prepareEvents_ctx]
  rw [timeOutHead_cons hq, if_neg hout] at hstays ⊢
  refine ⟨stampHead wrapper (env.clock .head), hstays.head _ rfl, stampHead_msg .., ?_, ?_⟩
  · rw [hstays.connected]
    exact hconn
  · unfold timeoutAt
    rw [hstays.lastWriteMs, hstays.frameTimeoutMs]

theorem timesOut_of_waited {c : Context} {wrapper : Wrapper} {env : Env}
    (hsent : wrapper.msg.OnWire) (hwaited : timeoutAt c ≤ (env.clock .head).toNat) :
    TimesOut c wrapper env := by
  unfold timeoutAt at hwaited
  have hle : c.lastWriteMs ≤ env.clock .head := UInt64.le_iff_toNat_le.2 (by omega)
  rw [timesOut_iff, deadlineStart, if_pos hsent, UInt64.le_iff_toNat_le,
    UInt64.toNat_sub_of_le _ _ hle]
  omega

/-- While a request waits, the sleep time does not look at its timeout, which the first call that
comes late enough declares. -/
theorem waiting_sleep {c₀ : Context} (hfresh : Fresh c₀) (calls : List (Call × Env))
    {wrapper : Wrapper} (hwaits : HeadWaits (run calls c₀) wrapper) (sleepTime : Millitime)
    {env : Env} {now : Millitime} (hclock : ∀ site, env.clock site = now)
    (hfuture : now.toNat < timeoutAt (run calls c₀)) :
    WaitContract (run calls c₀) wrapper sleepTime now env := by
  have hwell := run_wellFormed hfresh.wellFormed calls
  generalize run calls c₀ = c at hwaits hfuture hwell ⊢
  obtain ⟨hceiling, hlowered⟩ := loopPrepare_sleep hwaits.connected sleepTime hclock
  refine ⟨hceiling, hlowered, ?_, ?_, ?_⟩
  · intro hpast hgives
    obtain ⟨-, -, -, wrapper', hhead', hout, -⟩ := givesUp_timesOut hwell hgives
    obtain rfl : wrapper' = wrapper := Option.mem_unique hhead' hwaits.head
    rw [timesOut_iff, deadlineStart, if_pos hwaits.sent, hclock] at hout
    have helapsed := forward_elapsed hpast hout
    unfold timeoutAt at hfuture
    omega
  · intro sleepTime' env' hlate
    by_cases hout : TimesOut c wrapper env
    · exact .inl (givesUp_of_timesOut hwaits.connected hwaits.head hout sleepTime)
    · obtain ⟨wrapper', hhead', hmsg, hconn, hat⟩ :=
        loopPrepare_headStays hwaits.connected hwaits.head hout sleepTime
      have hsent' : wrapper'.msg.OnWire := hmsg ▸ hwaits.sent
      have hout' : TimesOut (loopPrepare c sleepTime env).ctx wrapper' env' :=
        timesOut_of_waited hsent' (hat ▸ hlate)
      exact .inr (hmsg ▸ givesUp_of_timesOut hconn hhead' hout' sleepTime')
  · intro now' hback
    rw [UInt64.le_iff_toNat_le] at hceiling
    omega

/-- A caller with a ceiling of a second is told to sleep it out, though the request that was sent
with a timeout of half a second is given up when it comes back. -/
theorem timeout_slept_through :
    ¬ ∀ (c₀ : Context) (calls : List (Call × Env)) (wrapper : Wrapper), Fresh c₀ →
      HeadWaits (run calls c₀) wrapper → ∀ (sleepTime now : Millitime) (env : Env),
        (∀ site, env.clock site = now) → now.toNat < timeoutAt (run calls c₀) →
          now.toNat + (loopPrepare (run calls c₀) sleepTime env).sleepTime.toNat ≤
            timeoutAt (run calls c₀) := by
  intro hall
  obtain ⟨wrapper, hhead⟩ : ∃ wrapper, wrapper ∈ (run sentCalls openedContext).queue.head? :=
    ⟨_, rfl⟩
  have hsent : ∀ w ∈ (run sentCalls openedContext).queue.head?, w.msg.OnWire := by decide +kernel
  have hlate := hall openedContext sentCalls wrapper ⟨rfl, rfl, rfl, rfl⟩
    ⟨by decide +kernel, hhead, hsent wrapper hhead⟩ 1000 10000 (atTime 10000) (fun _ => rfl)
    (by decide +kernel)
  exact absurd hlate (by decide +kernel)

/-- The same call as a case of the contract: it sleeps the ceiling. -/
theorem waiting_sleep_example : ∃ wrapper,
    WaitContract (run sentCalls openedContext) wrapper 1000 10000 (atTime 10000) ∧
      (loopPrepare (run sentCalls openedContext) 1000 (atTime 10000)).sleepTime = 1000 := by
  obtain ⟨wrapper, hhead⟩ : ∃ wrapper, wrapper ∈ (run sentCalls openedContext).queue.head? :=
    ⟨_, rfl⟩
  have hsent : ∀ w ∈ (run sentCalls openedContext).queue.head?, w.msg.OnWire := by decide +kernel
  exact ⟨wrapper, waiting_sleep ⟨rfl, rfl, rfl, rfl⟩ sentCalls
    ⟨by decide +kernel, hhead, hsent wrapper hhead⟩ 1000 (fun _ => rfl) (by decide +kernel),
    by decide +kernel⟩

end Modbusmq
