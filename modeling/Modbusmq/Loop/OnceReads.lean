import Modbusmq.Loop.OnceInputs
import Modbusmq.Loop.OnePoll
import Modbusmq.Loop.PollRate

/-!
# Once reads over a run

A once input is done with a valid reply to its poll and active again with a
re-arm. The mark for done is a due time that never comes, in a field that is also
moved on by the scheduler and set by the backoff; what each step may write there
decides both halves.
-/

namespace Modbusmq

/-- A poll of the input got a valid reply. -/
def PollEvent.Answers (timerId : ℕ) : PollEvent → Prop
  | posted _ _ => False
  | left id _ error => id = timerId ∧ error = 0

/-- A poll of another input was answered, an exception counts. -/
def PollEvent.AnswersOther (timerId : ℕ) : PollEvent → Prop
  | posted _ _ => False
  | left id _ error => id ≠ timerId ∧ (error = 0 ∨ error = errException)

instance (timerId : ℕ) : DecidablePred (PollEvent.Answers timerId)
  | .posted _ _ => isFalse id
  | .left _ _ _ => inferInstanceAs (Decidable (_ ∧ _))

instance (timerId : ℕ) : DecidablePred (PollEvent.AnswersOther timerId)
  | .posted _ _ => isFalse id
  | .left _ _ _ => inferInstanceAs (Decidable (_ ∧ _))

def callPolls (c : Context) (env : Env) (call : Call) : List PollEvent :=
  (pollEvents (call.perform c env).log).drop (pollEvents c.log).length

def SubscribesInput (timerId : ℕ) (c : Context) (env : Env) (call : Call) : Prop :=
  (∀ t ∈ c.timers, t.timerId ≠ timerId) ∧
    ∃ t ∈ (call.perform c env).timers, t.timerId = timerId ∧ t.isOnce

/-- A poll of the input gets its valid reply. -/
def AnswersInput (timerId : ℕ) (c : Context) (env : Env) (call : Call) : Prop :=
  ∃ e ∈ callPolls c env call, e.Answers timerId

/-- The slave of the input does not count as unresponsive any more. -/
def Returns (timerId : ℕ) (timers timers' : List Timer) : Prop :=
  ∃ t ∈ timers, t.timerId = timerId ∧ t.unresponsive ∧
    ∃ t' ∈ timers', t'.timerId = timerId ∧ ¬ t'.unresponsive

/-- The queue is reset, the once inputs are re-armed, or the answer to another input ends the
silence of the slave. -/
def RearmsInput (timerId : ℕ) (c : Context) (env : Env) (call : Call) : Prop :=
  call matches .reset | .rearm ∨ (∃ e ∈ callPolls c env call, e.AnswersOther timerId) ∧
    Returns timerId c.timers (call.perform c env).timers

/-- A time that was read in one of the calls. -/
def ReadIn (calls : List (Call × Env)) (now : Millitime) : Prop :=
  ∃ made ∈ calls, ∃ site, now = made.2.clock site

/-- The ways in which a call changes the schedule. -/
inductive ScheduleChange (env : Env) (c : Context) : Call → Context → Prop
  | aside {call : Call} {c' : Context} (h : Still c c') : ScheduleChange env c call c'
  | serves {revents : Revents} {timerId serial : ℕ} {error : ℤ} {c' : Context}
      (hslow : error ≠ errTimeout) (h : Leave env timerId serial error c c') :
      ScheduleChange env c (.writeRead revents) c'
  | schedules {sleepTime : Millitime} {c₁ c' : Context} (h : Still c c₁)
      (hsteps : ScheduleSteps env c₁ c') : ScheduleChange env c (.prepare sleepTime) c'
  | timesOut {sleepTime : Millitime} {timerId serial : ℕ} {c₁ c' : Context}
      (h : Leave env timerId serial errTimeout c c₁) (hsteps : ScheduleSteps env c₁ c') :
      ScheduleChange env c (.prepare sleepTime) c'
  | resets {c₁ : Context} (h : Emptied c c₁) : ScheduleChange env c .reset (onceRearm c₁ env)
  | rearms : ScheduleChange env c .rearm (onceRearm c env)
  | subscribes {slaveId : ℤ} {request : Request} {interval : ℤ} (config : Config)
      (writer : Frame .writer) : ScheduleChange env c (.subscribe slaveId request interval)
        { setSlave c slaveId with
          timerIdNext := c.timerIdNext + 1
          timers := insertTimer config.queryMode c.timers
            (newTimer (setSlave c slaveId) config (.ofFrame 0 writer) interval env) }
  | configures {config : Option Config} {processConfig : Config} {frameTimeoutMs : Millitime} :
      ScheduleChange env c (.configure config processConfig frameTimeoutMs) { c with
        config := config, processConfig := processConfig, frameTimeoutMs := frameTimeoutMs }

theorem Call.scheduleChange {c : Context} (h : Tagged c) (call : Call) (env : Env) :
    ScheduleChange env c call (call.perform c env) := by
  cases call with
  | subscribe slaveId request interval =>
    change ScheduleChange env c _ (subscribeRequest c slaveId request interval env)
    have hslave : Still c (setSlave c slaveId) := still_settings rfl rfl rfl rfl rfl rfl rfl rfl rfl
    unfold subscribeRequest
    split
    · unfold Modbusmq.subscribe
      split
      · exact .aside hslave
      · split_ifs
        · exact .aside hslave
        · exact .subscribes ..
    · exact .aside hslave
  | prepare sleepTime =>
    change ScheduleChange env c _ (loopPrepare c sleepTime env).ctx
    unfold loopPrepare
    split_ifs
    · rw [prepareEvents_ctx]
      have hsteps := loopPrepareSubscription_schedule (timeOutHead c env) sleepTime env
      rcases timeOutHead_left h env with hstill | ⟨_, _, _, _, _, hleave⟩
      · exact .schedules hstill hsteps
      · exact .timesOut hleave hsteps
    · exact .aside (.refl c)
  | writeRead revents =>
    rcases loopWriteRead_left h revents env with hstill | ⟨_, _, _, hslow, hleave⟩
    · exact .aside hstill
    · exact .serves hslow hleave
  | reset => exact .resets (dropAll_emptied env c.queue h rfl)
  | rearm => exact .rearms
  | configure config processConfig frameTimeoutMs => exact .configures
  | post slaveId request => exact .aside (Call.still (.post slaveId request) trivial env)
  | raw text stray => exact .aside (Call.still (.raw text stray) trivial env)
  | focus slave => exact .aside (Call.still (.focus slave) trivial env)
  | connect opened => exact .aside (Call.still (.connect opened) trivial env)
  | close => exact .aside (Call.still .close trivial env)
  | arrive bytes => exact .aside (Call.still (.arrive bytes) trivial env)

/-- A timer before and after `modbusmq_slave_update`: a once input of a slave that comes back is
due at once. -/
structure Settled (env : Env) (answered : Bool) (t t' : Timer) : Prop where
  timerId : t'.timerId = t.timerId
  isOnce : t'.isOnce = t.isOnce
  interval : t'.timerInterval = t.timerInterval
  alive : t.unresponsive → ¬ t'.unresponsive → answered
  due : t'.timerNextTime =
    if t.isOnce ∧ t.unresponsive ∧ ¬ t'.unresponsive then env.clock .update else t.timerNextTime

theorem Settled.refl (env : Env) (answered : Bool) (t : Timer) : Settled env answered t t :=
  ⟨rfl, rfl, rfl, fun h h' => absurd h h', (if_neg fun h => h.2.2 h.2.1).symm⟩

theorem slaveSettle_settled (env : Env) {answered unresponsive : Bool}
    (halive : ¬ unresponsive → answered) (slave misses : ℕ) (retryMs : UInt32) (t : Timer) :
    Settled env answered t (slaveSettle (env.clock .update) slave misses unresponsive retryMs t) := by
  unfold slaveSettle
  split_ifs with hslave hback
  · exact .refl env answered t
  · exact ⟨rfl, rfl, rfl, fun _ => halive, (if_pos ⟨hback.2.2, hback.1, hback.2.1⟩).symm⟩
  · exact ⟨rfl, rfl, rfl, fun _ => halive, (if_neg fun h => hback ⟨h.2.1, h.2.2, h.1⟩).symm⟩

theorem mem_slaveUpdate {c : Context} {timerId : ℕ} {answered : Bool} {env : Env} {t' : Timer}
    (h : t' ∈ (slaveUpdate c timerId answered env).timers) :
    ∃ t ∈ c.timers, Settled env answered t t' := by
  have hsettle : ∀ {slave misses : ℕ} {unresponsive : Bool} {retryMs : UInt32},
      (¬ unresponsive → answered) →
      t' ∈ c.timers.map (slaveSettle (env.clock .update) slave misses unresponsive retryMs) →
      ∃ t ∈ c.timers, Settled env answered t t' := by
    intro slave misses unresponsive retryMs halive hmem
    obtain ⟨t, ht, rfl⟩ := List.mem_map.1 hmem
    exact ⟨t, ht, slaveSettle_settled env halive ..⟩
  have hsame : t' ∈ c.timers → ∃ t ∈ c.timers, Settled env answered t t' := fun ht =>
    ⟨t', ht, .refl env answered t'⟩
  unfold slaveUpdate at h
  dsimp only at h
  split at h
  · exact hsame h
  · split_ifs at h with hanswered
    · exact hsettle (fun _ => hanswered) h
    · exact hsame h
    · exact hsettle (fun hclear => absurd rfl hclear) h
    · obtain ⟨t, ht, rfl⟩ := List.mem_map.1 h
      refine ⟨t, ht, ?_⟩
      split_ifs
      · exact ⟨rfl, rfl, rfl, fun hset hclear => absurd hset hclear,
          (if_neg fun h => h.2.2 h.2.1).symm⟩
      · exact .refl env answered t
    · exact hsettle (fun hclear => absurd rfl hclear) h

theorem verdictOf_answered {cb : Bool} {error : ℤ} (h : verdictOf cb error = .answered) :
    error = 0 := by
  unfold verdictOf at h
  split_ifs at h with hzero
  exact hzero

theorem verdictOf_alive {cb : Bool} {error : ℤ}
    (h : verdictOf cb error = .answered ∨ verdictOf cb error = .excepted) :
    error = 0 ∨ error = errException := by
  rcases h with h | h
  · exact .inl (verdictOf_answered h)
  · unfold verdictOf at h
    split_ifs at h with _ _ _ hexception
    exact .inr hexception

/-- A timer before and after the verdict on a poll: its own reply ends a once read. -/
structure JudgedTimer (env : Env) (polled : ℕ) (verdict : Verdict) (t t' : Timer) : Prop where
  timerId : t'.timerId = t.timerId
  isOnce : t'.isOnce = t.isOnce
  interval : t'.timerInterval = t.timerInterval
  alive : t.unresponsive → ¬ t'.unresponsive → verdict = .answered ∨ verdict = .excepted
  due : t'.timerNextTime =
    if t.isOnce ∧ verdict = .answered ∧ t.timerId = polled then neverAgain
    else if t.isOnce ∧ t.unresponsive ∧ ¬ t'.unresponsive then env.clock .update
    else t.timerNextTime

theorem mem_judge {c : Context} (hdistinct : (c.timers.map (·.timerId)).Nodup) {timerId : ℕ}
    {env : Env} {verdict : Verdict} {t' : Timer}
    (h : t' ∈ (judge c timerId env verdict).timers) :
    ∃ t ∈ c.timers, JudgedTimer env timerId verdict t t' := by
  have hsettled : ∀ {answered : Bool}, (answered → verdict = .excepted) → verdict ≠ .answered →
      t' ∈ (slaveUpdate c timerId answered env).timers →
        ∃ t ∈ c.timers, JudgedTimer env timerId verdict t t' := by
    intro answered hanswered hother hmem
    obtain ⟨t, ht, hs⟩ := mem_slaveUpdate hmem
    refine ⟨t, ht, hs.timerId, hs.isOnce, hs.interval,
      fun hset hclear => .inr (hanswered (hs.alive hset hclear)), ?_⟩
    rw [if_neg fun h => hother h.2.1]
    exact hs.due
  cases verdict with
  | excepted => exact hsettled (fun _ => rfl) (by decide) h
  | missed =>
    have h : t' ∈ (slaveUpdate c timerId false env).timers := h
    exact hsettled (fun hno => absurd hno (by decide)) (by decide) h
  | dropped =>
    refine ⟨t', h, rfl, rfl, rfl, fun hset hclear => absurd hset hclear, ?_⟩
    rw [if_neg fun hno => absurd hno.2.1 (by decide), if_neg fun hback => hback.2.2 hback.2.1]
  | answered =>
    change t' ∈ (onceDone (slaveUpdate c timerId true env) timerId).timers at h
    have hids := timerIds_congr (slaveUpdate_keys c timerId true env)
    have hkept : ∀ s ∈ (slaveUpdate c timerId true env).timers,
        ¬ (s.isOnce ∧ s.timerId = timerId) →
        ∃ t ∈ c.timers, JudgedTimer env timerId .answered t s := by
      intro s hs hother
      obtain ⟨t, ht, hsettled⟩ := mem_slaveUpdate hs
      refine ⟨t, ht, hsettled.timerId, hsettled.isOnce, hsettled.interval, fun _ _ => .inl rfl, ?_⟩
      rw [if_neg fun hmine => hother ⟨hsettled.isOnce.trans hmine.1,
        hsettled.timerId.trans hmine.2.2⟩]
      exact hsettled.due
    unfold onceDone at h
    split at h
    · rename_i hnone
      refine hkept t' h fun hmine => ?_
      exact List.find?_eq_none.1 hnone t' h (decide_eq_true hmine.2)
    · rename_i timer hfind
      obtain ⟨hmem, hid⟩ := timerFind_mem hfind
      obtain ⟨s, hs, rfl⟩ := List.mem_map.1 h
      by_cases hmine : s.timerId = timerId ∧ timer.isOnce
      · have hsame := List.inj_on_of_nodup_map (hids ▸ hdistinct) hs hmem (hmine.1.trans hid.symm)
        obtain ⟨t, ht, hsettled⟩ := mem_slaveUpdate hs
        have honce : t.isOnce := by rw [← hsettled.isOnce, hsame]; exact hmine.2
        rw [if_pos hmine]
        refine ⟨t, ht, hsettled.timerId, hsettled.isOnce, hsettled.interval, fun _ _ => .inl rfl, ?_⟩
        exact (if_pos ⟨honce, rfl, hsettled.timerId.symm.trans hmine.1⟩).symm
      · rw [if_neg hmine]
        refine hkept s hs fun hown => hmine ⟨hown.2, ?_⟩
        have hsame := List.inj_on_of_nodup_map (hids ▸ hdistinct) hs hmem (hown.2.trans hid.symm)
        exact hsame ▸ hown.1

/-- A timer before and after a step of the scheduler. -/
structure Rotated (env : Env) (t t' : Timer) : Prop where
  timerId : t'.timerId = t.timerId
  isOnce : t'.isOnce = t.isOnce
  interval : t'.timerInterval = t.timerInterval
  due : t'.timerNextTime = t.timerNextTime ∨
    t.timerNextTime ≤ env.clock .due ∧ t'.timerNextTime = t.timerNextTime + t.timerInterval

theorem mem_gatePost {c : Context} {timer : Timer} {now : Millitime} {i : ℕ} {t' : Timer}
    (h : t' ∈ (gatePost c timer now i).timers) (env : Env) : ∃ t ∈ c.timers, Rotated env t t' := by
  have hmem := List.mem_map_of_mem (f := Timer.schedule) h
  rw [gatePost_schedules] at hmem
  obtain ⟨t, ht, heq⟩ := List.mem_map.1 hmem
  simp only [Timer.schedule, Prod.mk.injEq] at heq
  obtain ⟨hid, honce, hinterval, hnext⟩ := heq
  exact ⟨t, ht, hid.symm, honce.symm, hinterval.symm, .inl hnext.symm⟩

theorem ScheduleStep.mem {env : Env} {c c' : Context} (h : ScheduleStep env c c')
    (hdistinct : (c.timers.map (·.timerId)).Nodup) {t' : Timer} (ht' : t' ∈ c'.timers) :
    ∃ t ∈ c.timers, Rotated env t t' := by
  cases h with
  | books => exact ⟨t', ht', rfl, rfl, rfl, .inl rfl⟩
  | due ht hdue =>
    obtain ⟨t, hmem, hid, honce, hinterval, hnext⟩ := mem_advanceTimer hdistinct ht _ ht'
    refine ⟨t, hmem, hid, honce, hinterval, ?_⟩
    rcases hnext with ⟨-, hsame⟩ | ⟨rfl, hmoved⟩
    · exact .inl hsame
    · exact .inr ⟨hdue, hmoved⟩
  | turn => exact mem_gatePost ht' env

/-- A step of the scheduler posts no poll, or that of one timer. -/
inductive Posts (c c' : Context) : List Timer → Prop
  | none (hpolls : queuedPolls c'.queue = queuedPolls c.queue)
      (hevents : pollEvents c'.log = pollEvents c.log) : Posts c c' []
  | one {timer : Timer} (ht : timer ∈ c.timers)
      (hpolls : queuedPolls c'.queue = queuedPolls c.queue ++ [(timer.timerId, c.serialNext)])
      (hevents : pollEvents c'.log = pollEvents c.log ++ [.posted timer.timerId c.serialNext]) :
      Posts c c' [timer]

theorem gatePost_posts {c : Context} {i : ℕ} {timer : Timer} (ht : c.timers[i]? = some timer)
    (now : Millitime) : ∃ posted ⊆ [timer], Posts c (gatePost c timer now i) posted := by
  rcases gatePost_cases ht now with ⟨-, hsame⟩ | ⟨-, -, hasked⟩
  · rw [hsame]
    exact ⟨[], List.nil_subset _, .none rfl rfl⟩
  · exact ⟨[timer], List.Subset.refl _, .one (List.mem_of_getElem? ht) hasked.polls hasked.events⟩

theorem ScheduleStep.posts {env : Env} (hclock : BeforeEnd env) {c c' : Context}
    (h : ScheduleStep env c c') :
    ∃ posted, Posts c c' posted ∧ ∀ timer ∈ posted, ¬ timer.Spent := by
  have hall : ∀ {timer : Timer} {posted : List Timer}, posted ⊆ [timer] → ¬ timer.Spent →
      ∀ t ∈ posted, ¬ t.Spent := by
    intro timer posted hsub hopen t ht
    rw [List.mem_singleton.1 (hsub ht)]
    exact hopen
  cases h with
  | books => exact ⟨[], .none rfl rfl, nofun⟩
  | @due i timer ht hdue =>
    obtain ⟨posted, hsub, hposts⟩ := gatePost_posts ht (env.clock .due)
    refine ⟨posted, ?_, hall hsub fun hspent => ?_⟩
    · cases hposts with
      | none hpolls hevents => exact .none hpolls hevents
      | one hmem hpolls hevents => exact .one hmem hpolls hevents
    · -- the end of time is not reached
      have hle := UInt64.le_iff_toNat_le.1 hdue
      have hbefore := hclock .due
      rw [hspent.2] at hle
      omega
  | @turn i timer ht hopen site =>
    obtain ⟨posted, hsub, hposts⟩ := gatePost_posts ht (env.clock site)
    exact ⟨posted, hposts, hall hsub hopen⟩

theorem ScheduleStep.sameNumbers {env : Env} {c c' : Context} (h : ScheduleStep env c c') :
    SameNumbers c c' :=
  (ScheduleSteps.gates (.single h)).sameNumbers

/-- The input has been read, and none of its polls is on the way. -/
structure ReadOnce (timerId : ℕ) (c : Context) : Prop extends TimersNumbered c where
  listed : ∃ t ∈ c.timers, t.timerId = timerId
  spent : ∀ t ∈ c.timers, t.timerId = timerId → t.Spent
  unqueued : timerId ∉ (queuedPolls c.queue).map Prod.fst

theorem listed_congr {timerId : ℕ} {timers timers' : List Timer}
    (hkeys : timerKeys timers' = timerKeys timers) (h : ∃ t ∈ timers, t.timerId = timerId) :
    ∃ t ∈ timers', t.timerId = timerId := by
  have hids := timerIds_congr hkeys
  obtain ⟨t, ht, hid⟩ := h
  have hmem := List.mem_map_of_mem (f := fun t : Timer => t.timerId) ht
  rw [← hids] at hmem
  obtain ⟨t', ht', hid'⟩ := List.mem_map.1 hmem
  exact ⟨t', ht', hid'.trans hid⟩

theorem Still.readOnce {timerId : ℕ} {c c' : Context} (h : Still c c') (hc : ReadOnce timerId c) :
    ReadOnce timerId c' where
  toTimersNumbered := hc.toTimersNumbered.congr h.sameNumbers
  listed := listed_congr h.sameNumbers.keys hc.listed
  spent := h.timers ▸ hc.spent
  unqueued := h.polls ▸ hc.unqueued

theorem pollsPosted_congr (timerId : ℕ) {log log' : List Event}
    (h : pollEvents log' = pollEvents log) :
    pollsPosted timerId log' = pollsPosted timerId log := by
  unfold pollsPosted
  rw [h]

theorem Leave.alive {env : Env} {timerId serial : ℕ} {error : ℤ} {c c' : Context}
    (h : Leave env timerId serial error c c') {t' : Timer} (ht' : t' ∈ c'.timers)
    (hdistinct : (c.timers.map (·.timerId)).Nodup) : ∃ t ∈ c.timers, ∃ verdict,
      JudgedTimer env timerId verdict t t' ∧ (verdict = .answered → error = 0) ∧
      (t.unresponsive → ¬ t'.unresponsive → error = 0 ∨ error = errException) := by
  obtain ⟨verdict, htimers, hverdict⟩ := h.judged
  rw [htimers] at ht'
  obtain ⟨t, ht, hj⟩ := mem_judge hdistinct ht'
  refine ⟨t, ht, verdict, hj, fun hanswered => ?_, fun hset hclear => ?_⟩
  · subst hanswered
    refine verdictOf_answered (hverdict.resolve_right fun hdropped => ?_).symm
    exact absurd hdropped.1 (by decide)
  · have halive := hj.alive hset hclear
    rcases hverdict with rfl | ⟨rfl, -⟩
    · exact verdictOf_alive halive
    · exact absurd halive (by decide)

theorem Leave.pollsPosted {env : Env} {other serial : ℕ} {error : ℤ} {c c' : Context}
    (h : Leave env other serial error c c') (timerId : ℕ) :
    pollsPosted timerId c'.log = pollsPosted timerId c.log := by
  unfold Modbusmq.pollsPosted
  rw [h.events, List.countP_append]
  rfl

/-- Another poll leaves; only an answer that ends the silence of the slave would re-arm. -/
theorem Leave.readOnce {env : Env} {timerId other serial : ℕ} {error : ℤ} {c c' : Context}
    (h : Leave env other serial error c c') (hc : ReadOnce timerId c)
    (hreturns : error = 0 ∨ error = errException → ¬ Returns timerId c.timers c'.timers) :
    ReadOnce timerId c' ∧ other ≠ timerId := by
  have hqueued : other ≠ timerId ∧ timerId ∉ (queuedPolls c'.queue).map Prod.fst := by
    have hnot := hc.unqueued
    rw [h.polls, List.map_cons, List.mem_cons, not_or] at hnot
    exact ⟨Ne.symm hnot.1, hnot.2⟩
  refine ⟨⟨hc.toTimersNumbered.congr h.sameNumbers, listed_congr h.sameNumbers.keys hc.listed,
    fun t' ht' hid => ?_, hqueued.2⟩, hqueued.1⟩
  obtain ⟨t, ht, verdict, hj, -, halive⟩ := h.alive ht' hc.distinct
  have hid' := hj.timerId.symm.trans hid
  have hspent := hc.spent t ht hid'
  refine ⟨hj.isOnce.trans hspent.1, ?_⟩
  rw [hj.due, if_neg fun hmine => hqueued.1 (hmine.2.2.symm.trans hid'), if_neg ?_]
  · exact hspent.2
  · rintro ⟨-, hset, hclear⟩
    exact hreturns (halive hset hclear) ⟨t, ht, hid', hset, t', ht', hid, hclear⟩

theorem ScheduleStep.readOnce {env : Env} (hclock : BeforeEnd env) {timerId : ℕ} {c c' : Context}
    (h : ScheduleStep env c c') (hc : ReadOnce timerId c) :
    ReadOnce timerId c' ∧ pollsPosted timerId c'.log = pollsPosted timerId c.log := by
  obtain ⟨posted, hposts, hopen⟩ := h.posts hclock
  have hother : ∀ timer ∈ c.timers, ¬ timer.Spent → timer.timerId ≠ timerId := fun timer ht hopen hid =>
    hopen (hc.spent timer ht hid)
  have hspent : ∀ t' ∈ c'.timers, t'.timerId = timerId → t'.Spent := by
    intro t' ht' hid
    obtain ⟨t, ht, hrotated⟩ := h.mem hc.distinct ht'
    have hdone := hc.spent t ht (hrotated.timerId.symm.trans hid)
    refine ⟨hrotated.isOnce.trans hdone.1, ?_⟩
    rcases hrotated.due with hsame | ⟨hdue, -⟩
    · exact hsame.trans hdone.2
    · have hle := UInt64.le_iff_toNat_le.1 hdue
      have hbefore := hclock .due
      rw [hdone.2] at hle
      omega
  have hnumbers := hc.toTimersNumbered.congr h.sameNumbers
  have hlisted := listed_congr h.sameNumbers.keys hc.listed
  cases hposts with
  | none hpolls hevents =>
    exact ⟨⟨hnumbers, hlisted, hspent, hpolls ▸ hc.unqueued⟩, pollsPosted_congr timerId hevents⟩
  | @one timer ht hpolls hevents =>
    have hne := hother timer ht (hopen timer (List.mem_singleton_self _))
    refine ⟨⟨hnumbers, hlisted, hspent, ?_⟩, ?_⟩
    · rw [hpolls, List.map_append, List.mem_append, not_or]
      exact ⟨hc.unqueued, fun hmem => hne (List.mem_singleton.1 hmem).symm⟩
    · unfold pollsPosted
      rw [hevents, List.countP_append, List.countP_singleton, PollEvent.posts,
        if_neg (by simpa using hne), Nat.add_zero]

theorem ScheduleSteps.readOnce {env : Env} (hclock : BeforeEnd env) {timerId : ℕ} {c c' : Context}
    (h : ScheduleSteps env c c') (hc : ReadOnce timerId c) :
    ReadOnce timerId c' ∧ pollsPosted timerId c'.log = pollsPosted timerId c.log := by
  induction h with
  | refl => exact ⟨hc, rfl⟩
  | tail _ hstep ih =>
    obtain ⟨hread, hposted⟩ := hstep.readOnce hclock ih.1
    exact ⟨hread, hposted.trans ih.2⟩

/-- The input is read once, and is due a retry period after some time that was read, at most. -/
structure Awaiting (timerId : ℕ) (Seen : Millitime → Prop) (c : Context) : Prop
    extends TimersNumbered c where
  listed : ∃ t ∈ c.timers, t.timerId = timerId
  retried : ∀ t ∈ c.timers, t.timerId = timerId → t.isOnce ∧ t.timerInterval = onceRetryMs
  due : ∀ t ∈ c.timers, t.timerId = timerId →
    ∃ now, Seen now ∧ t.timerNextTime.toNat ≤ now.toNat + onceRetryMs.toNat

variable {timerId : ℕ} {Seen : Millitime → Prop}

theorem Awaiting.unread {c : Context} (h : Awaiting timerId Seen c)
    (hend : ∀ now, Seen now → now.toNat + onceRetryMs.toNat < neverAgain.toNat) :
    ∀ t ∈ c.timers, t.timerId = timerId → ¬ t.Spent := by
  intro t ht hid hspent
  obtain ⟨now, hseen, hle⟩ := h.due t ht hid
  have hbefore := hend now hseen
  rw [hspent.2] at hle
  omega

theorem Still.awaiting {c c' : Context} (h : Still c c') (hc : Awaiting timerId Seen c) :
    Awaiting timerId Seen c' where
  toTimersNumbered := hc.toTimersNumbered.congr h.sameNumbers
  listed := listed_congr h.sameNumbers.keys hc.listed
  retried := h.timers ▸ hc.retried
  due := h.timers ▸ hc.due

theorem due_of_eq {now next : Millitime} (hseen : Seen now) (h : next = now) :
    ∃ now, Seen now ∧ next.toNat ≤ now.toNat + onceRetryMs.toNat :=
  ⟨now, hseen, h ▸ Nat.le_add_right ..⟩

/-- Whatever becomes of a poll, only the valid reply to its own ends the activity of an input. -/
theorem Leave.awaiting {env : Env} {other serial : ℕ} {error : ℤ} {c c' : Context}
    (h : Leave env other serial error c c') (hc : Awaiting timerId Seen c)
    (hseen : ∀ site, Seen (env.clock site)) (hanswers : ¬ (other = timerId ∧ error = 0)) :
    Awaiting timerId Seen c' where
  toTimersNumbered := hc.toTimersNumbered.congr h.sameNumbers
  listed := listed_congr h.sameNumbers.keys hc.listed
  retried t' ht' hid := by
    obtain ⟨t, ht, verdict, hj, -⟩ := h.alive ht' hc.distinct
    obtain ⟨honce, hinterval⟩ := hc.retried t ht (hj.timerId.symm.trans hid)
    exact ⟨hj.isOnce.trans honce, hj.interval.trans hinterval⟩
  due t' ht' hid := by
    obtain ⟨t, ht, verdict, hj, hanswered, -⟩ := h.alive ht' hc.distinct
    have hid' := hj.timerId.symm.trans hid
    have hdue := hj.due
    rw [if_neg fun hmine => hanswers ⟨hmine.2.2.symm.trans hid', hanswered hmine.2.1⟩] at hdue
    split_ifs at hdue
    · exact due_of_eq (hseen .update) hdue
    · exact hdue ▸ hc.due t ht hid'

theorem ScheduleStep.awaiting {env : Env} (hclock : BeforeEnd env)
    (hseen : ∀ site, Seen (env.clock site)) {c c' : Context} (h : ScheduleStep env c c')
    (hc : Awaiting timerId Seen c) : Awaiting timerId Seen c' where
  toTimersNumbered := hc.toTimersNumbered.congr h.sameNumbers
  listed := listed_congr h.sameNumbers.keys hc.listed
  retried t' ht' hid := by
    obtain ⟨t, ht, hrotated⟩ := h.mem hc.distinct ht'
    obtain ⟨honce, hinterval⟩ := hc.retried t ht (hrotated.timerId.symm.trans hid)
    exact ⟨hrotated.isOnce.trans honce, hrotated.interval.trans hinterval⟩
  due t' ht' hid := by
    obtain ⟨t, ht, hrotated⟩ := h.mem hc.distinct ht'
    have hid' := hrotated.timerId.symm.trans hid
    rcases hrotated.due with hsame | ⟨hdue, hmoved⟩
    · exact hsame ▸ hc.due t ht hid'
    · -- the poll was due, so its retry is a period from now at most
      have hle := UInt64.le_iff_toNat_le.1 hdue
      have hbefore := hclock .due
      have hbound : neverAgain.toNat < 2 ^ 64 := neverAgain.toNat_lt
      refine ⟨env.clock .due, hseen .due, ?_⟩
      rw [hmoved, (hc.retried t ht hid').2, UInt64.toNat_add, Nat.mod_eq_of_lt (by omega)]
      omega

theorem ScheduleSteps.awaiting {env : Env} (hclock : BeforeEnd env)
    (hseen : ∀ site, Seen (env.clock site)) {c c' : Context} (h : ScheduleSteps env c c')
    (hc : Awaiting timerId Seen c) : Awaiting timerId Seen c' := by
  induction h with
  | refl => exact hc
  | tail _ hstep ih => exact hstep.awaiting hclock hseen ih

theorem onceRearm_mem {c : Context} {env : Env} {t' : Timer} (h : t' ∈ (onceRearm c env).timers) :
    ∃ t ∈ c.timers, t'.timerId = t.timerId ∧ t'.isOnce = t.isOnce ∧
      t'.timerInterval = t.timerInterval ∧ (t.isOnce → ∃ site, t'.timerNextTime = env.clock site) := by
  obtain ⟨i, hi, rfl⟩ := List.mem_mapIdx.1 h
  refine ⟨c.timers[i], List.getElem_mem hi, ?_⟩
  split_ifs with honce
  · exact ⟨rfl, rfl, rfl, fun _ => ⟨_, rfl⟩⟩
  · exact ⟨rfl, rfl, rfl, fun h => absurd h honce⟩

theorem onceRearm_awaiting {c : Context} (hnumbers : TimersNumbered c)
    (hlisted : ∃ t ∈ c.timers, t.timerId = timerId)
    (hretried : ∀ t ∈ c.timers, t.timerId = timerId → t.isOnce ∧ t.timerInterval = onceRetryMs)
    {env : Env} (hseen : ∀ site, Seen (env.clock site)) :
    Awaiting timerId Seen (onceRearm c env) where
  toTimersNumbered := hnumbers.congr (onceRearm_sameNumbers c env)
  listed := listed_congr (onceRearm_sameNumbers c env).keys hlisted
  retried t' ht' hid := by
    obtain ⟨t, ht, hid', honce, hinterval, -⟩ := onceRearm_mem ht'
    have hold := hretried t ht (hid'.symm.trans hid)
    exact ⟨honce.trans hold.1, hinterval.trans hold.2⟩
  due t' ht' hid := by
    obtain ⟨t, ht, hid', -, -, hnext⟩ := onceRearm_mem ht'
    obtain ⟨site, hsite⟩ := hnext (hretried t ht (hid'.symm.trans hid)).1
    exact due_of_eq (hseen site) hsite

/-- Once inputs are asked again after ten seconds. -/
def Retried (c : Context) : Prop := ∀ t ∈ c.timers, t.isOnce → t.timerInterval = onceRetryMs

/-- What holds in every state of a run. -/
structure OnceRun (c : Context) : Prop extends OnePoll c where
  subscribeCb : c.subscribeCb = true
  retried : Retried c

theorem Retried.congr {c c' : Context} (h : Retried c) (htimers : c'.timers = c.timers) :
    Retried c' := by
  unfold Retried
  rw [htimers]
  exact h

theorem Leave.retried {env : Env} {other serial : ℕ} {error : ℤ} {c c' : Context}
    (h : Leave env other serial error c c') (hdistinct : (c.timers.map (·.timerId)).Nodup)
    (hc : Retried c) : Retried c' := by
  intro t' ht' honce
  obtain ⟨t, ht, verdict, hj, -⟩ := h.alive ht' hdistinct
  exact hj.interval.trans (hc t ht (hj.isOnce.symm.trans honce))

theorem onceRearm_retried {c : Context} (hc : Retried c) (env : Env) : Retried (onceRearm c env) := by
  intro t' ht' honce
  obtain ⟨t, ht, -, hsame, hinterval, -⟩ := onceRearm_mem ht'
  exact hinterval.trans (hc t ht (hsame.symm.trans honce))

theorem ScheduleStep.retried {env : Env} {c c' : Context} (h : ScheduleStep env c c')
    (hdistinct : (c.timers.map (·.timerId)).Nodup) (hc : Retried c) : Retried c' := by
  intro t' ht' honce
  obtain ⟨t, ht, hrotated⟩ := h.mem hdistinct ht'
  exact hrotated.interval.trans (hc t ht (hrotated.isOnce.symm.trans honce))

theorem ScheduleStep.subscribeCb {env : Env} {c c' : Context} (h : ScheduleStep env c c') :
    c'.subscribeCb = c.subscribeCb := by
  have hgate : ∀ {i : ℕ} {timer : Timer} (_ : c.timers[i]? = some timer) (now : Millitime),
      (gatePost c timer now i).subscribeCb = c.subscribeCb := by
    intro i timer ht now
    rcases gatePost_cases ht now with ⟨-, hsame⟩ | ⟨-, -, hasked⟩
    · rw [hsame]
    · exact hasked.subscribeCb
  cases h with
  | books => rfl
  | due ht => exact hgate ht _
  | turn ht => exact hgate ht _

theorem ScheduleSteps.retried {env : Env} {c c' : Context} (h : ScheduleSteps env c c')
    (hnumbers : TimersNumbered c) (hc : Retried c) :
    c'.subscribeCb = c.subscribeCb ∧ TimersNumbered c' ∧ Retried c' := by
  induction h with
  | refl => exact ⟨rfl, hnumbers, hc⟩
  | tail _ hstep ih =>
    obtain ⟨hcb, hnumbers, hretried⟩ := ih
    exact ⟨hstep.subscribeCb.trans hcb, hnumbers.congr hstep.sameNumbers,
      hstep.retried hnumbers.distinct hretried⟩

theorem newTimer_once {c : Context} {config : Config} {m : Msg} {interval : ℤ} {env : Env}
    (h : (newTimer c config m interval env).isOnce) :
    (newTimer c config m interval env).timerInterval = onceRetryMs := by
  unfold newTimer at h ⊢
  dsimp only at h ⊢
  rw [h]
  rfl

/-- A once timer of the list after a subscription is an old one or the new one. -/
theorem once_insertTimer {mode : QueryMode} {timers : List Timer} {timer t' : Timer}
    (h : t' ∈ insertTimer mode timers timer) (honce : t'.isOnce) : t' ∈ timers ∨ t' = timer := by
  obtain ⟨t, hmem, hrescheduled⟩ := mem_insertTimer h
  rw [hrescheduled.once (hrescheduled.isOnce.symm.trans honce)]
  exact hmem

theorem OnceRun.perform {c : Context} (h : OnceRun c) {call : Call} (hturns : TurnsIdle c call)
    (env : Env) : OnceRun (call.perform c env) := by
  have honePoll := h.toOnePoll.perform hturns env
  have hchange := call.scheduleChange h.tagged env
  generalize call.perform c env = c' at honePoll hchange
  cases hchange with
  | aside hstill =>
    exact ⟨honePoll, hstill.subscribeCb.trans h.subscribeCb, h.retried.congr hstill.timers⟩
  | serves _ hleft =>
    exact ⟨honePoll, hleft.subscribeCb.trans h.subscribeCb, hleft.retried h.distinct h.retried⟩
  | schedules hstill hsteps =>
    obtain ⟨hcb, -, hretried⟩ := hsteps.retried (h.toTimersNumbered.congr hstill.sameNumbers)
      (h.retried.congr hstill.timers)
    exact ⟨honePoll, hcb.trans (hstill.subscribeCb.trans h.subscribeCb), hretried⟩
  | timesOut hleft hsteps =>
    obtain ⟨hcb, -, hretried⟩ := hsteps.retried (h.toTimersNumbered.congr hleft.sameNumbers)
      (hleft.retried h.distinct h.retried)
    exact ⟨honePoll, hcb.trans (hleft.subscribeCb.trans h.subscribeCb), hretried⟩
  | resets hemptied =>
    exact ⟨honePoll, hemptied.subscribeCb.trans h.subscribeCb,
      onceRearm_retried (h.retried.congr hemptied.timers) env⟩
  | rearms => exact ⟨honePoll, h.subscribeCb, onceRearm_retried h.retried env⟩
  | subscribes config writer =>
    refine ⟨honePoll, h.subscribeCb, fun t' ht' honce => ?_⟩
    rcases once_insertTimer ht' honce with hold | rfl
    · exact h.retried t' hold honce
    · exact newTimer_once honce
  | configures => exact ⟨honePoll, h.subscribeCb, h.retried⟩

theorem callPolls_eq {c : Context} {env : Env} {call : Call} {new : List PollEvent}
    (h : pollEvents (call.perform c env).log = pollEvents c.log ++ new) :
    callPolls c env call = new := by
  unfold callPolls
  rw [h, List.drop_left]

theorem ScheduleSteps.events {env : Env} (hclock : BeforeEnd env) {c c' : Context}
    (h : ScheduleSteps env c c') : ∃ new, pollEvents c'.log = pollEvents c.log ++ new ∧
      ∀ e ∈ new, ∃ id serial, e = .posted id serial := by
  induction h with
  | refl => exact ⟨[], (List.append_nil _).symm, nofun⟩
  | tail _ hstep ih =>
    obtain ⟨new, hevents, hnew⟩ := ih
    obtain ⟨posted, hposts, -⟩ := hstep.posts hclock
    cases hposts with
    | none _ hsame => exact ⟨new, hsame.trans hevents, hnew⟩
    | one _ _ hmore =>
      refine ⟨new ++ [_], by rw [hmore, hevents, List.append_assoc], fun e he => ?_⟩
      rcases List.mem_append.1 he with he | he
      · exact hnew e he
      · exact ⟨_, _, List.mem_singleton.1 he⟩

/-- An answer to a poll comes in while the head is served. -/
theorem ScheduleChange.replied {env : Env} (hclock : BeforeEnd env) {c c' : Context} {call : Call}
    (h : ScheduleChange env c call c') : ∃ new, pollEvents c'.log = pollEvents c.log ++ new ∧
      ∀ id serial error, .left id serial error ∈ new → error = 0 ∨ error = errException →
        Leave env id serial error c c' := by
  have hnone : ∀ {c' : Context}, pollEvents c'.log = pollEvents c.log →
      ∃ new, pollEvents c'.log = pollEvents c.log ++ new ∧
        ∀ id serial error, .left id serial error ∈ new → error = 0 ∨ error = errException →
          Leave env id serial error c c' := fun hsame =>
    ⟨[], hsame.trans (List.append_nil _).symm, nofun⟩
  cases h with
  | aside hstill => exact hnone hstill.events
  | serves _ hleave =>
    refine ⟨_, hleave.events, fun id serial error hmem _ => ?_⟩
    cases List.mem_singleton.1 hmem
    exact hleave
  | schedules hstill hsteps =>
    obtain ⟨new, hevents, hnew⟩ := hsteps.events hclock
    refine ⟨new, by rw [hevents, hstill.events], fun id serial error hmem _ => ?_⟩
    obtain ⟨_, _, hposted⟩ := hnew _ hmem
    cases hposted
  | timesOut hleave hsteps =>
    obtain ⟨new, hevents, hnew⟩ := hsteps.events hclock
    have hall := hevents
    rw [hleave.events, List.append_assoc] at hall
    refine ⟨_, hall, fun id serial error hmem hreply => ?_⟩
    rcases List.mem_append.1 hmem with hmem | hmem
    · cases List.mem_singleton.1 hmem
      exact absurd hreply (by decide)
    · obtain ⟨_, _, hposted⟩ := hnew _ hmem
      cases hposted
  | resets hemptied =>
    refine ⟨_, hemptied.events, fun id serial error hmem hreply => ?_⟩
    obtain ⟨_, -, heq⟩ := List.mem_map.1 hmem
    cases heq
    exact absurd hreply (by decide)
  | rearms => exact hnone rfl
  | subscribes => exact hnone rfl
  | configures => exact hnone rfl

theorem AnswersInput.leave {c : Context} {env : Env} {call : Call}
    (h : AnswersInput timerId c env call) (hclock : BeforeEnd env) (htagged : Tagged c) :
    ∃ serial, Leave env timerId serial 0 c (call.perform c env) := by
  obtain ⟨new, hevents, hnew⟩ := (call.scheduleChange htagged env).replied hclock
  obtain ⟨e, he, hanswers⟩ := h
  rw [callPolls_eq hevents] at he
  cases e with
  | posted => exact hanswers.elim
  | left id serial error =>
    obtain ⟨rfl, rfl⟩ := hanswers
    exact ⟨serial, hnew id serial 0 he (.inl rfl)⟩

theorem AnswersInput.readOnce {c : Context} (h : OnceRun c) {env : Env} (hclock : BeforeEnd env)
    {call : Call} (hanswers : AnswersInput timerId c env call)
    (honce : ∃ t ∈ c.timers, t.timerId = timerId ∧ t.isOnce) :
    ReadOnce timerId (call.perform c env) ∧
      pollsPosted timerId (call.perform c env).log = pollsPosted timerId c.log := by
  obtain ⟨serial, hleave⟩ := hanswers.leave hclock h.tagged
  obtain ⟨u, hu, huid, huonce⟩ := honce
  refine ⟨⟨h.toTimersNumbered.congr hleave.sameNumbers,
    listed_congr hleave.sameNumbers.keys ⟨u, hu, huid⟩,
    fun t' ht' hid => ?_, ?_⟩, hleave.pollsPosted timerId⟩
  · obtain ⟨verdict, htimers, hverdict⟩ := hleave.judged
    have hanswered : verdict = .answered := by
      rw [hverdict.resolve_right fun hdropped => hdropped.2.1 rfl, h.subscribeCb]
      rfl
    rw [htimers, hanswered] at ht'
    obtain ⟨t, ht, hj⟩ := mem_judge h.distinct ht'
    have hid' := hj.timerId.symm.trans hid
    have hsame := List.inj_on_of_nodup_map h.distinct ht hu (hid'.trans huid.symm)
    have honce : t.isOnce := hsame ▸ huonce
    refine ⟨hj.isOnce.trans honce, ?_⟩
    rw [hj.due, if_pos ⟨honce, rfl, hid'⟩]
  · have hnodup := h.polls
    rw [hleave.polls, List.map_cons, List.nodup_cons] at hnodup
    exact hnodup.1

/-- An input that is done stays done in every call that does not re-arm it. -/
theorem ReadOnce.perform {c : Context} (h : ReadOnce timerId c) {env : Env}
    (hclock : BeforeEnd env) {call : Call} (hrearms : ¬ RearmsInput timerId c env call) :
    ReadOnce timerId (call.perform c env) ∧
      pollsPosted timerId (call.perform c env).log = pollsPosted timerId c.log := by
  have hchange := call.scheduleChange h.tagged env
  generalize hperform : call.perform c env = c' at hchange ⊢
  have hsame : ∀ {c' : Context}, ReadOnce timerId c' → pollEvents c'.log = pollEvents c.log →
      ReadOnce timerId c' ∧ pollsPosted timerId c'.log = pollsPosted timerId c.log :=
    fun hread hevents => ⟨hread, pollsPosted_congr timerId hevents⟩
  cases hchange with
  | aside hstill => exact hsame (hstill.readOnce h) hstill.events
  | @serves _ other serial error _ _ hleave =>
    refine ⟨(hleave.readOnce h fun hreply hreturns => hrearms (.inr ?_)).1,
      hleave.pollsPosted timerId⟩
    have hother : other ≠ timerId := by
      rintro rfl
      have hunqueued := h.unqueued
      rw [hleave.polls] at hunqueued
      exact hunqueued (List.mem_cons_self ..)
    rw [hperform]
    refine ⟨⟨.left other serial error, ?_, hother, hreply⟩, hreturns⟩
    rw [callPolls_eq (by rw [hperform]; exact hleave.events)]
    exact List.mem_singleton_self _
  | schedules hstill hsteps =>
    obtain ⟨hread, hposted⟩ := hsteps.readOnce hclock (hstill.readOnce h)
    exact ⟨hread, hposted.trans (pollsPosted_congr timerId hstill.events)⟩
  | timesOut hleave hsteps =>
    have hmissed := (hleave.readOnce h fun hreply => absurd hreply (by decide)).1
    obtain ⟨hread, hposted⟩ := hsteps.readOnce hclock hmissed
    exact ⟨hread, hposted.trans (hleave.pollsPosted timerId)⟩
  | resets => exact absurd (.inl rfl) hrearms
  | rearms => exact absurd (.inl rfl) hrearms
  | @subscribes slaveId _ interval config writer =>
    obtain ⟨u, hu, huid⟩ := h.listed
    have hnew : c.timerIdNext + 1 ≠ timerId := by
      have hle := h.bounded u hu
      omega
    refine hsame ⟨h.toTimersNumbered.insertTimer (h.tagged.insertTimer _ rfl slaveId _) rfl rfl rfl,
      ?_, fun t' ht' hid => ?_, h.unqueued⟩ rfl
    · obtain ⟨t, ht, hid, -⟩ := insertTimer_mem config.queryMode (.inl hu)
      exact ⟨t, ht, hid.trans huid⟩
    · obtain ⟨t, ht, hrescheduled⟩ := mem_insertTimer ht'
      have hid' := hrescheduled.timerId.symm.trans hid
      rcases ht with ht | rfl
      · have hspent := h.spent t ht hid'
        exact hrescheduled.once hspent.1 ▸ hspent
      · exact absurd hid' hnew
  | configures =>
    exact hsame ⟨⟨⟨h.tagged.timers, h.tagged.queue⟩, h.distinct, h.bounded⟩, h.listed, h.spent,
      h.unqueued⟩ rfl

/-- An active input stays active in every call without a valid reply to its poll. -/
theorem Awaiting.perform {c : Context} (h : Awaiting timerId Seen c) {env : Env}
    (hclock : BeforeEnd env) (hseen : ∀ site, Seen (env.clock site)) {call : Call}
    (hanswers : ¬ AnswersInput timerId c env call) : Awaiting timerId Seen (call.perform c env) := by
  have hchange := call.scheduleChange h.tagged env
  generalize hperform : call.perform c env = c' at hchange ⊢
  cases hchange with
  | aside hstill => exact hstill.awaiting h
  | @serves _ other serial error _ _ hleave =>
    refine hleave.awaiting h hseen fun hmine => hanswers ⟨.left other serial error, ?_, hmine⟩
    rw [callPolls_eq (by rw [hperform]; exact hleave.events)]
    exact List.mem_singleton_self _
  | schedules hstill hsteps => exact hsteps.awaiting hclock hseen (hstill.awaiting h)
  | timesOut hleave hsteps =>
    exact hsteps.awaiting hclock hseen
      (hleave.awaiting h hseen fun hmine => absurd hmine.2 (by decide))
  | @resets c₁ hemptied =>
    exact onceRearm_awaiting (h.toTimersNumbered.congr hemptied.sameNumbers)
      (listed_congr hemptied.sameNumbers.keys h.listed) (hemptied.timers ▸ h.retried) hseen
  | rearms => exact onceRearm_awaiting h.toTimersNumbered h.listed h.retried hseen
  | @subscribes slaveId _ interval config writer =>
    obtain ⟨u, hu, huid⟩ := h.listed
    have hnew : c.timerIdNext + 1 ≠ timerId := by
      have hle := h.bounded u hu
      omega
    have hold : ∀ t' ∈ insertTimer config.queryMode c.timers
        (newTimer (setSlave c slaveId) config (.ofFrame 0 writer) interval env),
        t'.timerId = timerId → t' ∈ c.timers := by
      intro t' ht' hid
      obtain ⟨t, ht, hrescheduled⟩ := mem_insertTimer ht'
      have hid' := hrescheduled.timerId.symm.trans hid
      rcases ht with ht | rfl
      · rw [hrescheduled.once (h.retried t ht hid').1]
        exact ht
      · exact absurd hid' hnew
    refine ⟨h.toTimersNumbered.insertTimer (h.tagged.insertTimer _ rfl slaveId _) rfl rfl rfl,
      ?_, fun t' ht' hid => h.retried t' (hold t' ht' hid) hid,
      fun t' ht' hid => h.due t' (hold t' ht' hid) hid⟩
    obtain ⟨t, ht, hid, -⟩ := insertTimer_mem config.queryMode (.inl hu)
    exact ⟨t, ht, hid.trans huid⟩
  | configures =>
    exact ⟨⟨⟨h.tagged.timers, h.tagged.queue⟩, h.distinct, h.bounded⟩, h.listed, h.retried, h.due⟩

theorem OnceRun.once {c : Context} (h : OnceRun c)
    (honce : ∃ t ∈ c.timers, t.timerId = timerId ∧ t.isOnce) :
    ∀ t ∈ c.timers, t.timerId = timerId → t.isOnce ∧ t.timerInterval = onceRetryMs := by
  obtain ⟨u, hu, huid, huonce⟩ := honce
  intro t ht hid
  have hsame := List.inj_on_of_nodup_map h.distinct ht hu (hid.trans huid.symm)
  have honce : t.isOnce := hsame ▸ huonce
  exact ⟨honce, h.retried t ht honce⟩

theorem RearmsInput.awaiting {c : Context} (h : OnceRun c) {env : Env} (hclock : BeforeEnd env)
    (hseen : ∀ site, Seen (env.clock site)) {call : Call} (hrearms : RearmsInput timerId c env call)
    (honce : ∃ t ∈ c.timers, t.timerId = timerId ∧ t.isOnce) :
    Awaiting timerId Seen (call.perform c env) := by
  have hretried := h.once honce
  obtain ⟨u, hu, huid, -⟩ := honce
  rcases hrearms with hcall | ⟨⟨e, he, hanswers⟩, t, ht, hid, hset, hback⟩
  · cases call with
    | reset =>
      have hemptied := dropAll_emptied env c.queue h.tagged rfl
      exact onceRearm_awaiting (h.toTimersNumbered.congr hemptied.sameNumbers)
        (listed_congr hemptied.sameNumbers.keys ⟨u, hu, huid⟩) (hemptied.timers ▸ hretried) hseen
    | rearm => exact onceRearm_awaiting h.toTimersNumbered ⟨u, hu, huid⟩ hretried hseen
    | _ => cases hcall
  · obtain ⟨new, hevents, hnew⟩ := (call.scheduleChange h.tagged env).replied hclock
    rw [callPolls_eq hevents] at he
    cases e with
    | posted => exact hanswers.elim
    | left other serial error =>
      have hleave := hnew other serial error he hanswers.2
      have hnumbers := h.toTimersNumbered.congr hleave.sameNumbers
      refine ⟨hnumbers, listed_congr hleave.sameNumbers.keys ⟨u, hu, huid⟩, ?_, ?_⟩
      all_goals
        intro t' ht' hid'
        obtain ⟨s, hs, verdict, hj, -⟩ := hleave.alive ht' h.distinct
        have hold := hretried s hs (hj.timerId.symm.trans hid')
      · exact ⟨hj.isOnce.trans hold.1, hj.interval.trans hold.2⟩
      · -- the slave was silent before the answer and is not any more
        obtain ⟨s', hs', hsid, hclear⟩ := hback
        have hsame := List.inj_on_of_nodup_map h.distinct hs ht
          ((hj.timerId.symm.trans hid').trans hid.symm)
        have hsame' := List.inj_on_of_nodup_map hnumbers.distinct ht' hs' (hid'.trans hsid.symm)
        refine due_of_eq (hseen .update) ?_
        rw [hj.due, if_neg fun hmine => hanswers.1 (hmine.2.2.symm.trans (hj.timerId.symm.trans hid')),
          if_pos ⟨hold.1, hsame ▸ hset, hsame' ▸ hclear⟩]

theorem SubscribesInput.awaiting {c : Context} (h : OnceRun c) {env : Env}
    (hseen : ∀ site, Seen (env.clock site)) {call : Call}
    (hsubscribes : SubscribesInput timerId c env call) :
    Awaiting timerId Seen (call.perform c env) := by
  obtain ⟨hnew, u, hu, huid, huonce⟩ := hsubscribes
  have hchange := call.scheduleChange h.tagged env
  generalize call.perform c env = c' at hchange hu ⊢
  have hkeys : timerKeys c'.timers = timerKeys c.timers → Awaiting timerId Seen c' := by
    intro hkeys
    obtain ⟨t, ht, hid⟩ := listed_congr hkeys.symm ⟨u, hu, huid⟩
    exact absurd hid (hnew t ht)
  cases hchange with
  | aside hstill => exact hkeys hstill.sameNumbers.keys
  | serves _ hleave => exact hkeys hleave.sameNumbers.keys
  | schedules hstill hsteps =>
    exact hkeys (hsteps.gates.sameNumbers.keys.trans hstill.sameNumbers.keys)
  | timesOut hleave hsteps =>
    exact hkeys (hsteps.gates.sameNumbers.keys.trans hleave.sameNumbers.keys)
  | resets hemptied =>
    exact hkeys ((onceRearm_sameNumbers _ env).keys.trans hemptied.sameNumbers.keys)
  | rearms => exact hkeys (onceRearm_sameNumbers c env).keys
  | @subscribes slaveId _ interval config writer =>
    generalize hadded : newTimer (setSlave c slaveId) config (.ofFrame 0 writer) interval env = new
      at hu ⊢
    have hid : new.timerId = c.timerIdNext + 1 := hadded ▸ rfl
    have hnumbers : TimersNumbered { setSlave c slaveId with
        timerIdNext := c.timerIdNext + 1, timers := insertTimer config.queryMode c.timers new } :=
      h.toTimersNumbered.insertTimer (h.tagged.insertTimer _ hid slaveId _) hid rfl rfl
    have honly : u = new := by
      rcases once_insertTimer hu huonce with hold | hmine
      · exact absurd huid (hnew u hold)
      · exact hmine
    have hall : ∀ t' ∈ insertTimer config.queryMode c.timers new, t'.timerId = timerId → t' = u :=
      fun t' ht' hid =>
      List.inj_on_of_nodup_map hnumbers.distinct ht' hu (hid.trans huid.symm)
    refine ⟨hnumbers, ⟨u, hu, huid⟩, fun t' ht' hid => ?_, fun t' ht' hid => ?_⟩
    · rw [hall t' ht' hid]
      subst honly hadded
      exact ⟨huonce, newTimer_once huonce⟩
    · rw [hall t' ht' hid, honly, ← hadded]
      exact due_of_eq (hseen .head) rfl
  | configures => exact hkeys rfl

/-- A poll of the input is on the way, or its slave had to wait for its next probe when its
turn came. -/
def Polled (timerId : ℕ) (env : Env) (c₀ c : Context) : Prop :=
  timerId ∈ (queuedPolls c.queue).map Prod.fst ∨
    ∃ c₁ site, ScheduleSteps env c₀ c₁ ∧ ∃ t ∈ c₁.timers, t.timerId = timerId ∧
      t.unresponsive ∧ env.clock site < t.retryAt

theorem Polled.step {env : Env} (hclock : BeforeEnd env) {c₀ c c' : Context}
    (h : Polled timerId env c₀ c) (hstep : ScheduleStep env c c') : Polled timerId env c₀ c' := by
  refine h.imp_left fun hqueued => ?_
  obtain ⟨posted, hposts, -⟩ := hstep.posts hclock
  cases hposts with
  | none hpolls => exact hpolls ▸ hqueued
  | one _ hpolls =>
    rw [hpolls, List.map_append]
    exact List.mem_append_left _ hqueued

theorem Polled.steps {env : Env} (hclock : BeforeEnd env) {c₀ c c' : Context}
    (h : Polled timerId env c₀ c) (hsteps : ScheduleSteps env c c') : Polled timerId env c₀ c' := by
  induction hsteps with
  | refl => exact h
  | tail _ hstep ih => exact ih.step hclock hstep

theorem gatePost_polled {env : Env} {c₀ c : Context} (hsteps : ScheduleSteps env c₀ c) {i : ℕ}
    {t : Timer} (ht : c.timers[i]? = some t) (hid : t.timerId = timerId) (site : Site) :
    Polled timerId env c₀ (gatePost c t (env.clock site) i) := by
  rcases gatePost_cases ht (env.clock site) with ⟨hshut, -⟩ | ⟨-, -, hasked⟩
  · refine .inr ⟨c, site, hsteps, t, List.mem_of_getElem? ht, hid, ?_⟩
    unfold slaveGate at hshut
    split_ifs at hshut with hset hwait
    exact ⟨hset, hwait⟩
  · left
    rw [hasked.polls, List.map_append, hid]
    exact List.mem_append_right _ (List.mem_singleton_self _)

def DueNow (timerId : ℕ) (env : Env) (c : Context) : Prop :=
  ∀ t ∈ c.timers, t.timerId = timerId → t.timerNextTime ≤ env.clock .due

/-- In its turn in the walk of the timers an input that is due is polled. -/
theorem pollTimer_polled {env : Env} (hclock : BeforeEnd env) {c₀ : Context} {s : Scheduled}
    (hsteps : ScheduleSteps env c₀ s.ctx) (hnumbers : TimersNumbered s.ctx)
    (h : Polled timerId env c₀ s.ctx ∨ DueNow timerId env s.ctx) (i : ℕ) :
    (Polled timerId env c₀ (pollTimer (env.clock .due) s i).ctx ∨
      DueNow timerId env (pollTimer (env.clock .due) s i).ctx) ∧
    ((s.ctx.timers.map (·.timerId))[i]? = some timerId →
      Polled timerId env c₀ (pollTimer (env.clock .due) s i).ctx) := by
  rcases h with h | hdue
  · have hkept := h.steps hclock (pollTimer_schedule env s i)
    exact ⟨.inl hkept, fun _ => hkept⟩
  · rw [List.getElem?_map]
    cases ht : s.ctx.timers[i]? with
    | none =>
      have hsame : pollTimer (env.clock .due) s i = s := by
        unfold pollTimer
        rw [ht]
      rw [hsame]
      exact ⟨.inr hdue, nofun⟩
    | some timer =>
      have hmem := List.mem_of_getElem? ht
      by_cases hmine : timer.timerId = timerId
      · refine (fun hpolled => ⟨.inl hpolled, fun _ => hpolled⟩) ?_
        unfold pollTimer
        rw [ht]
        dsimp only
        split_ifs with hturn
        · exact gatePost_polled hsteps ht hmine .due
        · -- the timer is due, so one of its polls is in the queue
          left
          rw [queuedPolls_fst]
          have hqueued := not_not.1 fun hidle => hturn ⟨hdue timer hmem hmine, hidle⟩
          obtain ⟨w, hw, hid⟩ := List.any_eq_true.1 hqueued
          have hid := of_decide_eq_true hid
          refine List.mem_map.2 ⟨w, List.mem_filter.2 ⟨hw, decide_eq_true ?_⟩, hid.trans hmine⟩
          have hpos := hnumbers.tagged.timers timer hmem
          have hpost := (hnumbers.tagged.queue w hw).1
          cases hflags : w.flags with
          | subscribe => rfl
          | post => exact absurd (hpost hflags) (by omega)
      · refine ⟨.inr fun t' ht' hid => ?_, fun hsame => absurd (Option.some.inj hsame) hmine⟩
        rcases pollTimer_cases (env.clock .due) s i with hsame | ⟨turned, hturned, -, -, hmoved⟩
        · rw [hsame] at ht'
          exact hdue t' ht' hid
        · obtain rfl : timer = turned := Option.some.inj (ht.symm.trans hturned)
          rw [hmoved] at ht'
          obtain ⟨t, hmem', hid', -, -, ⟨-, hnext⟩ | ⟨rfl, -⟩⟩ :=
            mem_advanceTimer hnumbers.distinct ht _ ht'
          · rw [hnext]
            exact hdue t hmem' (hid'.symm.trans hid)
          · exact absurd (hid'.symm.trans hid) hmine

theorem loopPrepareTimers_polled {env : Env} (hclock : BeforeEnd env) {c : Context}
    (hnumbers : TimersNumbered c) (hlisted : ∃ t ∈ c.timers, t.timerId = timerId)
    (hdue : DueNow timerId env c) (sleepTime : Millitime) :
    Polled timerId env c (loopPrepareTimers c sleepTime env).ctx := by
  obtain ⟨i, hi⟩ : ∃ i : ℕ, (c.timers.map (·.timerId))[i]? = some timerId := by
    obtain ⟨t, ht, hid⟩ := hlisted
    exact List.mem_iff_getElem?.1 (List.mem_map.2 ⟨t, ht, hid⟩)
  have hwalk : ∀ (l : List ℕ) (s : Scheduled), ScheduleSteps env c s.ctx →
      Polled timerId env c s.ctx ∨ DueNow timerId env s.ctx ∧ i ∈ l →
        Polled timerId env c (l.foldl (pollTimer (env.clock .due)) s).ctx := by
    intro l
    induction l with
    | nil => exact fun s _ h => h.elim id fun hlater => absurd hlater.2 List.not_mem_nil
    | cons j l ih =>
      intro s hsteps h
      have hsame := hsteps.gates.sameNumbers
      obtain ⟨hkept, hturn⟩ := pollTimer_polled hclock hsteps (hnumbers.congr hsame)
        (h.imp_right And.left) j
      refine ih _ (hsteps.trans (pollTimer_schedule env s j)) ?_
      rcases h with hpolled | ⟨-, hmem⟩
      · exact .inl (hpolled.steps hclock (pollTimer_schedule env s j))
      · rcases List.mem_cons.1 hmem with rfl | hlater
        · exact .inl (hturn (by rw [timerIds_congr hsame.keys]; exact hi))
        · exact hkept.imp_right fun hdue => ⟨hdue, hlater⟩
  refine hwalk _ ⟨c, _⟩ .refl (.inr ⟨hdue, List.mem_range.2 ?_⟩)
  simpa using (List.getElem?_eq_some_iff.1 hi).1

theorem ScheduleStep.identities {env : Env} {c c' : Context} (h : ScheduleStep env c c') :
    c'.identities = c.identities := by
  have hgate : ∀ {i : ℕ} (timer : Timer) (now : Millitime),
      (gatePost c timer now i).identities = c.identities := by
    intro i timer now
    have hasked := (slaveGate_sameRounds c timer now).identities
    unfold gatePost
    split_ifs
    · exact (postTimer_keepsRound _ i).identities.trans hasked
    · exact hasked
  cases h with
  | books => rfl
  | @due i timer =>
    have hmoved := sameRounds_modify_timers (gatePost c timer (env.clock .due) i) i
      (fun t => { t with timerNextTime := t.timerNextTime + t.timerInterval }) fun _ => rfl
    exact hmoved.identities.trans (hgate timer _)
  | turn => exact hgate _ _

theorem ScheduleSteps.identity {env : Env} {c c' : Context} (h : ScheduleSteps env c c') {t : Timer}
    (ht : t ∈ c.timers) : ∃ t' ∈ c'.timers, t'.identity = t.identity := by
  have hsame : c'.identities = c.identities := by
    induction h with
    | refl => rfl
    | tail _ hstep ih => exact hstep.identities.trans ih
  have hmem : t.identity ∈ c'.identities := hsame ▸ List.mem_map_of_mem ht
  exact List.mem_map.1 hmem

/-- A round polls an active input whose tier and slave it asks for. -/
theorem roundPost_polled {env : Env} (hclock : BeforeEnd env) (hseen : ∀ site, Seen (env.clock site))
    (hend : ∀ now, Seen now → now.toNat + onceRetryMs.toNat < neverAgain.toNat) {c₀ c : Context}
    (hsteps : ScheduleSteps env c₀ c) (hc : Awaiting timerId Seen c) {t : Timer} (ht : t ∈ c.timers)
    (hid : t.timerId = timerId) {slave : ℤ} (hslave : slave < 0 ∨ (t.slave : ℤ) = slave)
    (site : ℕ → Site) :
    Polled timerId env c₀ (roundPost c t.tier slave (env.clock ∘ site)) := by
  obtain ⟨i, hi⟩ := List.mem_iff_getElem?.1 ht
  have hidentity : c.identities[i]? = some t.identity := by
    unfold Context.identities
    rw [List.getElem?_map, hi]
    rfl
  have hwalk : ∀ (l : List ℕ) (c' : Context), ScheduleSteps env c c' →
      c'.identities = c.identities → Polled timerId env c₀ c' ∨ i ∈ l →
        Polled timerId env c₀ (l.foldl (roundPostTimer t.tier slave (env.clock ∘ site)) c') := by
    intro l
    induction l with
    | nil => exact fun c' _ _ h => h.elim id fun hlater => absurd hlater List.not_mem_nil
    | cons j l ih =>
      intro c' hsteps' hsame h
      have hturn := roundPostTimer_schedule t.tier slave env site c' j
      refine ih _ (hsteps'.trans hturn)
        ((roundPostTimer_keepsRound t.tier slave _ c' j).identities.trans hsame) ?_
      rcases h with hpolled | hmem
      · exact .inl (hpolled.steps hclock hturn)
      · refine (List.mem_cons.1 hmem).imp (fun hij => ?_) id
        subst hij
        -- the timer behind the index is still that of the input, and not done
        rw [← hsame] at hidentity
        unfold Context.identities at hidentity
        rw [List.getElem?_map, Option.map_eq_some_iff] at hidentity
        obtain ⟨t', ht', heq⟩ := hidentity
        simp only [Timer.identity, Prod.mk.injEq] at heq
        obtain ⟨hid', htier, hslave', -⟩ := heq
        have hopen : ¬ (t'.isOnce = true ∧ t'.timerNextTime = neverAgain) :=
          (hsteps'.awaiting hclock hseen hc).unread hend t' (List.mem_of_getElem? ht') (hid'.trans hid)
        unfold roundPostTimer
        rw [ht']
        dsimp only
        rw [if_neg ?_, if_neg hopen]
        · exact gatePost_polled (hsteps.trans hsteps') ht' (hid'.trans hid) (site i)
        · rintro (hother | ⟨hone, hother⟩)
          · exact hother htier
          · rcases hslave with hall | hsame
            · exact absurd hone (not_le.2 hall)
            · exact hother (hslave' ▸ hsame)
  refine hwalk _ c .refl rfl (.inr (List.mem_range.2 ?_))
  exact (List.getElem?_eq_some_iff.1 hi).1

/-- Which round an input belongs to: every one for a fast input, that of its slave or with its
slave in the focus for a deep one. -/
def InRound (c : Context) (env : Env) (t : Timer) : Prop :=
  t.tier = .fast ∨ t.tier = .deep ∧
    ((t.slave : ℤ) = roundNextDeepSlave c env ∨ (t.slave : ℤ) = c.roundFocus)

theorem roundStart_polled {env : Env} (hclock : BeforeEnd env) (hseen : ∀ site, Seen (env.clock site))
    (hend : ∀ now, Seen now → now.toNat + onceRetryMs.toNat < neverAgain.toNat) {c₀ c : Context}
    (hsteps : ScheduleSteps env c₀ c) (hc : Awaiting timerId Seen c) {t : Timer} (ht : t ∈ c.timers)
    (hid : t.timerId = timerId) (hround : InRound c env t) :
    Polled timerId env c₀ (roundStart c env) := by
  obtain ⟨c₁, c₂, c₃, hc₁, hc₂, hc₃, hkept, hstart⟩ := roundStart_eq c env
  generalize hturn : roundNextDeepSlave c env = turn at hc₃ hstart
  have hbegin : ScheduleSteps env c c₁ := by
    rw [hc₁]
    exact .single (.books ..)
  have hfast : ScheduleSteps env c₁ c₂ := by
    rw [hc₂]
    exact roundPost_schedule c₁ .fast (-1) env .fast
  have hvisit : ScheduleSteps env c₂ c₃ := by
    rw [hc₃]
    split_ifs
    · exact (roundPost_schedule c₂ .deep turn env .deep).tail (.books ..)
    · exact .refl
  have hfocus : ScheduleSteps env c₃ (roundStart c env) := by
    rw [hstart]
    split_ifs
    · exact roundPost_schedule c₃ .deep _ env .focus
    · exact .refl
  -- in each of its parts the round finds the input as it was at the start
  have hpost : ∀ {c' : Context}, ScheduleSteps env c c' → ∀ {slave : ℤ},
      (slave < 0 ∨ (t.slave : ℤ) = slave) → ∀ site : ℕ → Site,
        Polled timerId env c₀ (roundPost c' t.tier slave (env.clock ∘ site)) := by
    intro c' hsteps' slave hslave site
    obtain ⟨t', ht', heq⟩ := hsteps'.identity ht
    simp only [Timer.identity, Prod.mk.injEq] at heq
    obtain ⟨hid', htier, hslave', -⟩ := heq
    rw [← htier]
    exact roundPost_polled hclock hseen hend (hsteps.trans hsteps')
      (hsteps'.awaiting hclock hseen hc) ht' (hid'.trans hid) (hslave' ▸ hslave) site
  rcases hround with htier | ⟨htier, hslave⟩
  · have hpolled := hpost hbegin (.inl (by decide : (-1 : ℤ) < 0)) .fast
    rw [htier, ← hc₂] at hpolled
    exact hpolled.steps hclock (hvisit.trans hfocus)
  · have hvisited : (t.slave : ℤ) = turn → Polled timerId env c₀ c₃ := by
      intro hslave
      have hpolled := hpost (hbegin.trans hfast) (.inr hslave) .deep
      rw [htier] at hpolled
      rw [hc₃, if_pos (hslave ▸ Int.natCast_nonneg _)]
      exact hpolled
    rw [hturn] at hslave
    rcases hslave with hslave | hslave
    · exact (hvisited hslave).steps hclock hfocus
    · by_cases hsame : (t.slave : ℤ) = turn
      · exact (hvisited hsame).steps hclock hfocus
      · have hpolled := hpost ((hbegin.trans hfast).trans hvisit) (.inr hslave) .focus
        rw [htier, ← hkept] at hpolled
        rw [hstart, if_pos ⟨by omega, by omega⟩]
        exact hpolled

/-- In a call of the loop it is the turn of the input: it is due, or it is part of the round
that opens. -/
inductive TurnComes (timerId : ℕ) (c : Context) (env : Env) : Prop
  | due (hopen : c.connected = true) (hmode : ¬ InRounds c) (hdue : DueNow timerId env c)
  | round {c₁ : Context} {t : Timer} (hopens : roundOpening c env = some c₁) (ht : t ∈ c₁.timers)
      (hid : t.timerId = timerId) (hround : InRound c₁ env t)

theorem timeOutHead_awaiting {c : Context} (h : Awaiting timerId Seen c) {env : Env}
    (hseen : ∀ site, Seen (env.clock site)) : Awaiting timerId Seen (timeOutHead c env) ∧
      (DueNow timerId env c → DueNow timerId env (timeOutHead c env)) := by
  rcases timeOutHead_left h.tagged env with hstill | ⟨_, _, _, _, _, hleave⟩
  · refine ⟨hstill.awaiting h, fun hdue => ?_⟩
    unfold DueNow
    rw [hstill.timers]
    exact hdue
  · refine ⟨hleave.awaiting h hseen fun hmine => absurd hmine.2 (by decide), fun hdue t' ht' hid => ?_⟩
    obtain ⟨t, ht, verdict, hj, hanswered, halive⟩ := hleave.alive ht' h.distinct
    have hnext := hj.due
    rw [if_neg fun hmine => absurd (hanswered hmine.2.1) (by decide),
      if_neg fun hback => absurd (halive hback.2.1 hback.2.2) (by decide)] at hnext
    rw [hnext]
    exact hdue t ht (hj.timerId.symm.trans hid)

theorem Awaiting.polled {c : Context} (h : Awaiting timerId Seen c) {env : Env}
    (hclock : BeforeEnd env) (hseen : ∀ site, Seen (env.clock site))
    (hend : ∀ now, Seen now → now.toNat + onceRetryMs.toNat < neverAgain.toNat)
    (hturn : TurnComes timerId c env) (sleepTime : Millitime) :
    Polled timerId env (timeOutHead c env) (loopPrepare c sleepTime env).ctx := by
  obtain ⟨hout, hdueOut⟩ := timeOutHead_awaiting h hseen
  cases hturn with
  | due hopen hmode hdue =>
    have hwalk := loopPrepareTimers_polled hclock hout.toTimersNumbered hout.listed (hdueOut hdue)
      sleepTime
    have hconfig := (timeOutHead_sameRounds c env).config
    unfold loopPrepare
    rw [if_pos hopen, prepareEvents_ctx]
    unfold loopPrepareSubscription
    split
    · rename_i config hsome
      rw [if_neg fun hrounds => hmode ⟨config, hconfig.symm.trans hsome, hrounds⟩]
      exact hwalk
    · exact hwalk
  | @round c₁ t hopens ht hid hround =>
    have hover : c₁ = roundOver (timeOutHead c env) env ∧ InRounds c ∧ c.connected = true := by
      unfold roundOpening at hopens
      split_ifs at hopens with hopen
      obtain ⟨config, hconfig, hif⟩ := Option.bind_eq_some_iff.1 hopens
      split_ifs at hif with hdue
      refine ⟨(Option.some.inj hif).symm, ⟨config, ?_, hdue.1⟩, hopen⟩
      rw [← hconfig]
      exact (timeOutHead_sameRounds c env).config.symm
    obtain ⟨hc₁, hmode, hopen⟩ := hover
    have hbooks : ScheduleSteps env (timeOutHead c env) c₁ := by
      rw [hc₁]
      unfold roundOver
      split_ifs
      · exact .single (.books ..)
      · exact .refl
    rw [loopPrepare_rounds hmode hopen, hopens]
    exact roundStart_polled hclock hseen hend hbooks (hbooks.awaiting hclock hseen hout) ht hid hround

theorem Fresh.onceRun {c : Context} (h : Fresh c) (hcb : c.subscribeCb = true) : OnceRun c where
  toOnePoll := h.onePoll
  subscribeCb := hcb
  retried := by simp [Retried, h.timers]

theorem OnceRun.run {c : Context} (h : OnceRun c) {calls : List (Call × Env)}
    (hcalls : Along (fun c _ call => TurnsIdle c call) calls c) : OnceRun (run calls c) :=
  hcalls.keeps (fun _ env _ h hturns => h.perform hturns env) h

theorem ReadOnce.run {c : Context} (h : ReadOnce timerId c) {calls : List (Call × Env)}
    (hclock : ∀ made ∈ calls, BeforeEnd made.2)
    (hcalls : Along (fun c env call => ¬ RearmsInput timerId c env call) calls c) :
    pollsPosted timerId (Modbusmq.run calls c).log = pollsPosted timerId c.log := by
  induction calls generalizing c with
  | nil => rfl
  | cons call calls ih =>
    obtain ⟨hread, hposted⟩ := h.perform (hclock call (List.mem_cons_self ..)) hcalls.1
    have hrest := ih hread (fun made hmade => hclock made (List.mem_cons_of_mem _ hmade)) hcalls.2
    exact hrest.trans hposted

theorem Awaiting.run {c : Context} (h : Awaiting timerId Seen c) {calls : List (Call × Env)}
    (hclock : ∀ made ∈ calls, BeforeEnd made.2)
    (hseen : ∀ made ∈ calls, ∀ site, Seen (made.2.clock site))
    (hcalls : Along (fun c env call => ¬ AnswersInput timerId c env call) calls c) :
    Awaiting timerId Seen (Modbusmq.run calls c) := by
  have htimes : Along (fun _ env _ => BeforeEnd env ∧ ∀ site, Seen (env.clock site)) calls c :=
    Along.of_forall (fun made hmade => ⟨hclock made hmade, hseen made hmade⟩) c
  refine (htimes.and hcalls).keeps (fun _ _ _ h hcall => ?_) h
  obtain ⟨⟨hclock, hseen⟩, hanswers⟩ := hcall
  exact h.perform hclock hseen hanswers

/-- The input is subscribed, to be read once. -/
def OnceInput (timerId : ℕ) (c : Context) : Prop := ∃ t ∈ c.timers, t.timerId = timerId ∧ t.isOnce

/-- The input is to be read: it is not done, it is due ten seconds after some time read in the
calls at most, and in every call in which its turn comes it is polled. -/
structure Active (timerId : ℕ) (calls : List (Call × Env)) (c : Context) : Prop where
  listed : ∃ t ∈ c.timers, t.timerId = timerId
  unread : ∀ t ∈ c.timers, t.timerId = timerId → ¬ t.Spent
  due : ∀ t ∈ c.timers, t.timerId = timerId →
    ∃ now, ReadIn calls now ∧ t.timerNextTime.toNat ≤ now.toNat + onceRetryMs.toNat
  polled : ∀ env, BeforeEnd env → TurnComes timerId c env → ∀ sleepTime,
    Polled timerId env (timeOutHead c env) (loopPrepare c sleepTime env).ctx

theorem Awaiting.mono {More : Millitime → Prop} {c : Context} (h : Awaiting timerId Seen c)
    (hmore : ∀ now, Seen now → More now) : Awaiting timerId More c where
  toTimersNumbered := h.toTimersNumbered
  listed := h.listed
  retried := h.retried
  due t ht hid := by
    obtain ⟨now, hseen, hle⟩ := h.due t ht hid
    exact ⟨now, hmore now hseen, hle⟩

theorem Awaiting.active {c : Context} {calls : List (Call × Env)}
    (h : Awaiting timerId (ReadIn calls) c) (hclock : ∀ made ∈ calls, BeforeEnd made.2) :
    Active timerId calls c := by
  have hend : ∀ now, ReadIn calls now → now.toNat + onceRetryMs.toNat < neverAgain.toNat := by
    rintro _ ⟨made, hmade, site, rfl⟩
    exact hclock made hmade site
  refine ⟨h.listed, h.unread hend, h.due, fun env henv hturn sleepTime => ?_⟩
  have hmore : Awaiting timerId (fun now => ReadIn calls now ∨ ∃ site, now = env.clock site) c :=
    h.mono fun now => .inl
  refine hmore.polled henv (fun site => .inr ⟨site, rfl⟩) ?_ hturn sleepTime
  rintro now (hread | ⟨site, rfl⟩)
  · exact hend now hread
  · exact henv site

/-- In every query mode, a valid reply to the poll of a once input is followed by no further poll
of it before a re-arm, and its subscription and each re-arm leave it active until a further
valid reply. -/
theorem once_reads {c₀ : Context} (hfresh : Fresh c₀) (hcb : c₀.subscribeCb = true)
    {before : List (Call × Env)} (hbefore : Along (fun c _ call => TurnsIdle c call) before c₀)
    {call : Call} {env : Env} {after : List (Call × Env)}
    (hclock : ∀ made ∈ (call, env) :: after, BeforeEnd made.2) (timerId : ℕ) :
    (OnceInput timerId (run before c₀) → AnswersInput timerId (run before c₀) env call →
      Along (fun c env call => ¬ RearmsInput timerId c env call) after
        (call.perform (run before c₀) env) →
      pollsPosted timerId (run ((call, env) :: after) (run before c₀)).log =
        pollsPosted timerId (run before c₀).log) ∧
    ((SubscribesInput timerId (run before c₀) env call ∨
        OnceInput timerId (run before c₀) ∧ RearmsInput timerId (run before c₀) env call) →
      Along (fun c env call => ¬ AnswersInput timerId c env call) after
        (call.perform (run before c₀) env) →
      Active timerId ((call, env) :: after) (run ((call, env) :: after) (run before c₀))) := by
  have hrun := (hfresh.onceRun hcb).run hbefore
  have hnow := hclock (call, env) (List.mem_cons_self ..)
  have hlater : ∀ made ∈ after, BeforeEnd made.2 := fun made hmade =>
    hclock made (List.mem_cons_of_mem _ hmade)
  constructor
  · intro honce hanswers hquiet
    obtain ⟨hread, hposted⟩ := hanswers.readOnce hrun hnow honce
    exact (hread.run hlater hquiet).trans hposted
  · intro harmed hunanswered
    have hseen : ∀ made ∈ (call, env) :: after, ∀ site,
        ReadIn ((call, env) :: after) (made.2.clock site) := fun made hmade site =>
      ⟨made, hmade, site, rfl⟩
    have hstart : Awaiting timerId (ReadIn ((call, env) :: after))
        (call.perform (run before c₀) env) := by
      rcases harmed with hsubscribes | ⟨honce, hrearms⟩
      · exact hsubscribes.awaiting hrun (hseen _ (List.mem_cons_self ..))
      · exact hrearms.awaiting hrun hnow (hseen _ (List.mem_cons_self ..)) honce
    have hend := hstart.run hlater (fun made hmade => hseen made (List.mem_cons_of_mem _ hmade))
      hunanswered
    exact hend.active hclock

instance (timerId : ℕ) (c : Context) : Decidable (OnceInput timerId c) :=
  inferInstanceAs (Decidable (∃ t ∈ c.timers, _ ∧ _))

instance (timerId : ℕ) (c : Context) (env : Env) (call : Call) :
    Decidable (AnswersInput timerId c env call) :=
  inferInstanceAs (Decidable (∃ e ∈ callPolls c env call, e.Answers timerId))

instance (timerId : ℕ) (timers timers' : List Timer) : Decidable (Returns timerId timers timers') :=
  inferInstanceAs (Decidable (∃ t ∈ timers, _ ∧ _ ∧ ∃ t' ∈ timers', _ ∧ _))

instance (timerId : ℕ) (c : Context) (env : Env) (call : Call) :
    Decidable (RearmsInput timerId c env call) :=
  inferInstanceAs (Decidable (_ ∨ (∃ e ∈ callPolls c env call, e.AnswersOther timerId) ∧ _))

def onceAsked : List (Call × Env) :=
  [(.subscribe 5 (.readHoldingRegisters 0 1) intervalOnce, atTime 0), (.prepare 100, atTime 0),
    (.writeRead ⟨false, true, false, false⟩, atTime 0),
    (.arrive [0, 1, 0, 0, 0, 5, 5, 3, 2, 0, 7], atTime 0),
    (.writeRead ⟨true, false, false, false⟩, atTime 0)]

def onceAnswered : Call × Env := (.writeRead ⟨true, false, false, false⟩, atTime 0)

theorem beforeEnd_wakeUps {times : List Millitime}
    (h : ∀ now ∈ times, now.toNat + onceRetryMs.toNat < neverAgain.toNat) :
    ∀ made ∈ wakeUps times, BeforeEnd made.2 := by
  intro made hmade
  obtain ⟨now, hnow, rfl⟩ := List.mem_map.1 hmade
  exact atTime_beforeEnd (h now hnow)

/-- Ten seconds and more after the reply nothing is asked. A re-arm has the input asked again,
and again after a timeout. -/
theorem once_reads_example :
    pollsPosted 1 (run (onceAnswered :: wakeUps [20000, 30000]) (run onceAsked probedContext)).log =
      pollsPosted 1 (run onceAsked probedContext).log ∧
    Active 1 ((.rearm, atTime 40000) :: wakeUps [40001, 41000, 51000])
      (run ((.rearm, atTime 40000) :: wakeUps [40001, 41000, 51000])
        (run (onceAsked ++ [onceAnswered]) probedContext)) ∧
    pollsPosted 1 (run ((.rearm, atTime 40000) :: wakeUps [40001, 41000, 51000])
      (run (onceAsked ++ [onceAnswered]) probedContext)).log = 3 := by
  have hfresh : Fresh probedContext := ⟨rfl, rfl, rfl, rfl⟩
  have hasked : Along (fun c _ call => TurnsIdle c call) onceAsked probedContext :=
    ⟨trivial, trivial, trivial, trivial, trivial, trivial⟩
  have hanswered : Along (fun c _ call => TurnsIdle c call) (onceAsked ++ [onceAnswered])
      probedContext := ⟨trivial, trivial, trivial, trivial, trivial, trivial, trivial⟩
  refine ⟨?_, ?_, by decide +kernel⟩
  · refine (once_reads hfresh rfl hasked (List.forall_mem_cons.2 ⟨?_, ?_⟩) 1).1
      (by decide +kernel) (by decide +kernel) (by decide +kernel)
    · exact atTime_beforeEnd (by decide +kernel)
    · exact beforeEnd_wakeUps (List.forall_mem_cons.2 ⟨by decide +kernel,
        List.forall_mem_cons.2 ⟨by decide +kernel, nofun⟩⟩)
  · refine (once_reads hfresh rfl hanswered (List.forall_mem_cons.2 ⟨?_, ?_⟩) 1).2
      (.inr ⟨by decide +kernel, .inl rfl⟩) (by decide +kernel)
    · exact atTime_beforeEnd (by decide +kernel)
    · exact beforeEnd_wakeUps (List.forall_mem_cons.2 ⟨by decide +kernel,
        List.forall_mem_cons.2 ⟨by decide +kernel, List.forall_mem_cons.2
          ⟨by decide +kernel, nofun⟩⟩⟩)

end Modbusmq
