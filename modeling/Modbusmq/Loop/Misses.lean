import Modbusmq.Loop.Framing
import Modbusmq.Loop.Probing

/-!
# Polls that a slave did not answer

`modbusmq_loop_prepare` gives up two kinds of requests with one error: those that
were sent and got no answer, and those that were not sent in time. The backoff of
a slave counts both. Where a poll that times out was always sent, a slave is
unresponsive only after three polls in a row that it could have answered.
-/

namespace Modbusmq

open Probes

/-- The request was transmitted from its first byte to its last. -/
def Msg.OnWire (m : Msg) : Prop := 0 < m.writer.length ∧ m.writer.xmit = m.writer.length

instance (m : Msg) : Decidable m.OnWire := inferInstanceAs (Decidable (_ ∧ _))

/-- One event more in the count of the polls that the slave with the timers `mine` left
unanswered. An answer or an exception starts the count again. -/
def countUnanswered (mine : ℕ → Bool) (count : ℕ) : Event → ℕ
  | .released m error =>
    if ¬ mine m.msgId then count
    else if error = 0 ∨ error = errException then 0
    else if error = errTimeout ∧ m.OnWire then count + 1
    else count
  | _ => count

/-- How many polls of a slave were transmitted completely and timed out since the last of its
polls that was answered. -/
def unansweredPolls (c : Context) (slave : ℕ) : ℕ :=
  c.log.foldl (countUnanswered (ownedBy c.timers slave)) 0

/-- The same count over attempts, where every timeout is a miss. -/
def tally (count : ℕ) : Attempt ℕ → ℕ
  | .sent _ => count
  | .answered => 0
  | .missed _ => count + 1

def timeoutsInRow (c : Context) (slave : ℕ) : ℕ :=
  ((pollEvents c.log).filterMap (PollEvent.attempt (ownedBy c.timers slave))).foldl tally 0

/-- The polls that timed out were on the wire. -/
def TimeoutsSent (log : List Event) : Prop :=
  ∀ m, .released m errTimeout ∈ log → 0 < m.msgId → m.OnWire

theorem ownedBy_zero {c : Context} (h : Tagged c) (slave : ℕ) : ownedBy c.timers slave 0 = false := by
  refine decide_eq_false fun hmem => ?_
  obtain ⟨t, ht, hkey⟩ := List.mem_map.1 hmem
  simp only [Prod.mk.injEq] at hkey
  have hpos := h.timers t ht
  omega

theorem tally_released {mine : ℕ → Bool} (hzero : mine 0 = false) {m : Msg} {error : ℤ}
    (hsent : error = errTimeout → 0 < m.msgId → m.OnWire) (count : ℕ) :
    ((Event.released m error).poll.bind (PollEvent.attempt mine)).elim count (tally count) =
      countUnanswered mine count (.released m error) := by
  simp only [Event.poll, countUnanswered]
  by_cases hmine : mine m.msgId = true
  · have hpos : 0 < m.msgId := by
      refine Nat.pos_of_ne_zero fun hid => ?_
      rw [hid, hzero] at hmine
      cases hmine
    rw [if_pos hpos, if_neg (not_not.2 hmine), Option.bind_some]
    simp only [PollEvent.attempt, if_neg (not_not.2 hmine)]
    by_cases hanswer : error = 0 ∨ error = errException
    · rw [if_pos hanswer, if_pos hanswer]
      rfl
    · rw [if_neg hanswer, if_neg hanswer]
      by_cases hslow : error = errTimeout
      · rw [if_pos hslow, if_pos ⟨hslow, hsent hslow hpos⟩]
        rfl
      · rw [if_neg hslow, if_neg fun h => hslow h.1]
        rfl
  · rw [if_pos hmine]
    split_ifs
    · simp only [Option.bind_some, PollEvent.attempt, if_pos hmine]
      rfl
    · rfl

/-- Where every poll that timed out was sent, both counts are the same. -/
theorem timeoutsInRow_eq {c : Context} (htagged : Tagged c) (hsent : TimeoutsSent c.log)
    (slave : ℕ) : timeoutsInRow c slave = unansweredPolls c slave := by
  unfold timeoutsInRow unansweredPolls pollEvents
  rw [List.filterMap_filterMap, List.foldl_filterMap]
  refine List.foldl_ext _ _ _ fun count event hmem => ?_
  cases event with
  | released m error =>
    rw [← tally_released (ownedBy_zero htagged slave) fun herror => hsent m (herror ▸ hmem)]
    cases (Event.released m error).poll.bind
      (PollEvent.attempt (ownedBy c.timers slave)) <;> rfl
  | posted flags m =>
    cases flags with
    | post => rfl
    | subscribe =>
      simp only [Event.poll, Option.bind_some, PollEvent.attempt, countUnanswered]
      split_ifs <;> rfl
  | _ => rfl

/-- The misses of a timer are among `count` timeouts, and it took enough of them to make its
slave unresponsive. -/
def Backoff.Earned (count : ℕ) (b : Backoff) : Prop :=
  b.misses ≤ count ∧ (b.unresponsive → slaveMissMax ≤ count)

theorem Backoff.Earned.mono {count count' : ℕ} {b : Backoff} (h : b.Earned count)
    (hle : count ≤ count') : b.Earned count' :=
  ⟨h.1.trans hle, fun hset => (h.2 hset).trans hle⟩

theorem Backoff.fresh_earned (count : ℕ) : Backoff.fresh.Earned count := ⟨Nat.zero_le _, nofun⟩

/-- The timers have earned their backoff with these timeouts of their slaves. -/
def Earn (count : ℕ → ℕ) (timers : List Timer) : Prop :=
  ∀ t ∈ timers, t.backoff.Earned (count t.slave)

theorem SameBackoffs.earn {timers timers' : List Timer} (h : SameBackoffs timers timers')
    {count : ℕ → ℕ} (hearn : Earn count timers) : Earn count timers' := by
  intro t' ht'
  obtain ⟨t, ht, -, hslave, hbackoff⟩ := h.mem ht'
  rw [← hbackoff, ← hslave]
  exact hearn t ht

theorem Earn.map {timers : List Timer} {count count' : ℕ → ℕ} (h : Earn count timers)
    {f : Timer → Timer} {slave : ℕ} (hslave : ∀ t, (f t).slave = t.slave)
    (hmine : ∀ t ∈ timers, t.slave = slave → (f t).backoff.Earned (count' slave))
    (hother : ∀ t, t.slave ≠ slave → f t = t) (hkeep : ∀ s, s ≠ slave → count' s = count s) :
    Earn count' (timers.map f) := by
  intro t' ht'
  obtain ⟨t, ht, rfl⟩ := List.mem_map.1 ht'
  rw [hslave]
  by_cases hsame : t.slave = slave
  · rw [hsame]
    exact hmine t ht hsame
  · rw [hother t hsame, hkeep _ hsame]
    exact h t ht

/-- A missed poll counts once, and an answer starts the count again. -/
theorem slaveUpdate_earn {c : Context} {count : ℕ → ℕ} (h : Earn count c.timers) {timerId : ℕ}
    {timer : Timer} (hfind : timerFind c.timers timerId = some timer) (answered : Bool) (env : Env) :
    Earn (Function.update count timer.slave (if answered then 0 else count timer.slave + 1))
      (slaveUpdate c timerId answered env).timers := by
  have htimer : timer.backoff.Earned (count timer.slave) := h timer (timerFind_mem hfind).1
  have hkeep : ∀ n s, s ≠ timer.slave → Function.update count timer.slave n s = count s :=
    fun n s hne => Function.update_of_ne hne ..
  have hsettle : ∀ (n misses : ℕ) (unresponsive : Bool) (retryMs : UInt32),
      misses ≤ n → (unresponsive → slaveMissMax ≤ n) →
      Earn (Function.update count timer.slave n)
        (c.timers.map (slaveSettle (env.clock .update) timer.slave misses unresponsive retryMs)) := by
    intro n misses unresponsive retryMs hmisses hset
    refine h.map (fun t => slaveSettle_slave ..) (fun t _ hslave => ?_)
      (fun t hne => slaveSettle_other hne ..) (hkeep n)
    rw [slaveSettle_backoff hslave, Function.update_self]
    exact ⟨hmisses, hset⟩
  have hmore : Earn (Function.update count timer.slave (count timer.slave + 1)) c.timers := by
    intro t ht
    by_cases hslave : t.slave = timer.slave
    · rw [hslave, Function.update_self]
      exact (hslave ▸ h t ht : t.backoff.Earned (count timer.slave)).mono (Nat.le_succ _)
    · rw [hkeep _ _ hslave]
      exact h t ht
  unfold slaveUpdate
  rw [hfind]
  dsimp only
  cases answered with
  | true => exact hsettle 0 0 false 0 le_rfl nofun
  | false =>
    rw [if_neg Bool.false_ne_true, if_neg Bool.false_ne_true]
    split_ifs with hoff hset hfew
    · exact hmore
    · exact hsettle _ _ _ _ (htimer.1.trans (Nat.le_succ _)) fun _ =>
        (htimer.2 hset).trans (Nat.le_succ _)
    · refine h.map (fun t => ?_) (fun t ht hslave => ?_) (fun t hne => if_neg hne) (hkeep _)
      · split_ifs <;> rfl
      · rw [if_pos hslave, Function.update_self]
        have hold : t.backoff.Earned (count timer.slave) := hslave ▸ h t ht
        exact ⟨Nat.succ_le_succ htimer.1, (hold.mono (Nat.le_succ _)).2⟩
    · have hmany : slaveMissMax ≤ timer.misses + 1 := not_lt.1 hfew
      exact hsettle _ _ _ _ (Nat.succ_le_succ htimer.1) fun _ =>
        hmany.trans (Nat.succ_le_succ htimer.1)

theorem Earn.mono {count count' : ℕ → ℕ} {timers : List Timer} (h : Earn count timers)
    (hle : ∀ slave, count slave ≤ count' slave) : Earn count' timers :=
  fun t ht => (h t ht).mono (hle _)

def Verdict.tally (count : ℕ) : Verdict → ℕ
  | .answered | .excepted => 0
  | .missed => count + 1
  | .dropped => count

theorem judge_earn {c : Context} {count : ℕ → ℕ} (h : Earn count c.timers) {timerId : ℕ}
    {timer : Timer} (hfind : timerFind c.timers timerId = some timer) (env : Env)
    (verdict : Verdict) :
    Earn (Function.update count timer.slave (verdict.tally (count timer.slave)))
      (judge c timerId env verdict).timers := by
  cases verdict with
  | answered => exact (onceDone_sameBackoffs ..).earn (slaveUpdate_earn h hfind true env)
  | excepted => exact slaveUpdate_earn h hfind true env
  | missed => exact slaveUpdate_earn h hfind false env
  | dropped =>
    change Earn (Function.update count timer.slave (count timer.slave)) c.timers
    rwa [Function.update_eq_self]

theorem slaveGate_earn {c : Context} {count : ℕ → ℕ} (h : Earn count c.timers) (timer : Timer)
    (now : Millitime) : Earn count (slaveGate c timer now).2.timers := by
  unfold slaveGate
  split_ifs
  · exact h
  · refine h.map (fun t => ?_) (fun t ht hslave => ?_) (fun t hne => if_neg hne) fun _ _ => rfl
    · split_ifs <;> rfl
    · rw [if_pos hslave]
      exact hslave ▸ h t ht
  · exact h

/-- Every timer has earned its backoff with the timeouts of its slave. -/
structure Counted (c : Context) : Prop extends TimersNumbered c where
  pollIds : ∀ poll ∈ queuedPolls c.queue, poll.1 ≤ c.timerIdNext
  eventIds : ∀ e ∈ pollEvents c.log, e.timerId ≤ c.timerIdNext
  earned : Earn (timeoutsInRow c) c.timers

theorem timeoutsInRow_append {c c' : Context} (hsame : SameNumbers c c') {now : List PollEvent}
    (hevents : pollEvents c'.log = pollEvents c.log ++ now) (slave : ℕ) :
    timeoutsInRow c' slave = (now.filterMap
      (PollEvent.attempt (ownedBy c.timers slave))).foldl tally (timeoutsInRow c slave) := by
  have howned : ownedBy c'.timers slave = ownedBy c.timers slave := by
    funext timerId
    unfold ownedBy
    rw [hsame.keys]
  unfold timeoutsInRow
  rw [hevents, howned, List.filterMap_append, List.foldl_append]

theorem Counted.step {c c' : Context} {now : List PollEvent} (h : Counted c)
    (hsame : SameNumbers c c') (hpolls : ∀ poll ∈ queuedPolls c'.queue, poll.1 ≤ c.timerIdNext)
    (hevents : pollEvents c'.log = pollEvents c.log ++ now)
    (hids : ∀ e ∈ now, e.timerId ≤ c.timerIdNext)
    (hearned : Earn (fun slave => (now.filterMap
      (PollEvent.attempt (ownedBy c.timers slave))).foldl tally (timeoutsInRow c slave)) c'.timers) :
    Counted c' where
  toTimersNumbered := h.toTimersNumbered.congr hsame
  pollIds := hsame.timerIdNext ▸ hpolls
  eventIds e he := by
    rw [hsame.timerIdNext]
    rw [hevents] at he
    exact (List.mem_append.1 he).elim (h.eventIds e) (hids e)
  earned t ht := by
    rw [timeoutsInRow_append hsame hevents]
    exact hearned t ht

/-- A step without events that leaves every backoff as it was. -/
theorem Counted.still {c c' : Context} (h : Counted c) (hsame : SameNumbers c c')
    (hbackoffs : SameBackoffs c.timers c'.timers)
    (hpolls : queuedPolls c'.queue = queuedPolls c.queue)
    (hevents : pollEvents c'.log = pollEvents c.log) : Counted c' :=
  h.step hsame (hpolls ▸ h.pollIds) (hevents.trans (List.append_nil _).symm) nofun
    (hbackoffs.earn h.earned)

theorem Still.counted {c c' : Context} (h : Still c c') (hc : Counted c) : Counted c' :=
  hc.still h.sameNumbers (by rw [h.timers]; rfl) h.polls h.events

theorem attempt_other {mine : ℕ → Bool} (event : PollEvent) (h : mine event.timerId = false) :
    event.attempt mine = none := by
  cases event with
  | posted timerId serial =>
    change mine timerId = false at h
    simp [PollEvent.attempt, h]
  | left timerId serial error =>
    change mine timerId = false at h
    simp [PollEvent.attempt, h]

theorem tally_left {mine : ℕ → Bool} {timerId : ℕ} (hmine : mine timerId = true) (serial : ℕ)
    (error : ℤ) (count : ℕ) :
    ([PollEvent.left timerId serial error].filterMap (PollEvent.attempt mine)).foldl tally count =
      (verdictOf true error).tally count := by
  simp only [List.filterMap_cons, PollEvent.attempt, if_neg (not_not.2 hmine)]
  by_cases hanswer : error = 0 ∨ error = errException
  · rw [if_pos hanswer]
    rcases hanswer with rfl | rfl <;> rfl
  · have hne := not_or.1 hanswer
    unfold verdictOf
    rw [if_neg hanswer, if_neg hne.1, if_neg hne.2]
    split_ifs <;> rfl

/-- A poll that leaves counts for its slave as the library counts it, if its answer is heard. -/
theorem Counted.leave {c c' : Context} (h : Counted c) {env : Env} {timerId serial : ℕ} {error : ℤ}
    (hleave : Leave env timerId serial error c c')
    (hheard : error = 0 ∨ error = errException → c.subscribeCb = true ∧ Unmistaken c) :
    Counted c' := by
  have hid : timerId ≤ c.timerIdNext :=
    h.pollIds (timerId, serial) (by rw [hleave.polls]; exact List.mem_cons_self ..)
  refine h.step hleave.sameNumbers (fun poll hpoll => h.pollIds poll ?_) hleave.events ?_ ?_
  · rw [hleave.polls]
    exact List.mem_cons_of_mem _ hpoll
  · intro e he
    rw [List.mem_singleton.1 he]
    exact hid
  · obtain ⟨verdict, htimers, hverdict⟩ := hleave.judged
    rw [htimers]
    cases hfind : timerFind c.timers timerId with
    | none =>
      rw [judge_unknown hfind]
      intro t ht
      have hnone := attempt_other (.left timerId serial error)
        (ownedBy_unknown hfind t.slave)
      simp only [List.filterMap_cons, hnone]
      exact h.earned t ht
    | some timer =>
      obtain ⟨hmem, hsame⟩ := timerFind_mem hfind
      have hle : verdict.tally (timeoutsInRow c timer.slave) ≤
          (verdictOf true error).tally (timeoutsInRow c timer.slave) := by
        by_cases hanswer : error = 0 ∨ error = errException
        · obtain ⟨hcb, hmistake⟩ := hheard hanswer
          rw [hcb] at hverdict
          rw [hverdict.resolve_right fun hraw => hraw.2.2 hmistake]
        · have hne := not_or.1 hanswer
          have hsame : verdictOf c.subscribeCb error = verdictOf true error := by
            unfold verdictOf
            rw [if_neg hne.1, if_neg hne.1]
          rcases hverdict with rfl | ⟨rfl, -⟩
          · rw [hsame]
          · unfold verdictOf
            rw [if_neg hne.1, if_neg hne.2]
            split_ifs
            · exact Nat.le_succ _
            · exact le_rfl
      refine (judge_earn h.earned hfind env verdict).mono fun slave => ?_
      by_cases hslave : slave = timer.slave
      · rw [hslave, Function.update_self, tally_left (hsame ▸ ownedBy_self hmem)]
        exact hle
      · have hother := attempt_other (.left timerId serial error)
          (hsame ▸ ownedBy_other h.distinct hmem hslave)
        rw [Function.update_of_ne hslave]
        simp only [List.filterMap_cons, hother]
        exact le_rfl

theorem attempt_abandoned (mine : ℕ → Bool) (polls : List (ℕ × ℕ)) :
    (abandoned polls).filterMap (PollEvent.attempt mine) = [] := by
  refine List.filterMap_eq_nil_iff.2 fun e he => ?_
  obtain ⟨poll, -, rfl⟩ := List.mem_map.1 he
  have herror : ¬ (errTransport = 0 ∨ errTransport = errException) := by decide
  have hslow : errTransport ≠ errTimeout := by decide
  simp only [PollEvent.attempt, if_neg herror, if_neg hslow]
  split_ifs <;> rfl

theorem Counted.emptied {c c' : Context} (h : Counted c) (hemptied : Emptied c c') : Counted c' := by
  refine h.step hemptied.sameNumbers (by rw [hemptied.polls]; nofun) hemptied.events ?_ ?_
  · intro e he
    obtain ⟨poll, hpoll, rfl⟩ := List.mem_map.1 he
    exact h.pollIds poll hpoll
  · simp only [attempt_abandoned]
    rw [hemptied.timers]
    exact h.earned

theorem Counted.asked {c : Context} (h : Counted c) {i : ℕ} {timer : Timer}
    (ht : c.timers[i]? = some timer) (now : Millitime) : Counted (gatePost c timer now i) := by
  rcases gatePost_cases ht now with ⟨-, hsame⟩ | ⟨-, hbackoffs, hasked⟩
  · rw [hsame]
    exact h
  · have hbound := h.bounded timer (List.mem_of_getElem? ht)
    refine h.step hasked.sameNumbers (fun poll hpoll => ?_) hasked.events (fun e he => ?_) ?_
    · rw [hasked.polls] at hpoll
      rcases List.mem_append.1 hpoll with hold | hnew
      · exact h.pollIds poll hold
      · rw [List.mem_singleton.1 hnew]
        exact hbound
    · rw [List.mem_singleton.1 he]
      exact hbound
    · refine (hbackoffs.earn (slaveGate_earn h.earned timer now)).mono fun slave => ?_
      simp only [List.filterMap_cons, PollEvent.attempt]
      split_ifs <;> exact le_rfl

theorem Counted.gates {env : Env} {c c' : Context} (hsteps : GateSteps env c c') (h : Counted c) :
    Counted c' := by
  induction hsteps with
  | refl => exact h
  | tail _ hstep ih =>
    cases hstep with
    | neutral hneutral =>
      exact ih.still hneutral.sameNumbers hneutral.backoffs hneutral.polls hneutral.events
    | ask site ht => exact ih.asked ht _

/-- A new timer starts without misses, and no poll of it has left. -/
theorem Counted.subscribed {c : Context} (h : Counted c) (slaveId : ℤ) (request : Request)
    (interval : ℤ) (env : Env) : Counted (subscribeRequest c slaveId request interval env) := by
  rcases subscribeRequest_cases c slaveId request interval env with
    hsame | ⟨mode, writer, timer, -, hid, -, hnew, hadded⟩
  · rw [hsame]
    exact h.still (setSlave_sameNumbers c slaveId) rfl rfl rfl
  · rw [hadded]
    refine
      { toTimersNumbered := h.toTimersNumbered.insertTimer (h.tagged.insertTimer mode hid slaveId _)
          hid rfl rfl
        pollIds := fun poll hpoll => (h.pollIds poll hpoll).trans (Nat.le_succ _)
        eventIds := fun e he => (h.eventIds e he).trans (Nat.le_succ _)
        earned := fun t' ht' => ?_ }
    obtain ⟨t, ht, -, hslave, hbackoff⟩ := insertTimer_backoff ht'
    rw [hbackoff]
    rcases ht with ⟨ht, -⟩ | rfl
    · have hcount : timeoutsInRow { setSlave c slaveId with
          timerIdNext := c.timerIdNext + 1, timers := insertTimer mode c.timers timer } t'.slave =
          timeoutsInRow c t'.slave := by
        unfold timeoutsInRow
        congr 1
        refine List.filterMap_congr fun e he => PollEvent.attempt_congr ?_
        exact ownedBy_insertTimer mode c.timers
          (by rw [hid]; exact (Nat.lt_succ_of_le (h.eventIds e he)).ne) t'.slave
      rw [hcount, hslave]
      exact h.earned t ht
    · rw [hnew]
      exact Backoff.fresh_earned _

/-- Requests leave during `δ` only as `P` says, and are reported only when they leave. -/
def LeavesAs (P : Msg → ℤ → Bool → Prop) (δ : List Event) : Prop :=
  (∀ m error, .released m error ∈ δ → ∃ pending, P m error pending) ∧
    ∀ m report, .reported m report ∈ δ → ∃ error pending, P m error pending

variable {P : Msg → ℤ → Bool → Prop} {G : Prop}

theorem LeavesAs.append {δ₁ δ₂ : List Event} (h₁ : LeavesAs P δ₁) (h₂ : LeavesAs P δ₂) :
    LeavesAs P (δ₁ ++ δ₂) :=
  ⟨fun m error hmem => (List.mem_append.1 hmem).elim (h₁.1 m error) (h₂.1 m error),
    fun m report hmem => (List.mem_append.1 hmem).elim (h₁.2 m report) (h₂.2 m report)⟩

theorem leavesAs_silent {δ : List Event} (h : ∀ e ∈ δ, e.Silent) : LeavesAs P δ :=
  ⟨fun _ _ hmem => absurd (h _ hmem) id, fun _ _ hmem => absurd (h _ hmem) id⟩

theorem Served.leavesAs {c : Context} {m : Msg} {s : WriteRead} (h : Served G c m s) :
    ∃ δ, s.ctx.log = c.log ++ δ ∧ LeavesAs P δ := by
  obtain ⟨quiet, sent, n, hlog, hquiet, hsent, -⟩ := h.moved
  refine ⟨quiet ++ sent, by rw [hlog, List.append_assoc], (leavesAs_silent hquiet).append ?_⟩
  rcases hsent with ⟨rfl, -⟩ | ⟨unread, rfl⟩
  · exact ⟨nofun, nofun⟩
  · exact ⟨by simp, by simp⟩

theorem QueueStep.leavesAs {c c' : Context} (h : QueueStep P G c c') :
    ∃ δ, c'.log = c.log ++ δ ∧ LeavesAs P δ := by
  cases h with
  | quiet h =>
    obtain ⟨δ, hlog, hδ⟩ := h.log
    exact ⟨δ, hlog, leavesAs_silent hδ⟩
  | enter => exact ⟨[_], rfl, by simp, by simp⟩
  | stay hq hs since => exact hs.leavesAs
  | @leave _ _ _ _ hs m _ _ _ _ _ _ _ error hP hlog =>
    obtain ⟨quiet, told, after, hlog, hquiet, htold, hafter⟩ := hlog
    obtain ⟨δ, hserved, hδ⟩ := hs.leavesAs (P := P)
    have hreported : LeavesAs P told := by
      rcases htold with ⟨report, rfl⟩ | ⟨hsilent, -⟩
      · refine ⟨by simp, fun m' report' hmem => ?_⟩
        obtain ⟨rfl, -⟩ := Event.reported.inj (List.mem_singleton.1 hmem)
        exact ⟨error, _, hP⟩
      · exact leavesAs_silent hsilent
    have hreleased : LeavesAs P [.released m error] := by
      refine ⟨fun m' error' hmem => ?_, by simp⟩
      obtain ⟨rfl, rfl⟩ := Event.released.inj (List.mem_singleton.1 hmem)
      exact ⟨_, hP⟩
    refine ⟨δ ++ quiet ++ told ++ [.released m error] ++ after, ?_,
      (((hδ.append (leavesAs_silent hquiet)).append hreported).append hreleased).append
        (leavesAs_silent hafter)⟩
    rw [hlog, hserved]
    simp only [List.append_assoc]

theorem QueueSteps.leavesAs {c c' : Context} (h : QueueSteps P G c c') :
    ∃ δ, c'.log = c.log ++ δ ∧ LeavesAs P δ := by
  induction h with
  | refl => exact ⟨[], (List.append_nil _).symm, nofun, nofun⟩
  | tail _ hstep ih =>
    obtain ⟨δ₁, hlog₁, hδ₁⟩ := ih
    obtain ⟨δ₂, hlog₂, hδ₂⟩ := hstep.leavesAs
    exact ⟨δ₁ ++ δ₂, by rw [hlog₂, hlog₁, List.append_assoc], hδ₁.append hδ₂⟩

/-- A request that ends in `modbusmq_loop_write_read` has not timed out. -/
theorem Ends.ne_timeout {s : WriteRead} {m : Msg} {error : ℤ} {pending : Bool}
    (h : Ends s m error pending) : error ≠ errTimeout := by
  cases h with
  | answered => decide
  | rejected => exact rejectReason_ne_timeout _ _
  | refused => decide
  | noise => exact rejectReason_ne_timeout _ _
  | failed => decide

/-- The conditions under which the library counts what a slave left unanswered: a poll that
times out was sent, and the answer to a poll is heard. -/
def PollsHeard (c : Context) (env : Env) : Call → Prop
  | .prepare _ => c.connected → ∀ wrapper ∈ c.queue.head?, 0 < wrapper.msg.msgId →
      TimesOut c wrapper env → wrapper.msg.OnWire
  | .writeRead _ => queuedPolls c.queue ≠ [] → c.subscribeCb = true ∧ Unmistaken c
  | _ => True

theorem loopPrepare_disconnected {c : Context} (h : ¬ c.connected) (sleepTime : Millitime)
    (env : Env) : (loopPrepare c sleepTime env).ctx = c := by
  unfold loopPrepare
  rw [if_neg h]

theorem TimeoutsSent.perform {c : Context} (hc : WellFormed c) (h : TimeoutsSent c.log)
    {call : Call} {env : Env} (hheard : PollsHeard c env call) :
    TimeoutsSent (call.perform c env).log := by
  by_cases hidle : (∃ sleepTime, call = .prepare sleepTime) ∧ ¬ c.connected
  · obtain ⟨⟨sleepTime, rfl⟩, hconn⟩ := hidle
    rw [Call.perform, loopPrepare_disconnected hconn]
    exact h
  · have hsteps : QueueSteps (fun m error _ => error = errTimeout → 0 < m.msgId → m.OnWire) False
        c (call.perform c env) := by
      refine call.steps hc env (fun {m error pending} hleaves herror hpos => ?_) False.elim
      cases hleaves with
      | timeout hhead hout =>
        have hconn : c.connected := by
          by_contra hconn
          exact hidle ⟨⟨_, rfl⟩, hconn⟩
        exact hheard hconn _ hhead hpos hout
      | ends _ hends => exact absurd herror hends.ne_timeout
      | dropped => exact absurd herror (by decide)
    obtain ⟨δ, hlog, hleaves, -⟩ := QueueSteps.leavesAs hsteps
    intro m hmem hpos
    rw [hlog] at hmem
    rcases List.mem_append.1 hmem with hold | hnew
    · exact h m hold hpos
    · obtain ⟨-, hsent⟩ := hleaves m errTimeout hnew
      exact hsent rfl hpos

theorem loopPrepare_counted {c : Context} (h : Counted c) (sleepTime : Millitime) (env : Env) :
    Counted (loopPrepare c sleepTime env).ctx := by
  by_cases hconn : c.connected = true
  · unfold loopPrepare
    rw [if_pos hconn, prepareEvents_ctx]
    refine Counted.gates (loopPrepareSubscription_gates (timeOutHead c env) sleepTime env) ?_
    rcases timeOutHead_left h.tagged env with hstill | ⟨wrapper, rest, -, -, -, hleave⟩
    · exact hstill.counted h
    · exact h.leave hleave fun hanswer => absurd hanswer (by decide)
  · rw [loopPrepare_disconnected hconn]
    exact h

theorem Counted.perform {c : Context} (h : Counted c) {call : Call} {env : Env}
    (hheard : PollsHeard c env call) : Counted (call.perform c env) := by
  have hrearm : ∀ {c : Context}, Counted c → Counted (onceRearm c env) := fun {c} hc =>
    hc.still (onceRearm_sameNumbers c env) (onceRearm_rearms c env).sameBackoffs rfl rfl
  cases call with
  | subscribe slaveId request interval => exact h.subscribed slaveId request interval env
  | prepare sleepTime => exact loopPrepare_counted h sleepTime env
  | writeRead revents =>
    rcases loopWriteRead_left h.tagged revents env with hstill | ⟨_, _, _, -, hleave⟩
    · exact hstill.counted h
    · refine h.leave hleave fun _ => hheard ?_
      rw [hleave.polls]
      exact List.cons_ne_nil _ _
  | reset => exact hrearm (h.emptied (dropAll_emptied env c.queue h.tagged rfl))
  | rearm => exact hrearm h
  | configure config processConfig frameTimeoutMs =>
    exact ⟨⟨⟨h.tagged.timers, h.tagged.queue⟩, h.distinct, h.bounded⟩, h.pollIds, h.eventIds,
      h.earned⟩
  | post slaveId request => exact (Call.still (.post slaveId request) trivial env).counted h
  | raw text stray => exact (Call.still (.raw text stray) trivial env).counted h
  | focus slave => exact (Call.still (.focus slave) trivial env).counted h
  | connect opened => exact (Call.still (.connect opened) trivial env).counted h
  | close => exact (Call.still .close trivial env).counted h
  | arrive bytes => exact (Call.still (.arrive bytes) trivial env).counted h

theorem run_counted {c : Context} (hc : WellFormed c) (hcounted : Counted c)
    (hsent : TimeoutsSent c.log) {calls : List (Call × Env)} (hheard : Along PollsHeard calls c) :
    Counted (run calls c) ∧ TimeoutsSent (run calls c).log := by
  refine (hheard.keeps (I := fun c => WellFormed c ∧ Counted c ∧ TimeoutsSent c.log)
    (fun c env call h hheard => ?_) ⟨hc, hcounted, hsent⟩).2
  obtain ⟨hc, hcounted, hsent⟩ := h
  exact ⟨run_wellFormed hc [(call, env)], hcounted.perform hheard, hsent.perform hc hheard⟩

theorem Fresh.counted {c : Context} (h : Fresh c) : Counted c where
  tagged := h.replicated.tagged
  distinct := by simp [h.timers]
  bounded := by simp [h.timers]
  pollIds := by simp [h.queue, queuedPolls]
  eventIds := by simp [h.log, pollEvents]
  earned := by simp [Earn, h.timers]

/-- The backoff is off: `modbusmq.slave_retry_max_ms` is not positive. -/
def BackoffOff (c : Context) (_ : Env) (_ : Call) : Prop := retryMax c ≤ 0

instance (c : Context) (env : Env) (call : Call) : Decidable (BackoffOff c env call) :=
  inferInstanceAs (Decidable (_ ≤ _))

/-- No timer has missed anything. -/
structure Unmissed (c : Context) : Prop extends TimersNumbered c where
  earned : Earn (fun _ => 0) c.timers

theorem slaveUpdate_off {c : Context} (hoff : retryMax c ≤ 0) (h : Earn (fun _ => 0) c.timers)
    (timerId : ℕ) (answered : Bool) (env : Env) :
    Earn (fun _ => 0) (slaveUpdate c timerId answered env).timers := by
  cases hfind : timerFind c.timers timerId with
  | none =>
    have hsame : slaveUpdate c timerId answered env = c := by
      unfold slaveUpdate
      rw [hfind]
    rwa [hsame]
  | some timer =>
    cases answered with
    | true =>
      have hsettled := slaveUpdate_earn h hfind true env
      rwa [if_pos rfl, Function.update_eq_self] at hsettled
    | false =>
      have hsame : slaveUpdate c timerId false env = c := by
        unfold slaveUpdate
        rw [hfind]
        exact (if_neg Bool.false_ne_true).trans (if_pos hoff)
      rwa [hsame]

theorem judge_off {c : Context} (hoff : retryMax c ≤ 0) (h : Earn (fun _ => 0) c.timers)
    (timerId : ℕ) (env : Env) (verdict : Verdict) :
    Earn (fun _ => 0) (judge c timerId env verdict).timers := by
  cases verdict with
  | answered => exact (onceDone_sameBackoffs ..).earn (slaveUpdate_off hoff h timerId true env)
  | excepted => exact slaveUpdate_off hoff h timerId true env
  | missed => exact slaveUpdate_off hoff h timerId false env
  | dropped => exact h

theorem Unmissed.step {c c' : Context} (h : Unmissed c) (hsame : SameNumbers c c')
    (hearned : Earn (fun _ => 0) c'.timers) : Unmissed c' :=
  ⟨h.toTimersNumbered.congr hsame, hearned⟩

theorem Unmissed.still {c c' : Context} (h : Unmissed c) (hstill : Still c c') : Unmissed c' :=
  h.step hstill.sameNumbers (hstill.timers ▸ h.earned)

theorem Unmissed.leave {c c' : Context} (h : Unmissed c) (hoff : retryMax c ≤ 0) {env : Env}
    {timerId serial : ℕ} {error : ℤ} (hleave : Leave env timerId serial error c c') :
    Unmissed c' := by
  obtain ⟨verdict, htimers, -⟩ := hleave.judged
  refine h.step hleave.sameNumbers ?_
  rw [htimers]
  exact judge_off hoff h.earned timerId env verdict

theorem Unmissed.gates {env : Env} {c c' : Context} (hsteps : GateSteps env c c')
    (h : Unmissed c) : Unmissed c' := by
  induction hsteps with
  | refl => exact h
  | tail _ hstep ih =>
    cases hstep with
    | neutral hneutral => exact ih.step hneutral.sameNumbers (hneutral.backoffs.earn ih.earned)
    | ask site ht =>
      rcases gatePost_cases ht (env.clock site) with ⟨-, hsame⟩ | ⟨-, hbackoffs, hasked⟩
      · rw [hsame]
        exact ih
      · exact ih.step hasked.sameNumbers (hbackoffs.earn (slaveGate_earn ih.earned _ _))

theorem Unmissed.subscribed {c : Context} (h : Unmissed c) (slaveId : ℤ) (request : Request)
    (interval : ℤ) (env : Env) : Unmissed (subscribeRequest c slaveId request interval env) := by
  rcases subscribeRequest_cases c slaveId request interval env with
    hsame | ⟨mode, writer, timer, -, hid, -, hnew, hadded⟩
  · rw [hsame]
    exact h.step (setSlave_sameNumbers c slaveId) h.earned
  · rw [hadded]
    refine ⟨h.toTimersNumbered.insertTimer (h.tagged.insertTimer mode hid slaveId _) hid rfl rfl,
      fun t' ht' => ?_⟩
    obtain ⟨t, ht, -, hslave, hbackoff⟩ := insertTimer_backoff ht'
    rw [hbackoff]
    rcases ht with ⟨ht, -⟩ | rfl
    · exact h.earned t ht
    · rw [hnew]
      exact Backoff.fresh_earned _

/-- While the backoff is off no slave misses anything. -/
theorem Unmissed.perform {c : Context} (h : Unmissed c) {call : Call} {env : Env}
    (hoff : BackoffOff c env call) : Unmissed (call.perform c env) := by
  have hrearm : ∀ {c : Context}, Unmissed c → Unmissed (onceRearm c env) := fun {c} hc =>
    hc.step (onceRearm_sameNumbers c env) ((onceRearm_rearms c env).sameBackoffs.earn hc.earned)
  cases call with
  | subscribe slaveId request interval => exact h.subscribed slaveId request interval env
  | prepare sleepTime =>
    change Unmissed (loopPrepare c sleepTime env).ctx
    by_cases hconn : c.connected = true
    · unfold loopPrepare
      rw [if_pos hconn, prepareEvents_ctx]
      refine Unmissed.gates (loopPrepareSubscription_gates (timeOutHead c env) sleepTime env) ?_
      rcases timeOutHead_left h.tagged env with hstill | ⟨wrapper, rest, -, -, -, hleave⟩
      · exact h.still hstill
      · exact h.leave hoff hleave
    · rw [loopPrepare_disconnected hconn]
      exact h
  | writeRead revents =>
    rcases loopWriteRead_left h.tagged revents env with hstill | ⟨_, _, _, -, hleave⟩
    · exact h.still hstill
    · exact h.leave hoff hleave
  | reset =>
    have hemptied := dropAll_emptied env c.queue h.tagged rfl
    exact hrearm (h.step hemptied.sameNumbers (hemptied.timers ▸ h.earned))
  | rearm => exact hrearm h
  | configure config processConfig frameTimeoutMs =>
    exact ⟨⟨⟨h.tagged.timers, h.tagged.queue⟩, h.distinct, h.bounded⟩, h.earned⟩
  | post slaveId request => exact h.still (Call.still (.post slaveId request) trivial env)
  | raw text stray => exact h.still (Call.still (.raw text stray) trivial env)
  | focus slave => exact h.still (Call.still (.focus slave) trivial env)
  | connect opened => exact h.still (Call.still (.connect opened) trivial env)
  | close => exact h.still (Call.still .close trivial env)
  | arrive bytes => exact h.still (Call.still (.arrive bytes) trivial env)

theorem Fresh.unmissed {c : Context} (h : Fresh c) : Unmissed c :=
  ⟨h.counted.toTimersNumbered, by simp [Earn, h.timers]⟩

/-- In every run in which the backoff is off, or the polls that time out were sent and answers are
heard, a slave is unresponsive only after three of its polls were transmitted and timed out since
the last one that was answered. -/
theorem unresponsive_only_unanswered {c₀ : Context} (hfresh : Fresh c₀) {calls : List (Call × Env)}
    (hheard : Along BackoffOff calls c₀ ∨ Along PollsHeard calls c₀) :
    ∀ t ∈ (run calls c₀).timers, t.unresponsive → 3 ≤ unansweredPolls (run calls c₀) t.slave := by
  intro t ht hset
  rcases hheard with hoff | hheard
  · have hunmissed : Unmissed (run calls c₀) :=
      hoff.keeps (fun _ _ _ h hoff => h.perform hoff) hfresh.unmissed
    exact absurd ((hunmissed.earned t ht).2 hset) (Nat.not_succ_le_zero _)
  · obtain ⟨hcounted, hsent⟩ := run_counted hfresh.wellFormed hfresh.counted
      (fun m hmem => by rw [hfresh.log] at hmem; exact absurd hmem List.not_mem_nil) hheard
    rw [← timeoutsInRow_eq hcounted.tagged hsent]
    exact (hcounted.earned t ht).2 hset

instance (c : Context) (env : Env) (call : Call) : Decidable (PollsHeard c env call) :=
  match call with
  | .prepare _ => inferInstanceAs (Decidable (c.connected → ∀ wrapper ∈ c.queue.head?,
      0 < wrapper.msg.msgId → TimesOut c wrapper env → wrapper.msg.OnWire))
  | .writeRead _ => inferInstanceAs (Decidable (queuedPolls c.queue ≠ [] →
      c.subscribeCb = true ∧ Unmistaken c))
  | .subscribe _ _ _ | .configure _ _ _ | .post _ _ | .raw _ _ | .reset | .rearm | .focus _
  | .connect _ | .close | .arrive _ => isTrue trivial

/-- A slave is polled at `due`, the poll is sent and times out. -/
def missedPoll (due : Millitime) : List (Call × Env) :=
  [(.prepare 100, atTime due), (.writeRead ⟨false, true, false, false⟩, atTime due),
    (.prepare 100, atTime (due + 500))]

/-- The slave misses three polls. -/
theorem unresponsive_only_unanswered_example :
    let c := run ((readFirst, atTime 0) :: (missedPoll 1000 ++ missedPoll 2000 ++ missedPoll 3000))
      probedContext
    (∀ t ∈ c.timers, t.unresponsive → 3 ≤ unansweredPolls c t.slave) ∧
      c.timers.map (·.unresponsive) = [true] :=
  ⟨unresponsive_only_unanswered ⟨rfl, rfl, rfl, rfl⟩ (.inr (by decide +kernel)), by decide +kernel⟩

/-- The link never becomes writable: three polls are not sent, and the slave is marked. -/
theorem unsent_polls_count :
    ¬ ∀ (c₀ : Context) (calls : List (Call × Env)), Fresh c₀ → c₀.subscribeCb = true →
      ∀ t ∈ (run calls c₀).timers, t.unresponsive →
        3 ≤ unansweredPolls (run calls c₀) t.slave := by
  intro hall
  have hrun := hall probedContext
    ((readFirst, atTime 0) :: wakeUps [1000, 1100, 1600, 1700, 2200, 2300, 2800])
    ⟨rfl, rfl, rfl, rfl⟩ rfl
  revert hrun
  decide +kernel

end Modbusmq
