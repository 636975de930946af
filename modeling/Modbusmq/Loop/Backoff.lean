import Modbusmq.Loop.Moves
import Modbusmq.Loop.Rounds

/-!
# One backoff for each slave

The library keeps the backoff of a slave in every timer of the slave. What the
fields stand for is a table with one entry for each slave: an answer, a timeout
or a probe changes one entry, and the timers are copies of it. Only a timer that
is subscribed later can differ.
-/

namespace Modbusmq

structure Backoff where
  misses : ℕ
  unresponsive : Bool
  retryMs : UInt32
  retryAt : Millitime
  deriving DecidableEq

def Timer.backoff (t : Timer) : Backoff := ⟨t.misses, t.unresponsive, t.retryMs, t.retryAt⟩

def Backoff.fresh : Backoff := ⟨0, false, 0, 0⟩

def retryMax (c : Context) : ℤ :=
  match c.config with
  | some config => config.slaveRetryMaxMs
  | none => 0

/-- The entry of a slave after an answer or a timeout. -/
def Backoff.after (max : ℤ) (now : Millitime) (answered : Bool) (b : Backoff) : Backoff :=
  if answered then ⟨0, false, 0, now + (0 : UInt32).toUInt64⟩
  else if max ≤ 0 then b
  else if ¬ b.unresponsive then
    if b.misses + 1 < slaveMissMax then { b with misses := b.misses + 1 }
    else
      let retryMs := min slaveRetryFirstMs (UInt32.ofInt max)
      ⟨b.misses + 1, true, retryMs, now + retryMs.toUInt64⟩
  else
    let retryMs := min (b.retryMs * 2) (UInt32.ofInt max)
    ⟨b.misses, true, retryMs, now + retryMs.toUInt64⟩

def Backoff.probed (now : Millitime) (b : Backoff) : Backoff :=
  if b.unresponsive then { b with retryAt := now + b.retryMs.toUInt64 } else b

def Backoff.Open (now : Millitime) (b : Backoff) : Prop := b.unresponsive → b.retryAt ≤ now

instance (now : Millitime) (b : Backoff) : Decidable (b.Open now) :=
  inferInstanceAs (Decidable (_ → _))

abbrev SlaveTable := ℕ → Backoff

/-- The timers are copies of the entries of their slaves. -/
def Copies (table : SlaveTable) (timers : List Timer) : Prop :=
  ∀ t ∈ timers, t.backoff = table t.slave

/-- The timers of one slave have the same backoff. -/
def Agree (timers : List Timer) : Prop :=
  ∀ t ∈ timers, ∀ t' ∈ timers, t.slave = t'.slave → t.backoff = t'.backoff

instance (timers : List Timer) : Decidable (Agree timers) :=
  inferInstanceAs (Decidable (∀ t ∈ timers, ∀ t' ∈ timers, t.slave = t'.slave → _ = _))

theorem Copies.agree {table : SlaveTable} {timers : List Timer} (h : Copies table timers) :
    Agree timers := by
  intro t ht t' ht' hslave
  rw [h t ht, h t' ht', hslave]

/-- Timers that are rewritten for one slave copy a table with a new entry. -/
theorem Copies.update {table : SlaveTable} {timers : List Timer} (h : Copies table timers)
    {f : Timer → Timer} {slave : ℕ} {b : Backoff} (hslave : ∀ t, (f t).slave = t.slave)
    (hmine : ∀ t, t.slave = slave → t.backoff = table slave → (f t).backoff = b)
    (hother : ∀ t, t.slave ≠ slave → (f t).backoff = t.backoff) :
    Copies (Function.update table slave b) (timers.map f) := by
  intro t' ht'
  obtain ⟨t, ht, rfl⟩ := List.mem_map.1 ht'
  rw [hslave]
  by_cases hsame : t.slave = slave
  · rw [hsame, Function.update_self]
    exact hmine t hsame (hsame ▸ h t ht)
  · rw [Function.update_of_ne hsame, hother t hsame]
    exact h t ht

/-- Timers that keep their slaves and their backoff. -/
def SameBackoffs (timers timers' : List Timer) : Prop :=
  timers'.map (fun t => (t.timerId, t.slave, t.backoff)) =
    timers.map fun t => (t.timerId, t.slave, t.backoff)

theorem SameBackoffs.mem {timers timers' : List Timer} (h : SameBackoffs timers timers')
    {t' : Timer} (ht' : t' ∈ timers') :
    ∃ t ∈ timers, t.timerId = t'.timerId ∧ t.slave = t'.slave ∧ t.backoff = t'.backoff := by
  have hmem := List.mem_map_of_mem (f := fun t : Timer => (t.timerId, t.slave, t.backoff)) ht'
  rw [h] at hmem
  obtain ⟨t, ht, heq⟩ := List.mem_map.1 hmem
  simp only [Prod.mk.injEq] at heq
  exact ⟨t, ht, heq.1, heq.2.1, heq.2.2⟩

theorem SameBackoffs.keys {timers timers' : List Timer} (h : SameBackoffs timers timers') :
    timerKeys timers' = timerKeys timers := by
  have hpairs := congrArg (List.map fun p : ℕ × ℕ × Backoff => (p.1, p.2.1)) h
  rw [List.map_map, List.map_map] at hpairs
  exact hpairs

theorem SameBackoffs.copies {timers timers' : List Timer} (h : SameBackoffs timers timers')
    {table : SlaveTable} (hc : Copies table timers) : Copies table timers' := by
  intro t' ht'
  obtain ⟨t, ht, -, hslave, hbackoff⟩ := h.mem ht'
  rw [← hbackoff, ← hslave]
  exact hc t ht

theorem SameBackoffs.map {timers : List Timer} {f : Timer → Timer}
    (hf : ∀ t, ((f t).timerId, (f t).slave, (f t).backoff) = (t.timerId, t.slave, t.backoff)) :
    SameBackoffs timers (timers.map f) := by
  unfold SameBackoffs
  rw [List.map_map]
  exact List.map_congr_left fun t _ => hf t

theorem SameBackoffs.modify {timers : List Timer} {i : ℕ} {f : Timer → Timer}
    (hf : ∀ t, ((f t).timerId, (f t).slave, (f t).backoff) = (t.timerId, t.slave, t.backoff)) :
    SameBackoffs timers (timers.modify i f) := by
  refine List.ext_getElem (by simp) fun j hj hj' => ?_
  simp only [List.getElem_map, List.getElem_modify]
  split_ifs
  · exact hf _
  · rfl

theorem Rearms.sameBackoffs {timers timers' : List Timer} (h : Rearms timers timers') :
    SameBackoffs timers timers' := by
  refine List.ext_getElem (by simp [h.length_eq]) fun i hi hi' => ?_
  simp only [List.length_map] at hi hi'
  obtain ⟨next, hnext, -⟩ := (List.forall₂_iff_get.1 h).2 i hi' hi
  simp only [List.get_eq_getElem] at hnext
  simp only [List.getElem_map, hnext]
  rfl

theorem onceDone_sameBackoffs (c : Context) (timerId : ℕ) :
    SameBackoffs c.timers (onceDone c timerId).timers := by
  unfold onceDone
  split
  · rfl
  · refine SameBackoffs.map fun t => ?_
    split_ifs <;> rfl

theorem timerFind_mem {timers : List Timer} {timerId : ℕ} {t : Timer}
    (h : timerFind timers timerId = some t) : t ∈ timers ∧ t.timerId = timerId := by
  unfold timerFind at h
  exact ⟨List.mem_of_find?_eq_some h, by simpa using List.find?_some h⟩

theorem slaveSettle_slave (now : Millitime) (slave misses : ℕ) (unresponsive : Bool)
    (retryMs : UInt32) (t : Timer) :
    (slaveSettle now slave misses unresponsive retryMs t).slave = t.slave := by
  unfold slaveSettle
  split_ifs <;> rfl

theorem slaveSettle_other {slave : ℕ} {t : Timer} (h : t.slave ≠ slave) (now : Millitime)
    (misses : ℕ) (unresponsive : Bool) (retryMs : UInt32) :
    slaveSettle now slave misses unresponsive retryMs t = t :=
  if_pos h

theorem slaveSettle_backoff {slave : ℕ} {t : Timer} (h : t.slave = slave) (now : Millitime)
    (misses : ℕ) (unresponsive : Bool) (retryMs : UInt32) :
    (slaveSettle now slave misses unresponsive retryMs t).backoff =
      ⟨misses, unresponsive, retryMs, now + retryMs.toUInt64⟩ := by
  unfold slaveSettle
  rw [if_neg (not_not.2 h)]
  rfl

theorem slaveUpdate_copies {c : Context} {table : SlaveTable} (h : Copies table c.timers)
    {timerId : ℕ} {timer : Timer} (hfind : timerFind c.timers timerId = some timer)
    (answered : Bool) (env : Env) :
    Copies (Function.update table timer.slave
      ((table timer.slave).after (retryMax c) (env.clock .update) answered))
      (slaveUpdate c timerId answered env).timers := by
  have htimer : timer.backoff = table timer.slave := h timer (timerFind_mem hfind).1
  have hsettle : ∀ {b : Backoff} (misses : ℕ) (unresponsive : Bool) (retryMs : UInt32),
      b = ⟨misses, unresponsive, retryMs, env.clock .update + retryMs.toUInt64⟩ →
      Copies (Function.update table timer.slave b)
        (c.timers.map (slaveSettle (env.clock .update) timer.slave misses unresponsive retryMs)) := by
    rintro b misses unresponsive retryMs rfl
    refine h.update (fun t => slaveSettle_slave ..) (fun t ht _ => slaveSettle_backoff ht ..)
      fun t ht => ?_
    rw [slaveSettle_other ht]
  have hsame : Copies (Function.update table timer.slave (table timer.slave)) c.timers := by
    rwa [Function.update_eq_self]
  unfold slaveUpdate
  rw [hfind, ← htimer]
  dsimp only
  change Copies (Function.update table timer.slave (Backoff.after (retryMax c) _ _ _))
    (if answered = true then _ else if retryMax c ≤ 0 then _ else _ : Context).timers
  unfold Backoff.after
  by_cases hanswered : answered = true
  · rw [if_pos hanswered, if_pos hanswered]
    exact hsettle _ _ _ rfl
  rw [if_neg hanswered, if_neg hanswered]
  by_cases hmax : retryMax c ≤ 0
  · rw [if_pos hmax, if_pos hmax, htimer]
    exact hsame
  rw [if_neg hmax, if_neg hmax]
  by_cases hunresponsive : timer.unresponsive = true
  · have hset : timer.backoff.unresponsive = true := hunresponsive
    rw [if_neg (not_not.2 hunresponsive), if_neg (not_not.2 hset)]
    exact hsettle _ _ _ rfl
  have hclear : ¬ timer.backoff.unresponsive = true := hunresponsive
  rw [if_pos hunresponsive, if_pos hclear]
  by_cases hmiss : timer.misses + 1 < slaveMissMax
  · have hfew : timer.backoff.misses + 1 < slaveMissMax := hmiss
    rw [if_pos hmiss, if_pos hfew]
    refine h.update (fun t => ?_) (fun t ht hcopy => ?_) fun t ht => ?_
    · split_ifs <;> rfl
    · rw [if_pos ht]
      rw [← htimer] at hcopy
      simp only [Timer.backoff, Backoff.mk.injEq] at hcopy ⊢
      exact ⟨trivial, hcopy.2⟩
    · rw [if_neg ht]
  · have hmany : ¬ timer.backoff.misses + 1 < slaveMissMax := hmiss
    rw [if_neg hmiss, if_neg hmany]
    exact hsettle _ _ _ rfl

/-- The gate asks the entry of the slave, and a probe moves its time. -/
theorem slaveGate_copies {c : Context} {table : SlaveTable} (h : Copies table c.timers)
    {timer : Timer} (hcopy : timer.backoff = table timer.slave) (now : Millitime) :
    ((slaveGate c timer now).1 = true ↔ (table timer.slave).Open now) ∧
      (¬ (table timer.slave).Open now → (slaveGate c timer now).2 = c) ∧
      ((table timer.slave).Open now →
        Copies (Function.update table timer.slave ((table timer.slave).probed now))
          (slaveGate c timer now).2.timers) := by
  rw [← hcopy]
  unfold slaveGate Backoff.Open Backoff.probed
  by_cases hunresponsive : timer.unresponsive = true
  · rw [if_neg (not_not.2 hunresponsive)]
    by_cases hwait : now < timer.retryAt
    · have hshut : ¬ (timer.backoff.unresponsive → timer.backoff.retryAt ≤ now) := fun hopen =>
        absurd (hopen hunresponsive) (UInt64.not_le.2 hwait)
      rw [if_pos hwait]
      exact ⟨⟨fun hfalse => absurd hfalse Bool.false_ne_true, fun hopen => absurd hopen hshut⟩,
        fun _ => rfl, fun hopen => absurd hopen hshut⟩
    · have hopen : timer.backoff.unresponsive → timer.backoff.retryAt ≤ now := fun _ =>
        UInt64.not_lt.1 hwait
      rw [if_neg hwait]
      refine ⟨⟨fun _ => hopen, fun _ => rfl⟩, fun hshut => absurd hopen hshut, fun _ => ?_⟩
      have hset : timer.backoff.unresponsive = true := hunresponsive
      rw [if_pos hset]
      refine h.update (fun t => ?_) (fun t ht hmine => ?_) fun t ht => ?_
      · split_ifs <;> rfl
      · rw [if_pos ht]
        rw [← hcopy] at hmine
        simp only [Timer.backoff, Backoff.mk.injEq] at hmine ⊢
        exact ⟨hmine.1, hmine.2.1, hmine.2.2.1, trivial⟩
      · rw [if_neg ht]
  · have hset : ¬ timer.backoff.unresponsive = true := hunresponsive
    rw [if_pos hunresponsive, if_neg hset]
    refine ⟨⟨fun _ hyes => absurd hyes hset, fun _ => rfl⟩,
      fun hshut => absurd (fun hyes => absurd hyes hset) hshut, fun _ => ?_⟩
    rw [hcopy, Function.update_eq_self]
    exact h

/-- Neither the backoff of a slave nor a poll is touched. -/
structure Neutral (c c' : Context) : Prop where
  config : c'.config = c.config
  subscribeCb : c'.subscribeCb = c.subscribeCb
  timerIdNext : c'.timerIdNext = c.timerIdNext
  tagged : Tagged c → Tagged c'
  polls : queuedPolls c'.queue = queuedPolls c.queue
  backoffs : SameBackoffs c.timers c'.timers
  events : pollEvents c'.log = pollEvents c.log

/-- What scheduling is made of: asking the gate of one timer after the other. -/
inductive GateStep (env : Env) (c : Context) : Context → Prop
  | neutral {c' : Context} (h : Neutral c c') : GateStep env c c'
  | ask {i : ℕ} {timer : Timer} (site : Site) (ht : c.timers[i]? = some timer) :
      GateStep env c (gatePost c timer (env.clock site) i)

abbrev GateSteps (env : Env) : Context → Context → Prop := Relation.ReflTransGen (GateStep env)

theorem Neutral.refl (c : Context) : Neutral c c := ⟨rfl, rfl, rfl, id, rfl, rfl, rfl⟩

theorem Neutral.sameNumbers {c c' : Context} (h : Neutral c c') : SameNumbers c c' :=
  ⟨h.config, h.timerIdNext, h.backoffs.keys, h.tagged⟩

theorem onceRearm_sameNumbers (c : Context) (env : Env) : SameNumbers c (onceRearm c env) :=
  have h := onceRearm_settings c env
  ⟨h.config, h.timerIdNext, (onceRearm_rearms c env).sameBackoffs.keys, h.tagged⟩

theorem setSlave_sameNumbers (c : Context) (slaveId : ℤ) : SameNumbers c (setSlave c slaveId) :=
  ⟨rfl, rfl, rfl, fun h => ⟨h.timers, h.queue⟩⟩

theorem neutral_of_timers {c c' : Context} (hconfig : c'.config = c.config)
    (hcb : c'.subscribeCb = c.subscribeCb) (hnext : c'.timerIdNext = c.timerIdNext)
    (hqueue : c'.queue = c.queue) (hlog : c'.log = c.log) (htimers : c'.timers = c.timers) :
    Neutral c c' where
  config := hconfig
  subscribeCb := hcb
  timerIdNext := hnext
  tagged h := ⟨htimers ▸ h.timers, hqueue ▸ h.queue⟩
  polls := by rw [hqueue]
  backoffs := by
    rw [htimers]
    rfl
  events := by rw [hlog]

theorem advanceTimer_neutral (c : Context) (i : ℕ) : Neutral c (advanceTimer c i) := by
  have hsame : SameBackoffs c.timers (advanceTimer c i).timers := SameBackoffs.modify fun _ => rfl
  refine ⟨rfl, rfl, rfl, fun h => ⟨fun t ht => ?_, h.queue⟩, rfl, hsame, rfl⟩
  obtain ⟨t', ht', hid, -⟩ := hsame.mem ht
  exact hid ▸ h.timers t' ht'

theorem ScheduleStep.gates {env : Env} {c c' : Context} (h : ScheduleStep env c c') :
    GateSteps env c c' := by
  cases h with
  | books => exact .single (.neutral (neutral_of_timers rfl rfl rfl rfl rfl rfl))
  | due ht => exact .tail (.single (.ask .due ht)) (.neutral (advanceTimer_neutral ..))
  | turn ht _ site => exact .single (.ask site ht)

theorem ScheduleSteps.gates {env : Env} {c c' : Context} (h : ScheduleSteps env c c') :
    GateSteps env c c' := by
  induction h with
  | refl => exact .refl
  | tail _ hstep ih => exact ih.trans hstep.gates

theorem roundOver_neutral (c : Context) (env : Env) : Neutral c (roundOver c env) := by
  unfold roundOver
  split_ifs
  · exact neutral_of_timers rfl rfl rfl rfl rfl rfl
  · exact .refl c

/-- In every query mode scheduling asks gates and does nothing else to a slave. -/
theorem loopPrepareSubscription_gates (c : Context) (sleepTime : Millitime) (env : Env) :
    GateSteps env c (loopPrepareSubscription c sleepTime env).ctx :=
  ScheduleSteps.gates (loopPrepareSubscription_schedule c sleepTime env)

theorem slaveGate_neutral (c : Context) (timer : Timer) (now : Millitime) :
    (slaveGate c timer now).2.timers.map (fun t => (t.timerId, t.slave)) =
        c.timers.map (fun t => (t.timerId, t.slave)) ∧
      (slaveGate c timer now).2 = { c with timers := (slaveGate c timer now).2.timers } := by
  unfold slaveGate
  split_ifs
  · exact ⟨rfl, rfl⟩
  · refine ⟨?_, rfl⟩
    rw [List.map_map]
    refine List.map_congr_left fun t _ => ?_
    simp only [Function.comp_apply]
    split_ifs <;> rfl
  · exact ⟨rfl, rfl⟩

theorem preparedMsg_tags (t : Transport) (transactionId : ℕ) (m : Msg) :
    SameMsg m (preparedMsg t transactionId m) := by
  cases t <;> exact ⟨rfl, rfl, rfl⟩

/-- The poll of a timer entered the queue. -/
structure Asked (c c' : Context) (timer : Timer) : Prop where
  keys : c'.timers.map (fun t => (t.timerId, t.slave)) = c.timers.map fun t => (t.timerId, t.slave)
  config : c'.config = c.config
  subscribeCb : c'.subscribeCb = c.subscribeCb
  timerIdNext : c'.timerIdNext = c.timerIdNext
  tagged : Tagged c → Tagged c'
  polls : queuedPolls c'.queue = queuedPolls c.queue ++ [(timer.timerId, c.serialNext)]
  events : pollEvents c'.log = pollEvents c.log ++ [.posted timer.timerId c.serialNext]

theorem Asked.sameNumbers {c c' : Context} {timer : Timer} (h : Asked c c' timer) :
    SameNumbers c c' := ⟨h.config, h.timerIdNext, h.keys, h.tagged⟩

theorem queuedPolls_enqueue_poll (queue : List Wrapper) {wrapper : Wrapper}
    (hflags : wrapper.flags = .subscribe) : queuedPolls (enqueue queue wrapper) =
      queuedPolls queue ++ [(wrapper.msg.msgId, wrapper.msg.serial)] := by
  have hlast : enqueue queue wrapper = queue ++ [wrapper] := by
    unfold enqueue
    cases queue with
    | nil => rfl
    | cons head rest => rw [hflags]
  rw [hlast]
  unfold queuedPolls
  rw [List.filter_append, List.map_append, List.filter_cons_of_pos (by simpa using hflags)]
  rfl

theorem slaveGate_shut {c : Context} {timer : Timer} {now : Millitime}
    (h : (slaveGate c timer now).1 = false) : (slaveGate c timer now).2 = c := by
  unfold slaveGate at h ⊢
  split
  · rfl
  · rw [if_neg ‹_›] at h
    split
    · rfl
    · rw [if_neg ‹_›] at h
      cases h

/-- A shut gate changes nothing, an open one lets the poll into the queue. -/
theorem gatePost_cases {c : Context} {i : ℕ} {timer : Timer} (ht : c.timers[i]? = some timer)
    (now : Millitime) :
    ((slaveGate c timer now).1 = false ∧ gatePost c timer now i = c) ∨
      ((slaveGate c timer now).1 = true ∧
        SameBackoffs (slaveGate c timer now).2.timers (gatePost c timer now i).timers ∧
        Asked c (gatePost c timer now i) timer) := by
  obtain ⟨hkeys, heq⟩ := slaveGate_neutral c timer now
  by_cases hpass : (slaveGate c timer now).1 = true
  · right
    -- the timer behind the index has kept its number
    obtain ⟨timer', ht', hid, hslave⟩ : ∃ timer',
        (slaveGate c timer now).2.timers[i]? = some timer' ∧ timer'.timerId = timer.timerId ∧
          timer'.slave = timer.slave := by
      have hkey := congrArg (·[i]?) hkeys
      simp only [List.getElem?_map, ht, Option.map_some, Option.map_eq_some_iff] at hkey
      obtain ⟨timer', ht', heq⟩ := hkey
      exact ⟨timer', ht', congrArg Prod.fst heq, congrArg Prod.snd heq⟩
    unfold gatePost
    rw [if_pos hpass]
    generalize (slaveGate c timer now).2 = c₁ at *
    have hserial : c₁.serialNext = c.serialNext := by rw [heq]
    have hlog : c₁.log = c.log := by rw [heq]
    have hqueue : c₁.queue = c.queue := by rw [heq]
    have hconfig : c₁.config = c.config := by rw [heq]
    have hsubscribe : c₁.subscribeCb = c.subscribeCb := by rw [heq]
    have hnext : c₁.timerIdNext = c.timerIdNext := by rw [heq]
    have hm := preparedMsg_tags c₁.transport (nextTransaction c₁.transport c₁.transactionId)
      { timer'.msg with
        msgId := timer'.timerId, reqId := nextReqId c₁.reqIdNext, serial := c₁.serialNext }
    unfold postTimer
    rw [ht']
    dsimp only
    have hsame : SameBackoffs c₁.timers (c₁.timers.modify i fun t =>
        { t with msg := { t.msg with msgId := t.timerId, reqId := nextReqId c₁.reqIdNext } }) :=
      SameBackoffs.modify fun _ => rfl
    refine ⟨hpass, hsame, ?_, ?_, ?_, ?_, fun htag => ?_, ?_, ?_⟩
    · rw [← hkeys]
      have hpairs := congrArg (List.map fun p : ℕ × ℕ × Backoff => (p.1, p.2.1)) hsame
      rw [List.map_map, List.map_map] at hpairs
      exact hpairs
    · exact hconfig
    · exact hsubscribe
    · exact hnext
    · have htimers : ∀ t ∈ c₁.timers, 0 < t.timerId := by
        intro t ht
        have hmem : (t.timerId, t.slave) ∈ c.timers.map fun t => (t.timerId, t.slave) := by
          rw [← hkeys]
          exact List.mem_map_of_mem ht
        obtain ⟨s, hs, hkey⟩ := List.mem_map.1 hmem
        have hsame : s.timerId = t.timerId := congrArg Prod.fst hkey
        exact hsame ▸ htag.timers s hs
      refine ⟨fun t ht => ?_, fun w hw => ?_⟩
      · obtain ⟨s, hs, hid', -⟩ := hsame.mem ht
        exact hid' ▸ htimers s hs
      · change w ∈ enqueue c₁.queue _ at hw
        rcases mem_enqueue.1 hw with hw | rfl
        · exact htag.queue w (hqueue ▸ hw)
        · have hpos := htimers timer' (List.mem_of_getElem? ht')
          refine ⟨nofun, fun hzero => ?_⟩
          rw [hm.msgId] at hzero
          exact absurd hzero hpos.ne'
    · change queuedPolls (enqueue c₁.queue _) = _
      rw [queuedPolls_enqueue_poll _ rfl, hqueue, ← hid, ← hserial]
      exact congrArg₂ (fun id serial => queuedPolls c.queue ++ [(id, serial)]) hm.msgId hm.serial
    · rw [← hid, ← hserial, ← hlog]
      have hevent := congrArg₂ (fun id serial => [PollEvent.posted id serial]) hm.msgId hm.serial
      exact (pollEvents_append ..).trans (congrArg (pollEvents c₁.log ++ ·) hevent)
  · left
    unfold gatePost
    rw [if_neg hpass]
    have hshut := Bool.not_eq_true _ ▸ hpass
    exact ⟨hshut, slaveGate_shut hshut⟩

/-- Asking a gate: a shut one changes nothing, an open one posts a poll and moves the time of
an unresponsive slave. -/
theorem gatePost_asked {c : Context} {table : SlaveTable} (h : Copies table c.timers) {i : ℕ}
    {timer : Timer} (ht : c.timers[i]? = some timer) (now : Millitime) :
    (¬ (table timer.slave).Open now ∧ gatePost c timer now i = c) ∨
      ((table timer.slave).Open now ∧
        Copies (Function.update table timer.slave ((table timer.slave).probed now))
          (gatePost c timer now i).timers ∧ Asked c (gatePost c timer now i) timer) := by
  have hcopy : timer.backoff = table timer.slave := h timer (List.mem_of_getElem? ht)
  obtain ⟨hpass, -, hopen⟩ := slaveGate_copies h hcopy now
  rcases gatePost_cases ht now with ⟨hgate, hsame⟩ | ⟨hgate, hsame, hasked⟩
  · have hdue : ¬ (table timer.slave).Open now := fun hdue => by
      rw [hpass.2 hdue] at hgate
      cases hgate
    exact .inl ⟨hdue, hsame⟩
  · have hdue := hpass.1 hgate
    exact .inr ⟨hdue, hsame.copies (hopen hdue), hasked⟩

theorem GateSteps.copies {env : Env} {c c' : Context} (h : GateSteps env c c')
    (hc : ∃ table, Copies table c.timers) : ∃ table, Copies table c'.timers := by
  induction h with
  | refl => exact hc
  | tail _ hstep ih =>
    obtain ⟨table, hcopies⟩ := ih
    cases hstep with
    | neutral hneutral => exact ⟨table, hneutral.backoffs.copies hcopies⟩
    | ask site ht =>
      rcases gatePost_asked hcopies ht (env.clock site) with ⟨-, hsame⟩ | ⟨-, hposted, -⟩
      · rw [hsame]
        exact ⟨table, hcopies⟩
      · exact ⟨_, hposted⟩

/-- Scheduling changes neither the configuration nor the numbers of the timers. -/
theorem GateSteps.sameNumbers {env : Env} {c c' : Context} (h : GateSteps env c c') :
    SameNumbers c c' := by
  induction h with
  | refl => exact .refl c
  | tail _ hstep ih =>
    cases hstep with
    | neutral hneutral => exact ih.trans hneutral.sameNumbers
    | ask site ht =>
      rcases gatePost_cases ht (env.clock site) with ⟨-, hsame⟩ | ⟨-, -, hasked⟩
      · rw [hsame]
        exact ih
      · exact ih.trans hasked.sameNumbers

def SlaveTable.judge (table : SlaveTable) (slave : ℕ) (max : ℤ) (now : Millitime) :
    Verdict → SlaveTable
  | .answered | .excepted => Function.update table slave ((table slave).after max now true)
  | .missed => Function.update table slave ((table slave).after max now false)
  | .dropped => table

theorem judge_copies {c : Context} {table : SlaveTable} (h : Copies table c.timers) {timerId : ℕ}
    {timer : Timer} (hfind : timerFind c.timers timerId = some timer) (env : Env)
    (verdict : Verdict) :
    Copies (table.judge timer.slave (retryMax c) (env.clock .update) verdict)
      (Modbusmq.judge c timerId env verdict).timers := by
  cases verdict with
  | answered => exact (onceDone_sameBackoffs ..).copies (slaveUpdate_copies h hfind true env)
  | excepted => exact slaveUpdate_copies h hfind true env
  | missed => exact slaveUpdate_copies h hfind false env
  | dropped => exact h

/-- A verdict on a timer that is not there changes nothing. -/
theorem judge_unknown {c : Context} {timerId : ℕ} (hfind : timerFind c.timers timerId = none)
    (env : Env) (verdict : Verdict) : (Modbusmq.judge c timerId env verdict).timers = c.timers := by
  have hupdate : ∀ answered, slaveUpdate c timerId answered env = c := by
    intro answered
    unfold slaveUpdate
    rw [hfind]
  cases verdict with
  | answered =>
    unfold Modbusmq.judge onceDone
    rw [hupdate, hfind]
  | excepted => exact congrArg Context.timers (hupdate true)
  | missed => exact congrArg Context.timers (hupdate false)
  | dropped => rfl

theorem Leave.copies {env : Env} {timerId serial : ℕ} {error : ℤ} {c c' : Context}
    (h : Leave env timerId serial error c c') (hc : ∃ table, Copies table c.timers) :
    ∃ table, Copies table c'.timers := by
  obtain ⟨table, hcopies⟩ := hc
  obtain ⟨verdict, htimers, -⟩ := h.judged
  rw [htimers]
  cases hfind : timerFind c.timers timerId with
  | some timer => exact ⟨_, judge_copies hcopies hfind env verdict⟩
  | none =>
    rw [judge_unknown hfind]
    exact ⟨table, hcopies⟩

theorem Left.copies {env : Env} {c c' : Context} (h : Left env c c')
    (hc : ∃ table, Copies table c.timers) : ∃ table, Copies table c'.timers := by
  rcases h with hstill | ⟨_, _, _, -, hleave⟩
  · rw [hstill.timers]
    exact hc
  · exact hleave.copies hc

theorem Left.settings {env : Env} {c c' : Context} (h : Left env c c') : SameSettings c c' := by
  rcases h with hstill | ⟨_, _, _, -, hleave⟩
  · exact hstill.toSameSettings
  · exact hleave.toSameSettings

/-- A timer of the list after a subscription has the number, the backoff and the due time of an
old one, or the number and the backoff of the new one. -/
theorem insertTimer_backoff {mode : QueryMode} {timers : List Timer} {timer t' : Timer}
    (h : t' ∈ insertTimer mode timers timer) :
    ∃ t, (t ∈ timers ∧ t'.timerNextTime = t.timerNextTime ∨ t = timer) ∧
      t'.timerId = t.timerId ∧ t'.slave = t.slave ∧ t'.backoff = t.backoff := by
  have hold : ∀ t ∈ timers, ∃ s, (s ∈ timers ∧ t.timerNextTime = s.timerNextTime ∨ s = timer) ∧
      t.timerId = s.timerId ∧ t.slave = s.slave ∧ t.backoff = s.backoff := fun t ht =>
    ⟨t, .inl ⟨ht, rfl⟩, rfl, rfl, rfl⟩
  have hnew : ∀ t : Timer, t.timerId = timer.timerId → t.slave = timer.slave →
      t.backoff = timer.backoff →
      ∃ s, (s ∈ timers ∧ t.timerNextTime = s.timerNextTime ∨ s = timer) ∧
        t.timerId = s.timerId ∧ t.slave = s.slave ∧ t.backoff = s.backoff := fun t h₁ h₂ h₃ =>
    ⟨timer, .inr rfl, h₁, h₂, h₃⟩
  cases timers with
  | nil => exact ⟨timer, .inr rfl, by rw [List.mem_singleton.1 h], by rw [List.mem_singleton.1 h],
      by rw [List.mem_singleton.1 h]⟩
  | cons head rest =>
    unfold insertTimer at h
    dsimp only at h
    split_ifs at h
    · rcases List.mem_cons.1 h with rfl | h
      · exact hnew _ rfl rfl rfl
      · exact hold t' h
    · cases mode with
      | rounds =>
        rcases List.mem_append.1 h with h | h
        · exact hold t' h
        · exact hnew t' (by rw [List.mem_singleton.1 h]) (by rw [List.mem_singleton.1 h])
            (by rw [List.mem_singleton.1 h])
      | parallell =>
        rcases List.mem_append.1 h with h | h
        · exact hold t' ((List.takeWhile_sublist _).subset h)
        · rcases List.mem_cons.1 h with rfl | h
          · exact hnew _ rfl rfl rfl
          · exact hold t' ((List.dropWhile_sublist _).subset h)
      | series =>
        obtain ⟨t, ht, rfl⟩ := List.mem_map.1 h
        rcases List.mem_append.1 ht with ht | ht
        · obtain ⟨s, hs, hid, hslave, hbackoff⟩ := hold t ht
          split_ifs
          · exact ⟨s, hs, hid, hslave, hbackoff⟩
          · exact ⟨s, hs, hid, hslave, hbackoff⟩
        · rw [List.mem_singleton.1 ht]
          split_ifs
          · exact hnew _ rfl rfl rfl
          · exact hnew _ rfl rfl rfl

/-- A call that subscribes finds the backoff of the slave unused: it has not answered, missed
or been probed yet. -/
def SubscribesFresh (c : Context) : Call → Prop
  | .subscribe slaveId request _ => ∀ writer, request.build c.transport slaveId = some writer →
    ∀ t ∈ c.timers, t.slave = (frameSlave c.transport writer).toNat → t.backoff = .fresh
  | _ => True

/-- A subscription that is made adds a timer whose backoff is unused. -/
theorem subscribeRequest_cases (c : Context) (slaveId : ℤ) (request : Request) (interval : ℤ)
    (env : Env) : subscribeRequest c slaveId request interval env = setSlave c slaveId ∨
      ∃ (mode : QueryMode) (writer : Frame .writer) (timer : Timer),
        request.build c.transport slaveId = some writer ∧
        timer.timerId = c.timerIdNext + 1 ∧ timer.slave = (frameSlave c.transport writer).toNat ∧
        timer.backoff = .fresh ∧ subscribeRequest c slaveId request interval env =
          { setSlave c slaveId with
            timerIdNext := c.timerIdNext + 1, timers := insertTimer mode c.timers timer } := by
  unfold subscribeRequest
  split
  · rename_i writer hbuild
    unfold subscribe
    split
    · exact .inl rfl
    · rename_i config hconfig
      split_ifs
      · exact .inl rfl
      · exact .inr ⟨config.queryMode, writer, newTimer (setSlave c slaveId) config
          (Msg.ofFrame 0 writer) interval env, hbuild, rfl, rfl, rfl, rfl⟩
  · exact .inl rfl

/-- The new timer copies the table in which its slave has no backoff yet. -/
theorem Copies.insertTimer {table : SlaveTable} {timers : List Timer} (h : Copies table timers)
    (mode : QueryMode) {timer : Timer} (hnew : timer.backoff = .fresh)
    (hold : ∀ t ∈ timers, t.slave = timer.slave → t.backoff = .fresh) :
    Copies (Function.update table timer.slave .fresh) (insertTimer mode timers timer) := by
  intro t' ht'
  obtain ⟨t, ht, -, hslave, hbackoff⟩ := insertTimer_backoff ht'
  rw [hslave, hbackoff]
  by_cases hsame : t.slave = timer.slave
  · rw [hsame, Function.update_self]
    rcases ht with ⟨ht, -⟩ | rfl
    · exact hold t ht hsame
    · exact hnew
  · rw [Function.update_of_ne hsame]
    rcases ht with ⟨ht, -⟩ | rfl
    · exact h t ht
    · exact absurd rfl hsame

theorem Tagged.insertTimer {c : Context} (h : Tagged c) (mode : QueryMode) {timer : Timer}
    (hid : timer.timerId = c.timerIdNext + 1) (slaveId : ℤ) (next : ℕ) :
    Tagged { setSlave c slaveId with
      timerIdNext := next, timers := insertTimer mode c.timers timer } := by
  refine ⟨fun t' ht' => ?_, h.queue⟩
  obtain ⟨t, ht, hsame, -⟩ := insertTimer_backoff ht'
  rw [hsame]
  rcases ht with ⟨ht, -⟩ | rfl
  · exact h.timers t ht
  · rw [hid]
    exact Nat.succ_pos _

/-- The timers are copies of some table, and the polls are known. -/
structure Replicated (c : Context) : Prop where
  tagged : Tagged c
  copies : ∃ table, Copies table c.timers

theorem loopPrepare_replicated {c : Context} (h : Replicated c) (sleepTime : Millitime) (env : Env) :
    Replicated (loopPrepare c sleepTime env).ctx := by
  unfold loopPrepare
  split_ifs
  · rw [prepareEvents_ctx]
    have hout : Replicated (timeOutHead c env) := by
      rcases timeOutHead_left h.tagged env with hstill | ⟨_, _, _, _, _, hleave⟩
      · refine ⟨hstill.tagged h.tagged, ?_⟩
        rw [hstill.timers]
        exact h.copies
      · exact ⟨hleave.tagged h.tagged, hleave.copies h.copies⟩
    have hgates := loopPrepareSubscription_gates (timeOutHead c env) sleepTime env
    exact ⟨hgates.sameNumbers.tagged hout.tagged, hgates.copies hout.copies⟩
  · exact h

theorem Replicated.perform {c : Context} (h : Replicated c) {call : Call}
    (hfresh : SubscribesFresh c call) (env : Env) : Replicated (call.perform c env) := by
  have haside : ∀ call : Call, call.Aside → Replicated (call.perform c env) := by
    intro call haside
    have hstill := Call.still (c := c) _ haside env
    refine ⟨hstill.tagged h.tagged, ?_⟩
    rw [hstill.timers]
    exact h.copies
  have hrearm : ∀ c : Context, Replicated c → Replicated (onceRearm c env) := by
    intro c h
    obtain ⟨table, hcopies⟩ := h.copies
    exact ⟨(onceRearm_settings c env).tagged h.tagged, table,
      (onceRearm_rearms c env).sameBackoffs.copies hcopies⟩
  cases call with
  | subscribe slaveId request interval =>
    change Replicated (subscribeRequest c slaveId request interval env)
    rcases subscribeRequest_cases c slaveId request interval env with
      hsame | ⟨mode, writer, timer, hbuild, hid, hslave, hnew, hadded⟩
    · rw [hsame]
      exact ⟨⟨h.tagged.timers, h.tagged.queue⟩, h.copies⟩
    · obtain ⟨table, hcopies⟩ := h.copies
      rw [hadded]
      exact ⟨h.tagged.insertTimer mode hid slaveId _, _, hcopies.insertTimer mode hnew
        fun t ht hsame => hfresh writer hbuild t ht (hsame.trans hslave)⟩
  | prepare sleepTime => exact loopPrepare_replicated h sleepTime env
  | writeRead revents =>
    have hleft := loopWriteRead_left h.tagged revents env
    exact ⟨hleft.settings.tagged h.tagged, hleft.copies h.copies⟩
  | reset =>
    have hemptied := dropAll_emptied env c.queue h.tagged rfl
    refine hrearm _ ⟨hemptied.tagged h.tagged, ?_⟩
    rw [hemptied.timers]
    exact h.copies
  | rearm => exact hrearm c h
  | configure config processConfig frameTimeoutMs =>
    exact ⟨⟨h.tagged.timers, h.tagged.queue⟩, h.copies⟩
  | _ => exact haside _ trivial

theorem Fresh.replicated {c : Context} (h : Fresh c) : Replicated c where
  tagged := ⟨by simp [h.timers], by simp [h.queue]⟩
  copies := ⟨fun _ => .fresh, by simp [Copies, h.timers]⟩

theorem Replicated.run {c : Context} (h : Replicated c) {calls : List (Call × Env)}
    (hcalls : Along (fun c _ call => SubscribesFresh c call) calls c) :
    Replicated (run calls c) :=
  hcalls.keeps (fun _ env _ h hfresh => h.perform hfresh env) h

/-- In every run in which no slave is subscribed again once its backoff is in use, its timers
have the same backoff, so that its gate does not depend on which of them is asked. -/
theorem backoff_replicas_agree {c₀ : Context} (hfresh : Fresh c₀) {calls : List (Call × Env)}
    (hcalls : Along (fun c _ call => SubscribesFresh c call) calls c₀) :
    Agree (run calls c₀).timers ∧
      ∀ t ∈ (run calls c₀).timers, ∀ t' ∈ (run calls c₀).timers, t.slave = t'.slave →
        ∀ now, (slaveGate (run calls c₀) t now).1 = (slaveGate (run calls c₀) t' now).1 := by
  obtain ⟨-, table, hcopies⟩ := hfresh.replicated.run hcalls
  refine ⟨hcopies.agree, fun t ht t' ht' hslave now => Bool.eq_iff_iff.2 ?_⟩
  rw [(slaveGate_copies hcopies (hcopies t ht) now).1,
    (slaveGate_copies hcopies (hcopies t' ht') now).1, hslave]

/-- Two inputs of one slave, asked every second and probed for 8 s at most. -/
def probedConfig : Config where
  inputs := [⟨5, .holdingRegister, 0, 0, 1, .fast, []⟩, ⟨5, .holdingRegister, 10, 0, 1, .fast, []⟩]
  offsetSize := 1
  queryMode := .parallell
  roundIntervalMs := 0
  frameDelayMs := 0
  slaveRetryMaxMs := 8000
  rawWrite := false

def probedContext : Context :=
  { newContext .tcp with
    connected := true, subscribeCb := true, errorCb := true, frameTimeoutMs := 500
    config := some probedConfig, processConfig := probedConfig }

def readFirst : Call := .subscribe 5 (.readHoldingRegisters 0 1) 1000

def readSecond : Call := .subscribe 5 (.readHoldingRegisters 10 1) 1000

def wakeUps (times : List Millitime) : List (Call × Env) :=
  times.map fun t => (.prepare 100, atTime t)

theorem along_wakeUps (times : List Millitime) (c : Context) :
    Along (fun c _ call => SubscribesFresh c call) (wakeUps times) c := by
  induction times generalizing c with
  | nil => trivial
  | cons t times ih => exact ⟨trivial, ih _⟩

/-- Both inputs are subscribed, and then the slave misses three polls. -/
theorem backoff_replicas_agree_example :
    Agree (run ([(readFirst, atTime 0), (readSecond, atTime 0)] ++
      wakeUps [1000, 1100, 1600, 1700, 2200, 2300, 2800]) probedContext).timers ∧
    (run ([(readFirst, atTime 0), (readSecond, atTime 0)] ++
      wakeUps [1000, 1100, 1600, 1700, 2200, 2300, 2800]) probedContext).timers.map
        Timer.unresponsive = [true, true] := by
  refine ⟨(backoff_replicas_agree ⟨rfl, rfl, rfl, rfl⟩ ?_).1, by decide +kernel⟩
  refine ⟨?_, ?_, along_wakeUps _ _⟩
  · rintro writer - t ht
    exact absurd ht List.not_mem_nil
  · rintro writer - t ht -
    obtain rfl := List.mem_singleton.1 ht
    rfl

/-- The second input is subscribed when the slave has become unresponsive: its gate is open,
the other one is shut. -/
theorem late_subscription_disagrees :
    ¬ Agree (run ([(readFirst, atTime 0)] ++ wakeUps [1000, 1100, 1600, 1700, 2200, 2300, 2800] ++
      [(readSecond, atTime 2900)]) probedContext).timers ∧
    (run ([(readFirst, atTime 0)] ++ wakeUps [1000, 1100, 1600, 1700, 2200, 2300, 2800] ++
      [(readSecond, atTime 2900)]) probedContext).timers.map (fun t => (t.slave, (slaveGate
        (run ([(readFirst, atTime 0)] ++ wakeUps [1000, 1100, 1600, 1700, 2200, 2300, 2800] ++
          [(readSecond, atTime 2900)]) probedContext) t 3000).1)) = [(5, false), (5, true)] := by
  decide +kernel

end Modbusmq
