import Modbusmq.Loop.Run

/-!
# Rounds

A round is posted in one go, in the call of `modbusmq_loop_prepare` that opens
it. This module says which calls open one, what they post, and that nothing else
moves the state the rounds are kept in.
-/

namespace Modbusmq

def Timer.identity (t : Timer) : ℕ × Tier × ℕ × Bool := (t.timerId, t.tier, t.slave, t.isOnce)

def Context.identities (c : Context) : List (ℕ × Tier × ℕ × Bool) := c.timers.map Timer.identity

/-- The state of the rounds is left alone. -/
structure KeepsRound (c c' : Context) : Prop where
  active : c'.roundActive = c.roundActive
  startMs : c'.roundStartMs = c.roundStartMs
  deepSlave : c'.roundDeepSlave = c.roundDeepSlave
  focus : c'.roundFocus = c.roundFocus
  config : c'.config = c.config
  identities : c'.identities = c.identities
  timerIdNext : c'.timerIdNext = c.timerIdNext

/-- And no poll enters the queue. -/
structure SameRounds (c c' : Context) : Prop extends KeepsRound c c' where
  busy : roundBusy c' = true → roundBusy c = true

theorem KeepsRound.refl (c : Context) : KeepsRound c c := ⟨rfl, rfl, rfl, rfl, rfl, rfl, rfl⟩

theorem SameRounds.refl (c : Context) : SameRounds c c := ⟨.refl c, id⟩

theorem KeepsRound.trans {c₁ c₂ c₃ : Context} (h : KeepsRound c₁ c₂) (h' : KeepsRound c₂ c₃) :
    KeepsRound c₁ c₃ :=
  ⟨h'.active.trans h.active, h'.startMs.trans h.startMs, h'.deepSlave.trans h.deepSlave,
    h'.focus.trans h.focus, h'.config.trans h.config, h'.identities.trans h.identities,
    h'.timerIdNext.trans h.timerIdNext⟩

theorem SameRounds.trans {c₁ c₂ c₃ : Context} (h : SameRounds c₁ c₂) (h' : SameRounds c₂ c₃) :
    SameRounds c₁ c₃ :=
  ⟨h.toKeepsRound.trans h'.toKeepsRound, h.busy ∘ h'.busy⟩

/-- Timers that are rewritten one by one keep their identities. -/
theorem sameRounds_map_timers (c : Context) (f : Timer → Timer)
    (h : ∀ t, (f t).identity = t.identity) :
    SameRounds c { c with timers := c.timers.map f } :=
  ⟨⟨rfl, rfl, rfl, rfl, rfl, by simp [Context.identities, h], rfl⟩, id⟩

theorem sameRounds_modify_timers (c : Context) (i : ℕ) (f : Timer → Timer)
    (h : ∀ t, (f t).identity = t.identity) :
    SameRounds c { c with timers := c.timers.modify i f } := by
  refine ⟨⟨rfl, rfl, rfl, rfl, rfl, ?_, rfl⟩, id⟩
  apply List.ext_getElem
  · simp [Context.identities]
  · intro j _ _
    simp only [Context.identities, List.getElem_map, List.getElem_modify]
    split_ifs <;> simp [h]

theorem slaveSettle_identity (now : Millitime) (slave misses : ℕ) (unresponsive : Bool)
    (retryMs : UInt32) (t : Timer) :
    (slaveSettle now slave misses unresponsive retryMs t).identity = t.identity := by
  unfold slaveSettle
  split_ifs <;> rfl

theorem slaveUpdate_sameRounds (c : Context) (timerId : ℕ) (answered : Bool) (env : Env) :
    SameRounds c (slaveUpdate c timerId answered env) := by
  unfold slaveUpdate
  dsimp only
  split
  · exact .refl c
  · split_ifs
    · exact sameRounds_map_timers c _ fun t => slaveSettle_identity ..
    · exact .refl c
    · exact sameRounds_map_timers c _ fun t => slaveSettle_identity ..
    · refine sameRounds_map_timers c _ fun t => ?_
      split_ifs <;> rfl
    · exact sameRounds_map_timers c _ fun t => slaveSettle_identity ..

theorem slaveGate_sameRounds (c : Context) (timer : Timer) (now : Millitime) :
    SameRounds c (slaveGate c timer now).2 := by
  unfold slaveGate
  split_ifs
  · exact .refl c
  · refine sameRounds_map_timers c _ fun t => ?_
    split_ifs <;> rfl
  · exact .refl c

theorem onceDone_sameRounds (c : Context) (timerId : ℕ) : SameRounds c (onceDone c timerId) := by
  unfold onceDone
  split
  · exact .refl c
  · refine sameRounds_map_timers c _ fun t => ?_
    split_ifs <;> rfl

theorem onceRearm_sameRounds (c : Context) (env : Env) : SameRounds c (onceRearm c env) := by
  refine ⟨⟨rfl, rfl, rfl, rfl, rfl, ?_, rfl⟩, id⟩
  apply List.ext_getElem
  · simp [Context.identities, onceRearm]
  · intro j _ _
    simp only [Context.identities, onceRearm, List.getElem_map, List.getElem_mapIdx]
    split_ifs <;> rfl

theorem reportError_sameRounds (c : Context) (m : Msg) (error : ℤ) (env : Env) :
    SameRounds c (reportError c m error env) := by
  unfold reportError
  split
  · exact ⟨⟨rfl, rfl, rfl, rfl, rfl, rfl, rfl⟩, id⟩
  · have hupdate := slaveUpdate_sameRounds c m.msgId (error = errException) env
    dsimp only
    split_ifs
    · exact hupdate.trans ⟨⟨rfl, rfl, rfl, rfl, rfl, rfl, rfl⟩, id⟩
    · exact hupdate
    · exact ⟨⟨rfl, rfl, rfl, rfl, rfl, rfl, rfl⟩, id⟩
    · exact .refl c

theorem reportAnswer_sameRounds (c : Context) (flags : Flags) (m : Msg) (env : Env) :
    SameRounds c (reportAnswer c flags m env) := by
  unfold reportAnswer
  cases flags with
  | post =>
    dsimp only
    split
    · exact ⟨⟨rfl, rfl, rfl, rfl, rfl, rfl, rfl⟩, id⟩
    · split_ifs <;> exact ⟨⟨rfl, rfl, rfl, rfl, rfl, rfl, rfl⟩, id⟩
  | subscribe =>
    dsimp only
    split_ifs
    · exact (slaveUpdate_sameRounds c m.msgId true env).trans
        ((onceDone_sameRounds _ m.msgId).trans ⟨⟨rfl, rfl, rfl, rfl, rfl, rfl, rfl⟩, id⟩)
    · exact .refl c

theorem dropHead_sameRounds (c : Context) (m : Msg) (error : ℤ) :
    SameRounds c (dropHead c m error) := by
  refine ⟨⟨rfl, rfl, rfl, rfl, rfl, rfl, rfl⟩, fun h => ?_⟩
  obtain ⟨w, hmem, hflags⟩ := List.any_eq_true.1 h
  exact List.any_eq_true.2 ⟨w, List.mem_of_mem_tail hmem, hflags⟩

theorem handleMsg_sameRounds (c : Context) (wrapper : Wrapper) (env : Env) :
    SameRounds c (handleMsg c wrapper env).2 := by
  rcases handleMsg_cases c wrapper env with ⟨rc, reader, -, -, hresult⟩ | ⟨reader, -, hresult⟩
  · rw [hresult]
    have hresynced : SameRounds c (resynced c env) := ⟨⟨rfl, rfl, rfl, rfl, rfl, rfl, rfl⟩, id⟩
    exact hresynced.trans ((reportError_sameRounds ..).trans (dropHead_sameRounds ..))
  · rw [hresult]
    exact (reportAnswer_sameRounds ..).trans (dropHead_sameRounds ..)

theorem beforeWrite_sameRounds (c : Context) (m : Msg) (env : Env) :
    SameRounds c (beforeWrite c m env) := by
  unfold beforeWrite
  split_ifs <;> exact ⟨⟨rfl, rfl, rfl, rfl, rfl, rfl, rfl⟩, id⟩

theorem handleWriteRead_sameRounds {c : Context} {m : Msg} (revents : Revents) (env : Env)
    (h : Underway c.transport m) : SameRounds c (handleWriteRead c m revents env).ctx := by
  have hbefore := beforeWrite_sameRounds c m env
  have hout := handleWriteRead_outcome revents env h
  generalize handleWriteRead c m revents env = s at hout
  cases hout with
  | waits => exact .refl c
  | complete => exact .refl c
  | writing _ _ hwrite =>
    cases hwrite with
    | gap => exact .refl c
    | failed => exact hbefore.trans ⟨⟨rfl, rfl, rfl, rfl, rfl, rfl, rfl⟩, id⟩
    | part => exact hbefore.trans ⟨⟨rfl, rfl, rfl, rfl, rfl, rfl, rfl⟩, id⟩
    | broadcast => exact hbefore.trans ⟨⟨rfl, rfl, rfl, rfl, rfl, rfl, rfl⟩, id⟩
    | whole => exact hbefore.trans ⟨⟨rfl, rfl, rfl, rfl, rfl, rfl, rfl⟩, id⟩
  | reading _ _ _ _ hread => cases hread <;> exact ⟨⟨rfl, rfl, rfl, rfl, rfl, rfl, rfl⟩, id⟩

theorem loopWriteRead_sameRounds {c : Context} (hc : WellFormed c) (revents : Revents) (env : Env) :
    SameRounds c (loopWriteRead c revents env).2 := by
  unfold loopWriteRead
  split
  · split_ifs
    · exact ⟨⟨rfl, rfl, rfl, rfl, rfl, rfl, rfl⟩, id⟩
    · exact .refl c
  · rename_i wrapper rest hq
    have hs := handleWriteRead_sameRounds revents env
      (hc.head wrapper (by rw [hq]; rfl)).underway
    generalize handleWriteRead c wrapper.msg revents env = s at hs
    have hqueued : SameRounds c { s.ctx with queue := { wrapper with msg := s.msg } :: rest } := by
      refine ⟨⟨hs.active, hs.startMs, hs.deepSlave, hs.focus, hs.config, hs.identities,
        hs.timerIdNext⟩, fun h => ?_⟩
      unfold roundBusy at h ⊢
      rw [hq]
      exact h
    have hreport : ∀ (c₁ : Context) (m : Msg) (error : ℤ), SameRounds c c₁ →
        SameRounds c (dropHead (reportError c₁ m error env) m error) := fun c₁ m error h =>
      h.trans ((reportError_sameRounds c₁ m error env).trans (dropHead_sameRounds ..))
    dsimp only
    split_ifs
    · refine SameRounds.trans ?_ (handleMsg_sameRounds ..)
      exact hqueued.trans ⟨⟨rfl, rfl, rfl, rfl, rfl, rfl, rfl⟩, id⟩
    · refine hreport _ _ _ ?_
      exact hqueued.trans ⟨⟨rfl, rfl, rfl, rfl, rfl, rfl, rfl⟩, id⟩
    · exact hreport _ _ _ hqueued
    · refine hreport _ _ _ ?_
      exact hqueued.trans ⟨⟨rfl, rfl, rfl, rfl, rfl, rfl, rfl⟩, id⟩
    · exact hqueued

theorem timeOutHead_sameRounds (c : Context) (env : Env) : SameRounds c (timeOutHead c env) := by
  cases hq : c.queue with
  | nil =>
    unfold timeOutHead
    rw [hq]
    exact .refl c
  | cons wrapper rest =>
    have hstamped : SameRounds c { c with
        queue := stampHead wrapper (env.clock .head) :: rest } := by
      refine ⟨⟨rfl, rfl, rfl, rfl, rfl, rfl, rfl⟩, fun h => ?_⟩
      unfold roundBusy at h ⊢
      rw [hq]
      simpa using h
    rw [timeOutHead_cons hq]
    split_ifs
    · have hcount : ∀ c₁ : Context, SameRounds c₁
          { flush (countTimeout c₁ wrapper.msg.writer (env.clock .head)) env with
            resyncPending := true } := by
        intro c₁
        unfold countTimeout
        split_ifs <;> exact ⟨⟨rfl, rfl, rfl, rfl, rfl, rfl, rfl⟩, id⟩
      exact hstamped.trans ((reportError_sameRounds ..).trans
        ((dropHead_sameRounds ..).trans (hcount _)))
    · exact hstamped

theorem dropAll_sameRounds (env : Env) (queue : List Wrapper) (c : Context)
    (hq : c.queue = queue) : SameRounds c (dropAll env queue c) := by
  induction queue generalizing c with
  | nil => exact .refl c
  | cons wrapper rest ih =>
    have hstep : SameRounds c
        (dropHead (reportError { c with queue := wrapper :: rest } wrapper.msg errTransport env)
          wrapper.msg errTransport) := by
      rw [← hq]
      exact (reportError_sameRounds ..).trans (dropHead_sameRounds ..)
    refine hstep.trans (ih _ ?_)
    change (reportError _ _ _ env).queue.tail = rest
    rw [(reportError_telling _ wrapper.flags wrapper.msg errTransport env).queue]
    rfl

theorem post_busy (c : Context) (m : Msg) :
    roundBusy (postInternal c m .post) = roundBusy c := by
  unfold roundBusy
  rw [postInternal_queue, Bool.eq_iff_iff, List.any_eq_true, List.any_eq_true]
  simp only [mem_enqueue]
  constructor
  · rintro ⟨w, hmem | rfl, hflags⟩
    · exact ⟨w, hmem, hflags⟩
    · exact absurd hflags (by simp)
  · rintro ⟨w, hmem, hflags⟩
    exact ⟨w, .inl hmem, hflags⟩

theorem post_sameRounds (c : Context) (m : Msg) : SameRounds c (postInternal c m .post) :=
  ⟨⟨rfl, rfl, rfl, rfl, rfl, rfl, rfl⟩, fun h => (post_busy c m).symm.trans h⟩

theorem rawRequest_sameRounds (c : Context) (text : String) (stray : ℕ → UInt8) :
    SameRounds c (rawRequest c text stray).2 := by
  unfold rawRequest
  dsimp only
  split
  · exact ⟨⟨rfl, rfl, rfl, rfl, rfl, rfl, rfl⟩, id⟩
  · exact (post_sameRounds c _).trans ⟨⟨rfl, rfl, rfl, rfl, rfl, rfl, rfl⟩, id⟩

def roundOver (c : Context) (env : Env) : Context :=
  if c.roundActive ∧ ¬ roundBusy c then
    { c with roundActive := false, roundLastMs := env.clock .due - c.roundStartMs }
  else c

/-- There is something to post and the interval since the last round began is over. -/
def RoundDue (config : Config) (c : Context) (env : Env) : Prop :=
  c.timers ≠ [] ∧ c.roundStartMs + UInt64.ofInt config.roundIntervalMs ≤ env.clock .due

instance (config : Config) (c : Context) (env : Env) : Decidable (RoundDue config c env) :=
  inferInstanceAs (Decidable (_ ∧ _))

/-- The context in which a call of `modbusmq_loop_prepare` opens a round, if it opens one. -/
def roundOpening (c : Context) (env : Env) : Option Context :=
  if c.connected then
    (timeOutHead c env).config.bind fun config =>
      if config.queryMode = .rounds ∧ ¬ (roundOver (timeOutHead c env) env).roundActive ∧
          RoundDue config (timeOutHead c env) env then
        some (roundOver (timeOutHead c env) env)
      else none
  else none

/-- The configuration is in rounds mode. -/
def InRounds (c : Context) : Prop := ∃ config, c.config = some config ∧ config.queryMode = .rounds

theorem loopPrepareRounds_eq (c : Context) (config : Config) (sleepTime : Millitime) (env : Env) :
    (loopPrepareRounds c config sleepTime env).ctx =
      if ¬ (roundOver c env).roundActive ∧ RoundDue config c env then
        roundStart (roundOver c env) env
      else roundOver c env := by
  have hover : (roundOver c env).timers = c.timers ∧
      (roundOver c env).roundStartMs = c.roundStartMs := by
    unfold roundOver
    split_ifs <;> exact ⟨rfl, rfl⟩
  unfold loopPrepareRounds
  dsimp only
  generalize (if 0 < sleepTime then sleepTime else 1000) = sleep
  change (if ¬ (roundOver c env).roundActive ∧ (roundOver c env).timers ≠ [] then
      if (roundOver c env).roundStartMs + UInt64.ofInt config.roundIntervalMs ≤ env.clock .due then
        (⟨roundStart (roundOver c env) env, sleep⟩ : Scheduled)
      else ⟨roundOver c env, min sleep ((roundOver c env).roundStartMs +
        UInt64.ofInt config.roundIntervalMs - env.clock .due)⟩
    else ⟨roundOver c env, sleep⟩).ctx = _
  rw [hover.1, hover.2]
  unfold RoundDue
  by_cases hidle : ¬ (roundOver c env).roundActive ∧ c.timers ≠ []
  · rw [if_pos hidle]
    by_cases hdue : c.roundStartMs + UInt64.ofInt config.roundIntervalMs ≤ env.clock .due
    · rw [if_pos hdue, if_pos ⟨hidle.1, hidle.2, hdue⟩]
    · rw [if_neg hdue, if_neg fun h => hdue h.2.2]
  · rw [if_neg hidle, if_neg fun h => hidle ⟨h.1, h.2.1⟩]

theorem loopPrepare_rounds {c : Context} (hc : InRounds c) (hopen : c.connected = true)
    (sleepTime : Millitime) (env : Env) :
    (loopPrepare c sleepTime env).ctx =
      match roundOpening c env with
      | some c₁ => roundStart c₁ env
      | none => roundOver (timeOutHead c env) env := by
  obtain ⟨config, hconfig, hmode⟩ := hc
  have hsame := (timeOutHead_sameRounds c env).config.trans hconfig
  unfold loopPrepare roundOpening
  rw [if_pos hopen, if_pos hopen, prepareEvents_ctx, hsame]
  unfold loopPrepareSubscription
  rw [hsame]
  dsimp only [Option.bind_some]
  rw [if_pos hmode, loopPrepareRounds_eq]
  by_cases hdue : ¬ (roundOver (timeOutHead c env) env).roundActive ∧
      RoundDue config (timeOutHead c env) env
  · rw [if_pos hdue, if_pos ⟨hmode, hdue⟩]
  · rw [if_neg hdue, if_neg fun h => hdue h.2]

/-- The timers of a tier, of one slave or of all, in their order. -/
def tierTimers (timers : List Timer) (tier : Tier) (slave : ℤ) : List ℕ :=
  (List.range timers.length).filter fun i =>
    timers[i]?.any fun t => t.tier = tier ∧ (slave < 0 ∨ (t.slave : ℤ) = slave)

/-- The timers a round asks, with the time each is asked at: the fast ones, the deep ones of
the slave whose turn it is, and those of the focus slave when that is another one. -/
def roundPlan (c : Context) (turn : ℤ) (env : Env) : List (ℕ × Millitime) :=
  (tierTimers c.timers .fast (-1)).map (fun i => (i, env.clock (.fast i))) ++
    (if 0 ≤ turn then
      (tierTimers c.timers .deep turn).map (fun i => (i, env.clock (.deep i))) else []) ++
    if 0 ≤ c.roundFocus ∧ c.roundFocus ≠ turn then
      (tierTimers c.timers .deep c.roundFocus).map (fun i => (i, env.clock (.focus i))) else []

/-- The timers let through so far, and when the slaves probed among them are due again. -/
structure Admission where
  admitted : List ℕ
  probed : ℕ → Option Millitime

/-- The state after a timer was let through the gate. -/
def Admission.probe (a : Admission) (t : Timer) (now : Millitime) : Admission :=
  { a with
    probed := if t.unresponsive then
      Function.update a.probed t.slave (some (now + t.retryMs.toUInt64)) else a.probed }

/-- The slave of this timer has to wait for its next probe. -/
def Admission.Shut (a : Admission) (t : Timer) (now : Millitime) : Prop :=
  t.unresponsive ∧ now < (a.probed t.slave).getD t.retryAt

instance (a : Admission) (t : Timer) (now : Millitime) : Decidable (a.Shut t now) :=
  inferInstanceAs (Decidable (_ ∧ _))

/-- One timer of the plan: a once input that has been answered is done, and a slave that does
not answer is asked once it is due, and then not before its next probe. -/
def Admission.ask (timers : List Timer) (a : Admission) (asked : ℕ × Millitime) : Admission :=
  match timers[asked.1]? with
  | none => a
  | some t =>
    if t.isOnce ∧ t.timerNextTime = neverAgain ∨ a.Shut t asked.2 then a
    else { a.probe t asked.2 with admitted := a.admitted ++ [asked.1] }

def admitted (timers : List Timer) (plan : List (ℕ × Millitime)) : List ℕ :=
  (plan.foldl (Admission.ask timers) ⟨[], fun _ => none⟩).admitted

def PollOf (c : Context) (i : ℕ) (wrapper : Wrapper) : Prop :=
  ∃ (timer : Timer) (transactionId : ℕ) (reqId : UInt32) (serial : ℕ), c.timers[i]? = some timer ∧
    wrapper = ⟨.subscribe, 0, preparedMsg c.transport transactionId
      { timer.msg with msgId := timer.timerId, reqId := reqId, serial := serial }⟩

/-- A timer as the round has left it. -/
structure TimerWalked (probed : ℕ → Option Millitime) (t t' : Timer) : Prop where
  timerId : t'.timerId = t.timerId
  tier : t'.tier = t.tier
  slave : t'.slave = t.slave
  isOnce : t'.isOnce = t.isOnce
  timerNextTime : t'.timerNextTime = t.timerNextTime
  unresponsive : t'.unresponsive = t.unresponsive
  retryMs : t'.retryMs = t.retryMs
  retryAt : t'.retryAt = (probed t.slave).getD t.retryAt
  writer : t'.msg.writer = t.msg.writer
  reader : t'.msg.reader = t.msg.reader

/-- The context once part of the plan has been asked. -/
structure Walked (c : Context) (a : Admission) (c' : Context) : Prop where
  timers : List.Forall₂ (TimerWalked a.probed) c.timers c'.timers
  transport : c'.transport = c.transport
  queue : ∃ polls, c'.queue = c.queue ++ polls ∧ List.Forall₂ (PollOf c) a.admitted polls

theorem enqueue_subscribe (queue : List Wrapper) (msg : Msg) (since : Millitime) :
    enqueue queue ⟨.subscribe, since, msg⟩ = queue ++ [⟨.subscribe, since, msg⟩] := by
  cases queue <;> rfl

theorem Walked.start (c : Context) : Walked c ⟨[], fun _ => none⟩ c where
  timers := List.forall₂_same.2 fun _ _ => ⟨rfl, rfl, rfl, rfl, rfl, rfl, rfl, rfl, rfl, rfl⟩
  transport := rfl
  queue := ⟨[], (List.append_nil _).symm, .nil⟩

theorem Walked.getElem? {c c' : Context} {a : Admission} (h : Walked c a c') (i : ℕ) :
    (c.timers[i]? = none ∧ c'.timers[i]? = none) ∨ ∃ t t', c.timers[i]? = some t ∧
      c'.timers[i]? = some t' ∧ TimerWalked a.probed t t' := by
  have hlength := h.timers.length_eq
  by_cases hi : i < c.timers.length
  · right
    refine ⟨c.timers[i], c'.timers[i], List.getElem?_eq_getElem hi,
      List.getElem?_eq_getElem (hlength ▸ hi), ?_⟩
    exact (List.forall₂_iff_get.1 h.timers).2 i hi (hlength ▸ hi)
  · left
    rw [List.getElem?_eq_none (not_lt.1 hi), List.getElem?_eq_none (hlength ▸ not_lt.1 hi)]
    exact ⟨rfl, rfl⟩

theorem TimerWalked.gate_shut {c' : Context} {a : Admission} {t t' : Timer}
    (hw : TimerWalked a.probed t t') {now : Millitime} (hshut : a.Shut t now) :
    slaveGate c' t' now = (false, c') := by
  have hset : t'.unresponsive = true := hw.unresponsive.trans hshut.1
  have hwait : now < t'.retryAt := by
    rw [hw.retryAt]
    exact hshut.2
  rw [slaveGate, if_neg (not_not.2 hset), if_pos hwait]

theorem Walked.gate_open {c c' : Context} {a : Admission} (h : Walked c a c') {t t' : Timer}
    (hw : TimerWalked a.probed t t') {now : Millitime} (hopen : ¬ a.Shut t now) :
    (slaveGate c' t' now).1 = true ∧ Walked c (a.probe t now) (slaveGate c' t' now).2 := by
  by_cases hset : t.unresponsive = true
  · have hset' : t'.unresponsive = true := hw.unresponsive.trans hset
    have hdue : ¬ now < t'.retryAt := by
      rw [hw.retryAt]
      exact fun hwait => hopen ⟨hset, hwait⟩
    rw [slaveGate, if_neg (not_not.2 hset'), if_neg hdue]
    refine ⟨rfl, ?_, h.transport, h.queue⟩
    unfold Admission.probe
    rw [if_pos hset, List.forall₂_map_right_iff]
    refine h.timers.imp fun s s' hs => ?_
    by_cases hslave : s.slave = t.slave
    · rw [if_pos (hs.slave.trans (hslave.trans hw.slave.symm))]
      refine ⟨hs.timerId, hs.tier, hs.slave, hs.isOnce, hs.timerNextTime, hs.unresponsive,
        hs.retryMs, ?_, hs.writer, hs.reader⟩
      dsimp only
      rw [hslave, Function.update_self, hw.retryMs]
      rfl
    · rw [if_neg fun h => hslave (hs.slave.symm.trans (h.trans hw.slave))]
      refine ⟨hs.timerId, hs.tier, hs.slave, hs.isOnce, hs.timerNextTime, hs.unresponsive,
        hs.retryMs, ?_, hs.writer, hs.reader⟩
      dsimp only
      rw [hs.retryAt, Function.update_of_ne hslave]
  · have hset' : ¬ t'.unresponsive = true := by
      rw [hw.unresponsive]
      exact hset
    rw [slaveGate, if_pos hset']
    refine ⟨rfl, ?_⟩
    unfold Admission.probe
    rw [if_neg hset]
    exact h

/-- Posting a timer puts its poll at the end of the queue. -/
theorem Walked.post {c c' : Context} {a : Admission} (h : Walked c a c') {i : ℕ} {t t' : Timer}
    (ht : c.timers[i]? = some t) (ht' : c'.timers[i]? = some t')
    (hw : TimerWalked a.probed t t') :
    Walked c { a with admitted := a.admitted ++ [i] } (postTimer c' i) := by
  obtain ⟨polls, hqueue, hpolls⟩ := h.queue
  have hlength := h.timers.length_eq
  unfold postTimer
  rw [ht']
  dsimp only
  refine ⟨?_, h.transport, ?_⟩
  · refine List.forall₂_iff_get.2 ⟨?_, fun j hj hj' => ?_⟩
    · simpa [postInternal] using hlength
    · simp only [List.get_eq_getElem, List.getElem_modify]
      have hs := (List.forall₂_iff_get.1 h.timers).2 j hj (hlength ▸ hj)
      simp only [List.get_eq_getElem] at hs
      split_ifs
      · exact ⟨hs.timerId, hs.tier, hs.slave, hs.isOnce, hs.timerNextTime, hs.unresponsive,
          hs.retryMs, hs.retryAt, hs.writer, hs.reader⟩
      · exact hs
  · rw [postInternal_queue, enqueue_subscribe, hqueue, List.append_assoc]
    refine ⟨_, rfl, List.rel_append hpolls (.cons ?_ .nil)⟩
    refine ⟨t, nextTransaction c'.transport c'.transactionId, nextReqId c'.reqIdNext,
      c'.serialNext, ht, ?_⟩
    rw [h.transport]
    dsimp only
    rw [hw.timerId, hw.writer, hw.reader]

/-- One timer of the walk, once it is known to be in the plan. -/
theorem Walked.ask {c c' : Context} {a : Admission} (h : Walked c a c') (tier : Tier)
    (slave : ℤ) (clock : ℕ → Millitime) (i : ℕ)
    (hplan : c.timers[i]?.any (fun t => t.tier = tier ∧ (slave < 0 ∨ (t.slave : ℤ) = slave))) :
    Walked c (a.ask c.timers (i, clock i)) (roundPostTimer tier slave clock c' i) := by
  unfold Admission.ask roundPostTimer
  rcases h.getElem? i with ⟨hnone, hnone'⟩ | ⟨t, t', ht, ht', hw⟩
  · rw [hnone, hnone']
    exact h
  · rw [ht, Option.any_some, decide_eq_true_eq] at hplan
    rw [ht, ht']
    dsimp only
    have hin : ¬ (t'.tier ≠ tier ∨ 0 ≤ slave ∧ (t'.slave : ℤ) ≠ slave) := by
      rw [hw.tier, hw.slave]
      rintro (hother | ⟨hone, hother⟩)
      · exact hother hplan.1
      · rcases hplan.2 with hall | hsame
        · exact absurd hone (not_le.2 hall)
        · exact hother hsame
    rw [if_neg hin, hw.isOnce, hw.timerNextTime]
    by_cases hdone : t.isOnce = true ∧ t.timerNextTime = neverAgain
    · have hask : t.isOnce = true ∧ t.timerNextTime = neverAgain ∨ a.Shut t (clock i) := .inl hdone
      rw [if_pos hdone, if_pos hask]
      exact h
    · rw [if_neg hdone]
      by_cases hshut : a.Shut t (clock i)
      · have hask : t.isOnce = true ∧ t.timerNextTime = neverAgain ∨ a.Shut t (clock i) :=
          .inr hshut
        rw [if_pos hask, gatePost, hw.gate_shut hshut]
        exact h
      · have hask : ¬ (t.isOnce = true ∧ t.timerNextTime = neverAgain ∨ a.Shut t (clock i)) :=
          not_or.2 ⟨hdone, hshut⟩
        obtain ⟨hpass, hgate⟩ := h.gate_open hw hshut
        rw [if_neg hask, gatePost, if_pos hpass]
        rcases hgate.getElem? i with ⟨hnone, -⟩ | ⟨s, s', hs, hs', hw'⟩
        · rw [ht] at hnone
          exact absurd hnone (by simp)
        · exact hgate.post hs hs' hw'

theorem Walked.skip {c c' : Context} {a : Admission} (h : Walked c a c') (tier : Tier)
    (slave : ℤ) (clock : ℕ → Millitime) (i : ℕ)
    (hplan : ¬ c.timers[i]?.any (fun t => t.tier = tier ∧ (slave < 0 ∨ (t.slave : ℤ) = slave))) :
    roundPostTimer tier slave clock c' i = c' := by
  unfold roundPostTimer
  rcases h.getElem? i with ⟨-, hnone'⟩ | ⟨t, t', ht, ht', hw⟩
  · rw [hnone']
  · rw [ht, Option.any_some, decide_eq_true_eq] at hplan
    have hout : t'.tier ≠ tier ∨ 0 ≤ slave ∧ (t'.slave : ℤ) ≠ slave := by
      rw [hw.tier, hw.slave]
      by_contra hin
      rw [not_or, not_not, not_and_or, not_not, not_le] at hin
      exact hplan hin
    rw [ht']
    dsimp only
    rw [if_pos hout]

theorem Walked.roundPost {c c' : Context} {a : Admission} (h : Walked c a c') (tier : Tier)
    (slave : ℤ) (clock : ℕ → Millitime) :
    Walked c (((tierTimers c.timers tier slave).map fun i => (i, clock i)).foldl
      (Admission.ask c.timers) a) (Modbusmq.roundPost c' tier slave clock) := by
  have hwalk : ∀ (l : List ℕ) (a : Admission) (c' : Context), Walked c a c' →
      Walked c (((l.filter fun i => c.timers[i]?.any fun t =>
          t.tier = tier ∧ (slave < 0 ∨ (t.slave : ℤ) = slave)).map fun i => (i, clock i)).foldl
        (Admission.ask c.timers) a) (l.foldl (roundPostTimer tier slave clock) c') := by
    intro l
    induction l with
    | nil => exact fun a c' h => h
    | cons i l ih =>
      intro a c' h
      rw [List.foldl_cons, List.filter_cons]
      split_ifs with hplan
      · exact ih _ _ (h.ask tier slave clock i hplan)
      · rw [h.skip tier slave clock i hplan]
        exact ih _ _ h
  have hlength := h.timers.length_eq
  unfold Modbusmq.roundPost tierTimers
  rw [← hlength]
  exact hwalk _ a c' h

theorem postTimer_keepsRound (c : Context) (i : ℕ) : KeepsRound c (postTimer c i) := by
  unfold postTimer
  split
  · exact .refl c
  · have hmodify := (sameRounds_modify_timers c i (fun t => { t with
      msg := { t.msg with msgId := t.timerId, reqId := nextReqId c.reqIdNext } })
      fun t => rfl).identities
    exact ⟨rfl, rfl, rfl, rfl, rfl, hmodify, rfl⟩

theorem roundPostTimer_keepsRound (tier : Tier) (slave : ℤ) (clock : ℕ → Millitime) (c : Context)
    (i : ℕ) : KeepsRound c (roundPostTimer tier slave clock c i) := by
  unfold roundPostTimer
  split
  · exact .refl c
  · split_ifs
    · exact .refl c
    · exact .refl c
    · have hgate := (slaveGate_sameRounds c ‹Timer› (clock i)).toKeepsRound
      unfold gatePost
      split_ifs
      · exact hgate.trans (postTimer_keepsRound _ i)
      · exact hgate

theorem roundPost_keepsRound (c : Context) (tier : Tier) (slave : ℤ) (clock : ℕ → Millitime) :
    KeepsRound c (roundPost c tier slave clock) := by
  unfold roundPost
  generalize List.range c.timers.length = l
  induction l generalizing c with
  | nil => exact .refl c
  | cons i l ih => exact (roundPostTimer_keepsRound tier slave clock c i).trans (ih _)

theorem roundStart_eq (c : Context) (env : Env) :
    ∃ c₁ c₂ c₃ : Context,
      c₁ = { c with
        roundActive := true, roundStartMs := env.clock .due, roundCount := c.roundCount + 1 } ∧
      c₂ = roundPost c₁ .fast (-1) (env.clock ∘ .fast) ∧
      c₃ = (if 0 ≤ roundNextDeepSlave c env then
        { roundPost c₂ .deep (roundNextDeepSlave c env) (env.clock ∘ .deep) with
          roundDeepSlave := roundNextDeepSlave c env } else c₂) ∧
      c₃.roundFocus = c.roundFocus ∧
      roundStart c env = if 0 ≤ c₃.roundFocus ∧ c₃.roundFocus ≠ roundNextDeepSlave c env then
        roundPost c₃ .deep c₃.roundFocus (env.clock ∘ .focus) else c₃ := by
  refine ⟨_, _, _, rfl, rfl, rfl, ?_, rfl⟩
  have hfast := (roundPost_keepsRound { c with
    roundActive := true, roundStartMs := env.clock .due, roundCount := c.roundCount + 1 }
    .fast (-1) (env.clock ∘ .fast)).focus
  split_ifs
  · exact (roundPost_keepsRound _ .deep (roundNextDeepSlave c env) (env.clock ∘ .deep)).focus.trans
      hfast
  · exact hfast

/-- A round posts what the plan lets through, behind what is queued. -/
theorem roundStart_walked (c : Context) (env : Env) :
    Walked c ((roundPlan c (roundNextDeepSlave c env) env).foldl (Admission.ask c.timers)
      ⟨[], fun _ => none⟩) (roundStart c env) := by
  obtain ⟨c₁, c₂, c₃, hc₁, hc₂, hc₃, hfocus, hstart⟩ := roundStart_eq c env
  have hbegin : Walked c ⟨[], fun _ => none⟩ c₁ := by
    have h := Walked.start c
    rw [hc₁]
    exact ⟨h.timers, h.transport, h.queue⟩
  have hfast := hbegin.roundPost .fast (-1) (env.clock ∘ .fast)
  rw [← hc₂] at hfast
  have hdeep : Walked c ((if 0 ≤ roundNextDeepSlave c env then
      (tierTimers c.timers .deep (roundNextDeepSlave c env)).map
        (fun i => (i, env.clock (.deep i))) else []).foldl (Admission.ask c.timers)
      (((tierTimers c.timers .fast (-1)).map fun i => (i, env.clock (.fast i))).foldl
        (Admission.ask c.timers) ⟨[], fun _ => none⟩)) c₃ := by
    rw [hc₃]
    split_ifs
    · have h := hfast.roundPost .deep (roundNextDeepSlave c env) (env.clock ∘ .deep)
      exact ⟨h.timers, h.transport, h.queue⟩
    · exact hfast
  rw [hstart, hfocus]
  unfold roundPlan
  rw [List.foldl_append, List.foldl_append]
  split_ifs at hdeep ⊢
  all_goals first | exact hdeep.roundPost _ _ _ | exact hdeep

theorem admit_sublist (timers : List Timer) (plan : List (ℕ × Millitime)) :
    (admitted timers plan).Sublist (plan.map Prod.fst) := by
  have hfold : ∀ a : Admission, ∃ more, (plan.foldl (Admission.ask timers) a).admitted =
      a.admitted ++ more ∧ more.Sublist (plan.map Prod.fst) := by
    induction plan with
    | nil => exact fun a => ⟨[], (List.append_nil _).symm, .slnil⟩
    | cons asked plan ih =>
      intro a
      obtain ⟨more, hmore, hsub⟩ := ih (a.ask timers asked)
      rw [List.foldl_cons, hmore, List.map_cons]
      unfold Admission.ask
      split
      · exact ⟨more, rfl, hsub.cons _⟩
      · split_ifs
        · exact ⟨more, rfl, hsub.cons _⟩
        · exact ⟨asked.1 :: more, by simp, hsub.cons_cons _⟩
  obtain ⟨more, hmore, hsub⟩ := hfold ⟨[], fun _ => none⟩
  unfold admitted
  rw [hmore]
  exact hsub

theorem mem_tierTimers {timers : List Timer} {tier : Tier} {slave : ℤ} {i : ℕ} :
    i ∈ tierTimers timers tier slave ↔
      ∃ t, timers[i]? = some t ∧ t.tier = tier ∧ (slave < 0 ∨ (t.slave : ℤ) = slave) := by
  unfold tierTimers
  rw [List.mem_filter, List.mem_range, Option.any_eq_true]
  constructor
  · rintro ⟨-, t, ht, hmatch⟩
    exact ⟨t, ht, of_decide_eq_true hmatch⟩
  · rintro ⟨t, ht, hmatch⟩
    exact ⟨(List.getElem?_eq_some_iff.1 ht).1, t, ht, decide_eq_true hmatch⟩

theorem tierTimers_nodup (timers : List Timer) (tier : Tier) (slave : ℤ) :
    (tierTimers timers tier slave).Nodup := List.nodup_range.filter _

theorem roundPlan_nodup (c : Context) (turn : ℤ) (env : Env) :
    ((roundPlan c turn env).map Prod.fst).Nodup := by
  have hfst : ∀ (l : List ℕ) (clock : ℕ → Millitime),
      (l.map fun i => (i, clock i)).map Prod.fst = l := by
    intro l clock
    rw [List.map_map]
    exact List.map_id' l
  have hdeep : ∀ slave, List.Disjoint (tierTimers c.timers .fast (-1))
      (tierTimers c.timers .deep slave) := by
    intro slave i hfast hdeep
    obtain ⟨t, ht, htier, -⟩ := mem_tierTimers.1 hfast
    obtain ⟨t', ht', htier', -⟩ := mem_tierTimers.1 hdeep
    obtain rfl : t = t' := Option.some.inj (ht.symm.trans ht')
    exact absurd (htier.symm.trans htier') (by decide)
  have hfocus : 0 ≤ turn → 0 ≤ c.roundFocus → c.roundFocus ≠ turn →
      List.Disjoint (tierTimers c.timers .deep turn) (tierTimers c.timers .deep c.roundFocus) := by
    intro hturn hfocus hne i hi hi'
    obtain ⟨t, ht, -, hslave⟩ := mem_tierTimers.1 hi
    obtain ⟨t', ht', -, hslave'⟩ := mem_tierTimers.1 hi'
    obtain rfl : t = t' := Option.some.inj (ht.symm.trans ht')
    omega
  have hnodup := tierTimers_nodup c.timers
  unfold roundPlan
  rw [List.map_append, List.map_append, hfst]
  split_ifs with hturn hother hother
  · rw [hfst, hfst]
    refine List.Nodup.append (List.Nodup.append (hnodup ..) (hnodup ..) (hdeep _)) (hnodup ..) ?_
    intro i hi hi'
    rcases List.mem_append.1 hi with hi | hi
    · exact hdeep _ hi hi'
    · exact hfocus hturn hother.1 hother.2 hi hi'
  · rw [hfst, List.map_nil, List.append_nil]
    exact List.Nodup.append (hnodup ..) (hnodup ..) (hdeep _)
  · rw [hfst, List.map_nil, List.append_nil]
    exact List.Nodup.append (hnodup ..) (hnodup ..) (hdeep _)
  · rw [List.map_nil, List.append_nil, List.append_nil]
    exact hnodup ..

/-- A call that leaves the configuration in rounds mode. -/
def KeepsMode : Call → Prop
  | .configure config _ _ => ∃ chosen, config = some chosen ∧ chosen.queryMode = .rounds
  | _ => True

def Call.opening (c : Context) (env : Env) : Call → Option Context
  | .prepare _ => roundOpening c env
  | _ => none

def rounds : List (Call × Env) → Context → List (Context × Env)
  | [], _ => []
  | call :: calls, c =>
    ((call.1.opening c call.2).map fun c₁ => (c₁, call.2)).toList ++
      rounds calls (call.1.perform c call.2)

def lastBegan (opened : List (Context × Env)) (before : Millitime) : Millitime :=
  opened.getLast?.elim before (·.2.clock .due)

/-- The state of the rounds between two calls. -/
structure RoundState (began : Millitime) (c : Context) : Prop where
  mode : InRounds c
  busy : roundBusy c = true → c.roundActive = true
  ordered : (c.identities.map Prod.fst).Pairwise (· < ·)
  bounded : ∀ id ∈ c.identities.map Prod.fst, id ≤ c.timerIdNext
  startMs : c.roundStartMs = began

theorem RoundState.same {began : Millitime} {c c' : Context} (h : RoundState began c)
    (hs : SameRounds c c') : RoundState began c' where
  mode := by
    obtain ⟨config, hconfig, hmode⟩ := h.mode
    exact ⟨config, hs.config.trans hconfig, hmode⟩
  busy := fun hb => hs.active.trans (h.busy (hs.busy hb))
  ordered := by
    rw [hs.identities]
    exact h.ordered
  bounded := by
    rw [hs.identities, hs.timerIdNext]
    exact h.bounded
  startMs := hs.startMs.trans h.startMs

theorem RoundState.over {began : Millitime} {c : Context} (h : RoundState began c) (env : Env) :
    RoundState began (roundOver c env) := by
  unfold roundOver
  split_ifs with hover
  · exact ⟨h.mode, fun hb => absurd hb hover.2, h.ordered, h.bounded, h.startMs⟩
  · exact h

theorem roundBusy_eq_false (c : Context) : roundBusy c = false ↔ ∀ w ∈ c.queue, w.flags = .post := by
  unfold roundBusy
  rw [List.any_eq_false]
  refine forall₂_congr fun w _ => ?_
  cases w.flags <;> simp

/-- An open round is busy, so a round opens only when no poll is in the queue. -/
theorem RoundState.idle {began : Millitime} {c : Context} (h : RoundState began c) (env : Env) :
    ¬ (roundOver c env).roundActive = true ↔ ∀ w ∈ c.queue, w.flags = .post := by
  rw [← roundBusy_eq_false]
  unfold roundOver
  by_cases hbusy : roundBusy c = true
  · rw [if_neg fun hover => hover.2 hbusy, h.busy hbusy, hbusy]
    simp
  · split_ifs with hover
    · simpa using hover.2
    · have hidle : ¬ c.roundActive = true := fun hactive => hover ⟨hactive, hbusy⟩
      exact iff_of_true hidle (Bool.not_eq_true _ ▸ hbusy)

theorem roundStart_kept (c : Context) (env : Env) :
    (roundStart c env).roundActive = true ∧ (roundStart c env).roundStartMs = env.clock .due ∧
      (roundStart c env).config = c.config ∧ (roundStart c env).identities = c.identities ∧
      (roundStart c env).timerIdNext = c.timerIdNext := by
  obtain ⟨c₁, c₂, c₃, hc₁, hc₂, hc₃, -, hstart⟩ := roundStart_eq c env
  have hbegin : c₁.roundActive = true ∧ c₁.roundStartMs = env.clock .due ∧ c₁.config = c.config ∧
      c₁.identities = c.identities ∧ c₁.timerIdNext = c.timerIdNext := by
    rw [hc₁]
    exact ⟨rfl, rfl, rfl, rfl, rfl⟩
  have hkeep : ∀ {a b : Context}, KeepsRound a b →
      (a.roundActive = true ∧ a.roundStartMs = env.clock .due ∧ a.config = c.config ∧
        a.identities = c.identities ∧ a.timerIdNext = c.timerIdNext) →
      b.roundActive = true ∧ b.roundStartMs = env.clock .due ∧ b.config = c.config ∧
        b.identities = c.identities ∧ b.timerIdNext = c.timerIdNext := fun h hi =>
    ⟨h.active.trans hi.1, h.startMs.trans hi.2.1, h.config.trans hi.2.2.1,
      h.identities.trans hi.2.2.2.1, h.timerIdNext.trans hi.2.2.2.2⟩
  have hfast := hkeep (roundPost_keepsRound c₁ .fast (-1) (env.clock ∘ .fast)) hbegin
  rw [← hc₂] at hfast
  have hdeep : c₃.roundActive = true ∧ c₃.roundStartMs = env.clock .due ∧ c₃.config = c.config ∧
      c₃.identities = c.identities ∧ c₃.timerIdNext = c.timerIdNext := by
    rw [hc₃]
    split_ifs
    · have hposted := hkeep
        (roundPost_keepsRound c₂ .deep (roundNextDeepSlave c env) (env.clock ∘ .deep)) hfast
      exact hposted
    · exact hfast
  rw [hstart]
  split_ifs
  · exact hkeep (roundPost_keepsRound ..) hdeep
  · exact hdeep

theorem RoundState.start {began : Millitime} {c : Context} (h : RoundState began c) (env : Env) :
    RoundState (env.clock .due) (roundStart c env) := by
  obtain ⟨hactive, hstart, hconfig, hidentities, hnext⟩ := roundStart_kept c env
  refine ⟨?_, fun _ => hactive, ?_, ?_, hstart⟩
  · obtain ⟨config, hset, hmode⟩ := h.mode
    exact ⟨config, hconfig.trans hset, hmode⟩
  · rw [hidentities]
    exact h.ordered
  · rw [hidentities, hnext]
    exact h.bounded

theorem setSlave_sameRounds (c : Context) (slaveId : ℤ) : SameRounds c (setSlave c slaveId) :=
  ⟨⟨rfl, rfl, rfl, rfl, rfl, rfl, rfl⟩, id⟩

theorem subscribe_rounds {c : Context} {config : Config} (hconfig : c.config = some config)
    (hmode : config.queryMode = .rounds) (msg : Msg) (interval : ℤ) (env : Env) :
    (subscribe c msg interval env).2 = { c with
      timerIdNext := c.timerIdNext + 1
      timers := c.timers ++ [newTimer c config msg interval env] } := by
  have hpasses : ¬ (config.queryMode ≠ .rounds ∧ interval ≤ 0 ∧ interval ≠ intervalOnce) :=
    fun h => h.1 hmode
  unfold subscribe
  rw [hconfig]
  dsimp only
  rw [if_neg hpasses, hmode, insertTimer_rounds]

theorem RoundState.subscribe {began : Millitime} {c : Context} (h : RoundState began c) (msg : Msg)
    (interval : ℤ) (env : Env) :
    RoundState began (Modbusmq.subscribe c msg interval env).2 := by
  obtain ⟨config, hconfig, hmode⟩ := h.mode
  rw [subscribe_rounds hconfig hmode]
  have hids : ∀ timer : Timer, timer.timerId = c.timerIdNext + 1 →
      ((c.timers ++ [timer]).map Timer.identity).map Prod.fst =
        c.identities.map Prod.fst ++ [c.timerIdNext + 1] := by
    intro timer hid
    rw [← hid, List.map_append, List.map_append]
    rfl
  refine ⟨⟨config, hconfig, hmode⟩, h.busy, ?_, ?_, h.startMs⟩
  · unfold Context.identities
    rw [hids _ rfl, List.pairwise_append]
    refine ⟨h.ordered, List.pairwise_singleton .., fun id hid id' hid' => ?_⟩
    rw [List.mem_singleton.1 hid']
    exact Nat.lt_succ_of_le (h.bounded id hid)
  · unfold Context.identities
    rw [hids _ rfl]
    intro id hid
    rcases List.mem_append.1 hid with hid | hid
    · exact (h.bounded id hid).trans (Nat.le_succ _)
    · exact (List.mem_singleton.1 hid).le

theorem RoundState.prepare {began : Millitime} {c : Context} (h : RoundState began c)
    (sleepTime : Millitime) (env : Env) :
    RoundState ((roundOpening c env).elim began fun _ => env.clock .due)
      (loopPrepare c sleepTime env).ctx := by
  by_cases hopen : c.connected = true
  · rw [loopPrepare_rounds h.mode hopen]
    have hover := (h.same (timeOutHead_sameRounds c env)).over env
    cases hdue : roundOpening c env with
    | none => exact hover
    | some c₁ =>
      have hc₁ : c₁ = roundOver (timeOutHead c env) env := by
        unfold roundOpening at hdue
        rw [if_pos hopen, Option.bind_eq_some_iff] at hdue
        obtain ⟨config, -, hif⟩ := hdue
        split_ifs at hif
        exact (Option.some.inj hif).symm
      rw [hc₁]
      exact hover.start env
  · unfold roundOpening loopPrepare
    rw [if_neg hopen, if_neg hopen]
    exact h

theorem RoundState.perform {began : Millitime} {c : Context} (h : RoundState began c)
    (hc : WellFormed c) (call : Call) (env : Env) (hkeep : KeepsMode call) :
    RoundState ((call.opening c env).elim began fun _ => env.clock .due) (call.perform c env) := by
  cases call with
  | post slaveId request =>
    refine h.same ?_
    unfold Call.perform postRequest
    dsimp only
    split
    · exact (setSlave_sameRounds c slaveId).trans (post_sameRounds _ _)
    · exact setSlave_sameRounds c slaveId
  | raw text stray => exact h.same (rawRequest_sameRounds c text stray)
  | subscribe slaveId request interval =>
    have hset := h.same (setSlave_sameRounds c slaveId)
    unfold Call.perform subscribeRequest
    dsimp only
    split
    · exact hset.subscribe _ interval env
    · exact hset
  | prepare sleepTime => exact h.prepare sleepTime env
  | writeRead revents => exact h.same (loopWriteRead_sameRounds hc revents env)
  | reset => exact h.same ((dropAll_sameRounds env _ c rfl).trans (onceRearm_sameRounds _ env))
  | rearm => exact h.same (onceRearm_sameRounds c env)
  | focus slave =>
    unfold Call.perform setFocus
    dsimp only
    split
    · exact h
    · split_ifs
      all_goals exact ⟨h.mode, h.busy, h.ordered, h.bounded, h.startMs⟩
  | connect opened =>
    refine h.same ?_
    unfold Call.perform Modbusmq.connect
    dsimp only
    split_ifs <;> exact ⟨⟨rfl, rfl, rfl, rfl, rfl, rfl, rfl⟩, id⟩
  | close => exact h.same ⟨⟨rfl, rfl, rfl, rfl, rfl, rfl, rfl⟩, id⟩
  | configure config processConfig frameTimeoutMs =>
    obtain ⟨chosen, hchosen, hmode⟩ := hkeep
    exact ⟨⟨chosen, hchosen, hmode⟩, h.busy, h.ordered, h.bounded, h.startMs⟩
  | arrive bytes => exact h.same ⟨⟨rfl, rfl, rfl, rfl, rfl, rfl, rfl⟩, id⟩

theorem RoundState.run {began : Millitime} {c : Context} (h : RoundState began c)
    (hc : WellFormed c) {calls : List (Call × Env)} (hkeep : ∀ call ∈ calls, KeepsMode call.1) :
    RoundState (lastBegan (rounds calls c) began) (run calls c) := by
  induction calls generalizing c began with
  | nil => exact h
  | cons call calls ih =>
    have hstep := h.perform hc call.1 call.2 (hkeep call (List.mem_cons_self ..))
    have hrun := ih hstep (run_wellFormed hc [call])
      fun more hmore => hkeep more (List.mem_cons_of_mem _ hmore)
    have hlast : lastBegan (rounds (call :: calls) c) began =
        lastBegan (rounds calls (call.1.perform c call.2))
          ((call.1.opening c call.2).elim began fun _ => call.2.clock .due) := by
      unfold lastBegan
      rw [rounds, List.getLast?_append]
      cases (rounds calls (call.1.perform c call.2)).getLast? with
      | some opened => rfl
      | none => cases call.1.opening c call.2 <;> rfl
    rw [hlast]
    exact hrun

theorem Fresh.roundState {c : Context} (h : Fresh c) (hmode : InRounds c) :
    RoundState c.roundStartMs c where
  mode := hmode
  busy := by
    unfold roundBusy
    rw [h.queue]
    exact fun hb => absurd hb (by simp)
  ordered := by
    unfold Context.identities
    rw [h.timers]
    exact .nil
  bounded := by
    unfold Context.identities
    rw [h.timers]
    exact fun _ hid => absurd hid List.not_mem_nil
  startMs := rfl

/-- At `now` the interval since `start` is over, unless the clock runs over within it. -/
def Elapsed (start : Millitime) (interval : ℤ) (now : Millitime) : Prop :=
  start.toNat + interval < 2 ^ 64 → start.toNat + interval ≤ now.toNat

theorem elapsed_of_le {start now : Millitime} {interval : ℤ}
    (h : start + UInt64.ofInt interval ≤ now) : Elapsed start interval now := by
  intro hfits
  by_cases hneg : start.toNat + interval < 0
  · omega
  · have hsum : ((start + UInt64.ofInt interval).toNat : ℤ) = start.toNat + interval := by
      have hmod : ((UInt64.ofInt interval).toNat : ℤ) = interval % 2 ^ 64 := by
        rw [UInt64.ofInt, UInt64.toNat_ofNat']
        omega
      rw [UInt64.toNat_add]
      push_cast
      rw [hmod]
      omega
    have hle := UInt64.le_iff_toNat_le.1 h
    omega

/-- A call of the loop in `c` opens a round in `c₁`, the last one having begun at `began`. It
posts one poll for every timer of the plan that is let through, behind what is queued. -/
structure RoundOpens (began : Millitime) (config : Config) (c c₁ : Context) (env : Env)
    (c' : Context) : Prop where
  identities : c₁.identities = c.identities
  focus : c₁.roundFocus = c.roundFocus
  queue : c₁.queue = (timeOutHead c env).queue
  left : ∀ wrapper ∈ c₁.queue, wrapper.flags = .post
  elapsed : Elapsed began config.roundIntervalMs (env.clock .due)
  polls : ∃ polls, c'.queue = c₁.queue ++ polls ∧ List.Forall₂ (PollOf c₁)
    (admitted c₁.timers (roundPlan c₁ (roundNextDeepSlave c₁ env) env)) polls
  nodup : (admitted c₁.timers (roundPlan c₁ (roundNextDeepSlave c₁ env) env)).Nodup

/-- A call of the loop opens no round: nothing enters the queue, and if no poll is left in
it the interval since the last round began is not over. -/
structure RoundWaits (began : Millitime) (config : Config) (c : Context) (env : Env)
    (c' : Context) : Prop where
  queue : c'.queue = if c.connected then (timeOutHead c env).queue else c.queue
  waits : c.connected → c.timers ≠ [] →
    (∀ wrapper ∈ (timeOutHead c env).queue, wrapper.flags = .post) →
      env.clock .due < began + UInt64.ofInt config.roundIntervalMs

theorem roundOver_queue (c : Context) (env : Env) : (roundOver c env).queue = c.queue := by
  unfold roundOver
  split_ifs <;> rfl

theorem timers_eq_nil_iff {c c' : Context} (h : SameRounds c c') :
    c'.timers = [] ↔ c.timers = [] := by
  have hids := congrArg List.length h.identities
  unfold Context.identities at hids
  rw [List.length_map, List.length_map] at hids
  rw [← List.length_eq_zero_iff, ← List.length_eq_zero_iff, hids]

theorem RoundState.opens {began : Millitime} {c c₁ : Context} (h : RoundState began c)
    {config : Config} (hconfig : c.config = some config) {env : Env}
    (hdue : roundOpening c env = some c₁) (sleepTime : Millitime) :
    RoundOpens began config c c₁ env (loopPrepare c sleepTime env).ctx := by
  have hsame := timeOutHead_sameRounds c env
  have hopen : c.connected = true := by
    by_contra hclosed
    unfold roundOpening at hdue
    rw [if_neg hclosed] at hdue
    exact absurd hdue (by simp)
  have hprepared := loopPrepare_rounds h.mode hopen sleepTime env
  rw [hdue] at hprepared
  unfold roundOpening at hdue
  rw [if_pos hopen, hsame.config.trans hconfig] at hdue
  dsimp only [Option.bind_some] at hdue
  split_ifs at hdue with hround
  obtain rfl := Option.some.inj hdue
  have hover : KeepsRound (timeOutHead c env)
      { roundOver (timeOutHead c env) env with roundActive := (timeOutHead c env).roundActive } := by
    unfold roundOver
    split_ifs <;> exact ⟨rfl, rfl, rfl, rfl, rfl, rfl, rfl⟩
  have hqueue := roundOver_queue (timeOutHead c env) env
  have hposted := roundStart_walked (roundOver (timeOutHead c env) env) env
  refine ⟨?_, ?_, hqueue, ?_, ?_, ?_, (roundPlan_nodup ..).sublist (admit_sublist ..)⟩
  · exact hover.identities.trans hsame.identities
  · exact hover.focus.trans hsame.focus
  · rw [hqueue]
    exact ((h.same hsame).idle env).1 hround.2.1
  · have hstart := hround.2.2.2
    rw [(h.same hsame).startMs] at hstart
    exact elapsed_of_le hstart
  · rw [hprepared]
    exact hposted.queue

theorem RoundState.waits {began : Millitime} {c : Context} (h : RoundState began c)
    {config : Config} (hconfig : c.config = some config) (hmode : config.queryMode = .rounds)
    {env : Env} (hwait : roundOpening c env = none) (sleepTime : Millitime) :
    RoundWaits began config c env (loopPrepare c sleepTime env).ctx := by
  have hsame := timeOutHead_sameRounds c env
  by_cases hopen : c.connected = true
  · have hprepared := loopPrepare_rounds h.mode hopen sleepTime env
    rw [hwait] at hprepared
    unfold roundOpening at hwait
    rw [if_pos hopen, hsame.config.trans hconfig] at hwait
    dsimp only [Option.bind_some] at hwait
    split_ifs at hwait with hround
    refine ⟨?_, fun _ htimers hleft => ?_⟩
    · rw [hprepared, if_pos hopen]
      exact roundOver_queue ..
    · by_contra hdue
      refine hround ⟨hmode, ((h.same hsame).idle env).2 hleft, ?_, ?_⟩
      · exact fun hnil => htimers ((timers_eq_nil_iff hsame).1 hnil)
      · rw [(h.same hsame).startMs]
        exact UInt64.not_lt.1 hdue
  · refine ⟨?_, fun hconnected => absurd hconnected hopen⟩
    unfold loopPrepare
    rw [if_neg hopen, if_neg hopen]

/-- In rounds mode a call of the loop opens a round exactly when there are subscriptions, no
poll is left in the queue and the interval since the last round began is over, whatever
posts are queued. Subscriptions are in the order they were made. -/
theorem round_composition {c₀ : Context} (h₀ : Fresh c₀) (hmode : InRounds c₀)
    (calls : List (Call × Env)) (hkeep : ∀ call ∈ calls, KeepsMode call.1)
    (sleepTime : Millitime) (revents : Revents) (env : Env) :
    ∃ config, (run calls c₀).config = some config ∧ config.queryMode = .rounds ∧
      ((run calls c₀).identities.map Prod.fst).Pairwise (· < ·) ∧
      SameRounds (run calls c₀) (loopWriteRead (run calls c₀) revents env).2 ∧
      match roundOpening (run calls c₀) env with
      | some c₁ => RoundOpens (lastBegan (rounds calls c₀) c₀.roundStartMs) config (run calls c₀)
          c₁ env (loopPrepare (run calls c₀) sleepTime env).ctx
      | none => RoundWaits (lastBegan (rounds calls c₀) c₀.roundStartMs) config (run calls c₀)
          env (loopPrepare (run calls c₀) sleepTime env).ctx := by
  have hstate := (h₀.roundState hmode).run h₀.wellFormed hkeep
  obtain ⟨config, hconfig, hrounds⟩ := hstate.mode
  refine ⟨config, hconfig, hrounds, hstate.ordered, ?_, ?_⟩
  · exact loopWriteRead_sameRounds (run_wellFormed h₀.wellFormed calls) revents env
  · cases hopening : roundOpening (run calls c₀) env with
    | some c₁ => exact hstate.opens hconfig hopening sleepTime
    | none => exact hstate.waits hconfig hrounds hopening sleepTime

/-- One fast and one deep input, asked in rounds of a second. -/
def roundsConfig : Config where
  inputs := [⟨1, .holdingRegister, 0, 0, 1, .fast, []⟩, ⟨2, .holdingRegister, 10, 0, 1, .deep, []⟩]
  offsetSize := 1
  queryMode := .rounds
  roundIntervalMs := 1000
  frameDelayMs := 0
  slaveRetryMaxMs := 0
  rawWrite := false

def roundsContext : Context :=
  { sampleContext .tcp [] with config := some roundsConfig, frameTimeoutMs := 500 }

/-- Both inputs are subscribed, and a write waits in the queue. -/
def roundsCalls : List (Call × Env) :=
  [(.subscribe 1 (.readHoldingRegisters 0 1) 1, atTime 0),
    (.subscribe 2 (.readHoldingRegisters 10 1) 1, atTime 0),
    (.post 1 (.writeRegister 7 42), atTime 900)]

theorem round_composition_example :
    (∃ config, (run roundsCalls roundsContext).config = some config ∧
      config.queryMode = .rounds ∧
      ((run roundsCalls roundsContext).identities.map Prod.fst).Pairwise (· < ·) ∧
      SameRounds (run roundsCalls roundsContext) (loopWriteRead (run roundsCalls roundsContext)
        ⟨false, true, false, false⟩ (atTime 1000)).2 ∧
      match roundOpening (run roundsCalls roundsContext) (atTime 1000) with
      | some c₁ => RoundOpens (lastBegan (rounds roundsCalls roundsContext) 0) config
          (run roundsCalls roundsContext) c₁ (atTime 1000)
          (loopPrepare (run roundsCalls roundsContext) 100 (atTime 1000)).ctx
      | none => RoundWaits (lastBegan (rounds roundsCalls roundsContext) 0) config
          (run roundsCalls roundsContext) (atTime 1000)
          (loopPrepare (run roundsCalls roundsContext) 100 (atTime 1000)).ctx) ∧
      (loopPrepare (run roundsCalls roundsContext) 100 (atTime 1000)).ctx.queue.length = 3 := by
  refine ⟨round_composition ⟨rfl, rfl, rfl, rfl⟩ ⟨roundsConfig, rfl, rfl⟩ roundsCalls ?_ 100
    ⟨false, true, false, false⟩ (atTime 1000), by decide +kernel⟩
  intro call hcall
  fin_cases hcall <;> trivial

end Modbusmq
