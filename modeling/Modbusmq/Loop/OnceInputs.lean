import Modbusmq.Loop.Rounds

/-!
# Inputs that are read once

What a call of the library does to the timers of once inputs: one is only ever
spent by an answer to its own poll, and that answer is handed to every input it
matches. All else can only bring a timer back.
-/

namespace Modbusmq

/-- A once input that has been read: no poll is due any more. -/
def Timer.Spent (t : Timer) : Prop := t.isOnce ∧ t.timerNextTime = neverAgain

instance (t : Timer) : Decidable t.Spent := inferInstanceAs (Decidable (_ ∧ _))

def Timer.plan (t : Timer) : ℕ × Bool × Millitime × Frame .writer × Frame .reader :=
  (t.timerId, t.isOnce, t.timerInterval, t.msg.writer, t.msg.reader)

/-- Two requests read the same place. -/
structure SameTarget (t : Transport) (w w' : Frame .writer) : Prop where
  slave : frameSlave t w = frameSlave t w'
  function : frameFunction t w = frameFunction t w'
  addr : frameAddr t w = frameAddr t w'

/-- A message is the poll of one of the subscriptions. -/
def IsPoll (c : Context) (m : Msg) : Prop :=
  ∃ timer ∈ c.timers, m.msgId = timer.timerId ∧
    SameTarget c.transport m.writer timer.msg.writer

/-- What the polls in the queue and the once timers rest on. -/
structure Tracked (c : Context) : Prop where
  templates : Templates c
  retries : ∀ timer ∈ c.timers, timer.isOnce → timer.timerInterval = onceRetryMs
  polls : ∀ wrapper ∈ c.queue, wrapper.flags = .subscribe → IsPoll c wrapper.msg

def Event.delivery : Event → Option (Msg × Input)
  | delivered msg input => some (msg, input)
  | _ => none

def matchedInputs (c : Context) (m : Msg) : List Input :=
  c.processConfig.inputs.filter (inputMatches c.transport m.writer)

/-- The clock is not about to wrap around. -/
def BeforeEnd (env : Env) : Prop :=
  ∀ site, (env.clock site).toNat + onceRetryMs.toNat < neverAgain.toNat

/-- A timer after a step in which the polls `answers` were answered. -/
structure TimerStep (answers : List Msg) (t t' : Timer) : Prop where
  plan : t'.plan = t.plan
  spent : t'.Spent → t.Spent ∨ ∃ m ∈ answers, m.msgId = t.timerId

/-- Subscriptions only change in place. -/
structure TimersStep (answers : List Msg) (timers timers' : List Timer) : Prop where
  length : timers'.length = timers.length
  step : ∀ (i : ℕ) (t t' : Timer), timers[i]? = some t → timers'[i]? = some t' →
    TimerStep answers t t'

/-- A step in which the polls `answers` were answered. -/
structure OnceStep (answers : List Msg) (c c' : Context) : Prop where
  transport : c'.transport = c.transport
  subscribeCb : c'.subscribeCb = c.subscribeCb
  processConfig : c'.processConfig = c.processConfig
  tracked : Tracked c'
  timers : TimersStep answers c.timers c'.timers
  polled : ∀ m ∈ answers, IsPoll c m
  log : ∃ δ, c'.log = c.log ++ δ ∧ δ.filterMap Event.delivery =
    answers.flatMap fun m => (matchedInputs c m).map fun input => (m, input)

theorem SameTarget.refl (t : Transport) (w : Frame .writer) : SameTarget t w w := ⟨rfl, rfl, rfl⟩

theorem SameTarget.trans {t : Transport} {w₁ w₂ w₃ : Frame .writer} (h : SameTarget t w₁ w₂)
    (h' : SameTarget t w₂ w₃) : SameTarget t w₁ w₃ :=
  ⟨h.slave.trans h'.slave, h.function.trans h'.function, h.addr.trans h'.addr⟩

theorem SameTarget.of_buf {t : Transport} {w w' : Frame .writer}
    (h : ∀ i, i < initLength t → (t = .tcp → 6 ≤ i) → w.buf i = w'.buf i) : SameTarget t w w' := by
  cases t with
  | tcp =>
    have hbuf : ∀ i, 6 ≤ i → i < 12 → w.buf i = w'.buf i := fun i hlo hhi => h i hhi fun _ => hlo
    refine ⟨hbuf 6 (by decide) (by decide), hbuf 7 (by decide) (by decide), ?_⟩
    change be16 (w.buf 8) (w.buf 9) = be16 (w'.buf 8) (w'.buf 9)
    rw [hbuf 8 (by decide) (by decide), hbuf 9 (by decide) (by decide)]
  | rtu =>
    have hbuf : ∀ i, i < 6 → w.buf i = w'.buf i := fun i hhi => h i hhi fun ht => nomatch ht
    refine ⟨hbuf 0 (by decide), hbuf 1 (by decide), ?_⟩
    change be16 (w.buf 2) (w.buf 3) = be16 (w'.buf 2) (w'.buf 3)
    rw [hbuf 2 (by decide), hbuf 3 (by decide)]

theorem preparedMsg_target {t : Transport} {m : Msg} (transactionId : ℕ)
    (h : initLength t ≤ m.writer.length) :
    SameTarget t (preparedMsg t transactionId m).writer m.writer := by
  refine SameTarget.of_buf fun i hi htcp => ?_
  cases t with
  | tcp =>
    have hlo := htcp rfl
    change (tcpMsgPrepare transactionId m).writer.buf i = _
    simp only [tcpMsgPrepare, Frame.poke]
    rw [Function.update_of_ne (by omega), Function.update_of_ne (by omega),
      Function.update_of_ne (by omega), Function.update_of_ne (by omega)]
  | rtu =>
    obtain ⟨lo, hi', hwriter⟩ := rtuMsgPrepare_writer m
    change (rtuMsgPrepare m).writer.buf i = _
    rw [hwriter, (m.writer.pushAll_spec [lo, hi']).2.2 i (by omega)]

theorem inputMatches_congr {t : Transport} {w w' : Frame .writer} (h : SameTarget t w w')
    (input : Input) : inputMatches t w input = inputMatches t w' input := by
  unfold inputMatches
  rw [h.slave, h.function, h.addr]

theorem Timer.Spent.of_plan {t t' : Timer} (h : t'.plan = t.plan)
    (hnext : t'.timerNextTime = neverAgain → t.timerNextTime = neverAgain) (hspent : t'.Spent) :
    t.Spent := by
  have honce : t'.isOnce = t.isOnce := congrArg (·.2.1) h
  exact ⟨honce ▸ hspent.1, hnext hspent.2⟩

theorem TimerStep.refl (answers : List Msg) (t : Timer) : TimerStep answers t t := ⟨rfl, .inl⟩

theorem TimerStep.trans {answers more : List Msg} {t₁ t₂ t₃ : Timer} (h : TimerStep answers t₁ t₂)
    (h' : TimerStep more t₂ t₃) : TimerStep (answers ++ more) t₁ t₃ := by
  refine ⟨h'.plan.trans h.plan, fun hspent => ?_⟩
  have hid : t₂.timerId = t₁.timerId := congrArg (·.1) h.plan
  rcases h'.spent hspent with hspent | ⟨m, hm, hmsg⟩
  · rcases h.spent hspent with hspent | ⟨m, hm, hmsg⟩
    · exact .inl hspent
    · exact .inr ⟨m, List.mem_append_left _ hm, hmsg⟩
  · exact .inr ⟨m, List.mem_append_right _ hm, hmsg.trans hid⟩

theorem TimersStep.refl (timers : List Timer) : TimersStep [] timers timers :=
  ⟨rfl, fun _ t _ ht ht' => Option.some.inj (ht.symm.trans ht') ▸ .refl [] t⟩

theorem TimersStep.trans {answers more : List Msg} {timers₁ timers₂ timers₃ : List Timer}
    (h : TimersStep answers timers₁ timers₂) (h' : TimersStep more timers₂ timers₃) :
    TimersStep (answers ++ more) timers₁ timers₃ := by
  refine ⟨h'.length.trans h.length, fun i t₁ t₃ h₁ h₃ => ?_⟩
  have hi : i < timers₂.length := by
    rw [h.length]
    exact (List.getElem?_eq_some_iff.1 h₁).1
  have h₂ := List.getElem?_eq_getElem hi
  exact (h.step i _ _ h₁ h₂).trans (h'.step i _ _ h₂ h₃)

theorem TimersStep.mem {answers : List Msg} {timers timers' : List Timer}
    (h : TimersStep answers timers timers') {t' : Timer} (ht' : t' ∈ timers') :
    ∃ t ∈ timers, t'.plan = t.plan := by
  obtain ⟨i, hi⟩ := List.mem_iff_getElem?.1 ht'
  have hlt : i < timers.length := by
    rw [← h.length]
    exact (List.getElem?_eq_some_iff.1 hi).1
  have ht := List.getElem?_eq_getElem hlt
  exact ⟨_, List.getElem_mem hlt, (h.step i _ _ ht hi).plan⟩

theorem TimersStep.mem_of {answers : List Msg} {timers timers' : List Timer}
    (h : TimersStep answers timers timers') {t : Timer} (ht : t ∈ timers) :
    ∃ t' ∈ timers', t'.plan = t.plan := by
  obtain ⟨i, hi⟩ := List.mem_iff_getElem?.1 ht
  have hlt : i < timers'.length := by
    rw [h.length]
    exact (List.getElem?_eq_some_iff.1 hi).1
  have ht' := List.getElem?_eq_getElem hlt
  exact ⟨_, List.getElem_mem hlt, (h.step i _ _ hi ht').plan⟩

theorem timersStep_map {answers : List Msg} {timers : List Timer} {f : Timer → Timer}
    (h : ∀ t ∈ timers, TimerStep answers t (f t)) : TimersStep answers timers (timers.map f) := by
  refine ⟨List.length_map f, fun i t t' ht ht' => ?_⟩
  rw [List.getElem?_map, ht, Option.map_some, Option.some_inj] at ht'
  rw [← ht']
  exact h t (List.mem_of_getElem? ht)

theorem timersStep_modify {answers : List Msg} {timers : List Timer} {i : ℕ} {f : Timer → Timer}
    (h : ∀ t, timers[i]? = some t → TimerStep answers t (f t)) :
    TimersStep answers timers (timers.modify i f) := by
  refine ⟨List.length_modify .., fun j t t' ht ht' => ?_⟩
  rw [List.getElem?_modify, ht, Option.map_eq_map, Option.map_some, Option.some_inj] at ht'
  rw [← ht']
  split_ifs with hij
  · subst hij
    exact h t ht
  · exact .refl answers t

theorem OnceStep.refl {c : Context} (h : Tracked c) : OnceStep [] c c where
  transport := rfl
  subscribeCb := rfl
  processConfig := rfl
  tracked := h
  timers := .refl c.timers
  polled := by simp
  log := ⟨[], (List.append_nil _).symm, rfl⟩

theorem OnceStep.trans {answers more : List Msg} {c₁ c₂ c₃ : Context}
    (h : OnceStep answers c₁ c₂) (h' : OnceStep more c₂ c₃) : OnceStep (answers ++ more) c₁ c₃ := by
  obtain ⟨δ, hlog, hδ⟩ := h.log
  obtain ⟨δ', hlog', hδ'⟩ := h'.log
  refine ⟨h'.transport.trans h.transport, h'.subscribeCb.trans h.subscribeCb,
    h'.processConfig.trans h.processConfig, h'.tracked, h.timers.trans h'.timers, fun m hm => ?_,
    δ ++ δ', ?_, ?_⟩
  · rcases List.mem_append.1 hm with hm | hm
    · exact h.polled m hm
    · obtain ⟨timer', htimer', hid, htarget⟩ := h'.polled m hm
      obtain ⟨timer, htimer, hplan⟩ := h.timers.mem htimer'
      have hwriter : timer'.msg.writer = timer.msg.writer := congrArg (·.2.2.2.1) hplan
      rw [h.transport, hwriter] at htarget
      exact ⟨timer, htimer, hid.trans (congrArg (·.1) hplan), htarget⟩
  · rw [hlog', hlog, List.append_assoc]
  · have hmatched : ∀ m, matchedInputs c₂ m = matchedInputs c₁ m := by
      intro m
      unfold matchedInputs
      rw [h.processConfig, h.transport]
    rw [List.filterMap_append, hδ, hδ', List.flatMap_append]
    simp only [hmatched]

/-- The polls among these requests are polls of subscriptions. -/
def QueuesPolls (c : Context) (queue : List Wrapper) : Prop :=
  ∀ wrapper ∈ queue, wrapper.flags = .subscribe → IsPoll c wrapper.msg

theorem Tracked.of_subset {c : Context} (h : Tracked c) {queue : List Wrapper}
    (hqueue : queue ⊆ c.queue) : QueuesPolls c queue :=
  fun wrapper hw => h.polls wrapper (hqueue hw)

theorem IsPoll.step {answers : List Msg} {c c' : Context} {m : Msg} (h : IsPoll c m)
    (ht : c'.transport = c.transport) (htimers : TimersStep answers c.timers c'.timers) :
    IsPoll c' m := by
  obtain ⟨timer, htimer, hid, htarget⟩ := h
  obtain ⟨timer', htimer', hplan⟩ := htimers.mem_of htimer
  have hwriter : timer'.msg.writer = timer.msg.writer := congrArg (·.2.2.2.1) hplan
  refine ⟨timer', htimer', hid.trans (congrArg (·.1) hplan).symm, ?_⟩
  rw [ht, hwriter]
  exact htarget

theorem Tracked.step {answers : List Msg} {c c' : Context} (h : Tracked c)
    (ht : c'.transport = c.transport) (hqueue : QueuesPolls c c'.queue)
    (htimers : TimersStep answers c.timers c'.timers) : Tracked c' where
  templates := by
    refine Templates.of_timers ht (fun t' ht' => ?_) h.templates
    obtain ⟨t, hmem, hplan⟩ := htimers.mem ht'
    exact ⟨t, hmem, congrArg (·.2.2.2.1) hplan, congrArg (·.2.2.2.2) hplan⟩
  retries := by
    intro t' ht' honce
    obtain ⟨t, hmem, hplan⟩ := htimers.mem ht'
    have hinterval : t'.timerInterval = t.timerInterval := congrArg (·.2.2.1) hplan
    have hsame : t'.isOnce = t.isOnce := congrArg (·.2.1) hplan
    rw [hinterval]
    exact h.retries t hmem (hsame ▸ honce)
  polls := fun wrapper hw hflags => (hqueue wrapper hw hflags).step ht htimers

theorem OnceStep.quiet {c c' : Context} (h : Tracked c) (ht : c'.transport = c.transport)
    (hcb : c'.subscribeCb = c.subscribeCb) (hconfig : c'.processConfig = c.processConfig)
    (hqueue : QueuesPolls c c'.queue) (htimers : TimersStep [] c.timers c'.timers)
    (hlog : ∃ δ, c'.log = c.log ++ δ ∧ δ.filterMap Event.delivery = []) : OnceStep [] c c' :=
  ⟨ht, hcb, hconfig, h.step ht hqueue htimers, htimers, by simp, hlog⟩

theorem OnceStep.same {c c' : Context} (h : Tracked c) (ht : c'.transport = c.transport)
    (hcb : c'.subscribeCb = c.subscribeCb) (hconfig : c'.processConfig = c.processConfig)
    (hqueue : c'.queue ⊆ c.queue) (htimers : c'.timers = c.timers)
    (hlog : ∃ δ, c'.log = c.log ++ δ ∧ δ.filterMap Event.delivery = []) : OnceStep [] c c' :=
  .quiet h ht hcb hconfig (h.of_subset hqueue) (htimers ▸ .refl c.timers) hlog

theorem no_events (log : List Event) : ∃ δ, log = log ++ δ ∧ δ.filterMap Event.delivery = [] :=
  ⟨[], (List.append_nil log).symm, rfl⟩

/-- Timers that are rewritten one by one, none of which is spent by it. -/
theorem once_map_timers {c : Context} (h : Tracked c) {f : Timer → Timer}
    (hf : ∀ t, TimerStep [] t (f t)) : OnceStep [] c { c with timers := c.timers.map f } :=
  .quiet h rfl rfl rfl (h.of_subset (List.Subset.refl _)) (timersStep_map fun t _ => hf t)
    (no_events _)

theorem BeforeEnd.ne_neverAgain {env : Env} (h : BeforeEnd env) (site : Site) :
    env.clock site ≠ neverAgain := by
  intro hend
  have hsite := h site
  rw [hend] at hsite
  omega

theorem atTime_beforeEnd {now : Millitime}
    (h : now.toNat + onceRetryMs.toNat < neverAgain.toNat) : BeforeEnd (atTime now) := fun _ => h

theorem slaveSettle_step {now : Millitime} (hnow : now ≠ neverAgain) (slave misses : ℕ)
    (unresponsive : Bool) (retryMs : UInt32) (t : Timer) :
    TimerStep [] t (slaveSettle now slave misses unresponsive retryMs t) := by
  have hplan : (slaveSettle now slave misses unresponsive retryMs t).plan = t.plan := by
    unfold slaveSettle
    split_ifs <;> rfl
  refine ⟨hplan, fun hspent => .inl (hspent.of_plan hplan fun hnext => ?_)⟩
  unfold slaveSettle at hnext
  split_ifs at hnext
  · exact hnext
  · exact absurd hnext hnow
  · exact hnext

theorem slaveUpdate_once {c : Context} (h : Tracked c) (timerId : ℕ) (answered : Bool)
    {env : Env} (hclock : BeforeEnd env) : OnceStep [] c (slaveUpdate c timerId answered env) := by
  have hsettle : ∀ slave misses unresponsive retryMs, OnceStep [] c { c with
      timers := c.timers.map (slaveSettle (env.clock .update) slave misses unresponsive retryMs) } :=
    fun slave misses unresponsive retryMs => once_map_timers h fun t =>
      slaveSettle_step (hclock.ne_neverAgain _) slave misses unresponsive retryMs t
  unfold slaveUpdate
  dsimp only
  split
  · exact .refl h
  · split_ifs
    · exact hsettle ..
    · exact .refl h
    · exact hsettle ..
    · refine once_map_timers h fun t => ?_
      split_ifs
      · exact ⟨rfl, .inl⟩
      · exact .refl [] t
    · exact hsettle ..

theorem slaveGate_once {c : Context} (h : Tracked c) (timer : Timer) (now : Millitime) :
    OnceStep [] c (slaveGate c timer now).2 := by
  unfold slaveGate
  split_ifs
  · exact .refl h
  · refine once_map_timers h fun t => ?_
    split_ifs
    · exact ⟨rfl, .inl⟩
    · exact .refl [] t
  · exact .refl h

theorem onceRearm_once {c : Context} (h : Tracked c) {env : Env} (hclock : BeforeEnd env) :
    OnceStep [] c (onceRearm c env) := by
  refine .quiet h rfl rfl rfl (h.of_subset (List.Subset.refl _)) ⟨?_, fun i t t' ht ht' => ?_⟩
    (no_events _)
  · exact List.length_mapIdx
  · change (c.timers.mapIdx _)[i]? = some t' at ht'
    rw [List.getElem?_mapIdx, ht, Option.map_some, Option.some_inj] at ht'
    rw [← ht']
    split_ifs
    · exact ⟨rfl, fun hspent => absurd hspent.2 (hclock.ne_neverAgain _)⟩
    · exact .refl [] t

theorem reportError_once {c : Context} (h : Tracked c) (m : Msg) (error : ℤ) {env : Env}
    (hclock : BeforeEnd env) : OnceStep [] c (reportError c m error env) := by
  have hnote : ∀ {c₁ : Context}, Tracked c₁ → ∀ report,
      OnceStep [] c₁ (c₁.note (.reported m report)) := fun h₁ report =>
    .same h₁ rfl rfl rfl (List.Subset.refl _) rfl ⟨[.reported m report], rfl, rfl⟩
  unfold reportError
  split
  · exact .same h rfl rfl rfl (List.Subset.refl _) rfl ⟨[.reported m _], rfl, rfl⟩
  · have hupdate := slaveUpdate_once h m.msgId (error = errException) hclock
    dsimp only
    split_ifs
    · exact hupdate.trans (hnote hupdate.tracked _)
    · exact hupdate
    · exact hnote h _
    · exact .refl h

theorem dropHead_once {c : Context} (h : Tracked c) (m : Msg) (error : ℤ) :
    OnceStep [] c (dropHead c m error) :=
  .same h rfl rfl rfl (List.tail_subset _) rfl ⟨[.released m error], rfl, rfl⟩

def answersOf (c : Context) (flags : Flags) (m : Msg) : List Msg :=
  if flags = .subscribe ∧ c.subscribeCb then [m] else []

theorem reportAnswer_once {c : Context} (h : Tracked c) (flags : Flags) {m : Msg}
    (hm : flags = .subscribe → IsPoll c m) {env : Env} (hclock : BeforeEnd env) :
    OnceStep (answersOf c flags m) c (reportAnswer c flags m env) := by
  unfold reportAnswer answersOf
  cases flags with
  | post =>
    rw [if_neg fun hno => nomatch hno.1]
    dsimp only
    split
    · exact .same h rfl rfl rfl (List.Subset.refl _) rfl ⟨[.reported m _], rfl, rfl⟩
    · split_ifs
      · exact .same h rfl rfl rfl (List.Subset.refl _) rfl ⟨[.reported m _], rfl, rfl⟩
      · exact .refl h
  | subscribe =>
    dsimp only
    by_cases hcb : c.subscribeCb
    · rw [if_pos ⟨rfl, hcb⟩, if_pos hcb]
      have hupdate := slaveUpdate_once h m.msgId true hclock
      have hpoll := (hm rfl).step hupdate.transport hupdate.timers
      change OnceStep ([] ++ [m]) _ _
      refine hupdate.trans ?_
      generalize slaveUpdate c m.msgId true env = c₁ at hupdate hpoll
      have htimers : TimersStep [m] c₁.timers (onceDone c₁ m.msgId).timers := by
        unfold onceDone
        split
        · exact ⟨rfl, fun _ t _ ht ht' => Option.some.inj (ht.symm.trans ht') ▸ .refl [m] t⟩
        · refine timersStep_map fun t _ => ?_
          split_ifs with hid
          · exact ⟨rfl, fun _ => .inr ⟨m, List.mem_singleton_self m, hid.1.symm⟩⟩
          · exact .refl [m] t
      have hsame : (onceDone c₁ m.msgId).transport = c₁.transport ∧
          (onceDone c₁ m.msgId).subscribeCb = c₁.subscribeCb ∧
          (onceDone c₁ m.msgId).processConfig = c₁.processConfig ∧
          (onceDone c₁ m.msgId).queue = c₁.queue ∧ (onceDone c₁ m.msgId).log = c₁.log := by
        unfold onceDone
        split <;> exact ⟨rfl, rfl, rfl, rfl, rfl⟩
      obtain ⟨htransport, hsubscribe, hconfig, hqueue, hlog⟩ := hsame
      have hkept : QueuesPolls c₁ (deliver (onceDone c₁ m.msgId) m).queue :=
        hupdate.tracked.of_subset fun _ h => hqueue ▸ h
      refine ⟨htransport, hsubscribe, hconfig, hupdate.tracked.step htransport hkept htimers,
        htimers, fun m' hm' => ?_, (matchedInputs c₁ m).map fun input => .delivered m input, ?_, ?_⟩
      · rw [List.mem_singleton.1 hm']
        exact hpoll
      · unfold deliver matchedInputs
        rw [hlog, hconfig, htransport]
      · rw [List.filterMap_map, List.flatMap_singleton]
        exact List.filterMap_eq_map ▸ rfl
    · rw [if_neg hcb, if_neg fun hyes => hcb hyes.2]
      exact .refl h

theorem handleWriteRead_quiet {c : Context} {m : Msg} (revents : Revents) (env : Env)
    (h : Underway c.transport m) :
    (handleWriteRead c m revents env).ctx.subscribeCb = c.subscribeCb ∧
      (handleWriteRead c m revents env).ctx.processConfig = c.processConfig ∧
      (handleWriteRead c m revents env).ctx.timers = c.timers ∧
      (handleWriteRead c m revents env).msg.msgId = m.msgId ∧
      ∃ δ, (handleWriteRead c m revents env).ctx.log = c.log ++ δ ∧
        δ.filterMap Event.delivery = [] := by
  have hout := handleWriteRead_outcome revents env h
  have hbefore : (beforeWrite c m env).subscribeCb = c.subscribeCb ∧
      (beforeWrite c m env).processConfig = c.processConfig ∧
      (beforeWrite c m env).timers = c.timers ∧
      ∃ δ, (beforeWrite c m env).log = c.log ++ δ ∧ δ.filterMap Event.delivery = [] := by
    unfold beforeWrite
    dsimp only
    split_ifs
    · exact ⟨rfl, rfl, rfl, [.flushed], rfl, rfl⟩
    · exact ⟨rfl, rfl, rfl, no_events _⟩
  obtain ⟨hcb, hconfig, htimers, δ, hlog, hδ⟩ := hbefore
  have hwrote : ∀ e : Event, e.delivery = none → ∃ δ', (beforeWrite c m env).log ++ [e] =
      c.log ++ δ' ∧ δ'.filterMap Event.delivery = [] := by
    intro e he
    refine ⟨δ ++ [e], by rw [hlog, List.append_assoc], ?_⟩
    rw [List.filterMap_append, hδ, List.filterMap_cons_none he]
    rfl
  generalize handleWriteRead c m revents env = s at hout
  cases hout with
  | waits => exact ⟨rfl, rfl, rfl, rfl, no_events _⟩
  | complete => exact ⟨rfl, rfl, rfl, rfl, no_events _⟩
  | writing _ _ hwrite =>
    cases hwrite with
    | gap => exact ⟨rfl, rfl, rfl, rfl, no_events _⟩
    | failed => exact ⟨hcb, hconfig, htimers, rfl, δ, hlog, hδ⟩
    | part => exact ⟨hcb, hconfig, htimers, rfl, hwrote _ rfl⟩
    | broadcast => exact ⟨hcb, hconfig, htimers, rfl, hwrote _ rfl⟩
    | whole => exact ⟨hcb, hconfig, htimers, rfl, hwrote _ rfl⟩
  | reading _ _ _ _ hread =>
    cases hread with
    | noise =>
      exact ⟨rfl, rfl, rfl, rfl, [.read m.reader.xmit m.reader.window, .flushed],
        by simp [afterRead, flush], rfl⟩
    | _ => exact ⟨rfl, rfl, rfl, rfl, [.read _ _], rfl, rfl⟩

theorem OnceStep.trans_quiet {answers : List Msg} {c₁ c₂ c₃ : Context}
    (h : OnceStep answers c₁ c₂) (h' : OnceStep [] c₂ c₃) : OnceStep answers c₁ c₃ :=
  List.append_nil answers ▸ h.trans h'

theorem handleMsg_once {c : Context} (h : Tracked c) (wrapper : Wrapper)
    (hm : wrapper.flags = .subscribe → IsPoll c wrapper.msg) {env : Env} (hclock : BeforeEnd env) :
    ∃ answer : Option Msg, OnceStep answer.toList c (handleMsg c wrapper env).2 ∧
      ∀ m, answer = some m ↔ c.subscribeCb ∧ wrapper.flags = .subscribe ∧ ∃ reader,
        check c.transport wrapper.msg.writer wrapper.msg.reader = (0, reader) ∧
          m = { wrapper.msg with reader := reader } := by
  rcases handleMsg_cases c wrapper env with
    ⟨rc, reader, hcheck, hrc, hresult⟩ | ⟨reader, hcheck, hresult⟩
  · have hresynced : OnceStep [] c (resynced c env) :=
      .same h rfl rfl rfl (List.Subset.refl _) rfl ⟨[.flushed], rfl, rfl⟩
    have hreport := hresynced.trans (reportError_once hresynced.tracked { wrapper.msg with
      reader := reader } (rejectReason c.transport { wrapper.msg with reader := reader }) hclock)
    rw [hresult]
    refine ⟨none, hreport.trans (dropHead_once hreport.tracked _ _), fun m => ⟨nofun, ?_⟩⟩
    rintro ⟨-, -, other, hother, -⟩
    exact absurd (congrArg Prod.fst (hcheck.symm.trans hother)) hrc
  · have hanswer := reportAnswer_once h wrapper.flags (m := { wrapper.msg with reader := reader })
      hm hclock
    rw [hresult]
    have hleft := hanswer.trans_quiet (dropHead_once hanswer.tracked
      { wrapper.msg with reader := reader } 0)
    unfold answersOf at hleft
    split_ifs at hleft with htaken
    · refine ⟨some _, hleft, fun m => ⟨fun hm => ⟨htaken.2, htaken.1, reader, hcheck, ?_⟩, ?_⟩⟩
      · exact (Option.some.inj hm).symm
      · rintro ⟨-, -, other, hother, rfl⟩
        obtain rfl : reader = other := congrArg Prod.snd (hcheck.symm.trans hother)
        rfl
    · exact ⟨none, hleft, fun m => ⟨nofun, fun h => absurd ⟨h.2.1, h.1⟩ htaken⟩⟩

/-- Serving the head completes the answer to a poll, and `modbusmq_handle_msg` accepts it. -/
def CompletesPoll (c : Context) (revents : Revents) (env : Env) (m : Msg) : Prop :=
  ∃ wrapper rest, c.queue = wrapper :: rest ∧ wrapper.flags = .subscribe ∧
    (handleWriteRead c wrapper.msg revents env).rc = 0 ∧ ∃ reader,
      check c.transport (handleWriteRead c wrapper.msg revents env).msg.writer
        (handleWriteRead c wrapper.msg revents env).msg.reader = (0, reader) ∧
      m = { (handleWriteRead c wrapper.msg revents env).msg with reader := reader }

theorem CompletesPoll.queue {c : Context} {revents : Revents} {env : Env} {m : Msg}
    (h : CompletesPoll c revents env m) (hc : WellFormed c) :
    (loopWriteRead c revents env).2.queue = c.queue.tail := by
  obtain ⟨wrapper, rest, hq, -, hdone, reader, hcheck, -⟩ := h
  have hunder := (hc.head wrapper (by rw [hq]; rfl)).underway
  have htransport := (handleWriteRead_served (G := False) revents env hunder False.elim).transport
  unfold loopWriteRead
  rw [hq]
  dsimp only
  generalize handleWriteRead c wrapper.msg revents env = s at hdone hcheck htransport
  rw [if_pos hdone]
  rcases handleMsg_cases { s.ctx with
      queue := { wrapper with msg := s.msg } :: rest, tx := s.ctx.tx + 1, rx := s.ctx.rx + 1 }
    { wrapper with msg := s.msg } env with ⟨rc, other, hother, hrc, -⟩ | ⟨other, -, hresult⟩
  · change check s.ctx.transport _ _ = _ at hother
    rw [htransport] at hother
    exact absurd (congrArg Prod.fst (hcheck.symm.trans hother)).symm hrc
  · rw [hresult]
    change (reportAnswer _ _ _ env).queue.tail = rest
    rw [(reportAnswer_telling ..).queue]
    rfl

theorem loopWriteRead_once {c : Context} (h : Tracked c) (hc : WellFormed c) (revents : Revents)
    {env : Env} (hclock : BeforeEnd env) :
    ∃ answer : Option Msg, OnceStep answer.toList c (loopWriteRead c revents env).2 ∧
      ∀ m, answer = some m ↔ c.subscribeCb ∧ CompletesPoll c revents env m := by
  unfold loopWriteRead
  split
  · rename_i hq
    have hnone : ∀ m, none = some m ↔ c.subscribeCb ∧ CompletesPoll c revents env m := by
      refine fun m => ⟨nofun, ?_⟩
      rintro ⟨-, wrapper, rest, hq', -⟩
      rw [hq] at hq'
      cases hq'
    split_ifs
    · exact ⟨none, .same h rfl rfl rfl (List.Subset.refl _) rfl (no_events _), hnone⟩
    · exact ⟨none, .refl h, hnone⟩
  · rename_i wrapper rest hq
    have hcompletes : ∀ m, CompletesPoll c revents env m ↔ wrapper.flags = .subscribe ∧
        (handleWriteRead c wrapper.msg revents env).rc = 0 ∧ ∃ reader,
          check c.transport (handleWriteRead c wrapper.msg revents env).msg.writer
            (handleWriteRead c wrapper.msg revents env).msg.reader = (0, reader) ∧
          m = { (handleWriteRead c wrapper.msg revents env).msg with reader := reader } := by
      intro m
      refine ⟨?_, fun hm => ⟨wrapper, rest, hq, hm⟩⟩
      rintro ⟨head, others, hq', hm⟩
      obtain ⟨rfl, -⟩ := List.cons.inj (hq.symm.trans hq')
      exact hm
    have hunder := (hc.head wrapper (by rw [hq]; rfl)).underway
    have hsame := handleWriteRead_quiet revents env hunder
    have hserved := handleWriteRead_served (G := False) revents env hunder False.elim
    generalize handleWriteRead c wrapper.msg revents env = s at hsame hserved hcompletes
    obtain ⟨hcb, hconfig, htimers, hmsgId, hlog⟩ := hsame
    obtain ⟨_, _, n, -, -, -, hwriter, -, -⟩ := hserved.moved
    have htransport := hserved.transport
    have hhead : wrapper.flags = .subscribe → IsPoll c s.msg := by
      intro hflags
      obtain ⟨timer, htimer, hid, htarget⟩ :=
        h.polls wrapper (by rw [hq]; exact List.mem_cons_self ..) hflags
      refine ⟨timer, htimer, hmsgId.trans hid, ?_⟩
      have hsame : SameTarget c.transport s.msg.writer wrapper.msg.writer :=
        .of_buf fun i _ _ => by rw [hwriter]
      exact hsame.trans htarget
    have hqueued : ∀ tx rx errors : UInt32, OnceStep [] c { s.ctx with
        queue := { wrapper with msg := s.msg } :: rest, tx := tx, rx := rx, err := errors } := by
      refine fun tx rx errors => .quiet h htransport hcb hconfig (fun w hw hflags => ?_)
        (htimers ▸ .refl c.timers) hlog
      rcases List.mem_cons.1 hw with rfl | hw
      · exact hhead hflags
      · exact h.polls w (by rw [hq]; exact List.mem_cons_of_mem _ hw) hflags
    have hnone : s.rc ≠ 0 → ∀ m, none = some m ↔ c.subscribeCb ∧ CompletesPoll c revents env m :=
      fun hrc m => ⟨nofun, fun hm => absurd ((hcompletes m).1 hm.2).2.1 hrc⟩
    have hfailed : s.rc ≠ 0 → ∀ (c₁ : Context) (error : ℤ), OnceStep [] c c₁ →
        ∃ answer : Option Msg, OnceStep answer.toList c
            (dropHead (reportError c₁ s.msg error env) s.msg error) ∧
          ∀ m, answer = some m ↔ c.subscribeCb ∧ CompletesPoll c revents env m := by
      intro hrc c₁ error h₁
      have hreport := h₁.trans (reportError_once h₁.tracked s.msg error hclock)
      exact ⟨none, hreport.trans (dropHead_once hreport.tracked _ _), hnone hrc⟩
    dsimp only
    split_ifs with hdone
    · have hcounted := hqueued (s.ctx.tx + 1) (s.ctx.rx + 1) s.ctx.err
      obtain ⟨answer, hanswer, htaken⟩ := handleMsg_once hcounted.tracked
        { wrapper with msg := s.msg }
        (fun hflags => (hhead hflags).step hcounted.transport hcounted.timers) hclock
      refine ⟨answer, hcounted.trans hanswer, fun m => (htaken m).trans ?_⟩
      rw [hcompletes, hcounted.subscribeCb, hcounted.transport]
      exact ⟨fun hm => ⟨hm.1, hm.2.1, hdone, hm.2.2⟩, fun hm => ⟨hm.1, hm.2.1, hm.2.2.2⟩⟩
    · exact hfailed hdone _ _ (hqueued ..)
    · exact hfailed hdone _ _ (hqueued ..)
    · exact hfailed hdone _ _ (hqueued ..)
    · exact ⟨none, hqueued .., hnone hdone⟩

theorem timeOutHead_once {c : Context} (h : Tracked c) {env : Env} (hclock : BeforeEnd env) :
    OnceStep [] c (timeOutHead c env) := by
  cases hq : c.queue with
  | nil =>
    unfold timeOutHead
    rw [hq]
    exact .refl h
  | cons wrapper rest =>
    have hstamped : OnceStep [] c { c with
        queue := stampHead wrapper (env.clock .head) :: rest } := by
      refine .quiet h rfl rfl rfl (fun w hw hflags => ?_) (.refl c.timers) (no_events _)
      rcases List.mem_cons.1 hw with rfl | hw
      · rw [stampHead_flags] at hflags
        rw [stampHead_msg]
        exact h.polls wrapper (by rw [hq]; exact List.mem_cons_self ..) hflags
      · exact h.polls w (by rw [hq]; exact List.mem_cons_of_mem _ hw) hflags
    rw [timeOutHead_cons hq]
    split_ifs
    · have hreport := hstamped.trans
        (reportError_once hstamped.tracked wrapper.msg errTimeout hclock)
      have hdropped := hreport.trans (dropHead_once hreport.tracked wrapper.msg errTimeout)
      refine hdropped.trans ?_
      have hcount : ∀ c₁ : Context, Tracked c₁ → OnceStep [] c₁
          { flush (countTimeout c₁ wrapper.msg.writer (env.clock .head)) env with
            resyncPending := true } := by
        intro c₁ h₁
        unfold countTimeout
        split_ifs <;> exact .same h₁ rfl rfl rfl (List.Subset.refl _) rfl ⟨[.flushed], rfl, rfl⟩
      exact hcount _ hdropped.tracked
    · exact hstamped

theorem dropAll_once {env : Env} (hclock : BeforeEnd env) (queue : List Wrapper) {c : Context}
    (h : Tracked c) (hq : c.queue = queue) : OnceStep [] c (dropAll env queue c) := by
  induction queue generalizing c with
  | nil => exact .refl h
  | cons wrapper rest ih =>
    have hsame : ({ c with queue := wrapper :: rest } : Context) = c := by rw [← hq]
    have hreport := reportError_once h wrapper.msg errTransport hclock
    have hstep := hreport.trans (dropHead_once hreport.tracked wrapper.msg errTransport)
    unfold dropAll
    rw [hsame]
    refine hstep.trans (ih hstep.tracked ?_)
    change (reportError _ _ _ env).queue.tail = rest
    rw [(reportError_telling _ wrapper.flags wrapper.msg errTransport env).queue, hq]
    rfl

theorem resetQueue_once {c : Context} (h : Tracked c) {env : Env} (hclock : BeforeEnd env) :
    OnceStep [] c (resetQueue c env) :=
  have hdrop := dropAll_once hclock c.queue h rfl
  hdrop.trans (onceRearm_once hdrop.tracked hclock)

theorem postInternal_once {c : Context} (h : Tracked c) {m : Msg} {flags : Flags}
    (hpoll : flags = .subscribe → ∃ timer ∈ c.timers, m.msgId = timer.timerId ∧
      m.writer = timer.msg.writer) : OnceStep [] c (postInternal c m flags) := by
  refine .quiet h rfl rfl rfl (fun w hw hflags => ?_) (.refl c.timers) ⟨[.posted _ _], rfl, rfl⟩
  rw [postInternal_queue, mem_enqueue] at hw
  rcases hw with hw | rfl
  · exact h.polls w hw hflags
  · obtain ⟨timer, htimer, hid, hwriter⟩ := hpoll hflags
    obtain ⟨-, slaveId, request, hbuild⟩ := h.templates timer htimer
    have hheader := (Request.build_built hbuild).header
    rw [← hwriter] at hheader
    refine ⟨timer, htimer, ?_, ?_⟩
    · rw [← hid]
      cases c.transport <;> rfl
    · have htarget := preparedMsg_target (t := c.transport)
        (m := { m with reqId := nextReqId c.reqIdNext, serial := c.serialNext })
        (nextTransaction c.transport c.transactionId) hheader
      rw [← hwriter]
      exact htarget

theorem post_once {c : Context} (h : Tracked c) (writer : Frame .writer) :
    OnceStep [] c (post c writer) :=
  postInternal_once h fun hno => nomatch hno

theorem rawRequest_once {c : Context} (h : Tracked c) (text : String) (stray : ℕ → UInt8) :
    OnceStep [] c (rawRequest c text stray).2 := by
  unfold rawRequest
  dsimp only
  split
  · exact .same h rfl rfl rfl (List.Subset.refl _) rfl ⟨[.refused _], rfl, rfl⟩
  · have hpost := post_once h ‹Frame .writer›
    exact hpost.trans (.same hpost.tracked rfl rfl rfl (List.Subset.refl _) rfl (no_events _))

theorem postTimer_once {c : Context} (h : Tracked c) (i : ℕ) :
    OnceStep [] c (postTimer c i) ∧
      (postTimer c i).timers.map Timer.timerNextTime = c.timers.map Timer.timerNextTime := by
  unfold postTimer
  split
  · exact ⟨.refl h, rfl⟩
  · rename_i timer htimer
    have hpost : OnceStep [] c (postInternal c { timer.msg with msgId := timer.timerId }
        .subscribe) := postInternal_once h fun _ => ⟨timer, List.mem_of_getElem? htimer, rfl, rfl⟩
    refine ⟨hpost.trans (.quiet hpost.tracked rfl rfl rfl
      (hpost.tracked.of_subset (List.Subset.refl _)) ?_ (no_events _)), ?_⟩
    · exact timersStep_modify fun t _ => ⟨rfl, .inl⟩
    · refine List.ext_getElem? fun j => ?_
      have hkept : ∀ t : Timer, (if i = j then { t with msg := { t.msg with
          msgId := t.timerId, reqId := nextReqId c.reqIdNext } } else t).timerNextTime =
            t.timerNextTime := by
        intro t
        split_ifs <;> rfl
      rw [List.getElem?_map, List.getElem?_map, List.getElem?_modify]
      change Option.map _ (Option.map _ c.timers[j]?) = _
      rw [Option.map_map]
      exact congrArg (Option.map · c.timers[j]?) (funext hkept)

theorem gatePost_once {c : Context} (h : Tracked c) (timer : Timer) (now : Millitime) (i : ℕ) :
    OnceStep [] c (gatePost c timer now i) ∧
      (gatePost c timer now i).timers.map Timer.timerNextTime =
        c.timers.map Timer.timerNextTime := by
  have hgate := slaveGate_once h timer now
  have hnext : (slaveGate c timer now).2.timers.map Timer.timerNextTime =
      c.timers.map Timer.timerNextTime := by
    unfold slaveGate
    split_ifs
    · rfl
    · rw [List.map_map]
      refine List.map_congr_left fun t _ => ?_
      simp only [Function.comp_apply]
      split_ifs <;> rfl
    · rfl
  unfold gatePost
  split_ifs
  · obtain ⟨hpost, hsame⟩ := postTimer_once hgate.tracked i
    exact ⟨hgate.trans hpost, hsame.trans hnext⟩
  · exact ⟨hgate, hnext⟩

/-- A due time that is moved on stays below the end of time. -/
theorem advanceTimer_once {c : Context} (h : Tracked c) {i : ℕ} {now : Millitime}
    (hend : now.toNat + onceRetryMs.toNat < neverAgain.toNat)
    (hdue : ∀ t, c.timers[i]? = some t → t.timerNextTime ≤ now) :
    OnceStep [] c (advanceTimer c i) := by
  refine .quiet h rfl rfl rfl (h.of_subset (List.Subset.refl _)) (timersStep_modify fun t ht => ?_)
    (no_events _)
  refine ⟨rfl, fun hspent => ?_⟩
  have hinterval := h.retries t (List.mem_of_getElem? ht) hspent.1
  have hle : t.timerNextTime.toNat ≤ now.toNat := UInt64.le_iff_toNat_le.1 (hdue t ht)
  have hsum := congrArg UInt64.toNat hspent.2
  simp only [hinterval, UInt64.toNat_add] at hsum
  have hbound : neverAgain.toNat < 2 ^ 64 := neverAgain.toNat_lt
  omega

theorem ScheduleStep.once {env : Env} (hclock : BeforeEnd env) {c c' : Context}
    (h : ScheduleStep env c c') (hc : Tracked c) : OnceStep [] c c' := by
  cases h with
  | books => exact .same hc rfl rfl rfl (List.Subset.refl _) rfl (no_events _)
  | @due i timer htimer hdue =>
    obtain ⟨hgate, hnext⟩ := gatePost_once hc timer (env.clock .due) i
    refine hgate.trans (advanceTimer_once hgate.tracked (hclock .due) fun t ht => ?_)
    have hsame := congrArg (·[i]?) hnext
    simp only [List.getElem?_map, ht, htimer, Option.map_some, Option.some_inj] at hsame
    rw [hsame]
    exact hdue
  | turn => exact (gatePost_once hc _ _ _).1

theorem ScheduleSteps.once {env : Env} (hclock : BeforeEnd env) {c c' : Context}
    (h : ScheduleSteps env c c') (hc : Tracked c) : OnceStep [] c c' := by
  induction h with
  | refl => exact .refl hc
  | tail _ hstep ih => exact ih.trans (hstep.once hclock ih.tracked)

theorem loopPrepareSubscription_once {c : Context} (h : Tracked c) (sleepTime : Millitime)
    {env : Env} (hclock : BeforeEnd env) :
    OnceStep [] c (loopPrepareSubscription c sleepTime env).ctx :=
  ScheduleSteps.once hclock (loopPrepareSubscription_schedule c sleepTime env) h

theorem loopPrepare_once {c : Context} (h : Tracked c) (sleepTime : Millitime) {env : Env}
    (hclock : BeforeEnd env) : OnceStep [] c (loopPrepare c sleepTime env).ctx := by
  unfold loopPrepare
  split_ifs
  · rw [prepareEvents_ctx]
    have hout := timeOutHead_once h hclock
    exact hout.trans (loopPrepareSubscription_once hout.tracked sleepTime hclock)
  · exact .refl h

/-- A call that neither subscribes nor configures. -/
def Call.Looped : Call → Prop
  | subscribe _ _ _ | configure _ _ _ => False
  | _ => True

/-- Every such call answers one poll at most: the one whose answer it completes. -/
theorem Call.once {c : Context} (h : Tracked c) (hc : WellFormed c) {call : Call}
    (hcall : call.Looped) {env : Env} (hclock : BeforeEnd env) :
    ∃ answer : Option Msg, OnceStep answer.toList c (call.perform c env) ∧ ∀ m, answer = some m ↔
      c.subscribeCb ∧ ∃ revents, call = .writeRead revents ∧ CompletesPoll c revents env m := by
  have hother : (∀ revents, call ≠ .writeRead revents) → OnceStep [] c (call.perform c env) →
      ∃ answer : Option Msg, OnceStep answer.toList c (call.perform c env) ∧ ∀ m, answer = some m ↔
        c.subscribeCb ∧ ∃ revents, call = .writeRead revents ∧ CompletesPoll c revents env m :=
    fun hne hstep => ⟨none, hstep, fun m => ⟨nofun, fun ⟨_, revents, heq, _⟩ =>
      absurd heq (hne revents)⟩⟩
  cases call with
  | post slaveId request =>
    have hslave : OnceStep [] c (setSlave c slaveId) :=
      .same h rfl rfl rfl (List.Subset.refl _) rfl (no_events _)
    refine hother nofun ?_
    change OnceStep [] c (postRequest c slaveId request)
    unfold postRequest
    split
    · exact hslave.trans (post_once hslave.tracked _)
    · exact hslave
  | raw text stray => exact hother nofun (rawRequest_once h text stray)
  | subscribe => exact hcall.elim
  | prepare sleepTime => exact hother nofun (loopPrepare_once h sleepTime hclock)
  | writeRead revents =>
    obtain ⟨answer, hstep, hanswer⟩ := loopWriteRead_once h hc revents hclock
    refine ⟨answer, hstep, fun m => (hanswer m).trans (and_congr_right' ⟨fun hm => ?_, ?_⟩)⟩
    · exact ⟨revents, rfl, hm⟩
    · rintro ⟨_, heq, hm⟩
      cases heq
      exact hm
  | reset => exact hother nofun (resetQueue_once h hclock)
  | rearm => exact hother nofun (onceRearm_once h hclock)
  | focus slave =>
    refine hother nofun ?_
    change OnceStep [] c (setFocus c slave).2
    unfold setFocus
    split
    · exact .refl h
    · split_ifs
      all_goals
        first
        | exact .refl h
        | exact .same h rfl rfl rfl (List.Subset.refl _) rfl (no_events _)
  | connect opened =>
    refine hother nofun ?_
    change OnceStep [] c (Modbusmq.connect c opened).2
    unfold Modbusmq.connect
    split_ifs
    · exact .same h rfl rfl rfl (List.Subset.refl _) rfl ⟨[.connected], rfl, rfl⟩
    · exact .refl h
  | close => exact hother nofun (.same h rfl rfl rfl (List.Subset.refl _) rfl (no_events _))
  | configure => exact hcall.elim
  | arrive bytes => exact hother nofun (.same h rfl rfl rfl (List.Subset.refl _) rfl (no_events _))

end Modbusmq
