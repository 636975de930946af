import Modbusmq.Loop.Backoff

/-!
# One poll of each timer

Both ways of scheduling look at the queue before they post: parallel and series
mode for a poll of the timer that is due, rounds mode for any poll. So the queue
never holds two polls of one timer, however long a slave stays silent.
-/

namespace Modbusmq

/-- No timer has two polls in the queue. -/
structure OnePoll (c : Context) : Prop extends TimersNumbered c where
  polls : ((queuedPolls c.queue).map Prod.fst).Nodup
  known : ∀ timerId ∈ (queuedPolls c.queue).map Prod.fst, timerId ∈ c.timers.map (·.timerId)
  idle : InRounds c → c.roundActive = false → queuedPolls c.queue = []

theorem OnePoll.fewer {c c' : Context} (h : OnePoll c) (hsame : SameNumbers c c')
    (hactive : c'.roundActive = c.roundActive)
    (hpolls : (queuedPolls c'.queue).Sublist (queuedPolls c.queue)) : OnePoll c' where
  toTimersNumbered := h.toTimersNumbered.congr hsame
  polls := h.polls.sublist (hpolls.map _)
  known timerId hmem := by
    rw [timerIds_congr hsame.keys]
    exact h.known timerId ((hpolls.map _).subset hmem)
  idle hrounds hoff := by
    have hrounds' : InRounds c := by
      unfold InRounds at hrounds
      rwa [hsame.config] at hrounds
    have hnone := h.idle hrounds' (hactive ▸ hoff)
    rw [hnone] at hpolls
    exact List.sublist_nil.1 hpolls

theorem Still.onePoll {c c' : Context} (h : Still c c') (hc : OnePoll c) : OnePoll c' :=
  hc.fewer h.sameNumbers h.active (h.polls ▸ .refl _)

theorem Leave.onePoll {env : Env} {timerId serial : ℕ} {error : ℤ} {c c' : Context}
    (h : Leave env timerId serial error c c') (hc : OnePoll c) : OnePoll c' :=
  hc.fewer h.sameNumbers h.active (by rw [h.polls]; exact List.sublist_cons_self ..)

theorem Emptied.onePoll {c c' : Context} (h : Emptied c c') (hc : OnePoll c) : OnePoll c' :=
  hc.fewer h.sameNumbers h.active (h.polls ▸ List.nil_sublist _)

theorem onceRearm_onePoll {c : Context} (hc : OnePoll c) (env : Env) : OnePoll (onceRearm c env) :=
  hc.fewer (onceRearm_sameNumbers c env) (onceRearm_settings c env).active (.refl _)

theorem queuedPolls_fst (queue : List Wrapper) : (queuedPolls queue).map Prod.fst =
    (queue.filter (·.flags = .subscribe)).map (·.msg.msgId) := List.map_map

/-- The walk of the timers posts a poll only if none of the timer is queued. -/
theorem pollTimer_onePoll {s : Scheduled} (h : OnePoll s.ctx) (hmode : ¬ InRounds s.ctx)
    (now : Millitime) (i : ℕ) :
    OnePoll (pollTimer now s i).ctx ∧ ¬ InRounds (pollTimer now s i).ctx := by
  unfold pollTimer
  split
  · exact ⟨h, hmode⟩
  · rename_i timer ht
    dsimp only
    split_ifs with hdue
    · have hmem := List.mem_of_getElem? ht
      have hnew : timer.timerId ∉ (queuedPolls s.ctx.queue).map Prod.fst := by
        rw [queuedPolls_fst]
        intro hqueued
        obtain ⟨w, hw, hid⟩ := List.mem_map.1 hqueued
        exact hdue.2 (List.any_eq_true.2 ⟨w, List.mem_of_mem_filter hw, decide_eq_true hid⟩)
      have hadvance : ∀ {c : Context}, OnePoll c ∧ ¬ InRounds c →
          OnePoll (advanceTimer c i) ∧ ¬ InRounds (advanceTimer c i) := by
        rintro c ⟨hc, hconfig⟩
        have hneutral := advanceTimer_neutral c i
        exact ⟨hc.fewer hneutral.sameNumbers rfl (.refl _), hconfig⟩
      refine hadvance ?_
      rcases gatePost_cases ht now with ⟨-, hsame⟩ | ⟨-, -, hasked⟩
      · rw [hsame]
        exact ⟨h, hmode⟩
      · have hmode' : ¬ InRounds (gatePost s.ctx timer now i) := by
          unfold InRounds
          rw [hasked.config]
          exact hmode
        refine ⟨⟨h.toTimersNumbered.congr hasked.sameNumbers, ?_, ?_,
          fun hrounds => absurd hrounds hmode'⟩, hmode'⟩
        · rw [hasked.polls, List.map_append]
          exact List.Nodup.append h.polls (List.nodup_singleton _)
            (List.disjoint_singleton.2 hnew)
        · rw [hasked.polls, List.map_append, timerIds_congr hasked.keys]
          intro timerId hqueued
          rcases List.mem_append.1 hqueued with hold | hlast
          · exact h.known timerId hold
          · rw [List.mem_singleton.1 hlast]
            exact List.mem_map_of_mem hmem
    · exact ⟨h, hmode⟩

theorem loopPrepareTimers_onePoll {c : Context} (h : OnePoll c) (hmode : ¬ InRounds c)
    (sleepTime : Millitime) (env : Env) : OnePoll (loopPrepareTimers c sleepTime env).ctx := by
  have hwalk : ∀ (l : List ℕ) (s : Scheduled), OnePoll s.ctx ∧ ¬ InRounds s.ctx →
      OnePoll (l.foldl (pollTimer (env.clock .due)) s).ctx := by
    intro l
    induction l with
    | nil => exact fun s hs => hs.1
    | cons i l ih => exact fun s hs => ih _ (pollTimer_onePoll hs.1 hs.2 _ i)
  exact hwalk _ _ ⟨h, hmode⟩

theorem queuedPolls_eq_nil {queue : List Wrapper} :
    queuedPolls queue = [] ↔ ∀ w ∈ queue, w.flags = .post := by
  unfold queuedPolls
  rw [List.map_eq_nil_iff, List.filter_eq_nil_iff]
  refine forall₂_congr fun w _ => ?_
  cases w.flags <;> simp

theorem queuedPolls_append (queue more : List Wrapper) :
    queuedPolls (queue ++ more) = queuedPolls queue ++ queuedPolls more := by
  unfold queuedPolls
  rw [List.filter_append, List.map_append]

/-- The polls of different timers have different numbers. -/
theorem pollOf_ids {c : Context} {plan : List ℕ} {polls : List Wrapper}
    (h : List.Forall₂ (PollOf c) plan polls) :
    (queuedPolls polls).map Prod.fst = plan.map fun i => c.timers[i]?.elim 0 (·.timerId) := by
  induction h with
  | nil => rfl
  | cons hpoll _ ih =>
    obtain ⟨timer, transactionId, reqId, serial, ht, rfl⟩ := hpoll
    rw [queuedPolls_cons, if_pos rfl, List.map_cons, List.map_cons, ih, ht]
    exact congrArg (· :: _) (preparedMsg_tags ..).msgId

theorem pollOf_known {c : Context} {plan : List ℕ} {polls : List Wrapper}
    (h : List.Forall₂ (PollOf c) plan polls) : ∀ i ∈ plan, i < c.timers.length := by
  induction h with
  | nil => nofun
  | cons hpoll _ ih =>
    obtain ⟨timer, _, _, _, ht, -⟩ := hpoll
    exact List.forall_mem_cons.2 ⟨(List.getElem?_eq_some_iff.1 ht).1, ih⟩

/-- A round posts one poll of each timer it admits, into a queue without polls. -/
theorem roundStart_onePoll {c : Context} (h : OnePoll c) (hidle : queuedPolls c.queue = [])
    (env : Env) : OnePoll (roundStart c env) := by
  have hsame := (ScheduleSteps.gates (roundStart_schedule c env)).sameNumbers
  have hwalked := roundStart_walked c env
  generalize hplan : roundPlan c (roundNextDeepSlave c env) env = plan at hwalked
  have hnodup : (admitted c.timers plan).Nodup := by
    rw [← hplan]
    exact (roundPlan_nodup ..).sublist (admit_sublist ..)
  obtain ⟨polls, hqueue, hpolls⟩ := hwalked.queue
  have hids : (queuedPolls (roundStart c env).queue).map Prod.fst =
      (admitted c.timers plan).map fun i => c.timers[i]?.elim 0 (·.timerId) := by
    rw [hqueue, queuedPolls_append, hidle, List.nil_append]
    exact pollOf_ids hpolls
  have hvalid := pollOf_known hpolls
  have htimer : ∀ i ∈ admitted c.timers plan, ∃ hi : i < c.timers.length,
      c.timers[i]?.elim 0 (·.timerId) = c.timers[i].timerId := by
    intro i hi
    refine ⟨hvalid i hi, ?_⟩
    rw [List.getElem?_eq_getElem (hvalid i hi)]
    rfl
  refine ⟨h.toTimersNumbered.congr hsame, ?_, ?_, ?_⟩
  · rw [hids]
    refine hnodup.map_on fun i hi j hj heq => ?_
    obtain ⟨hi, hid⟩ := htimer i hi
    obtain ⟨hj, hid'⟩ := htimer j hj
    rw [hid, hid'] at heq
    have hsame := List.inj_on_of_nodup_map h.distinct (List.getElem_mem hi) (List.getElem_mem hj) heq
    exact (List.Nodup.getElem_inj_iff (List.Nodup.of_map _ h.distinct)).1 hsame
  · rw [hids, timerIds_congr hsame.keys]
    intro timerId hmem
    obtain ⟨i, hi, rfl⟩ := List.mem_map.1 hmem
    obtain ⟨hi, hid⟩ := htimer i hi
    rw [hid]
    exact List.mem_map_of_mem (List.getElem_mem hi)
  · intro _ hoff
    rw [(roundStart_kept c env).1] at hoff
    cases hoff

theorem roundOver_onePoll {c : Context} (h : OnePoll c) (env : Env) : OnePoll (roundOver c env) := by
  unfold roundOver
  split_ifs with hover
  · have hnone : queuedPolls c.queue = [] :=
      queuedPolls_eq_nil.2 ((roundBusy_eq_false c).1 (Bool.not_eq_true _ ▸ hover.2))
    exact ⟨⟨⟨h.tagged.timers, h.tagged.queue⟩, h.distinct, h.bounded⟩, h.polls, h.known,
      fun _ _ => hnone⟩
  · exact h

theorem loopPrepareSubscription_onePoll {c : Context} (h : OnePoll c) (sleepTime : Millitime)
    (env : Env) : OnePoll (loopPrepareSubscription c sleepTime env).ctx := by
  unfold loopPrepareSubscription
  split
  · rename_i config hconfig
    split_ifs with hmode
    · have hover := roundOver_onePoll h env
      rw [loopPrepareRounds_eq]
      split_ifs with hstart
      · refine roundStart_onePoll hover (hover.idle ?_ (Bool.not_eq_true _ ▸ hstart.1)) env
        refine ⟨config, ?_, hmode⟩
        rw [← hconfig]
        exact (roundOver_neutral c env).config
      · exact hover
    · refine loopPrepareTimers_onePoll h ?_ sleepTime env
      rintro ⟨config', hconfig', hrounds⟩
      rw [hconfig] at hconfig'
      obtain rfl := Option.some.inj hconfig'
      exact hmode hrounds
  · rename_i hconfig
    refine loopPrepareTimers_onePoll h ?_ sleepTime env
    rintro ⟨config', hconfig', -⟩
    rw [hconfig] at hconfig'
    cases hconfig'

/-- A configuration that turns rounds mode on finds no poll in the queue. -/
def TurnsIdle (c : Context) : Call → Prop
  | .configure (some config) _ _ =>
    config.queryMode = .rounds → InRounds c ∨ queuedPolls c.queue = []
  | _ => True

theorem loopPrepare_onePoll {c : Context} (h : OnePoll c) (sleepTime : Millitime) (env : Env) :
    OnePoll (loopPrepare c sleepTime env).ctx := by
  unfold loopPrepare
  split_ifs
  · rw [prepareEvents_ctx]
    have hout : OnePoll (timeOutHead c env) := by
      rcases timeOutHead_left h.tagged env with hstill | ⟨_, _, _, _, _, hleave⟩
      · exact hstill.onePoll h
      · exact hleave.onePoll h
    exact loopPrepareSubscription_onePoll hout sleepTime env
  · exact h

theorem OnePoll.perform {c : Context} (h : OnePoll c) {call : Call} (hturns : TurnsIdle c call)
    (env : Env) : OnePoll (call.perform c env) := by
  cases call with
  | subscribe slaveId request interval =>
    change OnePoll (subscribeRequest c slaveId request interval env)
    rcases subscribeRequest_cases c slaveId request interval env with
      hsame | ⟨mode, writer, timer, -, hid, -, -, hadded⟩
    · rw [hsame]
      exact h.fewer (setSlave_sameNumbers c slaveId) rfl (.refl _)
    · rw [hadded]
      refine ⟨h.toTimersNumbered.insertTimer (h.tagged.insertTimer mode hid slaveId _) hid rfl rfl,
        h.polls, fun timerId hqueued => ?_, h.idle⟩
      have hids := (insertTimer_keys mode c.timers timer).map Prod.fst
      rw [timerKeys_fst, timerKeys_fst] at hids
      exact hids.mem_iff.2 (List.mem_cons_of_mem _ (h.known timerId hqueued))
  | prepare sleepTime => exact loopPrepare_onePoll h sleepTime env
  | writeRead revents =>
    rcases loopWriteRead_left h.tagged revents env with hstill | ⟨_, _, _, -, hleave⟩
    · exact hstill.onePoll h
    · exact hleave.onePoll h
  | reset => exact onceRearm_onePoll ((dropAll_emptied env c.queue h.tagged rfl).onePoll h) env
  | rearm => exact onceRearm_onePoll h env
  | configure config processConfig frameTimeoutMs =>
    refine ⟨⟨⟨h.tagged.timers, h.tagged.queue⟩, h.distinct, h.bounded⟩, h.polls, h.known, ?_⟩
    rintro ⟨chosen, hchosen, hmode⟩ hoff
    obtain rfl : config = some chosen := hchosen
    exact (hturns hmode).elim (fun hrounds => h.idle hrounds hoff) id
  | post slaveId request => exact (Call.still (.post slaveId request) trivial env).onePoll h
  | raw text stray => exact (Call.still (.raw text stray) trivial env).onePoll h
  | focus slave => exact (Call.still (.focus slave) trivial env).onePoll h
  | connect opened => exact (Call.still (.connect opened) trivial env).onePoll h
  | close => exact (Call.still .close trivial env).onePoll h
  | arrive bytes => exact (Call.still (.arrive bytes) trivial env).onePoll h

theorem OnePoll.run {c : Context} (h : OnePoll c) {calls : List (Call × Env)}
    (hcalls : Along (fun c _ call => TurnsIdle c call) calls c) : OnePoll (run calls c) :=
  hcalls.keeps (fun _ env _ h hturns => h.perform hturns env) h

theorem Fresh.onePoll {c : Context} (h : Fresh c) : OnePoll c where
  tagged := h.replicated.tagged
  distinct := by simp [h.timers]
  bounded := by simp [h.timers]
  polls := by simp [h.queue, queuedPolls]
  known := by simp [h.queue, queuedPolls]
  idle := by simp [h.queue, queuedPolls]

theorem length_queue (queue : List Wrapper) :
    queue.length = (queuedPolls queue).length + (queue.filter (·.flags = .post)).length := by
  induction queue with
  | nil => rfl
  | cons wrapper rest ih =>
    rw [queuedPolls_cons, List.filter_cons, List.length_cons, ih]
    cases wrapper.flags with
    | subscribe => simp; omega
    | post => simp; omega

/-- In every state of a run each timer has at most one poll in the queue, so that the queue is
no longer than the number of timers and of the posted requests in it. -/
theorem one_poll_each {c₀ : Context} (hfresh : Fresh c₀) {calls : List (Call × Env)}
    (hcalls : Along (fun c _ call => TurnsIdle c call) calls c₀) :
    (∀ timer ∈ (run calls c₀).timers, ((run calls c₀).queue.filter fun w =>
        w.flags = .subscribe ∧ w.msg.msgId = timer.timerId).length ≤ 1) ∧
      (run calls c₀).queue.length ≤ (run calls c₀).timers.length +
        ((run calls c₀).queue.filter (·.flags = .post)).length := by
  have h := hfresh.onePoll.run hcalls
  refine ⟨fun timer _ => ?_, ?_⟩
  · have hcount := List.nodup_iff_count_le_one.1 h.polls timer.timerId
    rw [queuedPolls_fst, List.count_eq_length_filter, List.filter_map, List.length_map,
      List.filter_filter] at hcount
    refine le_trans (le_of_eq (congrArg List.length (List.filter_congr fun w _ => ?_))) hcount
    rw [Bool.eq_iff_iff]
    simp [and_comm]
  · rw [length_queue]
    refine Nat.add_le_add_right ?_ _
    have hle := (h.polls.subperm h.known).length_le
    rwa [List.length_map, List.length_map] at hle

/-- Both inputs of a silent slave are due again and again. -/
theorem one_poll_each_example :
    ((∀ timer ∈ (run ([(readFirst, atTime 0), (readSecond, atTime 0)] ++
        wakeUps [1000, 2000, 3000, 60000]) probedContext).timers,
          ((run ([(readFirst, atTime 0), (readSecond, atTime 0)] ++
            wakeUps [1000, 2000, 3000, 60000]) probedContext).queue.filter fun w =>
              w.flags = .subscribe ∧ w.msg.msgId = timer.timerId).length ≤ 1) ∧
      (run ([(readFirst, atTime 0), (readSecond, atTime 0)] ++
        wakeUps [1000, 2000, 3000, 60000]) probedContext).queue.length ≤
          (run ([(readFirst, atTime 0), (readSecond, atTime 0)] ++
            wakeUps [1000, 2000, 3000, 60000]) probedContext).timers.length +
          ((run ([(readFirst, atTime 0), (readSecond, atTime 0)] ++
            wakeUps [1000, 2000, 3000, 60000]) probedContext).queue.filter
              (·.flags = .post)).length) ∧
      (run ([(readFirst, atTime 0), (readSecond, atTime 0)] ++
        wakeUps [1000, 2000, 3000, 60000]) probedContext).queue.length = 2 :=
  ⟨one_poll_each ⟨rfl, rfl, rfl, rfl⟩ ⟨trivial, trivial, trivial, trivial, trivial, trivial, trivial⟩,
    by decide +kernel⟩

end Modbusmq
