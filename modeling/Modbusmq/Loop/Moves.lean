import Modbusmq.Loop.Calls
import Modbusmq.Loop.Serving
import Modbusmq.Loop.Run

/-!
# What a call does to the schedule

The schedule is the timers and their polls in the queue. A call leaves it alone,
or lets the poll at the head leave with a verdict on its slave, or drops every
poll, or is one of those that work on the timers. The results about the schedule
are about these cases.
-/

namespace Modbusmq

/-- The polls among queued requests, by subscription and number. -/
def queuedPolls (queue : List Wrapper) : List (ℕ × ℕ) :=
  (queue.filter (·.flags = .subscribe)).map fun w => (w.msg.msgId, w.msg.serial)

inductive PollEvent
  | posted (timerId serial : ℕ)
  | left (timerId serial : ℕ) (error : ℤ)
  deriving DecidableEq

def Event.poll : Event → Option PollEvent
  | posted .subscribe m => some (.posted m.msgId m.serial)
  | released m error => if 0 < m.msgId then some (.left m.msgId m.serial error) else none
  | _ => none

def pollEvents (log : List Event) : List PollEvent := log.filterMap Event.poll

/-- Polls carry the number of their timer, and posted requests none. -/
structure Tagged (c : Context) : Prop where
  timers : ∀ t ∈ c.timers, 0 < t.timerId
  queue : ∀ w ∈ c.queue, w.flags = .post ↔ w.msg.msgId = 0

/-- The raw slot does not wait for the id of a poll. -/
def Unmistaken (c : Context) : Prop :=
  ∀ w ∈ c.queue, w.flags = .subscribe → rawPending c w.msg = none

/-- What the end of a poll says about its slave. -/
inductive Verdict
  | answered
  | excepted
  | missed
  | dropped
  deriving DecidableEq

def verdictOf (subscribeCb : Bool) (error : ℤ) : Verdict :=
  if error = 0 then if subscribeCb then .answered else .dropped
  else if error = errTimeout then .missed
  else if error = errException then .excepted
  else .dropped

def judge (c : Context) (timerId : ℕ) (env : Env) : Verdict → Context
  | .answered => onceDone (slaveUpdate c timerId true env) timerId
  | .excepted => slaveUpdate c timerId true env
  | .missed => slaveUpdate c timerId false env
  | .dropped => c

/-- Settings and the state of the rounds are as before. -/
structure SameSettings (c c' : Context) : Prop where
  transport : c'.transport = c.transport
  config : c'.config = c.config
  processConfig : c'.processConfig = c.processConfig
  subscribeCb : c'.subscribeCb = c.subscribeCb
  active : c'.roundActive = c.roundActive
  timerIdNext : c'.timerIdNext = c.timerIdNext
  tagged : Tagged c → Tagged c'

/-- The schedule is left alone. -/
structure Still (c c' : Context) : Prop extends SameSettings c c' where
  timers : c'.timers = c.timers
  polls : queuedPolls c'.queue = queuedPolls c.queue
  events : pollEvents c'.log = pollEvents c.log

structure Leave (env : Env) (timerId serial : ℕ) (error : ℤ) (c c' : Context) : Prop
    extends SameSettings c c' where
  polls : queuedPolls c.queue = (timerId, serial) :: queuedPolls c'.queue
  judged : ∃ verdict, c'.timers = (judge c timerId env verdict).timers ∧
    (verdict = verdictOf c.subscribeCb error ∨ verdict = .dropped ∧ error ≠ 0 ∧ ¬ Unmistaken c)
  events : pollEvents c'.log = pollEvents c.log ++ [.left timerId serial error]

theorem SameSettings.refl (c : Context) : SameSettings c c := ⟨rfl, rfl, rfl, rfl, rfl, rfl, id⟩

theorem SameSettings.trans {c₁ c₂ c₃ : Context} (h : SameSettings c₁ c₂)
    (h' : SameSettings c₂ c₃) : SameSettings c₁ c₃ :=
  ⟨h'.transport.trans h.transport, h'.config.trans h.config,
    h'.processConfig.trans h.processConfig, h'.subscribeCb.trans h.subscribeCb,
    h'.active.trans h.active, h'.timerIdNext.trans h.timerIdNext, h'.tagged ∘ h.tagged⟩

theorem Still.refl (c : Context) : Still c c := ⟨.refl c, rfl, rfl, rfl⟩

theorem Still.trans {c₁ c₂ c₃ : Context} (h : Still c₁ c₂) (h' : Still c₂ c₃) : Still c₁ c₃ :=
  ⟨h.toSameSettings.trans h'.toSameSettings, h'.timers.trans h.timers, h'.polls.trans h.polls,
    h'.events.trans h.events⟩

theorem pollEvents_append (log more : List Event) :
    pollEvents (log ++ more) = pollEvents log ++ pollEvents more :=
  List.filterMap_append

theorem pollEvents_io {events : List Event} (h : ∀ e ∈ events, e.Io) : pollEvents events = [] :=
  List.filterMap_eq_nil_iff.2 fun e he => by
    have hio := h e he
    cases e <;> first | rfl | exact absurd hio id

theorem still_of_events {c c' : Context} (δ : List Event) (hδ : pollEvents δ = [])
    (hlog : c'.log = c.log ++ δ) (ht : c'.transport = c.transport) (hc : c'.config = c.config)
    (hp : c'.processConfig = c.processConfig) (hs : c'.subscribeCb = c.subscribeCb)
    (ha : c'.roundActive = c.roundActive) (hn : c'.timerIdNext = c.timerIdNext)
    (htimers : c'.timers = c.timers) (hqueue : c'.queue = c.queue) : Still c c' where
  transport := ht
  config := hc
  processConfig := hp
  subscribeCb := hs
  active := ha
  timerIdNext := hn
  tagged h := ⟨htimers ▸ h.timers, hqueue ▸ h.queue⟩
  timers := htimers
  polls := by rw [hqueue]
  events := by rw [hlog, pollEvents_append, hδ, List.append_nil]

theorem still_settings {c c' : Context} (hlog : c'.log = c.log) (ht : c'.transport = c.transport)
    (hc : c'.config = c.config) (hp : c'.processConfig = c.processConfig)
    (hs : c'.subscribeCb = c.subscribeCb) (ha : c'.roundActive = c.roundActive)
    (hn : c'.timerIdNext = c.timerIdNext) (htimers : c'.timers = c.timers)
    (hqueue : c'.queue = c.queue) : Still c c' :=
  still_of_events [] rfl (hlog.trans (List.append_nil _).symm) ht hc hp hs ha hn htimers hqueue

theorem OnlyIo.still {c c' : Context} (h : OnlyIo c c') : Still c c' := by
  obtain ⟨_, _, _, _, _, _, _, δ, hδ, rfl⟩ := h
  exact still_of_events δ (pollEvents_io hδ) rfl rfl rfl rfl rfl rfl rfl rfl rfl

theorem still_head {c c' : Context} (h : Still c c') {wrapper wrapper' : Wrapper}
    {rest : List Wrapper} (hq : c.queue = wrapper :: rest) (hflags : wrapper'.flags = wrapper.flags)
    (hm : SameMsg wrapper.msg wrapper'.msg) :
    Still c { c' with queue := wrapper' :: rest } where
  toSameSettings := by
    refine ⟨h.transport, h.config, h.processConfig, h.subscribeCb, h.active, h.timerIdNext,
      fun ht => ⟨(h.tagged ht).timers, fun w hw => ?_⟩⟩
    have hqueue := ht.queue
    rw [hq] at hqueue
    rcases List.mem_cons.1 hw with rfl | hw
    · rw [hflags, hm.msgId]
      exact hqueue wrapper (List.mem_cons_self ..)
    · exact hqueue w (List.mem_cons_of_mem _ hw)
  timers := h.timers
  polls := by
    rw [hq]
    unfold queuedPolls
    simp only [List.filter_cons, hflags]
    split_ifs
    · rw [List.map_cons, List.map_cons, hm.msgId, hm.serial]
    · rfl
  events := h.events

/-- What serving the head does: nothing, or its poll leaves, but not for a timeout. -/
def Left (env : Env) (c c' : Context) : Prop :=
  Still c c' ∨ ∃ timerId serial error, error ≠ errTimeout ∧ Leave env timerId serial error c c'

theorem judge_timers {c c' : Context} (hconfig : c'.config = c.config)
    (htimers : c'.timers = c.timers) (timerId : ℕ) (env : Env) (verdict : Verdict) :
    (judge c' timerId env verdict).timers = (judge c timerId env verdict).timers := by
  have hupdate : ∀ answered, (slaveUpdate c' timerId answered env).timers =
      (slaveUpdate c timerId answered env).timers := by
    intro answered
    unfold slaveUpdate
    rw [hconfig, htimers]
    dsimp only
    split
    · exact htimers
    · split_ifs <;> first | rfl | exact htimers
  cases verdict with
  | answered =>
    unfold judge onceDone
    dsimp only
    rw [hupdate]
    split
    · exact hupdate _
    · rfl
  | excepted => exact hupdate _
  | missed => exact hupdate _
  | dropped => exact htimers

theorem Leave.settle {env : Env} {timerId serial : ℕ} {error : ℤ} {c₁ c₂ c₃ c₄ : Context}
    (h : Still c₁ c₂) (hmistake : Unmistaken c₁ → Unmistaken c₂)
    (hleave : Leave env timerId serial error c₂ c₃) (h' : Still c₃ c₄) :
    Leave env timerId serial error c₁ c₄ where
  toSameSettings := h.toSameSettings.trans (hleave.toSameSettings.trans h'.toSameSettings)
  polls := by rw [← h.polls, hleave.polls, h'.polls]
  judged := by
    obtain ⟨verdict, htimers, hverdict⟩ := hleave.judged
    refine ⟨verdict, ?_, ?_⟩
    · rw [h'.timers, htimers, judge_timers h.config h.timers]
    · rw [← h.subscribeCb]
      exact hverdict.imp_right fun hraw => ⟨hraw.1, hraw.2.1, mt hmistake hraw.2.2⟩
  events := by rw [h'.events, hleave.events, h.events]

theorem slaveUpdate_settings (c : Context) (timerId : ℕ) (answered : Bool) (env : Env) :
    SameSettings c (slaveUpdate c timerId answered env) ∧
      (slaveUpdate c timerId answered env).queue = c.queue ∧
      (slaveUpdate c timerId answered env).log = c.log ∧
      (slaveUpdate c timerId answered env).raw = c.raw := by
  have hmap : ∀ f : Timer → Timer, (∀ t, (f t).timerId = t.timerId) →
      SameSettings c { c with timers := c.timers.map f } := by
    intro f hf
    refine ⟨rfl, rfl, rfl, rfl, rfl, rfl, fun h => ⟨fun t ht => ?_, h.queue⟩⟩
    obtain ⟨t, hmem, rfl⟩ := List.mem_map.1 ht
    rw [hf]
    exact h.timers t hmem
  have hsettle : ∀ now slave misses unresponsive retryMs, SameSettings c { c with
      timers := c.timers.map (slaveSettle now slave misses unresponsive retryMs) } := by
    intro now slave misses unresponsive retryMs
    apply hmap
    intro t
    unfold slaveSettle
    split_ifs <;> rfl
  unfold slaveUpdate
  dsimp only
  split
  · exact ⟨.refl c, rfl, rfl, rfl⟩
  · split_ifs
    · exact ⟨hsettle .., rfl, rfl, rfl⟩
    · exact ⟨.refl c, rfl, rfl, rfl⟩
    · exact ⟨hsettle .., rfl, rfl, rfl⟩
    · refine ⟨hmap _ fun t => ?_, rfl, rfl, rfl⟩
      split_ifs <;> rfl
    · exact ⟨hsettle .., rfl, rfl, rfl⟩

theorem onceDone_settings (c : Context) (timerId : ℕ) :
    SameSettings c (onceDone c timerId) ∧ (onceDone c timerId).queue = c.queue ∧
      (onceDone c timerId).log = c.log := by
  unfold onceDone
  split
  · exact ⟨.refl c, rfl, rfl⟩
  · refine ⟨⟨rfl, rfl, rfl, rfl, rfl, rfl, fun h => ⟨fun t ht => ?_, h.queue⟩⟩, rfl, rfl⟩
    obtain ⟨t, hmem, rfl⟩ := List.mem_map.1 ht
    have hid := h.timers t hmem
    split_ifs <;> exact hid

theorem queuedPolls_cons (wrapper : Wrapper) (rest : List Wrapper) :
    queuedPolls (wrapper :: rest) = if wrapper.flags = .subscribe then
      (wrapper.msg.msgId, wrapper.msg.serial) :: queuedPolls rest else queuedPolls rest := by
  unfold queuedPolls
  rw [List.filter_cons]
  simp only [decide_eq_true_eq]
  split_ifs <;> rfl

theorem dropHead_left {c c₁ : Context} (htagged : Tagged c) {head : Wrapper} {rest : List Wrapper}
    (hq : c.queue = head :: rest) {m : Msg} (hm : SameMsg head.msg m) (error : ℤ) (env : Env)
    (hset : SameSettings c c₁) (hqueue : c₁.queue = c.queue)
    (hevents : pollEvents c₁.log = pollEvents c.log)
    (hpost : head.flags = .post → c₁.timers = c.timers)
    (hpoll : head.flags = .subscribe → ∃ verdict,
      c₁.timers = (judge c m.msgId env verdict).timers ∧
        (verdict = verdictOf c.subscribeCb error ∨ verdict = .dropped ∧ error ≠ 0 ∧ ¬ Unmistaken c)) :
    Still c (dropHead c₁ m error) ∧ head.flags = .post ∨
      Leave env m.msgId m.serial error c (dropHead c₁ m error) ∧ head.flags = .subscribe := by
  have htag := htagged.queue head (by rw [hq]; exact List.mem_cons_self ..)
  have hrest : (dropHead c₁ m error).queue = rest := by
    change c₁.queue.tail = rest
    rw [hqueue, hq]
    rfl
  have hsettings : SameSettings c (dropHead c₁ m error) :=
    ⟨hset.transport, hset.config, hset.processConfig, hset.subscribeCb, hset.active,
      hset.timerIdNext, fun h => ⟨(hset.tagged h).timers, fun w hw => h.queue w (by
        rw [hrest] at hw
        rw [hq]
        exact List.mem_cons_of_mem _ hw)⟩⟩
  have hlog : pollEvents (dropHead c₁ m error).log =
      pollEvents c.log ++ pollEvents [.released m error] := by
    rw [← hevents]
    exact pollEvents_append ..
  cases hflags : head.flags with
  | post =>
    have hzero : m.msgId = 0 := hm.msgId.trans (htag.1 hflags)
    refine .inl ⟨⟨hsettings, hpost hflags, ?_, ?_⟩, rfl⟩
    · rw [hrest, hq, queuedPolls_cons, if_neg (by rw [hflags]; decide)]
    · rw [hlog]
      simp [pollEvents, Event.poll, hzero]
  | subscribe =>
    have hpos : 0 < m.msgId := by
      rw [hm.msgId]
      refine Nat.pos_of_ne_zero fun hzero => ?_
      have hflags' := htag.2 hzero
      rw [hflags] at hflags'
      cases hflags'
    refine .inr ⟨⟨hsettings, ?_, hpoll hflags, ?_⟩, rfl⟩
    · rw [hrest, hq, queuedPolls_cons, if_pos hflags, hm.msgId, hm.serial]
    · rw [hlog]
      simp [pollEvents, Event.poll, hpos]

/-- What reporting a request does to the schedule. -/
structure Judged (env : Env) (error : ℤ) (m : Msg) (c c' : Context) : Prop
    extends SameSettings c c' where
  queue : c'.queue = c.queue
  events : pollEvents c'.log = pollEvents c.log
  posted : m.msgId = 0 → c'.timers = c.timers
  polled : 0 < m.msgId → ∃ verdict, c'.timers = (judge c m.msgId env verdict).timers ∧
    (verdict = verdictOf c.subscribeCb error ∨
      verdict = .dropped ∧ error ≠ 0 ∧ rawPending c m ≠ none)

theorem rawReply_judged {c : Context} {slot : RawSlot} {m : Msg} (hpending : rawPending c m = some slot)
    (result : String) (env : Env) {error : ℤ} (herror : 0 < m.msgId → error ≠ 0) :
    Judged env error m c (rawReply c slot m result) := by
  refine ⟨⟨rfl, rfl, rfl, rfl, rfl, rfl, fun h => ⟨h.timers, h.queue⟩⟩, rfl, ?_, fun _ => rfl,
    fun hpos => ⟨.dropped, rfl, .inr ⟨rfl, herror hpos, ?_⟩⟩⟩
  · exact (pollEvents_append ..).trans (List.append_nil _)
  · rw [hpending]
    exact Option.some_ne_none slot

theorem reportError_judged (c : Context) (m : Msg) (error : ℤ) (herror : error ≠ 0) (env : Env) :
    Judged env error m c (reportError c m error env) := by
  cases hpending : rawPending c m with
  | some slot =>
    unfold reportError
    rw [hpending]
    exact rawReply_judged hpending _ env fun _ => herror
  | none =>
    -- the callback only notes that it ran
    have hnote : ∀ c₁ : Context, SameSettings c c₁ → c₁.queue = c.queue → c₁.log = c.log →
        (m.msgId = 0 → c₁.timers = c.timers) →
        (0 < m.msgId → c₁.timers = (judge c m.msgId env (verdictOf c.subscribeCb error)).timers) →
        Judged env error m c
          (if c₁.errorCb then c₁.note (.reported m (.error error)) else c₁) := by
      intro c₁ hset hqueue hlog hposted hpolled
      split_ifs
      · refine ⟨⟨hset.transport, hset.config, hset.processConfig, hset.subscribeCb, hset.active,
          hset.timerIdNext, fun h => ⟨(hset.tagged h).timers, (hset.tagged h).queue⟩⟩, hqueue, ?_,
          hposted, fun hpos => ⟨_, hpolled hpos, .inl rfl⟩⟩
        rw [← hlog]
        exact (pollEvents_append ..).trans (List.append_nil _)
      · exact ⟨hset, hqueue, by rw [hlog], hposted, fun hpos => ⟨_, hpolled hpos, .inl rfl⟩⟩
    obtain ⟨hset, hqueue, hlog, -⟩ :=
      slaveUpdate_settings c m.msgId (error = errException) env
    unfold reportError
    rw [hpending]
    dsimp only
    by_cases hcount : 0 < m.msgId ∧ (error = errTimeout ∨ error = errException)
    · rw [if_pos hcount]
      refine hnote _ hset hqueue hlog (fun hzero => absurd hcount.1 (by omega)) fun _ => ?_
      rcases hcount.2 with rfl | rfl <;> rfl
    · rw [if_neg hcount]
      refine hnote c (.refl c) rfl rfl (fun _ => rfl) fun hpos => ?_
      have hother : verdictOf c.subscribeCb error = .dropped := by
        unfold verdictOf
        rw [if_neg herror, if_neg fun h => hcount ⟨hpos, .inl h⟩,
          if_neg fun h => hcount ⟨hpos, .inr h⟩]
      rw [hother]
      rfl

theorem reportAnswer_post_judged (c : Context) {m : Msg} (hzero : m.msgId = 0) (env : Env) :
    Judged env 0 m c (reportAnswer c .post m env) := by
  unfold reportAnswer
  dsimp only
  split
  · rename_i slot hpending
    exact rawReply_judged hpending _ env fun hpos => absurd hpos (by omega)
  · split_ifs
    · refine ⟨⟨rfl, rfl, rfl, rfl, rfl, rfl, fun h => ⟨h.timers, h.queue⟩⟩, rfl, ?_, fun _ => rfl,
        fun hpos => absurd hpos (by omega)⟩
      exact (pollEvents_append ..).trans (List.append_nil _)
    · exact ⟨.refl c, rfl, rfl, fun _ => rfl, fun hpos => absurd hpos (by omega)⟩

theorem reportAnswer_poll_judged (c : Context) {m : Msg} (hpos : 0 < m.msgId) (env : Env) :
    Judged env 0 m c (reportAnswer c .subscribe m env) := by
  have hnever : ∀ timers : List Timer, m.msgId = 0 → timers = c.timers := fun _ hzero =>
    absurd hpos (by omega)
  unfold reportAnswer
  dsimp only
  by_cases hcb : c.subscribeCb = true
  · rw [if_pos hcb]
    obtain ⟨hset, hqueue, hlog, -⟩ := slaveUpdate_settings c m.msgId true env
    obtain ⟨hset', hqueue', hlog'⟩ := onceDone_settings (slaveUpdate c m.msgId true env) m.msgId
    have hall := hset.trans hset'
    have hdelivered : pollEvents (deliver (onceDone (slaveUpdate c m.msgId true env) m.msgId) m).log =
        pollEvents c.log := by
      rw [← hlog, ← hlog']
      refine (pollEvents_append ..).trans ?_
      have hnone : pollEvents (((onceDone (slaveUpdate c m.msgId true env)
          m.msgId).processConfig.inputs.filter (inputMatches (onceDone (slaveUpdate c m.msgId true
            env) m.msgId).transport m.writer)).map fun input => Event.delivered m input) = [] :=
        List.filterMap_eq_nil_iff.2 fun e he => by
          obtain ⟨input, -, rfl⟩ := List.mem_map.1 he
          rfl
      rw [hnone, List.append_nil]
    refine ⟨⟨hall.transport, hall.config, hall.processConfig, hall.subscribeCb, hall.active,
      hall.timerIdNext, fun h => ⟨(hall.tagged h).timers, (hall.tagged h).queue⟩⟩,
      hqueue'.trans hqueue, hdelivered, hnever _, fun _ => ⟨.answered, rfl, .inl ?_⟩⟩
    unfold verdictOf
    rw [if_pos rfl, if_pos hcb]
  · rw [if_neg hcb]
    refine ⟨.refl c, rfl, rfl, hnever _, fun _ => ⟨.dropped, rfl, .inl ?_⟩⟩
    unfold verdictOf
    rw [if_pos rfl, if_neg hcb]

theorem rawPending_congr (c : Context) {m m' : Msg} (h : SameMsg m m') :
    rawPending c m' = rawPending c m := by
  unfold rawPending
  rw [h.reqId]

theorem Judged.left {env : Env} {error : ℤ} {c c₁ : Context} {head : Wrapper} {rest : List Wrapper}
    {m : Msg} (h : Judged env error m c c₁) (htagged : Tagged c) (hq : c.queue = head :: rest)
    (hm : SameMsg head.msg m) :
    Still c (dropHead c₁ m error) ∧ head.flags = .post ∨
      Leave env m.msgId m.serial error c (dropHead c₁ m error) ∧ head.flags = .subscribe := by
  have hmem : head ∈ c.queue := by
    rw [hq]
    exact List.mem_cons_self ..
  have htag := htagged.queue head hmem
  refine dropHead_left htagged hq hm error env h.toSameSettings h.queue h.events
    (fun hpost => h.posted (hm.msgId.trans (htag.1 hpost))) fun hpoll => ?_
  have hpos : 0 < m.msgId := by
    rw [hm.msgId]
    refine Nat.pos_of_ne_zero fun hzero => ?_
    rw [htag.2 hzero] at hpoll
    cases hpoll
  obtain ⟨verdict, htimers, hverdict⟩ := h.polled hpos
  refine ⟨verdict, htimers,
    hverdict.imp_right fun hraw => ⟨hraw.1, hraw.2.1, fun hmistake => hraw.2.2 ?_⟩⟩
  rw [rawPending_congr c hm]
  exact hmistake head hmem hpoll

theorem rejectReason_ne_zero (t : Transport) (m : Msg) : rejectReason t m ≠ 0 := by
  unfold rejectReason
  split_ifs <;> decide

theorem rejectReason_ne_timeout (t : Transport) (m : Msg) : rejectReason t m ≠ errTimeout := by
  unfold rejectReason
  split_ifs <;> decide

theorem Left.of_still {env : Env} {c c' : Context} (h : Still c c') : Left env c c' := .inl h

/-- The head goes with a reported error, or after its answer. -/
theorem Judged.leaves {env : Env} {error : ℤ} {c c₀ c₁ c₂ : Context} {head : Wrapper}
    {rest : List Wrapper} {m : Msg} (h : Judged env error m c₀ c₁) (herror : error ≠ errTimeout)
    (hstill : Still c c₀)
    (hmistake : Unmistaken c → Unmistaken c₀) (htagged : Tagged c) (hq : c₀.queue = head :: rest)
    (hm : SameMsg head.msg m) (hafter : Still (dropHead c₁ m error) c₂) : Left env c c₂ := by
  rcases h.left (hstill.tagged htagged) hq hm with ⟨hsame, -⟩ | ⟨hleave, -⟩
  · exact .inl (hstill.trans (hsame.trans hafter))
  · exact .inr ⟨_, _, _, herror, hleave.settle hstill hmistake hafter⟩

/-- A context with the same queue and slot mistakes the same requests. -/
theorem unmistaken_of_head {c c' : Context} (hraw : c'.raw = c.raw) {wrapper wrapper' : Wrapper}
    {rest : List Wrapper} (hq : c.queue = wrapper :: rest) (hq' : c'.queue = wrapper' :: rest)
    (hflags : wrapper'.flags = wrapper.flags) (hm : SameMsg wrapper.msg wrapper'.msg)
    (h : Unmistaken c) : Unmistaken c' := by
  have hpending : ∀ m, rawPending c' m = rawPending c m := by
    intro m
    unfold rawPending
    rw [hraw]
  intro w hw hpoll
  rw [hpending]
  rw [hq'] at hw
  unfold Unmistaken at h
  rw [hq] at h
  rcases List.mem_cons.1 hw with rfl | hw
  · rw [rawPending_congr c hm]
    exact h wrapper (List.mem_cons_self ..) (hflags ▸ hpoll)
  · exact h w (List.mem_cons_of_mem _ hw) hpoll

theorem handleMsg_left {c₀ c : Context} (hstill : Still c₀ c)
    (hmistake : Unmistaken c₀ → Unmistaken c) (htagged : Tagged c₀) {wrapper : Wrapper}
    {rest : List Wrapper} (hq : c.queue = wrapper :: rest) (env : Env) :
    Left env c₀ (handleMsg c wrapper env).2 := by
  have hreader : ∀ reader, SameMsg wrapper.msg { wrapper.msg with reader := reader } :=
    fun _ => ⟨rfl, rfl, rfl⟩
  rcases handleMsg_cases c wrapper env with
    ⟨rc, reader, -, -, hresult⟩ | ⟨reader, -, hresult⟩
  · rw [hresult]
    have hresynced : Still c (resynced c env) :=
      still_of_events [.flushed] rfl rfl rfl rfl rfl rfl rfl rfl rfl rfl
    refine (reportError_judged _ _ _ (rejectReason_ne_zero _ _) env).leaves
      (rejectReason_ne_timeout _ _) (hstill.trans hresynced)
      (fun h => ?_) htagged hq (hreader reader) (.refl _)
    exact unmistaken_of_head (c := c) rfl hq hq rfl (.refl _) (hmistake h)
  · rw [hresult]
    have htag := (hstill.tagged htagged).queue wrapper (by rw [hq]; exact List.mem_cons_self ..)
    have hanswer : Judged env 0 { wrapper.msg with reader := reader } c
        (reportAnswer c wrapper.flags { wrapper.msg with reader := reader } env) := by
      cases hflags : wrapper.flags with
      | post =>
        exact reportAnswer_post_judged c (m := { wrapper.msg with reader := reader })
          (htag.1 hflags) env
      | subscribe =>
        refine reportAnswer_poll_judged c (m := { wrapper.msg with reader := reader })
          (Nat.pos_of_ne_zero fun hzero => ?_) env
        rw [htag.2 hzero] at hflags
        cases hflags
    exact hanswer.leaves (by decide) hstill hmistake htagged hq (hreader reader) (.refl _)

theorem loopWriteRead_left {c : Context} (htagged : Tagged c) (revents : Revents) (env : Env) :
    Left env c (loopWriteRead c revents env).2 := by
  cases hq : c.queue with
  | nil =>
    unfold loopWriteRead
    rw [hq]
    dsimp only
    split_ifs
    · refine .of_still ?_
      exact still_settings rfl rfl rfl rfl rfl rfl rfl rfl hq.symm
    · exact .of_still (.refl c)
  | cons wrapper rest =>
    obtain ⟨hio, hmsg⟩ := handleWriteRead_moved c wrapper.msg revents env
    unfold loopWriteRead
    rw [hq]
    dsimp only
    generalize handleWriteRead c wrapper.msg revents env = s at hio hmsg
    -- the head is back in the queue, then the counters move
    have hqueued : Still c { s.ctx with queue := { wrapper with msg := s.msg } :: rest } :=
      still_head hio.still hq rfl hmsg
    have hback : ∀ (tx rx err : UInt32), Still c { s.ctx with
        queue := { wrapper with msg := s.msg } :: rest, tx := tx, rx := rx, err := err } :=
      fun tx rx err => hqueued.trans (still_settings rfl rfl rfl rfl rfl rfl rfl rfl rfl)
    have hraw : s.ctx.raw = c.raw := by
      obtain ⟨_, _, _, _, _, _, _, _, -, hctx⟩ := hio
      rw [hctx]
    have hmistake : ∀ (tx rx err : UInt32), Unmistaken c → Unmistaken { s.ctx with
        queue := { wrapper with msg := s.msg } :: rest, tx := tx, rx := rx, err := err } :=
      fun tx rx err => unmistaken_of_head hraw hq rfl rfl hmsg
    have hfails : ∀ (tx rx err : UInt32) {error : ℤ}, error ≠ 0 → error ≠ errTimeout → Left env c
        (dropHead (reportError { s.ctx with
          queue := { wrapper with msg := s.msg } :: rest, tx := tx, rx := rx, err := err }
            s.msg error env) s.msg error) := fun tx rx err _ herror hslow =>
      (reportError_judged _ s.msg _ herror env).leaves hslow (hback tx rx err)
        (hmistake tx rx err) htagged rfl (.refl _) (.refl _)
    split_ifs
    · exact handleMsg_left (hback (s.ctx.tx + 1) (s.ctx.rx + 1) s.ctx.err) (hmistake _ _ _) htagged
        rfl env
    · exact hfails s.ctx.tx s.ctx.rx (s.ctx.err + 1) (by decide) (by decide)
    · exact hfails s.ctx.tx s.ctx.rx s.ctx.err (rejectReason_ne_zero _ _)
        (rejectReason_ne_timeout _ _)
    · exact hfails s.ctx.tx s.ctx.rx (s.ctx.err + 1) (by decide) (by decide)
    · exact .of_still (hback s.ctx.tx s.ctx.rx s.ctx.err)

theorem timeOutHead_left {c : Context} (htagged : Tagged c) (env : Env) :
    Still c (timeOutHead c env) ∨ ∃ wrapper rest, c.queue = wrapper :: rest ∧
      TimesOut c wrapper env ∧ wrapper.flags = .subscribe ∧
      Leave env wrapper.msg.msgId wrapper.msg.serial errTimeout c (timeOutHead c env) := by
  cases hq : c.queue with
  | nil =>
    have hsame : timeOutHead c env = c := by
      unfold timeOutHead
      rw [hq]
    rw [hsame]
    exact .inl (.refl c)
  | cons wrapper rest =>
    have hstamp : SameMsg wrapper.msg (stampHead wrapper (env.clock .head)).msg := by
      rw [stampHead_msg]
      exact .refl _
    have hstamped : Still c { c with queue := stampHead wrapper (env.clock .head) :: rest } :=
      still_head (.refl c) hq (stampHead_flags ..) hstamp
    rw [timeOutHead_cons hq]
    split_ifs with hout
    · have hmistake : Unmistaken c → Unmistaken
          { c with queue := stampHead wrapper (env.clock .head) :: rest } :=
        unmistaken_of_head rfl hq rfl (stampHead_flags ..) hstamp
      have hcount : ∀ c₁ : Context, Still c₁
          { flush (countTimeout c₁ wrapper.msg.writer (env.clock .head)) env with
            resyncPending := true } := by
        intro c₁
        unfold countTimeout
        split_ifs <;> exact still_of_events [.flushed] rfl rfl rfl rfl rfl rfl rfl rfl rfl rfl
      have hsame : SameMsg (stampHead wrapper (env.clock .head)).msg wrapper.msg := by
        rw [stampHead_msg]
        exact .refl _
      rcases (reportError_judged { c with queue := stampHead wrapper (env.clock .head) :: rest }
        wrapper.msg errTimeout (by decide) env).left (hstamped.tagged htagged) rfl hsame
          with ⟨hsame, -⟩ | ⟨hleave, hflags⟩
      · exact .inl (hstamped.trans (hsame.trans (hcount _)))
      · rw [stampHead_flags] at hflags
        exact .inr ⟨wrapper, rest, rfl, hout, hflags, hleave.settle hstamped hmistake (hcount _)⟩
    · exact .inl hstamped

def timerKeys (timers : List Timer) : List (ℕ × ℕ) := timers.map fun t => (t.timerId, t.slave)

theorem timerKeys_fst (timers : List Timer) :
    (timerKeys timers).map Prod.fst = timers.map (·.timerId) := List.map_map

theorem timerIds_congr {timers timers' : List Timer} (h : timerKeys timers' = timerKeys timers) :
    timers'.map (·.timerId) = timers.map (·.timerId) := by
  rw [← timerKeys_fst, h, timerKeys_fst]

theorem timerKeys_map {timers : List Timer} {f : Timer → Timer}
    (hf : ∀ t, ((f t).timerId, (f t).slave) = (t.timerId, t.slave)) :
    timerKeys (timers.map f) = timerKeys timers := by
  unfold timerKeys
  rw [List.map_map]
  exact List.map_congr_left fun t _ => hf t

theorem slaveUpdate_keys (c : Context) (timerId : ℕ) (answered : Bool) (env : Env) :
    timerKeys (slaveUpdate c timerId answered env).timers = timerKeys c.timers := by
  have hsettle : ∀ now slave misses unresponsive retryMs,
      timerKeys (c.timers.map (slaveSettle now slave misses unresponsive retryMs)) =
        timerKeys c.timers := by
    intro now slave misses unresponsive retryMs
    refine timerKeys_map fun t => ?_
    unfold slaveSettle
    split_ifs <;> rfl
  unfold slaveUpdate
  dsimp only
  split
  · rfl
  · split_ifs
    · exact hsettle ..
    · rfl
    · exact hsettle ..
    · refine timerKeys_map fun t => ?_
      split_ifs <;> rfl
    · exact hsettle ..

theorem judge_keys (c : Context) (timerId : ℕ) (env : Env) (verdict : Verdict) :
    timerKeys (judge c timerId env verdict).timers = timerKeys c.timers := by
  cases verdict with
  | answered =>
    have hdone : timerKeys (onceDone (slaveUpdate c timerId true env) timerId).timers =
        timerKeys (slaveUpdate c timerId true env).timers := by
      unfold onceDone
      split
      · rfl
      · refine timerKeys_map fun t => ?_
        split_ifs <;> rfl
    exact hdone.trans (slaveUpdate_keys ..)
  | excepted => exact slaveUpdate_keys ..
  | missed => exact slaveUpdate_keys ..
  | dropped => rfl

theorem perm_insert_split {α : Type*} (p : α → Bool) (xs : List α) (x : α) :
    (xs.takeWhile p ++ x :: xs.dropWhile p).Perm (x :: xs) := by
  refine List.perm_middle.trans ?_
  rw [List.takeWhile_append_dropWhile]

theorem insertTimer_keys (mode : QueryMode) (timers : List Timer) (timer : Timer) :
    (timerKeys (insertTimer mode timers timer)).Perm (timerKeys (timer :: timers)) := by
  cases timers with
  | nil => exact .refl _
  | cons head rest =>
    unfold insertTimer
    dsimp only
    split_ifs
    · exact .refl _
    · cases mode with
      | rounds => exact (List.perm_append_singleton timer (head :: rest)).map _
      | parallell =>
        dsimp only
        unfold insertParallel
        exact (perm_insert_split ..).map _
      | series =>
        dsimp only
        unfold insertSeries
        refine (List.Perm.of_eq (timerKeys_map fun t => ?_)).trans
          ((List.perm_append_singleton _ (head :: rest)).map _)
        split_ifs <;> rfl

/-- The timers and their numbers are as before. -/
structure SameNumbers (c c' : Context) : Prop where
  config : c'.config = c.config
  timerIdNext : c'.timerIdNext = c.timerIdNext
  keys : timerKeys c'.timers = timerKeys c.timers
  tagged : Tagged c → Tagged c'

theorem SameNumbers.refl (c : Context) : SameNumbers c c := ⟨rfl, rfl, rfl, id⟩

theorem SameNumbers.trans {c₁ c₂ c₃ : Context} (h : SameNumbers c₁ c₂) (h' : SameNumbers c₂ c₃) :
    SameNumbers c₁ c₃ :=
  ⟨h'.config.trans h.config, h'.timerIdNext.trans h.timerIdNext, h'.keys.trans h.keys,
    h'.tagged ∘ h.tagged⟩

theorem Still.sameNumbers {c c' : Context} (h : Still c c') : SameNumbers c c' :=
  ⟨h.config, h.timerIdNext, by rw [h.timers], h.tagged⟩

theorem Leave.sameNumbers {env : Env} {timerId serial : ℕ} {error : ℤ} {c c' : Context}
    (h : Leave env timerId serial error c c') : SameNumbers c c' := by
  obtain ⟨verdict, htimers, -⟩ := h.judged
  refine ⟨h.config, h.timerIdNext, ?_, h.tagged⟩
  rw [htimers, judge_keys]

/-- The timers have different numbers, and the next number is unused. -/
structure TimersNumbered (c : Context) : Prop where
  tagged : Tagged c
  distinct : (c.timers.map (·.timerId)).Nodup
  bounded : ∀ t ∈ c.timers, t.timerId ≤ c.timerIdNext

theorem TimersNumbered.congr {c c' : Context} (h : TimersNumbered c) (hsame : SameNumbers c c') :
    TimersNumbered c' := by
  have hids := timerIds_congr hsame.keys
  refine ⟨hsame.tagged h.tagged, hids ▸ h.distinct, fun t ht => ?_⟩
  have hmem := List.mem_map_of_mem (f := fun t : Timer => t.timerId) ht
  rw [hids] at hmem
  obtain ⟨s, hs, hid⟩ := List.mem_map.1 hmem
  rw [hsame.timerIdNext, ← hid]
  exact h.bounded s hs

theorem TimersNumbered.insertTimer {c c' : Context} (h : TimersNumbered c) (htagged : Tagged c')
    {mode : QueryMode} {timer : Timer} (hid : timer.timerId = c.timerIdNext + 1)
    (htimers : c'.timers = Modbusmq.insertTimer mode c.timers timer)
    (hnext : c'.timerIdNext = c.timerIdNext + 1) : TimersNumbered c' := by
  have hids : (c'.timers.map (·.timerId)).Perm (timer.timerId :: c.timers.map (·.timerId)) := by
    have hperm := (insertTimer_keys mode c.timers timer).map Prod.fst
    rw [timerKeys_fst, timerKeys_fst, ← htimers] at hperm
    exact hperm
  refine ⟨htagged, ?_, fun t ht => ?_⟩
  · rw [hids.nodup_iff, List.nodup_cons]
    refine ⟨fun hmem => ?_, h.distinct⟩
    obtain ⟨t, ht, hsame⟩ := List.mem_map.1 hmem
    have hle := h.bounded t ht
    omega
  · have hmem := hids.mem_iff.1 (List.mem_map_of_mem (f := fun t : Timer => t.timerId) ht)
    rw [hnext]
    rcases List.mem_cons.1 hmem with heq | hmem
    · rw [heq, hid]
    · obtain ⟨s, hs, hsame⟩ := List.mem_map.1 hmem
      rw [← hsame]
      exact (h.bounded s hs).trans (Nat.le_succ _)

def abandoned (polls : List (ℕ × ℕ)) : List PollEvent :=
  polls.map fun poll => .left poll.1 poll.2 errTransport

structure Emptied (c c' : Context) : Prop extends SameSettings c c' where
  timers : c'.timers = c.timers
  polls : queuedPolls c'.queue = []
  events : pollEvents c'.log = pollEvents c.log ++ abandoned (queuedPolls c.queue)

theorem Emptied.sameNumbers {c c' : Context} (h : Emptied c c') : SameNumbers c c' :=
  ⟨h.config, h.timerIdNext, by rw [h.timers], h.tagged⟩

theorem dropAll_emptied (env : Env) (queue : List Wrapper) {c : Context} (htagged : Tagged c)
    (hq : c.queue = queue) : Emptied c (dropAll env queue c) := by
  induction queue generalizing c with
  | nil =>
    refine ⟨.refl c, rfl, ?_, ?_⟩
    · change queuedPolls c.queue = []
      rw [hq]
      rfl
    · rw [hq]
      exact (List.append_nil _).symm
  | cons wrapper rest ih =>
    have hsame : ({ c with queue := wrapper :: rest } : Context) = c := by rw [← hq]
    have hjudged := reportError_judged c wrapper.msg errTransport (by decide) env
    have hleft := hjudged.left htagged hq (.refl _)
    have hrest : (dropHead (reportError c wrapper.msg errTransport env) wrapper.msg
        errTransport).queue = rest := by
      change (reportError c wrapper.msg errTransport env).queue.tail = rest
      rw [hjudged.queue, hq]
      rfl
    unfold dropAll
    rw [hsame]
    rcases hleft with ⟨hstill, hflags⟩ | ⟨hleave, hflags⟩
    · have hall := ih (hstill.tagged htagged) hrest
      refine ⟨hstill.toSameSettings.trans hall.toSameSettings, hall.timers.trans hstill.timers,
        hall.polls, ?_⟩
      rw [hall.events, hstill.events, hstill.polls]
    · have hall := ih (hleave.tagged htagged) hrest
      refine ⟨hleave.toSameSettings.trans hall.toSameSettings, hall.timers.trans ?_, hall.polls, ?_⟩
      · -- a lost connection says nothing about a slave
        obtain ⟨verdict, htimers, hverdict⟩ := hleave.judged
        have hdropped : verdict = .dropped := by
          rcases hverdict with hverdict | hverdict
          · exact hverdict
          · exact hverdict.1
        rw [htimers, hdropped]
        rfl
      · rw [hall.events, hleave.events, hleave.polls, List.append_assoc]
        rfl

/-- The due times of once timers change, and nothing else. -/
def Rearms (timers timers' : List Timer) : Prop :=
  List.Forall₂ (fun t t' => ∃ next, t' = { t with timerNextTime := next } ∧
    (t'.timerNextTime ≠ t.timerNextTime → t.isOnce)) timers timers'

theorem onceRearm_rearms (c : Context) (env : Env) : Rearms c.timers (onceRearm c env).timers := by
  refine List.forall₂_iff_get.2 ⟨(List.length_mapIdx).symm, fun i hi hi' => ?_⟩
  simp only [onceRearm, List.get_eq_getElem, List.getElem_mapIdx]
  split_ifs with honce
  · exact ⟨_, rfl, fun _ => honce⟩
  · exact ⟨c.timers[i].timerNextTime, rfl, fun h => absurd rfl h⟩

theorem onceRearm_settings (c : Context) (env : Env) : SameSettings c (onceRearm c env) := by
  refine ⟨rfl, rfl, rfl, rfl, rfl, rfl, fun h => ⟨fun t ht => ?_, h.queue⟩⟩
  obtain ⟨i, hi, rfl⟩ := List.mem_mapIdx.1 ht
  have hid := h.timers c.timers[i] (List.getElem_mem hi)
  split_ifs <;> exact hid

theorem queuedPolls_enqueue_post (queue : List Wrapper) {wrapper : Wrapper}
    (hflags : wrapper.flags = .post) : queuedPolls (enqueue queue wrapper) = queuedPolls queue := by
  have hnone : decide (wrapper.flags = .subscribe) = false := by
    rw [hflags]
    rfl
  unfold enqueue queuedPolls
  cases queue with
  | nil =>
    dsimp only
    rw [List.filter_cons_of_neg (by rw [hnone]; decide)]
  | cons head rest =>
    rw [hflags]
    dsimp only
    rw [List.filter_cons, List.filter_cons, List.filter_append,
      List.filter_cons_of_neg (by rw [hnone]; decide), ← List.filter_append,
      List.takeWhile_append_dropWhile]

theorem post_still (c : Context) (writer : Frame .writer) {c' : Context}
    (h : c' = { post c writer with raw := c'.raw }) : Still c c' := by
  have hmsg : ∀ (t : Transport) (transactionId : ℕ) (m : Msg),
      (preparedMsg t transactionId m).msgId = m.msgId := by
    intro t transactionId m
    cases t <;> rfl
  rw [h]
  refine ⟨⟨rfl, rfl, rfl, rfl, rfl, rfl, fun ht => ⟨ht.timers, fun w hw => ?_⟩⟩, rfl,
    queuedPolls_enqueue_post _ rfl, ?_⟩
  · change w ∈ enqueue c.queue _ at hw
    rcases mem_enqueue.1 hw with hw | rfl
    · exact ht.queue w hw
    · refine ⟨fun _ => ?_, fun _ => rfl⟩
      exact hmsg ..
  · exact (pollEvents_append ..).trans (List.append_nil _)

/-- A call that leaves the schedule alone. -/
def Call.Aside : Call → Prop
  | .post _ _ | .raw _ _ | .focus _ | .connect _ | .close | .arrive _ => True
  | .subscribe _ _ _ | .prepare _ | .writeRead _ | .reset | .rearm | .configure _ _ _ => False

theorem Call.still {c : Context} (call : Call) (h : call.Aside) (env : Env) :
    Still c (call.perform c env) := by
  cases call with
  | post slaveId request =>
    change Still c (postRequest c slaveId request)
    have hslave : Still c (setSlave c slaveId) := still_settings rfl rfl rfl rfl rfl rfl rfl rfl rfl
    unfold postRequest
    split
    · exact hslave.trans (post_still (setSlave c slaveId) _ rfl)
    · exact hslave
  | raw text stray =>
    change Still c (rawRequest c text stray).2
    unfold rawRequest
    dsimp only
    split
    · exact still_of_events [.refused _] rfl rfl rfl rfl rfl rfl rfl rfl rfl rfl
    · exact post_still c _ rfl
  | focus slave =>
    change Still c (setFocus c slave).2
    unfold setFocus
    split
    · exact .refl c
    · split_ifs
      all_goals
        first | exact .refl c | exact still_settings rfl rfl rfl rfl rfl rfl rfl rfl rfl
  | connect opened =>
    change Still c (Modbusmq.connect c opened).2
    unfold Modbusmq.connect
    split_ifs
    · exact still_of_events [.connected] rfl rfl rfl rfl rfl rfl rfl rfl rfl rfl
    · exact .refl c
  | close => exact still_settings rfl rfl rfl rfl rfl rfl rfl rfl rfl
  | arrive bytes => exact still_settings rfl rfl rfl rfl rfl rfl rfl rfl rfl
  | _ => exact h.elim

end Modbusmq
