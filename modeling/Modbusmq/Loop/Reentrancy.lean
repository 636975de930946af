import Modbusmq.Loop.Accounting
import Modbusmq.Loop.Callbacks
import Modbusmq.Loop.Rounds

/-!
# Posting from inside a callback

What the library keeps when its callbacks post: the raw slot is only occupied
while the request it waits for is queued, and no posted request disappears
unreported. Both hold of every call except `modbusmq_reset_queue`, which cuts
off what was inserted behind its walk.
-/

namespace Modbusmq.Reentrant

/-- The raw slot is occupied only if the queue holds the request it records. -/
def RawHeld (c : Context) : Prop :=
  ∀ slot, c.raw = some slot → ∃ w ∈ c.queue, w.flags = .post ∧ w.msg.reqId = slot.reqId

def RawBehind (c : Context) : Prop :=
  ∀ slot, c.raw = some slot → ∃ w ∈ c.queue.tail, w.flags = .post ∧ w.msg.reqId = slot.reqId

/-- A posted request is in the queue. -/
def Waiting (c : Context) (serial : ℕ) : Prop :=
  ∃ w ∈ c.queue, w.flags = .post ∧ w.msg.serial = serial

/-- The application was told about a request. -/
def Told (c : Context) (serial : ℕ) : Prop :=
  ∃ m report, .reported m report ∈ c.log ∧ m.serial = serial

/-- No posted request disappears unreported between two contexts. -/
structure Accounts (c c' : Context) : Prop where
  messageCb : c'.messageCb = c.messageCb
  errorCb : c'.errorCb = c.errorCb
  log : ∃ δ, c'.log = c.log ++ δ
  waiting : ∀ serial, Waiting c serial → Waiting c' serial ∨ Told c' serial
  posted : ∀ m, .posted .post m ∈ c'.log →
    .posted .post m ∈ c.log ∨ Waiting c' m.serial ∨ Told c' m.serial

/-- A step that neither posts a request of the application nor lets one leave. -/
structure Untouched (c c' : Context) : Prop where
  raw : c'.raw = c.raw
  messageCb : c'.messageCb = c.messageCb
  errorCb : c'.errorCb = c.errorCb
  kept : ∀ w ∈ c.queue, w.flags = .post → ∃ w' ∈ c'.queue, w'.flags = .post ∧
    w'.msg.reqId = w.msg.reqId ∧ w'.msg.serial = w.msg.serial
  log : ∃ δ, c'.log = c.log ++ δ ∧ ∀ m, .posted .post m ∉ δ

/-- What a callback may do: the head stays the head. -/
structure Enters (c c' : Context) : Prop extends Accounts c c' where
  rawHeld : RawHeld c → RawHeld c'
  behind : ∀ head rest, c.queue = head :: rest → ∃ rest', c'.queue = head :: rest' ∧
    (RawBehind c → RawBehind c') ∧
      ∀ next, rest.head? = some next → next.flags = .post → rest'.head? = some next

theorem Accounts.refl (c : Context) : Accounts c c :=
  ⟨rfl, rfl, ⟨[], (List.append_nil _).symm⟩, fun _ => .inl, fun _ => .inl⟩

theorem Told.mono {c c' : Context} {serial : ℕ} (h : Told c serial)
    (hlog : ∃ δ, c'.log = c.log ++ δ) : Told c' serial := by
  obtain ⟨m, report, hmem, hserial⟩ := h
  obtain ⟨δ, hδ⟩ := hlog
  exact ⟨m, report, hδ ▸ List.mem_append_left _ hmem, hserial⟩

theorem Accounts.trans {c₁ c₂ c₃ : Context} (h : Accounts c₁ c₂) (h' : Accounts c₂ c₃) :
    Accounts c₁ c₃ := by
  obtain ⟨δ, hlog⟩ := h.log
  obtain ⟨δ', hlog'⟩ := h'.log
  have hlater : ∀ serial, Waiting c₂ serial ∨ Told c₂ serial →
      Waiting c₃ serial ∨ Told c₃ serial := by
    rintro serial (hwaiting | htold)
    · exact h'.waiting serial hwaiting
    · exact .inr (htold.mono h'.log)
  refine ⟨h'.messageCb.trans h.messageCb, h'.errorCb.trans h.errorCb,
    ⟨δ ++ δ', by rw [hlog', hlog, List.append_assoc]⟩,
    fun serial hwaiting => hlater serial (h.waiting serial hwaiting), fun m hm => ?_⟩
  rcases h'.posted m hm with hold | hsettled
  · rcases h.posted m hold with hold | hsettled
    · exact .inl hold
    · exact .inr (hlater _ hsettled)
  · exact .inr hsettled

theorem Untouched.accounts {c c' : Context} (h : Untouched c c') : Accounts c c' := by
  obtain ⟨δ, hlog, hδ⟩ := h.log
  refine ⟨h.messageCb, h.errorCb, ⟨δ, hlog⟩, fun serial hwaiting => .inl ?_, fun m hm => .inl ?_⟩
  · obtain ⟨w, hw, hflags, hserial⟩ := hwaiting
    obtain ⟨w', hw', hflags', -, hserial'⟩ := h.kept w hw hflags
    exact ⟨w', hw', hflags', hserial'.trans hserial⟩
  · rw [hlog] at hm
    rcases List.mem_append.1 hm with hm | hm
    · exact hm
    · exact absurd hm (hδ m)

theorem Untouched.rawHeld {c c' : Context} (h : Untouched c c') (hc : RawHeld c) :
    RawHeld c' := by
  intro slot hslot
  obtain ⟨w, hw, hflags, hid⟩ := hc slot (h.raw ▸ hslot)
  obtain ⟨w', hw', hflags', hid', -⟩ := h.kept w hw hflags
  exact ⟨w', hw', hflags', hid'.trans hid⟩

theorem Untouched.trans {c₁ c₂ c₃ : Context} (h : Untouched c₁ c₂) (h' : Untouched c₂ c₃) :
    Untouched c₁ c₃ := by
  obtain ⟨δ, hlog, hδ⟩ := h.log
  obtain ⟨δ', hlog', hδ'⟩ := h'.log
  refine ⟨h'.raw.trans h.raw, h'.messageCb.trans h.messageCb, h'.errorCb.trans h.errorCb,
    fun w hw hflags => ?_, δ ++ δ', by rw [hlog', hlog, List.append_assoc], fun m hm => ?_⟩
  · obtain ⟨w', hw', hflags', hid, hserial⟩ := h.kept w hw hflags
    obtain ⟨w'', hw'', hflags'', hid', hserial'⟩ := h'.kept w' hw' hflags'
    exact ⟨w'', hw'', hflags'', hid'.trans hid, hserial'.trans hserial⟩
  · rcases List.mem_append.1 hm with hm | hm
    · exact hδ m hm
    · exact hδ' m hm

/-- A change of other fields, and events that are not posts. -/
theorem untouched_of_queue {c c' : Context} (hraw : c'.raw = c.raw)
    (hm : c'.messageCb = c.messageCb) (he : c'.errorCb = c.errorCb) (hqueue : c.queue ⊆ c'.queue)
    (hlog : ∃ δ, c'.log = c.log ++ δ ∧ ∀ m, .posted .post m ∉ δ) : Untouched c c' :=
  ⟨hraw, hm, he, fun w hw hflags => ⟨w, hqueue hw, hflags, rfl, rfl⟩, hlog⟩

theorem noPosts (log : List Event) : ∃ δ, log = log ++ δ ∧ ∀ m, .posted .post m ∉ δ :=
  ⟨[], (List.append_nil _).symm, by simp⟩

theorem Untouched.refl (c : Context) : Untouched c c :=
  untouched_of_queue rfl rfl rfl (List.Subset.refl _) (noPosts _)

theorem untouched_note (c : Context) {e : Event} (h : ∀ m, e ≠ .posted .post m) :
    Untouched c (c.note e) :=
  untouched_of_queue rfl rfl rfl (List.Subset.refl _)
    ⟨[e], rfl, fun m hm => h m (List.mem_singleton.1 hm).symm⟩

theorem slaveUpdate_untouched (c : Context) (timerId : ℕ) (answered : Bool) (env : Env) :
    Untouched c (slaveUpdate c timerId answered env) := by
  unfold slaveUpdate
  dsimp only
  split
  · exact .refl c
  · split_ifs
    all_goals
      first
      | exact .refl c
      | exact untouched_of_queue rfl rfl rfl (List.Subset.refl _) (noPosts _)

theorem onceDone_untouched (c : Context) (timerId : ℕ) : Untouched c (onceDone c timerId) := by
  unfold onceDone
  split
  · exact .refl c
  · exact untouched_of_queue rfl rfl rfl (List.Subset.refl _) (noPosts _)

theorem postInternal_subscribe (c : Context) (m : Msg) :
    Untouched c (postInternal c m .subscribe) :=
  untouched_of_queue rfl rfl rfl (fun _ hw => mem_enqueue.2 (.inl hw)) ⟨_, rfl, by simp⟩

theorem gatePost_untouched (c : Context) (timer : Timer) (now : Millitime) (i : ℕ) :
    Untouched c (gatePost c timer now i) := by
  have hgate : Untouched c (slaveGate c timer now).2 := by
    unfold slaveGate
    split_ifs
    all_goals
      first
      | exact .refl c
      | exact untouched_of_queue rfl rfl rfl (List.Subset.refl _) (noPosts _)
  unfold gatePost postTimer
  split_ifs
  · split
    · exact hgate
    · exact hgate.trans ((postInternal_subscribe _ _).trans
        (untouched_of_queue rfl rfl rfl (List.Subset.refl _) (noPosts _)))
  · exact hgate

theorem ScheduleStep.untouched {env : Env} {c c' : Context} (h : ScheduleStep env c c') :
    Untouched c c' := by
  cases h with
  | books => exact untouched_of_queue rfl rfl rfl (List.Subset.refl _) (noPosts _)
  | due =>
    exact (gatePost_untouched c _ _ _).trans
      (untouched_of_queue rfl rfl rfl (List.Subset.refl _) (noPosts _))
  | turn => exact gatePost_untouched c _ _ _

theorem ScheduleSteps.untouched {env : Env} {c c' : Context} (h : ScheduleSteps env c c') :
    Untouched c c' := by
  induction h with
  | refl => exact .refl c
  | tail _ hstep ih => exact ih.trans (ScheduleStep.untouched hstep)

theorem loopPrepareSubscription_untouched (c : Context) (sleepTime : Millitime) (env : Env) :
    Untouched c (loopPrepareSubscription c sleepTime env).ctx :=
  ScheduleSteps.untouched (loopPrepareSubscription_schedule c sleepTime env)

/-- Serving the head keeps the identity of its message. -/
structure Serves (c : Context) (m : Msg) (s : WriteRead) : Prop extends Untouched c s.ctx where
  queue : s.ctx.queue = c.queue
  reqId : s.msg.reqId = m.reqId
  serial : s.msg.serial = m.serial

theorem finish_serves {c c' : Context} {m m' : Msg} (rc : ℤ) (h : Untouched c c')
    (hqueue : c'.queue = c.queue) (hid : m'.reqId = m.reqId) (hserial : m'.serial = m.serial) :
    Serves c m (finish rc c' m') := by
  unfold finish
  split_ifs <;> exact ⟨h, hqueue, hid, hserial⟩

theorem beforeWrite_untouched (c : Context) (m : Msg) (env : Env) :
    Untouched c (beforeWrite c m env) ∧ (beforeWrite c m env).queue = c.queue := by
  unfold beforeWrite
  dsimp only
  split_ifs
  · exact ⟨untouched_of_queue rfl rfl rfl (List.Subset.refl _) ⟨[.flushed], rfl, by simp⟩, rfl⟩
  · exact ⟨untouched_of_queue rfl rfl rfl (List.Subset.refl _) (noPosts _), rfl⟩

theorem writeHalf_serves (c : Context) (m : Msg) (env : Env) :
    Serves c m (writeHalf c m env) := by
  obtain ⟨hbefore, hqueue⟩ := beforeWrite_untouched c m env
  unfold writeHalf
  split_ifs
  · exact ⟨.refl c, rfl, rfl, rfl⟩
  · have hwrite : Untouched c (writeFrame (beforeWrite c m env) m env).ctx ∧
        (writeFrame (beforeWrite c m env) m env).ctx.queue = c.queue ∧
        (writeFrame (beforeWrite c m env) m env).msg.reqId = m.reqId ∧
        (writeFrame (beforeWrite c m env) m env).msg.serial = m.serial := by
      unfold writeFrame
      split_ifs
      · exact ⟨hbefore, hqueue, rfl, rfl⟩
      · exact ⟨hbefore.trans (untouched_note _ (by simp)), hqueue, rfl, rfl⟩
    generalize writeFrame (beforeWrite c m env) m env = s at hwrite
    obtain ⟨huntouched, hqueue, hid, hserial⟩ := hwrite
    dsimp only
    split_ifs
    · exact ⟨huntouched.trans (untouched_of_queue rfl rfl rfl (List.Subset.refl _) (noPosts _)),
        hqueue, hid, hserial⟩
    · exact ⟨huntouched, hqueue, hid, hserial⟩
    · exact finish_serves _ huntouched hqueue hid hserial
    · exact finish_serves _ huntouched hqueue hid hserial

theorem readFrame_untouched (c : Context) (r : Frame .reader) (env : Env) :
    Untouched c (readFrame c r env).ctx ∧ (readFrame c r env).ctx.queue = c.queue := by
  have hwindow : ∀ r, Untouched c (readWindow c r env).ctx ∧
      (readWindow c r env).ctx.queue = c.queue := fun r =>
    ⟨untouched_of_queue rfl rfl rfl (List.Subset.refl _)
      ⟨[.read r.xmit r.window], rfl, by simp⟩, rfl⟩
  have hrefine : ∀ s : ReadStep, (tcpRefineLength s).ctx = s.ctx := by
    intro s
    unfold tcpRefineLength
    split_ifs <;> rfl
  unfold readFrame
  split
  · unfold tcpRead tcpReadSized
    split_ifs
    · exact ⟨.refl c, rfl⟩
    · split
      · rw [hrefine]
        exact hwindow _
      all_goals exact hwindow _
    · exact ⟨.refl c, rfl⟩
    · split
      · rw [hrefine]
        exact hwindow _
      all_goals exact hwindow _
  · exact hwindow _

theorem readHalf_serves (c : Context) (m : Msg) (env : Env) : Serves c m (readHalf c m env) := by
  obtain ⟨hread, hqueue⟩ := readFrame_untouched { c with lastReadMs := env.clock .stamp } m.reader env
  have hstamp : Untouched c { c with lastReadMs := env.clock .stamp } :=
    untouched_of_queue rfl rfl rfl (List.Subset.refl _) (noPosts _)
  have hall := hstamp.trans hread
  unfold readHalf
  generalize readFrame { c with lastReadMs := env.clock .stamp } m.reader env = s at hqueue hall
  dsimp only
  split_ifs
  · exact ⟨hall.trans (untouched_of_queue rfl rfl rfl (List.Subset.refl _) (noPosts _)), hqueue,
      rfl, rfl⟩
  · unfold headerMismatch
    dsimp only
    split_ifs
    · exact ⟨hall, hqueue, rfl, rfl⟩
    · exact finish_serves _ hall hqueue rfl rfl
    · exact finish_serves _ hall hqueue rfl rfl
    · exact ⟨hall.trans (untouched_of_queue rfl rfl rfl (List.Subset.refl _)
        ⟨[.flushed], rfl, by simp⟩), hqueue, rfl, rfl⟩
  · exact finish_serves _ hall hqueue rfl rfl
  · exact finish_serves _ hall hqueue rfl rfl

theorem handleWriteRead_serves (c : Context) (m : Msg) (revents : Revents) (env : Env) :
    Serves c m (handleWriteRead c m revents env) := by
  unfold handleWriteRead
  split_ifs
  · exact writeHalf_serves c m env
  · exact finish_serves _ (.refl c) rfl rfl rfl
  · exact readHalf_serves c m env
  · exact finish_serves _ (.refl c) rfl rfl rfl
  · exact ⟨.refl c, rfl, rfl, rfl⟩

theorem enqueue_post_cons (head : Wrapper) (rest : List Wrapper) {wrapper : Wrapper}
    (hflags : wrapper.flags = .post) :
    ∃ rest', enqueue (head :: rest) wrapper = head :: rest' ∧
      (∀ w, w ∈ rest' ↔ w ∈ rest ∨ w = wrapper) ∧
      ∀ next, rest.head? = some next → next.flags = .post → rest'.head? = some next := by
  obtain ⟨rest', henqueue, hmem⟩ := enqueue_cons head rest wrapper
  refine ⟨rest', henqueue, hmem, fun next hnext hpost => ?_⟩
  cases rest with
  | nil => cases hnext
  | cons first others =>
    obtain rfl : first = next := Option.some.inj hnext
    have hsame : rest' = (first :: others).takeWhile (·.flags = .post) ++
        wrapper :: (first :: others).dropWhile (·.flags = .post) := by
      have htail := congrArg List.tail henqueue
      unfold enqueue at htail
      rw [hflags] at htail
      exact htail.symm
    rw [hsame, List.takeWhile_cons_of_pos (by simpa using hpost)]
    rfl

theorem Enters.refl (c : Context) : Enters c c where
  toAccounts := .refl c
  rawHeld := id
  behind _ rest h := ⟨rest, h, id, fun _ hnext _ => hnext⟩

theorem Enters.trans {c₁ c₂ c₃ : Context} (h : Enters c₁ c₂) (h' : Enters c₂ c₃) :
    Enters c₁ c₃ where
  toAccounts := h.toAccounts.trans h'.toAccounts
  rawHeld := h'.rawHeld ∘ h.rawHeld
  behind head rest hq := by
    obtain ⟨rest', hq', hbehind, hnext⟩ := h.behind head rest hq
    obtain ⟨rest'', hq'', hbehind', hnext'⟩ := h'.behind head rest' hq'
    exact ⟨rest'', hq'', hbehind' ∘ hbehind, fun next hhead hpost =>
      hnext' next (hnext next hhead hpost) hpost⟩

/-- A request enters, and the raw slot is left alone or waits for this very request. -/
theorem postInternal_enters (c : Context) (m : Msg) {raw : Option RawSlot}
    (hraw : raw = c.raw ∨ ∃ slot, raw = some slot ∧ slot.reqId = nextReqId c.reqIdNext) :
    Enters c { postInternal c m .post with raw := raw } := by
  obtain ⟨wrapper, hqueue, hlog, hflags, hid, hserial⟩ : ∃ wrapper,
      (postInternal c m .post).queue = enqueue c.queue wrapper ∧
      (postInternal c m .post).log = c.log ++ [.posted .post wrapper.msg] ∧
      wrapper.flags = .post ∧ wrapper.msg.reqId = nextReqId c.reqIdNext ∧
      wrapper.msg.serial = c.serialNext :=
    ⟨_, rfl, rfl, rfl, preparedMsg_reqId .., preparedMsg_serial ..⟩
  have hentered : ∀ w, w ∈ (postInternal c m .post).queue ↔ w ∈ c.queue ∨ w = wrapper := by
    intro w
    rw [hqueue, mem_enqueue]
  have hslot : ∀ slot, raw = some slot → c.raw = some slot ∨ slot.reqId = nextReqId c.reqIdNext := by
    rintro slot hslot
    rcases hraw with rfl | ⟨slot', hsome, hid⟩
    · exact .inl hslot
    · exact .inr (Option.some.inj (hsome.symm.trans hslot) ▸ hid)
  refine ⟨⟨rfl, rfl, ⟨_, hlog⟩, fun serial hwaiting => .inl ?_, fun m' hm' => ?_⟩,
    fun hheld slot hsome => ?_, fun head rest hq => ?_⟩
  · obtain ⟨w, hw, hpost, hs⟩ := hwaiting
    exact ⟨w, (hentered w).2 (.inl hw), hpost, hs⟩
  · rw [show ({ postInternal c m .post with raw := raw } : Context).log = _ from hlog] at hm'
    rcases List.mem_append.1 hm' with hold | hnew
    · exact .inl hold
    · obtain ⟨-, rfl⟩ := Event.posted.inj (List.mem_singleton.1 hnew)
      exact .inr (.inl ⟨wrapper, (hentered _).2 (.inr rfl), hflags, rfl⟩)
  · rcases hslot slot hsome with hold | hnew
    · obtain ⟨w, hw, hpost, hs⟩ := hheld slot hold
      exact ⟨w, (hentered w).2 (.inl hw), hpost, hs⟩
    · exact ⟨wrapper, (hentered _).2 (.inr rfl), hflags, hid.trans hnew.symm⟩
  · obtain ⟨rest', henqueue, hmem, hnext⟩ := enqueue_post_cons head rest hflags
    have hqueue' : (postInternal c m .post).queue = head :: rest' := by
      rw [hqueue, hq, henqueue]
    refine ⟨rest', hqueue', fun hbehind slot hsome => ?_, hnext⟩
    rw [show ({ postInternal c m .post with raw := raw } : Context).queue = _ from hqueue']
    rcases hslot slot hsome with hold | hnew
    · obtain ⟨w, hw, hpost, hs⟩ := hbehind slot hold
      rw [hq] at hw
      exact ⟨w, (hmem w).2 (.inl hw), hpost, hs⟩
    · exact ⟨wrapper, (hmem _).2 (.inr rfl), hflags, hid.trans hnew.symm⟩

/-- A change of fields that concern neither the queue nor the slot. -/
theorem enters_of_queue {c c' : Context} (hraw : c'.raw = c.raw)
    (hm : c'.messageCb = c.messageCb) (he : c'.errorCb = c.errorCb) (hqueue : c'.queue = c.queue)
    (hlog : ∃ δ, c'.log = c.log ++ δ ∧ ∀ m, .posted .post m ∉ δ) : Enters c c' where
  toAccounts := (untouched_of_queue hraw hm he (fun _ h => hqueue ▸ h) hlog).accounts
  rawHeld := (untouched_of_queue hraw hm he (fun _ h => hqueue ▸ h) hlog).rawHeld
  behind head rest hq := by
    refine ⟨rest, hqueue.trans hq, fun hbehind slot hslot => ?_, fun _ hnext _ => hnext⟩
    rw [hqueue]
    exact hbehind slot (hraw ▸ hslot)

theorem Posting.perform_enters (posting : Posting) (c : Context) :
    Enters c (posting.perform c).2 := by
  cases posting with
  | post slaveId request =>
    change Enters c (postRequest c slaveId request)
    have hslave : Enters c (setSlave c slaveId) := enters_of_queue rfl rfl rfl rfl (noPosts _)
    unfold postRequest
    split
    · exact hslave.trans (postInternal_enters (setSlave c slaveId) _ (.inl rfl))
    · exact hslave
  | raw text stray =>
    change Enters c (rawRequest c text stray).2
    unfold rawRequest
    dsimp only
    split
    · exact enters_of_queue rfl rfl rfl rfl ⟨[.refused _], rfl, by simp⟩
    · exact postInternal_enters c _ (.inr ⟨_, rfl, rfl⟩)

theorem Reaction.run_enters (reaction : Reaction) (c : Context) : Enters c (reaction.run c) := by
  induction reaction generalizing c with
  | done => exact .refl c
  | posts posting refused next hrefused hnext =>
    have hposted := Posting.perform_enters posting c
    change Enters c (next.run (if (posting.perform c).1 < 0 then refused.run (posting.perform c).2
      else (posting.perform c).2))
    split_ifs
    · exact hposted.trans ((hrefused _).trans (hnext _))
    · exact hposted.trans (hnext _)

theorem react_enters (rs : Reactions) (before c : Context) : Enters c (react rs before c) := by
  unfold react
  split_ifs
  · exact Reaction.run_enters _ c
  · exact .refl c

/-- A context that has told the application about a message: the slot that waited for it is
free. -/
structure Tells (m : Msg) (c c' : Context) : Prop extends Accounts c c' where
  queue : c'.queue = c.queue
  raw : c'.raw = if (rawPending c m).isSome then none else c.raw
  report : ∃ report, .reported m report ∈ c'.log

theorem rawPending_none {c : Context} {m : Msg} (h : rawPending c m = none) {slot : RawSlot}
    (hslot : c.raw = some slot) : m.reqId ≠ slot.reqId := by
  intro hsame
  unfold rawPending at h
  rw [hslot, Option.filter_some, if_pos (by simpa using hsame)] at h
  cases h

theorem tells_note {c c₁ : Context} {m : Msg} (h : Untouched c c₁) (hqueue : c₁.queue = c.queue)
    (hpending : rawPending c m = none) (report : Report) :
    Tells m c (c₁.note (.reported m report)) := by
  refine ⟨(h.trans (untouched_note c₁ (by simp))).accounts, hqueue, ?_, report,
    List.mem_append_right _ (List.mem_singleton_self _)⟩
  rw [hpending]
  exact h.raw

theorem rawReply_tells {c : Context} {slot : RawSlot} {m : Msg}
    (hpending : rawPending c m = some slot) (result : String) :
    Tells m c (rawReply c slot m result) := by
  refine ⟨⟨rfl, rfl, ⟨_, rfl⟩, fun _ => .inl, fun m' hm' => .inl ?_⟩, rfl, ?_, _,
    List.mem_append_right _ (List.mem_singleton_self _)⟩
  · rcases List.mem_append.1 hm' with hm' | hm'
    · exact hm'
    · exact absurd (List.mem_singleton.1 hm') (by simp)
  · rw [hpending]
    rfl

theorem slaveUpdate_queue (c : Context) (timerId : ℕ) (answered : Bool) (env : Env) :
    (slaveUpdate c timerId answered env).queue = c.queue :=
  (slaveUpdate_quiet c timerId answered env).queue

theorem reportError_tells {c : Context} (he : c.errorCb) (m : Msg) (error : ℤ) (env : Env) :
    Tells m c (Modbusmq.reportError c m error env) := by
  cases hpending : rawPending c m with
  | some slot =>
    unfold Modbusmq.reportError
    rw [hpending]
    exact rawReply_tells hpending _
  | none =>
    unfold Modbusmq.reportError
    rw [hpending]
    have hupdate := slaveUpdate_untouched c m.msgId (error = errException) env
    have hqueue := slaveUpdate_queue c m.msgId (error = errException) env
    dsimp only
    split_ifs with hcount hcb
    · exact tells_note hupdate hqueue hpending _
    · exact absurd (hupdate.errorCb ▸ he) hcb
    · exact tells_note (.refl c) rfl hpending _

/-- The head, once told about, may go: the slot does not wait for it. -/
theorem Tells.behind {c c' : Context} {m : Msg} (h : Tells m c c') (hc : RawHeld c)
    {head : Wrapper} {rest : List Wrapper} (hq : c.queue = head :: rest)
    (hid : m.reqId = head.msg.reqId) : RawBehind c' := by
  intro slot hslot
  rw [h.raw] at hslot
  cases hpending : rawPending c m with
  | some waiting =>
    rw [hpending] at hslot
    cases hslot
  | none =>
    rw [hpending] at hslot
    obtain ⟨w, hw, hflags, hwid⟩ := hc slot hslot
    rw [h.queue, hq]
    rw [hq] at hw
    rcases List.mem_cons.1 hw with rfl | hw
    · exact absurd (hid.trans hwid) (rawPending_none hpending hslot)
    · exact ⟨w, hw, hflags, hwid⟩

theorem Tells.rawHeld {c c' : Context} {m : Msg} (h : Tells m c c') (hc : RawHeld c) :
    RawHeld c' := by
  intro slot hslot
  rw [h.raw] at hslot
  rw [h.queue]
  split_ifs at hslot
  exact hc slot hslot

theorem Tells.told {c c' : Context} {m : Msg} (h : Tells m c c') : Told c' m.serial := by
  obtain ⟨report, hmem⟩ := h.report
  exact ⟨m, report, hmem, rfl⟩

/-- A callback ran, and the head may leave. -/
structure Leaving (head : Wrapper) (c c' : Context) : Prop extends Accounts c c' where
  queue : ∃ rest, c'.queue = head :: rest
  behind : RawBehind c'
  told : head.flags = .post → Told c' head.msg.serial

theorem dropHead_leaving {head : Wrapper} {c c' : Context} (h : Leaving head c c') (m : Msg)
    (error : ℤ) : Accounts c (dropHead c' m error) ∧ RawHeld (dropHead c' m error) := by
  obtain ⟨rest, hq⟩ := h.queue
  have hqueue : (dropHead c' m error).queue = rest := by
    unfold dropHead
    rw [hq]
    rfl
  have hlog : ∃ δ, (dropHead c' m error).log = c'.log ++ δ := ⟨_, rfl⟩
  refine ⟨h.toAccounts.trans ⟨rfl, rfl, hlog, fun serial hwaiting => ?_, fun m' hm' => .inl ?_⟩,
    h.behind⟩
  · obtain ⟨w, hw, hflags, rfl⟩ := hwaiting
    rw [hq] at hw
    rcases List.mem_cons.1 hw with rfl | hw
    · exact .inr ((h.told hflags).mono hlog)
    · exact .inl ⟨w, hqueue ▸ hw, hflags, rfl⟩
  · rcases List.mem_append.1 hm' with hm' | hm'
    · exact hm'
    · exact absurd (List.mem_singleton.1 hm') (by simp)

theorem Tells.leaving {c c' : Context} {m : Msg} (h : Tells m c c') (rs : Reactions)
    (hc : RawHeld c) {head : Wrapper} {rest : List Wrapper} (hq : c.queue = head :: rest)
    (hid : m.reqId = head.msg.reqId) (hserial : m.serial = head.msg.serial) :
    Leaving head c (react rs c c') := by
  have hreact := react_enters rs c c'
  obtain ⟨rest', hq', hbehind, -⟩ := hreact.behind head rest (h.queue.trans hq)
  exact ⟨h.toAccounts.trans hreact.toAccounts, ⟨rest', hq'⟩, hbehind (h.behind hc hq hid),
    fun _ => hserial ▸ h.told.mono hreact.log⟩

theorem reportError_leaving {c : Context} (rs : Reactions) (he : c.errorCb) (hc : RawHeld c)
    {head : Wrapper} {rest : List Wrapper} (hq : c.queue = head :: rest) {m : Msg}
    (hid : m.reqId = head.msg.reqId) (hserial : m.serial = head.msg.serial) (error : ℤ)
    (env : Env) : Leaving head c (reportError rs c m error env) :=
  (reportError_tells he m error env).leaving rs hc hq hid hserial

theorem reportError_accounts {c : Context} (rs : Reactions) (he : c.errorCb) (hc : RawHeld c)
    (m : Msg) (error : ℤ) (env : Env) :
    Accounts c (reportError rs c m error env) ∧ RawHeld (reportError rs c m error env) := by
  have htells := reportError_tells he m error env
  have hreact := react_enters rs c (Modbusmq.reportError c m error env)
  exact ⟨htells.toAccounts.trans hreact.toAccounts, hreact.rawHeld (htells.rawHeld hc)⟩

theorem reportAnswer_leaving {c : Context} (rs : Reactions) (hm : c.messageCb) (hc : RawHeld c)
    {head : Wrapper} {rest : List Wrapper} (hq : c.queue = head :: rest) {m : Msg}
    (hid : m.reqId = head.msg.reqId) (hserial : m.serial = head.msg.serial) (env : Env) :
    Leaving head c (reportAnswer rs c head.flags m env) := by
  cases hflags : head.flags with
  | post =>
    have htells : Tells m c (Modbusmq.reportAnswer c .post m env) := by
      unfold Modbusmq.reportAnswer
      dsimp only
      cases hpending : rawPending c m with
      | some slot => exact rawReply_tells hpending _
      | none =>
        dsimp only
        rw [if_pos hm]
        exact tells_note (.refl c) rfl hpending _
    exact htells.leaving rs hc hq hid hserial
  | subscribe =>
    have hnone : head.flags = .post → Told (reportAnswer rs c .subscribe m env)
        head.msg.serial := fun hpost => absurd (hflags.symm.trans hpost) (by decide)
    have hheld : RawBehind c := by
      intro slot hslot
      obtain ⟨w, hw, hpost, hwid⟩ := hc slot hslot
      rw [hq] at hw ⊢
      rcases List.mem_cons.1 hw with rfl | hw
      · exact absurd (hflags.symm.trans hpost) (by decide)
      · exact ⟨w, hw, hpost, hwid⟩
    have henters : Enters c (reportAnswer rs c .subscribe m env) := by
      unfold reportAnswer
      dsimp only
      split_ifs
      · have hupdate := slaveUpdate_untouched c m.msgId true env
        have hdone := hupdate.trans (onceDone_untouched _ m.msgId)
        have hqueue : (onceDone (slaveUpdate c m.msgId true env) m.msgId).queue = c.queue :=
          (onceDone_quiet _ m.msgId).queue.trans (slaveUpdate_queue ..)
        have hstart : Enters c (onceDone (slaveUpdate c m.msgId true env) m.msgId) :=
          enters_of_queue hdone.raw hdone.messageCb hdone.errorCb hqueue hdone.log
        refine hstart.trans ?_
        unfold deliver
        generalize onceDone (slaveUpdate c m.msgId true env) m.msgId = c₁
        generalize c₁.processConfig.inputs.filter (inputMatches c₁.transport m.writer) = inputs
        induction inputs generalizing c₁ with
        | nil => exact .refl c₁
        | cons input inputs ih =>
          rw [List.foldl_cons]
          have hnote : Enters c₁ (c₁.note (.delivered m input)) :=
            enters_of_queue rfl rfl rfl rfl ⟨[.delivered m input], rfl, by simp⟩
          exact (hnote.trans (react_enters rs c₁ _)).trans (ih _)
      · exact .refl c
    obtain ⟨rest', hq', hbehind, -⟩ := henters.behind head rest hq
    exact ⟨henters.toAccounts, ⟨rest', hq'⟩, hbehind hheld, hnone⟩

def Keeps (c c' : Context) : Prop := Accounts c c' ∧ RawHeld c'

theorem Keeps.trans {c₁ c₂ c₃ : Context} (h : Keeps c₁ c₂) (h' : Keeps c₂ c₃) : Keeps c₁ c₃ :=
  ⟨h.1.trans h'.1, h'.2⟩

theorem Untouched.keeps {c c' : Context} (h : Untouched c c') (hc : RawHeld c) : Keeps c c' :=
  ⟨h.accounts, h.rawHeld hc⟩

theorem Enters.keeps {c c' : Context} (h : Enters c c') (hc : RawHeld c) : Keeps c c' :=
  ⟨h.toAccounts, h.rawHeld hc⟩

theorem Keeps.settle {c c₁ c₂ : Context} (h : Keeps c c₁) (h' : Untouched c₁ c₂) : Keeps c c₂ :=
  h.trans (h'.keeps h.2)

theorem settings_untouched {c c' : Context} (hraw : c'.raw = c.raw)
    (hm : c'.messageCb = c.messageCb) (he : c'.errorCb = c.errorCb) (hqueue : c'.queue = c.queue)
    (hlog : c'.log = c.log) : Untouched c c' :=
  untouched_of_queue hraw hm he (fun _ h => hqueue ▸ h) (hlog ▸ noPosts _)

theorem Serves.restored {c : Context} {wrapper : Wrapper} {rest : List Wrapper}
    (hq : c.queue = wrapper :: rest) {s : WriteRead} (h : Serves c wrapper.msg s)
    (since : Millitime) : Untouched c { s.ctx with
      queue := { wrapper with headSinceMs := since, msg := s.msg } :: rest } where
  raw := h.raw
  messageCb := h.messageCb
  errorCb := h.errorCb
  kept w hw hflags := by
    rw [hq] at hw
    rcases List.mem_cons.1 hw with rfl | hw
    · exact ⟨_, List.mem_cons_self .., hflags, h.reqId, h.serial⟩
    · exact ⟨w, List.mem_cons_of_mem _ hw, hflags, rfl, rfl⟩
  log := h.log

variable (rs : Reactions)

/-- The head is reported and goes, after steps that leave it alone. -/
theorem failed_keeps {c c₁ : Context} (h : Untouched c c₁) (he : c.errorCb) (hc : RawHeld c)
    {head : Wrapper} {rest : List Wrapper} (hq : c₁.queue = head :: rest) {m : Msg}
    (hid : m.reqId = head.msg.reqId) (hserial : m.serial = head.msg.serial) (reason : ℤ) (env : Env)
    (m' : Msg) (error : ℤ) : Keeps c (dropHead (reportError rs c₁ m reason env) m' error) := by
  have hleaving := reportError_leaving rs (h.errorCb.trans he) (h.rawHeld hc) hq hid hserial
    reason env
  have hdrop := dropHead_leaving hleaving m' error
  exact ⟨h.accounts.trans hdrop.1, hdrop.2⟩

theorem handleMsg_keeps {c : Context} (hm : c.messageCb) (he : c.errorCb) (hc : RawHeld c)
    {wrapper : Wrapper} {rest : List Wrapper} (hq : c.queue = wrapper :: rest) (env : Env) :
    Keeps c (handleMsg rs c wrapper env).2 := by
  unfold handleMsg
  dsimp only
  split_ifs
  · refine failed_keeps rs ?_ he hc (?_ : _ = wrapper :: rest) ?_ ?_ _ env _ _
    · exact untouched_of_queue rfl rfl rfl (List.Subset.refl _) ⟨[.flushed], rfl, by simp⟩
    · exact hq
    · rfl
    · rfl
  · refine dropHead_leaving (reportAnswer_leaving rs hm hc hq ?_ ?_ env) _ _
    · rfl
    · rfl

theorem loopWriteRead_keeps {c : Context} (hm : c.messageCb) (he : c.errorCb) (hc : RawHeld c)
    (revents : Revents) (env : Env) : Keeps c (loopWriteRead rs c revents env).2 := by
  cases hq : c.queue with
  | nil =>
    unfold loopWriteRead
    rw [hq]
    dsimp only
    split_ifs
    · refine Untouched.keeps ?_ hc
      exact settings_untouched rfl rfl rfl hq.symm rfl
    · exact (Untouched.refl c).keeps hc
  | cons wrapper rest =>
    have hserves := handleWriteRead_serves c wrapper.msg revents env
    unfold loopWriteRead
    rw [hq]
    dsimp only
    generalize handleWriteRead c wrapper.msg revents env = s at hserves
    -- the head is back in the queue, then the counters move
    have hcounted : ∀ (tx rx err : UInt32), Untouched c { s.ctx with
        queue := { wrapper with msg := s.msg } :: rest, tx := tx, rx := rx, err := err } := by
      intro tx rx err
      have hback := hserves.restored hq wrapper.headSinceMs
      exact hback.trans (settings_untouched rfl rfl rfl rfl rfl)
    split_ifs
    · have hback := hcounted (s.ctx.tx + 1) (s.ctx.rx + 1) s.ctx.err
      exact (hback.keeps hc).trans (handleMsg_keeps rs (hback.messageCb.trans hm)
        (hback.errorCb.trans he) (hback.rawHeld hc) rfl env)
    · exact failed_keeps rs (hcounted s.ctx.tx s.ctx.rx (s.ctx.err + 1)) he hc rfl rfl rfl ..
    · exact failed_keeps rs (hcounted s.ctx.tx s.ctx.rx s.ctx.err) he hc rfl rfl rfl ..
    · exact failed_keeps rs (hcounted s.ctx.tx s.ctx.rx (s.ctx.err + 1)) he hc rfl rfl rfl ..
    · exact (hcounted s.ctx.tx s.ctx.rx s.ctx.err).keeps hc

theorem timeOutHead_keeps {c : Context} (he : c.errorCb) (hc : RawHeld c) (env : Env) :
    Keeps c (timeOutHead rs c env) := by
  cases hq : c.queue with
  | nil =>
    have hsame : timeOutHead rs c env = c := by
      unfold timeOutHead
      rw [hq]
    rw [hsame]
    exact (Untouched.refl c).keeps hc
  | cons wrapper rest =>
    unfold timeOutHead
    rw [hq]
    have hstamp : Untouched c { c with queue := stampHead wrapper (env.clock .head) :: rest } := by
      have hserves : Serves c wrapper.msg ⟨0, c, wrapper.msg⟩ := ⟨.refl c, rfl, rfl, rfl⟩
      have hback := hserves.restored hq
      unfold stampHead
      split_ifs
      · exact hback (env.clock .head)
      · exact hback wrapper.headSinceMs
    dsimp only
    generalize stampHead wrapper (env.clock .head) = wrapper at hstamp
    have hkeeps : Keeps c (dropHead (reportError rs
        { c with queue := wrapper :: rest } wrapper.msg errTimeout env) wrapper.msg errTimeout) :=
      failed_keeps rs hstamp he hc rfl rfl rfl ..
    split_ifs
    · exact hkeeps.settle (untouched_of_queue rfl rfl rfl (List.Subset.refl _)
        ⟨[.flushed], rfl, by simp⟩)
    · exact hkeeps.settle (untouched_of_queue rfl rfl rfl (List.Subset.refl _)
        ⟨[.flushed], rfl, by simp⟩)
    · exact hstamp.keeps hc

theorem loopPrepare_keeps {c : Context} (he : c.errorCb) (hc : RawHeld c)
    (sleepTime : Millitime) (env : Env) : Keeps c (loopPrepare rs c sleepTime env).ctx := by
  unfold loopPrepare
  split_ifs
  · rw [prepareEvents_ctx]
    exact (timeOutHead_keeps rs he hc env).settle (loopPrepareSubscription_untouched ..)
  · exact (Untouched.refl c).keeps hc

/-- A callback queues a request when it runs in this context. -/
def Queues (reaction : Reaction) (c : Context) : Prop :=
  (reaction.run c).serialNext ≠ c.serialNext

instance (reaction : Reaction) (c : Context) : Decidable (Queues reaction c) :=
  inferInstanceAs (Decidable (_ ≠ _))

/-- No callback that `modbusmq_reset_queue` makes for these entries queues a request. -/
def WalkQuiet (env : Env) : List Wrapper → Context → Prop
  | [], _ => True
  | wrapper :: rest, c =>
    let told := Modbusmq.reportError { c with queue := wrapper :: rest } wrapper.msg errTransport env
    ¬ Queues (rs told.log.length) told ∧
      WalkQuiet env rest (dropHead (react rs c told) wrapper.msg errTransport)

/-- A callback that queues a request is the one for the first entry, and a posted request is
next: what enters the queue then enters behind the entry the walk goes on with. -/
def ResetSafe (c : Context) (env : Env) : Prop :=
  ∀ wrapper rest, c.queue = wrapper :: rest →
    let told := Modbusmq.reportError c wrapper.msg errTransport env
    let after := react rs c told
    (Queues (rs told.log.length) told → ∃ next, rest.head? = some next ∧ next.flags = .post) ∧
      WalkQuiet rs env after.queue.tail (dropHead after wrapper.msg errTransport)

theorem Posting.perform_serial (posting : Posting) (c : Context) :
    c.serialNext < (posting.perform c).2.serialNext ∨
      (posting.perform c).2.serialNext = c.serialNext ∧ (posting.perform c).2.queue = c.queue := by
  cases posting with
  | post slaveId request =>
    change c.serialNext < (postRequest c slaveId request).serialNext ∨
      (postRequest c slaveId request).serialNext = c.serialNext ∧
        (postRequest c slaveId request).queue = c.queue
    unfold postRequest
    split
    · exact .inl (Nat.lt_succ_self _)
    · exact .inr ⟨rfl, rfl⟩
  | raw text stray =>
    change c.serialNext < (rawRequest c text stray).2.serialNext ∨
      (rawRequest c text stray).2.serialNext = c.serialNext ∧
        (rawRequest c text stray).2.queue = c.queue
    unfold rawRequest
    dsimp only
    split
    · exact .inr ⟨rfl, rfl⟩
    · exact .inl (Nat.lt_succ_self _)

/-- A callback that queues nothing leaves the queue as it is. -/
theorem Reaction.run_serial (reaction : Reaction) (c : Context) :
    c.serialNext < (reaction.run c).serialNext ∨
      (reaction.run c).serialNext = c.serialNext ∧ (reaction.run c).queue = c.queue := by
  have htrans : ∀ c₁ c₂ c₃ : Context,
      (c₁.serialNext < c₂.serialNext ∨ c₂.serialNext = c₁.serialNext ∧ c₂.queue = c₁.queue) →
      (c₂.serialNext < c₃.serialNext ∨ c₃.serialNext = c₂.serialNext ∧ c₃.queue = c₂.queue) →
      c₁.serialNext < c₃.serialNext ∨ c₃.serialNext = c₁.serialNext ∧ c₃.queue = c₁.queue := by
    rintro c₁ c₂ c₃ (h | ⟨h, hq⟩) (h' | ⟨h', hq'⟩)
    · exact .inl (h.trans h')
    · exact .inl (h' ▸ h)
    · exact .inl (h ▸ h')
    · exact .inr ⟨h'.trans h, hq'.trans hq⟩
  induction reaction generalizing c with
  | done => exact .inr ⟨rfl, rfl⟩
  | posts posting refused next hrefused hnext =>
    have hposted := Posting.perform_serial posting c
    have hall : ∀ c', c' = (posting.perform c).2 ∨ c' = refused.run (posting.perform c).2 →
        c.serialNext < (next.run c').serialNext ∨
          (next.run c').serialNext = c.serialNext ∧ (next.run c').queue = c.queue := by
      rintro c' (rfl | rfl)
      · exact htrans _ _ _ hposted (hnext _)
      · exact htrans _ _ _ (htrans _ _ _ hposted (hrefused _)) (hnext _)
    refine hall (if (posting.perform c).1 < 0 then refused.run (posting.perform c).2
      else (posting.perform c).2) ?_
    split_ifs
    · exact .inr rfl
    · exact .inl rfl

theorem reportError_noted {c : Context} (he : c.errorCb) (m : Msg) (error : ℤ) (env : Env) :
    c.log.length < (Modbusmq.reportError c m error env).log.length := by
  have hnoted : ∀ (c' : Context) (e : Event), c'.log = c.log ++ [e] →
      c.log.length < c'.log.length := by
    intro c' e h
    rw [h, List.length_append]
    exact Nat.lt_succ_self _
  have hupdate : (slaveUpdate c m.msgId (error = errException) env).log = c.log ∧
      (slaveUpdate c m.msgId (error = errException) env).errorCb = c.errorCb := by
    refine ⟨?_, (slaveUpdate_untouched ..).errorCb⟩
    unfold slaveUpdate
    dsimp only
    split
    · rfl
    · split_ifs <;> rfl
  unfold Modbusmq.reportError
  split
  · exact hnoted _ _ rfl
  · dsimp only
    split_ifs with hcount hcb
    · refine hnoted _ _ (?_ : _ = c.log ++ [.reported m (.error error)])
      rw [← hupdate.1]
      rfl
    · exact absurd (hupdate.2.trans he) hcb
    · exact hnoted _ _ rfl

/-- The walk behind the first entry, when no callback queues anything on it. -/
theorem dropRest_keeps (env : Env) (queue : List Wrapper) :
    ∀ {c : Context}, c.queue = queue → c.errorCb → RawHeld c → WalkQuiet rs env queue c →
      ∃ c', dropRest rs env queue c = some c' ∧ Keeps c c' := by
  induction queue with
  | nil => exact fun {c} _ _ hc _ => ⟨c, rfl, (Untouched.refl c).keeps hc⟩
  | cons wrapper rest ih =>
    intro c hq he hc hquiet
    have hsame : ({ c with queue := wrapper :: rest } : Context) = c := by rw [← hq]
    unfold WalkQuiet at hquiet
    unfold dropRest
    rw [hsame] at hquiet ⊢
    obtain ⟨hqueues, hquiet⟩ := hquiet
    have htells := reportError_tells he wrapper.msg errTransport env
    have hleaving : Leaving wrapper c
        (react rs c (Modbusmq.reportError c wrapper.msg errTransport env)) :=
      htells.leaving rs hc hq rfl rfl
    have hdrop := dropHead_leaving hleaving wrapper.msg errTransport
    have hreact : react rs c (Modbusmq.reportError c wrapper.msg errTransport env) =
        (rs (Modbusmq.reportError c wrapper.msg errTransport env).log.length).run
          (Modbusmq.reportError c wrapper.msg errTransport env) :=
      if_pos (reportError_noted he wrapper.msg errTransport env)
    have hrun : (react rs c (Modbusmq.reportError c wrapper.msg errTransport env)).serialNext =
          (Modbusmq.reportError c wrapper.msg errTransport env).serialNext ∧
        (react rs c (Modbusmq.reportError c wrapper.msg errTransport env)).queue =
          (Modbusmq.reportError c wrapper.msg errTransport env).queue := by
      rw [hreact]
      rcases Reaction.run_serial (rs _) (Modbusmq.reportError c wrapper.msg errTransport env) with
        hlt | hsame
      · exact absurd hlt.ne' hqueues
      · exact hsame
    have hqueue : (dropHead (react rs c (Modbusmq.reportError c wrapper.msg errTransport env))
        wrapper.msg errTransport).queue = rest := by
      change (react rs c _).queue.tail = rest
      rw [hrun.2, htells.queue, hq]
      rfl
    obtain ⟨c', hc', hkeeps⟩ := ih hqueue (hdrop.1.errorCb.trans he) hdrop.2 hquiet
    refine ⟨c', ?_, Keeps.trans hdrop hkeeps⟩
    dsimp only
    rw [if_neg (not_not_intro hrun.1)]
    exact hc'

/-- What was queued behind the first entry while its callback ran is met by the walk. -/
theorem resetQueue_keeps {c : Context} (he : c.errorCb) (hc : RawHeld c) {env : Env}
    (hsafe : ResetSafe rs c env) : ∃ c', resetQueue rs c env = some c' ∧ Keeps c c' := by
  have hrearm : ∀ c : Context, Untouched c (onceRearm c env) := fun c =>
    settings_untouched rfl rfl rfl rfl rfl
  unfold resetQueue
  cases hq : c.queue with
  | nil => exact ⟨_, rfl, (hrearm c).keeps hc⟩
  | cons wrapper rest =>
    obtain ⟨hfirst, hquiet⟩ := hsafe wrapper rest hq
    have htells := reportError_tells he wrapper.msg errTransport env
    have hleaving : Leaving wrapper c (reportError rs c wrapper.msg errTransport env) :=
      htells.leaving rs hc hq rfl rfl
    have hdrop := dropHead_leaving hleaving wrapper.msg errTransport
    have hwalk : walkOn rest.head? (reportError rs c wrapper.msg errTransport env).queue.tail =
        (reportError rs c wrapper.msg errTransport env).queue.tail := by
      have hreact : reportError rs c wrapper.msg errTransport env =
          (rs (Modbusmq.reportError c wrapper.msg errTransport env).log.length).run
            (Modbusmq.reportError c wrapper.msg errTransport env) :=
        if_pos (reportError_noted he wrapper.msg errTransport env)
      have hkept : rest.head? = none ∧
            (reportError rs c wrapper.msg errTransport env).queue.tail = [] ∨
          ∃ next others, rest.head? = some next ∧
            (reportError rs c wrapper.msg errTransport env).queue.tail = next :: others := by
        rcases Reaction.run_serial (rs _) (Modbusmq.reportError c wrapper.msg errTransport env)
          with hlt | ⟨-, hqueue⟩
        · obtain ⟨next, hnext, hpost⟩ := hfirst hlt.ne'
          obtain ⟨rest', hq', -, hstays⟩ := (react_enters rs c
            (Modbusmq.reportError c wrapper.msg errTransport env)).behind wrapper rest
              (htells.queue.trans hq)
          have hhead := hstays next hnext hpost
          obtain ⟨others, hothers⟩ : ∃ others, rest' = next :: others := by
            cases rest' with
            | nil => exact nomatch hhead
            | cons first others => exact ⟨others, by rw [Option.some.inj hhead]⟩
          refine .inr ⟨next, others, hnext, ?_⟩
          rw [← hothers]
          exact congrArg List.tail hq'
        · have htail : (reportError rs c wrapper.msg errTransport env).queue.tail = rest := by
            rw [hreact, hqueue, htells.queue, hq]
            rfl
          rw [htail]
          cases rest with
          | nil => exact .inl ⟨rfl, rfl⟩
          | cons next others => exact .inr ⟨next, others, rfl, rfl⟩
      rcases hkept with ⟨hnone, htail⟩ | ⟨next, others, hnext, htail⟩
      · rw [hnone, htail]
        rfl
      · rw [hnext, htail]
        simp [walkOn, List.dropWhile]
    dsimp only
    rw [hwalk]
    obtain ⟨c', hc', hkeeps⟩ := dropRest_keeps rs env _ rfl (hdrop.1.errorCb.trans he) hdrop.2 hquiet
    refine ⟨onceRearm c' env, ?_, (Keeps.trans hdrop hkeeps).settle (hrearm c')⟩
    exact congrArg (Option.map fun c => onceRearm c env) hc'

/-- A reset in this turn walks safely. -/
def Turn.Safe (turn : Turn) (w : World) : Prop :=
  w.sending = none → turn.action = .call .reset → ResetSafe turn.reactions w.ctx turn.env

/-- Every reset of a run walks safely. -/
def Safe : List Turn → World → Prop
  | [], _ => True
  | turn :: turns, w =>
    turn.Safe w ∧ ∀ w', perform turn.reactions w turn.env turn.action = some w' → Safe turns w'

theorem performCall_keeps {c : Context} (hm : c.messageCb) (he : c.errorCb) (hc : RawHeld c)
    {env : Env} {call : Call} (hsafe : call = .reset → ResetSafe rs c env) :
    ∃ c', performCall rs c env call = some c' ∧ Keeps c c' := by
  have hsettled : ∀ {c'}, Untouched c c' → ∃ c'', some c' = some c'' ∧ Keeps c c'' := fun h =>
    ⟨_, rfl, h.keeps hc⟩
  cases call with
  | post slaveId request =>
    exact ⟨_, rfl, (Posting.perform_enters (.post slaveId request) c).keeps hc⟩
  | raw text stray =>
    have hraw := Posting.perform_enters (.raw text stray) c
    refine ⟨_, rfl, Enters.keeps ?_ hc⟩
    split_ifs
    · exact hraw.trans (react_enters rs c _)
    · exact hraw
  | subscribe slaveId request interval =>
    refine hsettled ?_
    unfold Call.perform subscribeRequest
    dsimp only
    split
    · unfold subscribe
      split
      · exact settings_untouched rfl rfl rfl rfl rfl
      · split_ifs <;> exact settings_untouched rfl rfl rfl rfl rfl
    · exact settings_untouched rfl rfl rfl rfl rfl
  | prepare sleepTime => exact ⟨_, rfl, loopPrepare_keeps rs he hc sleepTime env⟩
  | writeRead revents => exact ⟨_, rfl, loopWriteRead_keeps rs hm he hc revents env⟩
  | reset => exact resetQueue_keeps rs he hc (hsafe rfl)
  | focus slave =>
    refine hsettled ?_
    unfold Call.perform setFocus
    dsimp only
    split
    · exact .refl c
    · split_ifs
      all_goals first | exact .refl c | exact settings_untouched rfl rfl rfl rfl rfl
  | connect opened =>
    refine hsettled ?_
    unfold Call.perform Modbusmq.connect
    dsimp only
    split_ifs
    · exact untouched_of_queue rfl rfl rfl (List.Subset.refl _) ⟨[.connected], rfl, by simp⟩
    · exact .refl c
  | rearm => exact hsettled (settings_untouched rfl rfl rfl rfl rfl)
  | close => exact hsettled (settings_untouched rfl rfl rfl rfl rfl)
  | configure => exact hsettled (settings_untouched rfl rfl rfl rfl rfl)
  | arrive => exact hsettled (settings_untouched rfl rfl rfl rfl rfl)

theorem sendTurn_keeps {c : Context} (he : c.errorCb) (hc : RawHeld c) (s : SendState)
    (answer : PollAnswer) (env : Env) : Keeps c (sendTurn rs c s answer env).1 := by
  have hdone : ∀ {c'} (m : Msg) (error : ℤ), Keeps c c' → Keeps c (sendDone c' m error).1 :=
    fun m error h => h.settle (untouched_note _ (by simp))
  have htold : ∀ {c'} (m : Msg) (error : ℤ), Keeps c c' →
      Keeps c (reportError rs c' m error env) := fun m error h =>
    h.trans (reportError_accounts rs (h.1.errorCb.trans he) h.2 m error env)
  have htest : ∀ {c'} (s : SendState), Keeps c c' → Keeps c (sendTest rs c' s env).1 := by
    intro c' s h
    unfold sendTest
    split_ifs
    · exact h
    · exact hdone _ _ (htold _ _ h)
    · exact hdone _ _ h
  have hready : ∀ revents, Keeps c (sendReady rs c s revents env).1 := by
    intro revents
    have hserved : Keeps c (handleWriteRead c s.msg revents env).ctx :=
      (handleWriteRead_serves c s.msg revents env).toUntouched.keeps hc
    unfold sendReady
    generalize handleWriteRead c s.msg revents env = h at hserved
    dsimp only
    split_ifs
    · exact htest _ (htold _ _ hserved)
    · exact hdone _ _ (htold _ _ hserved)
    · exact hdone _ _ (htold _ _ hserved)
    · exact hdone _ _ (htold _ _ (hserved.settle
        (untouched_of_queue rfl rfl rfl (List.Subset.refl _) ⟨[.flushed], rfl, by simp⟩)))
    · exact hdone _ _ hserved
    · exact htest _ hserved
  have hself : Keeps c c := (Untouched.refl c).keeps hc
  cases answer with
  | interrupted => exact htest s hself
  | failed => exact hdone _ _ hself
  | ready revents =>
    unfold sendTurn
    dsimp only
    split_ifs
    · exact hready _
    · exact htest s hself

/-- One turn of a run keeps every posted request and the slot. -/
theorem perform_keeps {w : World} (hm : w.ctx.messageCb) (he : w.ctx.errorCb)
    (hc : RawHeld w.ctx) {turn : Turn} (hsafe : turn.Safe w) :
    ∃ w', perform turn.reactions w turn.env turn.action = some w' ∧ Keeps w.ctx w'.ctx := by
  have hself : Keeps w.ctx w.ctx := (Untouched.refl _).keeps hc
  obtain ⟨action, env, rs⟩ := turn
  change ∃ w', perform rs w env action = some w' ∧ Keeps w.ctx w'.ctx
  cases action with
  | call made =>
    unfold perform
    cases hsending : w.sending with
    | none =>
      obtain ⟨c', hc', hkeeps⟩ := performCall_keeps rs hm he hc
        fun hreset => hsafe hsending (congrArg Action.call hreset)
      dsimp only
      rw [hc']
      exact ⟨_, rfl, hkeeps⟩
    | some s =>
      cases made with
      | arrive bytes =>
        refine ⟨_, rfl, Untouched.keeps ?_ hc⟩
        exact settings_untouched rfl rfl rfl rfl rfl
      | _ => exact ⟨w, rfl, hself⟩
  | send slaveId request mswait =>
    refine ⟨_, rfl, ?_⟩
    unfold Action.perform
    dsimp only
    split
    · refine Untouched.keeps ?_ hc
      exact settings_untouched rfl rfl rfl rfl rfl
    · refine Untouched.keeps ?_ hc
      exact settings_untouched rfl rfl rfl rfl rfl
    · exact hself
  | turn answer =>
    unfold perform
    cases w.sending with
    | none => exact ⟨w, rfl, hself⟩
    | some s => exact ⟨_, rfl, sendTurn_keeps rs he hc s answer env⟩

theorem run_keeps (turns : List Turn) : ∀ {w : World}, w.ctx.messageCb → w.ctx.errorCb →
    RawHeld w.ctx → Safe turns w → ∃ w', run turns w = some w' ∧ Keeps w.ctx w'.ctx := by
  induction turns with
  | nil => exact fun {w} _ _ hc _ => ⟨w, rfl, (Untouched.refl _).keeps hc⟩
  | cons turn turns ih =>
    intro w hm he hc hsafe
    obtain ⟨w₁, hturn, hkeeps⟩ := perform_keeps hm he hc hsafe.1
    obtain ⟨w₂, hrun, hkeeps'⟩ := ih (hkeeps.1.messageCb.trans hm) (hkeeps.1.errorCb.trans he)
      hkeeps.2 (hsafe.2 w₁ hturn)
    refine ⟨w₂, ?_, hkeeps.trans hkeeps'⟩
    unfold run
    rw [hturn]
    exact hrun

/-- In every run whose resets walk safely, with callbacks that post what they like, no freed
memory is read, the raw slot is occupied only while its request is queued, and a request
that was posted is in the queue or was reported. -/
theorem reentrant_posts_accounted {w₀ : World} (hfresh : Fresh w₀.ctx) (hm : w₀.ctx.messageCb)
    (he : w₀.ctx.errorCb) {turns : List Turn} (hsafe : Safe turns w₀) :
    ∃ w, run turns w₀ = some w ∧ RawHeld w.ctx ∧
      ∀ m, .posted .post m ∈ w.ctx.log → Waiting w.ctx m.serial ∨ Told w.ctx m.serial := by
  have hheld : RawHeld w₀.ctx := by
    intro slot hslot
    rw [hfresh.raw] at hslot
    exact nomatch hslot
  obtain ⟨w, hrun, haccounts, hc⟩ := run_keeps turns hm he hheld hsafe
  refine ⟨w, hrun, hc, fun m hposted => ?_⟩
  rcases haccounts.posted m hposted with hold | hsettled
  · rw [hfresh.log] at hold
    exact absurd hold List.not_mem_nil
  · exact hsettled

/-- The callback that makes event `n` asks for a register. -/
def asksBack (n : ℕ) : Reactions := fun k =>
  if k = n then .posts (.raw "1 3 0 1" fun _ => 0) .done .done else .done

def calledBack : World := ⟨{ newContext .tcp with messageCb := true, errorCb := true }, none⟩

/-- Two writes are dropped with the connection, and the callback of the first asks back. -/
theorem reentrant_posts_accounted_example :
    ∃ w, run [⟨.call (.post 1 (.writeRegister 7 42)), sampleEnv, silent⟩,
        ⟨.call (.post 1 (.writeRegister 8 42)), sampleEnv, silent⟩,
        ⟨.call .reset, sampleEnv, asksBack 3⟩] calledBack = some w ∧ RawHeld w.ctx ∧
      ∀ m, .posted .post m ∈ w.ctx.log → Waiting w.ctx m.serial ∨ Told w.ctx m.serial := by
  have hsafe : Safe [⟨.call (.post 1 (.writeRegister 7 42)), sampleEnv, silent⟩,
      ⟨.call (.post 1 (.writeRegister 8 42)), sampleEnv, silent⟩,
      ⟨.call .reset, sampleEnv, asksBack 3⟩] calledBack := by
    refine ⟨nofun, ?_⟩
    rintro w ⟨⟩
    refine ⟨nofun, ?_⟩
    rintro w ⟨⟩
    refine ⟨fun _ _ => ?_, fun _ _ => trivial⟩
    rintro wrapper rest ⟨⟩
    refine ⟨fun _ => ⟨_, rfl, rfl⟩, ?_, ?_, trivial⟩
    all_goals decide +kernel
  exact reentrant_posts_accounted ⟨rfl, rfl, rfl, rfl⟩ rfl rfl hsafe

/-- The requests that were posted, and those that were reported. -/
def postedSerials (log : List Event) : List ℕ :=
  log.filterMap fun
    | .posted .post m => some m.serial
    | _ => none

def toldSerials (log : List Event) : List ℕ :=
  log.filterMap fun
    | .reported m _ => some m.serial
    | _ => none

theorem mem_toldSerials {c : Context} {serial : ℕ} (h : Told c serial) :
    serial ∈ toldSerials c.log := by
  obtain ⟨m, report, hmem, rfl⟩ := h
  exact List.mem_filterMap.2 ⟨_, hmem, rfl⟩

/-- With one write in the queue, what its callback posts is lost: the raw slot waits for a
request that is nowhere. -/
theorem abandoned_queue_loses_request :
    ∃ w, run [⟨.call (.post 1 (.writeRegister 7 42)), sampleEnv, silent⟩,
        ⟨.call .reset, sampleEnv, asksBack 2⟩] calledBack = some w ∧ ¬ RawHeld w.ctx ∧
      ∃ m, .posted .post m ∈ w.ctx.log ∧ ¬ Waiting w.ctx m.serial ∧ ¬ Told w.ctx m.serial := by
  have hfacts : (run [⟨.call (.post 1 (.writeRegister 7 42)), sampleEnv, silent⟩,
        ⟨.call .reset, sampleEnv, asksBack 2⟩] calledBack).map (fun w =>
      (w.ctx.queue.length, w.ctx.raw.isSome, postedSerials w.ctx.log, toldSerials w.ctx.log)) =
        some (0, true, [0, 1], [0]) := by
    decide +kernel
  obtain ⟨w, hw, hfacts⟩ := Option.map_eq_some_iff.1 hfacts
  simp only [Prod.mk.injEq] at hfacts
  obtain ⟨hqueue, hraw, hposted, htold⟩ := hfacts
  have hempty := List.eq_nil_of_length_eq_zero hqueue
  refine ⟨w, hw, fun hheld => ?_, ?_⟩
  · obtain ⟨slot, hslot⟩ := Option.isSome_iff_exists.1 hraw
    obtain ⟨wrapper, hmem, -⟩ := hheld slot hslot
    rw [hempty] at hmem
    exact absurd hmem List.not_mem_nil
  · have hsecond : 1 ∈ postedSerials w.ctx.log := by
      rw [hposted]
      decide
    obtain ⟨e, he, hserial⟩ := List.mem_filterMap.1 hsecond
    split at hserial
    · rename_i m
      have hone : m.serial = 1 := Option.some.inj hserial
      refine ⟨m, he, ?_, fun h => ?_⟩
      · rintro ⟨wrapper, hmem, -⟩
        rw [hempty] at hmem
        exact absurd hmem List.not_mem_nil
      · have hmem := mem_toldSerials h
        rw [htold, hone] at hmem
        exact absurd hmem (by decide)
    · exact nomatch hserial

end Modbusmq.Reentrant
