import Modbusmq.Loop.Steps

/-!
# The calls as sequences of queue steps

One lemma for each call of the library says which steps of the queue it makes.
A call that serves the head needs to know that the head is outstanding, which
is what every state reached by such steps has.
-/

namespace Modbusmq

variable {P : Msg → ℤ → Bool → Prop} {G : Prop}

/-- The state of the queue between two calls: only the head has been worked on. -/
structure WellFormed (c : Context) : Prop where
  templates : Templates c
  head : ∀ wrapper, c.queue.head? = some wrapper → Outstanding c.transport wrapper.msg
  waiting : ∀ wrapper ∈ c.queue.tail, Posted c.transport wrapper.msg

theorem postInternal_queue (c : Context) (m : Msg) (flags : Flags) :
    (postInternal c m flags).queue = enqueue c.queue ⟨flags, 0,
      preparedMsg c.transport (nextTransaction c.transport c.transactionId)
        { m with reqId := nextReqId c.reqIdNext, serial := c.serialNext }⟩ := rfl

theorem mem_enqueue {queue : List Wrapper} {wrapper w : Wrapper} :
    w ∈ enqueue queue wrapper ↔ w ∈ queue ∨ w = wrapper := by
  unfold enqueue
  split
  · simp
  · rename_i head rest _
    have hsplit : w ∈ rest ↔ w ∈ rest.takeWhile (·.flags = .post) ∨
        w ∈ rest.dropWhile (·.flags = .post) := by
      rw [← List.mem_append, List.takeWhile_append_dropWhile]
    simp only [List.mem_cons, List.mem_append, hsplit]
    tauto
  · simp [or_assoc]

theorem enqueue_cons (head : Wrapper) (rest : List Wrapper) (wrapper : Wrapper) :
    ∃ rest', enqueue (head :: rest) wrapper = head :: rest' ∧
      ∀ w, w ∈ rest' ↔ w ∈ rest ∨ w = wrapper := by
  cases hflags : wrapper.flags with
  | post =>
    refine ⟨rest.takeWhile (·.flags = .post) ++ wrapper :: rest.dropWhile (·.flags = .post),
      by simp only [enqueue, hflags], fun w => ?_⟩
    have hsplit : w ∈ rest ↔ w ∈ rest.takeWhile (·.flags = .post) ∨
        w ∈ rest.dropWhile (·.flags = .post) := by
      rw [← List.mem_append, List.takeWhile_append_dropWhile]
    simp only [List.mem_cons, List.mem_append, hsplit]
    tauto
  | subscribe =>
    exact ⟨rest ++ [wrapper], by simp only [enqueue, hflags]; rfl, fun w => by simp⟩

theorem QueueStep.sameSetup {c c' : Context} (h : QueueStep P G c c') : SameSetup c c' := by
  cases h with
  | quiet h => exact h.toSameSetup
  | enter => exact ⟨rfl, rfl, rfl, id⟩
  | stay _ hs => exact hs.toSameSetup.trans ⟨rfl, rfl, rfl, id⟩
  | leave _ hs _ _ hsetup => exact hs.toSameSetup.trans hsetup

theorem QueueSteps.sameSetup {c c' : Context} (h : QueueSteps P G c c') : SameSetup c c' := by
  induction h with
  | refl => exact SameSetup.refl c
  | tail _ h ih => exact ih.trans h.sameSetup

theorem posted_enter {c : Context} {m : Msg} {slaveId : ℤ} {request : Request}
    (hreader : m.reader = Frame.zero .reader)
    (hbuild : request.build c.transport slaveId = some m.writer) :
    Posted c.transport (preparedMsg c.transport (nextTransaction c.transport c.transactionId)
      { m with reqId := nextReqId c.reqIdNext, serial := c.serialNext }) :=
  ⟨slaveId, request, nextTransaction c.transport c.transactionId,
    { m with reqId := nextReqId c.reqIdNext, serial := c.serialNext }, hbuild, hreader, rfl⟩

theorem QueueStep.wellFormed {c c' : Context} (h : QueueStep P G c c') (hc : WellFormed c) :
    WellFormed c' := by
  have hsetup := h.sameSetup
  refine ⟨hsetup.templates hc.templates, ?_, ?_⟩
  all_goals rw [hsetup.transport]
  · cases h with
    | quiet h =>
      rw [h.queue]
      exact hc.head
    | enter hreader hbuild =>
      rw [postInternal_queue]
      have hposted := posted_enter hreader hbuild
      cases hq : c.queue with
      | nil =>
        intro wrapper hhead
        obtain rfl : _ = wrapper := Option.some.inj hhead
        exact .posted hposted
      | cons head rest =>
        obtain ⟨rest', henqueue, -⟩ := enqueue_cons head rest _
        rw [henqueue]
        intro wrapper hhead
        exact hc.head wrapper (by rw [hq]; exact hhead)
    | stay hq _ _ hm =>
      intro wrapper hhead
      obtain rfl : _ = wrapper := Option.some.inj hhead
      exact hm (hc.head _ (by rw [hq]; rfl))
    | leave hq _ _ _ _ hrest =>
      intro wrapper hhead
      rw [hrest] at hhead
      refine .posted (hc.waiting wrapper ?_)
      rw [hq]
      exact List.mem_of_mem_head? hhead
  · cases h with
    | quiet h =>
      rw [h.queue]
      exact hc.waiting
    | enter hreader hbuild =>
      rw [postInternal_queue]
      have hposted := posted_enter hreader hbuild
      cases hq : c.queue with
      | nil =>
        intro wrapper hmem
        exact absurd hmem List.not_mem_nil
      | cons head rest =>
        obtain ⟨rest', henqueue, hrest⟩ := enqueue_cons head rest _
        rw [henqueue]
        intro wrapper hmem
        rcases (hrest wrapper).1 hmem with hold | rfl
        · exact hc.waiting wrapper (by rw [hq]; exact hold)
        · exact hposted
    | stay hq =>
      intro wrapper hmem
      exact hc.waiting wrapper (by rw [hq]; exact hmem)
    | leave hq _ _ _ _ hrest =>
      intro wrapper hmem
      rw [hrest] at hmem
      exact hc.waiting wrapper (by rw [hq]; exact List.mem_of_mem_tail hmem)

theorem QueueSteps.wellFormed {c c' : Context} (h : QueueSteps P G c c') (hc : WellFormed c) :
    WellFormed c' := by
  induction h with
  | refl => exact hc
  | tail _ h ih => exact h.wellFormed ih

theorem post_steps {c : Context} {writer : Frame .writer} {slaveId : ℤ} {request : Request}
    (hbuild : request.build c.transport slaveId = some writer) : QueueSteps P G c (post c writer) :=
  .single (.enter rfl hbuild)

theorem rawRequest_steps (c : Context) (text : String) (stray : ℕ → UInt8) :
    QueueSteps P G c (rawRequest c text stray).2 := by
  unfold rawRequest
  dsimp only
  split
  · exact (note_quiet c (e := .refused _) trivial).step
  · rename_i hprepare
    obtain ⟨slaveId, request, hbuild⟩ := rawPrepare_build hprepare
    exact (post_steps hbuild).tail (.quiet (.bookkeeping rfl rfl rfl rfl rfl rfl rfl id))

/-- The timers behind an index, changed but for their messages' frames. -/
theorem quiet_modify_timers (c : Context) (i : ℕ) (f : Timer → Timer)
    (h : ∀ t, (f t).msg.writer = t.msg.writer ∧ (f t).msg.reader = t.msg.reader) :
    Quiet c { c with timers := c.timers.modify i f } where
  transport := rfl
  messageCb := rfl
  errorCb := rfl
  templates := Templates.of_timers rfl fun t' ht' => by
    obtain ⟨j, hj, rfl⟩ := List.mem_iff_getElem.1 ht'
    rw [List.length_modify] at hj
    refine ⟨c.timers[j], List.getElem_mem hj, ?_⟩
    rw [List.getElem_modify]
    split_ifs
    · exact h _
    · exact ⟨rfl, rfl⟩
  queue := rfl
  serialNext := rfl
  resync := id
  log := ⟨[], (List.append_nil _).symm, by simp⟩

theorem postTimer_steps {c : Context} (hc : Templates c) (i : ℕ) :
    QueueSteps P G c (postTimer c i) := by
  unfold postTimer
  split
  · exact .refl
  · rename_i timer htimer
    obtain ⟨hreader, slaveId, request, hbuild⟩ := hc timer (List.mem_of_getElem? htimer)
    have henter : QueueStep P G c
        (postInternal c { timer.msg with msgId := timer.timerId } .subscribe) :=
      .enter hreader hbuild
    exact (Relation.ReflTransGen.single henter).tail
      (.quiet (quiet_modify_timers _ i _ fun t => ⟨rfl, rfl⟩))

theorem gatePost_steps {c : Context} (hc : Templates c) (timer : Timer) (now : Millitime)
    (i : ℕ) : QueueSteps P G c (gatePost c timer now i) := by
  have hgate := slaveGate_quiet c timer now
  unfold gatePost
  split_ifs
  · exact hgate.step.trans (postTimer_steps (hgate.templates hc) i)
  · exact hgate.step

theorem advanceTimer_quiet (c : Context) (i : ℕ) : Quiet c (advanceTimer c i) :=
  quiet_modify_timers c i _ fun _ => ⟨rfl, rfl⟩

theorem ScheduleStep.steps {env : Env} {c c' : Context} (h : ScheduleStep env c c')
    (hc : Templates c) : QueueSteps P G c c' := by
  cases h with
  | books => exact Quiet.step (.bookkeeping rfl rfl rfl rfl rfl rfl rfl id)
  | due => exact (gatePost_steps hc _ _ _).tail (.quiet (advanceTimer_quiet ..))
  | turn => exact gatePost_steps hc _ _ _

theorem ScheduleSteps.steps {env : Env} {c c' : Context} (h : ScheduleSteps env c c')
    (hc : Templates c) : QueueSteps P G c c' := by
  induction h with
  | refl => exact .refl
  | tail _ hstep ih => exact ih.trans (hstep.steps (ih.sameSetup.templates hc))

theorem loopPrepareSubscription_steps {c : Context} (hc : Templates c) (sleepTime : Millitime)
    (env : Env) : QueueSteps P G c (loopPrepareSubscription c sleepTime env).ctx :=
  ScheduleSteps.steps (loopPrepareSubscription_schedule c sleepTime env) hc

/-- A context that has told the application about a message. -/
structure Telling (flags : Flags) (m : Msg) (c c' : Context) : Prop extends SameSetup c c' where
  queue : c'.queue = c.queue
  serialNext : c'.serialNext = c.serialNext
  resyncPending : c'.resyncPending = c.resyncPending
  log : ∃ told, c'.log = c.log ++ told ∧ Told c flags m told

theorem slaveUpdate_flags (c : Context) (timerId : ℕ) (answered : Bool) (env : Env) :
    (slaveUpdate c timerId answered env).resyncPending = c.resyncPending ∧
      (slaveUpdate c timerId answered env).log = c.log := by
  unfold slaveUpdate
  dsimp only
  split
  · exact ⟨rfl, rfl⟩
  · split_ifs <;> exact ⟨rfl, rfl⟩

theorem rawReply_telling (c : Context) (slot : RawSlot) (flags : Flags) (m : Msg)
    (result : String) : Telling flags m c (rawReply c slot m result) :=
  ⟨⟨rfl, rfl, rfl, id⟩, rfl, rfl, rfl, _, rfl, .inl ⟨_, rfl⟩⟩

theorem reportError_telling (c : Context) (flags : Flags) (m : Msg) (error : ℤ) (env : Env) :
    Telling flags m c (reportError c m error env) := by
  unfold reportError
  split
  · exact rawReply_telling ..
  · obtain ⟨c₁, hc₁⟩ : ∃ c₁, c₁ =
        if 0 < m.msgId ∧ (error = errTimeout ∨ error = errException) then
          slaveUpdate c m.msgId (error = errException) env else c := ⟨_, rfl⟩
    have hq : Quiet c c₁ := by
      rw [hc₁]
      split_ifs
      · exact slaveUpdate_quiet ..
      · exact Quiet.refl c
    have hflags : c₁.resyncPending = c.resyncPending ∧ c₁.log = c.log := by
      rw [hc₁]
      split_ifs
      · exact slaveUpdate_flags ..
      · exact ⟨rfl, rfl⟩
    dsimp only
    rw [← hc₁]
    split_ifs with hcb
    · refine ⟨⟨hq.transport, hq.messageCb, hq.errorCb, hq.templates⟩, hq.queue, hq.serialNext,
        hflags.1, [.reported m (.error error)], by rw [← hflags.2]; rfl, .inl ⟨_, rfl⟩⟩
    · refine ⟨hq.toSameSetup, hq.queue, hq.serialNext, hflags.1, [],
        by rw [hflags.2, List.append_nil], .inr ⟨by simp, fun _ _ => ?_⟩⟩
      rwa [hq.errorCb] at hcb

theorem onceDone_flags (c : Context) (timerId : ℕ) :
    (onceDone c timerId).resyncPending = c.resyncPending := by
  unfold onceDone
  split <;> rfl

theorem Quiet.telling {c c' : Context} (h : Quiet c c') (hr : c'.resyncPending = c.resyncPending)
    (m : Msg) : Telling .subscribe m c c' := by
  obtain ⟨δ, hlog, hδ⟩ := h.log
  exact ⟨h.toSameSetup, h.queue, h.serialNext, hr, δ, hlog,
    .inr ⟨hδ, fun hflags => absurd hflags (by decide)⟩⟩

theorem reportAnswer_telling (c : Context) (flags : Flags) (m : Msg) (env : Env) :
    Telling flags m c (reportAnswer c flags m env) := by
  cases flags with
  | post =>
    unfold reportAnswer
    dsimp only
    split
    · exact rawReply_telling ..
    · split_ifs with hcb
      · exact ⟨⟨rfl, rfl, rfl, id⟩, rfl, rfl, rfl, [.reported m .message], rfl,
          .inl ⟨_, rfl⟩⟩
      · exact ⟨SameSetup.refl c, rfl, rfl, rfl, [], (List.append_nil _).symm,
          .inr ⟨by simp, fun _ hm => absurd hm hcb⟩⟩
  | subscribe =>
    unfold reportAnswer
    dsimp only
    split_ifs
    · have hquiet := (slaveUpdate_quiet c m.msgId true env).trans
        ((onceDone_quiet _ m.msgId).trans (deliver_quiet _ m))
      refine hquiet.telling ?_ m
      exact (onceDone_flags _ _).trans (slaveUpdate_flags c m.msgId true env).1
    · exact (Quiet.refl c).telling rfl m

/-- The head leaves once the application has been told about it. -/
theorem leave_step {c : Context} {wrapper : Wrapper} {rest : List Wrapper}
    (hq : c.queue = wrapper :: rest) {s : WriteRead} (hs : Served G c wrapper.msg s) {m : Msg}
    (hw : m.writer = s.msg.writer) (hserial : m.serial = s.msg.serial) {head : Wrapper}
    {c₁ c₂ c₃ : Context} (hquiet : Quiet { s.ctx with queue := head :: rest } c₁)
    (htell : Telling wrapper.flags m c₁ c₂) {error : ℤ} (hafter : Quiet (dropHead c₂ m error) c₃)
    (hP : P m error c₃.resyncPending) : QueueStep P G c c₃ := by
  obtain ⟨quiet, hquietlog, hsilent⟩ := hquiet.log
  obtain ⟨told, htoldlog, htold⟩ := htell.log
  obtain ⟨after, hafterlog, hsilent'⟩ := hafter.log
  have hqueue : c₂.queue = head :: rest := htell.queue.trans hquiet.queue
  have hnext : c₃.serialNext = c.serialNext := hafter.serialNext.trans
    (htell.serialNext.trans (hquiet.serialNext.trans hs.serialNext))
  have hqueued : SameSetup s.ctx { s.ctx with queue := head :: rest } := ⟨rfl, rfl, rfl, id⟩
  have hdropped : SameSetup c₂ (dropHead c₂ m error) := ⟨rfl, rfl, rfl, id⟩
  have hsetup := hqueued.trans (hquiet.toSameSetup.trans (htell.toSameSetup.trans
    (hdropped.trans hafter.toSameSetup)))
  have hbefore := hs.toSameSetup.trans (hqueued.trans hquiet.toSameSetup)
  have hresync : s.ctx.resyncPending → c₃.resyncPending := fun h => hafter.resync (by
    change c₂.resyncPending
    rw [htell.resyncPending]
    exact hquiet.resync h)
  refine .leave hq hs hw hserial hsetup ?_ hnext hresync hP
    ⟨quiet, told, after, ?_, hsilent, ?_, hsilent'⟩
  · rw [hafter.queue]
    change c₂.queue.tail = rest
    rw [hqueue]
    rfl
  · rw [hafterlog]
    change c₂.log ++ [.released m error] ++ after = _
    rw [htoldlog, hquietlog]
  · unfold Told at htold ⊢
    rwa [hbefore.messageCb, hbefore.errorCb] at htold

/-- How the message of a finished step ends: the message as it is reported, the error, and
whether a drain is pending then. -/
inductive Ends (s : WriteRead) : Msg → ℤ → Bool → Prop
  | answered {reader : Frame .reader} (hrc : s.rc = 0)
      (h : check s.ctx.transport s.msg.writer s.msg.reader = (0, reader)) :
      Ends s { s.msg with reader := reader } 0 s.ctx.resyncPending
  | rejected {rc : ℤ} {reader : Frame .reader} (hrc : s.rc = 0)
      (h : check s.ctx.transport s.msg.writer s.msg.reader = (rc, reader)) (hne : rc ≠ 0) :
      Ends s { s.msg with reader := reader }
        (rejectReason s.ctx.transport { s.msg with reader := reader }) true
  | refused (hrc : s.rc = errException) : Ends s s.msg errException s.ctx.resyncPending
  | noise (hrc : s.rc = errProtocol) :
      Ends s s.msg (rejectReason s.ctx.transport s.msg) s.ctx.resyncPending
  | failed (hneg : s.rc < 0) (hexception : s.rc ≠ errException) (hprotocol : s.rc ≠ errProtocol) :
      Ends s s.msg errTransport s.ctx.resyncPending

theorem Ends.rc_le {s : WriteRead} {m : Msg} {error : ℤ} {pending : Bool}
    (h : Ends s m error pending) : s.rc ≤ 0 := by
  cases h with
  | answered hrc => exact hrc.le
  | rejected hrc => exact hrc.le
  | refused hrc => exact hrc.le.trans (by decide)
  | noise hrc => exact hrc.le.trans (by decide)
  | failed hneg => exact hneg.le

theorem Ends.writer {s : WriteRead} {m : Msg} {error : ℤ} {pending : Bool}
    (h : Ends s m error pending) : m.writer = s.msg.writer := by
  cases h <;> rfl

/-- The context in which a rejected answer is reported. -/
def resynced (c : Context) (env : Env) : Context :=
  { flush { c with err := c.err + 1 } env with resyncPending := true }

theorem resynced_quiet (c : Context) (env : Env) : Quiet c (resynced c env) := by
  have hcount : Quiet c { c with err := c.err + 1 } := .bookkeeping rfl rfl rfl rfl rfl rfl rfl id
  have hmark : Quiet (flush { c with err := c.err + 1 } env) (resynced c env) :=
    .bookkeeping rfl rfl rfl rfl rfl rfl rfl fun _ => rfl
  exact hcount.trans ((flush_quiet _ env).trans hmark)

theorem handleMsg_cases (c : Context) (wrapper : Wrapper) (env : Env) :
    (∃ rc reader, check c.transport wrapper.msg.writer wrapper.msg.reader = (rc, reader) ∧ rc ≠ 0 ∧
      (handleMsg c wrapper env).2 =
        dropHead (reportError (resynced c env) { wrapper.msg with reader := reader }
          (rejectReason c.transport { wrapper.msg with reader := reader }) env)
          { wrapper.msg with reader := reader }
          (rejectReason c.transport { wrapper.msg with reader := reader })) ∨
    ∃ reader, check c.transport wrapper.msg.writer wrapper.msg.reader = (0, reader) ∧
      (handleMsg c wrapper env).2 =
        dropHead (reportAnswer c wrapper.flags { wrapper.msg with reader := reader } env)
          { wrapper.msg with reader := reader } 0 := by
  obtain ⟨⟨rc, reader⟩, hcheck⟩ : ∃ result,
      check c.transport wrapper.msg.writer wrapper.msg.reader = result := ⟨_, rfl⟩
  unfold handleMsg
  rw [hcheck]
  by_cases hrc : rc = 0
  · subst hrc
    exact .inr ⟨reader, rfl, rfl⟩
  · refine .inl ⟨rc, reader, rfl, hrc, ?_⟩
    dsimp only
    rw [if_pos hrc]
    rfl

/-- The head as a request whose serving ends here leaves it. -/
theorem handleMsg_step {c : Context} {wrapper : Wrapper} {rest : List Wrapper}
    (hq : c.queue = wrapper :: rest) {s : WriteRead} (hs : Served G c wrapper.msg s)
    (hrc : s.rc = 0) (hP : ∀ {m error pending}, Ends s m error pending → P m error pending)
    {c₁ : Context} (hquiet : Quiet { s.ctx with queue := { wrapper with msg := s.msg } :: rest } c₁)
    (htransport : c₁.transport = s.ctx.transport) (hpending : c₁.resyncPending = s.ctx.resyncPending)
    (env : Env) : QueueStep P G c (handleMsg c₁ { wrapper with msg := s.msg } env).2 := by
  rcases handleMsg_cases c₁ { wrapper with msg := s.msg } env with
    ⟨rc, reader, hcheck, hne, hresult⟩ | ⟨reader, hcheck, hresult⟩
  · rw [hresult]
    have htell := reportError_telling (resynced c₁ env) wrapper.flags { s.msg with reader := reader }
      (rejectReason c₁.transport { s.msg with reader := reader }) env
    refine leave_step (m := { s.msg with reader := reader }) hq hs rfl rfl
      (hquiet.trans (resynced_quiet _ env)) htell (Quiet.refl _) ?_
    change P _ _ (reportError _ _ _ env).resyncPending
    rw [htell.resyncPending, htransport]
    rw [htransport] at hcheck
    exact hP (.rejected hrc hcheck hne)
  · rw [hresult]
    have htell := reportAnswer_telling c₁ wrapper.flags { s.msg with reader := reader } env
    refine leave_step (m := { s.msg with reader := reader }) hq hs rfl rfl hquiet htell
      (Quiet.refl _) ?_
    change P _ _ (reportAnswer _ _ _ env).resyncPending
    rw [htell.resyncPending, hpending]
    rw [htransport] at hcheck
    exact hP (.answered hrc hcheck)

/-- A head that failed leaves once its error is reported. -/
theorem fail_step {c : Context} {wrapper head : Wrapper} {rest : List Wrapper}
    (hq : c.queue = wrapper :: rest) {s : WriteRead} (hs : Served G c wrapper.msg s)
    {c₁ : Context} (hquiet : Quiet { s.ctx with queue := head :: rest } c₁)
    {error : ℤ} (env : Env) (hP : P s.msg error c₁.resyncPending) :
    QueueStep P G c (dropHead (reportError c₁ s.msg error env) s.msg error) := by
  have htell := reportError_telling c₁ wrapper.flags s.msg error env
  refine leave_step hq hs rfl rfl hquiet htell (Quiet.refl _) ?_
  change P _ _ (reportError _ _ _ env).resyncPending
  rw [htell.resyncPending]
  exact hP

theorem loopWriteRead_steps {c : Context} (hc : WellFormed c) (revents : Revents) (env : Env)
    (hP : ∀ wrapper, c.queue.head? = some wrapper → ∀ {m error pending},
      Ends (handleWriteRead c wrapper.msg revents env) m error pending → P m error pending)
    (hG : G → ∀ wrapper, c.queue.head? = some wrapper →
      DrainsFirst c wrapper.msg revents env) :
    QueueSteps P G c (loopWriteRead c revents env).2 := by
  unfold loopWriteRead
  split
  · split_ifs
    · exact Quiet.step (.bookkeeping rfl rfl rfl rfl rfl rfl rfl id)
    · exact .refl
  · rename_i wrapper rest hq
    have hhead : c.queue.head? = some wrapper := by
      rw [hq]
      rfl
    have hm := hc.head wrapper hhead
    have hs := handleWriteRead_served revents env hm.underway fun hg => hG hg wrapper hhead
    have hP' := @hP wrapper hhead
    have hkeep : KeepsRequest (handleWriteRead c wrapper.msg revents env).rc →
        Outstanding c.transport (handleWriteRead c wrapper.msg revents env).msg :=
      fun h => .step hm rfl revents env h
    generalize handleWriteRead c wrapper.msg revents env = s at hs hP' hkeep
    dsimp only
    have hqueued : Quiet { s.ctx with queue := { wrapper with msg := s.msg } :: rest }
        { s.ctx with queue := { wrapper with msg := s.msg } :: rest } := Quiet.refl _
    have hcounted : Quiet { s.ctx with queue := { wrapper with msg := s.msg } :: rest }
        { s.ctx with
          queue := { wrapper with msg := s.msg } :: rest
          err := s.ctx.err + 1 } := .bookkeeping rfl rfl rfl rfl rfl rfl rfl id
    split_ifs with hdone hexception hprotocol hneg
    · refine .single (handleMsg_step hq hs hdone hP' (.bookkeeping ?_ ?_ ?_ ?_ ?_ ?_ ?_ ?_) ?_ ?_ env)
      all_goals first | rfl | exact id
    · exact .single (fail_step hq hs hcounted env (hP' (.refused hexception)))
    · exact .single (fail_step hq hs hqueued env (hP' (.noise hprotocol)))
    · exact .single (fail_step hq hs hcounted env (hP' (.failed hneg hexception hprotocol)))
    · exact .single (.stay hq hs wrapper.headSinceMs fun _ => hkeep (.inl (not_lt.1 hneg)))

theorem Underway.fits {t : Transport} {m : Msg} (h : Underway t m) :
    m.writer.xmit ≤ m.writer.length := by
  rcases h.stage with hsend | ⟨hsent, -⟩
  · exact hsend.unsent.le
  · exact hsent.le

theorem served_refl {c : Context} {m : Msg} (h : Underway c.transport m) :
    Served G c m ⟨0, c, m⟩ :=
  (Quiet.refl c).served rfl rfl h.fits 0

theorem WellFormed.underway {c : Context} (hc : WellFormed c) :
    ∀ wrapper ∈ c.queue, Underway c.transport wrapper.msg := by
  intro wrapper hmem
  cases hq : c.queue with
  | nil =>
    rw [hq] at hmem
    exact absurd hmem List.not_mem_nil
  | cons head rest =>
    rw [hq] at hmem
    rcases List.mem_cons.1 hmem with rfl | hrest
    · exact (hc.head wrapper (by rw [hq]; rfl)).underway
    · exact (hc.waiting wrapper (by rw [hq]; exact hrest)).underway

theorem dropAll_steps {c : Context} (hc : WellFormed c)
    (hP : ∀ wrapper ∈ c.queue, ∀ pending, P wrapper.msg errTransport pending) (env : Env) :
    QueueSteps P G c (dropAll env c.queue c) := by
  generalize hqueue : c.queue = queue at hP
  induction queue generalizing c with
  | nil => exact .refl
  | cons wrapper rest ih =>
    have hunder := hc.underway wrapper (by rw [hqueue]; exact List.mem_cons_self ..)
    have hstep : QueueStep P G c
        (dropHead (reportError { c with queue := wrapper :: rest } wrapper.msg errTransport env)
          wrapper.msg errTransport) :=
      fail_step hqueue (served_refl hunder) (Quiet.refl { c with queue := wrapper :: rest }) env
        (hP wrapper (List.mem_cons_self ..) _)
    have htell := reportError_telling { c with queue := wrapper :: rest } wrapper.flags wrapper.msg
      errTransport env
    have hrest : (dropHead (reportError { c with queue := wrapper :: rest } wrapper.msg
        errTransport env) wrapper.msg errTransport).queue = rest := by
      change (reportError _ _ _ _).queue.tail = rest
      rw [htell.queue]
      rfl
    refine (Relation.ReflTransGen.single hstep).trans ?_
    exact ih (hstep.wellFormed hc) hrest fun w hw => hP w (List.mem_cons_of_mem _ hw)

theorem resetQueue_steps {c : Context} (hc : WellFormed c)
    (hP : ∀ wrapper ∈ c.queue, ∀ pending, P wrapper.msg errTransport pending) (env : Env) :
    QueueSteps P G c (resetQueue c env) :=
  (dropAll_steps hc hP env).tail (.quiet (onceRearm_quiet _ env))

@[simp] theorem stampHead_msg (wrapper : Wrapper) (now : Millitime) :
    (stampHead wrapper now).msg = wrapper.msg := by
  unfold stampHead
  split_ifs <;> rfl

@[simp] theorem stampHead_flags (wrapper : Wrapper) (now : Millitime) :
    (stampHead wrapper now).flags = wrapper.flags := by
  unfold stampHead
  split_ifs <;> rfl

/-- What makes `modbusmq_loop_prepare` give the head up. -/
def TimesOut (c : Context) (wrapper : Wrapper) (env : Env) : Prop :=
  let now := env.clock .head
  let w := wrapper.msg.writer
  if 0 < w.length ∧ w.xmit = w.length then c.frameTimeoutMs ≤ now - c.lastWriteMs
  else c.frameTimeoutMs ≤ now - (stampHead wrapper now).headSinceMs

instance (c : Context) (wrapper : Wrapper) (env : Env) : Decidable (TimesOut c wrapper env) := by
  unfold TimesOut
  infer_instance

/-- The counters after a timeout. A request that was on the wire opens a quiet gap, since
its late answer may still be on the bus. -/
def countTimeout (c : Context) (w : Frame .writer) (now : Millitime) : Context :=
  if 0 < w.length ∧ w.xmit = w.length then
    { c with err := c.err + 1, tx := c.tx + 1, lastWriteMs := 0, lastReadMs := now }
  else { c with err := c.err + 1, lastWriteMs := 0 }

theorem countTimeout_quiet (c : Context) (w : Frame .writer) (now : Millitime) :
    Quiet c (countTimeout c w now) := by
  unfold countTimeout
  split_ifs
  · exact .bookkeeping rfl rfl rfl rfl rfl rfl rfl id
  · exact .bookkeeping rfl rfl rfl rfl rfl rfl rfl id

def timedOut (c : Context) (wrapper : Wrapper) (rest : List Wrapper) (env : Env) : Context :=
  let now := env.clock .head
  let head := stampHead wrapper now
  let c := dropHead (reportError { c with queue := head :: rest } wrapper.msg errTimeout env)
    wrapper.msg errTimeout
  { flush (countTimeout c wrapper.msg.writer now) env with resyncPending := true }

theorem timeOutHead_cons {c : Context} {wrapper : Wrapper} {rest : List Wrapper}
    (hq : c.queue = wrapper :: rest) (env : Env) :
    timeOutHead c env = if TimesOut c wrapper env then timedOut c wrapper rest env
      else { c with queue := stampHead wrapper (env.clock .head) :: rest } := by
  unfold timeOutHead
  rw [hq]
  dsimp only
  simp only [stampHead_msg, decide_eq_true_eq]
  unfold TimesOut timedOut countTimeout
  dsimp only
  by_cases hsent : 0 < wrapper.msg.writer.length ∧ wrapper.msg.writer.xmit = wrapper.msg.writer.length
  · simp only [hsent, and_self, true_and, if_true, not_true, false_and, if_false]
  · simp only [hsent, false_and, not_false_iff, true_and, if_false]

theorem timedOut_step {c : Context} {wrapper : Wrapper} {rest : List Wrapper}
    (hq : c.queue = wrapper :: rest) (hc : Underway c.transport wrapper.msg)
    (hP : P wrapper.msg errTimeout true) (env : Env) :
    QueueStep P G c (timedOut c wrapper rest env) := by
  have htell := reportError_telling
    { c with queue := stampHead wrapper (env.clock .head) :: rest } wrapper.flags wrapper.msg
    errTimeout env
  refine leave_step hq (served_refl hc) rfl rfl (Quiet.refl _) htell ?_ hP
  exact (countTimeout_quiet _ _ _).trans
    ((flush_quiet _ env).trans (.bookkeeping rfl rfl rfl rfl rfl rfl rfl fun _ => rfl))

theorem timeOutHead_steps {c : Context} (hc : WellFormed c) (env : Env)
    (hP : ∀ wrapper, c.queue.head? = some wrapper → TimesOut c wrapper env →
      P wrapper.msg errTimeout true) :
    QueueSteps P G c (timeOutHead c env) := by
  cases hq : c.queue with
  | nil =>
    have hsame : timeOutHead c env = c := by
      unfold timeOutHead
      rw [hq]
    rw [hsame]
  | cons wrapper rest =>
    have hhead : c.queue.head? = some wrapper := by
      rw [hq]
      rfl
    have hunder := (hc.head wrapper hhead).underway
    rw [timeOutHead_cons hq]
    split_ifs with hout
    · exact .single (timedOut_step hq hunder (hP wrapper hhead hout) env)
    · have hstay := QueueStep.stay (P := P) hq (served_refl (G := G) hunder)
        (stampHead wrapper (env.clock .head)).headSinceMs id
      have hstamped : stampHead wrapper (env.clock .head) =
          { wrapper with headSinceMs := (stampHead wrapper (env.clock .head)).headSinceMs } := by
        unfold stampHead
        split_ifs <;> rfl
      rw [hstamped]
      exact .single hstay

theorem loopPrepare_steps {c : Context} (hc : WellFormed c) (sleepTime : Millitime) (env : Env)
    (hP : ∀ wrapper, c.queue.head? = some wrapper → TimesOut c wrapper env →
      P wrapper.msg errTimeout true) :
    QueueSteps P G c (loopPrepare c sleepTime env).ctx := by
  unfold loopPrepare
  split_ifs
  · rw [prepareEvents_ctx]
    have hout := timeOutHead_steps (G := G) hc env hP
    exact hout.trans (loopPrepareSubscription_steps (hout.sameSetup.templates hc.templates) _ env)
  · exact .refl

end Modbusmq
