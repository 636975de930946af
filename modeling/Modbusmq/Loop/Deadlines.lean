import Modbusmq.Loop.Misses
import Modbusmq.Loop.QuietGap

/-!
# How long a request was waited for

`modbusmq_loop_prepare` compares the clock with the reading that was taken when
the last byte of the head was written, or, while it is not sent, with the one
that was taken when it came to the head. The readings are of the wall clock, and
their difference is unsigned: a reading from before the stored one makes it huge.
-/

namespace Modbusmq

/-- The reading that a later one is compared with, for the head. -/
def deadlineStart (c : Context) (wrapper : Wrapper) (now : Millitime) : Millitime :=
  if wrapper.msg.OnWire then c.lastWriteMs else (stampHead wrapper now).headSinceMs

theorem timesOut_iff (c : Context) (wrapper : Wrapper) (env : Env) : TimesOut c wrapper env ↔
    c.frameTimeoutMs ≤ env.clock .head - deadlineStart c wrapper (env.clock .head) := by
  unfold TimesOut deadlineStart
  by_cases hsent : wrapper.msg.OnWire
  · rw [if_pos hsent]
    exact iff_of_eq (if_pos hsent)
  · rw [if_neg hsent]
    exact iff_of_eq (if_neg hsent)

/-- In the run `calls` the last byte of request `serial` was written, after the clock had read
`reading`. -/
def WroteLast (c₀ : Context) (calls : List (Call × Env)) (serial : ℕ) (reading : Millitime) : Prop :=
  ∃ before revents env after, calls = before ++ (.writeRead revents, env) :: after ∧
    reading = env.clock .stamp ∧ ∃ wrapper ∈ (run before c₀).queue.head?,
      wrapper.msg.serial = serial ∧ ¬ wrapper.msg.OnWire ∧
        (handleWriteRead (run before c₀) wrapper.msg revents env).msg.OnWire

/-- In the run `calls` request `serial` was found at the head, without a time from before, when
the clock read `reading`. -/
def CameToHead (c₀ : Context) (calls : List (Call × Env)) (serial : ℕ) (reading : Millitime) :
    Prop :=
  ∃ before sleepTime env after, calls = before ++ (.prepare sleepTime, env) :: after ∧
    reading = env.clock .head ∧ (run before c₀).connected ∧
      ∃ wrapper ∈ (run before c₀).queue.head?, wrapper.msg.serial = serial ∧ wrapper.headSinceMs = 0

/-- A request was waited for: `now` is a whole timeout after its last byte was written, or after
it came to the head if it is not sent. -/
def Waited (c₀ : Context) (calls : List (Call × Env)) (timeout : Millitime) (m : Msg)
    (now : Millitime) : Prop :=
  ∃ reading, (if m.OnWire then WroteLast c₀ calls m.serial reading
      else CameToHead c₀ calls m.serial reading) ∧
    reading.toNat + timeout.toNat ≤ now.toNat

/-- The call gives the request up with `MODBUSMQ_ERR_TIMEOUT`, or reports that to the
application. -/
def GivesUp (c : Context) (env : Env) (call : Call) (m : Msg) : Prop :=
  ∃ δ, (call.perform c env).log = c.log ++ δ ∧
    (.released m errTimeout ∈ δ ∨ .reported m (.error errTimeout) ∈ δ)

/-- The clock does not read a time before the one it is compared with, where that would end
the wait. -/
def ReadsForward (c : Context) (env : Env) : Call → Prop
  | .prepare _ => c.connected → ∀ wrapper ∈ c.queue.head?, TimesOut c wrapper env →
      deadlineStart c wrapper (env.clock .head) ≤ env.clock .head
  | _ => True

/-- A request that was not at the head yet. -/
def Wrapper.New (wrapper : Wrapper) : Prop :=
  wrapper.headSinceMs = 0 ∧ wrapper.msg.writer.xmit = 0

theorem Wrapper.New.not_onWire {wrapper : Wrapper} (h : wrapper.New) : ¬ wrapper.msg.OnWire := by
  rintro ⟨hpos, hwhole⟩
  rw [h.2] at hwhole
  omega

/-- The head stays with its times, or a new one takes its place. -/
structure HeadKept (c c' : Context) : Prop where
  head : ∀ w ∈ c'.queue.head?, (w ∈ c.queue.head? ∧ c'.lastWriteMs = c.lastWriteMs) ∨ w.New
  tail : ∀ w ∈ c'.queue.tail, w ∈ c.queue.tail ∨ w.headSinceMs = 0

theorem HeadKept.trans {c₁ c₂ c₃ : Context} (h : HeadKept c₁ c₂) (h' : HeadKept c₂ c₃) :
    HeadKept c₁ c₃ where
  head w hw := by
    rcases h'.head w hw with ⟨hmem, hsame⟩ | hnew
    · rcases h.head w hmem with ⟨hmem', hsame'⟩ | hnew
      · exact .inl ⟨hmem', hsame.trans hsame'⟩
      · exact .inr hnew
    · exact .inr hnew
  tail w hw := (h'.tail w hw).elim (h.tail w) .inr

theorem headKept_same {c c' : Context} (hqueue : c'.queue = c.queue)
    (hwrite : c'.lastWriteMs = c.lastWriteMs) : HeadKept c c' where
  head _ hw := .inl ⟨hqueue ▸ hw, hwrite⟩
  tail _ hw := .inl (hqueue ▸ hw)

theorem headKept_enter {c : Context} {m : Msg} (flags : Flags) {slaveId : ℤ} {request : Request}
    (hreader : m.reader = Frame.zero .reader)
    (hbuild : request.build c.transport slaveId = some m.writer) :
    HeadKept c (postInternal c m flags) := by
  have hposted := posted_enter hreader hbuild
  cases hq : c.queue with
  | nil =>
    have hqueue := postInternal_queue c m flags
    rw [hq] at hqueue
    change _ = [_] at hqueue
    refine ⟨fun w hw => ?_, fun w hw => ?_⟩
    · rw [hqueue] at hw
      obtain rfl : _ = w := Option.some.inj hw
      exact .inr ⟨rfl, hposted.unsent⟩
    · rw [hqueue] at hw
      exact absurd hw List.not_mem_nil
  | cons head rest =>
    obtain ⟨rest', henqueue, hrest⟩ := enqueue_cons head rest ⟨flags, 0,
      preparedMsg c.transport (nextTransaction c.transport c.transactionId)
        { m with reqId := nextReqId c.reqIdNext, serial := c.serialNext }⟩
    have hqueue : (postInternal c m flags).queue = head :: rest' := by
      rw [postInternal_queue, hq, henqueue]
    refine ⟨fun w hw => .inl ⟨?_, rfl⟩, fun w hw => ?_⟩
    · rw [hqueue] at hw
      rw [hq]
      exact hw
    · rw [hqueue] at hw
      rcases (hrest w).1 hw with hold | rfl
      · rw [hq]
        exact .inl hold
      · exact .inr rfl

theorem headKept_leave {c c' : Context} (hnew : ∀ w ∈ c.queue.tail, w.New)
    (hqueue : c'.queue = c.queue.tail) : HeadKept c c' where
  head w hw := by
    rw [hqueue] at hw
    exact .inr (hnew w (List.mem_of_mem_head? hw))
  tail w hw := by
    rw [hqueue] at hw
    exact .inl (List.mem_of_mem_tail hw)

theorem postTimer_headKept {c : Context} (hc : Templates c) (i : ℕ) : HeadKept c (postTimer c i) := by
  unfold postTimer
  split
  · exact headKept_same rfl rfl
  · rename_i timer htimer
    obtain ⟨hreader, slaveId, request, hbuild⟩ := hc timer (List.mem_of_getElem? htimer)
    have hpost : HeadKept c (postInternal c { timer.msg with msgId := timer.timerId } .subscribe) :=
      headKept_enter .subscribe hreader hbuild
    exact hpost.trans (headKept_same rfl rfl)

theorem gatePost_headKept {c : Context} (hc : Templates c) (timer : Timer) (now : Millitime)
    (i : ℕ) : HeadKept c (gatePost c timer now i) := by
  have hgate : HeadKept c (slaveGate c timer now).2 := by
    unfold slaveGate
    split_ifs <;> exact headKept_same rfl rfl
  unfold gatePost
  split_ifs
  · exact hgate.trans (postTimer_headKept ((slaveGate_quiet c timer now).templates hc) i)
  · exact hgate

theorem ScheduleStep.headKept {env : Env} {c c' : Context} (h : ScheduleStep env c c')
    (hc : Templates c) : HeadKept c c' := by
  cases h with
  | books => exact headKept_same rfl rfl
  | due => exact (gatePost_headKept hc _ _ _).trans (headKept_same rfl rfl)
  | turn => exact gatePost_headKept hc _ _ _

theorem ScheduleSteps.headKept {env : Env} {c c' : Context} (h : ScheduleSteps env c c')
    (hc : Templates c) : HeadKept c c' ∧ Templates c' := by
  induction h with
  | refl => exact ⟨headKept_same rfl rfl, hc⟩
  | tail _ hstep ih =>
    exact ⟨ih.1.trans (hstep.headKept ih.2),
      (QueueSteps.sameSetup (hstep.steps (P := fun _ _ _ => True) (G := False) ih.2)).templates ih.2⟩

/-- The time of a write is noted while the request is being sent, and not touched afterwards. -/
theorem handleWriteRead_lastWrite {c : Context} {m : Msg} (revents : Revents) (env : Env)
    (h : Underway c.transport m) :
    (m.OnWire → (handleWriteRead c m revents env).ctx.lastWriteMs = c.lastWriteMs) ∧
      (¬ m.OnWire → (handleWriteRead c m revents env).msg.OnWire →
        (handleWriteRead c m revents env).ctx.lastWriteMs = env.clock .stamp) := by
  have hout := handleWriteRead_outcome revents env h
  generalize handleWriteRead c m revents env = s at hout
  cases hout with
  | waits => exact ⟨fun _ => rfl, fun hopen hsent => absurd hsent hopen⟩
  | complete => exact ⟨fun _ => rfl, fun hopen hsent => absurd hsent hopen⟩
  | writing _ hsend hwrite =>
    refine ⟨fun hsent => absurd hsent.2 hsend.unsent.ne, fun hopen hsent => ?_⟩
    cases hwrite with
    | gap => exact absurd hsent hopen
    | failed => rfl
    | part => rfl
    | broadcast => rfl
    | whole => rfl
  | reading _ hwhole _ _ hread =>
    refine ⟨fun _ => ?_, fun hopen hsent => absurd ?_ hopen⟩
    · cases hread <;> rfl
    · have hpos := h.request.header
      have hmin : 0 < c.transport.reqHeaderMin := by cases c.transport <;> decide
      exact ⟨by omega, hwhole⟩

theorem loopWriteRead_queue {c : Context} {wrapper : Wrapper} {rest : List Wrapper}
    (hq : c.queue = wrapper :: rest) (revents : Revents) (env : Env) :
    ((loopWriteRead c revents env).2.queue =
        { wrapper with msg := (handleWriteRead c wrapper.msg revents env).msg } :: rest ∧
      (loopWriteRead c revents env).2.lastWriteMs =
        (handleWriteRead c wrapper.msg revents env).ctx.lastWriteMs) ∨
      (loopWriteRead c revents env).2.queue = rest := by
  have hfail : ∀ {c₁ : Context} {m : Msg} {error : ℤ} {head : Wrapper}, c₁.queue = head :: rest →
      (dropHead (reportError c₁ m error env) m error).queue = rest := by
    intro c₁ m error head hqueue
    change (reportError c₁ m error env).queue.tail = rest
    rw [(reportError_telling c₁ .post m error env).queue, hqueue]
    rfl
  unfold loopWriteRead
  rw [hq]
  dsimp only
  split_ifs
  · right
    rw [(handleMsg_leaves _ _ env).1]
    rfl
  · exact .inr (hfail rfl)
  · exact .inr (hfail rfl)
  · exact .inr (hfail rfl)
  · exact .inl ⟨rfl, rfl⟩

/-- The times that are kept for the head were read when it came there and when its last byte was
written. -/
structure Dated (c₀ : Context) (calls : List (Call × Env)) (c : Context) : Prop where
  waiting : ∀ w ∈ c.queue.tail, w.headSinceMs = 0
  found : ∀ w ∈ c.queue.head?, w.headSinceMs ≠ 0 → CameToHead c₀ calls w.msg.serial w.headSinceMs
  sent : ∀ w ∈ c.queue.head?, w.msg.OnWire → WroteLast c₀ calls w.msg.serial c.lastWriteMs

theorem CameToHead.append {c₀ : Context} {calls : List (Call × Env)} {serial : ℕ}
    {reading : Millitime} (h : CameToHead c₀ calls serial reading) (more : List (Call × Env)) :
    CameToHead c₀ (calls ++ more) serial reading := by
  obtain ⟨before, sleepTime, env, after, hcalls, hfound⟩ := h
  exact ⟨before, sleepTime, env, after ++ more, by rw [hcalls, List.append_assoc]; rfl, hfound⟩

theorem WroteLast.append {c₀ : Context} {calls : List (Call × Env)} {serial : ℕ}
    {reading : Millitime} (h : WroteLast c₀ calls serial reading) (more : List (Call × Env)) :
    WroteLast c₀ (calls ++ more) serial reading := by
  obtain ⟨before, revents, env, after, hcalls, hsent⟩ := h
  exact ⟨before, revents, env, after ++ more, by rw [hcalls, List.append_assoc]; rfl, hsent⟩

theorem Dated.append {c₀ c : Context} {calls : List (Call × Env)} (h : Dated c₀ calls c)
    (more : List (Call × Env)) : Dated c₀ (calls ++ more) c where
  waiting := h.waiting
  found w hw hsince := (h.found w hw hsince).append more
  sent w hw hwire := (h.sent w hw hwire).append more

theorem Dated.kept {c₀ c c' : Context} {calls : List (Call × Env)} (h : Dated c₀ calls c)
    (hkept : HeadKept c c') : Dated c₀ calls c' where
  waiting w hw := (hkept.tail w hw).elim (h.waiting w) id
  found w hw hsince := by
    rcases hkept.head w hw with ⟨hmem, -⟩ | hnew
    · exact h.found w hmem hsince
    · exact absurd hnew.1 hsince
  sent w hw hwire := by
    rcases hkept.head w hw with ⟨hmem, hsame⟩ | hnew
    · rw [hsame]
      exact h.sent w hmem hwire
    · exact absurd hwire hnew.not_onWire

theorem Dated.new {c₀ c : Context} {calls : List (Call × Env)} (h : Dated c₀ calls c)
    (hc : WellFormed c) : ∀ w ∈ c.queue.tail, w.New :=
  fun w hw => ⟨h.waiting w hw, (hc.waiting w hw).unsent⟩

/-- `modbusmq_loop_prepare` notes the time for a head that has none. -/
theorem Dated.stamped {c₀ : Context} {calls : List (Call × Env)} (h : Dated c₀ calls (run calls c₀))
    {wrapper : Wrapper} {rest : List Wrapper} (hq : (run calls c₀).queue = wrapper :: rest)
    (hconn : (run calls c₀).connected) (sleepTime : Millitime) (env : Env) :
    Dated c₀ (calls ++ [(.prepare sleepTime, env)])
      { run calls c₀ with queue := stampHead wrapper (env.clock .head) :: rest } := by
  have hhead : wrapper ∈ (run calls c₀).queue.head? := by
    rw [hq]
    rfl
  refine ⟨fun w hw => h.waiting w (by rw [hq]; exact hw), fun w hw hsince => ?_, fun w hw hwire => ?_⟩
  · obtain rfl : _ = w := Option.some.inj hw
    rw [stampHead_msg]
    by_cases hzero : wrapper.headSinceMs = 0
    · refine ⟨calls, sleepTime, env, [], rfl, ?_, hconn, wrapper, hhead, rfl, hzero⟩
      unfold stampHead
      rw [if_pos hzero]
    · have hsame : stampHead wrapper (env.clock .head) = wrapper := if_neg hzero
      rw [hsame]
      exact (h.found wrapper hhead hzero).append _
  · obtain rfl : _ = w := Option.some.inj hw
    rw [stampHead_msg] at hwire ⊢
    exact (h.sent wrapper hhead hwire).append _

/-- `modbusmq_loop_write_read` notes the time of the last write. -/
theorem Dated.served {c₀ : Context} {calls : List (Call × Env)} (h : Dated c₀ calls (run calls c₀))
    (hc : WellFormed (run calls c₀)) (revents : Revents) (env : Env) :
    Dated c₀ (calls ++ [(.writeRead revents, env)]) (loopWriteRead (run calls c₀) revents env).2 := by
  cases hq : (run calls c₀).queue with
  | nil =>
    refine (h.append _).kept (headKept_same ?_ ?_)
    · unfold loopWriteRead
      rw [hq]
      dsimp only
      split_ifs
      · rfl
      · exact hq
    · unfold loopWriteRead
      rw [hq]
      dsimp only
      split_ifs <;> rfl
  | cons wrapper rest =>
    have hhead : wrapper ∈ (run calls c₀).queue.head? := by
      rw [hq]
      rfl
    rcases loopWriteRead_queue hq revents env with ⟨hqueue, hwrite⟩ | hqueue
    · have hunder := (hc.head wrapper hhead).underway
      obtain ⟨hold, hnow⟩ := handleWriteRead_lastWrite revents env hunder
      have hserial := (handleWriteRead_moved (run calls c₀) wrapper.msg revents env).2.serial
      refine ⟨fun w hw => h.waiting w ?_, fun w hw hsince => ?_, fun w hw hwire => ?_⟩
      · rw [hqueue] at hw
        rw [hq]
        exact hw
      · rw [hqueue] at hw
        obtain rfl : _ = w := Option.some.inj hw
        rw [hserial]
        exact (h.found wrapper hhead hsince).append _
      · rw [hqueue] at hw
        obtain rfl : _ = w := Option.some.inj hw
        rw [hwrite, hserial]
        by_cases hsent : wrapper.msg.OnWire
        · rw [hold hsent]
          exact (h.sent wrapper hhead hsent).append _
        · exact ⟨calls, revents, env, [], rfl, hnow hsent hwire, wrapper, hhead, rfl, hsent, hwire⟩
    · refine (h.append _).kept (headKept_leave (h.new hc) ?_)
      rw [hqueue, hq]
      rfl

theorem timedOut_queue (c : Context) (wrapper : Wrapper) (rest : List Wrapper) (env : Env) :
    (timedOut c wrapper rest env).queue = rest := by
  unfold timedOut
  dsimp only
  change (countTimeout _ _ _).queue = rest
  rw [(countTimeout_quiet _ _ _).queue]
  change (reportError _ _ _ _).queue.tail = rest
  rw [(reportError_telling _ .post _ _ env).queue]
  rfl

/-- `modbusmq_loop_prepare` times the head out or notes its time, and then posts polls. -/
theorem Dated.prepared {c₀ : Context} {calls : List (Call × Env)} (h : Dated c₀ calls (run calls c₀))
    (hc : WellFormed (run calls c₀)) (sleepTime : Millitime) (env : Env) :
    Dated c₀ (calls ++ [(.prepare sleepTime, env)]) (loopPrepare (run calls c₀) sleepTime env).ctx := by
  by_cases hconn : (run calls c₀).connected = true
  · unfold loopPrepare
    rw [if_pos hconn, prepareEvents_ctx]
    have htemplates : Templates (timeOutHead (run calls c₀) env) :=
      ((timeOutHead_steps (P := fun _ _ _ => True) (G := False) hc env
        fun _ _ _ => trivial).wellFormed hc).templates
    have hsubscription := loopPrepareSubscription_schedule (timeOutHead (run calls c₀) env)
      sleepTime env
    refine Dated.kept ?_ (ScheduleSteps.headKept hsubscription htemplates).1
    cases hq : (run calls c₀).queue with
    | nil =>
      have hsame : timeOutHead (run calls c₀) env = run calls c₀ := by
        unfold timeOutHead
        rw [hq]
      rw [hsame]
      exact h.append _
    | cons wrapper rest =>
      rw [timeOutHead_cons hq]
      split_ifs
      · refine (h.append _).kept (headKept_leave (h.new hc) ?_)
        rw [timedOut_queue, hq]
        rfl
      · exact h.stamped hq hconn sleepTime env
  · rw [loopPrepare_disconnected hconn]
    exact h.append _

theorem postRequest_headKept (c : Context) (slaveId : ℤ) (request : Request) :
    HeadKept c (postRequest c slaveId request) := by
  have hslave : HeadKept c (setSlave c slaveId) := headKept_same rfl rfl
  unfold postRequest
  split
  · rename_i writer hbuild
    have hpost : HeadKept (setSlave c slaveId) (post (setSlave c slaveId) writer) :=
      headKept_enter .post rfl hbuild
    exact hslave.trans hpost
  · exact hslave

theorem rawRequest_headKept (c : Context) (text : String) (stray : ℕ → UInt8) :
    HeadKept c (rawRequest c text stray).2 := by
  unfold rawRequest
  dsimp only
  split
  · exact headKept_same rfl rfl
  · rename_i hprepare
    obtain ⟨slaveId, request, hbuild⟩ := rawPrepare_build hprepare
    have hpost : HeadKept c (post c _) := headKept_enter .post rfl hbuild
    exact hpost.trans (headKept_same rfl rfl)

theorem dropAll_queue (env : Env) (queue : List Wrapper) {c : Context} (hq : c.queue = queue) :
    (dropAll env queue c).queue = [] := by
  induction queue generalizing c with
  | nil => exact hq
  | cons wrapper rest ih =>
    refine ih ?_
    change (reportError _ _ _ _).queue.tail = rest
    rw [(reportError_telling _ .post _ _ env).queue]
    rfl

theorem Dated.perform {c₀ : Context} {calls : List (Call × Env)} (h : Dated c₀ calls (run calls c₀))
    (hc : WellFormed (run calls c₀)) (call : Call) (env : Env) :
    Dated c₀ (calls ++ [(call, env)]) (call.perform (run calls c₀) env) := by
  cases call with
  | post slaveId request => exact (h.append _).kept (postRequest_headKept _ slaveId request)
  | raw text stray => exact (h.append _).kept (rawRequest_headKept _ text stray)
  | subscribe slaveId request interval =>
    refine (h.append _).kept ?_
    change HeadKept _ (subscribeRequest (run calls c₀) slaveId request interval env)
    rcases subscribeRequest_cases (run calls c₀) slaveId request interval env with
      hsame | ⟨mode, writer, timer, -, -, -, -, hadded⟩
    · rw [hsame]
      exact headKept_same rfl rfl
    · rw [hadded]
      exact headKept_same rfl rfl
  | prepare sleepTime => exact h.prepared hc sleepTime env
  | writeRead revents => exact h.served hc revents env
  | reset =>
    have hnone : (Call.perform (run calls c₀) env .reset).queue = [] :=
      dropAll_queue env _ rfl
    refine ⟨?_, ?_, ?_⟩ <;> rw [hnone] <;> nofun
  | rearm => exact (h.append _).kept (headKept_same rfl rfl)
  | focus slave =>
    refine (h.append _).kept ?_
    change HeadKept _ (setFocus (run calls c₀) slave).2
    unfold setFocus
    split
    · exact headKept_same rfl rfl
    · split_ifs <;> exact headKept_same rfl rfl
  | connect opened =>
    refine (h.append _).kept ?_
    change HeadKept _ (Modbusmq.connect (run calls c₀) opened).2
    unfold Modbusmq.connect
    split_ifs <;> exact headKept_same rfl rfl
  | close => exact (h.append _).kept (headKept_same rfl rfl)
  | configure config processConfig frameTimeoutMs =>
    exact (h.append _).kept (headKept_same rfl rfl)
  | arrive bytes => exact (h.append _).kept (headKept_same rfl rfl)

theorem run_dated {c₀ : Context} (hfresh : Fresh c₀) (calls : List (Call × Env)) :
    Dated c₀ calls (run calls c₀) := by
  induction calls using List.reverseRecOn with
  | nil =>
    refine ⟨?_, ?_, ?_⟩ <;> simp [run, hfresh.queue]
  | append_singleton calls call ih =>
    rw [run_append]
    exact ih.perform (run_wellFormed hfresh.wellFormed calls) call.1 call.2

/-- No timeout is reported between `c` and `c'`. -/
def NoTimeout (c c' : Context) : Prop :=
  ∃ δ, c'.log = c.log ++ δ ∧ ∀ m, .reported m (.error errTimeout) ∉ δ

theorem noTimeout_events {c c' : Context} (δ : List Event) (hlog : c'.log = c.log ++ δ)
    (hδ : ∀ m, .reported m (.error errTimeout) ∉ δ) : NoTimeout c c' := ⟨δ, hlog, hδ⟩

theorem noTimeout_same {c c' : Context} (hlog : c'.log = c.log) : NoTimeout c c' :=
  ⟨[], hlog.trans (List.append_nil _).symm, nofun⟩

theorem NoTimeout.trans {c₁ c₂ c₃ : Context} (h : NoTimeout c₁ c₂) (h' : NoTimeout c₂ c₃) :
    NoTimeout c₁ c₃ := by
  obtain ⟨δ, hlog, hδ⟩ := h
  obtain ⟨δ', hlog', hδ'⟩ := h'
  refine ⟨δ ++ δ', by rw [hlog', hlog, List.append_assoc], fun m hmem => ?_⟩
  exact (List.mem_append.1 hmem).elim (hδ m) (hδ' m)

theorem OnlyIo.noTimeout {c c' : Context} (h : OnlyIo c c') : NoTimeout c c' := by
  obtain ⟨_, _, _, _, _, _, _, δ, hδ, rfl⟩ := h
  exact noTimeout_events δ rfl fun m hmem => absurd (hδ _ hmem) id

theorem reportError_noTimeout (c : Context) (m : Msg) {error : ℤ} (h : error ≠ errTimeout)
    (env : Env) : NoTimeout c (reportError c m error env) := by
  unfold reportError
  split
  · exact noTimeout_events [.reported m (.raw _)] rfl (by simp)
  · dsimp only
    have hupdate : NoTimeout c (if 0 < m.msgId ∧ (error = errTimeout ∨ error = errException) then
        slaveUpdate c m.msgId (error = errException) env else c) := by
      split_ifs
      · exact noTimeout_same (slaveUpdate_settings ..).2.2.1
      · exact noTimeout_same rfl
    generalize (if 0 < m.msgId ∧ (error = errTimeout ∨ error = errException) then
      slaveUpdate c m.msgId (error = errException) env else c) = c₁ at hupdate ⊢
    split_ifs
    · refine hupdate.trans (noTimeout_events [.reported m (.error error)] rfl fun m' hmem => ?_)
      simp only [List.mem_singleton, Event.reported.injEq, Report.error.injEq] at hmem
      exact h hmem.2.symm
    · exact hupdate

theorem dropHead_noTimeout (c : Context) (m : Msg) (error : ℤ) : NoTimeout c (dropHead c m error) :=
  noTimeout_events [.released m error] rfl (by simp)

theorem failed_noTimeout (c : Context) (m : Msg) {error : ℤ} (h : error ≠ errTimeout) (env : Env) :
    NoTimeout c (dropHead (reportError c m error env) m error) :=
  (reportError_noTimeout c m h env).trans (dropHead_noTimeout ..)

theorem reportAnswer_noTimeout (c : Context) (flags : Flags) (m : Msg) (env : Env) :
    NoTimeout c (reportAnswer c flags m env) := by
  unfold reportAnswer
  cases flags with
  | post =>
    dsimp only
    split
    · exact noTimeout_events [.reported m (.raw _)] rfl (by simp)
    · split_ifs
      · exact noTimeout_events [.reported m .message] rfl (by simp)
      · exact noTimeout_same rfl
  | subscribe =>
    dsimp only
    split_ifs
    · have hupdate : NoTimeout c (slaveUpdate c m.msgId true env) :=
        noTimeout_same (slaveUpdate_settings ..).2.2.1
      have hdone : NoTimeout (slaveUpdate c m.msgId true env)
          (onceDone (slaveUpdate c m.msgId true env) m.msgId) :=
        noTimeout_same (onceDone_settings ..).2.2
      exact (hupdate.trans hdone).trans (noTimeout_events _ rfl (by simp))
    · exact noTimeout_same rfl

theorem handleMsg_noTimeout (c : Context) (wrapper : Wrapper) (env : Env) :
    NoTimeout c (handleMsg c wrapper env).2 := by
  rcases handleMsg_cases c wrapper env with ⟨rc, reader, -, -, hresult⟩ | ⟨reader, -, hresult⟩
  · rw [hresult]
    have hresynced : NoTimeout c (resynced c env) := noTimeout_events [.flushed] rfl (by simp)
    exact hresynced.trans (failed_noTimeout _ _ (rejectReason_ne_timeout _ _) env)
  · rw [hresult]
    exact (reportAnswer_noTimeout ..).trans (dropHead_noTimeout ..)

theorem loopWriteRead_noTimeout (c : Context) (revents : Revents) (env : Env) :
    NoTimeout c (loopWriteRead c revents env).2 := by
  cases hq : c.queue with
  | nil =>
    unfold loopWriteRead
    rw [hq]
    dsimp only
    split_ifs <;> exact noTimeout_same rfl
  | cons wrapper rest =>
    obtain ⟨hio, -⟩ := handleWriteRead_moved c wrapper.msg revents env
    have hserved := hio.noTimeout
    unfold loopWriteRead
    rw [hq]
    dsimp only
    generalize handleWriteRead c wrapper.msg revents env = s at hserved ⊢
    have hfail : ∀ (c₁ : Context) (m : Msg) {error : ℤ}, c₁.log = s.ctx.log → error ≠ errTimeout →
        NoTimeout c (dropHead (reportError c₁ m error env) m error) := fun c₁ m _ hlog hne =>
      (hserved.trans (noTimeout_same hlog)).trans (failed_noTimeout c₁ m hne env)
    split_ifs
    · exact (hserved.trans (noTimeout_same rfl)).trans (handleMsg_noTimeout ..)
    · exact hfail _ _ rfl (by decide)
    · exact hfail _ _ rfl (rejectReason_ne_timeout _ _)
    · exact hfail _ _ rfl (by decide)
    · exact hserved.trans (noTimeout_same rfl)

theorem dropAll_noTimeout (env : Env) (queue : List Wrapper) (c : Context) :
    NoTimeout c (dropAll env queue c) := by
  induction queue generalizing c with
  | nil => exact noTimeout_same rfl
  | cons wrapper rest ih =>
    have herror : errTransport ≠ errTimeout := by decide
    have hfail := failed_noTimeout { c with queue := wrapper :: rest } wrapper.msg herror env
    have hhead : NoTimeout c { c with queue := wrapper :: rest } := noTimeout_same rfl
    exact (hhead.trans hfail).trans (ih _)

/-- Only `modbusmq_loop_prepare` gives a request up for a timeout, and only the head. -/
theorem givesUp_timesOut {c : Context} (hc : WellFormed c) {env : Env} {call : Call} {m : Msg}
    (h : GivesUp c env call m) : c.connected ∧ ∃ sleepTime, call = .prepare sleepTime ∧
      ∃ wrapper ∈ c.queue.head?, TimesOut c wrapper env ∧ m = wrapper.msg := by
  obtain ⟨δ, hlog, hgives⟩ := h
  -- what left is in the record of the call, and so is what was reported
  have hleaves : ∀ {P : Msg → ℤ → Bool → Prop},
      (∀ {m error pending}, Leaves c env call m error pending → P m error pending) →
        LeavesAs P δ := by
    intro P hP
    obtain ⟨δ', hlog', hleaves⟩ := QueueSteps.leavesAs (call.steps (P := P) hc env hP False.elim)
    rw [hlog] at hlog'
    rwa [List.append_cancel_left hlog']
  have hsilent : ∀ {c' : Context}, call.perform c env = c' → NoTimeout c c' →
      .reported m (.error errTimeout) ∉ δ := by
    rintro c' hperform ⟨δ', hlog', hδ'⟩
    rw [← hperform, hlog] at hlog'
    rw [List.append_cancel_left hlog']
    exact hδ' m
  cases call with
  | prepare sleepTime =>
    by_cases hconn : c.connected = true
    · refine ⟨hconn, sleepTime, rfl, ?_⟩
      have hhead : LeavesAs (fun m _ _ => ∃ wrapper ∈ c.queue.head?,
          TimesOut c wrapper env ∧ m = wrapper.msg) δ := by
        refine hleaves fun {m error pending} hleave => ?_
        cases hleave with
        | timeout hhead hout => exact ⟨_, hhead, hout, rfl⟩
      rcases hgives with hreleased | hreported
      · exact (hhead.1 m _ hreleased).choose_spec
      · exact (hhead.2 m _ hreported).choose_spec.choose_spec
    · change (loopPrepare c sleepTime env).ctx.log = _ at hlog
      rw [loopPrepare_disconnected hconn] at hlog
      have hnone : δ = [] := List.append_right_eq_self.1 hlog.symm
      rw [hnone] at hgives
      exact absurd hgives (by simp)
  | writeRead revents =>
    have hother : LeavesAs (fun _ error _ => error ≠ errTimeout) δ := by
      refine hleaves fun {m error pending} hleave => ?_
      cases hleave with
      | ends _ hends => exact hends.ne_timeout
    rcases hgives with hreleased | hreported
    · exact absurd rfl (hother.1 m _ hreleased).choose_spec
    · exact absurd hreported (hsilent rfl (loopWriteRead_noTimeout c revents env))
  | reset =>
    have hother : LeavesAs (fun _ error _ => error ≠ errTimeout) δ := by
      refine hleaves fun {m error pending} hleave => ?_
      cases hleave with
      | dropped => decide
    rcases hgives with hreleased | hreported
    · exact absurd rfl (hother.1 m _ hreleased).choose_spec
    · exact absurd hreported (hsilent rfl
        ((dropAll_noTimeout env c.queue c).trans (noTimeout_same rfl)))
  | _ =>
    have hnone : LeavesAs (fun _ _ _ => False) δ := hleaves fun {m error pending} hleave => by
      cases hleave
    rcases hgives with hreleased | hreported
    · exact (hnone.1 m _ hreleased).choose_spec.elim
    · exact (hnone.2 m _ hreported).choose_spec.choose_spec.elim

theorem Along.get {Q : Context → Env → Call → Prop} {before after : List (Call × Env)} {call : Call}
    {env : Env} {c : Context} (h : Along Q (before ++ (call, env) :: after) c) :
    Q (run before c) env call := by
  induction before generalizing c with
  | nil => exact h.1
  | cons first before ih => exact ih h.2

/-- What the unsigned difference says when the clock has not gone back. -/
theorem forward_elapsed {start now timeout : Millitime} (hle : start ≤ now)
    (hout : timeout ≤ now - start) : start.toNat + timeout.toNat ≤ now.toNat := by
  have hsub := UInt64.toNat_sub_of_le now start hle
  have hle' := UInt64.le_iff_toNat_le.1 hle
  have hout' := UInt64.le_iff_toNat_le.1 hout
  omega

/-- In every run in which the clock does not read a time before the one it is compared with, a
request that is given up or reported for a timeout was waited for. -/
theorem timeouts_waited {c₀ : Context} (hfresh : Fresh c₀) {calls : List (Call × Env)}
    (hforward : Along ReadsForward calls c₀) :
    ∀ before call env after, calls = before ++ (call, env) :: after →
      ∀ m, GivesUp (run before c₀) env call m →
        Waited c₀ (before ++ [(call, env)]) (run before c₀).frameTimeoutMs m (env.clock .head) := by
  rintro before call env after rfl m hgives
  have hc := run_wellFormed hfresh.wellFormed before
  have hdated := run_dated hfresh before
  obtain ⟨hconn, sleepTime, rfl, wrapper, hhead, hout, rfl⟩ := givesUp_timesOut hc hgives
  have hstart : deadlineStart (run before c₀) wrapper (env.clock .head) ≤ env.clock .head :=
    Along.get hforward hconn wrapper hhead hout
  have helapsed := forward_elapsed hstart ((timesOut_iff ..).1 hout)
  refine ⟨_, ?_, helapsed⟩
  unfold deadlineStart
  by_cases hsent : wrapper.msg.OnWire
  · rw [if_pos hsent, if_pos hsent]
    exact (hdated.sent wrapper hhead hsent).append _
  · rw [if_neg hsent, if_neg hsent]
    unfold stampHead
    by_cases hzero : wrapper.headSinceMs = 0
    · rw [if_pos hzero]
      exact ⟨before, sleepTime, env, [], rfl, rfl, hconn, wrapper, hhead, rfl, hzero⟩
    · rw [if_neg hzero]
      exact (hdated.found wrapper hhead hzero).append _

instance (c : Context) (env : Env) (call : Call) : Decidable (ReadsForward c env call) :=
  match call with
  | .prepare _ => inferInstanceAs (Decidable (c.connected → ∀ wrapper ∈ c.queue.head?,
      TimesOut c wrapper env → deadlineStart c wrapper (env.clock .head) ≤ env.clock .head))
  | .subscribe _ _ _ | .configure _ _ _ | .post _ _ | .raw _ _ | .writeRead _ | .reset | .rearm
  | .focus _ | .connect _ | .close | .arrive _ => isTrue trivial

def sentCalls : List (Call × Env) :=
  [(.post 1 (.writeRegister 7 42), atTime 10000), (.prepare 100, atTime 10000),
    (.writeRead ⟨false, true, false, false⟩, atTime 10000)]

/-- The request is given up half a second later. -/
theorem timeouts_waited_example :
    ∃ m, GivesUp (run sentCalls openedContext) (atTime 10500) (.prepare 100) m ∧
      Waited openedContext (sentCalls ++ [(.prepare 100, atTime 10500)]) 500 m 10500 := by
  have hgives : ∃ m, GivesUp (run sentCalls openedContext) (atTime 10500) (.prepare 100) m :=
    ⟨_, _, rfl, .inl (List.mem_cons_self ..)⟩
  obtain ⟨m, hm⟩ := hgives
  exact ⟨m, hm, timeouts_waited ⟨rfl, rfl, rfl, rfl⟩
    (by decide +kernel : Along ReadsForward (sentCalls ++ [(.prepare 100, atTime 10500)])
      openedContext) sentCalls (.prepare 100) (atTime 10500) [] rfl m hm⟩

/-- The clock goes back by a millisecond, and the request that was just sent is given up. -/
theorem backward_step_times_out :
    ¬ ∀ (c₀ : Context) (calls : List (Call × Env)), Fresh c₀ →
      ∀ before call env after, calls = before ++ (call, env) :: after →
        ∀ m, GivesUp (run before c₀) env call m →
          Waited c₀ (before ++ [(call, env)]) (run before c₀).frameTimeoutMs m
            (env.clock .head) := by
  intro hall
  have hgives : ∃ m, GivesUp (run sentCalls openedContext) (atTime 9999) (.prepare 100) m ∧
      m.OnWire := ⟨_, ⟨_, rfl, .inl (List.mem_cons_self ..)⟩, by decide +kernel⟩
  obtain ⟨m, hm, hsent⟩ := hgives
  obtain ⟨reading, hwrote, hwaited⟩ := hall openedContext _ ⟨rfl, rfl, rfl, rfl⟩ sentCalls
    (.prepare 100) (atTime 9999) [] rfl m hm
  rw [if_pos hsent] at hwrote
  obtain ⟨before, revents, env, after, hcalls, rfl, -⟩ := hwrote
  have hlate : ∀ call ∈ sentCalls ++ [(.prepare 100, atTime 9999)],
      9999 ≤ (call.2.clock .stamp).toNat := by decide
  have hreading := hlate (.writeRead revents, env) (by rw [hcalls]; simp)
  have htimeout : (run sentCalls openedContext).frameTimeoutMs.toNat = 500 := by decide +kernel
  have hnow : ((atTime 9999).clock .head).toNat = 9999 := rfl
  dsimp only at hreading
  omega

end Modbusmq
