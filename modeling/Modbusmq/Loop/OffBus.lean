import Modbusmq.Loop.Deadlines

/-!
# Calls that stay off the bus

Everything but `modbusmq_loop_write_read`, a timeout and a change of the connection
leaves alone what has arrived, what was sent, and the request at the head. Requests
only enter, behind the head.
-/

namespace Modbusmq

/-- Events that neither write a byte nor end a request. -/
def Event.Idle : Event → Prop
  | wrote _ _ _ _ | released _ _ => False
  | _ => True

/-- The bus and the head of the queue are left alone. -/
structure OffBus (c c' : Context) : Prop where
  transport : c'.transport = c.transport
  connected : c'.connected = c.connected
  input : c'.input = c.input
  lastWriteMs : c'.lastWriteMs = c.lastWriteMs
  head : ∀ w ∈ c.queue.head?, ∃ w' ∈ c'.queue.head?, w'.msg = w.msg ∧ w'.flags = w.flags
  fresh : c.queue = [] → ∀ w ∈ c'.queue.head?, w.msg.writer.xmit = 0
  log : ∃ δ, c'.log = c.log ++ δ ∧ ∀ e ∈ δ, e.Idle

theorem Event.Idle.bytes {e : Event} (h : e.Idle) : e.bytes = [] := by
  cases e <;> first | rfl | exact absurd h id

theorem bytesWritten_idle {δ : List Event} (h : ∀ e ∈ δ, e.Idle) : bytesWritten δ = [] :=
  List.flatMap_eq_nil_iff.2 fun e he => (h e he).bytes

theorem OffBus.bytesWritten {c c' : Context} (h : OffBus c c') :
    bytesWritten c'.log = bytesWritten c.log := by
  obtain ⟨δ, hlog, hδ⟩ := h.log
  rw [hlog, bytesWritten_append, bytesWritten_idle hδ, List.append_nil]

theorem OffBus.released {c c' : Context} (h : OffBus c c') {m : Msg} {error : ℤ}
    (hleft : .released m error ∈ c'.log) : .released m error ∈ c.log := by
  obtain ⟨δ, hlog, hδ⟩ := h.log
  rw [hlog, List.mem_append] at hleft
  exact hleft.resolve_right fun hmem => absurd (hδ _ hmem) id

theorem OffBus.trans {c₁ c₂ c₃ : Context} (h : OffBus c₁ c₂) (h' : OffBus c₂ c₃) : OffBus c₁ c₃ where
  transport := h'.transport.trans h.transport
  connected := h'.connected.trans h.connected
  input := h'.input.trans h.input
  lastWriteMs := h'.lastWriteMs.trans h.lastWriteMs
  head w hw := by
    obtain ⟨w₂, hw₂, hmsg, hflags⟩ := h.head w hw
    obtain ⟨w₃, hw₃, hmsg', hflags'⟩ := h'.head w₂ hw₂
    exact ⟨w₃, hw₃, hmsg'.trans hmsg, hflags'.trans hflags⟩
  fresh hempty w hw := by
    cases hq : c₂.queue with
    | nil => exact h'.fresh hq w hw
    | cons w₂ rest =>
      have hw₂ : w₂ ∈ c₂.queue.head? := by rw [hq]; rfl
      obtain ⟨w', hw', hmsg, -⟩ := h'.head w₂ hw₂
      obtain rfl : w' = w := Option.mem_unique hw' hw
      rw [hmsg]
      exact h.fresh hempty w₂ hw₂
  log := by
    obtain ⟨δ, hlog, hδ⟩ := h.log
    obtain ⟨δ', hlog', hδ'⟩ := h'.log
    refine ⟨δ ++ δ', by rw [hlog', hlog, List.append_assoc], fun e he => ?_⟩
    exact (List.mem_append.1 he).elim (hδ e) (hδ' e)

theorem offBus_same {c c' : Context} (htransport : c'.transport = c.transport)
    (hconnected : c'.connected = c.connected) (hinput : c'.input = c.input)
    (hwrite : c'.lastWriteMs = c.lastWriteMs) (hqueue : c'.queue = c.queue)
    (δ : List Event) (hlog : c'.log = c.log ++ δ) (hδ : ∀ e ∈ δ, e.Idle) : OffBus c c' where
  transport := htransport
  connected := hconnected
  input := hinput
  lastWriteMs := hwrite
  head w hw := ⟨w, hqueue ▸ hw, rfl, rfl⟩
  fresh hempty w hw := by
    rw [hqueue, hempty] at hw
    exact absurd hw (by simp)
  log := ⟨δ, hlog, hδ⟩

theorem OffBus.refl (c : Context) : OffBus c c :=
  offBus_same rfl rfl rfl rfl rfl [] (List.append_nil _).symm (by simp)

theorem offBus_fields {c c' : Context} (htransport : c'.transport = c.transport)
    (hconnected : c'.connected = c.connected) (hinput : c'.input = c.input)
    (hwrite : c'.lastWriteMs = c.lastWriteMs) (hqueue : c'.queue = c.queue)
    (hlog : c'.log = c.log) : OffBus c c' :=
  offBus_same htransport hconnected hinput hwrite hqueue [] (by rw [hlog, List.append_nil])
    (by simp)

theorem offBus_enter {c : Context} {m : Msg} (flags : Flags) {slaveId : ℤ} {request : Request}
    (hreader : m.reader = Frame.zero .reader)
    (hbuild : request.build c.transport slaveId = some m.writer) :
    OffBus c (postInternal c m flags) where
  transport := rfl
  connected := rfl
  input := rfl
  lastWriteMs := rfl
  head w hw := by
    obtain ⟨rest, hq⟩ := List.head?_eq_some_iff.1 hw
    obtain ⟨rest', henqueue, -⟩ := enqueue_cons w rest ⟨flags, 0,
      preparedMsg c.transport (nextTransaction c.transport c.transactionId)
        { m with reqId := nextReqId c.reqIdNext, serial := c.serialNext }⟩
    refine ⟨w, ?_, rfl, rfl⟩
    rw [postInternal_queue, hq, henqueue]
    rfl
  fresh hempty w hw := by
    rw [postInternal_queue, hempty] at hw
    obtain rfl : _ = w := Option.some.inj hw
    exact (posted_enter hreader hbuild).unsent
  log := ⟨_, rfl, by simp [Event.Idle]⟩

theorem gatePost_offBus {c : Context} (hc : Templates c) (timer : Timer) (now : Millitime) (i : ℕ) :
    OffBus c (gatePost c timer now i) := by
  have hgate : OffBus c (slaveGate c timer now).2 := by
    unfold slaveGate
    split_ifs <;> exact offBus_fields rfl rfl rfl rfl rfl rfl
  have hpost : ∀ c' : Context, Templates c' → OffBus c' (postTimer c' i) := by
    intro c' hc'
    unfold postTimer
    split
    · exact .refl c'
    · rename_i timer htimer
      obtain ⟨hreader, slaveId, request, hbuild⟩ := hc' timer (List.mem_of_getElem? htimer)
      have henter : OffBus c' (postInternal c' { timer.msg with msgId := timer.timerId } .subscribe) :=
        offBus_enter .subscribe hreader hbuild
      exact henter.trans (offBus_fields rfl rfl rfl rfl rfl rfl)
  unfold gatePost
  split_ifs
  · exact hgate.trans (hpost _ ((slaveGate_quiet c timer now).templates hc))
  · exact hgate

theorem ScheduleStep.offBus {env : Env} {c c' : Context} (h : ScheduleStep env c c')
    (hc : Templates c) : OffBus c c' := by
  cases h with
  | books => exact offBus_fields rfl rfl rfl rfl rfl rfl
  | due => exact (gatePost_offBus hc _ _ _).trans (offBus_fields rfl rfl rfl rfl rfl rfl)
  | turn => exact gatePost_offBus hc _ _ _

theorem ScheduleSteps.offBus {env : Env} {c c' : Context} (h : ScheduleSteps env c c')
    (hc : Templates c) : OffBus c c' ∧ Templates c' := by
  induction h with
  | refl => exact ⟨.refl c, hc⟩
  | tail _ hstep ih =>
    exact ⟨ih.1.trans (hstep.offBus ih.2),
      (QueueSteps.sameSetup (hstep.steps (P := fun _ _ _ => True) (G := False) ih.2)).templates ih.2⟩

theorem timeOutHead_offBus {c : Context} {env : Env}
    (hpatient : ∀ wrapper ∈ c.queue.head?, ¬ TimesOut c wrapper env) : OffBus c (timeOutHead c env) := by
  cases hq : c.queue with
  | nil =>
    have hsame : timeOutHead c env = c := by
      unfold timeOutHead
      rw [hq]
    rw [hsame]
    exact .refl c
  | cons wrapper rest =>
    have hhead : wrapper ∈ c.queue.head? := by rw [hq]; rfl
    rw [timeOutHead_cons hq, if_neg (hpatient wrapper hhead)]
    refine ⟨rfl, rfl, rfl, rfl, fun w hw => ?_, fun hempty => ?_, [], (List.append_nil _).symm, by simp⟩
    · obtain rfl : wrapper = w := Option.mem_unique hhead hw
      exact ⟨_, rfl, stampHead_msg .., stampHead_flags ..⟩
    · rw [hq] at hempty
      exact absurd hempty (by simp)

theorem loopPrepare_offBus {c : Context} (hc : WellFormed c) {env : Env}
    (hpatient : ∀ wrapper ∈ c.queue.head?, ¬ TimesOut c wrapper env) (sleepTime : Millitime) :
    OffBus c (loopPrepare c sleepTime env).ctx := by
  by_cases hconn : c.connected = true
  · rw [loopPrepare, if_pos hconn, prepareEvents_ctx]
    have htemplates : Templates (timeOutHead c env) :=
      ((timeOutHead_steps (P := fun _ _ _ => True) (G := False) hc env
        fun _ _ _ => trivial).wellFormed hc).templates
    exact (timeOutHead_offBus hpatient).trans
      (ScheduleSteps.offBus (loopPrepareSubscription_schedule _ sleepTime env) htemplates).1
  · rw [loopPrepare_disconnected hconn]
    exact .refl c

/-- The calls that stay off the bus while no request times out. -/
def Call.StaysOff (c : Context) (env : Env) : Call → Prop
  | .post _ _ | .raw _ _ | .subscribe _ _ _ | .rearm | .focus _ | .configure _ _ _ => True
  | .prepare _ => ∀ wrapper ∈ c.queue.head?, ¬ TimesOut c wrapper env
  | .writeRead _ | .reset | .connect _ | .close | .arrive _ => False

theorem postRequest_offBus (c : Context) (slaveId : ℤ) (request : Request) :
    OffBus c (postRequest c slaveId request) := by
  have hslave : OffBus c (setSlave c slaveId) := offBus_fields rfl rfl rfl rfl rfl rfl
  unfold postRequest
  split
  · rename_i hbuild
    exact hslave.trans (offBus_enter (c := setSlave c slaveId) .post rfl hbuild)
  · exact hslave

theorem rawRequest_offBus (c : Context) (text : String) (stray : ℕ → UInt8) :
    OffBus c (rawRequest c text stray).2 := by
  unfold rawRequest
  dsimp only
  split
  · exact offBus_same rfl rfl rfl rfl rfl [_] rfl (by simp [Event.Idle])
  · rename_i hprepare
    obtain ⟨slaveId, request, hbuild⟩ := rawPrepare_build hprepare
    have hpost : OffBus c (post c _) := offBus_enter .post rfl hbuild
    exact hpost.trans (offBus_fields rfl rfl rfl rfl rfl rfl)

theorem subscribeRequest_offBus (c : Context) (slaveId : ℤ) (request : Request) (interval : ℤ)
    (env : Env) : OffBus c (subscribeRequest c slaveId request interval env) := by
  have hslave : OffBus c (setSlave c slaveId) := offBus_fields rfl rfl rfl rfl rfl rfl
  unfold subscribeRequest
  split
  · refine hslave.trans ?_
    unfold subscribe
    split
    · exact .refl _
    · split_ifs
      · exact .refl _
      · exact offBus_fields rfl rfl rfl rfl rfl rfl
  · exact hslave

theorem Call.offBus {c : Context} (hc : WellFormed c) {env : Env} {call : Call}
    (h : call.StaysOff c env) : OffBus c (call.perform c env) := by
  cases call with
  | post slaveId request => exact postRequest_offBus c slaveId request
  | raw text stray => exact rawRequest_offBus c text stray
  | subscribe slaveId request interval => exact subscribeRequest_offBus c slaveId request interval env
  | prepare sleepTime => exact loopPrepare_offBus hc h sleepTime
  | rearm => exact offBus_fields rfl rfl rfl rfl rfl rfl
  | focus slave =>
    change OffBus c (setFocus c slave).2
    unfold setFocus
    split
    · exact .refl c
    · split_ifs <;> exact offBus_fields rfl rfl rfl rfl rfl rfl
  | configure => exact offBus_fields rfl rfl rfl rfl rfl rfl
  | writeRead | reset | connect | close | arrive => exact absurd h id

end Modbusmq
