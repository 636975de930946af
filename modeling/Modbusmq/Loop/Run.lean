import Modbusmq.Loop.Calls

/-!
# Runs

A run is a list of calls of the library, each with what the operating system
answers during it. Between two calls bytes may arrive. Every run from a fresh
context is a sequence of queue steps.
-/

namespace Modbusmq

/-- A call of the library, or something that happens to the context between two calls. -/
inductive Call
  | post (slaveId : ℤ) (request : Request)
  | raw (text : String) (stray : ℕ → UInt8)
  | subscribe (slaveId : ℤ) (request : Request) (interval : ℤ)
  | prepare (sleepTime : Millitime)
  | writeRead (revents : Revents)
  | reset
  | rearm
  | focus (slave : ℤ)
  | connect (opened : Bool)
  | close
  | configure (config : Option Config) (processConfig : Config) (frameTimeoutMs : Millitime)
  | arrive (bytes : List UInt8)

/-- Post a request to a slave, or nothing when its builder refuses. -/
def postRequest (c : Context) (slaveId : ℤ) (request : Request) : Context :=
  match request.build c.transport slaveId with
  | some writer => post (setSlave c slaveId) writer
  | none => setSlave c slaveId

/-- Subscribe to a request, or to nothing when its builder refuses. -/
def subscribeRequest (c : Context) (slaveId : ℤ) (request : Request) (interval : ℤ) (env : Env) :
    Context :=
  match request.build c.transport slaveId with
  | some writer => (subscribe (setSlave c slaveId) (Msg.ofFrame 0 writer) interval env).2
  | none => setSlave c slaveId

def Call.perform (c : Context) (env : Env) : Call → Context
  | post slaveId request => postRequest c slaveId request
  | raw text stray => (rawRequest c text stray).2
  | subscribe slaveId request interval => subscribeRequest c slaveId request interval env
  | prepare sleepTime => (loopPrepare c sleepTime env).ctx
  | writeRead revents => (loopWriteRead c revents env).2
  | reset => resetQueue c env
  | rearm => onceRearm c env
  | focus slave => (setFocus c slave).2
  | connect opened => (Modbusmq.connect c opened).2
  | close => Modbusmq.close c
  | configure config processConfig frameTimeoutMs =>
    { c with config := config, processConfig := processConfig, frameTimeoutMs := frameTimeoutMs }
  | arrive bytes => { c with input := c.input ++ bytes }

def run (calls : List (Call × Env)) (c : Context) : Context :=
  calls.foldl (fun c call => call.1.perform c call.2) c

@[simp] theorem run_nil (c : Context) : run [] c = c := rfl

@[simp] theorem run_cons (call : Call × Env) (calls : List (Call × Env)) (c : Context) :
    run (call :: calls) c = run calls (call.1.perform c call.2) := rfl

theorem run_append (calls more : List (Call × Env)) (c : Context) :
    run (calls ++ more) c = run more (run calls c) := List.foldl_append

def atTime (now : Millitime) : Env := { sampleEnv with clock := fun _ => now }

/-- A condition on every call of a run, each in the state it is made in. -/
def Along (Q : Context → Env → Call → Prop) : List (Call × Env) → Context → Prop
  | [], _ => True
  | call :: calls, c => Q c call.2 call.1 ∧ Along Q calls (call.1.perform c call.2)

/-- A condition that can be tested for one call can be tested along a run. -/
instance Along.decidable {Q : Context → Env → Call → Prop} [∀ c env call, Decidable (Q c env call)] :
    ∀ (calls : List (Call × Env)) (c : Context), Decidable (Along Q calls c)
  | [], _ => isTrue trivial
  | call :: calls, c =>
    have := Along.decidable (Q := Q) calls (call.1.perform c call.2)
    inferInstanceAs (Decidable (_ ∧ _))

theorem Along.and {Q R : Context → Env → Call → Prop} {calls : List (Call × Env)} {c : Context}
    (hQ : Along Q calls c) (hR : Along R calls c) :
    Along (fun c env call => Q c env call ∧ R c env call) calls c := by
  induction calls generalizing c with
  | nil => trivial
  | cons call calls ih => exact ⟨⟨hQ.1, hR.1⟩, ih hQ.2 hR.2⟩

/-- A condition that does not look at the context holds along a run if it holds of every call. -/
theorem Along.of_forall {Q : Env → Call → Prop} {calls : List (Call × Env)}
    (h : ∀ made ∈ calls, Q made.2 made.1) (c : Context) :
    Along (fun _ env call => Q env call) calls c := by
  induction calls generalizing c with
  | nil => trivial
  | cons call calls ih =>
    exact ⟨h call List.mem_cons_self, ih (fun made hmade => h made (List.mem_cons_of_mem _ hmade)) _⟩

theorem Along.keeps {Q : Context → Env → Call → Prop} {I : Context → Prop}
    {calls : List (Call × Env)} {c : Context} (h : Along Q calls c)
    (hstep : ∀ c env call, I c → Q c env call → I (call.perform c env)) (hc : I c) :
    I (run calls c) := by
  induction calls generalizing c with
  | nil => exact hc
  | cons call calls ih => exact ih h.2 (hstep c call.2 call.1 hc h.1)

/-- A context nothing has been done with; its callbacks and settings may be set. -/
structure Fresh (c : Context) : Prop where
  queue : c.queue = []
  timers : c.timers = []
  raw : c.raw = none
  log : c.log = []

/-- The requests that may leave the queue during a call, with their errors and whether a
drain is pending then. -/
inductive Leaves (c : Context) (env : Env) : Call → Msg → ℤ → Bool → Prop
  | timeout {wrapper : Wrapper} {sleepTime : Millitime} (hhead : c.queue.head? = some wrapper)
      (hout : TimesOut c wrapper env) :
      Leaves c env (.prepare sleepTime) wrapper.msg errTimeout true
  | ends {wrapper : Wrapper} {revents : Revents} {m : Msg} {error : ℤ} {pending : Bool}
      (hhead : c.queue.head? = some wrapper)
      (hends : Ends (handleWriteRead c wrapper.msg revents env) m error pending) :
      Leaves c env (.writeRead revents) m error pending
  | dropped {wrapper : Wrapper} {pending : Bool} (hmem : wrapper ∈ c.queue) :
      Leaves c env .reset wrapper.msg errTransport pending

/-- Drains before a first byte get all that has arrived. -/
def CallDrainsFirst (c : Context) (env : Env) : Call → Prop
  | .writeRead revents =>
    ∀ wrapper, c.queue.head? = some wrapper → DrainsFirst c wrapper.msg revents env
  | _ => True

theorem wellFormed_of_idle {c : Context} (hqueue : c.queue = []) (htimers : c.timers = []) :
    WellFormed c where
  templates := by
    intro timer htimer
    rw [htimers] at htimer
    exact absurd htimer List.not_mem_nil
  head := by
    intro wrapper hwrapper
    rw [hqueue] at hwrapper
    exact absurd hwrapper (by simp)
  waiting := by
    intro wrapper hwrapper
    rw [hqueue] at hwrapper
    exact absurd hwrapper List.not_mem_nil

theorem Fresh.wellFormed {c : Context} (h : Fresh c) : WellFormed c :=
  wellFormed_of_idle h.queue h.timers

variable {P : Msg → ℤ → Bool → Prop} {G : Prop}

/-- A timer before and after a subscription; only one that repeats is rescheduled. -/
structure Rescheduled (t t' : Timer) : Prop where
  timerId : t'.timerId = t.timerId
  isOnce : t'.isOnce = t.isOnce
  msg : t'.msg = t.msg
  once : t.isOnce → t' = t

theorem Rescheduled.refl (t : Timer) : Rescheduled t t := ⟨rfl, rfl, rfl, fun _ => rfl⟩

theorem insertTimer_split (mode : QueryMode) (timers : List Timer) (timer : Timer) :
    ∃ (before after : List Timer) (timer' : Timer) (f : Timer → Timer), timers = before ++ after ∧
      Rescheduled timer timer' ∧ (∀ t, Rescheduled t (f t)) ∧
        insertTimer mode timers timer = (before ++ timer' :: after).map f := by
  cases timers with
  | nil => exact ⟨[], [], timer, id, rfl, .refl timer, .refl, rfl⟩
  | cons head rest =>
    unfold insertTimer
    dsimp only
    split_ifs with hfirst
    · exact ⟨[], head :: rest, timer, id, rfl, .refl timer, .refl, (List.map_id _).symm⟩
    · cases mode with
      | rounds =>
        exact ⟨head :: rest, [], timer, id, (List.append_nil _).symm, .refl timer, .refl,
          (List.map_id _).symm⟩
      | parallell =>
        have hrepeats : timer.isOnce → False := fun honce => hfirst ⟨honce, by decide⟩
        exact ⟨_, _, { timer with timerStart := head.timerStart, timerNextTime := head.timerStart },
          id, List.takeWhile_append_dropWhile.symm,
          ⟨rfl, rfl, rfl, fun honce => (hrepeats honce).elim⟩, .refl, (List.map_id _).symm⟩
      | series =>
        have hrepeats : timer.isOnce → False := fun honce => hfirst ⟨honce, by decide⟩
        have hnew : ∀ next, Rescheduled timer
            { timer with timerStart := head.timerStart, timerNextTime := next } := fun next =>
          ⟨rfl, rfl, rfl, fun honce => (hrepeats honce).elim⟩
        unfold insertSeries
        refine ⟨head :: rest, [], _, _, (List.append_nil _).symm, hnew _, fun t => ?_, rfl⟩
        dsimp only
        split_ifs with honce
        · exact .refl t
        · exact ⟨rfl, rfl, rfl, fun h => absurd h honce⟩

/-- A timer of the new list is an old one or the new one, rescheduled at most. -/
theorem mem_insertTimer {mode : QueryMode} {timers : List Timer} {timer t' : Timer}
    (h : t' ∈ insertTimer mode timers timer) :
    ∃ t, (t ∈ timers ∨ t = timer) ∧ Rescheduled t t' := by
  obtain ⟨before, after, timer', f, rfl, hnew, hf, hinsert⟩ := insertTimer_split mode timers timer
  rw [hinsert, List.mem_map] at h
  obtain ⟨t, ht, rfl⟩ := h
  rcases List.mem_append.1 ht with ht | ht
  · exact ⟨t, .inl (List.mem_append_left _ ht), hf t⟩
  · rcases List.mem_cons.1 ht with rfl | ht
    · have hsame := hf t
      exact ⟨timer, .inr rfl, hsame.timerId.trans hnew.timerId, hsame.isOnce.trans hnew.isOnce,
        hsame.msg.trans hnew.msg, fun honce =>
          (hsame.once (hnew.isOnce.trans honce)).trans (hnew.once honce)⟩
    · exact ⟨t, .inl (List.mem_append_right _ ht), hf t⟩

theorem insertTimer_mem {timers : List Timer} {timer t : Timer} (mode : QueryMode)
    (h : t ∈ timers ∨ t = timer) : ∃ t' ∈ insertTimer mode timers timer,
      t'.timerId = t.timerId ∧ t'.isOnce = t.isOnce ∧ t'.msg = t.msg := by
  obtain ⟨before, after, timer', f, rfl, hnew, hf, hinsert⟩ := insertTimer_split mode timers timer
  rw [hinsert]
  have hold : ∀ s ∈ before ++ timer' :: after, ∃ t' ∈ (before ++ timer' :: after).map f,
      t'.timerId = s.timerId ∧ t'.isOnce = s.isOnce ∧ t'.msg = s.msg := fun s hs =>
    ⟨f s, List.mem_map_of_mem hs, (hf s).timerId, (hf s).isOnce, (hf s).msg⟩
  rcases h with h | rfl
  · refine hold t ?_
    rw [List.mem_append] at h
    simp only [List.mem_append, List.mem_cons]
    tauto
  · obtain ⟨t', hmem, hid, honce, hmsg⟩ := hold timer' (by simp)
    exact ⟨t', hmem, hid.trans hnew.timerId, honce.trans hnew.isOnce, hmsg.trans hnew.msg⟩

theorem subscribe_quiet {c : Context} {writer : Frame .writer} {slaveId : ℤ} {request : Request}
    (hbuild : request.build c.transport slaveId = some writer) (interval : ℤ) (env : Env) :
    Quiet c (subscribe c (Msg.ofFrame 0 writer) interval env).2 := by
  unfold subscribe
  split
  · exact Quiet.refl c
  · split_ifs
    · exact Quiet.refl c
    · refine ⟨⟨rfl, rfl, rfl, fun hc t' ht' => ?_⟩, rfl, rfl, id, [],
        (List.append_nil _).symm, by simp⟩
      obtain ⟨t, hmem, hrescheduled⟩ := mem_insertTimer ht'
      have ht : Template c.transport t := by
        rcases hmem with hmem | rfl
        · exact hc t hmem
        · exact ⟨rfl, slaveId, request, hbuild⟩
      unfold Template at ht ⊢
      rwa [hrescheduled.msg]

theorem setSlave_quiet (c : Context) (slaveId : ℤ) : Quiet c (setSlave c slaveId) :=
  .bookkeeping rfl rfl rfl rfl rfl rfl rfl id

theorem Call.steps {c : Context} (hc : WellFormed c) (call : Call) (env : Env)
    (hP : ∀ {m error pending}, Leaves c env call m error pending → P m error pending)
    (hG : G → CallDrainsFirst c env call) : QueueSteps P G c (call.perform c env) := by
  cases call with
  | post slaveId request =>
    unfold perform postRequest
    dsimp only
    split
    · rename_i hbuild
      exact (setSlave_quiet c slaveId).step.trans (post_steps (c := setSlave c slaveId) hbuild)
    · exact (setSlave_quiet c slaveId).step
  | raw text stray => exact rawRequest_steps c text stray
  | subscribe slaveId request interval =>
    unfold perform subscribeRequest
    dsimp only
    split
    · rename_i hbuild
      exact ((setSlave_quiet c slaveId).trans
        (subscribe_quiet (c := setSlave c slaveId) hbuild interval env)).step
    · exact (setSlave_quiet c slaveId).step
  | prepare sleepTime =>
    exact loopPrepare_steps hc sleepTime env fun wrapper hhead hout => hP (.timeout hhead hout)
  | writeRead revents =>
    exact loopWriteRead_steps hc revents env (fun wrapper hhead _ _ _ hends =>
      hP (.ends hhead hends)) hG
  | reset => exact resetQueue_steps hc (fun wrapper hmem _ => hP (.dropped hmem)) env
  | rearm => exact (onceRearm_quiet c env).step
  | focus slave =>
    unfold perform setFocus
    dsimp only
    split
    · exact .refl
    · split_ifs
      all_goals first | exact .refl | exact Quiet.step (.bookkeeping rfl rfl rfl rfl rfl rfl rfl id)
  | connect opened =>
    unfold perform Modbusmq.connect
    dsimp only
    split_ifs
    · exact Quiet.step ⟨⟨rfl, rfl, rfl, id⟩, rfl, rfl, fun _ => rfl, [.connected], rfl,
        by simp [Event.Silent]⟩
    · exact .refl
  | close => exact Quiet.step (.bookkeeping rfl rfl rfl rfl rfl rfl rfl id)
  | configure => exact Quiet.step (.bookkeeping rfl rfl rfl rfl rfl rfl rfl id)
  | arrive => exact Quiet.step (.bookkeeping rfl rfl rfl rfl rfl rfl rfl id)

theorem run_steps {c : Context} (hc : WellFormed c) (calls : List (Call × Env)) :
    QueueSteps (fun _ _ _ => True) False c (run calls c) := by
  induction calls generalizing c with
  | nil => exact .refl
  | cons call calls ih =>
    have hstep := call.1.steps (P := fun _ _ _ => True) hc call.2 (fun _ => trivial) False.elim
    exact hstep.trans (ih (hstep.wellFormed hc))

/-- In a run whose calls let requests leave with `P` only, the steps do. -/
theorem run_steps_along {Q : Context → Env → Call → Prop}
    (hQ : ∀ {c env call}, WellFormed c → Q c env call →
      ∀ {m error pending}, Leaves c env call m error pending → P m error pending)
    {c : Context} (hc : WellFormed c) {calls : List (Call × Env)} (h : Along Q calls c) :
    QueueSteps P False c (run calls c) := by
  induction calls generalizing c with
  | nil => exact .refl
  | cons call calls ih =>
    have hstep := call.1.steps (P := P) hc call.2 (hQ hc h.1) False.elim
    exact hstep.trans (ih (hstep.wellFormed hc) h.2)

theorem run_wellFormed {c : Context} (hc : WellFormed c) (calls : List (Call × Env)) :
    WellFormed (run calls c) :=
  (run_steps hc calls).wellFormed hc

end Modbusmq
