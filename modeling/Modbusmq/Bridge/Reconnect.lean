import Modbusmq.Bridge.Publishing
import Modbusmq.Loop.OnceInputs

/-!
# Broker connections

`modbusmq.c` from its subscriptions on: calls of the library with the callbacks
they make, broker connections that are lost, and `mqtt_try_reconnect`, which
forgets what has been published but leaves the timers of the library alone.
-/

namespace Modbusmq

/-- The bridge: the library and the broker. The answers the library has handed over since the
broker was last connected are a ghost. -/
structure Bridge where
  context : Context
  broker : Broker
  answers : List AnsweredPoll

inductive BridgeEvent
  | call (call : Call) (env : Env) (publishing : BrokerEnv)
  | tryReconnect (now : Millitime) (reached : Bool)
  | lost (retryAt : Option Millitime)

def mqttReconnectIntervalMs : Millitime := 5000

def mqttTryReconnect (b : Broker) (now : Millitime) (reached : Bool) : Broker :=
  if now < b.mqttReconnectAtMs then b
  else
    let b := { b with mqttReconnectAtMs := now + mqttReconnectIntervalMs }
    if reached then
      { b with
        mqttConnected := true
        states := fun i k => (b.states i k).reset
        publications := [] }
    else b

/-- The answer a call of the library has delivered; it serves one request at most. -/
def answerOf (c c' : Context) : Option AnsweredPoll :=
  ((c'.log.drop c.log.length).filterMap Event.delivery).head?.map fun delivery => ⟨c, delivery.1⟩

def BridgeEvent.perform (d : Decoders) (inputs : List PolledInput) (s : Bridge) :
    BridgeEvent → Bridge
  | .call made env publishing =>
    let c := made.perform s.context env
    match answerOf s.context c with
    | some a =>
      { context := c
        broker := publishAnswer d inputs a.context a.msg publishing s.broker
        answers := s.answers ++ [a] }
    | none => { s with context := c }
  | tryReconnect now reached =>
    if s.broker.mqttConnected then s
    else
      let b := mqttTryReconnect s.broker now reached
      { s with broker := b, answers := if b.mqttConnected then [] else s.answers }
  | lost retryAt =>
    { s with broker := { s.broker with
        mqttConnected := false
        mqttReconnectAtMs := retryAt.getD s.broker.mqttReconnectAtMs } }

def bridgeRun (d : Decoders) (inputs : List PolledInput) (events : List BridgeEvent) (s : Bridge) :
    Bridge :=
  events.foldl (fun s event => event.perform d inputs s) s

def PolledInput.frame (t : Transport) (input : PolledInput) : Frame .writer :=
  pollFrame t input.slave (some input.type) input.address input.addressOffset input.naddress

def PolledInput.subscription (input : PolledInput) : Call :=
  .subscribe input.slave (pollRequest input.type (cInt (input.address + input.addressOffset))
    input.naddress) input.interval

def subscriptions (env : ℕ → Env) (inputs : List PolledInput) : List (Call × Env) :=
  inputs.zipIdx.map fun turn => (turn.1.subscription, env turn.2)

/-- The bridge when its main loop starts, after a first attempt to reach the broker. -/
def bridgeStart (env : ℕ → Env) (inputs : List PolledInput) (c : Context) (reached : Bool)
    (retryAt : Millitime) : Bridge where
  context := run (subscriptions env inputs) c
  broker := ⟨reached, retryAt, fun _ _ => ⟨false, .number 0, 0, 0⟩, []⟩
  answers := []

/-- A context as `main` has set it up for an accepted configuration. -/
structure Configured (inputs : List PolledInput) (c : Context) : Prop where
  queue : c.queue = []
  timers : c.timers = []
  timerIdNext : c.timerIdNext = 0
  subscribeCb : c.subscribeCb
  config : c.config = some c.processConfig
  intervals : c.processConfig.queryMode ≠ .rounds →
    ∀ input ∈ inputs, 0 < input.interval ∨ input.interval = intervalOnce
  inputs : c.processConfig.inputs = inputs.map PolledInput.input

/-- The timer of an input will be due again. -/
def Bridge.Active (s : Bridge) (i : ℕ) : Prop :=
  ∃ timer ∈ s.context.timers, timer.timerId = i + 1 ∧ ¬ timer.Spent

/-- The poll of an input is queued. -/
def Bridge.Queued (s : Bridge) (i : ℕ) : Prop :=
  ∃ wrapper ∈ s.context.queue, wrapper.flags = .subscribe ∧ wrapper.msg.msgId = i + 1

/-- The input has been answered since the broker was connected, and each channel that an answer
held and that could be decoded has been published. -/
def Bridge.AllPublished (d : Decoders) (s : Bridge) (i : ℕ) (input : PolledInput) : Prop :=
  ((∃ a ∈ s.answers, a.For input) ∨ input.channels = []) ∧
    ∀ a ∈ s.answers, a.For input → ∀ k channel, input.channels[k]? = some channel →
      a.Holds d input channel → s.broker.Published d s.answers i input k channel

/-- The broker has the values of an input or will get them. -/
def Bridge.Served (d : Decoders) (s : Bridge) (i : ℕ) (input : PolledInput) : Prop :=
  s.AllPublished d i input ∨ s.Active i ∨ s.Queued i

/-- The main loop makes this call, the clock is not about to wrap, and publishing succeeds. -/
def BridgeEvent.Ordinary : BridgeEvent → Prop
  | .call made env publishing => made.Looped ∧ BeforeEnd env ∧ publishing.Publishes
  | tryReconnect _ _ | lost _ => True

/-- The broker is not reached while an input that is read once has been read. -/
def BridgeEvent.Timely (inputs : List PolledInput) (s : Bridge) : BridgeEvent → Prop
  | tryReconnect now true =>
    ¬ s.broker.mqttConnected → s.broker.mqttReconnectAtMs ≤ now →
      ∀ i input, inputs[i]? = some input → input.interval = intervalOnce → input.channels ≠ [] →
        s.Active i
  | tryReconnect _ false | call _ _ _ | lost _ => True

/-- A condition on every event of a run, each in the state it happens in. -/
def AlongBridge (d : Decoders) (inputs : List PolledInput)
    (Q : Bridge → BridgeEvent → Prop) : List BridgeEvent → Bridge → Prop
  | [], _ => True
  | event :: events, s => Q s event ∧ AlongBridge d inputs Q events (event.perform d inputs s)

structure PollsInput (t : Transport) (i : ℕ) (input : PolledInput) (timer : Timer) : Prop where
  timerId : timer.timerId = i + 1
  isOnce : timer.isOnce = decide (input.interval = intervalOnce)
  writer : timer.msg.writer = input.frame t

/-- The timers are those of the inputs. -/
structure Subscribed (inputs : List PolledInput) (c : Context) : Prop where
  polled : ∀ i input, inputs[i]? = some input →
    ∃ timer ∈ c.timers, PollsInput c.transport i input timer
  owned : ∀ timer ∈ c.timers, ∃ i input, inputs[i]? = some input ∧
    PollsInput c.transport i input timer

/-- What holds in every state of the main loop. -/
structure KeepsServed (d : Decoders) (inputs : List PolledInput) (s : Bridge) : Prop where
  wellFormed : WellFormed s.context
  tracked : Tracked s.context
  subscribeCb : s.context.subscribeCb
  config : s.context.processConfig.inputs = inputs.map PolledInput.input
  subscribed : Subscribed inputs s.context
  sound : Sound d inputs s.answers s.broker
  delivered : ∀ a ∈ s.answers, ∀ i input, inputs[i]? = some input → a.For input →
    Delivers d s.answers a i input s.broker
  served : s.broker.mqttConnected → ∀ i input, inputs[i]? = some input →
    s.Active i ∨ (∃ a ∈ s.answers, a.For input) ∨ input.channels = []

variable {d : Decoders} {inputs : List PolledInput} {answers : List AnsweredPoll}

theorem PollsInput.step {t : Transport} {i : ℕ} {input : PolledInput} {timer timer' : Timer}
    (h : PollsInput t i input timer) (hplan : timer'.plan = timer.plan) :
    PollsInput t i input timer' where
  timerId := (congrArg (·.1) hplan).trans h.timerId
  isOnce := (congrArg (·.2.1) hplan).trans h.isOnce
  writer := (congrArg (·.2.2.2.1) hplan).trans h.writer

theorem Subscribed.step {answers : List Msg} {c c' : Context} (h : Subscribed inputs c)
    (hstep : OnceStep answers c c') : Subscribed inputs c' := by
  refine ⟨fun i input hinput => ?_, fun timer' htimer' => ?_⟩
  · obtain ⟨timer, htimer, hpolls⟩ := h.polled i input hinput
    obtain ⟨timer', htimer', hplan⟩ := hstep.timers.mem_of htimer
    exact ⟨timer', htimer', hstep.transport ▸ hpolls.step hplan⟩
  · obtain ⟨timer, htimer, hplan⟩ := hstep.timers.mem htimer'
    obtain ⟨i, input, hinput, hpolls⟩ := h.owned timer htimer
    exact ⟨i, input, hinput, hstep.transport ▸ hpolls.step hplan⟩

theorem Subscribed.of_timerId {c : Context} (h : Subscribed inputs c) {timer : Timer}
    (htimer : timer ∈ c.timers) {i : ℕ} (hid : timer.timerId = i + 1) {input : PolledInput}
    (hinput : inputs[i]? = some input) : PollsInput c.transport i input timer := by
  obtain ⟨j, other, hother, hpolls⟩ := h.owned timer htimer
  obtain rfl : j = i := Nat.succ.inj (hpolls.timerId.symm.trans hid)
  obtain rfl : other = input := Option.some.inj (hother.symm.trans hinput)
  exact hpolls

theorem Subscribed.matches {c : Context} (h : Subscribed inputs c) {m : Msg} (hm : IsPoll c m)
    {i : ℕ} (hid : m.msgId = i + 1) {input : PolledInput} (hinput : inputs[i]? = some input) :
    inputMatches c.transport m.writer input.input =
      inputMatches c.transport (input.frame c.transport) input.input := by
  obtain ⟨timer, htimer, hmsgId, htarget⟩ := hm
  rw [inputMatches_congr htarget, (h.of_timerId htimer (hmsgId.symm.trans hid) hinput).writer]

theorem answerOf_eq {c c' : Context} {m : Msg} (h : OnceStep [m] c c') {input : Input}
    (hinput : input ∈ c.processConfig.inputs)
    (hmatch : inputMatches c.transport m.writer input) : answerOf c c' = some ⟨c, m⟩ := by
  obtain ⟨δ, hlog, hδ⟩ := h.log
  have hmem : input ∈ matchedInputs c m := List.mem_filter.2 ⟨hinput, hmatch⟩
  obtain ⟨first, rest, hmatched⟩ := List.exists_cons_of_ne_nil (List.ne_nil_of_mem hmem)
  unfold answerOf
  rw [hlog, List.drop_left, hδ, List.flatMap_singleton, hmatched]
  rfl

structure BrokerServes (d : Decoders) (inputs : List PolledInput) (s s' : Bridge) : Prop where
  answers : s.answers ⊆ s'.answers
  connected : s'.broker.mqttConnected → s.broker.mqttConnected
  sound : Sound d inputs s'.answers s'.broker
  delivered : ∀ a ∈ s'.answers, ∀ i input, inputs[i]? = some input → a.For input →
    Delivers d s'.answers a i input s'.broker

theorem Sound.mono {more : List AnsweredPoll} {b : Broker} (h : Sound d inputs answers b)
    (hanswers : answers ⊆ more) : Sound d inputs more b :=
  fun hconnected i input hinput k channel hchannel hstate =>
    (h hconnected i input hinput k channel hchannel hstate).mono hanswers (List.Subset.refl _)

theorem Sound.of_unpublished {b : Broker} (h : ∀ i k, (b.states i k).published = false) :
    Sound d inputs answers b := by
  intro _ i _ _ k _ _ hstate
  rw [h i k] at hstate
  cases hstate

theorem KeepsServed.answered {s : Bridge} (h : KeepsServed d inputs s) (made : Call) (env : Env)
    {publishing : BrokerEnv} (hpublishes : publishing.Publishes) :
    BrokerServes d inputs s (BridgeEvent.perform d inputs s (.call made env publishing)) := by
  unfold BridgeEvent.perform
  dsimp only
  cases answerOf s.context (made.perform s.context env) with
  | none => exact ⟨List.Subset.refl _, id, h.sound, h.delivered⟩
  | some a =>
    have hmore : s.answers ⊆ s.answers ++ [a] := List.subset_append_left _ _
    have hnew : a ∈ s.answers ++ [a] := List.mem_append_right _ (List.mem_singleton_self a)
    obtain ⟨hstep, hdelivers⟩ := publishAnswer_step hnew hpublishes (h.sound.mono hmore)
    refine ⟨hmore, hstep.connected, hstep.sound, fun a' ha' i input hinput hfor => ?_⟩
    rcases List.mem_append.1 ha' with hold | hnew
    · have hkept : Delivers d (s.answers ++ [a]) a' i input s.broker :=
        fun hconnected k channel hchannel hholds =>
          (h.delivered a' hold i input hinput hfor hconnected k channel hchannel hholds).mono hmore
            (List.Subset.refl _)
      exact hkept.step hstep
    · obtain rfl := List.mem_singleton.1 hnew
      exact hdelivers i input hinput hfor

/-- A once input recognises the answers to its own poll. -/
def PolledInput.Recognised (t : Transport) (input : PolledInput) : Prop :=
  input.interval = intervalOnce → inputMatches t (input.frame t) input.input

/-- A call keeps every input served: an answer that spends a timer is handed to its input. -/
theorem KeepsServed.call {s : Bridge} (h : KeepsServed d inputs s) {made : Call} {env : Env}
    {publishing : BrokerEnv} (hlooped : made.Looped) (hclock : BeforeEnd env)
    (hpublishes : publishing.Publishes)
    (hown : ∀ input ∈ inputs, input.Recognised s.context.transport) :
    KeepsServed d inputs (BridgeEvent.perform d inputs s (.call made env publishing)) := by
  obtain ⟨answer, hstep, -⟩ := made.once h.tracked h.wellFormed hlooped hclock
  have hwell : WellFormed (made.perform s.context env) :=
    (made.steps (P := fun _ _ _ => True) h.wellFormed env (fun _ => trivial)
      False.elim).wellFormed h.wellFormed
  have hanswered := h.answered made env hpublishes
  have hcontext : (BridgeEvent.perform d inputs s (.call made env publishing)).context =
      made.perform s.context env := by
    unfold BridgeEvent.perform
    dsimp only
    split <;> rfl
  generalize hs' : BridgeEvent.perform d inputs s (.call made env publishing) = s' at *
  refine ⟨hcontext ▸ hwell, hcontext ▸ hstep.tracked, hcontext ▸ hstep.subscribeCb.trans
    h.subscribeCb, ?_, hcontext ▸ h.subscribed.step hstep, hanswered.sound, hanswered.delivered,
    fun hconnected i input hinput => ?_⟩
  · rw [hcontext, hstep.processConfig, h.config]
  · rcases h.served (hanswered.connected hconnected) i input hinput with
      hactive | ⟨a, ha, hfor⟩ | hnone
    · obtain ⟨timer, htimer, hid, hdue⟩ := hactive
      obtain ⟨j, hj⟩ := List.mem_iff_getElem?.1 htimer
      obtain ⟨timer', hj'⟩ : ∃ timer', (made.perform s.context env).timers[j]? = some timer' := by
        have hlt := (List.getElem?_eq_some_iff.1 hj).1
        rw [← hstep.timers.length] at hlt
        exact ⟨_, List.getElem?_eq_getElem hlt⟩
      have htimerStep := hstep.timers.step j timer timer' hj hj'
      by_cases hspent : timer'.Spent
      · rcases htimerStep.spent hspent with hold | ⟨m, hm, hmsgId⟩
        · exact absurd hold hdue
        · obtain rfl : answer = some m := Option.mem_toList.1 hm
          have hmem := List.mem_of_getElem? hinput
          have hsame : timer'.isOnce = timer.isOnce := congrArg (·.2.1) htimerStep.plan
          have honce : timer.isOnce = true := hsame ▸ hspent.1
          rw [(h.subscribed.of_timerId htimer hid hinput).isOnce, decide_eq_true_eq] at honce
          have hmatch : inputMatches s.context.transport m.writer input.input := by
            rw [h.subscribed.matches (hstep.polled m hm) (hmsgId.trans hid) hinput]
            exact hown input hmem honce
          have hanswer := answerOf_eq hstep (h.config ▸ List.mem_map_of_mem hmem) hmatch
          refine .inr (.inl ⟨⟨s.context, m⟩, ?_, hmatch⟩)
          rw [← hs']
          unfold BridgeEvent.perform
          dsimp only
          rw [hanswer]
          exact List.mem_append_right _ (List.mem_singleton_self _)
      · refine .inl ⟨timer', hcontext ▸ List.mem_of_getElem? hj', ?_, hspent⟩
        exact (congrArg (·.1) htimerStep.plan).trans hid
    · exact .inr (.inl ⟨a, hanswered.answers ha, hfor⟩)
    · exact .inr (.inr hnone)

theorem KeepsServed.active {s : Bridge} (h : KeepsServed d inputs s) {i : ℕ} {input : PolledInput}
    (hinput : inputs[i]? = some input) (honce : input.interval ≠ intervalOnce) : s.Active i := by
  obtain ⟨timer, htimer, hpolls⟩ := h.subscribed.polled i input hinput
  refine ⟨timer, htimer, hpolls.timerId, fun hspent => honce ?_⟩
  have hdecided := hpolls.isOnce.symm.trans hspent.1
  exact of_decide_eq_true hdecided

theorem KeepsServed.broker {s : Bridge} (h : KeepsServed d inputs s) {b : Broker}
    {answers : List AnsweredPoll} (hsound : Sound d inputs answers b)
    (hdelivered : ∀ a ∈ answers, ∀ i input, inputs[i]? = some input → a.For input →
      Delivers d answers a i input b)
    (hserved : b.mqttConnected → ∀ i input, inputs[i]? = some input →
      s.Active i ∨ (∃ a ∈ answers, a.For input) ∨ input.channels = []) :
    KeepsServed d inputs { s with broker := b, answers := answers } :=
  ⟨h.wellFormed, h.tracked, h.subscribeCb, h.config, h.subscribed, hsound, hdelivered, hserved⟩

theorem KeepsServed.down {s : Bridge} (h : KeepsServed d inputs s) {b : Broker}
    (hdown : b.mqttConnected = false) : KeepsServed d inputs { s with broker := b } := by
  have hno : ¬ b.mqttConnected = true := by
    rw [hdown]
    exact Bool.false_ne_true
  exact h.broker (fun hup => absurd hup hno) (fun _ _ _ _ _ _ hup => absurd hup hno)
    fun hup => absurd hup hno

theorem KeepsServed.event {s : Bridge} (h : KeepsServed d inputs s) {event : BridgeEvent}
    (hordinary : event.Ordinary) (htimely : event.Timely inputs s)
    (hown : ∀ input ∈ inputs, input.Recognised s.context.transport) :
    KeepsServed d inputs (event.perform d inputs s) := by
  cases event with
  | call made env publishing => exact h.call hordinary.1 hordinary.2.1 hordinary.2.2 hown
  | lost retryAt => exact h.down rfl
  | tryReconnect now reached =>
    unfold BridgeEvent.perform
    dsimp only
    by_cases hconnected : s.broker.mqttConnected = true
    · rw [if_pos hconnected]
      exact h
    have hdown : s.broker.mqttConnected = false := by simpa using hconnected
    rw [if_neg hconnected]
    unfold mqttTryReconnect
    by_cases hearly : now < s.broker.mqttReconnectAtMs
    · rw [if_pos hearly, if_neg hconnected]
      exact h
    rw [if_neg hearly]
    cases reached with
    | false =>
      rw [if_neg Bool.false_ne_true, if_neg hconnected]
      exact h.down hdown
    | true =>
      rw [if_pos rfl, if_pos rfl]
      refine h.broker (.of_unpublished fun _ _ => rfl)
        (fun a ha => absurd ha List.not_mem_nil) fun _ i input hinput => ?_
      by_cases honce : input.interval = intervalOnce
      · by_cases hchannels : input.channels = []
        · exact .inr (.inr hchannels)
        · exact .inl (htimely hconnected (UInt64.not_lt.1 hearly) i input hinput honce hchannels)
      · exact .inl (h.active hinput honce)

theorem BridgeEvent.perform_transport {event : BridgeEvent} {s : Bridge}
    (hordinary : event.Ordinary) (h : KeepsServed d inputs s) :
    (event.perform d inputs s).context.transport = s.context.transport := by
  cases event with
  | call made env publishing =>
    obtain ⟨answer, hstep, -⟩ := made.once h.tracked h.wellFormed hordinary.1 hordinary.2.1
    unfold BridgeEvent.perform
    dsimp only
    split <;> exact hstep.transport
  | lost retryAt => rfl
  | tryReconnect now reached =>
    unfold BridgeEvent.perform
    dsimp only
    split_ifs <;> rfl

theorem KeepsServed.run {s : Bridge} (h : KeepsServed d inputs s) {events : List BridgeEvent}
    (hordinary : ∀ event ∈ events, event.Ordinary)
    (htimely : AlongBridge d inputs (fun s event => event.Timely inputs s) events s)
    (hown : ∀ input ∈ inputs, input.Recognised s.context.transport) :
    KeepsServed d inputs (bridgeRun d inputs events s) := by
  induction events generalizing s with
  | nil => exact h
  | cons event events ih =>
    have hfirst := hordinary event (List.mem_cons_self ..)
    refine ih (h.event hfirst htimely.1 hown) (fun e he => hordinary e (List.mem_cons_of_mem _ he))
      htimely.2 ?_
    rw [BridgeEvent.perform_transport hfirst h]
    exact hown

/-- The state `main` reaches while it subscribes. -/
structure Starting (inputs : List PolledInput) (c₀ c : Context) : Prop where
  transport : c.transport = c₀.transport
  subscribeCb : c.subscribeCb = c₀.subscribeCb
  config : c.config = c₀.config
  processConfig : c.processConfig = c₀.processConfig
  queue : c.queue = []
  timerIdNext : c.timerIdNext = inputs.length
  wellFormed : WellFormed c
  subscribed : Subscribed inputs c
  due : ∀ timer ∈ c.timers, ¬ timer.Spent
  retries : ∀ timer ∈ c.timers, timer.isOnce → timer.timerInterval = onceRetryMs

theorem subscriptions_concat (env : ℕ → Env) (inputs : List PolledInput) (input : PolledInput) :
    subscriptions env (inputs ++ [input]) =
      subscriptions env inputs ++ [(input.subscription, env inputs.length)] := by
  unfold subscriptions
  rw [List.zipIdx_append, List.map_append]
  simp

theorem PolledInput.subscription_perform {input : PolledInput} {c : Context} {config : Config}
    (hconfig : c.config = some config)
    (hinterval : config.queryMode ≠ .rounds → 0 < input.interval ∨ input.interval = intervalOnce)
    (env : Env) : input.subscription.perform c env = { setSlave c input.slave with
      timerIdNext := c.timerIdNext + 1
      timers := insertTimer config.queryMode c.timers (newTimer (setSlave c input.slave) config
        (Msg.ofFrame 0 (input.frame c.transport)) input.interval env) } := by
  have hbuild : (pollRequest input.type (cInt (input.address + input.addressOffset))
      input.naddress).build c.transport input.slave = some (input.frame c.transport) := by
    unfold PolledInput.frame pollFrame
    cases input.type <;> rfl
  change subscribeRequest c input.slave _ input.interval env = _
  unfold subscribeRequest subscribe
  rw [hbuild]
  dsimp only
  rw [show (setSlave c input.slave).config = some config from hconfig]
  dsimp only
  rw [if_neg]
  · rfl
  · rintro ⟨hmode, hlow, hrepeats⟩
    rcases hinterval hmode with hpos | honce
    · exact absurd hpos (not_lt.2 hlow)
    · exact hrepeats honce

theorem Starting.step {c₀ c : Context} (h : Starting inputs c₀ c) {config : Config}
    (hconfig : c₀.config = some config) {input : PolledInput}
    (hinterval : config.queryMode ≠ .rounds → 0 < input.interval ∨ input.interval = intervalOnce)
    {env : Env} (hclock : BeforeEnd env) :
    Starting (inputs ++ [input]) c₀ (input.subscription.perform c env) := by
  have hwell : WellFormed (input.subscription.perform c env) :=
    (input.subscription.steps (P := fun _ _ _ => True) h.wellFormed env (fun _ => trivial)
      False.elim).wellFormed h.wellFormed
  rw [PolledInput.subscription_perform (h.config.trans hconfig) hinterval env] at hwell ⊢
  generalize hnew : newTimer (setSlave c input.slave) config
    (Msg.ofFrame 0 (input.frame c.transport)) input.interval env = timer at hwell ⊢
  have hpolls : PollsInput c.transport inputs.length input timer := by
    rw [← hnew]
    exact ⟨congrArg (· + 1) h.timerIdNext, rfl, rfl⟩
  have hlast : (inputs ++ [input])[inputs.length]? = some input := by simp
  have hold : ∀ {i other}, inputs[i]? = some other → (inputs ++ [input])[i]? = some other :=
    fun hi => by rw [List.getElem?_append_left (List.getElem?_eq_some_iff.1 hi).1, hi]
  have hdue : ∀ t, t ∈ c.timers ∨ t = timer → ¬ t.Spent ∧
      (t.isOnce → t.timerInterval = onceRetryMs) := by
    rintro t (ht | rfl)
    · exact ⟨h.due t ht, h.retries t ht⟩
    · rw [← hnew]
      exact ⟨fun hspent => hclock.ne_neverAgain _ hspent.2, fun honce => if_pos honce⟩
  have hrescheduled : ∀ t' ∈ insertTimer config.queryMode c.timers timer, ¬ t'.Spent ∧
      (t'.isOnce → t'.timerInterval = onceRetryMs) := by
    intro t' ht'
    obtain ⟨t, ht, hr⟩ := mem_insertTimer ht'
    obtain ⟨hspent, hretry⟩ := hdue t ht
    refine ⟨fun hspent' => ?_, fun honce => ?_⟩
    · rw [hr.once (hr.isOnce ▸ hspent'.1)] at hspent'
      exact hspent hspent'
    · rw [hr.once (hr.isOnce ▸ honce)]
      exact hretry (hr.isOnce ▸ honce)
  have hsubscribed : ∀ i other, (inputs ++ [input])[i]? = some other →
      ∃ t, (t ∈ c.timers ∨ t = timer) ∧ PollsInput c.transport i other t := by
    intro i other hi
    rcases lt_or_ge i inputs.length with hlt | hge
    · rw [List.getElem?_append_left hlt] at hi
      obtain ⟨t, ht, hp⟩ := h.subscribed.polled i other hi
      exact ⟨t, .inl ht, hp⟩
    · have hlength := (List.getElem?_eq_some_iff.1 hi).1
      rw [List.length_append, List.length_singleton] at hlength
      obtain rfl : i = inputs.length := by omega
      obtain rfl : input = other := Option.some.inj (hlast.symm.trans hi)
      exact ⟨timer, .inr rfl, hpolls⟩
  refine ⟨h.transport, h.subscribeCb, h.config, h.processConfig, h.queue, ?_, hwell, ⟨?_, ?_⟩,
    fun t' ht' => (hrescheduled t' ht').1, fun t' ht' => (hrescheduled t' ht').2⟩
  · change c.timerIdNext + 1 = _
    rw [h.timerIdNext, List.length_append, List.length_singleton]
  · intro i other hi
    obtain ⟨t, ht, hp⟩ := hsubscribed i other hi
    obtain ⟨t', ht', hid, honce, hmsg⟩ := insertTimer_mem config.queryMode ht
    exact ⟨t', ht', hid.trans hp.timerId, honce.trans hp.isOnce,
      (congrArg Msg.writer hmsg).trans hp.writer⟩
  · intro t' ht'
    obtain ⟨t, ht, hr⟩ := mem_insertTimer ht'
    have hmade : ∀ {i other}, PollsInput c.transport i other t →
        PollsInput c.transport i other t' := fun hp =>
      ⟨hr.timerId.trans hp.timerId, hr.isOnce.trans hp.isOnce,
        (congrArg Msg.writer hr.msg).trans hp.writer⟩
    rcases ht with ht | rfl
    · obtain ⟨i, other, hi, hp⟩ := h.subscribed.owned t ht
      exact ⟨i, other, hold hi, hmade hp⟩
    · exact ⟨inputs.length, input, hlast, hmade hpolls⟩

theorem Configured.subscribing {c : Context} (h : Configured inputs c) {env : ℕ → Env}
    (hclock : ∀ i, BeforeEnd (env i)) {done : List PolledInput} (hdone : done ⊆ inputs) :
    Starting done c (run (subscriptions env done) c) := by
  induction done using List.reverseRecOn with
  | nil =>
    have htimers : ∀ timer : Timer, timer ∉ c.timers := by simp [h.timers]
    exact ⟨rfl, rfl, rfl, rfl, h.queue, h.timerIdNext, wellFormed_of_idle h.queue h.timers,
      ⟨by simp, fun timer ht => absurd ht (htimers timer)⟩,
      fun timer ht => absurd ht (htimers timer), fun timer ht => absurd ht (htimers timer)⟩
  | append_singleton done input ih =>
    rw [subscriptions_concat, run_append]
    refine (ih (List.Subset.trans (List.subset_append_left _ _) hdone)).step h.config
      (fun hmode => h.intervals hmode input (hdone (by simp))) (hclock _)

theorem Configured.starting {c : Context} (h : Configured inputs c) {env : ℕ → Env}
    (hclock : ∀ i, BeforeEnd (env i)) : Starting inputs c (run (subscriptions env inputs) c) :=
  h.subscribing hclock (List.Subset.refl inputs)

theorem Configured.serving {c : Context} (h : Configured inputs c) {env : ℕ → Env}
    (hclock : ∀ i, BeforeEnd (env i)) (reached : Bool) (retryAt : Millitime) :
    KeepsServed d inputs (bridgeStart env inputs c reached retryAt) := by
  have hs := h.starting hclock
  refine ⟨hs.wellFormed, ⟨hs.wellFormed.templates, hs.retries, ?_⟩, hs.subscribeCb.trans
    h.subscribeCb, ?_, hs.subscribed, .of_unpublished fun _ _ => rfl,
    fun a ha => absurd ha List.not_mem_nil, fun _ i input hinput => .inl ?_⟩
  · intro wrapper hw
    rw [show (bridgeStart env inputs c reached retryAt).context.queue = [] from hs.queue] at hw
    exact absurd hw List.not_mem_nil
  · exact (congrArg Config.inputs hs.processConfig).trans h.inputs
  · obtain ⟨timer, htimer, hpolls⟩ := hs.subscribed.polled i input hinput
    exact ⟨timer, htimer, hpolls.timerId, hs.due timer htimer⟩

/-- In a run that never reaches the broker while a once input is spent, every input is served
whenever the broker is connected. -/
theorem inputs_stay_served {c : Context} (h : Configured inputs c) {env : ℕ → Env}
    (hclock : ∀ i, BeforeEnd (env i))
    (hown : ∀ input ∈ inputs, input.Recognised c.transport) (reached : Bool) (retryAt : Millitime)
    {events : List BridgeEvent} (hordinary : ∀ event ∈ events, event.Ordinary)
    (htimely : AlongBridge d inputs (fun s event => event.Timely inputs s) events
      (bridgeStart env inputs c reached retryAt))
    (hconnected : (bridgeRun d inputs events
      (bridgeStart env inputs c reached retryAt)).broker.mqttConnected)
    {i : ℕ} {input : PolledInput} (hinput : inputs[i]? = some input) :
    (bridgeRun d inputs events (bridgeStart env inputs c reached retryAt)).Served d i input := by
  have hstart := h.serving (d := d) hclock reached retryAt
  have hserving := hstart.run hordinary htimely
    (by rw [show (bridgeStart env inputs c reached retryAt).context.transport = c.transport from
          (h.starting hclock).transport]
        exact hown)
  have hdelivered := fun a ha hfor => hserving.delivered a ha i input hinput hfor hconnected
  rcases hserving.served hconnected i input hinput with hactive | hanswered | hnone
  · exact .inr (.inl hactive)
  · exact .inl ⟨.inl hanswered, hdelivered⟩
  · exact .inl ⟨.inr hnone, hdelivered⟩

/-- A serial number, read once from holding register 0 of slave 1. -/
def serialInput : PolledInput :=
  ⟨1, .holdingRegister, 0, 0, 1, .fast, intervalOnce,
    [⟨⟨0, 2, .ab⟩, "plant/serial", false, 0, 0, 0, 0⟩]⟩

/-- The bridge of that input, with a device that is connected. -/
def serialContext : Context :=
  let config : Config := ⟨[serialInput.input], 1, .parallell, 0, 0, 0, false⟩
  { sampleContext .tcp [] with
    frameTimeoutMs := 500, subscribeCb := true, config := some config, processConfig := config }

def plainDecoders : Decoders where
  rounded := id
  scaled _ value :=
    match value with
    | .raw (.int n) => .number n
    | _ => .number 0
  printed _ _ value :=
    match value with
    | .number q => (toString q.num).toList.map fun ch => UInt8.ofNat ch.toNat
    | _ => []
  text _ _ := none
  naValue := none

def goodBroker (now : Millitime) : BrokerEnv := ⟨fun _ _ => now, fun _ _ => .success⟩

def serialAnswer (now : Millitime) : List BridgeEvent :=
  [.call (.prepare 100) (atTime now) (goodBroker now),
    .call (.writeRead ⟨false, true, false, false⟩) (atTime now) (goodBroker now),
    .call (.arrive [0, 1, 0, 0, 0, 5, 1, 3, 2, 0, 7]) (atTime now) (goodBroker now),
    .call (.writeRead ⟨true, false, false, false⟩) (atTime now) (goodBroker now),
    .call (.writeRead ⟨true, false, false, false⟩) (atTime now) (goodBroker now)]

/-- The main loop of that bridge starts while the broker is away. -/
def serialStart : Bridge := bridgeStart (fun _ => atTime 0) [serialInput] serialContext false 5000

theorem serialContext_configured : Configured [serialInput] serialContext where
  queue := rfl
  timers := rfl
  timerIdNext := rfl
  subscribeCb := rfl
  config := rfl
  intervals _ _ hinput := .inr (List.mem_singleton.1 hinput ▸ rfl)
  inputs := rfl

theorem serialInput_recognised :
    ∀ input ∈ [serialInput], input.Recognised serialContext.transport := by
  intro input hinput _
  rw [List.mem_singleton.1 hinput]
  decide +kernel

theorem serialAnswer_ordinary {now : Millitime}
    (h : now.toNat + onceRetryMs.toNat < neverAgain.toNat) :
    ∀ event ∈ serialAnswer now, event.Ordinary := by
  intro event hevent
  have hpublishes : (goodBroker now).Publishes := fun _ _ => nofun
  fin_cases hevent <;> exact ⟨trivial, atTime_beforeEnd h, hpublishes⟩

/-- Read after the broker was reached, the serial number is published. -/
theorem inputs_stay_served_example :
    (bridgeRun plainDecoders [serialInput] (.tryReconnect 5000 true :: serialAnswer 6000)
        serialStart).Served plainDecoders 0 serialInput ∧
      (bridgeRun plainDecoders [serialInput] (.tryReconnect 5000 true :: serialAnswer 6000)
        serialStart).broker.publications = [⟨0, 0, "plant/serial", [55]⟩] := by
  have hactive : serialStart.Active 0 :=
    ⟨serialStart.context.timers.head (by decide +kernel), List.head_mem _, by decide +kernel,
      by decide +kernel⟩
  have htimely : AlongBridge plainDecoders [serialInput]
      (fun s event => event.Timely [serialInput] s)
      (.tryReconnect 5000 true :: serialAnswer 6000) serialStart := by
    refine ⟨fun _ _ i input hinput _ _ => ?_, trivial, trivial, trivial, trivial, trivial, trivial⟩
    obtain rfl : i = 0 := by
      have hlt := (List.getElem?_eq_some_iff.1 hinput).1
      rw [List.length_singleton] at hlt
      omega
    exact hactive
  refine ⟨inputs_stay_served serialContext_configured (fun _ => atTime_beforeEnd (by decide))
    serialInput_recognised false 5000 (fun event hevent => ?_) htimely (by decide +kernel) rfl,
    by decide +kernel⟩
  rcases List.mem_cons.1 hevent with rfl | hevent
  · trivial
  · exact serialAnswer_ordinary (by decide) event hevent

/-- Read while the broker is away, the serial number is lost: the timer stays spent. -/
theorem once_value_lost_on_reconnect :
    ¬ ∀ (d : Decoders) (inputs : List PolledInput) (c : Context) (env : ℕ → Env) (reached : Bool)
      (retryAt : Millitime) (events : List BridgeEvent), Configured inputs c →
        (∀ i, BeforeEnd (env i)) → (∀ input ∈ inputs, input.Recognised c.transport) →
        (∀ event ∈ events, event.Ordinary) →
        (bridgeRun d inputs events (bridgeStart env inputs c reached retryAt)).broker.mqttConnected →
        ∀ i input, inputs[i]? = some input → Bridge.Served d
          (bridgeRun d inputs events (bridgeStart env inputs c reached retryAt)) i input := by
  intro hall
  have hserved := hall plainDecoders [serialInput] serialContext (fun _ => atTime 0) false 5000
    (serialAnswer 1000 ++ [.tryReconnect 5000 true]) serialContext_configured
    (fun _ => atTime_beforeEnd (by decide)) serialInput_recognised (fun event hevent => ?_)
    (by decide +kernel) 0 serialInput rfl
  · rcases hserved with ⟨⟨a, ha, -⟩ | hnone, -⟩ | ⟨timer, htimer, -, hdue⟩ | ⟨wrapper, hw, -⟩
    · have hempty : (bridgeRun plainDecoders [serialInput] (serialAnswer 1000 ++
          [.tryReconnect 5000 true]) serialStart).answers.isEmpty = true := by decide +kernel
      rw [List.isEmpty_iff] at hempty
      exact absurd (hempty ▸ ha) List.not_mem_nil
    · exact absurd hnone (by decide)
    · have hspent : ∀ timer ∈ (bridgeRun plainDecoders [serialInput]
          (serialAnswer 1000 ++ [.tryReconnect 5000 true]) serialStart).context.timers,
          timer.Spent := by decide +kernel
      exact hdue (hspent timer htimer)
    · have hempty : (bridgeRun plainDecoders [serialInput] (serialAnswer 1000 ++
          [.tryReconnect 5000 true]) serialStart).context.queue.isEmpty = true := by decide +kernel
      rw [List.isEmpty_iff] at hempty
      exact absurd (hempty ▸ hw) List.not_mem_nil
  · rcases List.mem_append.1 hevent with hevent | hevent
    · exact serialAnswer_ordinary (by decide) event hevent
    · rw [List.mem_singleton.1 hevent]
      trivial

end Modbusmq
