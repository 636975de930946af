import Modbusmq.Bridge.Fidelity
import Modbusmq.Bridge.Reconnect
import Modbusmq.Loop.Moves

/-!
# Which input an answer goes to

A reply does not say which input it was polled for: `modbusmq_handle_msg` and
`modbusmq_msg_input` find the input again by slave, function and address. The
validators compare no two inputs, so these three need not tell them apart.
-/

namespace Modbusmq

/-- An input of the bridge is an entry of the configuration whose type was recognised. -/
structure PolledAs (entry : InputEntry) (input : PolledInput) : Prop where
  type : entry.type = some input.type
  slave : entry.slave = input.slave
  address : entry.address = input.address
  addressOffset : entry.addressOffset = input.addressOffset
  naddress : entry.naddress = input.naddress
  interval : entry.interval = input.interval

/-- The library as `main` has set it up for an accepted configuration. -/
structure Loaded (accepted : AcceptedConfig) (inputs : List PolledInput) (c : Context) : Prop where
  entries : List.Forall₂ PolledAs accepted.config.inputs inputs
  queryMode : c.processConfig.queryMode = accepted.config.queryMode
  inputs : c.processConfig.inputs = inputs.map PolledInput.input
  config : c.config = some c.processConfig
  subscribeCb : c.subscribeCb
  queue : c.queue = []
  timers : c.timers = []
  timerIdNext : c.timerIdNext = 0

/-- A message is the poll subscribed for input `i`. -/
def PolledFor (c : Context) (m : Msg) (i : ℕ) : Prop := IsPoll c m ∧ m.msgId = i + 1

def deliveries (c c' : Context) : List (Msg × Input) :=
  (c'.log.drop c.log.length).filterMap Event.delivery

/-- The answer to a poll is handed to the input it was subscribed for, once, and to no other: the
call of the library that completes a valid answer hands it over and takes the poll off the queue,
and no other call hands anything over. -/
structure RoutesAnswers (inputs : List PolledInput) (c : Context) : Prop where
  polls : ∀ wrapper ∈ c.queue, wrapper.flags = .subscribe →
    ∃ i input, inputs[i]? = some input ∧ PolledFor c wrapper.msg i
  answers : ∀ i input, inputs[i]? = some input → ∀ m, PolledFor c m i → ∀ env,
    deliveries c (reportAnswer c .subscribe m env) = [(m, input.input)]
  completed : ∀ revents env m, BeforeEnd env → CompletesPoll c revents env m →
    ∃ i input, inputs[i]? = some input ∧ PolledFor c m i ∧
      deliveries c (loopWriteRead c revents env).2 = [(m, input.input)] ∧
      (loopWriteRead c revents env).2.queue = c.queue.tail
  others : ∀ (call : Call) env, call.Looped → BeforeEnd env →
    (∀ revents m, call = .writeRead revents → ¬ CompletesPoll c revents env m) →
      deliveries c (call.perform c env) = []

/-- In rounds mode a subscription has the tier of its input. -/
def OwnTiers (inputs : List PolledInput) (c : Context) : Prop :=
  c.processConfig.queryMode = .rounds → ∀ timer ∈ c.timers, ∀ i input, inputs[i]? = some input →
    timer.timerId = i + 1 → timer.tier = input.tier

def PolledInput.place (input : PolledInput) : ℤ × InputType × ℤ :=
  (input.slave, input.type, input.address + input.addressOffset)

/-- The slave number and the address fit the request. -/
def PolledInput.Addressable (input : PolledInput) : Prop :=
  (0 ≤ input.slave ∧ input.slave ≤ 255) ∧
    0 ≤ input.address + input.addressOffset ∧ input.address + input.addressOffset ≤ 65535

def PolledInput.polledPlace (input : PolledInput) : ℤ × InputType × ℤ :=
  (input.slave % 256, input.type, (input.address + input.addressOffset) % 65536)

variable {accepted : AcceptedConfig} {inputs : List PolledInput}

theorem PolledInput.polledPlace_eq_iff (input : PolledInput) :
    input.place = input.polledPlace ↔ input.Addressable := by
  unfold place polledPlace Addressable
  simp only [Prod.mk.injEq, true_and]
  omega

theorem cInt_emod_65536 (x : ℤ) : cInt x % 65536 = x % 65536 := by
  have hdvd : (65536 : ℤ) ∣ ((2 ^ 32 : ℕ) : ℤ) := by decide
  calc cInt x % 65536 = x.bmod (2 ^ 32) % (2 ^ 32 : ℕ) % 65536 :=
        (Int.emod_emod_of_dvd _ hdvd).symm
    _ = x % (2 ^ 32 : ℕ) % 65536 := by rw [Int.bmod_emod]
    _ = x % 65536 := Int.emod_emod_of_dvd x hdvd

theorem inputMatches_iff (t : Transport) (a b : PolledInput) :
    inputMatches t (a.frame t) b.input ↔ b.place = a.polledPlace := by
  obtain ⟨hslave, haddr, -⟩ := frameInit_carries t a.slave a.type.function
    (cInt (a.address + a.addressOffset)) a.naddress
  have hfunction : (frameFunction t (frameInit t a.slave a.type.function
      (cInt (a.address + a.addressOffset)) a.naddress)).toNat = a.type.code := by
    rw [← a.type.function_toNat]
    cases t <;> rfl
  have hframe : a.frame t = frameInit t a.slave a.type.function
      (cInt (a.address + a.addressOffset)) a.naddress := pollFrame_known ..
  rw [cInt_emod_65536] at haddr
  unfold inputMatches PolledInput.place PolledInput.polledPlace
  rw [hframe, hslave, hfunction, haddr, decide_eq_true_iff]
  simp only [Prod.mk.injEq, PolledInput.input, InputType.code_injective.eq_iff]

/-- The keys of a list are distinct when each element is the only one with its key. -/
theorem nodup_map_iff_filter {α β : Type*} [DecidableEq β] (key : α → β) (l : List α) :
    (l.map key).Nodup ↔ ∀ a ∈ l, (l.filter fun b => key b = key a).length = 1 := by
  have hcount : ∀ a, (l.map key).count (key a) = (l.filter fun b => key b = key a).length := by
    intro a
    rw [List.count_eq_countP, List.countP_map, List.countP_eq_length_filter]
    rfl
  rw [List.nodup_iff_count_le_one]
  constructor
  · intro h a ha
    have hpos := List.count_pos_iff.2 (List.mem_map_of_mem ha (f := key))
    have hle := h (key a)
    rw [hcount] at hpos hle
    omega
  · intro h k
    by_cases hk : k ∈ l.map key
    · obtain ⟨a, ha, rfl⟩ := List.mem_map.1 hk
      exact (hcount a).trans_le (h a ha).le
    · exact (List.count_eq_zero.2 hk).trans_le (Nat.zero_le 1)

/-- What holds in every state of the main loop. -/
structure Routing (inputs : List PolledInput) (c : Context) : Prop where
  wellFormed : WellFormed c
  tracked : Tracked c
  subscribeCb : c.subscribeCb
  config : c.processConfig.inputs = inputs.map PolledInput.input
  subscribed : Subscribed inputs c

/-- A poll asks for the place of its input, and whoever reads that place gets the answer. -/
theorem Routing.matched {c : Context} (h : Routing inputs c) {m : Msg} {i : ℕ}
    (hm : PolledFor c m i) {input : PolledInput} (hinput : inputs[i]? = some input) :
    matchedInputs c m =
      (inputs.filter fun other => other.place = input.polledPlace).map PolledInput.input := by
  obtain ⟨⟨timer, htimer, hmsgId, htarget⟩, hid⟩ := hm
  have hpolls := h.subscribed.of_timerId htimer (hmsgId.symm.trans hid) hinput
  unfold matchedInputs
  rw [h.config, List.filter_map]
  congr 1
  apply List.filter_congr
  intro other _
  rw [Function.comp_apply, inputMatches_congr htarget, hpolls.writer, Bool.eq_iff_iff,
    inputMatches_iff, decide_eq_true_iff]

theorem reportAnswer_deliveries {c : Context} (hcb : c.subscribeCb) (m : Msg) (env : Env) :
    deliveries c (reportAnswer c .subscribe m env) =
      (matchedInputs c m).map fun input => (m, input) := by
  obtain ⟨hupdate, -, hupdateLog, -⟩ := slaveUpdate_settings c m.msgId true env
  obtain ⟨hdone, -, hdoneLog⟩ := onceDone_settings (slaveUpdate c m.msgId true env) m.msgId
  unfold deliveries reportAnswer matchedInputs
  dsimp only
  rw [if_pos hcb]
  unfold deliver
  dsimp only
  rw [hdoneLog, hupdateLog, hdone.processConfig, hupdate.processConfig, hdone.transport,
    hupdate.transport, List.drop_left, List.filterMap_map]
  exact List.filterMap_eq_map ▸ rfl

theorem OnceStep.deliveries {answers : List Msg} {c c' : Context} (h : OnceStep answers c c') :
    deliveries c c' = answers.flatMap fun m => (matchedInputs c m).map fun input => (m, input) := by
  obtain ⟨δ, hlog, hδ⟩ := h.log
  unfold Modbusmq.deliveries
  rw [hlog, List.drop_left, hδ]

theorem Routing.polledFor {c : Context} (h : Routing inputs c) {m : Msg} (hm : IsPoll c m) :
    ∃ i input, inputs[i]? = some input ∧ PolledFor c m i := by
  obtain ⟨timer, htimer, hmsgId, -⟩ := id hm
  obtain ⟨i, input, hinput, hpolls⟩ := h.subscribed.owned timer htimer
  exact ⟨i, input, hinput, hm, hmsgId.trans hpolls.timerId⟩

theorem Routing.call {c : Context} (h : Routing inputs c) {call : Call} (hcall : call.Looped)
    {env : Env} (hclock : BeforeEnd env) : Routing inputs (call.perform c env) := by
  obtain ⟨answer, hstep, -⟩ := call.once h.tracked h.wellFormed hcall hclock
  have hwell := (call.steps (P := fun _ _ _ => True) h.wellFormed env (fun _ => trivial)
    False.elim).wellFormed h.wellFormed
  exact ⟨hwell, hstep.tracked, hstep.subscribeCb.trans h.subscribeCb,
    hstep.processConfig ▸ h.config, h.subscribed.step hstep⟩

theorem Routing.run {c : Context} (h : Routing inputs c) {calls : List (Call × Env)}
    (hcalls : ∀ made ∈ calls, made.1.Looped ∧ BeforeEnd made.2) :
    Routing inputs (run calls c) := by
  have halong : Along (fun _ env call => call.Looped ∧ BeforeEnd env) calls c :=
    Along.of_forall (Q := fun env call => call.Looped ∧ BeforeEnd env) hcalls c
  exact halong.keeps (fun _ _ _ h hcall => h.call hcall.1 hcall.2) h

/-- Where places are distinct and each is asked for as it is, answers go where they belong. -/
theorem Routing.routesAnswers {c : Context} (h : Routing inputs c)
    (hrange : ∀ input ∈ inputs, input.Addressable)
    (hdistinct : (inputs.map PolledInput.place).Nodup) : RoutesAnswers inputs c := by
  have hown : ∀ i input, inputs[i]? = some input → ∀ m, PolledFor c m i →
      matchedInputs c m = [input.input] := by
    intro i input hinput m hm
    have hmem := List.mem_of_getElem? hinput
    rw [h.matched hm hinput, ← (input.polledPlace_eq_iff.2 (hrange input hmem))]
    obtain ⟨only, honly⟩ := List.length_eq_one_iff.1
      ((nodup_map_iff_filter PolledInput.place inputs).1 hdistinct input hmem)
    have hself : input ∈ inputs.filter fun other => other.place = input.place :=
      List.mem_filter.2 ⟨hmem, decide_eq_true rfl⟩
    rw [honly, List.mem_singleton] at hself
    rw [honly, hself, List.map_singleton]
  refine ⟨fun wrapper hw hflags => h.polledFor (h.tracked.polls wrapper hw hflags), ?_, ?_, ?_⟩
  · intro i input hinput m hm env
    rw [reportAnswer_deliveries h.subscribeCb, hown i input hinput m hm, List.map_singleton]
  · intro revents env m hclock hdone
    obtain ⟨answer, hstep, hanswer⟩ := loopWriteRead_once h.tracked h.wellFormed revents hclock
    obtain rfl := (hanswer m).2 ⟨h.subscribeCb, hdone⟩
    obtain ⟨i, input, hinput, hm⟩ := h.polledFor (hstep.polled m (Option.mem_toList.2 rfl))
    refine ⟨i, input, hinput, hm, ?_, hdone.queue h.wellFormed⟩
    rw [hstep.deliveries, Option.toList_some, List.flatMap_singleton, hown i input hinput m hm,
      List.map_singleton]
  · intro call env hcall hclock hnot
    obtain ⟨answer, hstep, hanswer⟩ := call.once h.tracked h.wellFormed hcall hclock
    cases answer with
    | none => exact hstep.deliveries
    | some m =>
      obtain ⟨-, revents, hwrite, hdone⟩ := (hanswer m).1 rfl
      exact absurd hdone (hnot revents m hwrite)

/-- Where the polls that are subscribed are answered right, the places are distinct. -/
theorem Routing.distinct {c : Context} (h : Routing inputs c) (hroutes : RoutesAnswers inputs c) :
    (∀ input ∈ inputs, input.Addressable) ∧ (inputs.map PolledInput.place).Nodup := by
  have hself : ∀ input ∈ inputs, input.place = input.polledPlace ∧
      (inputs.filter fun other => other.place = input.polledPlace).length = 1 := by
    intro input hmem
    obtain ⟨i, hi⟩ := List.mem_iff_getElem?.1 hmem
    obtain ⟨timer, htimer, hpolls⟩ := h.subscribed.polled i input hi
    have hm : PolledFor c { timer.msg with msgId := timer.timerId } i :=
      ⟨⟨timer, htimer, rfl, .refl ..⟩, hpolls.timerId⟩
    have hanswer := hroutes.answers i input hi _ hm (atTime 0)
    rw [reportAnswer_deliveries h.subscribeCb, h.matched hm hi, List.map_map] at hanswer
    generalize hfilter : (inputs.filter fun other => other.place = input.polledPlace) = matched
      at hanswer
    obtain ⟨only, rfl, honly⟩ := List.map_eq_singleton_iff.1 hanswer
    have hplace := (List.mem_filter.1 (hfilter ▸ List.mem_singleton_self only)).2
    have hsame : only.input = input.input := congrArg Prod.snd honly
    refine ⟨?_, rfl⟩
    rw [← of_decide_eq_true hplace]
    exact congrArg (fun seen : Input => (seen.slave, seen.type, seen.address + seen.addressOffset))
      hsame.symm
  refine ⟨fun input hmem => input.polledPlace_eq_iff.1 (hself input hmem).1,
    (nodup_map_iff_filter ..).2 fun input hmem => ?_⟩
  obtain ⟨hplace, hlength⟩ := hself input hmem
  rw [hplace]
  exact hlength

/-- `modbusmq_subscribe` looks the tier up like an answer. -/
theorem Configured.tiers {c : Context} (h : Configured inputs c) {env : ℕ → Env}
    (hclock : ∀ i, BeforeEnd (env i)) (hmode : c.processConfig.queryMode = .rounds) :
    ∀ timer ∈ (Modbusmq.run (subscriptions env inputs) c).timers, timer.tier =
      (c.processConfig.inputs.find? (inputMatches c.transport timer.msg.writer)).elim .fast
        (·.tier) := by
  have hpart : ∀ done ⊆ inputs, ∀ timer ∈ (Modbusmq.run (subscriptions env done) c).timers,
      timer.tier = (c.processConfig.inputs.find?
        (inputMatches c.transport timer.msg.writer)).elim .fast (·.tier) := by
    intro done hdone
    induction done using List.reverseRecOn with
    | nil =>
      intro timer htimer
      exact absurd (h.timers ▸ htimer) List.not_mem_nil
    | append_singleton done input ih =>
      have hbefore : done ⊆ inputs := List.Subset.trans (List.subset_append_left _ _) hdone
      have hstarting := h.subscribing hclock hbefore
      intro timer htimer
      rw [subscriptions_concat, run_append] at htimer
      change timer ∈ (input.subscription.perform _ _).timers at htimer
      rw [PolledInput.subscription_perform (hstarting.config.trans h.config)
        (fun hother => absurd hmode hother)] at htimer
      dsimp only at htimer
      rw [hmode, insertTimer_rounds, List.mem_append, List.mem_singleton] at htimer
      rcases htimer with hold | rfl
      · exact ih hbefore timer hold
      · unfold newTimer
        dsimp only
        have hconfig : (setSlave (Modbusmq.run (subscriptions env done) c) input.slave).config =
            some c.processConfig := hstarting.config.trans h.config
        rw [if_pos hmode, msgInput_of_config hconfig]
        change (List.find? (inputMatches (Modbusmq.run _ c).transport _) _).elim _ _ = _
        rw [hstarting.transport]
  exact hpart inputs (List.Subset.refl inputs)

theorem Loaded.configured {c : Context} (h : Loaded accepted inputs c) : Configured inputs c where
  queue := h.queue
  timers := h.timers
  timerIdNext := h.timerIdNext
  subscribeCb := h.subscribeCb
  config := h.config
  intervals hmode input hinput := by
    obtain ⟨entry, hentry, hpolled⟩ := forall₂_mem_right h.entries hinput
    rw [← hpolled.interval]
    exact acceptConfig_intervals accepted.accepted (h.queryMode ▸ hmode) hentry
  inputs := h.inputs

theorem Configured.routing {c : Context} (h : Configured inputs c) {env : ℕ → Env}
    (hclock : ∀ i, BeforeEnd (env i)) :
    Routing inputs (Modbusmq.run (subscriptions env inputs) c) := by
  have hserving := h.serving (d := plainDecoders) hclock false 0
  exact ⟨hserving.wellFormed, hserving.tracked, hserving.subscribeCb, hserving.config,
    hserving.subscribed⟩

theorem Configured.ownTiers {c : Context} (h : Configured inputs c) {env : ℕ → Env}
    (hclock : ∀ i, BeforeEnd (env i))
    (hroutes : RoutesAnswers inputs (Modbusmq.run (subscriptions env inputs) c)) :
    OwnTiers inputs (Modbusmq.run (subscriptions env inputs) c) := by
  intro hmode timer htimer i input hinput hid
  have hstarting := h.starting hclock
  have hrouting := h.routing hclock
  have hm : PolledFor (Modbusmq.run (subscriptions env inputs) c)
      { timer.msg with msgId := timer.timerId } i :=
    ⟨⟨timer, htimer, rfl, .refl ..⟩, hid⟩
  have hanswer := hroutes.answers i input hinput _ hm (atTime 0)
  rw [reportAnswer_deliveries hrouting.subscribeCb] at hanswer
  obtain ⟨only, honly, hsame⟩ := List.map_eq_singleton_iff.1 hanswer
  obtain rfl : only = input.input := congrArg Prod.snd hsame
  rw [hstarting.processConfig] at hmode
  rw [h.tiers hclock hmode timer htimer, ← List.head?_filter, ← hstarting.processConfig,
    ← hstarting.transport]
  change ((matchedInputs (Modbusmq.run (subscriptions env inputs) c)
    { timer.msg with msgId := timer.timerId }).head?).elim _ _ = _
  rw [honly]
  rfl

/-- Answers and tiers go by the input they were made for, in every state of the main loop, exactly
when every input is asked for where it is and no two are in the same place. -/
theorem answers_routed_iff {c : Context} (h : Loaded accepted inputs c) {env : ℕ → Env}
    (hclock : ∀ i, BeforeEnd (env i)) :
    (OwnTiers inputs (run (subscriptions env inputs) c) ∧
        ∀ calls : List (Call × Env), (∀ made ∈ calls, made.1.Looped ∧ BeforeEnd made.2) →
          RoutesAnswers inputs (run calls (run (subscriptions env inputs) c))) ↔
      (∀ input ∈ inputs, input.Addressable) ∧ (inputs.map PolledInput.place).Nodup := by
  have hrouting := h.configured.routing hclock
  constructor
  · rintro ⟨-, hroutes⟩
    exact hrouting.distinct (hroutes [] fun made hmade => absurd hmade List.not_mem_nil)
  · rintro ⟨hrange, hdistinct⟩
    have hstart := hrouting.routesAnswers hrange hdistinct
    exact ⟨h.configured.ownTiers hclock hstart,
      fun calls hcalls => (hrouting.run hcalls).routesAnswers hrange hdistinct⟩

/-- A pack with a short fast block and a long deep one. -/
def packConfig (deepAddress : ℤ) : BridgeConfig where
  signedInts := true
  queryMode := .rounds
  moduleCount := 0
  moduleSlaveFirst := 1
  inputs := [⟨1, false, some .inputRegister, 0, 0, 3, 0, []⟩,
    ⟨1, false, some .inputRegister, deepAddress, 0, 60, 0, []⟩]
  writes := []

def packInputs (deepAddress : ℤ) : List PolledInput :=
  [⟨1, .inputRegister, 0, 0, 3, .fast, 0, []⟩, ⟨1, .inputRegister, deepAddress, 0, 60, .deep, 0, []⟩]

def packContext (deepAddress : ℤ) : Context :=
  let config : Config :=
    ⟨(packInputs deepAddress).map PolledInput.input, 1, .rounds, 0, 0, 0, false⟩
  { sampleContext .tcp [] with
    frameTimeoutMs := 500, subscribeCb := true, config := some config, processConfig := config }

theorem packContext_loaded (deepAddress : ℤ) :
    Loaded ⟨packConfig deepAddress, packConfig deepAddress, rfl⟩ (packInputs deepAddress)
      (packContext deepAddress) where
  entries := .cons ⟨rfl, rfl, rfl, rfl, rfl, rfl⟩ (.cons ⟨rfl, rfl, rfl, rfl, rfl, rfl⟩ .nil)
  queryMode := rfl
  inputs := rfl
  config := rfl
  subscribeCb := rfl
  queue := rfl
  timers := rfl
  timerIdNext := rfl

def packStart (deepAddress : ℤ) : Context :=
  run (subscriptions (fun _ => atTime 0) (packInputs deepAddress)) (packContext deepAddress)

/-- The first round begins, and the device answers the short block. -/
def packAnswer : List (Call × Env) :=
  [.prepare 100, .writeRead ⟨false, true, false, false⟩,
    .arrive [0, 1, 0, 0, 0, 9, 1, 4, 6, 0, 1, 0, 2, 0, 3], .writeRead ⟨true, false, false, false⟩,
    .writeRead ⟨true, false, false, false⟩].map fun call => (call, atTime 1000)

/-- Behind the short block, the deep one is told apart. -/
theorem answers_routed_iff_example :
    OwnTiers (packInputs 3) (packStart 3) ∧
      RoutesAnswers (packInputs 3) (run packAnswer (packStart 3)) ∧
      ((deliveries (packStart 3) (run packAnswer (packStart 3))).map fun delivery =>
        (delivery.1.msgId, delivery.2.naddress)) = [(1, 3)] := by
  have hplaces : (∀ input ∈ packInputs 3, input.Addressable) ∧
      ((packInputs 3).map PolledInput.place).Nodup := by
    unfold PolledInput.Addressable
    decide
  have hquiet : ∀ i : ℕ, BeforeEnd ((fun _ => atTime 0) i) := fun _ => atTime_beforeEnd (by decide)
  obtain ⟨htiers, hroutes⟩ := (answers_routed_iff (packContext_loaded 3) hquiet).2 hplaces
  refine ⟨htiers, hroutes packAnswer fun made hmade => ?_, by decide +kernel⟩
  fin_cases hmade <;> exact ⟨trivial, atTime_beforeEnd (by decide)⟩

/-- At the same address, the answer to the short block is handed to the deep one too, and the deep
one is read in every round. -/
theorem same_place_misroutes :
    Loaded ⟨packConfig 0, packConfig 0, rfl⟩ (packInputs 0) (packContext 0) ∧
      ¬ OwnTiers (packInputs 0) (packStart 0) ∧
      ((deliveries (packStart 0) (run packAnswer (packStart 0))).map fun delivery =>
        (delivery.1.msgId, delivery.2.naddress)) = [(1, 3), (1, 60)] := by
  refine ⟨packContext_loaded 0, fun htiers => ?_, by decide +kernel⟩
  have hdeep := htiers rfl ((packStart 0).timers.getLast (by decide +kernel))
    (List.getLast_mem _) 1 _ rfl (by decide +kernel)
  exact absurd hdeep (by decide +kernel)

end Modbusmq
