import Modbusmq.Bridge.Polls
import Modbusmq.Decoding.Values
import Modbusmq.Loop.Timers

/-!
# Publishing what was read

The subscription callback of `modbusmq.c` with
`modbusmq_channel_publish_decide`, and the publish state both keep for every
channel. The formats and the floating point behind a reading are parameters:
what is published when does not depend on them.
-/

namespace Modbusmq

/-- `modbusmq_channel_t` with what decides when a reading is worth a message. -/
structure PublishedChannel extends Channel where
  topic : String
  onChange : Bool
  minChange : ℚ
  minChangeRel : ℚ
  minInterval : ℤ
  maxInterval : ℤ

structure PolledInput where
  slave : ℤ
  type : InputType
  address : ℤ
  addressOffset : ℤ
  naddress : ℤ
  tier : Tier
  interval : ℤ
  channels : List PublishedChannel

def PolledInput.input (input : PolledInput) : Input where
  slave := input.slave
  type := input.type
  address := input.address
  addressOffset := input.addressOffset
  naddress := input.naddress
  tier := input.tier
  channels := input.channels.map (·.toChannel)

inductive Single
  | number (value : ℚ)
  | infinite (negative : Bool)
  | nan
  deriving DecidableEq, Repr

/-- What is left open: how `float` arithmetic rounds, `add`, `mod` and `mul` on a raw value, the
printed form of a value, and the characters of a text format. -/
structure Decoders where
  rounded : ℚ → ℚ
  scaled : PublishedChannel → ChannelValue → Single
  printed : PolledInput → PublishedChannel → Single → List UInt8
  text : PublishedChannel → List UInt8 → Option (List UInt8)
  naValue : Option ℕ

structure PublishState where
  published : Bool
  lastValue : Single
  lastTextHash : UInt32
  lastPublishMs : Millitime

def textHash (text : List UInt8) : UInt32 :=
  text.foldl (fun hash b => (hash ^^^ b.toUInt32) * 16777619) 2166136261

def publishRecord (channel : PublishedChannel) (value : Single) (text : List UInt8)
    (now : Millitime) (s : PublishState) : PublishState :=
  if formatIsText channel.format then
    { s with lastTextHash := textHash text, lastPublishMs := now, published := true }
  else { s with lastValue := value, lastPublishMs := now, published := true }

def PublishState.reset (s : PublishState) : PublishState :=
  { s with published := false, lastValue := .number 0, lastPublishMs := 0 }

inductive PublishResult
  | success
  | noConnection
  | failed
  deriving DecidableEq, Repr

structure Publication where
  input : ℕ
  channel : ℕ
  topic : String
  text : List UInt8
  deriving DecidableEq

/-- The bridge's side of the broker: `mqtt_connected`, `mqtt_reconnect_at_ms` and the publish
states, by input and channel. The messages since the broker was last connected are a ghost. -/
structure Broker where
  mqttConnected : Bool
  mqttReconnectAtMs : Millitime
  states : ℕ → ℕ → PublishState
  publications : List Publication

/-- What the clock and the broker answer while a reading is published, by input and channel. -/
structure BrokerEnv where
  clock : ℕ → ℕ → Millitime
  rc : ℕ → ℕ → PublishResult

section

variable (d : Decoders)

def channelTextUnchanged (input : PolledInput) (channel : PublishedChannel) (text : List UInt8)
    (s : PublishState) : Bool :=
  if formatIsText channel.format then textHash text = s.lastTextHash
  else text = d.printed input channel s.lastValue

/-- The change is below `min_change` and `min_change_rel`; one from or to an infinity or a NaN
never is. -/
def belowThreshold (channel : PublishedChannel) : Single → Single → Bool
  | .number last, .number value =>
    let threshold :=
      max channel.minChange (d.rounded (channel.minChangeRel * max 1 (max |last| |value|)))
    0 < threshold ∧ |d.rounded (value - last)| < threshold
  | _, _ => false

def channelPublishDecide (input : PolledInput) (channel : PublishedChannel) (value : Single)
    (text : List UInt8) (now : Millitime) (s : PublishState) : Bool × PublishState :=
  let recorded := publishRecord channel value text now s
  let sincePublish := now - s.lastPublishMs
  let changeGated : Bool :=
    channel.onChange ∨ 0 < channel.minChange ∨ 0 < channel.minChangeRel
  if ¬ s.published then (true, recorded)
  else if 0 < channel.maxInterval ∧ UInt64.ofInt channel.maxInterval ≤ sincePublish then
    (true, recorded)
  else if 0 < channel.minInterval ∧ sincePublish < UInt64.ofInt channel.minInterval then (false, s)
  else if changeGated ∧ channelTextUnchanged d input channel text s then (false, s)
  else if ¬ formatIsText channel.format ∧ belowThreshold d channel s.lastValue value then (false, s)
  else (true, recorded)

/-- A channel of an answer as the callback decodes it, `none` where it skips the channel. -/
def channelReading (c : Context) (m : Msg) (input : PolledInput) (channel : PublishedChannel) :
    Option (Single × List UInt8) :=
  match channelData c.transport c.config m.reader input.input channel.toChannel with
  | none => none
  | some data =>
    if formatIsText channel.format then
      (d.text channel data).map fun text => (.number 0, text)
    else
      let value := d.scaled channel
        (readChannel c.transport c.config d.naValue m.reader input.input channel.toChannel)
      some (value, d.printed input channel value)

/-- One turn of `modbusmq_subscription_callback`. -/
def publishChannel (c : Context) (m : Msg) (input : PolledInput) (i : ℕ) (env : BrokerEnv)
    (b : Broker) (turn : PublishedChannel × ℕ) : Broker :=
  match channelReading d c m input turn.1 with
  | none => b
  | some (value, text) =>
    let (publish, s) :=
      channelPublishDecide d input turn.1 value text (env.clock i turn.2) (b.states i turn.2)
    let b := { b with states := Function.update b.states i (Function.update (b.states i) turn.2 s) }
    if publish ∧ b.mqttConnected then
      match env.rc i turn.2 with
      | .success =>
        { b with publications := b.publications ++ [⟨i, turn.2, turn.1.topic, text⟩] }
      | .noConnection => { b with mqttConnected := false }
      | .failed => b
    else b

def subscriptionCallback (c : Context) (m : Msg) (input : PolledInput) (i : ℕ) (env : BrokerEnv)
    (b : Broker) : Broker :=
  input.channels.zipIdx.foldl (publishChannel d c m input i env) b

/-- The callbacks for one answer: every input it matches, in their order. -/
def publishAnswer (inputs : List PolledInput) (c : Context) (m : Msg) (env : BrokerEnv)
    (b : Broker) : Broker :=
  inputs.zipIdx.foldl (fun b turn =>
    if inputMatches c.transport m.writer turn.1.input then
      subscriptionCallback d c m turn.1 turn.2 env b
    else b) b

end

/-- An answer of the library, and the context in which it was handed over. -/
structure AnsweredPoll where
  context : Context
  msg : Msg

/-- The answer was handed over as one to this input. -/
def AnsweredPoll.For (a : AnsweredPoll) (input : PolledInput) : Prop :=
  inputMatches a.context.transport a.msg.writer input.input

/-- The answer holds the channel, and it can be decoded. -/
def AnsweredPoll.Holds (d : Decoders) (a : AnsweredPoll) (input : PolledInput)
    (channel : PublishedChannel) : Prop :=
  (channelReading d a.context a.msg input channel).isSome

/-- What one of these answers holds for the channel has been published on the channel's topic. -/
def Broker.Published (d : Decoders) (answers : List AnsweredPoll) (b : Broker) (i : ℕ)
    (input : PolledInput) (k : ℕ) (channel : PublishedChannel) : Prop :=
  ∃ a ∈ answers, a.For input ∧ ∃ value text,
    channelReading d a.context a.msg input channel = some (value, text) ∧
      ⟨i, k, channel.topic, text⟩ ∈ b.publications

/-- While the broker is connected, what counts as published has been published. -/
def Sound (d : Decoders) (inputs : List PolledInput) (answers : List AnsweredPoll)
    (b : Broker) : Prop :=
  b.mqttConnected → ∀ i input, inputs[i]? = some input → ∀ k channel,
    input.channels[k]? = some channel → (b.states i k).published →
      b.Published d answers i input k channel

/-- The broker side after some callbacks. -/
structure BrokerStep (d : Decoders) (inputs : List PolledInput) (answers : List AnsweredPoll)
    (b b' : Broker) : Prop where
  connected : b'.mqttConnected → b.mqttConnected
  publications : b.publications ⊆ b'.publications
  sound : Sound d inputs answers b'

variable {d : Decoders} {inputs : List PolledInput} {answers : List AnsweredPoll}

theorem BrokerStep.refl {b : Broker} (h : Sound d inputs answers b) :
    BrokerStep d inputs answers b b := ⟨id, List.Subset.refl _, h⟩

theorem BrokerStep.trans {b₁ b₂ b₃ : Broker} (h : BrokerStep d inputs answers b₁ b₂)
    (h' : BrokerStep d inputs answers b₂ b₃) : BrokerStep d inputs answers b₁ b₃ :=
  ⟨h.connected ∘ h'.connected, List.Subset.trans h.publications h'.publications, h'.sound⟩

theorem Broker.Published.mono {more : List AnsweredPoll} {b b' : Broker} {i k : ℕ}
    {input : PolledInput} {channel : PublishedChannel} (h : b.Published d answers i input k channel)
    (hanswers : answers ⊆ more) (hpublications : b.publications ⊆ b'.publications) :
    b'.Published d more i input k channel := by
  obtain ⟨a, ha, hfor, value, text, hreading, hmem⟩ := h
  exact ⟨a, hanswers ha, hfor, value, text, hreading, hpublications hmem⟩

@[simp] theorem publishRecord_published (channel : PublishedChannel) (value : Single)
    (text : List UInt8) (now : Millitime) (s : PublishState) :
    (publishRecord channel value text now s).published = true := by
  unfold publishRecord
  split_ifs <;> rfl

/-- A decision leaves the channel published, and only a channel that was is held back. -/
theorem channelPublishDecide_published (input : PolledInput) (channel : PublishedChannel)
    (value : Single) (text : List UInt8) (now : Millitime) (s : PublishState) :
    (channelPublishDecide d input channel value text now s).2.published = true ∧
      ((channelPublishDecide d input channel value text now s).1 = false → s.published = true) := by
  unfold channelPublishDecide
  dsimp only
  by_cases hpublished : s.published = true
  · rw [if_neg (not_not.2 hpublished)]
    refine ⟨?_, fun _ => hpublished⟩
    split_ifs <;> first | exact publishRecord_published .. | exact hpublished
  · rw [if_pos hpublished]
    exact ⟨publishRecord_published .., fun h => absurd h (by simp)⟩

theorem Sound.channel {b : Broker} (h : Sound d inputs answers b) {i k : ℕ} (s : PublishState)
    (more : List Publication)
    (hpublished : b.mqttConnected → ∀ input channel, inputs[i]? = some input →
      input.channels[k]? = some channel → Broker.Published d answers
        { b with publications := b.publications ++ more } i input k channel) :
    BrokerStep d inputs answers b { b with
      states := Function.update b.states i (Function.update (b.states i) k s)
      publications := b.publications ++ more } where
  connected := id
  publications := List.subset_append_left _ _
  sound := by
    intro hconnected i' input hinput k' channel hchannel hstate
    by_cases hsame : i' = i ∧ k' = k
    · obtain ⟨rfl, rfl⟩ := hsame
      exact hpublished hconnected input channel hinput hchannel
    · have hold : (b.states i' k').published = true := by
        revert hstate
        dsimp only
        by_cases hi : i' = i
        · subst hi
          rw [Function.update_self, Function.update_of_ne fun hk => hsame ⟨rfl, hk⟩]
          exact id
        · rw [Function.update_of_ne hi]
          exact id
      exact (h hconnected i' input hinput k' channel hchannel hold).mono (List.Subset.refl _)
        (List.subset_append_left _ _)

theorem publishChannel_step {a : AnsweredPoll} (ha : a ∈ answers) {i : ℕ} {input : PolledInput}
    (hinput : inputs[i]? = some input) (hfor : a.For input) {env : BrokerEnv} {b : Broker}
    (h : Sound d inputs answers b) {turn : PublishedChannel × ℕ}
    (hturn : input.channels[turn.2]? = some turn.1) (hrc : env.rc i turn.2 ≠ .failed) :
    BrokerStep d inputs answers b (publishChannel d a.context a.msg input i env b turn) ∧
      ((publishChannel d a.context a.msg input i env b turn).mqttConnected →
        a.Holds d input turn.1 → Broker.Published d answers
          (publishChannel d a.context a.msg input i env b turn) i input turn.2 turn.1) := by
  unfold publishChannel AnsweredPoll.Holds
  split
  · rename_i hreading
    refine ⟨.refl h, fun _ hholds => ?_⟩
    rw [hreading] at hholds
    cases hholds
  · rename_i value text hreading
    obtain ⟨-, hheld⟩ := channelPublishDecide_published (d := d) input turn.1 value text
      (env.clock i turn.2) (b.states i turn.2)
    generalize channelPublishDecide d input turn.1 value text (env.clock i turn.2)
      (b.states i turn.2) = decision at hheld
    obtain ⟨publish, s⟩ := decision
    dsimp only
    have hown : ∀ {more : List Publication}, (b.mqttConnected → Broker.Published d answers
        { b with publications := b.publications ++ more } i input turn.2 turn.1) →
        b.mqttConnected → ∀ other channel, inputs[i]? = some other →
          other.channels[turn.2]? = some channel → Broker.Published d answers
            { b with publications := b.publications ++ more } i other turn.2 channel := by
      intro more hpublished hconnected other channel hother hchannel
      obtain rfl := Option.some.inj (hinput.symm.trans hother)
      obtain rfl := Option.some.inj (hturn.symm.trans hchannel)
      exact hpublished hconnected
    split_ifs with hpublish
    · split
      · have hpublished : Broker.Published d answers { b with
            publications := b.publications ++ [⟨i, turn.2, turn.1.topic, text⟩] }
            i input turn.2 turn.1 :=
          ⟨a, ha, hfor, value, text, hreading, List.mem_append_right _ (List.mem_singleton_self _)⟩
        exact ⟨h.channel s _ (hown fun _ => hpublished), fun _ _ => hpublished⟩
      · exact ⟨⟨nofun, List.Subset.refl _, nofun⟩, nofun⟩
      · exact absurd ‹_› hrc
    · have hpublished : b.mqttConnected → b.Published d answers i input turn.2 turn.1 := by
        intro hconnected
        have hout : publish = false := by
          by_contra hyes
          exact hpublish ⟨by simpa using hyes, hconnected⟩
        exact h hconnected i input hinput turn.2 turn.1 hturn (hheld hout)
      have hstep := h.channel s [] (hown fun hconnected =>
        (hpublished hconnected).mono (List.Subset.refl _) (List.subset_append_left _ _))
      rw [List.append_nil] at hstep
      exact ⟨hstep, fun hconnected _ => (hpublished hconnected).mono (List.Subset.refl _)
        (List.Subset.refl _)⟩

/-- No message is refused while the broker is connected. -/
def BrokerEnv.Publishes (env : BrokerEnv) : Prop := ∀ i k, env.rc i k ≠ .failed

/-- What each turn of a walk achieves holds at its end. -/
theorem foldl_brokerStep {α : Type*} {f : Broker → α → Broker} (done : α → Broker → Prop)
    (l : List α) (hf : ∀ b, ∀ x ∈ l, Sound d inputs answers b →
      BrokerStep d inputs answers b (f b x) ∧ done x (f b x))
    (hkept : ∀ x b b', BrokerStep d inputs answers b b' → done x b → done x b')
    {b : Broker} (h : Sound d inputs answers b) :
    BrokerStep d inputs answers b (l.foldl f b) ∧ ∀ x ∈ l, done x (l.foldl f b) := by
  induction l generalizing b with
  | nil => exact ⟨.refl h, nofun⟩
  | cons y l ih =>
    obtain ⟨hstep, hdone⟩ := hf b y List.mem_cons_self h
    obtain ⟨hrest, hrests⟩ := ih (fun b x hx => hf b x (List.mem_cons_of_mem _ hx)) hstep.sound
    refine ⟨hstep.trans hrest, fun x hx => ?_⟩
    rcases List.mem_cons.1 hx with rfl | hx
    · exact hkept x _ _ hrest hdone
    · exact hrests x hx

/-- Whatever the answer holds of an input has been published. -/
def Delivers (d : Decoders) (answers : List AnsweredPoll) (a : AnsweredPoll) (i : ℕ)
    (input : PolledInput) (b : Broker) : Prop :=
  b.mqttConnected → ∀ k channel, input.channels[k]? = some channel → a.Holds d input channel →
    b.Published d answers i input k channel

theorem Delivers.step {a : AnsweredPoll} {i : ℕ} {input : PolledInput} {b b' : Broker}
    (h : Delivers d answers a i input b) (hstep : BrokerStep d inputs answers b b') :
    Delivers d answers a i input b' := fun hconnected k channel hchannel hholds =>
  (h (hstep.connected hconnected) k channel hchannel hholds).mono (List.Subset.refl _)
    hstep.publications

theorem subscriptionCallback_step {a : AnsweredPoll} (ha : a ∈ answers) {i : ℕ} {input : PolledInput}
    (hinput : inputs[i]? = some input) (hfor : a.For input) {env : BrokerEnv}
    (henv : env.Publishes) {b : Broker} (h : Sound d inputs answers b) :
    BrokerStep d inputs answers b (subscriptionCallback d a.context a.msg input i env b) ∧
      Delivers d answers a i input (subscriptionCallback d a.context a.msg input i env b) := by
  obtain ⟨hstep, hdone⟩ := foldl_brokerStep (f := publishChannel d a.context a.msg input i env)
    (fun turn b => b.mqttConnected → a.Holds d input turn.1 →
      b.Published d answers i input turn.2 turn.1) input.channels.zipIdx
    (fun b turn hturn hb => publishChannel_step ha hinput hfor hb
      (List.mem_zipIdx_iff_getElem?.1 hturn) (henv i turn.2))
    (fun turn b b' hstep hdone hconnected hholds => (hdone (hstep.connected hconnected) hholds).mono
      (List.Subset.refl _) hstep.publications) h
  exact ⟨hstep, fun hconnected k channel hchannel =>
    hdone (channel, k) (List.mk_mem_zipIdx_iff_getElem?.2 hchannel) hconnected⟩

theorem publishAnswer_step {a : AnsweredPoll} (ha : a ∈ answers) {env : BrokerEnv}
    (henv : env.Publishes) {b : Broker} (h : Sound d inputs answers b) :
    BrokerStep d inputs answers b (publishAnswer d inputs a.context a.msg env b) ∧
      ∀ i input, inputs[i]? = some input → a.For input →
        Delivers d answers a i input (publishAnswer d inputs a.context a.msg env b) := by
  have hturn : ∀ b, ∀ turn ∈ inputs.zipIdx, Sound d inputs answers b →
      BrokerStep d inputs answers b (if inputMatches a.context.transport a.msg.writer turn.1.input
        then subscriptionCallback d a.context a.msg turn.1 turn.2 env b else b) ∧
      (a.For turn.1 → Delivers d answers a turn.2 turn.1
        (if inputMatches a.context.transport a.msg.writer turn.1.input
          then subscriptionCallback d a.context a.msg turn.1 turn.2 env b else b)) := by
    intro b turn hturn hb
    split_ifs with hfor
    · obtain ⟨hstep, hdelivers⟩ := subscriptionCallback_step ha
        (List.mem_zipIdx_iff_getElem?.1 hturn) hfor henv hb
      exact ⟨hstep, fun _ => hdelivers⟩
    · exact ⟨.refl hb, fun hfor' => absurd hfor' hfor⟩
  have hkept : ∀ (turn : PolledInput × ℕ) (b b' : Broker), BrokerStep d inputs answers b b' →
      (a.For turn.1 → Delivers d answers a turn.2 turn.1 b) →
        a.For turn.1 → Delivers d answers a turn.2 turn.1 b' :=
    fun turn b b' hstep hdone hfor => (hdone hfor).step hstep
  obtain ⟨hstep, hdone⟩ := foldl_brokerStep
    (fun turn b => a.For turn.1 → Delivers d answers a turn.2 turn.1 b) inputs.zipIdx hturn hkept h
  exact ⟨hstep, fun i input hinput =>
    hdone (input, i) (List.mk_mem_zipIdx_iff_getElem?.2 hinput)⟩

end Modbusmq
