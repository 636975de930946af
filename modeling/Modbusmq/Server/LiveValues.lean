import Modbusmq.Bridge.Numbers
import Modbusmq.Encoding.Scaling
import Modbusmq.Library.Latest
import Modbusmq.Server.Agreement
import Modbusmq.Server.OwnTopics

/-!
# Live values

With `emu.connect` the server takes the values it serves from MQTT. A message on the prefix and
the own topic of a channel replaces what the channel serves, scaled back to what is in the
registers, and the bridge that polls the server reads it again.
-/

namespace Modbusmq

structure LiveChannel extends ServedChannel where
  add : ℤ
  mod : ℤ
  mul : ℤ

structure LiveInput where
  slave : ℤ
  type : Option InputType
  address : ℤ
  addressOffset : ℤ
  naddress : ℤ
  channels : List LiveChannel

structure LiveConfig where
  inputs : List LiveInput
  offsetSize : ℤ
  topicPrefix : Option (List Char)

def LiveInput.served (input : LiveInput) : ServedInput where
  slave := input.slave
  type := input.type
  address := input.address
  addressOffset := input.addressOffset
  naddress := input.naddress
  channels := input.channels.map (·.toServedChannel)

def LiveConfig.served (config : LiveConfig) : ServedConfig where
  inputs := config.inputs.map (·.served)
  offsetSize := config.offsetSize

def LiveInput.mapChannels (f : LiveChannel → LiveChannel) (input : LiveInput) : LiveInput :=
  { input with channels := input.channels.map f }

def LiveConfig.mapChannels (f : LiveChannel → LiveChannel) (config : LiveConfig) : LiveConfig :=
  { config with inputs := config.inputs.map (·.mapChannels f) }

structure LiveMessage where
  topic : List Char
  payload : List UInt8

inductive LiveUpdate
  | number (bits : UInt32)
  | text (text : List UInt8)
  deriving DecidableEq

def LiveChannel.put (channel : LiveChannel) : LiveUpdate → LiveChannel
  | .number bits => { channel with value := bits }
  | .text text => { channel with valueText := some text }

section

variable (numerals : Numerals)

/-- The rounding at the end of `emu_raw_value`. Beyond the range of `int64_t` the source is
undefined. -/
def emuRounded (raw : ℚ) : ℤ :=
  if raw < 0 then -truncate (numerals.rounded (-raw + 1 / 2))
  else truncate (numerals.rounded (raw + 1 / 2))

def emuRawValue (channel : LiveChannel) (value : ℚ) : ℚ :=
  let raw := unscale numerals.rounded channel.add channel.mod channel.mul value
  if channel.format.IsFloat then raw else emuRounded numerals raw

def numericOk (text : List UInt8) : Option ℚ :=
  match numerals.strtod text with
  | (some value, used) => if used ≠ 0 ∧ used = text.length then some value else none
  | (none, _) => none

/-- What `emu_apply` makes of a payload for a channel it is addressed to. -/
def emuUpdate (channel : LiveChannel) (text : List UInt8) : Option LiveUpdate :=
  if formatIsText channel.format then some (.text text)
  else (numericOk numerals text).map fun value =>
    .number (numerals.single (emuRawValue numerals channel value))

def LiveChannel.addressed (topicPrefix : Option (List Char)) (rest : List Char)
    (channel : LiveChannel) : Bool :=
  channel.topic.any fun topic => emuOwnTopic topicPrefix topic.toList = rest

def emuApply (config : LiveConfig) (rest : List Char) (text : List UInt8) : LiveConfig :=
  config.mapChannels fun channel =>
    if channel.addressed config.topicPrefix rest then
      (emuUpdate numerals channel text).elim channel channel.put
    else channel

/-- The payloads and topics that `emu_message_callback` lets through, with the rest of the topic
and the C string. -/
def LiveMessage.accepted (emuPrefix : List Char) (message : LiveMessage) :
    Option (List Char × List UInt8) :=
  if message.payload.length = 0 ∨ 1023 < message.payload.length then none
  else if message.topic.take emuPrefix.length = emuPrefix then
    some (message.topic.drop emuPrefix.length, message.payload.takeWhile (· ≠ 0))
  else none

def emuMessageCallback (emuPrefix : List Char) (config : LiveConfig) (message : LiveMessage) :
    LiveConfig :=
  (message.accepted emuPrefix).elim config fun accepted =>
    emuApply numerals config accepted.1 accepted.2

def LiveChannel.read (topicPrefix : Option (List Char)) (emuPrefix : List Char)
    (channel : LiveChannel) (message : LiveMessage) : Option LiveUpdate :=
  (message.accepted emuPrefix).bind fun accepted =>
    if channel.addressed topicPrefix accepted.1 then emuUpdate numerals channel accepted.2 else none

/-- A channel after a run of messages: as the last message that puts anything in it has made
it, or as the file has it. -/
def LiveChannel.after (topicPrefix : Option (List Char)) (emuPrefix : List Char)
    (messages : List LiveMessage) (channel : LiveChannel) : LiveChannel :=
  (Latest.latest (LiveChannel.read numerals topicPrefix emuPrefix) channel messages).elim channel
    channel.put

/-- The own topic of a channel: the configuration has it behind the prefix, and the prefix can be
taken off again. A channel of an entry without a module has the module -1. -/
structure OwnTopic (topicPrefix : Option (List Char)) (channel : LiveChannel) (own : List Char) :
    Prop where
  expanded : ∃ (module : ℤ) (topic full : List Char), module < 1000 ∧
    applyModuleTopic module (topicPrefix.getD [] ++ topic) = some (.ok full) ∧
      channel.topic = some (String.ofList full) ∧ own = moduleTopic module.toNat topic ∧
        Joined module.toNat (topicPrefix.getD []) topic
  separable : Separable own (pieces (topicPrefix.getD []))

/-- A payload that is taken: it is not empty and fits the buffer, and is read as a C string. -/
def Payload (payload text : List UInt8) : Prop :=
  0 < payload.length ∧ payload.length ≤ 1023 ∧ text = payload.takeWhile (· ≠ 0)

/-- What a message puts in the channel with this own topic: its text, or the number that it is
from its first byte to its last, scaled back to what the register holds. -/
inductive Puts (own emuPrefix : List Char) (channel : LiveChannel) : LiveMessage → LiveUpdate → Prop
  | text {payload text : List UInt8} (hpayload : Payload payload text)
      (hformat : formatIsText channel.format) :
      Puts own emuPrefix channel ⟨emuPrefix ++ own, payload⟩ (.text text)
  | number {payload text : List UInt8} {value : ℚ} (hpayload : Payload payload text)
      (hformat : ¬ formatIsText channel.format)
      (hvalue : IsNumber numerals.strtod text (some value)) :
      Puts own emuPrefix channel ⟨emuPrefix ++ own, payload⟩
        (.number (numerals.single (emuRawValue numerals channel value)))

/-- A channel has become `channel'`: as the last message that puts anything in it makes it, or as
it was. -/
def LatestPut (own emuPrefix : List Char) (messages : List LiveMessage)
    (channel channel' : LiveChannel) : Prop :=
  (∃ update, Latest.Last (Puts numerals own emuPrefix channel) messages update ∧
      channel' = channel.put update) ∨
    (∀ message ∈ messages, ∀ update, ¬ Puts numerals own emuPrefix channel message update) ∧
      channel' = channel

variable {numerals} {topicPrefix : Option (List Char)} {emuPrefix : List Char}
  {config : LiveConfig} {channel : LiveChannel}

theorem read_put (update : LiveUpdate) (message : LiveMessage) :
    (channel.put update).read numerals topicPrefix emuPrefix message =
      channel.read numerals topicPrefix emuPrefix message := by
  cases update <;> rfl

/-- All that is put in a channel is of the kind of its format. -/
theorem read_kind {message : LiveMessage} {update : LiveUpdate}
    (h : channel.read numerals topicPrefix emuPrefix message = some update) :
    if formatIsText channel.format then ∃ text, update = .text text
    else ∃ bits, update = .number bits := by
  obtain ⟨⟨rest, text⟩, -, hupdate⟩ := Option.bind_eq_some_iff.1 h
  dsimp only at hupdate
  split_ifs at hupdate with haddressed
  unfold emuUpdate at hupdate
  split_ifs at hupdate ⊢ with htext
  · exact ⟨text, (Option.some.inj hupdate).symm⟩
  · obtain ⟨value, -, rfl⟩ := Option.map_eq_some_iff.1 hupdate
    exact ⟨_, rfl⟩

theorem overwrites : Latest.Overwrites (LiveChannel.read numerals topicPrefix emuPrefix)
    LiveChannel.put where
  stable _ update message := read_put update message
  last channel message message' update update' hupdate hupdate' := by
    have hkind := read_kind hupdate
    have hkind' := read_kind hupdate'
    split_ifs at hkind hkind'
    · obtain ⟨text, rfl⟩ := hkind
      obtain ⟨text', rfl⟩ := hkind'
      rfl
    · obtain ⟨bits, rfl⟩ := hkind
      obtain ⟨bits', rfl⟩ := hkind'
      rfl

theorem mapChannels_id : config.mapChannels (fun channel => channel) = config := by
  have hinput : (fun input : LiveInput => input.mapChannels fun channel => channel) = id := by
    funext input
    unfold LiveInput.mapChannels
    rw [List.map_id']
    rfl
  unfold LiveConfig.mapChannels
  rw [hinput, List.map_id]

theorem mapChannels_mapChannels (f g : LiveChannel → LiveChannel) :
    (config.mapChannels f).mapChannels g = config.mapChannels fun channel => g (f channel) := by
  have hinput : LiveInput.mapChannels g ∘ LiveInput.mapChannels f =
      LiveInput.mapChannels fun channel => g (f channel) := by
    funext input
    unfold LiveInput.mapChannels
    dsimp only [Function.comp_apply]
    rw [List.map_map]
    rfl
  unfold LiveConfig.mapChannels
  dsimp only
  rw [List.map_map, hinput]

theorem emuMessageCallback_eq (message : LiveMessage) :
    emuMessageCallback numerals emuPrefix config message = config.mapChannels
      (Latest.step (LiveChannel.read numerals config.topicPrefix emuPrefix) LiveChannel.put ·
        message) := by
  unfold emuMessageCallback Latest.step LiveChannel.read
  cases message.accepted emuPrefix with
  | none => exact mapChannels_id.symm
  | some accepted =>
    refine congrArg config.mapChannels (funext fun channel => ?_)
    dsimp only [Option.bind_some]
    split_ifs <;> rfl

theorem emuRun_eq {messages : List LiveMessage} :
    Machine.run (emuMessageCallback numerals emuPrefix) messages config = config.mapChannels
      (Machine.run (Latest.step (LiveChannel.read numerals config.topicPrefix emuPrefix)
        LiveChannel.put) messages) := by
  induction messages generalizing config with
  | nil => exact mapChannels_id.symm
  | cons message messages ih =>
    rw [Machine.run_cons, ih, emuMessageCallback_eq, mapChannels_mapChannels]
    rfl

theorem run_channel (messages : List LiveMessage) :
    Machine.run (Latest.step (LiveChannel.read numerals topicPrefix emuPrefix) LiveChannel.put)
      messages = LiveChannel.after numerals topicPrefix emuPrefix messages :=
  funext fun _ => overwrites.run_eq

theorem OwnTopic.addressed {own : List Char} (h : OwnTopic topicPrefix channel own)
    (rest : List Char) : channel.addressed topicPrefix rest ↔ rest = own := by
  obtain ⟨⟨module, topic, full, hmodule, hfull, htopic, rfl, hjoined⟩, hseparable⟩ := h
  have hown : emuOwnTopic topicPrefix full = moduleTopic module.toNat topic := by
    rw [applyModuleTopic_text hmodule hfull, hjoined]
    cases topicPrefix with
    | none => rfl
    | some p => exact (emuOwnTopic_joined_iff p _ _).2 hseparable
  unfold LiveChannel.addressed
  rw [htopic, Option.any_some, decide_eq_true_eq, String.toList_ofList, hown]
  exact eq_comm

theorem accepted_eq_some_iff {message : LiveMessage} {rest : List Char} {text : List UInt8} :
    message.accepted emuPrefix = some (rest, text) ↔
      message.topic = emuPrefix ++ rest ∧ Payload message.payload text := by
  unfold LiveMessage.accepted Payload
  constructor
  · intro h
    split_ifs at h with hlength hprefix
    obtain ⟨rfl, rfl⟩ := Prod.mk.inj (Option.some.inj h)
    refine ⟨?_, by omega, by omega, rfl⟩
    conv_lhs => rw [← List.take_append_drop emuPrefix.length message.topic, hprefix]
  · rintro ⟨htopic, hpos, hle, rfl⟩
    rw [if_neg (by omega), htopic, List.take_left, if_pos rfl, List.drop_left]

theorem numericOk_eq_some_iff {text : List UInt8} {value : ℚ} :
    numericOk numerals text = some value ↔ IsNumber numerals.strtod text (some value) := by
  unfold numericOk IsNumber
  rcases numerals.strtod text with ⟨_ | number, used⟩
  · exact iff_of_false nofun fun h => nomatch (Prod.mk.inj h.2).1
  · dsimp only
    constructor
    · intro h
      split_ifs at h with hused
      obtain rfl := Option.some.inj h
      refine ⟨List.ne_nil_of_length_pos ?_, by rw [hused.2]⟩
      omega
    · rintro ⟨hne, hread⟩
      obtain ⟨hnumber, rfl⟩ := Prod.mk.inj hread
      rw [if_pos ⟨(List.length_pos_of_ne_nil hne).ne', rfl⟩, hnumber]

/-- What is read of a message is what it puts in the channel. -/
theorem OwnTopic.read_iff {own : List Char} (h : OwnTopic topicPrefix channel own)
    (message : LiveMessage) (update : LiveUpdate) :
    channel.read numerals topicPrefix emuPrefix message = some update ↔
      Puts numerals own emuPrefix channel message update := by
  unfold LiveChannel.read
  rw [Option.bind_eq_some_iff]
  constructor
  · rintro ⟨⟨rest, text⟩, haccepted, hupdate⟩
    obtain ⟨htopic, hpayload⟩ := accepted_eq_some_iff.1 haccepted
    obtain ⟨topic, payload⟩ := message
    obtain rfl : topic = emuPrefix ++ rest := htopic
    dsimp only at hupdate
    split_ifs at hupdate with haddressed
    obtain rfl := (h.addressed rest).1 haddressed
    unfold emuUpdate at hupdate
    split_ifs at hupdate with hformat
    · obtain rfl := Option.some.inj hupdate
      exact .text hpayload hformat
    · obtain ⟨value, hvalue, rfl⟩ := Option.map_eq_some_iff.1 hupdate
      exact .number hpayload hformat (numericOk_eq_some_iff.1 hvalue)
  · intro hputs
    cases hputs with
    | @text payload text hpayload hformat =>
      refine ⟨(own, text), accepted_eq_some_iff.2 ⟨rfl, hpayload⟩, ?_⟩
      unfold emuUpdate
      rw [if_pos ((h.addressed own).2 rfl), if_pos hformat]
    | @number payload text value hpayload hformat hvalue =>
      refine ⟨(own, text), accepted_eq_some_iff.2 ⟨rfl, hpayload⟩, ?_⟩
      unfold emuUpdate
      rw [if_pos ((h.addressed own).2 rfl), if_neg hformat, numericOk_eq_some_iff.2 hvalue]
      rfl

theorem OwnTopic.latestPut_iff {own : List Char} (h : OwnTopic topicPrefix channel own)
    {messages : List LiveMessage} {channel' : LiveChannel} :
    LatestPut numerals own emuPrefix messages channel channel' ↔
      channel' = channel.after numerals topicPrefix emuPrefix messages := by
  have hread : ∀ message update, channel.read numerals topicPrefix emuPrefix message = some update ↔
      Puts numerals own emuPrefix channel message update := h.read_iff
  unfold LatestPut LiveChannel.after
  simp only [← Latest.latest_eq_none_iff hread, ← Latest.latest_eq_some_iff hread]
  cases Latest.latest (LiveChannel.read numerals topicPrefix emuPrefix) channel messages with
  | none => simp
  | some update => simp

theorem after_unnamed {messages : List LiveMessage} (h : channel.topic = none) :
    channel.after numerals topicPrefix emuPrefix messages = channel := by
  have hread : ∀ message, channel.read numerals topicPrefix emuPrefix message = none := by
    intro message
    unfold LiveChannel.read LiveChannel.addressed
    rw [h]
    cases message.accepted emuPrefix <;> rfl
  have hnone : messages.filterMap (channel.read numerals topicPrefix emuPrefix) = [] :=
    List.filterMap_eq_nil_iff.2 fun message _ => hread message
  unfold LiveChannel.after Latest.latest
  rw [hnone]
  rfl

/-- Whatever the broker delivers, in whatever order, every channel serves what the last message
for it that it could use has put in, or its default, and nothing else has changed. -/
theorem live_values_latest (numerals : Numerals) (emuPrefix : List Char) (config : LiveConfig)
    (messages : List LiveMessage) : ∃ after : LiveChannel → LiveChannel,
    Machine.run (emuMessageCallback numerals emuPrefix) messages config =
        config.mapChannels after ∧
      (∀ channel own, OwnTopic config.topicPrefix channel own →
        LatestPut numerals own emuPrefix messages channel (after channel)) ∧
      ∀ channel, channel.topic = none → after channel = channel :=
  ⟨LiveChannel.after numerals config.topicPrefix emuPrefix messages, by rw [emuRun_eq, run_channel],
    fun _ _ hown => hown.latestPut_iff.2 rfl, fun _ => after_unnamed⟩

/-- The channels of one slave and register type, with their scaling. -/
def liveChannels (config : LiveConfig) (slave : ℤ) (type : InputType) :
    List (LiveInput × LiveChannel) :=
  (config.inputs.filter fun input => input.slave = slave ∧ input.type = some type).flatMap
    fun input => (input.channels.filter (·.topic.isSome)).map (input, ·)

theorem usedChannels_served (config : LiveConfig) (slave : ℤ) (type : InputType) :
    usedChannels config.served slave type = (liveChannels config slave type).map fun entry =>
      (entry.1.served, entry.2.toServedChannel) := by
  unfold usedChannels liveChannels LiveConfig.served
  simp only [List.filter_map, List.flatMap_map, List.map_flatMap, List.map_map]
  refine congrArg₂ List.flatMap (funext fun input => ?_) rfl
  unfold LiveInput.served
  simp only [List.filter_map, List.map_map]
  rfl

/-- A change of values: where the channels lie and what they are called stays. -/
structure KeepsLayout (f : LiveChannel → LiveChannel) : Prop where
  channel : ∀ channel, (f channel).toChannel = channel.toChannel
  topic : ∀ channel, (f channel).topic = channel.topic

variable {f : LiveChannel → LiveChannel}

theorem liveChannels_mapChannels (h : KeepsLayout f) (slave : ℤ) (type : InputType) :
    liveChannels (config.mapChannels f) slave type = (liveChannels config slave type).map
      fun entry => (entry.1.mapChannels f, f entry.2) := by
  unfold liveChannels LiveConfig.mapChannels
  simp only [List.filter_map, List.flatMap_map, List.map_flatMap, List.map_map]
  refine congrArg₂ List.flatMap (funext fun input => ?_) rfl
  have hused : (fun channel : LiveChannel => channel.topic.isSome) ∘ f =
      fun channel => channel.topic.isSome := by
    funext channel
    rw [Function.comp_apply, h.topic]
  unfold LiveInput.mapChannels
  dsimp only
  rw [List.filter_map, hused, List.map_map]
  rfl

theorem span_mapChannels (h : KeepsLayout f) (type : InputType) (entry : LiveInput × LiveChannel) :
    span (config.mapChannels f).served type ((entry.1.mapChannels f).served, (f entry.2).toServedChannel) =
      span config.served type (entry.1.served, entry.2.toServedChannel) := by
  have hoffset := congrArg Channel.offset (h.channel entry.2)
  have hlength := congrArg Channel.length (h.channel entry.2)
  unfold span
  dsimp only
  rw [hoffset, hlength]
  rfl

theorem LaidOut.mapChannels {input : LiveInput} {type : InputType} (h : KeepsLayout f)
    (hlaid : LaidOut config.served input.served type) (hmem : input ∈ config.inputs) :
    LaidOut (config.mapChannels f).served (input.mapChannels f).served type := by
  have hused : usedChannels (config.mapChannels f).served (input.mapChannels f).served.slave type =
      (liveChannels config input.slave type).map fun entry =>
        ((entry.1.mapChannels f).served, (f entry.2).toServedChannel) := by
    rw [usedChannels_served, liveChannels_mapChannels h, List.map_map]
    rfl
  have hbefore : ∀ entry ∈ liveChannels config input.slave type,
      (entry.1.served, entry.2.toServedChannel) ∈
        usedChannels config.served input.served.slave type := by
    intro entry hentry
    rw [usedChannels_served]
    exact List.mem_map_of_mem hentry
  refine ⟨?_, hlaid.typed, hlaid.address, hlaid.count, ?_, ?_, ?_⟩
  · exact List.mem_map_of_mem (List.mem_map_of_mem hmem)
  · have hapart := hlaid.apart
    rw [usedChannels_served, List.pairwise_map] at hapart
    rw [hused, List.pairwise_map]
    refine hapart.imp fun {a b} hab => ?_
    unfold Apart at hab ⊢
    rwa [span_mapChannels h, span_mapChannels h]
  · intro hbit entry hentry
    rw [hused] at hentry
    obtain ⟨live, hlive, rfl⟩ := List.mem_map.1 hentry
    have hsized := hlaid.sized hbit _ (hbefore live hlive)
    dsimp only at hsized ⊢
    rwa [h.channel]
  · intro entry hentry
    rw [hused] at hentry
    obtain ⟨live, hlive, rfl⟩ := List.mem_map.1 hentry
    rw [span_mapChannels h]
    exact hlaid.int _ (hbefore live hlive)

theorem keepsLayout_after (messages : List LiveMessage) :
    KeepsLayout (LiveChannel.after numerals topicPrefix emuPrefix messages) := by
  constructor
  all_goals
    intro channel
    unfold LiveChannel.after
    cases Latest.latest (LiveChannel.read numerals topicPrefix emuPrefix) channel messages with
    | none => rfl
    | some update => cases update <;> rfl

def LiveChannel.number (numerals : Numerals) (topicPrefix : Option (List Char))
    (emuPrefix : List Char) (channel : LiveChannel) (message : LiveMessage) : Option ℚ :=
  (message.accepted emuPrefix).bind fun accepted =>
    if channel.addressed topicPrefix accepted.1 then numericOk numerals accepted.2 else none

def LiveChannel.published (numerals : Numerals) (topicPrefix : Option (List Char))
    (emuPrefix : List Char) (messages : List LiveMessage) (channel : LiveChannel) : Option ℚ :=
  (messages.filterMap (channel.number numerals topicPrefix emuPrefix)).getLast?

/-- A channel lies inside the reply to the poll of its input. -/
def Inside (config : LiveConfig) (input : LiveInput) (type : InputType) (channel : LiveChannel) :
    Prop :=
  replyStart input.served type ≤
      (span config.served type (input.served, channel.toServedChannel)).1 ∧
    (span config.served type (input.served, channel.toServedChannel)).2 ≤
      replyStart input.served type + input.naddress * 2

/-- The bridge's poll of an input after a run of messages, with the answer read back. -/
def readAfter (numerals : Numerals) (emuPrefix : List Char) (messages : List LiveMessage)
    (config : LiveConfig) (bridge : Config) (naValue : Option ℕ) (tid : ℕ) (tier : Tier)
    (input : LiveInput) (type : InputType) (channel : LiveChannel) : ChannelValue :=
  let config' := Machine.run (emuMessageCallback numerals emuPrefix) messages config
  let input' := input.mapChannels
    (LiveChannel.after numerals config.topicPrefix emuPrefix messages)
  readChannel .tcp (some bridge) naValue (servedReply config'.served tid input'.served)
    (input'.served.polled type tier) channel.toChannel

theorem read_number (htext : formatIsText channel.format = false) (message : LiveMessage) :
    channel.read numerals topicPrefix emuPrefix message =
      (channel.number numerals topicPrefix emuPrefix message).map fun value =>
        .number (numerals.single (emuRawValue numerals channel value)) := by
  have hupdate : ∀ text, emuUpdate numerals channel text = (numericOk numerals text).map
      fun value => .number (numerals.single (emuRawValue numerals channel value)) := by
    intro text
    unfold emuUpdate
    rw [htext, if_neg Bool.false_ne_true]
  unfold LiveChannel.read LiveChannel.number
  cases message.accepted emuPrefix with
  | none => rfl
  | some accepted =>
    dsimp only [Option.bind_some]
    rw [hupdate]
    split_ifs <;> rfl

theorem after_published {messages : List LiveMessage} (htext : formatIsText channel.format = false)
    {value : ℚ} (h : channel.published numerals topicPrefix emuPrefix messages = some value) :
    channel.after numerals topicPrefix emuPrefix messages =
      channel.put (.number (numerals.single (emuRawValue numerals channel value))) := by
  unfold LiveChannel.after Latest.latest
  rw [funext (read_number htext), ← List.map_filterMap, List.getLast?_map]
  exact congrArg (fun last : Option ℚ => (last.map fun value =>
    LiveUpdate.number (numerals.single (emuRawValue numerals channel value))).elim channel
      channel.put) h

theorem LaidOut.inRange {config : ServedConfig} {input : ServedInput} {type : InputType}
    (h : LaidOut config input type) (hbit : ¬ type.IsBit) {channel : ServedChannel}
    (hused : (input, channel) ∈ usedChannels config input.slave type)
    (hformat : formatSize channel.format ≠ 0) {bridge : Config}
    (hsame : bridge.offsetSize = config.offsetSize) (tid : ℕ) (tier : Tier)
    (hlo : replyStart input type ≤ (span config type (input, channel)).1)
    (hhi : (span config type (input, channel)).2 ≤ replyStart input type + input.naddress * 2) :
    channelInRange .tcp (some bridge) (servedReply config tid input) (input.polled type tier)
      channel.toChannel := by
  have hint := h.int _ hused
  have hend : (span config type (input, channel)).2 =
      (span config type (input, channel)).1 + channel.length := by rw [span_register hbit]
  have hlength := (h.sized hbit _ hused).resolve_left hformat
  have hsize : channelSize channel.toChannel = channel.length := by
    unfold channelSize
    split_ifs
    · rfl
    · exact hlength.symm
  have hnbytes := (h.register_reply tid hbit).1
  have htyped : ¬ (input.polled type tier).type.IsBit := hbit
  unfold channelInRange
  dsimp only
  rw [if_neg htyped, h.byteOffset_eq hbit tier hsame hused, hnbytes, hsize,
    cInt_eq (by omega) (by omega), if_neg (by omega)]

/-- The raw value of the last number published for a channel is what a poll reads. -/
theorem published_raw {messages : List LiveMessage} {input : LiveInput} {type : InputType}
    (hlaid : LaidOut config.served input.served type) (hbit : ¬ type.IsBit)
    (hinput : input ∈ config.inputs) (hslave : 0 ≤ input.slave ∧ input.slave ≤ 255)
    (hchannel : channel ∈ input.channels) (htopic : channel.topic.isSome)
    (hinside : Inside config input type channel) (hformat : channel.format.IsRegisterInteger)
    {value : ℚ} {raw : ℤ}
    (hlast : channel.published numerals config.topicPrefix emuPrefix messages = some value)
    (hraw : floatValue (numerals.single (emuRawValue numerals channel value)) = raw)
    (hlo : (formatRange channel.format).1 ≤ raw) (hhi : raw ≤ (formatRange channel.format).2)
    {naValue : Option ℕ} (hshown : ¬ IsMarker naValue channel.format raw) {bridge : Config}
    (hsame : bridge.offsetSize = config.offsetSize) (tid : ℕ) (tier : Tier) :
    readAfter numerals emuPrefix messages config bridge naValue tid tier input type channel =
      .raw (.int raw) := by
  have hencodable : channel.format.Encodable ∧ formatSize channel.format ≠ 0 := by
    unfold DataFormat.IsRegisterInteger at hformat
    cases hcase : channel.format <;> rw [hcase] at hformat <;> first
      | decide
      | exact absurd hformat (by decide)
  have htext : formatIsText channel.format = false := by simpa using hencodable.1.1
  set f := LiveChannel.after numerals config.topicPrefix emuPrefix messages with hf
  have hkeeps : KeepsLayout f := keepsLayout_after messages
  have hlaid' := hlaid.mapChannels hkeeps hinput
  have hafter : f channel =
      channel.put (.number (numerals.single (emuRawValue numerals channel value))) :=
    after_published htext hlast
  have hfchannel : (f channel).toChannel = channel.toChannel := hkeeps.channel channel
  have hused : ((input.mapChannels f).served, (f channel).toServedChannel) ∈
      usedChannels (config.mapChannels f).served (input.mapChannels f).served.slave type :=
    hlaid'.used (List.mem_map_of_mem (List.mem_map_of_mem hchannel))
      (by rw [hkeeps.topic]; exact htopic)
  have hspan : span (config.mapChannels f).served type
      ((input.mapChannels f).served, (f channel).toServedChannel) =
        span config.served type (input.served, channel.toServedChannel) :=
    span_mapChannels hkeeps type (input, channel)
  have hvalue : floatValue (f channel).value = raw := by
    rw [hafter]
    exact hraw
  have hfformat : (f channel).format = channel.format := congrArg Channel.format hfchannel
  obtain ⟨bytes, hbytes⟩ := Option.isSome_iff_exists.1
    ((encodeValue_isSome_iff channel.format raw (f channel).value).2 hencodable.1)
  have hrange : channelInRange .tcp (some bridge) (servedReply (config.mapChannels f).served tid
      (input.mapChannels f).served) ((input.mapChannels f).served.polled type tier)
        (f channel).toChannel := by
    refine hlaid'.inRange hbit hused (by rw [hfformat]; exact hencodable.2) hsame tid tier ?_ ?_
    · rw [hspan]
      exact hinside.1
    · rw [hspan]
      exact hinside.2
  have hencoded : encodeValue (f channel).format (floatValue (f channel).value) (f channel).value =
      some bytes := by rw [hfformat, hvalue, hbytes]
  have hcarried : Representable (f channel).format (floatValue (f channel).value) := by
    rw [hfformat, hvalue]
    exact .inr (by rw [truncate_intCast]; exact ⟨rfl, hlo, hhi⟩)
  have hread := hlaid'.read_register hbit hslave hused tier hsame naValue hrange hencoded hcarried
    (by rw [hfformat, hvalue]; exact hshown)
  rw [hfchannel, hvalue, rawValue, if_neg hformat.not_float, truncate_intCast] at hread
  unfold readAfter
  rw [emuRun_eq, run_channel]
  exact hread

theorem emuRounded_exact (h : numerals.rounded = id) (raw : ℚ) :
    emuRounded numerals raw = roundAway raw := by
  unfold emuRounded roundAway
  rw [h]
  rfl

/-- What is published for a channel comes out of the bridge again: the poll reads the raw value
the server has computed, if a `float` can hold it, and in exact arithmetic a value that a channel
can show is shown as it was published. -/
theorem published_value_returns {messages : List LiveMessage} {input : LiveInput}
    {type : InputType} (hlaid : LaidOut config.served input.served type) (hbit : ¬ type.IsBit)
    (hinput : input ∈ config.inputs) (hslave : 0 ≤ input.slave ∧ input.slave ≤ 255)
    (hchannel : channel ∈ input.channels) (htopic : channel.topic.isSome)
    (hinside : Inside config input type channel) (hformat : channel.format.IsRegisterInteger)
    {value : ℚ} {raw : ℤ}
    (hlast : channel.published numerals config.topicPrefix emuPrefix messages = some value)
    (hraw : emuRawValue numerals channel value = raw)
    (hkept : floatValue (numerals.single raw) = raw)
    (hlo : (formatRange channel.format).1 ≤ raw) (hhi : raw ≤ (formatRange channel.format).2)
    {naValue : Option ℕ} (hshown : ¬ IsMarker naValue channel.format raw) {bridge : Config}
    (hsame : bridge.offsetSize = config.offsetSize) (tid : ℕ) (tier : Tier) :
    readAfter numerals emuPrefix messages config bridge naValue tid tier input type channel =
        .raw (.int raw) ∧
      (numerals.rounded = id → ∀ shown : ℤ,
        value = scaleRead id channel.add channel.mod channel.mul shown →
          ∀ number, readScaled id number channel.add channel.mod channel.mul (readAfter numerals
            emuPrefix messages config bridge naValue tid tier input type channel) = some value) := by
  have hread : readAfter numerals emuPrefix messages config bridge naValue tid tier input type
      channel = .raw (.int raw) :=
    published_raw hlaid hbit hinput hslave hchannel htopic hinside hformat hlast
      (by rw [hraw, hkept]) hlo hhi hshown hsame tid tier
  refine ⟨hread, fun hexact shown hshows number => ?_⟩
  have hsame : raw = shown := by
    have hrounded : (roundAway (shown : ℚ) : ℚ) = raw := by
      rw [← hraw, emuRawValue, if_neg hformat.not_float, emuRounded_exact hexact, hexact, hshows,
        unscale_scaleRead]
    rw [roundAway_intCast] at hrounded
    exact_mod_cast hrounded.symm
  rw [hread, hshows, hsame]
  rfl

/-- Plain decimal numbers, exact arithmetic, and the `float` that is 255. -/
def exampleNumerals : Numerals where
  rounded := id
  single := fun value => if value = 255 then 0x437F0000 else 0
  cast := fun _ => -2 ^ 31
  strtod := plainStrtod
  general := fun _ => []

/-- Tenths of a degree in the register 0, on module 3. -/
def boilerChannel : LiveChannel where
  offset := 0
  length := 2
  format := .int16_ab
  topic := some "dev3/temperature"
  value := 0
  valueText := none
  add := 0
  mod := -10
  mul := 0

def temperatureInput : LiveInput := ⟨7, some .inputRegister, 0, 0, 2, [boilerChannel]⟩

def temperatureConfig : LiveConfig := ⟨[temperatureInput], 1, some "dev%i/".toList⟩

def temperatures : List LiveMessage :=
  ["20.0", "25.5", "25.5x"].map fun text => ⟨"emu/temperature".toList, Json.ascii text.toList⟩

theorem boilerChannel_ownTopic :
    OwnTopic temperatureConfig.topicPrefix boilerChannel "temperature".toList :=
  ⟨⟨3, "temperature".toList, "dev3/temperature".toList, by decide, by decide +kernel,
    by decide +kernel, by decide +kernel, by decide +kernel⟩, by decide +kernel⟩

/-- The last text is no number, so the one before it counts. -/
theorem live_values_latest_example :
    Machine.run (emuMessageCallback exampleNumerals "emu/".toList) temperatures temperatureConfig =
      { temperatureConfig with
        inputs := [{ temperatureInput with
          channels := [boilerChannel.put (.number 0x437F0000)] }] } := by
  obtain ⟨after, hrun, hlatest, -⟩ :=
    live_values_latest exampleNumerals "emu/".toList temperatureConfig temperatures
  have hafter := boilerChannel_ownTopic.latestPut_iff.1
    (hlatest boilerChannel "temperature".toList boilerChannel_ownTopic)
  have hlast : Latest.latest (LiveChannel.read exampleNumerals temperatureConfig.topicPrefix
      "emu/".toList) boilerChannel temperatures = some (.number 0x437F0000) := by
    decide +kernel
  unfold LiveChannel.after at hafter
  rw [hlast, Option.elim_some] at hafter
  rw [hrun, ← hafter]
  rfl

/-- The poll of the channel after these messages. -/
def temperatureRead : ChannelValue :=
  readAfter exampleNumerals "emu/".toList temperatures temperatureConfig oneBridge none 1 .fast
    temperatureInput .inputRegister boilerChannel

theorem published_value_returns_example : temperatureRead = .raw (.int 255) ∧
    readScaled id (fun _ => none) 0 (-10) 0 temperatureRead = some (51 / 2) := by
  have hlaid : LaidOut temperatureConfig.served temperatureInput.served .inputRegister :=
    oneConfig_laidOut 7 .inputRegister rfl (fun _ => .inr rfl) (by decide) (by decide)
  have hinside : Inside temperatureConfig temperatureInput .inputRegister boilerChannel :=
    ⟨by decide +kernel, by decide +kernel⟩
  have hlast : boilerChannel.published exampleNumerals temperatureConfig.topicPrefix
      "emu/".toList temperatures = some (51 / 2) := by decide +kernel
  have hraw : emuRawValue exampleNumerals boilerChannel (51 / 2) = (255 : ℤ) := by
    decide +kernel
  have hkept : floatValue (exampleNumerals.single (255 : ℤ)) = (255 : ℤ) := by decide +kernel
  have hshown : ¬ IsMarker none boilerChannel.format (255 : ℤ) := by decide
  have hsame : oneBridge.offsetSize = temperatureConfig.offsetSize := rfl
  have hreturns := published_value_returns hlaid (by decide) List.mem_cons_self (by decide)
    List.mem_cons_self rfl hinside (by decide) hlast hraw hkept (by decide) (by decide) hshown
    hsame 1 .fast
  exact ⟨hreturns.1, hreturns.2 rfl 255 (by decide +kernel) _⟩

end

end Modbusmq
