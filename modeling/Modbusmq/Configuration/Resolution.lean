import Modbusmq.Configuration.Parser

/-!
# Resolving a configuration

The end of `config_parse_stream`: with the file read, the templates are
expanded, formats and defaults settled, the entries validated, the topics put
together and the acknowledgements decided.
-/

namespace Modbusmq

open Json Settings

def ConfigChannel.input (channel : ConfigChannel) : InputChannel where
  topic := channel.topic.map String.ofList
  length := channel.length
  hasLength := channel.hasLength
  format := channel.format
  add := channel.add
  mod := channel.mod
  mul := channel.mul
  timefmt := channel.timefmt.map String.ofList
  localtime := channel.localtime
  hasDecimals := channel.hasDecimals
  hasMinChange := channel.hasMinChange
  hasMinChangeRel := channel.hasMinChangeRel

def InputSettings.template (settings : InputSettings) : Bool :=
  settings.module = configModuleTemplate

def WriteSettings.template (settings : WriteSettings) : Bool :=
  settings.module = configModuleTemplate

def ConfigEntry.input (input : ConfigInput) : InputEntry where
  slave := input.settings.slave
  template := input.settings.template
  type := input.settings.type
  address := input.settings.address
  addressOffset := input.settings.addressOffset
  naddress := input.settings.naddress
  interval := input.settings.interval
  channels := input.channels.map ConfigChannel.input

def ConfigWriteChannel.write (channel : ConfigWriteChannel) : WriteChannel where
  offset := channel.offset
  format := channel.format
  add := channel.add
  mod := channel.mod
  mul := channel.mul
  value := channel.value
  hasValue := channel.hasValue

def ConfigEntry.write (write : ConfigWrite) : WriteEntry where
  slave := write.settings.slave
  hasSlave := write.settings.hasSlave
  template := write.settings.template
  type := write.settings.type
  function := write.settings.function
  address := write.settings.address
  hasAddress := write.settings.hasAddress
  format := write.settings.format
  add := write.settings.add
  mod := write.settings.mod
  mul := write.settings.mul
  onValue := write.settings.onValue
  offValue := write.settings.offValue
  hasOnValue := write.settings.hasOnValue
  hasOffValue := write.settings.hasOffValue
  topic := (write.settings.topic.map String.ofList).getD ""
  naddress := write.settings.naddress
  hasNaddress := write.settings.hasNaddress
  channels := write.channels.map ConfigWriteChannel.write
  hasDefaults := write.settings.hasDefaults

def ConfigEntry.settle (write : ConfigWrite) (settled : WriteEntry) : ConfigWrite :=
  { write with settings := { write.settings with
      type := settled.type
      function := settled.function
      naddress := settled.naddress
      hasNaddress := settled.hasNaddress
      hasDefaults := settled.hasDefaults } }

def ConfigSettings.signedInts (numerals : ConfigNumerals) (settings : ConfigSettings) : Bool :=
  match settings.configVersion with
  | some version => (numerals.strtod version).1.atLeast 2
  | none => false

def ConfigFile.bridge (numerals : ConfigNumerals) (config : ConfigFile) : BridgeConfig where
  signedInts := config.settings.signedInts numerals
  queryMode := config.settings.queryMode
  moduleCount := config.settings.moduleCount
  moduleSlaveFirst := config.settings.moduleSlaveFirst
  inputs := config.inputs.map ConfigEntry.input
  writes := config.writes.map ConfigEntry.write

def ConfigFile.expand (config : ConfigFile) : Option ConfigFile := do
  let first := config.settings.moduleSlaveFirst
  let inputs ← (expandTemplates (fun input : ConfigInput => input.settings.template)
    (fun input slave => { input with settings :=
      { input.settings with module := slave - first, slave := slave } })
    config.settings.moduleCount first config.inputs).toOption
  let writes ← (expandTemplates (fun write : ConfigWrite => write.settings.template)
    (fun write slave => { write with settings :=
      { write.settings with module := slave - first, slave := slave, hasSlave := true } })
    config.settings.moduleCount first config.writes).toOption
  return { config with inputs := inputs, writes := writes }

theorem toOption_eq_some {ε α : Type} {x : Except ε α} {a : α} (h : x.toOption = some a) :
    x = .ok a := by
  cases x with
  | error e => contradiction
  | ok b => exact congrArg Except.ok (Option.some.inj h)

theorem expandTemplates_map {Entry Plain : Type} {view : Entry → Plain} {template : Entry → Bool}
    {template' : Plain → Bool} {copy : Entry → ℤ → Entry} {copy' : Plain → ℤ → Plain}
    {count first : ℤ} (htemplate : ∀ e, template' (view e) = template e)
    (hcopy : ∀ e (m : ℕ), view (copy e (first + m)) = copy' (view e) (first + m))
    {entries expanded : List Entry}
    (h : expandTemplates template copy count first entries = .ok expanded) :
    expandTemplates template' copy' count first (entries.map view) = .ok (expanded.map view) := by
  have hfiltered : ((entries.map view).filter template').length =
      (entries.filter template).length := by
    rw [List.filter_map, List.length_map]
    exact congrArg List.length (List.filter_congr fun e _ => htemplate e)
  unfold expandTemplates at h ⊢
  dsimp only at h ⊢
  rw [hfiltered, List.length_map]
  split_ifs at h with hnone hempty hmany
  · rw [if_pos hnone, Except.ok.inj h]
  · rw [if_neg hnone, if_neg hempty, if_neg hmany, ← Except.ok.inj h, List.map_flatMap]
    refine congrArg Except.ok (congrArg (List.flatMap · _) (funext fun m => ?_))
    rw [List.filterMap_map, List.map_filterMap]
    refine List.filterMap_congr fun e _ => ?_
    simp only [Function.comp, htemplate]
    split_ifs
    · rw [Option.map_some, hcopy]
    · rfl
    · rfl

theorem ConfigFile.expand_bridge {config config' : ConfigFile} (numerals : ConfigNumerals)
    (h : config.expand = some config') :
    expandTemplates InputEntry.template copyInput config.settings.moduleCount
        config.settings.moduleSlaveFirst (config.bridge numerals).inputs =
          .ok (config'.bridge numerals).inputs ∧
      expandTemplates WriteEntry.template copyWrite config.settings.moduleCount
        config.settings.moduleSlaveFirst (config.bridge numerals).writes =
          .ok (config'.bridge numerals).writes := by
  unfold ConfigFile.expand at h
  obtain ⟨inputs, hinputs, h⟩ := Option.bind_eq_some_iff.1 h
  obtain ⟨writes, hwrites, h⟩ := Option.bind_eq_some_iff.1 h
  obtain rfl := Option.some.inj h
  have hmodule (m : ℕ) : config.settings.moduleSlaveFirst + m - config.settings.moduleSlaveFirst ≠
      configModuleTemplate := by
    unfold configModuleTemplate
    omega
  refine ⟨expandTemplates_map (fun _ => rfl) (fun input m => ?_) (toOption_eq_some hinputs),
    expandTemplates_map (fun _ => rfl) (fun write m => ?_) (toOption_eq_some hwrites)⟩
  · unfold ConfigEntry.input copyInput InputSettings.template
    simp only [hmodule, decide_false]
  · unfold ConfigEntry.write copyWrite WriteSettings.template
    simp only [hmodule, decide_false]

/-- And the entries in memory, as `config_expand_inputs` and `config_expand_writes` leave them. -/
theorem ConfigFile.expand_refined {numerals : ConfigNumerals} {config config' : ConfigFile}
    (h : ModulesConfigured (config.bridge numerals)) (hexpand : config.expand = some config')
    {inputs inputs' : List (InputRecord InputEntry InputChannel)}
    {writes writes' : List (WriteRecord WriteEntry WriteChannel)}
    {mem mem' mem₁ mem₁' : Ownership.Memory}
    (hinputs : (inputKind InputEntry InputChannel).Read inputs mem)
    (hsame : inputs.map InputRecord.entry = (config.bridge numerals).inputs)
    (hmade : configExpandInputs config.settings.moduleCount config.settings.moduleSlaveFirst inputs
      mem = .ok (inputs', mem'))
    (hwrites : (writeKind WriteEntry WriteChannel).Read writes mem₁) (hset : TemplatesSet writes)
    (hsame₁ : writes.map WriteRecord.entry = (config.bridge numerals).writes)
    (hmade₁ : configExpandWrites config.settings.moduleCount config.settings.moduleSlaveFirst writes
      mem₁ = .ok (writes', mem₁')) :
    inputs'.map InputRecord.entry = (config'.bridge numerals).inputs ∧
      writes'.map WriteRecord.entry = (config'.bridge numerals).writes := by
  obtain ⟨hinputs', hwrites'⟩ := ConfigFile.expand_bridge numerals hexpand
  rw [← hsame] at hinputs'
  rw [← hsame₁] at hwrites'
  exact ⟨Except.ok.inj ((configExpandInputs_refines h hinputs hmade).symm.trans hinputs'),
    Except.ok.inj ((configExpandWrites_refines h hwrites hset hmade₁).symm.trans hwrites')⟩

def ConfigFile.applyFormatVersion (numerals : ConfigNumerals) (config : ConfigFile) : ConfigFile :=
  if config.settings.signedInts numerals then config
  else
    { config with
      inputs := config.inputs.map fun input => { input with
        channels := input.channels.map fun channel =>
          { channel with format := unsignedFormat channel.format } }
      writes := config.writes.map fun write => { write with
        settings := { write.settings with format := unsignedFormat write.settings.format }
        channels := write.channels.map fun channel =>
          { channel with format := unsignedFormat channel.format } } }

/-- A default on three levels: of the channel, of its input, of the configuration. -/
def publishDefault {α : Type} (has inputHas configHas : Bool) (own input config : α) : α :=
  if has then own else if inputHas then input else if configHas then config else own

def ConfigChannel.applyPublishDefaults (config : ConfigSettings) (input : InputSettings)
    (channel : ConfigChannel) : ConfigChannel :=
  { channel with
    onChange := publishDefault channel.hasOnChange input.hasOnChange config.hasPublishOnChange
      channel.onChange input.onChange config.publishOnChange
    minChange := publishDefault channel.hasMinChange input.hasMinChange config.hasPublishMinChange
      channel.minChange input.minChange config.publishMinChange
    minChangeRel := publishDefault channel.hasMinChangeRel input.hasMinChangeRel
      config.hasPublishMinChangeRel channel.minChangeRel input.minChangeRel
      config.publishMinChangeRel
    minInterval := publishDefault channel.hasMinInterval input.hasMinInterval
      config.hasPublishMinInterval channel.minInterval input.minInterval config.publishMinInterval
    maxInterval := publishDefault channel.hasMaxInterval input.hasMaxInterval
      config.hasPublishMaxInterval channel.maxInterval input.maxInterval
      config.publishMaxInterval }

def ConfigFile.applyPublishDefaults (config : ConfigFile) : ConfigFile :=
  { config with inputs := config.inputs.map fun input => { input with
      channels := input.channels.map
        (ConfigChannel.applyPublishDefaults config.settings input.settings) } }

def ConfigFile.settleFrameDelay (config : ConfigFile) : ConfigFile :=
  if config.settings.frameDelayMs < 0 then
    { config with settings := { config.settings with
        frameDelayMs := if ∃ connect ∈ config.settings.connect,
          "rtu://".toList.isPrefixOf connect then 50 else 0 } }
  else config

/-- The prefix and the module index of one topic, see `config_topic_module`. -/
def settleTopic (topicPrefix : List Char) (module : ℤ) :
    Option (List Char) → Option (Option (List Char))
  | none => some none
  | some topic =>
    match applyModuleTopic module (topicPrefix ++ topic) with
    | some (.ok topic) => some (some topic)
    | _ => none

def ConfigEntry.settleTopics (topicPrefix : List Char) (input : ConfigInput) :
    Option ConfigInput := do
  let channels ← input.channels.mapM fun channel => do
    let topic ← settleTopic topicPrefix input.settings.module channel.topic
    return { channel with topic := topic }
  return { input with channels := channels }

def ConfigEntry.settleWriteTopics (topicPrefix : List Char) (write : ConfigWrite) :
    Option ConfigWrite := do
  let topic ← settleTopic topicPrefix write.settings.module write.settings.topic
  let ackTopic ← settleTopic topicPrefix write.settings.module write.settings.ackTopic
  return { write with settings := { write.settings with topic := topic, ackTopic := ackTopic } }

def ConfigFile.settleTopics (config : ConfigFile) : Option ConfigFile := do
  let topicPrefix := config.settings.topicPrefix.getD []
  let inputs ← config.inputs.mapM (ConfigEntry.settleTopics topicPrefix)
  let writes ← config.writes.mapM (ConfigEntry.settleWriteTopics topicPrefix)
  return { config with inputs := inputs, writes := writes }

def ConfigEntry.settleAck (mqttAck : Bool) (write : ConfigWrite) : ConfigWrite :=
  let ack := if write.settings.hasAck then write.settings.ack else mqttAck
  { write with settings := { write.settings with
      ack := ack
      hasAck := true
      ackTopic :=
        if ack ∧ write.settings.ackTopic.isNone then
          write.settings.topic.map (· ++ "/ack".toList)
        else write.settings.ackTopic } }

section

variable (numerals : ConfigNumerals)

def ConfigFile.resolve (config : ConfigFile) : Option ConfigFile := do
  (checkModules (config.bridge numerals)).toOption
  let config ← config.expand
  let config := ((config.applyFormatVersion numerals).applyPublishDefaults).settleFrameDelay
  (checkIntervals (config.bridge numerals)).toOption
  (validateInputs 0 (config.bridge numerals).inputs).toOption
  let settled ← (validateWrites 0 (config.bridge numerals).writes).toOption
  let config := { config with writes := List.zipWith ConfigEntry.settle config.writes settled }
  let config ← config.settleTopics
  return { config with
    writes := config.writes.map (ConfigEntry.settleAck config.settings.mqttAck) }

/-- `config_parse_stream` of a text, with the overrides of the command line. -/
def configParse (overrides : List (List Char)) (text : List Char) : Option ConfigFile := do
  let config ← Reordering.run (applyLine numerals overrides) (configLines text)
    ⟨defaultSettings, [], []⟩
  let config ← overrideModuleKey numerals overrides ConfigSettings.seenModuleCount "module.count"
    config
  let config ← overrideModuleKey numerals overrides ConfigSettings.seenModuleSlaveFirst
    "module.slave_first" config
  config.resolve numerals

end

end Modbusmq
