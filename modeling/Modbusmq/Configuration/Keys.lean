import Modbusmq.Configuration.Formats
import Modbusmq.Configuration.Topics
import Modbusmq.Decoding.Text
import Modbusmq.Library.Json
import Modbusmq.Library.Settings

/-!
# The keys of a configuration file

The fields that `config_parse_stream` sets, key by key, with what it reads a
value as and which values it refuses. A text is the list of the characters of a
C string. What is read at run time only is left out of the records.
-/

namespace Modbusmq

open Json Settings

inductive ReadDouble
  | number (value : ℚ)
  | infinity (negative : Bool)
  | nan

def ReadDouble.double : ReadDouble → Double
  | number value => some value
  | infinity _ | nan => none

/-- Stored in an `int`; 0 where C leaves it open. -/
def ReadDouble.toInt : ReadDouble → ℤ
  | number value => cInt (truncate value)
  | infinity _ | nan => 0

def ReadDouble.atLeast (bound : ℚ) : ReadDouble → Bool
  | number value => bound ≤ value
  | infinity negative => ¬ negative
  | nan => false

/-- What is left open: `strtod`, with the number of characters it takes, and the `float` a `double`
is stored as, by its bits. -/
structure ConfigNumerals where
  strtod : List Char → ReadDouble × ℕ
  float : ReadDouble → UInt32

/-- `strtod` of one digit or none, and a `float` that is always zero. -/
def digitNumerals : ConfigNumerals where
  strtod := fun text =>
    match text with
    | ch :: _ => if digitValue ch < 10 then (.number (digitValue ch), 1) else (.number 0, 0)
    | [] => (.number 0, 0)
  float := fun _ => 0

def floatNegative (bits : UInt32) : Bool := 0x80000000 < bits ∧ bits ≤ 0xff800000

def sameLetters (text : List Char) (word : String) : Bool := text.map Char.toLower = word.toList

def configBoolean (text : List Char) : Option Bool :=
  if text = ['1'] ∨ sameLetters text "true" ∨ sameLetters text "yes" then some true
  else if text = ['0'] ∨ sameLetters text "false" ∨ sameLetters text "no" then some false
  else none

def configInt (text : List Char) : ℤ := cInt (strtol text).1

def configUnsigned (text : List Char) : ℤ := cInt (strtoul text)

/-- `modbusmq_config_query_mode`, and what the parser makes of an invalid one. -/
def configQueryMode (text : List Char) : QueryMode :=
  if text = "parallell".toList then .parallell
  else if text = "series".toList then .series
  else if text = "rounds".toList then .rounds
  else if configInt text = 1 then .series
  else if configInt text = 2 then .rounds
  else .parallell

def configTier (text : List Char) : Option Tier :=
  if text = "fast".toList ∨ text = ['0'] then some .fast
  else if text = "deep".toList ∨ text = ['1'] then some .deep
  else none

def configNaValue (text : List Char) : Option ℤ :=
  let (raw, rest) := strtol text
  if rest = text ∨ rest ≠ [] ∨ raw < 0 ∨ 0xffff < raw then none else some raw

def configLength (bytes : ℤ) (text : List Char) : Option ℤ :=
  let n := configInt text
  if n ≤ 0 ∨ 64 < cInt (n * bytes) then none else some (cInt (n * bytes))

def configTimezone (text : List Char) : Option Bool :=
  if text = "utc".toList then some false
  else if text = "local".toList then some true
  else none

/-- `input.N.slave` and `write.N.slave`: without a number it is a template. -/
def configSlave (text : List Char) : Option ℤ :=
  if text = "module".toList then none else some (configUnsigned text)

def configWriteType (text : List Char) : Option InputType :=
  match configInputType (String.ofList text) with
  | some .coil => some .coil
  | some .holdingRegister => some .holdingRegister
  | _ => none

section

variable (numerals : ConfigNumerals)

def configScale (text : List Char) : ℤ := (numerals.strtod text).1.toInt

def configFloat (text : List Char) : UInt32 := numerals.float (numerals.strtod text).1

def configReadInterval (text : List Char) : Option ℤ :=
  if sameLetters text "once" then some intervalOnce
  else
    match numerals.strtod text with
    | (.number value, used) =>
      if used = 0 ∨ text.drop used ≠ [] ∨ ¬ (0 ≤ value ∧ value ≤ 2 ^ 31 - 1) then none
      else some (truncate value)
    | _ => none

end

/-- The members of `modbusmq_config_t` beside the arrays, and the two `seen_module` flags. -/
structure ConfigSettings where
  configName : Option (List Char)
  configVersion : Option (List Char)
  connect : Option (List Char)
  baudrate : ℤ
  parity : Char
  stopbit : ℤ
  databit : ℤ
  rtsDelayUs : ℤ
  frameTimeoutMs : ℤ
  slaveRetryMaxMs : ℤ
  naValue : ℤ
  hasNaValue : Bool
  rawWrite : Bool
  frameDelayMs : ℤ
  offsetSize : ℤ
  queryMode : QueryMode
  roundIntervalMs : ℤ
  moduleCount : ℤ
  moduleSlaveFirst : ℤ
  mqttName : Option (List Char)
  mqttConnect : Option (List Char)
  topicPrefix : Option (List Char)
  mqttRetain : Bool
  mqttQos : ℤ
  mqttAck : Bool
  publishOnChange : Bool
  publishMinChange : UInt32
  publishMinChangeRel : UInt32
  publishMinInterval : ℤ
  publishMaxInterval : ℤ
  hasPublishOnChange : Bool
  hasPublishMinChange : Bool
  hasPublishMinChangeRel : Bool
  hasPublishMinInterval : Bool
  hasPublishMaxInterval : Bool
  seenModuleCount : Bool
  seenModuleSlaveFirst : Bool

structure ConfigChannel where
  offset : ℤ
  length : ℤ
  format : DataFormat
  add : ℤ
  mod : ℤ
  mul : ℤ
  topic : Option (List Char)
  value : UInt32
  valueText : Option (List Char)
  timefmt : Option (List Char)
  minChange : UInt32
  minChangeRel : UInt32
  minInterval : ℤ
  maxInterval : ℤ
  decimals : ℤ
  hasDecimals : Bool
  hasLength : Bool
  localtime : Bool
  retain : Bool
  hasRetain : Bool
  qos : ℤ
  hasQos : Bool
  onChange : Bool
  hasOnChange : Bool
  hasMinChange : Bool
  hasMinChangeRel : Bool
  hasMinInterval : Bool
  hasMaxInterval : Bool

/-- The members of `modbusmq_input_t` beside the channels. -/
structure InputSettings where
  slave : ℤ
  type : Option InputType
  address : ℤ
  addressOffset : ℤ
  naddress : ℤ
  interval : ℤ
  tier : Tier
  module : ℤ
  onChange : Bool
  minChange : UInt32
  minChangeRel : UInt32
  minInterval : ℤ
  maxInterval : ℤ
  hasOnChange : Bool
  hasMinChange : Bool
  hasMinChangeRel : Bool
  hasMinInterval : Bool
  hasMaxInterval : Bool

structure ConfigWriteChannel where
  name : Option (List Char)
  offset : ℤ
  format : DataFormat
  length : ℤ
  add : ℤ
  mod : ℤ
  mul : ℤ
  value : Double
  hasValue : Bool

/-- The members of `modbusmq_write_t` beside the channels. -/
structure WriteSettings where
  name : Option (List Char)
  slave : ℤ
  module : ℤ
  type : Option InputType
  function : WriteFunction
  address : ℤ
  format : DataFormat
  length : ℤ
  add : ℤ
  mod : ℤ
  mul : ℤ
  onValue : ℤ
  offValue : ℤ
  topic : Option (List Char)
  naddress : ℤ
  ack : Bool
  ackTopic : Option (List Char)
  hasSlave : Bool
  hasAddress : Bool
  hasOnValue : Bool
  hasOffValue : Bool
  hasNaddress : Bool
  hasDefaults : Bool
  hasAck : Bool

structure ConfigEntry (S C : Type) where
  settings : S
  channels : List C

abbrev ConfigInput := ConfigEntry InputSettings ConfigChannel

abbrev ConfigWrite := ConfigEntry WriteSettings ConfigWriteChannel

structure ConfigFile where
  settings : ConfigSettings
  inputs : List ConfigInput
  writes : List ConfigWrite

def defaultSettings : ConfigSettings where
  configName := none
  configVersion := none
  connect := none
  baudrate := 0
  parity := '\x00'
  stopbit := 0
  databit := 0
  rtsDelayUs := 10000
  frameTimeoutMs := 1000
  slaveRetryMaxMs := 300000
  naValue := 0
  hasNaValue := false
  rawWrite := false
  frameDelayMs := -1
  offsetSize := 1
  queryMode := .parallell
  roundIntervalMs := 0
  moduleCount := 0
  moduleSlaveFirst := 1
  mqttName := none
  mqttConnect := none
  topicPrefix := none
  mqttRetain := true
  mqttQos := 0
  mqttAck := false
  publishOnChange := false
  publishMinChange := 0
  publishMinChangeRel := 0
  publishMinInterval := 0
  publishMaxInterval := 0
  hasPublishOnChange := false
  hasPublishMinChange := false
  hasPublishMinChangeRel := false
  hasPublishMinInterval := false
  hasPublishMaxInterval := false
  seenModuleCount := false
  seenModuleSlaveFirst := false

def blankChannel : ConfigChannel where
  offset := 0
  length := 0
  format := .unknown
  add := 0
  mod := 0
  mul := 0
  topic := none
  value := 0
  valueText := none
  timefmt := none
  minChange := 0
  minChangeRel := 0
  minInterval := 0
  maxInterval := 0
  decimals := 0
  hasDecimals := false
  hasLength := false
  localtime := false
  retain := false
  hasRetain := false
  qos := 0
  hasQos := false
  onChange := false
  hasOnChange := false
  hasMinChange := false
  hasMinChangeRel := false
  hasMinInterval := false
  hasMaxInterval := false

def blankInput : ConfigInput where
  settings :=
    { slave := 0, type := none, address := 0, addressOffset := 0, naddress := 0, interval := 0
      tier := .fast, module := configModuleNone, onChange := false, minChange := 0
      minChangeRel := 0, minInterval := 0, maxInterval := 0, hasOnChange := false
      hasMinChange := false, hasMinChangeRel := false, hasMinInterval := false
      hasMaxInterval := false }
  channels := []

def blankWriteChannel : ConfigWriteChannel where
  name := none
  offset := 0
  format := .unknown
  length := 0
  add := 0
  mod := 0
  mul := 0
  value := some 0
  hasValue := false

def blankWrite : ConfigWrite where
  settings :=
    { name := none, slave := 0, module := configModuleNone, type := none, function := .unknown
      address := 0, format := .unknown, length := 0, add := 0, mod := 0, mul := 0, onValue := 0
      offValue := 0, topic := none, naddress := 0, ack := false, ackTopic := none
      hasSlave := false, hasAddress := false, hasOnValue := false, hasOffValue := false
      hasNaddress := false, hasDefaults := false, hasAck := false }
  channels := []

section

variable (numerals : ConfigNumerals)

def configSettings : Table ConfigSettings :=
  [("config.name", .total id fun v c => { c with configName := some v }),
    ("config.version", .total id fun v c => { c with configVersion := some v }),
    ("modbusmq.connect", .total id fun v c => { c with connect := some v }),
    ("modbusmq.baudrate", .total configInt fun v c => { c with baudrate := v }),
    ("modbusmq.stopbit", .total configInt fun v c => { c with stopbit := v }),
    ("modbusmq.databit", .total configInt fun v c => { c with databit := v }),
    ("modbusmq.parity", .total (·.headD '\x00') fun v c => { c with parity := v }),
    ("modbusmq.rts_delay_us", .total configInt fun v c => { c with rtsDelayUs := v }),
    ("modbusmq.frame_timeout_ms", .total configInt fun v c => { c with frameTimeoutMs := v }),
    ("modbusmq.slave_retry_max_ms",
      .checked configInt (0 ≤ ·) fun v c => { c with slaveRetryMaxMs := v }),
    ("modbusmq.na_value",
      ⟨ℤ, configNaValue, fun v c => { c with naValue := v, hasNaValue := true }⟩),
    ("modbusmq.raw_write", ⟨Bool, configBoolean, fun v c => { c with rawWrite := v }⟩),
    ("modbusmq.frame_delay_ms",
      .checked configInt (0 ≤ ·) fun v c => { c with frameDelayMs := v }),
    ("input.offset_size", .total configInt fun v c => { c with offsetSize := v }),
    ("input.query_mode", .total configQueryMode fun v c => { c with queryMode := v }),
    ("input.round_interval_ms",
      .checked configInt (0 ≤ ·) fun v c => { c with roundIntervalMs := v }),
    ("module.count", .checked configInt (fun v => 0 ≤ v ∧ v ≤ configSlaveMax)
      fun v c => { c with moduleCount := v, seenModuleCount := true }),
    ("module.slave_first", .checked configInt (fun v => 1 ≤ v ∧ v ≤ configSlaveMax)
      fun v c => { c with moduleSlaveFirst := v, seenModuleSlaveFirst := true }),
    ("mqtt.name", .total id fun v c => { c with mqttName := some v }),
    ("mqtt.connect", .total id fun v c => { c with mqttConnect := some v }),
    ("mqtt.retain", ⟨Bool, configBoolean, fun v c => { c with mqttRetain := v }⟩),
    ("mqtt.qos", .checked configInt (fun v => 0 ≤ v ∧ v ≤ 2) fun v c => { c with mqttQos := v }),
    ("mqtt.topic_prefix", .total id fun v c => { c with topicPrefix := some v }),
    ("mqtt.ack", ⟨Bool, configBoolean, fun v c => { c with mqttAck := v }⟩),
    ("publish.on_change", ⟨Bool, configBoolean,
      fun v c => { c with publishOnChange := v, hasPublishOnChange := true }⟩),
    ("publish.min_change", .checked (configFloat numerals) (fun v => ¬ floatNegative v)
      fun v c => { c with publishMinChange := v, hasPublishMinChange := true }),
    ("publish.min_change_rel", .checked (configFloat numerals) (fun v => ¬ floatNegative v)
      fun v c => { c with publishMinChangeRel := v, hasPublishMinChangeRel := true }),
    ("publish.min_interval_ms", .checked configInt (0 ≤ ·)
      fun v c => { c with publishMinInterval := v, hasPublishMinInterval := true }),
    ("publish.max_interval_ms", .checked configInt (0 ≤ ·)
      fun v c => { c with publishMaxInterval := v, hasPublishMaxInterval := true })]

def inputSettings : Table InputSettings :=
  [("slave", .total configSlave fun v c =>
      { c with module := if v.isSome then configModuleNone else configModuleTemplate
               slave := v.getD 0 }),
    ("type", .total (fun text => configInputType (String.ofList text))
      fun v c => { c with type := v }),
    ("address", .total configUnsigned fun v c => { c with address := v }),
    ("address_offset", .total configUnsigned fun v c => { c with addressOffset := v }),
    ("naddress", .total configUnsigned fun v c => { c with naddress := v }),
    ("interval_ms", ⟨ℤ, configReadInterval numerals, fun v c => { c with interval := v }⟩),
    ("tier", ⟨Tier, configTier, fun v c => { c with tier := v }⟩),
    ("on_change", ⟨Bool, configBoolean,
      fun v c => { c with onChange := v, hasOnChange := true }⟩),
    ("min_change_rel", .checked (configFloat numerals) (fun v => ¬ floatNegative v)
      fun v c => { c with minChangeRel := v, hasMinChangeRel := true }),
    ("min_change", .checked (configFloat numerals) (fun v => ¬ floatNegative v)
      fun v c => { c with minChange := v, hasMinChange := true }),
    ("min_interval_ms", .checked configInt (0 ≤ ·)
      fun v c => { c with minInterval := v, hasMinInterval := true }),
    ("max_interval_ms", .checked configInt (0 ≤ ·)
      fun v c => { c with maxInterval := v, hasMaxInterval := true })]

def channelSettings : Table ConfigChannel :=
  [("offset", .total configUnsigned fun v c => { c with offset := v }),
    ("format", .checked (fun text => configDataformat (String.ofList text)) (· ≠ .unknown)
      fun v c => { c with format := v, length := if c.hasLength then c.length else formatSize v }),
    ("length", ⟨ℤ, configLength 1, fun v c => { c with length := v, hasLength := true }⟩),
    ("nregisters", ⟨ℤ, configLength 2, fun v c => { c with length := v, hasLength := true }⟩),
    ("timefmt", .total id fun v c => { c with timefmt := some v }),
    ("timezone", ⟨Bool, configTimezone, fun v c => { c with localtime := v }⟩),
    ("mod", .total (configScale numerals) fun v c => { c with mod := v }),
    ("mul", .total (configScale numerals) fun v c => { c with mul := v }),
    ("add", .total (configScale numerals) fun v c => { c with add := v }),
    ("topic", .total id fun v c => { c with topic := some v }),
    ("value", .total id
      fun v c => { c with value := configFloat numerals v, valueText := some v }),
    ("retain", ⟨Bool, configBoolean, fun v c => { c with retain := v, hasRetain := true }⟩),
    ("qos", .checked (fun text => (strtol text).1) (fun v => 0 ≤ v ∧ v ≤ 2)
      fun v c => { c with qos := v, hasQos := true }),
    ("decimals", .checked (fun text => (strtol text).1) (fun v => 0 ≤ v ∧ v ≤ 9)
      fun v c => { c with decimals := v, hasDecimals := true }),
    ("on_change", ⟨Bool, configBoolean,
      fun v c => { c with onChange := v, hasOnChange := true }⟩),
    ("min_change", .checked (configFloat numerals) (fun v => ¬ floatNegative v)
      fun v c => { c with minChange := v, hasMinChange := true }),
    ("min_change_rel", .checked (configFloat numerals) (fun v => ¬ floatNegative v)
      fun v c => { c with minChangeRel := v, hasMinChangeRel := true }),
    ("min_interval_ms", .checked configInt (0 ≤ ·)
      fun v c => { c with minInterval := v, hasMinInterval := true }),
    ("max_interval_ms", .checked configInt (0 ≤ ·)
      fun v c => { c with maxInterval := v, hasMaxInterval := true })]

def writeSettings : Table WriteSettings :=
  [("name", .total id fun v c => { c with name := some v }),
    ("slave", .total configSlave fun v c =>
      { c with module := if v.isSome then configModuleNone else configModuleTemplate
               slave := v.getD 0
               hasSlave := true }),
    ("type", ⟨InputType, configWriteType, fun v c => { c with type := some v }⟩),
    ("function", .checked (fun text => configWriteFunction (String.ofList text)) (· ≠ .unknown)
      fun v c => { c with function := v }),
    ("address", .total configUnsigned fun v c => { c with address := v, hasAddress := true }),
    ("format", .checked (fun text => configDataformat (String.ofList text))
      (fun v => v ≠ .unknown ∧ ¬ formatIsText v)
      fun v c => { c with format := v, length := formatSize v }),
    ("add", .total (configScale numerals) fun v c => { c with add := v }),
    ("mod", .total (configScale numerals) fun v c => { c with mod := v }),
    ("mul", .total (configScale numerals) fun v c => { c with mul := v }),
    ("on_value", .total configInt fun v c => { c with onValue := v, hasOnValue := true }),
    ("off_value", .total configInt fun v c => { c with offValue := v, hasOffValue := true }),
    ("topic", .total id fun v c => { c with topic := some v }),
    ("ack_topic", .total id fun v c => { c with ackTopic := some v }),
    ("ack", ⟨Bool, configBoolean, fun v c => { c with ack := v, hasAck := true }⟩),
    ("naddress", .total configUnsigned
      fun v c => { c with naddress := v, hasNaddress := true })]

def writeChannelSettings : Table ConfigWriteChannel :=
  [("name", .total id fun v c => { c with name := some v }),
    ("offset", .total configUnsigned fun v c => { c with offset := v }),
    ("format", .checked (fun text => configDataformat (String.ofList text)) (· ≠ .unknown)
      fun v c => { c with format := v, length := formatSize v }),
    ("add", .total (configScale numerals) fun v c => { c with add := v }),
    ("mod", .total (configScale numerals) fun v c => { c with mod := v }),
    ("mul", .total (configScale numerals) fun v c => { c with mul := v }),
    ("value", .total (fun text => (numerals.strtod text).1.double)
      fun v c => { c with value := v, hasValue := true })]

end

end Modbusmq
