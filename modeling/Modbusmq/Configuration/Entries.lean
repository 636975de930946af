import Modbusmq.Configuration.Blocks
import Modbusmq.Core.RawRequests

/-!
# Reading the entries of a configuration

What `config_parse_stream` makes of the numbers of an input or a write, and what
it does once the file is read: the module templates are expanded, the integer
formats settled and every entry validated. Topics only count as set or not.
-/

namespace Modbusmq

/-- `strtoul(value, NULL, 0)`: a negative number wraps, a large one gives `ULONG_MAX`. -/
def strtoul (s : List Char) : ℕ :=
  let (negative, t) := match s.dropWhile isSpace with
    | '-' :: t => (true, t)
    | '+' :: t => (false, t)
    | t => (false, t)
  let (base, t) := strtolBase t
  let digits := t.takeWhile fun ch => digitValue ch < base
  let value := digits.foldl (fun n ch => n * base + digitValue ch) 0
  if 2 ^ 64 ≤ value then 2 ^ 64 - 1
  else if negative then (2 ^ 64 - value) % 2 ^ 64 else value

def configNumber (value : String) : ℤ := cInt (strtoul value.toList)

/-- `modbusmq_channel_t` as far as the validation reads it. -/
structure InputChannel where
  topic : Option String
  length : ℤ
  hasLength : Bool
  format : DataFormat
  add : ℤ
  mod : ℤ
  mul : ℤ
  timefmt : Option String
  localtime : Bool
  hasDecimals : Bool
  hasMinChange : Bool
  hasMinChangeRel : Bool

/-- `modbusmq_input_t`; without a type it is one that was not recognised. -/
structure InputEntry where
  slave : ℤ
  template : Bool
  type : Option InputType
  address : ℤ
  addressOffset : ℤ
  naddress : ℤ
  interval : ℤ
  channels : List InputChannel

def configInputType : String → Option InputType
  | "input_register" => some .inputRegister
  | "holding_register" => some .holdingRegister
  | "coil" => some .coil
  | "discrete_input" => some .discreteInput
  | _ => none

def configWriteFunction : String → WriteFunction
  | "write_coil" => .coil
  | "write_register" => .register
  | "write_registers" => .registers
  | _ => .unknown

inductive InputKey
  | slave
  | type
  | address
  | addressOffset
  | naddress

/-- `input.N.<key> = value`. A type that is not recognised is only reported. -/
def InputEntry.set (input : InputEntry) (value : String) : InputKey → InputEntry
  | .slave =>
    if value = "module" then { input with template := true, slave := 0 }
    else { input with template := false, slave := configNumber value }
  | .type => { input with type := configInputType value }
  | .address => { input with address := configNumber value }
  | .addressOffset => { input with addressOffset := configNumber value }
  | .naddress => { input with naddress := configNumber value }

/-- The keys of a write that decide what is written to. -/
inductive WriteKey
  | slave
  | type
  | function
  | address
  | naddress
  deriving DecidableEq, Repr

/-- `write.N.<key> = value`; `none` where the value is not one of those expected. -/
def WriteEntry.set (write : WriteEntry) (value : String) : WriteKey → Option WriteEntry
  | .slave =>
    if value = "module" then some { write with template := true, slave := 0, hasSlave := true }
    else some { write with template := false, slave := configNumber value, hasSlave := true }
  | .type =>
    match configInputType value with
    | some .coil => some { write with type := some .coil }
    | some .holdingRegister => some { write with type := some .holdingRegister }
    | _ => none
  | .function =>
    if configWriteFunction value = .unknown then none
    else some { write with function := configWriteFunction value }
  | .address => some { write with address := configNumber value, hasAddress := true }
  | .naddress => some { write with naddress := configNumber value, hasNaddress := true }

inductive ChannelError
  | formatOnBits
  | formatRequired
  | lengthOnNumber
  | timeOnNumber
  | lengthRequired
  | lengthFixed (fixed : ℕ) (length : ℤ)
  | lengthOdd
  | scaled
  | shifted
  | decimals
  | minChange
  | timeFormat
  | timezone
  deriving DecidableEq, Repr

inductive WriteError
  | topicRequired
  | addressRequired
  | slaveRequired
  | onWithoutOff
  | scalingOnBlock
  | onValueOnBlock
  | coilBlock
  | functionOfBlock
  | block (error : BlockError)
  | naddressWithoutBlock
  | typeOrFunction
  | disagree
  | scalingOnCoil
  | formatRequired
  | notWritable
  | needsRegisters
  deriving DecidableEq, Repr

/-- What is wrong with a configuration; entries and channels count from zero. -/
inductive ConfigError
  | moduleCount
  | moduleSlaveFirst
  | moduleRange (count first last : ℤ)
  | noModules (entry : ℕ)
  | tooManyEntries (total : ℤ)
  | intervalRequired (input : ℕ)
  | channel (input channel : ℕ) (error : ChannelError)
  | write (write : ℕ) (error : WriteError)
  deriving DecidableEq, Repr

end Modbusmq
