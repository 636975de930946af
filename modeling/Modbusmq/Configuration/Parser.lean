import Modbusmq.Configuration.Keys
import Modbusmq.Library.Trim

/-!
# Parsing a configuration

`config_parse_stream`: the loop over the lines, with the overrides of the
command line, and the steps behind it once the file is read. A configuration
that is refused has no value; the messages are left out.
-/

namespace Modbusmq

open Json Settings

def scanDecimal (text : List Char) : Option (ℤ × List Char) :=
  (scanInt (ascii text)).map fun (n, rest) => (n, text.drop (text.length - rest.length))

/-- `sscanf` of a key for `<start>%d.%99s`, with both fields assigned. -/
def scanKey (start key : List Char) : Option (ℤ × List Char) :=
  match scanDecimal (key.drop start.length) with
  | some (n, '.' :: rest) =>
    let name := ((rest.dropWhile isSpace).takeWhile fun ch => ¬ isSpace ch).take 99
    if name = [] then none else some (n, name)
  | _ => none

/-- What a key behind `input.N.` or `write.N.` is about. -/
inductive EntryAddress
  | setting (name : List Char)
  | channelMax
  | channel (m : ℤ) (name : List Char)
  /-- a key that cannot be scanned -/
  | unscanned
  deriving DecidableEq

def entryAddress (key : List Char) : EntryAddress :=
  if key = "channel.max".toList then .channelMax
  else if "channel.".toList.isPrefixOf key then
    match scanKey "channel.".toList key with
    | some (m, name) => .channel m name
    | none => .unscanned
  else .setting key

inductive ConfigAddress
  | setting (name : List Char)
  | inputMax
  | input (n : ℤ) (key : EntryAddress)
  | writeMax
  | write (n : ℤ) (key : EntryAddress)
  /-- a key that cannot be scanned -/
  | unscanned
  deriving DecidableEq

def configAddress (key : List Char) : ConfigAddress :=
  if key = "input.offset_size".toList ∨ key = "input.query_mode".toList ∨
      key = "input.round_interval_ms".toList then .setting key
  else if key = "input.max".toList then .inputMax
  else if "input.".toList.isPrefixOf key then
    match scanKey "input.".toList key with
    | some (n, inputKey) => .input n (entryAddress inputKey)
    | none => .unscanned
  else if key = "write.max".toList then .writeMax
  else if "write.".toList.isPrefixOf key then
    match scanKey "write.".toList key with
    | some (n, writeKey) => .write n (entryAddress writeKey)
    | none => .unscanned
  else .setting key

/-- The keys of an entry and of its channels, how many channels it may have, and whether a key of a
channel that it does not have is skipped. -/
structure EntryTables (S C : Type) where
  settings : Table S
  channels : Table C
  blank : C
  channelMax : ℤ
  skip : Bool

def ConfigEntry.assign {S C : Type} (tables : EntryTables S C) (key : EntryAddress)
    (value : List Char) (entry : ConfigEntry S C) : Option (ConfigEntry S C) :=
  match key with
  | .setting name => (Settings.assign tables.settings name value entry.settings).map fun settings =>
      { entry with settings := settings }
  | .channelMax =>
    if entry.channels ≠ [] ∨ configUnsigned value ≤ 0 ∨ tables.channelMax < configUnsigned value then
      none
    else some { entry with channels := List.replicate (configUnsigned value).toNat tables.blank }
  | .channel m name =>
    (onNumbered tables.skip m (Settings.assign tables.channels name value) entry.channels).map
      fun channels => { entry with channels := channels }
  | .unscanned => some entry

def allocateEntries {Entry : Type} (blank : Entry) (value : List Char) (entries : List Entry) :
    Option (List Entry) :=
  if entries ≠ [] ∨ configUnsigned value < 0 ∨ inputWriteMax < configUnsigned value then none
  else some (List.replicate (configUnsigned value).toNat blank)

section

variable (numerals : ConfigNumerals)

def inputTables : EntryTables InputSettings ConfigChannel where
  settings := inputSettings numerals
  channels := channelSettings numerals
  blank := blankChannel
  channelMax := 100
  skip := true

def writeTables : EntryTables WriteSettings ConfigWriteChannel where
  settings := writeSettings numerals
  channels := writeChannelSettings numerals
  blank := blankWriteChannel
  channelMax := 123
  skip := false

/-- `<key> = value`. A key of an input that is not there is skipped, one of a write refused. -/
def ConfigFile.assign (key : ConfigAddress) (value : List Char) (config : ConfigFile) :
    Option ConfigFile :=
  match key with
  | .setting name =>
    (Settings.assign (configSettings numerals) name value config.settings).map fun settings =>
      { config with settings := settings }
  | .inputMax => (allocateEntries blankInput value config.inputs).map fun inputs =>
      { config with inputs := inputs }
  | .input n key =>
    (onNumbered true n (ConfigEntry.assign (inputTables numerals) key value) config.inputs).map
      fun inputs => { config with inputs := inputs }
  | .writeMax => (allocateEntries blankWrite value config.writes).map fun writes =>
      { config with writes := writes }
  | .write n key =>
    (onNumbered false n (ConfigEntry.assign (writeTables numerals) key value) config.writes).map
      fun writes => { config with writes := writes }
  | .unscanned => some config

/-- The key and the value of a line; a line without one of them is skipped. -/
def configLine (line : List Char) : Option (List Char × List Char) :=
  let text := line.takeWhile fun ch => ch ≠ '\x00' ∧ ch ≠ '#' ∧ ch ≠ '\n' ∧ ch ≠ '\r'
  let key := Trim.trim isBlank (text.takeWhile (· ≠ '='))
  let value := Trim.trim isBlank (text.dropWhile (· ≠ '=')).tail
  if '=' ∉ text ∨ key = [] ∨ value = [] then none else some (key, value)

def configOverrideLookup (overrides : List (List Char)) (key : List Char) : Option (List Char) :=
  (overrides.find? fun entry => (key ++ ['=']).isPrefixOf entry).map (·.drop (key.length + 1))

/-- One turn of the loop: an override wins over the value of the line. -/
def applyLine (overrides : List (List Char)) (line : List Char × List Char) (config : ConfigFile) :
    Option ConfigFile :=
  config.assign numerals (configAddress line.1)
    ((configOverrideLookup overrides line.1).getD line.2)

/-- The keys and values of a text, line by line. -/
def configLines (text : List Char) : List (List Char × List Char) :=
  (text.splitOn '\n').filterMap configLine

/-- A module key that the file does not have is taken from the overrides as well. -/
def overrideModuleKey (overrides : List (List Char)) (seen : ConfigSettings → Bool)
    (key : String) (config : ConfigFile) : Option ConfigFile :=
  match configOverrideLookup overrides key.toList with
  | some value =>
    if seen config.settings then some config
    else config.assign numerals (.setting key.toList) value
  | none => some config

end

end Modbusmq
