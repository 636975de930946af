import Mathlib.Tactic

/-!
# The part of the configuration the library reads at run time

The fields of `modbusmq_config_t`, `modbusmq_input_t` and `modbusmq_channel_t`
that the polling loop and the range checks use.
-/

namespace Modbusmq

inductive DataFormat
  | unknown | a | ab | ba | int8 | int16_ab | int16_ba | abcd | badc | uint32_abcd | uint32_badc
  | float_ba | float_abcd | float_badc | float_dcba | float_cdab
  | ascii_ab | ascii_ba | bcd_ab | bcd_ba | version_ab | version_abcd | version_regs
  | date_ymd_abcd | datetime_regs | epoch32_abcd | epoch32_badc
  deriving DecidableEq, Repr

/-- `modbusmq_format_size`: the wire size of a format, 0 when it is variable. -/
def formatSize : DataFormat → ℕ
  | .a | .int8 => 1
  | .ab | .ba | .int16_ab | .int16_ba | .float_ba | .version_ab => 2
  | .datetime_regs => 12
  | .ascii_ab | .ascii_ba | .bcd_ab | .bcd_ba | .version_regs => 0
  | _ => 4

theorem formatSize_le (format : DataFormat) : formatSize format ≤ 12 := by
  cases format <;> decide

inductive InputType
  | coil
  | discreteInput
  | holdingRegister
  | inputRegister
  deriving DecidableEq, Repr

def InputType.code : InputType → ℕ
  | coil => 1
  | discreteInput => 2
  | holdingRegister => 3
  | inputRegister => 4

def InputType.IsBit : InputType → Prop
  | coil | discreteInput => True
  | holdingRegister | inputRegister => False

instance (type : InputType) : Decidable type.IsBit :=
  match type with
  | .coil | .discreteInput => .isTrue trivial
  | .holdingRegister | .inputRegister => .isFalse id

inductive Tier
  | fast
  | deep
  deriving DecidableEq, Repr

def intervalOnce : ℤ := -1

inductive QueryMode
  | parallell
  | series
  | rounds
  deriving DecidableEq, Repr

/-- `modbusmq_channel_t`; `length` is the wire size, 0 when it was never set. -/
structure Channel where
  offset : ℤ
  length : ℕ
  format : DataFormat

structure Input where
  slave : ℤ
  type : InputType
  address : ℤ
  addressOffset : ℤ
  naddress : ℤ
  tier : Tier
  channels : List Channel

structure Config where
  inputs : List Input
  offsetSize : ℤ
  queryMode : QueryMode
  roundIntervalMs : ℤ
  frameDelayMs : ℤ
  slaveRetryMaxMs : ℤ
  rawWrite : Bool

end Modbusmq
