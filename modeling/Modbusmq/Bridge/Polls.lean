import Modbusmq.Core.Requests
import Modbusmq.Decoding.Channels

/-!
# The polls of the bridge

The request `main` of `modbusmq.c` builds for an input of the configuration
before it subscribes to it.
-/

namespace Modbusmq

def pollRequest : InputType → ℤ → ℤ → Request
  | .coil => .readCoilBits
  | .discreteInput => .readInputBits
  | .holdingRegister => .readHoldingRegisters
  | .inputRegister => .readInputRegisters

/-- `main`: the frame that is subscribed to. Where the type is unknown it stays zeroed. -/
def pollFrame (t : Transport) (slave : ℤ) (type : Option InputType)
    (address addressOffset naddress : ℤ) : Frame .writer :=
  match type with
  | some type =>
    ((pollRequest type (cInt (address + addressOffset)) naddress).build t slave).getD
      (.zero .writer)
  | none => .zero .writer

def InputType.function (type : InputType) : UInt8 := UInt8.ofNat type.code

theorem InputType.function_toNat (type : InputType) : type.function.toNat = type.code := by
  cases type <;> rfl

theorem InputType.code_injective : Function.Injective InputType.code := by
  intro a b h
  cases a <;> cases b <;> first | rfl | exact absurd h (by decide)

theorem pollFrame_known (t : Transport) (slave : ℤ) (type : InputType)
    (address addressOffset naddress : ℤ) :
    pollFrame t slave (some type) address addressOffset naddress =
      frameInit t slave type.function (cInt (address + addressOffset)) naddress := by
  cases type <;> rfl

end Modbusmq
