import Mathlib.Tactic

/-!
# The Modbus CRC-16

`modbusmq_rtu_crc16`, polynomial `0xA001` and initial value `0xFFFF`, one byte
and one bit at a time as the source computes it.
-/

namespace Modbusmq

def crc16Bit (crc : UInt16) : UInt16 :=
  if crc &&& 0x0001 ≠ 0 then (crc >>> 1) ^^^ 0xA001 else crc >>> 1

def crc16Byte (crc : UInt16) (b : UInt8) : UInt16 := crc16Bit^[8] (crc ^^^ b.toUInt16)

def rtuCrc16 (buf : List UInt8) : UInt16 := buf.foldl crc16Byte 0xFFFF

-- the catalogued check value of this CRC
example : rtuCrc16 [0x31, 0x32, 0x33, 0x34, 0x35, 0x36, 0x37, 0x38, 0x39] = 0x4B37 := by decide +kernel

end Modbusmq
