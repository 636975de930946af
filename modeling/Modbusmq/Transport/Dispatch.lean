import Modbusmq.Transport.Tcp
import Modbusmq.Transport.Rtu

/-!
# The callback table of a context

A context is for one transport, and `modbusmq_tcp_context` or
`modbusmq_rtu_context` fills its table of operations and its header lengths.
-/

namespace Modbusmq

inductive Transport
  | tcp
  | rtu
  deriving DecidableEq, Repr

namespace Transport

def headerLength : Transport → ℕ
  | tcp => 8
  | rtu => 3

def reqHeaderMin : Transport → ℕ
  | tcp => 6
  | rtu => 8

def resHeaderMin : Transport → ℕ
  | tcp => 6
  | rtu => 3

/-- Where the payload of a response starts, `modbusmq_frame_data`. -/
def dataOffset : Transport → ℕ
  | tcp => 9
  | rtu => 3

end Transport

def frameSlave {role : Role} : Transport → Frame role → UInt8
  | .tcp => tcpFrameSlave
  | .rtu => rtuFrameSlave

def frameFunction {role : Role} : Transport → Frame role → UInt8
  | .tcp => tcpFrameFunction
  | .rtu => rtuFrameFunction

def frameAddr : Transport → Frame .writer → ℕ
  | .tcp => tcpFrameAddr
  | .rtu => rtuFrameAddr

def frameNaddr : Transport → Frame .writer → ℕ
  | .tcp => tcpFrameNaddr
  | .rtu => rtuFrameNaddr

def frameNbytes : Transport → Frame .reader → ℤ
  | .tcp => tcpFrameNbytes
  | .rtu => rtuFrameNbytes

def frameData (t : Transport) (r : Frame .reader) (i : ℕ) : UInt8 := r.buf (t.dataOffset + i)

def frameExceptionCode : Transport → Frame .reader → ℕ
  | .tcp => tcpFrameException
  | .rtu => rtuFrameException

def msgException : Transport → Frame .writer → Frame .reader → ℕ
  | .tcp => tcpMsgException
  | .rtu => rtuMsgException

def msgBroadcast : Transport → Frame .writer → Bool
  | .tcp => fun _ => false
  | .rtu => rtuMsgBroadcast

def frameDrain : Transport → Frame .reader → ℤ × Frame .reader
  | .tcp => tcpFrameDrain
  | .rtu => rtuFrameDrain

def checkHeader : Transport → Frame .writer → Frame .reader → ℤ × Frame .reader
  | .tcp => tcpMsgCheckHeader
  | .rtu => rtuMsgCheckHeader

def check : Transport → Frame .writer → Frame .reader → ℤ × Frame .reader
  | .tcp => tcpMsgCheck
  | .rtu => rtuMsgCheck

def frameInit : Transport → ℤ → UInt8 → ℤ → ℤ → Frame .writer
  | .tcp => tcpFrameInit
  | .rtu => rtuFrameInit

/-- `memset(reader, 0, sizeof(*reader))` and `reader->length = header_length`. -/
def armed (t : Transport) : Frame .reader := .holding [] t.headerLength

def exceptionString : ℕ → String
  | 0x01 => "illegal function"
  | 0x02 => "illegal data address"
  | 0x03 => "illegal data value"
  | 0x04 => "slave device failure"
  | 0x05 => "acknowledge, command accepted but not complete"
  | 0x06 => "slave device busy"
  | 0x08 => "memory parity error"
  | 0x0A => "gateway path unavailable"
  | 0x0B => "gateway target device failed to respond"
  | _ => "unknown exception"

end Modbusmq
