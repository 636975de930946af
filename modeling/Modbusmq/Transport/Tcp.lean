import Modbusmq.Core.Frame

/-!
# The TCP transport

The frame operations of `modbusmq_tcp.c`. A frame is the MBAP header
(transaction, protocol and length fields, two bytes each, then the unit id)
followed by the function byte and its body. Operations that resize the reader
return it next to their result.
-/

namespace Modbusmq

/-- The MBAP length field plus the six bytes in front of what it counts. -/
def tcpDeclared {role : Role} (f : Frame role) : ℕ := be16 (f.buf 4) (f.buf 5) + 6

def tcpFrameInit (slaveId : ℤ) (function : UInt8) (addr nb : ℤ) : Frame .writer where
  length := 12
  xmit := 0
  buf := fun i =>
    if i = 6 then byteOf slaveId
    else if i = 7 then function
    else if i = 8 then byteOf (addr / 256)
    else if i = 9 then byteOf addr
    else if i = 10 then byteOf (nb / 256)
    else if i = 11 then byteOf nb
    else 0

/-- The transaction id `modbusmq_tcp_msg_prepare` takes for the next request. -/
def tcpNextTransaction (transactionId : ℕ) : ℕ := (transactionId + 1) % 0xffff

def tcpMsgPrepare (transactionId : ℕ) (m : Msg) : Msg :=
  let w := ((((m.writer.poke 0 (byteOf (transactionId / 256))).poke 1 (byteOf transactionId)).poke 4
    (byteOf (((m.writer.length : ℤ) - 6) / 256))).poke 5 (byteOf ((m.writer.length : ℤ) - 6)))
  { m with
    writer := w
    reader := (((((m.reader.poke 0 (w.buf 0)).poke 1 (w.buf 1)).poke 2 0).poke 3 0).poke 6
      (w.buf 6)).poke 7 (w.buf 7) }

def tcpFrameSlave {role : Role} (f : Frame role) : UInt8 := f.buf 6

def tcpFrameFunction {role : Role} (f : Frame role) : UInt8 := f.buf 7

def tcpFrameAddr (w : Frame .writer) : ℕ := be16 (w.buf 8) (w.buf 9)

def tcpFrameNaddr (w : Frame .writer) : ℕ := be16 (w.buf 10) (w.buf 11)

/-- `modbusmq_tcp_frame_nbytes` of a response; a request has none and gives -1. -/
def tcpFrameNbytes (r : Frame .reader) : ℤ :=
  if IsRead (r.buf 7) then (r.buf 8).toNat else -1

def tcpFrameException (r : Frame .reader) : ℕ :=
  if r.xmit < 9 then 0
  else if ¬ HasExceptionBit (r.buf 7) then 0
  else (r.buf 8).toNat

def tcpMsgException (w : Frame .writer) (r : Frame .reader) : ℕ :=
  let code := tcpFrameException r
  if code = 0 then 0
  else if r.buf 0 ≠ w.buf 0 ∨ r.buf 1 ≠ w.buf 1 then 0
  else if r.buf 6 ≠ w.buf 6 then 0
  else if r.buf 7 &&& 0x7f ≠ w.buf 7 then 0
  else code

def tcpFrameDrain (r : Frame .reader) : ℤ × Frame .reader :=
  if r.xmit < 6 then (0, r)
  else if tcpDeclared r ≤ 6 ∨ frameMax < tcpDeclared r ∨ tcpDeclared r < r.xmit then (-1, r)
  else if r.xmit < tcpDeclared r then (0, r.resize (tcpDeclared r))
  else (1, r)

/-- The end of `modbusmq_tcp_msg_check_header`, the unit id and the function. -/
def tcpCheckAddressee (w : Frame .writer) (r : Frame .reader) : ℤ :=
  if 7 ≤ r.xmit ∧ w.buf 6 ≠ r.buf 6 then -5
  else if 8 ≤ r.xmit ∧ w.buf 7 ≠ r.buf 7 then
    -- an exception reply waits here for its code
    if HasExceptionBit (r.buf 7) ∧ r.xmit < 9 then 0 else -6
  else 0

def tcpMsgCheckHeader (w : Frame .writer) (r : Frame .reader) : ℤ × Frame .reader :=
  if 2 ≤ r.xmit ∧ ¬ (w.buf 0 = r.buf 0 ∧ w.buf 1 = r.buf 1) then (-2, r)
  else if 4 ≤ r.xmit ∧ ¬ (r.buf 2 = 0 ∧ r.buf 3 = 0 ∧ w.buf 2 = 0 ∧ w.buf 3 = 0) then (-3, r)
  else if 6 ≤ r.xmit ∧ tcpDeclared r ≠ r.xmit then
    if 6 < tcpDeclared r ∧ tcpDeclared r ≤ frameMax then
      (tcpCheckAddressee w r, r.resize (tcpDeclared r))
    else (-4, r)
  else (tcpCheckAddressee w r, r)

def tcpMsgCheck (w : Frame .writer) (r : Frame .reader) : ℤ × Frame .reader :=
  let (rc, r) := tcpMsgCheckHeader w r
  if rc < 0 then (rc, r)
  else if w.xmit ≠ w.length then (1, r)
  else if r.xmit ≠ r.length then (2, r)
  else (0, r)

@[simp] theorem tcpDeclared_resize {role : Role} (f : Frame role) (n : ℕ) :
    tcpDeclared (f.resize n) = tcpDeclared f := rfl

theorem tcpDeclared_ge {role : Role} (f : Frame role) : 6 ≤ tcpDeclared f :=
  Nat.le_add_left _ _

theorem tcpFrameDrain_header {r : Frame .reader} (h : r.xmit < 6) : tcpFrameDrain r = (0, r) :=
  if_pos h

theorem tcpFrameDrain_sized {r : Frame .reader} (h : 6 ≤ r.xmit) (hlo : 6 < tcpDeclared r)
    (hhi : tcpDeclared r ≤ frameMax) (hfits : r.xmit ≤ tcpDeclared r) :
    tcpFrameDrain r =
      if r.xmit < tcpDeclared r then (0, r.resize (tcpDeclared r)) else (1, r) := by
  rw [tcpFrameDrain, if_neg (by omega), if_neg (by omega)]

end Modbusmq
