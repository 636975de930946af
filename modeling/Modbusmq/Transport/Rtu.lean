import Modbusmq.Core.Frame
import Modbusmq.Transport.Crc

/-!
# The RTU transport

The frame operations of `modbusmq_rtu.c`. A frame is slave, function, body and
a CRC sent low byte first; nothing on the wire says where one ends, so the
length comes from the function and, for a read, from the byte count.
-/

namespace Modbusmq

/-- The CRC a frame of `length` bytes carries, low byte first. -/
def rtuCarriedCrc {role : Role} (f : Frame role) (length : ℕ) : ℕ :=
  be16 (f.buf (length - 1)) (f.buf (length - 2))

/-- The CRC computed over all but the last two of `length` bytes. -/
def rtuComputedCrc {role : Role} (f : Frame role) (length : ℕ) : ℕ :=
  (rtuCrc16 (f.bytes (length - 2))).toNat

def rtuFrameInit (slaveId : ℤ) (function : UInt8) (addr naddr : ℤ) : Frame .writer where
  length := 6
  xmit := 0
  buf := fun i =>
    if i = 0 then byteOf slaveId
    else if i = 1 then function
    else if i = 2 then byteOf (addr / 256)
    else if i = 3 then byteOf addr
    else if i = 4 then byteOf (naddr / 256)
    else if i = 5 then byteOf naddr
    else 0

def rtuMsgPrepare (m : Msg) : Msg :=
  let crc := (rtuCrc16 (m.writer.bytes m.writer.length)).toNat
  { m with
    writer := (m.writer.push (byteOf crc)).push (byteOf (crc / 256))
    reader := m.reader.resize 3 }

def rtuFrameSlave {role : Role} (f : Frame role) : UInt8 := f.buf 0

def rtuFrameFunction {role : Role} (f : Frame role) : UInt8 := f.buf 1

def rtuFrameAddr {role : Role} (f : Frame role) : ℕ := be16 (f.buf 2) (f.buf 3)

def rtuFrameNaddr {role : Role} (f : Frame role) : ℕ := be16 (f.buf 4) (f.buf 5)

/-- `modbusmq_rtu_frame_nbytes` of a response; a request has none and gives -1. -/
def rtuFrameNbytes (r : Frame .reader) : ℤ :=
  if IsRead (r.buf 1) then (r.buf 2).toNat else -1

def rtuFrameException (r : Frame .reader) : ℕ :=
  if r.xmit < 3 then 0
  else if ¬ HasExceptionBit (r.buf 1) then 0
  else (r.buf 2).toNat

def rtuMsgException (w : Frame .writer) (r : Frame .reader) : ℕ :=
  let code := rtuFrameException r
  if code = 0 then 0
  else if r.buf 0 ≠ w.buf 0 then 0
  else if r.buf 1 &&& 0x7f ≠ w.buf 1 then 0
  else code

/-- `modbusmq_rtu_expected_nbytes`; `none` where the source returns -1. -/
def rtuExpectedNbytes (w : Frame .writer) : Option ℕ :=
  if rtuFrameFunction w = readCoils ∨ rtuFrameFunction w = readDiscreteInputs then
    some ((rtuFrameNaddr w + 7) / 8)
  else if rtuFrameFunction w = readHoldingRegisters ∨
      rtuFrameFunction w = readInputRegisters then
    some (rtuFrameNaddr w * 2)
  else none

/-- The size of a write echo: mask write returns both masks. -/
def rtuEchoLength (function : UInt8) : ℕ := if function = maskWriteRegister then 10 else 8

/-- The tail of `modbusmq_rtu_msg_check_header`: the length is settled. -/
def rtuSettleLength (newlen : ℕ) (r : Frame .reader) : ℤ × Frame .reader :=
  if frameMax < newlen then (-5, r) else ((newlen : ℤ) - r.xmit, r.resize newlen)

def rtuMsgCheckHeader (w : Frame .writer) (r : Frame .reader) : ℤ × Frame .reader :=
  if r.xmit < 3 then (1, r)
  else if w.buf 0 ≠ r.buf 0 then (-2, r)
  else if w.buf 1 = r.buf 1 then
    match rtuExpectedNbytes w with
    | none => rtuSettleLength (rtuEchoLength (rtuFrameFunction w)) r
    | some expected =>
      if (r.buf 2).toNat ≠ expected then (-4, r) else rtuSettleLength (expected + 3 + 2) r
  else if r.buf 1 = w.buf 1 ||| 0x80 then ((5 : ℤ) - r.xmit, r.resize 5)
  else (-3, r)

/-- The length `modbusmq_rtu_frame_drain` reads off a frame's own bytes; `none`
while the byte count of a read reply is still missing. -/
def rtuOwnLength (r : Frame .reader) : Option ℕ :=
  if HasExceptionBit (r.buf 1) then some 5
  else if IsRead (r.buf 1) then
    if r.xmit < 3 then none else some (3 + (r.buf 2).toNat + 2)
  else some (rtuEchoLength (r.buf 1))

def rtuFrameDrain (r : Frame .reader) : ℤ × Frame .reader :=
  if r.xmit < 2 then (0, r)
  else
    match rtuOwnLength r with
    | none => (0, r)
    | some length =>
      if length < 4 ∨ frameMax < length ∨ length < r.xmit then (-1, r)
      else if r.xmit < length then (0, r.resize length)
      else if rtuCarriedCrc r length ≠ rtuComputedCrc r length then (-1, r)
      else (1, r)

def rtuMsgBroadcast (w : Frame .writer) : Bool :=
  if w.length < 2 ∨ w.buf 0 ≠ 0 then false else decide (IsWrite (w.buf 1))

def rtuMsgCheck (w : Frame .writer) (r : Frame .reader) : ℤ × Frame .reader :=
  let (rc, r) := rtuMsgCheckHeader w r
  if rc < 0 then (rc, r)
  else if w.xmit ≠ w.length then (1, r)
  else if rtuMsgBroadcast w then (0, r)
  else if r.xmit ≠ r.length then (2, r)
  else if r.length < 4 then (-3, r)
  else if HasExceptionBit (r.buf 1) then (-4, r)
  else if rtuCarriedCrc r r.length ≠ rtuComputedCrc r r.length then (-2, r)
  else (0, r)

/-- The ways through `modbusmq_rtu_msg_check_header`. A byte count that equals what was
asked for is at most 255, so the length check behind it never fails. -/
inductive RtuHeaderCase (w : Frame .writer) (r : Frame .reader) : ℤ × Frame .reader → Prop
  | short (h : r.xmit < 3) : RtuHeaderCase w r (1, r)
  | slave (h : 3 ≤ r.xmit) (hs : w.buf 0 ≠ r.buf 0) : RtuHeaderCase w r (-2, r)
  | function (h : 3 ≤ r.xmit) (hs : w.buf 0 = r.buf 0) (hf : w.buf 1 ≠ r.buf 1)
      (he : r.buf 1 ≠ w.buf 1 ||| 0x80) : RtuHeaderCase w r (-3, r)
  | exception (h : 3 ≤ r.xmit) (hs : w.buf 0 = r.buf 0) (hf : w.buf 1 ≠ r.buf 1)
      (he : r.buf 1 = w.buf 1 ||| 0x80) : RtuHeaderCase w r ((5 : ℤ) - r.xmit, r.resize 5)
  | byteCount {expected : ℕ} (h : 3 ≤ r.xmit) (hs : w.buf 0 = r.buf 0) (hf : w.buf 1 = r.buf 1)
      (hx : rtuExpectedNbytes w = some expected) (hn : (r.buf 2).toNat ≠ expected) :
      RtuHeaderCase w r (-4, r)
  | data {expected : ℕ} (h : 3 ≤ r.xmit) (hs : w.buf 0 = r.buf 0) (hf : w.buf 1 = r.buf 1)
      (hx : rtuExpectedNbytes w = some expected) (hn : (r.buf 2).toNat = expected) :
      RtuHeaderCase w r (((expected + 3 + 2 : ℕ) : ℤ) - r.xmit, r.resize (expected + 3 + 2))
  | echo (h : 3 ≤ r.xmit) (hs : w.buf 0 = r.buf 0) (hf : w.buf 1 = r.buf 1)
      (hx : rtuExpectedNbytes w = none) :
      RtuHeaderCase w r ((rtuEchoLength (w.buf 1) : ℤ) - r.xmit, r.resize (rtuEchoLength (w.buf 1)))

theorem rtuEchoLength_bounds (function : UInt8) :
    8 ≤ rtuEchoLength function ∧ rtuEchoLength function ≤ 10 := by
  unfold rtuEchoLength
  split_ifs <;> omega

theorem rtuMsgCheckHeader_cases (w : Frame .writer) (r : Frame .reader) :
    RtuHeaderCase w r (rtuMsgCheckHeader w r) := by
  have hecho := rtuEchoLength_bounds (w.buf 1)
  have hbyte := (r.buf 2).toNat_lt
  unfold rtuMsgCheckHeader
  split_ifs with h hs hf he
  · exact .short h
  · exact .slave (by omega) hs
  · cases hx : rtuExpectedNbytes w with
    | none =>
      have hmax : ¬ frameMax < rtuEchoLength (w.buf 1) := by
        unfold frameMax
        omega
      dsimp only
      rw [rtuSettleLength, rtuFrameFunction, if_neg hmax]
      exact .echo (by omega) (by simpa using hs) hf hx
    | some expected =>
      dsimp only
      split_ifs with hn
      · exact .byteCount (by omega) (by simpa using hs) hf hx hn
      · have hmax : ¬ frameMax < expected + 3 + 2 := by
          unfold frameMax
          omega
        rw [rtuSettleLength, if_neg hmax]
        exact .data (by omega) (by simpa using hs) hf hx (by simpa using hn)
  · exact .exception (by omega) (by simpa using hs) hf he
  · exact .function (by omega) (by simpa using hs) hf he

theorem rtuFrameDrain_sized {r : Frame .reader} {length : ℕ} (h : 3 ≤ r.xmit)
    (hown : rtuOwnLength r = some length) (hlo : 4 ≤ length) (hhi : length ≤ frameMax)
    (hfits : r.xmit ≤ length) :
    rtuFrameDrain r =
      if r.xmit < length then (0, r.resize length)
      else if rtuCarriedCrc r r.xmit = rtuComputedCrc r r.xmit then (1, r)
      else (-1, r) := by
  rw [rtuFrameDrain, if_neg (by omega), hown]
  dsimp only
  rw [if_neg (by omega)]
  by_cases hpart : r.xmit < length
  · rw [if_pos hpart, if_pos hpart]
  · obtain rfl : length = r.xmit := by omega
    rw [if_neg hpart, if_neg hpart, ite_not]

end Modbusmq
