import Modbusmq.Decoding.Channels
import Modbusmq.Decoding.Text
import Modbusmq.Library.Trim

/-!
# Reading a text channel

`modbusmq_read_channel_text` and the decoders it dispatches to. A decoded text is
the bytes in front of the terminator. What the C library knows about time is a
parameter.
-/

namespace Modbusmq

def textMax : ℕ := 140

def textBytesMax : ℕ := 64

/-- `struct tm`, with its year from 1900 and its month from 0. -/
structure Tm where
  year : ℤ
  mon : ℤ
  mday : ℤ
  hour : ℤ
  min : ℤ
  sec : ℤ
  deriving DecidableEq, Repr

/-- What is left open: all that `strftime` prints for a pattern, and the two conversions of a
`time_t`. -/
structure TimeLibrary where
  strftime : List UInt8 → Tm → List UInt8
  gmtime : ℤ → Option Tm
  localtime : ℤ → Option Tm

/-- `modbusmq_channel_t` with what the text formats read of it. -/
structure TextChannel extends Channel where
  add : ℤ
  timefmt : Option (List UInt8)
  localtime : Bool

def textByte (data : List UInt8) (swap : Bool) (i : ℕ) : UInt8 :=
  let j := if swap then i ^^^ 1 else i
  data.getD (if j < data.length then j else i) 0

/-- The bytes of a field in the order its format reads them. -/
def fieldBytes (data : List UInt8) (swap : Bool) : List UInt8 :=
  (List.range data.length).map (textByte data swap)

def textTrim (text : List UInt8) : List UInt8 := Trim.trim (· = 32) text

/-- Anything outside printable ASCII becomes a question mark. -/
def printable (c : UInt8) : UInt8 := if c < 0x20 ∨ 0x7E < c then 63 else c

def asciiLoop (len : ℕ) : List UInt8 → List UInt8 → Option (List UInt8)
  | [], buf => some buf
  | c :: rest, buf =>
    if c = 0 then asciiLoop len rest buf
    else if len ≤ buf.length + 1 then none
    else asciiLoop len rest (buf ++ [printable c])

def textAscii (data : List UInt8) (swap : Bool) (len : ℕ) : Option (List UInt8) :=
  (asciiLoop len (fieldBytes data swap) []).map textTrim

def bcdLoop : List UInt8 → List UInt8 → Option (List UInt8)
  | [], buf => some buf
  | c :: rest, buf =>
    let hi := c >>> 4 &&& 0x0f
    let lo := c &&& 0x0f
    if 9 < hi ∨ 9 < lo then none else bcdLoop rest (buf ++ [48 + hi, 48 + lo])

def textBcd (data : List UInt8) (swap : Bool) (len : ℕ) : Option (List UInt8) :=
  if len < data.length * 2 + 1 then none else bcdLoop (fieldBytes data swap) []

/-- The fields of a version, one byte each or, with stride 2, one register each. -/
def versionFields (stride : ℕ) (data : List UInt8) : List ℕ :=
  (List.range (data.length / stride)).map fun i =>
    if stride = 2 then be16 (data.getD (2 * i) 0) (data.getD (2 * i + 1) 0)
    else (data.getD i 0).toNat

def versionLoop (len : ℕ) : List ℕ → List UInt8 → Option (List UInt8)
  | [], buf => some buf
  | field :: rest, buf =>
    let digits := (Nat.toDigits 10 field).map fun ch => UInt8.ofNat ch.toNat
    let buf := buf ++ (if buf = [] then [] else [46]) ++ digits
    if len ≤ buf.length then none else versionLoop len rest buf

def textVersion (data : List UInt8) (stride len : ℕ) : Option (List UInt8) :=
  versionLoop len (versionFields stride data) []

/-- The bytes of a text of the source. -/
def bytesOf (text : String) : List UInt8 := text.toList.map fun ch => UInt8.ofNat ch.toNat

def channelTimefmt (channel : TextChannel) : List UInt8 :=
  match channel.timefmt with
  | some timefmt => timefmt
  | none =>
    if channel.format = .date_ymd_abcd then bytesOf "%Y-%m-%d"
    else if formatIsEpoch channel.format ∧ ¬ channel.localtime then bytesOf "%Y-%m-%dT%H:%M:%SZ"
    else bytesOf "%Y-%m-%dT%H:%M:%S"

def Tm.Valid (tm : Tm) : Prop :=
  70 ≤ tm.year ∧ tm.year ≤ 1099 ∧ 0 ≤ tm.mon ∧ tm.mon ≤ 11 ∧ 1 ≤ tm.mday ∧ tm.mday ≤ 31 ∧
    0 ≤ tm.hour ∧ tm.hour ≤ 23 ∧ 0 ≤ tm.min ∧ tm.min ≤ 59 ∧ 0 ≤ tm.sec ∧ tm.sec ≤ 60

instance (tm : Tm) : Decidable tm.Valid := inferInstanceAs (Decidable (_ ∧ _))

section

variable (library : TimeLibrary)

def textStrftime (channel : TextChannel) (tm : Tm) (len : ℕ) : Option (List UInt8) :=
  if tm.Valid then
    let text := library.strftime (channelTimefmt channel) tm
    -- `strftime` answers 0 for an empty text and for one that does not fit
    if text = [] ∨ len ≤ text.length then none else some text
  else none

def epochRaw (format : DataFormat) (data : List UInt8) : UInt32 :=
  let a := data.getD 0 0
  let b := data.getD 1 0
  let c := data.getD 2 0
  let d := data.getD 3 0
  if format = .epoch32_badc then be32 b a d c else be32 a b c d

def textEpoch (channel : TextChannel) (raw : UInt32) (len : ℕ) : Option (List UInt8) :=
  let t := raw.toNat + channel.add
  match if channel.localtime then library.localtime t else library.gmtime t with
  | none => none
  | some tm => textStrftime library channel tm len

def dateTm (data : List UInt8) : Tm where
  year := be16 (data.getD 0 0) (data.getD 1 0) - 1900
  mon := (data.getD 2 0).toNat - 1
  mday := (data.getD 3 0).toNat
  hour := 0
  min := 0
  sec := 0

/-- The date and time in the six registers of `datetime_regs`. -/
def datetimeTm (data : List UInt8) : Tm :=
  let field (i : ℕ) : ℤ := be16 (data.getD (2 * i) 0) (data.getD (2 * i + 1) 0)
  { year := field 0 - 1900
    mon := field 1 - 1
    mday := field 2
    hour := field 3
    min := field 4
    sec := field 5 }

def decodeText (channel : TextChannel) (data : List UInt8) (len : ℕ) : Option (List UInt8) :=
  match channel.format with
  | .ascii_ab => textAscii data false len
  | .ascii_ba => textAscii data true len
  | .bcd_ab => textBcd data false len
  | .bcd_ba => textBcd data true len
  | .version_ab | .version_abcd => textVersion data 1 len
  | .version_regs => textVersion data 2 len
  | .date_ymd_abcd => textStrftime library channel (dateTm data) len
  | .datetime_regs => textStrftime library channel (datetimeTm data) len
  | .epoch32_abcd | .epoch32_badc =>
    textEpoch library channel (epochRaw channel.format data) len
  | _ => none

def readChannelText (t : Transport) (config : Option Config) (r : Frame .reader) (input : Input)
    (channel : TextChannel) (len : ℕ) : Option (List UInt8) :=
  if len = 0 ∨ ¬ formatIsText channel.format ∨ input.type.IsBit then none
  else
    match channelData t config r input channel.toChannel with
    | none => none
    | some data => decodeText library channel data len

end

end Modbusmq
