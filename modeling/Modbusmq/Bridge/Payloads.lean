import Modbusmq.Bridge.Acks
import Modbusmq.Bridge.Writes

/-!
# Reading a command

`mqtt_payload_value` and `mqtt_payload_block` of `modbusmq.c`, with the texts
they refuse a payload with. What the C library does with the digits of a number
is a parameter.
-/

namespace Modbusmq

open Json

/-- What is left open: the rounding of `double` and `float`, the cast to `int` of what does not
fit, `strtod` with the number of bytes it takes, none where there is no number, and `%.6g`. -/
structure Numerals where
  rounded : ℚ → ℚ
  single : ℚ → UInt32
  cast : Double → ℤ
  strtod : List UInt8 → Double × ℕ
  general : Double → List UInt8

/-- `modbusmq_write_t` with what an acknowledgement reads of it. -/
structure AckedWrite extends WriteEntry where
  acks : AckEntry

def intText (n : ℤ) : List UInt8 :=
  if n < 0 then 45 :: ascii (decimal n.natAbs) else ascii (decimal n.toNat)

/-- The `why` of a payload that is refused, in its buffer of 160 bytes. -/
def why (text : List UInt8) : List UInt8 := text.take 159

/-- A text of the program with the payload in quotes. -/
def quoting (payload : List UInt8) (rest : String) : List UInt8 :=
  ascii "payload \"".toList ++ payload ++ 34 :: ascii rest.toList

/-- The blanks, the ends of a line and some more bytes. -/
def blankByte (more : List UInt8) (b : UInt8) : Bool :=
  b = 32 ∨ b = 9 ∨ b = 13 ∨ b = 10 ∨ b ∈ more

def sameWord (text : List UInt8) (word : String) : Bool :=
  text.map (fun b => if 65 ≤ b ∧ b ≤ 90 then b + 32 else b) = ascii word.toList

section

variable (numerals : Numerals)

/-- What a command of an entry with an `on_value` asks for. -/
def payloadCommand (write : WriteEntry) (payload : List UInt8) : Except (List UInt8) Bool :=
  if sameWord payload "on" ∨ sameWord payload "true" then .ok true
  else if sameWord payload "off" ∨ sameWord payload "false" then .ok false
  else
    let (value, used) := numerals.strtod payload
    if used = 0 ∨ payload.drop used ≠ [] then
      .error (why (quoting payload " is not a command"))
    else if doubleInt numerals.cast value = write.onValue then .ok true
    else if doubleInt numerals.cast value = write.offValue then .ok false
    else
      .error (why (quoting payload " is neither on_value " ++ intText write.onValue ++
        ascii " nor off_value ".toList ++ intText write.offValue))

def mqttPayloadValue (write : WriteEntry) (payload : List UInt8) : Except (List UInt8) Double :=
  let payload := payload.dropWhile fun b => b = 32 ∨ b = 9
  if payload = [] then .error (ascii "empty payload".toList)
  else if write.hasOnValue then
    match payloadCommand numerals write payload with
    | .ok on => .ok (some (if on then write.onValue else write.offValue))
    | .error text => .error text
  else
    let (value, used) := numerals.strtod payload
    if used = 0 then .error (why (quoting payload " is not a number"))
    else if (payload.drop used).dropWhile (blankByte []) ≠ [] then
      .error (why (quoting payload " has trailing junk"))
    else .ok value

/-- The loop of `mqtt_payload_block` over the rest of `payload`, with the values read so far. -/
def blockLoop (payload : List UInt8) (values : List Double) (p : List UInt8) :
    Except (List UInt8) (List Double × List UInt8) :=
  match _h : p.dropWhile (blankByte [44]) with
  | [] => .ok (values, [])
  | b :: rest =>
    if b = 93 then .ok (values, b :: rest)
    else if 123 ≤ values.length then
      .error (ascii "more values than the 123 this block holds".toList)
    else
      let (value, used) := numerals.strtod (b :: rest)
      if used = 0 then .error (why (quoting payload " is not a list of numbers"))
      else blockLoop payload (values ++ [value]) ((b :: rest).drop used)
termination_by p.length
decreasing_by
  have hle := (List.dropWhile_suffix (blankByte [44]) (l := p)).length_le
  rw [_h] at hle
  rw [List.length_drop]
  simp only [List.length_cons] at hle ⊢
  omega

def mqttPayloadBlock (write : WriteEntry) (payload : List UInt8) :
    Except (List UInt8) (Option (List Double)) :=
  let p := payload.dropWhile (blankByte [])
  if p = [] ∨ sameWord p "default" ∨ sameWord p "defaults" then
    if write.hasDefaults then .ok none
    else .error
      (ascii "no value list, and not every channel has a default to fall back on".toList)
  else
    match blockLoop numerals payload [] (if p.head? = some 91 then p.tail else p) with
    | .error text => .error text
    | .ok (values, p) =>
      if p.dropWhile (blankByte [93]) ≠ [] then .error (why (quoting payload " has trailing junk"))
      else if values.length ≠ write.channels.length then
        .error (ascii (decimal values.length) ++ ascii " value(s) for a block of ".toList ++
          ascii (decimal write.channels.length) ++ ascii " channels".toList)
      else .ok (some values)

end

end Modbusmq
