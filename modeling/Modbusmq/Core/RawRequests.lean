import Modbusmq.Core.Requests

/-!
# Raw requests

`modbusmq_raw_request`: one request given as text, answered with one line of
text. What is refused is answered at once; what is accepted takes the one raw
slot of the context until its request leaves the queue.
-/

namespace Modbusmq

def isBlank (ch : Char) : Bool := ch = ' ' || ch = '\t'

def isRawSpace (ch : Char) : Bool := isBlank ch || ch = '\r' || ch = '\n'

def isSpace (ch : Char) : Bool := isRawSpace ch || ch = '\x0b' || ch = '\x0c'

/-- The value of a digit in any base up to 36, and 36 for anything else. -/
def digitValue (ch : Char) : ℕ :=
  if '0' ≤ ch ∧ ch ≤ '9' then ch.toNat - 48
  else if 'a' ≤ ch ∧ ch ≤ 'z' then ch.toNat - 87
  else if 'A' ≤ ch ∧ ch ≤ 'Z' then ch.toNat - 55
  else 36

/-- The base `strtol` takes from the text, and the text behind its prefix. -/
def strtolBase : List Char → ℕ × List Char
  | '0' :: x :: d :: rest =>
    if (x = 'x' ∨ x = 'X') ∧ digitValue d < 16 then (16, d :: rest) else (8, '0' :: x :: d :: rest)
  | '0' :: rest => (8, '0' :: rest)
  | s => (10, s)

/-- `strtol(s, &end, 0)`; without digits the text is left whole. -/
def strtol (s : List Char) : ℤ × List Char :=
  let (negative, t) := match s.dropWhile isSpace with
    | '-' :: t => (true, t)
    | '+' :: t => (false, t)
    | t => (false, t)
  let (base, t) := strtolBase t
  let digits := t.takeWhile fun ch => digitValue ch < base
  let value : ℤ := digits.foldl (fun n ch => n * base + digitValue ch) 0
  if digits.isEmpty then (0, s)
  else (max (-2 ^ 63) (min (2 ^ 63 - 1) (if negative then -value else value)),
    t.drop digits.length)

inductive RawNumber
  | number (value : ℤ) (rest : List Char)
  | endOfText
  | notNumber

def rawNumber (p : List Char) : RawNumber :=
  let p := p.dropWhile isBlank
  if p.isEmpty then .endOfText
  else
    let (value, rest) := strtol p
    if rest.length = p.length ∨ rest.head?.any (fun ch => !isBlank ch) then .notNumber
    else .number value rest

/-- The values behind the address, with room for that many. -/
def rawValues : ℕ → List Char → Except String (List UInt16)
  | 0, p =>
    match rawNumber p with
    | .endOfText => .ok []
    | .notNumber => .error "not a number"
    | .number _ _ => .error "more than 123 values"
  | room + 1, p =>
    match rawNumber p with
    | .endOfText => .ok []
    | .notNumber => .error "not a number"
    | .number value rest =>
      if value < -32768 ∨ 0xFFFF < value then .error "value outside 16 bits"
      else (rawValues room rest).map (UInt16.ofNat (value % 65536).toNat :: ·)

structure RawFields where
  slave : ℤ
  fc : ℤ
  addr : ℤ
  values : List UInt16
  deriving DecidableEq, Repr

/-- The three numbers every request starts with. -/
def rawHeader (p : List Char) : Option (ℤ × ℤ × ℤ × List Char) :=
  match rawNumber p with
  | .number slave p =>
    match rawNumber p with
    | .number fc p =>
      match rawNumber p with
      | .number addr p => some (slave, fc, addr, p)
      | _ => none
    | _ => none
  | _ => none

/-- The parsing half of `modbusmq_raw_request`; a tag is only echoed. -/
def rawParse (writes : Bool) (echo : List Char) : Except String RawFields :=
  let p := if echo.head? = some '@' then echo.dropWhile (fun ch => !isBlank ch) else echo
  match rawHeader p with
  | none => .error "expected slave fc addr"
  | some (slave, fc, addr, p) =>
    match rawValues 123 p with
    | .error reason => .error reason
    | .ok values =>
      if slave < 0 ∨ 247 < slave ∨ addr < 0 ∨ 0xFFFF < addr then
        .error "slave 0-247, addr 0-0xFFFF"
      else if slave = 0 ∧ ¬ writes then
        .error "slave 0 is broadcast, needs modbusmq.raw_write = 1"
      else .ok ⟨slave, fc, addr, values⟩

/-- Byte `i` of the local array function 15 packs its values into. -/
def rawBits (values : List UInt16) (i : ℕ) : UInt8 :=
  (List.range 8).foldl
    (fun byte k => if values.getD (8 * i + k) 0 ≠ 0 then byte ||| 1 <<< UInt8.ofNat k else byte) 0

/-- The building half of `modbusmq_raw_request`: the request and the count its reply prints.
The array function 15 hands on is 16 bytes long; `stray` is the memory behind it. -/
def rawBuild (writes : Bool) (f : RawFields) (stray : ℕ → UInt8) : Except String (Request × ℕ) :=
  let count : ℕ := if f.values.length = 1 then (f.values.getD 0 0).toNat else 0
  if f.fc = 1 ∨ f.fc = 2 ∨ f.fc = 3 ∨ f.fc = 4 then
    if f.values.length ≠ 1 ∨ count < 1 ∨ 2000 < count ∨ (3 ≤ f.fc ∧ 125 < count) ∨ f.slave = 0 then
      .error "a read takes one count, 1-2000 bits or 1-125 registers, and no broadcast"
    else if f.fc = 1 then .ok (.readCoilBits f.addr count, count)
    else if f.fc = 2 then .ok (.readInputBits f.addr count, count)
    else if f.fc = 3 then .ok (.readHoldingRegisters f.addr count, count)
    else .ok (.readInputRegisters f.addr count, count)
  else if f.fc = 5 ∨ f.fc = 6 ∨ f.fc = 15 ∨ f.fc = 16 then
    if ¬ writes then .error "writes need modbusmq.raw_write = 1"
    else if f.values.length < 1 ∨ (f.fc ≤ 6 ∧ f.values.length ≠ 1) then
      .error "fc 5 and 6 take one value, fc 15 and 16 one or more"
    else if f.fc = 5 then
      .ok (.writeCoilBit f.addr (if f.values.getD 0 0 ≠ 0 then 1 else 0), 0)
    else if f.fc = 6 then .ok (.writeRegister f.addr (f.values.getD 0 0).toNat, 0)
    else if f.fc = 15 then
      .ok (.writeCoilBits f.addr f.values.length
        (fun i => if i < 16 then rawBits f.values i else stray i), 0)
    else .ok (.writeRegisters f.addr f.values.length (fun i => f.values.getD i 0), 0)
  else .error "fc must be 1-6, 15 or 16"

def rawRefuse (c : Context) (text reason : String) : Context :=
  c.note (.refused (text ++ " -> error refused " ++ reason))

def setSlave (c : Context) (slaveId : ℤ) : Context := { c with slaveId := slaveId }

/-- `modbusmq_post` of a message with this request frame. -/
def post (c : Context) (writer : Frame .writer) : Context :=
  postInternal c (Msg.ofFrame 0 writer) .post

/-- The request a raw text stands for, its frame and what its reply needs. -/
def rawPrepare (c : Context) (echo : List Char) (stray : ℕ → UInt8) :
    Except String (Frame .writer × ℕ × ℕ) :=
  let writes := match c.config with
    | some config => config.rawWrite
    | none => false
  if c.raw.isSome then .error "busy, one request at a time"
  else
    match rawParse writes echo with
    | .error reason => .error reason
    | .ok f =>
      match rawBuild writes f stray with
      | .error reason => .error reason
      | .ok (request, count) =>
        match request.build c.transport f.slave with
        | none => .error "frame could not be built"
        | some writer => .ok (writer, count, f.fc.toNat)

def rawRequest (c : Context) (text : String) (stray : ℕ → UInt8) : ℤ × Context :=
  let trimmed := text.toList.dropWhile isRawSpace
  let echo := (trimmed.reverse.dropWhile isRawSpace).reverse
  match rawPrepare c echo stray with
  | .error reason => (-1, rawRefuse c (String.ofList echo) reason)
  | .ok (writer, count, fc) =>
    let c := post c writer
    (0, { c with raw := some ⟨String.ofList echo, c.reqIdNext, count, fc⟩ })

example : (rawParse true "@7 1 6 0x10 -1".toList).map (fun f => (f.slave, f.fc, f.addr, f.values)) =
    .ok (1, 6, 16, [65535]) := by decide +kernel

theorem rawPrepare_build {c : Context} {echo : List Char} {stray : ℕ → UInt8}
    {writer : Frame .writer} {count fc : ℕ}
    (h : rawPrepare c echo stray = .ok (writer, count, fc)) :
    ∃ (slaveId : ℤ) (request : Request), request.build c.transport slaveId = some writer := by
  unfold rawPrepare at h
  dsimp only at h
  split at h
  · cases h
  · split at h
    · cases h
    · split at h
      · cases h
      · split at h
        · cases h
        · rename_i hbuild
          cases h
          exact ⟨_, _, hbuild⟩

end Modbusmq
