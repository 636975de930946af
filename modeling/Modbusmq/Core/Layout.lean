import Modbusmq.Core.Requests
import Modbusmq.Library.PackedBits

/-!
# Requests by the Modbus layout

What a device reads in a request: the MBAP header or the slave number and the
CRC around the PDU, and in the PDU the fields in their order, two-byte numbers
high byte first. The frames of the builders say exactly what was asked.
-/

namespace Modbusmq

inductive Pdu
  | read (function : UInt8) (addr count : ℕ)
  | writeSingle (function : UInt8) (addr value : ℕ)
  | writeCoils (addr count byteCount : ℕ) (coils : List Bool)
  | writeRegisters (addr count byteCount : ℕ) (values : List ℕ)
  | writeMask (addr andMask orMask : ℕ)
  deriving DecidableEq

/-- Coil `i` of packed data, counted from the low bit of the first byte. -/
def coilAt (data : List UInt8) (i : ℕ) : Bool := PackedBits.get (fun k => data.getD k 0) i

/-- The coils in the data of a write, whose padding is zero. -/
def parseCoils (count : ℕ) (data : List UInt8) : Option (List Bool) :=
  if data.length = (count + 7) / 8 ∧ ∀ i < 8 * data.length, count ≤ i → coilAt data i = false then
    some ((List.range count).map (coilAt data))
  else none

def parseWords : List UInt8 → Option (List ℕ)
  | [] => some []
  | [_] => none
  | hi :: lo :: rest => (parseWords rest).map (be16 hi lo :: ·)

def parseCounted : List UInt8 → Option (ℕ × List UInt8)
  | [] => none
  | n :: data => if n.toNat = data.length then some (n.toNat, data) else none

def Pdu.parse : List UInt8 → Option Pdu
  | function :: a :: b :: c :: d :: rest =>
    let addr := be16 a b
    let second := be16 c d
    if IsRead function then if rest = [] then some (.read function addr second) else none
    else if function = writeSingleCoil ∨ function = writeSingleRegister then
      if rest = [] then some (.writeSingle function addr second) else none
    else if function = writeMultipleCoils then do
      let (byteCount, data) ← parseCounted rest
      let coils ← parseCoils second data
      return .writeCoils addr second byteCount coils
    else if function = writeMultipleRegisters then do
      let (byteCount, data) ← parseCounted rest
      let values ← parseWords data
      if values.length = second then some (.writeRegisters addr second byteCount values) else none
    else if function = maskWriteRegister then
      match rest with
      | [hi, lo] => some (.writeMask addr second (be16 hi lo))
      | _ => none
    else none
  | _ => none

/-- A request frame read by the layout of its transport: the slave and the PDU. -/
def parseFrame : Transport → List UInt8 → Option (ℕ × Pdu)
  | .tcp, _ :: _ :: p₁ :: p₀ :: n₁ :: n₀ :: slave :: pdu =>
    if be16 p₁ p₀ = 0 ∧ be16 n₁ n₀ = (slave :: pdu).length then
      (Pdu.parse pdu).map fun pdu => (slave.toNat, pdu)
    else none
  | .tcp, _ => none
  | .rtu, bytes =>
    match bytes.take (bytes.length - 2), bytes.drop (bytes.length - 2) with
    | slave :: pdu, [lo, hi] =>
      if be16 hi lo = (rtuCrc16 (slave :: pdu)).toNat then
        (Pdu.parse pdu).map fun pdu => (slave.toNat, pdu)
      else none
    | _, _ => none

def Request.pdu : Request → Pdu
  | readCoilBits addr nbits => .read readCoils addr.toNat nbits.toNat
  | readInputBits addr nbits => .read readDiscreteInputs addr.toNat nbits.toNat
  | readHoldingRegisters addr naddr => .read Modbusmq.readHoldingRegisters addr.toNat naddr.toNat
  | readInputRegisters addr naddr => .read Modbusmq.readInputRegisters addr.toNat naddr.toNat
  | writeCoilBit addr value =>
    .writeSingle writeSingleCoil addr.toNat (if value ≠ 0 then 0xff00 else 0)
  | writeRegister addr value => .writeSingle writeSingleRegister addr.toNat value.toNat
  | writeCoilBits addr nbits bits =>
    .writeCoils addr.toNat nbits.toNat ((nbits.toNat + 7) / 8)
      ((List.range nbits.toNat).map fun i => bits i ≠ 0)
  | writeRegisters addr naddr values =>
    .writeRegisters addr.toNat naddr.toNat (2 * naddr.toNat)
      ((List.range naddr.toNat).map fun i => (values i).toNat)
  | writeMaskRegisters addr andMask orMask => .writeMask addr.toNat andMask.toNat orMask.toNat

def FitsWord (x : ℤ) : Prop := 0 ≤ x ∧ x ≤ 65535

/-- The numbers of a request fit their fields, and the counts are those that a write may have. -/
def Request.InLimits : Request → Prop
  | readCoilBits addr count | readInputBits addr count | readHoldingRegisters addr count
  | readInputRegisters addr count => FitsWord addr ∧ FitsWord count
  | writeCoilBit addr _ => FitsWord addr
  | writeRegister addr value => FitsWord addr ∧ FitsWord value
  | writeCoilBits addr nbits _ => FitsWord addr ∧ 1 ≤ nbits ∧ nbits ≤ 1968
  | writeRegisters addr naddr _ => FitsWord addr ∧ 1 ≤ naddr ∧ naddr ≤ 123
  | writeMaskRegisters addr andMask orMask => FitsWord addr ∧ FitsWord andMask ∧ FitsWord orMask

theorem packCoils_testBit (nbits : ℕ) (bits : ℕ → UInt8) (ibyte k : ℕ) :
    (packCoils nbits bits ibyte).toNat.testBit k =
      decide (k < 8 ∧ ibyte * 8 + k < nbits ∧ bits (ibyte * 8 + k) ≠ 0) := by
  have hshift : ∀ n < 8, ((1 : UInt8) <<< UInt8.ofNat n).toNat = 2 ^ n := by decide
  have hfold : ∀ n ≤ 8, ((List.range n).foldl (fun byte ibit =>
      if nbits ≤ ibyte * 8 + ibit then byte
      else byte ||| (if bits (ibyte * 8 + ibit) ≠ 0 then 1 else 0) <<< UInt8.ofNat ibit)
      (0 : UInt8)).toNat.testBit k =
        decide (k < n ∧ ibyte * 8 + k < nbits ∧ bits (ibyte * 8 + k) ≠ 0) := by
    intro n hn
    induction n with
    | zero => simp
    | succ n ih =>
      rw [List.range_succ, List.foldl_append, List.foldl_cons, List.foldl_nil]
      specialize ih (by omega)
      have hsplit : (k < n + 1 ∧ ibyte * 8 + k < nbits ∧ bits (ibyte * 8 + k) ≠ 0) ↔
          (k < n ∧ ibyte * 8 + k < nbits ∧ bits (ibyte * 8 + k) ≠ 0) ∨
            k = n ∧ ibyte * 8 + n < nbits ∧ bits (ibyte * 8 + n) ≠ 0 := by
        constructor
        · rintro ⟨hk, hbits⟩
          rcases Nat.lt_succ_iff_lt_or_eq.1 hk with hlt | rfl
          · exact .inl ⟨hlt, hbits⟩
          · exact .inr ⟨rfl, hbits⟩
        · rintro (⟨hk, hbits⟩ | ⟨rfl, hbits⟩)
          · exact ⟨by omega, hbits⟩
          · exact ⟨by omega, hbits⟩
      split_ifs with hpad hset
      · rw [ih, decide_eq_decide, hsplit, or_iff_left]
        rintro ⟨-, hlt, -⟩
        omega
      · rw [UInt8.toNat_or, Nat.testBit_or, ih, hshift n (by omega), Nat.testBit_two_pow,
          ← Bool.decide_or, decide_eq_decide, hsplit]
        have hin : ibyte * 8 + n < nbits := by omega
        exact or_congr_right ⟨fun h => ⟨h.symm, hin, hset⟩, fun h => h.1.symm⟩
      · rw [UInt8.zero_shiftLeft, UInt8.or_zero, ih, decide_eq_decide, hsplit, or_iff_left]
        rintro ⟨-, -, hone⟩
        exact hset hone
  exact hfold 8 le_rfl

/-- The data of a coil write holds one coil to a bit, and zeros behind the last. -/
theorem coilAt_packCoils {nbits nb i : ℕ} (bits : ℕ → UInt8) (hi : i < 8 * nb) :
    coilAt ((List.range nb).map (packCoils nbits bits)) i = decide (i < nbits ∧ bits i ≠ 0) := by
  have hbyte : i / 8 < nb := by omega
  have hplace : i / 8 * 8 + i % 8 = i := by omega
  unfold coilAt PackedBits.get
  dsimp only
  rw [List.getD_eq_getElem _ _ (by simpa using hbyte), List.getElem_map, List.getElem_range,
    packCoils_testBit, hplace, decide_eq_decide]
  exact and_iff_right (Nat.mod_lt i (by decide))

theorem parseCoils_packCoils {nbits nb : ℕ} (bits : ℕ → UInt8) (hnb : nb = (nbits + 7) / 8) :
    parseCoils nbits ((List.range nb).map (packCoils nbits bits)) =
      some ((List.range nbits).map fun i => decide (bits i ≠ 0)) := by
  unfold parseCoils
  rw [if_pos]
  · congr 1
    apply List.map_congr_left
    intro i hi
    rw [List.mem_range] at hi
    rw [coilAt_packCoils bits (by omega), decide_eq_decide]
    exact and_iff_right hi
  · rw [List.length_map, List.length_range]
    refine ⟨hnb, fun i hi hpad => ?_⟩
    rw [coilAt_packCoils bits hi, decide_eq_false]
    omega

/-- The fields a request frame is made of, `second` being a count, a value or a mask. -/
structure RequestParts where
  function : UInt8
  addr : ℤ
  second : ℤ
  tail : List UInt8

def valueBytes (naddr : ℕ) (values : ℕ → UInt16) : List UInt8 :=
  (List.range naddr).flatMap fun i =>
    [UInt8.ofNat ((values i).toNat / 256), UInt8.ofNat (values i).toNat]

def Request.parts : Request → RequestParts
  | readCoilBits addr nbits => ⟨readCoils, addr, nbits, []⟩
  | readInputBits addr nbits => ⟨readDiscreteInputs, addr, nbits, []⟩
  | readHoldingRegisters addr naddr => ⟨Modbusmq.readHoldingRegisters, addr, naddr, []⟩
  | readInputRegisters addr naddr => ⟨Modbusmq.readInputRegisters, addr, naddr, []⟩
  | writeCoilBit addr value => ⟨writeSingleCoil, addr, if value ≠ 0 then 0xff00 else 0, []⟩
  | writeRegister addr value => ⟨writeSingleRegister, addr, value, []⟩
  | writeCoilBits addr nbits bits =>
    ⟨writeMultipleCoils, addr, nbits, UInt8.ofNat ((nbits.toNat + 7) / 8) ::
      (List.range ((nbits.toNat + 7) / 8)).map (packCoils nbits.toNat bits)⟩
  | writeRegisters addr naddr values =>
    ⟨writeMultipleRegisters, addr, naddr,
      UInt8.ofNat (naddr.toNat * 2) :: valueBytes naddr.toNat values⟩
  | writeMaskRegisters addr andMask orMask =>
    ⟨maskWriteRegister, addr, andMask, [byteOf (orMask / 256), byteOf orMask]⟩

def RequestParts.bytes (parts : RequestParts) : List UInt8 :=
  parts.function :: byteOf (parts.addr / 256) :: byteOf parts.addr ::
    byteOf (parts.second / 256) :: byteOf parts.second :: parts.tail

theorem valueBytes_length (naddr : ℕ) (values : ℕ → UInt16) :
    (valueBytes naddr values).length = 2 * naddr := by
  simp [valueBytes, mul_comm]

/-- Within the limits every builder accepts, and lays its parts down in order. -/
theorem Request.build_parts {request : Request} (h : request.InLimits) (t : Transport)
    (slaveId : ℤ) : request.build t slaveId = some
      ((frameInit t slaveId request.parts.function request.parts.addr request.parts.second).pushAll
        request.parts.tail) := by
  cases request with
  | writeCoilBits addr nbits bits =>
    obtain ⟨-, hlo, hhi⟩ := h
    have hnb : nbits.toNat / 8 + (if nbits.toNat % 8 ≠ 0 then 1 else 0) = (nbits.toNat + 7) / 8 := by
      split_ifs <;> omega
    have hheader : initLength t ≤ 12 := by cases t <;> decide
    simp only [build, frameWriteCoilBits]
    rw [if_neg (by omega), hnb, frameInit_length, if_neg (by unfold frameMax; omega)]
    rfl
  | writeRegisters addr naddr values =>
    obtain ⟨-, hlo, hhi⟩ := h
    have hheader : initLength t ≤ 12 := by cases t <;> decide
    simp only [build, frameWriteRegisters]
    rw [if_neg (by omega), frameInit_length, if_neg (by unfold frameMax; omega)]
    rfl
  | _ => rfl

theorem Request.tail_length {request : Request} (h : request.InLimits) :
    request.parts.tail.length ≤ 247 := by
  cases request with
  | writeCoilBits addr nbits bits =>
    obtain ⟨-, hlo, hhi⟩ := h
    simp only [parts, List.length_cons, List.length_map, List.length_range]
    omega
  | writeRegisters addr naddr values =>
    obtain ⟨-, hlo, hhi⟩ := h
    simp only [parts, List.length_cons, valueBytes_length]
    omega
  | writeMaskRegisters addr andMask orMask => exact show 2 ≤ 247 by decide
  | _ => exact Nat.zero_le 247

theorem be16_fits {x : ℤ} (h : FitsWord x) : be16 (byteOf (x / 256)) (byteOf x) = x.toNat := by
  have hword := be16_byteOf x
  obtain ⟨hlo, hhi⟩ := h
  omega

theorem parseWords_valueBytes (naddr : ℕ) (values : ℕ → UInt16) :
    parseWords (valueBytes naddr values) =
      some ((List.range naddr).map fun i => (values i).toNat) := by
  unfold valueBytes
  generalize List.range naddr = places
  induction places with
  | nil => rfl
  | cons i places ih =>
    have hword : be16 (UInt8.ofNat ((values i).toNat / 256)) (UInt8.ofNat (values i).toNat) =
        (values i).toNat := by
      have hlt := (values i).toNat_lt
      rw [be16_eq, UInt8.toNat_ofNat', UInt8.toNat_ofNat']
      omega
    rw [List.flatMap_cons, List.cons_append, List.cons_append, List.nil_append, List.map_cons]
    change (parseWords _).map _ = _
    rw [ih, hword, Option.map_some]

theorem parseCounted_cons {n : ℕ} {data : List UInt8} (hlength : data.length = n) (hn : n < 256) :
    parseCounted (UInt8.ofNat n :: data) = some (n, data) := by
  have htoNat : (UInt8.ofNat n).toNat = n := by
    rw [UInt8.toNat_ofNat']
    exact Nat.mod_eq_of_lt hn
  unfold parseCounted
  dsimp only
  rw [htoNat, if_pos hlength.symm]

theorem Request.parse_bytes {request : Request} (h : request.InLimits) :
    Pdu.parse request.parts.bytes = some request.pdu := by
  have hread : ∀ {function : UInt8} {addr count : ℤ}, IsRead function → FitsWord addr →
      FitsWord count → Pdu.parse (RequestParts.bytes ⟨function, addr, count, []⟩) =
        some (.read function addr.toNat count.toNat) := by
    intro function addr count hfunction haddr hcount
    unfold RequestParts.bytes Pdu.parse
    dsimp only
    rw [if_pos hfunction, if_pos rfl, be16_fits haddr, be16_fits hcount]
  have hsingle : ∀ {function : UInt8} {addr value : ℤ},
      function = writeSingleCoil ∨ function = writeSingleRegister → FitsWord addr →
      FitsWord value → Pdu.parse (RequestParts.bytes ⟨function, addr, value, []⟩) =
        some (.writeSingle function addr.toNat value.toNat) := by
    intro function addr value hfunction haddr hvalue
    have hnot : ¬ IsRead function := by rcases hfunction with rfl | rfl <;> decide
    unfold RequestParts.bytes Pdu.parse
    dsimp only
    rw [if_neg hnot, if_pos hfunction, if_pos rfl, be16_fits haddr, be16_fits hvalue]
  cases request with
  | readCoilBits addr nbits => exact hread (by decide) h.1 h.2
  | readInputBits addr nbits => exact hread (by decide) h.1 h.2
  | readHoldingRegisters addr naddr => exact hread (by decide) h.1 h.2
  | readInputRegisters addr naddr => exact hread (by decide) h.1 h.2
  | writeCoilBit addr value =>
    have hvalue : FitsWord (if value ≠ 0 then 0xff00 else 0) := by
      unfold FitsWord
      split_ifs <;> decide
    refine (hsingle (.inl rfl) h hvalue).trans ?_
    unfold pdu
    dsimp only
    split_ifs <;> rfl
  | writeRegister addr value => exact hsingle (.inr rfl) h.1 h.2
  | writeCoilBits addr nbits bits =>
    obtain ⟨haddr, hlo, hhi⟩ := h
    have hcount : FitsWord nbits := ⟨by omega, by omega⟩
    have hlength : ((List.range ((nbits.toNat + 7) / 8)).map (packCoils nbits.toNat bits)).length =
        (nbits.toNat + 7) / 8 := by simp
    have hdata := parseCounted_cons hlength (by omega)
    simp only [parts, RequestParts.bytes, Pdu.parse]
    rw [if_neg (by decide), if_neg (by decide), if_pos trivial, be16_fits haddr,
      be16_fits hcount, hdata]
    change (parseCoils nbits.toNat _ >>= _) = _
    rw [parseCoils_packCoils bits rfl]
    rfl
  | writeRegisters addr naddr values =>
    obtain ⟨haddr, hlo, hhi⟩ := h
    have hcount : FitsWord naddr := ⟨by omega, by omega⟩
    have hdata := parseCounted_cons (valueBytes_length naddr.toNat values) (by omega)
    simp only [parts, RequestParts.bytes, Pdu.parse]
    rw [if_neg (by decide), if_neg (by decide), if_neg (by decide), if_pos trivial, be16_fits haddr,
      be16_fits hcount, mul_comm naddr.toNat 2, hdata]
    change (parseWords _ >>= _) = _
    rw [parseWords_valueBytes]
    change (if _ then _ else _) = _
    rw [if_pos (by simp)]
    rfl
  | writeMaskRegisters addr andMask orMask =>
    obtain ⟨haddr, hand, hor⟩ := h
    simp only [parts, RequestParts.bytes, Pdu.parse]
    rw [if_neg (by decide), if_neg (by decide), if_neg (by decide), if_neg (by decide),
      if_pos trivial, be16_fits haddr, be16_fits hand, be16_fits hor]
    rfl

/-- What `frame_init` leaves in front of the slave number. -/
def slaveOffset : Transport → ℕ
  | .tcp => 6
  | .rtu => 0

theorem frameInit_bytes (t : Transport) (slaveId : ℤ) (parts : RequestParts) :
    let f := (frameInit t slaveId parts.function parts.addr parts.second).pushAll parts.tail
    f.bytes f.length = List.replicate (slaveOffset t) 0 ++ byteOf slaveId :: parts.bytes := by
  dsimp only
  rw [Frame.bytes_pushAll]
  cases t <;> rfl

theorem tcpMsgPrepare_bytes {m : Msg} {body : List UInt8} (transactionId : ℕ)
    (h : m.writer.bytes m.writer.length = List.replicate 6 0 ++ body) :
    let w := (tcpMsgPrepare transactionId m).writer
    w.length = 6 + body.length ∧ w.bytes w.length =
      byteOf (transactionId / 256) :: byteOf transactionId :: 0 :: 0 ::
        byteOf ((body.length : ℤ) / 256) :: byteOf body.length :: body := by
  have hlength : m.writer.length = 6 + body.length := by
    rw [← m.writer.bytes_length m.writer.length, h, List.length_append, List.length_replicate]
  rw [hlength, Frame.bytes_add] at h
  obtain ⟨hheader, hbody⟩ := List.append_inj h (by simp)
  have hprotocol : m.writer.buf 2 = 0 ∧ m.writer.buf 3 = 0 :=
    ⟨congrArg (fun bytes => bytes.getD 2 0) hheader, congrArg (fun bytes => bytes.getD 3 0) hheader⟩
  refine ⟨hlength, ?_⟩
  change Frame.bytes _ m.writer.length = _
  rw [hlength, Frame.bytes_add]
  have hrest : (List.range body.length).map
      (fun i => (tcpMsgPrepare transactionId m).writer.buf (6 + i)) = body := by
    refine Eq.trans (List.map_congr_left fun i _ => ?_) hbody
    have hkept : ∀ k < 6, 6 + i ≠ k := by omega
    unfold tcpMsgPrepare Frame.poke
    dsimp only
    rw [Function.update_of_ne (hkept 5 (by decide)), Function.update_of_ne (hkept 4 (by decide)),
      Function.update_of_ne (hkept 1 (by decide)), Function.update_of_ne (hkept 0 (by decide))]
  have hfirst : (tcpMsgPrepare transactionId m).writer.bytes 6 =
      [byteOf (transactionId / 256), byteOf transactionId, m.writer.buf 2, m.writer.buf 3,
        byteOf (((m.writer.length : ℤ) - 6) / 256), byteOf ((m.writer.length : ℤ) - 6)] := rfl
  have hbytes : (m.writer.length : ℤ) - 6 = body.length := by omega
  rw [hrest, hfirst, hprotocol.1, hprotocol.2, hbytes]
  rfl

theorem rtuMsgPrepare_bytes {m : Msg} {body : List UInt8}
    (h : m.writer.bytes m.writer.length = body) :
    let w := (rtuMsgPrepare m).writer
    w.length = body.length + 2 ∧ w.bytes w.length = body ++
      [byteOf (rtuCrc16 body).toNat, byteOf ((rtuCrc16 body).toNat / 256)] := by
  subst h
  refine ⟨by rw [Frame.bytes_length]; rfl, ?_⟩
  exact Frame.bytes_pushAll m.writer [_, _]

theorem be16_byteOf_nat {n : ℕ} (h : n < 65536) :
    be16 (byteOf ((n : ℤ) / 256)) (byteOf n) = n :=
  be16_fits ⟨Int.natCast_nonneg n, by omega⟩

theorem parseFrame_rtu (slave : UInt8) (pdu : List UInt8) (lo hi : UInt8) :
    parseFrame .rtu (slave :: pdu ++ [lo, hi]) =
      if be16 hi lo = (rtuCrc16 (slave :: pdu)).toNat then
        (Pdu.parse pdu).map fun pdu => (slave.toNat, pdu)
      else none := by
  have hbody : (slave :: pdu ++ [lo, hi]).length - 2 = (slave :: pdu).length := by simp
  simp only [parseFrame]
  rw [hbody, List.take_left, List.drop_left]

theorem parseFrame_prepared {t : Transport} {m : Msg} {slave : UInt8} {pdu : List UInt8}
    (transactionId : ℕ) (hlength : pdu.length < 256)
    (h : m.writer.bytes m.writer.length = List.replicate (slaveOffset t) 0 ++ slave :: pdu) :
    let w := (preparedMsg t transactionId m).writer
    parseFrame t (w.bytes w.length) = (Pdu.parse pdu).map fun pdu => (slave.toNat, pdu) := by
  dsimp only
  cases t with
  | tcp =>
    obtain ⟨-, hbytes⟩ := tcpMsgPrepare_bytes transactionId h
    change parseFrame .tcp ((tcpMsgPrepare transactionId m).writer.bytes
      (tcpMsgPrepare transactionId m).writer.length) = _
    rw [hbytes]
    change (if _ then _ else _) = _
    rw [if_pos]
    exact ⟨by decide, be16_byteOf_nat (by simp only [List.length_cons]; omega)⟩
  | rtu =>
    obtain ⟨-, hbytes⟩ := rtuMsgPrepare_bytes
      (show m.writer.bytes m.writer.length = slave :: pdu from h)
    change parseFrame .rtu ((rtuMsgPrepare m).writer.bytes (rtuMsgPrepare m).writer.length) = _
    rw [hbytes, parseFrame_rtu, if_pos (be16_byteOf_nat (rtuCrc16 (slave :: pdu)).toNat_lt)]

theorem tcpMsgPrepare_declared {m : Msg} (transactionId : ℕ) (hlo : 6 ≤ m.writer.length)
    (hhi : m.writer.length ≤ frameMax) :
    tcpDeclared (tcpMsgPrepare transactionId m).writer =
      (tcpMsgPrepare transactionId m).writer.length := by
  unfold frameMax at hhi
  have hfits : FitsWord ((m.writer.length : ℤ) - 6) := ⟨by omega, by omega⟩
  have hword := be16_fits hfits
  change be16 (byteOf (((m.writer.length : ℤ) - 6) / 256)) (byteOf ((m.writer.length : ℤ) - 6)) + 6 =
    m.writer.length
  omega

theorem rtuMsgPrepare_crc (m : Msg) :
    rtuCarriedCrc (rtuMsgPrepare m).writer (rtuMsgPrepare m).writer.length =
      rtuComputedCrc (rtuMsgPrepare m).writer (rtuMsgPrepare m).writer.length := by
  obtain ⟨hlength, hbytes⟩ := rtuMsgPrepare_bytes (rfl : m.writer.bytes m.writer.length = _)
  have hcovered : (rtuMsgPrepare m).writer.bytes m.writer.length =
      m.writer.bytes m.writer.length := by
    rw [hlength, Frame.bytes_length, Frame.bytes_add] at hbytes
    exact (List.append_inj hbytes (by simp)).1
  have hhigh : (rtuMsgPrepare m).writer.buf (m.writer.length + 1) =
      byteOf ((rtuCrc16 (m.writer.bytes m.writer.length)).toNat / 256) := Function.update_self ..
  have hlow : (rtuMsgPrepare m).writer.buf m.writer.length =
      byteOf (rtuCrc16 (m.writer.bytes m.writer.length)).toNat :=
    (Function.update_of_ne (Nat.lt_succ_self _).ne _ _).trans (Function.update_self ..)
  have htwo : (rtuMsgPrepare m).writer.length = m.writer.length + 2 := rfl
  unfold rtuCarriedCrc rtuComputedCrc
  rw [htwo, Nat.add_sub_cancel, hcovered, show m.writer.length + 2 - 1 = m.writer.length + 1 by omega,
    hhigh, hlow, be16_byteOf_nat (rtuCrc16 _).toNat_lt]

theorem Request.parse_prepared {t : Transport} {slaveId : ℤ} (hslave : 0 ≤ slaveId ∧ slaveId ≤ 255)
    {request : Request} (hlimits : request.InLimits) {m : Msg}
    (hbuild : request.build t slaveId = some m.writer) (transactionId : ℕ) :
    let w := (preparedMsg t transactionId m).writer
    parseFrame t (w.bytes w.length) = some (slaveId.toNat, request.pdu) := by
  have hbytes := frameInit_bytes t slaveId request.parts
  rw [Request.build_parts hlimits] at hbuild
  dsimp only at hbytes ⊢
  rw [Option.some.inj hbuild] at hbytes
  have htail := Request.tail_length hlimits
  have hparsed := parseFrame_prepared transactionId
    (by simp only [RequestParts.bytes, List.length_cons]; omega) hbytes
  have hbyte := byteOf_toNat slaveId
  have hslaveByte : (byteOf slaveId).toNat = slaveId.toNat := by omega
  rw [Request.parse_bytes hlimits, Option.map_some, hslaveByte] at hparsed
  exact hparsed

/-- The frame built for a request fits the buffer, and a device reads exactly that request in it,
on either transport. -/
theorem request_frame_decodes (t : Transport) {slaveId : ℤ} (hslave : 0 ≤ slaveId ∧ slaveId ≤ 255)
    {request : Request} (hlimits : request.InLimits) :
    ∃ f, request.build t slaveId = some f ∧ ∀ (transactionId : ℕ) (m : Msg), m.writer = f →
      let w := (preparedMsg t transactionId m).writer
      w.length ≤ frameMax ∧
        parseFrame t (w.bytes w.length) = some (slaveId.toNat, request.pdu) ∧
        (t = .tcp → tcpDeclared w = w.length) ∧
        (t = .rtu → rtuCarriedCrc w w.length = rtuComputedCrc w w.length) := by
  have hbuild := Request.build_parts hlimits t slaveId
  refine ⟨_, hbuild, fun transactionId m hm => ?_⟩
  have hbuilt := Request.build_built hbuild
  rw [← hm] at hbuild hbuilt
  have hframe := preparedMsg_requestFrame transactionId hbuilt
  refine ⟨hframe.fits, Request.parse_prepared hslave hlimits hbuild transactionId, ?_, ?_⟩
  · rintro rfl
    have hheader := hbuilt.header
    exact tcpMsgPrepare_declared transactionId (le_trans (by decide) hheader) hframe.fits
  · rintro rfl
    exact rtuMsgPrepare_crc m

/-- Nine coils, the first and the last on: a full byte and one bit of the next. -/
theorem request_frame_decodes_example :
    ∃ f, (Request.writeCoilBits 19 9 fun i => if i % 8 = 0 then 1 else 0).build .rtu 17 = some f ∧
      ∀ (transactionId : ℕ) (m : Msg), m.writer = f →
        let w := (preparedMsg .rtu transactionId m).writer
        parseFrame .rtu (w.bytes w.length) = some (17, .writeCoils 19 9 2
          [true, false, false, false, false, false, false, false, true]) := by
  have hslave : (0 : ℤ) ≤ 17 ∧ (17 : ℤ) ≤ 255 := by decide
  have hlimits : (Request.writeCoilBits 19 9 fun i => if i % 8 = 0 then 1 else 0).InLimits :=
    ⟨⟨by decide, by decide⟩, by decide, by decide⟩
  obtain ⟨f, hbuild, hdecodes⟩ := request_frame_decodes .rtu hslave hlimits
  exact ⟨f, hbuild, fun transactionId m hm => (hdecodes transactionId m hm).2.1⟩

end Modbusmq
