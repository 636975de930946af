import Modbusmq.Configuration.Validation
import Modbusmq.Core.Requests
import Modbusmq.Encoding.Blocks

/-!
# The writes of the bridge

The request `modbus_write_post` of `modbusmq.c` builds for a write entry and the
values of a message.
-/

namespace Modbusmq

def IsInt (k : ℤ) : Prop := -2 ^ 31 ≤ k ∧ k < 2 ^ 31

instance (k : ℤ) : Decidable (IsInt k) := inferInstanceAs (Decidable (_ ∧ _))

section

variable (rounded : ℚ → ℚ) (single : ℚ → UInt32) (cast : Double → ℤ)

/-- `(int)d`; C leaves open what it is of a value that does not fit, and `cast` says. -/
def doubleInt (value : Double) : ℤ :=
  match value with
  | some number => if IsInt (truncate number) then truncate number else cast value
  | none => cast value

theorem doubleInt_intCast {k : ℤ} (h : IsInt k) : doubleInt cast (some (k : ℚ)) = k := by
  unfold doubleInt
  dsimp only
  rw [truncate_intCast, if_pos h]

def coilOn (write : WriteEntry) (value : Double) : Bool :=
  if write.hasOnValue then doubleInt cast value = write.onValue else value ≠ some 0

/-- The request of `modbus_write_post`; `values` is missing in the trigger form of a block. -/
def writeRequest (write : WriteEntry) (values : Option (List Double)) : Option Request :=
  if write.channels ≠ [] then
    (writeEncodeBlock rounded single write values (fun _ => 0) 123).map fun result =>
      .writeRegisters write.address result.1 result.2
  else
    let value := (values.getD []).headD (some 0)
    if write.function = .coil then
      some (.writeCoilBit write.address (if coilOn cast write value then 1 else 0))
    else
      match writeEncode rounded single write value with
      | none => none
      | some enc =>
        if enc.length = 1 ∧ write.function ≠ .registers then
          some (.writeRegister write.address (enc.getD 0 0).toNat)
        else some (.writeRegisters write.address enc.length fun i => enc.getD i 0)

def Request.addr : Request → ℤ
  | .readCoilBits addr _ | .readInputBits addr _ | .readHoldingRegisters addr _
  | .readInputRegisters addr _ | .writeCoilBit addr _ | .writeRegister addr _
  | .writeCoilBits addr _ _ | .writeRegisters addr _ _ | .writeMaskRegisters addr _ _ => addr

theorem frameInit_carries (t : Transport) (slaveId : ℤ) (function : UInt8) (addr nb : ℤ) :
    ((frameSlave t (frameInit t slaveId function addr nb)).toNat : ℤ) = slaveId % 256 ∧
      (frameAddr t (frameInit t slaveId function addr nb) : ℤ) = addr % 65536 ∧
      (frameNaddr t (frameInit t slaveId function addr nb) : ℤ) = nb % 65536 := by
  cases t with
  | tcp => exact ⟨byteOf_toNat slaveId, be16_byteOf addr, be16_byteOf nb⟩
  | rtu => exact ⟨byteOf_toNat slaveId, be16_byteOf addr, be16_byteOf nb⟩

theorem pushAll_carries (t : Transport) {f : Frame .writer} (bs : List UInt8)
    (h : initLength t ≤ f.length) :
    frameSlave t (f.pushAll bs) = frameSlave t f ∧ frameAddr t (f.pushAll bs) = frameAddr t f := by
  obtain ⟨-, -, hbuf⟩ := f.pushAll_spec bs
  cases t with
  | tcp =>
    simp only [initLength] at h
    simp only [frameSlave, frameAddr, tcpFrameSlave, tcpFrameAddr]
    rw [hbuf 6 (by omega), hbuf 8 (by omega), hbuf 9 (by omega)]
    exact ⟨rfl, rfl⟩
  | rtu =>
    simp only [initLength] at h
    simp only [frameSlave, frameAddr, rtuFrameSlave, rtuFrameAddr]
    rw [hbuf 0 (by omega), hbuf 2 (by omega), hbuf 3 (by omega)]
    exact ⟨rfl, rfl⟩

/-- A request goes out with the low byte of the slave and the low word of the address. -/
theorem Request.build_carries {t : Transport} {slaveId : ℤ} {request : Request}
    {f : Frame .writer} (h : request.build t slaveId = some f) :
    ((frameSlave t f).toNat : ℤ) = slaveId % 256 ∧
      (frameAddr t f : ℤ) = request.addr % 65536 := by
  have hinit : ∀ {function : UInt8} {addr nb : ℤ} (bs : List UInt8),
      f = (frameInit t slaveId function addr nb).pushAll bs →
        ((frameSlave t f).toNat : ℤ) = slaveId % 256 ∧ (frameAddr t f : ℤ) = addr % 65536 := by
    rintro function addr nb bs rfl
    obtain ⟨hslave, haddr⟩ := pushAll_carries t bs
      (frameInit_length t slaveId addr nb function).ge
    obtain ⟨hslaveInit, haddrInit, -⟩ := frameInit_carries t slaveId function addr nb
    rw [hslave, haddr]
    exact ⟨hslaveInit, haddrInit⟩
  cases request with
  | readCoilBits addr nbits => exact hinit [] (Option.some.inj h).symm
  | readInputBits addr nbits => exact hinit [] (Option.some.inj h).symm
  | readHoldingRegisters addr naddr => exact hinit [] (Option.some.inj h).symm
  | readInputRegisters addr naddr => exact hinit [] (Option.some.inj h).symm
  | writeCoilBit addr value => exact hinit [] (Option.some.inj h).symm
  | writeRegister addr value => exact hinit [] (Option.some.inj h).symm
  | writeCoilBits addr nbits bits =>
    simp only [build, frameWriteCoilBits] at h
    split_ifs at h
    all_goals exact hinit (_ :: _) (Option.some.inj h).symm
  | writeRegisters addr naddr values =>
    simp only [build, frameWriteRegisters] at h
    split_ifs at h
    exact hinit (_ :: _) (Option.some.inj h).symm
  | writeMaskRegisters addr andMask orMask => exact hinit [_, _] (Option.some.inj h).symm

variable {rounded single cast} {write : WriteEntry} {values : Option (List Double)} {request : Request}

theorem writeRequest_cases (h : writeRequest rounded single cast write values = some request) :
    (∃ result, writeEncodeBlock rounded single write values (fun _ => 0) 123 = some result ∧
      request = .writeRegisters write.address result.1 result.2) ∨
    (∃ on, request = .writeCoilBit write.address on) ∨
    (∃ value enc, writeEncode rounded single write value = some enc ∧
      (request = .writeRegister write.address (enc.getD 0 0).toNat ∨
        request = .writeRegisters write.address enc.length fun i => enc.getD i 0)) := by
  unfold writeRequest at h
  by_cases hblock : write.channels ≠ []
  · rw [if_pos hblock] at h
    obtain ⟨result, hresult, rfl⟩ := Option.map_eq_some_iff.1 h
    exact .inl ⟨result, hresult, rfl⟩
  · rw [if_neg hblock] at h
    by_cases hcoil : write.function = .coil
    · dsimp only at h
      rw [if_pos hcoil] at h
      exact .inr (.inl ⟨_, (Option.some.inj h).symm⟩)
    · dsimp only at h
      rw [if_neg hcoil] at h
      refine .inr (.inr ⟨(values.getD []).headD (some 0), ?_⟩)
      cases henc : writeEncode rounded single write ((values.getD []).headD (some 0)) with
      | none =>
        rw [henc] at h
        exact nomatch h
      | some enc =>
        rw [henc] at h
        dsimp only at h
        split_ifs at h
        · exact ⟨enc, rfl, .inl (Option.some.inj h).symm⟩
        · exact ⟨enc, rfl, .inr (Option.some.inj h).symm⟩

theorem writeRequest_addr (h : writeRequest rounded single cast write values = some request) :
    request.addr = write.address := by
  rcases writeRequest_cases h with ⟨result, -, rfl⟩ | ⟨on, rfl⟩ | ⟨value, enc, -, rfl | rfl⟩
  all_goals rfl

theorem writeEncodeBlock_count {regs : ℕ → UInt16} {room : ℤ} {result : ℤ × (ℕ → UInt16)}
    (h : writeEncodeBlock rounded single write values regs room = some result) :
    result.1 = write.naddress ∧ 0 < result.1 ∧ result.1 ≤ room := by
  unfold writeEncodeBlock at h
  dsimp only at h
  split_ifs at h with hempty hroom hlength
  obtain ⟨patches, -, rfl⟩ := Option.map_eq_some_iff.1 h
  exact ⟨rfl, by dsimp only; omega, by dsimp only; omega⟩

theorem writeEncode_length {value : Double} {enc : List UInt16}
    (h : writeEncode rounded single write value = some enc) :
    enc.length = 1 ∨ enc.length = 2 := by
  unfold writeEncode encodeScaled at h
  rcases value with _ | value
  · exact nomatch h
  · dsimp only at h
    generalize scaledRaw rounded write.format write.add write.mod write.mul value = raw at h
    split_ifs at h with hbounds
    cases hbytes : encodeValue write.format raw (single raw) with
    | none =>
      rw [hbytes] at h
      exact nomatch h
    | some bytes =>
      rw [hbytes] at h
      dsimp only at h
      split_ifs at h with hsize
      obtain rfl := Option.some.inj h
      rw [packRegisters_length]
      omega

theorem writeRequest_build (h : writeRequest rounded single cast write values = some request)
    (t : Transport) (slaveId : ℤ) : ∃ f, request.build t slaveId = some f := by
  have hregisters : ∀ {addr naddr : ℤ} {regs : ℕ → UInt16}, 0 < naddr → naddr ≤ 123 →
      ∃ f, (Request.writeRegisters addr naddr regs).build t slaveId = some f := by
    intro addr naddr regs hpos hmax
    refine ⟨_, (if_neg (by omega)).trans (if_neg ?_)⟩
    rw [frameInit_length]
    unfold frameMax
    cases t with
    | tcp =>
      simp only [initLength]
      omega
    | rtu =>
      simp only [initLength]
      omega
  rcases writeRequest_cases h with ⟨result, hresult, rfl⟩ | ⟨on, rfl⟩ | ⟨value, enc, henc, rfl | rfl⟩
  · obtain ⟨-, hpos, hmax⟩ := writeEncodeBlock_count hresult
    exact hregisters hpos hmax
  · exact ⟨_, rfl⟩
  · exact ⟨_, rfl⟩
  · have hlength := writeEncode_length henc
    exact hregisters (by omega) (by omega)

end

end Modbusmq
