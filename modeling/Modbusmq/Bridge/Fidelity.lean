import Modbusmq.Bridge.Polls
import Modbusmq.Bridge.Writes

/-!
# From the configuration to the wire

The numbers of an accepted configuration, read back from the frames the bridge
builds of them. The validators check a slave number only where it comes from
`module.slave_first`, and no address at all, so what the frames carry is right
exactly for the entries whose numbers happen to fit.
-/

namespace Modbusmq

section

variable (rounded : ℚ → ℚ) (single : ℚ → UInt32) (cast : Double → ℤ) (t : Transport)

/-- The frame an input is polled with, as `main` builds it at start-up. -/
def InputEntry.frame (input : InputEntry) : Frame .writer :=
  pollFrame t input.slave input.type input.address input.addressOffset input.naddress

/-- `naddress` fits one reply. -/
def InputEntry.Answerable (input : InputEntry) : Prop :=
  1 ≤ input.naddress ∧ input.naddress ≤ if ∃ type ∈ input.type, type.IsBit then 2000 else 125

/-- The poll of an input carries its numbers. -/
structure PollFaithful (input : InputEntry) : Prop where
  slave : ((frameSlave t (input.frame t)).toNat : ℤ) = input.slave
  address : (frameAddr t (input.frame t) : ℤ) = input.address + input.addressOffset
  naddress : (frameNaddr t (input.frame t) : ℤ) = input.naddress
  answerable : input.Answerable

/-- Every request of a write entry carries its numbers, and a block ends inside the address
space. -/
def WriteFaithful (write : WriteEntry) : Prop :=
  ∀ values request frame, writeRequest rounded single cast write values = some request →
    request.build t write.slave = some frame →
      ((frameSlave t frame).toNat : ℤ) = write.slave ∧ (frameAddr t frame : ℤ) = write.address ∧
        (write.channels ≠ [] → ∀ r : ℤ, write.address ≤ r → r < write.address + write.naddress →
          0 ≤ r ∧ r ≤ 65535)

/-- The numbers of an input fit their fields. -/
structure InputEntry.InRange (input : InputEntry) : Prop where
  typed : input.type.isSome
  slave : 0 ≤ input.slave ∧ input.slave ≤ 255
  address : 0 ≤ input.address + input.addressOffset ∧ input.address + input.addressOffset ≤ 65535
  answerable : input.Answerable

/-- The numbers of a write fit their fields. -/
structure WriteEntry.InRange (write : WriteEntry) : Prop where
  slave : 0 ≤ write.slave ∧ write.slave ≤ 255
  address : 0 ≤ write.address ∧ write.address ≤ 65535
  block : write.channels ≠ [] → write.address + write.naddress ≤ 65536

/-- Some value can be written through the entry. -/
def WriteEntry.Encodable (write : WriteEntry) : Prop :=
  ∃ values, (writeRequest rounded single cast write values).isSome

variable {rounded single cast t}

theorem pollFaithful_iff (input : InputEntry) : PollFaithful t input ↔ input.InRange := by
  cases htype : input.type with
  | none =>
    -- an unknown type leaves the frame zeroed, which polls nothing
    have hframe : input.frame t = .zero .writer := by
      rw [InputEntry.frame, htype]
      rfl
    constructor
    · intro h
      have hnaddress := h.naddress
      have hzero : frameNaddr t (.zero .writer) = 0 := by cases t <;> decide
      rw [hframe, hzero] at hnaddress
      have hpos := h.answerable.1
      omega
    · intro h
      have htyped := h.typed
      rw [htype] at htyped
      exact nomatch htyped
  | some type =>
    have hframe : input.frame t = frameInit t input.slave type.function
        (cInt (input.address + input.addressOffset)) input.naddress := by
      rw [InputEntry.frame, htype, pollFrame_known]
    obtain ⟨hslave, haddr, hnaddr⟩ := frameInit_carries t input.slave type.function
      (cInt (input.address + input.addressOffset)) input.naddress
    rw [← hframe] at hslave haddr hnaddr
    constructor
    · rintro ⟨hs, ha, hn, hanswer⟩
      exact ⟨by rw [htype]; rfl, by omega, by omega, hanswer⟩
    · rintro ⟨-, hs, ha, hanswer⟩
      have hlimit : (if ∃ type ∈ input.type, type.IsBit then (2000 : ℤ) else 125) ≤ 2000 := by
        split_ifs <;> decide
      have hcount := hanswer
      unfold InputEntry.Answerable at hcount
      rw [cInt_eq (by omega) (by omega)] at haddr
      exact ⟨by omega, by omega, by omega, hanswer⟩

theorem writeFaithful_iff (write : WriteEntry) :
    WriteFaithful rounded single cast t write ↔ (write.Encodable rounded single cast → write.InRange) := by
  constructor
  · rintro h ⟨values, hsome⟩
    obtain ⟨request, hrequest⟩ := Option.isSome_iff_exists.1 hsome
    obtain ⟨frame, hframe⟩ := writeRequest_build hrequest t write.slave
    obtain ⟨hslave, haddr, hblock⟩ := h values request frame hrequest hframe
    obtain ⟨hslaveLow, haddrLow⟩ := Request.build_carries hframe
    refine ⟨by omega, by omega, fun hchannels => ?_⟩
    by_cases hend : write.address + write.naddress ≤ write.address
    · omega
    · have hlast := hblock hchannels (write.address + write.naddress - 1) (by omega) (by omega)
      omega
  · intro h values request frame hrequest hframe
    obtain ⟨hslave, haddress, hblock⟩ := h ⟨values, by rw [hrequest]; rfl⟩
    obtain ⟨hslaveLow, haddrLow⟩ := Request.build_carries hframe
    rw [writeRequest_addr hrequest] at haddrLow
    refine ⟨by omega, by omega, fun hchannels r hlo hhi => ?_⟩
    have hend := hblock hchannels
    omega

/-- The frames built of an accepted configuration carry its numbers exactly when those of
every input, and of every write that can be made at all, fit. -/
theorem accepted_config_faithful_iff (c : AcceptedConfig) :
    ((∀ input ∈ c.config.inputs, PollFaithful t input) ∧
        ∀ write ∈ c.config.writes, WriteFaithful rounded single cast t write) ↔
      (∀ input ∈ c.config.inputs, input.InRange) ∧
        ∀ write ∈ c.config.writes, write.Encodable rounded single cast → write.InRange := by
  simp only [pollFaithful_iff, writeFaithful_iff]

/-- One input, read from `slave = 257`, `type = holding_register`, `address = 0x100` and
`naddress = 2`. -/
def otherSlave : BridgeConfig where
  signedInts := true
  queryMode := .parallell
  moduleCount := 0
  moduleSlaveFirst := 1
  inputs := [((((⟨0, false, none, 0, 0, 0, 1000, []⟩ : InputEntry).set "257" .slave).set
    "holding_register" .type).set "0x100" .address).set "2" .naddress]
  writes := []

/-- The configuration is accepted, and it polls slave 1. -/
theorem accepted_config_polls_another_slave :
    acceptConfig otherSlave = .ok otherSlave ∧
      ∀ input ∈ otherSlave.inputs, input.slave = 257 ∧
        (frameSlave .tcp (input.frame .tcp)).toNat = 1 :=
  ⟨rfl, by decide +kernel⟩

end

end Modbusmq
