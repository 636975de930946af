import Modbusmq.Configuration.Blocks
import Modbusmq.Library.Patch

/-!
# Encoding values to be written

`modbusmq_encode_scaled` and `modbusmq_write_encode_block`. A `double` is the
rational it is; what an operation on doubles makes of the exact result is a
parameter, and so is the conversion to `float`.
-/

namespace Modbusmq

section

variable (rounded : ℚ → ℚ) (single : ℚ → UInt32)

/-- The scaling of `modbusmq_read_channel`, undone in reverse order. -/
def unscale (add mod mul : ℤ) (value : ℚ) : ℚ :=
  let raw := if mul ≠ 0 then rounded (value / mul) else value
  let raw :=
    if 0 < mod then rounded (raw / mod) else if mod < 0 then rounded (raw * -mod) else raw
  rounded (raw - add)

def scaledBounds : DataFormat → ℤ × ℤ
  | .int8 => (-128, 127)
  | .a => (0, 255)
  | .int16_ab | .int16_ba => (-32768, 32767)
  | .ab | .ba => (-32768, 65535)
  | .uint32_abcd | .uint32_badc => (0, 4294967295)
  | _ => (-2147483648, 2147483647)

/-- The raw value of a channel: a `float` as it is, an integer rounded half away from zero. What
cannot round into the range is left alone. -/
def scaledRaw (format : DataFormat) (add mod mul : ℤ) (value : ℚ) : ℚ :=
  let raw := unscale rounded add mod mul value
  let (lo, hi) := scaledBounds format
  if ¬ format.IsFloat ∧ (lo : ℚ) - 1 ≤ raw ∧ raw ≤ hi + 1 then
    if raw < 0 then -(truncate (rounded (-raw + 1 / 2)) : ℚ)
    else truncate (rounded (raw + 1 / 2))
  else raw

def packRegisters : List UInt8 → List UInt16
  | hi :: lo :: rest => UInt16.ofNat (be16 hi lo) :: packRegisters rest
  | _ => []

def encodeScaled (format : DataFormat) (add mod mul : ℤ) (value : Double) :
    Option (List UInt16) :=
  match value with
  | none => none
  | some value =>
    let raw := scaledRaw rounded format add mod mul value
    let (lo, hi) := scaledBounds format
    if ¬ format.IsFloat ∧ (raw < lo ∨ hi < raw) then none
    else
      match encodeValue format raw (single raw) with
      | none => none
      | some bytes =>
        if bytes.length ≠ 2 ∧ bytes.length ≠ 4 then none else some (packRegisters bytes)

def writeEncode (write : WriteEntry) (value : Double) : Option (List UInt16) :=
  encodeScaled rounded single write.format write.add write.mod write.mul value

def writeChannelEncode (channel : WriteChannel) (value : Double) : Option (List UInt16) :=
  encodeScaled rounded single channel.format channel.add channel.mod channel.mul value

/-- The registers one channel writes; it has no value in the trigger form without a default. -/
def blockPatch (naddress : ℤ) (channel : WriteChannel) (value : Option Double) :
    Option (Patch UInt16) :=
  match value with
  | none => none
  | some value =>
    match writeChannelEncode rounded single channel value with
    | none => none
    | some enc =>
      let first := channel.offset.tdiv 2
      if channel.offset.tmod 2 ≠ 0 ∨ first < 0 ∨ naddress < first + enc.length then none
      else some ⟨first.toNat, enc⟩

/-- What the channels write, in their order; `none` as soon as one of them fails. -/
def blockPatches (naddress : ℤ) : List (WriteChannel × Option Double) →
    Option (List (Patch UInt16))
  | [] => some []
  | (channel, value) :: rest =>
    match blockPatch rounded single naddress channel value with
    | none => none
    | some patch => (blockPatches naddress rest).map (patch :: ·)

/-- The values of a block: those of the payload, or in the trigger form the defaults. -/
def blockValues (write : WriteEntry) : Option (List Double) → List (WriteChannel × Option Double)
  | some values => write.channels.zip (values.map some)
  | none => write.channels.map fun channel =>
    (channel, if channel.hasValue then some channel.value else none)

/-- `modbusmq_write_encode_block`: the register count and the registers. -/
def writeEncodeBlock (write : WriteEntry) (values : Option (List Double)) (regs : ℕ → UInt16)
    (room : ℤ) : Option (ℤ × (ℕ → UInt16)) :=
  if write.channels = [] ∨ write.naddress ≤ 0 then none
  else if room < write.naddress then none
  else if ∃ vs ∈ values, vs.length ≠ write.channels.length then none
  else
    let cleared := fun r : ℕ => if r < write.naddress then 0 else regs r
    (blockPatches rounded single write.naddress (blockValues write values)).map fun patches =>
      (write.naddress, Patch.applyAll cleared patches)

def registerBytes (regs : ℕ → UInt16) (rs : List ℕ) : List UInt8 :=
  rs.flatMap fun r => [UInt8.ofNat ((regs r).toNat / 256), UInt8.ofNat (regs r).toNat]

def channelRaw (channel : WriteChannel) (value : ℚ) : ℚ :=
  scaledRaw rounded channel.format channel.add channel.mod channel.mul value

/-- The block went out whole: as many registers as it has, and each channel reads back as its
raw value. -/
structure BlockEncoded (write : WriteEntry) (values : List ℚ) (result : ℤ × (ℕ → UInt16)) :
    Prop where
  count : result.1 = write.naddress
  decoded : ∀ p ∈ write.channels.zip values,
    readRaw p.1.format (registerBytes result.2 p.1.registers) =
      some (rawValue p.1.format (channelRaw rounded p.1 p.2)
        (single (channelRaw rounded p.1 p.2)))

theorem unpack_packRegisters {bytes : List UInt8} (h : bytes.length % 2 = 0) :
    (packRegisters bytes).flatMap (fun w => [UInt8.ofNat (w.toNat / 256), UInt8.ofNat w.toNat]) =
      bytes := by
  induction bytes using packRegisters.induct with
  | case1 hi lo rest ih =>
    have hhi := hi.toNat_lt
    have hlo := lo.toNat_lt
    have hword : (UInt16.ofNat (be16 hi lo)).toNat = hi.toNat * 256 + lo.toNat := by
      rw [UInt16.toNat_ofNat', be16_eq]
      omega
    have hrest : rest.length % 2 = 0 := by
      rw [List.length_cons, List.length_cons] at h
      omega
    rw [packRegisters, List.flatMap_cons, ih hrest, hword]
    have hfirst : UInt8.ofNat ((hi.toNat * 256 + lo.toNat) / 256) = hi := by
      apply UInt8.toNat_inj.1
      rw [UInt8.toNat_ofNat']
      omega
    have hsecond : UInt8.ofNat (hi.toNat * 256 + lo.toNat) = lo := by
      apply UInt8.toNat_inj.1
      rw [UInt8.toNat_ofNat']
      omega
    rw [hfirst, hsecond]
    rfl
  | case2 bytes hshort =>
    match bytes, hshort with
    | [], _ => rfl
    | [b], _ => simp at h
    | hi :: lo :: rest, hshort => exact absurd rfl (hshort hi lo rest)

theorem packRegisters_length (bytes : List UInt8) :
    (packRegisters bytes).length = bytes.length / 2 := by
  induction bytes using packRegisters.induct with
  | case1 hi lo rest ih =>
    rw [packRegisters, List.length_cons, ih, List.length_cons, List.length_cons]
    omega
  | case2 bytes hshort =>
    match bytes, hshort with
    | [], _ => rfl
    | [b], _ => simp [packRegisters]
    | hi :: lo :: rest, hshort => exact absurd rfl (hshort hi lo rest)

theorem formatRange_within (format : DataFormat) :
    (scaledBounds format).1 ≤ (formatRange format).1 ∧
      (formatRange format).2 ≤ (scaledBounds format).2 := by
  cases format <;> decide

variable {rounded}

/-- A representable value is encoded, unless its format has no encoder. -/
theorem encodeScaled_encodable {format : DataFormat} {add mod mul : ℤ} {value : ℚ}
    (hknown : format ≠ .unknown) (hnumber : formatIsText format = false)
    (hsize : formatSize format = 2 ∨ formatSize format = 4)
    (hvalue : Representable format (scaledRaw rounded format add mod mul value))
    (hformat : format ≠ .float_ba) :
    ∃ bytes, encodeValue format (scaledRaw rounded format add mod mul value)
        (single (scaledRaw rounded format add mod mul value)) = some bytes ∧
      bytes.length = formatSize format ∧
      encodeScaled rounded single format add mod mul (some value) =
        some (packRegisters bytes) := by
  have hsome := (encodeValue_isSome_iff format (scaledRaw rounded format add mod mul value)
    (single (scaledRaw rounded format add mod mul value))).2
      ⟨by rw [hnumber]; decide, hknown, hformat⟩
  obtain ⟨bytes, hbytes⟩ := Option.isSome_iff_exists.1 hsome
  have hlength := encodeValue_length hbytes
  have hbounds : ¬ (¬ format.IsFloat ∧
      (scaledRaw rounded format add mod mul value < (scaledBounds format).1 ∨
        (scaledBounds format).2 < scaledRaw rounded format add mod mul value)) := by
    rintro ⟨hint, hout⟩
    obtain ⟨heq, hlo, hhi⟩ := hvalue.resolve_left hint
    obtain ⟨hloRange, hhiRange⟩ := formatRange_within format
    rw [heq] at hout
    rcases hout with hout | hout
    · have hlt := Int.cast_lt.1 hout
      omega
    · have hlt := Int.cast_lt.1 hout
      omega
  refine ⟨bytes, hbytes, hlength, ?_⟩
  unfold encodeScaled
  dsimp only
  rw [if_neg hbounds, hbytes]
  exact if_neg (by omega)

variable {single}

theorem encodeScaled_float_ba (add mod mul : ℤ) (value : Double) :
    encodeScaled rounded single .float_ba add mod mul value = none := by
  unfold encodeScaled
  cases value with
  | none => rfl
  | some value =>
    dsimp only
    split_ifs <;> rfl

variable {channel : WriteChannel} {value : ℚ} {naddress : ℤ}

theorem blockPatch_encodable (hchannel : channel.Writable)
    (hinside : channel.offset.tdiv 2 + channel.length.tdiv 2 ≤ naddress)
    (hvalue : Representable channel.format (channelRaw rounded channel value))
    (hformat : channel.format ≠ .float_ba) :
    ∃ bytes, encodeValue channel.format (channelRaw rounded channel value)
        (single (channelRaw rounded channel value)) = some bytes ∧ bytes.length = channel.length ∧
      blockPatch rounded single naddress channel (some (some value)) =
        some ⟨(channel.offset.tdiv 2).toNat, packRegisters bytes⟩ := by
  have hsize := hchannel.size
  unfold WriteChannel.length at hsize
  obtain ⟨bytes, hbytes, hlength, henc⟩ := encodeScaled_encodable single
    hchannel.known hchannel.number (by omega) hvalue hformat
  have hoffset := hchannel.offset
  have hstart : 0 ≤ channel.offset.tdiv 2 := Int.tdiv_nonneg hoffset.1 (by decide)
  have hhalf : ((packRegisters bytes).length : ℤ) = channel.length.tdiv 2 := by
    unfold WriteChannel.length
    rw [packRegisters_length, hlength, Int.tdiv_eq_ediv_of_nonneg (by omega)]
    rfl
  refine ⟨bytes, hbytes, congrArg Nat.cast hlength, ?_⟩
  unfold blockPatch writeChannelEncode
  dsimp only
  rw [henc]
  dsimp only
  rw [if_neg (by omega)]

theorem blockPatch_float_ba (hformat : channel.format = .float_ba) (value : Option Double) :
    blockPatch rounded single naddress channel value = none := by
  unfold blockPatch writeChannelEncode
  cases value with
  | none => rfl
  | some value =>
    dsimp only
    rw [hformat, encodeScaled_float_ba]

theorem blockPatches_some {pairs : List (WriteChannel × ℚ)} {f : WriteChannel × ℚ → Patch UInt16}
    (h : ∀ p ∈ pairs, blockPatch rounded single naddress p.1 (some (some p.2)) = some (f p)) :
    blockPatches rounded single naddress (pairs.map fun p => (p.1, some (some p.2))) =
      some (pairs.map f) := by
  induction pairs with
  | nil => rfl
  | cons p rest ih =>
    have hhead := h p (List.mem_cons_self ..)
    have hrest := ih fun q hq => h q (List.mem_cons_of_mem _ hq)
    rw [List.map_cons, blockPatches, hhead, hrest]
    rfl

theorem blockPatches_none {pairs : List (WriteChannel × Option Double)}
    {p : WriteChannel × Option Double} (hp : p ∈ pairs)
    (h : blockPatch rounded single naddress p.1 p.2 = none) :
    blockPatches rounded single naddress pairs = none := by
  induction pairs with
  | nil => exact absurd hp List.not_mem_nil
  | cons q rest ih =>
    obtain ⟨channel, value⟩ := q
    rw [blockPatches]
    rcases List.mem_cons.1 hp with rfl | hp
    · dsimp only at h
      rw [h]
    · rw [ih hp]
      cases blockPatch rounded single naddress channel value <;> rfl

variable {write : WriteEntry} {values : List ℚ}

theorem BlockLaid.inside (h : BlockLaid write) {channel : WriteChannel}
    (hchannel : channel ∈ write.channels) :
    channel.offset.tdiv 2 + channel.length.tdiv 2 ≤ write.naddress := by
  have hwritable := h.writable channel hchannel
  have hstart : 0 ≤ channel.offset.tdiv 2 := Int.tdiv_nonneg hwritable.offset.1 (by decide)
  have hlength : 1 ≤ channel.length.tdiv 2 := by
    rcases hwritable.size with hsize | hsize <;> rw [hsize] <;> decide
  -- the last register of the channel is one of the block's
  have hlast : (channel.offset.tdiv 2 + channel.length.tdiv 2 - 1).toNat ∈ channel.registers :=
    List.mem_range'_1.2 ⟨by omega, by omega⟩
  have hmem := h.partition.mem_iff.1 (List.mem_flatMap.2 ⟨channel, hchannel, hlast⟩)
  rw [List.mem_range] at hmem
  omega

/-- Two entries of a block that share a register are the same entry. -/
theorem BlockLaid.unique (h : BlockLaid write) (hvalues : values.length = write.channels.length)
    {p q : WriteChannel × ℚ} (hp : p ∈ write.channels.zip values)
    (hq : q ∈ write.channels.zip values) {r : ℕ} (hpr : r ∈ p.1.registers)
    (hqr : r ∈ q.1.registers) : p = q := by
  have hnodup := h.partition.nodup_iff.2 List.nodup_range
  have hpairs : ((write.channels.zip values).map Prod.fst).Pairwise
      fun a b => a.registers.Disjoint b.registers := by
    rw [List.map_fst_zip (by omega)]
    exact (List.nodup_flatMap.1 hnodup).2
  have hsymm : Std.Symm fun a b : WriteChannel × ℚ => a.1.registers.Disjoint b.1.registers :=
    ⟨fun _ _ => List.Disjoint.symm⟩
  by_contra hne
  exact (List.pairwise_map.1 hpairs).forall hp hq hne hpr hqr

theorem BlockLaid.nonempty (h : BlockLaid write) : write.channels ≠ [] := by
  intro hnone
  have hlength := h.partition.length_eq
  have hcount := h.count
  rw [hnone, List.length_range] at hlength
  simp only [List.flatMap_nil, List.length_nil] at hlength
  omega

theorem registerBytes_eq (regs : ℕ → UInt16) (rs : List ℕ) : registerBytes regs rs =
    (rs.map regs).flatMap fun w => [UInt8.ofNat (w.toNat / 256), UInt8.ofNat w.toNat] := by
  rw [List.flatMap_map]
  rfl

/-- A register of an encoded block has what its channel put there. -/
theorem BlockLaid.decoded (h : BlockLaid write) (hvalues : values.length = write.channels.length)
    {f : WriteChannel × ℚ → List UInt8} {cleared : ℕ → UInt16}
    (hlength : ∀ p ∈ write.channels.zip values, ((f p).length : ℤ) = p.1.length)
    {p : WriteChannel × ℚ} (hp : p ∈ write.channels.zip values) :
    registerBytes (Patch.applyAll cleared ((write.channels.zip values).map fun q =>
      ⟨(q.1.offset.tdiv 2).toNat, packRegisters (f q)⟩)) p.1.registers = f p := by
  have hcells : ∀ q ∈ write.channels.zip values,
      (packRegisters (f q)).length = (q.1.length.tdiv 2).toNat ∧ (f q).length % 2 = 0 := by
    intro q hq
    have hsize := (h.writable q.1 (List.of_mem_zip hq).1).size
    have hbytes := hlength q hq
    rw [packRegisters_length]
    rcases hsize with hsize | hsize
    · rw [hsize, (by omega : (f q).length = 2)]
      decide
    · rw [hsize, (by omega : (f q).length = 4)]
      decide
  have hcovers : ∀ q ∈ write.channels.zip values, ∀ r, r ∈ q.1.registers ↔
      (⟨(q.1.offset.tdiv 2).toNat, packRegisters (f q)⟩ : Patch UInt16).Covers r := by
    intro q hq r
    rw [WriteChannel.registers, List.mem_range'_1, Patch.Covers, (hcells q hq).1]
  have hregisters : p.1.registers.map (Patch.applyAll cleared ((write.channels.zip values).map
      fun q => ⟨(q.1.offset.tdiv 2).toNat, packRegisters (f q)⟩)) = packRegisters (f p) := by
    refine List.ext_getElem (by simp [WriteChannel.registers, (hcells p hp).1]) fun i hi hi' => ?_
    have hmem : (p.1.offset.tdiv 2).toNat + i ∈ p.1.registers := by
      rw [hcovers p hp]
      exact ⟨Nat.le_add_right _ _, by dsimp only; omega⟩
    have hbound : i < p.1.registers.length := by simpa using hi
    have hindex : p.1.registers[i] = (p.1.offset.tdiv 2).toNat + i := by
      simp [WriteChannel.registers]
    rw [List.getElem_map, hindex,
      Patch.applyAll_inside (List.mem_map.2 ⟨p, hp, rfl⟩) ((hcovers p hp _).1 hmem) ?_ 0]
    · dsimp only
      rw [Nat.add_sub_cancel_left, List.getD_eq_getElem _ _ hi']
    · intro patch hpatch hpatchCovers
      obtain ⟨q, hq, rfl⟩ := List.mem_map.1 hpatch
      rw [h.unique hvalues hq hp ((hcovers q hq _).2 hpatchCovers) hmem]
  rw [registerBytes_eq, hregisters, unpack_packRegisters (hcells p hp).2]

/-- The channels of an accepted block cover it, every register once, and representable values
go out whole exactly when no channel has the one format without an encoder. -/
theorem accepted_block_encodes_iff {accepted : WriteEntry}
    (h : validateWriteBlock write = .ok accepted)
    (hvalues : values.length = accepted.channels.length)
    (hrepresentable : ∀ p ∈ accepted.channels.zip values,
      Representable p.1.format (channelRaw rounded p.1 p.2))
    (regs : ℕ → UInt16) {room : ℤ} (hroom : accepted.naddress ≤ room) :
    (accepted.channels.flatMap WriteChannel.registers).Perm
        (List.range accepted.naddress.toNat) ∧
      ((∃ result, writeEncodeBlock rounded single accepted (some (values.map some)) regs room =
          some result ∧ BlockEncoded rounded single accepted values result) ↔
        ∀ channel ∈ accepted.channels, channel.format ≠ .float_ba) := by
  obtain ⟨hlaid, -⟩ := validateWriteBlock_ok h
  have hcount := hlaid.count
  have hencode : writeEncodeBlock rounded single accepted (some (values.map some)) regs room =
      (blockPatches rounded single accepted.naddress
        ((accepted.channels.zip values).map fun p => (p.1, some (some p.2)))).map fun patches =>
          (accepted.naddress, Patch.applyAll
            (fun r : ℕ => if (r : ℤ) < accepted.naddress then 0 else regs r) patches) := by
    unfold writeEncodeBlock blockValues
    rw [if_neg (by simpa using ⟨hlaid.nonempty, by omega⟩), if_neg (by omega),
      if_neg (by simpa using hvalues)]
    dsimp only
    rw [List.map_map, List.zip_map_right]
    rfl
  refine ⟨hlaid.partition, ?_⟩
  rw [hencode]
  constructor
  · rintro ⟨result, hresult, -⟩ channel hchannel hformat
    rw [← List.map_fst_zip hvalues.ge] at hchannel
    obtain ⟨p, hp, rfl⟩ := List.mem_map.1 hchannel
    rw [blockPatches_none (List.mem_map.2 ⟨p, hp, rfl⟩) (blockPatch_float_ba hformat _)] at hresult
    exact nomatch hresult
  · intro hformats
    have hchannel : ∀ p ∈ accepted.channels.zip values, ∃ bytes,
        encodeValue p.1.format (channelRaw rounded p.1 p.2)
          (single (channelRaw rounded p.1 p.2)) = some bytes ∧ (bytes.length : ℤ) = p.1.length ∧
        blockPatch rounded single accepted.naddress p.1 (some (some p.2)) =
          some ⟨(p.1.offset.tdiv 2).toNat, packRegisters bytes⟩ := by
      intro p hp
      have hmem := (List.of_mem_zip hp).1
      exact blockPatch_encodable (hlaid.writable _ hmem) (hlaid.inside hmem)
        (hrepresentable p hp) (hformats _ hmem)
    choose! f hbytes hlength hpatch using hchannel
    rw [blockPatches_some hpatch]
    refine ⟨_, rfl, rfl, fun p hp => ?_⟩
    dsimp only
    rw [hlaid.decoded hvalues hlength hp]
    exact readRaw_encodeValue (hbytes p hp) (hrepresentable p hp)

/-- Setting up a mode in one frame: a setpoint in tenths, a mode and a two-register limit. -/
def setpointBlock (format : DataFormat) : WriteEntry where
  slave := 1
  hasSlave := true
  template := false
  type := some .holdingRegister
  function := .registers
  address := 0x1000
  hasAddress := true
  format := .unknown
  add := 0
  mod := 0
  mul := 0
  onValue := 1
  offValue := 0
  hasOnValue := false
  hasOffValue := false
  topic := "command/setpoint"
  naddress := 4
  hasNaddress := true
  channels := [
    { offset := 4, format := .abcd, add := 0, mod := 0, mul := 0, value := some 100000,
      hasValue := true },
    { offset := 0, format := .ab, add := 0, mod := -10, mul := 0, value := some 63,
      hasValue := true },
    { offset := 2, format := format, add := 0, mod := 0, mul := 0, value := some 2,
      hasValue := true }]
  hasDefaults := true

theorem accepted_block_encodes_iff_example :
    ∃ result, writeEncodeBlock id (fun _ => 0) (setpointBlock .ab) (some [some 100000, some 63,
        some 2]) (fun _ => 0xFFFF) 8 = some result ∧
      BlockEncoded id (fun _ => 0) (setpointBlock .ab) [100000, 63, 2] result := by
  have haccepted : validateWriteBlock (setpointBlock .ab) = .ok (setpointBlock .ab) := rfl
  have hrepresentable : ∀ p ∈ (setpointBlock .ab).channels.zip [(100000 : ℚ), 63, 2],
      Representable p.1.format (channelRaw id p.1 p.2) := by decide +kernel
  have hroom : (setpointBlock .ab).naddress ≤ 8 := by decide
  exact (accepted_block_encodes_iff haccepted rfl hrepresentable _ hroom).2.2 (by decide)

/-- A block with a channel in `float_ba` is accepted, and no value of that channel is ever
encoded. -/
theorem accepted_block_never_encoded :
    validateWriteBlock (setpointBlock .float_ba) = .ok (setpointBlock .float_ba) ∧
      (∀ p ∈ (setpointBlock .float_ba).channels.zip [(100000 : ℚ), 63, 2],
        Representable p.1.format (channelRaw id p.1 p.2)) ∧
      writeEncodeBlock id (fun _ => 0) (setpointBlock .float_ba) (some [some 100000, some 63,
        some 2]) (fun _ => 0xFFFF) 8 = none :=
  ⟨rfl, by decide +kernel, by decide +kernel⟩

end

end Modbusmq
