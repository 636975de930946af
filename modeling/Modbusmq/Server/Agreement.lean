import Modbusmq.Bridge.Polls
import Modbusmq.Decoding.Values
import Modbusmq.Library.PackedBits
import Modbusmq.Server.Response

/-!
# The server and the bridge agree on the layout

The bridge polls an input, the server answers from the same configuration, and
the bridge reads each channel back. Both programs compute where a channel lies
from `address`, `address_offset`, `offset` and `offset_size`, each in its own
way; over the address space it is one span.
-/

namespace Modbusmq

def ServedInput.polled (input : ServedInput) (type : InputType) (tier : Tier) : Input where
  slave := input.slave
  type := type
  address := input.address
  addressOffset := input.addressOffset
  naddress := input.naddress
  tier := tier
  channels := input.channels.map (·.toChannel)

/-- The bridge's poll of an input as the server receives it. -/
def polledRequest (transactionId : ℕ) (input : ServedInput) : Frame .reader :=
  .holding ((preparedMsg .tcp transactionId (.ofFrame 0 (pollFrame .tcp input.slave input.type
    input.address input.addressOffset input.naddress))).writer.bytes 12) 12

def servedReply (config : ServedConfig) (transactionId : ℕ) (input : ServedInput) :
    Frame .reader :=
  let res := filledResponse config (polledRequest transactionId input) (.zero .writer)
  .holding (res.bytes res.length) res.length

/-- The channels of one slave and register type; a slot without a topic is not in use. -/
def usedChannels (config : ServedConfig) (slave : ℤ) (type : InputType) :
    List (ServedInput × ServedChannel) :=
  (config.inputs.filter fun input => input.slave = slave ∧ input.type = some type).flatMap
    fun input => (input.channels.filter (·.topic.isSome)).map (input, ·)

/-- What a channel covers of the address space: a bit, or bytes, two to a register. -/
def span (config : ServedConfig) (type : InputType) (entry : ServedInput × ServedChannel) :
    ℤ × ℤ :=
  if type.IsBit then
    (entry.1.address + entry.2.offset, entry.1.address + entry.2.offset + 1)
  else
    let offsetSize : ℤ := if 0 < config.offsetSize then config.offsetSize else 1
    (entry.1.address * 2 + entry.2.offset * offsetSize,
      entry.1.address * 2 + entry.2.offset * offsetSize + entry.2.length)

/-- Two channels cover different parts. -/
def Apart (config : ServedConfig) (type : InputType) (a b : ServedInput × ServedChannel) : Prop :=
  (span config type a).2 ≤ (span config type b).1 ∨ (span config type b).2 ≤ (span config type a).1

instance (config : ServedConfig) (type : InputType) : Std.Symm (Apart config type) :=
  ⟨fun _ _ => Or.symm⟩

/-- Where the reply to the poll of an input starts in the address space. -/
def replyStart (input : ServedInput) (type : InputType) : ℤ :=
  (input.address + input.addressOffset) * if type.IsBit then 1 else 2

/-- An input of a configuration whose channels do not overlap. Lengths are as the parser
leaves them, and positions relative to the reply are in the range of `int`. -/
structure LaidOut (config : ServedConfig) (input : ServedInput) (type : InputType) : Prop where
  member : input ∈ config.inputs
  typed : input.type = some type
  address : 0 ≤ input.address + input.addressOffset ∧ input.address + input.addressOffset ≤ 65535
  count : 1 ≤ input.naddress ∧ input.naddress ≤ if type.IsBit then 2000 else 125
  apart : (usedChannels config input.slave type).Pairwise (Apart config type)
  sized : ¬ type.IsBit → ∀ entry ∈ usedChannels config input.slave type, entry.2.toChannel.Sized
  int : ∀ entry ∈ usedChannels config input.slave type,
    -2 ^ 31 ≤ (span config type entry).1 - replyStart input type ∧
      (span config type entry).2 - replyStart input type < 2 ^ 31

def defaultRaw (type : InputType) (channel : ServedChannel) : Raw :=
  if type.IsBit then .int (if floatValue channel.value ≠ 0 then 1 else 0)
  else rawValue channel.format (floatValue channel.value) channel.value

/-- A default that can be served: a bit, or a value that the encoder has a format for and that
the format can carry. -/
def Servable (type : InputType) (channel : ServedChannel) : Prop :=
  type.IsBit ∨
    (encodeValue channel.format (floatValue channel.value) channel.value).isSome ∧
      Representable channel.format (floatValue channel.value)

instance (type : InputType) (channel : ServedChannel) : Decidable (Servable type channel) :=
  inferInstanceAs (Decidable (_ ∨ _))

/-- A default that the reply shows: a bit among those asked for, or a word other than the
marker for "no value". -/
def Shown (naValue : Option ℕ) (input : ServedInput) (type : InputType) (channel : ServedChannel) :
    Prop :=
  if type.IsBit then channel.offset - input.addressOffset < input.naddress
  else ¬ IsMarker naValue channel.format (floatValue channel.value)

/-- No channel covers this part of the address space. -/
def Uncovered (config : ServedConfig) (slave : ℤ) (type : InputType) (x : ℤ) : Prop :=
  ∀ entry ∈ usedChannels config slave type,
    ¬ ((span config type entry).1 ≤ x ∧ x < (span config type entry).2)

theorem holding_bytes_buf {role role' : Role} (f : Frame role) {n i : ℕ} (h : i < n) :
    (Frame.holding (f.bytes n) n : Frame role').buf i = f.buf i := by
  have hi : i < (f.bytes n).length := by rwa [Frame.bytes_length]
  rw [Frame.holding_buf, List.getD_eq_getElem _ _ hi]
  simp [Frame.bytes]

theorem typeCode_eq_iff (type : Option InputType) (known : InputType) :
    typeCode type = known.code ↔ type = some known := by
  rcases type with _ | type
  · cases known <;> decide
  · cases type <;> cases known <;> decide

variable {config : ServedConfig} {input : ServedInput} {type : InputType} {tid : ℕ}

theorem polledRequest_buf (htype : input.type = some type) {i : ℕ} (hlo : 6 ≤ i) (hhi : i < 12) :
    (polledRequest tid input).buf i =
      (tcpFrameInit input.slave type.function (cInt (input.address + input.addressOffset))
        input.naddress).buf i := by
  unfold polledRequest
  rw [holding_bytes_buf _ hhi, htype, pollFrame_known]
  simp only [preparedMsg, tcpMsgPrepare, Msg.ofFrame, Frame.poke, frameInit]
  rw [Function.update_of_ne (by omega), Function.update_of_ne (by omega),
    Function.update_of_ne (by omega), Function.update_of_ne (by omega)]

theorem polledRequest_slave (htype : input.type = some type) (hlo : 0 ≤ input.slave)
    (hhi : input.slave ≤ 255) : ((polledRequest tid input).buf 6).toNat = input.slave := by
  rw [polledRequest_buf htype (by decide) (by decide)]
  exact (byteOf_toNat _).trans (Int.emod_eq_of_lt hlo (by omega))

variable (tid) in
theorem polledRequest_function (htype : input.type = some type) :
    (polledRequest tid input).buf 7 = type.function :=
  polledRequest_buf htype (by decide) (by decide)

theorem LaidOut.address_eq (h : LaidOut config input type) :
    (requestAddress (polledRequest tid input) : ℤ) = input.address + input.addressOffset := by
  have haddress := h.address
  unfold requestAddress
  rw [polledRequest_buf h.typed (by decide) (by decide),
    polledRequest_buf h.typed (by decide) (by decide), cInt_eq (by omega) (by omega)]
  exact (be16_byteOf _).trans (Int.emod_eq_of_lt haddress.1 (by omega))

variable (tid) in
theorem LaidOut.count_eq (h : LaidOut config input type) :
    (requestCount (polledRequest tid input) : ℤ) = input.naddress := by
  have hcount := h.count
  have hlimit : (if type.IsBit then (2000 : ℤ) else 125) ≤ 2000 := by split_ifs <;> decide
  unfold requestCount
  rw [polledRequest_buf h.typed (by decide) (by decide),
    polledRequest_buf h.typed (by decide) (by decide)]
  exact (be16_byteOf _).trans (Int.emod_eq_of_lt (by omega) (by omega))

theorem mem_usedChannels {slave : ℤ} {entry : ServedInput × ServedChannel} :
    entry ∈ usedChannels config slave type ↔ entry.1 ∈ config.inputs ∧ entry.1.slave = slave ∧
      entry.1.type = some type ∧ entry.2 ∈ entry.1.channels ∧ entry.2.topic.isSome := by
  obtain ⟨input, channel⟩ := entry
  simp only [usedChannels, List.mem_flatMap, List.mem_filter, List.mem_map, decide_eq_true_eq,
    Prod.mk.injEq]
  constructor
  · rintro ⟨_, ⟨hinput, hslave, htype⟩, _, ⟨hchannel, htopic⟩, rfl, rfl⟩
    exact ⟨hinput, hslave, htype, hchannel, htopic⟩
  · rintro ⟨hinput, hslave, htype, hchannel, htopic⟩
    exact ⟨input, ⟨hinput, hslave, htype⟩, channel, ⟨hchannel, htopic⟩, rfl, rfl⟩

theorem mem_servedInputs (htype : input.type = some type) (hlo : 0 ≤ input.slave)
    (hhi : input.slave ≤ 255) {other : ServedInput} :
    other ∈ servedInputs config (polledRequest tid input) ↔
      other ∈ config.inputs ∧ other.slave = input.slave ∧ other.type = some type := by
  unfold servedInputs
  rw [List.mem_filter, decide_eq_true_eq, polledRequest_slave htype hlo hhi,
    polledRequest_function tid htype, type.function_toNat, typeCode_eq_iff]

/-- Two channels that cover the same place are the same channel. -/
theorem LaidOut.unique (h : LaidOut config input type) {a b : ServedInput × ServedChannel}
    (ha : a ∈ usedChannels config input.slave type) (hb : b ∈ usedChannels config input.slave type)
    {x : ℤ} (hax : (span config type a).1 ≤ x ∧ x < (span config type a).2)
    (hbx : (span config type b).1 ≤ x ∧ x < (span config type b).2) : a = b := by
  by_contra hne
  have hapart : Apart config type a b := h.apart.forall ha hb hne
  unfold Apart at hapart
  omega

theorem span_bit (hbit : type.IsBit) (entry : ServedInput × ServedChannel) :
    span config type entry =
      (entry.1.address + entry.2.offset, entry.1.address + entry.2.offset + 1) := if_pos hbit

theorem span_register (hbit : ¬ type.IsBit) (entry : ServedInput × ServedChannel) :
    span config type entry =
      (entry.1.address * 2 + entry.2.offset *
          (if 0 < config.offsetSize then config.offsetSize else 1),
        entry.1.address * 2 + entry.2.offset *
          (if 0 < config.offsetSize then config.offsetSize else 1) + entry.2.length) := if_neg hbit

theorem replyStart_bit (hbit : type.IsBit) :
    replyStart input type = input.address + input.addressOffset := by
  rw [replyStart, if_pos hbit, mul_one]

theorem replyStart_register (hbit : ¬ type.IsBit) :
    replyStart input type = (input.address + input.addressOffset) * 2 := by
  rw [replyStart, if_neg hbit]

theorem LaidOut.coil_eq (h : LaidOut config input type) (hbit : type.IsBit)
    {entry : ServedInput × ServedChannel}
    (hentry : entry ∈ usedChannels config input.slave type) :
    servedCoil entry.1 entry.2 (polledRequest tid input) =
      (span config type entry).1 - replyStart input type := by
  have hint := h.int entry hentry
  rw [span_bit hbit, replyStart_bit hbit] at hint ⊢
  dsimp only at hint ⊢
  rw [servedCoil, h.address_eq]
  exact cInt_eq hint.1 (by omega)

variable (tid) in
/-- The server finds a register channel where its span is. -/
theorem LaidOut.position_eq (h : LaidOut config input type) (hbit : ¬ type.IsBit)
    {entry : ServedInput × ServedChannel}
    (hentry : entry ∈ usedChannels config input.slave type) :
    servedPosition config entry.1 entry.2 (polledRequest tid input) =
      (span config type entry).1 - replyStart input type := by
  have hint := h.int entry hentry
  rw [span_register hbit, replyStart_register hbit] at hint ⊢
  dsimp only at hint ⊢
  rw [servedPosition, h.address_eq]
  rw [cInt_eq (by omega) (by omega)]
  ring

theorem LaidOut.bit_eq (h : LaidOut config input type) (hbit : type.IsBit) (tier : Tier)
    {channel : ServedChannel} (hentry : (input, channel) ∈ usedChannels config input.slave type) :
    channelBit (input.polled type tier) channel.toChannel =
      (span config type (input, channel)).1 - replyStart input type := by
  have hint := h.int _ hentry
  rw [span_bit hbit, replyStart_bit hbit] at hint ⊢
  dsimp only at hint ⊢
  rw [channelBit]
  change cInt (channel.offset - input.addressOffset) = _
  rw [cInt_eq (by omega) (by omega)]
  ring

/-- The bridge finds a register channel where its span is. -/
theorem LaidOut.byteOffset_eq (h : LaidOut config input type) (hbit : ¬ type.IsBit)
    (tier : Tier) {bridge : Config} (hsame : bridge.offsetSize = config.offsetSize)
    {channel : ServedChannel} (hentry : (input, channel) ∈ usedChannels config input.slave type) :
    channelByteOffset (some bridge) (input.polled type tier) channel.toChannel =
      (span config type (input, channel)).1 - replyStart input type := by
  have hint := h.int _ hentry
  rw [span_register hbit, replyStart_register hbit] at hint ⊢
  dsimp only at hint ⊢
  rw [channelByteOffset, hsame]
  change cInt (channel.offset * _ - input.addressOffset * 2) = _
  rw [cInt_eq (by omega) (by omega)]
  ring

theorem payload_reply {n : ℕ} (hn : n ≤ 250) {fill : (ℕ → UInt8) → ℕ → UInt8}
    (hfill : FillsPayload fill) {req : Frame .reader} (hread : IsRead (req.buf 7))
    {res : Frame .writer} (hres : res = answerPayload n fill (answerHeader req (.zero .writer))) :
    frameNbytes .tcp (.holding (res.bytes res.length) res.length) = n ∧
      ∀ i < n, frameData .tcp (.holding (res.bytes res.length) res.length) i =
        fill (Patch.apply (answerHeader req (.zero .writer)).buf ⟨9, List.replicate n 0⟩) (9 + i) := by
  have hlength : res.length = n + 3 + 6 := by
    rw [hres]
    rfl
  have hbuf : ∀ i < n + 9, (Frame.holding (res.bytes res.length) res.length : Frame .reader).buf i =
      res.buf i := fun i hi => holding_bytes_buf res (by omega)
  constructor
  · have hfunction : res.buf 7 = req.buf 7 := by
      rw [hres, hfill.header _ (by decide) (by decide)]
      rfl
    simp only [frameNbytes, tcpFrameNbytes]
    rw [hbuf 7 (by omega), hbuf 8 (by omega), hfunction, if_pos hread, hres,
      answerPayload_count hn]
  · intro i hi
    unfold frameData Transport.dataOffset
    dsimp only
    rw [hbuf _ (by omega), hres, answerPayload_buf, if_neg (by omega), if_neg (by omega),
      if_neg (by omega)]

theorem InputType.function_isBit (type : InputType) :
    (type.function = readCoils ∨ type.function = readDiscreteInputs) ↔ type.IsBit := by
  cases type <;> decide

theorem InputType.function_read (type : InputType) : IsRead type.function ∧
    ¬ (type.function = writeSingleCoil ∨ type.function = writeSingleRegister ∨
      type.function = writeMultipleRegisters) := by
  cases type <;> decide

theorem payload_cleared (buf : ℕ → UInt8) {n i : ℕ} (h : i < n) :
    Patch.apply buf ⟨9, List.replicate n 0⟩ (9 + i) = 0 := by
  have hcovers : (⟨9, List.replicate n 0⟩ : Patch UInt8).Covers (9 + i) :=
    ⟨Nat.le_add_right _ _, by simpa using h⟩
  rw [Patch.apply_inside hcovers 0, Nat.add_sub_cancel_left]
  exact List.getD_replicate _ h

theorem setCoil_eq (buf : ℕ → UInt8) (icoil : ℕ) :
    setCoil buf icoil = PackedBits.set buf (72 + icoil) := by
  have hbyte : (72 + icoil) / 8 = 9 + icoil / 8 := by omega
  have hbit : (72 + icoil) % 8 = icoil % 8 := by omega
  rw [setCoil, PackedBits.set, hbyte, hbit]

theorem foldl_setCoil (coils : List ℕ) (buf : ℕ → UInt8) :
    coils.foldl setCoil buf = (coils.map (72 + ·)).foldl PackedBits.set buf := by
  rw [List.foldl_map, funext₂ setCoil_eq]

variable (tid) in
theorem LaidOut.bit_reply (h : LaidOut config input type) (hbit : type.IsBit) :
    frameNbytes .tcp (servedReply config tid input) = (input.naddress + 7) / 8 ∧
      ∀ i : ℕ, (i : ℤ) / 8 < (input.naddress + 7) / 8 →
        PackedBits.get (frameData .tcp (servedReply config tid input)) i =
          decide (i ∈ servedCoils config (polledRequest tid input)) := by
  have hcount := h.count_eq tid
  have hlimits := h.count
  rw [if_pos hbit] at hlimits
  have hfunction := polledRequest_function tid h.typed
  have hres := filledResponse_bits config (hfunction ▸ type.function_isBit.2 hbit)
    (by omega) (by omega) (.zero .writer)
  obtain ⟨hnbytes, hdata⟩ := payload_reply (by omega) (setCoil_fills _)
    (hfunction ▸ type.function_read.1) hres
  constructor
  · change frameNbytes .tcp (Frame.holding _ _) = _
    rw [hnbytes]
    omega
  · intro i hi
    have hbyte : (72 + i) / 8 = 9 + i / 8 := by omega
    have hplace : (72 + i) % 8 = i % 8 := by omega
    unfold PackedBits.get
    change ((frameData .tcp (Frame.holding _ _) (i / 8)).toNat.testBit _) = _
    rw [hdata (i / 8) (by omega), ← hplace, ← hbyte]
    change PackedBits.get _ (72 + i) = _
    rw [foldl_setCoil, PackedBits.get_foldl_set, PackedBits.get, hbyte,
      payload_cleared _ (by omega)]
    simp

variable (tid) in
/-- The bytes of a register reply are what the channels lay out over zeros. -/
theorem LaidOut.register_reply (h : LaidOut config input type) (hbit : ¬ type.IsBit) :
    frameNbytes .tcp (servedReply config tid input) = input.naddress * 2 ∧
      ∃ zeros : ℕ → UInt8, ∀ i : ℕ, (i : ℤ) < input.naddress * 2 → zeros (9 + i) = 0 ∧
        frameData .tcp (servedReply config tid input) i =
          Patch.applyAll zeros (servedPatches config (polledRequest tid input)) (9 + i) := by
  have hcount := h.count_eq tid
  have hlimits := h.count
  rw [if_neg hbit] at hlimits
  have hfunction := polledRequest_function tid h.typed
  have hres := filledResponse_registers config (hfunction ▸ type.function_read.2)
    (hfunction ▸ mt type.function_isBit.1 hbit) (by omega) (by omega) (.zero .writer)
  obtain ⟨hnbytes, hdata⟩ := payload_reply (by omega) (servedPatches_fill config _)
    (hfunction ▸ type.function_read.1) hres
  constructor
  · change frameNbytes .tcp (Frame.holding _ _) = _
    rw [hnbytes]
    omega
  · exact ⟨_, fun i hi => ⟨payload_cleared _ (by omega), hdata i (by omega)⟩⟩

theorem LaidOut.mem_servedCoils (h : LaidOut config input type) (hbit : type.IsBit)
    (hslave : 0 ≤ input.slave ∧ input.slave ≤ 255) (i : ℕ) :
    i ∈ servedCoils config (polledRequest tid input) ↔
      ∃ entry ∈ usedChannels config input.slave type,
        (span config type entry).1 - replyStart input type = i ∧ (i : ℤ) < input.naddress ∧
          floatValue entry.2.value ≠ 0 := by
  have hcount := h.count_eq tid
  simp only [servedCoils, List.mem_flatMap, List.mem_map, List.mem_filter, decide_eq_true_eq,
    mem_servedInputs h.typed hslave.1 hslave.2]
  constructor
  · rintro ⟨other, ⟨hother, hsame, htype⟩, channel, ⟨hchannel, htopic, hlo, hhi, hvalue⟩, rfl⟩
    have hentry : (other, channel) ∈ usedChannels config input.slave type :=
      mem_usedChannels.2 ⟨hother, hsame, htype, hchannel, htopic⟩
    have hcoil : servedCoil other channel (polledRequest tid input) =
        (span config type (other, channel)).1 - replyStart input type := h.coil_eq hbit hentry
    exact ⟨(other, channel), hentry, by omega, by omega, hvalue⟩
  · rintro ⟨⟨other, channel⟩, hentry, hplace, hhi, hvalue⟩
    obtain ⟨hother, hsame, htype, hchannel, htopic⟩ := mem_usedChannels.1 hentry
    have hcoil : servedCoil other channel (polledRequest tid input) =
        (span config type (other, channel)).1 - replyStart input type := h.coil_eq hbit hentry
    dsimp only at hvalue
    exact ⟨other, ⟨hother, hsame, htype⟩, channel,
      ⟨hchannel, htopic, by omega, by omega, hvalue⟩, by omega⟩

theorem LaidOut.mem_servedPatches (h : LaidOut config input type)
    (hslave : 0 ≤ input.slave ∧ input.slave ≤ 255) {p : Patch UInt8} :
    p ∈ servedPatches config (polledRequest tid input) ↔
      ∃ entry ∈ usedChannels config input.slave type,
        servedPatch config entry.1 (polledRequest tid input) entry.2 = some p := by
  rw [Modbusmq.mem_servedPatches]
  simp only [mem_servedInputs h.typed hslave.1 hslave.2]
  constructor
  · rintro ⟨other, ⟨hother, hsame, htype⟩, channel, hchannel, hpatch⟩
    have htopic : channel.topic.isSome := by
      by_contra hnone
      rw [servedPatch, if_pos (.inl (by simpa using hnone))] at hpatch
      exact nomatch hpatch
    exact ⟨(other, channel), mem_usedChannels.2 ⟨hother, hsame, htype, hchannel, htopic⟩, hpatch⟩
  · rintro ⟨⟨other, channel⟩, hentry, hpatch⟩
    obtain ⟨hother, hsame, htype, hchannel, -⟩ := mem_usedChannels.1 hentry
    exact ⟨other, ⟨hother, hsame, htype⟩, channel, hchannel, hpatch⟩

theorem LaidOut.patch_covers (h : LaidOut config input type) (hbit : ¬ type.IsBit)
    {entry : ServedInput × ServedChannel}
    (hentry : entry ∈ usedChannels config input.slave type) {p : Patch UInt8}
    (hp : servedPatch config entry.1 (polledRequest tid input) entry.2 = some p) {i : ℕ}
    (hcovers : p.Covers (9 + i)) :
    (span config type entry).1 ≤ replyStart input type + i ∧
      replyStart input type + i < (span config type entry).2 := by
  have hposition := h.position_eq tid hbit hentry
  have hlength : (span config type entry).2 = (span config type entry).1 + entry.2.length := by
    rw [span_register hbit]
  unfold servedPatch at hp
  dsimp only at hp
  rw [hposition] at hp
  split_ifs at hp with hout
  obtain rfl := Option.some.inj hp
  obtain ⟨hstart, hend⟩ := hcovers
  dsimp only at hstart hend
  have hbytes := servedBytes_length (h.sized hbit entry hentry) (cSize
    ((requestCount (polledRequest tid input) * 2 : ℕ) -
      ((span config type entry).1 - replyStart input type)))
  omega

theorem LaidOut.used (h : LaidOut config input type) {channel : ServedChannel}
    (hchannel : channel ∈ input.channels) (htopic : channel.topic.isSome) :
    (input, channel) ∈ usedChannels config input.slave type :=
  mem_usedChannels.2 ⟨h.member, rfl, h.typed, hchannel, htopic⟩

/-- A bit channel among those asked for reads as its default. -/
theorem LaidOut.read_bit (h : LaidOut config input type) (hbit : type.IsBit)
    (hslave : 0 ≤ input.slave ∧ input.slave ≤ 255) {channel : ServedChannel}
    (hused : (input, channel) ∈ usedChannels config input.slave type) (tier : Tier)
    (bridge : Config) (naValue : Option ℕ)
    (hrange : channelInRange .tcp (some bridge) (servedReply config tid input)
      (input.polled type tier) channel.toChannel)
    (hasked : channel.offset - input.addressOffset < input.naddress) :
    readChannel .tcp (some bridge) naValue (servedReply config tid input) (input.polled type tier)
      channel.toChannel = .raw (defaultRaw type channel) := by
  have hplace := h.bit_eq hbit tier hused
  have hstart : replyStart input type = input.address + input.addressOffset :=
    replyStart_bit hbit
  have hspan : span config type (input, channel) =
      (input.address + channel.offset, input.address + channel.offset + 1) := span_bit hbit _
  have htyped : (input.polled type tier).type.IsBit := hbit
  have hlo : 0 ≤ channelBit (input.polled type tier) channel.toChannel := by
    unfold channelInRange at hrange
    dsimp only at hrange
    rw [if_pos htyped] at hrange
    split_ifs at hrange with hout
    omega
  obtain ⟨i, hi⟩ := Int.eq_ofNat_of_zero_le hlo
  have hcover : (span config type (input, channel)).1 ≤ replyStart input type + i ∧
      replyStart input type + i < (span config type (input, channel)).2 := by
    rw [hspan] at hplace ⊢
    exact ⟨by omega, by omega⟩
  have hlt : (i : ℤ) < input.naddress := by
    rw [hspan, hstart] at hplace
    omega
  have hmem : i ∈ servedCoils config (polledRequest tid input) ↔ floatValue channel.value ≠ 0 := by
    rw [h.mem_servedCoils hbit hslave]
    constructor
    · rintro ⟨entry, hentry, hsame, -, hvalue⟩
      have hother : (span config type entry).1 ≤ replyStart input type + i ∧
          replyStart input type + i < (span config type entry).2 := by
        rw [span_bit hbit] at hsame ⊢
        dsimp only at hsame ⊢
        omega
      rw [h.unique hentry hused hother hcover] at hvalue
      exact hvalue
    · intro hvalue
      exact ⟨_, hused, by omega, hlt, hvalue⟩
  have hget : PackedBits.get (frameData .tcp (servedReply config tid input)) i =
      decide (floatValue channel.value ≠ 0) := by
    rw [(h.bit_reply tid hbit).2 i (by omega)]
    exact decide_eq_decide.2 hmem
  unfold readChannel channelData
  rw [if_pos hrange, if_pos htyped]
  dsimp only
  rw [if_pos htyped, hi, Int.toNat_natCast]
  change ChannelValue.raw (.int ((frameData .tcp _ (i / 8)).toNat >>> (i % 8) &&& 1 : ℕ)) = _
  rw [PackedBits.shift_and_one, hget, defaultRaw, if_pos hbit]
  split_ifs with hvalue <;> simp [hvalue]

theorem decodeSize_encodable {channel : Channel} {value : ℚ} {single : UInt32} {bytes : List UInt8}
    (h : encodeValue channel.format value single = some bytes) :
    decodeSize channel = bytes.length := by
  rw [encodeValue_length h]
  unfold decodeSize
  cases hformat : channel.format <;> rw [hformat] at h <;> first | rfl | cases h

/-- The value of a register channel is put where the channel is read from. -/
theorem LaidOut.patch_register (h : LaidOut config input type) (hbit : ¬ type.IsBit)
    {channel : ServedChannel} (hused : (input, channel) ∈ usedChannels config input.slave type)
    (tier : Tier) {bridge : Config} (hsame : bridge.offsetSize = config.offsetSize)
    (hrange : channelInRange .tcp (some bridge) (servedReply config tid input)
      (input.polled type tier) channel.toChannel) {bytes : List UInt8}
    (hbytes : encodeValue channel.format (floatValue channel.value) channel.value = some bytes) :
    ∃ k : ℕ, channelByteOffset (some bridge) (input.polled type tier) channel.toChannel = k ∧
      (k : ℤ) + bytes.length ≤ input.naddress * 2 ∧
        servedPatch config input (polledRequest tid input) channel = some ⟨9 + k, bytes⟩ := by
  have hint := h.int _ hused
  have htyped : ¬ (input.polled type tier).type.IsBit := hbit
  have hend : (span config type (input, channel)).2 =
      (span config type (input, channel)).1 + channel.length := by rw [span_register hbit]
  obtain ⟨hnbytes, -⟩ := h.register_reply tid hbit
  have hcount := h.count_eq tid
  have hplace := h.byteOffset_eq hbit tier hsame hused
  have hposition : servedPosition config input channel (polledRequest tid input) =
      (span config type (input, channel)).1 - replyStart input type := h.position_eq tid hbit hused
  have hlength : bytes.length = channel.length := by
    have hfixed : formatSize channel.format ≠ 0 := by
      cases hformat : channel.format <;> rw [hformat] at hbytes <;> first | decide | cases hbytes
    rw [encodeValue_length hbytes]
    exact ((h.sized hbit _ hused).resolve_left hfixed).symm
  have hsize : channelSize channel.toChannel = channel.length := by
    unfold channelSize
    split_ifs with hpos
    · rfl
    · rw [← encodeValue_length hbytes, hlength]
  have hinside : 0 ≤ channelByteOffset (some bridge) (input.polled type tier) channel.toChannel ∧
      channelByteOffset (some bridge) (input.polled type tier) channel.toChannel + channel.length ≤
        input.naddress * 2 := by
    have hin := hrange
    unfold channelInRange at hin
    rw [if_neg htyped, hnbytes, hsize] at hin
    dsimp only at hin
    rw [cInt_eq (by omega) (by omega)] at hin
    split_ifs at hin with hout
    omega
  obtain ⟨k, hk⟩ := Int.eq_ofNat_of_zero_le hinside.1
  refine ⟨k, hk, by omega, ?_⟩
  have htext : formatIsText channel.format = false := by
    have hsome := (encodeValue_isSome_iff channel.format (floatValue channel.value)
      channel.value).1 (by rw [hbytes]; rfl)
    simpa using hsome.1
  have htopic := (mem_usedChannels.1 hused).2.2.2.2
  have hpos : servedPosition config input channel (polledRequest tid input) = k := by omega
  unfold servedPatch
  dsimp only
  rw [hpos, cInt_eq (by omega) (by omega), if_neg (by
    rintro (hnone | hneg | hout)
    · rw [Option.isNone_iff_eq_none.1 hnone] at htopic
      exact absurd htopic Bool.false_ne_true
    · omega
    · omega)]
  rw [servedBytes, htext, if_neg Bool.false_ne_true, hbytes, Int.toNat_natCast]
  rfl

/-- What is put into a reply for a channel is read back from it: no other channel lies there. -/
theorem LaidOut.read_patch (h : LaidOut config input type) (hbit : ¬ type.IsBit)
    (hslave : 0 ≤ input.slave ∧ input.slave ≤ 255) {channel : ServedChannel}
    (hused : (input, channel) ∈ usedChannels config input.slave type) {k : ℕ} {bytes : List UInt8}
    (hinside : (k : ℤ) + bytes.length ≤ input.naddress * 2)
    (hpatch : servedPatch config input (polledRequest tid input) channel = some ⟨9 + k, bytes⟩)
    {i : ℕ} (hi : i < bytes.length) :
    frameData .tcp (servedReply config tid input) (k + i) = bytes.getD i 0 := by
  obtain ⟨-, zeros, hdata⟩ := h.register_reply tid hbit
  have hcovers : (⟨9 + k, bytes⟩ : Patch UInt8).Covers (9 + (k + i)) :=
    ⟨by dsimp only; omega, by dsimp only; omega⟩
  have hown := h.patch_covers hbit hused hpatch hcovers
  rw [(hdata (k + i) (by push_cast; omega)).2,
    Patch.applyAll_inside ((h.mem_servedPatches hslave).2 ⟨_, hused, hpatch⟩) hcovers ?_ 0]
  · dsimp only
    congr 1
    omega
  · intro q hq hqcovers
    obtain ⟨entry, hentry, hqpatch⟩ := (h.mem_servedPatches hslave).1 hq
    have hother := h.patch_covers hbit hentry hqpatch hqcovers
    have heq := h.unique hentry hused hother hown
    rw [heq, hpatch] at hqpatch
    exact (Option.some.inj hqpatch).symm

/-- A register channel with a value in its format reads as its default. -/
theorem LaidOut.read_register (h : LaidOut config input type) (hbit : ¬ type.IsBit)
    (hslave : 0 ≤ input.slave ∧ input.slave ≤ 255) {channel : ServedChannel}
    (hused : (input, channel) ∈ usedChannels config input.slave type) (tier : Tier)
    {bridge : Config} (hsame : bridge.offsetSize = config.offsetSize) (naValue : Option ℕ)
    (hrange : channelInRange .tcp (some bridge) (servedReply config tid input)
      (input.polled type tier) channel.toChannel) {bytes : List UInt8}
    (hbytes : encodeValue channel.format (floatValue channel.value) channel.value = some bytes)
    (hvalue : Representable channel.format (floatValue channel.value))
    (hshown : ¬ IsMarker naValue channel.format (floatValue channel.value)) :
    readChannel .tcp (some bridge) naValue (servedReply config tid input) (input.polled type tier)
      channel.toChannel = .raw (rawValue channel.format (floatValue channel.value) channel.value) := by
  have htyped : ¬ (input.polled type tier).type.IsBit := hbit
  obtain ⟨k, hk, hinside, hpatch⟩ := h.patch_register hbit hused tier hsame hrange hbytes
  have hchannel : channelData .tcp (some bridge) (servedReply config tid input)
      (input.polled type tier) channel.toChannel = some bytes := by
    unfold channelData
    rw [if_pos hrange, if_neg htyped, hk, Int.toNat_natCast, decodeSize_encodable hbytes]
    congr 1
    refine List.ext_getElem (by simp) fun i hi hi' => ?_
    rw [List.getElem_map, List.getElem_range, h.read_patch hbit hslave hused hinside hpatch hi',
      List.getD_eq_getElem _ _ hi']
  unfold readChannel
  rw [hchannel]
  dsimp only
  rw [if_neg htyped, channelIsNa_encodeValue hbytes,
    decide_eq_false hshown, if_neg Bool.false_ne_true, readRaw_encodeValue hbytes hvalue]
  rfl

/-- The reply of the server, read back by the bridge. -/
structure LayoutsAgree (config : ServedConfig) (bridge : Config) (naValue : Option ℕ)
    (reply : Frame .reader) (input : ServedInput) (type : InputType) (tier : Tier) : Prop where
  channels : ∀ channel ∈ input.channels, channel.topic.isSome →
    channelInRange .tcp (some bridge) reply (input.polled type tier) channel.toChannel →
      Servable type channel → Shown naValue input type channel →
        readChannel .tcp (some bridge) naValue reply (input.polled type tier) channel.toChannel =
          .raw (defaultRaw type channel)
  bits : type.IsBit → ∀ i : ℕ, (i : ℤ) / 8 < frameNbytes .tcp reply →
    Uncovered config input.slave type (replyStart input type + i) →
      PackedBits.get (frameData .tcp reply) i = false
  registers : ¬ type.IsBit → ∀ i : ℕ, (i : ℤ) < frameNbytes .tcp reply →
    Uncovered config input.slave type (replyStart input type + i) →
      frameData .tcp reply i = 0

/-- What the bridge reads is what the server was configured with. -/
theorem served_reply_agrees (h : LaidOut config input type)
    (hslave : 0 ≤ input.slave ∧ input.slave ≤ 255) {bridge : Config}
    (hsame : bridge.offsetSize = config.offsetSize) (naValue : Option ℕ) (tid : ℕ) (tier : Tier) :
    LayoutsAgree config bridge naValue (servedReply config tid input) input type tier where
  channels channel hchannel htopic hrange hservable hshown := by
    have hused := h.used hchannel htopic
    by_cases hbit : type.IsBit
    · rw [Shown, if_pos hbit] at hshown
      exact h.read_bit hbit hslave hused tier bridge naValue hrange hshown
    · rw [Shown, if_neg hbit] at hshown
      obtain ⟨hsome, hvalue⟩ := hservable.resolve_left hbit
      obtain ⟨bytes, hbytes⟩ := Option.isSome_iff_exists.1 hsome
      rw [defaultRaw, if_neg hbit]
      exact h.read_register hbit hslave hused tier hsame naValue hrange hbytes hvalue hshown
  bits hbit i hi huncovered := by
    obtain ⟨hnbytes, hget⟩ := h.bit_reply tid hbit
    rw [hget i (by omega), decide_eq_false_iff_not, h.mem_servedCoils hbit hslave]
    rintro ⟨entry, hentry, hplace, -, -⟩
    refine huncovered entry hentry ?_
    rw [span_bit hbit] at hplace ⊢
    dsimp only at hplace ⊢
    omega
  registers hbit i hi huncovered := by
    obtain ⟨hnbytes, zeros, hdata⟩ := h.register_reply tid hbit
    obtain ⟨hzero, hlaid⟩ := hdata i (by omega)
    rw [hlaid, Patch.applyAll_outside, hzero]
    intro p hp hcovers
    obtain ⟨entry, hentry, hpatch⟩ := (h.mem_servedPatches hslave).1 hp
    exact huncovered entry hentry (h.patch_covers hbit hentry hpatch hcovers)

def oneInput (slave : ℤ) (type : InputType) (channel : ServedChannel) : ServedInput :=
  ⟨slave, some type, 0, 0, 2, [channel]⟩

def oneConfig (slave : ℤ) (type : InputType) (channel : ServedChannel) : ServedConfig :=
  ⟨[oneInput slave type channel], 1⟩

def oneBridge : Config := ⟨[], 1, .parallell, 0, 0, 0, false⟩

theorem oneConfig_laidOut (slave : ℤ) (type : InputType) {channel : ServedChannel}
    (htopic : channel.topic.isSome) (hsized : ¬ type.IsBit → channel.toChannel.Sized)
    (hoffset : 0 ≤ channel.offset ∧ channel.offset < 2000) (hlength : channel.length < 2000) :
    LaidOut (oneConfig slave type channel) (oneInput slave type channel) type := by
  have hused : usedChannels (oneConfig slave type channel) (oneInput slave type channel).slave type =
      [(oneInput slave type channel, channel)] := by
    simp [usedChannels, oneConfig, oneInput, htopic]
  constructor
  case member => exact List.mem_singleton_self _
  case typed => rfl
  case address => exact (by decide : 0 ≤ (0 + 0 : ℤ) ∧ (0 + 0 : ℤ) ≤ 65535)
  case count =>
    change 1 ≤ (2 : ℤ) ∧ (2 : ℤ) ≤ if type.IsBit then 2000 else 125
    split_ifs <;> decide
  case apart =>
    rw [hused]
    exact List.pairwise_singleton _ _
  case sized =>
    intro hbit entry hentry
    rw [hused, List.mem_singleton] at hentry
    rw [hentry]
    exact hsized hbit
  case int =>
    intro entry hentry
    rw [hused, List.mem_singleton] at hentry
    rw [hentry, span, replyStart]
    change _ ≤ _ - (0 + 0) * _ ∧ _ - (0 + 0) * _ < _
    by_cases hbit : type.IsBit
    · rw [if_pos hbit, if_pos hbit]
      change _ ≤ 0 + channel.offset - _ ∧ 0 + channel.offset + 1 - _ < _
      omega
    · rw [if_neg hbit, if_neg hbit]
      change _ ≤ 0 * 2 + channel.offset * 1 - _ ∧
        0 * 2 + channel.offset * 1 + (channel.length : ℤ) - _ < _
      omega

def levelChannel : ServedChannel := ⟨⟨2, 2, .ab⟩, some "level", 0x447A0000, none⟩

theorem served_reply_agrees_example :
    LayoutsAgree (oneConfig 7 .inputRegister levelChannel) oneBridge (some 0x8000)
      (servedReply (oneConfig 7 .inputRegister levelChannel) 1
        (oneInput 7 .inputRegister levelChannel))
      (oneInput 7 .inputRegister levelChannel) .inputRegister .fast :=
  served_reply_agrees (oneConfig_laidOut 7 .inputRegister rfl (fun _ => .inr rfl) (by decide)
    (by decide)) (by decide) rfl _ _ _

/-- Every servable default of a channel in range is read back. -/
def ReadsDefaults (config : ServedConfig) (bridge : Config) (naValue : Option ℕ)
    (input : ServedInput) (type : InputType) : Prop :=
  ∀ channel ∈ input.channels, channel.topic.isSome →
    channelInRange .tcp (some bridge) (servedReply config 1 input) (input.polled type .fast)
      channel.toChannel → Servable type channel →
        readChannel .tcp (some bridge) naValue (servedReply config 1 input)
          (input.polled type .fast) channel.toChannel = .raw (defaultRaw type channel)

/-- The word 65535, and a coil behind the two that are asked for. -/
def fullChannel : ServedChannel := ⟨⟨0, 2, .ab⟩, some "full", 0x477FFF00, none⟩
def paddingChannel : ServedChannel := ⟨⟨3, 0, .unknown⟩, some "padding", 0x3F800000, none⟩

/-- A word that is the marker for "no value" reads as none, a coil in the padding of the last
byte reads as zero, and a slave number above a byte polls another slave. -/
theorem defaults_not_always_read :
    (LaidOut (oneConfig 1 .holdingRegister fullChannel) (oneInput 1 .holdingRegister fullChannel)
        .holdingRegister ∧
      ¬ ReadsDefaults (oneConfig 1 .holdingRegister fullChannel) oneBridge (some 0xffff)
        (oneInput 1 .holdingRegister fullChannel) .holdingRegister) ∧
    (LaidOut (oneConfig 1 .coil paddingChannel) (oneInput 1 .coil paddingChannel) .coil ∧
      ¬ ReadsDefaults (oneConfig 1 .coil paddingChannel) oneBridge none
        (oneInput 1 .coil paddingChannel) .coil) ∧
    (LaidOut (oneConfig 300 .inputRegister levelChannel)
        (oneInput 300 .inputRegister levelChannel) .inputRegister ∧
      ¬ ReadsDefaults (oneConfig 300 .inputRegister levelChannel) oneBridge none
        (oneInput 300 .inputRegister levelChannel) .inputRegister) := by
  refine ⟨⟨?_, fun hall => ?_⟩, ⟨?_, fun hall => ?_⟩, ⟨?_, fun hall => ?_⟩⟩
  · exact oneConfig_laidOut _ _ rfl (fun _ => .inr rfl) (by decide) (by decide)
  · exact absurd (hall _ (List.mem_singleton_self _) rfl (by decide +kernel) (by decide +kernel))
      (by decide +kernel)
  · exact oneConfig_laidOut _ _ rfl (fun hbit => absurd trivial hbit) (by decide) (by decide)
  · exact absurd (hall _ (List.mem_singleton_self _) rfl (by decide +kernel) (by decide +kernel))
      (by decide +kernel)
  · exact oneConfig_laidOut _ _ rfl (fun _ => .inr rfl) (by decide) (by decide)
  · exact absurd (hall _ (List.mem_singleton_self _) rfl (by decide +kernel) (by decide +kernel))
      (by decide +kernel)

end Modbusmq
