import Modbusmq.Decoding.Channels
import Modbusmq.Decoding.Text
import Modbusmq.Decoding.TextValues
import Modbusmq.Library.Patch

/-!
# The responses of the virtual server

`modbusmq_prepare_response` of `modbusmq_server.c` on a TCP context: reads are
answered from the configured defaults, writes with an echo. What it prints is
left out.
-/

namespace Modbusmq

/-- A channel with what the server uses of it: the `float` default by its bits, and the text
as it stands in the file. -/
structure ServedChannel extends Channel where
  topic : Option String
  value : UInt32
  valueText : Option (List UInt8)

/-- An input as the server uses it; the type is `none` where the file names none it knows. -/
structure ServedInput where
  slave : ℤ
  type : Option InputType
  address : ℤ
  addressOffset : ℤ
  naddress : ℤ
  channels : List ServedChannel

structure ServedConfig where
  inputs : List ServedInput
  offsetSize : ℤ

def typeCode (type : Option InputType) : ℕ := type.elim 0 (·.code)

def floatValue (bits : UInt32) : ℚ :=
  let sign : ℚ := if bits >>> 31 = 1 then -1 else 1
  let exponent := (bits >>> 23 &&& 0xff).toNat
  let fraction := (bits &&& 0x7fffff).toNat
  if exponent = 0 then sign * fraction * 2 ^ (-149 : ℤ)
  else sign * (2 ^ 23 + fraction) * 2 ^ (exponent - 150 : ℤ)

/-- The functions `modbusmq_prepare_response` has code for. -/
def Implemented (function : UInt8) : Prop :=
  IsRead function ∨ function = writeSingleCoil ∨ function = writeSingleRegister ∨
    function = writeMultipleRegisters

instance (function : UInt8) : Decidable (Implemented function) :=
  inferInstanceAs (Decidable (_ ∨ _))

def requestAddress (req : Frame .reader) : ℕ := be16 (req.buf 8) (req.buf 9)
def requestCount (req : Frame .reader) : ℕ := be16 (req.buf 10) (req.buf 11)

def answerHeader (req : Frame .reader) (res : Frame .writer) : Frame .writer :=
  (((((res.poke 0 (req.buf 0)).poke 1 (req.buf 1)).poke 2 0).poke 3 0).poke 6 (req.buf 6)).poke 7
    (req.buf 7)

def answerException (req : Frame .reader) (res : Frame .writer) : Frame .writer :=
  ((((res.poke 7 (req.buf 7 ||| 0x80)).poke 8 0x03).poke 4 0).poke 5 3).resize 9

/-- Address and value, or register count for function 16. -/
def answerEcho (req : Frame .reader) (res : Frame .writer) : Frame .writer :=
  ((((((res.poke 8 (req.buf 8)).poke 9 (req.buf 9)).poke 10 (req.buf 10)).poke 11
    (req.buf 11)).poke 4 0).poke 5 6).resize 12

/-- A payload of `n` bytes that `fill` has laid out in zeros, with its byte count and the
length field. -/
def answerPayload (n : ℕ) (fill : (ℕ → UInt8) → ℕ → UInt8) (res : Frame .writer) :
    Frame .writer :=
  let res := { res with buf := fill (Patch.apply res.buf ⟨9, List.replicate n 0⟩) }
  (((res.poke 8 (UInt8.ofNat n)).poke 4 (byteOf ((n + 3 : ℕ) / 256))).poke 5
    (byteOf (n + 3 : ℕ))).resize (n + 3 + 6)

/-- A write request the server refuses. -/
def writeBad (req : Frame .reader) : Prop :=
  if req.buf 7 = writeSingleCoil then requestCount req ≠ 0xFF00 ∧ requestCount req ≠ 0x0000
  else if req.buf 7 = writeSingleRegister then False
  else requestCount req < 1 ∨ 123 < requestCount req ∨
    (req.buf 12).toNat ≠ requestCount req * 2 ∨ req.xmit < 13 + (req.buf 12).toNat

instance (req : Frame .reader) : Decidable (writeBad req) := by
  unfold writeBad
  infer_instance

def servedInputs (config : ServedConfig) (req : Frame .reader) : List ServedInput :=
  config.inputs.filter fun input =>
    input.slave = (req.buf 6).toNat ∧ typeCode input.type = (req.buf 7).toNat

/-- The coil of a channel, counted from the first one asked for. -/
def servedCoil (input : ServedInput) (channel : ServedChannel) (req : Frame .reader) : ℤ :=
  cInt (input.address + channel.offset - requestAddress req)

/-- The coils that are set: those of channels with a default other than zero. -/
def servedCoils (config : ServedConfig) (req : Frame .reader) : List ℕ :=
  (servedInputs config req).flatMap fun input =>
    (input.channels.filter fun channel =>
      channel.topic.isSome ∧ 0 ≤ servedCoil input channel req ∧
        servedCoil input channel req < requestCount req ∧ floatValue channel.value ≠ 0).map
      fun channel => (servedCoil input channel req).toNat

def setCoil (buf : ℕ → UInt8) (icoil : ℕ) : ℕ → UInt8 :=
  Function.update buf (9 + icoil / 8) (buf (9 + icoil / 8) ||| UInt8.ofNat (1 <<< (icoil % 8)))

/-- The byte position of a register channel in the response. -/
def servedPosition (config : ServedConfig) (input : ServedInput) (channel : ServedChannel)
    (req : Frame .reader) : ℤ :=
  let offsetSize : ℤ := if 0 < config.offsetSize then config.offsetSize else 1
  cInt (channel.offset * offsetSize - (requestAddress req - input.address) * 2)

def cSize (n : ℤ) : ℕ := (n % 2 ^ 64).toNat

/-- The bytes a default leaves in the response, whether or not its encoder succeeds. -/
def servedBytes (channel : ServedChannel) (room : ℕ) : List UInt8 :=
  if formatIsText channel.format then
    channel.valueText.elim [] fun text => (encodeText channel.toChannel text room).2
  else (encodeValue channel.format (floatValue channel.value) channel.value).getD []

/-- Where a channel is laid out, if the code takes it to be inside what was asked for: the sum that
it compares may have left the range of `int`. -/
def servedPatch (config : ServedConfig) (input : ServedInput) (req : Frame .reader)
    (channel : ServedChannel) : Option (Patch UInt8) :=
  let nbytes := requestCount req * 2
  let pos := servedPosition config input channel req
  if channel.topic.isNone ∨ pos < 0 ∨ nbytes < cInt (pos + channel.length) then none
  else some ⟨9 + pos.toNat, servedBytes channel (cSize (nbytes - pos))⟩

/-- What the register channels write, in the order of the configuration. -/
def servedPatches (config : ServedConfig) (req : Frame .reader) : List (Patch UInt8) :=
  (servedInputs config req).flatMap fun input =>
    input.channels.filterMap (servedPatch config input req)

/-- What `modbusmq_prepare_response` puts in the frame. The frame has no end here; whether the
writes stay inside the 260 bytes is a question of its own. -/
def filledResponse (config : ServedConfig) (req : Frame .reader) (res : Frame .writer) :
    Frame .writer :=
  let function := req.buf 7
  let naddress := requestCount req
  let res := answerHeader req res
  if function = writeSingleCoil ∨ function = writeSingleRegister ∨
      function = writeMultipleRegisters then
    if writeBad req then answerException req res else answerEcho req res
  else
    let isBit : Bool := function = readCoils ∨ function = readDiscreteInputs
    if naddress = 0 ∨ (if isBit then 2000 else 125) < naddress then answerException req res
    else if isBit then
      answerPayload ((naddress + 7) / 8) (fun buf => (servedCoils config req).foldl setCoil buf) res
    else
      answerPayload (naddress * 2)
        (fun buf => Patch.applyAll buf (servedPatches config req)) res

def ServesRegisters (req : Frame .reader) : Prop :=
  ¬ (req.buf 7 = writeSingleCoil ∨ req.buf 7 = writeSingleRegister ∨
    req.buf 7 = writeMultipleRegisters) ∧
    ¬ (req.buf 7 = readCoils ∨ req.buf 7 = readDiscreteInputs) ∧
      requestCount req ≠ 0 ∧ requestCount req ≤ 125

instance (req : Frame .reader) : Decidable (ServesRegisters req) :=
  inferInstanceAs (Decidable (_ ∧ _))

/-- Something is written behind the end of the frame. -/
def Overruns (p : Patch UInt8) : Prop := p.cells ≠ [] ∧ frameMax < p.start + p.cells.length

instance (p : Patch UInt8) : Decidable (Overruns p) := inferInstanceAs (Decidable (_ ∧ _))

def prepareResponse (config : ServedConfig) (req : Frame .reader) (res : Frame .writer) :
    Option (Frame .writer) :=
  if ServesRegisters req ∧ ∃ p ∈ servedPatches config req, Overruns p then none
  else some (filledResponse config req res)

/-- The body of a reply: what the function prescribes for the count that was asked for, or
one exception code. -/
inductive ReplyBody (req : Frame .reader) (res : Frame .writer) : Prop
  | bits (hfunction : req.buf 7 = readCoils ∨ req.buf 7 = readDiscreteInputs)
      (hsame : res.buf 7 = req.buf 7) (hcount : (res.buf 8).toNat = (requestCount req + 7) / 8)
      (hlength : res.length = 9 + (requestCount req + 7) / 8)
  | registers (hfunction : req.buf 7 = readHoldingRegisters ∨ req.buf 7 = readInputRegisters)
      (hsame : res.buf 7 = req.buf 7) (hcount : (res.buf 8).toNat = requestCount req * 2)
      (hlength : res.length = 9 + requestCount req * 2)
  | echo (hfunction : req.buf 7 = writeSingleCoil ∨ req.buf 7 = writeSingleRegister ∨
      req.buf 7 = writeMultipleRegisters) (hsame : res.buf 7 = req.buf 7)
      (hecho : ∀ i, 8 ≤ i → i < 12 → res.buf i = req.buf i) (hlength : res.length = 12)
  | exception (hbit : res.buf 7 = req.buf 7 ||| 0x80) (hlength : res.length = 9)

/-- What all responses have in common, whatever their body. -/
structure Answers (req : Frame .reader) (res : Frame .writer) : Prop where
  fits : res.length ≤ frameMax
  mbap : tcpDeclared res = res.length
  transaction : res.buf 0 = req.buf 0 ∧ res.buf 1 = req.buf 1
  unit : res.buf 6 = req.buf 6

/-- A reply the client can take for the answer to its request. -/
structure WellFormedReply (req : Frame .reader) (res : Frame .writer) : Prop
    extends Answers req res where
  body : ReplyBody req res

theorem answerException_answers (req : Frame .reader) (res : Frame .writer) :
    Answers req (answerException req (answerHeader req res)) :=
  ⟨(by decide : 9 ≤ frameMax), (by decide : be16 0 3 + 6 = 9), ⟨rfl, rfl⟩, rfl⟩

theorem answerEcho_answers (req : Frame .reader) (res : Frame .writer) :
    Answers req (answerEcho req (answerHeader req res)) :=
  ⟨(by decide : 12 ≤ frameMax), (by decide : be16 0 6 + 6 = 12), ⟨rfl, rfl⟩, rfl⟩

theorem answerPayload_buf (n : ℕ) (fill : (ℕ → UInt8) → ℕ → UInt8) (res : Frame .writer) (i : ℕ) :
    (answerPayload n fill res).buf i =
      if i = 5 then byteOf (n + 3 : ℕ) else if i = 4 then byteOf ((n + 3 : ℕ) / 256)
      else if i = 8 then UInt8.ofNat n else fill (Patch.apply res.buf ⟨9, List.replicate n 0⟩) i := by
  unfold answerPayload Frame.resize Frame.poke
  simp only [Function.update_apply]

/-- A fill that lays out a payload leaves what is in front of it alone. -/
def FillsPayload (fill : (ℕ → UInt8) → ℕ → UInt8) : Prop := ∀ buf, ∀ i < 9, fill buf i = buf i

theorem FillsPayload.header {fill : (ℕ → UInt8) → ℕ → UInt8} (h : FillsPayload fill) {n i : ℕ}
    (res : Frame .writer) (hi : i < 9) (hother : i ≠ 4 ∧ i ≠ 5 ∧ i ≠ 8) :
    (answerPayload n fill res).buf i = res.buf i := by
  rw [answerPayload_buf, if_neg hother.2.1, if_neg hother.1, if_neg hother.2.2, h _ i hi]
  refine Patch.apply_outside fun hcovers => ?_
  exact absurd hcovers.1 (not_le.2 hi)

theorem answerPayload_declared {n : ℕ} (hn : n ≤ 250) (fill : (ℕ → UInt8) → ℕ → UInt8)
    (res : Frame .writer) : tcpDeclared (answerPayload n fill res) = n + 3 + 6 := by
  have hword := be16_byteOf (n + 3 : ℕ)
  unfold tcpDeclared
  rw [answerPayload_buf, answerPayload_buf, if_neg (by decide), if_pos rfl, if_pos rfl]
  omega

/-- A payload is announced by its byte count and by the length field. -/
theorem answerPayload_answers (req : Frame .reader) (res : Frame .writer) {n : ℕ} (hn : n ≤ 250)
    {fill : (ℕ → UInt8) → ℕ → UInt8} (hfill : FillsPayload fill) :
    Answers req (answerPayload n fill (answerHeader req res)) where
  fits := by
    change n + 3 + 6 ≤ 260
    omega
  mbap := answerPayload_declared hn fill _
  transaction := ⟨hfill.header _ (by decide) (by decide), hfill.header _ (by decide) (by decide)⟩
  unit := hfill.header _ (by decide) (by decide)

theorem answerPayload_count {n : ℕ} (hn : n ≤ 250) (fill : (ℕ → UInt8) → ℕ → UInt8)
    (res : Frame .writer) : ((answerPayload n fill res).buf 8).toNat = n := by
  rw [answerPayload_buf, if_neg (by decide), if_neg (by decide), if_pos rfl, UInt8.toNat_ofNat']
  omega

theorem setCoil_fills (coils : List ℕ) : FillsPayload fun buf => coils.foldl setCoil buf := by
  intro buf i hi
  induction coils generalizing buf with
  | nil => rfl
  | cons icoil coils ih => exact (ih (setCoil buf icoil)).trans (Function.update_of_ne (by omega) _ _)

theorem mem_servedPatches {config : ServedConfig} {req : Frame .reader} {p : Patch UInt8} :
    p ∈ servedPatches config req ↔ ∃ input ∈ servedInputs config req, ∃ channel ∈ input.channels,
      servedPatch config input req channel = some p := by
  simp only [servedPatches, List.mem_flatMap, List.mem_filterMap]

theorem servedPatches_fill (config : ServedConfig) (req : Frame .reader) :
    FillsPayload fun buf => Patch.applyAll buf (servedPatches config req) := by
  intro buf i hi
  refine Patch.applyAll_outside fun p hp hcovers => ?_
  obtain ⟨input, -, channel, -, hpatch⟩ := mem_servedPatches.1 hp
  unfold servedPatch at hpatch
  dsimp only at hpatch
  split_ifs at hpatch
  obtain rfl := Option.some.inj hpatch
  have hstart := hcovers.1
  dsimp only at hstart
  omega

theorem filledResponse_bits (config : ServedConfig) {req : Frame .reader}
    (hbit : req.buf 7 = readCoils ∨ req.buf 7 = readDiscreteInputs) (hsome : requestCount req ≠ 0)
    (hcount : requestCount req ≤ 2000) (res : Frame .writer) :
    filledResponse config req res = answerPayload ((requestCount req + 7) / 8)
      (fun buf => (servedCoils config req).foldl setCoil buf) (answerHeader req res) := by
  have hwrite : ¬ (req.buf 7 = writeSingleCoil ∨ req.buf 7 = writeSingleRegister ∨
      req.buf 7 = writeMultipleRegisters) := by
    rcases hbit with hbit | hbit <;> rw [hbit] <;> decide
  unfold filledResponse
  dsimp only
  rw [if_neg hwrite, decide_eq_true hbit, if_pos rfl, if_pos rfl, if_neg (by omega)]

theorem filledResponse_registers (config : ServedConfig) {req : Frame .reader}
    (hwrite : ¬ (req.buf 7 = writeSingleCoil ∨ req.buf 7 = writeSingleRegister ∨
      req.buf 7 = writeMultipleRegisters))
    (hbit : ¬ (req.buf 7 = readCoils ∨ req.buf 7 = readDiscreteInputs))
    (hsome : requestCount req ≠ 0) (hcount : requestCount req ≤ 125) (res : Frame .writer) :
    filledResponse config req res = answerPayload (requestCount req * 2)
      (fun buf => Patch.applyAll buf (servedPatches config req)) (answerHeader req res) := by
  have hregisters : ¬ (false = true) := Bool.false_ne_true
  unfold filledResponse
  dsimp only
  rw [if_neg hwrite, decide_eq_false hbit, if_neg hregisters, if_neg hregisters,
    if_neg (by omega)]

theorem filledResponse_cases (config : ServedConfig) (req : Frame .reader) (res : Frame .writer) :
    (Implemented (req.buf 7) ∨ requestCount req = 0 ∨ 125 < requestCount req) ∧
      filledResponse config req res = answerException req (answerHeader req res) ∨
    (req.buf 7 = writeSingleCoil ∨ req.buf 7 = writeSingleRegister ∨
      req.buf 7 = writeMultipleRegisters) ∧
      filledResponse config req res = answerEcho req (answerHeader req res) ∨
    (req.buf 7 = readCoils ∨ req.buf 7 = readDiscreteInputs) ∧
      requestCount req ≠ 0 ∧ requestCount req ≤ 2000 ∧ filledResponse config req res =
        answerPayload ((requestCount req + 7) / 8)
          (fun buf => (servedCoils config req).foldl setCoil buf) (answerHeader req res) ∨
    ¬ (req.buf 7 = writeSingleCoil ∨ req.buf 7 = writeSingleRegister ∨
      req.buf 7 = writeMultipleRegisters) ∧ ¬ (req.buf 7 = readCoils ∨ req.buf 7 = readDiscreteInputs) ∧
      requestCount req ≠ 0 ∧ requestCount req ≤ 125 ∧ filledResponse config req res =
        answerPayload (requestCount req * 2)
          (fun buf => Patch.applyAll buf (servedPatches config req)) (answerHeader req res) := by
  by_cases hwrite : req.buf 7 = writeSingleCoil ∨ req.buf 7 = writeSingleRegister ∨
      req.buf 7 = writeMultipleRegisters
  · unfold filledResponse
    dsimp only
    rw [if_pos hwrite]
    split_ifs
    · exact .inl ⟨.inl (.inr hwrite), rfl⟩
    · exact .inr (.inl ⟨hwrite, rfl⟩)
  by_cases hbit : req.buf 7 = readCoils ∨ req.buf 7 = readDiscreteInputs
  · by_cases hcount : requestCount req = 0 ∨ 2000 < requestCount req
    · refine .inl ⟨.inl (.inl (hbit.imp_right .inl)), ?_⟩
      unfold filledResponse
      dsimp only
      rw [if_neg hwrite, decide_eq_true hbit, if_pos rfl, if_pos hcount]
    · rw [not_or, not_lt] at hcount
      exact .inr (.inr (.inl ⟨hbit, hcount.1, hcount.2,
        filledResponse_bits config hbit hcount.1 hcount.2 res⟩))
  · by_cases hcount : requestCount req = 0 ∨ 125 < requestCount req
    · refine .inl ⟨.inr hcount, ?_⟩
      unfold filledResponse
      dsimp only
      rw [if_neg hwrite, decide_eq_false hbit, if_neg Bool.false_ne_true, if_pos hcount]
    · rw [not_or, not_lt] at hcount
      exact .inr (.inr (.inr ⟨hwrite, hbit, hcount.1, hcount.2,
        filledResponse_registers config hwrite hbit hcount.1 hcount.2 res⟩))

theorem filledResponse_xmit (config : ServedConfig) (req : Frame .reader) (res : Frame .writer) :
    (filledResponse config req res).xmit = res.xmit := by
  rcases filledResponse_cases config req res with ⟨-, hres⟩ | ⟨-, hres⟩ | ⟨-, -, -, hres⟩ |
    ⟨-, -, -, -, hres⟩
  all_goals
    rw [hres]
    simp only [answerException, answerEcho, answerPayload, answerHeader, Frame.poke_xmit,
      Frame.resize_xmit]

theorem filledResponse_fits (config : ServedConfig) (req : Frame .reader) (res : Frame .writer) :
    (filledResponse config req res).length ≤ frameMax := by
  rcases filledResponse_cases config req res with ⟨-, hres⟩ | ⟨-, hres⟩ | ⟨-, -, hcount, hres⟩ |
    ⟨-, -, -, hcount, hres⟩
  all_goals
    rw [hres]
    simp only [answerException, answerEcho, answerPayload, Frame.resize_length]
    unfold frameMax
    omega

theorem servedBytes_length {channel : ServedChannel} (h : channel.toChannel.Sized) (room : ℕ) :
    (servedBytes channel room).length ≤ channel.length := by
  unfold servedBytes
  split_ifs with htext
  · cases channel.valueText with
    | none => exact Nat.zero_le _
    | some text => exact encodeText_length h text room
  · cases hbytes : encodeValue channel.format (floatValue channel.value) channel.value with
    | none => exact Nat.zero_le _
    | some bytes =>
      have hfixed : formatSize channel.format ≠ 0 := by
        cases hformat : channel.format <;> rw [hformat] at hbytes <;> first | decide | cases hbytes
      exact (encodeValue_length hbytes).trans_le (h.resolve_left hfixed).ge

/-- What is put in the frame is well formed exactly when the server has code for the function, or
refuses the count. -/
theorem filledResponse_wellFormed_iff (config : ServedConfig) (req : Frame .reader) (res : Frame .writer) :
    WellFormedReply req (filledResponse config req res) ↔
      Implemented (req.buf 7) ∨ requestCount req = 0 ∨ 125 < requestCount req := by
  rcases filledResponse_cases config req res with ⟨hallowed, hres⟩ | ⟨hwrite, hres⟩ |
    ⟨hbit, hsome, hcount, hres⟩ | ⟨hwrite, hbit, hsome, hcount, hres⟩
  all_goals rw [hres]
  · refine iff_of_true ⟨answerException_answers req res, .exception rfl rfl⟩ hallowed
  · refine iff_of_true ⟨answerEcho_answers req res, .echo hwrite rfl (fun i hlo hhi => ?_) rfl⟩
      (.inl (.inr hwrite))
    interval_cases i <;> rfl
  · have hn : (requestCount req + 7) / 8 ≤ 250 := by omega
    have hfill := setCoil_fills (servedCoils config req)
    refine iff_of_true ⟨answerPayload_answers req res hn hfill, .bits hbit ?_ ?_ ?_⟩
      (.inl (.inl (hbit.imp_right .inl)))
    · exact hfill.header _ (by decide) (by decide)
    · exact answerPayload_count hn _ _
    · exact Nat.add_comm _ 9
  · have hn : requestCount req * 2 ≤ 250 := by omega
    have hfill := servedPatches_fill config req
    have hlength : (answerPayload (requestCount req * 2)
        (fun buf => Patch.applyAll buf (servedPatches config req)) (answerHeader req res)).length =
          9 + requestCount req * 2 := Nat.add_comm _ 9
    constructor
    · intro hreply
      cases hreply.body with
      | bits hfunction => exact absurd hfunction hbit
      | registers hfunction =>
        exact .inl (.inl (.inr (.inr hfunction)))
      | echo hfunction => exact absurd hfunction hwrite
      | exception _ hnine => omega
    · rintro (himplemented | hzero | hmany)
      · refine ⟨answerPayload_answers req res hn hfill, .registers ?_ ?_ ?_ hlength⟩
        · rcases himplemented with (hread | hread | hread) | hwrite'
          · exact absurd (.inl hread) hbit
          · exact absurd (.inr hread) hbit
          · exact hread
          · exact absurd hwrite' hwrite
        · exact hfill.header _ (by decide) (by decide)
        · exact answerPayload_count hn _ _
      · exact absurd hzero hsome
      · omega

/-- The lengths of the channels are as the parser leaves them. -/
def ParsedLengths (config : ServedConfig) : Prop :=
  ∀ input ∈ config.inputs, ∀ channel ∈ input.channels,
    channel.toChannel.Sized ∧ channel.length ≤ textBytesMax

instance (config : ServedConfig) : Decidable (ParsedLengths config) :=
  inferInstanceAs (Decidable (∀ input ∈ config.inputs, ∀ channel ∈ input.channels,
    channel.toChannel.Sized ∧ channel.length ≤ textBytesMax))

/-- A default of which something is written. -/
def ServedChannel.Written (channel : ServedChannel) : Prop :=
  if formatIsText channel.format then channel.valueText.isSome ∧ channel.length ≠ 0
  else (encodeValue channel.format (floatValue channel.value) channel.value).isSome

instance (channel : ServedChannel) : Decidable channel.Written := by
  unfold ServedChannel.Written
  infer_instance

/-- The position and the length of a channel that is asked for add up to more than an `int`. -/
def Wraps (config : ServedConfig) (req : Frame .reader) : Prop :=
  ServesRegisters req ∧ ∃ input ∈ servedInputs config req, ∃ channel ∈ input.channels,
    channel.topic.isSome ∧ channel.Written ∧ 0 ≤ servedPosition config input channel req ∧
      2 ^ 31 ≤ servedPosition config input channel req + channel.length

instance (config : ServedConfig) (req : Frame .reader) : Decidable (Wraps config req) :=
  inferInstanceAs (Decidable (_ ∧ _))

theorem servedBytes_ne_nil_iff {channel : ServedChannel} (h : channel.toChannel.Sized) {room : ℕ}
    (hroom : channel.length ≤ room) : servedBytes channel room ≠ [] ↔ channel.Written := by
  unfold servedBytes ServedChannel.Written
  split_ifs with htext
  · cases channel.valueText with
    | none => simp
    | some text =>
      have hlength := encodeText_length_eq h text hroom
      rw [Option.elim_some, Option.isSome_some, eq_self_iff_true, true_and, ← hlength, Ne, Ne,
        List.length_eq_zero_iff]
  · cases hbytes : encodeValue channel.format (floatValue channel.value) channel.value with
    | none => simp
    | some bytes =>
      have hfixed : formatSize channel.format ≠ 0 := by
        cases hformat : channel.format <;> rw [hformat] at hbytes <;> first | decide | cases hbytes
      have hlength := encodeValue_length hbytes
      refine iff_of_true ?_ rfl
      rintro rfl
      exact hfixed hlength.symm

/-- A channel is written behind the frame exactly where the comparison that should keep it inside
has wrapped around. -/
theorem servedPatch_overruns_iff {config : ServedConfig} {input : ServedInput} {req : Frame .reader}
    (hcount : requestCount req ≤ 125) {channel : ServedChannel}
    (hsized : channel.toChannel.Sized) (hlength : channel.length ≤ textBytesMax) :
    (∃ p, servedPatch config input req channel = some p ∧ Overruns p) ↔
      channel.topic.isSome ∧ channel.Written ∧ 0 ≤ servedPosition config input channel req ∧
        2 ^ 31 ≤ servedPosition config input channel req + channel.length := by
  unfold servedPatch
  dsimp only
  have hint : servedPosition config input channel req < 2 ^ 31 := Int.bmod_lt (by decide)
  generalize servedPosition config input channel req = pos at hint ⊢
  unfold textBytesMax at hlength
  have hroom : 2 ^ 31 ≤ pos + channel.length →
      channel.length ≤ cSize ((requestCount req * 2 : ℕ) - pos) := by
    unfold cSize
    omega
  constructor
  · rintro ⟨p, hp, hcells, hbehind⟩
    split_ifs at hp with hout
    obtain rfl := Option.some.inj hp
    rw [not_or, not_or, not_lt, not_lt] at hout
    obtain ⟨htopic, hpos, hcompared⟩ := hout
    have hbytes := servedBytes_length hsized (cSize ((requestCount req * 2 : ℕ) - pos))
    have hwraps : 2 ^ 31 ≤ pos + channel.length := by
      by_contra hno
      rw [cInt_eq (by omega) (by omega)] at hcompared
      change 260 < 9 + pos.toNat + (servedBytes channel _).length at hbehind
      omega
    exact ⟨by simpa [Option.isSome_iff_ne_none] using htopic,
      (servedBytes_ne_nil_iff hsized (hroom hwraps)).1 hcells, hpos, hwraps⟩
  · rintro ⟨htopic, hwritten, hpos, hwraps⟩
    have hcompared : cInt (pos + channel.length) < 0 := by
      unfold cInt
      rw [Int.bmod_def]
      omega
    have hcells := (servedBytes_ne_nil_iff hsized (hroom hwraps)).2 hwritten
    rw [if_neg (by
      rintro (hnone | hneg | hout)
      · rw [Option.isNone_iff_eq_none.1 hnone] at htopic
        exact absurd htopic Bool.false_ne_true
      · omega
      · omega)]
    refine ⟨_, rfl, hcells, ?_⟩
    unfold frameMax
    dsimp only
    omega

theorem prepareResponse_eq_none_iff {config : ServedConfig} (hparsed : ParsedLengths config)
    (req : Frame .reader) (res : Frame .writer) :
    prepareResponse config req res = none ↔ Wraps config req := by
  have hmember : ∀ input ∈ servedInputs config req, input ∈ config.inputs := fun input hinput =>
    (List.mem_filter.1 hinput).1
  unfold prepareResponse Wraps
  rw [ite_eq_left_iff, imp_iff_not (Option.some_ne_none _), not_not]
  refine and_congr_right fun hserves => ?_
  simp only [mem_servedPatches]
  constructor
  · rintro ⟨p, ⟨input, hinput, channel, hchannel, hpatch⟩, hoverruns⟩
    obtain ⟨hsized, hlength⟩ := hparsed input (hmember input hinput) channel hchannel
    exact ⟨input, hinput, channel, hchannel,
      (servedPatch_overruns_iff hserves.2.2.2 hsized hlength).1 ⟨p, hpatch, hoverruns⟩⟩
  · rintro ⟨input, hinput, channel, hchannel, hwraps⟩
    obtain ⟨hsized, hlength⟩ := hparsed input (hmember input hinput) channel hchannel
    obtain ⟨p, hpatch, hoverruns⟩ :=
      (servedPatch_overruns_iff hserves.2.2.2 hsized hlength).2 hwraps
    exact ⟨p, ⟨input, hinput, channel, hchannel, hpatch⟩, hoverruns⟩

/-- A response stays in its frame and is well formed exactly when the server has code for the
function, or refuses the count, and no channel that it writes has wrapped around. -/
theorem wellFormed_reply_iff {config : ServedConfig} (hparsed : ParsedLengths config)
    (req : Frame .reader) (res : Frame .writer) :
    (∃ reply, prepareResponse config req res = some reply ∧ WellFormedReply req reply) ↔
      (Implemented (req.buf 7) ∨ requestCount req = 0 ∨ 125 < requestCount req) ∧
        ¬ Wraps config req := by
  have hnone := prepareResponse_eq_none_iff hparsed req res
  by_cases hwraps : Wraps config req
  · rw [hnone.2 hwraps]
    exact iff_of_false (fun ⟨_, hreply, _⟩ => nomatch hreply) fun h => h.2 hwraps
  · have hsome : prepareResponse config req res = some (filledResponse config req res) := by
      unfold prepareResponse at hnone ⊢
      split_ifs at hnone ⊢ with hoverruns
      · exact absurd (hnone.1 rfl) hwraps
      · rfl
    rw [and_iff_left hwraps, hsome, ← filledResponse_wellFormed_iff config req res]
    exact ⟨fun ⟨_, hreply, hformed⟩ => Option.some.inj hreply ▸ hformed, fun h => ⟨_, rfl, h⟩⟩

/-- The request is in: as many bytes as its length field declares. -/
def CompleteRequest (req : Frame .reader) : Prop :=
  8 ≤ req.length ∧ req.length ≤ frameMax ∧ req.xmit = req.length ∧ tcpDeclared req = req.length

/-- A channel at the end of the range of `int`, and one in the first register. -/
def farConfig : ServedConfig where
  inputs := [⟨1, some .holdingRegister, 0, 0, 2,
    [⟨⟨2147483646, 4, .uint32_abcd⟩, some "far", 0x3F800000, none⟩,
      ⟨⟨0, 2, .int16_ab⟩, some "near", 0x3F800000, none⟩]⟩]
  offsetSize := 1

def readRequest (address : UInt8) : Frame .reader :=
  .holding [0, 1, 0, 0, 0, 6, 1, 3, 0, address, 0, 1] 12

/-- From a later register on the far channel is too far away to wrap around. -/
theorem wellFormed_reply_iff_example : ∃ reply,
    prepareResponse farConfig (readRequest 10) (.zero .writer) = some reply ∧
      WellFormedReply (readRequest 10) reply :=
  (wellFormed_reply_iff (by decide) _ _).2
    ⟨.inl (.inl (.inr (.inr (.inl rfl)))), by decide +kernel⟩

def writeCoilsRequest : Frame .reader :=
  .holding [0, 1, 0, 0, 0, 8, 1, 0x0F, 0, 0, 0, 8, 1, 0xFF] 14

theorem write_coils_answered_with_registers :
    ¬ ∀ (config : ServedConfig) (req : Frame .reader) (res : Frame .writer), ParsedLengths config →
      CompleteRequest req → ∃ reply, prepareResponse config req res = some reply ∧
        WellFormedReply req reply := by
  intro hall
  obtain ⟨reply, hprepared, hreply⟩ := hall ⟨[], 1⟩ writeCoilsRequest (.zero .writer)
    (by decide) ⟨by decide, by decide, rfl, by decide⟩
  obtain rfl : filledResponse ⟨[], 1⟩ writeCoilsRequest (.zero .writer) = reply :=
    Option.some.inj hprepared
  cases hreply.body with
  | bits hfunction => exact absurd hfunction (by decide)
  | registers hfunction => exact absurd hfunction (by decide)
  | echo hfunction => exact absurd hfunction (by decide)
  | exception _ hnine => exact absurd hnine (by decide)

/-- From the first register on it is written far behind the frame. -/
example : prepareResponse farConfig (readRequest 0) (.zero .writer) = none := by
  unfold prepareResponse
  rw [if_pos (by decide +kernel)]

end Modbusmq
