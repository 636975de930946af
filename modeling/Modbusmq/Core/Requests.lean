import Modbusmq.Core.Context

/-!
# Building and posting requests

The frame builders `modbusmq_frame_*`, the transports' `msg_prepare`, and
`modbusmq_post_internal`. Each builder checks its count before it asks the
transport for the header, and a builder that refuses leaves nothing to post.
-/

namespace Modbusmq

/-- The data byte `ibyte` of a coil write, packed low bit first. -/
def packCoils (nbits : ℕ) (bits : ℕ → UInt8) (ibyte : ℕ) : UInt8 :=
  (List.range 8).foldl
    (fun byte ibit =>
      if nbits ≤ ibyte * 8 + ibit then byte
      else byte ||| (if bits (ibyte * 8 + ibit) ≠ 0 then 1 else 0) <<< UInt8.ofNat ibit) 0

/-- A request in the application's terms, one constructor for each builder. The
arrays a block write points to are functions of the index. -/
inductive Request
  | readCoilBits (addr nbits : ℤ)
  | readInputBits (addr nbits : ℤ)
  | readHoldingRegisters (addr naddr : ℤ)
  | readInputRegisters (addr naddr : ℤ)
  | writeCoilBit (addr value : ℤ)
  | writeRegister (addr value : ℤ)
  | writeCoilBits (addr nbits : ℤ) (bits : ℕ → UInt8)
  | writeRegisters (addr naddr : ℤ) (values : ℕ → UInt16)
  | writeMaskRegisters (addr andMask orMask : ℤ)

def frameWriteCoilBits (t : Transport) (slaveId addr nbits : ℤ) (bits : ℕ → UInt8) :
    Option (Frame .writer) :=
  if nbits ≤ 0 ∨ 1968 < nbits then none
  else
    let nb := nbits.toNat / 8 + if nbits.toNat % 8 ≠ 0 then 1 else 0
    let frame := frameInit t slaveId writeMultipleCoils addr nbits
    if frameMax < frame.length + 1 + nb then none
    else some ((frame.push (UInt8.ofNat nb)).pushAll
      ((List.range nb).map (packCoils nbits.toNat bits)))

def frameWriteRegisters (t : Transport) (slaveId addr naddr : ℤ) (values : ℕ → UInt16) :
    Option (Frame .writer) :=
  if naddr ≤ 0 ∨ 123 < naddr then none
  else
    let frame := frameInit t slaveId writeMultipleRegisters addr naddr
    if frameMax < frame.length + 1 + naddr.toNat * 2 then none
    else some ((frame.push (UInt8.ofNat (naddr.toNat * 2))).pushAll
      ((List.range naddr.toNat).flatMap fun i =>
        [UInt8.ofNat ((values i).toNat / 256), UInt8.ofNat (values i).toNat]))

def frameWriteMaskRegisters (t : Transport) (slaveId addr andMask orMask : ℤ) : Frame .writer :=
  ((frameInit t slaveId maskWriteRegister addr andMask).push (byteOf (orMask / 256))).push
    (byteOf orMask)

/-- The frame a request builds for one slave; `none` where the builder refuses. -/
def Request.build (t : Transport) (slaveId : ℤ) : Request → Option (Frame .writer)
  | readCoilBits addr nbits => some (frameInit t slaveId readCoils addr nbits)
  | readInputBits addr nbits => some (frameInit t slaveId readDiscreteInputs addr nbits)
  | readHoldingRegisters addr naddr =>
    some (frameInit t slaveId Modbusmq.readHoldingRegisters addr naddr)
  | readInputRegisters addr naddr =>
    some (frameInit t slaveId Modbusmq.readInputRegisters addr naddr)
  | writeCoilBit addr value =>
    some (frameInit t slaveId writeSingleCoil addr (if value ≠ 0 then 0xff00 else 0))
  | writeRegister addr value => some (frameInit t slaveId writeSingleRegister addr value)
  | writeCoilBits addr nbits bits => frameWriteCoilBits t slaveId addr nbits bits
  | writeRegisters addr naddr values => frameWriteRegisters t slaveId addr naddr values
  | writeMaskRegisters addr andMask orMask =>
    some (frameWriteMaskRegisters t slaveId addr andMask orMask)

/-- A message as the application hands it over: zeroed memory with the request in `frame[0]`. -/
def Msg.ofFrame (msgId : ℕ) (writer : Frame .writer) : Msg where
  msgId := msgId
  reqId := 0
  serial := 0
  writer := writer
  reader := Frame.zero .reader

def preparedMsg (t : Transport) (transactionId : ℕ) (m : Msg) : Msg :=
  match t with
  | .tcp => tcpMsgPrepare transactionId m
  | .rtu => rtuMsgPrepare m

def nextTransaction (t : Transport) (transactionId : ℕ) : ℕ :=
  match t with
  | .tcp => tcpNextTransaction transactionId
  | .rtu => transactionId

def nextReqId (last : UInt32) : UInt32 := if last + 1 = 0 then 1 else last + 1

/-- Put a wrapper into the queue: a post behind the head and the posts that follow
it, a poll at the end. -/
def enqueue (queue : List Wrapper) (wrapper : Wrapper) : List Wrapper :=
  match queue, wrapper.flags with
  | [], _ => [wrapper]
  | head :: rest, .post =>
    head :: (rest.takeWhile (·.flags = .post) ++ wrapper :: rest.dropWhile (·.flags = .post))
  | head :: rest, .subscribe => head :: rest ++ [wrapper]

/-- `modbusmq_post_internal`. The stamped request id is left in the context. -/
def postInternal (c : Context) (m : Msg) (flags : Flags) : Context :=
  let reqId := nextReqId c.reqIdNext
  let transactionId := nextTransaction c.transport c.transactionId
  let msg := preparedMsg c.transport transactionId { m with reqId := reqId, serial := c.serialNext }
  { c with
    reqIdNext := reqId
    transactionId := transactionId
    serialNext := c.serialNext + 1
    queue := enqueue c.queue ⟨flags, 0, msg⟩
    log := c.log ++ [.posted flags msg] }

/-- A request frame, whatever part of it is sent: it fits the buffer, and its function
is one of the nine that the builders know. -/
structure RequestFrame (t : Transport) (w : Frame .writer) : Prop where
  header : t.reqHeaderMin ≤ w.length
  fits : w.length ≤ frameMax
  function : IsRead (frameFunction t w) ∨ IsWrite (frameFunction t w)
  protocol : t = .tcp → w.buf 2 = 0 ∧ w.buf 3 = 0

/-- The length of the header `frame_init` lays down. -/
def initLength : Transport → ℕ
  | .tcp => 12
  | .rtu => 6

/-- A frame that starts with a header from `frame_init` and leaves room for the CRC. -/
structure Built (t : Transport) (f : Frame .writer) : Prop where
  unsent : f.xmit = 0
  header : initLength t ≤ f.length
  room : f.length + 2 ≤ frameMax ∨ t = .tcp ∧ f.length ≤ frameMax
  function : IsRead (frameFunction t f) ∨ IsWrite (frameFunction t f)
  protocol : t = .tcp → f.buf 2 = 0 ∧ f.buf 3 = 0

theorem frameInit_built (t : Transport) (slaveId addr nb : ℤ) {function : UInt8}
    (h : IsRead function ∨ IsWrite function) : Built t (frameInit t slaveId function addr nb) := by
  cases t with
  | tcp => exact ⟨rfl, le_rfl, .inl (show 12 + 2 ≤ 260 by decide), h, fun _ => ⟨rfl, rfl⟩⟩
  | rtu => exact ⟨rfl, le_rfl, .inl (show 6 + 2 ≤ 260 by decide), h, fun h => absurd h (by decide)⟩

theorem Built.pushAll {t : Transport} {f : Frame .writer} (h : Built t f) {bs : List UInt8}
    (hroom : f.length + bs.length + 2 ≤ frameMax ∨ t = .tcp ∧ f.length + bs.length ≤ frameMax) :
    Built t (f.pushAll bs) := by
  obtain ⟨hlength, hxmit, hbuf⟩ := f.pushAll_spec bs
  have hheader := h.header
  refine ⟨by rw [hxmit, h.unsent], by omega, by rwa [hlength], ?_, ?_⟩
  · cases t with
    | tcp =>
      change IsRead ((f.pushAll bs).buf 7) ∨ IsWrite ((f.pushAll bs).buf 7)
      rw [hbuf 7 (lt_of_lt_of_le (by decide) hheader)]
      exact h.function
    | rtu =>
      change IsRead ((f.pushAll bs).buf 1) ∨ IsWrite ((f.pushAll bs).buf 1)
      rw [hbuf 1 (lt_of_lt_of_le (by decide) hheader)]
      exact h.function
  · rintro rfl
    rw [hbuf 2 (lt_of_lt_of_le (by decide) hheader), hbuf 3 (lt_of_lt_of_le (by decide) hheader)]
    exact h.protocol rfl

theorem frameInit_length (t : Transport) (slaveId addr nb : ℤ) (function : UInt8) :
    (frameInit t slaveId function addr nb).length = initLength t := by
  cases t <;> rfl

theorem frameInit_pushAll_built (t : Transport) (slaveId addr nb : ℤ) {function : UInt8}
    (h : IsWrite function) (bs : List UInt8) (hroom : bs.length ≤ 247) :
    Built t ((frameInit t slaveId function addr nb).pushAll bs) := by
  apply (frameInit_built t slaveId addr nb (.inr h)).pushAll
  rw [frameInit_length]
  unfold frameMax
  cases t with
  | tcp => exact .inr ⟨rfl, by simp only [initLength]; omega⟩
  | rtu => exact .inl (by simp only [initLength]; omega)

theorem Request.build_built {t : Transport} {slaveId : ℤ} {request : Request}
    {f : Frame .writer} (h : request.build t slaveId = some f) : Built t f := by
  have hinit : ∀ {function : UInt8} {addr nb : ℤ}, IsRead function ∨ IsWrite function →
      some (frameInit t slaveId function addr nb) = some f → Built t f := by
    intro function addr nb hfunction heq
    rw [← Option.some.inj heq]
    exact frameInit_built t slaveId addr nb hfunction
  cases request with
  | readCoilBits addr nbits => exact hinit (by decide) h
  | readInputBits addr nbits => exact hinit (by decide) h
  | readHoldingRegisters addr naddr => exact hinit (by decide) h
  | readInputRegisters addr naddr => exact hinit (by decide) h
  | writeCoilBit addr value => exact hinit (by decide) h
  | writeRegister addr value => exact hinit (by decide) h
  | writeCoilBits addr nbits bits =>
    simp only [build, frameWriteCoilBits] at h
    split_ifs at h with hcount hfits hcount'
    all_goals
      rw [← Option.some.inj h]
      apply frameInit_pushAll_built _ _ _ _ (by decide) (_ :: _)
      simp only [List.length_cons, List.length_map, List.length_range]
      omega
  | writeRegisters addr naddr values =>
    simp only [build, frameWriteRegisters] at h
    split_ifs at h with hcount hfits
    rw [← Option.some.inj h]
    apply frameInit_pushAll_built _ _ _ _ (by decide) (_ :: _)
    simp only [List.length_cons, List.length_flatMap, List.length_nil]
    simp
    omega
  | writeMaskRegisters addr andMask orMask =>
    rw [← Option.some.inj h]
    exact frameInit_pushAll_built _ _ _ _ (by decide) [_, _] (show 2 ≤ 247 by decide)

theorem rtuMsgPrepare_writer (m : Msg) : ∃ lo hi : UInt8,
    (rtuMsgPrepare m).writer = m.writer.pushAll [lo, hi] :=
  ⟨_, _, rfl⟩

theorem preparedMsg_requestFrame {t : Transport} {m : Msg} (transactionId : ℕ)
    (h : Built t m.writer) : RequestFrame t (preparedMsg t transactionId m).writer := by
  have hheader := h.header
  have hroom := h.room
  cases t with
  | tcp =>
    refine ⟨?_, ?_, h.function, fun _ => h.protocol rfl⟩
    · exact le_trans (by decide) hheader
    · change m.writer.length ≤ frameMax
      omega
  | rtu =>
    obtain ⟨lo, hi, hwriter⟩ := rtuMsgPrepare_writer m
    obtain ⟨hlength, hxmit, hbuf⟩ := m.writer.pushAll_spec [lo, hi]
    change RequestFrame .rtu (rtuMsgPrepare m).writer
    simp only [initLength] at hheader
    simp only [List.length_cons, List.length_nil] at hlength
    rw [hwriter]
    refine ⟨?_, ?_, ?_, fun h => absurd h (by decide)⟩
    · rw [hlength]
      simp only [Transport.reqHeaderMin]
      omega
    · simp only [reduceCtorEq, false_and, or_false] at hroom
      omega
    · change IsRead ((m.writer.pushAll [lo, hi]).buf 1) ∨
        IsWrite ((m.writer.pushAll [lo, hi]).buf 1)
      rw [hbuf 1 (by omega)]
      exact h.function

theorem preparedMsg_unsent {t : Transport} {m : Msg} (transactionId : ℕ)
    (h : Built t m.writer) : (preparedMsg t transactionId m).writer.xmit = 0 := by
  cases t with
  | tcp => exact h.unsent
  | rtu => exact h.unsent

/-- A message as it enters the queue: a request that a builder accepted, prepared for
its transport. -/
def Posted (t : Transport) (m : Msg) : Prop :=
  ∃ (slaveId : ℤ) (request : Request) (transactionId : ℕ) (m₀ : Msg),
    request.build t slaveId = some m₀.writer ∧ m₀.reader = Frame.zero .reader ∧
      m = preparedMsg t transactionId m₀

theorem Posted.requestFrame {t : Transport} {m : Msg} (h : Posted t m) :
    RequestFrame t m.writer := by
  obtain ⟨slaveId, request, transactionId, m₀, hbuild, -, rfl⟩ := h
  exact preparedMsg_requestFrame transactionId (Request.build_built hbuild)

theorem Posted.unsent {t : Transport} {m : Msg} (h : Posted t m) : m.writer.xmit = 0 := by
  obtain ⟨slaveId, request, transactionId, m₀, hbuild, -, rfl⟩ := h
  exact preparedMsg_unsent transactionId (Request.build_built hbuild)

/-- Nothing is received yet, and the reader asks for a header at most. -/
theorem Posted.reader {t : Transport} {m : Msg} (h : Posted t m) :
    m.reader.xmit = 0 ∧ m.reader.length ≤ t.headerLength := by
  obtain ⟨slaveId, request, transactionId, m₀, -, hreader, rfl⟩ := h
  cases t with
  | tcp =>
    change m₀.reader.xmit = 0 ∧ m₀.reader.length ≤ 8
    rw [hreader]
    exact ⟨rfl, Nat.zero_le 8⟩
  | rtu =>
    change m₀.reader.xmit = 0 ∧ 3 ≤ 3
    rw [hreader]
    exact ⟨rfl, le_rfl⟩

theorem Posted.reader_rtu {m : Msg} (h : Posted .rtu m) : m.reader = armed .rtu := by
  obtain ⟨slaveId, request, transactionId, m₀, -, hreader, rfl⟩ := h
  change m₀.reader.resize 3 = armed .rtu
  rw [hreader]
  rfl

end Modbusmq
