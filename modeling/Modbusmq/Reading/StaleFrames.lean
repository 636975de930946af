import Modbusmq.Reading.Outstanding

/-!
# Stepping over stale frames

A late reply to a request given up on may stand in front of the answer, in any
number and in any pieces. `read()` hands the stream out in non-empty chunks, and
the reader passes every frame that is not the answer at its own boundary, so
that the answer, when its last byte is read, is all the reader holds and what
follows it is still unread.
-/

namespace Modbusmq

/-- A whole RTU reply by its own bytes: a known function or an exception, of the length
these imply, with the right CRC. -/
structure RtuReply (s : List UInt8) : Prop where
  known : IsRead (s.getD 1 0) ∨ IsWrite (s.getD 1 0) ∨ HasExceptionBit (s.getD 1 0)
  whole : s.length = ownLength s
  crc : CrcValid s

/-- A reply that an RTU request takes for its own: slave, and either its exception or its
function with the byte count it asked for. -/
def RtuMatches (w : Frame .writer) (s : List UInt8) : Prop :=
  w.buf 0 = s.getD 0 0 ∧
    (s.getD 1 0 = w.buf 1 ||| 0x80 ∨
      w.buf 1 = s.getD 1 0 ∧
        ∀ expected, rtuExpectedNbytes w = some expected → (s.getD 2 0).toNat = expected)

/-- A well-formed frame that is not a reply to the request. -/
def Stale : Transport → Frame .writer → List UInt8 → Prop
  | .tcp, w, s =>
    8 ≤ s.length ∧ s.length ≤ frameMax ∧ s.length = declaredLength s ∧
      ¬ (w.buf 0 = s.getD 0 0 ∧ w.buf 1 = s.getD 1 0)
  | .rtu, w, s => RtuReply s ∧ ¬ RtuMatches w s

/-- The complete normal answer to the request. -/
def Answer : Transport → Frame .writer → List UInt8 → Prop
  | .tcp, w, s =>
    8 ≤ s.length ∧ s.length ≤ frameMax ∧ s.length = declaredLength s ∧
      w.buf 0 = s.getD 0 0 ∧ w.buf 1 = s.getD 1 0 ∧ s.getD 2 0 = 0 ∧ s.getD 3 0 = 0 ∧
        w.buf 6 = s.getD 6 0 ∧ w.buf 7 = s.getD 7 0
  | .rtu, w, s =>
    RtuReply s ∧ w.buf 0 = s.getD 0 0 ∧ w.buf 1 = s.getD 1 0 ∧
      ∀ expected, rtuExpectedNbytes w = some expected → (s.getD 2 0).toNat = expected

/-- The calls with POLLIN a caller makes one after the other; `io` is what `poll()` and the
operating system answer at each. The result is that of call `n`. -/
def calls : (io : ℕ → Revents × Env) → ℕ → Context → Msg → WriteRead
  | io, 0, c, m => handleWriteRead c m (io 0).1 (io 0).2
  | io, n + 1, c, m =>
    let s := handleWriteRead c m (io 0).1 (io 0).2
    calls (fun i => io (i + 1)) n s.ctx s.msg

/-- Every call finds the descriptor readable and gets a non-empty chunk. -/
def HandsOutChunks (io : ℕ → Revents × Env) : Prop :=
  ∀ i, (io i).1.pollin ∧ ∃ k, 0 < k ∧ (io i).2.got = .data k

/-- The reader, for this request, expects exactly the length of the frame. -/
structure Delimited (t : Transport) (w : Frame .writer) (s : List UInt8) : Prop where
  usable : Usable t s
  whole : s.length = expectedLength t w s

theorem RtuReply.five_le {s : List UInt8} (h : RtuReply s) : 5 ≤ s.length := by
  rw [h.whole]
  exact (ownLength_bounds s).1

theorem RtuReply.delimited {w : Frame .writer} {s : List UInt8} (hw : RequestFrame .rtu w)
    (h : RtuReply s) : Delimited .rtu w s := by
  refine ⟨trivial, ?_⟩
  have hlen := h.five_le
  change s.length = rtuExpectedLength w s
  rw [rtuExpectedLength, if_neg (by omega)]
  split_ifs with hecho
  · obtain ⟨-, hf, hx⟩ := hecho
    -- without a byte count the function is that of a write, whose echo is its own length
    have hwrite : IsWrite (w.buf 1) := by
      rcases hw.function with hread | hwrite
      · exact absurd hx (by simpa using rtuExpectedNbytes_of_isRead hread)
      · exact hwrite
    rw [h.whole, ownLength, ← hf, if_neg hwrite.not_exception, if_neg hwrite.not_read]
  · exact h.whole

theorem tcp_delimited {w : Frame .writer} {s : List UInt8} (hlo : 8 ≤ s.length)
    (hhi : s.length ≤ frameMax) (hlen : s.length = declaredLength s) : Delimited .tcp w s := by
  refine ⟨fun _ => by omega, ?_⟩
  change s.length = tcpExpectedLength s
  rw [tcpExpectedLength, if_neg (by omega)]
  exact hlen

theorem Stale.delimited {t : Transport} {w : Frame .writer} {s : List UInt8}
    (hw : RequestFrame t w) (h : Stale t w s) : Delimited t w s := by
  cases t with
  | tcp => exact tcp_delimited h.1 h.2.1 h.2.2.1
  | rtu => exact h.1.delimited hw

theorem Answer.delimited {t : Transport} {w : Frame .writer} {s : List UInt8}
    (hw : RequestFrame t w) (h : Answer t w s) : Delimited t w s := by
  cases t with
  | tcp => exact tcp_delimited h.1 h.2.1 h.2.2.1
  | rtu => exact h.1.delimited hw

theorem Delimited.header_le {t : Transport} {w : Frame .writer} {s : List UInt8}
    (h : Delimited t w s) : t.headerLength ≤ s.length := by
  rw [h.whole]
  exact (expectedLength_bounds w h.usable).1

/-- A prefix of a frame is usable, and the reader does not look past the frame. -/
theorem Delimited.of_start {t : Transport} {w : Frame .writer} {held rest : List UInt8}
    (h : Delimited t w (held ++ rest)) :
    Usable t held ∧ expectedLength t w held ≤ (held ++ rest).length ∧
      held.length ≤ expectedLength t w held := by
  have hget : ∀ i < held.length, (held ++ rest).getD i 0 = held.getD i 0 :=
    fun i hi => List.getD_append _ _ _ _ hi
  have husable : Usable t held := by
    cases t with
    | tcp =>
      intro h6
      have hdeclared : declaredLength held = declaredLength (held ++ rest) := by
        unfold declaredLength
        rw [hget 4 (by omega), hget 5 (by omega)]
      rw [hdeclared]
      exact h.usable (by rw [List.length_append]; omega)
    | rtu => trivial
  have hbounds := (expectedLength_bounds w husable).1
  have hheader := h.header_le
  refine ⟨husable, ?_⟩
  by_cases hsized : Sized t held
  · rw [← expectedLength_append rest hsized, ← h.whole]
    exact ⟨le_rfl, by rw [List.length_append]; omega⟩
  · have hlen : expectedLength t w held = t.headerLength := by
      cases t with
      | tcp => exact if_pos (Nat.lt_of_not_le hsized)
      | rtu => exact if_pos (Nat.lt_of_not_le hsized)
    have hshort : held.length < t.resHeaderMin := Nat.lt_of_not_le hsized
    have hmin : t.resHeaderMin ≤ t.headerLength := by
      cases t <;> decide
    rw [hlen]
    exact ⟨hheader, by omega⟩

theorem Delimited.open {t : Transport} {w : Frame .writer} {held rest : List UInt8}
    (h : Delimited t w (held ++ rest)) (hrest : rest ≠ []) :
    held.length < expectedLength t w held := by
  have hpos := List.length_pos_iff.2 hrest
  obtain ⟨husable, -, hle⟩ := h.of_start
  by_cases hsized : Sized t held
  · rw [← expectedLength_append rest hsized, ← h.whole, List.length_append]
    omega
  · have hshort : held.length < t.resHeaderMin := Nat.lt_of_not_le hsized
    exact hshort.trans_le (resHeaderMin_le w husable)

theorem Stale.verdict {t : Transport} {w : Frame .writer} {s : List UInt8} (h : Stale t w s) :
    headerVerdict t w s < 0 := by
  cases t with
  | tcp =>
    obtain ⟨hlo, -, -, hid⟩ := h
    have hcond : 2 ≤ s.length ∧ ¬ (w.buf 0 = s.getD 0 0 ∧ w.buf 1 = s.getD 1 0) :=
      ⟨by omega, hid⟩
    have hverdict : headerVerdict .tcp w s = -2 := congrArg Prod.fst (if_pos hcond)
    omega
  | rtu =>
    obtain ⟨hreply, hno⟩ := h
    have hlen := hreply.five_le
    have hcase := rtuMsgCheckHeader_cases w (.holding s 0)
    change (rtuMsgCheckHeader w (.holding s 0)).1 < 0
    generalize rtuMsgCheckHeader w (.holding s 0) = out at hcase
    cases hcase with
    | short h => exact absurd h (by simp only [Frame.holding_xmit]; omega)
    | slave => simp
    | function => simp
    | byteCount => simp
    | exception _ hs _ he => exact absurd ⟨hs, .inl he⟩ hno
    | @data expected _ hs hf hx hn =>
      refine absurd ⟨hs, .inr ⟨hf, fun e he => ?_⟩⟩ hno
      rw [hx] at he
      rw [← Option.some.inj he]
      exact hn
    | echo _ hs hf hx =>
      refine absurd ⟨hs, .inr ⟨hf, fun e he => ?_⟩⟩ hno
      rw [hx] at he
      exact absurd he (by simp)

theorem Answer.verdict {t : Transport} {w : Frame .writer} {s : List UInt8}
    (hw : RequestFrame t w) (h : Answer t w s) : 0 ≤ headerVerdict t w s := by
  cases t with
  | tcp =>
    obtain ⟨hlo, -, hlen, h0, h1, h2, h3, h6, h7⟩ := h
    obtain ⟨w2, w3⟩ := hw.protocol rfl
    have hid : ¬ (2 ≤ s.length ∧ ¬ (w.buf 0 = s.getD 0 0 ∧ w.buf 1 = s.getD 1 0)) :=
      fun hno => hno.2 ⟨h0, h1⟩
    have hprotocol : ¬ (4 ≤ s.length ∧
        ¬ (s.getD 2 0 = 0 ∧ s.getD 3 0 = 0 ∧ w.buf 2 = 0 ∧ w.buf 3 = 0)) :=
      fun hno => hno.2 ⟨h2, h3, w2, w3⟩
    have hsized : ¬ (6 ≤ s.length ∧ declaredLength s ≠ s.length) := fun hno => hno.2 hlen.symm
    have hunit : ¬ (7 ≤ s.length ∧ w.buf 6 ≠ s.getD 6 0) := fun hno => hno.2 h6
    have hfunction : ¬ (8 ≤ s.length ∧ w.buf 7 ≠ s.getD 7 0) := fun hno => hno.2 h7
    have haddressee : tcpCheckAddressee w (.holding s 0) = 0 :=
      (if_neg hunit).trans (if_neg hfunction)
    have hcheck : tcpMsgCheckHeader w (.holding s 0) =
        (tcpCheckAddressee w (.holding s 0), .holding s 0) :=
      (if_neg hid).trans ((if_neg hprotocol).trans (if_neg hsized))
    change 0 ≤ (tcpMsgCheckHeader w (.holding s 0)).1
    rw [hcheck, haddressee]
  | rtu =>
    obtain ⟨hreply, hs, hf, hn⟩ := h
    have hlen := hreply.five_le
    have hcase := rtuMsgCheckHeader_cases w (.holding s 0)
    change 0 ≤ (rtuMsgCheckHeader w (.holding s 0)).1
    generalize rtuMsgCheckHeader w (.holding s 0) = out at hcase
    cases hcase with
    | short => simp
    | slave _ hno => exact absurd hs hno
    | function _ _ hno => exact absurd hf hno
    | exception _ _ hno => exact absurd hf hno
    | byteCount _ _ _ hx hno => exact absurd (hn _ hx) hno
    | @data expected _ _ _ hx =>
      have hread : IsRead (s.getD 1 0) := hf ▸ rtuExpectedNbytes_isRead hx
      have hown : s.length = 3 + (s.getD 2 0).toNat + 2 := by
        rw [hreply.whole, ownLength, if_neg hread.not_exception, if_pos hread]
      have hcount := hn expected hx
      simp only [Frame.holding_xmit]
      omega
    | echo _ _ _ hx =>
      have hwhole : s.length = rtuExpectedLength w s := (hreply.delimited hw).whole
      rw [rtuExpectedLength, if_neg (by omega), if_pos ⟨hs, hf, hx⟩] at hwhole
      simp only [Frame.holding_xmit]
      omega

theorem tcpMsgException_pos {w : Frame .writer} {r : Frame .reader}
    (h : 0 < tcpMsgException w r) :
    9 ≤ r.xmit ∧ r.buf 0 = w.buf 0 ∧ r.buf 1 = w.buf 1 ∧ HasExceptionBit (r.buf 7) := by
  unfold tcpMsgException at h
  dsimp only at h
  split_ifs at h with hcode hid
  all_goals first | exact absurd h (by omega) | skip
  have hxmit : 9 ≤ r.xmit := by
    by_contra hshort
    exact hcode (if_pos (by omega))
  refine ⟨hxmit, by tauto, by tauto, ?_⟩
  by_contra hno
  exact hcode (by simp [tcpFrameException, hno])

/-- Neither a stale frame nor an answer is mistaken for an exception reply on the way. -/
theorem not_refused {t : Transport} {w : Frame .writer} {all rest : List UInt8}
    (hw : RequestFrame t w) (h : Stale t w (all ++ rest) ∨ Answer t w (all ++ rest))
    (hv : headerVerdict t w all < 0) : ¬ 0 < exceptionCode t w all := by
  intro hx
  cases t with
  | tcp =>
    obtain ⟨hxmit, h0, h1, hbit⟩ := tcpMsgException_pos hx
    simp only [Frame.holding_xmit, Frame.holding_buf] at hxmit h0 h1 hbit
    have hget : ∀ i < all.length, (all ++ rest).getD i 0 = all.getD i 0 :=
      fun i hi => List.getD_append _ _ _ _ hi
    rcases h with ⟨-, -, -, hid⟩ | ⟨-, -, -, -, -, -, -, -, h7⟩
    · rw [hget 0 (by omega), hget 1 (by omega)] at hid
      exact hid ⟨h0.symm, h1.symm⟩
    · rw [hget 7 (by omega)] at h7
      rw [← h7] at hbit
      rcases hw.function with hread | hwrite
      · exact hread.not_exception hbit
      · exact hwrite.not_exception hbit
  | rtu =>
    have hd : Delimited .rtu w (all ++ rest) := by
      rcases h with h | h
      · exact h.delimited hw
      · exact h.delimited hw
    exact absurd (rtu_exceptionCode_eq_zero hd.of_start.2.2 hv) (by omega)

/-- The whole of a stale frame is a genuine frame, and an answer is nobody else's. -/
theorem genuine_of_ahead {t : Transport} {w : Frame .writer} {s : List UInt8}
    (hw : RequestFrame t w) (h : Stale t w s ∨ Answer t w s) (hv : headerVerdict t w s < 0) :
    Genuine t s := by
  rcases h with hstale | hanswer
  · cases t with
    | tcp => trivial
    | rtu => exact hstale.1.crc
  · exact absurd (hanswer.verdict hw) (by omega)

/-- All of a frame is held exactly when nothing of it is left in the stream. -/
theorem Delimited.whole_iff {t : Transport} {w : Frame .writer} {all rest : List UInt8}
    (h : Delimited t w (all ++ rest)) : rest = [] ↔ all.length = expectedLength t w all := by
  constructor
  · rintro rfl
    rw [List.append_nil] at h
    exact h.whole
  · intro hwhole
    by_contra hmore
    exact absurd (h.open hmore) (by omega)

/-- The chunk a call gets lies inside the frame at the front of the stream. -/
theorem delivered_in_frame {c : Context} {w : Frame .writer} {r : Frame .reader}
    {held rest tail : List UInt8} {env : Env} (hheld : Receiving c.transport w r held)
    (hd : Delimited c.transport w (held ++ rest)) (hrest : rest ≠ [])
    (hconn : c.connected) (hstream : c.input = rest ++ tail)
    (hgot : ∃ k, 0 < k ∧ env.got = .data k) :
    ∃ rest', rest = delivered c r env ++ rest' ∧ delivered c r env ≠ [] ∧
      c.input.drop (delivered c r env).length = rest' ++ tail := by
  obtain ⟨k, hk, hdata⟩ := hgot
  obtain ⟨-, hle, -⟩ := hd.of_start
  have hopen := hd.open hrest
  have hpos := List.length_pos_iff.2 hrest
  rw [List.length_append] at hle
  have hdelivered : delivered c r env = rest.take (min k r.window) := by
    have hread : readResult c env = .data k := by
      rw [readResult, if_pos hconn, hdata]
    have hwindow : min k r.window ≤ rest.length := by
      rw [hheld.window]
      omega
    unfold delivered
    rw [hread, hstream]
    exact List.take_append_of_le_length hwindow
  have hlen : (delivered c r env).length = min k r.window := by
    rw [hdelivered, List.length_take, hheld.window]
    omega
  refine ⟨rest.drop (min k r.window), ?_, ?_, ?_⟩
  · rw [hdelivered, List.take_append_drop]
  · rw [← List.length_pos_iff, hlen, hheld.window]
    omega
  · rw [hlen, hstream, List.drop_append_of_le_length]
    rw [hheld.window]
    omega

/-- What a call does inside a frame: more of it is held, or it is stepped over, or it was
the answer. -/
inductive FrameStep (t : Transport) (w : Frame .writer) (held rest : List UInt8) :
    List UInt8 → ℤ → Frame .reader → Prop
  | more {chunk rest' : List UInt8} {rc : ℤ} {r : Frame .reader} (hsplit : rest = chunk ++ rest')
      (hmore : rest' ≠ []) (hrc : 0 < rc) (h : Receiving t w r (held ++ chunk)) :
      FrameStep t w held rest rest' rc r
  | steppedOver {rc : ℤ} (hs : Stale t w (held ++ rest)) (hrc : 0 < rc) :
      FrameStep t w held rest [] rc (armed t)
  | answered (hs : Answer t w (held ++ rest)) :
      FrameStep t w held rest [] 0 (.holding (held ++ rest) (held ++ rest).length)

theorem readHalf_in_frame {c : Context} {m : Msg} {held rest tail : List UInt8} {env : Env}
    (hw : RequestFrame c.transport m.writer) (hsent : m.writer.xmit = m.writer.length)
    (hheld : Receiving c.transport m.writer m.reader held)
    (hs : Stale c.transport m.writer (held ++ rest) ∨ Answer c.transport m.writer (held ++ rest))
    (hrest : rest ≠ []) (hconn : c.connected) (hstream : c.input = rest ++ tail)
    (hgot : ∃ k, 0 < k ∧ env.got = .data k) :
    ∃ rest', rest'.length < rest.length ∧
      FrameStep c.transport m.writer held rest rest' (readHalf c m env).rc
        (readHalf c m env).msg.reader ∧
      (readHalf c m env).ctx.input = rest' ++ tail ∧
      (readHalf c m env).ctx.connected ∧ (readHalf c m env).ctx.transport = c.transport ∧
      (readHalf c m env).msg.writer = m.writer := by
  have hd : Delimited c.transport m.writer (held ++ rest) := by
    rcases hs with hs | hs
    · exact hs.delimited hw
    · exact hs.delimited hw
  obtain ⟨rest', hsplit, hne, hdrop⟩ := delivered_in_frame hheld hd hrest hconn hstream hgot
  have hshorter : rest'.length < rest.length := by
    have hpos := List.length_pos_iff.2 hne
    rw [hsplit, List.length_append]
    omega
  have hsplit' : held ++ rest = (held ++ delivered c m.reader env) ++ rest' := by
    rw [List.append_assoc, ← hsplit]
  have hd' : Delimited c.transport m.writer ((held ++ delivered c m.reader env) ++ rest') :=
    hsplit' ▸ hd
  have hs' := hs
  rw [hsplit'] at hs'
  have hwhole_iff := hd'.whole_iff
  have hout := readHalf_outcome env hsent hheld (hd.open hrest)
  refine ⟨rest', hshorter, ?_⟩
  generalize readHalf c m env = s at hout
  cases hout with
  | failed hall h =>
    obtain ⟨k, -, hdata⟩ := hgot
    rcases h with herror | hunusable
    · rw [readResult, if_pos hconn, hdata] at herror
      exact absurd herror (by simp)
    · rw [hall] at hunusable
      exact absurd hd'.of_start.1 hunusable
  | @answering rc _ hall hu hv hrc hdone =>
    subst hall
    refine ⟨?_, hdrop, hconn, rfl, rfl⟩
    by_cases hend : rest' = []
    · subst hend
      rw [List.append_nil] at hsplit' hs'
      obtain rfl := hdone.2 (hwhole_iff.1 rfl)
      rw [← hwhole_iff.1 rfl, ← hsplit']
      rcases hs with hstale | hanswer
      · exact absurd (hsplit' ▸ hstale.verdict) (by omega)
      · exact .answered hanswer
    · have hpos : 0 < rc := lt_of_le_of_ne hrc fun h => hend (hwhole_iff.2 (hdone.1 h.symm))
      exact .more hsplit hend hpos ⟨rfl, (hd'.open hend).le, hu⟩
  | refused hall hu hv hx =>
    subst hall
    exact absurd hx (not_refused hw hs' hv)
  | sizing hall hu hv hpart hrc =>
    subst hall
    have hend : rest' ≠ [] := fun hend => absurd (hwhole_iff.1 hend) (by omega)
    exact ⟨.more hsplit hend hrc ⟨rfl, hpart.le, hu⟩, hdrop, hconn, rfl, rfl⟩
  | steppedOver hall hv hwhole hg hrc =>
    subst hall
    obtain rfl := hwhole_iff.2 hwhole
    rw [List.append_nil] at hsplit'
    refine ⟨?_, hdrop, hconn, rfl, rfl⟩
    rcases hs with hstale | hanswer
    · exact .steppedOver hstale hrc
    · exact absurd (hsplit' ▸ hanswer.verdict hw) (by omega)
  | noise hall hv hwhole hg =>
    subst hall
    obtain rfl := hwhole_iff.2 hwhole
    rw [List.append_nil] at hsplit'
    rw [← hsplit'] at hg hv
    exact absurd (genuine_of_ahead hw hs hv) hg

/-- What is still to be read for: the frames in front of the answer, then the answer. -/
inductive Ahead (t : Transport) (w : Frame .writer) : List (List UInt8) → List UInt8 → Prop
  | answer {answer : List UInt8} (h : Answer t w answer) : Ahead t w [answer] answer
  | stale {s answer : List UInt8} {frames : List (List UInt8)} (hs : Stale t w s)
      (h : Ahead t w frames answer) : Ahead t w (s :: frames) answer

theorem Ahead.head {t : Transport} {w : Frame .writer} {s answer : List UInt8}
    {frames : List (List UInt8)} (h : Ahead t w (s :: frames) answer) :
    Stale t w s ∨ Answer t w s := by
  cases h with
  | answer h => exact .inr h
  | stale hs => exact .inl hs

theorem Ahead.cons {t : Transport} {w : Frame .writer} {frames : List (List UInt8)}
    {answer : List UInt8} (h : Ahead t w frames answer) : ∃ s rest, frames = s :: rest := by
  cases h with
  | answer => exact ⟨_, _, rfl⟩
  | stale => exact ⟨_, _, rfl⟩

theorem Delimited.ne_nil {t : Transport} {w : Frame .writer} {s : List UInt8}
    (h : Delimited t w s) : s ≠ [] := by
  have hpos : 0 < t.headerLength := by
    cases t <;> decide
  exact List.length_pos_iff.1 (hpos.trans_le h.header_le)

theorem not_stale_and_answer {t : Transport} {w : Frame .writer} {s : List UInt8}
    (hw : RequestFrame t w) (hs : Stale t w s) : ¬ Answer t w s :=
  fun h => absurd (h.verdict hw) (not_le.2 hs.verdict)

/-- From inside the first of the frames ahead, the calls reach the end of the answer. -/
theorem calls_reach_answer {t : Transport} {w : Frame .writer} {answer more : List UInt8}
    (hw : RequestFrame t w) (hsent : w.xmit = w.length)
    (io : ℕ → Revents × Env) (hio : HandsOutChunks io) {c : Context} {m : Msg}
    {held rest : List UInt8} {frames : List (List UInt8)} (ht : c.transport = t)
    (hmsg : m.writer = w) (hconn : c.connected) (hheld : Receiving t w m.reader held)
    (hrest : rest ≠ []) (hahead : Ahead t w ((held ++ rest) :: frames) answer)
    (hstream : c.input = rest ++ (frames.flatten ++ more)) :
    ∃ n, (∀ i < n, 0 < (calls io i c m).rc ∧ more.length < (calls io i c m).ctx.input.length) ∧
      (calls io n c m).rc = 0 ∧ (calls io n c m).ctx.input = more ∧
      (calls io n c m).msg.reader = .holding answer answer.length := by
  induction hn : c.input.length using Nat.strong_induction_on
    generalizing io c m held rest frames with
  | _ size ih =>
    subst ht hmsg
    obtain ⟨hready, hgot⟩ := hio 0
    have hd : Delimited c.transport m.writer (held ++ rest) := by
      rcases hahead.head with hs | hs
      · exact hs.delimited hw
      · exact hs.delimited hw
    have hcall : calls io 0 c m = readHalf c m (io 0).2 :=
      handleWriteRead_reading _ hw hsent hheld (hd.open hrest) hready
    obtain ⟨rest', hshorter, hstep, hinput, hconn', ht', hw'⟩ :=
      readHalf_in_frame hw hsent hheld hahead.head hrest hconn hstream hgot
    rw [← hcall] at hstep hinput hconn' ht' hw'
    -- the calls after the first one, from where it ended
    have hlater : ∀ (held₁ : List UInt8) {rest₁ : List UInt8} {frames₁ : List (List UInt8)},
        0 < (calls io 0 c m).rc → rest₁ ≠ [] →
        Receiving c.transport m.writer (calls io 0 c m).msg.reader held₁ →
        Ahead c.transport m.writer ((held₁ ++ rest₁) :: frames₁) answer →
        (calls io 0 c m).ctx.input = rest₁ ++ (frames₁.flatten ++ more) →
        ∃ n, (∀ i < n, 0 < (calls io i c m).rc ∧
            more.length < (calls io i c m).ctx.input.length) ∧
          (calls io n c m).rc = 0 ∧ (calls io n c m).ctx.input = more ∧
          (calls io n c m).msg.reader = .holding answer answer.length := by
      intro held₁ rest₁ frames₁ hrc hrest₁ hheld₁ hahead₁ hstream₁
      have hsize : (calls io 0 c m).ctx.input.length < size := by
        rw [hinput, ← hn, hstream]
        simp only [List.length_append]
        omega
      obtain ⟨n, hbefore, hdone⟩ := ih _ hsize (fun i => io (i + 1)) (fun i => hio (i + 1)) ht' hw'
        hconn' hheld₁ hrest₁ hahead₁ hstream₁ rfl
      refine ⟨n + 1, fun i hi => ?_, hdone⟩
      cases i with
      | zero =>
        refine ⟨hrc, ?_⟩
        have hpos := List.length_pos_iff.2 hrest₁
        rw [hstream₁, List.length_append, List.length_append]
        omega
      | succ j => exact hbefore j (by omega)
    generalize hrc : (calls io 0 c m).rc = rc at hstep hlater
    generalize hreader : (calls io 0 c m).msg.reader = r at hstep hlater
    cases hstep with
    | @more chunk _ _ _ hsplit hmore hpos hheld' =>
      refine hlater _ hpos hmore hheld' ?_ hinput
      rwa [List.append_assoc, ← hsplit]
    | steppedOver hs hpos =>
      cases hahead with
      | answer h => exact absurd h (not_stale_and_answer hw hs)
      | stale _ hahead' =>
        obtain ⟨s, frames', rfl⟩ := hahead'.cons
        have hne : s ≠ [] := by
          rcases hahead'.head with hs' | hs'
          · exact (hs'.delimited hw).ne_nil
          · exact (hs'.delimited hw).ne_nil
        refine hlater [] hpos hne (receiving_armed _ _) hahead' ?_
        rw [hinput, List.flatten_cons, List.append_assoc]
        rfl
    | answered hs =>
      cases hahead with
      | answer => exact ⟨0, fun i hi => absurd hi (Nat.not_lt_zero i), hrc, hinput, hreader⟩
      | stale hs' => exact absurd hs (not_stale_and_answer hw hs')

/-- A request that is fully written reads past every stale frame to its answer, however the
stream is handed out: each call before the one that reads the answer's last byte asks for
more, that one reports completion, and then the answer is all the reader holds and
everything behind it is unread. -/
theorem stale_frames_stepped_over {t : Transport} {m : Msg} (h : Outstanding t m)
    (hsent : m.writer.xmit = m.writer.length) (hempty : m.reader.xmit = 0)
    {c : Context} (ht : c.transport = t) (hconn : c.connected)
    {stale : List (List UInt8)} (hstale : ∀ s ∈ stale, Stale t m.writer s)
    {answer more : List UInt8} (hanswer : Answer t m.writer answer)
    (hstream : c.input = stale.flatten ++ (answer ++ more))
    {io : ℕ → Revents × Env} (hio : HandsOutChunks io) :
    ∃ n, (∀ i < n, 0 < (calls io i c m).rc ∧ more.length < (calls io i c m).ctx.input.length) ∧
      (calls io n c m).rc = 0 ∧ (calls io n c m).ctx.input = more ∧
      (calls io n c m).msg.reader = .holding answer answer.length := by
  have hm := h.underway
  obtain ⟨held, hheld⟩ : ∃ held, Receiving t m.writer m.reader held := by
    rcases hm.stage with hsend | ⟨-, hheld⟩
    · exact absurd hsend.unsent (by omega)
    · exact hheld
  obtain rfl : held = [] := by
    rw [hheld.frame] at hempty
    exact List.length_eq_zero_iff.1 hempty
  have hahead : Ahead t m.writer (stale ++ [answer]) answer := by
    clear hstream
    induction stale with
    | nil => exact .answer hanswer
    | cons s stale ih =>
      exact .stale (hstale s (List.mem_cons_self ..))
        (ih fun s' hs' => hstale s' (List.mem_cons_of_mem s hs'))
  obtain ⟨s, frames, hframes⟩ := hahead.cons
  rw [hframes] at hahead
  have hne : s ≠ [] := by
    rcases hahead.head with hs | hs
    · exact (hs.delimited hm.request).ne_nil
    · exact (hs.delimited hm.request).ne_nil
  have hflat : stale.flatten ++ answer = s ++ frames.flatten := by
    have := congrArg List.flatten hframes
    simpa using this
  refine calls_reach_answer hm.request hsent io hio ht rfl hconn hheld hne hahead ?_
  rw [hstream, ← List.append_assoc, hflat, List.append_assoc]

/-- A late reply, in pieces of three bytes, in front of the answer and one byte more. -/
theorem stale_frames_stepped_over_example :
    ∃ n, (calls (fun _ => (⟨true, false, false, false⟩, { sampleEnv with got := .data 3 })) n
        (sampleContext .tcp ([0, 9, 0, 0, 0, 5, 1, 3, 2, 0, 7] ++
          ([0, 1, 0, 0, 0, 5, 1, 3, 2, 0x12, 0x34] ++ [0xff])))
        (sentPoll .tcp 1)).ctx.input = [0xff] := by
  have hstale : ∀ s ∈ ([[0, 9, 0, 0, 0, 5, 1, 3, 2, 0, 7]] : List (List UInt8)),
      Stale .tcp (sentPoll .tcp 1).writer s := by
    intro s hs
    rw [List.mem_singleton.1 hs]
    exact ⟨by decide, by decide, by decide, by decide +kernel⟩
  have hanswer : Answer .tcp (sentPoll .tcp 1).writer [0, 1, 0, 0, 0, 5, 1, 3, 2, 0x12, 0x34] :=
    ⟨by decide, by decide, by decide, by decide +kernel, by decide +kernel, by decide, by decide,
      by decide +kernel, by decide +kernel⟩
  have hstream : (sampleContext .tcp ([0, 9, 0, 0, 0, 5, 1, 3, 2, 0, 7] ++
      ([0, 1, 0, 0, 0, 5, 1, 3, 2, 0x12, 0x34] ++ [0xff]))).input =
        [[0, 9, 0, 0, 0, 5, 1, 3, 2, 0, 7]].flatten ++
          ([0, 1, 0, 0, 0, 5, 1, 3, 2, 0x12, 0x34] ++ [0xff]) := rfl
  have hio : HandsOutChunks
      (fun _ => (⟨true, false, false, false⟩, { sampleEnv with got := .data 3 })) :=
    fun _ => ⟨rfl, 3, by decide, rfl⟩
  obtain ⟨n, -, -, hinput, -⟩ := stale_frames_stepped_over
    (sentPoll_outstanding .tcp 1 (.inl (by decide +kernel))) (by decide +kernel)
    (by decide +kernel) rfl rfl hstale hanswer hstream hio
  exact ⟨n, hinput⟩

end Modbusmq
