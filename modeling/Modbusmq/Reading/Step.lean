import Modbusmq.Reading.Held

/-!
# The outcomes of one read half

`readHalf_outcome` lists what `modbusmq_handle_write_read` can do when it reads
behind held bytes. The results about reading take their cases from it and do
not look into the function again.
-/

namespace Modbusmq

def afterRead (c : Context) (r : Frame .reader) (env : Env) : Context :=
  { c with
    lastReadMs := env.clock .stamp
    input := c.input.drop (delivered c r env).length
    log := c.log ++ [.read r.xmit r.window] }

@[simp] theorem afterRead_transport (c : Context) (r : Frame .reader) (env : Env) :
    (afterRead c r env).transport = c.transport := rfl

/-- The exception code the held bytes carry for this very request, 0 when they carry none. -/
def exceptionCode (t : Transport) (w : Frame .writer) (held : List UInt8) : ℕ :=
  msgException t w (.holding held 0)

/-- What the read half does from a reader that holds `held`. -/
inductive ReadOutcome (c : Context) (m : Msg) (held : List UInt8) (env : Env) : WriteRead → Prop
  /-- the connection is gone, or the declared length cannot be used -/
  | failed {all : List UInt8} (hall : all = held ++ delivered c m.reader env)
      (h : readResult c env = .error ∨ ¬ Usable c.transport all) :
      ReadOutcome c m held env
        ⟨errTransport, { afterRead c m.reader env with err := c.err + 1 },
          { m with reader := .holding all (expectedLength c.transport m.writer held) }⟩
  /-- the bytes so far are those of an answer -/
  | answering {rc : ℤ} {all : List UInt8} (hall : all = held ++ delivered c m.reader env)
      (hu : Usable c.transport all)
      (hv : 0 ≤ headerVerdict c.transport m.writer all)
      (hrc : 0 ≤ rc) (hdone : rc = 0 ↔ all.length = expectedLength c.transport m.writer all) :
      ReadOutcome c m held env
        ⟨rc, afterRead c m.reader env,
          { m with reader := .holding all (expectedLength c.transport m.writer all) }⟩
  /-- an exception reply to this request -/
  | refused {all : List UInt8} (hall : all = held ++ delivered c m.reader env)
      (hu : Usable c.transport all)
      (hv : headerVerdict c.transport m.writer all < 0)
      (hx : 0 < exceptionCode c.transport m.writer all) :
      ReadOutcome c m held env
        ⟨errException, afterRead c m.reader env,
          { m with reader := .holding all (expectedLength c.transport m.writer all) }⟩
  /-- a part of a frame that is not the answer -/
  | sizing {rc : ℤ} {all : List UInt8} (hall : all = held ++ delivered c m.reader env)
      (hu : Usable c.transport all)
      (hv : headerVerdict c.transport m.writer all < 0)
      (hpart : all.length < expectedLength c.transport m.writer all) (hrc : 0 < rc) :
      ReadOutcome c m held env
        ⟨rc, afterRead c m.reader env,
          { m with reader := .holding all (expectedLength c.transport m.writer all) }⟩
  /-- the whole of a frame that is not the answer -/
  | steppedOver {rc : ℤ} {all : List UInt8} (hall : all = held ++ delivered c m.reader env)
      (hv : headerVerdict c.transport m.writer all < 0)
      (hwhole : all.length = expectedLength c.transport m.writer all)
      (hg : Genuine c.transport all) (hrc : 0 < rc) :
      ReadOutcome c m held env
        ⟨rc, afterRead c m.reader env, { m with reader := armed c.transport }⟩
  /-- bytes that form no frame -/
  | noise {all : List UInt8} (hall : all = held ++ delivered c m.reader env)
      (hv : headerVerdict c.transport m.writer all < 0)
      (hwhole : all.length = expectedLength c.transport m.writer all)
      (hg : ¬ Genuine c.transport all) :
      ReadOutcome c m held env
        ⟨errProtocol,
          { flush { afterRead c m.reader env with err := c.err + 1 } env with
            resyncPending := true },
          { m with reader := armed c.transport }⟩

theorem delivered_length_le (c : Context) (r : Frame .reader) (env : Env) :
    (delivered c r env).length ≤ r.window := by
  unfold delivered
  split
  · rw [List.length_take]
    omega
  · exact Nat.zero_le _
  · exact Nat.zero_le _

/-- The chunk is taken off the front of what has arrived. -/
theorem delivered_append_drop (c : Context) (r : Frame .reader) (env : Env) :
    delivered c r env ++ c.input.drop (delivered c r env).length = c.input := by
  unfold delivered
  split
  · rw [List.length_take, List.take_eq_take_min]
    exact List.take_append_drop _ _
  · rfl
  · rfl

theorem Receiving.window {t : Transport} {w : Frame .writer} {r : Frame .reader}
    {held : List UInt8} (h : Receiving t w r held) :
    r.window = expectedLength t w held - held.length := by
  have hb := (expectedLength_bounds w h.usable).2
  have hr := h.frame
  subst hr
  exact Frame.window_eq h.fits hb

theorem Receiving.delivered_fits {c : Context} {w : Frame .writer} {r : Frame .reader}
    {held : List UInt8} (h : Receiving c.transport w r held) (env : Env) :
    (held ++ delivered c r env).length ≤ expectedLength c.transport w held := by
  have hle := delivered_length_le c r env
  have hfits := h.fits
  rw [h.window] at hle
  rw [List.length_append]
  omega

theorem Receiving.append {t : Transport} {w : Frame .writer} {r : Frame .reader}
    {held : List UInt8} (h : Receiving t w r held) (chunk : List UInt8) :
    r.append chunk = .holding (held ++ chunk) (expectedLength t w held) := by
  rw [h.frame, Frame.append_holding]

theorem tcpRefineLength_holding (rc : ℤ) (c : Context) (held all : List UInt8)
    (hfirst : all.length < 6 → held.length < 6) :
    tcpRefineLength ⟨rc, c, .holding all (tcpExpectedLength held)⟩ =
      if Usable .tcp all then ⟨rc, c, .holding all (tcpExpectedLength all)⟩
      else ⟨-1, c, .holding all (tcpExpectedLength held)⟩ := by
  by_cases h6 : all.length < 6
  · have hu : Usable .tcp all := fun h => absurd h6 (by omega)
    have hlen : tcpExpectedLength all = tcpExpectedLength held :=
      (if_pos h6).trans (if_pos (hfirst h6)).symm
    rw [if_pos hu, hlen]
    exact if_pos h6
  · have hlen : tcpExpectedLength all = declaredLength all := if_neg h6
    refine (if_neg h6).trans ?_
    by_cases hu : Usable .tcp all
    · have hok : ¬ (declaredLength all < 8 ∨ frameMax < declaredLength all) := by
        have := hu (by omega)
        omega
      rw [if_pos hu, hlen]
      exact if_neg hok
    · have hbad : declaredLength all < 8 ∨ frameMax < declaredLength all := by
        by_contra hno
        exact hu fun _ => by omega
      rw [if_neg hu]
      exact if_pos hbad

theorem tcpRead_receiving {c : Context} {w : Frame .writer} {r : Frame .reader}
    {held : List UInt8} (h : Receiving .tcp w r held)
    (hopen : held.length < tcpExpectedLength held) (env : Env) :
    tcpRead c r env =
      if readResult c env = .error ∨ ¬ Usable .tcp (held ++ delivered c r env) then
        ⟨-1, (readWindow c r env).ctx,
          .holding (held ++ delivered c r env) (tcpExpectedLength held)⟩
      else
        ⟨(delivered c r env).length, (readWindow c r env).ctx,
          .holding (held ++ delivered c r env)
            (tcpExpectedLength (held ++ delivered c r env))⟩ := by
  have hb := expectedLength_bounds w h.usable
  have hlength : r.length = tcpExpectedLength held := congrArg Frame.length h.frame
  have hxmit : r.xmit = held.length := congrArg Frame.xmit h.frame
  have happend : r.append (delivered c r env) =
      .holding (held ++ delivered c r env) (tcpExpectedLength held) := h.append _
  simp only [expectedLength, Transport.headerLength] at hb
  have hzero : ¬ r.length = 0 := by omega
  have hguard : ¬ (r.length ≤ r.xmit ∨ frameMax < r.length) := by omega
  rw [tcpRead, if_neg hzero, tcpReadSized, if_neg hguard]
  cases hgot : readResult c env with
  | error => simp [readWindow, hgot, happend]
  | wouldBlock =>
    have hnone : delivered c r env = [] := by simp [delivered, hgot]
    have hu : Usable .tcp (held ++ []) := by simpa using h.usable
    rw [hnone] at happend ⊢
    rw [if_neg (by simpa using h.usable)]
    simp [readWindow, hgot, hnone, happend]
  | data k =>
    have hs : readWindow c r env = ⟨(delivered c r env).length, (readWindow c r env).ctx,
        .holding (held ++ delivered c r env) (tcpExpectedLength held)⟩ := by
      simp [readWindow, hgot, happend]
    dsimp only
    rw [hs, tcpRefineLength_holding]
    · by_cases hu : Usable .tcp (held ++ delivered c r env)
      · rw [if_pos hu, if_neg (by simp [hu])]
      · rw [if_neg hu, if_pos (.inr hu)]
    · simp only [List.length_append]
      omega

theorem readFrame_receiving {c : Context} {w : Frame .writer} {r : Frame .reader}
    {held : List UInt8} (h : Receiving c.transport w r held)
    (hopen : held.length < expectedLength c.transport w held) (env : Env) :
    readFrame c r env =
      if readResult c env = .error ∨ ¬ Usable c.transport (held ++ delivered c r env) then
        ⟨-1, (readWindow c r env).ctx,
          .holding (held ++ delivered c r env) (expectedLength c.transport w held)⟩
      else
        ⟨(delivered c r env).length, (readWindow c r env).ctx,
          .holding (held ++ delivered c r env)
            (stagedLength c.transport w held (held ++ delivered c r env))⟩ := by
  unfold readFrame
  cases ht : c.transport with
  | tcp =>
    rw [ht] at h hopen
    exact tcpRead_receiving h hopen env
  | rtu =>
    rw [ht] at h hopen
    have hlength : r.length = rtuExpectedLength w held := congrArg Frame.length h.frame
    have hlo := (rtuExpectedLength_bounds w held).1
    have happend : r.append (delivered c r env) =
        .holding (held ++ delivered c r env) (rtuExpectedLength w held) := h.append _
    have hu : Usable .rtu (held ++ delivered c r env) := trivial
    simp only [rtuRead, if_neg (show ¬ r.length = 0 by omega), hu, not_true, or_false]
    by_cases hfail : readResult c env = .error
    · simp [readWindow, hfail, happend, expectedLength]
    · simp [readWindow, hfail, happend, stagedLength]

theorem finish_holding {c : Context} {m : Msg} {held : List UInt8} {n : ℕ}
    (hsent : m.writer.xmit = m.writer.length) (hlo : c.transport.resHeaderMin ≤ n)
    (hfits : held.length ≤ n) {moved : ℤ} (hmoved : 0 ≤ moved)
    (hwhole : held.length = n → moved = 0) :
    ∃ rc : ℤ, finish moved c { m with reader := .holding held n } =
        ⟨rc, c, { m with reader := .holding held n }⟩ ∧
      0 ≤ rc ∧ (rc = 0 ↔ held.length = n) := by
  have hpending : pendingRc c.transport { m with reader := .holding held n } =
      (n : ℤ) - held.length := by
    unfold pendingRc
    simp only [Frame.holding_length, Frame.holding_xmit, hsent]
    rw [if_neg (by omega)]
    omega
  by_cases hm : moved = 0
  · refine ⟨(n : ℤ) - held.length, ?_, by omega, by omega⟩
    rw [finish, if_neg (by simpa using hm), hpending]
  · refine ⟨moved, if_pos hm, hmoved, ?_⟩
    constructor
    · intro h
      exact absurd h hm
    · intro h
      exact absurd (hwhole h) hm

theorem finish_armed {c : Context} {m : Msg} (hsent : m.writer.xmit = m.writer.length) :
    ∃ rc : ℤ, finish 0 c { m with reader := armed c.transport } =
        ⟨rc, c, { m with reader := armed c.transport }⟩ ∧ 0 < rc := by
  have hpos : 0 < c.transport.headerLength := by
    cases c.transport <;> decide
  have hmin : c.transport.resHeaderMin ≤ c.transport.headerLength := by
    cases c.transport <;> decide
  have hfits : ([] : List UInt8).length ≤ c.transport.headerLength := Nat.zero_le _
  obtain ⟨rc, hrc, hnonneg, hdone⟩ := finish_holding (c := c) (m := m) hsent hmin
    hfits le_rfl (fun _ => rfl)
  refine ⟨rc, hrc, lt_of_le_of_ne hnonneg fun h => ?_⟩
  have hzero := hdone.1 h.symm
  rw [List.length_nil] at hzero
  omega

theorem exceptionCode_holding (t : Transport) (w : Frame .writer) (held : List UInt8) (n : ℕ) :
    msgException t w (.holding held n) = exceptionCode t w held := by
  cases t <;> rfl

theorem rtuMsgException_pos {w : Frame .writer} {r : Frame .reader}
    (h : 0 < rtuMsgException w r) :
    w.buf 0 = r.buf 0 ∧ w.buf 1 ≠ r.buf 1 ∧ r.buf 1 = w.buf 1 ||| 0x80 := by
  unfold rtuMsgException at h
  dsimp only at h
  split_ifs at h with hcode hslave hfunction
  all_goals first | exact absurd h (by omega) | skip
  have hbit : HasExceptionBit (r.buf 1) := by
    by_contra hno
    exact hcode (by simp [rtuFrameException, hno])
  rcases exceptionBit_cases (r.buf 1) with hno | ⟨hor, hne⟩
  · exact absurd hbit hno
  · rw [not_not.1 hfunction] at hor hne
    exact ⟨(not_not.1 hslave).symm, hne, hor⟩

/-- On RTU the header check itself waits for the whole of an exception reply. -/
theorem rtu_exceptionCode_eq_zero {w : Frame .writer} {held : List UInt8}
    (hfits : held.length ≤ rtuExpectedLength w held) (hv : headerVerdict .rtu w held < 0) :
    exceptionCode .rtu w held = 0 := by
  by_contra hne
  obtain ⟨hs, hf, he⟩ := rtuMsgException_pos (Nat.pos_of_ne_zero hne)
  have h3 := rtuVerdict_neg_sized hv
  have hlen : rtuExpectedLength w held = 5 := by
    rw [rtuExpectedLength, if_neg (by omega), if_neg fun h => hf h.2.1, ownLength, if_pos]
    have hbyte : (Frame.holding held 0 : Frame .reader).buf 1 = held.getD 1 0 := rfl
    rw [← hbyte, he]
    exact hasExceptionBit_or _
  have hv' : headerVerdict .rtu w held = 5 - held.length := by
    change (rtuMsgCheckHeader w (.holding held 0)).1 = _
    rw [rtuMsgCheckHeader, if_neg (by simpa using h3), if_neg (by simpa using hs), if_neg hf,
      if_pos he]
    rfl
  omega

theorem resHeaderMin_le {t : Transport} (w : Frame .writer) {held : List UInt8}
    (h : Usable t held) : t.resHeaderMin ≤ expectedLength t w held := by
  have hmin : t.resHeaderMin ≤ t.headerLength := by
    cases t <;> decide
  exact hmin.trans (expectedLength_bounds w h).1

/-- The read half once the header check refused the held bytes. -/
theorem headerMismatch_outcome {c : Context} {m : Msg} {held all : List UInt8} (env : Env)
    (hsent : m.writer.xmit = m.writer.length) (hall : all = held ++ delivered c m.reader env)
    (hu : Usable c.transport all) (hfits : all.length ≤ expectedLength c.transport m.writer all)
    (hv : headerVerdict c.transport m.writer all < 0) :
    ReadOutcome c m held env
      (headerMismatch (afterRead c m.reader env)
        { m with reader := .holding all (stagedLength c.transport m.writer held all) } env) := by
  have hmin := resHeaderMin_le m.writer hu
  have hdrain := frameDrain_staged held hfits hu hv
  have hx := exceptionCode_holding c.transport m.writer all
    (stagedLength c.transport m.writer held all)
  unfold headerMismatch
  change ReadOutcome c m held env
    (if 0 < msgException c.transport m.writer (.holding all _) then _ else _)
  rw [hx]
  by_cases hpos : 0 < exceptionCode c.transport m.writer all
  · rw [if_pos hpos]
    have hstaged : stagedLength c.transport m.writer held all =
        expectedLength c.transport m.writer all := by
      cases ht : c.transport with
      | tcp => rfl
      | rtu =>
        rw [ht] at hfits hv hpos
        exact absurd (rtu_exceptionCode_eq_zero hfits hv) (by omega)
    rw [hstaged]
    exact .refused hall hu hv hpos
  · rw [if_neg hpos]
    dsimp only [afterRead_transport]
    rw [hdrain]
    by_cases hpart : all.length < expectedLength c.transport m.writer all
    · rw [if_pos hpart]
      obtain ⟨rc, hfin, hnonneg, hdone⟩ := finish_holding (c := afterRead c m.reader env) hsent hmin
        hfits le_rfl (fun _ => rfl)
      simp only [lt_irrefl, if_false, if_true]
      rw [hfin]
      exact .sizing hall hu hv hpart (lt_of_le_of_ne hnonneg fun h => by
        have := hdone.1 h.symm
        omega)
    · have hwhole : all.length = expectedLength c.transport m.writer all := by omega
      rw [if_neg hpart]
      by_cases hg : Genuine c.transport all
      · rw [if_pos hg]
        obtain ⟨rc, hfin, hpos⟩ := finish_armed (c := afterRead c m.reader env) hsent
        simp only [zero_lt_one, if_true]
        rw [afterRead_transport] at hfin
        rw [hfin]
        exact .steppedOver hall hv hwhole hg hpos
      · rw [if_neg hg]
        exact .noise hall hv hwhole hg

theorem readHalf_outcome {c : Context} {m : Msg} {held : List UInt8} (env : Env)
    (hsent : m.writer.xmit = m.writer.length)
    (h : Receiving c.transport m.writer m.reader held)
    (hopen : held.length < expectedLength c.transport m.writer held) :
    ReadOutcome c m held env (readHalf c m env) := by
  have hin := h.delivered_fits env
  obtain ⟨all, hall⟩ : ∃ all, all = held ++ delivered c m.reader env := ⟨_, rfl⟩
  have hread : readFrame { c with lastReadMs := env.clock .stamp } m.reader env =
      if readResult c env = .error ∨ ¬ Usable c.transport all then
        ⟨-1, afterRead c m.reader env, .holding all (expectedLength c.transport m.writer held)⟩
      else
        ⟨(delivered c m.reader env).length, afterRead c m.reader env,
          .holding all (stagedLength c.transport m.writer held all)⟩ := by
    rw [hall]
    exact readFrame_receiving (c := { c with lastReadMs := env.clock .stamp }) h hopen env
  unfold readHalf
  rw [hread]
  by_cases hfail : readResult c env = .error ∨ ¬ Usable c.transport all
  · rw [if_pos hfail]
    exact .failed hall hfail
  · have hu : Usable c.transport all := not_not.1 fun h => hfail (.inr h)
    have hfits : all.length ≤ expectedLength c.transport m.writer all := by
      rw [hall] at hu ⊢
      exact fits_append hin hu
    have hcheck := checkHeader_staged hin (hall ▸ hu)
    rw [← hall] at hcheck
    rw [if_neg hfail]
    dsimp only [afterRead_transport]
    rw [if_neg (by omega), hcheck]
    dsimp only
    by_cases hv : headerVerdict c.transport m.writer all < 0
    · rw [if_pos hv, if_pos hv]
      exact headerMismatch_outcome env hsent hall hu hfits hv
    · rw [if_neg hv, if_neg hv]
      have hmin := resHeaderMin_le m.writer hu
      by_cases hwhole : all.length = expectedLength c.transport m.writer all
      · obtain ⟨rc, hfin, hrc, hdone⟩ := finish_holding (c := afterRead c m.reader env) hsent hmin
          hfits le_rfl (fun _ => rfl)
        rw [if_pos (by exact hwhole), hfin]
        exact .answering hall hu (by omega) hrc hdone
      · obtain ⟨rc, hfin, hrc, hdone⟩ := finish_holding (c := afterRead c m.reader env) hsent hmin
          hfits (Int.natCast_nonneg (delivered c m.reader env).length) (fun h => absurd h hwhole)
        rw [if_neg (by exact hwhole), hfin]
        exact .answering hall hu (by omega) hrc hdone

end Modbusmq
