import Modbusmq.Core.WriteRead

/-!
# The read half on a reader that holds received bytes

Between two calls the reader holds exactly the bytes of the frame being read,
in front of zeroed memory, and expects a length that is a function of these
bytes and of the request alone. This module says what the header check, the
drain and one read compute on such a reader; everything later about reading is
derived from `readHalf_cases`.
-/

namespace Modbusmq

/-- The frame length the MBAP field of the held bytes declares. -/
def declaredLength (held : List UInt8) : ℕ := be16 (held.getD 4 0) (held.getD 5 0) + 6

/-- The RTU frame length the held bytes imply on their own. -/
def ownLength (held : List UInt8) : ℕ :=
  if HasExceptionBit (held.getD 1 0) then 5
  else if IsRead (held.getD 1 0) then 3 + (held.getD 2 0).toNat + 2
  else rtuEchoLength (held.getD 1 0)

def tcpExpectedLength (held : List UInt8) : ℕ :=
  if held.length < 6 then 8 else declaredLength held

def rtuExpectedLength (w : Frame .writer) (held : List UInt8) : ℕ :=
  if held.length < 3 then 3
  else if w.buf 0 = held.getD 0 0 ∧ w.buf 1 = held.getD 1 0 ∧ rtuExpectedNbytes w = none then
    rtuEchoLength (w.buf 1)
  else ownLength held

/-- How many bytes the reader expects once it holds `held`. -/
def expectedLength : Transport → Frame .writer → List UInt8 → ℕ
  | .tcp => fun _ => tcpExpectedLength
  | .rtu => rtuExpectedLength

/-- Enough bytes to know the length of the frame. -/
def Sized (t : Transport) (held : List UInt8) : Prop := t.resHeaderMin ≤ held.length

/-- The return value of the header check on held bytes. -/
def headerVerdict (t : Transport) (w : Frame .writer) (held : List UInt8) : ℤ :=
  (checkHeader t w (.holding held 0)).1

/-- The last two bytes are the CRC of the others, low byte first. -/
def CrcValid (held : List UInt8) : Prop :=
  be16 (held.getD (held.length - 1) 0) (held.getD (held.length - 2) 0) =
    (rtuCrc16 (held.take (held.length - 2))).toNat

instance (held : List UInt8) : Decidable (CrcValid held) :=
  inferInstanceAs (Decidable (_ = _))

/-- The length field, once it is in, declares a usable length. -/
def Usable : Transport → List UInt8 → Prop
  | .tcp => fun held =>
    6 ≤ held.length → 8 ≤ declaredLength held ∧ declaredLength held ≤ frameMax
  | .rtu => fun _ => True

/-- A frame that is complete is not line noise. -/
def Genuine : Transport → List UInt8 → Prop
  | .tcp => fun _ => True
  | .rtu => CrcValid

instance (t : Transport) (held : List UInt8) : Decidable (Usable t held) :=
  match t with
  | .tcp => inferInstanceAs (Decidable (_ → _))
  | .rtu => .isTrue trivial

instance (t : Transport) (held : List UInt8) : Decidable (Genuine t held) :=
  match t with
  | .tcp => .isTrue trivial
  | .rtu => inferInstanceAs (Decidable (CrcValid held))

structure Receiving (t : Transport) (w : Frame .writer) (r : Frame .reader) (held : List UInt8) :
    Prop where
  frame : r = .holding held (expectedLength t w held)
  fits : held.length ≤ expectedLength t w held
  usable : Usable t held

@[simp] theorem tcpDeclared_holding (held : List UInt8) (n : ℕ) :
    tcpDeclared (.holding held n : Frame .reader) = declaredLength held := rfl

@[simp] theorem expectedLength_nil (t : Transport) (w : Frame .writer) :
    expectedLength t w [] = t.headerLength := by
  cases t <;> rfl

theorem receiving_armed (t : Transport) (w : Frame .writer) : Receiving t w (armed t) [] where
  frame := by
    rw [expectedLength_nil]
    rfl
  fits := Nat.zero_le _
  usable := by
    cases t with
    | tcp => exact fun h => absurd h (by decide)
    | rtu => trivial

theorem ownLength_bounds (held : List UInt8) :
    5 ≤ ownLength held ∧ ownLength held ≤ frameMax := by
  have he := rtuEchoLength_bounds (held.getD 1 0)
  have hb := (held.getD 2 0).toNat_lt
  unfold ownLength frameMax
  split_ifs <;> omega

theorem rtuExpectedLength_bounds (w : Frame .writer) (held : List UInt8) :
    3 ≤ rtuExpectedLength w held ∧ rtuExpectedLength w held ≤ frameMax := by
  have he := rtuEchoLength_bounds (w.buf 1)
  have ho := ownLength_bounds held
  unfold rtuExpectedLength
  unfold frameMax at *
  split_ifs <;> omega

/-- Once the header is in, further bytes do not move the expected length. -/
theorem expectedLength_append {t : Transport} {w : Frame .writer} {held : List UInt8}
    (chunk : List UInt8) (h : Sized t held) :
    expectedLength t w (held ++ chunk) = expectedLength t w held := by
  have hget : ∀ i < held.length, (held ++ chunk).getD i 0 = held.getD i 0 :=
    fun i hi => List.getD_append _ _ _ _ hi
  cases t with
  | tcp =>
    change 6 ≤ held.length at h
    simp only [expectedLength, tcpExpectedLength, declaredLength, List.length_append]
    rw [if_neg (by omega), if_neg (by omega), hget 4 (by omega), hget 5 (by omega)]
  | rtu =>
    change 3 ≤ held.length at h
    simp only [expectedLength, rtuExpectedLength, ownLength, List.length_append]
    rw [if_neg (by omega : ¬ held.length + chunk.length < 3),
      if_neg (by omega : ¬ held.length < 3), hget 0 (by omega), hget 1 (by omega),
      hget 2 (by omega)]

/-- A usable frame expects its whole header at least and fits the buffer. -/
theorem expectedLength_bounds {t : Transport} (w : Frame .writer) {held : List UInt8}
    (h : Usable t held) :
    t.headerLength ≤ expectedLength t w held ∧ expectedLength t w held ≤ frameMax := by
  cases t with
  | tcp =>
    change 8 ≤ tcpExpectedLength held ∧ tcpExpectedLength held ≤ frameMax
    unfold tcpExpectedLength
    split_ifs with hlt
    · decide
    · exact h (by omega)
  | rtu => exact rtuExpectedLength_bounds w held

/-- Bytes that stay inside the length expected so far stay inside the one they imply. -/
theorem fits_append {t : Transport} {w : Frame .writer} {held chunk : List UInt8}
    (hfits : (held ++ chunk).length ≤ expectedLength t w held)
    (hu : Usable t (held ++ chunk)) :
    (held ++ chunk).length ≤ expectedLength t w (held ++ chunk) := by
  by_cases hsized : Sized t held
  · rwa [expectedLength_append chunk hsized]
  · have hb := (expectedLength_bounds w hu).1
    have hheader : expectedLength t w held ≤ t.headerLength := by
      cases t with
      | tcp => exact le_of_eq (if_pos (by simpa [Sized, Transport.resHeaderMin] using hsized))
      | rtu => exact le_of_eq (if_pos (by simpa [Sized, Transport.resHeaderMin] using hsized))
    omega

/-- The length the reader expects right after a read turned `before` into `all`. -/
def stagedLength (t : Transport) (w : Frame .writer) (before all : List UInt8) : ℕ :=
  match t with
  | .tcp => tcpExpectedLength all
  | .rtu => rtuExpectedLength w before

theorem checkHeader_resize (t : Transport) (w : Frame .writer) (r : Frame .reader) (n : ℕ) :
    (checkHeader t w (r.resize n)).1 = (checkHeader t w r).1 := by
  obtain ⟨length, xmit, buf⟩ := r
  cases t with
  | tcp =>
    unfold checkHeader tcpMsgCheckHeader Frame.resize
    simp only [apply_ite Prod.fst]
    rfl
  | rtu =>
    change (rtuMsgCheckHeader w _).1 = (rtuMsgCheckHeader w _).1
    unfold rtuMsgCheckHeader Frame.resize rtuSettleLength
    cases rtuExpectedNbytes w <;> simp only [apply_ite Prod.fst]

/-- The verdict of the header check is a matter of the bytes, not of the length expected. -/
theorem checkHeader_verdict (t : Transport) (w : Frame .writer) (held : List UInt8) (n : ℕ) :
    (checkHeader t w (.holding held n)).1 = headerVerdict t w held :=
  checkHeader_resize t w (.holding held 0) n

/-- A TCP header check leaves a reader that already expects the declared length. -/
theorem tcpMsgCheckHeader_holding (w : Frame .writer) (held : List UInt8) :
    tcpMsgCheckHeader w (.holding held (tcpExpectedLength held)) =
      (headerVerdict .tcp w held, .holding held (tcpExpectedLength held)) := by
  have hlen : 6 ≤ held.length → tcpExpectedLength held = declaredLength held :=
    fun h => if_neg (by omega)
  refine Prod.ext (checkHeader_verdict .tcp w held _) ?_
  unfold tcpMsgCheckHeader
  split_ifs with _ _ h _
  · rfl
  · rfl
  · change Frame.holding held (declaredLength held) = _
    rw [hlen h.1]
  · rfl
  · rfl

theorem rtuExpectedNbytes_isRead {w : Frame .writer} {expected : ℕ}
    (h : rtuExpectedNbytes w = some expected) : IsRead (w.buf 1) := by
  unfold rtuExpectedNbytes rtuFrameFunction at h
  unfold IsRead
  split_ifs at h <;> tauto

theorem rtuExpectedNbytes_of_isRead {w : Frame .writer} (h : IsRead (w.buf 1)) :
    rtuExpectedNbytes w ≠ none := by
  unfold rtuExpectedNbytes rtuFrameFunction
  unfold IsRead at h
  split_ifs <;> simp_all

/-- An RTU header check either settles the length the bytes imply, or leaves the reader
as it was with bytes that speak for themselves. -/
theorem rtuMsgCheckHeader_holding {w : Frame .writer} {held : List UInt8} (n : ℕ)
    (h3 : 3 ≤ held.length) (hfits : held.length ≤ rtuExpectedLength w held) :
    (0 ≤ headerVerdict .rtu w held →
      (rtuMsgCheckHeader w (.holding held n)).2 = .holding held (rtuExpectedLength w held)) ∧
    (headerVerdict .rtu w held < 0 →
      (rtuMsgCheckHeader w (.holding held n)).2 = .holding held n ∧
        rtuExpectedLength w held = ownLength held) := by
  have hown : ¬ (w.buf 0 = held.getD 0 0 ∧ w.buf 1 = held.getD 1 0 ∧
      rtuExpectedNbytes w = none) → rtuExpectedLength w held = ownLength held := by
    intro h
    rw [rtuExpectedLength, if_neg (by omega), if_neg h]
  have hv := checkHeader_verdict .rtu w held n
  change (rtuMsgCheckHeader w (.holding held n)).1 = _ at hv
  rw [← hv]
  have hcase := rtuMsgCheckHeader_cases w (.holding held n)
  generalize hout : rtuMsgCheckHeader w (.holding held n) = out at hcase
  clear hout hv
  cases hcase with
  | short h => exact absurd h (by simpa using h3)
  | slave _ hs => exact ⟨fun h => absurd h (by simp), fun _ => ⟨rfl, hown fun h => hs h.1⟩⟩
  | function _ _ hf =>
    exact ⟨fun h => absurd h (by simp), fun _ => ⟨rfl, hown fun h => hf h.2.1⟩⟩
  | byteCount _ _ _ hx =>
    exact ⟨fun h => absurd h (by simp), fun _ => ⟨rfl, hown fun h => by simp [hx] at h⟩⟩
  | exception _ _ hf he =>
    have hlen : rtuExpectedLength w held = 5 := by
      rw [hown fun h => hf h.2.1, ownLength, if_pos]
      rw [Frame.holding_buf] at he
      rw [he]
      exact hasExceptionBit_or _
    have hcond : (0 : ℤ) ≤ 5 - held.length := by omega
    exact ⟨fun _ => by rw [hlen]; rfl, fun h => absurd hcond (not_le.2 h)⟩
  | @data expected _ _ hf hx hn =>
    have hread : IsRead (held.getD 1 0) := by
      rw [Frame.holding_buf] at hf
      exact hf ▸ rtuExpectedNbytes_isRead hx
    have hlen : rtuExpectedLength w held = 3 + (held.getD 2 0).toNat + 2 := by
      rw [hown fun h => by simp [hx] at h, ownLength, if_neg hread.not_exception, if_pos hread]
    have hexp : expected + 3 + 2 = rtuExpectedLength w held := by
      rw [hlen, ← hn, Frame.holding_buf]
      omega
    rw [hexp]
    have hcond : (0 : ℤ) ≤ rtuExpectedLength w held - held.length := by omega
    exact ⟨fun _ => rfl, fun h => absurd hcond (not_le.2 h)⟩
  | echo _ hs hf hx =>
    have hlen : rtuExpectedLength w held = rtuEchoLength (w.buf 1) := by
      rw [rtuExpectedLength, if_neg (by omega), if_pos ⟨hs, hf, hx⟩]
    have hcond : (0 : ℤ) ≤ rtuEchoLength (w.buf 1) - held.length := by omega
    exact ⟨fun _ => by rw [hlen]; rfl, fun h => absurd hcond (not_le.2 h)⟩

theorem rtuVerdict_neg_sized {w : Frame .writer} {held : List UInt8}
    (hv : headerVerdict .rtu w held < 0) : 3 ≤ held.length := by
  by_contra hshort
  have hone : headerVerdict .rtu w held = 1 := by
    change (rtuMsgCheckHeader w _).1 = 1
    rw [rtuMsgCheckHeader, if_pos (by simpa using hshort)]
  omega

theorem checkHeader_staged {t : Transport} {w : Frame .writer} {held chunk : List UInt8}
    (hfits : (held ++ chunk).length ≤ expectedLength t w held)
    (hu : Usable t (held ++ chunk)) :
    checkHeader t w (.holding (held ++ chunk) (stagedLength t w held (held ++ chunk))) =
      (headerVerdict t w (held ++ chunk), .holding (held ++ chunk)
        (if headerVerdict t w (held ++ chunk) < 0 then stagedLength t w held (held ++ chunk)
         else expectedLength t w (held ++ chunk))) := by
  cases t with
  | tcp =>
    change tcpMsgCheckHeader w _ = _
    simp only [stagedLength, expectedLength, ite_self]
    exact tcpMsgCheckHeader_holding w _
  | rtu =>
    have hfits' := fits_append hfits hu
    refine Prod.ext (checkHeader_verdict .rtu w _ _) ?_
    by_cases h3 : 3 ≤ (held ++ chunk).length
    · obtain ⟨hpass, hfail⟩ :=
        rtuMsgCheckHeader_holding (stagedLength .rtu w held (held ++ chunk)) h3 hfits'
      split_ifs with hv
      · exact (hfail hv).1
      · exact hpass (by omega)
    · have hlen : ∀ short : List UInt8, ¬ 3 ≤ short.length → rtuExpectedLength w short = 3 :=
        fun short h => if_pos (by omega)
      have hheld : ¬ 3 ≤ held.length := by
        rw [List.length_append] at h3
        omega
      simp only [stagedLength, expectedLength, hlen _ h3, hlen _ hheld, ite_self]
      change (rtuMsgCheckHeader w _).2 = _
      rw [rtuMsgCheckHeader, if_pos (by simpa using h3)]

theorem rtuOwnLength_holding {held : List UInt8} (n : ℕ) (h3 : 3 ≤ held.length) :
    rtuOwnLength (.holding held n) = some (ownLength held) := by
  have hx : ¬ (Frame.holding held n : Frame .reader).xmit < 3 := by simpa using h3
  unfold rtuOwnLength ownLength
  simp only [if_neg hx, apply_ite some]
  rfl

theorem rtuCrc_holding (held : List UInt8) (n : ℕ) :
    rtuCarriedCrc (.holding held n : Frame .reader) held.length =
        rtuComputedCrc (.holding held n : Frame .reader) held.length ↔ CrcValid held := by
  have hbytes : (Frame.holding held n : Frame .reader).bytes (held.length - 2) =
      held.take (held.length - 2) := by
    apply List.ext_getElem
    · simp
    · intro i h1 h2
      have hi : i < held.length := by
        rw [List.length_take] at h2
        omega
      simp [Frame.bytes, hi]
  unfold rtuCarriedCrc rtuComputedCrc CrcValid
  rw [hbytes]
  rfl

theorem frameDrain_staged {t : Transport} {w : Frame .writer} (before : List UInt8)
    {all : List UInt8} (hfits : all.length ≤ expectedLength t w all) (hu : Usable t all)
    (hv : headerVerdict t w all < 0) :
    frameDrain t (.holding all (stagedLength t w before all)) =
      if all.length < expectedLength t w all then (0, .holding all (expectedLength t w all))
      else if Genuine t all then (1, .holding all (stagedLength t w before all))
      else (-1, .holding all (stagedLength t w before all)) := by
  cases t with
  | tcp =>
    change tcpFrameDrain (.holding all (tcpExpectedLength all)) =
      if all.length < tcpExpectedLength all then (0, .holding all (tcpExpectedLength all))
      else if True then (1, .holding all (tcpExpectedLength all))
      else (-1, .holding all (tcpExpectedLength all))
    rw [if_true]
    by_cases h6 : all.length < 6
    · have hlen : tcpExpectedLength all = 8 := if_pos h6
      rw [tcpFrameDrain_header h6, if_pos (by omega)]
    · have hlen : tcpExpectedLength all = declaredLength all := if_neg h6
      obtain ⟨hlo, hhi⟩ := hu (by omega)
      change all.length ≤ tcpExpectedLength all at hfits
      rw [hlen] at hfits ⊢
      exact tcpFrameDrain_sized (r := .holding all (declaredLength all)) (Nat.le_of_not_lt h6)
        (lt_of_lt_of_le (by decide) hlo) hhi hfits
  | rtu =>
    have h3 := rtuVerdict_neg_sized hv
    have hlen : expectedLength .rtu w all = ownLength all :=
      ((rtuMsgCheckHeader_holding 0 h3 hfits).2 hv).2
    obtain ⟨hlo, hhi⟩ := ownLength_bounds all
    rw [hlen] at hfits ⊢
    have hdrain := rtuFrameDrain_sized (r := .holding all (stagedLength .rtu w before all)) h3
      (rtuOwnLength_holding _ h3) (by omega) hhi hfits
    simp only [Frame.holding_xmit, rtuCrc_holding] at hdrain
    exact hdrain

end Modbusmq
