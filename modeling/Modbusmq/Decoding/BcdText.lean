import Modbusmq.Decoding.AsciiText

/-!
# BCD text

What `modbusmq_encode_text` lays out for a number and what is read from
registers. Every byte holds two digits. A number that is shorter than its field
stands at the end of it, so its first digit may fall on either half of a byte.
-/

namespace Modbusmq

def IsDigit (c : UInt8) : Prop := 48 ≤ c ∧ c ≤ 57

instance (c : UInt8) : Decidable (IsDigit c) := inferInstanceAs (Decidable (_ ∧ _))

def highHalf (c : UInt8) : UInt8 := c >>> 4 &&& 0x0f

def lowHalf (c : UInt8) : UInt8 := c &&& 0x0f

/-- Both halves of a byte are digits. -/
def BcdByte (c : UInt8) : Prop := highHalf c ≤ 9 ∧ lowHalf c ≤ 9

instance (c : UInt8) : Decidable (BcdByte c) := inferInstanceAs (Decidable (_ ∧ _))

def bcdDigits (c : UInt8) : List UInt8 := [48 + highHalf c, 48 + lowHalf c]

def bcdPack (hi lo : UInt8) : UInt8 := (hi - 48) <<< 4 ||| (lo - 48)

/-- A number with zeros in front of it, up to two digits for each of `n` bytes. -/
def zeroPadded (n : ℕ) (text : List UInt8) : List UInt8 :=
  List.replicate (n * 2 - text.length) 48 ++ text

theorem bcdPack_digits {c : UInt8} (h : BcdByte c) :
    IsDigit (48 + highHalf c) ∧ IsDigit (48 + lowHalf c) ∧
      bcdPack (48 + highHalf c) (48 + lowHalf c) = c := by
  have hall : ∀ n : Fin 256, BcdByte (UInt8.ofFin n) →
      IsDigit (48 + highHalf (UInt8.ofFin n)) ∧ IsDigit (48 + lowHalf (UInt8.ofFin n)) ∧
        bcdPack (48 + highHalf (UInt8.ofFin n)) (48 + lowHalf (UInt8.ofFin n)) =
          UInt8.ofFin n := by
    decide +kernel
  exact hall c.toFin h

theorem IsDigit.exists_lt {c : UInt8} (h : IsDigit c) :
    ∃ d : Fin 10, c = 48 + UInt8.ofNat d.val := by
  have hlow := UInt8.le_iff_toNat_le.1 h.1
  have hhigh := UInt8.le_iff_toNat_le.1 h.2
  have h48 : (48 : UInt8).toNat = 48 := rfl
  have h57 : (57 : UInt8).toNat = 57 := rfl
  refine ⟨⟨c.toNat - 48, by omega⟩, UInt8.toNat_inj.1 ?_⟩
  rw [UInt8.toNat_add, UInt8.toNat_ofNat', h48]
  dsimp only
  omega

theorem bcdDigits_pack {hi lo : UInt8} (hhi : IsDigit hi) (hlo : IsDigit lo) :
    BcdByte (bcdPack hi lo) ∧ bcdDigits (bcdPack hi lo) = [hi, lo] := by
  obtain ⟨i, rfl⟩ := hhi.exists_lt
  obtain ⟨j, rfl⟩ := hlo.exists_lt
  have hall : ∀ i j : Fin 10,
      BcdByte (bcdPack (48 + UInt8.ofNat i.val) (48 + UInt8.ofNat j.val)) ∧
        bcdDigits (bcdPack (48 + UInt8.ofNat i.val) (48 + UInt8.ofNat j.val)) =
          [48 + UInt8.ofNat i.val, 48 + UInt8.ofNat j.val] := by
    decide +kernel
  exact hall i j

theorem fieldBytes_getElem {data : List UInt8} (swap : Bool) {i : ℕ}
    (h : i < (fieldBytes data swap).length) (hplace : bytePlace data.length swap i < data.length) :
    (fieldBytes data swap)[i] = data[bytePlace data.length swap i] := by
  simp [fieldBytes, textByte_place, hplace]

/-- Exchanging the bytes of each register twice changes nothing. -/
theorem fieldBytes_fieldBytes (data : List UInt8) (swap : Bool) :
    fieldBytes (fieldBytes data swap) swap = data := by
  apply List.ext_getElem
  · simp
  · intro i hi hi'
    have hplace := bytePlace_lt swap hi'
    rw [fieldBytes_getElem swap hi (by simpa using hplace),
      fieldBytes_getElem swap (by simpa using hplace)
        (by simpa [bytePlace_bytePlace swap hi'] using hi')]
    simp only [fieldBytes_length, bytePlace_bytePlace swap hi']

theorem mem_fieldBytes {data : List UInt8} {swap : Bool} {c : UInt8} :
    c ∈ fieldBytes data swap ↔ c ∈ data := by
  have hsub : ∀ data : List UInt8, fieldBytes data swap ⊆ data := by
    intro data c hc
    obtain ⟨i, hi, rfl⟩ := List.getElem_of_mem hc
    rw [fieldBytes_getElem swap hi (bytePlace_lt swap (by simpa using hi))]
    exact List.getElem_mem _
  refine ⟨fun h => hsub data h, fun h => hsub (fieldBytes data swap) ?_⟩
  rwa [fieldBytes_fieldBytes]

theorem all_bcdByte {bytes : List UInt8} :
    (bytes.all fun c => BcdByte c) ↔ ∀ c ∈ bytes, BcdByte c := by
  simp only [List.all_eq_true, decide_eq_true_eq]

theorem all_fieldBytes (data : List UInt8) (swap : Bool) (p : UInt8 → Bool) :
    (fieldBytes data swap).all p = data.all p := by
  rw [Bool.eq_iff_iff]
  simp only [List.all_eq_true, mem_fieldBytes]

theorem bcdLoop_eq (bytes buf : List UInt8) : bcdLoop bytes buf =
    if bytes.all fun c => BcdByte c then some (buf ++ bytes.flatMap bcdDigits) else none := by
  induction bytes generalizing buf with
  | nil => simp [bcdLoop]
  | cons c bytes ih =>
    have hnibbles : (9 < highHalf c ∨ 9 < lowHalf c) ↔ ¬ BcdByte c := by
      unfold BcdByte
      rw [not_and_or, UInt8.not_le, UInt8.not_le]
    unfold bcdLoop
    change (if 9 < highHalf c ∨ 9 < lowHalf c then none
      else bcdLoop bytes (buf ++ bcdDigits c)) = _
    by_cases hc : BcdByte c
    · rw [if_neg (by rwa [hnibbles, not_not]), ih, List.flatMap_cons, ← List.append_assoc]
      rw [List.all_cons, decide_eq_true hc, Bool.true_and]
    · rw [if_pos (hnibbles.2 hc),
        if_neg fun hall => hc (all_bcdByte.1 hall c List.mem_cons_self)]

/-- A field is read unless a half of one of its bytes is no digit. -/
theorem textBcd_eq {data : List UInt8} {len : ℕ} (h : data.length * 2 < len) (swap : Bool) :
    textBcd data swap len = if data.all fun c => BcdByte c then
      some ((fieldBytes data swap).flatMap bcdDigits) else none := by
  unfold textBcd
  rw [if_neg (by omega), bcdLoop_eq, all_fieldBytes, List.nil_append]

def bcdStep (byteAt : ℕ → Option UInt8) (swap : Bool) (s : Bool × List UInt8) (i : ℕ) :
    Bool × List UInt8 :=
  if s.1 then
    match byteAt i with
    | none => (false, s.2)
    | some byte => (true, textBytePut s.2 i swap byte)
  else s

theorem encodeBcd_eq {text out : List UInt8} (h : text.length ≤ out.length * 2) (swap : Bool) :
    encodeBcd text swap out = (List.range out.length).foldl
      (bcdStep (bcdByte text (out.length * 2 - text.length)) swap) (true, out) := by
  unfold encodeBcd
  rw [if_neg (by omega)]
  rfl

/-- With a byte for every place the loop lays out all of them. -/
theorem bcdSteps_filled {byteAt : ℕ → Option UInt8} {g : ℕ → UInt8} {k : ℕ} {out : List UInt8}
    (swap : Bool) (hk : k ≤ out.length) (h : ∀ i < k, byteAt i = some (g i)) :
    ∃ out', (List.range k).foldl (bcdStep byteAt swap) (true, out) = (true, out') ∧
      out'.length = out.length ∧
      fieldBytes out' swap = (List.range k).map g ++ (fieldBytes out swap).drop k := by
  induction k with
  | zero => exact ⟨out, rfl, rfl, rfl⟩
  | succ k ih =>
    obtain ⟨out', hfold, hlength, hfield⟩ :=
      ih (by omega) fun i hi => h i (Nat.lt_succ_of_lt hi)
    have hplace : k < out'.length := by omega
    refine ⟨textBytePut out' k swap (g k), ?_, (textBytePut_length ..).trans hlength, ?_⟩
    · rw [List.range_succ, List.foldl_append, hfold, List.foldl_cons, List.foldl_nil]
      unfold bcdStep
      rw [h k (Nat.lt_succ_self k)]
      rfl
    · have hdrop : k < (fieldBytes out swap).length := by simpa using (by omega : k < out.length)
      rw [fieldBytes_put swap hplace, hfield, List.set_append_right _ _ (by simp),
        List.length_map, List.length_range, Nat.sub_self, List.drop_eq_getElem_cons hdrop,
        List.set_cons_zero, List.range_succ, List.map_append, List.append_assoc]
      rfl

theorem bcdSteps_refused {byteAt : ℕ → Option UInt8} (swap : Bool) {l : List ℕ}
    {s : Bool × List UInt8} (h : s.1 = false ∨ ∃ i ∈ l, byteAt i = none) :
    (l.foldl (bcdStep byteAt swap) s).1 = false := by
  induction l generalizing s with
  | nil => simpa using h
  | cons i l ih =>
    rw [List.foldl_cons]
    apply ih
    unfold bcdStep
    by_cases hs : s.1 = true
    · rw [if_pos hs]
      rcases h with hfalse | ⟨j, hj, hnone⟩
      · rw [hs] at hfalse
        exact absurd hfalse (by decide)
      rcases List.mem_cons.1 hj with rfl | hj
      · rw [hnone]
        exact .inl rfl
      · exact .inr ⟨j, hj, hnone⟩
    · rw [if_neg hs]
      exact .inl (Bool.not_eq_true _ ▸ hs)

theorem flatMap_pairs {n : ℕ} {l : List UInt8} (h : l.length = n * 2) :
    ((List.range n).flatMap fun i => [l.getD (2 * i) 0, l.getD (2 * i + 1) 0]) = l := by
  induction n generalizing l with
  | zero => exact (List.length_eq_zero_iff.1 (by simpa using h)).symm
  | succ n ih =>
    match l, h with
    | [], h => simp at h
    | [_], h =>
      rw [List.length_singleton] at h
      omega
    | a :: b :: l, h =>
      have hl : l.length = n * 2 := by
        rw [List.length_cons, List.length_cons] at h
        omega
      have hnext : ∀ i, (a :: b :: l).getD (2 * (i + 1)) 0 = l.getD (2 * i) 0 ∧
          (a :: b :: l).getD (2 * (i + 1) + 1) 0 = l.getD (2 * i + 1) 0 := fun i => ⟨rfl, rfl⟩
      rw [List.range_succ_eq_map, List.flatMap_cons, List.flatMap_map]
      simp only [Nat.succ_eq_add_one, hnext, ih hl]
      rfl

theorem zeroPadded_length {n : ℕ} {text : List UInt8} (h : text.length ≤ n * 2) :
    (zeroPadded n text).length = n * 2 := by
  unfold zeroPadded
  rw [List.length_append, List.length_replicate]
  omega

theorem zeroPadded_digits {n : ℕ} {text : List UInt8} :
    (∀ c ∈ zeroPadded n text, IsDigit c) ↔ ∀ c ∈ text, IsDigit c := by
  refine ⟨fun h c hc => h c (List.mem_append_right _ hc), fun h c hc => ?_⟩
  rcases List.mem_append.1 hc with hc | hc
  · rw [List.eq_of_mem_replicate hc]
    decide
  · exact h c hc

theorem bcdByte_padded (text : List UInt8) {n i : ℕ} (hi : i < n) :
    bcdByte text (n * 2 - text.length) i =
      if IsDigit ((zeroPadded n text).getD (2 * i) 0) ∧
          IsDigit ((zeroPadded n text).getD (2 * i + 1) 0) then
        some (bcdPack ((zeroPadded n text).getD (2 * i) 0)
          ((zeroPadded n text).getD (2 * i + 1) 0))
      else none := by
  have hdigit : ∀ pos, pos < n * 2 → (if pos < n * 2 - text.length then 48
      else text.getD (pos - (n * 2 - text.length)) 0) = (zeroPadded n text).getD pos 0 := by
    intro pos hpos
    unfold zeroPadded
    split_ifs with hpad
    · rw [List.getD_append _ _ _ _ (by simpa using hpad),
        List.getD_eq_getElem _ _ (by simpa using hpad), List.getElem_replicate]
    · rw [List.getD_append_right _ _ _ _ (by simpa using Nat.le_of_not_lt hpad),
        List.length_replicate]
  have hhi := hdigit (2 * i) (by omega)
  have hlo := hdigit (2 * i + 1) (by omega)
  unfold bcdByte
  simp only [hhi, hlo, IsDigit, and_assoc, bcdPack]

theorem encodeBcd_digits {text : List UInt8} {n : ℕ} (htext : ∀ c ∈ text, IsDigit c)
    (h : text.length ≤ n * 2) (swap : Bool) :
    ∃ out, encodeBcd text swap (List.replicate n 0) = (true, out) ∧ out.length = n ∧
      (∀ c ∈ out, BcdByte c) ∧ (fieldBytes out swap).flatMap bcdDigits = zeroPadded n text := by
  have hlength := zeroPadded_length h
  have hdigit : ∀ pos < n * 2, IsDigit ((zeroPadded n text).getD pos 0) := by
    intro pos hpos
    rw [List.getD_eq_getElem _ _ (by omega)]
    exact zeroPadded_digits.2 htext _ (List.getElem_mem _)
  have hfilled : ∀ i < (List.replicate n (0 : UInt8)).length,
      bcdByte text ((List.replicate n (0 : UInt8)).length * 2 - text.length) i =
        some (bcdPack ((zeroPadded n text).getD (2 * i) 0)
          ((zeroPadded n text).getD (2 * i + 1) 0)) := by
    intro i hi
    rw [List.length_replicate] at hi ⊢
    rw [bcdByte_padded text hi, if_pos ⟨hdigit _ (by omega), hdigit _ (by omega)⟩]
  obtain ⟨out, hfold, hout, hfield⟩ := bcdSteps_filled swap le_rfl hfilled
  rw [List.length_replicate] at hout hfield
  rw [List.drop_of_length_le (by simp), List.append_nil] at hfield
  have hpack : ∀ i < n, BcdByte (bcdPack ((zeroPadded n text).getD (2 * i) 0)
        ((zeroPadded n text).getD (2 * i + 1) 0)) ∧
      bcdDigits (bcdPack ((zeroPadded n text).getD (2 * i) 0)
        ((zeroPadded n text).getD (2 * i + 1) 0)) =
          [(zeroPadded n text).getD (2 * i) 0, (zeroPadded n text).getD (2 * i + 1) 0] :=
    fun i hi => bcdDigits_pack (hdigit _ (by omega)) (hdigit _ (by omega))
  refine ⟨out, (encodeBcd_eq (by simpa using h) swap).trans hfold, hout, fun c hc => ?_, ?_⟩
  · have hwritten : c ∈ fieldBytes out swap := mem_fieldBytes.2 hc
    rw [hfield] at hwritten
    obtain ⟨i, hi, rfl⟩ := List.mem_map.1 hwritten
    exact (hpack i (List.mem_range.1 hi)).1
  · rw [hfield, List.flatMap_map]
    refine Eq.trans ?_ (flatMap_pairs hlength)
    exact List.flatMap_congr fun i hi => (hpack i (List.mem_range.1 hi)).2

/-- A text with something else than digits, or with too many of them, is refused. -/
theorem encodeBcd_accepted (text : List UInt8) (n : ℕ) (swap : Bool) :
    (encodeBcd text swap (List.replicate n 0)).1 = true ↔
      (∀ c ∈ text, IsDigit c) ∧ text.length ≤ n * 2 := by
  constructor
  · intro haccepted
    have hfits : text.length ≤ n * 2 := by
      by_contra hlong
      unfold encodeBcd at haccepted
      rw [if_pos (by simpa using hlong)] at haccepted
      exact Bool.false_ne_true haccepted
    refine ⟨?_, hfits⟩
    by_contra hother
    push Not at hother
    obtain ⟨c, hc, hdigit⟩ := hother
    obtain ⟨j, hj, hcj⟩ := List.getElem_of_mem (List.mem_append_right
      (List.replicate (n * 2 - text.length) 48) hc)
    change j < (zeroPadded n text).length at hj
    have hpos : j < n * 2 := by rwa [zeroPadded_length hfits] at hj
    have hget : (zeroPadded n text).getD j 0 = c := (List.getD_eq_getElem _ _ hj).trans hcj
    have hnone : bcdByte text (n * 2 - text.length) (j / 2) = none := by
      rw [bcdByte_padded text (by omega), if_neg]
      rintro ⟨hhi, hlo⟩
      rcases Nat.even_or_odd' j with ⟨k, rfl | rfl⟩
      · rw [Nat.mul_div_cancel_left k two_pos, hget] at hhi
        exact hdigit hhi
      · have hhalf : (2 * k + 1) / 2 = k := by omega
        rw [hhalf, hget] at hlo
        exact hdigit hlo
    have hrefused := bcdSteps_refused swap (s := (true, List.replicate n 0))
      (.inr ⟨j / 2, List.mem_range.2 (by omega : j / 2 < n), hnone⟩)
    rw [encodeBcd_eq (by simpa using hfits), List.length_replicate, hrefused] at haccepted
    exact Bool.false_ne_true haccepted
  · rintro ⟨htext, hfits⟩
    obtain ⟨out, hencoded, -⟩ := encodeBcd_digits htext hfits swap
    rw [hencoded]

theorem bcdDigits_length (bytes : List UInt8) :
    (bytes.flatMap bcdDigits).length = bytes.length * 2 := by
  induction bytes with
  | nil => rfl
  | cons c bytes ih =>
    rw [List.flatMap_cons, List.length_append, ih, List.length_cons, Nat.succ_mul, Nat.add_comm]
    rfl

theorem bcdDigits_digits {bytes : List UInt8} (h : ∀ c ∈ bytes, BcdByte c) :
    ∀ c ∈ bytes.flatMap bcdDigits, IsDigit c := by
  intro d hd
  obtain ⟨c, hc, hd⟩ := List.mem_flatMap.1 hd
  obtain ⟨hhi, hlo, -⟩ := bcdPack_digits (h c hc)
  simp only [bcdDigits, List.mem_cons, List.not_mem_nil, or_false] at hd
  rcases hd with rfl | rfl
  · exact hhi
  · exact hlo

theorem bcdDigits_injective {bytes bytes' : List UInt8} (h : ∀ c ∈ bytes, BcdByte c)
    (h' : ∀ c ∈ bytes', BcdByte c) (heq : bytes.flatMap bcdDigits = bytes'.flatMap bcdDigits) :
    bytes = bytes' := by
  induction bytes generalizing bytes' with
  | nil =>
    cases bytes' with
    | nil => rfl
    | cons c bytes' => exact absurd heq (by simp [bcdDigits])
  | cons c bytes ih =>
    cases bytes' with
    | nil => exact absurd heq (by simp [bcdDigits])
    | cons c' bytes' =>
      rw [List.flatMap_cons, List.flatMap_cons] at heq
      obtain ⟨hhead, htail⟩ := List.append_inj heq rfl
      obtain ⟨-, -, hc⟩ := bcdPack_digits (h c List.mem_cons_self)
      obtain ⟨-, -, hc'⟩ := bcdPack_digits (h' c' List.mem_cons_self)
      have hpair := List.cons.inj hhead
      have hlow := (List.cons.inj hpair.2).1
      rw [← hc, ← hc', hpair.1, hlow, ih (fun c hc => h c (List.mem_cons_of_mem _ hc))
        (fun c hc => h' c (List.mem_cons_of_mem _ hc)) htail]

/-- The number of a field that can be read is written back as the field. -/
theorem encodeBcd_fieldBytes {data : List UInt8} (h : ∀ c ∈ data, BcdByte c) (swap : Bool) :
    encodeBcd ((fieldBytes data swap).flatMap bcdDigits) swap (List.replicate data.length 0) =
      (true, data) := by
  have hfield : ∀ c ∈ fieldBytes data swap, BcdByte c := fun c hc => h c (mem_fieldBytes.1 hc)
  have htext := bcdDigits_digits hfield
  have hlength := bcdDigits_length (fieldBytes data swap)
  rw [fieldBytes_length] at hlength
  obtain ⟨out, hencoded, hout, hbytes, hback⟩ := encodeBcd_digits htext hlength.le swap
  have hpadded : zeroPadded data.length ((fieldBytes data swap).flatMap bcdDigits) =
      (fieldBytes data swap).flatMap bcdDigits := by
    unfold zeroPadded
    rw [hlength, Nat.sub_self]
    rfl
  rw [hpadded] at hback
  have hsame := bcdDigits_injective (fun c hc => hbytes c (mem_fieldBytes.1 hc)) hfield hback
  rw [hencoded, ← fieldBytes_fieldBytes out swap, hsame, fieldBytes_fieldBytes]

/-- The two BCD formats, with the order of the bytes in a register. -/
def bcdFormat (swap : Bool) : DataFormat := if swap then .bcd_ba else .bcd_ab

/-- What is promised of the BCD formats: a number that fits comes back with zeros in front, a
field of digits is read and written back, and nothing else is accepted by either side. -/
structure BcdRoundTrip (library : TimeLibrary) (channel : TextChannel) (room : ℕ) : Prop where
  back : ∀ text : List UInt8, (∀ c ∈ text, IsDigit c) → text.length ≤ channel.length * 2 →
    ∃ bytes, encodeText channel.toChannel text room = (true, bytes) ∧
      bytes.length = channel.length ∧
      ∀ (t : Transport) (config : Option Config) (r : Frame .reader) (input : Input),
        ¬ input.type.IsBit → channelData t config r input channel.toChannel = some bytes →
          readChannelText library t config r input channel textMax =
            some (zeroPadded channel.length text)
  again : ∀ (t : Transport) (config : Option Config) (r : Frame .reader) (input : Input)
    (bytes : List UInt8), ¬ input.type.IsBit →
    channelData t config r input channel.toChannel = some bytes → (∀ c ∈ bytes, BcdByte c) →
      ∃ text, readChannelText library t config r input channel textMax = some text ∧
        encodeText channel.toChannel text room = (true, bytes)
  decoder : ∀ (t : Transport) (config : Option Config) (r : Frame .reader) (input : Input)
    (bytes : List UInt8), ¬ input.type.IsBit →
    channelData t config r input channel.toChannel = some bytes →
      (readChannelText library t config r input channel textMax = none ↔
        ∃ c ∈ bytes, ¬ BcdByte c)
  encoder : ∀ text : List UInt8, (encodeText channel.toChannel text room).1 = false ↔
    (∃ c ∈ text, ¬ IsDigit c) ∨ channel.length * 2 < text.length

theorem channelData_length {t : Transport} {config : Option Config} {r : Frame .reader}
    {input : Input} {channel : Channel} {data : List UInt8} (hbit : ¬ input.type.IsBit)
    (h : channelData t config r input channel = some data) : data.length = decodeSize channel := by
  unfold channelData at h
  rw [if_neg hbit] at h
  split_ifs at h
  rw [← Option.some.inj h, List.length_map, List.length_range]

theorem encodeText_bcd {channel : Channel} {swap : Bool} (h : channel.format = bcdFormat swap)
    {room : ℕ} (hpos : 0 < channel.length) (hroom : channel.length ≤ room) (text : List UInt8) :
    encodeText channel text room = encodeBcd text swap (List.replicate channel.length 0) := by
  unfold encodeText
  rw [if_neg (by omega), h]
  cases swap <;> rfl

theorem readChannelText_bcd (library : TimeLibrary) {channel : TextChannel} {swap : Bool}
    (h : channel.format = bcdFormat swap) (hmax : channel.length ≤ textBytesMax) {t : Transport}
    {config : Option Config} {r : Frame .reader} {input : Input} {data : List UInt8}
    (hbit : ¬ input.type.IsBit) (hdata : channelData t config r input channel.toChannel = some data) :
    data.length = channel.length ∧ readChannelText library t config r input channel textMax =
      if data.all fun c => BcdByte c then some ((fieldBytes data swap).flatMap bcdDigits)
      else none := by
  have hsize : decodeSize channel.toChannel = channel.length := by
    unfold decodeSize
    rw [h]
    cases swap <;> rfl
  have hlength := (channelData_length hbit hdata).trans hsize
  have htextual : formatIsText channel.format := by
    rw [h]
    cases swap <;> rfl
  have hroom : data.length * 2 < textMax := by
    unfold textBytesMax at hmax
    unfold textMax
    omega
  refine ⟨hlength, ?_⟩
  unfold readChannelText
  rw [if_neg (by simp [textMax, htextual, hbit]), hdata, ← textBcd_eq hroom swap]
  unfold decodeText
  rw [h]
  cases swap <;> rfl

/-- A number that fits comes back from its registers with zeros in front of it, and the other way
round; a half that is no digit, a character that is none and a digit too many are all that is
refused. -/
theorem bcd_round_trip (library : TimeLibrary) {channel : TextChannel} {swap : Bool}
    (hformat : channel.format = bcdFormat swap) (hpos : 0 < channel.length)
    (hmax : channel.length ≤ textBytesMax) {room : ℕ} (hroom : channel.length ≤ room) :
    BcdRoundTrip library channel room where
  back := by
    intro text htext hfits
    obtain ⟨bytes, hencoded, hlength, hbytes, hback⟩ := encodeBcd_digits htext hfits swap
    refine ⟨bytes, (encodeText_bcd hformat hpos hroom text).trans hencoded, hlength, ?_⟩
    intro t config r input hbit hdata
    rw [(readChannelText_bcd library hformat hmax hbit hdata).2, if_pos (all_bcdByte.2 hbytes), hback]
  again := by
    intro t config r input bytes hbit hdata hbytes
    obtain ⟨hlength, hread⟩ := readChannelText_bcd library hformat hmax hbit hdata
    refine ⟨_, hread.trans (if_pos (all_bcdByte.2 hbytes)), ?_⟩
    rw [encodeText_bcd hformat hpos hroom, ← hlength, encodeBcd_fieldBytes hbytes]
  decoder := by
    intro t config r input bytes hbit hdata
    rw [(readChannelText_bcd library hformat hmax hbit hdata).2]
    split_ifs with hbytes
    · simpa using hbytes
    · simpa using hbytes
  encoder := by
    intro text
    rw [encodeText_bcd hformat hpos hroom, ← Bool.not_eq_true, encodeBcd_accepted, not_and_or,
      not_le]
    simp

/-- A BCD field is read without knowing the time. -/
def timelessLibrary : TimeLibrary := ⟨fun _ _ => [], fun _ => none, fun _ => none⟩

/-- Three bytes, in exchanged order and with one that stays. -/
theorem bcd_round_trip_example :
    BcdRoundTrip timelessLibrary ⟨⟨0, 3, .bcd_ba⟩, 0, none, false⟩ 3 :=
  bcd_round_trip timelessLibrary (rfl : _ = bcdFormat true) (by decide) (by decide) (by decide)

end Modbusmq
