import Modbusmq.Decoding.TextValues

/-!
# ASCII text

What `modbusmq_encode_text` lays out for a text and what is read from registers.
The bytes of a register change places on the way out and back, and a field of odd
length has a last byte that stays.
-/

namespace Modbusmq

open Trim

def Printable (c : UInt8) : Prop := 0x20 ≤ c ∧ c ≤ 0x7E

instance (c : UInt8) : Decidable (Printable c) := inferInstanceAs (Decidable (_ ∧ _))

/-- A text that can be told from the padding of its field. -/
structure PlainText (text : List UInt8) : Prop where
  printable : ∀ c ∈ text, Printable c
  trimmed : Trimmed (· = 32) text

def bytePlace (n : ℕ) (swap : Bool) (i : ℕ) : ℕ :=
  let j := if swap then i ^^^ 1 else i
  if j < n then j else i

theorem bytePlace_lt {n i : ℕ} (swap : Bool) (h : i < n) : bytePlace n swap i < n := by
  unfold bytePlace
  dsimp only
  split_ifs <;> assumption

theorem bytePlace_bytePlace {n i : ℕ} (swap : Bool) (h : i < n) :
    bytePlace n swap (bytePlace n swap i) = i := by
  cases swap with
  | false => simp [bytePlace]
  | true =>
    have hback : i ^^^ 1 ^^^ 1 = i := by rw [Nat.xor_assoc, Nat.xor_self, Nat.xor_zero]
    by_cases hj : i ^^^ 1 < n
    · simp [bytePlace, hj, hback, h]
    · simp [bytePlace, hj]

theorem bytePlace_inj {n i k : ℕ} (swap : Bool) (hi : i < n) (hk : k < n) :
    bytePlace n swap i = bytePlace n swap k ↔ i = k := by
  constructor
  · intro h
    rw [← bytePlace_bytePlace swap hi, h, bytePlace_bytePlace swap hk]
  · intro h
    rw [h]

theorem textByte_place (data : List UInt8) (swap : Bool) (i : ℕ) :
    textByte data swap i = data.getD (bytePlace data.length swap i) 0 := rfl

theorem textBytePut_place (out : List UInt8) (swap : Bool) (i : ℕ) (c : UInt8) :
    textBytePut out i swap c = out.set (bytePlace out.length swap i) c := rfl

@[simp] theorem fieldBytes_length (data : List UInt8) (swap : Bool) :
    (fieldBytes data swap).length = data.length := by
  simp [fieldBytes]

theorem fieldBytes_put {out : List UInt8} {i : ℕ} (swap : Bool) (h : i < out.length) (c : UInt8) :
    fieldBytes (textBytePut out i swap c) swap = (fieldBytes out swap).set i c := by
  apply List.ext_getElem
  · simp
  · intro k hk hk'
    have hkout : k < out.length := by simpa using hk
    have hplace := bytePlace_lt swap hkout
    rw [List.getElem_set]
    simp only [fieldBytes, List.getElem_map, List.getElem_range, textByte_place,
      textBytePut_place, List.length_set]
    rw [List.getD_eq_getElem _ _ (by simpa using hplace), List.getElem_set,
      List.getD_eq_getElem _ _ hplace]
    simp only [bytePlace_inj swap h hkout]

theorem fieldBytes_replicate (n : ℕ) (swap : Bool) :
    fieldBytes (List.replicate n 0) swap = List.replicate n 0 := by
  apply List.ext_getElem
  · simp
  · intro k hk _
    have hkn : k < n := by simpa using hk
    simp [fieldBytes, textByte_place, bytePlace_lt swap hkn]

/-- The loop of the encoder lays out the text from its place on. -/
theorem fieldBytes_foldl (swap : Bool) {text out : List UInt8} {k : ℕ}
    (h : k + text.length ≤ out.length) :
    fieldBytes ((text.zipIdx k).foldl (fun out (c, i) => textBytePut out i swap c) out) swap =
      (fieldBytes out swap).take k ++ text ++ (fieldBytes out swap).drop (k + text.length) := by
  induction text generalizing k out with
  | nil => simp
  | cons c text ih =>
    rw [List.length_cons] at h
    have hk : k < out.length := by omega
    have hfield : k < (fieldBytes out swap).length := by simpa using hk
    have hlen : k + 1 + text.length ≤ (textBytePut out k swap c).length := by
      rw [textBytePut_length]
      omega
    rw [List.zipIdx_cons, List.foldl_cons, ih hlen, fieldBytes_put swap hk]
    have htake : ((fieldBytes out swap).set k c).take (k + 1) =
        (fieldBytes out swap).take k ++ [c] := by
      rw [List.take_set, List.take_succ_eq_append_getElem hfield,
        List.set_append_right _ _ (by simp)]
      simp [Nat.min_eq_left hk.le]
    have hdrop : ((fieldBytes out swap).set k c).drop (k + 1 + text.length) =
        (fieldBytes out swap).drop (k + (text.length + 1)) := by
      rw [List.drop_set_of_lt (by omega)]
      congr 1
      omega
    rw [htake, hdrop, List.length_cons]
    simp

theorem encodeAscii_fieldBytes {text : List UInt8} {n : ℕ} (h : text.length ≤ n) (swap : Bool) :
    ∃ out, encodeAscii text swap (List.replicate n 0) = (true, out) ∧ out.length = n ∧
      fieldBytes out swap = text ++ List.replicate (n - text.length) 0 := by
  have hfits : ¬ (List.replicate n (0 : UInt8)).length < text.length := by simpa using h
  have hlength := encodeAscii_length text swap (List.replicate n 0)
  have hroom : 0 + text.length ≤ (List.replicate n (0 : UInt8)).length := by simpa using h
  have hfield := fieldBytes_foldl swap hroom
  unfold encodeAscii at hlength ⊢
  rw [if_neg hfits] at hlength ⊢
  refine ⟨_, rfl, hlength.trans List.length_replicate, ?_⟩
  rw [hfield, fieldBytes_replicate]
  simp

theorem printable_printable (c : UInt8) : Printable (printable c) := by
  unfold printable Printable
  split_ifs with h
  · decide
  · rw [not_or, UInt8.not_lt, UInt8.not_lt] at h
    exact h

theorem Printable.printable_eq {c : UInt8} (h : Printable c) : printable c = c := by
  unfold printable
  rw [if_neg]
  rw [not_or, UInt8.not_lt, UInt8.not_lt]
  exact h

theorem Printable.ne_zero {c : UInt8} (h : Printable c) : c ≠ 0 := by
  rintro rfl
  exact absurd h (by decide)

/-- The loop of the decoder drops the padding and replaces what is not printable. -/
theorem asciiLoop_some {len : ℕ} {bytes buf out : List UInt8}
    (h : asciiLoop len bytes buf = some out) :
    out = buf ++ (bytes.filter (· ≠ 0)).map printable := by
  induction bytes generalizing buf with
  | nil => simpa [asciiLoop] using h.symm
  | cons c bytes ih =>
    unfold asciiLoop at h
    split_ifs at h with hc hroom
    · simpa [hc] using ih h
    · simpa [hc] using ih h

theorem asciiLoop_fits {len : ℕ} {bytes buf : List UInt8}
    (h : buf.length + (bytes.filter (· ≠ 0)).length < len) :
    (asciiLoop len bytes buf).isSome := by
  induction bytes generalizing buf with
  | nil => rfl
  | cons c bytes ih =>
    unfold asciiLoop
    by_cases hc : c = 0
    · rw [if_pos hc]
      exact ih (by simpa [hc] using h)
    · rw [List.filter_cons_of_pos (by simpa using hc), List.length_cons] at h
      rw [if_neg hc, if_neg (by omega)]
      apply ih
      rw [List.length_append, List.length_singleton]
      omega

theorem textAscii_plain {data text : List UInt8} {swap : Bool} {len : ℕ}
    (h : textAscii data swap len = some text) : PlainText text := by
  obtain ⟨out, hout, rfl⟩ := Option.map_eq_some_iff.1 h
  have hloop := asciiLoop_some hout
  refine ⟨fun c hc => ?_, trim_trimmed _ _⟩
  have hmem := trim_subset _ _ hc
  rw [hloop, List.nil_append] at hmem
  obtain ⟨b, -, rfl⟩ := List.mem_map.1 hmem
  exact printable_printable b

theorem textAscii_padded {data text : List UInt8} {swap : Bool} {len n : ℕ} (htext : PlainText text)
    (hlen : text.length < len) (hdata : fieldBytes data swap = text ++ List.replicate n 0) :
    textAscii data swap len = some text := by
  have hfilter : (fieldBytes data swap).filter (· ≠ 0) = text := by
    rw [hdata, List.filter_append, List.filter_eq_self.2]
    · simp
    · intro c hc
      simpa using (htext.printable c hc).ne_zero
  have hfits : (asciiLoop len (fieldBytes data swap) []).isSome := by
    apply asciiLoop_fits
    rw [hfilter, List.length_nil, Nat.zero_add]
    exact hlen
  obtain ⟨out, hout⟩ := Option.isSome_iff_exists.1 hfits
  have hmap : text.map printable = text :=
    (List.map_congr_left fun c hc => (htext.printable c hc).printable_eq).trans (List.map_id' text)
  have hloop := asciiLoop_some hout
  rw [hfilter, hmap, List.nil_append] at hloop
  unfold textAscii
  rw [hout, hloop, Option.map_some]
  exact congrArg some htext.trimmed.trim_eq

/-- The two ASCII formats, with the order of the bytes in a register. -/
def asciiFormat (swap : Bool) : DataFormat := if swap then .ascii_ba else .ascii_ab

/-- What is promised of the ASCII formats: a text that fits comes back from its registers, and
what is read from any registers is plain. -/
structure AsciiRoundTrip (library : TimeLibrary) : Prop where
  back : ∀ (channel : TextChannel) (swap : Bool) (text : List UInt8) (room : ℕ),
    channel.format = asciiFormat swap → 0 < channel.length → channel.length ≤ textBytesMax →
    channel.length ≤ room → PlainText text → text.length ≤ channel.length →
    ∃ bytes, encodeText channel.toChannel text room = (true, bytes) ∧
      bytes.length = channel.length ∧
        ∀ (t : Transport) (config : Option Config) (r : Frame .reader) (input : Input),
          ¬ input.type.IsBit → channelData t config r input channel.toChannel = some bytes →
            readChannelText library t config r input channel textMax = some text
  plain : ∀ (channel : TextChannel) (swap : Bool), channel.format = asciiFormat swap →
    ∀ (t : Transport) (config : Option Config) (r : Frame .reader) (input : Input) (len : ℕ)
      (text : List UInt8), readChannelText library t config r input channel len = some text →
        PlainText text

theorem decodeText_ascii (library : TimeLibrary) {channel : TextChannel} {swap : Bool}
    (h : channel.format = asciiFormat swap) (data : List UInt8) (len : ℕ) :
    decodeText library channel data len = textAscii data swap len := by
  unfold decodeText
  rw [h]
  cases swap <;> rfl

theorem encodeText_ascii {channel : Channel} {swap : Bool} (h : channel.format = asciiFormat swap)
    {room : ℕ} (hpos : 0 < channel.length) (hroom : channel.length ≤ room) (text : List UInt8) :
    encodeText channel text room =
      encodeAscii text swap (List.replicate channel.length 0) := by
  unfold encodeText
  rw [if_neg (by omega), h]
  cases swap <;> rfl

/-- A text that fits comes back from its registers in both byte orders, and no text that is read
has a character that is not printable or a blank at an end. -/
theorem ascii_round_trip (library : TimeLibrary) : AsciiRoundTrip library where
  back := by
    intro channel swap text room hformat hpos hmax hroom htext hlength
    obtain ⟨bytes, hencoded, hbytes, hfield⟩ := encodeAscii_fieldBytes hlength swap
    have hlen : text.length < textMax := by
      unfold textMax
      unfold textBytesMax at hmax
      omega
    refine ⟨bytes, (encodeText_ascii hformat hpos hroom text).trans hencoded, hbytes, ?_⟩
    intro t config r input hbit hdata
    have htextual : formatIsText channel.format := by
      rw [hformat]
      cases swap <;> rfl
    unfold readChannelText
    rw [if_neg (by simp [textMax, htextual, hbit]), hdata]
    exact (decodeText_ascii library hformat bytes textMax).trans
      (textAscii_padded htext hlen hfield)
  plain := by
    intro channel swap hformat t config r input len text h
    unfold readChannelText at h
    split_ifs at h
    split at h
    · contradiction
    · rename_i data _
      rw [decodeText_ascii library hformat] at h
      exact textAscii_plain h

end Modbusmq
