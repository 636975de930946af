import Modbusmq.Bridge.Commands
import Modbusmq.Bridge.Numbers

/-!
# Payloads of one value

Which payloads `mqtt_payload_value` accepts, against what a payload is meant to
be: a command that names the on or the off value, or one finite number. The cast
to `int` in front of the comparison lets other numbers through as commands, and
without a mapping `nan` and `inf` pass for numbers.
-/

namespace Modbusmq

open Json

/-- A payload without the blanks in front of it. -/
def commandText (payload : List UInt8) : List UInt8 := payload.dropWhile fun b => b = 32 ∨ b = 9

/-- What a payload for an entry without channels stands for. -/
inductive Means (strtod : List UInt8 → Double × ℕ) (write : WriteEntry) (payload : List UInt8) :
    Double → Prop
  | on (hmap : write.hasOnValue)
      (h : sameWord (commandText payload) "on" ∨ sameWord (commandText payload) "true") :
      Means strtod write payload (some write.onValue)
  | off (hmap : write.hasOnValue)
      (h : sameWord (commandText payload) "off" ∨ sameWord (commandText payload) "false") :
      Means strtod write payload (some write.offValue)
  | onValue (hmap : write.hasOnValue)
      (h : IsNumber strtod (commandText payload) (some write.onValue)) :
      Means strtod write payload (some write.onValue)
  | offValue (hmap : write.hasOnValue)
      (h : IsNumber strtod (commandText payload) (some write.offValue)) :
      Means strtod write payload (some write.offValue)
  | number (hmap : ¬ write.hasOnValue) {text blanks : List UInt8} {value : ℚ}
      (htext : commandText payload = text ++ blanks) (hblanks : ∀ b ∈ blanks, blankByte [] b)
      (h : IsNumber strtod text (some value)) : Means strtod write payload (some value)

/-- Exactly the payloads that mean something are accepted, as what they mean, and any other one
changes nothing on the bus. -/
def ValueContract (numerals : Numerals) (write : AckedWrite) (payload : List UInt8) : Prop :=
  (∀ value, mqttPayloadValue numerals write.toWriteEntry payload = .ok value ↔
    Means numerals.strtod write.toWriteEntry payload value) ∧
  (write.channels = [] → (∀ value, ¬ Means numerals.strtod write.toWriteEntry payload value) →
    ∀ (s : WriteBridge) (w : ℕ) (env : WriteEnv),
      (serveEntry numerals payload s w write env).context = s.context)

/-- The payload is a number that is neither the on nor the off value but is cast to one of them,
or without a mapping it is an infinity or not a number. -/
def Misread (numerals : Numerals) (write : WriteEntry) (payload : List UInt8) : Prop :=
  if write.hasOnValue then
    ∃ value, IsNumber numerals.strtod (commandText payload) value ∧
      value ≠ some (write.onValue : ℚ) ∧ value ≠ some (write.offValue : ℚ) ∧
      (doubleInt numerals.cast value = write.onValue ∨
        doubleInt numerals.cast value = write.offValue)
  else
    ∃ text blanks, commandText payload = text ++ blanks ∧ (∀ b ∈ blanks, blankByte [] b) ∧
      IsNumber numerals.strtod text none

def lowerByte (b : UInt8) : UInt8 := if 65 ≤ b ∧ b ≤ 90 then b + 32 else b

theorem numeralHead_lower {b : UInt8} (h : numeralHead b) :
    (lowerByte b).toNat ≤ 57 ∨ lowerByte b = 105 ∨ lowerByte b = 110 := by
  unfold numeralHead at h
  simp only [decide_eq_true_eq] at h
  have hlow : b.toNat ≤ 57 → (lowerByte b).toNat ≤ 57 := by
    intro hle
    have hno : ¬ (65 ≤ b ∧ b ≤ 90) := by
      rintro ⟨hge, -⟩
      have := UInt8.le_iff_toNat_le.1 hge
      have h65 : (65 : UInt8).toNat = 65 := rfl
      omega
    unfold lowerByte
    rwa [if_neg hno]
  rcases h with ⟨-, hle⟩ | rfl | rfl | rfl | rfl | ⟨-, hle⟩ | rfl | rfl | rfl | rfl
  · refine .inl (hlow ?_)
    have := UInt8.le_iff_toNat_le.1 hle
    have h13 : (13 : UInt8).toNat = 13 := rfl
    omega
  · exact .inl (by decide)
  · exact .inl (by decide)
  · exact .inl (by decide)
  · exact .inl (by decide)
  · refine .inl (hlow ?_)
    exact UInt8.le_iff_toNat_le.1 hle
  · exact .inr (.inl (by decide))
  · exact .inr (.inl (by decide))
  · exact .inr (.inr (by decide))
  · exact .inr (.inr (by decide))

/-- A word whose first letter begins no number. -/
def Wordy (word : String) : Prop :=
  ∃ b rest, ascii word.toList = b :: rest ∧ 57 < b.toNat ∧ b ≠ 105 ∧ b ≠ 110

theorem sameWord_not_number {strtod : List UInt8 → Double × ℕ} (h : StrtodContract strtod)
    {text : List UInt8} {word : String} (hword : Wordy word) (hsame : sameWord text word)
    (value : Double) : ¬ IsNumber strtod text value := by
  intro hnumber
  obtain ⟨c, more, rfl, hhead⟩ := hnumber.headed h
  obtain ⟨b, rest, hascii, hhigh, hi, hn⟩ := hword
  have hlower : (c :: more).map lowerByte = b :: rest := by
    rw [← hascii]
    exact of_decide_eq_true hsame
  have hb : lowerByte c = b := List.head_eq_of_cons_eq hlower
  rcases numeralHead_lower hhead with hlow | heq | heq
  · rw [hb] at hlow
    omega
  · exact hi (hb.symm.trans heq)
  · exact hn (hb.symm.trans heq)

theorem wordy_on : Wordy "on" := ⟨111, [110], by decide +kernel, by decide, by decide, by decide⟩

theorem wordy_true : Wordy "true" :=
  ⟨116, [114, 117, 101], by decide +kernel, by decide, by decide, by decide⟩

theorem wordy_off : Wordy "off" :=
  ⟨111, [102, 102], by decide +kernel, by decide, by decide, by decide⟩

theorem wordy_false : Wordy "false" :=
  ⟨102, [97, 108, 115, 101], by decide +kernel, by decide, by decide, by decide⟩

theorem sameWord_unique {text : List UInt8} {word word' : String} (h : sameWord text word)
    (h' : sameWord text word') : ascii word.toList = ascii word'.toList :=
  (of_decide_eq_true h).symm.trans (of_decide_eq_true h')

variable {numerals : Numerals} {write : WriteEntry} {payload : List UInt8}

theorem strtod_whole (h : StrtodContract numerals.strtod) (text : List UInt8) :
    (¬ ((numerals.strtod text).2 = 0 ∨ text.drop (numerals.strtod text).2 ≠ [])) ↔
      IsNumber numerals.strtod text (numerals.strtod text).1 := by
  have hle := h.bounded text
  rw [not_or, not_not, List.drop_eq_nil_iff]
  constructor
  · rintro ⟨hused, hall⟩
    refine ⟨List.ne_nil_of_length_pos (by omega), ?_⟩
    rw [Nat.le_antisymm hall hle]
  · rintro ⟨hne, hread⟩
    have hlength : (numerals.strtod text).2 = text.length := by rw [hread]
    have hpos := List.length_pos_of_ne_nil hne
    omega

/-- A command is one of the words, or a number that is cast to the on or the off value. -/
inductive Commands (numerals : Numerals) (write : WriteEntry) (text : List UInt8) : Bool → Prop
  | on (h : sameWord text "on" ∨ sameWord text "true") : Commands numerals write text true
  | off (h : sameWord text "off" ∨ sameWord text "false") : Commands numerals write text false
  | onValue {value : Double} (h : IsNumber numerals.strtod text value)
      (hcast : doubleInt numerals.cast value = write.onValue) : Commands numerals write text true
  | offValue {value : Double} (h : IsNumber numerals.strtod text value)
      (hother : doubleInt numerals.cast value ≠ write.onValue)
      (hcast : doubleInt numerals.cast value = write.offValue) : Commands numerals write text false

theorem on_ne_off {text : List UInt8} (hon : sameWord text "on" ∨ sameWord text "true")
    (hoff : sameWord text "off" ∨ sameWord text "false") : False := by
  rcases hon with hon | hon <;> rcases hoff with hoff | hoff <;>
    exact absurd (sameWord_unique hon hoff) (by decide +kernel)

theorem isNumber_whole (h : StrtodContract numerals.strtod) {text : List UInt8} {value : Double}
    (hnumber : IsNumber numerals.strtod text value) : value = (numerals.strtod text).1 ∧
      ¬ ((numerals.strtod text).2 = 0 ∨ text.drop (numerals.strtod text).2 ≠ []) := by
  have hvalue : value = (numerals.strtod text).1 := by rw [hnumber.2]
  exact ⟨hvalue, (strtod_whole h text).2 (hvalue ▸ hnumber)⟩

theorem isNumber_not_word (h : StrtodContract numerals.strtod) {text : List UInt8}
    {value : Double} (hnumber : IsNumber numerals.strtod text value) :
    ¬ (sameWord text "on" ∨ sameWord text "true") ∧
      ¬ (sameWord text "off" ∨ sameWord text "false") := by
  refine ⟨?_, ?_⟩
  · rintro (hsame | hsame)
    · exact sameWord_not_number h wordy_on hsame value hnumber
    · exact sameWord_not_number h wordy_true hsame value hnumber
  · rintro (hsame | hsame)
    · exact sameWord_not_number h wordy_off hsame value hnumber
    · exact sameWord_not_number h wordy_false hsame value hnumber

theorem payloadCommand_sound (h : StrtodContract numerals.strtod) {text : List UInt8} {on : Bool}
    (hcommand : payloadCommand numerals write text = .ok on) : Commands numerals write text on := by
  unfold payloadCommand at hcommand
  dsimp only at hcommand
  split_ifs at hcommand with hon hoff hwhole hcaston hcastoff
  · obtain rfl := Except.ok.inj hcommand
    exact .on hon
  · obtain rfl := Except.ok.inj hcommand
    exact .off hoff
  · obtain rfl := Except.ok.inj hcommand
    exact .onValue ((strtod_whole h text).1 hwhole) hcaston
  · obtain rfl := Except.ok.inj hcommand
    exact .offValue ((strtod_whole h text).1 hwhole) hcaston hcastoff

theorem Commands.accepted (h : StrtodContract numerals.strtod) {text : List UInt8} {on : Bool}
    (hcommands : Commands numerals write text on) :
    payloadCommand numerals write text = .ok on := by
  unfold payloadCommand
  dsimp only
  cases hcommands with
  | on hword => rw [if_pos hword]
  | off hword => rw [if_neg fun hon => on_ne_off hon hword, if_pos hword]
  | onValue hnumber hcast =>
    obtain ⟨rfl, hwhole⟩ := isNumber_whole h hnumber
    obtain ⟨hon, hoff⟩ := isNumber_not_word h hnumber
    rw [if_neg hon, if_neg hoff, if_neg hwhole, if_pos hcast]
  | offValue hnumber hother hcast =>
    obtain ⟨rfl, hwhole⟩ := isNumber_whole h hnumber
    obtain ⟨hon, hoff⟩ := isNumber_not_word h hnumber
    rw [if_neg hon, if_neg hoff, if_neg hwhole, if_neg hother, if_pos hcast]

theorem payloadCommand_iff (h : StrtodContract numerals.strtod) (text : List UInt8) (on : Bool) :
    payloadCommand numerals write text = .ok on ↔ Commands numerals write text on :=
  ⟨payloadCommand_sound h, Commands.accepted h⟩

theorem Commands.ne_nil {on : Bool} (hcommands : Commands numerals write [] on) : False := by
  have hword : ∀ word : String, ascii word.toList ≠ [] → ¬ sameWord [] word := fun word hne h =>
    hne (of_decide_eq_true h).symm
  cases hcommands with
  | on h =>
    rcases h with h | h
    · exact hword _ (by decide +kernel) h
    · exact hword _ (by decide +kernel) h
  | off h =>
    rcases h with h | h
    · exact hword _ (by decide +kernel) h
    · exact hword _ (by decide +kernel) h
  | onValue h => exact h.1 rfl
  | offValue h => exact h.1 rfl

theorem mqttPayloadValue_eq (numerals : Numerals) (write : WriteEntry) (payload : List UInt8) :
    mqttPayloadValue numerals write payload =
      if commandText payload = [] then .error (ascii "empty payload".toList)
      else if write.hasOnValue then
        match payloadCommand numerals write (commandText payload) with
        | .ok on => .ok (some (if on then (write.onValue : ℚ) else write.offValue))
        | .error text => .error text
      else if (numerals.strtod (commandText payload)).2 = 0 then
        .error (why (quoting (commandText payload) " is not a number"))
      else if ((commandText payload).drop (numerals.strtod (commandText payload)).2).dropWhile
          (blankByte []) ≠ [] then
        .error (why (quoting (commandText payload) " has trailing junk"))
      else .ok (numerals.strtod (commandText payload)).1 := rfl

theorem mqttPayloadValue_mapped (h : StrtodContract numerals.strtod) (hmap : write.hasOnValue)
    (payload : List UInt8) (value : Double) :
    mqttPayloadValue numerals write payload = .ok value ↔
      ∃ on, Commands numerals write (commandText payload) on ∧
        value = some (if on then (write.onValue : ℚ) else write.offValue) := by
  rw [mqttPayloadValue_eq]
  generalize commandText payload = text
  by_cases hnil : text = []
  · rw [if_pos hnil]
    subst hnil
    exact iff_of_false (by simp) fun ⟨on, hcommands, _⟩ => hcommands.ne_nil
  rw [if_neg hnil, if_pos hmap]
  cases hcommand : payloadCommand numerals write text with
  | ok on =>
    constructor
    · intro hvalue
      exact ⟨on, (payloadCommand_iff h text on).1 hcommand, (Except.ok.inj hvalue).symm⟩
    · rintro ⟨on', hcommands, rfl⟩
      have hsame := (payloadCommand_iff h text on').2 hcommands
      rw [hcommand] at hsame
      rw [Except.ok.inj hsame]
  | error refusal =>
    refine iff_of_false (by simp) ?_
    rintro ⟨on, hcommands, -⟩
    have hsame := (payloadCommand_iff h text on).2 hcommands
    rw [hcommand] at hsame
    exact absurd hsame (by simp)

theorem dropWhile_blanks {blanks : List UInt8} :
    blanks.dropWhile (blankByte []) = [] ↔ ∀ b ∈ blanks, blankByte [] b := by
  rw [List.dropWhile_eq_nil_iff]

theorem blanks_end {blanks : List UInt8} (h : ∀ b ∈ blanks, blankByte [] b) :
    ∀ b ∈ blanks.head?, numeralEnd b := by
  intro b hb
  have hblank := h b (List.mem_of_mem_head? hb)
  unfold blankByte at hblank
  unfold numeralEnd blankByte
  rw [decide_eq_true_eq] at hblank ⊢
  simp only [List.not_mem_nil, or_false] at hblank
  rcases hblank with h | h | h | h
  · exact .inl h
  · exact .inr (.inl h)
  · exact .inr (.inr (.inl h))
  · exact .inr (.inr (.inr (.inl h)))

theorem mqttPayloadValue_unmapped (h : StrtodContract numerals.strtod) (hmap : ¬ write.hasOnValue)
    (payload : List UInt8) (value : Double) :
    mqttPayloadValue numerals write payload = .ok value ↔
      ∃ text blanks, commandText payload = text ++ blanks ∧ (∀ b ∈ blanks, blankByte [] b) ∧
        IsNumber numerals.strtod text value := by
  rw [mqttPayloadValue_eq]
  generalize commandText payload = whole
  have hread : ∀ text blanks, whole = text ++ blanks → (∀ b ∈ blanks, blankByte [] b) →
      IsNumber numerals.strtod text value → numerals.strtod whole = (value, text.length) := by
    rintro text blanks rfl hblanks hnumber
    exact h.isNumber_ended hnumber (blanks_end hblanks)
  by_cases hnil : whole = []
  · rw [if_pos hnil]
    refine iff_of_false (by simp) ?_
    rintro ⟨text, blanks, hsplit, -, hnumber⟩
    rw [hnil] at hsplit
    exact hnumber.1 (List.append_eq_nil_iff.1 hsplit.symm).1
  rw [if_neg hnil, if_neg hmap]
  by_cases hused : (numerals.strtod whole).2 = 0
  · rw [if_pos hused]
    refine iff_of_false (by simp) ?_
    rintro ⟨text, blanks, hsplit, hblanks, hnumber⟩
    rw [hread text blanks hsplit hblanks hnumber] at hused
    exact hnumber.1 (List.length_eq_zero_iff.1 hused)
  rw [if_neg hused]
  by_cases hjunk : (whole.drop (numerals.strtod whole).2).dropWhile (blankByte []) ≠ []
  · rw [if_pos hjunk]
    refine iff_of_false (by simp) ?_
    rintro ⟨text, blanks, hsplit, hblanks, hnumber⟩
    apply hjunk
    rw [hread text blanks hsplit hblanks hnumber, hsplit, List.drop_left, dropWhile_blanks]
    exact hblanks
  rw [if_neg hjunk]
  constructor
  · intro hvalue
    rw [← Except.ok.inj hvalue]
    exact ⟨_, _, (List.take_append_drop _ whole).symm, dropWhile_blanks.1 (not_not.1 hjunk),
      h.isNumber_taken (Nat.pos_of_ne_zero hused)⟩
  · rintro ⟨text, blanks, hsplit, hblanks, hnumber⟩
    rw [hread text blanks hsplit hblanks hnumber]

theorem serveEntry_refused {write : AckedWrite} (hsingle : write.channels = [])
    {refusal : List UInt8}
    (hrefused : mqttPayloadValue numerals write.toWriteEntry payload = .error refusal)
    (s : WriteBridge) (w : ℕ) (env : WriteEnv) :
    (serveEntry numerals payload s w write env).context = s.context := by
  unfold serveEntry
  rw [if_neg (by simp [hsingle]), hrefused]
  rfl

/-- What is refused changes nothing on the bus, so only what is accepted counts. -/
theorem valueContract_of_iff {write : AckedWrite}
    (h : ∀ value, mqttPayloadValue numerals write.toWriteEntry payload = .ok value ↔
      Means numerals.strtod write.toWriteEntry payload value) :
    ValueContract numerals write payload := by
  refine ⟨h, fun hsingle hmeans s w env => ?_⟩
  cases hvalue : mqttPayloadValue numerals write.toWriteEntry payload with
  | ok value => exact absurd ((h value).1 hvalue) (hmeans value)
  | error refusal => exact serveEntry_refused hsingle hvalue s w env

/-- A number that is neither the on nor the off value means nothing to an entry with a mapping. -/
theorem otherNumber_means_nothing (h : StrtodContract numerals.strtod) (hmap : write.hasOnValue)
    {value : Double} (hnumber : IsNumber numerals.strtod (commandText payload) value)
    (hon : value ≠ some (write.onValue : ℚ)) (hoff : value ≠ some (write.offValue : ℚ))
    (value' : Double) : ¬ Means numerals.strtod write payload value' := by
  have hsame : ∀ value', IsNumber numerals.strtod (commandText payload) value' →
      value = value' := fun value' hnumber' =>
    (isNumber_whole h hnumber).1.trans (isNumber_whole h hnumber').1.symm
  intro hmeans
  cases hmeans with
  | on _ hword => exact (isNumber_not_word h hnumber).1 hword
  | off _ hword => exact (isNumber_not_word h hnumber).2 hword
  | onValue _ hexact => exact hon (hsame _ hexact)
  | offValue _ hexact => exact hoff (hsame _ hexact)
  | number hno => exact hno hmap

theorem Commands.means (hon : IsInt write.onValue) (hoff : IsInt write.offValue)
    (hmap : write.hasOnValue) (hread : ¬ Misread numerals write payload) {on : Bool}
    (hcommands : Commands numerals write (commandText payload) on) :
    Means numerals.strtod write payload
      (some (if on then (write.onValue : ℚ) else write.offValue)) := by
  unfold Misread at hread
  rw [if_pos hmap] at hread
  cases hcommands with
  | on hword => exact .on hmap hword
  | off hword => exact .off hmap hword
  | @onValue value hnumber hcast =>
    by_cases hexact : value = some (write.onValue : ℚ)
    · exact .onValue hmap (hexact ▸ hnumber)
    by_cases hexact' : value = some (write.offValue : ℚ)
    · -- the off value itself is cast to the on value only if they are one
      rw [hexact', doubleInt_intCast _ hoff] at hcast
      exact .onValue hmap (hcast ▸ hexact' ▸ hnumber)
    exact absurd ⟨value, hnumber, hexact, hexact', .inl hcast⟩ hread
  | @offValue value hnumber hother hcast =>
    by_cases hexact : value = some (write.onValue : ℚ)
    · rw [hexact, doubleInt_intCast _ hon] at hother
      exact absurd rfl hother
    by_cases hexact' : value = some (write.offValue : ℚ)
    · exact .offValue hmap (hexact' ▸ hnumber)
    exact absurd ⟨value, hnumber, hexact, hexact', .inr hcast⟩ hread

theorem Means.commands (hon : IsInt write.onValue) (hoff : IsInt write.offValue)
    (hmap : write.hasOnValue) {value : Double}
    (hmeans : Means numerals.strtod write payload value) :
    ∃ on, Commands numerals write (commandText payload) on ∧
      value = some (if on then (write.onValue : ℚ) else write.offValue) := by
  cases hmeans with
  | on _ hword => exact ⟨true, .on hword, rfl⟩
  | off _ hword => exact ⟨false, .off hword, rfl⟩
  | onValue _ hexact => exact ⟨true, .onValue hexact (doubleInt_intCast _ hon), rfl⟩
  | offValue _ hexact =>
    by_cases hsame : write.offValue = write.onValue
    · refine ⟨true, .onValue hexact ?_, by rw [hsame]; rfl⟩
      rw [doubleInt_intCast _ hoff, hsame]
    · refine ⟨false, .offValue hexact ?_ (doubleInt_intCast _ hoff), rfl⟩
      rwa [doubleInt_intCast _ hoff]
  | number hno => exact absurd hmap hno

theorem Means.number_of_unmapped (hmap : ¬ write.hasOnValue) {value : Double}
    (hmeans : Means numerals.strtod write payload value) :
    value.isSome ∧ ∃ text blanks, commandText payload = text ++ blanks ∧
      (∀ b ∈ blanks, blankByte [] b) ∧ IsNumber numerals.strtod text value := by
  cases hmeans with
  | on hyes => exact absurd hyes hmap
  | off hyes => exact absurd hyes hmap
  | onValue hyes => exact absurd hyes hmap
  | offValue hyes => exact absurd hyes hmap
  | number _ hsplit hblanks hnumber => exact ⟨rfl, _, _, hsplit, hblanks, hnumber⟩

/-- A payload of one value is served as it is meant, unless it is such a number. -/
theorem single_value_iff (h : StrtodContract numerals.strtod) {write : AckedWrite}
    (hon : IsInt write.onValue) (hoff : IsInt write.offValue) (payload : List UInt8) :
    ValueContract numerals write payload ↔
      ¬ Misread numerals write.toWriteEntry payload := by
  by_cases hmap : write.hasOnValue
  · have hmapped := mqttPayloadValue_mapped h hmap payload
    constructor
    · rintro ⟨hiff, -⟩ hmisread
      unfold Misread at hmisread
      rw [if_pos hmap] at hmisread
      obtain ⟨value, hnumber, hneon, hneoff, hcast⟩ := hmisread
      have hnot := otherNumber_means_nothing h hmap hnumber hneon hneoff
      by_cases hcaston : doubleInt numerals.cast value = write.onValue
      · exact hnot _ ((hiff _).1 ((hmapped _).2 ⟨true, .onValue hnumber hcaston, rfl⟩))
      · have hcastoff := hcast.resolve_left hcaston
        exact hnot _ ((hiff _).1 ((hmapped _).2 ⟨false, .offValue hnumber hcaston hcastoff, rfl⟩))
    · intro hread
      refine valueContract_of_iff fun value => (hmapped value).trans ⟨?_, fun hmeans => ?_⟩
      · rintro ⟨on, hcommands, rfl⟩
        exact hcommands.means hon hoff hmap hread
      · exact hmeans.commands hon hoff hmap
  · have hunmapped := mqttPayloadValue_unmapped h hmap payload
    unfold Misread
    rw [if_neg hmap]
    constructor
    · rintro ⟨hiff, -⟩ hnan
      have hmeans := (hiff none).1 ((hunmapped none).2 hnan)
      exact absurd (hmeans.number_of_unmapped hmap).1 (by simp)
    · intro hfinite
      refine valueContract_of_iff fun value => (hunmapped value).trans
        ⟨?_, fun hmeans => (hmeans.number_of_unmapped hmap).2⟩
      rintro ⟨text, blanks, hsplit, hblanks, hnumber⟩
      cases value with
      | none => exact absurd ⟨text, blanks, hsplit, hblanks, hnumber⟩ hfinite
      | some value => exact .number hmap hsplit hblanks hnumber

def plainNumerals : Numerals where
  rounded := id
  single := fun _ => 0
  cast := fun _ => -2 ^ 31
  strtod := plainStrtod
  general := fun _ => [48]

def relay : AckedWrite :=
  { wideBlock with
    function := .coil, type := some .coil, channels := []
    onValue := 1, offValue := 0, hasOnValue := true, hasOffValue := true }

/-- A 1 switches the relay on, behind a blank as well. -/
theorem single_value_iff_example : ValueContract plainNumerals relay [32, 49] := by
  refine (single_value_iff plainStrtod_contract (by decide) (by decide) [32, 49]).2 ?_
  unfold Misread
  rw [if_pos (by decide)]
  rintro ⟨value, ⟨-, hread⟩, hne, -⟩
  have hone : plainStrtod (commandText [32, 49]) = (some 1, 1) := by decide +kernel
  have hvalue : plainStrtod (commandText [32, 49]) = (value, 1) := hread
  rw [hone] at hvalue
  exact hne (by rw [← (Prod.mk.inj hvalue).1]; decide +kernel)

/-- The payload 1.5 switches it on too. -/
theorem fraction_switches_on :
    ¬ ValueContract plainNumerals relay [49, 46, 53] ∧
      plainStrtod [49, 46, 53] = (some (3 / 2), 3) ∧
      mqttPayloadValue plainNumerals relay.toWriteEntry [49, 46, 53] = .ok (some 1) := by
  have hread : plainStrtod [49, 46, 53] = (some (3 / 2), 3) := by decide +kernel
  have haccepted : mqttPayloadValue plainNumerals relay.toWriteEntry [49, 46, 53] =
      .ok (some 1) := by
    decide +kernel
  refine ⟨fun hcontract => ?_, hread, haccepted⟩
  have hother : ∀ k : ℤ, k = 1 ∨ k = 0 → ¬ IsNumber plainStrtod [49, 46, 53] (some k) := by
    rintro k hk ⟨-, hnumber⟩
    have hvalue := (Prod.mk.inj (hread.symm.trans hnumber)).1
    rcases hk with rfl | rfl
    · exact absurd hvalue (by decide +kernel)
    · exact absurd hvalue (by decide +kernel)
  cases (hcontract.1 _).1 haccepted with
  | on _ hword => exact absurd hword (by decide +kernel)
  | onValue _ hnumber => exact hother 1 (.inl rfl) hnumber
  | number hno => exact absurd rfl hno

end Modbusmq
