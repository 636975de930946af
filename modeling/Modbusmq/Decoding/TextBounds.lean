import Modbusmq.Configuration.TextLengths
import Modbusmq.Decoding.BcdText
import Modbusmq.Decoding.ChannelRange

/-!
# The buffer of a decoded text

`MODBUSMQ_TEXT_MAX` beside what the decoders make of the bytes that an accepted
channel spans: a character of a byte, two digits, or up to five digits and a dot
of a register.
-/

namespace Modbusmq

open Json

/-- A decoder, by the size of its buffer, needs no larger one than `MODBUSMQ_TEXT_MAX`. -/
def TextFits (decode : ℕ → Option (List UInt8)) : Prop :=
  ∀ len text, decode len = some text → text.length < textMax ∧ decode textMax = some text

theorem textAscii_fits {data : List UInt8} (h : data.length ≤ textBytesMax) (swap : Bool) :
    TextFits (textAscii data swap) := by
  intro len text hread
  obtain ⟨out, hloop, rfl⟩ := Option.map_eq_some_iff.1 hread
  have hfilter : ((fieldBytes data swap).filter (· ≠ 0)).length < textMax := by
    have hlength := List.length_filter_le (· ≠ 0) (fieldBytes data swap)
    rw [fieldBytes_length] at hlength
    exact (hlength.trans h).trans_lt (by decide)
  have hout := asciiLoop_some hloop
  have hagain : asciiLoop textMax (fieldBytes data swap) [] = some out := by
    have hroom : ([] : List UInt8).length +
        ((fieldBytes data swap).filter (· ≠ 0)).length < textMax := by
      rwa [List.length_nil, Nat.zero_add]
    obtain ⟨out', hout'⟩ := Option.isSome_iff_exists.1 (asciiLoop_fits hroom)
    rw [hout', hout, asciiLoop_some hout']
  refine ⟨(Trim.trim_length _ _).trans_lt ?_, ?_⟩
  · rw [hout, List.nil_append, List.length_map]
    exact hfilter
  · unfold textAscii
    rw [hagain]
    rfl

theorem textBcd_fits {data : List UInt8} (h : data.length ≤ textBytesMax) (swap : Bool) :
    TextFits (textBcd data swap) := by
  intro len text hread
  have hroom : data.length * 2 < textMax := by
    unfold textBytesMax at h
    unfold textMax
    omega
  have hlen : data.length * 2 < len := by
    by_contra hshort
    unfold textBcd at hread
    rw [if_pos (by omega)] at hread
    exact nomatch hread
  have hread' := hread
  rw [textBcd_eq hlen] at hread'
  split_ifs at hread' with hdigits
  obtain rfl := Option.some.inj hread'
  rw [textBcd_eq hroom, if_pos hdigits, bcdDigits_length, fieldBytes_length]
  exact ⟨hroom, rfl⟩

def decimalBytes (n : ℕ) : List UInt8 := ascii (Nat.toDigits 10 n)

/-- The fields of a version joined by dots, behind what is there. -/
def versionText : List ℕ → List UInt8 → List UInt8
  | [], buf => buf
  | field :: rest, buf =>
    versionText rest (buf ++ (if buf = [] then [] else [46]) ++ decimalBytes field)

/-- How many characters the digits and the dots of a version are. -/
def versionSpan (fields : List ℕ) : ℕ :=
  (fields.map fun field => (Nat.toDigits 10 field).length).sum + (fields.length - 1)

theorem decimalBytes_pos (n : ℕ) : 0 < (decimalBytes n).length := by
  unfold decimalBytes
  rw [length_ascii]
  exact Nat.length_toDigits_pos

theorem versionText_length (fields : List ℕ) (buf : List UInt8) :
    (versionText fields buf).length = buf.length +
      (fields.map fun field => (Nat.toDigits 10 field).length).sum +
        if buf = [] then fields.length - 1 else fields.length := by
  induction fields generalizing buf with
  | nil => simp [versionText]
  | cons field rest ih =>
    have hdigits : (decimalBytes field).length = (Nat.toDigits 10 field).length := length_ascii _
    have hpos := decimalBytes_pos field
    have hne : buf ++ (if buf = [] then [] else [46]) ++ decimalBytes field ≠ [] := by
      intro hnil
      rw [(List.append_eq_nil_iff.1 hnil).2] at hpos
      exact absurd hpos (by decide)
    unfold versionText
    rw [ih, if_neg hne, List.length_append, List.length_append, hdigits, List.map_cons,
      List.sum_cons, List.length_cons]
    split_ifs with hbuf
    · rw [hbuf]
      simp only [List.length_nil]
      omega
    · simp only [List.length_singleton]
      omega

/-- With a buffer for all of it the whole version is written, and nothing otherwise. -/
theorem versionLoop_eq (len : ℕ) (fields : List ℕ) (buf : List UInt8) :
    versionLoop len fields buf = if fields = [] ∨ (versionText fields buf).length < len then
      some (versionText fields buf) else none := by
  induction fields generalizing buf with
  | nil => rfl
  | cons field rest ih =>
    have hnext := versionText_length rest
      (buf ++ (if buf = [] then [] else [46]) ++ decimalBytes field)
    unfold versionLoop versionText
    change (if len ≤ (buf ++ _ ++ decimalBytes field).length then none
      else versionLoop len rest (buf ++ _ ++ decimalBytes field)) = _
    rw [ih]
    by_cases hfull : len ≤
        (buf ++ (if buf = [] then [] else [46]) ++ decimalBytes field).length
    · rw [if_pos hfull, if_neg]
      rintro (hnil | hroom)
      · exact absurd hnil (List.cons_ne_nil _ _)
      · omega
    · rw [if_neg hfull]
      refine if_congr ?_ rfl rfl
      constructor
      · rintro (rfl | hroom)
        · exact .inr (not_le.1 hfull)
        · exact .inr hroom
      · rintro (hnil | hroom)
        · exact absurd hnil (List.cons_ne_nil _ _)
        · exact .inr hroom

theorem textVersion_eq (data : List UInt8) (stride len : ℕ) :
    textVersion data stride len =
      if versionFields stride data = [] ∨ versionSpan (versionFields stride data) < len then
        some (versionText (versionFields stride data) []) else none := by
  have hspan := versionText_length (versionFields stride data) []
  rw [if_pos rfl, List.length_nil, Nat.zero_add] at hspan
  unfold textVersion
  rw [versionLoop_eq, hspan]
  rfl

section

variable (library : TimeLibrary)

/-- A time that prints as no text of a buffer. -/
def Overprinted (channel : TextChannel) (tm : Tm) : Prop :=
  tm.Valid ∧ textMax ≤ (library.strftime (channelTimefmt channel) tm).length

/-- The bytes of a channel make a text that is too long. -/
def Overlong (channel : TextChannel) (data : List UInt8) : Prop :=
  match channel.format with
  | .version_ab | .version_abcd => textMax ≤ versionSpan (versionFields 1 data)
  | .version_regs => textMax ≤ versionSpan (versionFields 2 data)
  | .date_ymd_abcd => Overprinted library channel (dateTm data)
  | .datetime_regs => Overprinted library channel (datetimeTm data)
  | .epoch32_abcd | .epoch32_badc =>
    let t := (epochRaw channel.format data).toNat + channel.add
    ∃ tm ∈ if channel.localtime then library.localtime t else library.gmtime t,
      Overprinted library channel tm
  | _ => False

/-- A text that is too long is read with a larger buffer. -/
def Exceeds (decode : ℕ → Option (List UInt8)) : Prop :=
  ∃ len text, 0 < len ∧ decode len = some text ∧ textMax ≤ text.length

variable {library}

theorem textVersion_fits {data : List UInt8} {stride : ℕ}
    (h : versionSpan (versionFields stride data) < textMax) : TextFits (textVersion data stride) := by
  intro len text hread
  rw [textVersion_eq] at hread ⊢
  split_ifs at hread
  obtain rfl := Option.some.inj hread
  have hspan := versionText_length (versionFields stride data) []
  rw [if_pos rfl, List.length_nil, Nat.zero_add] at hspan
  exact ⟨hspan.trans_lt h, if_pos (.inr h)⟩

theorem textVersion_exceeds {data : List UInt8} {stride : ℕ}
    (h : textMax ≤ versionSpan (versionFields stride data)) : Exceeds (textVersion data stride) := by
  have hspan := versionText_length (versionFields stride data) []
  rw [if_pos rfl, List.length_nil, Nat.zero_add] at hspan
  refine ⟨_, _, Nat.succ_pos (versionSpan (versionFields stride data)), ?_, h.trans hspan.ge⟩
  rw [textVersion_eq, if_pos (.inr (Nat.lt_succ_self _))]

theorem textStrftime_fits {channel : TextChannel} {tm : Tm} (h : ¬ Overprinted library channel tm) :
    TextFits (textStrftime library channel tm) := by
  intro len text hread
  unfold textStrftime at hread
  dsimp only at hread
  split_ifs at hread with hvalid hprinted
  obtain rfl := Option.some.inj hread
  have hshort : (library.strftime (channelTimefmt channel) tm).length < textMax := by
    by_contra hlong
    exact h ⟨hvalid, not_lt.1 hlong⟩
  refine ⟨hshort, (if_pos hvalid).trans (if_neg ?_)⟩
  rintro (hempty | hlong)
  · exact hprinted (.inl hempty)
  · exact absurd hlong (not_le.2 hshort)

theorem textStrftime_exceeds {channel : TextChannel} {tm : Tm}
    (h : Overprinted library channel tm) : Exceeds (textStrftime library channel tm) := by
  obtain ⟨hvalid, hlong⟩ := h
  refine ⟨_, _, Nat.succ_pos (library.strftime (channelTimefmt channel) tm).length, ?_, hlong⟩
  unfold textStrftime
  rw [if_pos hvalid]
  refine if_neg ?_
  rintro (hempty | hfull)
  · rw [hempty] at hlong
    exact absurd hlong (by decide)
  · omega

theorem textEpoch_fits {channel : TextChannel} {raw : UInt32}
    (h : ¬ ∃ tm ∈ if channel.localtime then library.localtime (raw.toNat + channel.add)
      else library.gmtime (raw.toNat + channel.add), Overprinted library channel tm) :
    TextFits (textEpoch library channel raw) := by
  intro len text hread
  unfold textEpoch at hread ⊢
  dsimp only at hread ⊢
  split at hread
  · exact nomatch hread
  · rename_i tm htm
    exact textStrftime_fits (fun hover => h ⟨tm, htm, hover⟩) len text hread

theorem textEpoch_exceeds {channel : TextChannel} {raw : UInt32}
    (h : ∃ tm ∈ if channel.localtime then library.localtime (raw.toNat + channel.add)
      else library.gmtime (raw.toNat + channel.add), Overprinted library channel tm) :
    Exceeds (textEpoch library channel raw) := by
  obtain ⟨tm, htm, hover⟩ := h
  obtain ⟨len, text, hpos, hread, hlong⟩ := textStrftime_exceeds hover
  refine ⟨len, text, hpos, ?_, hlong⟩
  unfold textEpoch
  dsimp only
  rw [Option.mem_def.1 htm]
  exact hread

/-- A field of accepted length is read with the buffer, unless its text is too long for any. -/
theorem decodeText_fits {channel : TextChannel} {data : List UInt8}
    (hdata : data.length ≤ textBytesMax) (h : ¬ Overlong library channel data) :
    TextFits (decodeText library channel data) := by
  change TextFits fun len => decodeText library channel data len
  unfold Overlong at h
  cases hformat : channel.format
  all_goals
    rw [hformat] at h
    simp only [decodeText, hformat] at h ⊢
  case ascii_ab => exact textAscii_fits hdata false
  case ascii_ba => exact textAscii_fits hdata true
  case bcd_ab => exact textBcd_fits hdata false
  case bcd_ba => exact textBcd_fits hdata true
  case version_ab | version_abcd => exact textVersion_fits (not_le.1 h)
  case version_regs => exact textVersion_fits (not_le.1 h)
  case date_ymd_abcd | datetime_regs => exact textStrftime_fits h
  case epoch32_abcd | epoch32_badc => exact textEpoch_fits h
  all_goals exact fun _ _ hread => nomatch hread

theorem decodeText_exceeds {channel : TextChannel} {data : List UInt8}
    (h : Overlong library channel data) : Exceeds (decodeText library channel data) := by
  change Exceeds fun len => decodeText library channel data len
  unfold Overlong at h
  cases hformat : channel.format
  all_goals
    rw [hformat] at h
    simp only [decodeText, hformat] at h ⊢
  case version_ab | version_abcd | version_regs => exact textVersion_exceeds h
  case date_ymd_abcd | datetime_regs => exact textStrftime_exceeds h
  case epoch32_abcd | epoch32_badc => exact textEpoch_exceeds h

end

def ConfigChannel.textChannel (channel : ConfigChannel) : TextChannel where
  toChannel := channel.channel
  add := channel.add
  timefmt := channel.timefmt.map ascii
  localtime := channel.localtime

def IsBcd (format : DataFormat) : Prop := format = .bcd_ab ∨ format = .bcd_ba

instance (format : DataFormat) : Decidable (IsBcd format) := inferInstanceAs (Decidable (_ ∨ _))

def bcdRoom (channel : ConfigChannel) : ℤ := cInt (channel.length * 2 + 1)

section

variable (library : TimeLibrary) (t : Transport) (config : Option Config) (r : Frame .reader)
  (input : Input)

/-- `modbusmq_read_channel_text` of a channel as it is stored. With a length below zero the loops
read nothing. The room that BCD text asks for is compared as a `size_t`, and below zero it is more
than any buffer. -/
def readStoredText (channel : ConfigChannel) (len : ℕ) : Option (List UInt8) :=
  if IsBcd channel.format ∧ (bcdRoom channel < 0 ∨ len < bcdRoom channel) then none
  else readChannelText library t config r input channel.textChannel len

/-- The registers hold a text that `MODBUSMQ_TEXT_MAX` is too small for, or the length is one below
zero whose double is not. -/
def StoredOverlong (channel : ConfigChannel) : Prop :=
  ¬ input.type.IsBit ∧
    ∃ data, channelData t config r input channel.textChannel.toChannel = some data ∧
      (Overlong library channel.textChannel data ∨
        IsBcd channel.format ∧ textMax < bcdRoom channel)

variable {library t config r input} {channel : ConfigChannel}

theorem decodeSize_text (h : channel.length ≤ 64) :
    decodeSize channel.textChannel.toChannel ≤ textBytesMax := by
  have hlength : channel.textChannel.length ≤ textBytesMax := Int.toNat_le.2 h
  unfold decodeSize
  split
  · exact Nat.zero_le _
  · exact Nat.zero_le _
  all_goals first
    | exact hlength
    | exact (formatSize_le _).trans (by decide)

theorem readStoredText_eq (htext : formatIsText channel.format) (hbit : ¬ input.type.IsBit)
    {data : List UInt8}
    (hdata : channelData t config r input channel.textChannel.toChannel = some data) (len : ℕ) :
    readStoredText library t config r input channel len =
      if len = 0 ∨ IsBcd channel.format ∧ (bcdRoom channel < 0 ∨ len < bcdRoom channel) then none
      else decodeText library channel.textChannel data len := by
  have htextual : formatIsText channel.textChannel.format := htext
  unfold readStoredText readChannelText
  rw [hdata]
  by_cases hroom : IsBcd channel.format ∧ (bcdRoom channel < 0 ∨ len < bcdRoom channel)
  · rw [if_pos hroom, if_pos (.inr hroom)]
  · rw [if_neg hroom]
    refine if_congr ?_ rfl rfl
    simp only [htextual, hbit, hroom, not_true_eq_false, or_false]

theorem storedText_fits (h : channel.length ≤ 64) (htext : formatIsText channel.format)
    (hfits : ¬ StoredOverlong library t config r input channel) :
    TextFits (readStoredText library t config r input channel) := by
  intro len text hread
  by_cases hbit : input.type.IsBit
  · have hnone : readChannelText library t config r input channel.textChannel len = none :=
      if_pos (.inr (.inr hbit))
    unfold readStoredText at hread
    rw [hnone, ite_self] at hread
    exact nomatch hread
  cases hdata : channelData t config r input channel.textChannel.toChannel with
  | none =>
    unfold readStoredText readChannelText at hread
    rw [hdata] at hread
    simp only [ite_self] at hread
    exact nomatch hread
  | some data =>
    have hspan : data.length ≤ textBytesMax :=
      (channelData_length hbit hdata).trans_le (decodeSize_text h)
    rw [readStoredText_eq htext hbit hdata] at hread ⊢
    split_ifs at hread with hrefused
    obtain ⟨hshort, hagain⟩ := decodeText_fits hspan
      (fun hlong => hfits ⟨hbit, data, hdata, .inl hlong⟩) len text hread
    refine ⟨hshort, (if_neg ?_).trans hagain⟩
    rintro (hzero | ⟨hbcd, hnegative | hroom⟩)
    · exact absurd hzero (by decide)
    · exact hrefused (.inr ⟨hbcd, .inl hnegative⟩)
    · exact hfits ⟨hbit, data, hdata, .inr ⟨hbcd, hroom⟩⟩

theorem storedText_exceeds (h : channel.length ≤ 64) (htext : formatIsText channel.format)
    (hlong : StoredOverlong library t config r input channel) :
    ¬ TextFits (readStoredText library t config r input channel) := by
  intro hfits
  obtain ⟨hbit, data, hdata, hover | ⟨hbcd, hroom⟩⟩ := hlong
  · obtain ⟨len, text, hpos, hread, htoolong⟩ := decodeText_exceeds hover
    have hnot : ¬ IsBcd channel.format := by
      intro hbcd
      unfold Overlong at hover
      rcases hbcd with hformat | hformat
      all_goals
        rw [show channel.textChannel.format = _ from hformat] at hover
        exact hover
    have hstored : readStoredText library t config r input channel len = some text := by
      rw [readStoredText_eq htext hbit hdata, if_neg, hread]
      rintro (hzero | ⟨hbcd, -⟩)
      · omega
      · exact hnot hbcd
    exact absurd (hfits len text hstored).1 (not_lt.2 htoolong)
  · -- the length is below zero, and there is nothing to read but the terminator
    have hnegative : channel.length < 0 := by
      by_contra hlength
      unfold bcdRoom at hroom
      rw [cInt_eq (by omega) (by omega)] at hroom
      unfold textMax at hroom
      omega
    have hempty : data = [] := by
      refine List.eq_nil_of_length_eq_zero ((channelData_length hbit hdata).trans ?_)
      have hlength : channel.textChannel.length = 0 := Int.toNat_eq_zero.2 hnegative.le
      unfold decodeSize
      rcases hbcd with hformat | hformat
      all_goals
        rw [show channel.textChannel.format = _ from hformat]
        exact hlength
    have hdecode : ∀ len, 0 < len → decodeText library channel.textChannel [] len = some [] := by
      intro len hpos
      unfold decodeText
      rcases hbcd with hformat | hformat
      all_goals
        rw [show channel.textChannel.format = _ from hformat]
        exact if_neg (by simpa using hpos.ne')
    have hread : readStoredText library t config r input channel (bcdRoom channel).toNat =
        some [] := by
      rw [readStoredText_eq htext hbit hdata, hempty, hdecode _ (by omega), if_neg (by omega)]
    have hagain := (hfits _ _ hread).2
    rw [readStoredText_eq htext hbit hdata, if_pos (.inr ⟨hbcd, .inr hroom⟩)] at hagain
    exact nomatch hagain

end

/-- In a configuration that is accepted the buffer holds whatever a text channel is read as, but for
the texts that are too long. -/
theorem accepted_texts_fit_iff (numerals : ConfigNumerals) (overrides : List (List Char))
    {text : List Char} {file : ConfigFile} (h : configParse numerals overrides text = some file)
    {stored : ConfigInput} (hstored : stored ∈ file.inputs) {channel : ConfigChannel}
    (hchannel : channel ∈ stored.channels) (htext : formatIsText channel.format)
    (library : TimeLibrary) (t : Transport) (config : Option Config) (r : Frame .reader)
    (input : Input) :
    TextFits (readStoredText library t config r input channel) ↔
      ¬ StoredOverlong library t config r input channel := by
  have hlength := accepted_length_le h hstored hchannel htext
  exact ⟨fun hfits hlong => storedText_exceeds hlength htext hlong hfits,
    storedText_fits hlength htext⟩

def versionsText : List Char :=
  ("input.max=1\ninput.1.interval_ms=9\ninput.1.channel.max=1\n" ++
    "input.1.channel.1.topic=a\ninput.1.channel.1.format=version_regs\n" ++
    "input.1.channel.1.nregisters=32").toList

def versionsInput : Input where
  slave := 1
  type := .holdingRegister
  address := 0
  addressOffset := 0
  naddress := 32
  tier := .fast
  channels := [⟨0, 64, .version_regs⟩]

def versionsReply : Frame .reader :=
  .holding ([0, 1, 0, 0, 0, 67, 1, 3, 64] ++ List.replicate 64 0xFF) 73

theorem versionsText_accepted : ∃ file stored channel,
    configParse digitNumerals [] versionsText = some file ∧ stored ∈ file.inputs ∧
      channel ∈ stored.channels ∧
      channel.textChannel = ⟨⟨0, 64, .version_regs⟩, 0, none, false⟩ := by
  have haccepted : (configParse digitNumerals [] versionsText).any (fun file =>
      file.inputs.any fun stored => stored.channels.any fun channel =>
        channel.offset = 0 ∧ channel.length = 64 ∧ channel.format = .version_regs ∧
          channel.add = 0 ∧ channel.timefmt = none ∧ channel.localtime = false) := by
    decide +kernel
  obtain ⟨file, hfile, hinputs⟩ := (Option.any_eq_true _ _).1 haccepted
  obtain ⟨stored, hstored, hchannels⟩ := List.any_eq_true.1 hinputs
  obtain ⟨channel, hchannel, hfields⟩ := List.any_eq_true.1 hchannels
  obtain ⟨hoffset, hlength, hformat, hadd, htimefmt, hlocaltime⟩ := of_decide_eq_true hfields
  refine ⟨file, stored, channel, hfile, hstored, hchannel, ?_⟩
  unfold ConfigChannel.textChannel ConfigChannel.channel
  dsimp only
  rw [hoffset, hlength, hformat, hadd, htimefmt, hlocaltime]
  rfl

theorem accepted_texts_fit_iff_example : ∃ channel : ConfigChannel,
    channel.textChannel = ⟨⟨0, 64, .version_regs⟩, 0, none, false⟩ ∧
      (TextFits (readStoredText timelessLibrary .tcp none versionsReply versionsInput channel) ↔
        ¬ StoredOverlong timelessLibrary .tcp none versionsReply versionsInput channel) := by
  obtain ⟨file, stored, channel, hfile, hstored, hchannel, htext⟩ := versionsText_accepted
  have hformat : channel.format = .version_regs := congrArg (·.format) htext
  exact ⟨channel, htext, accepted_texts_fit_iff digitNumerals [] hfile hstored hchannel
    (by rw [hformat]; rfl) timelessLibrary .tcp none versionsReply versionsInput⟩

/-- The version of 32 registers is accepted, and skipped for its 191 characters. -/
theorem long_version_skipped : ∃ file stored channel,
    configParse digitNumerals [] versionsText = some file ∧ stored ∈ file.inputs ∧
      channel ∈ stored.channels ∧ formatIsText channel.format ∧
      readStoredText timelessLibrary .tcp none versionsReply versionsInput channel textMax = none ∧
      ¬ TextFits (readStoredText timelessLibrary .tcp none versionsReply versionsInput channel) := by
  obtain ⟨file, stored, channel, hfile, hstored, hchannel, htext⟩ := versionsText_accepted
  have hformat : channel.format = .version_regs := congrArg (·.format) htext
  have hread : ∀ len, readStoredText timelessLibrary .tcp none versionsReply versionsInput channel
      len = readChannelText timelessLibrary .tcp none versionsReply versionsInput
        ⟨⟨0, 64, .version_regs⟩, 0, none, false⟩ len := by
    intro len
    unfold readStoredText
    rw [htext, hformat, if_neg fun hbcd => absurd hbcd.1 (by decide)]
  have hshort : readChannelText timelessLibrary .tcp none versionsReply versionsInput
      ⟨⟨0, 64, .version_regs⟩, 0, none, false⟩ textMax = none := by
    decide +kernel
  have hlong : (readChannelText timelessLibrary .tcp none versionsReply versionsInput
      ⟨⟨0, 64, .version_regs⟩, 0, none, false⟩ 192).isSome := by
    decide +kernel
  obtain ⟨text, htextread⟩ := Option.isSome_iff_exists.1 hlong
  refine ⟨file, stored, channel, hfile, hstored, hchannel, by rw [hformat]; rfl,
    (hread _).trans hshort, fun hfits => ?_⟩
  have hagain := (hfits 192 text ((hread _).trans htextread)).2
  rw [hread, hshort] at hagain
  exact nomatch hagain

end Modbusmq
