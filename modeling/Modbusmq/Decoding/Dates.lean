import Modbusmq.Decoding.TextValues
import Modbusmq.Library.Calendar

/-!
# Dates that are read

`modbusmq_tm_valid` compares every field of a date with its own range. The last
day of a month depends on the month and the year, and is not looked at.
-/

namespace Modbusmq

open Calendar

def registerValue (data : List UInt8) (i : ℕ) : ℤ :=
  (data.getD (2 * i) 0).toNat * 256 + (data.getD (2 * i + 1) 0).toNat

structure Moment where
  year : ℤ
  month : ℤ
  day : ℤ
  hour : ℤ := 0
  minute : ℤ := 0
  second : ℤ := 0

/-- What the registers of a date or datetime channel denote: the year and then the month and the
day in one register, or six registers from the year to the second. -/
def denoted (format : DataFormat) (data : List UInt8) : Moment :=
  if format = .date_ymd_abcd then
    { year := registerValue data 0
      month := registerValue data 1 / 256
      day := registerValue data 1 % 256 }
  else
    { year := registerValue data 0
      month := registerValue data 1
      day := registerValue data 2
      hour := registerValue data 3
      minute := registerValue data 4
      second := registerValue data 5 }

/-- A moment that exists, in the years the decoder supports; a leap second is one. -/
structure Moment.Real (moment : Moment) : Prop where
  year : 1970 ≤ moment.year ∧ moment.year ≤ 2999
  date : IsDate moment.year moment.month moment.day
  hour : 0 ≤ moment.hour ∧ moment.hour ≤ 23
  minute : 0 ≤ moment.minute ∧ moment.minute ≤ 59
  second : 0 ≤ moment.second ∧ moment.second ≤ 60

structure Moment.InRange (moment : Moment) : Prop where
  year : 1970 ≤ moment.year ∧ moment.year ≤ 2999
  month : 1 ≤ moment.month ∧ moment.month ≤ 12
  day : 1 ≤ moment.day ∧ moment.day ≤ 31
  hour : 0 ≤ moment.hour ∧ moment.hour ≤ 23
  minute : 0 ≤ moment.minute ∧ moment.minute ≤ 59
  second : 0 ≤ moment.second ∧ moment.second ≤ 60

/-- The day is behind the last one of its month. -/
def Moment.PastMonth (moment : Moment) : Prop :=
  monthDays moment.year moment.month < moment.day

theorem Moment.real_iff (moment : Moment) :
    moment.Real ↔ moment.InRange ∧ ¬ moment.PastMonth := by
  constructor
  · rintro ⟨hyear, ⟨hmonth, hfirst, hlast⟩, hhour, hminute, hsecond⟩
    have hle := monthDays_le moment.year moment.month
    exact ⟨⟨hyear, hmonth, ⟨hfirst, by omega⟩, hhour, hminute, hsecond⟩, not_lt.2 hlast⟩
  · rintro ⟨⟨hyear, hmonth, hday, hhour, hminute, hsecond⟩, hlast⟩
    exact ⟨hyear, ⟨hmonth, hday.1, not_lt.1 hlast⟩, hhour, hminute, hsecond⟩

def channelTm (format : DataFormat) (data : List UInt8) : Tm :=
  if format = .date_ymd_abcd then dateTm data else datetimeTm data

/-- It takes them from the registers that denote them. -/
theorem channelTm_valid_iff (format : DataFormat) (data : List UInt8) :
    (channelTm format data).Valid ↔ (denoted format data).InRange := by
  have hbyte : ∀ i, (data.getD i 0).toNat < 256 := fun i => (data.getD i 0).toNat_lt
  have hhigh := hbyte 2
  have hlow := hbyte 3
  have hiff : ∀ moment : Moment, moment.InRange ↔
      (1970 ≤ moment.year ∧ moment.year ≤ 2999) ∧ (1 ≤ moment.month ∧ moment.month ≤ 12) ∧
        (1 ≤ moment.day ∧ moment.day ≤ 31) ∧ (0 ≤ moment.hour ∧ moment.hour ≤ 23) ∧
          (0 ≤ moment.minute ∧ moment.minute ≤ 59) ∧ 0 ≤ moment.second ∧ moment.second ≤ 60 :=
    fun moment => ⟨fun ⟨a, b, c, d, e, f⟩ => ⟨a, b, c, d, e, f⟩,
      fun ⟨a, b, c, d, e, f⟩ => ⟨a, b, c, d, e, f⟩⟩
  rw [hiff]
  unfold channelTm denoted
  split_ifs
  · have hyear : registerValue data 0 = (data.getD 0 0).toNat * 256 + (data.getD 1 0).toNat := rfl
    have hday : registerValue data 1 = (data.getD 2 0).toNat * 256 + (data.getD 3 0).toNat := rfl
    have hmonth : registerValue data 1 / 256 = (data.getD 2 0).toNat := by omega
    have hmday : registerValue data 1 % 256 = (data.getD 3 0).toNat := by omega
    simp only [Tm.Valid, dateTm, hyear, hmonth, hmday, be16_eq]
    push_cast
    simp only [and_true]
    omega
  · simp only [Tm.Valid, datetimeTm, registerValue, be16_eq]
    push_cast
    omega

/-- The pattern of the channel makes a text of this time that fits its buffer. -/
def Prints (library : TimeLibrary) (channel : TextChannel) (tm : Tm) : Prop :=
  library.strftime (channelTimefmt channel) tm ≠ [] ∧
    (library.strftime (channelTimefmt channel) tm).length < textMax

/-- The pattern of the channel prints every time with its fields in their ranges, as the default
patterns do. -/
def PatternPrints (library : TimeLibrary) (channel : TextChannel) : Prop :=
  ∀ tm : Tm, tm.Valid → Prints library channel tm

theorem textStrftime_isSome_iff (library : TimeLibrary) (channel : TextChannel) (tm : Tm) :
    (textStrftime library channel tm textMax).isSome ↔ tm.Valid ∧ Prints library channel tm := by
  unfold textStrftime Prints
  dsimp only
  by_cases hvalid : tm.Valid
  · rw [if_pos hvalid, and_iff_right hvalid]
    split_ifs with hnone
    · exact iff_of_false nofun fun h => hnone.elim h.1 (not_le.2 h.2)
    · rw [not_or, not_le] at hnone
      exact iff_of_true rfl hnone
  · rw [if_neg hvalid]
    simp [hvalid]

section

variable {library : TimeLibrary} {channel : TextChannel} {t : Transport} {config : Option Config}
  {r : Frame .reader} {input : Input} {data : List UInt8}

theorem readChannelText_date
    (hformat : channel.format = .date_ymd_abcd ∨ channel.format = .datetime_regs)
    (hbit : ¬ input.type.IsBit)
    (hdata : channelData t config r input channel.toChannel = some data) :
    readChannelText library t config r input channel textMax =
      textStrftime library channel (channelTm channel.format data) textMax := by
  have htext : formatIsText channel.format := by rcases hformat with h | h <;> rw [h] <;> rfl
  unfold readChannelText
  rw [if_neg (by simp [textMax, htext, hbit]), hdata]
  unfold decodeText channelTm
  rcases hformat with h | h <;> rw [h] <;> rfl

/-- A date or datetime channel has a text exactly for the moments that exist, unless the fields in
its registers are in their ranges and name a day behind the end of the month. -/
theorem real_dates_read_iff
    (hformat : channel.format = .date_ymd_abcd ∨ channel.format = .datetime_regs)
    (hbit : ¬ input.type.IsBit) (hprints : PatternPrints library channel)
    (hdata : channelData t config r input channel.toChannel = some data) :
    ((readChannelText library t config r input channel textMax).isSome ↔
        (denoted channel.format data).Real) ↔
      ¬ ((denoted channel.format data).InRange ∧ (denoted channel.format data).PastMonth) := by
  have hsome : (readChannelText library t config r input channel textMax).isSome ↔
      (denoted channel.format data).InRange := by
    rw [readChannelText_date hformat hbit hdata, textStrftime_isSome_iff,
      and_iff_left_of_imp (hprints _), channelTm_valid_iff]
  rw [hsome, Moment.real_iff]
  tauto

end

def twoDigits (n : ℤ) : List UInt8 :=
  [UInt8.ofNat (48 + n.toNat / 10 % 10), UInt8.ofNat (48 + n.toNat % 10)]

def strftimeDefault (pattern : List UInt8) (tm : Tm) : List UInt8 :=
  match pattern with
  | [] => []
  | 37 :: 89 :: rest =>
    (Nat.toDigits 10 (tm.year + 1900).toNat).map (fun ch => UInt8.ofNat ch.toNat) ++
      strftimeDefault rest tm
  | 37 :: 109 :: rest => twoDigits (tm.mon + 1) ++ strftimeDefault rest tm
  | 37 :: 100 :: rest => twoDigits tm.mday ++ strftimeDefault rest tm
  | 37 :: 72 :: rest => twoDigits tm.hour ++ strftimeDefault rest tm
  | 37 :: 77 :: rest => twoDigits tm.min ++ strftimeDefault rest tm
  | 37 :: 83 :: rest => twoDigits tm.sec ++ strftimeDefault rest tm
  | c :: rest => c :: strftimeDefault rest tm

def defaultLibrary : TimeLibrary where
  strftime := strftimeDefault
  gmtime _ := none
  localtime _ := none

def dateChannel : TextChannel := ⟨⟨0, 4, .date_ymd_abcd⟩, 0, none, false⟩

def dateInput : Input := ⟨1, .holdingRegister, 0, 0, 2, .fast, [dateChannel.toChannel]⟩

def dateReply (month day : UInt8) : Frame .reader :=
  .holding [0, 1, 0, 0, 0, 7, 1, 3, 4, 0x07, 0xEA, month, day] 13

theorem dateChannel_prints : PatternPrints defaultLibrary dateChannel := by
  intro tm hvalid
  have hpattern : channelTimefmt dateChannel = [37, 89, 45, 37, 109, 45, 37, 100] := by
    decide +kernel
  have hyear : (Nat.toDigits 10 (tm.year + 1900).toNat).length ≤ 4 := by
    refine (Nat.length_toDigits_le_iff (by decide) (by decide)).2 ?_
    unfold Tm.Valid at hvalid
    omega
  have htext : defaultLibrary.strftime (channelTimefmt dateChannel) tm =
      (Nat.toDigits 10 (tm.year + 1900).toNat).map (fun ch => UInt8.ofNat ch.toNat) ++
        45 :: (twoDigits (tm.mon + 1) ++ 45 :: (twoDigits tm.mday ++ [])) := by
    rw [hpattern]
    rfl
  unfold Prints
  rw [htext]
  refine ⟨by simp, ?_⟩
  simp only [twoDigits, List.length_append, List.length_map, List.length_cons, List.length_nil]
  unfold textMax
  omega

theorem real_dates_read_iff_example :
    (readChannelText defaultLibrary .tcp none (dateReply 2 28) dateInput dateChannel
        textMax).isSome ↔ (denoted .date_ymd_abcd [0x07, 0xEA, 2, 28]).Real :=
  (real_dates_read_iff (.inl rfl) (by decide) dateChannel_prints (by decide)).2
    fun h => absurd h.2 (by unfold Moment.PastMonth; decide +kernel)

/-- The registers say 30 February, and that is what is published. -/
theorem thirtieth_february_read :
    readChannelText defaultLibrary .tcp none (dateReply 2 30) dateInput dateChannel textMax =
        some (bytesOf "2026-02-30") ∧
      ¬ ((readChannelText defaultLibrary .tcp none (dateReply 2 30) dateInput dateChannel
            textMax).isSome ↔ (denoted .date_ymd_abcd [0x07, 0xEA, 2, 30]).Real) := by
  have hread : readChannelText defaultLibrary .tcp none (dateReply 2 30) dateInput dateChannel
      textMax = some (bytesOf "2026-02-30") := by decide +kernel
  refine ⟨hread, fun h => ?_⟩
  rw [hread] at h
  exact absurd (h.1 rfl).date.last (by decide +kernel)

end Modbusmq
