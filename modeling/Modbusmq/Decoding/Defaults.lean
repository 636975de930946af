import Modbusmq.Decoding.Epochs

/-!
# Numbers in text defaults

The versions, dates and epochs the emulator is configured with, and the numbers
that are read from the registers it serves. A number is a sign and digits; the C
library may have another idea of it.
-/

namespace Modbusmq

/-- The number at the start of a text and what follows. -/
def writtenInt (base : ℕ) (text : List UInt8) : Option (ℤ × List UInt8) :=
  (scanNumber base text).map fun (negative, n, rest) => (if negative then -(n : ℤ) else n, rest)

def versionNumbers : ℕ → List UInt8 → Option (List ℤ)
  | _, [] => some []
  | 0, _ :: _ => none
  | fields + 1, text =>
    match writtenInt 10 text with
    | none => none
    | some (k, []) => some [k]
    | some (k, b :: rest) => if b = 46 then (versionNumbers fields rest).map (k :: ·) else none

/-- The numbers at the places of `%d`s with these separators between them. -/
def writtenFields : List UInt8 → List UInt8 → List ℤ
  | separators, text =>
    match writtenInt 10 text with
    | none => []
    | some (k, rest) =>
      k :: match separators with
        | [] => []
        | separator :: separators =>
          match scanSeparator separator rest with
          | none => []
          | some rest => writtenFields separators rest

/-- The numbers of a date and time, with a `T` or a blank between the two. -/
def datetimeNumbers (text : List UInt8) : List ℤ :=
  if (writtenFields [45, 45, 84, 58, 58] text).length = 6 then
    writtenFields [45, 45, 84, 58, 58] text
  else writtenFields [45, 45, 32, 58, 58] text

/-- The numbers a text default writes; `none` where it is not in the form of its format. -/
def writtenNumbers (channel : Channel) (text : List UInt8) : Option (List ℤ) :=
  match channel.format with
  | .version_ab | .version_abcd => versionNumbers channel.length text
  | .version_regs => versionNumbers (channel.length / 2) text
  | .date_ymd_abcd =>
    if (writtenFields [45, 45] text).length = 3 then some (writtenFields [45, 45] text) else none
  | .datetime_regs =>
    if (datetimeNumbers text).length = 6 then some (datetimeNumbers text) else none
  | .epoch32_abcd | .epoch32_badc =>
    match writtenInt 0 text with
    | some (k, []) => some [k]
    | _ => none
  | _ => none

/-- The formats that carry numbers in fields. -/
def DataFormat.HasFields : DataFormat → Prop
  | .version_ab | .version_abcd | .version_regs | .date_ymd_abcd | .datetime_regs
  | .epoch32_abcd | .epoch32_badc => True
  | _ => False

def fieldRange (format : DataFormat) (i : ℕ) : ℤ × ℤ :=
  match format, i with
  | .version_ab, _ | .version_abcd, _ => (0, 255)
  | .epoch32_abcd, _ | .epoch32_badc, _ => (0, 2 ^ 32 - 1)
  | .date_ymd_abcd, 1 | .datetime_regs, 1 => (1, 12)
  | .date_ymd_abcd, 2 | .datetime_regs, 2 => (1, 31)
  | .datetime_regs, 3 => (0, 23)
  | .datetime_regs, 4 => (0, 59)
  | .datetime_regs, 5 => (0, 60)
  | _, _ => (0, 65535)

/-- Every number is in the range of its field. -/
def FieldsFit (format : DataFormat) (numbers : List ℤ) : Prop :=
  ∀ field ∈ numbers.zipIdx,
    (fieldRange format field.2).1 ≤ field.1 ∧ field.1 ≤ (fieldRange format field.2).2

instance (format : DataFormat) (numbers : List ℤ) : Decidable (FieldsFit format numbers) :=
  inferInstanceAs (Decidable (∀ _ ∈ _, _))

def ulong (k : ℤ) : ℕ := if 2 ^ 64 ≤ k.natAbs then 2 ^ 64 - 1 else (k % 2 ^ 64).toNat

/-- A version of bytes has a part that is more than a byte to `strtoul`. -/
def TooWide (format : DataFormat) (numbers : List ℤ) : Prop :=
  (format = .version_ab ∨ format = .version_abcd) ∧ ∃ k ∈ numbers, 255 < ulong k

instance (format : DataFormat) (numbers : List ℤ) : Decidable (TooWide format numbers) :=
  inferInstanceAs (Decidable (_ ∧ _))

/-- The fields of a channel as its decoder takes them from the registers. -/
def decodedFields (format : DataFormat) (data : List UInt8) : List ℤ :=
  match format with
  | .version_ab | .version_abcd => (versionFields 1 data).map fun n : ℕ => (n : ℤ)
  | .version_regs => (versionFields 2 data).map fun n : ℕ => (n : ℤ)
  | .date_ymd_abcd =>
    let tm := dateTm data
    [tm.year + 1900, tm.mon + 1, tm.mday]
  | .datetime_regs =>
    let tm := datetimeTm data
    [tm.year + 1900, tm.mon + 1, tm.mday, tm.hour, tm.min, tm.sec]
  | .epoch32_abcd | .epoch32_badc => [((epochRaw format data).toNat : ℤ)]
  | _ => []

/-- The registers of a default that is accepted hold the numbers it writes, each of them in the
range of its field, and zeros behind them. -/
def NumbersKept (channel : Channel) (text : List UInt8) : Prop :=
  ∀ room bytes, encodeText channel text room = (true, bytes) →
    ∃ numbers, writtenNumbers channel text = some numbers ∧ FieldsFit channel.format numbers ∧
      ∃ n, decodedFields channel.format bytes = numbers ++ List.replicate n 0

theorem strtoull_eq (base : ℕ) (text : List UInt8) : strtoull base text =
    (writtenInt base text).map fun (k, rest) => (ulong k, rest) := by
  unfold strtoull writtenInt
  rw [Option.map_map]
  congr 1
  funext ⟨negative, n, rest⟩
  simp only [Function.comp_apply, Prod.mk.injEq, and_true]
  unfold ulong
  cases negative
  · simp only [Bool.false_eq_true, if_false, Int.natAbs_natCast]
    split_ifs <;> omega
  · simp only [if_true, Int.natAbs_neg, Int.natAbs_natCast]
    split_ifs <;> omega

def scannedInt (k : ℤ) : ℤ := (max (-2 ^ 63) (min k (2 ^ 63 - 1))).bmod (2 ^ 32)

theorem scannedInt_eq {k : ℤ} (hlo : -2 ^ 31 ≤ k) (hhi : k < 2 ^ 31) : scannedInt k = k := by
  unfold scannedInt
  rw [min_eq_left (by omega), max_eq_right (by omega)]
  exact Int.bmod_eq_of_le (by omega) (by omega)

theorem scanInt_eq (text : List UInt8) : scanInt text =
    (writtenInt 10 text).map fun (k, rest) => (scannedInt k, rest) := by
  unfold scanInt writtenInt
  rw [Option.map_map]
  congr 1
  funext ⟨negative, n, rest⟩
  simp only [Function.comp_apply, Prod.mk.injEq, and_true]
  unfold scannedInt
  congr 1
  cases negative
  · simp only [Bool.false_eq_true, if_false]
    omega
  · simp only [if_true]
    omega

theorem scanFields_eq (separators text : List UInt8) :
    scanFields separators text = (writtenFields separators text).map scannedInt := by
  induction separators generalizing text with
  | nil =>
    unfold scanFields writtenFields
    rw [scanInt_eq]
    cases writtenInt 10 text <;> rfl
  | cons separator separators ih =>
    unfold scanFields writtenFields
    rw [scanInt_eq]
    cases writtenInt 10 text with
    | none => rfl
    | some number =>
      dsimp only [Option.map_some]
      cases scanSeparator separator number.2 with
      | none => rfl
      | some rest => exact congrArg (scannedInt number.1 :: ·) (ih rest)

/-- The loop of the encoder goes through exactly the versions that are written, as long as every
part of a byte fits, and lays out what `strtoul` made of them. -/
theorem encodeVersion_written {stride fields : ℕ} {text out : List UInt8} {numbers : List ℤ}
    (h : versionNumbers fields text = some numbers)
    (hwide : stride = 2 ∨ ∀ k ∈ numbers, ulong k ≤ 255) :
    encodeVersion stride fields text out =
      (true, out ++ numbers.flatMap fun k => versionField stride (ulong k)) := by
  induction fields generalizing text out numbers with
  | zero =>
    cases text with
    | nil =>
      obtain rfl : [] = numbers := Option.some.inj h
      simp [encodeVersion]
    | cons b text => contradiction
  | succ fields ih =>
    cases text with
    | nil =>
      obtain rfl : [] = numbers := Option.some.inj h
      simp [encodeVersion]
    | cons b text =>
      unfold versionNumbers at h
      unfold encodeVersion
      rw [strtoull_eq]
      cases hk : writtenInt 10 (b :: text) with
      | none =>
        rw [hk] at h
        contradiction
      | some number =>
        obtain ⟨k, rest⟩ := number
        rw [hk] at h
        dsimp only [Option.map_some] at h ⊢
        cases rest with
        | nil =>
          obtain rfl : [k] = numbers := Option.some.inj h
          have hfits : ¬ (stride ≠ 2 ∧ 0xff < ulong k) := by
            rintro ⟨hstride, hlt⟩
            exact absurd (hwide.resolve_left hstride k (List.mem_singleton_self k)) (not_le.2 hlt)
          rw [if_neg hfits]
          have hclosed : encodeVersion stride fields [] (out ++ versionField stride (ulong k)) =
              (true, out ++ versionField stride (ulong k) ++
                ([] : List ℤ).flatMap fun k => versionField stride (ulong k)) :=
            ih (versionNumbers.eq_1 fields) (.inr fun _ hk => absurd hk List.not_mem_nil)
          simpa using hclosed
        | cons dot rest =>
          dsimp only at h ⊢
          split_ifs at h with hdot
          obtain ⟨others, hothers, rfl⟩ := Option.map_eq_some_iff.1 h
          have hfits : ¬ (stride ≠ 2 ∧ 0xff < ulong k) := by
            rintro ⟨hstride, hlt⟩
            exact absurd (hwide.resolve_left hstride k (List.mem_cons_self ..)) (not_le.2 hlt)
          rw [if_neg hfits, if_pos hdot,
            ih hothers (hwide.imp_right fun h k hk => h k (List.mem_cons_of_mem _ hk))]
          rw [List.flatMap_cons, List.append_assoc]

theorem encodeVersion_accepts {stride fields : ℕ} {text out : List UInt8}
    (h : (encodeVersion stride fields text out).1 = true) :
    ∃ numbers, versionNumbers fields text = some numbers ∧
      (stride = 2 ∨ ∀ k ∈ numbers, ulong k ≤ 255) := by
  induction fields generalizing text out with
  | zero =>
    cases text with
    | nil => exact ⟨[], rfl, .inr nofun⟩
    | cons b text => contradiction
  | succ fields ih =>
    cases text with
    | nil => exact ⟨[], rfl, .inr nofun⟩
    | cons b text =>
      unfold encodeVersion at h
      unfold versionNumbers
      rw [strtoull_eq] at h
      cases hk : writtenInt 10 (b :: text) with
      | none =>
        rw [hk] at h
        contradiction
      | some number =>
        obtain ⟨k, rest⟩ := number
        rw [hk] at h
        dsimp only [Option.map_some] at h ⊢
        split_ifs at h with hfits
        have hone : stride = 2 ∨ ulong k ≤ 255 := by
          by_cases hstride : stride = 2
          · exact .inl hstride
          · exact .inr (not_lt.1 fun hlt => hfits ⟨hstride, hlt⟩)
        cases rest with
        | nil =>
          refine ⟨[k], rfl, hone.imp_right fun h k' hk' => ?_⟩
          rw [List.mem_singleton.1 hk']
          exact h
        | cons dot rest =>
          dsimp only at h ⊢
          split_ifs at h with hdot
          obtain ⟨numbers, hnumbers, hwide⟩ := ih h
          rw [if_pos hdot, hnumbers]
          refine ⟨k :: numbers, rfl, ?_⟩
          rcases hone with hstride | hone
          · exact .inl hstride
          · exact hwide.imp_right fun h => List.forall_mem_cons.2 ⟨hone, h⟩

theorem versionFields_cons {stride : ℕ} (hstride : stride = 1 ∨ stride = 2) (v : ℕ)
    (data : List UInt8) : versionFields stride (versionField stride v ++ data) =
      v % 256 ^ stride :: versionFields stride data := by
  have hword := be16_byteOf v
  have hbyte := byteOf_toNat v
  have hlength : (versionField stride v ++ data).length / stride = data.length / stride + 1 := by
    rw [List.length_append, versionField_length]
    rcases hstride with rfl | rfl
    · simp only [Nat.div_one]
      simp [Nat.add_comm]
    · simp only [if_true]
      omega
  unfold versionFields
  rw [hlength, List.range_succ_eq_map, List.map_cons, List.map_map]
  rcases hstride with rfl | rfl
  · simp only [versionField, if_neg (by decide : ¬ 1 = 2)]
    refine congrArg₂ _ ?_ (List.map_congr_left fun i _ => by simp)
    change (byteOf v).toNat = _
    omega
  · simp only [versionField, if_true]
    refine congrArg₂ _ ?_ (List.map_congr_left fun i _ => ?_)
    · change be16 (byteOf ((v : ℤ) / 256)) (byteOf v) = _
      omega
    · simp only [Function.comp_apply, Nat.succ_eq_add_one]
      rw [show 2 * (i + 1) = 2 * i + 2 by omega, show 2 * i + 2 + 1 = 2 * i + 1 + 2 by omega]
      simp

theorem versionFields_replicate (stride n : ℕ) :
    versionFields stride (List.replicate n 0) = List.replicate (n / stride) 0 := by
  have hzero : ∀ i, (List.replicate n (0 : UInt8)).getD i 0 = 0 := fun i => by
    by_cases hi : i < n <;> simp [hi]
  unfold versionFields
  simp only [hzero, List.length_replicate]
  apply List.ext_getElem
  · simp
  · intro i hi _
    simp [be16]

theorem versionFields_flatMap {stride : ℕ} (hstride : stride = 1 ∨ stride = 2) (values : List ℕ)
    (data : List UInt8) : versionFields stride (values.flatMap (versionField stride) ++ data) =
      values.map (· % 256 ^ stride) ++ versionFields stride data := by
  induction values with
  | nil => rfl
  | cons v values ih =>
    rw [List.flatMap_cons, List.append_assoc, versionFields_cons hstride, ih]
    rfl

theorem ulong_eq {k : ℤ} (hlo : 0 ≤ k) (hhi : k < 2 ^ 64) : (ulong k : ℤ) = k := by
  unfold ulong
  rw [if_neg (by omega)]
  omega

theorem overwrite_replicate (bytes : List UInt8) (n : ℕ) :
    overwrite bytes (List.replicate n 0) = bytes ++ List.replicate (n - bytes.length) 0 := by
  rw [overwrite, List.drop_replicate]

theorem versionFields_written {stride n : ℕ} (hstride : stride = 1 ∨ stride = 2)
    {numbers : List ℤ} (h : ∀ k ∈ numbers, 0 ≤ k ∧ k < 256 ^ stride) :
    ∃ m, (versionFields stride (overwrite
        (numbers.flatMap fun k => versionField stride (ulong k)) (List.replicate n 0))).map
          (fun v : ℕ => (v : ℤ)) = numbers ++ List.replicate m 0 := by
  have hpow : (256 : ℤ) ^ stride ≤ 2 ^ 64 := by rcases hstride with rfl | rfl <;> decide
  have hread : ∀ k ∈ numbers, ((ulong k % 256 ^ stride : ℕ) : ℤ) = k := by
    intro k hk
    obtain ⟨hlo, hhi⟩ := h k hk
    push_cast
    rw [ulong_eq hlo (hhi.trans_le hpow), Int.emod_eq_of_lt hlo hhi]
  have hvalues : (numbers.flatMap fun k => versionField stride (ulong k)) =
      (numbers.map ulong).flatMap (versionField stride) := by
    rw [List.flatMap_map]
  rw [overwrite_replicate, hvalues, versionFields_flatMap hstride, versionFields_replicate,
    List.map_append, List.map_replicate, List.map_map, List.map_map]
  refine ⟨_, congrArg (· ++ _) ?_⟩
  conv_rhs => rw [← List.map_id numbers]
  exact List.map_congr_left hread

theorem FieldsFit.mem {format : DataFormat} {numbers : List ℤ} (h : FieldsFit format numbers)
    {k : ℤ} (hk : k ∈ numbers) :
    ∃ i, (fieldRange format i).1 ≤ k ∧ k ≤ (fieldRange format i).2 := by
  obtain ⟨i, hi⟩ := List.mem_iff_getElem?.1 hk
  exact ⟨i, h (k, i) (List.mk_mem_zipIdx_iff_getElem?.2 hi)⟩

theorem length_eq_three {α : Type} {l : List α} (h : l.length = 3) : ∃ a b c, l = [a, b, c] := by
  match l, h with
  | [a, b, c], _ => exact ⟨a, b, c, rfl⟩

theorem length_eq_six {α : Type} {l : List α} (h : l.length = 6) :
    ∃ a b c d e f, l = [a, b, c, d, e, f] := by
  match l, h with
  | [a, b, c, d, e, f], _ => exact ⟨a, b, c, d, e, f, rfl⟩

theorem encodeDate_written {text : List UInt8} {numbers : List ℤ}
    (h : writtenFields [45, 45] text = numbers) (hlength : numbers.length = 3) :
    ∃ bytes, encodeDate text (List.replicate 4 0) = (true, bytes) ∧
      (FieldsFit .date_ymd_abcd numbers → decodedFields .date_ymd_abcd bytes = numbers) := by
  obtain ⟨y, m, d, rfl⟩ := length_eq_three hlength
  unfold encodeDate
  rw [scanFields_eq, h]
  refine ⟨_, rfl, fun hfit => ?_⟩
  simp only [FieldsFit, fieldRange, List.zipIdx_cons, List.zipIdx_nil, List.mem_cons,
    List.not_mem_nil, or_false, forall_eq_or_imp, forall_eq] at hfit
  have hyear : scannedInt y = y := scannedInt_eq (by omega) (by omega)
  have hmonth : scannedInt m = m := scannedInt_eq (by omega) (by omega)
  have hday : scannedInt d = d := scannedInt_eq (by omega) (by omega)
  have hword := be16_byteOf y
  have hm := byteOf_toNat m
  have hd := byteOf_toNat d
  rw [hyear, hmonth, hday]
  simp only [decodedFields, dateTm, overwrite, List.cons_append, List.getD_cons_zero,
    List.getD_cons_succ, List.cons.injEq, and_true]
  omega

theorem scanFields_datetime (text : List UInt8) :
    (if (scanFields [45, 45, 84, 58, 58] text).length = 6 then scanFields [45, 45, 84, 58, 58] text
      else scanFields [45, 45, 32, 58, 58] text) = (datetimeNumbers text).map scannedInt := by
  unfold datetimeNumbers
  rw [scanFields_eq, scanFields_eq, List.length_map]
  split_ifs <;> rfl

theorem encodeDatetime_written {text : List UInt8} {numbers : List ℤ}
    (h : datetimeNumbers text = numbers) (hlength : numbers.length = 6) :
    ∃ bytes, encodeDatetime text (List.replicate 12 0) = (true, bytes) ∧
      (FieldsFit .datetime_regs numbers → decodedFields .datetime_regs bytes = numbers) := by
  unfold encodeDatetime
  dsimp only
  rw [scanFields_datetime, h, if_pos ((List.length_map _).trans hlength)]
  obtain ⟨y, mo, d, ho, mi, se, rfl⟩ := length_eq_six hlength
  refine ⟨_, rfl, fun hfit => ?_⟩
  simp only [FieldsFit, fieldRange, List.zipIdx_cons, List.zipIdx_nil, List.mem_cons,
    List.not_mem_nil, or_false, forall_eq_or_imp, forall_eq] at hfit
  have hscanned : ∀ k ∈ [y, mo, d, ho, mi, se], scannedInt k = k := by
    intro k hk
    simp only [List.mem_cons, List.not_mem_nil, or_false] at hk
    rcases hk with rfl | rfl | rfl | rfl | rfl | rfl <;> exact scannedInt_eq (by omega) (by omega)
  have hword := fun k : ℤ => be16_byteOf k
  have hmap : [y, mo, d, ho, mi, se].map scannedInt = [y, mo, d, ho, mi, se] :=
    (List.map_congr_left hscanned).trans (List.map_id _)
  rw [hmap]
  simp only [decodedFields, datetimeTm, overwrite, List.flatMap_cons, List.flatMap_nil,
    List.cons_append, List.nil_append, List.getD_cons_zero, List.getD_cons_succ, Nat.mul_zero,
    Nat.zero_add, Nat.reduceMul, Nat.reduceAdd, hword, List.cons.injEq, and_true]
  omega

theorem encodeText_epoch_written {channel : Channel} {text : List UInt8} {room : ℕ} {k : ℤ}
    (hformat : channel.format = .epoch32_abcd ∨ channel.format = .epoch32_badc)
    (hlength : channel.length = 4) (hroom : 4 ≤ room) (h : writtenInt 0 text = some (k, [])) :
    ∃ bytes, encodeText channel text room = (true, bytes) ∧
      (FieldsFit channel.format [k] → decodedFields channel.format bytes = [k]) := by
  have htext : strtoull 0 text = some (ulong k, []) := by rw [strtoull_eq, h, Option.map_some]
  have haccepted : ∃ bytes, encodeText channel text room = (true, bytes) := by
    unfold encodeText
    rw [if_neg (by omega)]
    rcases hformat with h | h <;> rw [h] <;> dsimp only <;> unfold encodeEpoch <;> rw [htext] <;>
      exact ⟨_, rfl⟩
  obtain ⟨bytes, hbytes⟩ := haccepted
  refine ⟨bytes, hbytes, fun hfit => ?_⟩
  have hrange : 0 ≤ k ∧ k ≤ 2 ^ 32 - 1 := by
    have hone := hfit (k, 0) (List.mem_singleton_self _)
    rcases hformat with h | h <;> rw [h] at hone <;> exact hone
  have hulong : (ulong k : ℤ) = k := ulong_eq hrange.1 (by omega)
  have hstamp : (UInt32.ofNat (ulong k)).toNat = ulong k := by
    rw [UInt32.toNat_ofNat']
    omega
  rw [← hstamp] at htext
  obtain ⟨habcd, hbadc⟩ := encodeText_epoch hlength hroom htext
  rcases hformat with h | h
  · rw [habcd h] at hbytes
    cases hbytes
    rw [h]
    simp only [decodedFields, epochRaw_stampBytes, hstamp, hulong]
  · rw [hbadc h] at hbytes
    cases hbytes
    rw [h]
    have hraw : epochRaw .epoch32_badc [wordByte (UInt32.ofNat (ulong k)) 16,
        wordByte (UInt32.ofNat (ulong k)) 24, wordByte (UInt32.ofNat (ulong k)) 0,
        wordByte (UInt32.ofNat (ulong k)) 8] = UInt32.ofNat (ulong k) := be32_wordByte _
    simp only [decodedFields, hraw, hstamp, hulong]

section

variable {channel : Channel} {text : List UInt8} {room : ℕ}

theorem encodeText_room (h : (encodeText channel text room).1 = true) : channel.length ≤ room := by
  unfold encodeText at h
  split_ifs at h with hroom
  omega

theorem encodeText_accepts (hfields : channel.format.HasFields)
    (h : (encodeText channel text room).1 = true) :
    ∃ numbers, writtenNumbers channel text = some numbers ∧ ¬ TooWide channel.format numbers := by
  unfold encodeText at h
  split_ifs at h
  unfold writtenNumbers TooWide
  cases hformat : channel.format <;> rw [hformat] at h hfields <;> dsimp only at h ⊢
  case version_ab | version_abcd =>
    obtain ⟨numbers, hnumbers, hwide⟩ := encodeVersion_accepts h
    refine ⟨numbers, by simpa using hnumbers, ?_⟩
    rintro ⟨-, k, hk, hlt⟩
    exact absurd (hwide.resolve_left (by decide) k hk) (not_le.2 hlt)
  case version_regs =>
    obtain ⟨numbers, hnumbers, -⟩ := encodeVersion_accepts h
    exact ⟨numbers, hnumbers, by simp⟩
  case date_ymd_abcd =>
    unfold encodeDate at h
    split at h
    · rename_i hscan
      rw [scanFields_eq] at hscan
      have hlength := congrArg List.length hscan
      rw [List.length_map] at hlength
      exact ⟨_, if_pos hlength, by simp⟩
    · contradiction
  case datetime_regs =>
    unfold encodeDatetime at h
    dsimp only at h
    rw [scanFields_datetime, List.length_map] at h
    split_ifs at h with hlength
    exact ⟨_, if_pos hlength, by simp⟩
  case epoch32_abcd | epoch32_badc =>
    unfold encodeEpoch at h
    rw [strtoull_eq] at h
    cases hk : writtenInt 0 text with
    | none =>
      rw [hk] at h
      contradiction
    | some number =>
      obtain ⟨k, rest⟩ := number
      rw [hk] at h
      cases rest with
      | nil => exact ⟨[k], rfl, by simp⟩
      | cons b rest => contradiction
  all_goals exact absurd hfields id

/-- A default in the form of its format is accepted, and one whose numbers fit is kept. -/
theorem encodeText_written (hfields : channel.format.HasFields) (hsized : channel.Sized)
    (hpos : 0 < channel.length) (hroom : channel.length ≤ room) {numbers : List ℤ}
    (h : writtenNumbers channel text = some numbers) (hwide : ¬ TooWide channel.format numbers) :
    ∃ bytes, encodeText channel text room = (true, bytes) ∧
      (FieldsFit channel.format numbers →
        ∃ n, decodedFields channel.format bytes = numbers ++ List.replicate n 0) := by
  have hexact : ∀ {bytes : List UInt8}, decodedFields channel.format bytes = numbers →
      ∃ n, decodedFields channel.format bytes = numbers ++ List.replicate n 0 :=
    fun h => ⟨0, by rw [h, List.replicate_zero, List.append_nil]⟩
  have hopen : ¬ (channel.length = 0 ∨ room < channel.length) := by omega
  unfold Channel.Sized at hsized
  unfold writtenNumbers at h
  cases hformat : channel.format <;> rw [hformat] at h hfields hwide hsized hexact <;>
    dsimp only [formatSize] at h hsized
  case version_ab | version_abcd =>
    have hbytes : ∀ k ∈ numbers, ulong k ≤ 255 := fun k hk =>
      not_lt.1 fun hlt => hwide ⟨by simp, k, hk, hlt⟩
    have hencoded : encodeVersion 1 _ _ [] = _ := encodeVersion_written h (.inr hbytes)
    unfold encodeText
    rw [if_neg hopen, hformat]
    dsimp only
    rw [hencoded]
    refine ⟨_, rfl, fun hfit => versionFields_written (.inl rfl) fun k hk => ?_⟩
    obtain ⟨i, hlo, hhi⟩ := hfit.mem hk
    simp only [fieldRange] at hlo hhi
    omega
  case version_regs =>
    have hencoded : encodeVersion 2 _ _ [] = _ := encodeVersion_written h (.inl rfl)
    unfold encodeText
    rw [if_neg hopen, hformat]
    dsimp only
    rw [hencoded]
    refine ⟨_, rfl, fun hfit => versionFields_written (.inr rfl) fun k hk => ?_⟩
    obtain ⟨i, hlo, hhi⟩ := hfit.mem hk
    simp only [fieldRange] at hlo hhi
    omega
  case date_ymd_abcd =>
    split_ifs at h with hlength
    have hfour : channel.length = 4 := hsized.resolve_left (by decide)
    obtain ⟨bytes, hbytes, hkept⟩ := encodeDate_written (Option.some.inj h)
      (by rw [← Option.some.inj h]; exact hlength)
    unfold encodeText
    rw [if_neg hopen, hformat, hfour]
    exact ⟨bytes, hbytes, fun hfit => hexact (hkept hfit)⟩
  case datetime_regs =>
    split_ifs at h with hlength
    have htwelve : channel.length = 12 := hsized.resolve_left (by decide)
    obtain ⟨bytes, hbytes, hkept⟩ := encodeDatetime_written (Option.some.inj h)
      (by rw [← Option.some.inj h]; exact hlength)
    unfold encodeText
    rw [if_neg hopen, hformat, htwelve]
    exact ⟨bytes, hbytes, fun hfit => hexact (hkept hfit)⟩
  case epoch32_abcd | epoch32_badc =>
    have hfour : channel.length = 4 := hsized.resolve_left (by decide)
    split at h
    · rename_i k hk
      obtain rfl : [k] = numbers := Option.some.inj h
      obtain ⟨bytes, hbytes, hkept⟩ := encodeText_epoch_written (by simp [hformat]) hfour
        (hfour ▸ hroom) hk
      rw [hformat] at hkept
      exact ⟨bytes, hbytes, fun hfit => hexact (hkept hfit)⟩
    · contradiction
  all_goals exact absurd hfields id

/-- A default of a format with fields keeps its numbers exactly if they are in the ranges of
their fields, or a version of bytes has a part that `strtoul` reads as more than a byte, or it is
not in the form of its format. -/
theorem numbers_kept_iff (hfields : channel.format.HasFields) (hsized : channel.Sized)
    (hpos : 0 < channel.length) : NumbersKept channel text ↔
      ∀ numbers, writtenNumbers channel text = some numbers →
        FieldsFit channel.format numbers ∨ TooWide channel.format numbers := by
  constructor
  · intro hkept numbers hnumbers
    by_cases hwide : TooWide channel.format numbers
    · exact .inr hwide
    · obtain ⟨bytes, hbytes, -⟩ :=
        encodeText_written hfields hsized hpos le_rfl hnumbers hwide
      obtain ⟨numbers', hnumbers', hfit, -⟩ := hkept _ bytes hbytes
      rw [hnumbers] at hnumbers'
      cases hnumbers'
      exact .inl hfit
  · intro hcondition room bytes hbytes
    have haccepted : (encodeText channel text room).1 = true := congrArg Prod.fst hbytes
    obtain ⟨numbers, hnumbers, hwide⟩ := encodeText_accepts hfields haccepted
    have hfit := (hcondition numbers hnumbers).resolve_right hwide
    obtain ⟨bytes', hbytes', hdecoded⟩ := encodeText_written hfields hsized hpos
      (encodeText_room haccepted) hnumbers hwide
    rw [hbytes] at hbytes'
    cases hbytes'
    exact ⟨numbers, hnumbers, hfit, hdecoded hfit⟩

end

def firmwareChannel : Channel := ⟨0, 6, .version_regs⟩

theorem numbers_kept_iff_example : NumbersKept firmwareChannel (bytesOf "5.10.300") :=
  Iff.mpr (numbers_kept_iff trivial (.inl rfl) (by decide)) fun numbers hnumbers => by
    have hwritten : writtenNumbers firmwareChannel (bytesOf "5.10.300") = some [5, 10, 300] := by
      decide +kernel
    rw [hwritten] at hnumbers
    cases hnumbers
    exact .inl (by decide)

/-- A build number that does not fit a register is served as another one. -/
theorem version_number_wrapped :
    encodeText firmwareChannel (bytesOf "5.10.70000") 6 = (true, [0, 5, 0, 10, 17, 112]) ∧
      decodedFields .version_regs [0, 5, 0, 10, 17, 112] = [5, 10, 4464] ∧
        ¬ NumbersKept firmwareChannel (bytesOf "5.10.70000") := by
  have hencoded : encodeText firmwareChannel (bytesOf "5.10.70000") 6 =
      (true, [0, 5, 0, 10, 17, 112]) := by decide +kernel
  refine ⟨hencoded, by decide +kernel, fun hkept => ?_⟩
  obtain ⟨numbers, hnumbers, hfit, -⟩ := hkept _ _ hencoded
  have hwritten : writtenNumbers firmwareChannel (bytesOf "5.10.70000") = some [5, 10, 70000] := by
    decide +kernel
  rw [hwritten] at hnumbers
  cases hnumbers
  exact absurd hfit (by decide)

end Modbusmq
