import Modbusmq.Core.Config
import Modbusmq.Core.Frame

/-!
# Data formats

The byte orders of `modbusmq_encode_value` and of the decoders that
`modbusmq_read_channel` calls. A `double` is seen through the two conversions
the encoder makes, to an integer and to the bits of a `float`.
-/

namespace Modbusmq

/-- What a number format carries: an integer, or the bits of a `float`. -/
inductive Raw
  | int (k : ℤ)
  | float (bits : UInt32)
  deriving DecidableEq, Repr

def truncate (value : ℚ) : ℤ := value.num.tdiv value.den

@[simp] theorem truncate_intCast (k : ℤ) : truncate k = k := by simp [truncate]

def wordByte (i : UInt32) (shift : ℕ) : UInt8 := UInt8.ofNat (i.toNat >>> shift)

def be32 (a b c d : UInt8) : UInt32 :=
  UInt32.ofNat (a.toNat <<< 24 ||| b.toNat <<< 16 ||| c.toNat <<< 8 ||| d.toNat)

def DataFormat.IsFloat : DataFormat → Prop
  | .float_abcd | .float_badc | .float_dcba | .float_cdab => True
  | _ => False

instance : DecidablePred DataFormat.IsFloat := fun format => by
  cases format <;> unfold DataFormat.IsFloat <;> infer_instance

/-- `modbusmq_encode_value`, given the `double` and its conversion to `float`. -/
def encodeValue (format : DataFormat) (value : ℚ) (single : UInt32) : Option (List UInt8) :=
  let ivalue := truncate value
  let i := if format.IsFloat then single else UInt32.ofInt ivalue
  let a := wordByte i 24
  let b := wordByte i 16
  let c := wordByte i 8
  let d := wordByte i 0
  match format with
  | .a | .int8 => some [byteOf ivalue]
  | .ab | .int16_ab => some [byteOf (ivalue / 256), byteOf ivalue]
  | .ba | .int16_ba => some [byteOf ivalue, byteOf (ivalue / 256)]
  | .float_abcd | .abcd | .uint32_abcd => some [a, b, c, d]
  | .float_badc | .badc | .uint32_badc => some [b, a, d, c]
  | .float_dcba => some [d, c, b, a]
  | .float_cdab => some [c, d, a, b]
  | _ => none

/-- The number `modbusmq_read_channel` takes from the bytes of a channel; `none` where it has
no decoder for the format. -/
def readRaw (format : DataFormat) (data : List UInt8) : Option Raw :=
  let a := data.getD 0 0
  let b := data.getD 1 0
  let c := data.getD 2 0
  let d := data.getD 3 0
  match format with
  | .float_abcd => some (.float (be32 a b c d))
  | .float_badc => some (.float (be32 b a d c))
  | .float_dcba => some (.float (be32 d c b a))
  | .float_cdab => some (.float (be32 c d a b))
  | .ab => some (.int (be16 a b))
  | .ba => some (.int (be16 b a))
  | .int16_ab => some (.int ((be16 a b : ℤ).bmod (2 ^ 16)))
  | .int16_ba => some (.int ((be16 b a : ℤ).bmod (2 ^ 16)))
  | .abcd => some (.int (((be32 a b c d).toNat : ℤ).bmod (2 ^ 32)))
  | .badc => some (.int (((be32 b a d c).toNat : ℤ).bmod (2 ^ 32)))
  | .uint32_abcd => some (.int (be32 a b c d).toNat)
  | .uint32_badc => some (.int (be32 b a d c).toNat)
  | .a => some (.int a.toNat)
  | .int8 => some (.int ((a.toNat : ℤ).bmod (2 ^ 8)))
  | _ => none

def formatRange : DataFormat → ℤ × ℤ
  | .a => (0, 2 ^ 8 - 1)
  | .int8 => (-2 ^ 7, 2 ^ 7 - 1)
  | .ab | .ba => (0, 2 ^ 16 - 1)
  | .int16_ab | .int16_ba => (-2 ^ 15, 2 ^ 15 - 1)
  | .uint32_abcd | .uint32_badc => (0, 2 ^ 32 - 1)
  | _ => (-2 ^ 31, 2 ^ 31 - 1)

def rawValue (format : DataFormat) (value : ℚ) (single : UInt32) : Raw :=
  if format.IsFloat then .float single else .int (truncate value)

/-- A format carries every `float`, and the integers of its range. -/
def Representable (format : DataFormat) (value : ℚ) : Prop :=
  format.IsFloat ∨
    value = truncate value ∧ (formatRange format).1 ≤ truncate value ∧
      truncate value ≤ (formatRange format).2

instance (format : DataFormat) (value : ℚ) : Decidable (Representable format value) :=
  inferInstanceAs (Decidable (_ ∨ _))

def formatIsText : DataFormat → Bool
  | .ascii_ab | .ascii_ba | .bcd_ab | .bcd_ba | .version_ab | .version_abcd | .version_regs
  | .date_ymd_abcd | .datetime_regs | .epoch32_abcd | .epoch32_badc => true
  | _ => false

def formatIsEpoch : DataFormat → Bool
  | .epoch32_abcd | .epoch32_badc => true
  | _ => false

theorem be32_toNat (a b c d : UInt8) : (be32 a b c d).toNat =
    a.toNat * 2 ^ 24 + b.toNat * 2 ^ 16 + c.toNat * 2 ^ 8 + d.toNat := by
  have ha := a.toNat_lt
  have hb := b.toNat_lt
  have hc := c.toNat_lt
  have hd := d.toNat_lt
  have hcd : c.toNat <<< 8 ||| d.toNat = c.toNat * 2 ^ 8 + d.toNat := by
    rw [← Nat.shiftLeft_add_eq_or_of_lt (by omega), Nat.shiftLeft_eq]
  have hbcd : b.toNat <<< 16 ||| (c.toNat * 2 ^ 8 + d.toNat) =
      b.toNat * 2 ^ 16 + (c.toNat * 2 ^ 8 + d.toNat) := by
    rw [← Nat.shiftLeft_add_eq_or_of_lt (by omega), Nat.shiftLeft_eq]
  have habcd : a.toNat <<< 24 ||| (b.toNat * 2 ^ 16 + (c.toNat * 2 ^ 8 + d.toNat)) =
      a.toNat * 2 ^ 24 + (b.toNat * 2 ^ 16 + (c.toNat * 2 ^ 8 + d.toNat)) := by
    rw [← Nat.shiftLeft_add_eq_or_of_lt (by omega), Nat.shiftLeft_eq]
  unfold be32
  rw [Nat.or_assoc, Nat.or_assoc, hcd, hbcd, habcd, UInt32.toNat_ofNat']
  omega

theorem be32_wordByte (i : UInt32) :
    be32 (wordByte i 24) (wordByte i 16) (wordByte i 8) (wordByte i 0) = i := by
  apply UInt32.toNat_inj.1
  have hi := i.toNat_lt
  unfold wordByte
  rw [be32_toNat]
  simp only [UInt8.toNat_ofNat', Nat.shiftRight_eq_div_pow]
  omega

theorem toNat_ofInt32 (k : ℤ) : ((UInt32.ofInt k).toNat : ℤ) = k % 2 ^ 32 := by
  rw [UInt32.ofInt, UInt32.toNat_ofNat']
  omega

theorem encodeValue_length {format : DataFormat} {value : ℚ} {single : UInt32} {bytes : List UInt8}
    (h : encodeValue format value single = some bytes) : bytes.length = formatSize format := by
  cases format <;> cases h <;> rfl

/-- The number formats with an encoder also have a decoder, and text formats have neither. -/
theorem encodeValue_isSome_iff (format : DataFormat) (value : ℚ) (single : UInt32) :
    (encodeValue format value single).isSome ↔ ¬ formatIsText format ∧
      format ≠ .unknown ∧ format ≠ .float_ba := by
  cases format <;> simp [encodeValue, formatIsText]

theorem bmod_emod_of_le {k : ℤ} {m : ℕ} (hlo : -((m : ℤ) / 2) ≤ k) (hhi : k < (m + 1) / 2) :
    (k % (m : ℤ)).bmod m = k := by
  rw [Int.emod_bmod]
  exact Int.bmod_eq_of_le hlo hhi

theorem readRaw_encodeValue {format : DataFormat} {value : ℚ} {single : UInt32}
    {bytes : List UInt8} (h : encodeValue format value single = some bytes)
    (hvalue : Representable format value) :
    readRaw format bytes = some (rawValue format value single) := by
  have hint : ∀ {k k' : ℤ}, k = k' → some (Raw.int k) = some (Raw.int k') := fun h => by rw [h]
  have hfloat : ∀ {i i' : UInt32}, i = i' → some (Raw.float i) = some (Raw.float i') :=
    fun h => by rw [h]
  have hword : (be32 (wordByte (UInt32.ofInt (truncate value)) 24)
      (wordByte (UInt32.ofInt (truncate value)) 16) (wordByte (UInt32.ofInt (truncate value)) 8)
      (wordByte (UInt32.ofInt (truncate value)) 0)).toNat = truncate value % 2 ^ 32 := by
    rw [be32_wordByte, toNat_ofInt32]
  have hrange := hvalue.resolve_left
  cases format <;> cases h
  case float_abcd | float_badc | float_dcba | float_cdab => exact hfloat (be32_wordByte single)
  all_goals
    obtain ⟨-, hlo, hhi⟩ := hrange id
    simp only [formatRange] at hlo hhi
    refine hint ?_
  case a => exact (byteOf_toNat _).trans (Int.emod_eq_of_lt hlo (by omega))
  case ab | ba => exact (be16_byteOf _).trans (Int.emod_eq_of_lt hlo (by omega))
  case uint32_abcd | uint32_badc => exact hword.trans (Int.emod_eq_of_lt hlo (by omega))
  case int8 =>
    refine Eq.trans ?_ (bmod_emod_of_le (m := 2 ^ 8) (by omega) (by omega))
    exact congrArg (Int.bmod · _) (byteOf_toNat _)
  case int16_ab | int16_ba =>
    refine Eq.trans ?_ (bmod_emod_of_le (m := 2 ^ 16) (by omega) (by omega))
    exact congrArg (Int.bmod · _) (be16_byteOf _)
  case abcd | badc =>
    refine Eq.trans ?_ (bmod_emod_of_le (m := 2 ^ 32) (by omega) (by omega))
    exact congrArg (Int.bmod · _) hword

/-- The bytes of a 16-bit word, from any integer that stands for it. -/
theorem byteOf_word {x : ℤ} {hi lo : UInt8} (h : x % (2 ^ 16 : ℕ) = be16 hi lo) :
    byteOf (x / 256) = hi ∧ byteOf x = lo := by
  have hhi := hi.toNat_lt
  have hlo := lo.toNat_lt
  have hfirst := byteOf_toNat (x / 256)
  have hsecond := byteOf_toNat x
  rw [be16_eq] at h
  push_cast at h
  constructor
  · apply UInt8.toNat_inj.1
    omega
  · apply UInt8.toNat_inj.1
    omega

theorem byteOf_byte {x : ℤ} {b : UInt8} (h : x % (2 ^ 8 : ℕ) = b.toNat) : byteOf x = b := by
  have hbyte := byteOf_toNat x
  apply UInt8.toNat_inj.1
  omega

theorem ofInt_word {x : ℤ} {w : UInt32} (h : x % (2 ^ 32 : ℕ) = w.toNat) : UInt32.ofInt x = w := by
  have hword := toNat_ofInt32 x
  apply UInt32.toNat_inj.1
  omega

theorem wordByte_be32 (a b c d : UInt8) : wordByte (be32 a b c d) 24 = a ∧
    wordByte (be32 a b c d) 16 = b ∧ wordByte (be32 a b c d) 8 = c ∧
      wordByte (be32 a b c d) 0 = d := by
  have ha := a.toNat_lt
  have hb := b.toNat_lt
  have hc := c.toNat_lt
  have hd := d.toNat_lt
  unfold wordByte
  rw [be32_toNat]
  refine ⟨?_, ?_, ?_, ?_⟩ <;> apply UInt8.toNat_inj.1 <;>
    simp only [UInt8.toNat_ofNat', Nat.shiftRight_eq_div_pow] <;> omega

theorem emod_word {n m : ℕ} (h : n < m) : (n : ℤ) % m = n :=
  Int.emod_eq_of_lt (Int.natCast_nonneg n) (Int.ofNat_lt.2 h)

theorem length_eq_four {α : Type} {l : List α} (h : l.length = 4) :
    ∃ a b c d, l = [a, b, c, d] := by
  match l, h with
  | [a, b, c, d], _ => exact ⟨a, b, c, d, rfl⟩

/-- The formats `modbusmq_encode_value` implements. -/
def DataFormat.Encodable (format : DataFormat) : Prop :=
  ¬ formatIsText format ∧ format ≠ .unknown ∧ format ≠ .float_ba

instance : DecidablePred DataFormat.Encodable := fun _ => inferInstanceAs (Decidable (_ ∧ _))

theorem encodeValue_readRaw {format : DataFormat} (hformat : format.Encodable) {bytes : List UInt8}
    (hbytes : bytes.length = formatSize format) : ∃ raw, readRaw format bytes = some raw ∧
      ∀ value single, rawValue format value single = raw →
        encodeValue format value single = some bytes := by
  obtain ⟨hnumber, hknown, hfloat⟩ := hformat
  cases format
  case unknown | float_ba => contradiction
  case a | int8 =>
    obtain ⟨a, rfl⟩ := List.length_eq_one_iff.1 hbytes
    refine ⟨_, rfl, fun value single hvalue => ?_⟩
    have hbyte : byteOf (truncate value) = a := byteOf_byte (by
      rw [Raw.int.inj hvalue]
      try rw [Int.bmod_emod]
      exact emod_word a.toNat_lt)
    simp only [encodeValue, hbyte]
  case ab | int16_ab =>
    obtain ⟨a, b, rfl⟩ := List.length_eq_two.1 hbytes
    refine ⟨_, rfl, fun value single hvalue => ?_⟩
    have hword : truncate value % (2 ^ 16 : ℕ) = be16 a b := by
      rw [Raw.int.inj hvalue]
      try rw [Int.bmod_emod]
      exact emod_word (be16_lt a b)
    simp only [encodeValue, (byteOf_word hword).1, (byteOf_word hword).2]
  case ba | int16_ba =>
    obtain ⟨a, b, rfl⟩ := List.length_eq_two.1 hbytes
    refine ⟨_, rfl, fun value single hvalue => ?_⟩
    have hword : truncate value % (2 ^ 16 : ℕ) = be16 b a := by
      rw [Raw.int.inj hvalue]
      try rw [Int.bmod_emod]
      exact emod_word (be16_lt b a)
    simp only [encodeValue, (byteOf_word hword).1, (byteOf_word hword).2]
  case abcd | uint32_abcd =>
    obtain ⟨a, b, c, d, rfl⟩ := length_eq_four hbytes
    refine ⟨_, rfl, fun value single hvalue => ?_⟩
    have hword : UInt32.ofInt (truncate value) = be32 a b c d := ofInt_word (by
      rw [Raw.int.inj hvalue]
      try rw [Int.bmod_emod]
      exact emod_word (be32 a b c d).toNat_lt)
    obtain ⟨ha, hb, hc, hd⟩ := wordByte_be32 a b c d
    simp [encodeValue, DataFormat.IsFloat, hword, ha, hb, hc, hd]
  case badc | uint32_badc =>
    obtain ⟨a, b, c, d, rfl⟩ := length_eq_four hbytes
    refine ⟨_, rfl, fun value single hvalue => ?_⟩
    have hword : UInt32.ofInt (truncate value) = be32 b a d c := ofInt_word (by
      rw [Raw.int.inj hvalue]
      try rw [Int.bmod_emod]
      exact emod_word (be32 b a d c).toNat_lt)
    obtain ⟨ha, hb, hc, hd⟩ := wordByte_be32 b a d c
    simp [encodeValue, DataFormat.IsFloat, hword, ha, hb, hc, hd]
  case float_abcd | float_badc | float_dcba | float_cdab =>
    obtain ⟨a, b, c, d, rfl⟩ := length_eq_four hbytes
    refine ⟨_, rfl, fun value single hvalue => ?_⟩
    have hword : single = _ := Raw.float.inj hvalue
    rw [hword]
    simp [encodeValue, DataFormat.IsFloat, wordByte_be32]
  all_goals exact absurd rfl hnumber

/-- Every format with an encoder is encoded and decoded both ways without a loss: a value that it
carries comes back, and so do the bytes of a register. -/
theorem codecs_inverse {format : DataFormat} (hformat : format.Encodable) :
    (∀ value single, Representable format value → ∃ bytes,
        encodeValue format value single = some bytes ∧ bytes.length = formatSize format ∧
          readRaw format bytes = some (rawValue format value single)) ∧
      ∀ bytes : List UInt8, bytes.length = formatSize format → ∃ raw,
        readRaw format bytes = some raw ∧ ∀ value single, rawValue format value single = raw →
          encodeValue format value single = some bytes := by
  refine ⟨fun value single hvalue => ?_, fun bytes hbytes => encodeValue_readRaw hformat hbytes⟩
  obtain ⟨bytes, hsome⟩ := Option.isSome_iff_exists.1
    ((encodeValue_isSome_iff format value single).2 hformat)
  exact ⟨bytes, hsome, encodeValue_length hsome, readRaw_encodeValue hsome hvalue⟩

theorem codecs_inverse_example :
    (∀ value single, Representable .int16_ba value → ∃ bytes,
        encodeValue .int16_ba value single = some bytes ∧ bytes.length = 2 ∧
          readRaw .int16_ba bytes = some (rawValue .int16_ba value single)) ∧
      ∀ bytes : List UInt8, bytes.length = 2 → ∃ raw, readRaw .int16_ba bytes = some raw ∧
        ∀ value single, rawValue .int16_ba value single = raw →
          encodeValue .int16_ba value single = some bytes :=
  codecs_inverse (by decide)

end Modbusmq
