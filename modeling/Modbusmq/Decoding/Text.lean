import Modbusmq.Decoding.Formats

/-!
# Text defaults

`modbusmq_encode_text` and the scanning functions of the C library it calls. A
text is the bytes of a C string without its terminator. An encoder that gives
up leaves what it has written so far, as in the source.
-/

namespace Modbusmq

def isSpaceByte (b : UInt8) : Bool := b = 32 ∨ 9 ≤ b ∧ b ≤ 13

def digitOfByte (b : UInt8) : ℕ :=
  if 48 ≤ b ∧ b ≤ 57 then b.toNat - 48
  else if 97 ≤ b ∧ b ≤ 122 then b.toNat - 87
  else if 65 ≤ b ∧ b ≤ 90 then b.toNat - 55
  else 36

/-- The base of a number and its digits; base 0 goes by the prefix. -/
def numberBase (base : ℕ) (text : List UInt8) : ℕ × List UInt8 :=
  if base ≠ 0 then (base, text)
  else
    match text with
    | 48 :: x :: digit :: rest =>
      if (x = 120 ∨ x = 88) ∧ digitOfByte digit < 16 then (16, digit :: rest) else (8, text)
    | 48 :: _ => (8, text)
    | _ => (10, text)

/-- Blanks, a sign and at least one digit: the sign, the magnitude and what follows. -/
def scanNumber (base : ℕ) (text : List UInt8) : Option (Bool × ℕ × List UInt8) :=
  let (negative, text) := match text.dropWhile isSpaceByte with
    | 45 :: rest => (true, rest)
    | 43 :: rest => (false, rest)
    | rest => (false, rest)
  let (base, text) := numberBase base text
  let digits := text.takeWhile fun b => digitOfByte b < base
  if digits = [] then none
  else some (negative, digits.foldl (fun n b => n * base + digitOfByte b) 0,
    text.dropWhile fun b => digitOfByte b < base)

def strtoull (base : ℕ) (text : List UInt8) : Option (ℕ × List UInt8) :=
  (scanNumber base text).map fun (negative, n, rest) =>
    (if 2 ^ 64 ≤ n then 2 ^ 64 - 1 else if negative then (2 ^ 64 - n) % 2 ^ 64 else n, rest)

/-- `%d` of `sscanf`: saturated as a `long` and stored in an `int`. -/
def scanInt (text : List UInt8) : Option (ℤ × List UInt8) :=
  (scanNumber 10 text).map fun (negative, n, rest) =>
    ((if negative then -(min n (2 ^ 63) : ℕ) else (min n (2 ^ 63 - 1) : ℕ) : ℤ).bmod (2 ^ 32), rest)

/-- One character of a `sscanf` format between two `%d`; a blank skips blanks. -/
def scanSeparator (separator : UInt8) (text : List UInt8) : Option (List UInt8) :=
  if separator = 32 then some (text.dropWhile isSpaceByte)
  else
    match text with
    | [] => none
    | b :: rest => if b = separator then some rest else none

/-- The fields `sscanf` assigns for `%d`s with these separators between them. -/
def scanFields : List UInt8 → List UInt8 → List ℤ
  | separators, text =>
    match scanInt text with
    | none => []
    | some (k, rest) =>
      k :: match separators with
        | [] => []
        | separator :: separators =>
          match scanSeparator separator rest with
          | none => []
          | some rest => scanFields separators rest

def doubleOf (n : ℕ) : ℕ :=
  let unit := 2 ^ (n.log2 - 52)
  let m := n / unit
  let rest := n % unit
  (if unit < 2 * rest ∨ unit = 2 * rest ∧ m % 2 = 1 then m + 1 else m) * unit

def textBytePut (out : List UInt8) (i : ℕ) (swap : Bool) (c : UInt8) : List UInt8 :=
  let j := if swap then i ^^^ 1 else i
  out.set (if j < out.length then j else i) c

def versionField (stride v : ℕ) : List UInt8 :=
  if stride = 2 then [byteOf (v / 256), byteOf v] else [byteOf v]

/-- `modbusmq_encode_version`, with room for so many fields more. -/
def encodeVersion (stride : ℕ) : ℕ → List UInt8 → List UInt8 → Bool × List UInt8
  | 0, text, out => (text.isEmpty, out)
  | _ + 1, [], out => (true, out)
  | fields + 1, text, out =>
    match strtoull 10 text with
    | none => (false, out)
    | some (v, rest) =>
      if stride ≠ 2 ∧ 0xff < v then (false, out)
      else
        match rest with
        | [] => encodeVersion stride fields [] (out ++ versionField stride v)
        | b :: rest =>
          if b = 46 then encodeVersion stride fields rest (out ++ versionField stride v)
          else (false, out ++ versionField stride v)

/-- Two digits of a BCD field that is padded on the left. -/
def bcdByte (text : List UInt8) (pad i : ℕ) : Option UInt8 :=
  let digit (pos : ℕ) : UInt8 := if pos < pad then 48 else text.getD (pos - pad) 0
  let hi := digit (2 * i)
  let lo := digit (2 * i + 1)
  if 48 ≤ hi ∧ hi ≤ 57 ∧ 48 ≤ lo ∧ lo ≤ 57 then some ((hi - 48) <<< 4 ||| (lo - 48)) else none

def overwrite (bytes out : List UInt8) : List UInt8 := bytes ++ out.drop bytes.length

/-- The cases of `modbusmq_encode_text`, each on the cleared field. -/
def encodeAscii (text : List UInt8) (swap : Bool) (out : List UInt8) : Bool × List UInt8 :=
  if out.length < text.length then (false, out)
  else (true, text.zipIdx.foldl (fun out (c, i) => textBytePut out i swap c) out)

def encodeBcd (text : List UInt8) (swap : Bool) (out : List UInt8) : Bool × List UInt8 :=
  if out.length * 2 < text.length then (false, out)
  else (List.range out.length).foldl
    (fun s i =>
      if s.1 then
        match bcdByte text (out.length * 2 - text.length) i with
        | none => (false, s.2)
        | some byte => (true, textBytePut s.2 i swap byte)
      else s)
    (true, out)

def encodeDate (text out : List UInt8) : Bool × List UInt8 :=
  match scanFields [45, 45] text with
  | [y, m, d] => (true, overwrite [byteOf (y / 256), byteOf y, byteOf m, byteOf d] out)
  | _ => (false, out)

def encodeDatetime (text out : List UInt8) : Bool × List UInt8 :=
  let fields := scanFields [45, 45, 84, 58, 58] text
  let fields := if fields.length = 6 then fields else scanFields [45, 45, 32, 58, 58] text
  if fields.length = 6 then
    (true, overwrite (fields.flatMap fun k => [byteOf (k / 256), byteOf k]) out)
  else (false, out)

def encodeEpoch (format : DataFormat) (text out : List UInt8) : Bool × List UInt8 :=
  match strtoull 0 text with
  | some (v, []) =>
    match encodeValue format (doubleOf v : ℕ) 0 with
    | some bytes => (true, overwrite bytes out)
    | none => (false, out)
  | _ => (false, out)

/-- `modbusmq_encode_text`: whether it succeeds, and the bytes it leaves at `out`. -/
def encodeText (channel : Channel) (text : List UInt8) (room : ℕ) : Bool × List UInt8 :=
  if channel.length = 0 ∨ room < channel.length then (false, [])
  else
    let out := List.replicate channel.length 0
    match channel.format with
    | .ascii_ab => encodeAscii text false out
    | .ascii_ba => encodeAscii text true out
    | .bcd_ab => encodeBcd text false out
    | .bcd_ba => encodeBcd text true out
    | .version_ab | .version_abcd =>
      let version := encodeVersion 1 channel.length text []
      (version.1, overwrite version.2 out)
    | .version_regs =>
      let version := encodeVersion 2 (channel.length / 2) text []
      (version.1, overwrite version.2 out)
    | .date_ymd_abcd => encodeDate text out
    | .datetime_regs => encodeDatetime text out
    | .epoch32_abcd => encodeEpoch .uint32_abcd text out
    | .epoch32_badc => encodeEpoch .uint32_badc text out
    | _ => (false, out)

@[simp] theorem textBytePut_length (out : List UInt8) (i : ℕ) (swap : Bool) (c : UInt8) :
    (textBytePut out i swap c).length = out.length := List.length_set

theorem versionField_length (stride v : ℕ) :
    (versionField stride v).length = if stride = 2 then 2 else 1 := by
  unfold versionField
  split_ifs <;> rfl

theorem encodeVersion_length (stride fields : ℕ) (text out : List UInt8) :
    (encodeVersion stride fields text out).2.length ≤
      out.length + fields * if stride = 2 then 2 else 1 := by
  have hfield := versionField_length stride
  generalize (if stride = 2 then 2 else 1) = width at hfield ⊢
  induction fields generalizing text out with
  | zero => simp [encodeVersion]
  | succ fields ih =>
    have hnext : ∀ (v : ℕ) (text : List UInt8),
        (encodeVersion stride fields text (out ++ versionField stride v)).2.length ≤
          out.length + (fields + 1) * width := by
      intro v text
      have h := ih text (out ++ versionField stride v)
      rw [List.length_append, hfield] at h
      rw [Nat.succ_mul]
      omega
    cases text with
    | nil => exact Nat.le_add_right _ _
    | cons b text =>
      unfold encodeVersion
      split
      · exact Nat.le_add_right _ _
      · split_ifs
        · exact Nat.le_add_right _ _
        · split
          · exact hnext _ _
          · split_ifs
            · exact hnext _ _
            · rw [List.length_append, hfield, Nat.succ_mul]
              omega

theorem encodeAscii_length (text : List UInt8) (swap : Bool) (out : List UInt8) :
    (encodeAscii text swap out).2.length = out.length := by
  have hfold : ∀ (l : List (UInt8 × ℕ)) (out : List UInt8),
      (l.foldl (fun out (c, i) => textBytePut out i swap c) out).length = out.length := by
    intro l
    induction l with
    | nil => exact fun out => rfl
    | cons c l ih => exact fun out => (ih _).trans (textBytePut_length ..)
  unfold encodeAscii
  split_ifs
  · rfl
  · exact hfold _ _

theorem encodeBcd_length (text : List UInt8) (swap : Bool) (out : List UInt8) :
    (encodeBcd text swap out).2.length = out.length := by
  unfold encodeBcd
  split_ifs
  · rfl
  · generalize out.length * 2 - text.length = pad
    have hfold : ∀ (l : List ℕ) (s : Bool × List UInt8), (l.foldl
        (fun s i =>
          if s.1 then
            match bcdByte text pad i with
            | none => (false, s.2)
            | some byte => (true, textBytePut s.2 i swap byte)
          else s) s).2.length = s.2.length := by
      intro l
      induction l with
      | nil => exact fun s => rfl
      | cons i l ih =>
        intro s
        rw [List.foldl_cons, ih]
        split_ifs
        · split
          · rfl
          · exact textBytePut_length ..
        · rfl
    exact hfold _ _

theorem overwrite_length {bytes out : List UInt8} (h : bytes.length ≤ out.length) :
    (overwrite bytes out).length = out.length := by
  unfold overwrite
  rw [List.length_append, List.length_drop]
  omega

theorem encodeDate_length {out : List UInt8} (h : 4 ≤ out.length) (text : List UInt8) :
    (encodeDate text out).2.length = out.length := by
  unfold encodeDate
  split
  · exact overwrite_length h
  · rfl

theorem encodeDatetime_length {out : List UInt8} (h : 12 ≤ out.length) (text : List UInt8) :
    (encodeDatetime text out).2.length = out.length := by
  unfold encodeDatetime
  dsimp only
  generalize (if (scanFields [45, 45, 84, 58, 58] text).length = 6 then
    scanFields [45, 45, 84, 58, 58] text else scanFields [45, 45, 32, 58, 58] text) = fields
  split_ifs with hfields
  · refine overwrite_length ?_
    have hflat : ∀ l : List ℤ, (l.flatMap fun k => [byteOf (k / 256), byteOf k]).length =
        2 * l.length := by
      intro l
      induction l with
      | nil => rfl
      | cons k l ih =>
        rw [List.flatMap_cons, List.length_append, ih, List.length_cons]
        simp only [List.length_cons, List.length_nil]
        omega
    rw [hflat, hfields]
    exact h
  · rfl

theorem encodeEpoch_length {format : DataFormat} {out : List UInt8}
    (h : formatSize format ≤ out.length) (text : List UInt8) :
    (encodeEpoch format text out).2.length = out.length := by
  unfold encodeEpoch
  split
  · split
    · rename_i hbytes
      exact overwrite_length ((encodeValue_length hbytes).trans_le h)
    · rfl
  · rfl

/-- A text channel as a parsed configuration leaves it: a format of fixed size has it. -/
def Channel.Sized (channel : Channel) : Prop :=
  formatSize channel.format = 0 ∨ channel.length = formatSize channel.format

instance (channel : Channel) : Decidable channel.Sized := inferInstanceAs (Decidable (_ ∨ _))

theorem encodeText_length_eq {channel : Channel} (h : channel.Sized) (text : List UInt8) {room : ℕ}
    (hroom : channel.length ≤ room) : (encodeText channel text room).2.length = channel.length := by
  have hclear : (List.replicate channel.length (0 : UInt8)).length = channel.length :=
    List.length_replicate
  unfold encodeText
  by_cases hnone : channel.length = 0 ∨ room < channel.length
  · rw [if_pos hnone, List.length_nil]
    omega
  · rw [if_neg hnone]
    dsimp only
    unfold Channel.Sized at h
    cases hformat : channel.format
    all_goals
      rw [hformat] at h
      dsimp only
    case ascii_ab | ascii_ba => exact (encodeAscii_length ..).trans hclear
    case bcd_ab | bcd_ba => exact (encodeBcd_length ..).trans hclear
    case version_ab | version_abcd =>
      have hversion := encodeVersion_length 1 channel.length text []
      refine (overwrite_length (hversion.trans ?_)).trans hclear
      rw [hclear]
      simp
    case version_regs =>
      have hversion := encodeVersion_length 2 (channel.length / 2) text []
      refine (overwrite_length (hversion.trans ?_)).trans hclear
      rw [hclear]
      simp only [List.length_nil, Nat.zero_add, if_true]
      exact Nat.div_mul_le_self ..
    case date_ymd_abcd =>
      have hfour : 4 ≤ (List.replicate channel.length (0 : UInt8)).length :=
        (h.resolve_left (by decide)).ge.trans_eq hclear.symm
      exact (encodeDate_length hfour text).trans hclear
    case datetime_regs =>
      have htwelve : 12 ≤ (List.replicate channel.length (0 : UInt8)).length :=
        (h.resolve_left (by decide)).ge.trans_eq hclear.symm
      exact (encodeDatetime_length htwelve text).trans hclear
    case epoch32_abcd | epoch32_badc =>
      have hfour : 4 ≤ (List.replicate channel.length (0 : UInt8)).length :=
        (h.resolve_left (by decide)).ge.trans_eq hclear.symm
      exact (encodeEpoch_length (by exact hfour) text).trans hclear
    all_goals exact hclear

theorem encodeText_length {channel : Channel} (h : channel.Sized) (text : List UInt8) (room : ℕ) :
    (encodeText channel text room).2.length ≤ channel.length := by
  by_cases hroom : channel.length ≤ room
  · exact (encodeText_length_eq h text hroom).le
  · unfold encodeText
    rw [if_pos (.inr (not_le.1 hroom))]
    exact Nat.zero_le _

end Modbusmq
