import Mathlib.Tactic

/-!
# Flat JSON objects

The bytes of a JSON object whose members are strings and natural numbers, with
no blanks between its tokens. The body of a string is read byte by byte: one
from 0x80 on is an ordinary character of it.
-/

namespace Json

/-- A byte between double quotes may not be one of these by itself. -/
def Plain (b : UInt8) : Prop := 32 ≤ b ∧ b ≠ 34 ∧ b ≠ 92

instance (b : UInt8) : Decidable (Plain b) := inferInstanceAs (Decidable (_ ∧ _))

def hexValue (b : UInt8) : Option ℕ :=
  if 48 ≤ b ∧ b ≤ 57 then some (b.toNat - 48)
  else if 97 ≤ b ∧ b ≤ 102 then some (b.toNat - 87)
  else if 65 ≤ b ∧ b ≤ 70 then some (b.toNat - 55)
  else none

/-- What the letter behind a backslash stands for. -/
def shortEscape (b : UInt8) : Option UInt8 :=
  if b = 34 ∨ b = 92 ∨ b = 47 then some b
  else if b = 98 then some 8
  else if b = 102 then some 12
  else if b = 110 then some 10
  else if b = 114 then some 13
  else if b = 116 then some 9
  else none

/-- The byte of a four digit escape, which has to be below 0x80. -/
def codeEscape (h₁ h₂ h₃ h₄ : UInt8) : Option UInt8 := do
  let n := ((← hexValue h₁) * 16 + (← hexValue h₂)) * 256 + (← hexValue h₃) * 16 + (← hexValue h₄)
  if n < 128 then some (UInt8.ofNat n) else none

/-- The bytes a string body stands for; none where it is ill-formed. -/
def unescape : List UInt8 → Option (List UInt8)
  | [] => some []
  | 92 :: 117 :: h₁ :: h₂ :: h₃ :: h₄ :: rest => do
    let b ← codeEscape h₁ h₂ h₃ h₄
    return b :: (← unescape rest)
  | 92 :: letter :: rest => do
    let b ← shortEscape letter
    return b :: (← unescape rest)
  | b :: rest => if Plain b then (unescape rest).map (b :: ·) else none

/-- A natural number as JSON writes it. -/
def IsNumber (digits : List UInt8) : Prop :=
  digits ≠ [] ∧ (∀ b ∈ digits, 48 ≤ b ∧ b ≤ 57) ∧ (digits.head? = some 48 → digits = [48])

/-- A value, as it is written: the body of a string, or the digits of a number. -/
inductive Value
  | string (body : List UInt8)
  | number (digits : List UInt8)
  deriving DecidableEq

def Value.text : Value → List UInt8
  | string body => 34 :: body ++ [34]
  | number digits => digits

def Value.WellFormed : Value → Prop
  | string body => ∃ bytes, unescape body = some bytes
  | number digits => IsNumber digits

structure Member where
  key : List UInt8
  value : Value
  deriving DecidableEq

def Member.text (m : Member) : List UInt8 := 34 :: m.key ++ [34, 58] ++ m.value.text

def objectText (members : List Member) : List UInt8 :=
  [123] ++ [44].intercalate (members.map Member.text) ++ [125]

/-- The text is one JSON object with these members, and nothing stands behind it. -/
structure IsObject (text : List UInt8) (members : List Member) : Prop where
  text : text = objectText members
  keys : ∀ m ∈ members, ∃ bytes, unescape m.key = some bytes
  values : ∀ m ∈ members, m.value.WellFormed

@[simp] theorem unescape_nil : unescape [] = some [] := rfl

theorem unescape_plain {b : UInt8} (h : Plain b) (rest : List UInt8) :
    unescape (b :: rest) = (unescape rest).map (b :: ·) := by
  have hb : b ≠ 92 := h.2.2
  simp [unescape, hb, h]

theorem unescape_short {letter b : UInt8} (h : shortEscape letter = some b) (rest : List UInt8) :
    unescape (92 :: letter :: rest) = (unescape rest).map (b :: ·) := by
  have hletter : letter ≠ 117 := by
    rintro rfl
    exact nomatch h
  cases hrest : unescape rest <;> simp [unescape, hletter, h, hrest]

theorem unescape_code {h₁ h₂ h₃ h₄ b : UInt8} (h : codeEscape h₁ h₂ h₃ h₄ = some b)
    (rest : List UInt8) :
    unescape (92 :: 117 :: h₁ :: h₂ :: h₃ :: h₄ :: rest) = (unescape rest).map (b :: ·) := by
  cases hrest : unescape rest <;> simp [unescape, h, hrest]

theorem unescape_append {s t bytes bytes' : List UInt8} (h : unescape s = some bytes)
    (ht : unescape t = some bytes') : unescape (s ++ t) = some (bytes ++ bytes') := by
  induction s using unescape.induct generalizing bytes with
  | case1 =>
    obtain rfl : [] = bytes := Option.some.inj h
    exact ht
  | case2 h₁ h₂ h₃ h₄ rest ih =>
    cases hcode : codeEscape h₁ h₂ h₃ h₄ with
    | none => simp [unescape, hcode] at h
    | some b =>
      rw [unescape_code hcode] at h
      obtain ⟨tail, htail, rfl⟩ := Option.map_eq_some_iff.1 h
      simp only [List.cons_append]
      rw [unescape_code hcode, ih htail, Option.map_some]
  | case3 letter rest hcode ih =>
    cases hshort : shortEscape letter with
    | none => simp [unescape, hshort] at h
    | some b =>
      rw [unescape_short hshort] at h
      obtain ⟨tail, htail, rfl⟩ := Option.map_eq_some_iff.1 h
      simp only [List.cons_append]
      rw [unescape_short hshort, ih htail, Option.map_some]
  | case4 b rest _ _ hplain ih =>
    rw [unescape_plain hplain] at h
    obtain ⟨tail, htail, rfl⟩ := Option.map_eq_some_iff.1 h
    simp only [List.cons_append]
    rw [unescape_plain hplain, ih htail, Option.map_some]
  | case5 b rest _ _ hplain => simp [unescape, hplain] at h

theorem unescape_flatMap {spell : UInt8 → List UInt8} (h : ∀ b, unescape (spell b) = some [b])
    (bytes : List UInt8) : unescape (bytes.flatMap spell) = some bytes := by
  induction bytes with
  | nil => rfl
  | cons b bytes ih => exact unescape_append (h b) ih

/-- The members of an object, all but the first behind a comma. -/
theorem objectText_cons (m : Member) (members : List Member) :
    objectText (m :: members) =
      123 :: m.text ++ members.flatMap (fun m => 44 :: m.text) ++ [125] := by
  have hcommas : ∀ (text : List UInt8) (members : List Member),
      [44].intercalate (text :: members.map Member.text) =
        text ++ members.flatMap fun m => 44 :: m.text := by
    intro text members
    induction members generalizing text with
    | nil => simp
    | cons m members ih =>
      rw [List.map_cons, List.intercalate_cons_cons, ih, List.flatMap_cons]
      simp
  rw [objectText, List.map_cons, hcommas]
  rfl

def ascii (text : List Char) : List UInt8 := text.map fun ch => UInt8.ofNat ch.toNat

@[simp] theorem length_ascii (text : List Char) : (ascii text).length = text.length :=
  List.length_map _

theorem head_toDigits (n : ℕ) (hn : 0 < n) : (Nat.toDigits 10 n).head? ≠ some '0' := by
  induction n using Nat.strong_induction_on with
  | _ n ih =>
    rw [Nat.toDigits_eq_if (by decide)]
    split_ifs with h
    · interval_cases n <;> decide
    · have hrec := ih (n / 10) (by omega) (by omega)
      rw [List.head?_append]
      cases hdigits : Nat.toDigits 10 (n / 10) with
      | nil => exact absurd hdigits Nat.toDigits_ne_nil
      | cons d digits =>
        rw [hdigits] at hrec
        exact hrec

theorem toNat_digit {ch : Char} (h : ch.isDigit) :
    (48 ≤ ch.toNat ∧ ch.toNat ≤ 57) ∧ (UInt8.ofNat ch.toNat).toNat = ch.toNat := by
  simp only [Char.isDigit, Bool.and_eq_true, decide_eq_true_eq] at h
  have hcode : 48 ≤ ch.toNat ∧ ch.toNat ≤ 57 := h
  exact ⟨hcode, UInt8.toNat_ofNat_of_lt' (lt_of_le_of_lt hcode.2 (by decide))⟩

theorem isNumber_toDigits (n : ℕ) : IsNumber (ascii (Nat.toDigits 10 n)) := by
  have hdigits : ∀ ch ∈ Nat.toDigits 10 n, ch.isDigit := fun ch =>
    Nat.isDigit_of_mem_toDigits (by decide) (by decide)
  refine ⟨fun h => Nat.toDigits_ne_nil (List.map_eq_nil_iff.1 h), ?_, fun hzero => ?_⟩
  · intro b hb
    obtain ⟨ch, hch, rfl⟩ := List.mem_map.1 hb
    obtain ⟨hcode, hbyte⟩ := toNat_digit (hdigits ch hch)
    rw [UInt8.le_iff_toNat_le, UInt8.le_iff_toNat_le, hbyte]
    exact hcode
  · rcases Nat.eq_zero_or_pos n with rfl | hn
    · rfl
    · have hhead := head_toDigits n hn
      cases hlist : Nat.toDigits 10 n with
      | nil => exact absurd hlist Nat.toDigits_ne_nil
      | cons ch digits =>
        rw [hlist] at hzero hhead
        obtain ⟨-, hbyte⟩ := toNat_digit (hdigits ch (by simp [hlist]))
        have hch : ch.toNat = 48 := hbyte ▸ congrArg UInt8.toNat (Option.some.inj hzero)
        exact absurd (congrArg some (Char.toNat_inj.1 hch)) hhead

end Json
