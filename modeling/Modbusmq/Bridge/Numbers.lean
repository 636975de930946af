import Mathlib.Data.List.TakeWhile
import Modbusmq.Bridge.Payloads

/-!
# Numbers in a payload

What the C library promises of `strtod`, and a reader of plain decimal numbers
that keeps these promises.
-/

namespace Modbusmq

/-- A byte a number can begin with: white space, a sign, a point, a digit, or the first letter of
`inf` and `nan`. -/
def numeralHead (b : UInt8) : Bool :=
  (9 ≤ b ∧ b ≤ 13) ∨ b = 32 ∨ b = 43 ∨ b = 45 ∨ b = 46 ∨ (48 ≤ b ∧ b ≤ 57) ∨
    b = 73 ∨ b = 105 ∨ b = 78 ∨ b = 110

/-- The bytes that stand between numbers and after them: no number goes on with one. -/
def numeralEnd (b : UInt8) : Bool := blankByte [44, 93] b

/-- `strtod` takes the longest prefix that is a number. -/
structure StrtodContract (strtod : List UInt8 → Double × ℕ) : Prop where
  bounded : ∀ text, (strtod text).2 ≤ text.length
  /-- what it takes is that number by itself -/
  taken : ∀ text, 0 < (strtod text).2 → strtod (text.take (strtod text).2) = strtod text
  ended : ∀ text b rest, text ≠ [] → (strtod text).2 = text.length → numeralEnd b →
    strtod (text ++ b :: rest) = strtod text
  headed : ∀ b rest, 0 < (strtod (b :: rest)).2 → numeralHead b

/-- The text is one number, of this value. -/
def IsNumber (strtod : List UInt8 → Double × ℕ) (text : List UInt8) (value : Double) : Prop :=
  text ≠ [] ∧ strtod text = (value, text.length)

namespace StrtodContract

variable {strtod : List UInt8 → Double × ℕ} (h : StrtodContract strtod)
include h

theorem isNumber_taken {text : List UInt8} (hused : 0 < (strtod text).2) :
    IsNumber strtod (text.take (strtod text).2) (strtod text).1 := by
  have hle := h.bounded text
  have hlength : (text.take (strtod text).2).length = (strtod text).2 := by
    rw [List.length_take, Nat.min_eq_left hle]
  refine ⟨List.ne_nil_of_length_pos (by omega), ?_⟩
  rw [h.taken text hused, hlength]

theorem isNumber_ended {text : List UInt8} {value : Double} (hnumber : IsNumber strtod text value)
    {rest : List UInt8} (hrest : ∀ b ∈ rest.head?, numeralEnd b) :
    strtod (text ++ rest) = (value, text.length) := by
  obtain ⟨hne, hread⟩ := hnumber
  cases rest with
  | nil => rwa [List.append_nil]
  | cons b rest => rw [h.ended text b rest hne (by rw [hread]) (hrest b rfl), hread]

end StrtodContract

theorem IsNumber.headed {strtod : List UInt8 → Double × ℕ} (h : StrtodContract strtod)
    {text : List UInt8} {value : Double} (hnumber : IsNumber strtod text value) :
    ∃ b rest, text = b :: rest ∧ numeralHead b := by
  obtain ⟨hne, hread⟩ := hnumber
  obtain ⟨b, rest, rfl⟩ := List.exists_cons_of_ne_nil hne
  exact ⟨b, rest, rfl, h.headed b rest (by rw [hread]; simp)⟩

/-- A row of bytes of a kind, in front of a byte of another kind. -/
theorem span_append {p : UInt8 → Bool} {row tail : List UInt8} (hrow : ∀ b ∈ row, p b)
    (htail : ∀ b ∈ tail.head?, ¬ p b) :
    (row ++ tail).takeWhile p = row ∧ (row ++ tail).dropWhile p = tail := by
  rw [List.takeWhile_append_of_pos hrow, List.dropWhile_append_of_pos hrow]
  cases tail with
  | nil => exact ⟨List.append_nil row, rfl⟩
  | cons b tail =>
    have hb := htail b rfl
    rw [List.takeWhile_cons_of_neg hb, List.dropWhile_cons_of_neg hb]
    exact ⟨List.append_nil row, rfl⟩

def digitByte (b : UInt8) : Bool := 48 ≤ b ∧ b ≤ 57

def fraction : List UInt8 → List UInt8
  | [] => []
  | b :: rest => if b = 46 then b :: rest.takeWhile digitByte else []

/-- The value of a row of digits, with a point between them or not. -/
def digitsValue (whole fraction : List UInt8) : ℚ :=
  ((whole ++ fraction.tail).foldl (fun n b => n * 10 + (b.toNat - 48)) 0 : ℕ) /
    10 ^ fraction.tail.length

def plainSign (text : List UInt8) : List UInt8 := if text.head? = some 45 then [45] else []

def plainStrtod (text : List UInt8) : Double × ℕ :=
  let sign := plainSign text
  let whole := (text.drop sign.length).takeWhile digitByte
  let part := fraction ((text.drop sign.length).dropWhile digitByte)
  if whole = [] then (some 0, 0)
  else (some ((if sign = [] then 1 else -1) * digitsValue whole part),
    sign.length + whole.length + part.length)

/-- The parts of a text that begins with a number. -/
structure PlainParts (sign whole tail : List UInt8) : Prop where
  signed : sign = [] ∨ sign = [45]
  digits : ∀ b ∈ whole, digitByte b
  nonempty : whole ≠ []
  stops : ∀ b ∈ tail.head?, ¬ digitByte b

theorem plainStrtod_eq {sign whole tail : List UInt8} (h : PlainParts sign whole tail) :
    plainStrtod (sign ++ (whole ++ tail)) =
      (some ((if sign = [] then 1 else -1) * digitsValue whole (fraction tail)),
        sign.length + whole.length + (fraction tail).length) := by
  obtain ⟨htake, hdrop⟩ := span_append h.digits h.stops
  have hsign : plainSign (sign ++ (whole ++ tail)) = sign := by
    unfold plainSign
    rcases h.signed with rfl | rfl
    · obtain ⟨b, whole, rfl⟩ := List.exists_cons_of_ne_nil h.nonempty
      have hdigit := h.digits b List.mem_cons_self
      refine if_neg fun hminus => ?_
      obtain rfl : b = 45 := by simpa using hminus
      exact absurd hdigit (by decide)
    · rfl
  unfold plainStrtod
  dsimp only
  rw [hsign, List.drop_left, htake, hdrop, if_neg h.nonempty]

theorem plainStrtod_parts {text : List UInt8} (hused : 0 < (plainStrtod text).2) :
    ∃ sign whole tail, text = sign ++ (whole ++ tail) ∧ PlainParts sign whole tail := by
  have hwhole : (text.drop (plainSign text).length).takeWhile
      digitByte ≠ [] := by
    intro hnil
    unfold plainStrtod at hused
    dsimp only at hused
    rw [if_pos hnil] at hused
    exact absurd hused (Nat.lt_irrefl 0)
  have hsplit : text = plainSign text ++ text.drop (plainSign text).length := by
    unfold plainSign
    split_ifs with hminus
    · obtain ⟨b, rest, rfl⟩ :=
        List.exists_cons_of_ne_nil (l := text) (by rintro rfl; simp at hminus)
      obtain rfl : b = 45 := by simpa using hminus
      rfl
    · rfl
  refine ⟨plainSign text, (text.drop (plainSign text).length).takeWhile digitByte,
    (text.drop (plainSign text).length).dropWhile digitByte, ?_,
    ⟨?_, fun b hb => List.all_eq_true.1 List.all_takeWhile b hb, hwhole, ?_⟩⟩
  · rw [List.takeWhile_append_dropWhile]
    exact hsplit
  · unfold plainSign
    split_ifs
    · exact .inr rfl
    · exact .inl rfl
  · intro b hb
    have hnot := List.head?_dropWhile_not digitByte
      (text.drop (plainSign text).length)
    rw [Option.mem_def.1 hb] at hnot
    simpa using hnot

theorem fraction_initial (tail : List UInt8) : fraction tail <+: tail := by
  cases tail with
  | nil => exact List.prefix_rfl
  | cons b rest =>
    unfold fraction
    dsimp only
    split_ifs
    · exact (List.prefix_cons_inj b).2 (List.takeWhile_prefix digitByte)
    · exact List.nil_prefix

theorem fraction_fraction (tail : List UInt8) : fraction (fraction tail) = fraction tail := by
  cases tail with
  | nil => rfl
  | cons b rest =>
    by_cases hpoint : b = 46
    · simp only [fraction, hpoint, if_true, List.takeWhile_idem]
    · simp only [fraction, hpoint, if_false]

theorem fraction_head (tail : List UInt8) : ∀ b ∈ (fraction tail).head?, ¬ digitByte b := by
  intro b hb
  cases tail with
  | nil => exact absurd hb (by simp [fraction])
  | cons c rest =>
    by_cases hpoint : c = 46
    · obtain rfl : c = b := by simpa [fraction, hpoint] using hb
      rw [hpoint]
      decide
    · exact absurd hb (by simp [fraction, hpoint])

theorem numeralEnd_cases {b : UInt8} (hb : numeralEnd b) :
    b = 32 ∨ b = 9 ∨ b = 13 ∨ b = 10 ∨ b = 44 ∨ b = 93 := by
  simpa [numeralEnd, blankByte] using hb

theorem numeralEnd_digit {b : UInt8} (hb : numeralEnd b) : ¬ digitByte b ∧ b ≠ 46 := by
  rcases numeralEnd_cases hb with rfl | rfl | rfl | rfl | rfl | rfl <;> decide

theorem digitByte_head {b : UInt8} (hb : digitByte b) : numeralHead b := by
  unfold digitByte at hb
  unfold numeralHead
  rw [decide_eq_true_eq] at hb ⊢
  exact .inr (.inr (.inr (.inr (.inr (.inl hb)))))

theorem fraction_ended {tail : List UInt8} (htail : fraction tail = tail) {b : UInt8}
    (hb : numeralEnd b) (rest : List UInt8) : fraction (tail ++ b :: rest) = tail := by
  obtain ⟨hdigit, hpoint⟩ := numeralEnd_digit hb
  cases tail with
  | nil => simp [fraction, hpoint]
  | cons c tail =>
    have hc : c = 46 := by
      by_contra hno
      simp [fraction, hno] at htail
    have hdigits : tail.takeWhile digitByte = tail := by simpa [fraction, hc] using htail
    have hall : ∀ d ∈ tail, digitByte d := by
      rw [← hdigits]
      exact fun d hd => List.all_eq_true.1 List.all_takeWhile d hd
    simp only [fraction, List.cons_append, hc, if_true]
    have hstops : ∀ d ∈ (b :: rest).head?, ¬ digitByte d := by
      intro d hd
      rwa [← Option.some.inj hd]
    rw [(span_append hall hstops).1]

theorem plainStrtod_contract : StrtodContract plainStrtod where
  bounded text := by
    by_cases hused : 0 < (plainStrtod text).2
    · obtain ⟨sign, whole, tail, rfl, hparts⟩ := plainStrtod_parts hused
      have hle := (fraction_initial tail).length_le
      rw [plainStrtod_eq hparts]
      simp only [List.length_append]
      omega
    · omega
  taken text hused := by
    obtain ⟨sign, whole, tail, rfl, hparts⟩ := plainStrtod_parts hused
    have htaken : (sign ++ (whole ++ tail)).take
        (sign.length + whole.length + (fraction tail).length) =
          sign ++ (whole ++ fraction tail) := by
      obtain ⟨rest, hrest⟩ := fraction_initial tail
      have hlength : sign.length + whole.length + (fraction tail).length =
          (sign ++ (whole ++ fraction tail)).length := by
        simp only [List.length_append]
        omega
      rw [hlength]
      have hwhole : sign ++ (whole ++ tail) = sign ++ (whole ++ fraction tail) ++ rest := by
        rw [List.append_assoc, List.append_assoc, hrest]
      rw [hwhole, List.take_left]
    have hparts' : PlainParts sign whole (fraction tail) :=
      ⟨hparts.signed, hparts.digits, hparts.nonempty, fraction_head tail⟩
    rw [plainStrtod_eq hparts]
    dsimp only
    rw [htaken, plainStrtod_eq hparts', fraction_fraction]
  ended text b rest hne hwhole hb := by
    have hused : 0 < (plainStrtod text).2 := by
      rw [hwhole]
      exact List.length_pos_of_ne_nil hne
    obtain ⟨sign, whole, tail, rfl, hparts⟩ := plainStrtod_parts hused
    rw [plainStrtod_eq hparts] at hwhole ⊢
    have htail : fraction tail = tail := by
      refine (fraction_initial tail).eq_of_length ?_
      simp only [List.length_append] at hwhole
      omega
    have hends := fraction_ended htail hb rest
    have hparts' : PlainParts sign whole (tail ++ b :: rest) := by
      refine ⟨hparts.signed, hparts.digits, hparts.nonempty, fun c hc => ?_⟩
      cases tail with
      | nil =>
        obtain rfl : b = c := by simpa using hc
        exact (numeralEnd_digit hb).1
      | cons d tail => exact hparts.stops c (by simpa using hc)
    rw [List.append_assoc, List.append_assoc, plainStrtod_eq hparts', hends, htail]
  headed b rest hused := by
    obtain ⟨sign, whole, tail, htext, hparts⟩ := plainStrtod_parts hused
    rcases hparts.signed with rfl | rfl
    · obtain ⟨c, whole, rfl⟩ := List.exists_cons_of_ne_nil hparts.nonempty
      obtain rfl : b = c := by simpa using congrArg List.head? htext
      exact digitByte_head (hparts.digits b List.mem_cons_self)
    · obtain rfl : b = 45 := by simpa using congrArg List.head? htext
      decide

end Modbusmq
