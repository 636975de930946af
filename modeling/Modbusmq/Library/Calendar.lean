import Mathlib.Tactic

/-!
# The calendar

Years, months and days of the Gregorian calendar, each counted from one.
-/

namespace Calendar

def LeapYear (year : ℤ) : Prop := year % 4 = 0 ∧ (year % 100 ≠ 0 ∨ year % 400 = 0)

instance : DecidablePred LeapYear := fun _ => inferInstanceAs (Decidable (_ ∧ _))

def monthDays (year month : ℤ) : ℤ :=
  if month = 2 then if LeapYear year then 29 else 28
  else if month = 4 ∨ month = 6 ∨ month = 9 ∨ month = 11 then 30
  else 31

structure IsDate (year month day : ℤ) : Prop where
  inYear : 1 ≤ month ∧ month ≤ 12
  first : 1 ≤ day
  last : day ≤ monthDays year month

theorem monthDays_le (year month : ℤ) : monthDays year month ≤ 31 := by
  unfold monthDays
  split_ifs <;> decide

example : IsDate 2024 2 29 ∧ ¬ IsDate 2100 2 29 :=
  ⟨⟨by decide, by decide, by decide⟩, fun h => absurd h.last (by decide)⟩

end Calendar
