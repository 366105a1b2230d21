/-
# Moments and months

A `datetime` in UTC, by its fields. Months are added field by field, and the day
is cut to the last of the month; days are added one by one. Either leads to a
later moment (`lt_addMonths`, `lt_addDays`), and moments are in order as their
`ordinal`s are, which count every month as one of 31 days.

Key definitions: `DateTime`, `addMonths`, `addDays`.
Key theorems: `lt_addMonths`, `lt_addDays`.
-/
import Mathlib.Order.Basic
import Mathlib.Order.Lattice
import Mathlib.Data.Nat.Notation

namespace FlexyVotes
namespace Billing

/-- `calendar.isleap`. -/
def isleap (year : ℕ) : Bool := year % 4 = 0 && (year % 100 ≠ 0 || year % 400 = 0)

/-- The days of `calendar.monthrange`. -/
def monthrange (year month : ℕ) : ℕ :=
  if month = 2 then (if isleap year then 29 else 28)
  else if month = 4 ∨ month = 6 ∨ month = 9 ∨ month = 11 then 30
  else 31

theorem monthrange_bounds (year month : ℕ) : 28 ≤ monthrange year month ∧ monthrange year month ≤ 31 := by
  unfold monthrange
  split
  · split <;> omega
  · split <;> omega

/-- A day, in microseconds. -/
def DAY : ℕ := 86400000000

/-- `datetime`, in UTC. -/
structure DateTime where
  year : ℕ
  month : ℕ
  day : ℕ
  /-- Since midnight. -/
  micros : ℕ := 0
  month_bounds : 1 ≤ month ∧ month ≤ 12
  day_bounds : 1 ≤ day ∧ day ≤ monthrange year month
  micros_lt : micros < DAY
deriving DecidableEq

namespace DateTime

/-- Where the moment stands among all. -/
def ordinal (t : DateTime) : ℕ := ((t.year * 12 + (t.month - 1)) * 31 + (t.day - 1)) * DAY + t.micros

theorem ordinal_injective : Function.Injective ordinal := by
  rintro ⟨y, m, d, μ, ⟨hm, hm'⟩, ⟨hd, hd'⟩, hμ⟩ ⟨y', m', d', μ', ⟨km, km'⟩, ⟨kd, kd'⟩, kμ⟩ h
  have hb := (monthrange_bounds y m).2
  have kb := (monthrange_bounds y' m').2
  unfold ordinal DAY at h
  unfold DAY at hμ kμ
  dsimp only at *
  obtain ⟨rfl, rfl, rfl, rfl⟩ : y = y' ∧ m = m' ∧ d = d' ∧ μ = μ' := by omega
  rfl

instance : LinearOrder DateTime := LinearOrder.lift' ordinal ordinal_injective

theorem lt_def {t u : DateTime} : t < u ↔ t.ordinal < u.ordinal := Iff.rfl

end DateTime

/-- `_add_months`. -/
def addMonths (t : DateTime) (months : ℕ) : DateTime :=
  let month := t.month - 1 + months
  let year := t.year + month / 12
  { year := year
    month := month % 12 + 1
    day := min t.day (monthrange year (month % 12 + 1))
    micros := t.micros
    month_bounds := by omega
    day_bounds := by
      have := (monthrange_bounds year (month % 12 + 1)).1
      have := t.day_bounds.1
      omega
    micros_lt := t.micros_lt }

/-- The same time of the next day. -/
def nextDay (t : DateTime) : DateTime :=
  if h : t.day < monthrange t.year t.month then
    { t with day := t.day + 1, day_bounds := by omega }
  else if hm : t.month < 12 then
    { t with
      month := t.month + 1
      day := 1
      month_bounds := by omega
      day_bounds := ⟨le_rfl, by have := (monthrange_bounds t.year (t.month + 1)).1; omega⟩ }
  else
    { t with
      year := t.year + 1
      month := 1
      day := 1
      month_bounds := by decide
      day_bounds := ⟨le_rfl, by have := (monthrange_bounds (t.year + 1) 1).1; omega⟩ }

/-- `+ timedelta(days=…)`. -/
def addDays (t : DateTime) : ℕ → DateTime
  | 0 => t
  | n + 1 => nextDay (addDays t n)

theorem lt_addMonths (t : DateTime) {months : ℕ} (h : 0 < months) : t < addMonths t months := by
  have hday : t.day ≤ 31 := t.day_bounds.2.trans (monthrange_bounds _ _).2
  have hmonth := t.month_bounds
  have hmicros := t.micros_lt
  rw [DateTime.lt_def]
  unfold DateTime.ordinal addMonths DAY at *
  dsimp only
  omega

theorem lt_nextDay (t : DateTime) : t < nextDay t := by
  have hday : t.day ≤ 31 := t.day_bounds.2.trans (monthrange_bounds _ _).2
  have hday' := t.day_bounds.1
  have hmonth := t.month_bounds
  have hmicros := t.micros_lt
  rw [DateTime.lt_def]
  unfold nextDay
  split
  · unfold DateTime.ordinal DAY at *
    dsimp only
    omega
  · split
    · unfold DateTime.ordinal DAY at *
      dsimp only
      omega
    · unfold DateTime.ordinal DAY at *
      dsimp only
      omega

theorem lt_addDays (t : DateTime) : ∀ {n : ℕ}, 0 < n → t < addDays t n
  | 1, _ => lt_nextDay t
  | n + 2, _ => (lt_addDays t n.succ_pos).trans (lt_nextDay _)

end Billing
end FlexyVotes
