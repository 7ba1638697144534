import DocQuery.Proofs.Text.FixedWidth

/-!
# The order of calendar days

`CalendarDay.ofDays` cuts the number of a day into an era of 400 years, a year of the era and a
day of the year, years beginning in March. `InEra` cuts a day of an era by hand instead, into
centuries, spans of four years, years and days. So a day lies in its year and not in the next
one (`exists_march`), and the dates of later days are later by year, month and day
(`compare_ofDays`).
-/
namespace DocQuery.CalendarDay

/-! ## Years that begin in March -/

/-- The days before a year, counted from the first day of the year 0. -/
def daysBefore (year : Int) : Int :=
  365 * year + year / 4 - year / 100 + year / 400

theorem daysBefore_mono {first second : Int} (le : first ≤ second) :
    daysBefore first ≤ daysBefore second := by
  unfold daysBefore
  omega

/-- A year has 365 days at least. -/
theorem daysBefore_succ (year : Int) : daysBefore year + 365 ≤ daysBefore (year + 1) := by
  unfold daysBefore
  omega

/-- The days before a year of an era. -/
theorem daysBefore_parts {century four year : Nat} (century_le : century ≤ 3) (four_le : four ≤ 24)
    (year_le : year ≤ 3) (era : Int) :
    daysBefore ((100 * century + 4 * four + year : Nat) + era * 400) =
      146097 * era + (36524 * century + 1461 * four + 365 * year : Nat) := by
  have fours : ((100 * century + 4 * four + year : Nat) + era * 400) / 4 =
      100 * era + 25 * century + four := by omega
  have centuries : ((100 * century + 4 * four + year : Nat) + era * 400) / 100 =
      4 * era + century := by omega
  have eras : ((100 * century + 4 * four + year : Nat) + era * 400) / 400 = era := by omega
  unfold daysBefore
  rw [fours, centuries, eras]
  omega

/-- The parts of the number of a day in an era: full centuries, full spans of four years, full
years, and the days since. Only the last year of a span has a day 365, and of the last span of
a century only the one that ends the era. -/
structure InEra (number century four year day : Nat) : Prop where
  sum : number = 36524 * century + 1461 * four + 365 * year + day
  century_le : century ≤ 3
  four_le : four ≤ 24
  year_le : year ≤ 3
  day_le : day ≤ 364 ∨ day = 365 ∧ year = 3 ∧ (four < 24 ∨ century = 3)

theorem exists_inEra {number : Nat} (inside : number < 146097) :
    ∃ century four year day, InEra number century four year day := by
  let century := min 3 (number / 36524)
  let afterCenturies := number - 36524 * century
  let four := afterCenturies / 1461
  let afterFours := afterCenturies - 1461 * four
  let year := min 3 (afterFours / 365)
  refine ⟨century, four, year, afterFours - 365 * year, ?_, ?_, ?_, ?_, ?_⟩ <;> omega

/-- A day of a year that begins in March. -/
def ofMarch (year : Int) (dayOfYear : Nat) : CalendarDay :=
  let marchMonth := (5 * dayOfYear + 2) / 153
  let month := if marchMonth < 10 then marchMonth + 3 else marchMonth - 9
  { year := if month ≤ 2 then year + 1 else year
    month := month
    day := dayOfYear - (153 * marchMonth + 2) / 5 + 1 }

namespace InEra

variable {number century four year day : Nat}

/-- Taking away the leap days leaves years of 365 days. -/
theorem yearOfEra (inEra : InEra number century four year day) :
    (number - number / 1460 + number / 36524 - number / 146096) / 365 =
      100 * century + 4 * four + year := by
  obtain ⟨sum, century_le, four_le, year_le, day_le⟩ := inEra
  have lost : number / 1460 =
      25 * century + four + (24 * century + four + 365 * year + day) / 1460 := by
    have cut : number = 1460 * (25 * century + four) + (24 * century + four + 365 * year + day) := by
      omega
    rw [cut, Nat.mul_add_div (by decide)]
  have gained : number / 36524 = century + number / 146096 := by
    have last : 1461 * four + 365 * year + day < 36524 ∨ number = 146096 ∧ century = 3 := by omega
    rcases last with inside | ⟨rfl, rfl⟩
    · omega
    · rfl
  have early : (24 * century + four + 365 * year + day) / 1460 ≤ day ∧
      day - (24 * century + four + 365 * year + day) / 1460 < 365 := by omega
  have years : number - number / 1460 + number / 36524 - number / 146096 =
      365 * (100 * century + 4 * four + year) +
        (day - (24 * century + four + 365 * year + day) / 1460) := by omega
  rw [years, Nat.mul_add_div (by decide), Nat.div_eq_of_lt early.2, Nat.add_zero]

theorem ofDays_eq (inEra : InEra number century four year day) (era : Int) :
    ofDays (146097 * era + number - 719468) =
      ofMarch ((100 * century + 4 * four + year : Nat) + era * 400) day := by
  have year_le := inEra.year_le
  have four_le := inEra.four_le
  have sum := inEra.sum
  have small : number < 146097 := by
    have century_le := inEra.century_le
    have day_le := inEra.day_le
    omega
  have shifted : 146097 * era + number - 719468 + 719468 = number + 146097 * era := by omega
  have eras : (number + 146097 * era) / 146097 = era := by omega
  have inside : ((number + 146097 * era) % 146097).toNat = number := by omega
  have fours : (100 * century + 4 * four + year) / 4 = 25 * century + four := by omega
  have centuries : (100 * century + 4 * four + year) / 100 = century := by omega
  have dayOfYear : number - (365 * (100 * century + 4 * four + year) + (25 * century + four) - century) =
      day := by omega
  simp only [ofDays, shifted, eras, inside, inEra.yearOfEra, fours, centuries, dayOfYear, ofMarch]

theorem daysBefore_add (inEra : InEra number century four year day) (era : Int) :
    daysBefore ((100 * century + 4 * four + year : Nat) + era * 400) + day =
      146097 * era + number := by
  rw [daysBefore_parts inEra.century_le inEra.four_le inEra.year_le, inEra.sum]
  omega

theorem lt_daysBefore (inEra : InEra number century four year day) (era : Int) :
    146097 * era + number <
      daysBefore ((100 * century + 4 * four + year : Nat) + era * 400 + 1) := by
  have here := inEra.daysBefore_add era
  obtain ⟨sum, century_le, four_le, year_le, day_le⟩ := inEra
  rcases day_le with short | ⟨rfl, rfl, long⟩
  · have next := daysBefore_succ ((100 * century + 4 * four + year : Nat) + era * 400)
    omega
  -- A year with a day 365 ends a span of four years, or the era.
  rcases Nat.lt_or_eq_of_le four_le with inner | rfl
  · have next := daysBefore_parts century_le (Nat.succ_le_of_lt inner) (Nat.zero_le 3) era
    have year : ((100 * century + 4 * four + 3 : Nat) + era * 400 + 1 : Int) =
        (100 * century + 4 * (four + 1) + 0 : Nat) + era * 400 := by omega
    rw [year, next]
    omega
  · obtain rfl : century = 3 := by omega
    have next := daysBefore_parts (Nat.zero_le 3) (Nat.zero_le 24) (Nat.zero_le 3) (era + 1)
    have year : ((100 * 3 + 4 * 24 + 3 : Nat) + era * 400 + 1 : Int) =
        (100 * 0 + 4 * 0 + 0 : Nat) + (era + 1) * 400 := by omega
    rw [year, next]
    omega

end InEra

/-- A day lies in one year that begins in March. -/
theorem exists_march (days : Int) :
    ∃ (year : Int) (dayOfYear : Nat), ofDays days = ofMarch year dayOfYear ∧ dayOfYear ≤ 365 ∧
      days + 719468 = daysBefore year + dayOfYear ∧ days + 719468 < daysBefore (year + 1) := by
  have inside : ((days + 719468) % 146097).toNat < 146097 := by omega
  obtain ⟨century, four, year, day, inEra⟩ := exists_inEra inside
  have cut : days = 146097 * ((days + 719468) / 146097) + ((days + 719468) % 146097).toNat - 719468 := by
    omega
  generalize (days + 719468) / 146097 = era at cut
  generalize ((days + 719468) % 146097).toNat = number at cut inEra
  have here := inEra.daysBefore_add era
  have next := inEra.lt_daysBefore era
  have day_le := inEra.day_le
  subst cut
  exact ⟨_, day, inEra.ofDays_eq era, by omega, by omega, by omega⟩

/-! ## Dates -/

/-- The order of dates by year, month and day. -/
def compareDate (a b : CalendarDay) : Ordering :=
  (compare a.year b.year).then ((compare a.month b.month).then (compare a.day b.day))

/-- A month of the year and a day of a month, as far as their numbers go. -/
structure Bounded (date : CalendarDay) : Prop where
  month_pos : 1 ≤ date.month
  month_le : date.month ≤ 12
  day_pos : 1 ≤ date.day
  day_le : date.day ≤ 31

theorem bounded_ofMarch (year : Int) {dayOfYear : Nat} (inside : dayOfYear ≤ 365) :
    (ofMarch year dayOfYear).Bounded := by
  have months : (5 * dayOfYear + 2) / 153 < 12 := by omega
  constructor <;> simp only [ofMarch]
  · split <;> omega
  · split <;> omega
  · omega
  · omega

theorem bounded_ofDays (days : Int) : (ofDays days).Bounded := by
  obtain ⟨year, dayOfYear, date, inside, -, -⟩ := exists_march days
  rw [date]
  exact bounded_ofMarch year inside

/-- A number of dates in their order, with room for the numbers of months and days. -/
def index (date : CalendarDay) : Int :=
  32 * (13 * date.year + date.month) + date.day

theorem compareDate_eq_index {a b : CalendarDay} (boundedA : a.Bounded) (boundedB : b.Bounded) :
    a.compareDate b = compare a.index b.index := by
  have month {date : CalendarDay} (bounded : date.Bounded) :
      0 ≤ (date.month : Int) ∧ (date.month : Int) < 13 := by
    have month_le := bounded.month_le
    omega
  have day {date : CalendarDay} (bounded : date.Bounded) :
      0 ≤ (date.day : Int) ∧ (date.day : Int) < 32 := by
    have day_le := bounded.day_le
    omega
  rw [index, index, compare_places (day boundedA) (day boundedB),
    compare_places (month boundedA) (month boundedB), compare_natCast, compare_natCast,
    Ordering.then_assoc]
  rfl

theorem index_ofMarch_of_year {first second : Int} {p q : Nat} (earlier : first < second)
    (insideP : p ≤ 365) (insideQ : q ≤ 365) : (ofMarch first p).index < (ofMarch second q).index := by
  simp only [index, ofMarch]
  split <;> split <;> split <;> split <;> omega

theorem index_ofMarch_of_day {year : Int} {p q : Nat} (earlier : p < q) (inside : q ≤ 365) :
    (ofMarch year p).index < (ofMarch year q).index := by
  have dayP := (bounded_ofMarch year (Nat.le_trans (Nat.le_of_lt earlier) inside)).day_le
  have dayQ := (bounded_ofMarch year inside).day_le
  have months : (5 * p + 2) / 153 ≤ (5 * q + 2) / 153 := Nat.div_le_div_right (by omega)
  simp only [index, ofMarch] at dayP dayQ ⊢
  rcases Nat.lt_or_eq_of_le months with less | same
  · split <;> split <;> split <;> split <;> omega
  · rw [same]
    omega

/-- Later days have later dates. -/
theorem index_ofDays_lt {first second : Int} (earlier : first < second) :
    (ofDays first).index < (ofDays second).index := by
  obtain ⟨y, p, dateP, insideP, startP, -⟩ := exists_march first
  obtain ⟨z, q, dateQ, insideQ, startQ, endQ⟩ := exists_march second
  rw [dateP, dateQ]
  have years : y ≤ z := by
    apply Int.not_lt.mp
    intro later
    have between := daysBefore_mono (Int.add_one_le_of_lt later)
    omega
  rcases Int.lt_or_eq_of_le years with less | rfl
  · exact index_ofMarch_of_year less insideP insideQ
  · exact index_ofMarch_of_day (by omega) insideQ

/-- Dates are ordered as days are. -/
theorem compare_ofDays (first second : Int) :
    (ofDays first).compareDate (ofDays second) = compare first second := by
  rw [compareDate_eq_index (bounded_ofDays first) (bounded_ofDays second)]
  rcases Int.lt_trichotomy first second with less | rfl | greater
  · rw [Int.compare_eq_lt.mpr less, Int.compare_eq_lt.mpr (index_ofDays_lt less)]
  · rw [Int.compare_eq_eq.mpr rfl, Int.compare_eq_eq.mpr rfl]
  · rw [Int.compare_eq_gt.mpr greater, Int.compare_eq_gt.mpr (index_ofDays_lt greater)]

end DocQuery.CalendarDay
