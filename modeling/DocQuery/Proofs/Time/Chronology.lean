import DocQuery.Expr.Literal
import DocQuery.Proofs.Condition.Comparisons
import DocQuery.Proofs.Document.Numbers
import DocQuery.Proofs.Time.Calendar

/-!
# Chronological order of written instants

The written form of an instant has its numbers at fixed widths, from the year to the
millisecond, so written instants are compared by these numbers in turn. For years of four digits
this is the order in time, a leap second lying behind the second that it follows and before the
next one (`compare_millisText`). So conditions and sorts on date constants follow time
(`dates_compare`).
-/
namespace DocQuery

namespace Instant

/-! ## Time -/

/-- The order of instants in time. A leap second is counted in the second that it follows. -/
def compareTime (a b : Instant) : Ordering :=
  (compare a.seconds b.seconds).then (compare a.nanos b.nanos)

/-- The instant at the start of its millisecond. -/
def toMillis (t : Instant) : Instant where
  seconds := t.seconds
  nanos := t.nanos / 1000000 * 1000000
  nanos_valid := by
    have valid := t.nanos_valid
    omega

/-- The year has four digits at most. -/
def HasPlainYear (t : Instant) : Prop :=
  0 ≤ t.calendarDay.year ∧ t.calendarDay.year ≤ 9999

instance (t : Instant) : Decidable t.HasPlainYear :=
  inferInstanceAs (Decidable (_ ∧ _))

theorem compareTime_toMillis (a b : Instant) :
    a.toMillis.compareTime b.toMillis =
      (compare a.seconds b.seconds).then (compare (a.nanos / 1000000) (b.nanos / 1000000)) := by
  have millis : compare (a.nanos / 1000000 * 1000000) (b.nanos / 1000000 * 1000000) =
      compare (a.nanos / 1000000) (b.nanos / 1000000) := by
    apply eq_of_ordering
    · rw [Nat.compare_eq_lt, Nat.compare_eq_lt]
      omega
    · rw [Nat.compare_eq_eq, Nat.compare_eq_eq]
      omega
  rw [compareTime, ← millis]
  rfl

/-- Instants are ordered by their dates and then by the time of day. -/
theorem compare_seconds (a b : Instant) :
    compare a.seconds b.seconds =
      (a.calendarDay.compareDate b.calendarDay).then (compare a.secondOfDay b.secondOfDay) := by
  have inside (t : Instant) : 0 ≤ (t.secondOfDay : Int) ∧ (t.secondOfDay : Int) < 86400 := by
    unfold secondOfDay
    omega
  have whole (t : Instant) : 86400 * (t.seconds / 86400) + (t.secondOfDay : Int) = t.seconds := by
    unfold secondOfDay
    omega
  rw [calendarDay, calendarDay, CalendarDay.compare_ofDays, ← compare_natCast,
    ← compare_places (inside a) (inside b), whole, whole]

/-! ## Written numbers -/

def hour (t : Instant) : Nat := t.secondOfDay / 60 / 60

def minute (t : Instant) : Nat := t.secondOfDay / 60 % 60

/-- The second of the minute as it is written, up to 60. -/
def second (t : Instant) : Nat := t.secondOfDay % 60 + if t.isLeap then 1 else 0

/-- The millisecond of the written second. -/
def millis (t : Instant) : Nat := t.subsecond / 1000000

theorem compare_secondOfDay (a b : Instant) :
    compare a.secondOfDay b.secondOfDay =
      (compare a.hour b.hour).then ((compare a.minute b.minute).then
        (compare (a.secondOfDay % 60) (b.secondOfDay % 60))) := by
  rw [← compare_div_mod (by decide : 0 < 60) a.secondOfDay,
    ← compare_div_mod (by decide : 0 < 60) (a.secondOfDay / 60), Ordering.then_assoc]
  rfl

/-- The written second and millisecond; a leap second is behind the last second of a minute. -/
theorem second_cases (t : Instant) :
    (t.second = t.secondOfDay % 60 ∧ t.secondOfDay % 60 < 60 ∧ t.millis = t.nanos / 1000000 ∧
        t.millis < 1000) ∨
      (t.second = 60 ∧ t.secondOfDay % 60 = 59 ∧ 1000 + t.millis = t.nanos / 1000000 ∧
        t.millis < 1000) := by
  have valid := t.nanos_valid
  unfold second millis subsecond secondOfDay
  cases leap : t.isLeap with
  | false =>
    have ordinary : t.nanos < 1000000000 := Nat.lt_of_not_le (of_decide_eq_false leap)
    refine .inl ⟨rfl, Nat.mod_lt _ (by decide), rfl, ?_⟩
    simp only [Bool.false_eq_true, if_false]
    omega
  | true =>
    have long : 1000000000 ≤ t.nanos := of_decide_eq_true leap
    simp only [if_true]
    omega

/-- A leap second ends its minute, so counting it in the second before gives the same order. -/
theorem compare_second_millis (a b : Instant) :
    (compare a.second b.second).then (compare a.millis b.millis) =
      (compare (a.secondOfDay % 60) (b.secondOfDay % 60)).then
        (compare (a.nanos / 1000000) (b.nanos / 1000000)) := by
  apply eq_of_ordering
  · simp only [Ordering.then_eq_lt, Nat.compare_eq_lt, Nat.compare_eq_eq]
    rcases a.second_cases with ordinary | leap <;> rcases b.second_cases with other | otherLeap <;>
      omega
  · simp only [Ordering.then_eq_eq, Nat.compare_eq_eq]
    rcases a.second_cases with ordinary | leap <;> rcases b.second_cases with other | otherLeap <;>
      omega

/-- The numbers of a written instant fit their widths. -/
structure Fits (t : Instant) : Prop where
  month : t.calendarDay.month < 10 ^ 2
  day : t.calendarDay.day < 10 ^ 2
  hour : t.hour < 10 ^ 2
  minute : t.minute < 10 ^ 2
  second : t.second < 10 ^ 2
  millis : t.millis < 10 ^ 3

theorem fits (t : Instant) : t.Fits := by
  have date := CalendarDay.bounded_ofDays (t.seconds / 86400)
  have inside : t.secondOfDay < 86400 := by
    unfold secondOfDay
    omega
  refine ⟨Nat.lt_of_le_of_lt date.month_le (by decide), Nat.lt_of_le_of_lt date.day_le (by decide),
    ?_, ?_, ?_, ?_⟩
  · unfold hour
    omega
  · unfold minute
    omega
  · rcases t.second_cases with ordinary | leap <;> omega
  · rcases t.second_cases with ordinary | leap <;> omega

/-- The written form, number by number. -/
theorem millisText_eq {t : Instant} (plain : t.HasPlainYear) :
    t.millisText = String.ofList (zeroPadded 4 t.calendarDay.year.toNat ++
      '-' :: (zeroPadded 2 t.calendarDay.month ++ '-' :: (zeroPadded 2 t.calendarDay.day ++
      'T' :: (zeroPadded 2 t.hour ++ ':' :: (zeroPadded 2 t.minute ++
      ':' :: (zeroPadded 2 t.second ++ '.' :: (zeroPadded 3 t.millis ++ ['Z']))))))) := by
  have hours : t.secondOfDay / 3600 = t.hour := by
    rw [hour, Nat.div_div_eq_div_mul]
  have years := plain
  unfold HasPlainYear at years
  simp only [millisText, secondText, yearText, if_pos years, hours, List.append_assoc, List.cons_append]
  rfl

/-- Written instants are ordered in time, to the millisecond. -/
theorem compare_millisText {a b : Instant} (plainA : a.HasPlainYear) (plainB : b.HasPlainYear) :
    compare a.millisText b.millisText = a.toMillis.compareTime b.toMillis := by
  have yearFits {t : Instant} (plain : t.HasPlainYear) : t.calendarDay.year.toNat < 10 ^ 4 := by
    have last := plain.2
    omega
  have years : compare a.calendarDay.year.toNat b.calendarDay.year.toNat =
      compare a.calendarDay.year b.calendarDay.year := by
    rw [← compare_natCast, Int.toNat_of_nonneg plainA.1, Int.toNat_of_nonneg plainB.1]
  have fitsA := a.fits
  have fitsB := b.fits
  calc compare a.millisText b.millisText
      = (compare a.calendarDay.year b.calendarDay.year).then
          ((compare a.calendarDay.month b.calendarDay.month).then
          ((compare a.calendarDay.day b.calendarDay.day).then
          ((compare a.hour b.hour).then ((compare a.minute b.minute).then
          ((compare a.second b.second).then (compare a.millis b.millis)))))) := by
        rw [millisText_eq plainA, millisText_eq plainB,
          compare_field (yearFits plainA) (yearFits plainB), years,
          compare_field fitsA.month fitsB.month, compare_field fitsA.day fitsB.day,
          compare_field fitsA.hour fitsB.hour, compare_field fitsA.minute fitsB.minute,
          compare_field fitsA.second fitsB.second, compare_field fitsA.millis fitsB.millis,
          Std.ReflOrd.compare_self, Ordering.then_eq]
    _ = (a.calendarDay.compareDate b.calendarDay).then ((compare a.secondOfDay b.secondOfDay).then
          (compare (a.nanos / 1000000) (b.nanos / 1000000))) := by
        rw [compare_second_millis, compare_secondOfDay, CalendarDay.compareDate]
        simp only [Ordering.then_assoc]
    _ = a.toMillis.compareTime b.toMillis := by
        rw [compareTime_toMillis, compare_seconds, Ordering.then_assoc]

end Instant

/-- Extended values of one tag are ordered by their texts. -/
theorem Json.compareLike_wrapped {tag : String} (tagged : tag ∈ extendedTags) (x y : String) :
    (Literal.wrapped tag x).compareLike (Literal.wrapped tag y) = some (compare x y) := by
  simp only [Literal.wrapped, compareLike, extended?, if_pos tagged, if_true]

theorem Json.compareForSort_wrapped {tag : String} (tagged : tag ∈ extendedTags) (x y : String) :
    compareForSort (some (Literal.wrapped tag x)) (some (Literal.wrapped tag y)) = compare x y := by
  have isExtended (text : String) : (Json.obj [(tag, .str text)]).isExtended = true := by
    simp only [Json.isExtended, extended?, if_pos tagged, Option.isSome_some]
  have compared := compareLike_wrapped tagged x y
  simp only [Literal.wrapped] at compared ⊢
  simp only [compareForSort, classRank, isExtended, if_true, compared, Option.getD_some]

/-- Dates compare chronologically. The document forms of two dates whose years have four digits
at most are ordered as the dates, to the millisecond, are in time; so do conditions, in each
comparison, and sorts take them. -/
theorem dates_compare (a b : Instant) (plainA : a.HasPlainYear) (plainB : b.HasPlainYear) :
    let order := a.toMillis.compareTime b.toMillis
    ∃ formA formB, (Literal.date a).document? = some formA ∧ (Literal.date b).document? = some formB ∧
      formA.compareLike formB = some order ∧
      Json.compareForSort (some formA) (some formB) = order ∧
      ∀ op : CompareOp,
        Match.operatorHolds (some formA) op.operator formB = .ok (op.accepts order) := by
  intro order
  have texts : compare a.millisText b.millisText = order := Instant.compare_millisText plainA plainB
  have tagged : "$date" ∈ Json.extendedTags := by decide
  have compared := Json.compareLike_wrapped tagged a.millisText b.millisText
  have sorted := Json.compareForSort_wrapped tagged a.millisText b.millisText
  rw [texts] at compared sorted
  have formed (t : Instant) :
      (Literal.date t).document? = some (Literal.wrapped "$date" t.millisText) := by
    rw [Literal.document?]
  exact ⟨_, _, formed a, formed b, compared, sorted, Match.operatorHolds_of_compareLike compared⟩

/-- The leap second that ended the year 1998 is before the year 1999. -/
theorem dates_compare_leap_second :
    let leap : Instant := ⟨915148799, 1500000000, by decide⟩
    let newYear : Instant := ⟨915148800, 999999, by decide⟩
    leap.HasPlainYear ∧ newYear.HasPlainYear ∧
      (Literal.date leap).document? = some (.obj [("$date", .str "1998-12-31T23:59:60.500Z")]) ∧
      (Literal.date newYear).document? = some (.obj [("$date", .str "1999-01-01T00:00:00.000Z")]) ∧
      Match.operatorHolds (some (.obj [("$date", .str "1998-12-31T23:59:60.500Z")])) "$lt"
        (.obj [("$date", .str "1999-01-01T00:00:00.000Z")]) = .ok true := by
  intro leap newYear
  have plain : leap.HasPlainYear ∧ newYear.HasPlainYear := by decide +kernel
  have leapText : leap.millisText = "1998-12-31T23:59:60.500Z" := by decide +kernel
  have newYearText : newYear.millisText = "1999-01-01T00:00:00.000Z" := by decide +kernel
  have leapForm : (Literal.date leap).document? =
      some (.obj [("$date", .str "1998-12-31T23:59:60.500Z")]) := by
    rw [Literal.document?, leapText]
    rfl
  have newYearForm : (Literal.date newYear).document? =
      some (.obj [("$date", .str "1999-01-01T00:00:00.000Z")]) := by
    rw [Literal.document?, newYearText]
    rfl
  obtain ⟨formA, formB, first, second, -, -, decided⟩ :=
    dates_compare leap newYear plain.1 plain.2
  cases leapForm.symm.trans first
  cases newYearForm.symm.trans second
  have order : leap.toMillis.compareTime newYear.toMillis = .lt := by decide +kernel
  have answer := decided .lt
  rw [order] at answer
  exact ⟨plain.1, plain.2, leapForm, newYearForm, answer⟩

end DocQuery
