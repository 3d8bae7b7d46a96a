import SalonBooking.Domain.Appointments

/-!
# Calendar rules

`domain/availability.py`, the calendar part of `domain/booking.py` and the term resolution of
`domain/service_offering.py`. Instants are microseconds since the epoch in UTC. A zone is the pair of
lookups `ZoneInfo` offers: the offset in force at an instant, and the offset it gives to a wall-clock
reading with `fold = 0`.
-/

namespace SalonBooking

open Lib

structure Zone where
  /-- Offset at an instant. -/
  utcoffset : Int → Int
  /-- Offset of a wall-clock reading, first fold. -/
  wallOffset : Int → Int

namespace Zone

def fixed (offset : Int) : Zone := ⟨fun _ => offset, fun _ => offset⟩

/-- `t.astimezone(zone).date()`, as a day number. -/
def localDate (z : Zone) (t : Int) : Int := (t + z.utcoffset t) / days 1

/-- `utc_day_bounds`. -/
def utcDayBounds (z : Zone) (day : Int) : Int × Int :=
  (days day - z.wallOffset (days day), days (day + 1) - z.wallOffset (days (day + 1)))

end Zone

/-- `date.weekday()`: Monday is 0; day 0 is a Thursday. -/
def weekday (day : Int) : Int := (day + 3) % 7

/-- `local_window_to_utc`: the end is reached on the local wall clock. -/
def localWindowToUtc (z : Zone) (day localStart durationMinutes : Int) : Int × Int :=
  let wallStart := days day + localStart
  let wallEnd := wallStart + minutes durationMinutes
  (wallStart - z.wallOffset wallStart, wallEnd - z.wallOffset wallEnd)

/-- The settings of one business that the calendar, booking and cancellation rules read. -/
structure BusinessSettings where
  timezone : Zone
  bookingHorizonDays : Nat
  cancellationDeadlineHours : Nat
  rescheduleDeadlineHours : Option Nat
  maxAppointmentsPerDay : Nat
  defaultWindowDurationMinutes : Nat
  minimumGapMinutes : Nat
  allowSaturday : Bool
  allowSunday : Bool
  bookingReferenceMaxMedia : Nat
  futureBookingLimitEnabled : Option Bool
  futureBookingLimitMax : Option Nat
  futureBookingLimitHorizonDays : Option Nat
  futureBookingCountClientCancellations : Bool

/-- `settings.reschedule_deadline_hours or 24`. -/
def BusinessSettings.rescheduleDeadline (s : BusinessSettings) : Nat :=
  match s.rescheduleDeadlineHours with
  | some (n + 1) => n + 1
  | _ => 24

/-- `validate_calendar_rules`. -/
def validateCalendarRules (s : BusinessSettings) (day startAt endAt now : Int) : Check Unit := do
  require (¬ startAt ≥ endAt) (.windowValidation "Продолжительность окна должна быть положительной.")
  require (¬ startAt ≤ now) (.windowValidation "Окно должно начинаться в будущем.")
  let today := s.timezone.localDate now
  require (s.timezone.localDate endAt = day)
    (.windowValidation "Окно должно начинаться и заканчиваться в один день.")
  require (¬ (day < today ∨ day > today + s.bookingHorizonDays)) (.windowValidation
    ("Дата должна находиться в пределах " ++ toString s.bookingHorizonDays ++ " дней."))
  require (¬ (weekday day = 5 ∧ s.allowSaturday = false))
    (.windowValidation "Создание окон в субботу отключено.")
  require (¬ (weekday day = 6 ∧ s.allowSunday = false))
    (.windowValidation "Создание окон в воскресенье отключено.")

/-- The spacing checks of `validate_capacity_and_spacing` against one existing interval. -/
def spacingAgainst (startAt endAt : Int) (minimumGapMinutes : Nat) (interval : Int × Int) : Check Unit := do
  require (¬ (startAt < interval.2 ∧ interval.1 < endAt))
    (.windowValidation "Новое окно пересекается с существующим.")
  require (¬ (endAt ≤ interval.1 ∧ interval.1 - endAt < minutes minimumGapMinutes)) (.windowValidation
    ("Между окнами должно быть не менее " ++ toString minimumGapMinutes ++ " минут."))
  require (¬ (interval.2 ≤ startAt ∧ startAt - interval.2 < minutes minimumGapMinutes)) (.windowValidation
    ("Между окнами должно быть не менее " ++ toString minimumGapMinutes ++ " минут."))

/-- `validate_capacity_and_spacing`. -/
def validateCapacityAndSpacing (startAt endAt : Int) (existing : List (Int × Int))
    (maxWindowsPerDay minimumGapMinutes : Nat) : Check Unit := do
  require (¬ existing.length ≥ maxWindowsPerDay) (.windowValidation
    ("На эту дату уже создано максимальное число активных окон: " ++ toString maxWindowsPerDay ++ "."))
  existing.forM (spacingAgainst startAt endAt minimumGapMinutes)

/-- `validate_service_fits_window`. -/
def validateServiceFitsWindow (durationMaxMinutes : Nat) (startAt endAt : Int) : Check Unit :=
  require (¬ minutes durationMaxMinutes > endAt - startAt)
    (.bookingUnavailable "Выбранная услуга не помещается в это окно.")

/-- `validate_bookable_date`. -/
def validateBookableDate (s : BusinessSettings) (startAt now : Int) : Check Int := do
  let day := s.timezone.localDate startAt
  let today := s.timezone.localDate now
  require (¬ (startAt ≤ now ∨ ¬ (today ≤ day ∧ day ≤ today + s.bookingHorizonDays)))
    (.bookingUnavailable "Выбранное окно находится вне периода записи.")
  require (¬ (weekday day = 5 ∧ s.allowSaturday = false))
    (.bookingUnavailable "Запись на субботу сейчас недоступна.")
  require (¬ (weekday day = 6 ∧ s.allowSunday = false))
    (.bookingUnavailable "Запись на воскресенье сейчас недоступна.")
  return day

theorem validateBookableDate_day {s : BusinessSettings} {startAt now day : Int}
    (h : validateBookableDate s startAt now = .ok day) : day = s.timezone.localDate startAt := by
  simp only [validateBookableDate, Except.require_bind_ok, Except.pure_ok] at h
  obtain ⟨-, -, -, rfl⟩ := h
  rfl

/-! ### Commercial terms -/

/-- `BaseServiceTerms`; percentages are hundredths of a percent. -/
structure BaseServiceTerms where
  price : Money
  durationMinMinutes : Nat
  durationMaxMinutes : Nat
  prepaymentAmount : Option Money
  onlineBookingEnabled : Bool

structure StaffServiceOverrides where
  price : Option Money
  durationMinMinutes : Option Nat
  durationMaxMinutes : Option Nat
  prepaymentAmount : Option Money
  prepaymentPercent : Option Int
  onlineBookingEnabled : Bool
  isActive : Bool

structure EffectiveServiceTerms where
  price : Money
  durationMinMinutes : Nat
  durationMaxMinutes : Nat
  prepaymentAmount : Option Money
  prepaymentPercent : Option Int
  onlineBookingEnabled : Bool

/-- `resolve_service_terms`; the base terms carry no percentage on the booking path. -/
def resolveServiceTerms (base : BaseServiceTerms) (overrides : StaffServiceOverrides) :
    Check EffectiveServiceTerms := do
  let durationMin := overrides.durationMinMinutes.getD base.durationMinMinutes
  let durationMax := overrides.durationMaxMinutes.getD base.durationMaxMinutes
  let price := overrides.price.getD base.price
  let overridden := overrides.prepaymentAmount.isSome || overrides.prepaymentPercent.isSome
  let prepaymentAmount := if overridden then overrides.prepaymentAmount else base.prepaymentAmount
  let prepaymentPercent := if overridden then overrides.prepaymentPercent else none
  require (¬ (price < 0 ∨ ¬ (0 < durationMin ∧ durationMin ≤ durationMax)))
    (.windowValidation "Resolved service terms are invalid")
  require (∀ a ∈ prepaymentAmount, 0 ≤ a) (.windowValidation "Prepayment amount cannot be negative")
  require (∀ p ∈ prepaymentPercent, 0 ≤ p ∧ p ≤ 10000)
    (.windowValidation "Prepayment percent must be between 0 and 100")
  require (¬ (prepaymentAmount.isSome = true ∧ prepaymentPercent.isSome = true))
    (.windowValidation "Only one prepayment kind can be configured")
  return {
    price, durationMinMinutes := durationMin, durationMaxMinutes := durationMax
    prepaymentAmount, prepaymentPercent
    onlineBookingEnabled := base.onlineBookingEnabled && overrides.onlineBookingEnabled && overrides.isActive }

/-- Division rounded half up, for a non-negative numerator and a positive divisor. -/
def divHalfUp (n d : Int) : Int := (2 * n + d) / (2 * d)

/-- `_prepayment_amount`: a percentage of the price is rounded half up to hundredths. -/
def prepaymentAmount (terms : EffectiveServiceTerms) : Money :=
  match terms.prepaymentAmount, terms.prepaymentPercent with
  | some amount, _ => amount
  | none, some percent => divHalfUp (terms.price * percent) 10000
  | none, none => 0

end SalonBooking
