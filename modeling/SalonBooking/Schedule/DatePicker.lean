import SalonBooking.Domain.Calendar

/-!
# The date picker

`DatePickerService` pages through the booking horizon. The pages that the forward buttons lead to hold every date of the
horizon once and in order, every button of an accepted page leads to an accepted page, and the dates that can be picked
are those for which a window can be created.
-/

namespace SalonBooking

open Lib

inductive DatePickerError
  | value (message : String)
  | validation (message : String)
deriving DecidableEq, Repr

structure DatePickerDay where
  localDate : Int
  label : String
  selectable : Bool
deriving DecidableEq, Repr

structure DatePickerPage where
  today : Int
  startDate : Int
  endDate : Int
  days : List DatePickerDay
  previousStart : Option Int
  nextStart : Option Int
deriving DecidableEq, Repr

/-- What the handlers read from the settings; `strftime` is that of `date` with `%d.%m`. -/
structure DatePickerService where
  strftime : Int → String
  bookingHorizonDays : Int
  allowSaturday : Bool
  allowSunday : Bool
  pageSize : Int

namespace DatePickerService

variable (p : DatePickerService)

/-- `_WEEKDAY_LABELS`. -/
def weekdayLabels : List String := ["Пн", "Вт", "Ср", "Чт", "Пт", "Сб", "Вс"]

def label (value : Int) : String := p.strftime value ++ " " ++ weekdayLabels.getD (weekday value).toNat ""

/-- `_is_selectable_weekday`. -/
def isSelectableWeekday (value : Int) : Bool :=
  if weekday value = 5 then p.allowSaturday else if weekday value = 6 then p.allowSunday else true

/-- `_date_range`. -/
def dateRange (start stop : Int) : List Int :=
  (List.range (stop - start + 1).toNat).map fun offset : Nat => start + offset

def day (value : Int) : DatePickerDay := ⟨value, p.label value, p.isSelectableWeekday value⟩

def buildPage (today : Int) (requestedStart : Option Int) : Except DatePickerError DatePickerPage := do
  require (0 ≤ p.bookingHorizonDays) (.value "booking horizon must not be negative")
  require (0 < p.pageSize) (.value "page size must be positive")
  let latest := today + p.bookingHorizonDays
  let start := requestedStart.getD today
  require (today ≤ start) (.validation "Эта страница календаря устарела. Показаны актуальные даты.")
  require (start ≤ latest) (.validation "Эти даты находятся за пределами доступного периода.")
  let stop := min (start + (p.pageSize - 1)) latest
  return {
    today
    startDate := start
    endDate := stop
    days := (dateRange start stop).map p.day
    previousStart := if today < start then some (max today (start - p.pageSize)) else none
    nextStart := if stop < latest then some (stop + 1) else none }

def validateSelection (selected today : Int) : Except DatePickerError Int := do
  require (today ≤ selected) (.validation "Эта дата уже прошла. Выберите дату из актуального календаря.")
  require (selected ≤ today + p.bookingHorizonDays) (.validation "Эта дата находится за пределами доступного периода.")
  require (p.isSelectableWeekday selected = true)
    (.validation "Этот выходной сейчас недоступен для создания открытого окна.")
  return selected

/-- The pages that the forward buttons show from the page of `start` on. -/
def pagesFrom (today : Int) : Nat → Int → List DatePickerPage
  | 0, _ => []
  | fuel + 1, start =>
    match p.buildPage today (some start) with
    | .ok page => page :: (page.nextStart.map (pagesFrom today fuel)).getD []
    | .error _ => []

/-- The pages of the whole calendar; a page holds one day at least. -/
def pages (today : Int) : List DatePickerPage := p.pagesFrom today (p.bookingHorizonDays.toNat + 1) today

variable {p} {today start : Int} {page : DatePickerPage}

/-! ### One page -/

theorem buildPage_ok {requestedStart : Option Int} (h : p.buildPage today requestedStart = .ok page) :
    0 < p.pageSize ∧ page.startDate = requestedStart.getD today ∧ today ≤ page.startDate ∧
      page.startDate ≤ today + p.bookingHorizonDays ∧
      page.endDate = min (page.startDate + (p.pageSize - 1)) (today + p.bookingHorizonDays) ∧
      page.days = (dateRange page.startDate page.endDate).map p.day ∧
      page.previousStart = (if today < page.startDate then some (max today (page.startDate - p.pageSize)) else none) ∧
      page.nextStart = if page.endDate < today + p.bookingHorizonDays then some (page.endDate + 1) else none := by
  simp only [buildPage, Except.bind_ok, Except.require_ok, Except.pure_ok, exists_const] at h
  obtain ⟨-, size, low, high, rfl⟩ := h
  exact ⟨size, rfl, low, high, rfl, rfl, rfl, rfl⟩

theorem exists_buildPage (horizon : 0 ≤ p.bookingHorizonDays) (size : 0 < p.pageSize) (low : today ≤ start)
    (high : start ≤ today + p.bookingHorizonDays) : ∃ page, p.buildPage today (some start) = .ok page := by
  simp [buildPage, require, horizon, size, low, high]
  exact ⟨_, rfl⟩

@[simp] theorem mem_dateRange {start stop day : Int} : day ∈ dateRange start stop ↔ start ≤ day ∧ day ≤ stop := by
  simp only [dateRange, List.mem_map, List.mem_range]
  constructor
  · rintro ⟨offset, h, rfl⟩
    omega
  · intro h
    exact ⟨(day - start).toNat, by omega, by omega⟩

theorem dateRange_append {start middle stop : Int} (h : start ≤ middle + 1) (h' : middle ≤ stop) :
    dateRange start middle ++ dateRange (middle + 1) stop = dateRange start stop := by
  have split : (stop - start + 1).toNat = (middle - start + 1).toNat + (stop - (middle + 1) + 1).toNat := by omega
  simp only [dateRange, split, List.range_add, List.map_append, List.map_map]
  congr 1
  refine List.map_congr_left fun offset _ => ?_
  simp only [Function.comp_apply]
  omega

/-- Every button of an accepted page leads to an accepted page: the next one goes on with the day after, and between
the previous one and this one no day is left out. -/
theorem buttons_accepted {requestedStart : Option Int} (h : p.buildPage today requestedStart = .ok page) :
    (∀ s ∈ page.nextStart, ∃ next, p.buildPage today (some s) = .ok next ∧ next.startDate = page.endDate + 1) ∧
      ∀ s ∈ page.previousStart, ∃ previous, p.buildPage today (some s) = .ok previous ∧
        previous.startDate < page.startDate ∧ page.startDate ≤ previous.endDate + 1 := by
  obtain ⟨size, -, low, high, stop, -, back, forward⟩ := buildPage_ok h
  refine ⟨fun s hs => ?_, fun s hs => ?_⟩
  · obtain ⟨before, rfl⟩ : page.endDate < today + p.bookingHorizonDays ∧ page.endDate + 1 = s := by
      simpa [forward] using hs
    obtain ⟨next, built⟩ : ∃ next, p.buildPage today (some (page.endDate + 1)) = .ok next :=
      exists_buildPage (by omega) size (by omega) (by omega)
    exact ⟨next, built, (buildPage_ok built).2.1⟩
  · obtain ⟨after, rfl⟩ : today < page.startDate ∧ max today (page.startDate - p.pageSize) = s := by
      simpa [back] using hs
    obtain ⟨previous, built⟩ : ∃ previous, p.buildPage today (some (max today (page.startDate - p.pageSize))) =
        .ok previous := exists_buildPage (by omega) size (by omega) (by omega)
    obtain ⟨-, start', -, -, stop', -⟩ := buildPage_ok built
    simp only [Option.getD_some] at start'
    exact ⟨previous, built, by omega, by omega⟩

/-! ### All pages -/

/-- With a page for every remaining day at most, the forward buttons show each of these days once and in order. -/
theorem pagesFrom_days (size : 0 < p.pageSize) : ∀ (fuel : Nat) (start : Int), today ≤ start →
    start ≤ today + p.bookingHorizonDays → today + p.bookingHorizonDays < start + fuel →
    (p.pagesFrom today fuel start).flatMap DatePickerPage.days =
      (dateRange start (today + p.bookingHorizonDays)).map p.day := by
  intro fuel
  induction fuel with
  | zero => intro start low high enough; omega
  | succ fuel ih =>
    intro start low high enough
    obtain ⟨page, built⟩ := exists_buildPage (by omega) size low high
    obtain ⟨-, first, -, -, stop, shown, -, forward⟩ := buildPage_ok built
    simp only [Option.getD_some] at first
    rw [first] at stop shown
    simp only [pagesFrom, built, List.flatMap_cons, shown, forward]
    by_cases before : page.endDate < today + p.bookingHorizonDays
    · rw [if_pos before, Option.map_some, Option.getD_some,
        ih (page.endDate + 1) (by omega) (by omega) (by push_cast at enough; omega), ← List.map_append,
        dateRange_append (by omega) (by omega)]
    · have last : page.endDate = today + p.bookingHorizonDays := by omega
      rw [if_neg before, last]
      simp

theorem length_days (h : p.buildPage today (some start) = .ok page) :
    0 < page.days.length ∧ (page.days.length : Int) ≤ p.pageSize := by
  obtain ⟨size, -, -, high, stop, shown, -⟩ := buildPage_ok h
  simp only [shown, dateRange, List.length_map, List.length_range]
  omega

theorem built_of_mem_pagesFrom : ∀ (fuel : Nat) (start : Int), page ∈ p.pagesFrom today fuel start →
    ∃ start', p.buildPage today (some start') = .ok page := by
  intro fuel
  induction fuel with
  | zero => intro start h; simp [pagesFrom] at h
  | succ fuel ih =>
    intro start h
    cases built : p.buildPage today (some start) with
    | error e => simp [pagesFrom, built] at h
    | ok first =>
      simp only [pagesFrom, built, List.mem_cons] at h
      obtain rfl | h := h
      · exact ⟨start, built⟩
      · cases forward : first.nextStart with
        | none => simp [forward] at h
        | some next =>
          rw [forward] at h
          exact ih next h

theorem validateSelection_ok {selected day : Int} :
    p.validateSelection selected today = .ok day ↔ day = selected ∧
      selected ∈ dateRange today (today + p.bookingHorizonDays) ∧ p.isSelectableWeekday selected = true := by
  simp only [validateSelection, Except.bind_ok, Except.require_ok, Except.pure_ok, exists_const, mem_dateRange]
  constructor
  · rintro ⟨low, high, free, rfl⟩
    exact ⟨rfl, ⟨low, high⟩, free⟩
  · rintro ⟨rfl, ⟨low, high⟩, free⟩
    exact ⟨low, high, free, rfl⟩

theorem pages_days (horizon : 0 ≤ p.bookingHorizonDays) (size : 0 < p.pageSize) (today : Int) :
    (p.pages today).flatMap DatePickerPage.days = (dateRange today (today + p.bookingHorizonDays)).map p.day :=
  pagesFrom_days size _ today le_rfl (by omega) (by omega)

theorem offered_iff (horizon : 0 ≤ p.bookingHorizonDays) (size : 0 < p.pageSize) {selected : Int} :
    (∃ page ∈ p.pages today, ∃ shown ∈ page.days, shown.localDate = selected ∧ shown.selectable = true) ↔
      p.validateSelection selected today = .ok selected := by
  have shown := pages_days horizon size today
  rw [validateSelection_ok]
  constructor
  · rintro ⟨page, hp, d, hd, rfl, free⟩
    have hd' := List.mem_flatMap.mpr ⟨page, hp, hd⟩
    rw [shown, List.mem_map] at hd'
    obtain ⟨value, hv, rfl⟩ := hd'
    exact ⟨rfl, hv, free⟩
  · rintro ⟨-, hv, free⟩
    have hd : p.day selected ∈ (p.pages today).flatMap DatePickerPage.days := shown ▸ List.mem_map_of_mem hv
    rw [List.mem_flatMap] at hd
    obtain ⟨page, hp, hd⟩ := hd
    exact ⟨page, hp, _, hd, rfl, free⟩

/-! ### The settings of the business -/

/-- The picker as the window handlers call it. -/
def ofSettings (strftime : Int → String) (pageSize : Int) (s : BusinessSettings) : DatePickerService where
  strftime
  bookingHorizonDays := s.bookingHorizonDays
  allowSaturday := s.allowSaturday
  allowSunday := s.allowSunday
  pageSize

/-- `DEFAULT_DATE_PICKER_DAYS`. -/
def defaultDatePickerDays : Int := 31

theorem isSelectableWeekday_iff {value : Int} : p.isSelectableWeekday value = true ↔
    ¬ (weekday value = 5 ∧ p.allowSaturday = false) ∧ ¬ (weekday value = 6 ∧ p.allowSunday = false) := by
  simp only [isSelectableWeekday]
  split <;> [skip; split] <;> simp_all

theorem validateCalendarRules_iff {s : BusinessSettings} {day startAt endAt now : Int} (strftime : Int → String)
    (pageSize : Int) : validateCalendarRules s day startAt endAt now = .ok () ↔
      startAt < endAt ∧ now < startAt ∧ s.timezone.localDate endAt = day ∧
        (ofSettings strftime pageSize s).validateSelection day (s.timezone.localDate now) = .ok day := by
  simp only [validateCalendarRules, Except.bind_ok, Except.require_ok, exists_const, validateSelection_ok,
    mem_dateRange, isSelectableWeekday_iff]
  simp only [ofSettings, true_and]
  constructor
  · rintro ⟨positive, future, same, range, saturday, sunday⟩
    exact ⟨by omega, by omega, same, by omega, saturday, sunday⟩
  · rintro ⟨positive, future, same, range, saturday, sunday⟩
    exact ⟨by omega, by omega, same, by omega, saturday, sunday⟩

/-- A studio that closes on Saturdays and takes windows for 45 days. -/
def studio : BusinessSettings where
  timezone := .fixed (hours 3)
  bookingHorizonDays := 45
  cancellationDeadlineHours := 24
  rescheduleDeadlineHours := none
  maxAppointmentsPerDay := 8
  defaultWindowDurationMinutes := 60
  minimumGapMinutes := 0
  allowSaturday := false
  allowSunday := true
  bookingReferenceMaxMedia := 3
  futureBookingLimitEnabled := none
  futureBookingLimitMax := none
  futureBookingLimitHorizonDays := none
  futureBookingCountClientCancellations := false

/-- **The calendar shows the horizon and nothing else.** From today's page the forward buttons lead through non-empty
pages of at most `pageSize` days that hold every day of the horizon once and in order; every button of any accepted page
is accepted, and going back leaves no day out; and a window in the future that ends on a day passes the rules exactly
when one of the pages offers that day for selection. -/
theorem calendar_exact (s : BusinessSettings) (strftime : Int → String) (pageSize now : Int) (size : 0 < pageSize) :
    ((ofSettings strftime pageSize s).pages (s.timezone.localDate now)).flatMap
        (fun page => page.days.map DatePickerDay.localDate) =
      dateRange (s.timezone.localDate now) (s.timezone.localDate now + s.bookingHorizonDays) ∧
    (∀ page ∈ (ofSettings strftime pageSize s).pages (s.timezone.localDate now),
      0 < page.days.length ∧ (page.days.length : Int) ≤ pageSize) ∧
    (∀ today requestedStart page, (ofSettings strftime pageSize s).buildPage today requestedStart = .ok page →
      (∀ b ∈ page.nextStart, ∃ next, (ofSettings strftime pageSize s).buildPage today (some b) = .ok next ∧
        next.startDate = page.endDate + 1) ∧
      ∀ b ∈ page.previousStart, ∃ previous, (ofSettings strftime pageSize s).buildPage today (some b) = .ok previous ∧
        previous.startDate < page.startDate ∧ page.startDate ≤ previous.endDate + 1) ∧
    ∀ startAt endAt, now < startAt → startAt < endAt →
      (validateCalendarRules s (s.timezone.localDate endAt) startAt endAt now = .ok () ↔
        ∃ page ∈ (ofSettings strftime pageSize s).pages (s.timezone.localDate now), ∃ shown ∈ page.days,
          shown.localDate = s.timezone.localDate endAt ∧ shown.selectable = true) := by
  have horizon : 0 ≤ (ofSettings strftime pageSize s).bookingHorizonDays := Int.natCast_nonneg _
  refine ⟨?_, ?_, fun _ _ _ => buttons_accepted, fun startAt endAt future positive => ?_⟩
  · rw [← List.map_flatMap, pages_days horizon size]
    simp [Function.comp_def, ofSettings, day]
  · intro page hp
    obtain ⟨start, built⟩ := built_of_mem_pagesFrom _ _ hp
    exact length_days built
  · rw [validateCalendarRules_iff strftime pageSize, offered_iff horizon size]
    exact ⟨fun h => h.2.2.2, fun h => ⟨positive, future, rfl, h⟩⟩

/-- From a Sunday on, 46 days stand on two pages; the Friday takes a window and the Saturday none. -/
theorem calendar_exact_studio :
    (((ofSettings (fun _ => "") defaultDatePickerDays studio).pages 20520).map fun page => page.days.length) = [31, 15] ∧
      (∃ page ∈ (ofSettings (fun _ => "") defaultDatePickerDays studio).pages 20520, ∃ shown ∈ page.days,
        shown.localDate = 20525 ∧ shown.selectable = true) ∧
      ¬ ∃ page ∈ (ofSettings (fun _ => "") defaultDatePickerDays studio).pages 20520, ∃ shown ∈ page.days,
        shown.localDate = 20526 ∧ shown.selectable = true := by
  obtain ⟨-, -, -, offered⟩ := calendar_exact studio (fun _ => "") defaultDatePickerDays (days 20520) (by decide)
  refine ⟨by decide +kernel, ?_, ?_⟩
  · exact (offered (days 20525 + hours 8) (days 20525 + hours 9) (by decide) (by decide)).mp (by decide +kernel)
  · intro h
    exact absurd ((offered (days 20526 + hours 8) (days 20526 + hours 9) (by decide) (by decide)).mpr h) (by decide +kernel)

end DatePickerService

end SalonBooking
