import SalonBooking.Domain.Calendar
import SalonBooking.Domain.Enums
import SalonBooking.Schedule.Ranges

/-!
# The schedule of a staff member

The weekly rules, the exceptions of a date, the busy periods and `StaffScheduleDefinition` of
`domain/schedule_projection.py`, each built through its checks, and `_effective_work_ranges`. Intervals of one kind and
day never overlap, so the working time that a day leaves is exact.
-/

namespace SalonBooking.Schedule

open Lib LocalMinuteRange

inductive ScheduleIntervalKind
  | work
  | breakTime
deriving DecidableEq, Repr

inductive ScheduleExceptionKind
  | dayOff
  | leave
  | sick
  | workingWindow
  | breakTime
deriving DecidableEq, Repr

/-- `_ALL_DAY_EXCEPTION_KINDS`; the other kinds are timed. -/
def ScheduleExceptionKind.isAllDay : ScheduleExceptionKind → Bool
  | dayOff | leave | sick => true
  | workingWindow | breakTime => false

structure WeeklyScheduleRule where
  weekday : Int
  kind : ScheduleIntervalKind
  interval : LocalMinuteRange
  inWeek : 0 ≤ weekday ∧ weekday ≤ 6
deriving DecidableEq

/-- `WeeklyScheduleRule(weekday, kind, interval)`. -/
def WeeklyScheduleRule.make (weekday : Int) (kind : ScheduleIntervalKind) (interval : LocalMinuteRange) :
    Except WindowValidationError WeeklyScheduleRule :=
  if h : 0 ≤ weekday ∧ weekday ≤ 6 then .ok ⟨weekday, kind, interval, h⟩
  else .error ⟨"Weekday must be between 0 and 6"⟩

structure DateScheduleException where
  localDate : Int
  kind : ScheduleExceptionKind
  interval : Option LocalMinuteRange
  timed : kind.isAllDay = false ↔ interval.isSome = true
deriving DecidableEq

/-- `DateScheduleException(local_date, kind, interval)`. -/
def DateScheduleException.make (localDate : Int) (kind : ScheduleExceptionKind) (interval : Option LocalMinuteRange) :
    Except WindowValidationError DateScheduleException :=
  if h : kind.isAllDay = false ∧ interval = none then .error ⟨"Timed schedule exception requires an interval"⟩
  else if h' : kind.isAllDay = true ∧ interval ≠ none then .error ⟨"All-day schedule exception cannot have an interval"⟩
  else .ok ⟨localDate, kind, interval, by cases interval <;> cases hk : kind.isAllDay <;> simp_all⟩

/-- `BusyPeriod(start_at, end_at)`, of two instants. -/
def BusyPeriod.make (startAt endAt : Int) : Except WindowValidationError (Span Int) :=
  if h : startAt < endAt then .ok ⟨startAt, endAt, h⟩ else .error ⟨"Busy period must have positive duration"⟩

/-! ### The checks of overlaps -/

/-- `_ensure_ranges_do_not_overlap`. -/
def ensureRangesDoNotOverlap (intervals : List LocalMinuteRange) : Except WindowValidationError Unit :=
  let ordered := intervals.mergeSort le
  (ordered.zip ordered.tail).forM fun (previous, current) =>
    require (previous.overlaps current = false) ⟨"Schedule intervals of the same kind cannot overlap"⟩

/-- The loop over the groups: the intervals of each key, in the order of the keys. -/
def ensureGroupsDoNotOverlap {κ : Type} [DecidableEq κ] (l : List (κ × LocalMinuteRange)) :
    Except WindowValidationError Unit :=
  (l.map (·.1)).dedup.forM fun key => ensureRangesDoNotOverlap ((l.filter fun x => x.1 = key).map (·.2))

/-- The intervals of each key are apart. -/
def Apart {κ : Type} [DecidableEq κ] (l : List (κ × LocalMinuteRange)) : Prop :=
  ∀ key, ((l.filter fun x => x.1 = key).map (·.2)).Pairwise fun r s => r.overlaps s = false

/-- The keys of `_ensure_weekly_rules_do_not_overlap`. -/
def weeklyGroups (rules : List WeeklyScheduleRule) : List ((Int × ScheduleIntervalKind) × LocalMinuteRange) :=
  rules.map fun rule => ((rule.weekday, rule.kind), rule.interval)

/-- Those of `_ensure_date_exceptions_do_not_overlap`. -/
def exceptionGroups (exceptions : List DateScheduleException) : List ((Int × ScheduleExceptionKind) × LocalMinuteRange) :=
  exceptions.filterMap fun e => e.interval.map fun interval => ((e.localDate, e.kind), interval)

/-- The all-day dates that its loop has seen, and no second one. -/
def ensureAllDayOnce : List Int → List DateScheduleException → Except WindowValidationError Unit
  | _, [] => .ok ⟨⟩
  | seen, e :: rest =>
    if e.kind.isAllDay then do
      require (e.localDate ∉ seen) ⟨"Only one all-day exception is allowed per date"⟩
      ensureAllDayOnce (e.localDate :: seen) rest
    else ensureAllDayOnce seen rest

def ensureDateExceptionsDoNotOverlap (exceptions : List DateScheduleException) : Except WindowValidationError Unit := do
  ensureAllDayOnce [] exceptions
  ensureGroupsDoNotOverlap (exceptionGroups exceptions)

theorem isChain_iff_zip {α : Type} {R : α → α → Prop} {l : List α} : l.IsChain R ↔ ∀ p ∈ l.zip l.tail, R p.1 p.2 := by
  induction l with
  | nil => simp
  | cons a rest ih =>
    cases rest with
    | nil => simp
    | cons b rest => simpa using fun _ => ih

theorem overlaps_comm (r s : LocalMinuteRange) : r.overlaps s = s.overlaps r := by
  rw [Bool.eq_iff_iff, overlaps_iff, overlaps_iff]
  exact Span.overlaps_comm

def Before (r s : LocalMinuteRange) : Prop := r.toSpan.Before s.toSpan

instance : Trans Before Before Before := ⟨fun {_ b _} h h' => le_trans h (b.ordered.le.trans h')⟩

theorem pairwise_of_neighbours {ordered : List LocalMinuteRange} (sorted : ordered.Pairwise fun r s => r.le s = true)
    (neighbours : ordered.IsChain fun r s => r.overlaps s = false) : ordered.Pairwise fun r s => r.overlaps s = false := by
  have before : ordered.IsChain Before := by
    have sorted := isChain_iff_zip.mp sorted.isChain
    rw [isChain_iff_zip] at neighbours ⊢
    intro p hp
    refine Span.before_of_not_overlaps ?_ ?_
    · rw [← overlaps_iff, neighbours p hp]
      simp
    · have := sorted p hp
      simp only [le, decide_eq_true_eq] at this
      omega
  refine before.pairwise.imp fun {r s} h => ?_
  rw [← Bool.not_eq_true, overlaps_iff]
  exact Span.Before.not_overlaps h

theorem ensureRangesDoNotOverlap_ok {intervals : List LocalMinuteRange} :
    ensureRangesDoNotOverlap intervals = .ok ⟨⟩ ↔ intervals.Pairwise fun r s => r.overlaps s = false := by
  have perm : intervals.Pairwise (fun r s => r.overlaps s = false) ↔
      (intervals.mergeSort le).Pairwise fun r s => r.overlaps s = false :=
    (List.mergeSort_perm intervals le).pairwise_iff (fun {r s} h => overlaps_comm r s ▸ h) |>.symm
  have neighbours : ensureRangesDoNotOverlap intervals = .ok ⟨⟩ ↔
      (intervals.mergeSort le).IsChain fun r s => r.overlaps s = false := by
    rw [isChain_iff_zip]
    simp only [ensureRangesDoNotOverlap, Except.forM_ok, Except.require_ok]
  rw [neighbours, perm]
  exact ⟨pairwise_of_neighbours (List.pairwise_mergeSort le_trans' le_total' intervals), fun h => h.isChain⟩

theorem ensureGroupsDoNotOverlap_ok {κ : Type} [DecidableEq κ] {l : List (κ × LocalMinuteRange)} :
    ensureGroupsDoNotOverlap l = .ok ⟨⟩ ↔ Apart l := by
  simp only [ensureGroupsDoNotOverlap, Except.forM_ok, ensureRangesDoNotOverlap_ok, List.mem_dedup, List.mem_map]
  refine ⟨fun h key => ?_, fun h key _ => h key⟩
  by_cases found : ∃ x ∈ l, x.1 = key
  · exact h key found
  · rw [List.filter_eq_nil_iff.mpr fun x hx => by simpa using fun same => found ⟨x, hx, same⟩]
    exact .nil

theorem ensureDateExceptionsDoNotOverlap_ok {exceptions : List DateScheduleException}
    (h : ensureDateExceptionsDoNotOverlap exceptions = .ok ⟨⟩) : Apart (exceptionGroups exceptions) := by
  obtain ⟨-, -, h⟩ := Except.bind_ok.mp h
  exact ensureGroupsDoNotOverlap_ok.mp h

/-! ### The definition -/

structure StaffScheduleDefinition where
  staffMemberId : Int
  displayName : String
  durationMinutes : Int
  weeklyRules : List WeeklyScheduleRule
  dateExceptions : List DateScheduleException
  busyPeriods : List (Span Int)
  sortOrder : Int
  isActive : Bool
  isBookable : Bool
  schedulePausedUntil : Option Int
  positive : 0 < staffMemberId
  named : strip displayName ≠ ""
  duration : 1 ≤ durationMinutes ∧ durationMinutes ≤ 1440
  weeklyApart : Apart (weeklyGroups weeklyRules)
  exceptionsApart : Apart (exceptionGroups dateExceptions)

/-- `StaffScheduleDefinition(...)`. -/
def StaffScheduleDefinition.make (staffMemberId : Int) (displayName : String) (durationMinutes : Int)
    (weeklyRules : List WeeklyScheduleRule) (dateExceptions : List DateScheduleException) (busyPeriods : List (Span Int))
    (sortOrder : Int) (isActive isBookable : Bool) (schedulePausedUntil : Option Int) :
    Except WindowValidationError StaffScheduleDefinition :=
  if positive : staffMemberId ≤ 0 then .error ⟨"Staff ID must be positive"⟩
  else if named : strip displayName = "" then .error ⟨"Staff display name must not be empty"⟩
  else if duration : ¬ (1 ≤ durationMinutes ∧ durationMinutes ≤ 1440) then
    .error ⟨"Service duration must be between 1 and 1440 minutes"⟩
  else
    match weekly : ensureGroupsDoNotOverlap (weeklyGroups weeklyRules),
      dates : ensureDateExceptionsDoNotOverlap dateExceptions with
    | .error e, _ => .error e
    | .ok _, .error e => .error e
    | .ok _, .ok _ =>
      .ok
        { staffMemberId, displayName, durationMinutes, weeklyRules, dateExceptions, busyPeriods, sortOrder, isActive
          isBookable, schedulePausedUntil
          positive := not_le.mp positive
          named
          duration := not_not.mp duration
          weeklyApart := ensureGroupsDoNotOverlap_ok.mp weekly
          exceptionsApart := ensureDateExceptionsDoNotOverlap_ok dates }

/-! ### The work of a day -/

namespace StaffScheduleDefinition

variable (staff : StaffScheduleDefinition) (localDate : Int)

def exceptionsOn : List DateScheduleException := staff.dateExceptions.filter fun e => e.localDate = localDate

/-- The intervals that the exceptions of the date have of one kind. -/
def exceptionIntervals (kind : ScheduleExceptionKind) : List LocalMinuteRange :=
  (staff.exceptionsOn localDate).filterMap fun e => if e.kind = kind then e.interval else none

/-- The intervals that the rules of the weekday have of one kind. -/
def weeklyIntervals (kind : ScheduleIntervalKind) : List LocalMinuteRange :=
  (staff.weeklyRules.filter fun rule => rule.weekday = weekday localDate ∧ rule.kind = kind).map (·.interval)

/-- The working windows of the date, or else those of the weekday. -/
def workRanges : List LocalMinuteRange :=
  let customWork := staff.exceptionIntervals localDate .workingWindow
  if customWork = [] then staff.weeklyIntervals localDate .work else customWork

def breaks : List LocalMinuteRange :=
  staff.weeklyIntervals localDate .breakTime ++ staff.exceptionIntervals localDate .breakTime

def Away : Prop := ∃ e ∈ staff.exceptionsOn localDate, e.kind.isAllDay = true

instance : Decidable (staff.Away localDate) := inferInstanceAs (Decidable (∃ e ∈ _, _))

/-- `_effective_work_ranges`. -/
def effectiveWorkRanges : Except WindowValidationError (List LocalMinuteRange) :=
  if staff.Away localDate then .ok [] else subtractRanges (staff.workRanges localDate) (staff.breaks localDate)

variable {staff localDate}

theorem weeklyIntervals_eq (kind : ScheduleIntervalKind) :
    staff.weeklyIntervals localDate kind =
      ((weeklyGroups staff.weeklyRules).filter fun x => x.1 = (weekday localDate, kind)).map (·.2) := by
  simp [weeklyIntervals, weeklyGroups, List.filter_map, Function.comp_def]

theorem exceptionIntervals_eq (kind : ScheduleExceptionKind) :
    staff.exceptionIntervals localDate kind =
      ((exceptionGroups staff.dateExceptions).filter fun x => x.1 = (localDate, kind)).map (·.2) := by
  unfold exceptionIntervals exceptionsOn exceptionGroups
  induction staff.dateExceptions with
  | nil => rfl
  | cons e rest ih =>
    by_cases on : e.localDate = localDate <;> by_cases same : e.kind = kind <;> cases interval : e.interval <;>
      simp [on, same, interval, ih]

theorem workRanges_apart : (staff.workRanges localDate).Pairwise fun r s => r.overlaps s = false := by
  unfold workRanges
  dsimp only
  split
  · rw [weeklyIntervals_eq]
    exact staff.weeklyApart _
  · rw [exceptionIntervals_eq]
    exact staff.exceptionsApart _

/-- The wall clock `t` into the date is working time: no day off, in the work of the day and in no break. -/
def Works (staff : StaffScheduleDefinition) (localDate t : Int) : Prop :=
  ¬ staff.Away localDate ∧ (∃ r ∈ staff.workRanges localDate, r.Holds t) ∧ ∀ r ∈ staff.breaks localDate, ¬ r.Holds t

instance (t : Int) : Decidable (staff.Works localDate t) := inferInstanceAs (Decidable (_ ∧ (∃ r ∈ _, _) ∧ ∀ r ∈ _, _))

/-- The ranges of a day never fail a check; they are in order, apart, and hold exactly the working time. -/
theorem effectiveWorkRanges_exact (staff : StaffScheduleDefinition) (localDate : Int) :
    ∃ ranges, staff.effectiveWorkRanges localDate = .ok ranges ∧ ranges.Pairwise (fun r s => r.stop ≤ s.start) ∧
      ∀ t, (∃ r ∈ ranges, r.Holds t) ↔ staff.Works localDate t := by
  unfold effectiveWorkRanges Works
  by_cases away : staff.Away localDate
  · exact ⟨[], if_pos away, .nil, fun t => by simp [away]⟩
  · obtain ⟨ranges, ok, -, -, ordered, exact⟩ :=
      subtractRanges_exact (staff.workRanges localDate) (staff.breaks localDate) workRanges_apart
    refine ⟨ranges, (if_neg away).trans ok, ordered, fun t => ?_⟩
    rw [exact]
    simp [away]

end StaffScheduleDefinition

end SalonBooking.Schedule
