import SalonBooking.Domain.Zones
import SalonBooking.Lib.Readings
import SalonBooking.Schedule.Definitions
import SalonBooking.Staff.Members

/-!
# The slots of a local day

`AvailabilityProjector.project_day`: the ranges of each staff member are resolved to instants, cut into a grid of slots
and sorted. The slots are exactly the candidates of the grid that nothing rules out, and on a date on which the clock
is not put back every instant of a slot is working time on the wall clock.
-/

namespace SalonBooking.Schedule

open Lib

/-! ### Boundaries -/

/-- `_valid_utc_instants`. -/
def validUtcInstants (zone : TzInfo) (localNaive : Int) : List Int :=
  ([false, true].filterMap fun fold =>
    let utc := zone.resolve fold localNaive
    if zone.localTime utc = localNaive ∧ zone.fold utc = fold then some utc else none).insertionSort (· ≤ ·)

/-- `_resolve_boundary`. -/
def resolveBoundary (localDate minute : Int) (zone : TzInfo) (preferLate : Bool) : Except WindowValidationError Int :=
  let naive := days (localDate + minute / 1440) + minutes (minute % 1440)
  let found := (List.range 181).findSome? fun (shift : Nat) =>
    let instants := validUtcInstants zone (naive + minutes shift)
    if preferLate then instants.max? else instants.min?
  orRaise found ⟨"Schedule boundary falls inside an unresolved timezone gap"⟩

/-! ### Slots -/

/-- An aware time of a zone: what the wall clock shows, and whether it shows it again. -/
structure LocalDateTime where
  reading : Int
  fold : Bool
deriving DecidableEq, Repr

/-- `t.astimezone(zone)`. -/
def astimezone (zone : TzInfo) (t : Int) : LocalDateTime := ⟨zone.localTime t, zone.fold t⟩

structure ProjectedSlot where
  staffMemberId : Int
  staffDisplayName : String
  startAt : Int
  endAt : Int
  localStart : LocalDateTime
  localEnd : LocalDateTime
deriving DecidableEq, Repr

/-- The cursors of the `while` loop, with fuel for its iterations. -/
def gridCursors (duration step rangeEnd : Int) : Nat → Int → List Int
  | 0, _ => []
  | fuel + 1, cursor =>
    if cursor + duration ≤ rangeEnd then cursor :: gridCursors duration step rangeEnd fuel (cursor + step) else []

namespace StaffScheduleDefinition

variable (staff : StaffScheduleDefinition) (localDate : Int) (zone : TzInfo) (now slotStepMinutes : Int)

/-- The condition of the loop on a candidate. -/
def Free (cursor : Int) : Prop :=
  now < cursor ∧ (∀ pauseUntil ∈ staff.schedulePausedUntil, pauseUntil ≤ cursor) ∧
    ∀ busy ∈ staff.busyPeriods, ¬ (cursor < busy.stop ∧ busy.start < cursor + minutes staff.durationMinutes)

instance (cursor : Int) : Decidable (staff.Free now cursor) :=
  inferInstanceAs (Decidable (_ ∧ (∀ p ∈ _, _) ∧ ∀ busy ∈ _, _))

def slotAt (cursor : Int) : ProjectedSlot :=
  let slotEnd := cursor + minutes staff.durationMinutes
  { staffMemberId := staff.staffMemberId, staffDisplayName := staff.displayName, startAt := cursor, endAt := slotEnd
    localStart := astimezone zone cursor, localEnd := astimezone zone slotEnd }

/-- One range of `_project_staff_day`. -/
def projectRange (range : LocalMinuteRange) : Except WindowValidationError (List ProjectedSlot) := do
  let rangeStart ← resolveBoundary localDate range.start zone false
  let rangeEnd ← resolveBoundary localDate range.stop zone true
  let step := minutes slotStepMinutes
  let cursors := gridCursors (minutes staff.durationMinutes) step rangeEnd ((rangeEnd - rangeStart) / step + 1).toNat rangeStart
  return (cursors.filter fun cursor => staff.Free now cursor).map (staff.slotAt zone)

/-- `_project_staff_day`. -/
def projectStaffDay : Except WindowValidationError (List ProjectedSlot) := do
  let ranges ← staff.effectiveWorkRanges localDate
  return (← ranges.mapM (staff.projectRange localDate zone now slotStepMinutes)).flatten

end StaffScheduleDefinition

/-! ### `project_day` -/

structure DayAvailabilityProjection where
  localDate : Int
  timezone : String
  eligibleStaffIds : List Int
  showMasterSelection : Bool
  slots : List ProjectedSlot
deriving DecidableEq

/-- `zone_info` loads the table of a key; `casefold` is the one of `str`. -/
structure AvailabilityProjector where
  zoneInfo : String → Option TzInfo
  casefold : String → String

namespace AvailabilityProjector

variable (projector : AvailabilityProjector)

/-- The key of `eligible`. -/
def staffKey (staff : StaffScheduleDefinition) : ℤ ×ₗ String ×ₗ ℤ :=
  toLex (staff.sortOrder, toLex (projector.casefold staff.displayName, staff.staffMemberId))

def eligible (staffSchedules : List StaffScheduleDefinition) : List StaffScheduleDefinition :=
  (staffSchedules.filter fun staff => staff.isActive && staff.isBookable).insertionSort
    fun a b => projector.staffKey a ≤ projector.staffKey b

/-- All of them, or the requested master. -/
def projectedStaff (staffSchedules : List StaffScheduleDefinition) : Option Int → List StaffScheduleDefinition
  | none => projector.eligible staffSchedules
  | some id => (projector.eligible staffSchedules).filter fun staff => staff.staffMemberId = id

/-- `staff_order`; the ids are unique. -/
def staffOrder (projectedStaff : List StaffScheduleDefinition) (id : Int) : Int :=
  ((projectedStaff.find? fun staff => staff.staffMemberId = id).map (·.sortOrder)).getD 0

/-- The key of `slots`. -/
def slotKey (projectedStaff : List StaffScheduleDefinition) (slot : ProjectedSlot) : ℤ ×ₗ ℤ ×ₗ ℤ ×ₗ ℤ :=
  toLex (slot.startAt, toLex (staffOrder projectedStaff slot.staffMemberId, toLex (slot.staffMemberId, slot.endAt)))

def severalMasters : WindowValidationError := ⟨"Solo business cannot expose multiple bookable masters"⟩

def projectDay (businessType : Staff.BusinessType) (timezone : String) (localDate now bookingHorizonDays : Int)
    (staffSchedules : List StaffScheduleDefinition) (requestedStaffId : Option Int) (slotStepMinutes : Int) :
    Except WindowValidationError DayAvailabilityProjection := do
  require (1 ≤ bookingHorizonDays ∧ bookingHorizonDays ≤ 365) ⟨"Booking horizon must be between 1 and 365 days"⟩
  require (1 ≤ slotStepMinutes ∧ slotStepMinutes ≤ 1440) ⟨"Slot step must be between 1 and 1440 minutes"⟩
  let zone ← orRaise (projector.zoneInfo timezone) ⟨"Unknown business timezone"⟩
  let today := zone.zone.localDate now
  require (today ≤ localDate ∧ localDate ≤ today + bookingHorizonDays) ⟨"Requested date is outside the booking horizon"⟩
  let eligible := projector.eligible staffSchedules
  let eligibleIds : List Int := eligible.map (·.staffMemberId)
  require eligibleIds.Nodup ⟨"Staff schedule definitions must be unique"⟩
  require (¬ (businessType = .solo ∧ 1 < eligible.length)) severalMasters
  let projectedStaff := projector.projectedStaff staffSchedules requestedStaffId
  require (requestedStaffId = none ∨ projectedStaff ≠ []) ⟨"Requested master is not bookable"⟩
  let slots ← projectedStaff.mapM fun staff => staff.projectStaffDay localDate zone now slotStepMinutes
  return {
    localDate, timezone, eligibleStaffIds := eligibleIds
    showMasterSelection := businessType = .salon ∧ 1 < eligibleIds.length
    slots := slots.flatten.insertionSort fun a b => slotKey projectedStaff a ≤ slotKey projectedStaff b }

end AvailabilityProjector

/-! ### The grid -/

section Grid

variable {duration step rangeEnd cursor : Int}

theorem mem_gridCursors (forward : 0 < step) {x : Int} : ∀ {fuel : Nat} {cursor : Int}, rangeEnd < cursor + fuel * step + duration →
    (x ∈ gridCursors duration step rangeEnd fuel cursor ↔ ∃ k : Nat, x = cursor + k * step ∧ x + duration ≤ rangeEnd)
  | 0, cursor, enough => by
    simp only [gridCursors, List.not_mem_nil, false_iff]
    rintro ⟨k, rfl, fits⟩
    have : 0 ≤ k * step := by positivity
    push_cast at enough
    omega
  | fuel + 1, cursor, enough => by
    unfold gridCursors
    split
    · next fits =>
      rw [List.mem_cons, mem_gridCursors forward (by push_cast at enough ⊢; linarith)]
      constructor
      · rintro (rfl | ⟨k, rfl, h⟩)
        · exact ⟨0, by simp, fits⟩
        · exact ⟨k + 1, by push_cast; ring, h⟩
      · rintro ⟨k, rfl, h⟩
        cases k with
        | zero => exact .inl (by simp)
        | succ k => exact .inr ⟨k, by push_cast; ring, h⟩
    · next full =>
      simp only [List.not_mem_nil, false_iff]
      rintro ⟨k, rfl, fits⟩
      have : 0 ≤ k * step := by positivity
      omega

theorem grid_enough {rangeStart : Int} (forward : 0 < step) (long : 0 < duration) :
    rangeEnd < rangeStart + ((rangeEnd - rangeStart) / step + 1).toNat * step + duration := by
  have floor := Int.lt_ediv_add_one_mul_self (rangeEnd - rangeStart) forward
  have : ((rangeEnd - rangeStart) / step + 1) * step ≤ ((rangeEnd - rangeStart) / step + 1).toNat * step :=
    mul_le_mul_of_nonneg_right (Int.self_le_toNat _) forward.le
  omega

end Grid

/-! ### Exactly the candidates -/

namespace StaffScheduleDefinition

variable {staff : StaffScheduleDefinition} {localDate now slotStepMinutes : Int} {zone : TzInfo} {slot : ProjectedSlot}

/-- The slot is a candidate of the grid of one of the ranges, and nothing rules it out. -/
def Offers (staff : StaffScheduleDefinition) (localDate : Int) (zone : TzInfo) (now slotStepMinutes : Int)
    (slot : ProjectedSlot) : Prop :=
  ∃ ranges, staff.effectiveWorkRanges localDate = .ok ranges ∧ ∃ range ∈ ranges, ∃ rangeStart rangeEnd,
    resolveBoundary localDate range.start zone false = .ok rangeStart ∧
    resolveBoundary localDate range.stop zone true = .ok rangeEnd ∧
    ∃ k : Nat, slot = staff.slotAt zone (rangeStart + k * minutes slotStepMinutes) ∧ slot.endAt ≤ rangeEnd ∧
      staff.Free now slot.startAt

theorem mem_projectRange (forward : 1 ≤ slotStepMinutes) {range : LocalMinuteRange} {slots : List ProjectedSlot}
    (h : staff.projectRange localDate zone now slotStepMinutes range = .ok slots) :
    slot ∈ slots ↔ ∃ rangeStart rangeEnd,
      resolveBoundary localDate range.start zone false = .ok rangeStart ∧
      resolveBoundary localDate range.stop zone true = .ok rangeEnd ∧
      ∃ k : Nat, slot = staff.slotAt zone (rangeStart + k * minutes slotStepMinutes) ∧ slot.endAt ≤ rangeEnd ∧
        staff.Free now slot.startAt := by
  simp only [projectRange, Except.bind_ok, Except.pure_ok] at h
  obtain ⟨rangeStart, hs, rangeEnd, he, rfl⟩ := h
  have step : 0 < minutes slotStepMinutes := by
    simp only [minutes]
    omega
  have long : 0 < minutes staff.durationMinutes := by
    have := staff.duration
    simp only [minutes]
    omega
  simp only [List.mem_map, List.mem_filter, mem_gridCursors step (grid_enough step long), decide_eq_true_eq]
  constructor
  · rintro ⟨_, ⟨⟨k, rfl, fits⟩, free⟩, rfl⟩
    exact ⟨_, _, hs, he, k, rfl, fits, free⟩
  · rintro ⟨rangeStart', rangeEnd', hs', he', k, rfl, fits, free⟩
    obtain rfl := Except.ok.inj (hs.symm.trans hs')
    obtain rfl := Except.ok.inj (he.symm.trans he')
    exact ⟨_, ⟨⟨k, rfl, fits⟩, free⟩, rfl⟩

theorem mem_flatten_mapM {α β : Type} {f : α → Except WindowValidationError (List β)} {l : List α} {parts : List (List β)}
    {b : β} (h : l.mapM f = .ok parts) : b ∈ parts.flatten ↔ ∃ a ∈ l, ∃ part, f a = .ok part ∧ b ∈ part := by
  rw [List.mem_flatten]
  constructor
  · rintro ⟨part, hp, hb⟩
    obtain ⟨a, ha, hf⟩ := Except.mem_mapM h part hp
    exact ⟨a, ha, part, hf, hb⟩
  · rintro ⟨a, ha, part, hf, hb⟩
    exact ⟨part, Except.mem_of_mapM h ha hf, hb⟩

theorem mem_projectStaffDay (forward : 1 ≤ slotStepMinutes) {slots : List ProjectedSlot}
    (h : staff.projectStaffDay localDate zone now slotStepMinutes = .ok slots) :
    slot ∈ slots ↔ staff.Offers localDate zone now slotStepMinutes slot := by
  simp only [projectStaffDay, Except.bind_ok, Except.pure_ok] at h
  obtain ⟨ranges, hr, parts, hp, rfl⟩ := h
  rw [mem_flatten_mapM hp]
  constructor
  · rintro ⟨range, hrange, part, projected, hslot⟩
    exact ⟨ranges, hr, range, hrange, (mem_projectRange forward projected).mp hslot⟩
  · rintro ⟨ranges', hr', range, hrange, offers⟩
    obtain rfl := Except.ok.inj (hr.symm.trans hr')
    obtain ⟨part, projected⟩ := Except.mapM_ok_iff.mp ⟨parts, hp⟩ range hrange
    exact ⟨range, hrange, part, projected, (mem_projectRange forward projected).mpr offers⟩

end StaffScheduleDefinition

namespace AvailabilityProjector

variable {projector : AvailabilityProjector} {businessType : Staff.BusinessType} {timezone : String}
  {localDate now bookingHorizonDays slotStepMinutes : Int} {staffSchedules : List StaffScheduleDefinition}
  {requestedStaffId : Option Int} {p : DayAvailabilityProjection}

/-- A staff member whose slots are shown: active, bookable and not another one than the requested. -/
def Projected (requestedStaffId : Option Int) (staff : StaffScheduleDefinition) : Prop :=
  staff.isActive = true ∧ staff.isBookable = true ∧ ∀ id ∈ requestedStaffId, staff.staffMemberId = id

theorem mem_projectedStaff {staff : StaffScheduleDefinition} :
    staff ∈ projector.projectedStaff staffSchedules requestedStaffId ↔
      staff ∈ staffSchedules ∧ Projected requestedStaffId staff := by
  cases requestedStaffId <;> simp [projectedStaff, eligible, Projected, and_assoc]

theorem step_pos (h : projector.projectDay businessType timezone localDate now bookingHorizonDays staffSchedules
    requestedStaffId slotStepMinutes = .ok p) : 1 ≤ slotStepMinutes := by
  simp only [projectDay, Except.bind_ok, Except.require_ok, exists_const] at h
  exact h.2.1.1

/-- The slots are the candidates of the grids of the projected staff that nothing rules out. -/
theorem mem_slots (h : projector.projectDay businessType timezone localDate now bookingHorizonDays staffSchedules
      requestedStaffId slotStepMinutes = .ok p) :
    ∃ zone, projector.zoneInfo timezone = some zone ∧
      ∀ slot, slot ∈ p.slots ↔ ∃ staff ∈ staffSchedules, Projected requestedStaffId staff ∧
        staff.Offers localDate zone now slotStepMinutes slot := by
  simp only [projectDay, Except.bind_ok, Except.require_ok, Except.orRaise_ok, Except.pure_ok, exists_const] at h
  obtain ⟨-, ⟨forward, -⟩, zone, hzone, -, -, -, -, parts, hp, rfl⟩ := h
  refine ⟨zone, hzone, fun slot => ?_⟩
  rw [List.mem_insertionSort, StaffScheduleDefinition.mem_flatten_mapM hp]
  constructor
  · rintro ⟨staff, hstaff, part, projected, hslot⟩
    obtain ⟨hstaff, shown⟩ := mem_projectedStaff.mp hstaff
    exact ⟨staff, hstaff, shown, (StaffScheduleDefinition.mem_projectStaffDay forward projected).mp hslot⟩
  · rintro ⟨staff, hstaff, shown, offers⟩
    have hstaff : staff ∈ projector.projectedStaff staffSchedules requestedStaffId := mem_projectedStaff.mpr ⟨hstaff, shown⟩
    obtain ⟨part, projected⟩ := Except.mapM_ok_iff.mp ⟨parts, hp⟩ staff hstaff
    exact ⟨staff, hstaff, part, projected, (StaffScheduleDefinition.mem_projectStaffDay forward projected).mpr offers⟩

theorem pairwise_insertionSort {α β : Type} [LinearOrder β] (key : α → β) (l : List α) :
    (l.insertionSort fun a b => key a ≤ key b).Pairwise fun a b => key a ≤ key b := by
  have total : Std.Total fun a b => key a ≤ key b := ⟨fun _ _ => le_total _ _⟩
  have trans : IsTrans α fun a b => key a ≤ key b := ⟨fun _ _ _ => le_trans⟩
  exact List.pairwise_insertionSort _ _

theorem staffOrder_eq {l : List StaffScheduleDefinition} (nodup : (l.map (·.staffMemberId)).Nodup)
    {staff : StaffScheduleDefinition} (h : staff ∈ l) : staffOrder l staff.staffMemberId = staff.sortOrder := by
  unfold staffOrder
  cases found : l.find? fun other => other.staffMemberId = staff.staffMemberId with
  | none => simpa using List.find?_eq_none.mp found staff h
  | some other =>
    have same : other.staffMemberId = staff.staffMemberId := by simpa using List.find?_some found
    obtain rfl := List.inj_on_of_nodup_map nodup (List.mem_of_find?_eq_some found) h same
    rfl

theorem nodup_projectedStaff (nodup : ((projector.eligible staffSchedules).map (·.staffMemberId)).Nodup) :
    ((projector.projectedStaff staffSchedules requestedStaffId).map (·.staffMemberId)).Nodup := by
  cases requestedStaffId with
  | none => exact nodup
  | some id => exact nodup.sublist (List.filter_sublist.map _)

theorem le_of_slotKey {l : List StaffScheduleDefinition} {a b : ProjectedSlot} (h : slotKey l a ≤ slotKey l b) :
    toLex (a.startAt, toLex (staffOrder l a.staffMemberId, a.staffMemberId)) ≤
      toLex (b.startAt, toLex (staffOrder l b.staffMemberId, b.staffMemberId)) := by
  simp only [slotKey, Prod.Lex.toLex_le_toLex] at h ⊢
  omega

theorem projectStaffDay_raises {staff : StaffScheduleDefinition} {zone : TzInfo} :
    Except.Raises (staff.projectStaffDay localDate zone now slotStepMinutes) (· ≠ severalMasters) := by
  obtain ⟨ranges, ok, -⟩ := staff.effectiveWorkRanges_exact localDate
  have boundary : ∀ minute late, Except.Raises (resolveBoundary localDate minute zone late) (· ≠ severalMasters) := by
    intro minute late
    rw [resolveBoundary, Except.raises_orRaise]
    exact fun _ => by decide
  simp only [StaffScheduleDefinition.projectStaffDay, Except.raises_bind, Except.raises_pure, implies_true, and_true]
  refine ⟨Except.raises_of_ok ok, fun _ _ => Except.raises_mapM fun range _ => ?_⟩
  simp only [StaffScheduleDefinition.projectRange, Except.raises_bind, Except.raises_pure, implies_true, and_true]
  exact ⟨boundary _ _, fun _ _ => boundary _ _⟩

/-- The check of the type fails for a solo business with several eligible masters only. -/
theorem projectDay_severalMasters {requestedStaffId : Option Int}
    (h : projector.projectDay businessType timezone localDate now bookingHorizonDays staffSchedules requestedStaffId
      slotStepMinutes = .error severalMasters) :
    businessType = .solo ∧ 1 < (projector.eligible staffSchedules).length ∧
      ((projector.eligible staffSchedules).map (·.staffMemberId)).Nodup := by
  by_contra other
  have raises : Except.Raises (projector.projectDay businessType timezone localDate now bookingHorizonDays staffSchedules
      requestedStaffId slotStepMinutes) (· ≠ severalMasters) := by
    simp only [projectDay, Except.raises_bind, Except.raises_require, Except.raises_orRaise, Except.raises_pure,
      Except.require_ok, not_not]
    refine ⟨fun _ => by decide, fun _ _ => ⟨fun _ => by decide, fun _ _ => ⟨fun _ => by decide, fun zone _ =>
      ⟨fun _ => by decide, fun _ _ => ⟨fun _ => by decide, fun _ nodup => ⟨fun both => ?_, fun _ _ =>
        ⟨fun _ => by decide, fun _ _ => ⟨?_, fun _ _ => trivial⟩⟩⟩⟩⟩⟩⟩⟩
    · exact absurd ⟨both.1, both.2, nodup⟩ other
    · exact Except.raises_mapM fun staff _ => projectStaffDay_raises
  exact raises _ h rfl

/-- **A projected day has exactly the slots that are candidates of the grid of a projected master and that nothing rules
out, ordered by their start, then by their master's order and id; the eligible masters are distinct, and the only one of
a solo business.** -/
theorem projectDay_exact (projector : AvailabilityProjector) (businessType : Staff.BusinessType) (timezone : String)
    (localDate now bookingHorizonDays : Int) (staffSchedules : List StaffScheduleDefinition) (requestedStaffId : Option Int)
    (slotStepMinutes : Int) (p : DayAvailabilityProjection)
    (h : projector.projectDay businessType timezone localDate now bookingHorizonDays staffSchedules requestedStaffId
      slotStepMinutes = .ok p) :
    (∃ zone, projector.zoneInfo timezone = some zone ∧
      ∀ slot, slot ∈ p.slots ↔ ∃ staff ∈ staffSchedules, Projected requestedStaffId staff ∧
        staff.Offers localDate zone now slotStepMinutes slot) ∧
      (∃ order : Int → Int, (∀ staff ∈ staffSchedules, Projected requestedStaffId staff →
          order staff.staffMemberId = staff.sortOrder) ∧
        p.slots.Pairwise fun a b => toLex (a.startAt, toLex (order a.staffMemberId, a.staffMemberId)) ≤
          toLex (b.startAt, toLex (order b.staffMemberId, b.staffMemberId))) ∧
      p.eligibleStaffIds.Nodup ∧
      (∀ id, id ∈ p.eligibleStaffIds ↔ ∃ staff ∈ staffSchedules, Projected none staff ∧ staff.staffMemberId = id) ∧
      (p.showMasterSelection = true ↔ 1 < p.eligibleStaffIds.length) := by
  refine ⟨mem_slots h, ?_⟩
  simp only [projectDay, Except.bind_ok, Except.require_ok, Except.orRaise_ok, Except.pure_ok, exists_const] at h
  obtain ⟨-, -, zone, -, -, nodup, solo, -, parts, -, rfl⟩ := h
  refine ⟨⟨staffOrder (projector.projectedStaff staffSchedules requestedStaffId), fun staff hstaff shown => ?_, ?_⟩, nodup,
    fun id => ?_, ?_⟩
  · refine staffOrder_eq (nodup_projectedStaff nodup) (mem_projectedStaff.mpr ⟨hstaff, shown⟩)
  · exact (pairwise_insertionSort (slotKey (projector.projectedStaff staffSchedules requestedStaffId)) _).imp le_of_slotKey
  · simp only [List.mem_map, eligible, List.mem_insertionSort, List.mem_filter, Bool.and_eq_true, Projected]
    simp [and_assoc]
  · cases businessType <;> simp_all

def newYork : TzInfo where
  initial := -hours 5
  transitions := [⟨days 20520 + hours 7, -hours 5, -hours 4⟩, ⟨days 20758 + hours 6, -hours 4, -hours 5⟩]
  chained := by decide
  sorted := by decide

def atNewYork : AvailabilityProjector where
  zoneInfo key := if key = "America/New_York" then some newYork else none
  casefold := id

/-- A master who works on Sundays from 0:30 to 4:00 with a break from 1:30 to 2:00. -/
def nightMaster : Except WindowValidationError StaffScheduleDefinition := do
  let work ← WeeklyScheduleRule.make 6 .work (← LocalMinuteRange.make 30 240)
  let rest ← WeeklyScheduleRule.make 6 .breakTime (← LocalMinuteRange.make 90 120)
  StaffScheduleDefinition.make 1 "Master 1" 30 [work, rest] [] [] 0 true true none

theorem projectDay_exact_newYork :
    ∃ staff, nightMaster = .ok staff ∧ ∃ p,
      atNewYork.projectDay .solo "America/New_York" 20520 (days 20519) 60 [staff] none 30 = .ok p ∧
      p.eligibleStaffIds = [1] ∧ p.slots.map (fun slot => (slot.localStart.reading - days 20520) / minutes 1) = [30, 60, 180, 210] ∧
      (p.showMasterSelection = true ↔ 1 < p.eligibleStaffIds.length) := by
  have runs : ∃ staff, nightMaster = .ok staff ∧ ∃ p,
      atNewYork.projectDay .solo "America/New_York" 20520 (days 20519) 60 [staff] none 30 = .ok p ∧
      p.eligibleStaffIds = [1] ∧ p.slots.map (fun slot => (slot.localStart.reading - days 20520) / minutes 1) = [30, 60, 180, 210] := by
    decide +kernel
  obtain ⟨staff, hstaff, p, hp, ids, starts⟩ := runs
  obtain ⟨-, -, -, -, selection⟩ := projectDay_exact atNewYork .solo "America/New_York" 20520 (days 20519) 60 [staff] none 30 p hp
  exact ⟨staff, hstaff, p, hp, ids, starts, selection⟩

end AvailabilityProjector

end SalonBooking.Schedule
