import SalonBooking.Schedule.Projection

/-!
# Slots are working time

A boundary resolves to an instant that shows its reading, or the first reading after it that the zone has. On a date on
which the clock is not put back, what lies between the two boundaries of a range is on the wall clock within the range,
so a slot never reaches into a break or past the working hours. In a repeated hour it may: the range ends with the
second showing of its last reading.
-/

namespace SalonBooking.Schedule

open Lib TzInfo

variable {zone : TzInfo} {localDate minute : Int} {preferLate : Bool} {t : Int}

/-! ### Boundaries -/

theorem mem_validUtcInstants (spaced : zone.Spaced) {w : Int} : t ∈ validUtcInstants zone w ↔ zone.localTime t = w := by
  simp only [validUtcInstants, List.mem_insertionSort, List.mem_filterMap, Option.ite_none_right_eq_some, Option.some.injEq]
  constructor
  · rintro ⟨fold, -, ⟨shows, -⟩, rfl⟩
    exact shows
  · rintro rfl
    refine ⟨zone.fold t, by cases zone.fold t <;> simp, ?_⟩
    rw [resolve_fold spaced]
    simp

theorem findSome_range {β : Type} {f : Nat → Option β} {n : Nat} {b : β} (h : (List.range n).findSome? f = some b) :
    ∃ m < n, f m = some b ∧ ∀ i < m, f i = none := by
  obtain ⟨before, m, after, split, found, none⟩ := List.findSome?_eq_some_iff.mp h
  have at_m : (List.range n)[before.length]? = some m := by simp [split]
  obtain ⟨hm, rfl⟩ := List.getElem?_eq_some_iff.mp at_m
  rw [List.getElem_range] at found
  refine ⟨before.length, by simpa using hm, found, fun i hi => none i ?_⟩
  have at_i : (List.range n)[i]? = before[i]? := by rw [split, List.getElem?_append_left hi]
  rw [List.getElem?_range (by simp at hm; omega)] at at_i
  exact List.mem_of_getElem? at_i.symm

/-- The reading that is resolved is the first one from the boundary on that some instant shows. -/
theorem resolveBoundary_shows (spaced : zone.Spaced) (h : resolveBoundary localDate minute zone preferLate = .ok t) :
    ∃ shift : Nat, shift ≤ 180 ∧ zone.localTime t = days localDate + minutes minute + minutes shift ∧
      ∀ i : Nat, i < shift → ∀ u, zone.localTime u ≠ days localDate + minutes minute + minutes i := by
  have naive : days (localDate + minute / 1440) + minutes (minute % 1440) = days localDate + minutes minute := by
    simp only [days, minutes]
    omega
  simp only [resolveBoundary, Except.orRaise_ok, naive] at h
  obtain ⟨shift, bound, found, none⟩ := findSome_range h
  refine ⟨shift, by omega, ?_, fun i hi u shows => ?_⟩
  · refine (mem_validUtcInstants spaced).mp ?_
    cases preferLate
    · exact List.min?_mem found
    · exact List.max?_mem found
  · have empty : validUtcInstants zone (days localDate + minutes minute + minutes i) = [] := by
      have := none i hi
      cases preferLate
      · exact List.min?_eq_none_iff.mp this
      · exact List.max?_eq_none_iff.mp this
    have := (mem_validUtcInstants spaced).mpr shows
    rw [empty] at this
    cases this

/-! ### Dates on which the clock is not put back -/

/-- No change that is seen on the date, or in the three hours in which its last boundary is looked for, puts the clock
back, and each leaves the clock on a whole minute. -/
def Steady (zone : TzInfo) (localDate : Int) : Prop :=
  ∀ c ∈ zone.transitions, days localDate < c.instant + c.before → c.instant + c.after ≤ days (localDate + 1) + hours 3 →
    c.before ≤ c.after ∧ minutes 1 ∣ c.instant + c.after

instance : Decidable (Steady zone localDate) := inferInstanceAs (Decidable (∀ c ∈ _, _))

/-- Between two instants whose readings belong to the date the clock is not put back. -/
theorem advances_of_steady {u : Int} (steady : Steady zone localDate) (low : days localDate ≤ zone.localTime t)
    (high : zone.localTime u ≤ days (localDate + 1) + hours 3) : zone.Advances t u := by
  intro c hc first last
  by_contra isBack
  -- the first change that puts the clock back, and the last one
  have member : c ∈ (zone.transitions.filter fun c => t < c.instant ∧ c.instant ≤ u ∧ c.after < c.before).toFinset := by
    simp [hc, first, last, not_le.mp isBack]
  obtain ⟨c₁, h₁, least⟩ := Finset.exists_min_image _ OffsetChange.instant ⟨c, member⟩
  obtain ⟨c₂, h₂, greatest⟩ := Finset.exists_max_image _ OffsetChange.instant ⟨c, member⟩
  simp only [List.mem_toFinset, List.mem_filter, decide_eq_true_eq] at h₁ h₂ least greatest
  obtain ⟨hc₁, t₁, u₁, back₁⟩ := h₁
  obtain ⟨hc₂, t₂, u₂, back₂⟩ := h₂
  have before : zone.Advances t (c₁.instant - 1) := fun d hd hdt hdu => by
    by_contra h
    have := least d ⟨hd, hdt, by omega, not_le.mp h⟩
    omega
  have after : zone.Advances c₂.instant u := fun d hd hdt hdu => by
    by_contra h
    have := greatest d ⟨hd, by omega, hdu, not_le.mp h⟩
    omega
  have low₁ := sub_le_localTime before (by omega)
  have high₂ := sub_le_localTime after u₂
  rw [(localTime_transition hc₁).2] at low₁
  rw [(localTime_transition hc₂).1] at high₂
  have order : c₁.instant + c₁.after ≤ c₂.instant + c₂.after := by
    rcases (least c₂ ⟨hc₂, t₂, u₂, back₂⟩).lt_or_eq with lt | eq
    · have := (rel_of_lt (zone.sorted_key true) hc₁ hc₂ lt).2
      simp only [OffsetChange.wall, if_true] at this
      omega
    · have := (localTime_transition hc₁).1
      rw [eq, (localTime_transition hc₂).1] at this
      omega
  have := (steady c₁ hc₁ (by omega) (by omega)).1
  omega

theorem holds_between (spaced : zone.Spaced) (steady : Steady zone localDate) {range : LocalMinuteRange}
    {rangeStart rangeEnd : Int} (hs : resolveBoundary localDate range.start zone false = .ok rangeStart)
    (he : resolveBoundary localDate range.stop zone true = .ok rangeEnd) (first : rangeStart ≤ t) (last : t < rangeEnd) :
    range.Holds (zone.localTime t - days localDate) := by
  obtain ⟨i, -, showsStart, -⟩ := resolveBoundary_shows spaced hs
  obtain ⟨j, hj, showsEnd, unseen⟩ := resolveBoundary_shows spaced he
  have nonneg := range.nonneg
  have withinDay := range.withinDay
  have low : days localDate ≤ zone.localTime rangeStart := by
    simp only [minutes] at showsStart
    omega
  have high : zone.localTime rangeEnd ≤ days (localDate + 1) + hours 3 := by
    simp only [minutes, days, hours] at showsEnd ⊢
    omega
  have advances := advances_of_steady steady low high
  have since := sub_le_localTime (advances.mono le_rfl last.le) first
  have ahead := sub_le_localTime (advances.mono first le_rfl) last.le
  refine ⟨by simp only [minutes] at showsStart ⊢; omega, ?_⟩
  by_contra late
  obtain ⟨v, hAv, hvt, change, runs⟩ := zone.exists_runs first
  -- the clock shows whole minutes at `v`, so the last whole minute up to the reading at `t` was shown since
  have whole : ∃ q, zone.localTime v = days localDate + minutes q := by
    rcases change with rfl | ⟨c, hc, rfl, hAc⟩
    · exact ⟨range.start + i, by simp only [minutes] at showsStart ⊢; omega⟩
    · have before := sub_le_localTime (advances.mono le_rfl (show c.instant - 1 ≤ rangeEnd by omega))
        (show rangeStart ≤ c.instant - 1 by omega)
      have after := sub_le_localTime (advances.mono hAc.le le_rfl) (show c.instant ≤ rangeEnd by omega)
      rw [(localTime_transition hc).2] at before
      rw [(localTime_transition hc).1] at after ⊢
      obtain ⟨q, hq⟩ := (steady c hc (by omega) (by omega)).2
      refine ⟨q - 1440 * localDate, ?_⟩
      simp only [minutes, days] at hq ⊢
      omega
  obtain ⟨q, hq⟩ := whole
  obtain ⟨n, hn, hn'⟩ : ∃ n : Nat, days localDate + minutes range.stop + minutes n ≤ zone.localTime t ∧
      zone.localTime t < days localDate + minutes range.stop + minutes (n + 1) := by
    refine ⟨((zone.localTime t - days localDate - minutes range.stop) / minutes 1).toNat, ?_⟩
    simp only [minutes] at late ⊢
    omega
  have here := runs t hvt le_rfl
  have shown := runs (v + (days localDate + minutes range.stop + minutes n - zone.localTime v))
  simp only [minutes] at unseen showsEnd hq hn hn' shown
  exact unseen n (by omega) _ ((shown (by omega) (by omega)).trans (by omega))

/-! ### Slots -/

namespace AvailabilityProjector

/-- **On a date on which the clock is not put back every slot is a free one of a projected master, and each of its
instants is working time on the wall clock: in the master's work of the date, in no break and on no day off.** -/
theorem slot_in_working_time (projector : AvailabilityProjector) (businessType : Staff.BusinessType) (timezone : String)
    (localDate now bookingHorizonDays : Int) (staffSchedules : List StaffScheduleDefinition) (requestedStaffId : Option Int)
    (slotStepMinutes : Int) (p : DayAvailabilityProjection) (zone : TzInfo)
    (h : projector.projectDay businessType timezone localDate now bookingHorizonDays staffSchedules requestedStaffId
      slotStepMinutes = .ok p)
    (hzone : projector.zoneInfo timezone = some zone) (spaced : zone.Spaced) (steady : Steady zone localDate) :
    ∀ slot ∈ p.slots, ∃ staff ∈ staffSchedules, staff.staffMemberId = slot.staffMemberId ∧
      Projected requestedStaffId staff ∧ staff.Free now slot.startAt ∧
      slot.endAt = slot.startAt + minutes staff.durationMinutes ∧
      ∀ t, slot.startAt ≤ t → t < slot.endAt → staff.Works localDate (zone.localTime t - days localDate) := by
  intro slot hslot
  obtain ⟨zone', hzone', exact⟩ := mem_slots h
  obtain rfl := Option.some.inj (hzone.symm.trans hzone')
  obtain ⟨staff, hstaff, shown, ranges, hranges, range, hrange, rangeStart, rangeEnd, hs, he, k, rfl, fits, free⟩ :=
    (exact slot).mp hslot
  refine ⟨staff, hstaff, rfl, shown, free, rfl, fun t first last => ?_⟩
  obtain ⟨ranges', hranges', -, works⟩ := staff.effectiveWorkRanges_exact localDate
  obtain rfl := Except.ok.inj (hranges.symm.trans hranges')
  refine (works _).mp ⟨range, hrange, holds_between spaced steady hs he ?_ (last.trans_le fits)⟩
  have forward : 0 ≤ k * minutes slotStepMinutes := by
    have := step_pos h
    unfold minutes
    positivity
  change rangeStart + k * minutes slotStepMinutes ≤ t at first
  omega

/-- The night on which 2:00 is followed by 3:00. -/
theorem slot_in_working_time_newYork :
    newYork.Spaced ∧ Steady newYork 20520 ∧ ∃ staff, nightMaster = .ok staff ∧ ∃ p,
      atNewYork.projectDay .solo "America/New_York" 20520 (days 20519) 60 [staff] none 30 = .ok p ∧
      p.slots.map (fun slot => (slot.localStart.reading - days 20520) / minutes 1) = [30, 60, 180, 210] ∧
      ∀ slot ∈ p.slots, ∃ staff' ∈ [staff], ∀ t, slot.startAt ≤ t → t < slot.endAt →
        staff'.Works 20520 (newYork.localTime t - days 20520) := by
  have runs : ∃ staff, nightMaster = .ok staff ∧ ∃ p,
      atNewYork.projectDay .solo "America/New_York" 20520 (days 20519) 60 [staff] none 30 = .ok p ∧
      p.slots.map (fun slot => (slot.localStart.reading - days 20520) / minutes 1) = [30, 60, 180, 210] := by
    decide +kernel
  obtain ⟨staff, hstaff, p, hp, starts⟩ := runs
  refine ⟨by decide, by decide, staff, hstaff, p, hp, starts, fun slot hslot => ?_⟩
  obtain ⟨staff', mem, -, -, -, -, works⟩ := slot_in_working_time atNewYork .solo "America/New_York" 20520 (days 20519) 60
    [staff] none 30 p newYork hp rfl (by decide) (by decide) slot hslot
  exact ⟨staff', mem, works⟩

/-- In the night on which 2:00 is followed by 1:00 a slot starts in the break when the clock first shows it. -/
theorem slot_in_break_newYork :
    ¬ Steady newYork 20758 ∧ ∃ staff, nightMaster = .ok staff ∧ ∃ p,
      atNewYork.projectDay .solo "America/New_York" 20758 (days 20757) 60 [staff] none 30 = .ok p ∧
      ∃ slot ∈ p.slots, ¬ staff.Works 20758 (newYork.localTime slot.startAt - days 20758) := by
  decide +kernel

end AvailabilityProjector

end SalonBooking.Schedule
