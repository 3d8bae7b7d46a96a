import SalonBooking.Domain.Calendar
import SalonBooking.Lib.Zones

/-!
# Days and windows of a zone

`utc_day_bounds` and `local_window_to_utc` over the offset tables that `ZoneInfo` loads. Both convert wall-clock
readings with their first fold. A midnight that a change skips is converted as if the change had not been made, so
a day that begins inside the skipped hour loses its first minutes to the day before; `_resolve_boundary`, which the
schedule uses, moves such a reading to the first one that exists.
-/

namespace SalonBooking

open Lib

namespace Lib.TzInfo

def zone (z : TzInfo) : Zone := ⟨z.utcoffset, z.wallOffset false⟩

def Forward (z : TzInfo) : Prop := Monotone z.zone.localDate

/-- The midnight that begins a day falls strictly inside the readings that a change of the clock skips. -/
def MidnightSkipped (z : TzInfo) (day : Int) : Prop :=
  ∃ c ∈ z.transitions, c.instant + c.before < days day ∧ days day < c.instant + c.after

instance (z : TzInfo) (day : Int) : Decidable (z.MidnightSkipped day) := inferInstanceAs (Decidable (∃ c ∈ _, _))

end Lib.TzInfo

namespace Zone

open TzInfo

variable {z : TzInfo} {day t : Int}

/-! ### Midnights -/

theorem le_localDate_iff : day ≤ z.zone.localDate t ↔ days day ≤ z.localTime t := by
  show day ≤ z.localTime t / days 1 ↔ _
  simp only [days]
  omega

theorem utcDayBounds_zone : z.zone.utcDayBounds day = (z.resolve false (days day), z.resolve false (days (day + 1))) := rfl

/-- An instant of a day that comes right after one of an earlier day is the first of all those from that day on. -/
theorem first_of_day (forward : z.Forward) (on : day ≤ z.zone.localDate t) (off : z.zone.localDate (t - 1) < day) (u : Int) :
    t ≤ u ↔ day ≤ z.zone.localDate u := by
  constructor
  · intro h
    exact on.trans (forward h)
  · intro h
    by_contra hlt
    have := forward (show u ≤ t - 1 by omega)
    omega

/-- The midnight of a day converts to its first instant unless a change of the clock skips it. -/
theorem midnight_iff (forward : z.Forward) :
    (∀ t, z.resolve false (days day) ≤ t ↔ day ≤ z.zone.localDate t) ↔ ¬ z.MidnightSkipped day := by
  constructor
  · rintro first ⟨c, hc, before, after⟩
    obtain ⟨at_c, before_c⟩ := localTime_transition hc
    have on : day ≤ z.zone.localDate c.instant := le_localDate_iff.mpr (by omega)
    have off : z.zone.localDate (c.instant - 1) < day := by
      rw [← not_le, le_localDate_iff]
      omega
    have same : z.resolve false (days day) = c.instant := by
      have h₁ := (first c.instant).mpr on
      have h₂ := mt (first (c.instant - 1)).mp (by omega)
      omega
    rcases z.resolve_cases (days day) with ⟨shows, -⟩ | ⟨d, hd, skips, eq⟩
    · rw [same] at shows
      omega
    · obtain ⟨at_d, before_d⟩ := localTime_transition hd
      obtain ⟨h₁, h₂⟩ := skips
      have on_d : day ≤ z.zone.localDate d.instant := le_localDate_iff.mpr (by omega)
      have later := (first_of_day forward on off d.instant).mpr on_d
      have : d.instant = c.instant := by omega
      rw [this] at before_d
      omega
  · intro h t
    rcases z.resolve_cases (days day) with ⟨shows, earlier⟩ | ⟨c, hc, ⟨h₁, h₂⟩, eq⟩
    · refine first_of_day forward (le_localDate_iff.mpr shows.ge) ?_ t
      rw [← not_le, le_localDate_iff]
      omega
    · obtain ⟨at_c, before_c⟩ := localTime_transition hc
      have edge : c.instant + c.before = days day := by
        by_contra hne
        exact h ⟨c, hc, by omega, h₂⟩
      have same : z.resolve false (days day) = c.instant := by omega
      rw [same]
      refine first_of_day forward (le_localDate_iff.mpr (by omega)) ?_ t
      rw [← not_le, le_localDate_iff]
      omega

theorem le_localDate_resolve (forward : z.Forward) {time : Int} (h : 0 ≤ time) :
    day ≤ z.zone.localDate (z.resolve false (days day + time)) := by
  rcases z.resolve_cases (days day + time) with ⟨shows, -⟩ | ⟨c, hc, ⟨h₁, h₂⟩, eq⟩
  · exact le_localDate_iff.mpr (by omega)
  · have on : day ≤ z.zone.localDate c.instant := le_localDate_iff.mpr (by
      rw [(localTime_transition hc).1]
      omega)
    exact on.trans (forward (by omega))

/-! ### The bounds of a day -/

theorem mem_bounds (forward : z.Forward) (kept : ¬ z.MidnightSkipped day) (on : z.zone.localDate t = day) :
    (z.zone.utcDayBounds day).1 ≤ t ∧ t < (z.zone.utcDayBounds day).2 := by
  refine ⟨((midnight_iff forward).mpr kept t).mpr on.ge, ?_⟩
  by_contra late
  have next : day + 1 ≤ z.zone.localDate (z.resolve false (days (day + 1))) := by
    have at_ : day + 1 ≤ z.zone.localDate (z.resolve false (days (day + 1) + 0)) := le_localDate_resolve forward le_rfl
    rwa [add_zero] at at_
  have := next.trans (forward (not_lt.mp late))
  omega

/-- **The bounds of a day that the zone has hold exactly its instants when neither its midnight nor the next one is
skipped, and otherwise not.** -/
theorem day_bounds_exact_iff (z : TzInfo) (forward : z.Forward) (day : Int) (found : ∃ t, z.zone.localDate t = day) :
    (∀ t, ((z.zone.utcDayBounds day).1 ≤ t ∧ t < (z.zone.utcDayBounds day).2) ↔ z.zone.localDate t = day) ↔
      ¬ z.MidnightSkipped day ∧ ¬ z.MidnightSkipped (day + 1) := by
  rw [utcDayBounds_zone, ← midnight_iff forward, ← midnight_iff forward]
  obtain ⟨t₀, rfl⟩ := found
  constructor
  · intro holds
    have h₀ := (holds t₀).mpr rfl
    constructor
    · intro t
      constructor
      · intro h
        rcases lt_or_ge t (z.resolve false (days (z.zone.localDate t₀ + 1))) with hlt | hge
        · exact ((holds t).mp ⟨h, hlt⟩).ge
        · exact forward (by omega)
      · intro h
        rcases lt_or_ge t t₀ with hlt | hge
        · exact ((holds t).mpr (le_antisymm (forward hlt.le) h)).1
        · omega
    · intro t
      constructor
      · intro h
        have later : z.zone.localDate t₀ ≤ z.zone.localDate t := forward (by omega)
        have other : z.zone.localDate t ≠ z.zone.localDate t₀ := fun eq => by
          have := (holds t).mpr eq
          omega
        omega
      · intro h
        by_contra hlt
        have later : t₀ ≤ t := by
          by_contra hle
          have := forward (show t ≤ t₀ by omega)
          omega
        have := (holds t).mp ⟨by omega, by omega⟩
        omega
  · rintro ⟨lower, upper⟩ t
    have h₁ := lower t
    have h₂ := upper t
    constructor
    · rintro ⟨h, h'⟩
      omega
    · intro h
      omega

/-- America/Toronto around the night of March 1919 on which 23:30 was followed by 00:30. -/
def toronto : TzInfo where
  initial := -hours 5
  transitions := [⟨days (-18539) + hours 4 + minutes 30, -hours 5, -hours 4⟩]
  chained := by decide
  sorted := by decide

theorem toronto_forward : toronto.Forward := by
  intro t u h
  show (t + offsetFrom _ _ _ t) / days 1 ≤ (u + offsetFrom _ _ _ u) / days 1
  simp only [toronto, offsetFrom, days, hours, minutes]
  split_ifs <;> omega

theorem toronto_skips : toronto.MidnightSkipped day ↔ day = -18539 := by
  simp only [MidnightSkipped, toronto, List.mem_singleton, exists_eq_left, days, hours, minutes]
  omega

/-- The day before that night is as it should be. -/
theorem day_bounds_exact_toronto :
    toronto.Forward ∧
      ∀ t, ((toronto.zone.utcDayBounds (-18541)).1 ≤ t ∧ t < (toronto.zone.utcDayBounds (-18541)).2) ↔
        toronto.zone.localDate t = -18541 :=
  ⟨toronto_forward,
    (day_bounds_exact_iff toronto toronto_forward (-18541) ⟨days (-18540), by decide +kernel⟩).mpr
      (by decide +kernel)⟩

/-- The half hour after the change belongs to 31 March and is counted with 30 March. -/
theorem day_bounds_toronto_late :
    toronto.Forward ∧ toronto.zone.localDate (days (-18539) + hours 4 + minutes 30) = -18539 ∧
      ¬ (toronto.zone.utcDayBounds (-18539)).1 ≤ days (-18539) + hours 4 + minutes 30 ∧
      days (-18539) + hours 4 + minutes 30 < (toronto.zone.utcDayBounds (-18540)).2 :=
  ⟨toronto_forward, by decide +kernel, by decide +kernel, by decide +kernel⟩

/-! ### The length of a window -/

/-- **A window lasts as long as the master entered when the changes of the clock between its two readings add up to
nothing, and otherwise not.** -/
theorem window_duration_iff (z : TzInfo) (day localStart : Int) (durationMinutes : Nat) :
    (localWindowToUtc z.zone day localStart durationMinutes).2 - (localWindowToUtc z.zone day localStart durationMinutes).1 =
        minutes durationMinutes ↔
      ((z.transitions.filter fun c => days day + localStart < c.wall false ∧
        c.wall false ≤ days day + localStart + minutes durationMinutes).map fun c => c.after - c.before).sum = 0 := by
  have ordered : days day + localStart ≤ days day + localStart + minutes durationMinutes := by
    simp only [minutes]
    omega
  rw [← z.wallOffset_sub false ordered]
  show _ - z.wallOffset false _ - (_ - z.wallOffset false _) = _ ↔ _
  omega

def berlin : TzInfo where
  initial := hours 1
  transitions := [⟨days 20541 + hours 1, hours 1, hours 2⟩, ⟨days 20751 + hours 1, hours 2, hours 1⟩]
  chained := by decide
  sorted := by decide

/-- Two hours from 01:30 of the night on which the clock is put forward last one. -/
theorem window_duration_berlin :
    (localWindowToUtc berlin.zone 20541 (hours 1 + minutes 30) 120).2 -
      (localWindowToUtc berlin.zone 20541 (hours 1 + minutes 30) 120).1 = minutes 60 := by
  decide +kernel

end Zone

end SalonBooking
