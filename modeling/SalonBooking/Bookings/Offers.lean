import SalonBooking.Services.Listings

/-!
# What an offered window needs

Facts that the list of windows for a booking and the options of a reschedule share: which windows the query returns,
when a workstation is found, and what the schema asks of the appointment that takes a window.
-/

namespace SalonBooking

open Lib

variable {c : Catalog} {db : Db} {settings : BusinessSettings} {now : Int} {k : Nat} {w : Window} {a b : Appointment}

/-- Two descriptions of the one thing that satisfies `S`. -/
theorem exists_iff_exists {α : Type} {S P Q : α → Prop} (unique : ∀ x y, S x → S y → x = y) :
    ((∃ x, S x ∧ P x) ↔ ∃ x, S x ∧ Q x) ↔ ∀ x, S x → (P x ↔ Q x) := by
  constructor
  · rintro h x hx
    constructor
    · intro hP
      obtain ⟨y, hy, hQ⟩ := h.mp ⟨x, hx, hP⟩
      exact unique y x hy hx ▸ hQ
    · intro hQ
      obtain ⟨y, hy, hP⟩ := h.mpr ⟨x, hx, hQ⟩
      exact unique y x hy hx ▸ hP
  · exact fun h => exists_congr fun x => and_congr_right fun hx => h x hx

/-! ### The query -/

/-- An open window in the booking period, as the query computes its bounds. -/
def BusinessSettings.inPeriod (s : BusinessSettings) (now : Int) (w : Window) : Bool :=
  w.status == .open &&
    decide (max now (s.timezone.utcDayBounds (s.timezone.localDate now)).1 ≤ w.startAt ∧
      w.startAt < (s.timezone.utcDayBounds (s.timezone.localDate now + s.bookingHorizonDays)).2)

/-- How many windows the query returns before this one. -/
def BusinessSettings.rank (s : BusinessSettings) (now : Int) (db : Db) (k : Nat) (w : Window) : Nat :=
  db.windows.count fun j v => s.inPeriod now v && decide (Table.Before Window.startAt (j, v) (k, w))

theorem mem_openWindows : (k, w) ∈ settings.openWindows now db ↔
    (db.windows.row k = some w ∧ settings.inPeriod now w = true) ∧ settings.rank now db k w < openWindowLimit :=
  Table.mem_page

theorem opensOn_iff {day : Int} : settings.opensOn day = true ↔
    ¬ (weekday day = 5 ∧ settings.allowSaturday = false) ∧ ¬ (weekday day = 6 ∧ settings.allowSunday = false) := by
  simp [BusinessSettings.opensOn, imp_iff_not_or]

/-- A day of the booking period on which the business opens, with a start ahead of now. -/
theorem validateBookableDate_ok {startAt day : Int} : validateBookableDate settings startAt now = .ok day ↔
    now < startAt ∧ (settings.timezone.localDate now ≤ settings.timezone.localDate startAt ∧
      settings.timezone.localDate startAt ≤ settings.timezone.localDate now + settings.bookingHorizonDays) ∧
      settings.opensOn (settings.timezone.localDate startAt) = true ∧ settings.timezone.localDate startAt = day := by
  simp only [validateBookableDate, Except.require_bind_ok, Except.pure_ok, opensOn_iff]
  rw [not_or, not_le, not_not]
  simp only [and_assoc]

/-! ### Workstations -/

section Workstations

variable {serviceId i workstationId : Nat} {startAt endAt : Int} {exclude : Option Nat}

theorem hasAvailableExcept_iff : c.hasAvailableExcept db serviceId startAt endAt exclude = true ↔
    ∃ x, c.allocateAvailable db serviceId startAt endAt exclude = some x := by
  rw [Catalog.hasAvailableExcept, Catalog.allocateAvailable, ← Option.isSome_iff_exists, List.find?_isSome,
    List.any_eq_true]

theorem allocateAvailable_free (h : c.allocateAvailable db serviceId startAt endAt exclude = some workstationId)
    (row : db.appointments.row i = some b) (other : some i ≠ exclude) (occupies : b.status.occupies = true)
    (same : b.workstationId = some workstationId) :
    ¬ Db.overlap startAt endAt b.scheduledStartAt b.scheduledEndAt := by
  have idle := List.find?_some h
  simp only [Bool.not_eq_true', Db.workstationBusy, List.any_eq_false] at idle
  have apart := idle (i, b) (Table.mem_toList.mpr row)
  simp only [same, occupies, BEq.rfl, Bool.true_and, other, ne_eq, not_false_eq_true, decide_true, Bool.and_eq_true,
    decide_eq_true_eq] at apart
  exact fun ⟨first, second⟩ => apart ⟨second, first⟩

end Workstations

/-! ### The new appointment -/

namespace Db

theorem CompatibleAppointments.symm (a b : Appointment) (h : CompatibleAppointments a b) :
    CompatibleAppointments b a where
  staff := fun hb ha same meets => h.staff ha hb same.symm ⟨meets.2, meets.1⟩
  workstation := fun hb ha some_ same meets => h.workstation ha hb (same ▸ some_) same.symm ⟨meets.2, meets.1⟩
  window := fun hb ha => (h.window ha hb).symm
  rescheduledFrom := fun some_ same => h.rescheduledFrom (same ▸ some_) same.symm

theorem windowChecks_put {s : WindowStatus} (h : db.windowChecks) (row : db.windows.row k = some w)
    (active : s.isActive = true → w.status.isActive = true) :
    windowChecks { db with windows := db.windows.put k { w with status := s } } := by
  refine Table.pairs_put (fun u v apart hv hu same meets => ?_) h row id fun v apart hs => apart (active hs)
  exact apart hu hv same.symm ⟨meets.2, meets.1⟩

theorem appointmentChecks_insert : appointmentChecks { db with appointments := db.appointments.insert a } ↔
    db.appointmentChecks ∧ validAppointment a ∧ db.appointments.All fun _ b => CompatibleAppointments a b :=
  Table.pairs_insert CompatibleAppointments.symm

/-- Another appointment leaves the window to a new one: the master is free and the window is not counted twice. -/
def LeavesFree (k : Nat) (w : Window) (b : Appointment) : Prop :=
  (b.status.occupies = true → b.staffMemberId = w.staffMemberId →
    ¬ overlap b.scheduledStartAt b.scheduledEndAt w.startAt w.endAt) ∧
  (b.status.countsCapacity = true → b.windowId ≠ k)

/-- What the schema asks of an appointment on a window, when its workstation is free. -/
theorem compatible_iff (occupies : a.status.occupies = true)
    (at_window : a.staffMemberId = w.staffMemberId ∧ a.windowId = k ∧ a.scheduledStartAt = w.startAt ∧
      a.scheduledEndAt = w.endAt)
    (workstation : b.status.occupies = true → a.workstationId = b.workstationId →
      ¬ overlap w.startAt w.endAt b.scheduledStartAt b.scheduledEndAt) :
    CompatibleAppointments a b ↔
      LeavesFree k w b ∧ (a.rescheduledFromId.isSome = true → a.rescheduledFromId ≠ b.rescheduledFromId) := by
  obtain ⟨staff, window, start, stop⟩ := at_window
  have counts : a.status.countsCapacity = true := by
    revert occupies
    cases a.status <;> decide
  constructor
  · rintro ⟨master, -, other, origin⟩
    refine ⟨⟨fun hb same meets => ?_, fun hb => ?_⟩, origin⟩
    · exact master occupies hb (staff.trans same.symm) ⟨start ▸ meets.2, stop ▸ meets.1⟩
    · exact window ▸ (other counts hb).symm
  · rintro ⟨⟨master, other⟩, origin⟩
    refine ⟨fun _ hb same meets => ?_, fun _ hb _ same => ?_, fun _ hb => ?_, origin⟩
    · rw [start, stop] at meets
      exact master hb (same.symm.trans staff) ⟨meets.2, meets.1⟩
    · rw [start, stop]
      exact workstation hb same
    · exact window ▸ (other hb).symm

end Db

end SalonBooking
