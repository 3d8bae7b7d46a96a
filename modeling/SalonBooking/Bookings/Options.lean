import SalonBooking.Bookings.Offers
import SalonBooking.Model.System

/-!
# Offered windows and accepted reschedules

`_options` filters the open windows for an appointment, `_reschedule` checks the chosen one. As with the windows for a
booking, both are inverted to what they share and what only one of them asks: the options count the whole day, over all
masters, where the reschedule counts the appointments of the one master.
-/

namespace SalonBooking

open Lib

variable {c : Catalog} {db : Db} {settings : BusinessSettings} {now : Int} {actor : RescheduleActor}
  {appointmentId k serviceId : Nat} {w : Window}

namespace RescheduleService

/-- The window is among the options of the appointment. -/
def Offered (c : Catalog) (actor : RescheduleActor) (appointmentId k : Nat) (now : Int) (db : Db) : Prop :=
  ∃ views, listOptions c actor appointmentId now db = .ok views ∧ ∃ view ∈ views, view.id = k

/-- The reschedule to the window succeeds. -/
def Accepted (c : Catalog) (actor : RescheduleActor) (appointmentId k : Nat) (now : Int) (db : Db) : Prop :=
  ∃ db', reschedule c actor appointmentId k now db = .ok db'

/-! ### What both ask -/

/-- The rows that the options and the reschedule to a window look up. -/
structure Exchange where
  settings : BusinessSettings
  appointment : Appointment
  oldWindow : Window
  window : Window

namespace Exchange

variable (x : Exchange)

def day : Int := x.settings.timezone.localDate x.window.startAt

def bounds : Int × Int := x.settings.timezone.utcDayBounds x.day

def change (appointmentId k workstationId userId : Nat) (now : Int) : RescheduleChange where
  appointment := { x.appointment with status := .rescheduled }
  oldWindow := { x.oldWindow with status := if x.oldWindow.startAt > now then .open else .closed }
  newAppointment := successor appointmentId k x.appointment x.window workstationId
  newWindow := { x.window with status := .booked }
  changedByUserId := userId

structure Shared (c : Catalog) (actor : RescheduleActor) (appointmentId k : Nat) (now : Int) (db : Db) : Prop where
  settings : c.settings = some x.settings
  appointment : db.appointments.row appointmentId = some x.appointment
  oldWindow : db.windows.row x.appointment.windowId = some x.oldWindow
  allowed : ∃ userId, authorize c x.appointment actor = .ok userId
  active : x.appointment.status.isActive = true
  deadline : checkDeadline x.settings x.oldWindow now actor = .ok ()
  window : db.windows.row k = some x.window
  other : x.appointment.windowId ≠ k
  isOpen : x.window.status = .open
  master : checkTargetMaster c x.window x.appointment.serviceId = .ok ()
  weekday : x.settings.opensOn x.day = true
  fits : minutes x.appointment.durationMaxSnapshot ≤ x.window.endAt - x.window.startAt
  workstation : ∃ workstationId, c.allocateAvailable db x.appointment.serviceId x.window.startAt x.window.endAt
    (some appointmentId) = some workstationId

/-- What only the options ask: the switches of the service, nothing archived, a place on the page of the query, and a
day that is not full when the appointments of all masters are counted. -/
structure Shown (c : Catalog) (appointmentId k : Nat) (now : Int) (db : Db) : Prop where
  service : ∃ service, c.service x.appointment.serviceId = some service ∧ service.isActive = true ∧
    service.onlineBookingEnabled = true ∧ service.archivedAt = none
  member : ∀ member, c.staff x.window.staffMemberId = some member → member.archivedAt = none
  period : x.settings.inPeriod now x.window = true
  page : x.settings.rank now db k x.window < openWindowLimit
  room : db.countCapacityOfDay x.bounds.1 x.bounds.2 (some appointmentId) < x.settings.maxAppointmentsPerDay

/-- What only the reschedule asks: the client of the appointment, an old window that is booked, a start ahead of now on
a day of the booking period that is not full for the master, and a window that no other appointment is in the way of. -/
structure Taken (c : Catalog) (appointmentId k : Nat) (now : Int) (db : Db) : Prop where
  client : (c.user x.appointment.clientId).isSome = true
  booked : x.oldWindow.status = .booked
  ahead : now < x.window.startAt
  period : x.settings.timezone.localDate now ≤ x.day ∧
    x.day ≤ x.settings.timezone.localDate now + x.settings.bookingHorizonDays
  room : db.countCapacityBetween x.bounds.1 x.bounds.2 x.window.staffMemberId (some appointmentId) <
    x.settings.maxAppointmentsPerDay
  free : db.appointments.All fun j b => j ≠ appointmentId → Db.LeavesFree k x.window b
  origin : db.appointments.All fun _ b => b.rescheduledFromId ≠ some appointmentId

theorem unique {x y : Exchange} (h : x.Shared c actor appointmentId k now db)
    (h' : y.Shared c actor appointmentId k now db) : x = y := by
  obtain ⟨settings, appointment, oldWindow, window⟩ := x
  obtain ⟨settings', appointment', oldWindow', window'⟩ := y
  obtain rfl : settings = settings' := Option.some.inj (h.settings.symm.trans h'.settings)
  obtain rfl : appointment = appointment' := Option.some.inj (h.appointment.symm.trans h'.appointment)
  obtain rfl : oldWindow = oldWindow' := Option.some.inj (h.oldWindow.symm.trans h'.oldWindow)
  obtain rfl : window = window' := Option.some.inj (h.window.symm.trans h'.window)
  rfl

end Exchange

/-- The options and the reschedule ask the same of a window. -/
def Agree (c : Catalog) (actor : RescheduleActor) (appointmentId k : Nat) (now : Int) (db : Db) : Prop :=
  ∀ x : Exchange, x.Shared c actor appointmentId k now db →
    (x.Shown c appointmentId k now db ↔ x.Taken c appointmentId k now db)

/-! ### The options -/

theorem checkTargetMaster_ok : checkTargetMaster c w serviceId = .ok () ↔
    ∃ member assignment, c.staff w.staffMemberId = some member ∧
      c.assignment w.staffMemberId serviceId = some assignment ∧ member.isActive = true ∧ member.isBookable = true ∧
      assignment.isActive = true ∧ assignment.onlineBookingEnabled = true := by
  simp only [checkTargetMaster, Except.bind_ok, Except.orRaise_ok, Except.require_ok, exists_and_left]

/-- An eligible master of the options is a master that the reschedule accepts, of a service that is switched on, with
nothing archived. -/
theorem eligible_iff : (c.bookableAssignment serviceId w.staffMemberId).isSome = true ↔
    checkTargetMaster c w serviceId = .ok () ∧
      (∃ service, c.service serviceId = some service ∧ service.isActive = true ∧ service.onlineBookingEnabled = true ∧
        service.archivedAt = none) ∧
      ∀ member, c.staff w.staffMemberId = some member → member.archivedAt = none := by
  rw [checkTargetMaster_ok, Catalog.bookableAssignment]
  cases c.assignment w.staffMemberId serviceId with
  | none => simp
  | some assignment =>
    cases c.service serviceId with
    | none => simp
    | some service =>
      cases c.staff w.staffMemberId with
      | none => simp
      | some member =>
        simp only [Option.isSome_ite, Bool.and_eq_true, Option.isNone_iff_eq_none, Option.some.injEq, exists_eq_left',
          forall_eq', exists_and_left]
        tauto

theorem listOptions_ok {views : List BookingWindowView} : listOptions c actor appointmentId now db = .ok views ↔
    ∃ settings a oldWindow, c.settings = some settings ∧ db.appointments.row appointmentId = some a ∧
      db.windows.row a.windowId = some oldWindow ∧ (∃ userId, authorize c a actor = .ok userId) ∧
      a.status.isActive = true ∧ checkDeadline settings oldWindow now actor = .ok () ∧
      options c settings appointmentId a now db = views := by
  cases actor with
  | client telegramId =>
    simp only [listOptions, authorize, checkDeadline, AppointmentService.requireAppointment, Catalog.requireSettings,
      Except.bind_ok, Except.orRaise_ok, Except.pure_ok, ensureActiveAppointment_ok, exists_const]
    constructor
    · rintro ⟨clientId, client, a, row, _, owner, settings, configured, oldWindow, window, active, _, deadline, rfl⟩
      exact ⟨settings, a, oldWindow, configured, row, window, ⟨clientId, clientId, client, (), owner, rfl⟩, active,
        deadline, rfl⟩
    · rintro ⟨settings, a, oldWindow, configured, row, window, ⟨_, clientId, client, _, owner, -⟩, active, deadline, rfl⟩
      exact ⟨clientId, client, a, row, (), owner, settings, configured, oldWindow, window, active, (), deadline, rfl⟩
  | admin telegramId =>
    simp only [listOptions, authorize, checkDeadline, AppointmentService.requireAppointment, Catalog.requireSettings,
      Except.bind_ok, Except.orRaise_ok, Except.pure_ok, ensureActiveAppointment_ok, exists_const]
    constructor
    · rintro ⟨_, admin, a, row, settings, configured, oldWindow, window, active, rfl⟩
      exact ⟨settings, a, oldWindow, configured, row, window, ⟨_, (), admin, rfl⟩, active, trivial, rfl⟩
    · rintro ⟨settings, a, oldWindow, configured, row, window, ⟨_, _, admin, -⟩, active, -, rfl⟩
      exact ⟨(), admin, a, row, settings, configured, oldWindow, window, active, rfl⟩

theorem offered_iff : Offered c actor appointmentId k now db ↔
    ∃ x : Exchange, x.Shared c actor appointmentId k now db ∧ x.Shown c appointmentId k now db := by
  simp only [Offered, listOptions_ok, options]
  constructor
  · rintro ⟨_, ⟨settings, a, oldWindow, configured, row, window, allowed, active, deadline, rfl⟩, view, hview, rfl⟩
    obtain ⟨⟨k, w⟩, hmem, rfl⟩ := List.mem_map.mp hview
    obtain ⟨hpage, option⟩ := List.mem_filter.mp hmem
    obtain ⟨⟨target, period⟩, page⟩ := mem_openWindows.mp hpage
    simp only [isOption, Bool.and_eq_true, bne_iff_ne, decide_eq_true_eq, eligible_iff, hasAvailableExcept_iff] at option
    obtain ⟨⟨⟨⟨⟨other, master, service, member⟩, fits⟩, weekday⟩, room⟩, workstation⟩ := option
    have isOpen : w.status = .open := by
      simp only [BusinessSettings.inPeriod, Bool.and_eq_true, beq_iff_eq] at period
      exact period.1
    exact ⟨⟨settings, a, oldWindow, w⟩, ⟨configured, row, window, allowed, active, deadline, target, other.symm, isOpen,
      master, weekday, fits, workstation⟩, service, member, period, page, room⟩
  · rintro ⟨x, shared, shown⟩
    have hpage : (k, x.window) ∈ x.settings.openWindows now db :=
      mem_openWindows.mpr ⟨⟨shared.window, shown.period⟩, shown.page⟩
    have option : isOption c x.settings appointmentId x.appointment db (k, x.window) = true := by
      simp only [isOption, Bool.and_eq_true, bne_iff_ne, decide_eq_true_eq, eligible_iff, hasAvailableExcept_iff]
      exact ⟨⟨⟨⟨⟨shared.other.symm, shared.master, shown.service, shown.member⟩, shared.fits⟩, shared.weekday⟩,
        shown.room⟩, shared.workstation⟩
    exact ⟨_, ⟨x.settings, x.appointment, x.oldWindow, shared.settings, shared.appointment, shared.oldWindow,
      shared.allowed, shared.active, shared.deadline, rfl⟩, _,
      List.mem_map_of_mem (List.mem_filter.mpr ⟨hpage, option⟩), rfl⟩

/-! ### The reschedule -/

theorem reschedule_iff {db' : Db} : reschedule c actor appointmentId k now db = .ok db' ↔
    ∃ x : Exchange, x.Shared c actor appointmentId k now db ∧
      ((c.user x.appointment.clientId).isSome = true ∧ x.oldWindow.status = .booked ∧ now < x.window.startAt ∧
        (x.settings.timezone.localDate now ≤ x.day ∧
          x.day ≤ x.settings.timezone.localDate now + x.settings.bookingHorizonDays) ∧
        db.countCapacityBetween x.bounds.1 x.bounds.2 x.window.staffMemberId (some appointmentId) <
          x.settings.maxAppointmentsPerDay) ∧
      ∃ workstationId userId, c.allocateAvailable db x.appointment.serviceId x.window.startAt x.window.endAt
          (some appointmentId) = some workstationId ∧ authorize c x.appointment actor = .ok userId ∧ db'.Checks ∧
        write (x.change appointmentId k workstationId userId now) x.appointment.status appointmentId db = db' := by
  simp only [reschedule, decide, AppointmentService.requireAppointment, Catalog.requireSettings,
    Catalog.requireAppointmentClient, validateBookableDate_ok, validateServiceFitsWindow, Except.bind_ok,
    Except.orRaise_ok, Except.mapError_ok, Db.commit_ok, Except.require_ok, Except.pure_ok, ensureActiveAppointment_ok,
    ensureAppointmentTransition_ok, exists_const]
  constructor
  · rintro ⟨settings, configured, a, row, user, client, userId, allowed, oldWindow, window, w, target, other, _,
      ⟨active, booked, _, deadline, ⟨isOpen, -⟩, _, master, _, ⟨ahead, period, weekday, rfl⟩, fits, room, workstationId,
        workstation, -, rfl⟩, checks, rfl⟩
    refine ⟨⟨settings, a, oldWindow, w⟩, ⟨configured, row, window, ⟨userId, allowed⟩, active, deadline, target, other,
      isOpen, master, weekday, not_lt.mp fits, workstationId, workstation⟩, ⟨?_, booked, ahead, period, not_le.mp room⟩,
      workstationId, userId, workstation, allowed, checks, rfl⟩
    rw [client]
    rfl
  · rintro ⟨x, shared, ⟨client, booked, ahead, period, room⟩, workstationId, userId, workstation, allowed, checks, rfl⟩
    obtain ⟨user, client⟩ := Option.isSome_iff_exists.mp client
    have transition : AppointmentStatus.rescheduled ∈ x.appointment.status.allowed := by
      have active := shared.active
      revert active
      cases x.appointment.status <;> decide
    exact ⟨x.settings, shared.settings, x.appointment, shared.appointment, user, client, userId, allowed, x.oldWindow,
      shared.oldWindow, x.window, shared.window, shared.other, _,
      ⟨shared.active, booked, (), shared.deadline, ⟨shared.isOpen, not_le.mpr ahead⟩, (), shared.master, x.day,
        ⟨ahead, period, shared.weekday, rfl⟩, not_lt.mpr shared.fits, not_le.mpr room, workstationId, workstation,
        .inr transition, rfl⟩, checks, rfl⟩

/-- A reschedule commits when no other appointment is in the way of the new one. -/
theorem write_checks (hc : db.Checks) {x : Exchange} (shared : x.Shared c actor appointmentId k now db)
    (booked : x.oldWindow.status = .booked) {workstationId userId : Nat}
    (workstation : c.allocateAvailable db x.appointment.serviceId x.window.startAt x.window.endAt (some appointmentId) =
      some workstationId) :
    (write (x.change appointmentId k workstationId userId now) x.appointment.status appointmentId db).Checks ↔
      (db.appointments.All fun j b => j ≠ appointmentId → Db.LeavesFree k x.window b) ∧
        db.appointments.All fun _ b => b.rescheduledFromId ≠ some appointmentId := by
  let left : Appointment := { x.appointment with status := .rescheduled }
  let moved := successor appointmentId k x.appointment x.window workstationId
  -- the appointment that is left is in nobody's way
  have gone : Db.appointmentChecks { db with appointments := db.appointments.put appointmentId left } := by
    refine Table.pairs_put Db.CompatibleAppointments.symm hc.appointments shared.appointment id fun b apart => ?_
    exact ⟨nofun, nofun, nofun, apart.rescheduledFrom⟩
  have valid : Db.validAppointment moved := by
    obtain ⟨⟨price, prepayment, least, most, -⟩, -⟩ := hc.appointments _ _ shared.appointment
    exact ⟨price, prepayment, least, most, (hc.windows k x.window shared.window).1⟩
  have compatible : ∀ j b, (db.appointments.put appointmentId left).row j = some b → j ≠ appointmentId →
      (Db.CompatibleAppointments moved b ↔
        Db.LeavesFree k x.window b ∧ b.rescheduledFromId ≠ some appointmentId) := by
    intro j b row other
    rw [Table.row_put_ne other] at row
    rw [Db.compatible_iff (w := x.window) (k := k) rfl ⟨rfl, rfl, rfl, rfl⟩ fun occupies same => ?_]
    · exact and_congr_right fun _ => ⟨fun h => (h rfl).symm, fun h _ => h.symm⟩
    · exact allocateAvailable_free workstation row (by simpa using other) occupies same.symm
  have behind : Db.CompatibleAppointments moved left ↔ left.rescheduledFromId ≠ some appointmentId :=
    ⟨fun h => (h.rescheduledFrom rfl).symm, fun h => ⟨nofun, nofun, nofun, fun _ => h.symm⟩⟩
  have windows : Db.windowChecks { db with
      windows := (db.windows.put x.appointment.windowId (x.change appointmentId k workstationId userId now).oldWindow).put
        k { x.window with status := .booked } } := by
    have first := Db.windowChecks_put (s := if x.oldWindow.startAt > now then .open else .closed) hc.windows
      shared.oldWindow fun _ => by rw [booked]; rfl
    refine Db.windowChecks_put (s := .booked) first ?_ fun _ => by rw [shared.isOpen]; rfl
    rw [Table.row_put_ne shared.other.symm]
    exact shared.window
  have here : (db.appointments.put appointmentId left).row appointmentId = some left :=
    Table.row_put_self shared.appointment
  constructor
  · intro h
    obtain ⟨-, -, all⟩ := Db.appointmentChecks_insert.mp h.appointments
    have others : ∀ j b, db.appointments.row j = some b → j ≠ appointmentId →
        Db.LeavesFree k x.window b ∧ b.rescheduledFromId ≠ some appointmentId := by
      intro j b row other
      have kept : (db.appointments.put appointmentId left).row j = some b := by rw [Table.row_put_ne other, row]
      exact (compatible j b kept other).mp (all j b kept)
    refine ⟨fun j b row other => (others j b row other).1, fun j b row => ?_⟩
    by_cases same : j = appointmentId
    · subst same
      rw [shared.appointment, Option.some.injEq] at row
      exact row ▸ behind.mp (all j left here)
    · exact (others j b row same).2
  · rintro ⟨free, origin⟩
    have all : (db.appointments.put appointmentId left).All fun _ b => Db.CompatibleAppointments moved b := by
      intro j b row
      rcases (Table.row_put_eq_some shared.appointment).mp row with ⟨rfl, rfl⟩ | ⟨other, old⟩
      · exact behind.mpr (origin j x.appointment shared.appointment)
      · exact (compatible j b row other).mpr ⟨free j b old other, origin j b old⟩
    have appointments := Db.appointmentChecks_insert.mpr ⟨gone, valid, all⟩
    exact ⟨windows, appointments, hc.reservations, hc.payments, hc.refunds, hc.events⟩

theorem accepted_iff (hc : db.Checks) : Accepted c actor appointmentId k now db ↔
    ∃ x : Exchange, x.Shared c actor appointmentId k now db ∧ x.Taken c appointmentId k now db := by
  simp only [Accepted, reschedule_iff]
  constructor
  · rintro ⟨_, x, shared, ⟨client, booked, ahead, period, room⟩, workstationId, userId, workstation, -, checks, rfl⟩
    obtain ⟨free, origin⟩ := (write_checks hc shared booked workstation).mp checks
    exact ⟨x, shared, client, booked, ahead, period, room, free, origin⟩
  · rintro ⟨x, shared, taken⟩
    obtain ⟨workstationId, workstation⟩ := shared.workstation
    obtain ⟨userId, allowed⟩ := shared.allowed
    have checks : (write (x.change appointmentId k workstationId userId now) x.appointment.status appointmentId db).Checks :=
      (write_checks hc shared taken.booked workstation).mpr ⟨taken.free, taken.origin⟩
    exact ⟨_, x, shared, ⟨taken.client, taken.booked, taken.ahead, taken.period, taken.room⟩, workstationId, userId,
      workstation, allowed, checks, rfl⟩

/-- A window is among the options of an appointment exactly when the same actor could reschedule to it, for every window
on which the two sets of conditions agree and no other. -/
theorem offered_iff_accepted (c : Catalog) (actor : RescheduleActor) (appointmentId k : Nat) (now : Int)
    (hc : db.Checks) :
    (Offered c actor appointmentId k now db ↔ Accepted c actor appointmentId k now db) ↔
      Agree c actor appointmentId k now db := by
  rw [offered_iff, accepted_iff hc]
  exact exists_iff_exists fun _ _ => Exchange.unique

/-! ### The salon -/

instance : Decidable (Offered c actor appointmentId k now db) := inferInstanceAs (Decidable (∃ _, _ ∧ _))

instance : Decidable (Accepted c actor appointmentId k now db) := inferInstanceAs (Decidable (∃ _, _))

open Salon in
/-- A client has a visit in the morning of the second day; a later window of the master is open. -/
def morningVisit : Db :=
  (run Sys.step .empty [⟨salon .disabled, 0, openWindow 8⟩, ⟨salon .disabled, 0, openWindow 12⟩,
    ⟨salon .disabled, minutes 1, bookWindow 2 1⟩]).db

theorem offered_iff_accepted_morningVisit :
    Offered (salon .disabled) (.client 2) 1 2 (minutes 2) morningVisit ∧
      Agree (salon .disabled) (.client 2) 1 2 (minutes 2) morningVisit := by
  have offered : Offered (salon .disabled) (.client 2) 1 2 (minutes 2) morningVisit := by decide +kernel
  have accepted : Accepted (salon .disabled) (.client 2) 1 2 (minutes 2) morningVisit := by decide +kernel
  have checks : morningVisit.Checks := by decide +kernel
  exact ⟨offered, (offered_iff_accepted (salon .disabled) (.client 2) 1 2 (minutes 2) checks).mp
    ⟨fun _ => accepted, fun _ => offered⟩⟩

/-- Two masters with room for two appointments a day each. -/
def pairs : Catalog := { duo with settings := duo.settings.map fun s => { s with maxAppointmentsPerDay := 2 } }

open Salon in
/-- A client visits one master, two other clients visit the other one on the same day. -/
def busyDay : Db :=
  (run Sys.step .empty [⟨pairs, 0, openWindow 8⟩, ⟨pairs, 0, openWindow 12⟩, ⟨pairs, 0, openWindowFor 2 10⟩,
    ⟨pairs, 0, openWindowFor 2 14⟩, ⟨pairs, minutes 1, bookWindow 2 1⟩, ⟨pairs, minutes 2, bookWindow 3 3⟩,
    ⟨pairs, minutes 3, bookWindow 4 4⟩]).db

/-- The visits to the other master hide a window that a reschedule accepts, and a window that starts now is offered to
the owner and refused. -/
theorem offered_not_accepted :
    (¬ Offered pairs (.client 2) 1 2 (minutes 4) busyDay ∧ Accepted pairs (.client 2) 1 2 (minutes 4) busyDay) ∧
    (Offered (salon .disabled) (.admin 1) 1 2 (days 1 + hours 12) morningVisit ∧
      ¬ Accepted (salon .disabled) (.admin 1) 1 2 (days 1 + hours 12) morningVisit) := by
  decide +kernel

end RescheduleService

end SalonBooking
