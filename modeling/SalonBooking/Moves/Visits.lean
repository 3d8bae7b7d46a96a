import SalonBooking.Moves.Links

/-!
# Windows and visits

What the transactions of the window, visit and reschedule services commit. Each lemma reads the service
backwards, from a committed state to the checks that were passed, and names the move.
-/

namespace SalonBooking

open Lib

/-- A committed transaction: a row of moves that ends in a state the schema accepts. -/
structure Transaction (may : Db → Effect → Prop) (db db' : Db) : Prop where
  moves : Moves may db db'
  checks : db'.Checks

namespace Transaction

variable {may : Db → Effect → Prop} {db db' db'' : Db}

theorem refl (h : db.Checks) : Transaction may db db := ⟨.refl db, h⟩

theorem trans (h : Transaction may db db') (h' : Transaction may db' db'') : Transaction may db db'' :=
  ⟨h.moves.trans h'.moves, h'.checks⟩

theorem of_commit (h : db'.commit = .ok db'') (hm : Move may db db') : Transaction may db db'' := by
  obtain ⟨hc, rfl⟩ := Db.commit_ok.mp h
  exact ⟨.single hm, hc⟩

end Transaction

variable {may : Db → Effect → Prop} {c : Catalog} {db db' : Db} {actor : Int} {windowId appointmentId : Nat} {now : Int}

/-! ### Windows -/

/-- What the calendar rules and `_lock_and_validate_active_interval` have checked of a window on offer on a day. -/
structure Offerable (settings : BusinessSettings) (db : Db) (w : Window) (excludeId : Option Nat) (day : Int) :
    Prop where
  positive : w.startAt < w.endAt
  ends : settings.timezone.localDate w.endAt = day
  spaced : validateCapacityAndSpacing w.startAt w.endAt
    (db.activeWindowsBetween (settings.timezone.utcDayBounds day).1 (settings.timezone.utcDayBounds day).2
      w.staffMemberId excludeId) settings.maxAppointmentsPerDay settings.minimumGapMinutes = .ok ()

namespace AvailabilityService

theorem validateCalendarRules_ok {settings : BusinessSettings} {day startAt endAt : Int}
    (h : validateCalendarRules settings day startAt endAt now = .ok ()) :
    startAt < endAt ∧ settings.timezone.localDate endAt = day ∧ settings.timezone.localDate now ≤ day ∧
      day ≤ settings.timezone.localDate now + settings.bookingHorizonDays := by
  simp only [validateCalendarRules, Except.bind_ok, Except.require_ok, exists_const, not_or, not_lt] at h
  obtain ⟨positive, -, ends, horizon, -⟩ := h
  exact ⟨not_le.mp positive, ends, horizon⟩

theorem validateActiveInterval_ok {settings : BusinessSettings} {day startAt endAt : Int} {staff : Nat}
    {excludeId : Option Nat}
    (h : validateActiveInterval c db settings day startAt endAt staff excludeId true = .ok ()) :
    validateCapacityAndSpacing startAt endAt
      (db.activeWindowsBetween (settings.timezone.utcDayBounds day).1 (settings.timezone.utcDayBounds day).2
        staff excludeId) settings.maxAppointmentsPerDay settings.minimumGapMinutes = .ok () := by
  simp only [validateActiveInterval, Except.bind_ok, Except.require_ok, exists_const] at h
  exact h.2.2.2.2

def newWindow (settings : BusinessSettings) (values : AvailabilityWindowCreate) : Window :=
  let interval := localWindowToUtc settings.timezone values.localDate values.localStartTime
    (values.durationMinutes.getD settings.defaultWindowDurationMinutes)
  ⟨values.staffMemberId.getD defaultStaffMemberId, interval.1, interval.2, values.status⟩

theorem createWindow_rules {actor : WindowActor} {values : AvailabilityWindowCreate}
    (h : createWindow c actor values now db = .ok db') :
    ∃ settings, c.settings = some settings ∧
      validateCalendarRules settings values.localDate (newWindow settings values).startAt (newWindow settings values).endAt
        now = .ok () := by
  simp only [createWindow, Catalog.requireSettings, Except.bind_ok, Except.orRaise_ok] at h
  obtain ⟨-, -, settings, configured, _, rules, -⟩ := h
  exact ⟨settings, configured, rules⟩

theorem createWindow_ok {actor : WindowActor} {values : AvailabilityWindowCreate}
    (hmay : ∀ settings, c.settings = some settings → values.status = .open →
      Offerable settings db (newWindow settings values) none values.localDate →
        may db (.offer (newWindow settings values) none))
    (h : createWindow c actor values now db = .ok db') : Transaction may db db' := by
  simp only [createWindow, Catalog.requireSettings, Except.bind_ok, Except.orRaise_ok] at h
  obtain ⟨-, -, settings, configured, _, rules, _, interval, h⟩ := h
  have status : values.status.isHeld = false := by
    rcases values.only_open_or_closed with hs | hs <;> rw [hs] <;> rfl
  refine .of_commit h (.createWindow _ status _ _ .refl fun offered => hmay settings configured offered ?_)
  rw [decide_eq_true offered] at interval
  obtain ⟨positive, ends, -⟩ := validateCalendarRules_ok rules
  exact ⟨positive, ends, validateActiveInterval_ok interval⟩

theorem closeWindow_ok (h : closeWindow c actor windowId db = .ok db') : Transaction may db db' := by
  simp only [closeWindow, Except.bind_ok, Except.orRaise_ok, Except.require_ok] at h
  obtain ⟨-, -, -, -, w, row, -, status, h⟩ := h
  exact .of_commit h (.setWindow windowId w .closed row (by rw [status]; rfl) rfl _ _ .refl (by simp))

theorem reopenWindow_rules (h : reopenWindow c actor windowId now db = .ok db') :
    ∃ settings w, c.settings = some settings ∧ db.windows.row windowId = some w ∧
      validateCalendarRules settings (settings.timezone.localDate w.startAt) w.startAt w.endAt now = .ok () := by
  simp only [reopenWindow, Catalog.requireSettings, Except.bind_ok, Except.orRaise_ok, Except.require_ok] at h
  obtain ⟨-, -, settings, configured, w, row, -, -, _, rules, -⟩ := h
  exact ⟨settings, w, configured, row, rules⟩

theorem reopenWindow_ok
    (hmay : ∀ settings w, c.settings = some settings → db.windows.row windowId = some w →
      Offerable settings db w (some windowId) (settings.timezone.localDate w.startAt) → may db (.offer w (some windowId)))
    (h : reopenWindow c actor windowId now db = .ok db') : Transaction may db db' := by
  simp only [reopenWindow, Catalog.requireSettings, Except.bind_ok, Except.orRaise_ok, Except.require_ok] at h
  obtain ⟨-, -, settings, configured, w, row, -, status, _, rules, _, interval, h⟩ := h
  obtain ⟨positive, ends, -⟩ := validateCalendarRules_ok rules
  exact .of_commit h (.setWindow windowId w .open row (by rw [status]; rfl) rfl _ _ .refl fun _ =>
    hmay settings w configured row ⟨positive, ends, validateActiveInterval_ok interval⟩)

theorem deleteUnusedWindow_ok (h : deleteUnusedWindow c actor windowId db = .ok db') :
    Transaction may db db' := by
  simp only [deleteUnusedWindow, Except.bind_ok, Except.orRaise_ok, Except.require_ok, not_or] at h
  obtain ⟨-, -, w, row, -, status, -, unused, h⟩ := h
  exact .of_commit h (.deleteWindow windowId w row (WindowStatus.not_isHeld_iff.mpr status) unused _ _ .refl)

end AvailabilityService

/-! ### Visits -/

/-- What every operation that ends a visit writes, whatever rows it decides on. -/
structure VisitChange.Ends (change : VisitChange) (appointment : Appointment) (window : Window) : Prop where
  active : appointment.status.isActive = true
  same : SameBooking appointment change.appointment
  ended : change.appointment.status.isEnd = true
  free : change.window.status = .open ∨ change.window.status = .closed
  window : change.window = { window with status := change.window.status }

namespace VisitOp

variable {op : VisitOp} {appointment : Appointment} {window : Window} {change : VisitChange}

theorem cancel_ends {newStatus : AppointmentStatus} {userId : Nat} {reason : Option String} {reopen : Bool}
    (active : appointment.status.isActive = true) (ended : newStatus.isEnd = true)
    (h : AppointmentService.cancel appointment window newStatus userId reason now reopen = .ok change) :
    change.Ends appointment window := by
  simp only [AppointmentService.cancel, Except.bind_ok, Except.require_ok, ensureAppointmentTransition_ok,
    Except.pure_ok, exists_const] at h
  obtain ⟨-, -, rfl⟩ := h
  refine ⟨active, ⟨rfl, rfl, rfl, rfl, rfl, rfl, rfl⟩, ended, ?_, rfl⟩
  show (if _ then _ else _) = _ ∨ (if _ then _ else _) = _
  split
  · exact .inl rfl
  · exact .inr rfl

theorem closeOwnVisit_ends {actor : StaffContext} {target : AppointmentStatus} (ended : target.isEnd = true)
    (h : MasterWorkspaceService.closeOwnVisit c actor target now appointment window = .ok (some change)) :
    change.Ends appointment window := by
  simp only [MasterWorkspaceService.closeOwnVisit, Except.bind_ok] at h
  obtain ⟨-, -, h⟩ := h
  split at h
  · simp at h
  · simp only [Except.bind_ok, Except.require_ok, ensureAppointmentTransition_ok, Except.pure_ok, exists_const,
      Option.some.injEq] at h
    obtain ⟨active, -, -, -, -, -, rfl⟩ := h
    exact ⟨active, ⟨rfl, rfl, rfl, rfl, rfl, rfl, rfl⟩, ended, .inr rfl, rfl⟩

theorem decide_ends (h : op.decide c now appointment window = .ok (some change)) :
    change.Ends appointment window := by
  cases op with
  | cancelMy actor reason =>
    simp only [decide, AppointmentService.cancelMy, Except.bind_ok, Except.pure_ok, Option.some.injEq,
      exists_eq_right, ensureActiveAppointment_ok, exists_const] at h
    obtain ⟨clientId, -, settings, -, -, -, active, -, -, h⟩ := h
    exact cancel_ends active rfl h
  | cancelAdmin actor reopenWindow reason =>
    simp only [decide, AppointmentService.cancelAdmin, Except.bind_ok, Option.some.injEq, exists_eq_right,
      ensureActiveAppointment_ok, Except.pure_ok, exists_const] at h
    obtain ⟨active, change', h, -, -, rfl⟩ := h
    exact cancel_ends active rfl h
  | completeVisit actor =>
    simp only [decide, AppointmentService.completeVisit, Except.bind_ok] at h
    obtain ⟨-, -, h⟩ := h
    split at h
    · simp at h
    · simp only [Except.bind_ok, Except.require_ok, ensureAppointmentTransition_ok, Except.pure_ok, exists_const,
        Option.some.injEq] at h
      obtain ⟨active, -, -, rfl⟩ := h
      exact ⟨active, ⟨rfl, rfl, rfl, rfl, rfl, rfl, rfl⟩, rfl, .inr rfl, rfl⟩
  | markNoShow actor =>
    simp only [decide, AppointmentService.markNoShow, Except.bind_ok] at h
    obtain ⟨-, -, h⟩ := h
    split at h
    · simp at h
    · simp only [Except.bind_ok, Except.require_ok, ensureAppointmentTransition_ok, Except.pure_ok, exists_const,
        Option.some.injEq] at h
      obtain ⟨active, -, -, rfl⟩ := h
      exact ⟨active, ⟨rfl, rfl, rfl, rfl, rfl, rfl, rfl⟩, rfl, .inr rfl, rfl⟩
  | cancelOwnAppointment actor =>
    simp only [decide, MasterWorkspaceService.cancelOwnAppointment, Except.bind_ok, Option.some.injEq,
      exists_eq_right, Except.require_ok, ensureAppointmentTransition_ok, Except.pure_ok, exists_const] at h
    obtain ⟨-, -, active, -, -, -, -, -, rfl⟩ := h
    exact ⟨active, ⟨rfl, rfl, rfl, rfl, rfl, rfl, rfl⟩, rfl, .inl rfl, rfl⟩
  | completeOwnVisit actor => exact closeOwnVisit_ends rfl h
  | markOwnNoShow actor => exact closeOwnVisit_ends rfl h

end VisitOp

namespace AppointmentService

theorem endVisit_ok (hc : db.Checks) {op : VisitOp} (h : endVisit c op appointmentId now db = .ok db') :
    Transaction may db db' := by
  simp only [endVisit, requireAppointment, requireWindow, Except.bind_ok, Except.orRaise_ok] at h
  obtain ⟨-, -, a, row, -, -, w, window, change?, decided, h⟩ := h
  cases change? with
  | none =>
    rw [Except.pure_ok] at h
    exact h ▸ .refl hc
  | some change =>
    have ends := VisitOp.decide_ends decided
    have target : db.windows.row change.appointment.windowId = some w := by rw [ends.same.windowId, window]
    refine .of_commit h ?_
    rw [VisitChange.write, ends.window, ends.same.windowId]
    have edge := AppointmentStatus.allowed_of_active ends.active (.inl ends.ended)
    exact .endVisit w appointmentId a _ _ row ends.active window ends.same ends.ended ends.free _ _
      (.moved row edge rfl rfl rfl)

theorem confirm_ok {a : Appointment} (row : db.appointments.row appointmentId = some a)
    (status : a.status = .confirmed) {userId : Nat} {reason : String}
    (h : confirm appointmentId a userId reason now db = .ok db') : Transaction may db db' := by
  simp only [confirm, ensureAppointmentTransition_ok, Except.bind_ok, exists_const] at h
  obtain ⟨-, -, -, h⟩ := h
  have edge : AppointmentStatus.clientConfirmed ∈ a.status.allowed :=
    AppointmentStatus.allowed_of_active (by rw [status]; rfl) (.inr (.inr ⟨status, rfl⟩))
  exact .of_commit h (.confirmVisit appointmentId a _ row status _ _ (.moved row edge rfl rfl rfl))

theorem confirmVisit_ok (h : confirmVisit c actor appointmentId now db = .ok db') : Transaction may db db' := by
  simp only [confirmVisit, requireAppointment, Except.bind_ok, Except.orRaise_ok, Except.require_ok] at h
  obtain ⟨-, -, a, row, -, status, -, -, -, -, h⟩ := h
  exact confirm_ok row status h

theorem confirmMyVisit_ok (h : confirmMyVisit c actor appointmentId now db = .ok db') :
    Transaction may db db' := by
  simp only [confirmMyVisit, requireAppointment, Except.bind_ok, Except.orRaise_ok, Except.require_ok] at h
  obtain ⟨clientId, -, a, row, -, -, -, status, -, -, h⟩ := h
  exact confirm_ok row status h

end AppointmentService

/-! ### Moving a visit -/

/-- The cap leaves room for an appointment in this window, as `count_capacity_between` counts its day. -/
def Catalog.Admits (c : Catalog) (db : Db) (w : Window) (excludeAppointmentId : Option Nat) : Prop :=
  ∃ settings, c.settings = some settings ∧
    let bounds := settings.timezone.utcDayBounds (settings.timezone.localDate w.startAt)
    db.countCapacityBetween bounds.1 bounds.2 w.staffMemberId excludeAppointmentId < settings.maxAppointmentsPerDay

namespace RescheduleService

variable {settings : BusinessSettings} {actor : RescheduleActor} {userId newWindowId : Nat} {a : Appointment}
  {w w' : Window} {dailyCount : Int → Nat} {workstation : Option Nat} {change : RescheduleChange}

/-- What a reschedule has checked and what it writes. -/
structure Replaces (settings : BusinessSettings) (dailyCount : Int → Nat) (appointmentId newWindowId : Nat)
    (a : Appointment) (w w' : Window) (change : RescheduleChange) : Prop where
  room : dailyCount (settings.timezone.localDate w'.startAt) < settings.maxAppointmentsPerDay
  active : a.status.isActive = true
  free : w'.status = .open
  appointment : change.appointment = { a with status := .rescheduled }
  old : ∃ s, (s = .open ∨ s = .closed) ∧ change.oldWindow = { w with status := s }
  target : change.newWindow = { w' with status := .booked }
  successor : ∃ workstationId,
    change.newAppointment = successor appointmentId newWindowId a w' workstationId

theorem decide_replaces (h : decide c settings actor userId appointmentId newWindowId now a w w' dailyCount
    workstation = .ok change) : Replaces settings dailyCount appointmentId newWindowId a w w' change := by
  simp only [decide, Except.bind_ok, ensureActiveAppointment_ok, Except.require_ok, Except.orRaise_ok,
    ensureAppointmentTransition_ok, Except.pure_ok, exists_const] at h
  obtain ⟨active, -, -, -, free, -, -, day, bookable, -, -, room, workstationId, -, -, rfl⟩ := h
  rw [validateBookableDate_day bookable, not_le] at room
  refine ⟨room, active, free.1, rfl, ⟨_, ?_, rfl⟩, rfl, workstationId, rfl⟩
  split
  · exact .inl rfl
  · exact .inr rfl

theorem reschedule_ok (hmay : ∀ w, db.windows.row newWindowId = some w → c.Admits db w (some appointmentId) →
      may db (.accept w (some appointmentId)))
    (h : reschedule c actor appointmentId newWindowId now db = .ok db') : Transaction may db db' := by
  simp only [reschedule, AppointmentService.requireAppointment, Catalog.requireSettings, Except.bind_ok,
    Except.orRaise_ok, Except.require_ok, exists_const] at h
  obtain ⟨settings, configured, a, row, -, -, userId, -, w, window, w', target, other, change, decided, h⟩ := h
  obtain ⟨room, active, free, hap, ⟨s, left, hold⟩, hnew, workstationId, hsucc⟩ := decide_replaces decided
  have hwrite := Except.mapError_ok.mp h
  refine .of_commit hwrite ?_
  rw [write, hap, hold, hnew, hsucc]
  refine .reschedule appointmentId a w newWindowId w' (successor appointmentId newWindowId a w' workstationId) s row
    active window target other free left rfl rfl rfl rfl rfl _ _ ?_
    ⟨rfl, rfl, hmay w' target ⟨settings, configured, room⟩⟩
  have edge := AppointmentStatus.allowed_of_active (t := .rescheduled) active (.inr (.inl rfl))
  exact .trans (.moved row edge rfl rfl rfl) (.opened rfl rfl rfl)

end RescheduleService

end SalonBooking
