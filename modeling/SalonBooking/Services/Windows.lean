import SalonBooking.Model.Catalog

/-!
# Availability windows

`services/availability_service.py` without its views: creating, closing, reopening and deleting the
windows of a master.
-/

namespace SalonBooking

open Lib

/-- `AvailabilityWindowCreate`; the validator of the schema admits two statuses. -/
structure AvailabilityWindowCreate where
  localDate : Int
  localStartTime : Int
  staffMemberId : Option Nat
  durationMinutes : Option Nat
  status : WindowStatus
  only_open_or_closed : status = .open ∨ status = .closed
  time_of_day : 0 ≤ localStartTime ∧ localStartTime < days 1

namespace AvailabilityService

/-- `DEFAULT_STAFF_MEMBER_ID`. -/
def defaultStaffMemberId : Nat := 1

/-- `_ensure_window_actor`. -/
def ensureWindowActor (c : Catalog) (actor : WindowActor) (staffMemberId : Nat) : Check Unit :=
  match actor with
  | .admin telegramId => c.ensureAdmin telegramId
  | .master context => require (¬ (context.staffMemberId ≠ staffMemberId ∨ context.isBookable = false))
      (.authorization "Мастер может открывать окна только для себя.")

/-- `_lock_and_validate_active_interval`. -/
def validateActiveInterval (c : Catalog) (db : Db) (settings : BusinessSettings) (localDate startAt endAt : Int)
    (staffMemberId : Nat) (excludeId : Option Nat) (validateSchedule : Bool) : Check Unit := do
  require ((c.staff staffMemberId).any (fun m => m.isActive && m.isBookable) = true) (.windowValidation
    "Мастер недоступен для записи. Проверьте его профиль в разделе сотрудников.")
  let services := c.bookableServicesForStaff staffMemberId
  require (services ≠ []) (.windowValidation
    "У мастера нет услуг для онлайн-записи. Сначала назначьте их в его карточке.")
  let durationMinutes := (endAt - startAt) / minutes 1
  let fitting := services.filter fun s => decide ((s.2.durationMaxMinutes : Int) ≤ durationMinutes)
  require (fitting ≠ []) (.windowValidation
    ("Окно слишком короткое: самая короткая доступная услуга требует до " ++
      toString ((services.map fun s => s.2.durationMaxMinutes).min?.getD 0) ++ " мин."))
  require (∃ s ∈ fitting, c.workstationsFor s.1 ≠ []) (.windowValidation
    ("Для услуг мастера не настроено ни одного рабочего места. " ++
      "Откройте «Настройки бизнеса → Рабочие места»."))
  if validateSchedule then
    let (dayStart, dayEnd) := settings.timezone.utcDayBounds localDate
    validateCapacityAndSpacing startAt endAt
      (db.activeWindowsBetween dayStart dayEnd staffMemberId excludeId)
      settings.maxAppointmentsPerDay settings.minimumGapMinutes
  else return ()

/-- `create_window`. -/
def createWindow (c : Catalog) (actor : WindowActor) (values : AvailabilityWindowCreate) (now : Int)
    (db : Db) : Check Db := do
  let staffMemberId := values.staffMemberId.getD defaultStaffMemberId
  ensureWindowActor c actor staffMemberId
  let settings ← c.requireSettings
  let duration := values.durationMinutes.getD settings.defaultWindowDurationMinutes
  let interval := localWindowToUtc settings.timezone values.localDate values.localStartTime duration
  validateCalendarRules settings values.localDate interval.1 interval.2 now
  validateActiveInterval c db settings values.localDate interval.1 interval.2 staffMemberId none
    (decide (values.status = .open))
  (db.addWindow ⟨staffMemberId, interval.1, interval.2, values.status⟩).commit

/-- `close_window`. -/
def closeWindow (c : Catalog) (actor : Int) (windowId : Nat) (db : Db) : Check Db := do
  c.ensureAdmin actor
  let _ ← c.requireSettings
  let window ← orRaise (db.windows.row windowId) (.entityNotFound "Окно не найдено.")
  require (window.status = .open) (.windowState "Закрыть можно только свободное открытое окно.")
  (db.setWindow windowId { window with status := .closed }).commit

/-- `reopen_window`. -/
def reopenWindow (c : Catalog) (actor : Int) (windowId : Nat) (now : Int) (db : Db) : Check Db := do
  c.ensureAdmin actor
  let settings ← c.requireSettings
  let window ← orRaise (db.windows.row windowId) (.entityNotFound "Окно не найдено.")
  require (window.status = .closed) (.windowState "Открыть повторно можно только закрытое окно.")
  let localDate := settings.timezone.localDate window.startAt
  validateCalendarRules settings localDate window.startAt window.endAt now
  validateActiveInterval c db settings localDate window.startAt window.endAt window.staffMemberId
    (some windowId) true
  (db.setWindow windowId { window with status := .open }).commit

/-- `delete_unused_window`. -/
def deleteUnusedWindow (c : Catalog) (actor : Int) (windowId : Nat) (db : Db) : Check Db := do
  c.ensureAdmin actor
  let window ← orRaise (db.windows.row windowId) (.entityNotFound "Окно не найдено.")
  require (¬ (window.status = .reserved ∨ window.status = .booked))
    (.windowInUse "Занятое или зарезервированное окно удалить нельзя.")
  require (db.appointments.All fun _ a => a.windowId ≠ windowId)
    (.windowInUse "У окна есть история записей; используйте закрытие.")
  (db.deleteWindow windowId).commit

end AvailabilityService

end SalonBooking
