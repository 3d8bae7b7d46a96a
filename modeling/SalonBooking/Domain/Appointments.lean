import SalonBooking.Domain.Enums

/-!
# Appointment lifecycle rules

`domain/appointments.py`: the sets of active and slot-occupying statuses, the transition table and
the self-service deadlines.
-/

namespace SalonBooking

namespace AppointmentStatus

/-- `ACTIVE_APPOINTMENT_STATUSES`. -/
def isActive : AppointmentStatus → Bool
  | confirmed | clientConfirmed => true
  | _ => false

/-- `_PENDING_APPOINTMENT_STATUSES` of the reservation service. -/
def isPending : AppointmentStatus → Bool
  | pendingPayment | pendingManualConfirmation => true
  | _ => false

/-- `SCHEDULE_OCCUPYING_STATUSES`, also the predicate of the exclusion constraints. -/
def occupies : AppointmentStatus → Bool
  | pendingPayment | pendingManualConfirmation | confirmed | clientConfirmed => true
  | _ => false

/-- `CAPACITY_STATUSES`: statuses that count against the daily cap. -/
def countsCapacity : AppointmentStatus → Bool
  | completed | noShow => true
  | s => s.occupies

/-- `ALLOWED_APPOINTMENT_TRANSITIONS`. -/
def allowed : AppointmentStatus → List AppointmentStatus
  | pendingPayment =>
    [pendingManualConfirmation, confirmed, paymentExpired, cancelledByClient, cancelledByAdmin]
  | pendingManualConfirmation => [confirmed, paymentExpired, cancelledByClient, cancelledByAdmin]
  | confirmed =>
    [clientConfirmed, completed, cancelledByClient, cancelledByAdmin, noShow, rescheduled, refundPending]
  | clientConfirmed =>
    [completed, cancelledByClient, cancelledByAdmin, noShow, rescheduled, refundPending]
  | completed | cancelledByClient | cancelledByAdmin | noShow | rescheduled => [refundPending]
  | paymentExpired | refunded => []
  | refundPending => [partiallyRefunded, refunded]
  | partiallyRefunded => [refundPending, refunded]

/-- The value of the status in the source, used in texts. -/
def text : AppointmentStatus → String
  | pendingPayment => "pending_payment"
  | pendingManualConfirmation => "pending_manual_confirmation"
  | confirmed => "confirmed"
  | clientConfirmed => "client_confirmed"
  | completed => "completed"
  | cancelledByClient => "cancelled_by_client"
  | cancelledByAdmin => "cancelled_by_admin"
  | noShow => "no_show"
  | rescheduled => "rescheduled"
  | paymentExpired => "payment_expired"
  | refundPending => "refund_pending"
  | partiallyRefunded => "partially_refunded"
  | refunded => "refunded"

theorem occupies_iff (s : AppointmentStatus) : s.occupies = true ↔ s.isPending = true ∨ s.isActive = true := by
  cases s <;> simp [occupies, isPending, isActive]

theorem not_active_of_pending {s : AppointmentStatus} (h : s.isPending = true) : s.isActive = false := by
  cases s <;> simp_all [isPending, isActive]

theorem not_pending_of_active {s : AppointmentStatus} (h : s.isActive = true) : s.isPending = false := by
  cases s <;> simp_all [isPending, isActive]

theorem not_occupies_iff {s : AppointmentStatus} :
    s.occupies = false ↔ s.isPending = false ∧ s.isActive = false := by
  cases s <;> simp [occupies, isPending, isActive]

end AppointmentStatus

open AppointmentStatus Lib

/-- `ensure_appointment_transition`. -/
def ensureAppointmentTransition (current target : AppointmentStatus) : Check Unit :=
  require (current = target ∨ target ∈ current.allowed)
    (.appointmentState ("Appointment transition is not allowed: " ++ current.text ++ " -> " ++ target.text))

/-- `ensure_active_appointment`. -/
def ensureActiveAppointment (status : AppointmentStatus) : Check Unit :=
  require (status.isActive = true) (.appointmentState "Эта запись уже не является активной.")

/-- Microseconds of whole hours, minutes and days. -/
def hours (n : Int) : Int := n * 3600000000
def minutes (n : Int) : Int := n * 60000000
def days (n : Int) : Int := n * 86400000000

/-- `ensure_client_change_deadline`. -/
def ensureClientChangeDeadline (startAt now : Int) (deadlineHours : Nat) : Check Unit :=
  require (¬ startAt - now < hours deadlineHours) (.cancellationDeadline
    ("До записи осталось меньше " ++ toString deadlineHours ++ " ч. Самостоятельная отмена уже " ++
      "недоступна. Пожалуйста, напишите мастеру."))

/-- `ensure_client_reschedule_deadline`. -/
def ensureClientRescheduleDeadline (startAt now : Int) (deadlineHours : Nat) : Check Unit :=
  require (¬ startAt - now < hours deadlineHours) (.cancellationDeadline
    ("До записи осталось меньше " ++ toString deadlineHours ++ " ч. Самостоятельный перенос уже " ++
      "недоступен. Вы можете отменить запись, если срок отмены ещё не наступил, " ++
      "или написать мастеру."))

@[simp] theorem ensureAppointmentTransition_ok {s t : AppointmentStatus} {u : Unit} :
    ensureAppointmentTransition s t = .ok u ↔ s = t ∨ t ∈ s.allowed := by
  simp [ensureAppointmentTransition]

@[simp] theorem ensureAppointmentTransition_bind_ok {β : Type} {s t : AppointmentStatus}
    {f : Unit → Check β} {b : β} :
    (ensureAppointmentTransition s t >>= f) = .ok b ↔ (s = t ∨ t ∈ s.allowed) ∧ f () = .ok b := by
  simp [ensureAppointmentTransition]

@[simp] theorem ensureActiveAppointment_ok {s : AppointmentStatus} {u : Unit} :
    ensureActiveAppointment s = .ok u ↔ s.isActive = true := by
  simp [ensureActiveAppointment]

@[simp] theorem ensureActiveAppointment_bind_ok {β : Type} {s : AppointmentStatus} {f : Unit → Check β}
    {b : β} : (ensureActiveAppointment s >>= f) = .ok b ↔ s.isActive = true ∧ f () = .ok b := by
  simp [ensureActiveAppointment]

/-- Nothing leads out of `paymentExpired`: not even a refund. -/
theorem not_ensure_from_paymentExpired {t : AppointmentStatus} (h : t ≠ paymentExpired) (u : Unit) :
    ensureAppointmentTransition paymentExpired t ≠ .ok u := by
  rw [Ne, ensureAppointmentTransition_ok]
  rintro (rfl | hmem)
  · exact h rfl
  · cases hmem

end SalonBooking
