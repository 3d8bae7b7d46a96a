import SalonBooking.Model.System
import SalonBooking.Moves.History

/-!
# What a transaction can do

Thirty commands of ten services rewrite the same few rows. `Move` says once what they can do to them:
a committed transaction is one of these moves, or a row of them (an expiry cycle, a reassignment), and
every invariant of the system is shown once for each move. A move keeps the guards the code has checked
and the data it has written, as far as some invariant needs them. Event rows are left open: no invariant
of bookings and money reads them.

`Move may` is indexed by the effects on money that a command may have in a state, so that a condition on
commands ("no success on an expired booking") can be used in the middle of a move.
-/

namespace SalonBooking

open Lib

/-- A captured payment of an appointment. -/
def Captured (db : Db) (appointmentId : Nat) : Prop :=
  ∃ pid p, db.payments.row pid = some p ∧ p.appointmentId = appointmentId ∧ p.status.captured = true

/-- Two versions of one appointment: who, where, when and on which terms. -/
structure SameBooking (a b : Appointment) : Prop where
  staffMemberId : b.staffMemberId = a.staffMemberId
  clientId : b.clientId = a.clientId
  windowId : b.windowId = a.windowId
  serviceId : b.serviceId = a.serviceId
  scheduledStartAt : b.scheduledStartAt = a.scheduledStartAt
  rescheduledFromId : b.rescheduledFromId = a.rescheduledFromId
  paymentModeSnapshot : b.paymentModeSnapshot = a.paymentModeSnapshot

/-- Two versions of one payment: what is owed, for what and under which key. -/
structure SameIntent (p q : Payment) : Prop where
  appointmentId : q.appointmentId = p.appointmentId
  provider : q.provider = p.provider
  amount : q.amount = p.amount
  currency : q.currency = p.currency
  idempotencyKey : q.idempotencyKey = p.idempotencyKey
  safeMetadata : q.safeMetadata = p.safeMetadata

/-- A change of a payment that is no refund. -/
structure PaymentStep (p q : Payment) : Prop where
  intent : SameIntent p q
  refundedAmount : q.refundedAmount = p.refundedAmount
  providerPaymentId : p.providerPaymentId = none ∨ q.providerPaymentId = p.providerPaymentId
  status : q.status = p.status ∨
    (p.status = .created ∨ p.status = .pending) ∧ q.status ∈ [.pending, .succeeded, .cancelled, .failed]

namespace PaymentStep

variable {p q : Payment}

theorem captured (h : PaymentStep p q) (hp : p.status.captured = true) : q.status.captured = true := by
  rcases h.status with hs | ⟨hs, -⟩
  · rw [hs]; exact hp
  · rcases hs with hs | hs <;> rw [hs] at hp <;> cases hp

end PaymentStep

/-- The statuses in which a visit can end. -/
def AppointmentStatus.isEnd : AppointmentStatus → Bool
  | cancelledByClient | cancelledByAdmin | completed | noShow => true
  | _ => false

theorem AppointmentStatus.allowed_of_active {s t : AppointmentStatus} (hs : s.isActive = true)
    (ht : t.isEnd = true ∨ t = .rescheduled ∨ s = .confirmed ∧ t = .clientConfirmed) : t ∈ s.allowed := by
  cases s <;> cases t <;> simp_all [isActive, isEnd, allowed]

/-- A pending appointment may be confirmed, expire or be cancelled by the staff. -/
theorem AppointmentStatus.allowed_of_pending {s t : AppointmentStatus} (hs : s.isPending = true)
    (ht : t = .confirmed ∨ t = .paymentExpired ∨ t = .cancelledByAdmin) : t ∈ s.allowed := by
  cases s <;> simp_all [isPending, allowed] <;> rcases ht with rfl | rfl | rfl <;> simp

/-- The statuses a refund gives to an appointment. -/
def AppointmentStatus.isRefund : AppointmentStatus → Bool
  | refundPending | partiallyRefunded | refunded => true
  | _ => false

/-- Two versions of one refund: how much, of which payment and under which key. -/
structure SameRefund (r r' : Refund) : Prop where
  paymentId : r'.paymentId = r.paymentId
  provider : r'.provider = r.provider
  amount : r'.amount = r.amount
  currency : r'.currency = r.currency
  idempotencyKey : r'.idempotencyKey = r.idempotencyKey

/-- What a result does to the total and the status of a payment and to the status of its refund. The
last two cases of a success and of a failure are objects left behind by a raise; only a coordinator that
commits after a raise can store them. -/
inductive RefundOutcome (p : Payment) (r : Refund) (q : Payment) (r' : Refund) : Prop
  | touched (status : r'.status = r.status) (payment : q.status = p.status)
      (total : q.refundedAmount = p.refundedAmount)
  | replayed (was : r.status = .succeeded) (status : r'.status = .succeeded)
      (payment : q.status = PaymentService.refundedTarget p) (total : q.refundedAmount = p.refundedAmount)
  | succeeded (was : r.status = .pending) (status : r'.status = .succeeded)
      (payment : q.status = PaymentService.refundedTarget q) (room : p.refundedAmount + r.amount ≤ p.amount)
      (total : q.refundedAmount = p.refundedAmount + r.amount)
  | overflown (was : r.status = .pending) (status : r'.status = .succeeded) (payment : q.status = p.status)
      (full : p.refundedAmount + r.amount > p.amount) (total : q.refundedAmount = p.refundedAmount)
  | stuck (was : r.status = .pending) (status : r'.status = .succeeded) (payment : q.status = p.status)
      (room : p.refundedAmount + r.amount ≤ p.amount) (total : q.refundedAmount = p.refundedAmount + r.amount)
      (blocked : ¬ (q.status = PaymentService.refundedTarget q ∨
        PaymentService.refundedTarget q ∈ q.status.allowed))
  | failed (was : r.status = r'.status ∨ r.status = .pending)
      (status : r'.status = .failed ∨ r'.status = .cancelled) (payment : q.status = PaymentService.restoredTarget p)
      (total : q.refundedAmount = p.refundedAmount)
  | unrestored (was : r.status = r'.status ∨ r.status = .pending)
      (status : r'.status = .failed ∨ r'.status = .cancelled) (payment : q.status = p.status)
      (total : q.refundedAmount = p.refundedAmount)
      (blocked : ¬ (p.status = PaymentService.restoredTarget p ∨ PaymentService.restoredTarget p ∈ p.status.allowed))

/-- A change of a payment and its refund by a result. -/
structure RefundStep (p : Payment) (r : Refund) (q : Payment) (r' : Refund) : Prop where
  intent : SameIntent p q
  providerPaymentId : q.providerPaymentId = p.providerPaymentId
  columns : flushedRefund r r' r = r'
  edge : q.status = p.status ∨ q.status ∈ p.status.allowed
  outcome : RefundOutcome p r q r'

/-- Where a refund ends, and what it takes to end it on an object that is not the stored row. -/
structure Applied (p : Payment) (c r c' : Refund) (reported : RefundStatus) : Prop where
  ends : c'.status = c.status ∨ c'.status = reported
  copied : c = r ∨ c.status = .pending ∧ c'.status = .succeeded ∧ p.refundedAmount + c.amount ≤ p.amount

theorem isRefund_of_syncTarget {s : PaymentStatus} {t : AppointmentStatus} (h : WebhookCoordinator.syncTarget s = some t) :
    t.isRefund = true := by
  cases s <;> cases h <;> rfl

/-- What a refund does to the appointments: the appointment of the payment takes the target status. -/
inductive RefundSync (appointments : Table Appointment) (i : Nat) :
    Option AppointmentStatus → Table Appointment → Prop
  | none : RefundSync appointments i none appointments
  | already (a) (row : appointments.row i = some a) : RefundSync appointments i (some a.status) appointments
  | edge (a t) (row : appointments.row i = some a) (edge : t ∈ a.status.allowed) :
    RefundSync appointments i (some t) (appointments.put i { a with status := t })

/-- What a reassignment does to the reservations: the row that belongs to the appointment follows it. -/
inductive Follows (reservations : Table Reservation) (i staff k : Nat) : Table Reservation → Prop
  | none (absent : ∀ j r, reservations.row j = some r → r.appointmentId ≠ some i) :
    Follows reservations i staff k reservations
  | some (j r) (row : reservations.row j = some r) (belongs : r.appointmentId = some i) :
    Follows reservations i staff k
      (reservations.put j { r with staffMemberId := staff, windowId := k })

/-- The effects that some result puts a condition on, or relies on a check of. -/
inductive Effect
  /-- A window goes on offer: the row it is not compared with is its own. -/
  | offer (window : Window) (excludeId : Option Nat)
  /-- The master of a window takes on an appointment in it: the one that is not counted is moved here. -/
  | accept (window : Window) (excludeAppointmentId : Option Nat)
  /-- The transaction moves appointments to another master, in whatever states its rounds pass. -/
  | transfer
  /-- This payment becomes a captured one. -/
  | capture (paymentId : Nat)
  /-- A refund of this payment starts. -/
  | request (paymentId : Nat)
  /-- A result with this status is applied to a refund of this payment: the object it is applied to and
  the stored row. -/
  | result (paymentId : Nat) (copy row : Refund) (reported : RefundStatus)
  /-- The submission of a refund of this payment fails for good. -/
  | unsent (paymentId : Nat)

/-- A new appointment in a window: with its master, at its time, and admitted to her day. -/
structure Admitted (may : Db → Effect → Prop) (db : Db) (w : Window) (excludeAppointmentId : Option Nat)
    (a : Appointment) : Prop where
  staff : a.staffMemberId = w.staffMemberId
  start : a.scheduledStartAt = w.startAt
  allowed : may db (.accept w excludeAppointmentId)

/-- The committed effect of one transaction, or of one round of a transaction with a loop. -/
inductive Move (may : Db → Effect → Prop) (db : Db) : Db → Prop
  /-- At most event rows change. -/
  | idle (events history)
      (log : Chronicle db.appointments db.history db.appointments history) : Move may db { db with events, history }
  | createWindow (w : Window) (status : w.status.isHeld = false) (events history)
      (log : Chronicle db.appointments db.history db.appointments history)
      (offered : w.status = .open → may db (.offer w none)) :
    Move may db { db with windows := db.windows.insert w, events, history }
  | setWindow (k w s) (row : db.windows.row k = some w) (before : w.status.isHeld = false)
      (after : s.isHeld = false) (events history)
      (log : Chronicle db.appointments db.history db.appointments history)
      (offered : s = .open → may db (.offer w (some k))) :
    Move may db { db with windows := db.windows.put k { w with status := s }, events, history }
  | deleteWindow (k w) (row : db.windows.row k = some w) (status : w.status.isHeld = false)
      (unused : ∀ i a, db.appointments.row i = some a → a.windowId ≠ k) (events history)
      (log : Chronicle db.appointments db.history db.appointments history) :
    Move may db { db with windows := db.windows.erase k, events, history }
  /-- A booking without prepayment. -/
  | place (k w a) (row : db.windows.row k = some w) (free : w.status = .open) (window : a.windowId = k)
      (status : a.status = .confirmed) (mode : a.paymentModeSnapshot = .disabled)
      (origin : a.rescheduledFromId = none) (events history)
      (log : Chronicle db.appointments db.history (db.appointments.insert a) history)
      (admitted : Admitted may db w none a) :
    Move may db { db with
      windows := db.windows.put k { w with status := .booked }
      appointments := db.appointments.insert a, events, history }
  /-- A booking with prepayment. -/
  | hold (k w a r p) (row : db.windows.row k = some w) (free : w.status = .open) (window : a.windowId = k)
      (status : a.status = .pendingPayment) (mode : a.paymentModeSnapshot ≠ .disabled)
      (origin : a.rescheduledFromId = none) (live : r.status = .active)
      (appointmentId : r.appointmentId = some db.appointments.next) (agrees : ReservationService.Matches r a)
      (payment : p.appointmentId = db.appointments.next) (created : p.status = .created)
      (provider : p.provider = a.paymentModeSnapshot) (unrefunded : p.refundedAmount = 0)
      (unpaid : p.providerPaymentId = none)
      (money : 0 < p.amount ∧ p.amount ≤ maxMoney ∧ isCurrency p.currency = true) (events history)
      (log : Chronicle db.appointments db.history (db.appointments.insert a) history)
      (admitted : Admitted may db w none a) :
    Move may db { db with
      windows := db.windows.put k { w with status := .reserved }
      appointments := db.appointments.insert a
      reservations := db.reservations.insert r
      payments := db.payments.insert p, events, history }
  /-- A paid hold becomes a visit. -/
  | confirmHold (k w i a j r t) (window : db.windows.row k = some w)
      (appointment : db.appointments.row i = some a) (reservation : db.reservations.row j = some r)
      (at_window : r.windowId = k) (pending : a.status.isPending = true) (live : r.status.isLive = true)
      (belongs : r.appointmentId = some i) (agrees : ReservationService.Matches r a) (paid : Captured db i)
      (events history)
      (log : Chronicle db.appointments db.history (db.appointments.put i { a with status := .confirmed, reservationExpiresAt := none }) history) :
    Move may db { db with
      windows := db.windows.put k { w with status := .booked }
      appointments := db.appointments.put i { a with status := .confirmed, reservationExpiresAt := none }
      reservations := db.reservations.put j { r with status := .consumed, consumedAt := some t }
      events, history }
  /-- A hold ends: by expiry, with the payment that expiry cancels, or by rejection. -/
  | releaseHold (k w i a j r) (t : AppointmentStatus) (a' r' payments) (window : db.windows.row k = some w)
      (appointment : db.appointments.row i = some a) (reservation : db.reservations.row j = some r)
      (at_window : r.windowId = k) (pending : a.status.isPending = true) (live : r.status.isLive = true)
      (belongs : r.appointmentId = some i) (agrees : ReservationService.Matches r a)
      (same : SameBooking a a') (status : a'.status = t) (ended : t = .paymentExpired ∨ t = .cancelledByAdmin)
      (gone : r'.status = .expired ∨ r'.status = .cancelled) (gone_belongs : r'.appointmentId = some i)
      (unpaid : ∀ pid p, db.payments.row pid = some p → p.appointmentId = i → p.status ≠ .succeeded)
      (money : payments = db.payments ∨ ∃ pid p q, db.payments.row pid = some p ∧ p.appointmentId = i ∧
        p.status = .pending ∧ (q.status = .cancelled ∨ q.status = .failed) ∧ PaymentStep p q ∧
        payments = db.payments.put pid q) (events history)
      (log : Chronicle db.appointments db.history (db.appointments.put i a') history)
      (key : r'.idempotencyKey = r.idempotencyKey) :
    Move may db { db with
      windows := db.windows.put k { w with status := .open }
      appointments := db.appointments.put i a'
      reservations := db.reservations.put j r'
      payments, events, history }
  /-- The client reports a manual payment. -/
  | report (i a j r pid p q t) (appointment : db.appointments.row i = some a)
      (reservation : db.reservations.row j = some r) (pending : a.status.isPending = true)
      (active : r.status = .active) (belongs : r.appointmentId = some i)
      (payment : db.payments.row pid = some p) (of : p.appointmentId = i) (step : PaymentStep p q)
      (same : q.status = p.status) (events history)
      (log : Chronicle db.appointments db.history (db.appointments.put i
        { a with status := .pendingManualConfirmation, reservationExpiresAt := t }) history) :
    Move may db { db with
      appointments := db.appointments.put i
        { a with status := .pendingManualConfirmation, reservationExpiresAt := t }
      reservations := db.reservations.put j { r with status := .awaitingReview }
      payments := db.payments.put pid q, events, history }
  | confirmVisit (i a t) (row : db.appointments.row i = some a) (status : a.status = .confirmed)
      (events history)
      (log : Chronicle db.appointments db.history (db.appointments.put i
        { a with status := .clientConfirmed, clientConfirmedAt := t }) history) :
    Move may db { db with
      appointments := db.appointments.put i { a with status := .clientConfirmed, clientConfirmedAt := t }
      events, history }
  /-- A visit ends. -/
  | endVisit (w i a a' s) (row : db.appointments.row i = some a) (active : a.status.isActive = true)
      (window : db.windows.row a.windowId = some w) (same : SameBooking a a') (ended : a'.status.isEnd = true)
      (free : s = .open ∨ s = .closed) (events history)
      (log : Chronicle db.appointments db.history (db.appointments.put i a') history) :
    Move may db { db with
      windows := db.windows.put a.windowId { w with status := s }
      appointments := db.appointments.put i a', events, history }
  /-- A visit is moved to another window, under a new appointment. -/
  | reschedule (i a w k' w' b s) (row : db.appointments.row i = some a) (active : a.status.isActive = true)
      (window : db.windows.row a.windowId = some w) (target : db.windows.row k' = some w')
      (other : a.windowId ≠ k') (free : w'.status = .open) (left : s = .open ∨ s = .closed)
      (at_target : b.windowId = k') (status : b.status = .confirmed) (origin : b.rescheduledFromId = some i)
      (mode : b.paymentModeSnapshot = a.paymentModeSnapshot) (client : b.clientId = a.clientId)
      (events history)
      (log : Chronicle db.appointments db.history ((db.appointments.put i { a with status := .rescheduled }).insert b) history)
      (admitted : Admitted may db w' (some i) b) :
    Move may db { db with
      windows := (db.windows.put a.windowId { w with status := s }).put k' { w' with status := .booked }
      appointments := (db.appointments.put i { a with status := .rescheduled }).insert b, events, history }
  /-- An appointment changes its master. -/
  | reassign (i a w k' w' staff reservations) (row : db.appointments.row i = some a)
      (occupies : a.status.occupies = true) (window : db.windows.row a.windowId = some w)
      (target : db.windows.row k' = some w') (other : a.windowId ≠ k') (free : w'.status = .open)
      (follows : Follows db.reservations i staff k' reservations) (events history)
      (log : Chronicle db.appointments db.history (db.appointments.put i { a with staffMemberId := staff, windowId := k' }) history)
      (start : w'.startAt = a.scheduledStartAt) (moved : ∃ d, may d .transfer) :
    Move may db { db with
      windows := (db.windows.put a.windowId { w with status := .open }).put k'
        { w' with status := if a.status.isPending then .reserved else .booked }
      appointments := db.appointments.put i { a with staffMemberId := staff, windowId := k' }
      reservations, events, history }
  /-- A payment changes other than by a refund. -/
  | payment (pid p q) (row : db.payments.row pid = some p) (step : PaymentStep p q)
      (captured : q.status.captured = true → p.status.captured = true ∨ may db (.capture pid)) (events history)
      (log : Chronicle db.appointments db.history db.appointments history) :
    Move may db { db with payments := db.payments.put pid q, events, history }
  /-- A refund of a captured payment starts. -/
  | request (pid p r appointments) (row : db.payments.row pid = some p) (allowed : may db (.request pid))
      (status : p.status = .succeeded ∨ p.status = .partiallyRefunded) (of : r.paymentId = pid)
      (pending : r.status = .pending) (positive : 0 < r.amount)
      (room : p.refundedAmount + db.sumPendingRefunds pid + r.amount ≤ p.amount)
      (sync : RefundSync db.appointments p.appointmentId (some .refundPending) appointments) (events history)
      (log : Chronicle db.appointments db.history appointments history) :
    Move may db { db with
      appointments
      payments := db.payments.put pid { p with status := .refundPending }
      refunds := db.refunds.insert r, events, history }
  /-- A refund goes on or ends. -/
  | result (pid p q x c c' r s appointments t?) (payment : db.payments.row pid = some p)
      (refund : db.refunds.row x = some r) (allowed : may db (.result pid c r s)) (of : c.paymentId = pid)
      (same : SameRefund r c) (step : RefundStep p c q c') (applied : Applied p c r c' s)
      (target : t? = WebhookCoordinator.syncTarget q.status ∨
        t? = .none ∧ (q.status = p.status ∨ c'.status = .failed ∧ may db (.unsent pid)))
      (sync : RefundSync db.appointments p.appointmentId t? appointments) (events history)
      (log : Chronicle db.appointments db.history appointments history) :
    Move may db { db with
      appointments
      payments := db.payments.put pid q
      refunds := db.refunds.put x (flushedRefund c c' r), events, history }

inductive Moves (may : Db → Effect → Prop) : Db → Db → Prop
  | refl (db) : Moves may db db
  | tail {db db' db''} (before : Moves may db db') (last : Move may db' db'') : Moves may db db''

namespace Moves

variable {may : Db → Effect → Prop} {db db' db'' : Db}

theorem single (h : Move may db db') : Moves may db db' := .tail (.refl db) h

theorem trans (h : Moves may db db') (h' : Moves may db' db'') : Moves may db db'' := by
  induction h' with
  | refl => exact h
  | tail _ last ih => exact .tail ih last

theorem keeps {P : Db → Prop} (hmove : ∀ db db', P db → Move may db db' → P db')
    (h : Moves may db db') (hP : P db) : P db' := by
  induction h with
  | refl => exact hP
  | tail _ last ih => exact hmove _ _ ih last

end Moves

theorem Chronicle.of_move {may : Db → Effect → Prop} {db db' : Db} (h : Move may db db') :
    Chronicle db.appointments db.history db'.appointments db'.history := by
  cases h <;> assumption

end SalonBooking
