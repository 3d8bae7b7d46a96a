import SalonBooking.Money.Pairs

/-!
# Captured money backs a slot or can be refunded

A captured payment of a booking that still waits for it is a plain success, and no captured payment
belongs to an expired booking, as long as no success arrives after the expiry. Every other status that
has left its slot leads to `refundPending`.
-/

namespace SalonBooking

open Lib

namespace AppointmentStatus

theorem not_isPending_of_isEnd {s : AppointmentStatus} (h : s.isEnd = true) : s.isPending = false := by
  cases s <;> simp_all [isEnd, isPending]

/-- Whatever has left its slot, other than by expiry or by a complete refund, leads to a refund. -/
theorem refundPending_of_left {s : AppointmentStatus} (left : s.occupies = false) (expired : s ≠ paymentExpired)
    (complete : s ≠ refunded) : s = refundPending ∨ refundPending ∈ s.allowed := by
  cases s <;> simp_all [occupies, allowed]

end AppointmentStatus

/-- A payment is captured before its appointment has expired. -/
def Timely (db : Db) : Effect → Prop
  | .capture pid => ∀ p a, db.payments.row pid = some p → db.appointments.row p.appointmentId = some a →
    a.status ≠ .paymentExpired
  | _ => True

/-- What the statuses of a payment and its appointment have to do with each other. -/
structure Fits (p : Payment) (s : AppointmentStatus) : Prop where
  pending : s.isPending = true → p.status.captured = true → p.status = .succeeded
  expired : s = .paymentExpired → p.status.captured = false
  refunded : s = .refunded → p.status = .refunded

/-- Every payment fits its appointment, and only an appointment that waits for nothing is refunded. -/
structure Fitting (db : Db) : Prop where
  fits : db.payments.All fun _ p => ∀ a, db.appointments.row p.appointmentId = some a → Fits p a.status
  refunds : db.refunds.All fun _ r => ∀ p a, db.payments.row r.paymentId = some p →
    db.appointments.row p.appointmentId = some a → a.status.isPending = false

theorem Synced.target {q : PaymentStatus} {s t : AppointmentStatus} (h : Synced (WebhookCoordinator.syncTarget q) s t) :
    t = s ∨ t.isRefund = true ∧ (t = .refunded → q = .refunded) := by
  cases q <;> simp_all [Synced, WebhookCoordinator.syncTarget, AppointmentStatus.isRefund]

theorem PairStep.not_pending {may : Db → Effect → Prop} {db : Db} {pid : Nat} {p q : Payment} {s t : AppointmentStatus}
    (h : PairStep may db pid p s q t) (hs : s.isPending = false) : t.isPending = false := by
  cases h with
  | same => exact hs
  | confirmed => rfl
  | released _ _ _ _ ended => rcases ended with rfl | rfl <;> rfl
  | reported _ _ pending => rw [hs] at pending; cases pending
  | visited _ _ _ after =>
    rcases after with rfl | ended | rfl
    · rfl
    · exact AppointmentStatus.not_isPending_of_isEnd ended
    · rfl
  | paid => exact hs
  | requested => rfl
  | result _ _ _ x c r c' _ refund allowed of same step applied sync =>
    rcases sync with sync | ⟨rfl, -⟩
    · rcases sync.target with rfl | ⟨ht, -⟩
      · exact hs
      · exact AppointmentStatus.not_isPending_of_isRefund ht
    · exact hs

namespace Fits

variable {db : Db} {pid : Nat} {p q : Payment} {s t : AppointmentStatus}

theorem of_step (h : Fits p s) (row : db.payments.row pid = some p)
    (appointment : ∃ a, db.appointments.row p.appointmentId = some a ∧ a.status = s)
    (waits : ∀ x r, db.refunds.row x = some r → r.paymentId = pid → s.isPending = false ∧ p.status.captured = true)
    (hstep : PairStep Timely db pid p s q t) : Fits q t := by
  cases hstep with
  | same => exact h
  | confirmed _ pending paid => exact ⟨(by rintro ⟨⟩), (by rintro ⟨⟩), (by rintro ⟨⟩)⟩
  | released _ _ _ pending ended unpaid step money =>
    have uncaptured : q.status.captured = false := by
      rcases money with rfl | ⟨-, hq⟩
      · by_contra hcap
        exact unpaid (h.pending pending (by simpa using hcap))
      · rcases hq with hq | hq <;> rw [hq] <;> rfl
    rcases ended with rfl | rfl
    · exact ⟨(by rintro ⟨⟩), fun _ => uncaptured, (by rintro ⟨⟩)⟩
    · exact ⟨(by rintro ⟨⟩), (by rintro ⟨⟩), (by rintro ⟨⟩)⟩
  | reported _ _ pending step same =>
    refine ⟨fun _ hcap => ?_, (by simp), (by simp)⟩
    rw [same] at hcap ⊢
    exact h.pending pending hcap
  | visited _ _ active after =>
    rcases after with rfl | ended | rfl
    · exact ⟨(by rintro ⟨⟩), (by rintro ⟨⟩), (by rintro ⟨⟩)⟩
    · refine ⟨fun hp => ?_, ?_, ?_⟩
      · rw [AppointmentStatus.not_isPending_of_isEnd ended] at hp; cases hp
      · rintro rfl; cases ended
      · rintro rfl; cases ended
    · exact ⟨(by rintro ⟨⟩), (by rintro ⟨⟩), (by rintro ⟨⟩)⟩
  | paid _ _ step captured =>
    obtain ⟨a, ha, rfl⟩ := appointment
    refine ⟨fun hp hcap => ?_, fun he => ?_, fun hr => ?_⟩
    · rcases step.status with hs | ⟨-, hs⟩
      · rw [hs] at hcap ⊢
        exact h.pending hp hcap
      · revert hcap hs
        cases q.status <;> simp [PaymentStatus.captured]
    · by_contra hcap
      rcases captured (by simpa using hcap) with hp | timely
      · rw [h.expired he] at hp; cases hp
      · exact timely p a row ha he
    · rcases step.status with hs | ⟨hs, -⟩
      · exact hs.trans (h.refunded hr)
      · rw [h.refunded hr] at hs
        rcases hs with hs | hs <;> cases hs
  | requested allowed status edge => exact ⟨(by rintro ⟨⟩), (by rintro ⟨⟩), (by rintro ⟨⟩)⟩
  | result _ _ _ x c r c' _ refund allowed of same step applied sync =>
    obtain ⟨settled, captured⟩ := waits x r refund of
    have hs : t = s ∨ t.isRefund = true ∧ (t = .refunded → q.status = .refunded) := by
      rcases sync with sync | ⟨rfl, -⟩
      · exact sync.target
      · exact .inl rfl
    rcases hs with rfl | ⟨refund_, hq⟩
    · refine ⟨fun hp => ?_, fun he => ?_, fun hr => step.refunded (h.refunded hr)⟩
      · rw [settled] at hp; cases hp
      · rw [h.expired he] at captured; cases captured
    · refine ⟨fun hp => ?_, ?_, hq⟩
      · rw [AppointmentStatus.not_isPending_of_isRefund refund_] at hp; cases hp
      · rintro rfl; cases refund_

end Fits

namespace Fitting

variable {db db' : Db}

theorem empty : Fitting .empty := ⟨Table.all_empty, Table.all_empty⟩

theorem of_move (h : Fitting db) (hl : Links db) (hm : Move Timely db db') : Fitting db' := by
  have hk := Kept.of_move hm
  refine ⟨fun pid q hq a' ha' => ?_, fun x r' hr' q a' hq ha' => ?_⟩
  · rcases hm.paired hl pid q a' hq ha' with ⟨-, created, pending⟩ | ⟨p, a, hp, ha, step⟩
    · refine ⟨fun _ hcap => ?_, fun he => ?_, fun hr => ?_⟩
      · rw [created] at hcap; cases hcap
      · rw [pending] at he; cases he
      · rw [pending] at hr; cases hr
    · refine (h.fits pid p hp a ha).of_step hp ⟨a, ha, rfl⟩ (fun x r hr of => ?_) step
      obtain ⟨p', hp', captured⟩ := hl.refund_captured x r hr
      rw [of, hp] at hp'; cases hp'
      exact ⟨h.refunds x r hr p a (of ▸ hp) ha, captured⟩
  · rcases hm.refund_row hr' with ⟨r, hr, same⟩ | ⟨p, hp, refunding⟩
    · obtain ⟨p₀, hp₀, -⟩ := hl.refund_captured x r hr
      rw [same.paymentId] at hq
      rcases hm.paired hl _ q a' hq ha' with ⟨new, -⟩ | ⟨p, a, hp, ha, step⟩
      · rw [hp₀] at new; cases new
      · exact step.not_pending (h.refunds x r hr p a hp ha)
    · rw [hp] at hq; cases hq
      rw [refunding a' ha']; rfl

end Fitting

/-! ### Asking for the remainder -/

/-- A refund of the payment may start: both transition tables admit it, and no authorised request for the
remainder is turned away because of the appointment. -/
structure Refundable (db : Db) (pid : Nat) (p : Payment) (a : Appointment) : Prop where
  payment : requirePaymentTransition p.status .refundPending = .ok ()
  appointment : ensureAppointmentTransition a.status .refundPending = .ok ()
  request : ∀ c actor context, c.authorize actor .refundPayments = .ok context →
    ∀ text, PaymentAdminService.requestRemainingRefund c actor pid db ≠ .error (.appointmentState text)

/-- An error about something else than the status of an appointment. -/
def Elsewhere (e : Err) : Prop :=
  match e with
  | .appointmentState _ => False
  | _ => True

section Raises

variable {c : Catalog} {actor : Int} {db db' : Db} {pid : Nat} {p : Payment} {a : Appointment} {mode : PaymentMode}

theorem PaymentService.newRefund_raises {partial_ : Bool} {values : RefundCreate} {reserved : Money} :
    Except.Raises (newRefund mode partial_ pid p values reserved) Elsewhere := by
  simp [newRefund, requireProvider, requirePaymentState, requirePaymentTransition, validateMoney, Elsewhere]

theorem RefundCoordinator.transitionRefundAppointment_raises {userId : Option Nat} {text : String}
    (row : db.appointments.row p.appointmentId = some a)
    (admitted : ensureAppointmentTransition a.status .refundPending = .ok ()) :
    Except.Raises (transitionRefundAppointment p .refundPending userId text db) Elsewhere := by
  simp only [transitionRefundAppointment, Except.raises_bind, Except.raises_orRaise, Except.orRaise_ok]
  refine ⟨fun _ => trivial, fun a' ha' => ?_⟩
  rw [row] at ha'; cases ha'
  refine ⟨Except.raises_of_ok admitted, fun _ _ => ?_⟩
  split <;> simp

theorem Db.commit_raises : Except.Raises db.commit Elsewhere := by simp [Db.commit, Elsewhere]

theorem RefundCoordinator.ensureRefund_raises {userId : Nat} {values : RefundCreate}
    (row : db.payments.row values.paymentId = some p) (appointment : db.appointments.row p.appointmentId = some a)
    (admitted : ensureAppointmentTransition a.status .refundPending = .ok ()) :
    Except.Raises (ensureRefund mode userId values db) Elsewhere := by
  simp only [ensureRefund, Except.raises_bind, Except.raises_orRaise, Except.raises_require, Except.orRaise_ok]
  refine ⟨fun _ => trivial, fun p' hp' => ⟨fun _ => trivial, fun _ _ => ?_⟩⟩
  rw [row] at hp'; cases hp'
  split
  · simp [requireSameRefund, Elsewhere]
  · simp only [Except.raises_bind]
    refine ⟨PaymentService.newRefund_raises, fun r hdraft => ⟨?_, fun db' _ => ⟨Db.commit_raises, by simp⟩⟩⟩
    obtain ⟨q, draft⟩ := r
    obtain ⟨rfl, -⟩ := PaymentService.newRefund_ok hdraft
    exact transitionRefundAppointment_raises appointment admitted

theorem RefundCoordinator.createAndSubmit_raises {context : StaffContext} {values : RefundCreate}
    (authorized : c.authorize actor .refundPayments = .ok context) (row : db.payments.row values.paymentId = some p)
    (appointment : db.appointments.row p.appointmentId = some a)
    (admitted : ensureAppointmentTransition a.status .refundPending = .ok ()) :
    Except.Raises (createAndSubmit c actor mode values db) Elsewhere := by
  simp only [createAndSubmit, Except.raises_bind, Except.raises_require]
  refine ⟨Except.raises_of_ok authorized, fun context _ => ⟨fun _ => trivial, fun _ _ => ?_⟩⟩
  exact @ensureRefund_raises db p a mode context.userId { values with requestedByUserId := some context.userId }
    row appointment admitted

end Raises

theorem refundable_of_edges {db : Db} {pid : Nat} {p : Payment} {a : Appointment} (row : db.payments.row pid = some p)
    (appointment : db.appointments.row p.appointmentId = some a)
    (hp : requirePaymentTransition p.status .refundPending = .ok ())
    (ha : ensureAppointmentTransition a.status .refundPending = .ok ()) : Refundable db pid p a := by
  refine ⟨hp, ha, fun c actor context authorized text herror => ?_⟩
  have raises : Except.Raises (PaymentAdminService.requestRemainingRefund c actor pid db) Elsewhere := by
    simp only [PaymentAdminService.requestRemainingRefund, PaymentAdminService.remainingRefund, Except.raises_bind,
      Except.raises_orRaise, Except.raises_require, Except.raises_pure, Except.bind_ok, Except.orRaise_ok,
      Except.require_ok, Except.pure_ok, exists_const]
    refine ⟨⟨Except.raises_of_ok authorized, fun _ _ => ⟨fun _ => trivial, fun _ _ =>
      ⟨fun _ => trivial, fun _ _ => ⟨fun _ => trivial, fun _ _ => trivial⟩⟩⟩⟩, ?_⟩
    rintro ⟨mode, values⟩ ⟨_, _, p', hp', _, _, he⟩
    cases he
    exact RefundCoordinator.createAndSubmit_raises authorized row appointment ha
  exact raises _ herror

namespace Sys

/-- The command captures no payment whose appointment has expired unpaid. -/
def CapturesInTime (s : Sys) (x : Label) : Prop := ∀ pid p a, s.Occurs x (.capture pid) →
  s.db.payments.row pid = some p → s.db.appointments.row p.appointmentId = some a → a.status ≠ .paymentExpired

theorem CapturesInTime.timely {s : Sys} {x : Label} (h : CapturesInTime s x) (e : Effect) (he : s.Occurs x e) :
    Timely s.db e := by
  cases e with
  | capture pid => exact fun p a => h pid p a he
  | _ => trivial

/-- Captured money that is not all returned backs a slot or can be asked back, in every run in which no
payment is captured after its booking has expired. -/
theorem backed_or_refundable (l : List Label) (h : Guarded step CapturesInTime empty l) {pid : Nat} {p : Payment}
    (row : (after l).db.payments.row pid = some p) (status : p.status = .succeeded ∨ p.status = .partiallyRefunded) :
    ∃ a, (after l).db.appointments.row p.appointmentId = some a ∧
      (a.status.occupies = true ∨ Refundable (after l).db pid p a) := by
  have fitting : Fitting (after l).db :=
    guarded_after (fun s x hx => hx.timely) (fun _ _ hP hl hm => hP.of_move hl hm) .empty l h
  obtain ⟨a, appointment⟩ := (sound_after l).booked.links.payment_known pid p row
  obtain ⟨pending, expired, refunded⟩ := fitting.fits pid p row a appointment
  have captured : p.status.captured = true := by rcases status with hs | hs <;> rw [hs] <;> rfl
  refine ⟨a, appointment, ?_⟩
  by_cases occupies : a.status.occupies = true
  · exact .inl occupies
  · have edge : a.status = .refundPending ∨ .refundPending ∈ a.status.allowed := by
      refine AppointmentStatus.refundPending_of_left (by simpa using occupies) (fun he => ?_) fun hr => ?_
      · rw [expired he] at captured; cases captured
      · rw [refunded hr] at status
        rcases status with hs | hs <;> cases hs
    refine .inr (refundable_of_edges row appointment ?_ (ensureAppointmentTransition_ok.mpr edge))
    rw [requirePaymentTransition_ok]
    rcases status with hs | hs <;> rw [hs] <;> simp [PaymentStatus.allowed]

theorem backed_or_refundable_moved : ∃ p a, (after paidAndMoved).db.payments.row 1 = some p ∧
    (after paidAndMoved).db.appointments.row p.appointmentId = some a ∧
    (a.status.occupies = true ∨ Refundable (after paidAndMoved).db 1 p a) := by
  have inTime : Guarded step (fun s _ => s.db.appointments.All fun _ a => a.status ≠ .paymentExpired) empty
      paidAndMoved := by decide +kernel
  have payment : ((after paidAndMoved).db.payments.row 1).map (fun p => p.status) = some .succeeded := by
    decide +kernel
  obtain ⟨p, row, status⟩ := Option.map_eq_some_iff.mp payment
  have guarded : Guarded step CapturesInTime empty paidAndMoved :=
    inTime.mono fun s x all pid p a _ _ ha => all p.appointmentId a ha
  obtain ⟨a, appointment, h⟩ := backed_or_refundable paidAndMoved guarded row (.inl status)
  exact ⟨p, a, row, appointment, h⟩

open Salon in
/-- The hold of a booking expires while the provider creates its payment; then the client pays. -/
def lateSuccess : List Label :=
  let asked := askedPayment 2 .yookassa 1 1
  [⟨salon .yookassa, 0, openWindow 10⟩, ⟨salon .yookassa, minutes 1, bookWindow 2 1⟩,
    ⟨salon .yookassa, minutes 20, .expiryCycle 10 []⟩,
    ⟨salon .yookassa, minutes 21, .submitPayment 1 asked (.ok (pendingAnswer asked))⟩,
    ⟨salon .yookassa, minutes 22, .claimEvent (notice asked "succeeded")⟩,
    ⟨salon .yookassa, minutes 22, .applyPaymentResult (notice asked "succeeded") (succeededAnswer asked)⟩]

theorem lateSuccess_stranded : ∃ p a, (after lateSuccess).db.payments.row 1 = some p ∧ p.status = .succeeded ∧
    p.refundedAmount < p.amount ∧ (after lateSuccess).db.appointments.row p.appointmentId = some a ∧
    ¬ (a.status.occupies = true ∨ Refundable (after lateSuccess).db 1 p a) := by
  have payment : ((after lateSuccess).db.payments.row 1).map
      (fun p => (p.appointmentId, p.status, p.amount, p.refundedAmount)) = some (1, .succeeded, 10000, 0) := by
    decide +kernel
  have appointment : ((after lateSuccess).db.appointments.row 1).map (fun a => a.status) = some .paymentExpired := by
    decide +kernel
  obtain ⟨p, row, hp⟩ := Option.map_eq_some_iff.mp payment
  obtain ⟨a, row', ha⟩ := Option.map_eq_some_iff.mp appointment
  simp only [Prod.mk.injEq] at hp
  obtain ⟨of, status, amount, refunded⟩ := hp
  refine ⟨p, a, row, status, by rw [amount, refunded]; decide, of ▸ row', ?_⟩
  rw [ha]
  rintro (h | h)
  · cases h
  · have edge := h.appointment
    rw [ha] at edge
    exact not_ensure_from_paymentExpired (by decide) () edge

end Sys

end SalonBooking
