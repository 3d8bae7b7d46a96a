import SalonBooking.Money.Paid

/-!
# A payment and its appointment

Every payment belongs to one appointment, and no other payment belongs to it. `PairStep` lists what a
transaction can do to the two of them together; what is claimed about both is shown along these steps.
-/

namespace SalonBooking

open Lib

/-- What a refund transaction with this target makes of the status of the appointment. -/
def Synced (target : Option AppointmentStatus) (s t : AppointmentStatus) : Prop :=
  match target with
  | none => t = s
  | some u => t = u ∧ (s = u ∨ u ∈ s.allowed)

/-- Nothing leads out of `refunded`. -/
theorem RefundStep.refunded {p q : Payment} {r r' : Refund} (h : RefundStep p r q r') (hp : p.status = .refunded) :
    q.status = .refunded := by
  rcases h.edge with hs | hs
  · exact hs.trans hp
  · rw [hp] at hs; cases hs

/-- A payment with the status of its appointment, before and after a transaction. -/
inductive PairStep (may : Db → Effect → Prop) (db : Db) (pid : Nat) :
    Payment → AppointmentStatus → Payment → AppointmentStatus → Prop
  | same (p s) : PairStep may db pid p s p s
  | confirmed (p s) (pending : s.isPending = true) (paid : p.status.captured = true) :
    PairStep may db pid p s p .confirmed
  | released (p q s t) (pending : s.isPending = true) (ended : t = .paymentExpired ∨ t = .cancelledByAdmin)
      (unpaid : p.status ≠ .succeeded) (step : PaymentStep p q)
      (money : q = p ∨ p.status = .pending ∧ (q.status = .cancelled ∨ q.status = .failed)) :
    PairStep may db pid p s q t
  | reported (p q s) (pending : s.isPending = true) (step : PaymentStep p q) (same : q.status = p.status) :
    PairStep may db pid p s q .pendingManualConfirmation
  | visited (p s t) (active : s.isActive = true) (after : t = .clientConfirmed ∨ t.isEnd = true ∨ t = .rescheduled) :
    PairStep may db pid p s p t
  | paid (p q s) (step : PaymentStep p q)
      (captured : q.status.captured = true → p.status.captured = true ∨ may db (.capture pid)) :
    PairStep may db pid p s q s
  | requested (p s) (allowed : may db (.request pid)) (status : p.status = .succeeded ∨ p.status = .partiallyRefunded)
      (edge : s = .refundPending ∨ .refundPending ∈ s.allowed) :
    PairStep may db pid p s { p with status := .refundPending } .refundPending
  | result (p q s t x c r c' reported) (refund : db.refunds.row x = some r) (allowed : may db (.result pid c r reported))
      (of : r.paymentId = pid) (same : SameRefund r c)
      (step : RefundStep p c q c') (applied : Applied p c r c' reported)
      (sync : Synced (WebhookCoordinator.syncTarget q.status) s t ∨
        t = s ∧ (q.status = p.status ∨ c'.status = .failed ∧ may db (.unsent pid))) :
    PairStep may db pid p s q t

/-- A payment of `db'` is one of a new booking, or it has made a step together with its appointment. -/
def Paired (may : Db → Effect → Prop) (db db' : Db) : Prop :=
  ∀ pid q a', db'.payments.row pid = some q → db'.appointments.row q.appointmentId = some a' →
    (db.payments.row pid = none ∧ q.status = .created ∧ a'.status = .pendingPayment) ∨
    ∃ p a, db.payments.row pid = some p ∧ db.appointments.row p.appointmentId = some a ∧
      PairStep may db pid p a.status q a'.status

namespace Paired

variable {may : Db → Effect → Prop} {db db' : Db} {i pid : Nat} {a b : Appointment} {p q : Payment}

theorem of_payments (payments : db'.payments = db.payments)
    (back : ∀ pid p a', db.payments.row pid = some p → db'.appointments.row p.appointmentId = some a' →
      ∃ a, db.appointments.row p.appointmentId = some a ∧ PairStep may db pid p a.status p a'.status) :
    Paired may db db' := by
  intro pid q a' hq ha'
  rw [payments] at hq
  obtain ⟨a, ha, step⟩ := back pid q a' hq ha'
  exact .inr ⟨q, a, hq, ha, step⟩

theorem of_same (payments : db'.payments = db.payments) (appointments : db'.appointments = db.appointments) :
    Paired may db db' :=
  of_payments payments fun _ p a' _ ha' => ⟨a', appointments ▸ ha', .same p a'.status⟩

theorem of_insert (hl : Links db) (payments : db'.payments = db.payments)
    (appointments : db'.appointments = db.appointments.insert b) : Paired may db db' := by
  refine of_payments payments fun pid p a' hp ha' => ?_
  rw [appointments] at ha'
  rcases Table.row_insert_eq_some.mp ha' with ⟨hnew, -⟩ | ha'
  · exact absurd hnew (hl.payment_new pid p hp)
  · exact ⟨a', ha', .same p a'.status⟩

theorem of_put (payments : db'.payments = db.payments) (row : db.appointments.row i = some a)
    (appointments : db'.appointments = db.appointments.put i b)
    (step : ∀ pid p, db.payments.row pid = some p → p.appointmentId = i → PairStep may db pid p a.status p b.status) :
    Paired may db db' := by
  refine of_payments payments fun pid p a' hp ha' => ?_
  rw [appointments] at ha'
  rcases (Table.row_put_eq_some row).mp ha' with ⟨hi, rfl⟩ | ⟨-, ha'⟩
  · exact ⟨a, hi ▸ row, step pid p hp hi⟩
  · exact ⟨a', ha', .same p a'.status⟩

theorem of_payment (hl : Links db) (payment : db.payments.row pid = some p) (of : q.appointmentId = p.appointmentId)
    (payments : db'.payments = db.payments.put pid q)
    (others : ∀ j a', j ≠ p.appointmentId → db'.appointments.row j = some a' → db.appointments.row j = some a')
    (own : ∀ a', db'.appointments.row p.appointmentId = some a' →
      ∃ a, db.appointments.row p.appointmentId = some a ∧ PairStep may db pid p a.status q a'.status) :
    Paired may db db' := by
  intro x q' a' hq' ha'
  rw [payments] at hq'
  rcases (Table.row_put_eq_some payment).mp hq' with ⟨rfl, rfl⟩ | ⟨hx, hq'⟩
  · rw [of] at ha'
    obtain ⟨a, ha, step⟩ := own a' ha'
    exact .inr ⟨p, a, payment, ha, step⟩
  · have other : q'.appointmentId ≠ p.appointmentId := fun h =>
      hx (hl.payment_once x pid q' p _ hq' payment rfl (congrArg some h.symm))
    exact .inr ⟨q', a', hq', others _ a' other ha', .same q' a'.status⟩

theorem sync_own {t? : Option AppointmentStatus} {appointments : Table Appointment} {a' : Appointment}
    (sync : RefundSync db.appointments i t? appointments) (ha' : appointments.row i = some a') :
    ∃ a, db.appointments.row i = some a ∧ Synced t? a.status a'.status := by
  cases sync with
  | none => exact ⟨a', ha', rfl⟩
  | already b row =>
    rw [row] at ha'; cases ha'
    exact ⟨_, row, rfl, .inl rfl⟩
  | edge b t row edge =>
    rw [Table.row_put_self row] at ha'; cases ha'
    exact ⟨b, row, rfl, .inr edge⟩

theorem sync_others {t? : Option AppointmentStatus} {appointments : Table Appointment} {a' : Appointment} {j : Nat}
    (sync : RefundSync db.appointments i t? appointments) (hj : j ≠ i) (ha' : appointments.row j = some a') :
    db.appointments.row j = some a' := by
  cases sync with
  | none => exact ha'
  | already => exact ha'
  | edge a t row edge => rwa [Table.row_put_ne hj] at ha'

end Paired

theorem Move.paired {may : Db → Effect → Prop} {db db' : Db} (hl : Links db) (hm : Move may db db') : Paired may db db' := by
  cases hm with
  | idle => exact .of_same rfl rfl
  | createWindow => exact .of_same rfl rfl
  | setWindow => exact .of_same rfl rfl
  | deleteWindow => exact .of_same rfl rfl
  | place => exact .of_insert hl rfl rfl
  | hold k w a r p row free window status mode origin live appointmentId agrees payment created =>
    intro pid q a' hq ha'
    have hq' : (db.payments.insert p).row pid = some q := hq
    have hrow : (db.appointments.insert a).row q.appointmentId = some a' := ha'
    rcases Table.row_insert_eq_some.mp hq' with ⟨rfl, rfl⟩ | hq'
    · rw [payment, Table.row_insert_self] at hrow; cases hrow
      exact .inl ⟨db.payments.bounded _ le_rfl, created, status⟩
    · rcases Table.row_insert_eq_some.mp hrow with ⟨hnew, -⟩ | hrow
      · exact absurd hnew (hl.payment_new pid q hq')
      · exact .inr ⟨q, a', hq', hrow, .same q a'.status⟩
  | confirmHold k w i a j r t window appointment reservation at_window pending live belongs agrees paid =>
    refine .of_put rfl appointment rfl fun pid p hp hi => .confirmed p a.status pending ?_
    obtain ⟨pid', p', hp', hi', captured⟩ := paid
    obtain rfl := hl.payment_once pid pid' p p' _ hp hp' (congrArg some hi) (congrArg some hi')
    rw [hp] at hp'; cases hp'
    exact captured
  | releaseHold k w i a j r t a' r' payments window appointment reservation at_window pending live belongs
      agrees same status ended gone gone_belongs unpaid money =>
    rcases money with rfl | ⟨pid, p, q, row, of, hpending, hq, step, rfl⟩
    · refine .of_put rfl appointment rfl fun pid p hp hi => ?_
      rw [status]
      exact .released p p _ t pending ended (unpaid pid p hp hi) (.refl p) (.inl rfl)
    · subst of
      refine .of_payment hl row step.intent.appointmentId rfl (fun j b hj hb => ?_) fun b hb => ?_
      · exact (Table.row_put_ne hj).symm.trans hb
      · have hb' : (db.appointments.put p.appointmentId a').row p.appointmentId = some b := hb
        rw [Table.row_put_self appointment] at hb'; cases hb'
        refine ⟨a, appointment, ?_⟩
        rw [status]
        exact .released p q _ t pending ended (unpaid pid p row rfl) step (.inr ⟨hpending, hq⟩)
  | report i a j r pid p q t appointment reservation pending active belongs payment of step same =>
    subst of
    refine .of_payment hl payment step.intent.appointmentId rfl (fun j b hj hb => ?_) fun b hb => ?_
    · exact (Table.row_put_ne hj).symm.trans hb
    · have hb' : (db.appointments.put p.appointmentId _).row p.appointmentId = some b := hb
      rw [Table.row_put_self appointment] at hb'; cases hb'
      exact ⟨a, appointment, .reported p q _ pending step same⟩
  | confirmVisit i a t row status =>
    exact .of_put rfl row rfl fun pid p _ _ => .visited p _ _ (by rw [status]; rfl) (.inl rfl)
  | endVisit w i a a' s row active window same ended =>
    exact .of_put rfl row rfl fun pid p _ _ => .visited p _ _ active (.inr (.inl ended))
  | reschedule i a w k' w' b s row active =>
    refine .of_payments rfl fun pid p a' hp ha' => ?_
    have hrow : ((db.appointments.put i { a with status := .rescheduled }).insert b).row p.appointmentId = some a' := ha'
    rcases Table.row_insert_eq_some.mp hrow with ⟨hnew, -⟩ | hrow
    · exact absurd hnew (hl.payment_new pid p hp)
    · rcases (Table.row_put_eq_some row).mp hrow with ⟨hi, rfl⟩ | ⟨-, hrow⟩
      · exact ⟨a, hi ▸ row, .visited p _ _ active (.inr (.inr rfl))⟩
      · exact ⟨a', hrow, .same p a'.status⟩
  | reassign i a w k' w' staff reservations row =>
    exact .of_put rfl row rfl fun pid p _ _ => .same p a.status
  | payment pid p q row step captured =>
    exact .of_payment hl row step.intent.appointmentId rfl (fun _ _ _ h => h)
      fun a' ha' => ⟨a', ha', .paid p q a'.status step captured⟩
  | request pid p r appointments row allowed status of pending positive room sync =>
    refine .of_payment (q := { p with status := .refundPending }) hl row rfl rfl
      (fun j a' hj ha' => Paired.sync_others sync hj ha') fun a' ha' => ?_
    obtain ⟨a, ha, hstatus, edge⟩ := Paired.sync_own sync ha'
    refine ⟨a, ha, ?_⟩
    rw [hstatus]
    exact .requested p a.status allowed status edge
  | result pid p q x c c' r s appointments t? payment refund allowed of same step applied target sync =>
    refine .of_payment hl payment step.intent.appointmentId rfl (fun j a' hj ha' => Paired.sync_others sync hj ha')
      fun a' ha' => ?_
    obtain ⟨a, ha, hsync⟩ := Paired.sync_own sync ha'
    refine ⟨a, ha, .result p q _ _ x c r c' s refund allowed (same.paymentId.symm.trans of) same step applied ?_⟩
    rcases target with rfl | ⟨rfl, hstatus⟩
    · exact .inl hsync
    · exact .inr ⟨hsync, hstatus⟩

theorem Move.refund_row {may : Db → Effect → Prop} {db db' : Db} (hm : Move may db db') {x : Nat} {r' : Refund}
    (row' : db'.refunds.row x = some r') : (∃ r, db.refunds.row x = some r ∧ SameRefund r r') ∨
      ∃ p, db'.payments.row r'.paymentId = some p ∧
        ∀ a', db'.appointments.row p.appointmentId = some a' → a'.status = .refundPending := by
  cases hm with
  | request pid p r appointments row allowed status of pending positive room sync =>
    rcases Table.row_insert_eq_some.mp row' with ⟨-, rfl⟩ | row'
    · refine .inr ⟨{ p with status := .refundPending }, by rw [of]; exact Table.row_put_self row, fun a' ha' => ?_⟩
      obtain ⟨a, -, hstatus, -⟩ := Paired.sync_own sync ha'
      exact hstatus
    · exact .inl ⟨r', row', .refl r'⟩
  | result pid p q x₀ c c' r s appointments t? payment refund =>
    rcases (Table.row_put_eq_some refund).mp row' with ⟨rfl, rfl⟩ | ⟨-, row'⟩
    · exact .inl ⟨r, refund, .flushed c c' r⟩
    · exact .inl ⟨r', row', .refl r'⟩
  | _ => exact .inl ⟨r', row', .refl r'⟩

end SalonBooking
