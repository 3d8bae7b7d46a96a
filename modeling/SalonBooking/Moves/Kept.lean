import SalonBooking.Moves.Move

/-!
# What no transaction undoes

Appointments, reservations, payments and refunds are never deleted, and some of what they say is final:
whose appointment it is and where it comes from, which appointment a reservation and a payment belong
to, that a reservation is consumed, that a payment is captured, how much a refund is about. Whatever is
carried from one transaction to a later one (a payment view, a refund object) rests on this.
-/

namespace SalonBooking

open Lib

namespace SameIntent

theorem refl (p : Payment) : SameIntent p p := ⟨rfl, rfl, rfl, rfl, rfl, rfl⟩

theorem trans {p q r : Payment} (h : SameIntent p q) (h' : SameIntent q r) : SameIntent p r :=
  ⟨h'.1.trans h.1, h'.2.trans h.2, h'.3.trans h.3, h'.4.trans h.4, h'.5.trans h.5, h'.6.trans h.6⟩

end SameIntent

namespace SameRefund

theorem refl (r : Refund) : SameRefund r r := ⟨rfl, rfl, rfl, rfl, rfl⟩

theorem trans {r s t : Refund} (h : SameRefund r s) (h' : SameRefund s t) : SameRefund r t :=
  ⟨h'.1.trans h.1, h'.2.trans h.2, h'.3.trans h.3, h'.4.trans h.4, h'.5.trans h.5⟩

theorem symm {r s : Refund} (h : SameRefund r s) : SameRefund s r :=
  ⟨h.1.symm, h.2.symm, h.3.symm, h.4.symm, h.5.symm⟩

theorem flushed (c c' r : Refund) : SameRefund r (flushedRefund c c' r) := ⟨rfl, rfl, rfl, rfl, rfl⟩

end SameRefund

/-- Two versions of an appointment: whose it is, how it was to be paid and where it comes from. -/
structure SameOrigin (a a' : Appointment) : Prop where
  clientId : a'.clientId = a.clientId
  paymentModeSnapshot : a'.paymentModeSnapshot = a.paymentModeSnapshot
  rescheduledFromId : a'.rescheduledFromId = a.rescheduledFromId

namespace SameOrigin

theorem refl (a : Appointment) : SameOrigin a a := ⟨rfl, rfl, rfl⟩

theorem trans {a b c : Appointment} (h : SameOrigin a b) (h' : SameOrigin b c) : SameOrigin a c :=
  ⟨h'.1.trans h.1, h'.2.trans h.2, h'.3.trans h.3⟩

end SameOrigin

theorem SameBooking.origin {a a' : Appointment} (h : SameBooking a a') : SameOrigin a a' :=
  ⟨h.clientId, h.paymentModeSnapshot, h.rescheduledFromId⟩

/-- Two versions of a reservation: its appointment, and that it was consumed. -/
def SameHold (r r' : Reservation) : Prop :=
  r'.appointmentId = r.appointmentId ∧ (r.status = .consumed → r'.status = .consumed)

theorem SameHold.refl (r : Reservation) : SameHold r r := ⟨rfl, id⟩

theorem SameHold.trans {r s t : Reservation} (h : SameHold r s) (h' : SameHold s t) : SameHold r t :=
  ⟨h'.1.trans h.1, h'.2 ∘ h.2⟩

/-- Two versions of a payment: its intent, and that it was captured. -/
def SameMoney (p q : Payment) : Prop := SameIntent p q ∧ (p.status.captured = true → q.status.captured = true)

theorem SameMoney.refl (p : Payment) : SameMoney p p := ⟨.refl p, id⟩

theorem SameMoney.trans {p q r : Payment} (h : SameMoney p q) (h' : SameMoney q r) : SameMoney p r :=
  ⟨h.1.trans h'.1, h'.2 ∘ h.2⟩

theorem PaymentStep.money {p q : Payment} (h : PaymentStep p q) : SameMoney p q := ⟨h.intent, h.captured⟩

theorem RefundStep.money {p q : Payment} {r r' : Refund} (h : RefundStep p r q r') : SameMoney p q := by
  refine ⟨h.intent, fun hp => ?_⟩
  rcases h.edge with hs | hs
  · rw [hs]; exact hp
  · exact PaymentStatus.captured_of_allowed hs hp

/-- Everything that is final in `db` still holds in `db'`. -/
structure Kept (db db' : Db) : Prop where
  appointments : db.appointments.Keeps SameOrigin db'.appointments
  reservations : db.reservations.Keeps SameHold db'.reservations
  payments : db.payments.Keeps SameMoney db'.payments
  refunds : db.refunds.Keeps SameRefund db'.refunds

namespace Kept

variable {db db' db'' : Db} {may : Db → Effect → Prop}

theorem refl (db : Db) : Kept db db := ⟨.refl .refl, .refl .refl, .refl .refl, .refl .refl⟩

theorem trans (h : Kept db db') (h' : Kept db' db'') : Kept db db'' where
  appointments := h.appointments.trans (fun _ _ _ => .trans) h'.appointments
  reservations := h.reservations.trans (fun _ _ _ => .trans) h'.reservations
  payments := h.payments.trans (fun _ _ _ => .trans) h'.payments
  refunds := h.refunds.trans (fun _ _ _ => .trans) h'.refunds

theorem captured (h : Kept db db') {i : Nat} (hc : Captured db i) : Captured db' i := by
  obtain ⟨pid, p, hp, hi, hs⟩ := hc
  obtain ⟨q, hq, hpq⟩ := h.payments pid p hp
  exact ⟨pid, q, hq, hpq.1.appointmentId.trans hi, hpq.2 hs⟩

theorem follows {reservations reservations' : Table Reservation} {i staff k : Nat}
    (h : Follows reservations i staff k reservations') : reservations.Keeps SameHold reservations' := by
  cases h with
  | none => exact .refl .refl
  | some j r row belongs => exact .put .refl row ⟨rfl, id⟩

theorem sync {appointments appointments' : Table Appointment} {i : Nat} {t? : Option AppointmentStatus}
    (h : RefundSync appointments i t? appointments') : appointments.Keeps SameOrigin appointments' := by
  cases h with
  | none => exact .refl .refl
  | already => exact .refl .refl
  | edge a t row => exact .put .refl row ⟨rfl, rfl, rfl⟩

theorem of_move (h : Move may db db') : Kept db db' := by
  have idle := refl db
  obtain ⟨ha, hr, hp, hf⟩ := idle
  cases h with
  | idle => exact ⟨ha, hr, hp, hf⟩
  | createWindow => exact ⟨ha, hr, hp, hf⟩
  | setWindow => exact ⟨ha, hr, hp, hf⟩
  | deleteWindow => exact ⟨ha, hr, hp, hf⟩
  | place => exact ⟨.insert .refl, hr, hp, hf⟩
  | hold => exact ⟨.insert .refl, .insert .refl, .insert .refl, hf⟩
  | confirmHold k w i a j r t window appointment reservation =>
    refine ⟨.put .refl appointment ⟨rfl, rfl, rfl⟩, .put .refl reservation ⟨rfl, fun _ => rfl⟩, hp, hf⟩
  | releaseHold k w i a j r t a' r' payments window appointment reservation at_window pending live belongs
      agrees same status ended gone gone_belongs unpaid money =>
    refine ⟨.put .refl appointment same.origin, .put .refl reservation ⟨gone_belongs.trans belongs.symm, ?_⟩,
      ?_, hf⟩
    · intro hs
      rw [hs] at live; cases live
    · rcases money with rfl | ⟨pid, p, q, row, -, -, -, step, rfl⟩
      · exact hp
      · exact .put .refl row step.money
  | report i a j r pid p q t appointment reservation pending active belongs payment of step =>
    refine ⟨.put .refl appointment ⟨rfl, rfl, rfl⟩, .put .refl reservation ⟨rfl, ?_⟩,
      .put .refl payment step.money, hf⟩
    intro hs
    rw [hs] at active; cases active
  | confirmVisit i a t row => exact ⟨.put .refl row ⟨rfl, rfl, rfl⟩, hr, hp, hf⟩
  | endVisit w i a a' s row active window same => exact ⟨.put .refl row same.origin, hr, hp, hf⟩
  | reschedule i a w k' w' b s row =>
    have left : db.appointments.Keeps SameOrigin (db.appointments.put i { a with status := .rescheduled }) :=
      .put .refl row ⟨rfl, rfl, rfl⟩
    exact ⟨left.trans (fun _ _ _ => .trans) (.insert .refl), hr, hp, hf⟩
  | reassign i a w k' w' staff reservations row occupies window target other free hfollows =>
    exact ⟨.put .refl row ⟨rfl, rfl, rfl⟩, follows hfollows, hp, hf⟩
  | payment pid p q row step => exact ⟨ha, hr, .put .refl row step.money, hf⟩
  | request pid p r appointments row allowed status of pending positive room hsync =>
    exact ⟨sync hsync, hr, .put .refl row ⟨⟨rfl, rfl, rfl, rfl, rfl, rfl⟩, fun _ => rfl⟩, .insert .refl⟩
  | result pid p q x c c' r s appointments t? payment refund allowed of same step applied target hsync =>
    exact ⟨sync hsync, hr, .put .refl payment step.money, .put .refl refund (.flushed c c' r)⟩

theorem of_moves (h : Moves may db db') : Kept db db' := by
  induction h with
  | refl => exact refl _
  | tail _ last ih => exact ih.trans (of_move last)

end Kept

end SalonBooking
