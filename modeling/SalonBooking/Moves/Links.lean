import SalonBooking.Moves.Kept

/-!
# Links between the rows of one booking

An appointment has at most one reservation and at most one payment, both refer to an existing
appointment, and refunds belong to captured payments. The queries of the services that pick the latest
payment or a reservation of an appointment therefore have nothing to choose from.
-/

namespace SalonBooking

open Lib

structure Links (db : Db) : Prop where
  reservation_once : db.reservations.Distinct Reservation.appointmentId
  reservation_known : db.reservations.All fun _ r => ∀ i ∈ r.appointmentId, ∃ a, db.appointments.row i = some a
  payment_once : db.payments.Distinct fun p => some p.appointmentId
  payment_known : db.payments.All fun _ p => ∃ a, db.appointments.row p.appointmentId = some a
  refund_captured : db.refunds.All fun _ r =>
    ∃ p, db.payments.row r.paymentId = some p ∧ p.status.captured = true

namespace Links

variable {db db' : Db} {may : Db → Effect → Prop}

theorem empty : Links .empty :=
  ⟨.empty, Table.all_empty, .empty, Table.all_empty, Table.all_empty⟩

/-- What the refunds of `db'` have to refer to. -/
theorem refunds_of_keeps (h : Links db) (hk : Kept db db')
    (hf : db'.refunds.Keeps (fun r' r => r'.paymentId = r.paymentId) db.refunds) :
    db'.refunds.All fun _ r => ∃ p, db'.payments.row r.paymentId = some p ∧ p.status.captured = true := by
  intro x r' hr'
  obtain ⟨r, hrow, hsame⟩ := hf x r' hr'
  obtain ⟨p, hprow, hcap⟩ := h.refund_captured x r hrow
  obtain ⟨q, hq, hpq⟩ := hk.payments _ p hprow
  exact ⟨q, hsame ▸ hq, hpq.2 hcap⟩

theorem of_keeps (h : Links db) (hk : Kept db db')
    (hr : db'.reservations.Keeps (fun r' r => r'.appointmentId = r.appointmentId) db.reservations)
    (hp : db'.payments.Keeps (fun q p => q.appointmentId = p.appointmentId) db.payments)
    (hf : db'.refunds.All fun _ r => ∃ p, db'.payments.row r.paymentId = some p ∧ p.status.captured = true) :
    Links db' where
  reservation_once := h.reservation_once.of_keeps hr
  reservation_known := by
    intro j r' hr' i hi
    obtain ⟨r, hrow, hsame⟩ := hr j r' hr'
    obtain ⟨a, ha⟩ := h.reservation_known j r hrow i (hsame ▸ hi)
    obtain ⟨a', ha', -⟩ := hk.appointments i a ha
    exact ⟨a', ha'⟩
  payment_once := h.payment_once.of_keeps fun x q hq => by
    obtain ⟨p, hp, hsame⟩ := hp x q hq
    exact ⟨p, hp, congrArg some hsame⟩
  payment_known := by
    intro x q hq
    obtain ⟨p, hprow, hsame⟩ := hp x q hq
    obtain ⟨a, ha⟩ := h.payment_known x p hprow
    obtain ⟨a', ha', -⟩ := hk.appointments _ a ha
    exact ⟨a', hsame ▸ ha'⟩
  refund_captured := hf

theorem reservation_new (h : Links db) :
    db.reservations.All fun _ r => r.appointmentId ≠ some db.appointments.next := by
  intro j r hr hi
  obtain ⟨a, ha⟩ := h.reservation_known j r hr _ hi
  exact absurd (Table.lt_next ha) (lt_irrefl _)

theorem payment_new (h : Links db) : db.payments.All fun _ p => p.appointmentId ≠ db.appointments.next := by
  intro x p hp hi
  obtain ⟨a, ha⟩ := h.payment_known x p hp
  exact absurd (hi ▸ Table.lt_next ha) (lt_irrefl _)

theorem of_move (h : Links db) (hm : Move may db db') : Links db' := by
  have hk := Kept.of_move hm
  have same := @of_keeps db db' h hk
  have hr : db.reservations.Keeps (fun r' r => r'.appointmentId = r.appointmentId) db.reservations :=
    .refl fun _ => rfl
  have hp : db.payments.Keeps (fun q p => q.appointmentId = p.appointmentId) db.payments := .refl fun _ => rfl
  have hf := @refunds_of_keeps db db' h hk
  have hf₀ : db.refunds.Keeps (fun r' r => r'.paymentId = r.paymentId) db.refunds := .refl fun _ => rfl
  cases hm with
  | idle => exact same hr hp (hf hf₀)
  | createWindow => exact same hr hp (hf hf₀)
  | setWindow => exact same hr hp (hf hf₀)
  | deleteWindow => exact same hr hp (hf hf₀)
  | place => exact same hr hp (hf hf₀)
  | hold k w a r p row free window status mode origin live appointmentId agrees payment =>
    refine ⟨h.reservation_once.insert ?_, .insert ?_ ?_, h.payment_once.insert ?_, .insert ?_ ?_, ?_⟩
    · intro i hi
      rw [appointmentId] at hi; cases hi
      exact h.reservation_new
    · exact h.reservation_known.mono fun j r hr i hi =>
        (hr i hi).imp fun a ha => Table.row_insert_of_some ha
    · intro i hi
      rw [appointmentId] at hi; cases hi
      exact ⟨a, Table.row_insert_self⟩
    · intro i hi
      rw [payment] at hi; cases hi
      exact h.payment_new.mono fun x p hp hi => hp (Option.some.inj hi)
    · exact h.payment_known.mono fun x p hp => hp.imp fun a ha => Table.row_insert_of_some ha
    · rw [payment]
      exact ⟨a, Table.row_insert_self⟩
    · exact h.refund_captured.mono fun x r hr => hr.imp fun p hp => ⟨Table.row_insert_of_some hp.1, hp.2⟩
  | confirmHold k w i a j r t window appointment reservation =>
    exact same (.put_back (fun _ => rfl) reservation rfl) hp (hf hf₀)
  | releaseHold k w i a j r t a' r' payments window appointment reservation at_window pending live belongs
      agrees sameb status ended gone gone_belongs unpaid money =>
    refine same (.put_back (fun _ => rfl) reservation (gone_belongs.trans belongs.symm)) ?_ (hf hf₀)
    rcases money with rfl | ⟨pid, p, q, row, -, -, -, step, rfl⟩
    · exact hp
    · exact .put_back (fun _ => rfl) row step.intent.appointmentId
  | report i a j r pid p q t appointment reservation pending active belongs payment of step =>
    exact same (.put_back (fun _ => rfl) reservation rfl)
      (.put_back (fun _ => rfl) payment step.intent.appointmentId) (hf hf₀)
  | confirmVisit => exact same hr hp (hf hf₀)
  | endVisit => exact same hr hp (hf hf₀)
  | reschedule => exact same hr hp (hf hf₀)
  | reassign i a w k' w' staff reservations row occupies window target other free follows =>
    refine same ?_ hp (hf hf₀)
    cases follows with
    | none => exact hr
    | some j r row belongs => exact .put_back (fun _ => rfl) row rfl
  | payment pid p q row step => exact same hr (.put_back (fun _ => rfl) row step.intent.appointmentId) (hf hf₀)
  | request pid p r appointments row allowed status of =>
    have paid : p.status.captured = true := by rcases status with hs | hs <;> rw [hs] <;> rfl
    refine same hr (.put_back (fun _ => rfl) row rfl) (.insert ?_ ?_)
    · exact @refunds_of_keeps db { db with payments := db.payments.put pid _ } h
        ⟨.refl .refl, .refl .refl, hk.payments, .refl .refl⟩ hf₀
    · exact ⟨{ p with status := .refundPending }, by rw [of]; exact Table.row_put_self row, rfl⟩
  | result pid p q x c c' r s appointments t? payment refund allowed of samer step =>
    exact same hr (.put_back (fun _ => rfl) payment step.intent.appointmentId)
      (hf (.put_back (fun _ => rfl) refund rfl))

end Links

end SalonBooking
