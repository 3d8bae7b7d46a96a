import SalonBooking.Money.Ledger

/-!
# A refund and the appointment it belongs to

An appointment waits for a refund only while its payment does, and whatever has been returned shows in
its status. A failed refund gives the payment its former status back but has no edge that gives the
appointment its own, so this holds as long as a refund fails only after a part has been returned.
-/

namespace SalonBooking

open Lib

/-- A refund starts when its appointment has left its slot, and it fails only where a part of the payment
has been returned before, so that the appointment can go back to `partiallyRefunded`. -/
def Careful (db : Db) : Effect → Prop
  | .offer .. | .accept .. | .transfer | .capture _ => True
  | .request pid => ∀ p a, db.payments.row pid = some p → db.appointments.row p.appointmentId = some a →
    a.status.isActive = false
  | .result pid c _ s => c.status = .pending → s = .failed ∨ s = .cancelled →
    ∀ p, db.payments.row pid = some p → 0 < p.refundedAmount ∧ p.refundedAmount < p.amount
  | .unsent pid => ∀ p a, db.payments.row pid = some p → db.appointments.row p.appointmentId = some a →
    a.status ≠ .refundPending

/-- What the statuses of a payment and its appointment say about refunds. -/
structure InStep (p : Payment) (s : AppointmentStatus) : Prop where
  waiting : s = .refundPending → p.status = .refundPending
  begun : 0 < p.refundedAmount → s.isRefund = true
  complete : s = .refunded → p.status = .refunded

/-- The total of a payment, within its bounds and in line with its status. -/
structure Bounded (p : Payment) : Prop where
  amount : 0 < p.amount
  total : 0 ≤ p.refundedAmount
  room : p.refundedAmount ≤ p.amount
  part : p.status = .partiallyRefunded → 0 < p.refundedAmount
  full : p.status = .refunded → p.refundedAmount = p.amount

structure Consistent (db : Db) : Prop where
  bounded : db.payments.All fun _ p => Bounded p
  size : db.refunds.All fun _ r => 0 < r.amount ∧ ∀ p, db.payments.row r.paymentId = some p → r.amount ≤ p.amount
  /-- A finished refund belongs to a payment of which something has been returned. -/
  finished : db.refunds.All fun _ r => r.status ≠ .pending → ∀ p, db.payments.row r.paymentId = some p →
    0 < p.refundedAmount
  /-- A payment of which nothing has been returned has at most one refund, and waits for it. -/
  first : db.refunds.All fun x r => ∀ p, db.payments.row r.paymentId = some p → p.refundedAmount = 0 →
    p.status = .refundPending ∧ ∀ y s, db.refunds.row y = some s → s.paymentId = r.paymentId → y = x
  pairs : db.payments.All fun _ p => ∀ a, db.appointments.row p.appointmentId = some a → InStep p a.status
  known : db.appointments.All fun i a => a.status.isRefund = true →
    ∃ pid p, db.payments.row pid = some p ∧ p.appointmentId = i

namespace Bounded

variable {p q : Payment}

theorem of_payment (h : Bounded p) (step : PaymentStep p q) : Bounded q := by
  have status : ∀ s : PaymentStatus, s = .partiallyRefunded ∨ s = .refunded → q.status = s → p.status = s := by
    intro s hs hq
    rcases step.status with same | ⟨-, new⟩
    · exact same.symm.trans hq
    · rw [hq] at new
      rcases hs with rfl | rfl <;> simp at new
  refine ⟨?_, ?_, ?_, fun hq => ?_, fun hq => ?_⟩
  · rw [step.intent.amount]; exact h.amount
  · rw [step.refundedAmount]; exact h.total
  · rw [step.refundedAmount, step.intent.amount]; exact h.room
  · rw [step.refundedAmount]; exact h.part (status _ (.inl rfl) hq)
  · rw [step.refundedAmount, step.intent.amount]; exact h.full (status _ (.inr rfl) hq)

theorem of_unrefunded (amount : 0 < q.amount) (total : q.refundedAmount = 0) (status : q.status = .created) :
    Bounded q := by
  refine ⟨amount, total.ge, total ▸ amount.le, fun hq => ?_, fun hq => ?_⟩
  · rw [status] at hq; cases hq
  · rw [status] at hq; cases hq

theorem of_status (h : Bounded p) (amount : q.amount = p.amount) (total : q.refundedAmount = p.refundedAmount)
    (part : q.status = .partiallyRefunded → 0 < p.refundedAmount)
    (full : q.status = .refunded → p.refundedAmount = p.amount) : Bounded q :=
  ⟨amount ▸ h.amount, total ▸ h.total, by rw [total, amount]; exact h.room, fun hq => total ▸ part hq,
    fun hq => by rw [total, amount]; exact full hq⟩

theorem of_refundedTarget (amount : 0 < q.amount) (total : 0 < q.refundedAmount) (room : q.refundedAmount ≤ q.amount)
    (status : q.status = PaymentService.refundedTarget q) : Bounded q := by
  refine ⟨amount, total.le, room, fun _ => total, fun hq => ?_⟩
  rw [hq, PaymentService.refundedTarget] at status
  split at status
  · next full => exact full
  · cases status

end Bounded

namespace RefundOutcome

variable {p q : Payment} {r r' : Refund}

/-- What a result leaves of the totals: something has been returned once a refund is finished, and as long
as nothing has been, the status of the payment is left alone. -/
structure Leaves (p : Payment) (r : Refund) (q : Payment) (r' : Refund) : Prop where
  bounded : Bounded q
  finished : r'.status ≠ .pending → 0 < q.refundedAmount
  unmoved : q.refundedAmount = 0 → q.status = p.status
  /-- What has just been returned shows in the status. -/
  shown : p.refundedAmount = 0 → 0 < q.refundedAmount →
    r'.status = .succeeded ∧ (q.status = .partiallyRefunded ∨ q.status = .refunded)
  /-- A payment that waits does not go back to a plain success. -/
  not_whole : p.status = .refundPending → q.status ≠ .succeeded

theorem leaves (h : RefundOutcome p r q r') (bounded : Bounded p) (captured : p.status.captured = true)
    (amount : q.amount = p.amount) (positive : 0 < r.amount) (fits : r.amount ≤ p.amount)
    (paid : r.status ≠ .pending → 0 < p.refundedAmount)
    (ended : r'.status = .failed ∨ r'.status = .cancelled → 0 < p.refundedAmount) : Leaves p r q r' := by
  have target : q.status = PaymentService.refundedTarget q → q.status = .partiallyRefunded ∨ q.status = .refunded := by
    intro hq
    rw [hq]
    exact (PaymentService.refundedTarget_cases q).symm
  cases h with
  | touched status payment total =>
    refine ⟨bounded.of_status amount total (fun hq => bounded.part (payment ▸ hq)) (fun hq => bounded.full (payment ▸ hq)),
      fun hr => ?_, fun _ => payment, fun h0 h1 => ?_, fun hp hq => ?_⟩
    · rw [total]; exact paid (status ▸ hr)
    · rw [total, h0] at h1; exact absurd h1 (lt_irrefl _)
    · rw [payment, hp] at hq; cases hq
  | replayed was status payment total =>
    have some_ : 0 < p.refundedAmount := paid (by rw [was]; nofun)
    have payment' : q.status = PaymentService.refundedTarget q := by
      rw [payment, PaymentService.refundedTarget, PaymentService.refundedTarget, total, amount]
    refine ⟨.of_refundedTarget (amount ▸ bounded.amount) (total ▸ some_) (by rw [total, amount]; exact bounded.room) payment',
      fun _ => total ▸ some_, fun h0 => ?_, fun h0 => ?_, fun _ hq => ?_⟩
    · rw [total] at h0; exact absurd h0 some_.ne'
    · exact absurd h0 some_.ne'
    · rcases target payment' with hs | hs <;> rw [hs] at hq <;> cases hq
  | succeeded was status payment room total =>
    have some_ : 0 < q.refundedAmount := by rw [total]; exact add_pos_of_nonneg_of_pos bounded.total positive
    refine ⟨.of_refundedTarget (amount ▸ bounded.amount) some_ (by rw [total, amount]; exact room) payment, fun _ => some_,
      fun h0 => absurd h0 some_.ne', fun _ _ => ⟨status, target payment⟩, fun _ hq => ?_⟩
    rcases target payment with hs | hs <;> rw [hs] at hq <;> cases hq
  | overflown was status payment full total =>
    have some_ : 0 < p.refundedAmount := by
      refine lt_of_le_of_ne bounded.total fun h0 => ?_
      rw [← h0, zero_add] at full
      exact absurd fits (not_le.mpr full)
    refine ⟨bounded.of_status amount total (fun hq => bounded.part (payment ▸ hq)) (fun hq => bounded.full (payment ▸ hq)),
      fun _ => total ▸ some_, fun _ => payment, fun h0 => absurd h0 some_.ne', fun hp hq => ?_⟩
    rw [payment, hp] at hq; cases hq
  | stuck was status payment room total blocked =>
    refine absurd ?_ blocked
    rw [payment]
    cases hp : p.status with
    | refunded =>
      -- a complete refund has no room left
      rw [bounded.full hp] at room
      exact absurd room (not_le.mpr (lt_add_of_pos_right _ positive))
    | succeeded => rcases PaymentService.refundedTarget_cases q with hs | hs <;> rw [hs] <;> simp [PaymentStatus.allowed]
    | refundPending => rcases PaymentService.refundedTarget_cases q with hs | hs <;> rw [hs] <;> simp [PaymentStatus.allowed]
    | partiallyRefunded =>
      rcases PaymentService.refundedTarget_cases q with hs | hs <;> rw [hs] <;> simp [PaymentStatus.allowed]
    | _ => rw [hp] at captured; cases captured
  | failed was status payment total =>
    have some_ := ended status
    have restored : q.status = .partiallyRefunded := by rw [payment, PaymentService.restoredTarget, if_pos some_]
    refine ⟨bounded.of_status amount total (fun _ => some_) (fun hq => by rw [restored] at hq; cases hq),
      fun _ => total ▸ some_, fun h0 => ?_, fun h0 => absurd h0 some_.ne', fun _ hq => by rw [restored] at hq; cases hq⟩
    rw [total] at h0; exact absurd h0 some_.ne'
  | unrestored was status payment total =>
    have some_ := ended status
    refine ⟨bounded.of_status amount total (fun hq => bounded.part (payment ▸ hq)) (fun hq => bounded.full (payment ▸ hq)),
      fun _ => total ▸ some_, fun _ => payment, fun h0 => absurd h0 some_.ne', fun hp hq => ?_⟩
    rw [payment, hp] at hq; cases hq

end RefundOutcome

namespace InStep

variable {db : Db} {pid : Nat} {p q : Payment} {s t : AppointmentStatus}

theorem of_plain (h : InStep p s) (hs : s.isRefund = false) (ht : t.isRefund = false)
    (total : q.refundedAmount = p.refundedAmount) : InStep q t := by
  refine ⟨?_, fun some_ => ?_, ?_⟩
  · rintro rfl; cases ht
  · rw [h.begun (total ▸ some_)] at hs; cases hs
  · rintro rfl; cases ht

theorem of_step (h : InStep p s) (row : db.payments.row pid = some p)
    (appointment : ∃ a, db.appointments.row p.appointmentId = some a ∧ a.status = s) (bounded : Bounded p)
    (leaves : ∀ x r c c' u, db.refunds.row x = some r → r.paymentId = pid → SameRefund r c →
      Careful db (.result pid c r u) → RefundStep p c q c' → Applied p c r c' u → RefundOutcome.Leaves p c q c')
    (hstep : PairStep Careful db pid p s q t) : InStep q t := by
  have plain : ∀ u : AppointmentStatus, u.isPending = true ∨ u.isActive = true → u.isRefund = false := by
    intro u hu
    cases u <;> simp_all [AppointmentStatus.isPending, AppointmentStatus.isActive, AppointmentStatus.isRefund]
  cases hstep with
  | same => exact h
  | confirmed _ pending paid => exact h.of_plain (plain s (.inl pending)) rfl rfl
  | released _ _ _ pending ended unpaid step money =>
    refine h.of_plain (plain s (.inl pending)) ?_ step.refundedAmount
    rcases ended with rfl | rfl <;> rfl
  | reported _ _ pending step same => exact h.of_plain (plain s (.inl pending)) rfl step.refundedAmount
  | visited _ _ active after =>
    refine h.of_plain (plain s (.inr active)) ?_ rfl
    rcases after with rfl | ended | rfl
    · rfl
    · cases t <;> simp_all [AppointmentStatus.isEnd, AppointmentStatus.isRefund]
    · rfl
  | paid _ _ step captured =>
    have status : ∀ u : PaymentStatus, p.status = u → u ≠ .created → u ≠ .pending → q.status = u := by
      rintro u hu created pending
      rcases step.status with same | ⟨old, -⟩
      · exact same.trans hu
      · rw [hu] at old
        exact (old.elim created pending).elim
    refine ⟨fun hs => status _ (h.waiting hs) (by simp) (by simp), fun some_ => ?_, fun hs => status _ (h.complete hs) (by simp) (by simp)⟩
    exact h.begun (step.refundedAmount ▸ some_)
  | requested _ allowed status edge => exact ⟨fun _ => rfl, fun _ => rfl, (by simp)⟩
  | result _ _ _ x c r c' u refund allowed of same step applied sync =>
    have hl := leaves x r c c' u refund of same allowed step applied
    have target : Synced (WebhookCoordinator.syncTarget q.status) s t →
        t = s ∧ q.status ≠ .partiallyRefunded ∧ q.status ≠ .refunded ∨
          t = .partiallyRefunded ∧ q.status = .partiallyRefunded ∨ t = .refunded ∧ q.status = .refunded := by
      intro hsync
      cases hq : q.status <;> rw [hq] at hsync <;> simp_all [Synced, WebhookCoordinator.syncTarget]
    have kept : t = s → (s = .refundPending → q.status = .refundPending) → (p.refundedAmount = 0 → ¬ 0 < q.refundedAmount) →
        InStep q t := by
      rintro rfl waiting none
      refine ⟨waiting, fun some_ => ?_, fun hs => step.refunded (h.complete hs)⟩
      rcases bounded.total.eq_or_lt with h0 | h0
      · exact absurd some_ (none h0.symm)
      · exact h.begun h0
    have waits : s = .refundPending → q.status ≠ .partiallyRefunded → q.status ≠ .refunded → q.status = .refundPending := by
      intro hs part full
      have hp := h.waiting hs
      rcases step.edge with same | edge
      · exact same.trans hp
      · rw [hp] at edge
        simp only [PaymentStatus.allowed, List.mem_cons, List.not_mem_nil, or_false] at edge
        rcases edge with hq | hq | hq
        · exact absurd hq (hl.not_whole hp)
        · exact absurd hq part
        · exact absurd hq full
    rcases sync with sync | ⟨ht, sync⟩
    · rcases target sync with ⟨ht, part, full⟩ | ⟨rfl, hq⟩ | ⟨rfl, hq⟩
      · exact kept ht (fun hs => waits hs part full) fun h0 h1 => (hl.shown h0 h1).2.elim part full
      · exact ⟨(by simp), fun _ => rfl, (by simp)⟩
      · exact ⟨(by simp), fun _ => rfl, fun _ => hq⟩
    · rcases sync with same | ⟨failed, unsent⟩
      · refine kept ht (fun hs => same.trans (h.waiting hs)) fun h0 h1 => ?_
        rcases (hl.shown h0 h1).2 with hq | hq
        · exact absurd h0 (bounded.part (same ▸ hq)).ne'
        · exact absurd h0 (by rw [bounded.full (same ▸ hq)]; exact bounded.amount.ne')
      · refine kept ht (fun hs => ?_) fun h0 h1 => ?_
        · obtain ⟨a, ha, has⟩ := appointment
          exact absurd (has.trans hs) (unsent p a row ha)
        · have succeeded := (hl.shown h0 h1).1
          rw [failed] at succeeded; cases succeeded

end InStep

/-- An appointment with a refund status has had one before, or it has a payment. -/
theorem Move.refunding {may : Db → Effect → Prop} {db db' : Db} (hm : Move may db db') {i : Nat} {a' : Appointment}
    (row' : db'.appointments.row i = some a') (hr : a'.status.isRefund = true) :
    (∃ a, db.appointments.row i = some a ∧ a.status.isRefund = true) ∨
      ∃ pid p, db.payments.row pid = some p ∧ p.appointmentId = i := by
  have put : ∀ j a b, db.appointments.row j = some a → b.status.isRefund = false →
      (db.appointments.put j b).row i = some a' → ∃ a, db.appointments.row i = some a ∧ a.status.isRefund = true := by
    intro j a b row hb row'
    rcases (Table.row_put_eq_some row).mp row' with ⟨-, rfl⟩ | ⟨-, row'⟩
    · rw [hb] at hr; cases hr
    · exact ⟨a', row', hr⟩
  have insert : ∀ (t : Table Appointment) b, b.status.isRefund = false → (t.insert b).row i = some a' →
      t.row i = some a' := by
    intro t b hb row'
    rcases Table.row_insert_eq_some.mp row' with ⟨-, rfl⟩ | row'
    · rw [hb] at hr; cases hr
    · exact row'
  have sync : ∀ {appointments : Table Appointment} {t? : Option AppointmentStatus} {pid : Nat} {p : Payment},
      db.payments.row pid = some p → RefundSync db.appointments p.appointmentId t? appointments →
      appointments.row i = some a' → (∃ a, db.appointments.row i = some a ∧ a.status.isRefund = true) ∨
        ∃ pid p, db.payments.row pid = some p ∧ p.appointmentId = i := by
    intro appointments t? pid p payment hsync row'
    by_cases hi : p.appointmentId = i
    · exact .inr ⟨pid, p, payment, hi⟩
    · exact .inl ⟨a', Paired.sync_others hsync (Ne.symm hi) row', hr⟩
  cases hm with
  | place k w a row free window status => exact .inl ⟨a', insert _ _ (by rw [status]; rfl) row', hr⟩
  | hold k w a r p row free window status => exact .inl ⟨a', insert _ _ (by rw [status]; rfl) row', hr⟩
  | confirmHold k w i a j r t window appointment => exact .inl (put _ _ _ appointment rfl row')
  | releaseHold k w i a j r t a' r' payments window appointment reservation at_window pending live belongs
      agrees same status ended =>
    refine .inl (put _ _ _ appointment ?_ row')
    rcases ended with rfl | rfl <;> rw [status] <;> rfl
  | report i a j r pid p q t appointment => exact .inl (put _ _ _ appointment rfl row')
  | confirmVisit i a t row => exact .inl (put _ _ _ row rfl row')
  | endVisit w i a a' s row active window same ended =>
    refine .inl (put _ _ _ row ?_ row')
    cases hs : a'.status <;> rw [hs] at ended <;> first | rfl | cases ended
  | reschedule i a w k' w' b s row active window target other free left at_target status =>
    exact .inl (put _ _ _ row rfl (insert _ _ (by rw [status]; rfl) row'))
  | reassign i a w k' w' staff reservations row occupies =>
    refine .inl (put _ _ _ row ?_ row')
    show a.status.isRefund = false
    cases hs : a.status <;> rw [hs] at occupies <;> first | rfl | cases occupies
  | request pid p r appointments row allowed status of pending positive room hsync => exact sync row hsync row'
  | result pid p q x c c' r s appointments t? payment refund allowed of same step applied target hsync =>
    exact sync payment hsync row'
  | _ => exact .inl ⟨a', row', hr⟩

namespace Consistent

variable {db db' : Db} {may : Db → Effect → Prop}

theorem empty : Consistent .empty :=
  ⟨Table.all_empty, Table.all_empty, Table.all_empty, Table.all_empty, Table.all_empty, Table.all_empty⟩

section Result

variable {pid x : Nat} {p q : Payment} {c r c' : Refund} {u : RefundStatus}

theorem leaves (h : Consistent db) (hl : Links db) (payment : db.payments.row pid = some p)
    (refund : db.refunds.row x = some r) (of : r.paymentId = pid) (same : SameRefund r c)
    (allowed : Careful db (.result pid c r u)) (step : RefundStep p c q c') (applied : Applied p c r c' u) :
    RefundOutcome.Leaves p c q c' := by
  subst of
  obtain ⟨positive, fits⟩ := h.size x r refund
  obtain ⟨p', payment', captured⟩ := hl.refund_captured x r refund
  rw [payment] at payment'; cases payment'
  have paid : c.status ≠ .pending → 0 < p.refundedAmount := by
    intro finished
    rcases applied.copied with rfl | ⟨pending, -⟩
    · exact h.finished x c refund finished p payment
    · exact absurd pending finished
  refine step.outcome.leaves (h.bounded _ p payment) captured step.intent.amount (same.amount ▸ positive)
    (same.amount ▸ fits p payment) paid fun ended => ?_
  by_cases pending : c.status = .pending
  · rcases applied.ends with hs | hs
    · rw [hs, pending] at ended
      rcases ended with he | he <;> cases he
    · rw [hs] at ended
      exact (allowed pending ended p payment).1
  · exact paid pending

end Result

theorem bounded_of_move (h : Consistent db) (hl : Links db) (hm : Move Careful db db') :
    db'.payments.All fun _ q => Bounded q := by
  cases hm.money with
  | payments refunds rows =>
    intro pid q row'
    rcases rows pid q row' with ⟨-, opened⟩ | ⟨p, row, step⟩
    · exact .of_unrefunded opened.money.1 opened.unrefunded opened.created
    · exact (h.bounded pid p row).of_payment step
  | request pid p r row allowed status of pending positive room payments =>
    rw [payments]
    exact h.bounded.put row ((h.bounded pid p row).of_status rfl rfl nofun nofun)
  | result pid p q x c r c' u payment refund allowed of same step applied payments =>
    rw [payments]
    exact h.bounded.put payment (h.leaves hl payment refund of same allowed step applied).bounded

theorem size_of_move (h : Consistent db) (hl : Links db) (hm : Move Careful db db') :
    db'.refunds.All fun _ r => 0 < r.amount ∧ ∀ p, db'.payments.row r.paymentId = some p → r.amount ≤ p.amount := by
  have kept : ∀ x r q, db.refunds.row x = some r → db'.payments.row r.paymentId = some q → r.amount ≤ q.amount := by
    intro x r q refund payment'
    obtain ⟨p, payment, -⟩ := hl.refund_captured x r refund
    obtain ⟨q', row', money⟩ := (Kept.of_move hm).payments _ p payment
    rw [payment'] at row'; cases row'
    rw [money.1.amount]
    exact (h.size x r refund).2 p payment
  cases hm.money with
  | payments refunds =>
    intro x r refund
    rw [refunds] at refund
    exact ⟨(h.size x r refund).1, fun q payment => kept x r q refund payment⟩
  | request pid p r row allowed status of pending positive room payments refunds =>
    intro x s refund
    rw [refunds] at refund
    rcases Table.row_insert_eq_some.mp refund with ⟨-, rfl⟩ | refund
    · refine ⟨positive, fun q payment => ?_⟩
      rw [payments, of, Table.row_put_self row] at payment; cases payment
      have sum : 0 ≤ db.sumRefunds pid .pending := by
        rw [Db.sumRefunds_eq]
        exact Table.total_nonneg fun y t ht => Refund.share_nonneg (h.size y t ht).1
      exact le_trans (le_add_of_nonneg_left (add_nonneg (h.bounded pid p row).total sum)) room
    · exact ⟨(h.size x s refund).1, fun q payment => kept x s q refund payment⟩
  | result pid p q y c r c' u payment refund allowed of same step applied payments refunds =>
    intro x s hs
    rw [refunds] at hs
    rcases (Table.row_put_eq_some refund).mp hs with ⟨rfl, rfl⟩ | ⟨-, hs⟩
    · exact ⟨(h.size x r refund).1, fun q payment => kept x r q refund payment⟩
    · exact ⟨(h.size x s hs).1, fun q payment => kept x s q hs payment⟩

theorem finished_of_move (h : Consistent db) (hl : Links db) (hm : Move Careful db db') :
    db'.refunds.All fun _ r => r.status ≠ .pending → ∀ p, db'.payments.row r.paymentId = some p →
      0 < p.refundedAmount := by
  cases hm.money with
  | payments refunds rows =>
    intro x r refund finished q row'
    rw [refunds] at refund
    rcases rows _ q row' with ⟨new, -⟩ | ⟨p, row, step⟩
    · obtain ⟨p, row, -⟩ := hl.refund_captured x r refund
      rw [row] at new; cases new
    · rw [step.refundedAmount]; exact h.finished x r refund finished p row
  | request pid p r row allowed status of pending positive room payments refunds =>
    intro x s refund finished q row'
    rw [refunds] at refund
    rw [payments] at row'
    rcases Table.row_insert_eq_some.mp refund with ⟨-, rfl⟩ | refund
    · exact absurd pending finished
    · rcases (Table.row_put_eq_some row).mp row' with ⟨hpid, rfl⟩ | ⟨-, row'⟩
      · exact h.finished x s refund finished p (hpid ▸ row)
      · exact h.finished x s refund finished q row'
  | result pid p q y c r c' u payment refund allowed of same step applied payments refunds =>
    intro x s hs finished q' row'
    have mine := h.leaves hl payment refund of same allowed step applied
    have positive : 0 < c.amount := by rw [same.amount]; exact (h.size y r refund).1
    rw [refunds] at hs
    rw [payments] at row'
    rcases (Table.row_put_eq_some refund).mp hs with ⟨rfl, rfl⟩ | ⟨-, hs⟩
    · have hpid : (flushedRefund c c' r).paymentId = pid := of
      rw [hpid, Table.row_put_self payment] at row'; cases row'
      exact mine.finished (applied.stored ▸ finished)
    · rcases (Table.row_put_eq_some payment).mp row' with ⟨hpid, rfl⟩ | ⟨-, row'⟩
      · exact lt_of_lt_of_le (h.finished x s hs finished p (hpid ▸ payment)) (step.outcome.total_le positive)
      · exact h.finished x s hs finished q' row'

theorem first_of_move (h : Consistent db) (hl : Links db) (hm : Move Careful db db') :
    db'.refunds.All fun x r => ∀ p, db'.payments.row r.paymentId = some p → p.refundedAmount = 0 →
      p.status = .refundPending ∧ ∀ y s, db'.refunds.row y = some s → s.paymentId = r.paymentId → y = x := by
  cases hm.money with
  | payments refunds rows =>
    intro x r refund q row' none
    rw [refunds] at refund ⊢
    rcases rows _ q row' with ⟨new, -⟩ | ⟨p, row, step⟩
    · obtain ⟨p, row, -⟩ := hl.refund_captured x r refund
      rw [row] at new; cases new
    · obtain ⟨waiting, once⟩ := h.first x r refund p row (step.refundedAmount ▸ none)
      refine ⟨?_, once⟩
      rcases step.status with same | ⟨old, -⟩
      · exact same.trans waiting
      · rw [waiting] at old
        rcases old with old | old <;> cases old
  | request pid p r row allowed status of pending positive room payments refunds =>
    -- a payment without any return that may be refunded has no refund yet
    have new : p.refundedAmount = 0 → ∀ y s, db.refunds.row y = some s → s.paymentId ≠ pid := by
      intro none y s hs hpid
      have waiting := (h.first y s hs p (hpid ▸ row) none).1
      rcases status with hs | hs <;> rw [hs] at waiting <;> cases waiting
    intro x s refund q row' none
    rw [refunds] at refund ⊢
    rw [payments] at row'
    rcases Table.row_insert_eq_some.mp refund with ⟨rfl, rfl⟩ | refund
    · rw [of, Table.row_put_self row] at row'; cases row'
      refine ⟨rfl, fun y t ht hpid => ?_⟩
      rcases Table.row_insert_eq_some.mp ht with ⟨hy, -⟩ | ht
      · exact hy
      · exact absurd (hpid.trans of) (new none y t ht)
    · rcases (Table.row_put_eq_some row).mp row' with ⟨hpid, rfl⟩ | ⟨hpid, row'⟩
      · exact absurd hpid (new none x s refund)
      · obtain ⟨waiting, once⟩ := h.first x s refund q row' none
        refine ⟨waiting, fun y t ht same => ?_⟩
        rcases Table.row_insert_eq_some.mp ht with ⟨-, rfl⟩ | ht
        · exact absurd (same.symm.trans of) hpid
        · exact once y t ht same
  | result pid p q y c r c' u payment refund allowed of same step applied payments refunds =>
    have mine := h.leaves hl payment refund of same allowed step applied
    have positive : 0 < c.amount := by rw [same.amount]; exact (h.size y r refund).1
    have back : ∀ z t, db'.refunds.row z = some t → ∃ t₀, db.refunds.row z = some t₀ ∧ t.paymentId = t₀.paymentId := by
      intro z t ht
      rw [refunds] at ht
      rcases (Table.row_put_eq_some refund).mp ht with ⟨rfl, rfl⟩ | ⟨-, ht⟩
      · exact ⟨r, refund, rfl⟩
      · exact ⟨t, ht, rfl⟩
    intro x s hs q' row' none
    obtain ⟨s₀, hs₀, same₀⟩ := back x s hs
    rw [payments] at row'
    have once : ∀ p₀, db.payments.row s₀.paymentId = some p₀ → p₀.refundedAmount = 0 →
        p₀.status = .refundPending ∧ ∀ z t, db'.refunds.row z = some t → t.paymentId = s.paymentId → z = x := by
      intro p₀ row₀ none₀
      obtain ⟨waiting, once⟩ := h.first x s₀ hs₀ p₀ row₀ none₀
      refine ⟨waiting, fun z t ht hpid => ?_⟩
      obtain ⟨t₀, ht₀, hsame⟩ := back z t ht
      exact once z t₀ ht₀ (hsame.symm.trans (hpid.trans same₀))
    rcases (Table.row_put_eq_some payment).mp row' with ⟨hpid, rfl⟩ | ⟨-, row'⟩
    · have none' : p.refundedAmount = 0 :=
        le_antisymm (none ▸ step.outcome.total_le positive) (h.bounded pid p payment).total
      obtain ⟨waiting, once⟩ := once p (same₀ ▸ hpid ▸ payment) none'
      exact ⟨(mine.unmoved none).trans waiting, once⟩
    · exact once q' (same₀ ▸ row') none

theorem of_move (h : Consistent db) (hl : Links db) (hm : Move Careful db db') : Consistent db' := by
  refine ⟨h.bounded_of_move hl hm, h.size_of_move hl hm, h.finished_of_move hl hm, h.first_of_move hl hm,
    fun pid q hq a' ha' => ?_, fun i a' ha' refunding => ?_⟩
  · rcases hm.paired hl pid q a' hq ha' with ⟨new, created, pending⟩ | ⟨p, a, hp, ha, step⟩
    · refine ⟨fun hs => ?_, fun some_ => ?_, fun hs => ?_⟩
      · rw [pending] at hs; cases hs
      · rcases hm.payment_row hq with ⟨p, hp, -⟩ | ⟨-, opened⟩
        · rw [hp] at new; cases new
        · exact absurd opened.unrefunded some_.ne'
      · rw [pending] at hs; cases hs
    · exact (h.pairs pid p hp a ha).of_step hp ⟨a, ha, rfl⟩ (h.bounded pid p hp)
        (fun x r c c' u refund of same allowed step applied => h.leaves hl hp refund of same allowed step applied) step
  · have payment : ∃ pid p, db.payments.row pid = some p ∧ p.appointmentId = i := by
      rcases hm.refunding ha' refunding with ⟨a, ha, hr⟩ | payment
      · exact h.known i a ha hr
      · exact payment
    obtain ⟨pid, p, hp, of⟩ := payment
    obtain ⟨q, hq, money⟩ := (Kept.of_move hm).payments pid p hp
    exact ⟨pid, q, hq, money.1.appointmentId.trans of⟩

end Consistent

end SalonBooking
