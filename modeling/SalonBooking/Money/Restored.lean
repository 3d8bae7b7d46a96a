import SalonBooking.Slots.Windows
import SalonBooking.Money.Consistent

/-!
# A refund from its request to its end

Where refunds are handled with care, a refund that fails gives its appointment back the status it had
before the refund. The request finds the appointment `partiallyRefunded`, since a payment of which
nothing has been returned cannot have its first refund fail, and the failure leaves it there.
-/

namespace SalonBooking

open Lib

/-- A refund is over and has returned nothing. -/
def RefundStatus.isFailure (s : RefundStatus) : Prop := s = .failed ∨ s = .cancelled

variable {db db' : Db} {x pid : Nat} {p : Payment} {r : Refund}

/-- The refund `x` of the payment is not pending, or nothing of the payment has been returned. -/
def Unreturned (db : Db) (x pid : Nat) : Prop :=
  ∃ r p, db.refunds.row x = some r ∧ r.paymentId = pid ∧ db.payments.row pid = some p ∧
    (r.status = .pending → p.refundedAmount = 0)

/-- While the first refund of a payment is pending, nothing is returned by another one. -/
theorem Unreturned.of_move (hu : Unreturned db x pid) (h : Consistent db) (hm : Move Careful db db') :
    Unreturned db' x pid := by
  obtain ⟨r, p, refund, of, payment, none⟩ := hu
  cases hm.money with
  | payments refunds rows =>
    obtain ⟨q, payment', -⟩ := (Kept.of_move hm).payments pid p payment
    refine ⟨r, q, by rw [refunds]; exact refund, of, payment', fun pending => ?_⟩
    rcases rows pid q payment' with ⟨new, -⟩ | ⟨p', payment₀, step⟩
    · rw [payment] at new; cases new
    · rw [payment] at payment₀; cases payment₀
      exact step.refundedAmount.trans (none pending)
  | request pid' p' r' row allowed status of' pending positive room payments refunds =>
    have refund' : db'.refunds.row x = some r := by rw [refunds]; exact Table.row_insert_of_some refund
    by_cases hpid : pid = pid'
    · subst hpid
      rw [payment] at row; cases row
      exact ⟨r, { p with status := .refundPending }, refund', of, by rw [payments]; exact Table.row_put_self payment, none⟩
    · exact ⟨r, p, refund', of, by rw [payments, Table.row_put_ne hpid]; exact payment, none⟩
  | result pid' p' q y c r' c' u payment' refund' allowed of' same step applied payments refunds =>
    by_cases hx : x = y
    · subst hx
      rw [refund] at refund'; cases refund'
      have hpid : pid = pid' := of.symm.trans of'
      subst hpid
      rw [payment] at payment'; cases payment'
      refine ⟨flushedRefund c c' r, q, by rw [refunds]; exact Table.row_put_self refund, of,
        by rw [payments]; exact Table.row_put_self payment, fun pending => ?_⟩
      rw [applied.stored] at pending
      have cpending : c.status = .pending ∧ q.refundedAmount = p.refundedAmount := by
        cases step.outcome with
        | touched status _ total => exact ⟨status.symm.trans pending, total⟩
        | failed _ status => rw [pending] at status; rcases status with hs | hs <;> cases hs
        | unrestored _ status => rw [pending] at status; rcases status with hs | hs <;> cases hs
        | replayed _ status => rw [pending] at status; cases status
        | succeeded _ status => rw [pending] at status; cases status
        | overflown _ status => rw [pending] at status; cases status
        | stuck _ status => rw [pending] at status; cases status
      rw [cpending.2]
      rcases applied.copied with rfl | ⟨-, succeeded, -⟩
      · exact none cpending.1
      · rw [pending] at succeeded; cases succeeded
    · have refund₁ : db'.refunds.row x = some r := by rw [refunds, Table.row_put_ne hx]; exact refund
      by_cases hpid : pid = pid'
      · -- a second refund of the payment: something has been returned before it could be asked for
        refine ⟨r, q, refund₁, of, by rw [payments, hpid]; exact Table.row_put_self payment', fun pending => ?_⟩
        have once := (h.first x r refund p (of.symm ▸ payment) (none pending)).2
        exact absurd (once y r' refund' (of'.trans (hpid.symm.trans of.symm))).symm hx
      · exact ⟨r, p, refund₁, of, by rw [payments, Table.row_put_ne hpid]; exact payment, none⟩

theorem RefundStatus.isFailure.over {t : RefundStatus} (h : t.isFailure) : t ≠ .pending ∧ t ≠ .succeeded := by
  rcases h with rfl | rfl <;> exact ⟨nofun, nofun⟩

/-- A result that ends a pending refund without success leaves the appointment partially refunded. -/
theorem Consistent.failed_result {q : Payment} {c c' : Refund} {u : RefundStatus} {t? : Option AppointmentStatus}
    {appointments : Table Appointment} (h : Consistent db) (hl : Links db) (payment : db.payments.row pid = some p)
    (refund : db.refunds.row x = some r) (of : r.paymentId = pid) (careful : Careful db (.result pid c r u))
    (step : RefundStep p c q c') (applied : Applied p c r c' u)
    (target : t? = WebhookCoordinator.syncTarget q.status ∨
      t? = none ∧ (q.status = p.status ∨ c'.status = .failed ∧ Careful db (.unsent pid)))
    (sync : RefundSync db.appointments p.appointmentId t? appointments) (pending : r.status = .pending)
    (failed : (flushedRefund c c' r).status.isFailure) : 0 < p.refundedAmount ∧
      ∀ a', appointments.row p.appointmentId = some a' → a'.status = .partiallyRefunded := by
  rw [applied.stored] at failed
  have cpending : c.status = .pending := by
    rcases applied.copied with rfl | ⟨hc, -⟩
    · exact pending
    · exact hc
  have reported : c'.status = u := by
    rcases applied.ends with hs | hs
    · exact absurd (hs.trans cpending) failed.over.1
    · exact hs
  obtain ⟨some_, left⟩ := careful cpending (reported ▸ failed) p payment
  have bounded := h.bounded pid p payment
  obtain ⟨p', payment', captured⟩ := hl.refund_captured x r refund
  rw [of, payment] at payment'; cases payment'
  have open_ : p.status ≠ .refunded := fun hp => absurd (bounded.full hp) left.ne
  have part : q.status = .partiallyRefunded := by
    cases step.outcome with
    | failed _ _ status => rw [status, PaymentService.restoredTarget, if_pos some_]
    | unrestored _ _ _ _ blocked =>
      -- every captured status but `refunded` leads back
      refine absurd ?_ blocked
      rw [PaymentService.restoredTarget, if_pos some_]
      revert captured open_
      cases p.status <;> simp [PaymentStatus.allowed, PaymentStatus.captured]
    | touched status => exact absurd (status.trans cpending) failed.over.1
    | replayed was => rw [cpending] at was; cases was
    | succeeded _ status => exact absurd status failed.over.2
    | overflown _ status => exact absurd status failed.over.2
    | stuck _ status => exact absurd status failed.over.2
  refine ⟨some_, fun a' ha' => ?_⟩
  obtain ⟨a, ha, synced⟩ := Paired.sync_own sync ha'
  rcases target with rfl | ⟨rfl, target⟩
  · rw [part] at synced
    exact synced.1
  · -- the appointment is left alone, and it shows what has been returned before
    have same : a'.status = a.status := synced
    have inStep := h.pairs pid p payment a ha
    have waits : a.status ≠ .refundPending := by
      rcases target with hq | ⟨-, unsent⟩
      · intro hs
        have waiting := inStep.waiting hs
        rw [← hq, part] at waiting
        cases waiting
      · exact unsent p a payment ha
    rw [same]
    have refunding := inStep.begun some_
    revert refunding waits
    have complete := inStep.complete
    cases hs : a.status <;> simp_all [AppointmentStatus.isRefund]

namespace Sys

/-- The command handles refunds with care. -/
def HandlesWithCare (s : Sys) (u : Label) : Prop := ∀ e, s.Occurs u e → Careful s.db e

theorem consistent_after (l : List Label) (h : Guarded step HandlesWithCare empty l) : Consistent (after l).db :=
  guarded_after (fun _ _ hx => hx) (fun _ _ hP hl hm => hP.of_move hl hm) .empty l h

variable {s : Sys} {u : Label}

theorem request_finds (hs : s.Sound) (new : s.db.refunds.row x = none) (row : (s.step u).db.refunds.row x = some r) :
    ∃ p a, s.db.payments.row r.paymentId = some p ∧ (p.status = .succeeded ∨ p.status = .partiallyRefunded) ∧
      s.db.appointments.row p.appointmentId = some a ∧
      (a.status = .refundPending ∨ .refundPending ∈ a.status.allowed) := by
  let P : Db → Prop := fun db => ∀ r, db.refunds.row x = some r →
    ∃ p a, s.db.payments.row r.paymentId = some p ∧ (p.status = .succeeded ∨ p.status = .partiallyRefunded) ∧
      s.db.appointments.row p.appointmentId = some a ∧
      (a.status = .refundPending ∨ .refundPending ∈ a.status.allowed)
  -- a refund is requested in the state the command starts from
  have continues : Continues (fun db _ => db = s.db) s (s.step u) := step_continues hs fun _ _ => rfl
  have hmove : ∀ db db', P db → Move (fun db _ => db = s.db) db db' → P db' := by
    intro db db' hP hm r' row'
    cases hm with
    | request pid p r₀ appointments payment allowed status of pending positive room sync =>
      rcases Table.row_insert_eq_some.mp row' with ⟨-, rfl⟩ | row'
      · obtain ⟨a, ha⟩ := hs.booked.links.payment_known pid p (allowed ▸ payment)
        have ha₀ : db.appointments.row p.appointmentId = some a := by rw [allowed]; exact ha
        obtain ⟨a', ha', -⟩ := Kept.sync sync _ a ha₀
        obtain ⟨a₁, ha₁, -, edge⟩ := Paired.sync_own sync ha'
        rw [allowed] at payment ha₁
        exact ⟨p, a₁, by rw [of]; exact payment, status, ha₁, edge⟩
      · exact hP r' row'
    | result pid p q y c c' r₀ u appointments t? payment refund =>
      rcases (Table.row_put_eq_some refund).mp row' with ⟨rfl, rfl⟩ | ⟨-, row'⟩
      · exact hP r₀ refund
      · exact hP r' row'
    | _ => exact hP r' row'
  have start : P s.db := fun r row => by rw [new] at row; cases row
  exact continues.transaction.moves.keeps hmove start r row

theorem failure_leaves (hs : s.Sound) (h : Consistent s.db) (careful : HandlesWithCare s u)
    (refund : s.db.refunds.row x = some r) (pending : r.status = .pending)
    (payment : s.db.payments.row r.paymentId = some p) {r' : Refund} (refund' : (s.step u).db.refunds.row x = some r')
    (failed : r'.status.isFailure) : 0 < p.refundedAmount ∧
      ∀ a', (s.step u).db.appointments.row p.appointmentId = some a' → a'.status = .partiallyRefunded := by
  let may : Db → Effect → Prop := fun db e => db = s.db ∧ Careful s.db e
  have continues : Continues may s (s.step u) := step_continues hs fun e he => ⟨rfl, careful e he⟩
  -- the refund ends in the state the command starts from, and its appointment is left alone afterwards
  let P : Db → Prop := fun db => Links db ∧ (∃ r₀, db.refunds.row x = some r₀ ∧ r₀.paymentId = r.paymentId) ∧
    (∃ q, db.payments.row r.paymentId = some q ∧ q.appointmentId = p.appointmentId) ∧
    ∀ r', db.refunds.row x = some r' → r'.status.isFailure → 0 < p.refundedAmount ∧
      ∀ a', db.appointments.row p.appointmentId = some a' → a'.status = .partiallyRefunded
  have hmove : ∀ db db', P db → Move may db db' → P db' := by
    rintro db db' ⟨hl, ⟨r₀, row, of⟩, ⟨q, hq, hqi⟩, hP⟩ hm
    obtain ⟨r₁, row₁, same₁⟩ := (Kept.of_move hm).refunds x r₀ row
    obtain ⟨q', hq', money⟩ := (Kept.of_move hm).payments _ q hq
    refine ⟨hl.of_move hm, ⟨r₁, row₁, same₁.paymentId.trans of⟩, ⟨q', hq', money.1.appointmentId.trans hqi⟩,
      fun r' row' failed => ?_⟩
    by_cases before : r₀.status.isFailure
    · obtain ⟨some_, settled⟩ := hP r₀ row before
      have moved : db ≠ s.db := by
        rintro rfl
        rw [refund] at row; cases row
        exact before.over.1 pending
      refine ⟨some_, fun a' ha' => ?_⟩
      rcases hm.paired hl _ q' a' hq' (by rw [money.1.appointmentId, hqi]; exact ha') with ⟨new, -⟩ | ⟨p₀, a, hp₀, ha, step⟩
      · rw [hq] at new; cases new
      · rw [hq] at hp₀; cases hp₀
        have has := settled a (hqi ▸ ha)
        rw [has] at step
        generalize a'.status = t at step ⊢
        cases step with
        | same => rfl
        | confirmed _ waits => cases waits
        | released _ _ _ waits => cases waits
        | reported _ _ waits => cases waits
        | visited _ _ active => cases active
        | paid => rfl
        | requested _ allowed => exact absurd allowed.1 moved
        | result _ _ _ y r₂ c c' t refund₂ allowed => exact absurd allowed.1 moved
    · cases hm with
      | request pid p₀ s₀ =>
        rcases Table.row_insert_eq_some.mp row' with ⟨hx, -⟩ | row'
        · exact absurd hx (Table.lt_next row).ne
        · rw [row] at row'; cases row'
          exact absurd failed before
      | result pid p₀ q₀ y c c' r₂ t appointments t? payment₀ refund₀ allowed of₀ same step applied target sync =>
        rcases (Table.row_put_eq_some refund₀).mp row' with ⟨rfl, rfl⟩ | ⟨-, row'⟩
        · obtain ⟨rfl, careful⟩ := allowed
          rw [refund] at refund₀; cases refund₀
          have hpid : r.paymentId = pid := same.paymentId.symm.trans of₀
          subst hpid
          rw [payment] at payment₀; cases payment₀
          exact h.failed_result hl payment refund rfl careful step applied
            (target.imp_right fun ht => ⟨ht.1, ht.2.imp_right fun hu => ⟨hu.1, hu.2.2⟩⟩) sync pending failed
        · rw [row] at row'; cases row'
          exact absurd failed before
      | _ =>
        have row₀ := row.symm.trans row'
        cases row₀
        exact absurd failed before
  have start : P s.db := by
    refine ⟨hs.booked.links, ⟨r, refund, rfl⟩, ⟨p, payment, rfl⟩, fun r' row failed => ?_⟩
    rw [refund] at row; cases row
    exact absurd pending failed.over.1
  exact (continues.transaction.moves.keeps hmove start).2.2.2 r' refund' failed

/-- The command that asks for the first refund of a payment returns nothing of it. -/
theorem request_returns_nothing (hs : s.Sound) (h : Consistent s.db) (payment : s.db.payments.row pid = some p)
    (none : p.refundedAmount = 0) (status : p.status ≠ .refundPending) {q : Payment}
    (payment' : (s.step u).db.payments.row pid = some q) : q.refundedAmount = 0 := by
  have continues : Continues (fun db _ => db = s.db) s (s.step u) := step_continues hs fun _ _ => rfl
  let P : Db → Prop := fun db => ∃ q, db.payments.row pid = some q ∧ q.refundedAmount = 0
  have hmove : ∀ db db', P db → Move (fun db _ => db = s.db) db db' → P db' := by
    rintro db db' ⟨q, row, total⟩ hm
    obtain ⟨q', row', -⟩ := (Kept.of_move hm).payments pid q row
    refine ⟨q', row', ?_⟩
    cases hm.money with
    | payments refunds rows =>
      rcases rows pid q' row' with ⟨new, -⟩ | ⟨p', row₀, step⟩
      · rw [row] at new; cases new
      · rw [row] at row₀; cases row₀
        exact step.refundedAmount.trans total
    | request pid' p' r row₀ allowed status of pending positive room payments =>
      rw [payments] at row'
      rcases (Table.row_put_eq_some row₀).mp row' with ⟨rfl, rfl⟩ | ⟨-, row'⟩
      · rw [row] at row₀; cases row₀
        exact total
      · rw [row] at row'; cases row'
        exact total
    | result pid' p' q₀ y c r c' t row₀ refund allowed of same step applied payments =>
      rw [payments] at row'
      rcases (Table.row_put_eq_some row₀).mp row' with ⟨rfl, rfl⟩ | ⟨-, row'⟩
      · rw [allowed] at refund
        exact absurd (h.first y r refund p (of ▸ payment) none).1 status
      · rw [row] at row'; cases row'
        exact total
  obtain ⟨q', row', total⟩ := continues.transaction.moves.keeps hmove ⟨p, payment, none⟩
  rw [payment'] at row'; cases row'
  exact total

/-- In the run `l₁`, `u`, `l₂`, `v` the command `u` asks for the refund `x`, and `v` ends it without success. -/
structure Fails (l₁ : List Label) (u : Label) (l₂ : List Label) (v : Label) (x : Nat) : Prop where
  new : (after l₁).db.refunds.row x = none
  asked : ∃ r, (after (l₁ ++ [u])).db.refunds.row x = some r
  pending : ∃ r, (after (l₁ ++ u :: l₂)).db.refunds.row x = some r ∧ r.status = .pending
  failed : ∃ r, (after (l₁ ++ u :: (l₂ ++ [v]))).db.refunds.row x = some r ∧ r.status.isFailure

theorem failure_restores {l₁ l₂ : List Label} {u v : Label}
    (h : Guarded step HandlesWithCare empty (l₁ ++ u :: (l₂ ++ [v]))) (fails : Fails l₁ u l₂ v x) :
    ∃ r p a a', (after (l₁ ++ [u])).db.refunds.row x = some r ∧ (after l₁).db.payments.row r.paymentId = some p ∧
      (after l₁).db.appointments.row p.appointmentId = some a ∧
      (after (l₁ ++ u :: (l₂ ++ [v]))).db.appointments.row p.appointmentId = some a' ∧ a'.status = a.status := by
  have first : after (l₁ ++ [u]) = (after l₁).step u := by simp [after, run_append]
  have middle : after (l₁ ++ u :: l₂) = run step ((after l₁).step u) l₂ := by simp [after, run_append]
  have last : after (l₁ ++ u :: (l₂ ++ [v])) = (after (l₁ ++ u :: l₂)).step v := by simp [after, run_append]
  obtain ⟨hbefore, hu, hrest⟩ := guarded_append.mp h
  obtain ⟨hl₂, hv, -⟩ := guarded_append.mp hrest
  obtain ⟨new, ⟨r, asked⟩, ⟨r₂, row₂, pending⟩, r₃, row₃, failed⟩ := fails
  have sound := sound_after l₁
  have consistent := consistent_after l₁ hbefore
  rw [first] at asked
  obtain ⟨p, a, payment, status, appointment, edge⟩ := request_finds sound new asked
  have sound₁ := sound_step sound u
  have guarded₁ : Guarded step HandlesWithCare empty (l₁ ++ [u]) := guarded_append.mpr ⟨hbefore, hu, trivial⟩
  have guarded₂ : Guarded step HandlesWithCare empty (l₁ ++ u :: l₂) := guarded_append.mpr ⟨hbefore, hu, hl₂⟩
  have consistent₂ := consistent_after _ guarded₂
  -- the payment and the refund when the refund fails
  obtain ⟨p₁, payment₁, money₁⟩ := (kept_step sound u).payments _ p payment
  have kept₂ : Kept ((after l₁).step u).db (after (l₁ ++ u :: l₂)).db := middle ▸ kept_run sound₁ l₂
  obtain ⟨p₂, payment₂, money₂⟩ := kept₂.payments _ p₁ payment₁
  obtain ⟨r₂', row₂', same₂⟩ := kept₂.refunds x r asked
  rw [row₂] at row₂'; cases row₂'
  rw [last] at row₃ ⊢
  rw [← same₂.paymentId] at payment₂
  obtain ⟨some_, restored⟩ :=
    failure_leaves (sound_after _) consistent₂ (middle ▸ hv) row₂ pending payment₂ row₃ failed
  have of : p₂.appointmentId = p.appointmentId := money₂.1.appointmentId.trans money₁.1.appointmentId
  obtain ⟨a₁, appointment₁, -⟩ := (kept_step sound u).appointments _ a appointment
  obtain ⟨a₂, appointment₂, -⟩ := kept₂.appointments _ a₁ appointment₁
  obtain ⟨a₃, appointment₃, -⟩ := (kept_step (sound_after (l₁ ++ u :: l₂)) v).appointments _ a₂ appointment₂
  refine ⟨r, p, a, a₃, first ▸ asked, payment, appointment, appointment₃, ?_⟩
  rw [restored a₃ (of.symm ▸ appointment₃)]
  have inStep := consistent.pairs _ p payment a appointment
  have settled : p.status ≠ .refundPending := by rcases status with hs | hs <;> rw [hs] <;> nofun
  by_cases none : p.refundedAmount = 0
  · -- the first refund of the payment: nothing has been returned when it fails
    exfalso
    have none₁ := request_returns_nothing sound consistent payment none settled payment₁
    have start : Unreturned ((after l₁).step u).db x r.paymentId := ⟨r, p₁, asked, rfl, payment₁, fun _ => none₁⟩
    have hstep : ∀ s w, s.Sound ∧ Consistent s.db ∧ Unreturned s.db x r.paymentId → HandlesWithCare s w →
        (s.step w).Sound ∧ Consistent (s.step w).db ∧ Unreturned (s.step w).db x r.paymentId := by
      rintro s w ⟨hs, hc, hu⟩ hw
      have continues : Continues Careful s (s.step w) := step_continues hs hw
      have moved := continues.transaction.moves.keeps
        (P := fun db => Links db ∧ Consistent db ∧ Unreturned db x r.paymentId)
        (fun db db' hdb hm => ⟨hdb.1.of_move hm, hdb.2.1.of_move hdb.1 hm, hdb.2.2.of_move hdb.2.1 hm⟩)
        ⟨hs.booked.links, hc, hu⟩
      exact ⟨sound_step hs w, moved.2⟩
    have unreturned := (@run_induction Sys Label step HandlesWithCare
      (fun s => s.Sound ∧ Consistent s.db ∧ Unreturned s.db x r.paymentId) hstep ((after l₁).step u)
      ⟨sound₁, first ▸ consistent_after _ guarded₁, start⟩ l₂ hl₂).2.2
    rw [← middle] at unreturned
    obtain ⟨r', p', row', -, payment', total⟩ := unreturned
    rw [row₂] at row'; cases row'
    rw [same₂.paymentId, payment'] at payment₂; cases payment₂
    exact absurd (total pending) some_.ne'
  · have begun := inStep.begun (lt_of_le_of_ne (consistent.bounded _ p payment).total (Ne.symm none))
    have waiting := fun hs => settled (inStep.waiting hs)
    revert begun waiting edge
    cases a.status <;> simp [AppointmentStatus.isRefund, AppointmentStatus.allowed]

/-- Refunds that are handled with care keep appointments, windows and payments consistent. -/
theorem refunds_keep_consistent (l : List Label) (h : Guarded step HandlesWithCare empty l) :
    (∀ i a, (after l).db.appointments.row i = some a → a.status = .refundPending →
      ∃ pid p, (after l).db.payments.row pid = some p ∧ p.appointmentId = i ∧ p.status = .refundPending) ∧
    (∀ l₁ u l₂ v x, l = l₁ ++ u :: (l₂ ++ [v]) → Fails l₁ u l₂ v x →
      ∃ r p a a', (after (l₁ ++ [u])).db.refunds.row x = some r ∧ (after l₁).db.payments.row r.paymentId = some p ∧
        (after l₁).db.appointments.row p.appointmentId = some a ∧
        (after l).db.appointments.row p.appointmentId = some a' ∧ a'.status = a.status) ∧
    ∀ k w, (after l).db.windows.row k = some w → w.status = .booked → ∃ i, ActiveOn (after l).db k i := by
  have consistent := consistent_after l h
  refine ⟨fun i a row waits => ?_, ?_, fun k w row booked => ?_⟩
  · obtain ⟨pid, p, payment, rfl⟩ := consistent.known i a row (by rw [waits]; rfl)
    exact ⟨pid, p, payment, rfl, (consistent.pairs pid p payment a row).waiting waits⟩
  · rintro l₁ u l₂ v x rfl fails
    exact failure_restores h fails
  · have kempt : Kempt (after l).db := by
      refine @guarded_after Kempt Careful HandlesWithCare (fun _ _ hx => hx) (fun db db' hk hl hm => ?_)
        ⟨fun _ => .free, .empty, fun _ => nofun⟩ l h
      refine hk.of_move hl (fun hr => ?_) hm
      obtain ⟨pid, p, a, careful, payment, appointment, active⟩ := hr
      rw [careful p a payment appointment] at active; cases active
    obtain ⟨i, active, -⟩ := ((kempt.windowsAgree.booked k w row).mp booked).1
    exact ⟨i, active⟩

/-- A check of the state that is enough for a command to handle refunds with care. -/
def showsCare (s : Sys) (u : Label) : Bool :=
  match u.cmd with
  | .createRefund .. => decide (s.db.appointments.All fun _ a => a.status.isActive = false)
  | .refundResult mode paymentId refundId _ result =>
    (RefundCoordinator.loadLockedRefund mode paymentId refundId s.db >>= fun o =>
      PaymentService.acceptRefund mode paymentId o result).isOk &&
    (result.status == .pending || result.status == .succeeded ||
      decide (s.db.payments.All fun _ p => 0 < p.refundedAmount ∧ p.refundedAmount < p.amount))
  | cmd => !cmd.isRefund

theorem handlesWithCare_of_shows (h : s.showsCare u = true) : HandlesWithCare s u := by
  obtain ⟨c, now, cmd⟩ := u
  rintro e ⟨-, he⟩
  cases cmd with
  | createRefund =>
    obtain ⟨p, -, -, -, rfl⟩ := he
    exact fun p a _ ha => of_decide_eq_true h p.appointmentId a ha
  | refundResult mode paymentId refundId userId result =>
    simp only [showsCare, Bool.and_eq_true, Bool.or_eq_true, beq_iff_eq, decide_eq_true_eq] at h
    obtain ⟨accepts, bounds⟩ := h
    obtain ⟨o, load, -, he⟩ := he
    rw [load] at accepts
    cases accepted : PaymentService.acceptRefund mode paymentId o result with
    | error e =>
      have refused : (Except.ok o >>= fun o => PaymentService.acceptRefund mode paymentId o result) = .error e := accepted
      rw [refused] at accepts; cases accepts
    | ok _ =>
      rw [accepted] at he
      subst he
      intro _ failed p payment
      rcases bounds with (hs | hs) | all
      · rw [hs] at failed
        rcases failed with hf | hf <;> cases hf
      · rw [hs] at failed
        rcases failed with hf | hf <;> cases hf
      · exact all paymentId p payment
  | createWindow => obtain ⟨settings, -, -, -, rfl⟩ := he; trivial
  | reopenWindow => obtain ⟨settings, w, -, -, -, rfl⟩ := he; trivial
  | book => obtain ⟨w, -, -, rfl⟩ := he; trivial
  | reschedule => obtain ⟨w, -, -, rfl⟩ := he; trivial
  | reassign => obtain rfl : e = .transfer := he; trivial
  | submitPayment => obtain ⟨p, r, -, -, -, -, rfl⟩ := he; trivial
  | approveManual => obtain ⟨p, -, -, -, rfl⟩ := he; trivial
  | applyPaymentResult => obtain ⟨i, event, pid, p, -, -, -, -, rfl⟩ := he; trivial
  | prepareRefund => cases h
  | refundFailure => cases h
  | readRefund => cases h
  | approveManualRefund => cases h
  | applyRefundResult => cases h
  | _ => exact absurd he (by simp [Causes])

open Salon in
/-- A client pays for a visit, and after it a part of the payment is returned. -/
def returnedPart : List Label :=
  let asked := askedPayment 2 .yookassa 1 1
  [⟨salon .yookassa, 0, openWindow 10⟩, ⟨salon .yookassa, minutes 1, bookWindow 2 1⟩,
    ⟨salon .yookassa, minutes 2, .submitPayment 1 asked (.ok (succeededAnswer asked))⟩,
    ⟨salon .yookassa, minutes 3, .reconcilePaid 1⟩, ⟨salon .yookassa, hours 36, .endVisit (.completeVisit 1) 1⟩,
    ⟨salon .yookassa, hours 40, .createRefund 1 .yookassa (refundOf 1 4000 "refund-key-0000001")⟩,
    ⟨salon .yookassa, hours 41, .refundResult .yookassa 1 1 1 (refundAnswer .yookassa 1 1 .succeeded 4000)⟩]

open Salon in
def secondPart : Label := ⟨salon .yookassa, hours 42, .createRefund 1 .yookassa (refundOf 1 3000 "refund-key-0000002")⟩

open Salon in
/-- The provider refuses to return it. -/
def refusal : Label := ⟨salon .yookassa, hours 43, .refundResult .yookassa 1 2 1 (refundAnswer .yookassa 1 2 .failed 3000)⟩

theorem refunds_keep_consistent_refused : ∃ r p a a',
    (after (returnedPart ++ [secondPart])).db.refunds.row 2 = some r ∧
    (after returnedPart).db.payments.row r.paymentId = some p ∧
    (after returnedPart).db.appointments.row p.appointmentId = some a ∧
    (after (returnedPart ++ secondPart :: ([] ++ [refusal]))).db.appointments.row p.appointmentId = some a' ∧
    a'.status = a.status := by
  have shows : Guarded step (fun s u => s.showsCare u = true) empty (returnedPart ++ secondPart :: ([] ++ [refusal])) := by
    decide +kernel
  have guarded := shows.mono fun s u h => @handlesWithCare_of_shows s u h
  have new : (after returnedPart).db.refunds.row 2 = none := by decide +kernel
  have asked : ((after (returnedPart ++ [secondPart])).db.refunds.row 2).map (fun r => r.status) = some .pending := by
    decide +kernel
  have failed : ((after (returnedPart ++ secondPart :: ([] ++ [refusal]))).db.refunds.row 2).map (fun r => r.status) =
      some .failed := by decide +kernel
  obtain ⟨r, row, pending⟩ := Option.map_eq_some_iff.mp asked
  obtain ⟨r', row', status⟩ := Option.map_eq_some_iff.mp failed
  have fails : Fails returnedPart secondPart [] refusal 2 := ⟨new, ⟨r, row⟩, ⟨r, row, pending⟩, r', row', .inl status⟩
  exact (refunds_keep_consistent _ guarded).2.1 returnedPart secondPart [] refusal 2 rfl fails

open Salon in
/-- A refund is asked for before the visit, and the provider refuses it. -/
def refusedRefund : List Label :=
  let asked := askedPayment 2 .yookassa 1 1
  [⟨salon .yookassa, 0, openWindow 10⟩, ⟨salon .yookassa, minutes 1, bookWindow 2 1⟩,
    ⟨salon .yookassa, minutes 2, .submitPayment 1 asked (.ok (succeededAnswer asked))⟩,
    ⟨salon .yookassa, minutes 3, .reconcilePaid 1⟩,
    ⟨salon .yookassa, minutes 4, .createRefund 1 .yookassa (refundOf 1 10000 "refund-key-0000001")⟩,
    ⟨salon .yookassa, minutes 5, .refundResult .yookassa 1 1 1 (refundAnswer .yookassa 1 1 .failed 10000)⟩]

/-- The window stays booked for nobody, and the appointment waits for a refund that is over. -/
theorem refusedRefund_strands : (∃ w, (after refusedRefund).db.windows.row 1 = some w ∧ w.status = .booked) ∧
    (∀ k i, ¬ ActiveOn (after refusedRefund).db k i) ∧
    (∃ a, (after refusedRefund).db.appointments.row 1 = some a ∧ a.status = .refundPending) ∧
    ∀ pid p, (after refusedRefund).db.payments.row pid = some p → p.status = .succeeded := by
  have window : ((after refusedRefund).db.windows.row 1).map (fun w => w.status) = some .booked := by decide +kernel
  have appointment : ((after refusedRefund).db.appointments.row 1).map (fun a => a.status) = some .refundPending := by
    decide +kernel
  have idle : (after refusedRefund).db.appointments.All fun _ a => a.status.isActive = false := by decide +kernel
  have payments : (after refusedRefund).db.payments.All fun _ p => p.status = .succeeded := by decide +kernel
  refine ⟨Option.map_eq_some_iff.mp window, ?_, Option.map_eq_some_iff.mp appointment, payments⟩
  rintro k i ⟨a, row, -, active⟩
  rw [idle i a row] at active; cases active

end Sys

end SalonBooking
