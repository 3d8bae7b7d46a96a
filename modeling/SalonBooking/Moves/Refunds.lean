import SalonBooking.Moves.Holds

/-!
# Refunds

What a refund result leaves of a payment and its refund, whether the method raises or not, and what the
transactions of the refund coordinator and of the refund notifications commit.
-/

namespace SalonBooking

open Lib

namespace RefundStep

variable {p q : Payment} {r r' : Refund}

theorem refl (p : Payment) (r : Refund) : RefundStep p r p r :=
  ⟨.refl p, rfl, by simp [flushedRefund], .inl rfl, .touched rfl rfl rfl⟩

end RefundStep

namespace PaymentService

variable {mode : PaymentMode} {pid : Nat} {o : RefundObjects} {result : ProviderRefund} {error : ProviderError}
  {now : Int}

/-- What an accepted end of a refund leaves behind, where `s` is the status it was to have. -/
structure Leaves (s : RefundStatus) (o : RefundObjects) (outcome : Except Err Unit) (o' : RefundObjects) : Prop where
  step : RefundStep o.payment o.refund o'.payment o'.refund
  ends : o'.refund.status = o.refund.status ∨ o'.refund.status = s
  /-- A raise leaves the status of the payment as it was, and is no error of the provider. -/
  raised : ∀ e, outcome = .error e → o'.payment.status = o.payment.status ∧ ∀ code retryable, e ≠ .provider code retryable
  /-- A first success that goes through has found room. -/
  room : outcome = .ok () → o.refund.status = .pending → s = .succeeded →
    o'.refund.status = .succeeded ∧ o.payment.refundedAmount + o.refund.amount ≤ o.payment.amount

def Untouched (o : RefundObjects) (outcome : Except Err Unit) (o' : RefundObjects) : Prop :=
  (∃ e, outcome = .error e) ∧ o' = o

theorem acceptRefund_ok {u : Unit} : acceptRefund mode pid o result = .ok u ↔
    (o.payment.provider = mode ∧ o.refund.paymentId = pid ∧ o.refund.provider = o.payment.provider ∧
      o.refund.currency = o.payment.currency) ∧ result.provider = mode ∧
      o.payment.providerPaymentId = some result.providerPaymentId ∧
      (0 < result.amount ∧ result.amount ≤ maxMoney ∧ isCurrency result.currency = true) ∧
      (result.amount = o.refund.amount ∧ result.currency = o.refund.currency) ∧
      (o.refund.providerRefundId = none ∨ o.refund.providerRefundId = some result.providerRefundId) ∧
      (o.refund.status = result.status ∨ result.status ∈ o.refund.status.allowed) := by
  simp only [acceptRefund, requireRefundBelongsToPayment, requireProvider, requiredProviderPaymentId,
    Except.bind_ok, Except.require_ok, Except.orRaise_ok, validateMoney_ok, requireRefundTransition_ok, exists_const]
  constructor
  · rintro ⟨hbelongs, hmode, id, hid, money, ⟨h₁, h₂, h₃, rfl⟩, rfl, hsame, hrid, hstatus⟩
    exact ⟨hbelongs, hmode, hid, ⟨h₁, h₂, h₃⟩, hsame, hrid, hstatus⟩
  · rintro ⟨hbelongs, hmode, hid, ⟨h₁, h₂, h₃⟩, hsame, hrid, hstatus⟩
    exact ⟨hbelongs, hmode, _, hid, _, ⟨h₁, h₂, h₃, rfl⟩, rfl, hsame, hrid, hstatus⟩

theorem restorePaymentAfterFailedRefund_leaves {r' : Refund}
    (was : o.refund.status = r'.status ∨ o.refund.status = .pending)
    (status : r'.status = .failed ∨ r'.status = .cancelled) (columns : flushedRefund o.refund r' o.refund = r') :
    restorePaymentAfterFailedRefund.Post ⟨o.payment, r'⟩ fun outcome o' =>
      Leaves r'.status o outcome o' ∧ o'.refund = r' := by
  have no_success : r'.status ≠ .succeeded := by rcases status with hs | hs <;> rw [hs] <;> decide
  simp only [restorePaymentAfterFailedRefund, requirePaymentTransition, Mut.post_get_bind, Mut.post_check_bind,
    Mut.post_modify, Except.require_ok, Except.require_error]
  refine ⟨?_, fun _ admitted => ⟨⟨?_, .inr rfl, (by simp), fun _ _ hs => absurd hs no_success⟩, trivial⟩⟩
  · rintro e ⟨blocked, rfl⟩
    refine ⟨⟨⟨.refl _, rfl, columns, .inl rfl, ?_⟩, .inr rfl, ?_, (by simp)⟩, trivial⟩
    · exact .unrestored was status rfl rfl blocked
    · rintro e ⟨⟩
      exact ⟨rfl, fun _ _ => (by simp)⟩
  · exact ⟨⟨rfl, rfl, rfl, rfl, rfl, rfl⟩, rfl, columns, admitted.imp_left Eq.symm, .failed was status rfl rfl⟩

theorem settleSucceeded_leaves {r' : Refund} (was : o.refund.status = .succeeded ∨ o.refund.status = .pending)
    (status : r'.status = .succeeded) (amount : r'.amount = o.refund.amount)
    (columns : ∀ t, flushedRefund o.refund { r' with succeededAt := t } o.refund = { r' with succeededAt := t })
    (columns' : flushedRefund o.refund r' o.refund = r') :
    (addRefunded (o.refund.status == .succeeded) >>= fun _ => settleRefund now).Post ⟨o.payment, r'⟩
      (Leaves .succeeded o) := by
  simp only [addRefunded, settleRefund, requirePaymentTransition, Mut.post_bind, Mut.post_get, Mut.post_check,
    Mut.post_ite, Mut.post_pure, Mut.post_set, Mut.post_modify, beq_iff_eq]
  refine ⟨fun again => ?_, fun first => ?_⟩
  · -- the total does not change, so the target is that of the payment before
    have stays : ∀ P : Prop, o.refund.status = .pending → P := fun P hp => by rw [again] at hp; cases hp
    split
    · next h =>
      have admitted := Except.require_ok.mp h
      refine ⟨⟨⟨rfl, rfl, rfl, rfl, rfl, rfl⟩, rfl, columns (r'.succeededAt.or (some now)), admitted.imp_left Eq.symm, ?_⟩, .inr status, (by simp),
        fun _ hp _ => stays _ hp⟩
      exact .replayed again status rfl rfl
    · next h =>
      obtain ⟨-, rfl⟩ := Except.require_error.mp h
      refine ⟨⟨.refl _, rfl, columns (r'.succeededAt.or (some now)), .inl rfl, .touched (status.trans again.symm) rfl rfl⟩, .inr status, ?_,
        fun _ hp _ => stays _ hp⟩
      rintro e ⟨⟩
      exact ⟨rfl, fun _ _ => (by simp)⟩
  · have pending : o.refund.status = .pending := was.resolve_left first
    have total : o.payment.refundedAmount + r'.amount = o.payment.refundedAmount + o.refund.amount := by rw [amount]
    split
    · next h =>
      have room : o.payment.refundedAmount + o.refund.amount ≤ o.payment.amount :=
        total ▸ not_lt.mp (Except.require_ok.mp h)
      split
      · next h =>
        have admitted := Except.require_ok.mp h
        refine ⟨⟨⟨rfl, rfl, rfl, rfl, rfl, rfl⟩, rfl, columns (r'.succeededAt.or (some now)), admitted.imp_left Eq.symm, ?_⟩, .inr status, (by simp),
          fun _ _ _ => ⟨status, room⟩⟩
        exact .succeeded pending status rfl room total
      · next h =>
        obtain ⟨blocked, rfl⟩ := Except.require_error.mp h
        refine ⟨⟨⟨rfl, rfl, rfl, rfl, rfl, rfl⟩, rfl, columns (r'.succeededAt.or (some now)), .inl rfl, ?_⟩, .inr status, ?_, (by simp)⟩
        · exact .stuck pending status rfl room total blocked
        · rintro e ⟨⟩
          exact ⟨rfl, fun _ _ => (by simp)⟩
    · next h =>
      obtain ⟨full, rfl⟩ := Except.require_error.mp h
      refine ⟨⟨.refl _, rfl, columns', .inl rfl, .overflown pending status rfl (total ▸ not_not.mp full) rfl⟩,
        .inr status, ?_, (by simp)⟩
      rintro e ⟨⟩
      exact ⟨rfl, fun _ _ => (by simp)⟩

theorem applyAuthoritativeRefund_leaves :
    (applyAuthoritativeRefund mode pid result now).Post o fun outcome o' =>
      (∃ e, acceptRefund mode pid o result = .error e ∧ outcome = .error e ∧ o' = o) ∨
        acceptRefund mode pid o result = .ok () ∧ Leaves result.status o outcome o' := by
  simp only [applyAuthoritativeRefund, Mut.post_get_bind, Mut.post_check_bind, Mut.post_modify_bind]
  refine ⟨fun e refused => .inl ⟨e, refused, rfl, trivial⟩, fun _ accepted => ?_⟩
  refine Mut.Post.mono (P := Leaves result.status o) ?_ fun _ _ leaves => .inr ⟨accepted, leaves⟩
  obtain ⟨-, -, -, -, -, -, edge⟩ := acceptRefund_ok.mp accepted
  have was : o.refund.status = result.status ∨ o.refund.status = .pending :=
    edge.imp_right RefundStatus.eq_pending_of_allowed
  cases hs : result.status with
  | pending =>
    rw [hs] at was
    have pending : o.refund.status = .pending := was.elim id id
    refine ⟨⟨.refl _, rfl, ?_, .inl rfl, .touched ?_ rfl rfl⟩, .inr rfl, (by simp), fun _ _ => (by simp)⟩
    · simp [flushedRefund]
    · exact pending.symm
  | failed =>
    exact (restorePaymentAfterFailedRefund_leaves (o := o) (hs ▸ was) (.inl rfl) (by simp [flushedRefund])).mono
      fun _ _ h => h.1
  | cancelled =>
    exact (restorePaymentAfterFailedRefund_leaves (o := o) (hs ▸ was) (.inr rfl) (by simp [flushedRefund])).mono
      fun _ _ h => h.1
  | succeeded =>
    rw [hs] at was
    exact settleSucceeded_leaves was rfl rfl (fun t => by simp [flushedRefund]) (by simp [flushedRefund])

theorem applyRefundSubmissionFailure_leaves :
    (applyRefundSubmissionFailure mode pid error now).Post o fun outcome o' => outcome = .ok () →
      Leaves (if error.retryable then .pending else .failed) o outcome o' ∧
        (o'.payment.status = o.payment.status ∨ o'.refund.status = .failed ∧ error.retryable = false) := by
  simp only [applyRefundSubmissionFailure, Mut.post_get_bind, Mut.post_check_bind, Mut.post_modify_bind,
    Mut.post_ite, Mut.post_pure]
  refine ⟨fun e _ => (by simp), fun _ _ => ⟨fun pending => ⟨fun retryable => ?_, fun final => ⟨fun _ _ => (by simp), ?_⟩⟩,
    fun finished _ => ⟨⟨.refl _ _, .inl rfl, (by simp), fun _ hp => absurd hp finished⟩, .inl trivial⟩⟩⟩
  · rw [if_pos retryable]
    refine fun _ => ⟨⟨⟨.refl _, rfl, ?_, .inl rfl, .touched rfl rfl rfl⟩, .inl rfl, (by simp), fun _ _ => (by simp)⟩,
      .inl trivial⟩
    simp [flushedRefund]
  · intro _ _
    rw [if_neg final]
    refine (restorePaymentAfterFailedRefund_leaves (o := o) (.inr pending) (.inl rfl) ?_).mono ?_
    · simp [flushedRefund]
    · rintro outcome o' ⟨leaves, hr⟩ -
      exact ⟨leaves, .inr ⟨by rw [hr], by simpa using final⟩⟩

/-- The result that an approval by hand stands for. -/
def Approves (o : RefundObjects) (result : ProviderRefund) : Prop :=
  result.status = .succeeded ∧ result.amount = o.refund.amount ∧ o.refund.providerRefundId = some result.providerRefundId

theorem confirmManualRefund_leaves : (confirmManualRefund mode pid now).Post o fun outcome o' =>
    Untouched o outcome o' ∨
      ∃ result, Approves o result ∧ acceptRefund mode pid o result = .ok () ∧ Leaves .succeeded o outcome o' := by
  simp only [confirmManualRefund, Mut.post_get_bind, Mut.post_check_bind, Except.orRaise_ok]
  refine ⟨fun e _ => .inl ⟨⟨e, rfl⟩, rfl⟩, fun _ _ => ⟨fun e _ => .inl ⟨⟨e, rfl⟩, rfl⟩, fun id hid =>
    ⟨fun e _ => .inl ⟨⟨e, rfl⟩, rfl⟩, fun id' _ => applyAuthoritativeRefund_leaves.mono fun outcome o' h => ?_⟩⟩⟩
  rcases h with ⟨e, -, rfl, rfl⟩ | ⟨accepted, leaves⟩
  · exact .inl ⟨⟨e, rfl⟩, rfl⟩
  · exact .inr ⟨_, ⟨rfl, rfl, hid⟩, accepted, leaves⟩

theorem applyRefundWebhookResult_leaves {event : PaymentWebhookEvent} :
    (applyRefundWebhookResult mode pid event result now).Post o fun outcome o' =>
      Untouched o outcome o' ∨ acceptRefund mode pid o result = .ok () ∧ Leaves result.status o outcome o' := by
  simp only [applyRefundWebhookResult, Mut.post_get_bind, Mut.post_check_bind]
  refine ⟨fun e _ => .inl ⟨⟨e, rfl⟩, rfl⟩, fun _ _ => ⟨fun e _ => .inl ⟨⟨e, rfl⟩, rfl⟩, fun _ _ =>
    ⟨fun e _ => .inl ⟨⟨e, rfl⟩, rfl⟩, fun _ _ => ⟨fun e _ => .inl ⟨⟨e, rfl⟩, rfl⟩, fun _ _ =>
      applyAuthoritativeRefund_leaves.mono fun outcome o' h => ?_⟩⟩⟩⟩
  rcases h with ⟨e, -, rfl, rfl⟩ | h
  · exact .inl ⟨⟨e, rfl⟩, rfl⟩
  · exact .inr h

end PaymentService

variable {may : Db → Effect → Prop} {c : Catalog} {db db' db₁ : Db} {mode : PaymentMode} {pid x : Nat} {now : Int}
  {actorUserId : Option Nat}

/-! ### The appointment of a refund -/

theorem transition_sync {i : Nat} {a : Appointment} {t : AppointmentStatus}
    {reason : String} (row : db.appointments.row i = some a) (edge : a.status = t ∨ t ∈ a.status.allowed)
    (h : (if a.status = t then return db else
      return (db.setAppointment i { a with status := t }).addHistory
        ⟨i, some a.status, t, actorUserId, some reason⟩ : Check Db) = .ok db₁) :
    ∃ appointments history, RefundSync db.appointments i (some t) appointments ∧
      Chronicle db.appointments db.history appointments history ∧ db₁ = { db with appointments, history } := by
  split at h
  · next same =>
    cases h
    exact ⟨db.appointments, db.history, same ▸ .already a row, .refl, rfl⟩
  · next differs =>
    cases h
    have edge := edge.resolve_left differs
    exact ⟨_, _, .edge a t row edge, .moved row edge rfl rfl rfl, rfl⟩

theorem RefundCoordinator.transitionRefundAppointment_ok {p : Payment} {t : AppointmentStatus} {reason : String}
    (h : transitionRefundAppointment p t actorUserId reason db = .ok db₁) :
    ∃ appointments history, RefundSync db.appointments p.appointmentId (some t) appointments ∧
      Chronicle db.appointments db.history appointments history ∧ db₁ = { db with appointments, history } := by
  simp only [transitionRefundAppointment, Except.bind_ok, Except.orRaise_ok, ensureAppointmentTransition_ok,
    exists_const] at h
  obtain ⟨a, row, edge, h⟩ := h
  exact transition_sync row edge h

theorem WebhookCoordinator.syncRefundAppointmentStatus_ok {p : Payment}
    (h : syncRefundAppointmentStatus p actorUserId db = .ok db₁) :
    ∃ appointments history, RefundSync db.appointments p.appointmentId (syncTarget p.status) appointments ∧
      Chronicle db.appointments db.history appointments history ∧ db₁ = { db with appointments, history } := by
  unfold syncRefundAppointmentStatus at h
  split at h
  · next none =>
    cases h
    exact ⟨db.appointments, db.history, none ▸ .none, .refl, rfl⟩
  · next t target =>
    simp only [Except.bind_ok, Except.orRaise_ok, ensureAppointmentTransition_ok, exists_const] at h
    obtain ⟨a, row, edge, h⟩ := h
    exact target ▸ transition_sync row edge h

/-! ### The transactions of the refund coordinator -/

theorem PaymentService.newRefund_ok {partial_ : Bool} {p q : Payment} {r : Refund} {values : RefundCreate}
    {reserved : Money} (h : newRefund mode partial_ pid p values reserved = .ok (q, r)) :
    q = { p with status := .refundPending } ∧ (p.status = .succeeded ∨ p.status = .partiallyRefunded) ∧
      r.paymentId = values.paymentId ∧ r.status = .pending ∧ 0 < r.amount ∧ r.amount ≤ p.amount - reserved := by
  simp only [newRefund, requireProvider, requirePaymentState, Except.bind_ok, Except.require_ok, validateMoney_ok,
    requirePaymentTransition_ok, Except.pure_ok, exists_const, Prod.mk.injEq] at h
  obtain ⟨-, -, -, status, ⟨amount, currency⟩, ⟨positive, -, -, he⟩, -, -, fits, -, -, rfl, rfl⟩ := h
  cases he
  exact ⟨rfl, by simpa using status, rfl, rfl, positive, not_lt.mp fits⟩

namespace RefundCoordinator

theorem ensureRefund_ok (hc : db.Checks) {userId : Nat} {values : RefundCreate} {result : Nat × Bool}
    (hmay : ∀ p, db.payments.row values.paymentId = some p → p.status = .succeeded ∨ p.status = .partiallyRefunded →
      db.refundByIdempotencyKey values.idempotencyKey = none → may db (.request values.paymentId))
    (h : ensureRefund mode userId values db = .ok (result, db')) : Transaction may db db' := by
  simp only [ensureRefund, Except.bind_ok, Except.orRaise_ok, Except.require_ok, exists_const] at h
  obtain ⟨p, row, -, h⟩ := h
  split at h
  · simp only [Except.bind_ok, Except.pure_ok, Prod.mk.injEq] at h
    obtain ⟨-, -, -, -, -, rfl⟩ := h
    exact .refl hc
  · next new =>
    simp only [Except.bind_ok, Except.pure_ok, Prod.mk.injEq] at h
    obtain ⟨⟨q, r⟩, hdraft, db₁, hsync, db₂, hcommit, -, rfl⟩ := h
    obtain ⟨rfl, status, of, pending, positive, fits⟩ := PaymentService.newRefund_ok hdraft
    obtain ⟨appointments, history, sync, log, rfl⟩ := transitionRefundAppointment_ok hsync
    exact .of_commit hcommit (.request values.paymentId p r appointments row (hmay p row status new) status of pending
      positive (Int.add_le_of_le_sub_left fits) sync _ history log)

theorem createAndSubmit_ok (hc : db.Checks) {actor : Int} {values : RefundCreate} {result : Nat × Bool}
    (hmay : ∀ p, db.payments.row values.paymentId = some p → p.status = .succeeded ∨ p.status = .partiallyRefunded →
      db.refundByIdempotencyKey values.idempotencyKey = none → may db (.request values.paymentId))
    (h : createAndSubmit c actor mode values db = .ok (result, db')) : Transaction may db db' := by
  simp only [createAndSubmit, Except.bind_ok] at h
  obtain ⟨liveActor, -, -, -, h⟩ := h
  exact @ensureRefund_ok may db db' mode hc liveActor.userId { values with requestedByUserId := some liveActor.userId }
    result hmay h

variable {o o' : RefundObjects}

theorem loadLockedRefund_ok (h : loadLockedRefund mode pid x db = .ok o) :
    db.payments.row pid = some o.payment ∧ db.refunds.row x = some o.refund ∧ o.refund.paymentId = pid := by
  simp only [loadLockedRefund, Except.bind_ok, Except.orRaise_ok, Except.require_ok, Except.pure_ok,
    exists_const] at h
  obtain ⟨p, payment, r, refund, of, -, rfl⟩ := h
  exact ⟨payment, refund, of⟩

theorem result_move (payment : db.payments.row pid = some o.payment) (refund : db.refunds.row x = some o.refund)
    (of : o.refund.paymentId = pid) (step : RefundStep o.payment o.refund o'.payment o'.refund)
    {s : RefundStatus} (hmay : may db (.result pid o.refund o.refund s))
    (ends : o'.refund.status = o.refund.status ∨ o'.refund.status = s) {t? : Option AppointmentStatus}
    (target : t? = WebhookCoordinator.syncTarget o'.payment.status ∨
      t? = .none ∧ (o'.payment.status = o.payment.status ∨ o'.refund.status = .failed ∧ may db (.unsent pid)))
    {appointments : Table Appointment} (sync : RefundSync db.appointments o.payment.appointmentId t? appointments)
    (events history) (log : Chronicle db.appointments db.history appointments history) : Move may db { db with
      appointments, payments := db.payments.put pid o'.payment, refunds := db.refunds.put x o'.refund
      events, history } := by
  have move : Move may db _ := .result pid o.payment o'.payment x o.refund o'.refund o.refund s appointments t?
    payment refund hmay of (.refl _) step ⟨ends, .inl rfl⟩ target sync events history log
  rw [step.columns] at move
  exact move

theorem preparePendingRefund_ok (hc : db.Checks)
    (hmay : ∀ o, loadLockedRefund mode pid x db = .ok o → unsubmitted o.refund = true →
      may db (.result pid o.refund o.refund .pending))
    (h : preparePendingRefund mode pid x db = .ok db') : Transaction may db db' := by
  simp only [preparePendingRefund, Except.bind_ok] at h
  obtain ⟨o, load, h⟩ := h
  obtain ⟨payment, refund, of⟩ := loadLockedRefund_ok load
  split at h
  · next fresh =>
    simp only [PaymentService.prepareRefundSubmission, Except.bind_ok, Except.pure_ok] at h
    obtain ⟨r', ⟨-, -, -, -, -, -, rfl⟩, hcommit⟩ := h
    refine .of_commit hcommit ?_
    have step : RefundStep o.payment o.refund o.payment { o.refund with attempts := o.refund.attempts + 1 } :=
      ⟨.refl _, rfl, by simp [flushedRefund], .inl rfl, .touched rfl rfl rfl⟩
    let o' : RefundObjects := ⟨o.payment, { o.refund with attempts := o.refund.attempts + 1 }⟩
    have ends : o'.refund.status = o.refund.status ∨ o'.refund.status = .pending := .inl rfl
    have move := result_move payment refund of step (hmay o load fresh) ends (.inr ⟨rfl, .inl rfl⟩) .none
      db.events db.history .refl
    rw [show o'.payment = o.payment from rfl, Table.put_same payment] at move
    exact move
  · cases h
    exact .refl hc

/-- The effects of a submission that has failed with this error. -/
def Fails (may : Effect → Prop) (pid : Nat) (r : Refund) (retryable : Bool) : Prop :=
  may (.result pid r r (if retryable then .pending else .failed)) ∧ (retryable = false → may (.unsent pid))

theorem submissionFailure_ok {error : ProviderError} (payment : db.payments.row pid = some o.payment)
    (refund : db.refunds.row x = some o.refund) (of : o.refund.paymentId = pid)
    (hmay : Fails (may db) pid o.refund error.retryable)
    (hexec : (PaymentService.applyRefundSubmissionFailure mode pid error now).exec o = (.ok (), o'))
    (h : (writeObjects db pid x o').commit = .ok db') : Transaction may db db' := by
  obtain ⟨leaves, status⟩ := PaymentService.applyRefundSubmissionFailure_leaves.elim hexec rfl
  have target : o'.payment.status = o.payment.status ∨ o'.refund.status = .failed ∧ may db (.unsent pid) :=
    status.imp_right fun hs => ⟨hs.1, hmay.2 hs.2⟩
  exact .of_commit h (result_move payment refund of leaves.step hmay.1 leaves.ends (.inr ⟨rfl, target⟩) .none _ _ .refl)

theorem applyRefundFailure_ok (hc : db.Checks) {error : ProviderError}
    (hmay : ∀ o, loadLockedRefund mode pid x db = .ok o → unsubmitted o.refund = true →
      Fails (may db) pid o.refund error.retryable)
    (h : applyRefundFailure mode pid x error now db = .ok db') : Transaction may db db' := by
  simp only [applyRefundFailure, Except.bind_ok] at h
  obtain ⟨o, load, h⟩ := h
  obtain ⟨payment, refund, of⟩ := loadLockedRefund_ok load
  split at h
  · next fresh =>
    split at h
    · cases h
    · next o' hexec => exact submissionFailure_ok payment refund of (hmay o load fresh) hexec h
  · cases h
    exact .refl hc

theorem applyRefundResult_ok (hc : db.Checks) {userId : Nat} {result : ProviderRefund}
    (hmay : ∀ o, loadLockedRefund mode pid x db = .ok o → unsubmitted o.refund = true →
      (PaymentService.acceptRefund mode pid o result = .ok () →
        may db (.result pid o.refund o.refund result.status)) ∧
      ∀ code retryable, PaymentService.acceptRefund mode pid o result = .error (.provider code retryable) →
        Fails (may db) pid o.refund retryable)
    (h : applyRefundResult mode pid x userId result now db = .ok db') : Transaction may db db' := by
  simp only [applyRefundResult, Except.bind_ok] at h
  obtain ⟨o, load, h⟩ := h
  obtain ⟨payment, refund, of⟩ := loadLockedRefund_ok load
  split at h
  · next fresh =>
    obtain ⟨accepted, refused⟩ := hmay o load fresh
    split at h
    · next code retryable o₁ hexec =>
      rcases PaymentService.applyAuthoritativeRefund_leaves.elim hexec with ⟨e, hrefused, ⟨⟩, rfl⟩ | ⟨-, leaves⟩
      · split at h
        · cases h
        · next o' hfail =>
          have fails : Fails (may db) pid o₁.refund retryable := refused code retryable hrefused
          exact submissionFailure_ok payment refund of fails hfail h
      · exact absurd rfl ((leaves.raised _ rfl).2 code retryable)
    · cases h
    · next o' hexec =>
      rcases PaymentService.applyAuthoritativeRefund_leaves.elim hexec with ⟨e, -, ⟨⟩, -⟩ | ⟨haccepted, leaves⟩
      simp only [Except.bind_ok] at h
      obtain ⟨db₁, hsync, hcommit⟩ := h
      obtain ⟨appointments, history, sync, log, rfl⟩ := WebhookCoordinator.syncRefundAppointmentStatus_ok hsync
      rw [leaves.step.intent.appointmentId] at sync
      exact .of_commit hcommit (result_move payment refund of leaves.step (accepted haccepted) leaves.ends (.inl rfl)
        sync _ _ log)
  · cases h
    exact .refl hc

theorem flushRefund_eq {r : Refund} (row : db.refunds.row x = some r) (loaded object : Refund) :
    db.flushRefund x loaded object = { db with refunds := db.refunds.put x (flushedRefund loaded object r) } := by
  rw [Db.flushRefund, row]
  rfl

/-- The approval of a manual refund applies a result to the object read before the locks. -/
theorem approveManualRefund_ok (hc : db.Checks) {actor : Int} {copy : Refund}
    (same : ∀ r, db.refunds.row x = some r → SameRefund r copy)
    (hmay : ∀ p r, db.payments.row copy.paymentId = some p → db.refunds.row x = some r → copy.status = .pending →
      may db (.result copy.paymentId copy r .succeeded))
    (h : approveManualRefund c actor x copy now db = .ok db') : Transaction may db db' := by
  simp only [approveManualRefund, Except.bind_ok, Except.orRaise_ok, Except.require_ok, exists_const] at h
  obtain ⟨liveActor, -, p, payment, r, refund, -, h⟩ := h
  split at h
  · cases h
    exact .refl hc
  · next unfinished =>
    split at h
    · cases h
    · next o' hexec =>
      rcases PaymentService.confirmManualRefund_leaves.elim hexec with ⟨⟨e, ⟨⟩⟩, -⟩ | ⟨result, approves, accepted, leaves⟩
      obtain ⟨-, -, -, -, -, -, edge⟩ := PaymentService.acceptRefund_ok.mp accepted
      rw [approves.1] at edge
      have pending : copy.status = .pending := RefundStatus.eq_pending_of_allowed (edge.resolve_left unfinished)
      simp only [Except.bind_ok] at h
      obtain ⟨db₁, hsync, hcommit⟩ := h
      have refund' : (db.setPayment copy.paymentId o'.payment).refunds.row x = some r := refund
      rw [flushRefund_eq refund'] at hsync
      obtain ⟨appointments, history, sync, log, rfl⟩ := WebhookCoordinator.syncRefundAppointmentStatus_ok hsync
      rw [leaves.step.intent.appointmentId] at sync
      have applied : Applied p copy r o'.refund .succeeded :=
        ⟨leaves.ends, .inr ⟨pending, leaves.room rfl pending rfl⟩⟩
      exact .of_commit hcommit (.result copy.paymentId p o'.payment x copy o'.refund r .succeeded appointments _ payment
        refund (hmay p r payment refund pending) rfl (same r refund) leaves.step applied (.inl rfl) sync _ _ log)

end RefundCoordinator

namespace WebhookCoordinator

variable {envelope : ProviderWebhookEvent} {result : ProviderRefund} {outcome : WebhookOutcome}

theorem applyRefundResult_ok (hc : db.Checks)
    (hmay : ∀ i event pid p x r, db.eventByKey envelope.provider envelope.eventKey = some (i, event) →
      event.status.isTerminal = false →
      db.paymentByProviderId envelope.provider envelope.providerPaymentId = some (pid, p) →
      db.refundByProviderId envelope.provider envelope.providerObjectId = some (x, r) →
      PaymentService.acceptRefund .yookassa pid ⟨p, r⟩ result = .ok () → may db (.result pid r r result.status))
    (h : applyRefundResult envelope result now db = .ok (outcome, db')) : Transaction may db db' := by
  simp only [applyRefundResult, loadLockedEvent, Except.bind_ok, Except.orRaise_ok, Except.require_ok,
    Except.pure_ok, exists_const] at h
  obtain ⟨⟨_, _⟩, ⟨⟨eventId, event⟩, stored, henvelope, ⟨⟩⟩, h⟩ := h
  split at h
  · cases h
    exact .refl hc
  · next open_ =>
    rw [henvelope] at h
    split at h
    · exact flush_ok (fun events => .idle events db.history .refl) h
    · next pid p hp =>
      split at h
      · exact flush_ok (fun events => .idle events db.history .refl) h
      · next x r hr =>
        obtain ⟨payment, -⟩ := Table.find_eq_some hp
        obtain ⟨refund, -⟩ := Table.find_eq_some hr
        have effect := hmay eventId event pid p x r stored (by simpa using open_) hp hr
        split at h
        · next e o' hexec =>
          refine recordApplyFailure_ok (fun events => ?_) h
          rcases PaymentService.applyRefundWebhookResult_leaves.elim hexec with ⟨-, rfl⟩ | ⟨accepted, leaves⟩
          · show Move may db { db with payments := db.payments.put pid p, refunds := db.refunds.put x r, events }
            rw [Table.put_same payment, Table.put_same refund]
            exact .idle events db.history .refl
          · have of := (PaymentService.acceptRefund_ok.mp accepted).1.2.1
            exact RefundCoordinator.result_move (o := ⟨p, r⟩) payment refund of leaves.step (effect accepted) leaves.ends
              (.inr ⟨rfl, .inl (leaves.raised e rfl).1⟩) .none events db.history .refl
        · next o' hexec =>
          rcases PaymentService.applyRefundWebhookResult_leaves.elim hexec with ⟨⟨e, ⟨⟩⟩, -⟩ | ⟨accepted, leaves⟩
          have of := (PaymentService.acceptRefund_ok.mp accepted).1.2.1
          simp only [Except.bind_ok, Except.pure_ok, Prod.mk.injEq] at h
          obtain ⟨db₁, hsync, db₂, hcommit, -, rfl⟩ := h
          obtain ⟨appointments, history, sync, log, rfl⟩ := syncRefundAppointmentStatus_ok hsync
          rw [leaves.step.intent.appointmentId] at sync
          exact .of_commit hcommit (RefundCoordinator.result_move (o := ⟨p, r⟩) payment refund of leaves.step
            (effect accepted) leaves.ends (.inl rfl) sync _ _ log)

end WebhookCoordinator

end SalonBooking
