import SalonBooking.Money.Ledger

/-!
# Late results never regress a payment

A payment is written by a dozen methods that are called in any order and with answers of any age. Each of
them follows an edge of the transition table, never changes the provider's id or the date of the payment
once they are set, and leaves the payment as it was when it refuses an answer. The exception is the
checkout: an answer that it refuses counts as a failed creation.
-/

namespace SalonBooking

open Lib

namespace PaymentService

/-- The calls of the payment service that write to a payment, with the answers they work on. -/
inductive Call
  | submission (values : PaymentCreate) (answer : Except ProviderError ProviderPayment)
  | createWithProvider (values : PaymentCreate) (answer : Except ProviderError ProviderPayment)
  | applyCreationResult (result : ProviderPayment)
  | applyCreationFailure (error : ProviderError)
  | refreshFromProvider (answer : Except ProviderError ProviderPayment)
  | cancelWithProvider (answer : Except ProviderError ProviderPayment)
  | applyAuthoritativePayment (result : ProviderPayment)
  | confirmManualPayment
  | newRefund (supportsPartialRefunds : Bool) (paymentId : Nat) (values : RefundCreate) (reserved : Money)
  | applyAuthoritativeRefund (paymentId : Nat) (refund : Refund) (result : ProviderRefund)
  | applyRefundSubmissionFailure (paymentId : Nat) (refund : Refund) (error : ProviderError)

/-- `_submit_payment` on the stored payment: an answer is tried on a detached copy of the intent, and what
the copy refuses is recorded as a creation failure. -/
def submit (values : PaymentCreate) (answer : Except ProviderError ProviderPayment) (now : Int) :
    Mut Err Payment Unit := do
  let detached ← Mut.check (newPayment values.provider values none)
  match (PaymentService.createWithProvider values.provider values answer now).exec detached with
  | (.error (.provider code retryable), _) =>
    if (← get).status = .created then
      Mut.check (requireSameIntent (← get) values)
      PaymentService.applyCreationFailure ⟨code, retryable⟩
    else pure ()
    Mut.check (.error (.bookingUnavailable ("Платёжный сервис временно недоступен. Время сохранено " ++
      "в резерве; повторите подтверждение до истечения таймера.")))
  | (.error e, _) => Mut.check (.error e)
  | (.ok result, _) =>
    Mut.check (requireSameIntent (← get) values)
    if (← get).status = .created then PaymentService.applyCreationResult values.provider result now
    else pure ()

/-- A method of a payment and a refund, as far as the payment is concerned. -/
def onPayment (refund : Refund) (m : Mut Err RefundObjects Unit) : Mut Err Payment Unit :=
  ExceptT.mk fun payment => ((m.exec ⟨payment, refund⟩).1, (m.exec ⟨payment, refund⟩).2.payment)

def perform (mode : PaymentMode) (now : Int) : Call → Mut Err Payment Unit
  | .submission values answer => submit values answer now
  | .createWithProvider values answer => do
    let _ ← PaymentService.createWithProvider mode values answer now
  | .applyCreationResult result => PaymentService.applyCreationResult mode result now
  | .applyCreationFailure error => PaymentService.applyCreationFailure error
  | .refreshFromProvider answer => PaymentService.refreshFromProvider mode answer now
  | .cancelWithProvider answer => PaymentService.cancelWithProvider mode answer now
  | .applyAuthoritativePayment result => PaymentService.applyAuthoritativePayment mode result now
  | .confirmManualPayment => PaymentService.confirmManualPayment now
  | .newRefund partial_ paymentId values reserved => do
    let (payment, _) ← Mut.check (PaymentService.newRefund mode partial_ paymentId (← get) values reserved)
    set payment
  | .applyAuthoritativeRefund paymentId refund result =>
    onPayment refund (PaymentService.applyAuthoritativeRefund mode paymentId result now)
  | .applyRefundSubmissionFailure paymentId refund error =>
    onPayment refund (PaymentService.applyRefundSubmissionFailure mode paymentId error now)

/-- The calls that record a failed creation and raise. -/
def Call.recordsFailure : Call → Bool
  | submission _ _ | createWithProvider _ (.error _) => true
  | _ => false

/-- The payment after a call; what is assigned before a raise stays. -/
def called (payment : Payment) (x : PaymentMode × Int × Call) : Payment := ((perform x.1 x.2.1 x.2.2).exec payment).2

end PaymentService

/-- The record of a payment besides its status. -/
structure SameRecord (p q : Payment) : Prop where
  providerPaymentId : q.providerPaymentId = p.providerPaymentId
  confirmationUrl : q.confirmationUrl = p.confirmationUrl
  paidAt : q.paidAt = p.paidAt
  cancelledAt : q.cancelledAt = p.cancelledAt

theorem SameRecord.refl (p : Payment) : SameRecord p p := ⟨rfl, rfl, rfl, rfl⟩

/-- Only a captured payment has a date of payment. -/
def Dated (p : Payment) : Prop := p.paidAt ≠ none → p.status.captured = true

/-- What a call may do to a payment. -/
structure Advances (p q : Payment) : Prop where
  edge : q.status = p.status ∨ q.status ∈ p.status.allowed
  id : ∀ x, p.providerPaymentId = some x → q.providerPaymentId = some x
  paid : ∀ t, p.paidAt = some t → q.paidAt = some t
  dated : q.paidAt ≠ none → q.status.captured = true

namespace Advances

variable {p q : Payment}

theorem captured (h : Advances p q) (hp : p.status.captured = true) : q.status.captured = true := by
  rcases h.edge with hs | hs
  · rw [hs]; exact hp
  · exact PaymentStatus.captured_of_allowed hs hp

theorem of_record (hd : Dated p) (record : SameRecord p q) (edge : q.status = p.status ∨ q.status ∈ p.status.allowed) :
    Advances p q := by
  refine ⟨edge, fun x hx => record.providerPaymentId.trans hx, fun t ht => record.paidAt.trans ht, fun hq => ?_⟩
  have hp := hd (record.paidAt ▸ hq)
  rcases edge with hs | hs
  · rw [hs]; exact hp
  · exact PaymentStatus.captured_of_allowed hs hp

end Advances

namespace PaymentService

variable {mode : PaymentMode} {p q : Payment} {now : Int} {x : Call} {outcome : Check Unit} {result : ProviderPayment}

/-- What a call leaves behind: a refusal leaves the record, and the status unless it records a failure. -/
structure Performs (x : Call) (p : Payment) (outcome : Check Unit) (q : Payment) : Prop where
  advances : Advances p q
  refused : ∀ e, outcome = .error e → SameRecord p q ∧
    (q.status = p.status ∨ x.recordsFailure = true ∧ p.status = .created ∧ q.status = .failed)

namespace Performs

theorem of_record (hd : Dated p) (record : SameRecord p q) (status : q.status = p.status) : Performs x p outcome q :=
  ⟨.of_record hd record (.inl status), fun _ _ => ⟨record, .inl status⟩⟩

theorem refl (hd : Dated p) : Performs x p outcome p := of_record hd (.refl p) rfl

theorem of_ok (h : Advances p q) : Performs x p (.ok ()) q := ⟨h, nofun⟩

end Performs

theorem advances_withResult (hd : Dated p) (accepted : acceptPayment mode p result = .ok ()) :
    Advances p (withResult p result now) := by
  obtain ⟨-, -, -, hid, -, edge⟩ := acceptPayment_ok.mp accepted
  have edge' : (withResult p result now).status = p.status ∨ (withResult p result now).status ∈ p.status.allowed :=
    edge.imp_left Eq.symm
  refine ⟨edge', fun x hx => ?_, fun t ht => ?_, fun hq => ?_⟩
  · rcases hid with none | same
    · rw [none] at hx; cases hx
    · exact same.symm.trans hx
  · simp [withResult, ht]
  · by_cases hs : (withResult p result now).status = .succeeded
    · rw [hs]; rfl
    · have kept : (withResult p result now).paidAt = p.paidAt := if_neg fun h => hs h.1
      have hp := hd (kept ▸ hq)
      rcases edge' with hs | hs
      · rw [hs]; exact hp
      · exact PaymentStatus.captured_of_allowed hs hp

/-- The payment after the marks that a call leaves before it looks at an answer. -/
def touched (p : Payment) (attempts : Nat) (lastErrorCode : Option String) : Payment := { p with attempts, lastErrorCode }

theorem touched_record (p : Payment) (n : Nat) (e : Option String) : SameRecord p (touched p n e) := ⟨rfl, rfl, rfl, rfl⟩

theorem authoritative_performs (hd : Dated p) (n : Nat) (e : Option String) :
    (PaymentService.applyAuthoritativePayment mode result now).Post (touched p n e) (Performs x p) := by
  rw [post_applyAuthoritativePayment]
  refine ⟨fun _ _ => .of_record hd (touched_record p n e) rfl, fun accepted => .of_ok ?_⟩
  have accepted' : acceptPayment mode p result = .ok () := accepted
  have advances : Advances p (withResult p result now) := advances_withResult hd accepted'
  exact ⟨advances.1, advances.2, advances.3, advances.4⟩

theorem recordPaymentError_performs (hd : Dated p) (error : ProviderError) (n : Nat) (e : Option String)
    (created : p.status = .created) :
    (recordPaymentError error).Post (touched p n e) fun outcome q => outcome = .ok () ∧ Advances p q ∧ SameRecord p q ∧
      (q.status = p.status ∨ q.status = .failed) := by
  have edge : PaymentStatus.failed ∈ p.status.allowed := by rw [created]; decide
  simp only [recordPaymentError, Mut.post_modify_bind, Mut.post_ite, Mut.post_pure, Mut.post_get_bind,
    Mut.post_check_bind, Mut.post_modify, requirePaymentTransition_ok]
  refine ⟨fun _ => ⟨trivial, .of_record hd ⟨rfl, rfl, rfl, rfl⟩ (.inl rfl), ⟨rfl, rfl, rfl, rfl⟩, .inl rfl⟩,
    fun _ => ⟨fun _ h => ?_, fun _ _ =>
      ⟨trivial, .of_record hd ⟨rfl, rfl, rfl, rfl⟩ (.inr edge), ⟨rfl, rfl, rfl, rfl⟩, .inr trivial⟩⟩⟩
  have admitted : requirePaymentTransition p.status .failed = .ok () := requirePaymentTransition_ok.mpr (.inr edge)
  exact absurd (h.symm.trans admitted) (by simp)

theorem applyCreationFailure_performs (hd : Dated p) (error : ProviderError) :
    (PaymentService.applyCreationFailure error).Post p fun outcome q => Performs x p outcome q ∧
      (SameRecord p q ∧ (q.status = p.status ∨ p.status = .created ∧ q.status = .failed)) := by
  simp only [PaymentService.applyCreationFailure, requirePaymentState, Mut.post_get_bind, Mut.post_check_bind,
    Mut.post_modify_bind, Except.require_ok, List.mem_singleton]
  refine ⟨fun _ _ => ⟨.refl hd, .refl p, .inl trivial⟩, fun _ created => ?_⟩
  refine (recordPaymentError_performs hd error (p.attempts + 1) p.lastErrorCode created).mono ?_
  rintro _ q ⟨rfl, advances, record, status⟩
  exact ⟨.of_ok advances, record, status.imp_right fun hs => ⟨created, hs⟩⟩

theorem applyCreationResult_performs (hd : Dated p) :
    (PaymentService.applyCreationResult mode result now).Post p (Performs x p) := by
  simp only [PaymentService.applyCreationResult, requirePaymentState, Mut.post_get_bind, Mut.post_check_bind,
    Mut.post_modify_bind]
  exact ⟨fun _ _ => .refl hd, fun _ _ => authoritative_performs hd (p.attempts + 1) none⟩

theorem submit_performs (hd : Dated p) {values : PaymentCreate} {answer : Except ProviderError ProviderPayment}
    (records : x.recordsFailure = true) : (submit values answer now).Post p (Performs x p) := by
  simp only [submit, Mut.post_check_bind]
  refine ⟨fun _ _ => .refl hd, fun detached _ => ?_⟩
  split
  · next code retryable _ _ =>
    simp only [Mut.post_bind, Mut.post_get, Mut.post_ite, Mut.post_check]
    refine ⟨fun created => ?_, fun _ => .refl hd⟩
    split
    · refine (applyCreationFailure_performs (x := x) hd ⟨code, retryable⟩).mono fun r q h => ?_
      have refused : ∀ e, Performs x p (.error e) q := fun e =>
        ⟨h.1.advances, fun _ _ => ⟨h.2.1, h.2.2.imp_right fun hs => ⟨records, hs⟩⟩⟩
      cases r with
      | ok => exact refused _
      | error e => exact refused e
    · exact .refl hd
  · exact .refl hd
  · simp only [Mut.post_check_bind, Mut.post_get_bind, Mut.post_ite, Mut.post_pure]
    exact ⟨fun _ _ => .refl hd, fun _ _ => ⟨fun _ => applyCreationResult_performs hd, fun _ => .refl hd⟩⟩

theorem createWithProvider_performs (hd : Dated p) {values : PaymentCreate}
    {answer : Except ProviderError ProviderPayment} : (perform mode now (.createWithProvider values answer)).Post p
      (Performs (.createWithProvider values answer) p) := by
  simp only [perform, PaymentService.createWithProvider, bind_assoc, requirePaymentState, Mut.post_get_bind, Mut.post_check_bind,
    Mut.post_modify_bind, Except.require_ok, List.mem_singleton]
  refine ⟨fun _ _ => .refl hd, fun _ _ => ⟨fun _ _ => .refl hd, fun _ created => ?_⟩⟩
  cases answer with
  | error error =>
    simp only [bind_assoc]
    rw [Mut.post_bind]
    refine (recordPaymentError_performs hd error (p.attempts + 1) p.lastErrorCode created).mono ?_
    rintro _ q ⟨rfl, advances, record, status⟩
    simp only [Mut.post_check_bind]
    refine ⟨fun e _ => ⟨advances, fun _ _ => ⟨record, status.imp_right fun hs => ⟨rfl, created, hs⟩⟩⟩, nofun⟩
  | ok result =>
    simp only [bind_assoc, pure_bind]
    rw [Mut.post_bind]
    have performs := @authoritative_performs mode p now (.createWithProvider values (.ok result)) result hd
      (p.attempts + 1) p.lastErrorCode
    refine performs.mono fun r q h => ?_
    cases r with
    | ok => exact h
    | error => exact h

theorem refreshFromProvider_performs (hd : Dated p) {answer : Except ProviderError ProviderPayment} :
    (PaymentService.refreshFromProvider mode answer now).Post p (Performs x p) := by
  simp only [PaymentService.refreshFromProvider, Mut.post_get_bind, Mut.post_check_bind, Mut.post_modify_bind]
  refine ⟨fun _ _ => .refl hd, fun _ _ => ?_⟩
  cases answer with
  | error error => exact .of_record hd ⟨rfl, rfl, rfl, rfl⟩ rfl
  | ok result => exact authoritative_performs hd (p.attempts + 1) p.lastErrorCode

theorem cancelWithProvider_performs (hd : Dated p) {answer : Except ProviderError ProviderPayment} :
    (PaymentService.cancelWithProvider mode answer now).Post p (Performs x p) := by
  simp only [PaymentService.cancelWithProvider, Mut.post_get_bind, Mut.post_check_bind, Mut.post_modify_bind]
  refine ⟨fun _ _ => .refl hd, fun _ _ => ⟨fun _ _ => .refl hd, fun _ _ => ?_⟩⟩
  cases answer with
  | error error => exact .of_record hd ⟨rfl, rfl, rfl, rfl⟩ rfl
  | ok result =>
    simp only [Mut.post_check_bind]
    exact ⟨fun _ _ => .of_record hd ⟨rfl, rfl, rfl, rfl⟩ rfl,
      fun _ _ => authoritative_performs hd (p.attempts + 1) p.lastErrorCode⟩

theorem confirmManualPayment_performs (hd : Dated p) :
    (PaymentService.confirmManualPayment now).Post p (Performs x p) := by
  simp only [PaymentService.confirmManualPayment, requirePaymentState, Mut.post_get_bind, Mut.post_check_bind,
    Mut.post_modify, Except.require_ok, List.mem_singleton]
  refine ⟨fun _ _ => .refl hd, fun _ _ => ⟨fun _ _ => .refl hd, fun _ pending => ⟨fun _ _ => .refl hd, fun _ _ => ?_⟩⟩⟩
  refine .of_ok ⟨.inr (by rw [pending]; simp [PaymentStatus.allowed]), fun x hx => hx, fun t ht => ?_, fun _ => rfl⟩
  -- a pending payment has no date yet
  have captured := hd (by rw [ht]; simp)
  rw [pending] at captured; cases captured

/-! ### Refunds keep the record -/

/-- What a refund method does to the payment. -/
def RefundPerforms (p : Payment) (outcome : Check Unit) (o : RefundObjects) : Prop :=
  SameRecord p o.payment ∧
    (o.payment.status = p.status ∨ outcome = .ok () ∧ o.payment.status ∈ p.status.allowed)

theorem RefundPerforms.performs {o : RefundObjects} (hd : Dated p) (h : RefundPerforms p outcome o) :
    Performs x p outcome o.payment := by
  obtain ⟨record, status⟩ := h
  refine ⟨.of_record hd record (status.imp_right And.right), fun e he => ⟨record, .inl ?_⟩⟩
  rcases status with same | ⟨ok, -⟩
  · exact same
  · rw [he] at ok; cases ok

theorem RefundPerforms.refl {r : Refund} : RefundPerforms p outcome ⟨p, r⟩ := ⟨.refl p, .inl rfl⟩

theorem post_onPayment {refund : Refund} {m : Mut Err RefundObjects Unit} {P : Check Unit → Payment → Prop} :
    (onPayment refund m).Post p P ↔ m.Post ⟨p, refund⟩ fun r o => P r o.payment := Iff.rfl

theorem restorePaymentAfterFailedRefund_performs {r : Refund} :
    restorePaymentAfterFailedRefund.Post ⟨p, r⟩ (RefundPerforms p) := by
  simp only [restorePaymentAfterFailedRefund, Mut.post_get_bind, Mut.post_check_bind, Mut.post_modify,
    requirePaymentTransition_ok]
  exact ⟨fun _ _ => .refl, fun _ edge => ⟨⟨rfl, rfl, rfl, rfl⟩, edge.imp Eq.symm fun h => ⟨rfl, h⟩⟩⟩

theorem settleRefund_performs {r : Refund} {total : Money} :
    (settleRefund now).Post ⟨{ p with refundedAmount := total }, r⟩ (RefundPerforms p) := by
  simp only [settleRefund, Mut.post_get_bind, Mut.post_check_bind, Mut.post_modify_bind, Mut.post_modify,
    requirePaymentTransition_ok]
  refine ⟨fun _ _ => ⟨⟨rfl, rfl, rfl, rfl⟩, .inl rfl⟩, fun _ edge => ⟨⟨rfl, rfl, rfl, rfl⟩, ?_⟩⟩
  exact edge.imp Eq.symm fun h => ⟨rfl, h⟩

theorem applyAuthoritativeRefund_performs {pid : Nat} {refund : Refund} {result : ProviderRefund} :
    (PaymentService.applyAuthoritativeRefund mode pid result now).Post ⟨p, refund⟩ (RefundPerforms p) := by
  simp only [PaymentService.applyAuthoritativeRefund, Mut.post_get_bind, Mut.post_check_bind, Mut.post_modify_bind]
  refine ⟨fun _ _ => .refl, fun _ _ => ?_⟩
  cases result.status with
  | pending => exact .refl
  | failed => exact restorePaymentAfterFailedRefund_performs
  | cancelled => exact restorePaymentAfterFailedRefund_performs
  | succeeded =>
    simp only [addRefunded, Mut.post_bind, Mut.post_ite, Mut.post_pure, Mut.post_get, Mut.post_check, Mut.post_set]
    refine ⟨fun _ => settleRefund_performs, fun _ => ?_⟩
    split
    · exact settleRefund_performs
    · exact .refl

theorem applyRefundSubmissionFailure_performs {pid : Nat} {refund : Refund} {error : ProviderError} :
    (PaymentService.applyRefundSubmissionFailure mode pid error now).Post ⟨p, refund⟩ (RefundPerforms p) := by
  simp only [PaymentService.applyRefundSubmissionFailure, Mut.post_get_bind, Mut.post_check_bind,
    Mut.post_modify_bind, Mut.post_ite, Mut.post_pure]
  exact ⟨fun _ _ => .refl, fun _ _ => ⟨fun _ => ⟨fun _ => .refl, fun _ => ⟨fun _ _ => .refl, fun _ _ =>
    restorePaymentAfterFailedRefund_performs⟩⟩, fun _ => .refl⟩⟩

theorem perform_performs (hd : Dated p) : (perform mode now x).Post p (Performs x p) := by
  cases x with
  | submission => exact submit_performs hd rfl
  | createWithProvider => exact createWithProvider_performs hd
  | applyCreationResult => exact applyCreationResult_performs hd
  | applyCreationFailure error => exact (applyCreationFailure_performs hd error).mono fun _ _ h => h.1
  | refreshFromProvider => exact refreshFromProvider_performs hd
  | cancelWithProvider => exact cancelWithProvider_performs hd
  | applyAuthoritativePayment => exact authoritative_performs hd p.attempts p.lastErrorCode
  | confirmManualPayment => exact confirmManualPayment_performs hd
  | newRefund partial_ paymentId values reserved =>
    simp only [perform, Mut.post_get_bind, Mut.post_check_bind]
    refine ⟨fun _ _ => .refl hd, fun r hr => ?_⟩
    obtain ⟨q, refund⟩ := r
    obtain ⟨rfl, status, -⟩ := newRefund_ok hr
    refine .of_ok (.of_record hd ⟨rfl, rfl, rfl, rfl⟩ (.inr ?_))
    rcases status with hs | hs <;> rw [hs] <;> simp [PaymentStatus.allowed]
  | applyAuthoritativeRefund =>
    exact post_onPayment.mpr (applyAuthoritativeRefund_performs.mono fun _ _ h => h.performs hd)
  | applyRefundSubmissionFailure =>
    exact post_onPayment.mpr (applyRefundSubmissionFailure_performs.mono fun _ _ h => h.performs hd)

/-! ### Any sequence of calls -/

theorem called_dated (hd : Dated p) (y : PaymentMode × Int × Call) : Dated (called p y) :=
  (@perform_performs y.1 p y.2.1 y.2.2 hd).advances.dated

theorem dated_run (hd : Dated p) (l : List (PaymentMode × Int × Call)) : Dated (run called p l) :=
  @run_invariant Payment _ called Dated (fun _ y h => called_dated h y) p hd l

theorem run_advances (hd : Dated p) (l : List (PaymentMode × Int × Call)) :
    (p.status.captured = true → (run called p l).status.captured = true) ∧
      (∀ i, p.providerPaymentId = some i → (run called p l).providerPaymentId = some i) ∧
      ∀ t, p.paidAt = some t → (run called p l).paidAt = some t := by
  induction l generalizing p with
  | nil => exact ⟨id, fun _ => id, fun _ => id⟩
  | cons y l ih =>
    have advances := (@perform_performs y.1 p y.2.1 y.2.2 hd).advances
    obtain ⟨captured, ident, paid⟩ := @ih (called p y) (called_dated hd y)
    exact ⟨fun h => captured (advances.captured h), fun i h => ident i (advances.id i h), fun t h => paid t (advances.paid t h)⟩

/-- After any calls `l`, the next call follows an edge, a refused one leaves the record, and after any
further calls `m` what had been reached is still there. -/
theorem results_never_regress {values : PaymentCreate} {expiresAt : Option Int} {p₀ : Payment}
    (new : newPayment mode values expiresAt = .ok p₀) (l m : List (PaymentMode × Int × Call))
    (next : PaymentMode × Int × Call) :
    let p := run called p₀ l
    let q := run called p₀ (l ++ m)
    ((called p next).status = p.status ∨ (called p next).status ∈ p.status.allowed) ∧
      (p.status.captured = true → q.status.captured = true) ∧
      (∀ i, p.providerPaymentId = some i → q.providerPaymentId = some i) ∧
      (∀ t, p.paidAt = some t → q.paidAt = some t) ∧
      ∀ e, ((perform next.1 next.2.1 next.2.2).exec p).1 = .error e → SameRecord p (called p next) ∧
        ((called p next).status = p.status ∨
          next.2.2.recordsFailure = true ∧ p.status = .created ∧ (called p next).status = .failed) := by
  intro p q
  have start : Dated p₀ := by
    simp only [newPayment, Except.bind_ok, Except.pure_ok] at new
    obtain ⟨-, -, rfl⟩ := new
    exact fun h => absurd rfl h
  have hd : Dated p := dated_run start l
  have performs := @perform_performs next.1 p next.2.1 next.2.2 hd
  obtain ⟨captured, ident, paid⟩ := run_advances hd m
  rw [show run called p m = q from (run_append called p₀ l m).symm] at captured ident paid
  exact ⟨performs.advances.edge, captured, ident, paid, performs.refused⟩

/-- A creation answer about another amount. -/
def wrongAmount : ProviderPayment :=
  { Salon.answer (Salon.askedPayment 2 .yookassa 1 1) .pending with amount := 1 }

open Salon in
/-- A refused creation answer fails the payment. -/
theorem refused_answer_fails : ∃ p₀, newPayment .yookassa (askedPayment 2 .yookassa 1 1) none = .ok p₀ ∧
    p₀.status = .created ∧
    (∃ e, ((perform .yookassa 0 (.submission (askedPayment 2 .yookassa 1 1) (.ok wrongAmount))).exec p₀).1 = .error e) ∧
    (called p₀ (.yookassa, 0, .submission (askedPayment 2 .yookassa 1 1) (.ok wrongAmount))).status = .failed := by
  refine ⟨_, rfl, rfl, ⟨_, rfl⟩, ?_⟩
  decide +kernel

open Salon in
/-- A payment that has succeeded stays captured when its cancellation and its creation are answered late. -/
theorem results_never_regress_late : ∃ p₀, newPayment .yookassa (askedPayment 2 .yookassa 1 1) none = .ok p₀ ∧
    (run called p₀ ([(.yookassa, 0, .applyAuthoritativePayment (answer (askedPayment 2 .yookassa 1 1) .succeeded))] ++
      [(.yookassa, 1, .cancelWithProvider (.ok (answer (askedPayment 2 .yookassa 1 1) .cancelled))),
        (.yookassa, 2, .submission (askedPayment 2 .yookassa 1 1)
          (.ok (answer (askedPayment 2 .yookassa 1 1) .pending)))])).status.captured = true := by
  have new : newPayment .yookassa (askedPayment 2 .yookassa 1 1) none = .ok _ := rfl
  refine ⟨_, new, (results_never_regress new _ _ (.yookassa, 3, .confirmManualPayment)).2.1 ?_⟩
  decide +kernel

end PaymentService

theorem BookingService.submitPayment_submit {db db' : Db} {pid : Nat} {p : Payment} {values : PaymentCreate}
    {answer : Except ProviderError ProviderPayment} {now : Int} {outcome : Except Err PaymentView}
    (row : db.payments.row pid = some p) (h : submitPayment pid values answer now db = .ok (outcome, db')) :
    db'.payments.row pid = some ((PaymentService.submit values answer now).exec p).2 := by
  simp only [submitPayment, row, Except.bind_ok] at h
  obtain ⟨detached, new, h⟩ := h
  simp only [PaymentService.submit, Mut.exec_bind, Mut.exec_check, new]
  rcases hexec : (PaymentService.createWithProvider values.provider values answer now).exec detached with
    ⟨error | result, _⟩
  · rw [hexec] at h
    cases error with
    | provider code retryable =>
      simp only [Mut.exec_bind, Mut.exec_get]
      by_cases created : p.status = .created
      · simp only [if_pos created, Except.bind_ok] at h
        obtain ⟨_, same, h⟩ := h
        simp only [if_pos created, Mut.exec_bind, Mut.exec_get, Mut.exec_check, same]
        rcases hfail : (PaymentService.applyCreationFailure ⟨code, retryable⟩).exec p with ⟨_ | _, q⟩
        · rw [hfail] at h
          cases h
        · rw [hfail] at h
          simp only [Except.bind_ok, Db.commit_ok, Except.pure_ok, Prod.mk.injEq] at h
          obtain ⟨_, ⟨-, rfl⟩, -, rfl⟩ := h
          exact Table.row_put_self row
      · simp only [if_neg created, Except.pure_ok, Prod.mk.injEq] at h
        rw [if_neg created, ← h.2]
        exact row
    | _ => cases h
  · rw [hexec] at h
    simp only [Except.bind_ok] at h
    obtain ⟨_, ⟨⟩, _, same, h⟩ := h
    simp only [Mut.exec_bind, Mut.exec_get, Mut.exec_check, same]
    by_cases created : p.status = .created
    · rw [if_pos created] at h ⊢
      rcases happly : (PaymentService.applyCreationResult values.provider result now).exec p with ⟨_ | _, q⟩
      · rw [happly] at h
        cases h
      · rw [happly] at h
        simp only [Except.bind_ok, Db.commit_ok, Except.pure_ok, Prod.mk.injEq] at h
        obtain ⟨_, ⟨-, rfl⟩, -, rfl⟩ := h
        exact Table.row_put_self row
    · simp only [if_neg created, Except.pure_ok, Prod.mk.injEq] at h
      rw [if_neg created, ← h.2]
      exact row

end SalonBooking
