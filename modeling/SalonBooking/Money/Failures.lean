import SalonBooking.Money.Retries

/-!
# What a refused answer leaves behind

An answer of the provider that the payment service refuses ends its event as failed, in the session whose objects the
service has worked on. A payment is only assigned to when every check is behind it. A refund is marked first, and the
payment may refuse the mark.
-/

namespace SalonBooking

open Lib

/-! ### The last checks of a refund -/

namespace PaymentService

variable {mode : PaymentMode} {pid : Nat} {o : RefundObjects} {result : ProviderRefund} {event : PaymentWebhookEvent}
  {now : Int}

/-- What is returned of the payment once the refund has succeeded. -/
def refundedTotal (o : RefundObjects) : Money :=
  if o.refund.status = .succeeded then o.payment.refundedAmount else o.payment.refundedAmount + o.refund.amount

/-- The payment takes the end of its refund. -/
def Admits (o : RefundObjects) : RefundStatus → Prop
  | .succeeded => (o.refund.status = .succeeded ∨ refundedTotal o ≤ o.payment.amount) ∧
      requirePaymentTransition o.payment.status (refundedTarget { o.payment with refundedAmount := refundedTotal o }) =
        .ok ()
  | .failed | .cancelled => requirePaymentTransition o.payment.status (restoredTarget o.payment) = .ok ()
  | .pending => True

/-- The refund has the date that goes with a status. -/
def dated (r : Refund) : RefundStatus → Prop
  | .succeeded => r.succeededAt.isSome = true
  | .failed | .cancelled => r.failedAt.isSome = true
  | .pending => True

/-- The refund already agrees with the result. -/
structure Agrees (r : Refund) (result : ProviderRefund) : Prop where
  id : r.providerRefundId = some result.providerRefundId
  status : r.status = result.status
  clear : r.lastErrorCode = none
  dated : dated r result.status

theorem or_some_eq_self {t : Option Int} : t.or (some now) = t ↔ t.isSome = true := by
  cases t <;> simp

theorem marked_eq {s : RefundStatus} {succeededAt failedAt : Option Int} :
    (⟨o.payment, { o.refund with
      providerRefundId := some result.providerRefundId, status := s, lastErrorCode := none, succeededAt, failedAt }⟩ :
        RefundObjects) = o ↔
      o.refund.providerRefundId = some result.providerRefundId ∧ o.refund.status = s ∧ o.refund.lastErrorCode = none ∧
        succeededAt = o.refund.succeededAt ∧ failedAt = o.refund.failedAt := by
  obtain ⟨p, r⟩ := o
  cases r
  simp only [RefundObjects.mk.injEq, Refund.mk.injEq]
  constructor
  · rintro ⟨-, -, -, id, -, -, -, status, -, -, -, dates, dates', -, clear⟩
    exact ⟨id.symm, status.symm, clear.symm, dates, dates'⟩
  · rintro ⟨rfl, rfl, rfl, rfl, rfl⟩
    simp

/-- What a raise behind the mark leaves: the marked refund, and a total that may have grown. -/
structure Torn (o : RefundObjects) (result : ProviderRefund) (o' : RefundObjects) : Prop where
  payment : o'.payment = { o.payment with refundedAmount := o'.payment.refundedAmount }
  total : o'.payment.refundedAmount = o.payment.refundedAmount ∨
    o'.payment.refundedAmount = o.payment.refundedAmount + o.refund.amount ∧
      o.payment.refundedAmount + o.refund.amount ≤ o.payment.amount
  refund : o'.refund = { o.refund with
    providerRefundId := some result.providerRefundId, status := result.status, lastErrorCode := none
    succeededAt := o'.refund.succeededAt, failedAt := o'.refund.failedAt }
  same : o' = o ↔ Agrees o.refund result

/-- The last check on a refund that has been marked: the payment admits the end, or the mark stays. -/
def Marked (o : RefundObjects) (result : ProviderRefund) (outcome : Except Err Unit) (o' : RefundObjects) : Prop :=
  (Admits o result.status → outcome = .ok ()) ∧
    (¬ Admits o result.status → (∃ e, outcome = .error e ∧ e.isPaymentFailure = true) ∧ Torn o result o')

theorem Marked.of_admits {o' : RefundObjects} (admits : Admits o result.status) : Marked o result (.ok ()) o' :=
  ⟨fun _ => rfl, fun not => absurd admits not⟩

theorem Marked.of_refused {o' : RefundObjects} {e : Err} (refused : ¬ Admits o result.status)
    (failure : e.isPaymentFailure = true) (torn : Torn o result o') : Marked o result (.error e) o' :=
  ⟨fun admits => absurd admits refused, fun _ => ⟨⟨e, rfl, failure⟩, torn⟩⟩

theorem requirePaymentTransition_refused {s t : PaymentStatus} {e : Err} (h : requirePaymentTransition s t = .error e) :
    e.isPaymentFailure = true := by
  obtain ⟨-, rfl⟩ := Except.require_error.mp h
  rfl

theorem restorePaymentAfterFailedRefund_marked (ends : result.status = .failed ∨ result.status = .cancelled) :
    restorePaymentAfterFailedRefund.Post ⟨o.payment, { o.refund with
      providerRefundId := some result.providerRefundId, status := result.status, lastErrorCode := none
      failedAt := o.refund.failedAt.or (some now) }⟩ (Marked o result) := by
  have admits : Admits o result.status ↔ requirePaymentTransition o.payment.status (restoredTarget o.payment) = .ok () := by
    rcases ends with hs | hs <;> rw [hs] <;> rfl
  have date : dated o.refund result.status ↔ o.refund.failedAt.isSome = true := by
    rcases ends with hs | hs <;> rw [hs] <;> rfl
  simp only [restorePaymentAfterFailedRefund, Mut.post_get_bind, Mut.post_check_bind, Mut.post_modify]
  refine ⟨fun e refused => .of_refused ?_ (requirePaymentTransition_refused refused) ⟨rfl, .inl rfl, rfl, ?_⟩,
    fun _ admitted => .of_admits (admits.mpr admitted)⟩
  · rw [admits, refused]
    simp
  · rw [marked_eq, or_some_eq_self, ← date]
    constructor
    · rintro ⟨id, status, clear, -, date⟩
      exact ⟨id, status, clear, date⟩
    · intro agrees
      exact ⟨agrees.id, agrees.status, agrees.clear, rfl, agrees.dated⟩

theorem not_agrees_of_first {o' : RefundObjects} (hs : result.status = .succeeded) (first : o.refund.status ≠ .succeeded)
    (marked : o'.refund.status = .succeeded) : o' = o ↔ Agrees o.refund result := by
  constructor
  · rintro rfl
    exact absurd marked first
  · intro agrees
    exact absurd (agrees.status.trans hs) first

theorem settleSucceeded_marked (hs : result.status = .succeeded) :
    (addRefunded (o.refund.status == .succeeded) >>= fun _ => settleRefund now).Post ⟨o.payment, { o.refund with
      providerRefundId := some result.providerRefundId, status := result.status, lastErrorCode := none }⟩
      (Marked o result) := by
  simp only [addRefunded, settleRefund, Mut.post_bind, Mut.post_get, Mut.post_check, Mut.post_ite, Mut.post_pure,
    Mut.post_set, Mut.post_modify, beq_iff_eq]
  refine ⟨fun again => ?_, fun first => ?_⟩
  · -- the total stays, so only the payment's status can be in the way
    have total : refundedTotal o = o.payment.refundedAmount := if_pos again
    have admits : Admits o result.status ↔ requirePaymentTransition o.payment.status (refundedTarget o.payment) = .ok () := by
      rw [hs]
      show (_ ∨ _) ∧ _ ↔ _
      rw [total]
      exact and_iff_right (.inl again)
    split
    · next h => exact .of_admits (admits.mpr h)
    · next e h =>
      refine .of_refused (by rw [admits, h]; simp) (requirePaymentTransition_refused h) ⟨rfl, .inl rfl, rfl, ?_⟩
      rw [marked_eq, or_some_eq_self]
      have date : dated o.refund result.status ↔ o.refund.succeededAt.isSome = true := by rw [hs]; rfl
      rw [← date]
      constructor
      · rintro ⟨id, status, clear, date, -⟩
        exact ⟨id, status, clear, date⟩
      · intro agrees
        exact ⟨agrees.id, agrees.status, agrees.clear, agrees.dated, rfl⟩
  · have total : refundedTotal o = o.payment.refundedAmount + o.refund.amount := if_neg first
    have admits : Admits o result.status ↔ o.payment.refundedAmount + o.refund.amount ≤ o.payment.amount ∧
        requirePaymentTransition o.payment.status (refundedTarget
          { o.payment with refundedAmount := o.payment.refundedAmount + o.refund.amount }) = .ok () := by
      rw [hs]
      show (_ ∨ _) ∧ _ ↔ _
      rw [total]
      exact and_congr_left fun _ => or_iff_right first
    split
    · next h =>
      have room := not_lt.mp (Except.require_ok.mp h)
      split
      · next h => exact .of_admits (admits.mpr ⟨room, h⟩)
      · next e h =>
        refine .of_refused (fun ha => ?_) (requirePaymentTransition_refused h)
          ⟨rfl, .inr ⟨rfl, room⟩, rfl, not_agrees_of_first hs first hs⟩
        rw [(admits.mp ha).2] at h
        cases h
    · next e h =>
      obtain ⟨full, rfl⟩ := Except.require_error.mp h
      exact .of_refused (fun ha => full (not_lt.mpr (admits.mp ha).1)) rfl
        ⟨rfl, .inl rfl, rfl, not_agrees_of_first hs first hs⟩

theorem applyAuthoritativeRefund_marked : (applyAuthoritativeRefund mode pid result now).Post o
    (Mut.Gated (acceptRefund mode pid o result) o (Marked o result)) := by
  simp only [applyAuthoritativeRefund, Mut.post_get_bind, Mut.post_check_bind, Mut.post_modify_bind]
  refine ⟨fun e refused => .inl ⟨e, refused, rfl, rfl⟩, fun _ accepted => ?_⟩
  refine Mut.Post.mono (P := Marked o result) ?_ fun _ _ marked => .inr ⟨accepted, marked⟩
  split
  · next hs => exact settleSucceeded_marked hs
  · next hs => exact restorePaymentAfterFailedRefund_marked (.inl hs)
  · next hs => exact restorePaymentAfterFailedRefund_marked (.inr hs)
  · next hs => exact .of_admits (by rw [hs]; trivial)

/-- The checks of `apply_refund_webhook_result` and `apply_authoritative_refund` that precede every assignment. -/
def acceptRefundWebhook (mode : PaymentMode) (paymentId : Nat) (event : PaymentWebhookEvent) (result : ProviderRefund)
    (o : RefundObjects) : Check Unit := do
  requireWebhookMatchesPayment mode o.payment event
  requireRefundBelongsToPayment mode paymentId o
  requireRefundEvent event
  require (o.refund.providerRefundId = some event.envelope.providerObjectId)
    (.paymentState "Webhook относится к другому возврату.")
  acceptRefund mode paymentId o result

theorem applyRefundWebhookResult_marked : (applyRefundWebhookResult mode pid event result now).Post o
    (Mut.Gated (acceptRefundWebhook mode pid event result o) o (Marked o result)) := by
  simp only [applyRefundWebhookResult, acceptRefundWebhook, Mut.post_get_bind]
  refine Mut.gated_check_bind fun _ _ => ?_
  rw [Mut.post_get_bind]
  refine Mut.gated_check_bind fun _ _ => Mut.gated_check_bind fun _ _ => ?_
  rw [Mut.post_get_bind]
  exact Mut.gated_check_bind fun _ _ => applyAuthoritativeRefund_marked

end PaymentService

/-! ### A payment -/

namespace PaymentService

variable {mode : PaymentMode} {p : Payment} {result : ProviderPayment} {event : PaymentWebhookEvent} {now : Int}

/-- The checks of `apply_payment_webhook_result` and `apply_authoritative_payment`, all before the first assignment. -/
def acceptPaymentWebhook (mode : PaymentMode) (event : PaymentWebhookEvent) (result : ProviderPayment) (p : Payment) :
    Check Unit := do
  requireWebhookMatchesPayment mode p event
  requirePaymentEvent event
  acceptPayment mode p result
  return ()

theorem applyPaymentWebhookResult_gated : (applyPaymentWebhookResult mode event result now).Post p
    (Mut.Gated (acceptPaymentWebhook mode event result p) p fun outcome _ => outcome = .ok ()) := by
  simp only [applyPaymentWebhookResult, applyAuthoritativePayment, acceptPaymentWebhook, Mut.post_get_bind]
  refine Mut.gated_check_bind fun _ _ => Mut.gated_check_bind fun _ _ => ?_
  rw [Mut.post_get_bind]
  exact Mut.gated_check_bind fun _ _ => .inr ⟨rfl, rfl⟩

end PaymentService

/-! ### What is committed with the event -/

variable {db db' : Db} {envelope : ProviderWebhookEvent} {now : Int}

/-- The rows that an answer about a payment or a refund is for are as they were. -/
structure SameRows (db db' : Db) : Prop where
  payments : ∀ i, db'.payments.row i = db.payments.row i
  refunds : ∀ i, db'.refunds.row i = db.refunds.row i
  reservations : ∀ i, db'.reservations.row i = db.reservations.row i
  appointments : ∀ i, db'.appointments.row i = db.appointments.row i

theorem SameRows.refl : SameRows db db := ⟨fun _ => rfl, fun _ => rfl, fun _ => rfl, fun _ => rfl⟩

/-- Where the event of the delivery is recorded as failed, the answer has changed nothing. -/
def FailsClean (db : Db) (envelope : ProviderWebhookEvent) (applied : Check (WebhookOutcome × Db)) : Prop :=
  ∀ x event outcome db' event', db.eventByKey envelope.provider envelope.eventKey = some (x, event) →
    applied = .ok (outcome, db') → db'.events.row x = some event' → event'.status = .failed → SameRows db db'

theorem SameRows.of_event {x : Nat} {event : PaymentWebhookEvent} (h : (db.setEvent x event).commit = .ok db') :
    SameRows db db' := by
  obtain ⟨-, rfl⟩ := Db.commit_ok.mp h
  exact ⟨fun _ => rfl, fun _ => rfl, fun _ => rfl, fun _ => rfl⟩

theorem SameRows.of_flush {x : Nat} {loaded object : PaymentWebhookEvent}
    (h : (db.flushEvent x loaded object).commit = .ok db') : SameRows db db' := by
  unfold Db.flushEvent at h
  split at h
  · obtain ⟨-, rfl⟩ := Db.commit_ok.mp h
    exact ⟨fun _ => rfl, fun _ => rfl, fun _ => rfl, fun _ => rfl⟩
  · exact .of_event h

namespace WebhookCoordinator

theorem lookupFailure_sameRows {x : Nat} {event : PaymentWebhookEvent} {code : String} {outcome : WebhookOutcome}
    (h : lookupFailure x event code db = .ok (outcome, db')) : SameRows db db' := by
  simp only [lookupFailure, Except.bind_ok, Except.pure_ok, Prod.mk.injEq] at h
  obtain ⟨_, hcommit, -, rfl⟩ := h
  exact .of_flush hcommit

theorem recordApplyFailure_sameRows {x : Nat} {event : PaymentWebhookEvent} {error : Err} {outcome : WebhookOutcome}
    (h : recordApplyFailure x event error now db = .ok (outcome, db')) : SameRows db db' := by
  unfold recordApplyFailure at h
  split at h
  · simp only [Except.bind_ok, Except.pure_ok, Prod.mk.injEq] at h
    obtain ⟨_, hcommit, -, rfl⟩ := h
    exact .of_event hcommit
  · cases h

theorem processed_not_failed {x pid : Nat} {event event' : PaymentWebhookEvent} (stored : db.events.row x = some event)
    (row : (db.events.put x (PaymentService.processedEvent event pid now)).row x = some event') :
    event'.status ≠ .failed := by
  rw [Table.row_put_self stored] at row
  cases row
  nofun

theorem applyPaymentResult_failsClean {result : ProviderPayment} :
    FailsClean db envelope (applyPaymentResult envelope result now db) := by
  intro x event outcome db' event' stored h row failed
  simp only [applyPaymentResult, loadLockedEvent, Except.bind_ok, Except.orRaise_ok, Except.require_ok, Except.pure_ok,
    exists_const] at h
  obtain ⟨⟨_, _⟩, ⟨⟨_, _⟩, stored', henvelope, ⟨⟩⟩, h⟩ := h
  rw [stored] at stored'
  cases stored'
  split at h
  · split at h <;> cases h <;> exact .refl
  · split at h
    · exact lookupFailure_sameRows h
    · next pid p found =>
      have payment := (Table.find_eq_some found).1
      split at h
      · next e q hexec =>
        have same := PaymentService.applyPaymentWebhookResult_gated.elim hexec
        rcases same with ⟨-, -, -, rfl⟩ | ⟨-, accepted⟩
        · rw [Db.setPayment, Table.put_same payment] at h
          exact recordApplyFailure_sameRows h
        · cases accepted
      · simp only [Except.bind_ok, Except.pure_ok, Prod.mk.injEq] at h
        obtain ⟨_, hcommit, -, rfl⟩ := h
        obtain ⟨-, rfl⟩ := Db.commit_ok.mp hcommit
        exact absurd failed (processed_not_failed (Table.find_eq_some stored).1 row)

/-- An answer that passes every check before the first assignment, and that the payment then refuses. -/
def Tears (db : Db) (envelope : ProviderWebhookEvent) (result : ProviderRefund) : Prop :=
  ∃ x event pid p y r, db.eventByKey envelope.provider envelope.eventKey = some (x, event) ∧
    event.envelope = envelope ∧ db.paymentByProviderId envelope.provider envelope.providerPaymentId = some (pid, p) ∧
    db.refundByProviderId envelope.provider envelope.providerObjectId = some (y, r) ∧
    PaymentService.acceptRefundWebhook .yookassa pid event result ⟨p, r⟩ = .ok () ∧
    ¬ PaymentService.Admits ⟨p, r⟩ result.status ∧ ¬ PaymentService.Agrees r result

theorem applyRefundResult_failsClean_of_not_tears {result : ProviderRefund} (whole : ¬ Tears db envelope result) :
    FailsClean db envelope (applyRefundResult envelope result now db) := by
  intro x event outcome db' event' stored h row failed
  simp only [applyRefundResult, loadLockedEvent, Except.bind_ok, Except.orRaise_ok, Except.require_ok, Except.pure_ok,
    exists_const] at h
  obtain ⟨⟨_, _⟩, ⟨⟨_, _⟩, stored', henvelope, ⟨⟩⟩, h⟩ := h
  rw [stored] at stored'
  cases stored'
  obtain rfl : event.envelope = envelope := henvelope
  split at h
  · cases h
    exact .refl
  · split at h
    · exact lookupFailure_sameRows h
    · next pid p payment =>
      split at h
      · exact lookupFailure_sameRows h
      · next y r refund =>
        split at h
        · next e o' hexec =>
          have same : o' = ⟨p, r⟩ := by
            rcases PaymentService.applyRefundWebhookResult_marked.elim hexec with ⟨-, -, -, same⟩ | ⟨accepted, ok, raised⟩
            · exact same
            · have refused : ¬ PaymentService.Admits ⟨p, r⟩ result.status := fun admits => nomatch ok admits
              by_contra differs
              exact whole ⟨x, event, pid, p, y, r, stored, rfl, payment, refund, accepted, refused,
                fun agrees => differs ((raised refused).2.same.mpr agrees)⟩
          rw [same, Db.setPayment, Table.put_same (Table.find_eq_some payment).1, Db.setRefund,
            Table.put_same (Table.find_eq_some refund).1] at h
          exact recordApplyFailure_sameRows h
        · next o' hexec =>
          simp only [Except.bind_ok, Except.pure_ok, Prod.mk.injEq] at h
          obtain ⟨db₁, hsync, db₂, hcommit, -, rfl⟩ := h
          obtain ⟨appointments, history, -, -, rfl⟩ := syncRefundAppointmentStatus_ok hsync
          obtain ⟨-, rfl⟩ := Db.commit_ok.mp hcommit
          exact absurd failed (processed_not_failed (Table.find_eq_some stored).1 row)

theorem recordApplyFailure_commits {x : Nat} {event : PaymentWebhookEvent} {error : Err} (hc : db.Checks)
    (row : db.events.row x = some event) (failure : error.isPaymentFailure = true) :
    ∃ event', event'.status = .failed ∧ recordApplyFailure x event error now db =
      .ok (.raised (.webhookProcessing false), db.setEvent x event') := by
  unfold recordApplyFailure
  rw [if_pos failure]
  have run : ∀ event' : PaymentWebhookEvent, event'.envelope = event.envelope →
      (do return (WebhookOutcome.raised (.webhookProcessing false), ← (db.setEvent x event').commit) :
        Check (WebhookOutcome × Db)) = .ok (.raised (.webhookProcessing false), db.setEvent x event') := fun event' same => by
    have checks : (db.setEvent x event').Checks := { hc with events := Db.eventChecks_put hc.events row same }
    rw [Db.commit_ok.mpr ⟨checks, rfl⟩]
    rfl
  refine ⟨_, ?_, run _ ?_⟩ <;> rfl

end WebhookCoordinator

theorem Db.paymentChecks_total {pid : Nat} {p : Payment} {total : Money} (h : db.paymentChecks)
    (row : db.payments.row pid = some p) (within_ : 0 ≤ total ∧ total ≤ p.amount) :
    paymentChecks { db with payments := db.payments.put pid { p with refundedAmount := total } } := by
  have back : (db.payments.put pid { p with refundedAmount := total }).Keeps (fun q p => SameIntent p q ∧
      q.providerPaymentId = p.providerPaymentId ∧ q.manualStatus = p.manualStatus ∧
      (0 ≤ p.refundedAmount ∧ p.refundedAmount ≤ p.amount → 0 ≤ q.refundedAmount ∧ q.refundedAmount ≤ p.amount))
      db.payments := .put_back (fun p => ⟨.refl p, rfl, rfl, id⟩) row ⟨⟨rfl, rfl, rfl, rfl, rfl, rfl⟩, rfl, rfl, fun _ => within_⟩
  intro i q₁ hq₁
  obtain ⟨p₁, hp₁, ⟨of, provider, amount, currency, key, meta_⟩, id, manual, range⟩ := back i q₁ hq₁
  obtain ⟨⟨enabled, positive, low, high, method⟩, unique⟩ := h i p₁ hp₁
  rw [of, provider, amount, key, id, manual]
  refine ⟨⟨enabled, positive, (range ⟨low, high⟩).1, (range ⟨low, high⟩).2, method⟩, fun j q₂ hq₂ => ?_⟩
  obtain ⟨p₂, hp₂, ⟨of₂, provider₂, -, -, key₂, -⟩, id₂, -⟩ := back j q₂ hq₂
  rw [of₂, provider₂, key₂, id₂]
  exact unique j p₂ hp₂

namespace PaymentService

theorem acceptRefundWebhook_ok {mode : PaymentMode} {pid : Nat} {o : RefundObjects} {result : ProviderRefund}
    {event : PaymentWebhookEvent} (h : acceptRefundWebhook mode pid event result o = .ok ()) :
    event.status = .pending ∧ o.refund.providerRefundId = some result.providerRefundId := by
  simp only [acceptRefundWebhook, requireWebhookMatchesPayment, Except.bind_ok, Except.require_ok, exists_const] at h
  obtain ⟨⟨_, _, pending, _⟩, _, _, _, _, named, accepted⟩ := h
  obtain ⟨-, -, -, -, -, id, -⟩ := acceptRefund_ok.mp accepted
  refine ⟨pending, id.resolve_left fun none => ?_⟩
  rw [none] at named
  cases named

theorem Torn.checks {pid x : Nat} {p : Payment} {r : Refund} {o' : RefundObjects} {result : ProviderRefund}
    (torn : Torn ⟨p, r⟩ result o') (hc : db.Checks) (payment : db.payments.row pid = some p)
    (refund : db.refunds.row x = some r) (named : r.providerRefundId = some result.providerRefundId) :
    Db.Checks ((db.setPayment pid o'.payment).setRefund x o'.refund) := by
  obtain ⟨⟨-, -, low, high, -⟩, -⟩ := hc.payments pid p payment
  have positive := (hc.refunds x r refund).1.2
  have within_ : 0 ≤ o'.payment.refundedAmount ∧ o'.payment.refundedAmount ≤ p.amount := by
    rcases torn.total with same | ⟨grown, room⟩
    · rw [same]
      exact ⟨low, high⟩
    · rw [grown]
      exact ⟨add_nonneg low positive.le, room⟩
  have payments := Db.paymentChecks_total hc.payments payment within_
  rw [← torn.payment] at payments
  have refunds : Db.refundChecks { db with refunds := db.refunds.put x o'.refund } := by
    refine Db.refundChecks_put hc.refunds refund ?_
    rw [torn.refund]
    exact ⟨rfl, rfl, rfl, named.symm⟩
  exact ⟨hc.windows, hc.appointments, hc.reservations, payments, refunds, hc.events⟩

end PaymentService

namespace WebhookCoordinator

variable {result : ProviderRefund}

theorem not_tears_of_failsClean (hc : db.Checks)
    (clean : FailsClean db envelope (applyRefundResult envelope result now db)) : ¬ Tears db envelope result := by
  rintro ⟨x, event, pid, p, y, r, stored, rfl, payment, refund, accepted, refused, differs⟩
  have row := (Table.find_eq_some stored).1
  have prow := (Table.find_eq_some payment).1
  have rrow := (Table.find_eq_some refund).1
  obtain ⟨pending, named⟩ := PaymentService.acceptRefundWebhook_ok accepted
  obtain ⟨outcome, o', hexec⟩ : ∃ outcome o', (PaymentService.applyRefundWebhookResult .yookassa pid event result now).exec
      ⟨p, r⟩ = (outcome, o') := ⟨_, _, rfl⟩
  rcases PaymentService.applyRefundWebhookResult_marked.elim hexec with ⟨e, other, -⟩ | ⟨-, -, raised⟩
  · rw [accepted] at other
    cases other
  · obtain ⟨⟨e, rfl, failure⟩, torn⟩ := raised refused
    obtain ⟨event', failed, recorded⟩ := @recordApplyFailure_commits _ now _ _ _ (torn.checks hc prow rrow named) row failure
    have applied : applyRefundResult event.envelope result now db = .ok (.raised (.webhookProcessing false),
        ((db.setPayment pid o'.payment).setRefund y o'.refund).setEvent x event') := by
      simp only [applyRefundResult, loadLockedEvent, Except.bind_ok, Except.orRaise_ok, Except.require_ok, Except.pure_ok,
        exists_const]
      refine ⟨(x, event), ⟨(x, event), stored, rfl, rfl⟩, ?_⟩
      rw [if_neg (by simp [pending, WebhookProcessingStatus.isTerminal])]
      simp only [payment, refund, hexec]
      exact recorded
    have rows := clean x event _ _ event' stored applied (Table.row_put_self row) failed
    have same : o' = ⟨p, r⟩ := by
      have hp : some o'.payment = some p := (Table.row_put_self prow).symm.trans ((rows.payments pid).trans prow)
      have hr : some o'.refund = some r := (Table.row_put_self rrow).symm.trans ((rows.refunds y).trans rrow)
      rw [← Option.some.inj hp, ← Option.some.inj hr]
    exact differs (torn.same.mp same)

/-- An answer about a payment that ends its event as failed has changed nothing, and one about a refund has changed
nothing exactly when no check behind the first assignment has stopped it. -/
theorem webhook_failure_atomic (hc : db.Checks) (paid : ProviderPayment) :
    FailsClean db envelope (applyPaymentResult envelope paid now db) ∧
      (FailsClean db envelope (applyRefundResult envelope result now db) ↔ ¬ Tears db envelope result) :=
  ⟨applyPaymentResult_failsClean, not_tears_of_failsClean hc, applyRefundResult_failsClean_of_not_tears⟩

open Sys

/-- The provider announces that a refund has succeeded. -/
def refundNotice : ProviderWebhookEvent :=
  ⟨.yookassa, "refund.succeeded:refund-1", .refund "succeeded", "refund-1", "payment-1", "digest"⟩

/-- 60.00 of a payment of 100.00 have been returned, and another 60.00 are on their way. -/
def overdrawn : Db :=
  let db := (after paidVisit).db
  (db.payments.row 1).elim db fun p =>
    ((db.setPayment 1 { p with refundedAmount := 6000, status := .partiallyRefunded }).addRefund
      { paymentId := 1, provider := .yookassa, providerRefundId := some "refund-1", idempotencyKey := "refund-key-0000000001"
        amount := 6000, currency := "RUB", status := .pending, reasonCode := "requested", safeMetadata := []
        requestedByUserId := some 1 }).addEvent (newWebhookEvent refundNotice 0)

/-- What the provider says about that refund when it is asked. -/
def secondRefund : ProviderRefund := ⟨.yookassa, "refund-1", "payment-1", .succeeded, 6000, "RUB"⟩

theorem overdrawn_checks : overdrawn.Checks := by decide +kernel

/-- An answer about the payment leaves its rows alone, and what the answer about the refund leaves is settled. -/
theorem webhook_failure_atomic_overdrawn :
    FailsClean overdrawn refundNotice (applyPaymentResult refundNotice
        ⟨.yookassa, "payment-1", .succeeded, 10000, "RUB", none, [], none, none⟩ 1 overdrawn) ∧
      (FailsClean overdrawn refundNotice (applyRefundResult refundNotice secondRefund 1 overdrawn) ↔
        ¬ Tears overdrawn refundNotice secondRefund) :=
  webhook_failure_atomic overdrawn_checks _

/-- The event ends as failed, and the refund as succeeded. -/
theorem overdrawn_tears : overdrawn.Checks ∧
    ∃ outcome db', applyRefundResult refundNotice secondRefund 1 overdrawn = .ok (outcome, db') ∧
      (∃ event, db'.events.row 1 = some event ∧ event.status = .failed) ∧
      (∃ r, overdrawn.refunds.row 1 = some r ∧ r.status = .pending) ∧
      ∃ r, db'.refunds.row 1 = some r ∧ r.status = .succeeded := by
  have applied : ∃ result ∈ (applyRefundResult refundNotice secondRefund 1 overdrawn).toOption,
      (∃ event ∈ result.2.events.row 1, event.status = .failed) ∧
        ∃ r ∈ result.2.refunds.row 1, r.status = .succeeded := by decide +kernel
  have before : ∃ r ∈ overdrawn.refunds.row 1, r.status = .pending := by decide +kernel
  refine ⟨overdrawn_checks, ?_⟩
  cases run : applyRefundResult refundNotice secondRefund 1 overdrawn with
  | error e =>
    rw [run] at applied
    obtain ⟨_, none, -⟩ := applied
    cases none
  | ok result =>
    rw [run] at applied
    obtain ⟨_, same, failed, succeeded⟩ := applied
    cases same
    exact ⟨_, _, rfl, failed, before, succeeded⟩

end WebhookCoordinator

end SalonBooking
