import SalonBooking.Moves.Visits

/-!
# Payments and notifications

What the methods of the payment service leave of a payment, whether they raise or not, and what the
transactions around them commit.
-/

namespace SalonBooking

open Lib

namespace PaymentStep

variable {p q : Payment}

theorem refl (p : Payment) : PaymentStep p p := ⟨.refl p, rfl, .inr rfl, .inl rfl⟩

end PaymentStep

namespace PaymentService

variable {mode : PaymentMode} {p q : Payment} {result : ProviderPayment} {error : ProviderError} {now : Int}

/-! ### Authoritative results -/

/-- The statuses a payment adapter reports. -/
def Reported (result : ProviderPayment) : Prop := result.status ∈ [.pending, .succeeded, .cancelled]

theorem acceptPayment_ok {u : Unit} : acceptPayment mode p result = .ok u ↔
    result.provider = mode ∧ (0 < result.amount ∧ result.amount ≤ maxMoney ∧ isCurrency result.currency = true) ∧
      (result.amount = p.amount ∧ result.currency = p.currency) ∧
      (p.providerPaymentId = none ∨ p.providerPaymentId = some result.providerPaymentId) ∧
      (∀ kv ∈ p.safeMetadata, result.safeMetadata.lookup kv.1 = some kv.2) ∧
      (p.status = paymentTarget p.status result.status ∨
        paymentTarget p.status result.status ∈ p.status.allowed) := by
  simp only [acceptPayment, requireProvider, Except.bind_ok, Except.require_ok, validateMoney_ok,
    requirePaymentTransition_ok, exists_const]
  constructor
  · rintro ⟨hmode, r, ⟨h₁, h₂, h₃, rfl⟩, hmoney, hid, hmeta, hstatus⟩
    exact ⟨hmode, ⟨h₁, h₂, h₃⟩, hmoney, hid, hmeta, hstatus⟩
  · rintro ⟨hmode, ⟨h₁, h₂, h₃⟩, hmoney, hid, hmeta, hstatus⟩
    exact ⟨hmode, _, ⟨h₁, h₂, h₃, rfl⟩, hmoney, hid, hmeta, hstatus⟩

/-- The status an accepted result leads to: the old one, or one reached from an unfinished payment. -/
theorem paymentTarget_edge {s t : PaymentStatus} (ht : t ∈ [.pending, .succeeded, .cancelled])
    (h : s = paymentTarget s t ∨ paymentTarget s t ∈ s.allowed) :
    paymentTarget s t = s ∨ (s = .created ∨ s = .pending) ∧
      paymentTarget s t ∈ [PaymentStatus.pending, .succeeded, .cancelled, .failed] := by
  cases s <;> cases t <;> simp_all [paymentTarget, PaymentStatus.allowed]

theorem withResult_step (accepted : acceptPayment mode p result = .ok ()) (reported : Reported result) :
    PaymentStep p (withResult p result now) := by
  obtain ⟨-, -, -, hid, -, hstatus⟩ := acceptPayment_ok.mp accepted
  exact ⟨⟨rfl, rfl, rfl, rfl, rfl, rfl⟩, rfl, hid.imp_right Eq.symm, paymentTarget_edge reported hstatus⟩

/-- An accepted success that turns a payment into a captured one. -/
structure Captures (mode : PaymentMode) (p : Payment) (result : ProviderPayment) : Prop where
  new : p.status.captured = false
  success : result.status = .succeeded
  accepted : acceptPayment mode p result = .ok ()

theorem withResult_captured (h : (withResult p result now).status.captured = true)
    (accepted : acceptPayment mode p result = .ok ()) (reported : Reported result) :
    p.status.captured = true ∨ Captures mode p result := by
  by_cases hp : p.status.captured = true
  · exact .inl hp
  · have hs : (paymentTarget p.status result.status).captured = true := h
    refine .inr ⟨by simpa using hp, ?_, accepted⟩
    simp only [Reported, List.mem_cons, List.not_mem_nil, or_false] at reported
    rcases reported with hr | hr | hr
    · rw [hr] at hs; cases hs
    · exact hr
    · rw [hr] at hs; cases hs

@[simp] theorem post_applyAuthoritativePayment {P : Except Err Unit → Payment → Prop} :
    (applyAuthoritativePayment mode result now).Post p P ↔
      (∀ e, acceptPayment mode p result = .error e → P (.error e) p) ∧
        (acceptPayment mode p result = .ok () → P (.ok ()) (withResult p result now)) := by
  simp only [applyAuthoritativePayment, Mut.post_get_bind, Mut.post_check_bind, Mut.post_modify]
  exact and_congr_right fun _ => ⟨fun h => h (), fun h _ => h⟩

/-! ### The methods that lead to a result -/

theorem applyCreationResult_step (reported : Reported result) :
    (applyCreationResult mode result now).Post p fun r q => r = .ok () →
      PaymentStep p q ∧ (q.status.captured = true → Captures mode p result) := by
  simp only [applyCreationResult, requirePaymentState, Mut.post_get_bind, Mut.post_check_bind,
    Mut.post_modify_bind, post_applyAuthoritativePayment, Except.require_ok, List.mem_singleton]
  refine ⟨fun _ _ => (by simp), fun _ created => ⟨fun _ _ => (by simp), fun accepted _ => ?_⟩⟩
  obtain ⟨hintent, hrefunded, hid, hstatus⟩ : PaymentStep _ (withResult _ result now) :=
    withResult_step accepted reported
  refine ⟨⟨⟨rfl, rfl, rfl, rfl, rfl, rfl⟩, hrefunded, hid, hstatus⟩, fun captured => ?_⟩
  rcases withResult_captured captured accepted reported with hp | ⟨new, success, accepted⟩
  · rw [show p.status = .created from created] at hp; cases hp
  · exact ⟨new, success, accepted⟩

theorem applyCreationFailure_step :
    (applyCreationFailure error).Post p fun r q => r = .ok () → PaymentStep p q ∧ q.status.captured = false := by
  simp only [applyCreationFailure, recordPaymentError, requirePaymentState, Mut.post_get_bind,
    Mut.post_check_bind, Mut.post_modify_bind, Mut.post_ite, Mut.post_pure, Mut.post_modify, Except.require_ok,
    List.mem_singleton]
  refine ⟨fun _ _ => (by simp), fun _ created => ⟨fun _ _ => ?_, fun _ => ⟨fun _ _ => (by simp), fun _ _ _ => ?_⟩⟩⟩
  · refine ⟨⟨⟨rfl, rfl, rfl, rfl, rfl, rfl⟩, rfl, .inr rfl, .inl rfl⟩, ?_⟩
    show p.status.captured = false
    rw [created]; rfl
  · exact ⟨⟨⟨rfl, rfl, rfl, rfl, rfl, rfl⟩, rfl, .inr rfl, .inr ⟨.inl created, by simp⟩⟩, rfl⟩

theorem confirmManualPayment_step : (confirmManualPayment now).Post p fun r q => r = .ok () →
    PaymentStep p q ∧ p.provider = .manual ∧ p.status = .pending := by
  simp only [confirmManualPayment, requirePaymentState, Mut.post_get_bind, Mut.post_check_bind, Mut.post_modify,
    Except.require_ok, List.mem_singleton]
  refine ⟨fun _ _ => (by simp), fun _ manual => ⟨fun _ _ => (by simp), fun _ pending => ⟨fun _ _ => (by simp), fun _ _ _ => ?_⟩⟩⟩
  exact ⟨⟨⟨rfl, rfl, rfl, rfl, rfl, rfl⟩, rfl, .inr rfl, .inr ⟨.inr pending, by simp⟩⟩, manual, pending⟩

theorem applyPaymentWebhookResult_step {event : PaymentWebhookEvent} (reported : Reported result) :
    (applyPaymentWebhookResult mode event result now).Post p fun r q =>
      PaymentStep p q ∧ (q.status.captured = true → p.status.captured = true ∨ Captures mode p result) ∧
        ∀ e, r = .error e → q = p := by
  simp only [applyPaymentWebhookResult, Mut.post_get_bind, Mut.post_check_bind, post_applyAuthoritativePayment]
  refine ⟨fun _ _ => ?_, fun _ _ => ⟨fun _ _ => ?_, fun _ _ => ⟨fun _ _ => ?_, fun accepted => ?_⟩⟩⟩
  · exact ⟨.refl p, .inl, fun _ _ => trivial⟩
  · exact ⟨.refl p, .inl, fun _ _ => trivial⟩
  · exact ⟨.refl p, .inl, fun _ _ => trivial⟩
  · exact ⟨withResult_step accepted reported, fun h => withResult_captured h accepted reported, (by simp)⟩

end PaymentService

/-! ### The transactions of a checkout -/

variable {may : Db → Effect → Prop} {c : Catalog} {db db' : Db} {paymentId : Nat} {now : Int}

def PaymentView.Shows (view : PaymentView) (db : Db) : Prop :=
  ∃ p, db.payments.row view.id = some p ∧ view = BookingService.paymentView view.id p

namespace BookingService

theorem readPayment_ok {view : PaymentView} (h : readPayment paymentId db = .ok view) : view.Shows db := by
  simp only [readPayment, Except.bind_ok, Except.orRaise_ok, Except.pure_ok] at h
  obtain ⟨p, row, rfl⟩ := h
  exact ⟨p, row, rfl⟩

theorem createWithProvider_answer {mode : PaymentMode} {values : PaymentCreate} {p : Payment}
    {answer : Except ProviderError ProviderPayment} :
    (PaymentService.createWithProvider mode values answer now).Post p fun r _ =>
      ∀ result, r = .ok result → answer = .ok result := by
  simp only [PaymentService.createWithProvider, Mut.post_get_bind, Mut.post_check_bind, Mut.post_modify_bind]
  have raised : ∀ e result, (.error e : Check ProviderPayment) = .ok result → answer = .ok result := by
    intro e result h
    cases h
  refine ⟨fun e _ => raised e, fun _ _ => ⟨fun e _ => raised e, fun _ _ => ?_⟩⟩
  cases answer with
  | error e =>
    simp only [Mut.post_bind, Mut.post_check]
    refine .of_forall fun r _ => ?_
    cases r with
    | error e => exact raised e
    | ok => exact raised _
  | ok result =>
    simp only [Mut.post_bind, PaymentService.post_applyAuthoritativePayment, Mut.post_pure]
    refine ⟨fun e _ => raised e, fun _ _ hr => ?_⟩
    cases hr
    rfl

theorem submitPayment_ok (hc : db.Checks) {values : PaymentCreate}
    {answer : Except ProviderError AdapterPayment} {outcome : Except Err PaymentView}
    (hmay : ∀ p r, db.payments.row paymentId = some p → p.status = .created → answer = .ok r →
      PaymentService.Captures values.provider p r.1 → may db (.capture paymentId))
    (h : submitPayment paymentId values (answer.map Subtype.val) now db = .ok (outcome, db')) :
    Transaction may db db' ∧ ∀ view, outcome = .ok view → view.Shows db' := by
  simp only [submitPayment, Except.bind_ok] at h
  obtain ⟨detached, -, h⟩ := h
  split at h
  · -- no answer, or one that the copy of the intent refuses
    split at h
    · cases h
      exact ⟨.refl hc, (by simp)⟩
    · next p row =>
      split at h
      · simp only [Except.bind_ok] at h
        obtain ⟨-, -, h⟩ := h
        split at h
        · cases h
        · next q hexec =>
          simp only [Except.bind_ok, Except.pure_ok, Prod.mk.injEq] at h
          obtain ⟨db₁, hcommit, rfl, rfl⟩ := h
          obtain ⟨step, uncaptured⟩ := PaymentService.applyCreationFailure_step.elim hexec rfl
          have captured : q.status.captured = true → p.status.captured = true ∨ may db (.capture paymentId) := by
            rw [uncaptured]; simp
          exact ⟨.of_commit hcommit (.payment paymentId p q row step captured _ _ .refl), (by simp)⟩
      · cases h
        exact ⟨.refl hc, (by simp)⟩
  · cases h
  · next result _ hanswer =>
    have answered := createWithProvider_answer.elim hanswer result rfl
    simp only [Except.bind_ok, Except.orRaise_ok] at h
    obtain ⟨p, row, -, -, h⟩ := h
    split at h
    · next created =>
      split at h
      · cases h
      · next q hexec =>
        simp only [Except.bind_ok, Except.pure_ok, Prod.mk.injEq] at h
        obtain ⟨db₁, hcommit, rfl, rfl⟩ := h
        obtain ⟨r, hr, rfl⟩ := Except.map_eq_ok.mp answered
        obtain ⟨step, succeeded⟩ := (PaymentService.applyCreationResult_step r.2).elim hexec rfl
        obtain ⟨-, rfl⟩ := Db.commit_ok.mp hcommit
        have captured : q.status.captured = true → p.status.captured = true ∨ may db (.capture paymentId) :=
          fun h => .inr (hmay p r row created hr (succeeded h))
        refine ⟨.of_commit hcommit (.payment paymentId p q row step captured _ _ .refl), ?_⟩
        rintro view ⟨⟩
        exact ⟨q, Table.row_put_self row, rfl⟩
    · cases h
      refine ⟨.refl hc, ?_⟩
      rintro view ⟨⟩
      exact ⟨p, row, rfl⟩

end BookingService

namespace ManualPaymentApprovalCoordinator

variable {actor : Int}

/-- The end of `approve`: the payment is confirmed and marked as reviewed. -/
def confirmed (paymentId : Nat) (payment : Payment) (now : Int) (reviewedBy : Option Nat) (db : Db) : Check Db :=
  if payment.status = .succeeded then return db
  else
    match (PaymentService.confirmManualPayment now).exec payment with
    | (.error e, _) => throw e
    | (.ok _, payment) => (db.setPayment paymentId { payment with
      manualStatus := some .confirmed, reviewedAt := some now, reviewedByUserId := reviewedBy }).commit

theorem approve_ok (hc : db.Checks)
    (hmay : ∀ p, db.payments.row paymentId = some p → p.provider = .manual → p.status = .pending →
      may db (.capture paymentId))
    (h : approve c actor paymentId now db = .ok db') : Transaction may db db' := by
  simp only [approve, Except.bind_ok, Except.orRaise_ok, Except.require_ok, exists_const] at h
  obtain ⟨liveActor, -, p, row, a, -, -, -, h⟩ := h
  -- the two branches of the check differ only in what they ask of the manual status
  have hrest : ∃ u, confirmed paymentId p now u db = .ok db' := by
    split at h <;> simp only [Except.bind_ok, Except.require_ok, exists_const] at h <;> exact ⟨_, h.2⟩
  obtain ⟨u, h⟩ := hrest
  unfold confirmed at h
  split at h
  · cases h
    exact .refl hc
  · split at h
    · cases h
    · next q hexec =>
      obtain ⟨step, manual, pending⟩ := PaymentService.confirmManualPayment_step.elim hexec rfl
      -- the coordinator only adds its review marks
      have reviewed : PaymentStep p { q with
          manualStatus := some .confirmed, reviewedAt := some now, reviewedByUserId := u } := by
        obtain ⟨⟨h₁, h₂, h₃, h₄, h₅, h₆⟩, hrefunded, hid, hstatus⟩ := step
        exact ⟨⟨h₁, h₂, h₃, h₄, h₅, h₆⟩, hrefunded, hid, hstatus⟩
      exact .of_commit h (.payment paymentId p _ row reviewed (fun _ => .inr (hmay p row manual pending)) _ _ .refl)

end ManualPaymentApprovalCoordinator

/-! ### The transactions of a notification -/

theorem Db.flushEvent_eq (db : Db) (eventId : Nat) (loaded object : PaymentWebhookEvent) :
    ∃ events, db.flushEvent eventId loaded object = { db with events } := by
  unfold flushEvent
  split
  · exact ⟨db.events, rfl⟩
  · exact ⟨_, rfl⟩

namespace WebhookCoordinator

variable {envelope : ProviderWebhookEvent} {eventId : Nat} {event : PaymentWebhookEvent}
  {outcome : WebhookOutcome}

theorem flush_ok {db₀ : Db} {loaded object : PaymentWebhookEvent} {o : WebhookOutcome}
    (hm : ∀ events, Move may db₀ { db with events })
    (h : (do return (o, ← (db.flushEvent eventId loaded object).commit)) = Except.ok (outcome, db')) :
    Transaction may db₀ db' := by
  simp only [Except.bind_ok, Except.pure_ok, Prod.mk.injEq] at h
  obtain ⟨db₁, hcommit, -, rfl⟩ := h
  obtain ⟨events, he⟩ := db.flushEvent_eq eventId loaded object
  exact .of_commit hcommit (he ▸ hm events)

theorem prepareLockedEvent_ok {db₀ : Db} (hm : ∀ events, Move may db₀ { db with events })
    (h : prepareLockedEvent eventId event now db = .ok (outcome, db')) : Transaction may db₀ db' := by
  unfold prepareLockedEvent at h
  split at h
  · exact flush_ok hm h
  · split at h
    · split at h
      · exact flush_ok hm h
      · exact flush_ok hm h
    · exact flush_ok hm h
    · exact flush_ok hm h

theorem claimStored_ok (hc : db.Checks) (h : claimStored envelope eventId event now db = .ok (outcome, db')) :
    Transaction may db db' := by
  simp only [claimStored, Except.bind_ok] at h
  obtain ⟨-, -, h⟩ := h
  split at h
  · split at h <;> cases h <;> exact .refl hc
  · exact prepareLockedEvent_ok (fun events => .idle events db.history .refl) h

theorem claim_ok (hc : db.Checks) (h : claim envelope now db = .ok (outcome, db')) : Transaction may db db' := by
  simp only [claim, Except.bind_ok] at h
  obtain ⟨-, -, h⟩ := h
  split at h
  · exact claimStored_ok hc h
  · have idle : ∀ events, Move may db { db.addEvent (newWebhookEvent envelope now) with events } :=
      fun events => .idle events db.history .refl
    exact prepareLockedEvent_ok idle h

theorem recordProviderFailure_ok (hc : db.Checks) {error : ProviderError}
    (h : recordProviderFailure envelope error now db = .ok db') : Transaction may db db' := by
  simp only [recordProviderFailure, Except.bind_ok] at h
  obtain ⟨⟨eventId, event⟩, -, h⟩ := h
  split at h
  · cases h
    exact .refl hc
  · exact .of_commit h (.idle _ db.history .refl)

theorem recordApplyFailure_ok {db₀ : Db} {error : Err} (hm : ∀ events, Move may db₀ { db with events })
    (h : recordApplyFailure eventId event error now db = .ok (outcome, db')) : Transaction may db₀ db' := by
  unfold recordApplyFailure at h
  split at h
  · simp only [Except.bind_ok, Except.pure_ok, Prod.mk.injEq] at h
    obtain ⟨db₁, hcommit, -, rfl⟩ := h
    exact .of_commit hcommit (hm _)
  · cases h

theorem applyPaymentResult_ok (hc : db.Checks) {result : AdapterPayment}
    (hmay : ∀ i event pid p, db.eventByKey envelope.provider envelope.eventKey = some (i, event) →
      event.status.isTerminal = false →
      db.paymentByProviderId envelope.provider envelope.providerPaymentId = some (pid, p) →
      PaymentService.Captures .yookassa p result.1 → may db (.capture pid))
    (h : applyPaymentResult envelope result.1 now db = .ok (outcome, db')) : Transaction may db db' := by
  simp only [applyPaymentResult, loadLockedEvent, Except.bind_ok, Except.orRaise_ok, Except.require_ok,
    Except.pure_ok, exists_const] at h
  obtain ⟨⟨_, _⟩, ⟨⟨eventId, event⟩, stored, henvelope, ⟨⟩⟩, h⟩ := h
  split at h
  · split at h <;> cases h <;> exact .refl hc
  · next open_ =>
    split at h
    · exact flush_ok (fun events => .idle events db.history .refl) h
    · next pid p hp =>
      have row := (Table.find_eq_some hp).1
      obtain rfl : event.envelope = envelope := henvelope
      have captured : ∀ q : Payment, (q.status.captured = true → p.status.captured = true ∨
          PaymentService.Captures .yookassa p result.1) → q.status.captured = true →
          p.status.captured = true ∨ may db (.capture pid) := fun q hq hs =>
        (hq hs).imp_right (hmay eventId event pid p stored (by simpa using open_) hp)
      split at h
      · next e q hexec =>
        obtain ⟨step, hq, -⟩ := (PaymentService.applyPaymentWebhookResult_step result.2).elim hexec
        exact recordApplyFailure_ok (fun events => .payment pid p q row step (captured q hq) events db.history .refl) h
      · next q hexec =>
        obtain ⟨step, hq, -⟩ := (PaymentService.applyPaymentWebhookResult_step result.2).elim hexec
        simp only [Except.bind_ok, Except.pure_ok, Prod.mk.injEq] at h
        obtain ⟨db₁, hcommit, -, rfl⟩ := h
        exact .of_commit hcommit (.payment pid p q row step (captured q hq) _ db.history .refl)

end WebhookCoordinator

end SalonBooking
