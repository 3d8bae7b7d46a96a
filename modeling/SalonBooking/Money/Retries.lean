import SalonBooking.Money.Recorded

/-!
# Asking again for the remainder of a payment

`request_remaining_refund` reads the payment, `_ensure_refund` creates or finds the refund under a key derived from
the amounts, and `_prepare_pending_refund` hands the refund to the provider if it has not seen it. The key does not
change until money has been returned, so what an earlier attempt has left under it decides what the next one can do.
-/

namespace SalonBooking

open Lib

variable {c : Catalog} {db db' : Db} {pid x : Nat} {p : Payment} {r : Refund} {a : Appointment} {mode : PaymentMode}

/-- `PaymentRefundCommand`. -/
structure PaymentRefundCommand where
  providerPaymentId : String
  idempotencyKey : String
  amount : Money
  currency : String
  reasonCode : String
  safeMetadata : List (String × String)
  deriving DecidableEq

/-- The command that submits a refund. -/
def Refund.command (r : Refund) (providerPaymentId : String) : PaymentRefundCommand :=
  ⟨providerPaymentId, r.idempotencyKey, r.amount, r.currency, r.reasonCode, r.safeMetadata⟩

namespace RefundCoordinator

/-- What `_prepare_pending_refund` hands to the provider; none when it returns the refund as it is. -/
def pendingCommand (mode : PaymentMode) (paymentId refundId : Nat) (db : Db) : Check (Option PaymentRefundCommand) := do
  let o ← loadLockedRefund mode paymentId refundId db
  if unsubmitted o.refund then
    let providerPaymentId ← PaymentService.requiredProviderPaymentId o.payment
    return some (o.refund.command providerPaymentId)
  else return none

/-- `create_and_submit`, up to the provider call. -/
def createAndPrepare (c : Catalog) (actor : Int) (mode : PaymentMode) (values : RefundCreate) (db : Db) :
    Check (Option PaymentRefundCommand × Db) := do
  let ((refundId, _), db) ← createAndSubmit c actor mode values db
  let command ← pendingCommand mode values.paymentId refundId db
  let db ← preparePendingRefund mode values.paymentId refundId db
  return (command, db)

end RefundCoordinator

namespace PaymentAdminService

/-- `request_remaining_refund`, up to the provider call. -/
def submitRemainingRefund (c : Catalog) (actor : Int) (paymentId : Nat) (db : Db) :
    Check (Option PaymentRefundCommand × Db) := do
  let (mode, values) ← remainingRefund c actor paymentId db
  RefundCoordinator.createAndPrepare c actor mode values db

/-- The request for the remainder of a payment. -/
def remainingValues (userId pid : Nat) (p : Payment) : RefundCreate where
  paymentId := pid
  amount := p.amount - p.refundedAmount
  currency := p.currency
  idempotencyKey := "tg-refund:" ++ toString pid ++ ":" ++ formatMoney p.refundedAmount ++ ":" ++
    formatMoney (p.amount - p.refundedAmount)
  reasonCode := "requested_by_business"
  requestedByUserId := some userId
  safeMetadata := [("appointment_id", toString p.appointmentId)]

/-- What the earlier attempts must have left for another one to get through. -/
structure Retriable (c : Catalog) (userId : Nat) (db : Db) (pid : Nat) (p : Payment) : Prop where
  configured : c.paymentService p.provider = true
  created : p.providerPaymentId.isSome = true
  status : p.status = .succeeded ∨ p.status = .partiallyRefunded
  /-- A new refund is made when no other one is pending and the appointment may wait for it. -/
  fresh : db.refundByIdempotencyKey (remainingValues userId pid p).idempotencyKey = none →
    db.refundsOf pid .pending = [] ∧ ∃ a, db.appointments.row p.appointmentId = some a ∧
      ensureAppointmentTransition a.status .refundPending = .ok ()
  /-- A refund under the key is taken up when the same member of staff asked for it and the provider has not seen it. -/
  unfinished : ∀ x r, db.refundByIdempotencyKey (remainingValues userId pid p).idempotencyKey = some (x, r) →
    RefundCoordinator.requireSameRefund r (remainingValues userId pid p) = .ok () ∧ r.provider = p.provider ∧
      RefundCoordinator.unsubmitted r = true

theorem remainingRefund_ok {actor : Int} {context : StaffContext} {values : RefundCreate}
    (authorized : c.authorize actor .refundPayments = .ok context) (row : db.payments.row pid = some p)
    (remains : p.refundedAmount < p.amount) :
    remainingRefund c actor pid db = .ok (mode, values) ↔
      (p.status = .succeeded ∨ p.status = .partiallyRefunded) ∧ c.paymentService p.provider = true ∧
        p.provider = mode ∧ remainingValues context.userId pid p = values := by
  simp only [remainingRefund, authorized, row, Except.bind_ok, Except.orRaise_ok, Except.require_ok, Except.pure_ok,
    Except.ok.injEq, Option.some.injEq, exists_eq_left', exists_const, Prod.mk.injEq]
  refine and_congr ⟨fun h => ?_, fun h => ?_⟩ Iff.rfl
  · by_contra other
    exact h (.inl other)
  · rintro (other | le)
    · exact other h
    · exact absurd (sub_pos.mpr remains) (not_lt.mpr le)

end PaymentAdminService

/-! ### What is pending -/

theorem Db.refundChecks.positive (h : db.refundChecks) {s : RefundStatus} :
    db.refunds.All fun _ r => 0 ≤ r.share pid s := fun x r row => Refund.share_nonneg (h x r row).1.2

theorem Db.sumPendingRefunds_nonneg (h : db.refundChecks) : 0 ≤ db.sumPendingRefunds pid := by
  show 0 ≤ db.sumRefunds pid .pending
  rw [Db.sumRefunds_eq]
  exact Table.total_nonneg h.positive

theorem Db.sumPendingRefunds_le_zero (h : db.refundChecks) :
    db.sumPendingRefunds pid ≤ 0 ↔ db.refundsOf pid .pending = [] := by
  constructor
  · intro le
    refine List.eq_nil_iff_forall_not_mem.mpr fun ⟨x, r⟩ hr => ?_
    obtain ⟨row, hp⟩ := Table.mem_select.mp hr
    simp only [Bool.and_eq_true, beq_iff_eq] at hp
    have share := @Table.le_total _ _ _ _ (fun r => r.share pid .pending) h.positive row
    rw [← Db.sumRefunds_eq, Refund.share_of hp.1 hp.2] at share
    exact absurd (lt_of_lt_of_le (h x r row).1.2 (share.trans le)) (lt_irrefl _)
  · intro none
    unfold sumPendingRefunds
    rw [none]
    exact le_rfl

/-! ### Creating the refund -/

theorem PaymentMode.supportsPartialRefunds_iff : mode.supportsPartialRefunds = true ↔ mode ≠ .disabled := by
  cases mode <;> simp [supportsPartialRefunds]

/-- The refund that is created for a request. -/
def PaymentService.draft (p : Payment) (values : RefundCreate) : Refund where
  paymentId := values.paymentId
  provider := p.provider
  idempotencyKey := values.idempotencyKey
  amount := values.amount
  currency := values.currency
  status := .pending
  reasonCode := values.reasonCode
  safeMetadata := values.safeMetadata
  requestedByUserId := values.requestedByUserId

theorem PaymentService.newRefund_remaining {userId : Nat} {result : Payment × Refund} (hc : db.Checks) (priced : Priced db)
    (row : db.payments.row pid = some p) (remains : p.refundedAmount < p.amount) :
    newRefund p.provider p.provider.supportsPartialRefunds pid p (PaymentAdminService.remainingValues userId pid p)
        (p.refundedAmount + db.sumPendingRefunds pid) = .ok result ↔
      (p.providerPaymentId.isSome = true ∧ (p.status = .succeeded ∨ p.status = .partiallyRefunded) ∧
        db.refundsOf pid .pending = []) ∧
      result = ({ p with status := .refundPending }, draft p (PaymentAdminService.remainingValues userId pid p)) := by
  obtain ⟨⟨enabled, -, refunded, -, -⟩, -⟩ := hc.payments pid p row
  obtain ⟨-, fits, currency⟩ := priced pid p row
  have partial_ := PaymentMode.supportsPartialRefunds_iff.mpr enabled
  have pending : 0 ≤ db.sumPendingRefunds pid := Db.sumPendingRefunds_nonneg hc.refunds
  have room : ∀ a r s : Int, a - r ≤ a - (r + s) ↔ s ≤ 0 := by intros; omega
  have within_ : ∀ a r s : Int, r < a → 0 ≤ s → s ≤ 0 → ¬ (r + s < r ∨ r + s > a) := by intros; omega
  rw [← Db.sumPendingRefunds_le_zero hc.refunds]
  constructor
  · intro h
    simp only [newRefund, requireProvider, requirePaymentState, PaymentAdminService.remainingValues, Except.bind_ok,
      Except.require_ok, validateMoney_ok, requirePaymentTransition_ok, Except.pure_ok, exists_const, List.mem_cons,
      List.not_mem_nil, or_false] at h
    obtain ⟨-, created, -, status, ⟨amount, currency⟩, ⟨-, -, -, he⟩, -, -, free, -, -, rfl⟩ := h
    cases he
    exact ⟨⟨created, status, (room _ _ _).mp (not_lt.mp free)⟩, rfl⟩
  · rintro ⟨⟨created, status, none⟩, rfl⟩
    have edge : PaymentStatus.refundPending ∈ p.status.allowed := by
      rcases status with hs | hs <;> rw [hs] <;> simp [PaymentStatus.allowed]
    simp only [newRefund, requireProvider, requirePaymentState, PaymentAdminService.remainingValues, Except.bind_ok,
      Except.require_ok, validateMoney_ok, requirePaymentTransition_ok, Except.pure_ok, exists_const, List.mem_cons,
      List.not_mem_nil, or_false]
    refine ⟨trivial, created, trivial, status, (_, _), ⟨sub_pos.mpr remains, ?_, currency, rfl⟩, rfl,
      within_ _ _ _ remains pending none, not_lt.mpr ((room _ _ _).mpr none), ?_, .inr edge, rfl⟩
    · exact (Int.sub_le_self _ refunded).trans fits
    · rw [partial_]
      exact fun h => absurd h.2 (by simp)

/-! ### What creating the refund commits -/

theorem Db.appointmentChecks_refund {i : Nat} {s : AppointmentStatus} (h : db.appointmentChecks)
    (row : db.appointments.row i = some a) (refund : s.isRefund = true) :
    appointmentChecks { db with appointments := db.appointments.put i { a with status := s } } := by
  have idle : s.occupies = false ∧ s.countsCapacity = false := by
    cases s <;> cases refund <;> exact ⟨rfl, rfl⟩
  intro j b hb
  rcases (Table.row_put_eq_some row).mp hb with ⟨rfl, rfl⟩ | ⟨hj, hb⟩
  · obtain ⟨valid, compatible⟩ := h j a row
    refine ⟨valid, fun k b' hb' hjk => ?_⟩
    rcases (Table.row_put_eq_some row).mp hb' with ⟨rfl, -⟩ | ⟨-, hb'⟩
    · exact absurd rfl hjk
    · refine ⟨fun occupies => ?_, fun occupies => ?_, fun counts => ?_, (compatible k b' hb' hjk).rescheduledFrom⟩
      · rw [idle.1] at occupies; cases occupies
      · rw [idle.1] at occupies; cases occupies
      · rw [idle.2] at counts; cases counts
  · obtain ⟨valid, compatible⟩ := h j b hb
    refine ⟨valid, fun k b' hb' hjk => ?_⟩
    rcases (Table.row_put_eq_some row).mp hb' with ⟨rfl, rfl⟩ | ⟨-, hb'⟩
    · refine ⟨fun _ occupies => ?_, fun _ occupies => ?_, fun _ counts => ?_, (compatible k a row hjk).rescheduledFrom⟩
      · rw [idle.1] at occupies; cases occupies
      · rw [idle.1] at occupies; cases occupies
      · rw [idle.2] at counts; cases counts
    · exact compatible k b' hb' hjk

theorem Db.refundChecks_insert (h : db.refundChecks) (provider : r.provider ≠ .disabled) (amount : 0 < r.amount)
    (new : db.refundByIdempotencyKey r.idempotencyKey = none) (unsent : r.providerRefundId = none) :
    refundChecks { db with refunds := db.refunds.insert r } := by
  have fresh : ∀ y s, db.refunds.row y = some s → s.idempotencyKey ≠ r.idempotencyKey := by
    intro y s hs same
    have found := Table.find_eq_none.mp new y s hs
    simp [same] at found
  intro y s hs
  rcases Table.row_insert_eq_some.mp hs with ⟨rfl, rfl⟩ | old
  · refine ⟨⟨provider, amount⟩, fun z t ht hyz => ?_⟩
    rcases Table.row_insert_eq_some.mp ht with ⟨rfl, -⟩ | old
    · exact absurd rfl hyz
    · exact ⟨(fresh z t old).symm, fun _ sent => by rw [unsent] at sent; cases sent⟩
  · refine ⟨(h y s old).1, fun z t ht hyz => ?_⟩
    rcases Table.row_insert_eq_some.mp ht with ⟨-, rfl⟩ | old'
    · exact ⟨fresh y s old, fun _ sent same => by rw [same, unsent] at sent; cases sent⟩
    · exact (h y s old).2 z t old' hyz

namespace RefundCoordinator

open PaymentAdminService

theorem pending_of_unsubmitted {id : String} (hc : db.Checks) (payment : db.payments.row pid = some p)
    (refund : db.refunds.row x = some r) (of : r.paymentId = pid) (provider : r.provider = p.provider)
    (currency : r.currency = p.currency) (fresh : unsubmitted r = true) (created : p.providerPaymentId = some id) :
    pendingCommand p.provider pid x db = .ok (some (r.command id)) ∧
      ∃ db', preparePendingRefund p.provider pid x db = .ok db' := by
  have load : loadLockedRefund p.provider pid x db = .ok ⟨p, r⟩ := by
    simp only [loadLockedRefund, Except.bind_ok, Except.orRaise_ok, Except.require_ok, Except.pure_ok, exists_const]
    exact ⟨p, payment, r, refund, of, ⟨rfl, provider, currency⟩, rfl⟩
  have pending : r.status = .pending := by
    simp only [unsubmitted, Bool.and_eq_true, beq_iff_eq] at fresh
    exact fresh.1
  constructor
  · simp only [pendingCommand, Except.bind_ok]
    refine ⟨_, load, ?_⟩
    rw [if_pos fresh]
    simp only [PaymentService.requiredProviderPaymentId, Except.bind_ok, Except.orRaise_ok, Except.pure_ok]
    exact ⟨id, created, rfl⟩
  · refine ⟨db.setRefund x { r with attempts := r.attempts + 1 }, ?_⟩
    simp only [preparePendingRefund, Except.bind_ok]
    refine ⟨_, load, ?_⟩
    rw [if_pos fresh]
    simp only [PaymentService.prepareRefundSubmission, PaymentService.requireRefundBelongsToPayment,
      PaymentService.requireProvider, PaymentService.requiredProviderPaymentId, Except.bind_ok, Except.require_ok,
      Except.orRaise_ok, Except.pure_ok, exists_const, Db.commit_ok]
    refine ⟨_, ⟨⟨trivial, of, provider, currency⟩, pending, id, created, rfl⟩, ⟨?_, rfl⟩⟩
    exact { hc with refunds := Db.refundChecks_put hc.refunds refund ⟨rfl, rfl, rfl, rfl⟩ }

theorem pendingCommand_some {command : PaymentRefundCommand} (h : pendingCommand mode pid x db = .ok (some command)) :
    ∃ p r id, db.payments.row pid = some p ∧ db.refunds.row x = some r ∧ unsubmitted r = true ∧
      p.providerPaymentId = some id ∧ command = r.command id := by
  simp only [pendingCommand, Except.bind_ok] at h
  obtain ⟨o, load, h⟩ := h
  obtain ⟨payment, refund, -⟩ := loadLockedRefund_ok load
  split at h
  · next fresh =>
    simp only [PaymentService.requiredProviderPaymentId, Except.bind_ok, Except.orRaise_ok, Except.pure_ok,
      Option.some.injEq] at h
    obtain ⟨id, created, rfl⟩ := h
    exact ⟨_, _, id, payment, refund, fresh, created, rfl⟩
  · simp at h

theorem ensureRefund_new {userId : Nat} (hc : db.Checks) (priced : Priced db) (row : db.payments.row pid = some p)
    (remains : p.refundedAmount < p.amount)
    (new : db.refundByIdempotencyKey (remainingValues userId pid p).idempotencyKey = none) {result : Nat × Bool} :
    ensureRefund p.provider userId (remainingValues userId pid p) db = .ok (result, db') ↔
      (p.providerPaymentId.isSome = true ∧ (p.status = .succeeded ∨ p.status = .partiallyRefunded) ∧
        db.refundsOf pid .pending = []) ∧ result = (db.refunds.next, true) ∧
      ∃ db₁, transitionRefundAppointment { p with status := .refundPending } .refundPending (some userId)
          "refund_requested" ((db.setPayment pid { p with status := .refundPending }).addRefund
            (PaymentService.draft p (remainingValues userId pid p))) = .ok db₁ ∧ db₁.commit = .ok db' := by
  simp only [ensureRefund, Except.bind_ok, Except.orRaise_ok, Except.require_ok, exists_const]
  rw [new]
  simp only [Except.bind_ok, Except.pure_ok, Prod.mk.injEq]
  constructor
  · rintro ⟨p', row', -, ⟨q, draft⟩, hdraft, db₁, hsync, db₂, hcommit, hresult, rfl⟩
    obtain rfl : p = p' := Option.some.inj (row.symm.trans row')
    obtain ⟨allowed, he⟩ := (PaymentService.newRefund_remaining hc priced row remains).mp hdraft
    cases he
    exact ⟨allowed, hresult.symm, db₁, hsync, hcommit⟩
  · rintro ⟨allowed, rfl, db₁, hsync, hcommit⟩
    exact ⟨p, row, rfl, _, (PaymentService.newRefund_remaining hc priced row remains).mpr ⟨allowed, rfl⟩, db₁, hsync, db',
      hcommit, rfl, rfl⟩

theorem ensureRefund_existing {userId : Nat} (row : db.payments.row pid = some p)
    (existing : db.refundByIdempotencyKey (remainingValues userId pid p).idempotencyKey = some (x, r))
    {result : Nat × Bool} :
    ensureRefund p.provider userId (remainingValues userId pid p) db = .ok (result, db') ↔
      (requireSameRefund r (remainingValues userId pid p) = .ok () ∧ r.provider = p.provider) ∧ result = (x, false) ∧
        db' = db := by
  have loaded : db.payments.row (remainingValues userId pid p).paymentId = some p := row
  simp only [ensureRefund, Except.bind_ok, Except.orRaise_ok, Except.require_ok, exists_const]
  rw [existing]
  simp only [Except.bind_ok, Except.pure_ok, Except.require_ok, exists_const, Prod.mk.injEq]
  constructor
  · rintro ⟨p', row', _, provider, _, same, rfl, rfl⟩
    obtain rfl : p = p' := Option.some.inj (row.symm.trans row')
    exact ⟨⟨same, provider⟩, rfl, rfl⟩
  · rintro ⟨⟨same, provider⟩, rfl, rfl⟩
    exact ⟨p, loaded, rfl, provider, (), same, rfl, rfl⟩

/-- The appointment may wait for the refund, and the new refund can be committed. -/
theorem transition_commits (userId : Nat) (hc : db.Checks) (row : db.payments.row pid = some p)
    (remains : p.refundedAmount < p.amount)
    (new : db.refundByIdempotencyKey (remainingValues userId pid p).idempotencyKey = none)
    (appointment : db.appointments.row p.appointmentId = some a)
    (admitted : ensureAppointmentTransition a.status .refundPending = .ok ()) :
    ∃ db₁, transitionRefundAppointment { p with status := .refundPending } .refundPending (some userId)
      "refund_requested" ((db.setPayment pid { p with status := .refundPending }).addRefund
        (PaymentService.draft p (remainingValues userId pid p))) = .ok db₁ ∧ db₁.Checks ∧
      db₁.payments = db.payments.put pid { p with status := .refundPending } ∧
      db₁.refunds = db.refunds.insert (PaymentService.draft p (remainingValues userId pid p)) := by
  obtain ⟨⟨enabled, -⟩, -⟩ := hc.payments pid p row
  have payments := Db.paymentChecks_put (q := { p with status := .refundPending }) hc.payments row
    ⟨⟨rfl, rfl, rfl, rfl, rfl, rfl⟩, rfl, rfl, rfl⟩
  have refunds := Db.refundChecks_insert (r := PaymentService.draft p (remainingValues userId pid p)) hc.refunds enabled
    (sub_pos.mpr remains) new rfl
  have appointments := Db.appointmentChecks_refund (s := .refundPending) hc.appointments appointment rfl
  have checks : ∀ history, Db.Checks { db with
      payments := db.payments.put pid { p with status := .refundPending }
      refunds := db.refunds.insert (PaymentService.draft p (remainingValues userId pid p))
      appointments := db.appointments.put p.appointmentId { a with status := .refundPending }, history } := fun _ =>
    ⟨hc.windows, appointments, hc.reservations, payments, refunds, hc.events⟩
  simp only [transitionRefundAppointment, Except.bind_ok, Except.orRaise_ok]
  by_cases same : a.status = .refundPending
  · refine ⟨(db.setPayment pid { p with status := .refundPending }).addRefund
      (PaymentService.draft p (remainingValues userId pid p)), ⟨a, appointment, _, admitted, ?_⟩, ?_, rfl, rfl⟩
    · rw [if_pos same]
      rfl
    · exact ⟨hc.windows, hc.appointments, hc.reservations, payments, refunds, hc.events⟩
  · refine ⟨(((db.setPayment pid { p with status := .refundPending }).addRefund
      (PaymentService.draft p (remainingValues userId pid p))).setAppointment p.appointmentId
        { a with status := .refundPending }).addHistory
      ⟨p.appointmentId, some a.status, .refundPending, some userId, some "refund_requested"⟩,
      ⟨a, appointment, _, admitted, ?_⟩, checks _, rfl, rfl⟩
    rw [if_neg same]
    rfl

/-- The refund of a request is one that the provider has not seen, unless an earlier request has made it. -/
theorem ensureRefund_unsubmitted {userId : Nat} {values : RefundCreate} {isNew : Bool}
    (h : ensureRefund mode userId values db = .ok ((x, isNew), db')) :
    db' = db ∨ ∃ r, db'.refunds.row x = some r ∧ unsubmitted r = true := by
  simp only [ensureRefund, Except.bind_ok, Except.orRaise_ok, Except.require_ok, exists_const] at h
  obtain ⟨p, row, -, h⟩ := h
  split at h
  · simp only [Except.bind_ok, Except.pure_ok, Prod.mk.injEq] at h
    obtain ⟨-, -, -, -, -, rfl⟩ := h
    exact .inl rfl
  · simp only [Except.bind_ok, Except.pure_ok, Prod.mk.injEq] at h
    obtain ⟨⟨q, r⟩, hdraft, db₁, hsync, db₂, hcommit, ⟨rfl, -⟩, rfl⟩ := h
    obtain ⟨appointments, history, -, -, rfl⟩ := transitionRefundAppointment_ok hsync
    obtain ⟨-, rfl⟩ := Db.commit_ok.mp hcommit
    refine .inr ⟨r, Table.row_insert_self, ?_⟩
    simp only [PaymentService.newRefund, PaymentService.requireProvider, PaymentService.requirePaymentState,
      Except.bind_ok, Except.require_ok, requirePaymentTransition_ok, Except.pure_ok, exists_const] at hdraft
    obtain ⟨-, -, -, -, ⟨amount, currency⟩, -, -, -, -, -, -, he⟩ := hdraft
    cases he
    rfl

end RefundCoordinator

/-! ### Which requests get through -/

namespace PaymentAdminService

open RefundCoordinator

variable {actor : Int} {context : StaffContext} {command : PaymentRefundCommand}

/-- The refund of the remainder of a payment, under the key that is derived from it. -/
def IsRemainder (pid : Nat) (p : Payment) (command : PaymentRefundCommand) : Prop :=
  command.amount = p.amount - p.refundedAmount ∧ command.idempotencyKey = (remainingValues 0 pid p).idempotencyKey

/-- A request for the remainder reaches the provider exactly when the earlier attempts have left the way open. -/
theorem submitRemainingRefund_iff (hc : db.Checks) (priced : Priced db)
    (authorized : c.authorize actor .refundPayments = .ok context) (row : db.payments.row pid = some p)
    (remains : p.refundedAmount < p.amount) :
    (∃ command db', submitRemainingRefund c actor pid db = .ok (some command, db') ∧ IsRemainder pid p command) ↔
      Retriable c context.userId db pid p := by
  simp only [submitRemainingRefund, createAndPrepare, createAndSubmit, Except.bind_ok, Except.pure_ok]
  constructor
  · rintro ⟨command, db', ⟨⟨mode, values⟩, hread, ⟨⟨refundId, isNew⟩, db₁⟩, ⟨context', authorized', _, -, hensure⟩,
      command', hcommand, db₂, hprepare, he⟩, -⟩
    obtain ⟨status, configured, rfl, rfl⟩ := (remainingRefund_ok authorized row remains).mp hread
    obtain rfl : context = context' := Except.ok.inj (authorized.symm.trans authorized')
    cases he
    obtain ⟨q, s, id, payment, refund, fresh, created, -⟩ := pendingCommand_some hcommand
    cases existing : db.refundByIdempotencyKey (remainingValues context.userId pid p).idempotencyKey with
    | some found =>
      obtain ⟨x, r⟩ := found
      obtain ⟨⟨same, provider⟩, hresult, rfl⟩ := (ensureRefund_existing row existing).mp hensure
      cases hresult
      obtain rfl : p = q := Option.some.inj (row.symm.trans payment)
      obtain rfl : r = s := Option.some.inj ((Table.find_eq_some existing).1.symm.trans refund)
      refine ⟨configured, by rw [created]; rfl, status, fun none => ?_, fun x' r' hr => ?_⟩
      · rw [existing] at none
        cases none
      · rw [existing] at hr
        cases hr
        exact ⟨same, provider, fresh⟩
    | none =>
      obtain ⟨⟨created, -, none⟩, -, db₁, transition, -⟩ := (ensureRefund_new hc priced row remains existing).mp hensure
      refine ⟨configured, created, status, fun _ => ⟨none, ?_⟩, fun x' r' hr => ?_⟩
      · simp only [transitionRefundAppointment, Except.bind_ok, Except.orRaise_ok] at transition
        obtain ⟨a, appointment, _, admitted, -⟩ := transition
        exact ⟨a, appointment, admitted⟩
      · rw [existing] at hr
        cases hr
  · intro h
    obtain ⟨id, created⟩ := Option.isSome_iff_exists.mp h.created
    have read := (remainingRefund_ok authorized row remains).mpr ⟨h.status, h.configured, rfl, rfl⟩
    cases existing : db.refundByIdempotencyKey (remainingValues context.userId pid p).idempotencyKey with
    | some found =>
      obtain ⟨x, r⟩ := found
      obtain ⟨same, provider, fresh⟩ := h.unfinished x r existing
      have fields := same
      simp only [requireSameRefund, Except.require_ok] at fields
      obtain ⟨of, amount, currency, key, -⟩ := fields
      obtain ⟨hcommand, db', hprepare⟩ := pending_of_unsubmitted hc row (Table.find_eq_some existing).1 of provider
        currency fresh created
      have ensured : ensureRefund p.provider context.userId (remainingValues context.userId pid p) db =
          .ok ((x, false), db) := (ensureRefund_existing row existing).mpr ⟨⟨same, provider⟩, rfl, rfl⟩
      exact ⟨_, db', ⟨_, read, _, ⟨context, authorized, (), Except.require_ok.mpr (.inr rfl), ensured⟩, _, hcommand, db',
        hprepare, rfl⟩, amount, key⟩
    | none =>
      obtain ⟨none, a, appointment, admitted⟩ := h.fresh existing
      obtain ⟨db₁, transition, checks, payments, refunds⟩ := transition_commits context.userId hc row remains existing
        appointment admitted
      have ensured : ensureRefund p.provider context.userId (remainingValues context.userId pid p) db =
          .ok ((db.refunds.next, true), db₁) := (ensureRefund_new hc priced row remains existing).mpr
        ⟨⟨h.created, h.status, none⟩, rfl, db₁, transition, Db.commit_ok.mpr ⟨checks, rfl⟩⟩
      have payment : db₁.payments.row pid = some { p with status := .refundPending } := by
        rw [payments]
        exact Table.row_put_self row
      have refund : db₁.refunds.row db.refunds.next =
          some (PaymentService.draft p (remainingValues context.userId pid p)) := by
        rw [refunds]
        exact Table.row_insert_self
      obtain ⟨hcommand, db', hprepare⟩ := pending_of_unsubmitted checks payment refund rfl rfl rfl rfl created
      exact ⟨_, db', ⟨_, read, _, ⟨context, authorized, (), Except.require_ok.mpr (.inr rfl), ensured⟩, _, hcommand, db',
        hprepare, rfl⟩, rfl, rfl⟩

/-- A request that hands nothing to the provider leaves everything as it is, for the next one to find. -/
theorem submitRemainingRefund_none (h : submitRemainingRefund c actor pid db = .ok (none, db')) : db' = db := by
  simp only [submitRemainingRefund, createAndPrepare, createAndSubmit, Except.bind_ok, Except.pure_ok] at h
  obtain ⟨⟨mode, values⟩, -, ⟨⟨x, isNew⟩, db₁⟩, ⟨context, -, _, -, hensure⟩, command, hcommand, db₂, hprepare, he⟩ := h
  cases he
  simp only [pendingCommand, preparePendingRefund, Except.bind_ok] at hcommand hprepare
  obtain ⟨o, load, hcommand⟩ := hcommand
  obtain ⟨o', load', hprepare⟩ := hprepare
  obtain rfl : o = o' := Except.ok.inj (load.symm.trans load')
  by_cases fresh : unsubmitted o.refund = true
  · rw [if_pos fresh] at hcommand
    simp [PaymentService.requiredProviderPaymentId] at hcommand
  · rw [if_neg fresh] at hprepare
    cases hprepare
    rcases ensureRefund_unsubmitted hensure with same | ⟨r, row, fresh'⟩
    · exact same
    · obtain rfl : o.refund = r := Option.some.inj ((loadLockedRefund_ok load).2.1.symm.trans row)
      exact absurd fresh' fresh

end PaymentAdminService

namespace Sys

open PaymentAdminService

/-- Whatever has happened before, a request for the remainder of a payment reaches the provider exactly when the earlier
attempts have left the way open. Another one that does not reach it finds what this one has found. -/
theorem remaining_refund_retriable {actor : Int} {context : StaffContext} (l : List Label)
    (authorized : c.authorize actor .refundPayments = .ok context) (row : (after l).db.payments.row pid = some p)
    (remains : p.refundedAmount < p.amount) :
    ((∃ command db', submitRemainingRefund c actor pid (after l).db = .ok (some command, db') ∧
      IsRemainder pid p command) ↔ Retriable c context.userId (after l).db pid p) ∧
    ∀ db', submitRemainingRefund c actor pid (after l).db = .ok (none, db') → db' = (after l).db := by
  exact ⟨submitRemainingRefund_iff (sound_after l).checks (priced_after l) authorized row remains,
    fun _ h => submitRemainingRefund_none h⟩

open Salon in
/-- A visit is paid for before it takes place. -/
def paidVisit : List Label :=
  let asked := askedPayment 2 .yookassa 1 1
  [⟨salon .yookassa, 0, openWindow 10⟩, ⟨salon .yookassa, minutes 1, bookWindow 2 1⟩,
    ⟨salon .yookassa, minutes 2, .submitPayment 1 asked (.ok (succeededAnswer asked))⟩,
    ⟨salon .yookassa, minutes 3, .reconcilePaid 1⟩]

/-- The visit's payment can be returned. -/
theorem remaining_refund_retriable_paidVisit :
    ∃ p, (after paidVisit).db.payments.row 1 = some p ∧
      ∃ command db', submitRemainingRefund (salon .yookassa) 1 1 (after paidVisit).db = .ok (some command, db') ∧
        IsRemainder 1 p command := by
  have payment : ∃ p ∈ (after paidVisit).db.payments.row 1, p.refundedAmount < p.amount ∧
      p.providerPaymentId.isSome = true ∧ p.status = .succeeded ∧
      (after paidVisit).db.refundByIdempotencyKey (remainingValues 1 1 p).idempotencyKey = none ∧
      ∃ a ∈ (after paidVisit).db.appointments.row p.appointmentId,
        ensureAppointmentTransition a.status .refundPending = .ok () := by decide +kernel
  have idle : (after paidVisit).db.refundsOf 1 .pending = [] := by decide +kernel
  obtain ⟨p, row, remains, created, status, new, a, appointment, admitted⟩ := payment
  refine ⟨p, row, ((@remaining_refund_retriable (salon .yookassa) 1 p 1 _ paidVisit rfl row remains).1).mpr ?_⟩
  exact ⟨rfl, created, .inl status, fun _ => ⟨idle, a, appointment, admitted⟩, fun x r hr => by
    rw [show (after paidVisit).db.refundByIdempotencyKey _ = none from new] at hr; cases hr⟩

open Salon in
/-- The whole payment is asked back for the visit, and the provider does not take the refund. -/
def refusedRemainder (retryable : Bool) : List Label :=
  paidVisit ++
    [⟨salon .yookassa, minutes 4, .createRefund 1 .yookassa ⟨1, 10000, "RUB", "tg-refund:1:0.00:100.00",
        "requested_by_business", some 1, [("appointment_id", "1")]⟩⟩,
      ⟨salon .yookassa, minutes 5, .prepareRefund .yookassa 1 1⟩,
      ⟨salon .yookassa, minutes 6, .refundFailure .yookassa 1 1 ⟨"provider_unavailable", retryable⟩⟩]

/-- The salon with a deputy of the owner, the user 9. -/
def deputized : Catalog :=
  { salon .yookassa with authorize := fun t permission => .ok ⟨t, 1, t.toNat, .owner, true, true, [permission]⟩ }

/-- After a refusal the owner gets the refund that has failed, now and whenever she asks again, and her deputy gets an
error; after a lost call the owner gets an error. Nothing of the payment has been returned. -/
theorem refusedRemainder_locks :
    (∀ retryable, ∃ p, (after (refusedRemainder retryable)).db.payments.row 1 = some p ∧ p.refundedAmount < p.amount) ∧
    submitRemainingRefund deputized 1 1 (after (refusedRemainder false)).db =
      .ok (none, (after (refusedRemainder false)).db) ∧
    (∃ e, submitRemainingRefund deputized 9 1 (after (refusedRemainder false)).db = .error e) ∧
    ∃ e, submitRemainingRefund deputized 1 1 (after (refusedRemainder true)).db = .error e := by
  have payment : ∀ retryable, ∃ p ∈ (after (refusedRemainder retryable)).db.payments.row 1,
      p.refundedAmount < p.amount := by decide +kernel
  have owner : (submitRemainingRefund deputized 1 1 (after (refusedRemainder false)).db).map Prod.fst = .ok none := by
    decide +kernel
  have deputy : ((submitRemainingRefund deputized 9 1 (after (refusedRemainder false)).db).map Prod.fst).isOk = false := by
    decide +kernel
  have lost : ((submitRemainingRefund deputized 1 1 (after (refusedRemainder true)).db).map Prod.fst).isOk = false := by
    decide +kernel
  have rejected : ∀ {o : Check (Option PaymentRefundCommand × Db)}, (o.map Prod.fst).isOk = false → ∃ e, o = .error e := by
    intro o h
    cases o with
    | error e => exact ⟨e, rfl⟩
    | ok result => cases h
  refine ⟨fun retryable => payment retryable, ?_, rejected deputy, rejected lost⟩
  cases request : submitRemainingRefund deputized 1 1 (after (refusedRemainder false)).db with
  | error e => rw [request] at owner; cases owner
  | ok result =>
    obtain ⟨command, db'⟩ := result
    rw [request] at owner
    obtain rfl : command = none := Except.ok.inj owner
    rw [submitRemainingRefund_none request]

end Sys

end SalonBooking
