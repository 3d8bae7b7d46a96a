import SalonBooking.Money.Ledger

/-!
# A success that is read back is recorded

What the provider confirms is either refused or recorded as a whole. A success that matches a local
payment is refused only where the payment was cancelled or failed in the meantime, and passed over only
where another delivery has finished the event. Everywhere else it is recorded, and stays so.
-/

namespace SalonBooking

open Lib

variable {db db' : Db} {may : Db → Effect → Prop} {pid : Nat}

/-! ### What is owed -/

/-- Every payment is about money that the provider can confirm. -/
def Priced (db : Db) : Prop :=
  db.payments.All fun _ p => 0 < p.amount ∧ p.amount ≤ maxMoney ∧ isCurrency p.currency = true

theorem Priced.of_move (h : Priced db) (hm : Move may db db') : Priced db' := by
  intro x q row'
  rcases hm.payment_row row' with ⟨p, row, intent⟩ | ⟨-, opened⟩
  · rw [intent.amount, intent.currency]
    exact h x p row
  · exact opened.money

/-! ### A result that is accepted can be committed -/

/-- The columns that the checks and the unique indexes of `payments` are about. -/
structure SameKeys (p q : Payment) : Prop where
  intent : SameIntent p q
  providerPaymentId : q.providerPaymentId = p.providerPaymentId
  refundedAmount : q.refundedAmount = p.refundedAmount
  manualStatus : q.manualStatus = p.manualStatus

theorem SameKeys.refl (p : Payment) : SameKeys p p := ⟨.refl p, rfl, rfl, rfl⟩

theorem Db.paymentChecks_put {p q : Payment} (h : db.paymentChecks) (row : db.payments.row pid = some p)
    (same : SameKeys p q) : paymentChecks { db with payments := db.payments.put pid q } := by
  have back : (db.payments.put pid q).Keeps (fun q p => SameKeys p q) db.payments := .put_back .refl row same
  intro i q₁ hq₁
  obtain ⟨p₁, hp₁, ⟨of, provider, amount, currency, key, meta_⟩, id, refunded, manual⟩ := back i q₁ hq₁
  obtain ⟨valid, unique⟩ := h i p₁ hp₁
  rw [of, provider, amount, key, id, refunded, manual]
  refine ⟨valid, fun j q₂ hq₂ => ?_⟩
  obtain ⟨p₂, hp₂, ⟨of₂, provider₂, -, -, key₂, -⟩, id₂, -⟩ := back j q₂ hq₂
  rw [of₂, provider₂, key₂, id₂]
  exact unique j p₂ hp₂

theorem Db.refundChecks_put {x : Nat} {r r' : Refund} (h : db.refundChecks) (row : db.refunds.row x = some r)
    (same : r'.provider = r.provider ∧ r'.amount = r.amount ∧ r'.idempotencyKey = r.idempotencyKey ∧
      r'.providerRefundId = r.providerRefundId) : refundChecks { db with refunds := db.refunds.put x r' } := by
  have back : (db.refunds.put x r').Keeps (fun r' r => r'.provider = r.provider ∧ r'.amount = r.amount ∧
      r'.idempotencyKey = r.idempotencyKey ∧ r'.providerRefundId = r.providerRefundId) db.refunds :=
    .put_back (fun _ => ⟨rfl, rfl, rfl, rfl⟩) row same
  intro y s hs
  obtain ⟨s₀, hs₀, provider, amount, key, id⟩ := back y s hs
  rw [provider, amount, key, id]
  refine ⟨(h y s₀ hs₀).1, fun z t ht hyz => ?_⟩
  obtain ⟨t₀, ht₀, provider', -, key', id'⟩ := back z t ht
  rw [provider', key', id']
  exact (h y s₀ hs₀).2 z t₀ ht₀ hyz

theorem Db.eventChecks_put {i : Nat} {e e' : PaymentWebhookEvent} (h : db.eventChecks) (row : db.events.row i = some e)
    (same : e'.envelope = e.envelope) : eventChecks { db with events := db.events.put i e' } := by
  have back : (db.events.put i e').Keeps (fun e' e => e'.envelope = e.envelope) db.events :=
    .put_back (fun _ => rfl) row same
  intro j e₁ he₁ k e₂ he₂
  obtain ⟨e₁', he₁', same₁⟩ := back j e₁ he₁
  obtain ⟨e₂', he₂', same₂⟩ := back k e₂ he₂
  rw [same₁, same₂]
  exact h j e₁' he₁' k e₂' he₂'

/-! ### A matching success -/

/-- A success of the payment that the envelope names has been read back, and it is about the payment `p`
with the key `pid`: the ids, the money and the metadata agree. -/
structure ReadsBack (db : Db) (envelope : ProviderWebhookEvent) (result : ProviderPayment) (pid : Nat)
    (p : Payment) (i : Nat) (event : PaymentWebhookEvent) : Prop where
  stored : db.eventByKey envelope.provider envelope.eventKey = some (i, event)
  sameEnvelope : event.envelope = envelope
  paymentEvent : ∃ name, envelope.eventType = .payment name
  row : db.payments.row pid = some p
  provider : envelope.provider = .yookassa ∧ p.provider = .yookassa ∧ result.provider = .yookassa
  ids : p.providerPaymentId = some envelope.providerPaymentId ∧ result.providerPaymentId = envelope.providerPaymentId
  money : result.amount = p.amount ∧ result.currency = p.currency
  metadata : ∀ kv ∈ p.safeMetadata, result.safeMetadata.lookup kv.1 = some kv.2
  success : result.status = .succeeded

namespace ReadsBack

variable {envelope : ProviderWebhookEvent} {result : ProviderPayment} {p : Payment} {i : Nat}
  {event : PaymentWebhookEvent}

theorem found (h : ReadsBack db envelope result pid p i event) (hc : db.Checks) :
    db.paymentByProviderId envelope.provider envelope.providerPaymentId = some (pid, p) := by
  refine Table.find_of_unique h.row (by simp [h.provider, h.ids]) fun j q hq hkey => ?_
  by_contra hj
  have unique := ((hc.payments pid p h.row).2 j q hq (Ne.symm hj)).2.1
  simp only [Bool.and_eq_true, beq_iff_eq] at hkey
  refine unique (by rw [hkey.1, h.provider.1, h.provider.2.1]) (by rw [h.ids.1]; rfl) ?_
  rw [h.ids.1, hkey.2]

theorem accepted (h : ReadsBack db envelope result pid p i event) (priced : Priced db)
    (unfinished : p.status ≠ .cancelled ∧ p.status ≠ .failed) :
    PaymentService.acceptPayment .yookassa p result = .ok () := by
  obtain ⟨positive, fits, currency⟩ := priced pid p h.row
  refine PaymentService.acceptPayment_ok.mpr ⟨h.provider.2.2, ?_, h.money, ?_, h.metadata, ?_⟩
  · rw [h.money.1, h.money.2]
    exact ⟨positive, fits, currency⟩
  · rw [h.ids.1, h.ids.2]
    exact .inr rfl
  · rw [h.success]
    obtain ⟨cancelled, failed⟩ := unfinished
    cases hs : p.status <;> simp_all [PaymentService.paymentTarget, PaymentStatus.allowed]

theorem recorded (h : ReadsBack db envelope result pid p i event) (priced : Priced db) {now : Int}
    (fresh : event.status.isTerminal = false) (unfinished : p.status ≠ .cancelled ∧ p.status ≠ .failed) :
    (PaymentService.applyPaymentWebhookResult .yookassa event result now).exec p =
      (.ok (), PaymentService.withResult p result now) := by
  have pending : event.status = .pending := by
    cases hs : event.status <;> simp_all [WebhookProcessingStatus.isTerminal]
  obtain ⟨name, payment⟩ := h.paymentEvent
  have matches_ : PaymentService.requireWebhookMatchesPayment .yookassa p event = .ok () := by
    simp only [PaymentService.requireWebhookMatchesPayment, PaymentService.requireProvider,
      PaymentService.requiredProviderPaymentId, Except.require_bind_ok, Except.orRaise_bind_ok, Except.require_ok]
    rw [h.sameEnvelope, h.provider.1]
    exact ⟨h.provider.2.1, pending, h.provider.2.1.symm, _, h.ids.1, rfl⟩
  have supported : PaymentService.requirePaymentEvent event = .ok () := by
    rw [PaymentService.requirePaymentEvent, h.sameEnvelope, payment]
    rfl
  simp only [PaymentService.applyPaymentWebhookResult, PaymentService.applyAuthoritativePayment, Mut.exec_bind,
    Mut.exec_get, Mut.exec_check, Mut.exec_modify, matches_, supported, h.accepted priced unfinished]

theorem withResult_captured (h : ReadsBack db envelope result pid p i event) (now : Int) :
    (PaymentService.withResult p result now).status.captured = true := by
  show (PaymentService.paymentTarget p.status result.status).captured = true
  rw [h.success]
  cases p.status <;> rfl

theorem withResult_keys (h : ReadsBack db envelope result pid p i event) (now : Int) :
    SameKeys p (PaymentService.withResult p result now) :=
  ⟨⟨rfl, rfl, rfl, rfl, rfl, rfl⟩, by rw [h.ids.1, ← h.ids.2]; rfl, rfl, rfl⟩

/-- The transaction that applies the success commits, and leaves a captured payment. -/
theorem applied (h : ReadsBack db envelope result pid p i event) (hc : db.Checks) (priced : Priced db) (now : Int)
    (fresh : event.status.isTerminal = false) (unfinished : p.status ≠ .cancelled ∧ p.status ≠ .failed) :
    ∃ outcome db', WebhookCoordinator.applyPaymentResult envelope result now db = .ok (outcome, db') ∧
      db'.payments.row pid = some (PaymentService.withResult p result now) := by
  have row := (Table.find_eq_some h.stored).1
  have loaded : WebhookCoordinator.loadLockedEvent envelope db = .ok (i, event) := by
    simp only [WebhookCoordinator.loadLockedEvent, Except.orRaise_bind_ok, Except.require_bind_ok, Except.pure_ok]
    exact ⟨_, h.stored, h.sameEnvelope, rfl⟩
  let db₁ := (db.setPayment pid (PaymentService.withResult p result now)).setEvent i
    (PaymentService.processedEvent event pid now)
  have checks : db₁.Checks := ⟨hc.windows, hc.appointments, hc.reservations,
    Db.paymentChecks_put hc.payments h.row (h.withResult_keys now), hc.refunds,
    Db.eventChecks_put hc.events row rfl⟩
  have commits : db₁.commit = .ok db₁ := Db.commit_ok.mpr ⟨checks, rfl⟩
  let outcome : WebhookOutcome :=
    if (PaymentService.withResult p result now).status = .succeeded then .reconcile pid else .done
  refine ⟨outcome, db₁, ?_, Table.row_put_self h.row⟩
  rw [WebhookCoordinator.applyPaymentResult, loaded]
  simp only [bind, Except.bind, fresh, h.sameEnvelope, h.found hc, h.recorded priced fresh unfinished]
  rw [commits]
  rfl

end ReadsBack

namespace Sys

theorem priced_after (l : List Label) : Priced (after l).db :=
  keeps_after (fun _ _ h _ hm => h.of_move hm) Table.all_empty l

/-- No matching success is read back for a payment that is cancelled or failed, nor for an event that
another delivery has finished without capturing the payment. -/
def ReadsInTime (s : Sys) (x : Label) : Prop := ∀ envelope result pid p i event,
  x.cmd = .applyPaymentResult envelope result → ReadsBack s.db envelope result.1 pid p i event →
  (p.status ≠ .cancelled ∧ p.status ≠ .failed) ∧ (event.status.isTerminal = true → p.status.captured = true)

/-- Once a matching success has been read back, the payment is a captured one in every later state of every
run in which all such successes are read back in time. -/
theorem success_recorded (l₁ l₂ : List Label) (c : Catalog) (now : Int) {envelope : ProviderWebhookEvent}
    {result : AdapterPayment} {pid : Nat} {p : Payment} {i : Nat} {event : PaymentWebhookEvent}
    (h : Guarded step ReadsInTime empty (l₁ ++ ⟨c, now, .applyPaymentResult envelope result⟩ :: l₂))
    (readsBack : ReadsBack (after l₁).db envelope result.1 pid p i event) :
    ∃ q, (after (l₁ ++ ⟨c, now, .applyPaymentResult envelope result⟩ :: l₂)).db.payments.row pid = some q ∧
      q.status.captured = true := by
  have sound := sound_after l₁
  obtain ⟨unfinished, finished⟩ := (guarded_append.mp h).2.1 envelope result pid p i event rfl readsBack
  have recorded : ∃ q, ((after l₁).step ⟨c, now, .applyPaymentResult envelope result⟩).db.payments.row pid = some q ∧
      q.status.captured = true := by
    by_cases fresh : event.status.isTerminal = false
    · obtain ⟨outcome, db', happly, row⟩ := readsBack.applied sound.checks (priced_after l₁) now fresh unfinished
      refine ⟨_, ?_, readsBack.withResult_captured now⟩
      rw [step, transact, commits, happly]
      exact row
    · -- another delivery has finished the event and captured the payment
      obtain ⟨q, row, money⟩ := (kept_step sound _).payments pid p readsBack.row
      exact ⟨q, row, money.2 (finished (by simpa using fresh))⟩
  obtain ⟨q, row, captured⟩ := recorded
  rw [after, run_append, run_cons]
  obtain ⟨q', row', money⟩ := (kept_run (sound_step sound _) l₂).payments pid q row
  exact ⟨q', row', money.2 captured⟩

open Salon in
/-- A booking whose payment the provider has created, and a notification about it. -/
def held : List Label :=
  [⟨salon .yookassa, 0, openWindow 10⟩, ⟨salon .yookassa, minutes 1, bookWindow 2 1⟩,
    ⟨salon .yookassa, minutes 2, .submitPayment 1 (askedPayment 2 .yookassa 1 1)
      (.ok (pendingAnswer (askedPayment 2 .yookassa 1 1)))⟩]

open Salon in
/-- The provider reports the payment of the booking as succeeded. -/
def success : ProviderPayment := answer (askedPayment 2 .yookassa 1 1) .succeeded

open Salon in
/-- The notification that led to the read-back. -/
def succeeded : ProviderWebhookEvent := notice (askedPayment 2 .yookassa 1 1) "succeeded"

theorem readsBack_success {db : Db} {s : PaymentStatus} {t : WebhookProcessingStatus}
    (payment : (db.payments.row 1).map (fun p => (p.provider, p.providerPaymentId, p.amount, p.currency, p.status)) =
      some (.yookassa, some "payment-1", 10000, "RUB", s))
    (intent : (db.payments.row 1).map (fun p => p.safeMetadata) = some success.safeMetadata)
    (stored : (db.eventByKey .yookassa succeeded.eventKey).map (fun e => (e.1, e.2.envelope, e.2.status)) =
      some (1, succeeded, t)) :
    ∃ p event, ReadsBack db succeeded success 1 p 1 event ∧ p.status = s ∧ event.status = t := by
  obtain ⟨p, row, hp⟩ := Option.map_eq_some_iff.mp payment
  obtain ⟨⟨i, event⟩, found, he⟩ := Option.map_eq_some_iff.mp stored
  rw [row] at intent
  have metadata : p.safeMetadata = success.safeMetadata := Option.some.inj intent
  simp only [Prod.mk.injEq] at hp he
  obtain ⟨provider, id, amount, currency, rfl⟩ := hp
  obtain ⟨rfl, envelope, rfl⟩ := he
  refine ⟨p, event, ⟨found, envelope, ⟨_, rfl⟩, row, ⟨rfl, provider, rfl⟩, ⟨id, by decide +kernel⟩, ?_, ?_, rfl⟩, rfl, rfl⟩
  · rw [amount, currency]
    exact ⟨rfl, rfl⟩
  · rw [metadata]
    decide +kernel

theorem success_recorded_held :
    ∃ q, (after (held ++ [⟨salon .yookassa, minutes 3, .claimEvent succeeded⟩] ++
      ⟨salon .yookassa, minutes 3, .applyPaymentResult succeeded ⟨success, by decide⟩⟩ :: [])).db.payments.row 1 =
        some q ∧ q.status.captured = true := by
  let l := held ++ [⟨salon .yookassa, minutes 3, .claimEvent succeeded⟩]
  obtain ⟨p, event, readsBack, status, fresh⟩ := @readsBack_success (after l).db .pending .pending
    (by decide +kernel) (by decide +kernel) (by decide +kernel)
  have open_ : Guarded step (fun s _ => (s.db.payments.All fun _ p => p.status ≠ .cancelled ∧ p.status ≠ .failed) ∧
      s.db.events.All fun _ e => e.status.isTerminal = false) empty
      (l ++ ⟨salon .yookassa, minutes 3, .applyPaymentResult succeeded ⟨success, by decide⟩⟩ :: []) := by
    decide +kernel
  refine success_recorded l [] (salon .yookassa) (minutes 3) (open_.mono fun s x hopen => ?_) readsBack
  intro envelope result pid p i event _ h
  refine ⟨hopen.1 pid p h.row, fun terminal => ?_⟩
  rw [hopen.2 i event (Table.find_eq_some h.stored).1] at terminal
  cases terminal

/-- The hold of the booking expires before the success is read back: the payment stays cancelled, and the
event has failed for good. -/
theorem success_lost :
    let l := held ++ [⟨salon .yookassa, minutes 20, .expiryCycle 10 []⟩,
      ⟨salon .yookassa, minutes 21, .claimEvent succeeded⟩]
    let l' := l ++ [⟨salon .yookassa, minutes 21, .applyPaymentResult succeeded ⟨success, by decide⟩⟩]
    (∃ p event, ReadsBack (after l).db succeeded success 1 p 1 event) ∧
      ((after l').db.payments.row 1).map (fun p => p.status) = some .cancelled ∧
      ((after l').db.events.row 1).map (fun e => e.status) = some .failed := by
  intro l l'
  obtain ⟨p, event, readsBack, -, -⟩ := @readsBack_success (after l).db .cancelled .pending
    (by decide +kernel) (by decide +kernel) (by decide +kernel)
  exact ⟨⟨p, event, readsBack⟩, by decide +kernel, by decide +kernel⟩

end Sys

end SalonBooking
