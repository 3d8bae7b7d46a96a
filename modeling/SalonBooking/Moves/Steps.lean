import SalonBooking.Moves.Reassign
import SalonBooking.Moves.Refunds

/-!
# Every step is a row of moves

`Sys.transact` runs one of thirty commands; each of them commits a row of moves (`Sys.transact_ok`) and
carries over at most a view, a refund object or an event object that its transaction has read. With the
induction rules for runs this gives the invariants of the system from statements about single moves.
-/

namespace SalonBooking

open Lib

namespace Sys

/-- The effects of a submission that has failed. -/
def failure (paymentId : Nat) (refund : Refund) (retryable : Bool) : List Effect :=
  if retryable then [.result paymentId refund refund .pending]
  else [.result paymentId refund refund .failed, .unsent paymentId]

/-- The effects that a command may have in a state, by the checks it has passed. -/
def Causes (s : Sys) (l : Label) (e : Effect) : Prop :=
  match l.cmd with
  | .createWindow _ values =>
    ∃ settings, l.catalog.settings = some settings ∧ values.status = .open ∧
      Offerable settings s.db (AvailabilityService.newWindow settings values) none values.localDate ∧
      e = .offer (AvailabilityService.newWindow settings values) none
  | .reopenWindow _ windowId =>
    ∃ settings w, l.catalog.settings = some settings ∧ s.db.windows.row windowId = some w ∧
      Offerable settings s.db w (some windowId) (settings.timezone.localDate w.startAt) ∧ e = .offer w (some windowId)
  | .book _ values _ _ =>
    ∃ w, s.db.windows.row values.windowId = some w ∧ l.catalog.Admits s.db w none ∧ e = .accept w none
  | .reschedule _ appointmentId newWindowId =>
    ∃ w, s.db.windows.row newWindowId = some w ∧ l.catalog.Admits s.db w (some appointmentId) ∧
      e = .accept w (some appointmentId)
  | .reassign .. => e = .transfer
  | .submitPayment paymentId values answer =>
    ∃ p r, s.db.payments.row paymentId = some p ∧ p.status = .created ∧ answer = .ok r ∧
      PaymentService.Captures values.provider p r.1 ∧ e = .capture paymentId
  | .approveManual _ paymentId =>
    ∃ p, s.db.payments.row paymentId = some p ∧ p.provider = .manual ∧ p.status = .pending ∧
      e = .capture paymentId
  | .applyPaymentResult envelope result =>
    ∃ i event pid p, s.db.eventByKey envelope.provider envelope.eventKey = some (i, event) ∧
      event.status.isTerminal = false ∧
      s.db.paymentByProviderId envelope.provider envelope.providerPaymentId = some (pid, p) ∧
      PaymentService.Captures .yookassa p result.1 ∧ e = .capture pid
  | .createRefund _ _ values =>
    ∃ p, s.db.payments.row values.paymentId = some p ∧ (p.status = .succeeded ∨ p.status = .partiallyRefunded) ∧
      s.db.refundByIdempotencyKey values.idempotencyKey = none ∧ e = .request values.paymentId
  | .prepareRefund mode paymentId refundId =>
    ∃ o, RefundCoordinator.loadLockedRefund mode paymentId refundId s.db = .ok o ∧
      RefundCoordinator.unsubmitted o.refund = true ∧ e = .result paymentId o.refund o.refund .pending
  | .refundFailure mode paymentId refundId error =>
    ∃ o, RefundCoordinator.loadLockedRefund mode paymentId refundId s.db = .ok o ∧
      RefundCoordinator.unsubmitted o.refund = true ∧ e ∈ failure paymentId o.refund error.retryable
  | .refundResult mode paymentId refundId _ result =>
    ∃ o, RefundCoordinator.loadLockedRefund mode paymentId refundId s.db = .ok o ∧
      RefundCoordinator.unsubmitted o.refund = true ∧
      match PaymentService.acceptRefund mode paymentId o result with
      | .ok _ => e = .result paymentId o.refund o.refund result.status
      | .error (.provider _ retryable) => e ∈ failure paymentId o.refund retryable
      | .error _ => False
  | .approveManualRefund _ copy => copy ∈ s.refundCopies ∧
    ∃ p r, s.db.payments.row copy.2.paymentId = some p ∧ s.db.refunds.row copy.1 = some r ∧
      copy.2.status = .pending ∧ e = .result copy.2.paymentId copy.2 r .succeeded
  | .applyRefundResult envelope result =>
    ∃ i event pid p x r, s.db.eventByKey envelope.provider envelope.eventKey = some (i, event) ∧
      event.status.isTerminal = false ∧
      s.db.paymentByProviderId envelope.provider envelope.providerPaymentId = some (pid, p) ∧
      s.db.refundByProviderId envelope.provider envelope.providerObjectId = some (x, r) ∧
      PaymentService.acceptRefund .yookassa pid ⟨p, r⟩ result = .ok () ∧ e = .result pid r r result.status
  | _ => False

/-- The step is a transaction that commits. -/
def commitsAt (s : Sys) (x : Label) : Prop := ∃ s', s.transact x.catalog x.now x.cmd = .ok s'

instance (s : Sys) (x : Label) : Decidable (s.commitsAt x) :=
  match h : s.transact x.catalog x.now x.cmd with
  | .ok s' => .isTrue ⟨s', h⟩
  | .error _ => .isFalse fun ⟨_, h'⟩ => nomatch h.symm.trans h'

/-- The effects of a command that commits. -/
def Occurs (s : Sys) (l : Label) (e : Effect) : Prop := s.commitsAt l ∧ s.Causes l e

/-- What a submission does to a refund: a result for the pending row, or a failure for good. -/
def Submits (paymentId : Nat) (e : Effect) : Prop :=
  ∃ r : Refund, r.status = .pending ∧ ((∃ t, e = .result paymentId r r t) ∨ e = .unsent paymentId)

theorem submits_of_failure {pid : Nat} {r : Refund} {retryable : Bool} {e : Effect} (pending : r.status = .pending)
    (h : e ∈ failure pid r retryable) : Submits pid e := by
  unfold failure at h
  split at h
  · exact ⟨r, pending, .inl ⟨_, List.mem_singleton.mp h⟩⟩
  · rcases List.mem_pair.mp h with rfl | rfl
    · exact ⟨r, pending, .inl ⟨_, rfl⟩⟩
    · exact ⟨r, pending, .inr rfl⟩

theorem pending_of_unsubmitted {r : Refund} (h : RefundCoordinator.unsubmitted r = true) : r.status = .pending := by
  simp only [RefundCoordinator.unsubmitted, Bool.and_eq_true, beq_iff_eq] at h
  exact h.1

section Submissions

variable {s : Sys} {c : Catalog} {now : Int} {mode : PaymentMode} {paymentId refundId userId : Nat}
  {error : ProviderError} {result : ProviderRefund} {e : Effect}

theorem submits_of_prepareRefund (h : s.Causes ⟨c, now, .prepareRefund mode paymentId refundId⟩ e) : Submits paymentId e := by
  obtain ⟨o, -, fresh, rfl⟩ := h
  exact ⟨o.refund, pending_of_unsubmitted fresh, .inl ⟨_, rfl⟩⟩

theorem submits_of_refundFailure (h : s.Causes ⟨c, now, .refundFailure mode paymentId refundId error⟩ e) :
    Submits paymentId e := by
  obtain ⟨o, -, fresh, h⟩ := h
  exact submits_of_failure (pending_of_unsubmitted fresh) h

theorem submits_of_refundResult (h : s.Causes ⟨c, now, .refundResult mode paymentId refundId userId result⟩ e) :
    Submits paymentId e := by
  obtain ⟨o, -, fresh, h⟩ := h
  split at h
  · exact ⟨o.refund, pending_of_unsubmitted fresh, .inl ⟨_, h⟩⟩
  · exact submits_of_failure (pending_of_unsubmitted fresh) h
  · exact h.elim

end Submissions

/-- What holds in every reachable state of the bookings and of what coroutines carry along. -/
structure Sound (s : Sys) : Prop where
  checks : s.db.Checks
  booked : Booked s.db
  /-- A view with a success is about a captured payment. -/
  views : ∀ v ∈ s.views, ∃ p, s.db.payments.row v.id = some p ∧ p.appointmentId = v.appointmentId ∧
    p.status.captured = true
  /-- A refund object is an earlier version of its row. -/
  refundCopies : ∀ x c, (x, c) ∈ s.refundCopies → ∃ r, s.db.refunds.row x = some r ∧ SameRefund c r

/-- A transaction of the system: what it commits and what it hands on. -/
structure Continues (may : Db → Effect → Prop) (s s' : Sys) : Prop where
  transaction : Transaction may s.db s'.db
  views : ∀ v ∈ s'.views, v ∈ s.views ∨ v.status = .succeeded ∧ v.Shows s'.db
  refundCopies : ∀ x c, (x, c) ∈ s'.refundCopies → (x, c) ∈ s.refundCopies ∨ s'.db.refunds.row x = some c
  eventCopies : ∀ i e, (i, e) ∈ s'.eventCopies → (i, e) ∈ s.eventCopies ∨ s'.db.events.row i = some e

variable {may : Db → Effect → Prop} {s s' : Sys} {l : Label}

theorem Continues.refl (h : s.db.Checks) : Continues may s s :=
  ⟨.refl h, fun _ => .inl, fun _ _ => .inl, fun _ _ => .inl⟩

theorem Continues.db {db : Db} (h : Transaction may s.db db) : Continues may s { s with db } :=
  ⟨h, fun _ => .inl, fun _ _ => .inl, fun _ _ => .inl⟩

theorem commits_ok {x : Check Db} (h : s.commits x = .ok s') (hx : ∀ db, x = .ok db → Transaction may s.db db) :
    Continues may s s' := by
  simp only [commits, Except.bind_ok, Except.pure_ok] at h
  obtain ⟨db, hdb, rfl⟩ := h
  exact .db (hx db hdb)

theorem keepView_ok {db : Db} (h : Transaction may s.db db) {view : PaymentView} (shows : view.Shows db) :
    Continues may s ({ s with db }.keepView view) := by
  unfold keepView
  split
  · next success =>
    refine ⟨h, fun v hv => ?_, fun _ _ => .inl, fun _ _ => .inl⟩
    rcases List.mem_cons.mp hv with rfl | hv
    · exact .inr ⟨success, shows⟩
    · exact .inl hv
  · exact .db h

theorem fails_of_failure {may : Effect → Prop} {pid : Nat} {r : Refund} {retryable : Bool}
    (hmay : ∀ e ∈ failure pid r retryable, may e) : RefundCoordinator.Fails may pid r retryable := by
  cases retryable with
  | true => exact ⟨hmay _ (by simp [failure]), nofun⟩
  | false => exact ⟨hmay _ (by simp [failure]), fun _ => hmay _ (by simp [failure])⟩

theorem transact_ok (hs : s.Sound) (hmay : ∀ e, s.Causes l e → may s.db e)
    (h : s.transact l.catalog l.now l.cmd = .ok s') : Continues may s s' := by
  obtain ⟨c, now, cmd⟩ := l
  obtain ⟨hc, hb, hviews, hcopies⟩ := hs
  cases cmd with
  | createWindow actor values =>
    exact commits_ok h fun db => AvailabilityService.createWindow_ok fun settings configured opens offered =>
      hmay _ ⟨settings, configured, opens, offered, rfl⟩
  | closeWindow actor windowId => exact commits_ok h fun db => AvailabilityService.closeWindow_ok
  | reopenWindow actor windowId =>
    exact commits_ok h fun db => AvailabilityService.reopenWindow_ok fun settings w configured row offered =>
      hmay _ ⟨settings, w, configured, row, offered, rfl⟩
  | deleteUnusedWindow actor windowId => exact commits_ok h fun db => AvailabilityService.deleteUnusedWindow_ok
  | book telegramId values allow override =>
    refine commits_ok h fun db hdb => ?_
    obtain ⟨⟨checkout, db⟩, hbook, rfl⟩ := Except.fmap_ok.mp hdb
    exact BookingService.book_ok hb.links (fun w row room => hmay _ ⟨w, row, room, rfl⟩) hbook
  | readPayment paymentId =>
    obtain ⟨view, hview, rfl⟩ := Except.fmap_ok.mp h
    exact keepView_ok (.refl hc) (BookingService.readPayment_ok hview)
  | submitPayment paymentId values answer =>
    simp only [transact, Except.bind_ok] at h
    obtain ⟨⟨outcome, db⟩, hsubmit, h⟩ := h
    obtain ⟨transaction, shows⟩ := BookingService.submitPayment_ok hc
      (fun p r row created hr captures => hmay _ ⟨p, r, row, created, hr, captures, rfl⟩) hsubmit
    cases outcome with
    | ok view =>
      rw [Except.pure_ok] at h
      exact h ▸ keepView_ok transaction (shows view rfl)
    | error e =>
      rw [Except.pure_ok] at h
      exact h ▸ .db transaction
  | consumePaidReservation view =>
    simp only [transact] at h
    split at h
    · next hview =>
      obtain ⟨p, row, of, captured⟩ := hviews view hview
      exact commits_ok h fun db => BookingService.consumePaidReservation_ok hb hc ⟨_, p, row, of, captured⟩
    · rw [Except.pure_ok] at h
      exact h ▸ .refl hc
  | expiryCycle limit locked =>
    cases h
    exact .db (ReservationExpiryWorker.runCycle_ok hb hc limit locked)
  | endVisit op appointmentId => exact commits_ok h fun db => AppointmentService.endVisit_ok hc
  | confirmVisit actor appointmentId => exact commits_ok h fun db => AppointmentService.confirmVisit_ok
  | confirmMyVisit actor appointmentId => exact commits_ok h fun db => AppointmentService.confirmMyVisit_ok
  | reschedule actor appointmentId newWindowId =>
    exact commits_ok h fun db => RescheduleService.reschedule_ok fun w row room => hmay _ ⟨w, row, room, rfl⟩
  | reassign actor sourceStaffId targetId =>
    exact commits_ok h fun db => AuthorizationService.reassignFutureAppointments_ok hb hc ⟨s.db, hmay _ rfl⟩
  | reportPaid actor paymentId => exact commits_ok h fun db => ManualPrepaymentService.reportPaid_ok hb hc
  | submitForReview actor paymentId receipt =>
    exact commits_ok h fun db => ManualPrepaymentService.submitForReview_ok hc
  | approveManual actor paymentId =>
    exact commits_ok h fun db => ManualPaymentApprovalCoordinator.approve_ok hc
      fun p row manual pending => hmay _ ⟨p, row, manual, pending, rfl⟩
  | consumeApproved paymentId actorUserId =>
    exact commits_ok h fun db => ManualPaymentApprovalCoordinator.consumePaidReservation_ok hb hc
  | rejectManual actor paymentId reason => exact commits_ok h fun db => PaymentAdminService.rejectManual_ok hb hc
  | claimEvent envelope =>
    refine commits_ok h fun db hdb => ?_
    obtain ⟨⟨outcome, db⟩, hclaim, rfl⟩ := Except.fmap_ok.mp hdb
    exact WebhookCoordinator.claim_ok hc hclaim
  | readEvent envelope =>
    cases h
    refine ⟨.refl hc, fun _ => .inl, fun _ _ => .inl, fun i e he => ?_⟩
    rcases List.mem_append.mp he with he | he
    · exact .inr (Table.find_eq_some (Option.mem_toList.mp he)).1
    · exact .inl he
  | claimStored envelope copy =>
    simp only [transact] at h
    split at h
    · refine commits_ok h fun db hdb => ?_
      obtain ⟨⟨outcome, db⟩, hclaim, rfl⟩ := Except.fmap_ok.mp hdb
      exact WebhookCoordinator.claimStored_ok hc hclaim
    · rw [Except.pure_ok] at h
      exact h ▸ .refl hc
  | recordProviderFailure envelope error =>
    exact commits_ok h fun db => WebhookCoordinator.recordProviderFailure_ok hc
  | applyPaymentResult envelope result =>
    refine commits_ok h fun db hdb => ?_
    obtain ⟨⟨outcome, db⟩, happly, rfl⟩ := Except.fmap_ok.mp hdb
    exact WebhookCoordinator.applyPaymentResult_ok hc (fun i event pid p stored fresh hp captures =>
      hmay _ ⟨i, event, pid, p, stored, fresh, hp, captures, rfl⟩) happly
  | reconcilePaid paymentId => exact commits_ok h fun db => WebhookCoordinator.reconcilePaidReservation_ok hb hc
  | createRefund actor mode values =>
    refine commits_ok h fun db hdb => ?_
    obtain ⟨⟨result, db⟩, hcreate, rfl⟩ := Except.fmap_ok.mp hdb
    exact RefundCoordinator.createAndSubmit_ok hc (fun p row status new => hmay _ ⟨p, row, status, new, rfl⟩) hcreate
  | prepareRefund mode paymentId refundId =>
    exact commits_ok h fun db => RefundCoordinator.preparePendingRefund_ok hc fun o load fresh =>
      hmay _ ⟨o, load, fresh, rfl⟩
  | refundFailure mode paymentId refundId error =>
    exact commits_ok h fun db => RefundCoordinator.applyRefundFailure_ok hc fun o load fresh =>
      fails_of_failure fun e he => hmay e ⟨o, load, fresh, he⟩
  | refundResult mode paymentId refundId actorUserId result =>
    refine commits_ok h fun db => RefundCoordinator.applyRefundResult_ok hc fun o load fresh =>
      ⟨fun accepted => hmay _ ⟨o, load, fresh, ?_⟩, fun code retryable refused => fails_of_failure fun e he =>
        hmay e ⟨o, load, fresh, ?_⟩⟩
    · rw [accepted]
    · rw [refused]; exact he
  | readRefund refundId =>
    simp only [transact, RefundCoordinator.readRefund, Except.bind_ok, Except.orRaise_ok, Except.pure_ok] at h
    obtain ⟨r, row, rfl⟩ := h
    refine ⟨.refl hc, fun _ => .inl, fun x c hxc => ?_, fun _ _ => .inl⟩
    rcases List.mem_cons.mp hxc with he | hxc
    · cases he
      exact .inr row
    · exact .inl hxc
  | approveManualRefund actor copy =>
    simp only [transact] at h
    split at h
    · next hcopy =>
      refine commits_ok h fun db => RefundCoordinator.approveManualRefund_ok hc (fun r row => ?_)
        fun p r payment refund pending => hmay _ ⟨hcopy, p, r, payment, refund, pending, rfl⟩
      obtain ⟨r', row', same⟩ := hcopies copy.1 copy.2 hcopy
      rw [row] at row'; cases row'
      exact same.symm
    · rw [Except.pure_ok] at h
      exact h ▸ .refl hc
  | applyRefundResult envelope result =>
    refine commits_ok h fun db hdb => ?_
    obtain ⟨⟨outcome, db⟩, happly, rfl⟩ := Except.fmap_ok.mp hdb
    exact WebhookCoordinator.applyRefundResult_ok hc (fun i event pid p x r stored fresh hp hr accepted =>
      hmay _ ⟨i, event, pid, p, x, r, stored, fresh, hp, hr, accepted, rfl⟩) happly

theorem Sound.of_continues (hs : s.Sound) (h : Continues may s s') : s'.Sound := by
  have kept := Kept.of_moves h.transaction.moves
  refine ⟨h.transaction.checks, hs.booked.of_moves h.transaction.moves, fun v hv => ?_, fun x c hc => ?_⟩
  · rcases h.views v hv with hold | ⟨success, p, row, hview⟩
    · obtain ⟨p, row, of, captured⟩ := hs.views v hold
      obtain ⟨q, row', intent, still⟩ := kept.payments v.id p row
      exact ⟨q, row', intent.appointmentId.trans of, still captured⟩
    · have hstatus : p.status = .succeeded := by rw [← success, hview]; rfl
      exact ⟨p, row, by rw [hview]; rfl, by rw [hstatus]; rfl⟩
  · rcases h.refundCopies x c hc with hold | row
    · obtain ⟨r, row, same⟩ := hs.refundCopies x c hold
      obtain ⟨r', row', same'⟩ := kept.refunds x r row
      exact ⟨r', row', same.trans same'⟩
    · exact ⟨c, row, .refl c⟩

theorem step_continues (hs : s.Sound) (hmay : ∀ e, s.Occurs l e → may s.db e) : Continues may s (s.step l) := by
  unfold step
  cases h : s.transact l.catalog l.now l.cmd with
  | error e => exact .refl hs.checks
  | ok s' => exact transact_ok hs (fun e he => hmay e ⟨⟨s', h⟩, he⟩) h

theorem sound_step (hs : s.Sound) (l : Label) : (s.step l).Sound := by
  have continues : Continues (fun _ _ => True) s (s.step l) := step_continues hs fun _ _ => trivial
  exact hs.of_continues continues

theorem sound_empty : Sys.empty.Sound where
  checks := Db.checks_empty
  booked := ⟨⟨fun _ => .free, .empty⟩, .empty⟩
  views _ h := absurd h List.not_mem_nil
  refundCopies _ _ h := absurd h List.not_mem_nil

theorem sound_after (l : List Label) : (after l).Sound :=
  @run_invariant Sys Label step Sound (fun _ l hs => sound_step hs l) empty sound_empty l

/-- What is final in a state is final after the next step, and for the rest of every run. -/
theorem kept_step {s : Sys} (hs : s.Sound) (x : Label) : Kept s.db (s.step x).db := by
  have continues : Continues (fun _ _ => True) s (s.step x) := step_continues hs fun _ _ => trivial
  exact .of_moves continues.transaction.moves

theorem kept_run {s : Sys} (hs : s.Sound) (l : List Label) : Kept s.db (run step s l).db :=
  @run_relation Sys Label step (fun _ _ => True) Sound (fun s s' => Kept s.db s'.db) (fun s => .refl s.db)
    (fun _ _ _ => .trans) (fun _ x sound _ => ⟨sound_step sound x, kept_step sound x⟩) s hs l (guarded_true step s l)

/-- What is true of the empty database and kept by every move that a condition on the commands admits is
true after every run whose commands meet the condition. -/
theorem guarded_after_booked {P : Db → Prop} {may : Db → Effect → Prop} {C : Sys → Label → Prop}
    (hmay : ∀ s x, C s x → ∀ e, s.Occurs x e → may s.db e)
    (hmove : ∀ db db', P db → Booked db → Move may db db' → P db') (hempty : P .empty) (l : List Label)
    (h : Guarded step C empty l) : P (after l).db := by
  have hstep : ∀ s x, s.Sound ∧ P s.db → C s x → (s.step x).Sound ∧ P (s.step x).db := by
    rintro s x ⟨sound, hP⟩ hC
    have continues : Continues may s (s.step x) := step_continues sound (hmay s x hC)
    exact ⟨sound_step sound x, (continues.transaction.moves.keeps (P := fun db => P db ∧ Booked db)
      (fun db db' hdb hm => ⟨hmove db db' hdb.1 hdb.2 hm, hdb.2.of_move hm⟩) ⟨hP, sound.booked⟩).1⟩
  exact (@run_induction Sys Label step C (fun s => s.Sound ∧ P s.db) hstep empty ⟨sound_empty, hempty⟩ l h).2

theorem guarded_after {P : Db → Prop} {may : Db → Effect → Prop} {C : Sys → Label → Prop}
    (hmay : ∀ s x, C s x → ∀ e, s.Occurs x e → may s.db e)
    (hmove : ∀ db db', P db → Links db → Move may db db' → P db') (hempty : P .empty) (l : List Label)
    (h : Guarded step C empty l) : P (after l).db :=
  guarded_after_booked hmay (fun db db' hP hb => hmove db db' hP hb.links) hempty l h

theorem keeps_after {P : Db → Prop} (hmove : ∀ db db', P db → Links db → Move (fun _ _ => True) db db' → P db')
    (hempty : P .empty) (l : List Label) : P (after l).db :=
  guarded_after (fun _ _ _ _ _ => trivial) hmove hempty l (guarded_true step empty l)

/-! ### Histories -/

theorem traced_after (l : List Label) : Traced (after l).db.appointments (after l).db.history :=
  @keeps_after (fun db => Traced db.appointments db.history) (fun _ _ traced _ hm => traced.of_chronicle (.of_move hm))
    .empty l

/-- In every state of every run the history of every appointment is a path through the transition table, from no
status to its current one. -/
theorem history_is_legal_path (l : List Label) {i : Nat} {a : Appointment}
    (row : (after l).db.appointments.row i = some a) : LegalPath (historyOf (after l).db.history i) a.status :=
  (traced_after l).path i a row

open Salon in
/-- A booking that its client confirms, and another that is moved before it. -/
def confirmedVisit : List Label := [
  ⟨salon .disabled, 0, openWindow 10⟩, ⟨salon .disabled, 0, openWindow 12⟩, ⟨salon .disabled, 0, openWindow 14⟩,
  ⟨salon .disabled, minutes 1, bookWindow 2 1⟩, ⟨salon .disabled, minutes 2, bookWindow 3 2⟩,
  ⟨salon .disabled, minutes 3, .reschedule (.client 2) 1 3⟩, ⟨salon .disabled, minutes 4, .confirmMyVisit 3 2⟩]

theorem history_is_legal_path_confirmed :
    LegalPath (historyOf (after confirmedVisit).db.history 2) .clientConfirmed ∧
      (historyOf (after confirmedVisit).db.history 2).map (fun row => (row.previousStatus, row.newStatus)) =
        [(none, .confirmed), (some .confirmed, .clientConfirmed)] := by
  have status : ((after confirmedVisit).db.appointments.row 2).map (·.status) = some .clientConfirmed := by decide +kernel
  obtain ⟨a, row, hs⟩ := Option.map_eq_some_iff.mp status
  exact ⟨hs ▸ history_is_legal_path confirmedVisit row, by decide +kernel⟩

end Sys

end SalonBooking
