import SalonBooking.Bookings.Checkouts
import SalonBooking.Money.Retries

/-!
# The receipt of a repeated booking

A call of `book` that finds the reservation of its key goes on with that checkout: it reads the payment again, submits
it if that has not been done, consumes the reservation of a payment that has succeeded, and puts together a receipt.
Each of these is a transaction of its own, and others may run in between.
-/

namespace SalonBooking

open Lib

/-- `BookingReceipt`, as far as it is about the state of the booking. -/
structure BookingReceipt where
  appointmentId : Nat
  appointmentStatus : AppointmentStatus
  reservationExpiresAt : Option Int
  paymentId : Nat
  paymentStatus : PaymentStatus
  deriving DecidableEq

namespace BookingService

/-- `_existing_checkout` with the receipt it puts together. -/
def existingReceipt (c : Catalog) (telegramId : Int) (values : BookingRequest) (addonSnapshots : Nat → List Nat)
    (db : Db) : Check (Option (CheckoutResult × BookingReceipt)) := do
  match ← existingCheckout c telegramId values addonSnapshots db with
  | none => return none
  | some checkout =>
    let appointment ← orRaise (db.appointments.row checkout.appointmentId) windowTaken
    let (paymentId, payment) ← orRaise (db.latestPayment checkout.appointmentId) windowTaken
    return some (checkout,
      ⟨checkout.appointmentId, appointment.status, appointment.reservationExpiresAt, paymentId, payment.status⟩)

/-- The end of `_finalize_checkout`: a success overrides the status and the deadline of the appointment. -/
def finalReceipt (receipt : BookingReceipt) (payment : PaymentView) : BookingReceipt :=
  if payment.status = .succeeded then
    { receipt with appointmentStatus := .confirmed, paymentStatus := payment.status, reservationExpiresAt := none }
  else { receipt with paymentStatus := payment.status }

/-- The first transaction of `_submit_payment`, with the check of the intent. -/
def readSubmitted (paymentId : Nat) (values : PaymentCreate) (db : Db) : Check PaymentView := do
  let payment ← orRaise (db.payments.row paymentId) (.bookingUnavailable "Платёж не найден.")
  PaymentService.requireSameIntent payment values
  return paymentView paymentId payment

/-! ### A replay, transaction by transaction -/

/-- What may happen to a booking between two transactions of a call, given its appointment and its payment. -/
abbrev Gap : Type := Nat → Nat → Sys → Sys → Prop

/-- Other transactions run, and leave the appointment, the payment and the live reservation of the booking alone. -/
def Undisturbed (appointmentId paymentId : Nat) (s s' : Sys) : Prop :=
  (∃ l, s' = run Sys.step s l) ∧ s'.db.appointments.row appointmentId = s.db.appointments.row appointmentId ∧
    s'.db.payments.row paymentId = s.db.payments.row paymentId ∧
    s'.db.activeForAppointment appointmentId = s.db.activeForAppointment appointmentId

variable {gap : Gap} {answer : Except ProviderError ProviderPayment} {now : Int}

/-- `_submit_payment`: the view it returns and the state it leaves. The provider is asked about a payment that is still
`CREATED`. -/
inductive Submits (gap : Gap) (appointmentId paymentId : Nat) (values : PaymentCreate)
    (answer : Except ProviderError ProviderPayment) (now : Int) (s : Sys) : PaymentView → Sys → Prop
  | read {view} (read : readSubmitted paymentId values s.db = .ok view) (left : view.status ≠ .created) :
      Submits gap appointmentId paymentId values answer now s view s
  | answered {first s₁ view db} (read : readSubmitted paymentId values s.db = .ok first)
      (created : first.status = .created) (between : gap appointmentId paymentId s s₁)
      (submitted : submitPayment paymentId values answer now s₁.db = .ok (.ok view, db)) :
      Submits gap appointmentId paymentId values answer now s view { s₁ with db }

/-- `_finalize_checkout` behind the submission: a view that says succeeded consumes the live reservation. -/
inductive Finalizes (now : Int) (view : PaymentView) (s : Sys) : Sys → Prop
  | unpaid (other : view.status ≠ .succeeded) : Finalizes now view s s
  | paid {db} (succeeded : view.status = .succeeded) (consumed : consumePaidReservation view now s.db = .ok db) :
      Finalizes now view s { s with db }

/-- A call of `book` that starts in `s`, finds its checkout and returns a receipt in `s'`. -/
structure Replays (gap : Gap) (c : Catalog) (telegramId : Int) (request : BookingRequest)
    (addonSnapshots : Nat → List Nat) (answer : Except ProviderError ProviderPayment) (now : Int) (s : Sys)
    (receipt : BookingReceipt) (s' : Sys) : Prop where
  steps : ∃ checkout first paymentId values view s₁ s₂ s₃ s₄,
    existingReceipt c telegramId request addonSnapshots s.db = .ok (some (checkout, first)) ∧
    checkout.paymentId = some paymentId ∧ checkout.paymentValues = some values ∧
    gap checkout.appointmentId paymentId s s₁ ∧
    Submits gap checkout.appointmentId paymentId values answer now s₁ view s₂ ∧
    gap checkout.appointmentId paymentId s₂ s₃ ∧ Finalizes now view s₃ s₄ ∧
    gap checkout.appointmentId paymentId s₄ s' ∧ receipt = finalReceipt first view

/-- The receipt says of the appointment what is stored. -/
def Truthful (receipt : BookingReceipt) (db : Db) : Prop :=
  ∃ a, db.appointments.row receipt.appointmentId = some a ∧ receipt.appointmentStatus = a.status ∧
    receipt.reservationExpiresAt = a.reservationExpiresAt

/-! ### What the transactions of a replay do -/

variable {c : Catalog} {telegramId : Int}
  {request : BookingRequest} {addonSnapshots : Nat → List Nat} {db db' : Db} {checkout : CheckoutResult}
  {first receipt : BookingReceipt} {pid : Nat} {p : Payment} {a : Appointment} {values : PaymentCreate} {view : PaymentView}

theorem existingReceipt_ok (h : existingReceipt c telegramId request addonSnapshots db = .ok (some (checkout, first))) :
    ∃ a pid p, db.appointments.row checkout.appointmentId = some a ∧ db.payments.row pid = some p ∧
      p.appointmentId = checkout.appointmentId ∧ checkout.paymentId = some pid ∧
      first = ⟨checkout.appointmentId, a.status, a.reservationExpiresAt, pid, p.status⟩ := by
  simp only [existingReceipt, Except.bind_ok] at h
  obtain ⟨found, hfound, h⟩ := h
  cases found with
  | none => cases h
  | some checkout' =>
    simp only [Except.bind_ok, Except.orRaise_ok, Except.pure_ok, Option.some.injEq, Prod.mk.injEq] at h
    obtain ⟨a, appointment, ⟨pid, p⟩, latest, rfl, rfl⟩ := h
    obtain ⟨payment, of⟩ := Db.latestPayment_row latest
    refine ⟨a, pid, p, appointment, payment, of, ?_, rfl⟩
    unfold existingCheckout at hfound
    split at hfound
    · cases hfound
    · simp only [Except.bind_ok, Except.orRaise_ok, Except.require_ok, Except.pure_ok, exists_const,
        Option.some.injEq] at hfound
      obtain ⟨_, _, _, _, _, i, _, _, _, _, _, _, _, _, ⟨pid', p'⟩, latest', _, _, rfl⟩ := hfound
      rw [latest] at latest'
      cases latest'
      rfl

theorem applyCreationResult_status {mode : PaymentMode} {result : ProviderPayment} (created : p.status = .created) :
    (PaymentService.applyCreationResult mode result now).Post p fun outcome q =>
      outcome = .ok () → q.status = result.status ∧ q.appointmentId = p.appointmentId := by
  simp only [PaymentService.applyCreationResult, PaymentService.applyAuthoritativePayment, Mut.post_get_bind,
    Mut.post_check_bind, Mut.post_modify_bind, Mut.post_modify]
  refine ⟨fun _ _ => (by simp), fun _ _ => ⟨fun _ _ => (by simp), fun _ _ _ => ⟨?_, rfl⟩⟩⟩
  show PaymentService.paymentTarget p.status result.status = result.status
  rw [created]
  exact if_neg fun h => absurd h.2 (by decide)

/-- A payment that is still `CREATED` takes the status of the answer. -/
theorem submitPayment_created (row : db.payments.row pid = some p) (created : p.status = .created)
    (h : submitPayment pid values answer now db = .ok (.ok view, db')) :
    ∃ result, answer = .ok result ∧ view = ⟨pid, p.appointmentId, result.status⟩ ∧
      db'.appointments = db.appointments ∧ db'.reservations = db.reservations := by
  simp only [submitPayment, Except.bind_ok] at h
  obtain ⟨detached, -, h⟩ := h
  split at h
  · split at h
    · cases h
    · split at h
      · simp only [Except.bind_ok] at h
        obtain ⟨_, -, h⟩ := h
        split at h
        · cases h
        · simp at h
      · cases h
  · cases h
  · next result _ hexec =>
    have answered := createWithProvider_answer.elim hexec result rfl
    simp only [Except.bind_ok, Except.orRaise_ok] at h
    obtain ⟨p', row', _, -, h⟩ := h
    obtain rfl : p = p' := Option.some.inj (row.symm.trans row')
    rw [if_pos created] at h
    split at h
    · cases h
    · next q happly =>
      obtain ⟨status, of⟩ := (applyCreationResult_status created).elim happly rfl
      simp only [Except.bind_ok, Except.pure_ok, Prod.mk.injEq, Except.ok.injEq] at h
      obtain ⟨db₁, hcommit, hview, rfl⟩ := h
      obtain ⟨-, rfl⟩ := Db.commit_ok.mp hcommit
      refine ⟨result, answered, ?_, rfl, rfl⟩
      rw [← hview, paymentView, status, of]

/-- A live reservation that is consumed confirms its appointment, if that was still pending, and clears the deadline. -/
theorem consumePaidReservation_some {j : Nat} {r : Reservation} (row : db.appointments.row view.appointmentId = some a)
    (live : db.activeForAppointment view.appointmentId = some (j, r)) (h : consumePaidReservation view now db = .ok db') :
    ∃ a', db'.appointments.row view.appointmentId = some a' ∧ a'.reservationExpiresAt = none ∧
      a'.status = if a.status.isPending then .confirmed else a.status := by
  obtain ⟨reservation, -, alive⟩ := Db.activeForAppointment_row live
  unfold consumePaidReservation at h
  rw [live] at h
  simp only [ReservationService.consume, ReservationService.requiredReservation, Except.bind_ok, Except.orRaise_ok] at h
  obtain ⟨db₁, ⟨r', hr', h⟩, hcommit⟩ := h
  obtain rfl : r = r' := Option.some.inj (reservation.symm.trans hr')
  obtain ⟨-, rfl⟩ := Db.commit_ok.mp hcommit
  split at h
  · next consumed =>
    rw [consumed] at alive
    cases alive
  · simp only [ReservationService.requiredAppointment, ReservationService.requireReservationMatchesAppointment,
      Except.bind_ok, Except.orRaise_ok, Except.require_ok, ensureReservationTransition_ok, exists_const] at h
    obtain ⟨-, -, a', ha', -, -, h⟩ := h
    obtain rfl : a = a' := Option.some.inj (row.symm.trans ha')
    by_cases pending : a.status.isPending = true
    · rw [if_pos pending] at h
      simp only [ReservationService.requiredWindow, ReservationService.transitionAppointment_ok, Except.bind_ok,
        Except.orRaise_ok, Except.require_ok, Except.pure_ok] at h
      obtain ⟨-, ⟨-, rfl⟩, w, -, -, -, rfl⟩ := h
      exact ⟨_, Table.row_put_self row, rfl, by rw [if_pos pending]⟩
    · rw [if_neg pending] at h
      simp only [ReservationService.requiredWindow, Except.bind_ok, Except.orRaise_ok, Except.require_ok, Except.pure_ok,
        exists_const] at h
      obtain ⟨-, _, rfl, w, -, -, rfl⟩ := h
      exact ⟨_, Table.row_put_self row, rfl, by rw [if_neg pending]⟩

theorem consumePaidReservation_none (none : db.activeForAppointment view.appointmentId = none)
    (h : consumePaidReservation view now db = .ok db') : db' = db := by
  unfold consumePaidReservation at h
  rw [none] at h
  cases h
  rfl

/-- The payment has succeeded, or is still to be submitted and the provider says so. -/
def Pays (p : Payment) (answer : Except ProviderError ProviderPayment) : Prop :=
  p.status = .succeeded ∨ p.status = .created ∧ ∃ result, answer = .ok result ∧ result.status = .succeeded

/-- The appointment is confirmed, or the live reservation it is pending with will confirm it. -/
def ComesConfirmed (db : Db) (appointmentId : Nat) (a : Appointment) : Prop :=
  match db.activeForAppointment appointmentId with
  | some _ => a.status.isPending = true ∨ a.status = .confirmed
  | none => a.status = .confirmed ∧ a.reservationExpiresAt = none

variable {s s' : Sys}

/-- What a replay has submitted: the status it goes on with, on rows of the booking that are as they were. -/
theorem Submits.view_ok {i : Nat} {s₂ : Sys} (h : Submits Undisturbed i pid values answer now s view s₂)
    (payment : s.db.payments.row pid = some p) (appointment : s.db.appointments.row i = some a) :
    (view.status = .succeeded ↔ Pays p answer) ∧ view.appointmentId = p.appointmentId ∧
      s₂.db.appointments.row i = some a ∧ s₂.db.activeForAppointment i = s.db.activeForAppointment i := by
  cases h with
  | read read left =>
    simp only [readSubmitted, Except.bind_ok, Except.orRaise_ok, Except.pure_ok] at read
    obtain ⟨p', payment', _, -, rfl⟩ := read
    obtain rfl : p = p' := Option.some.inj (payment.symm.trans payment')
    refine ⟨⟨.inl, fun pays => pays.resolve_right fun created => left created.1⟩, rfl, appointment, rfl⟩
  | answered read created between submitted =>
    simp only [readSubmitted, Except.bind_ok, Except.orRaise_ok, Except.pure_ok] at read
    obtain ⟨p', payment', _, -, rfl⟩ := read
    obtain rfl : p = p' := Option.some.inj (payment.symm.trans payment')
    obtain ⟨-, sameAppointment, samePayment, sameLive⟩ := between
    obtain ⟨result, rfl, rfl, appointments, reservations⟩ := submitPayment_created (samePayment.trans payment) created
      submitted
    refine ⟨⟨fun succeeded => .inr ⟨created, result, rfl, succeeded⟩, ?_⟩, rfl, ?_, ?_⟩
    · rintro (succeeded | ⟨-, _, same, succeeded⟩)
      · have created : p.status = .created := created
        rw [created] at succeeded
        cases succeeded
      · cases same
        exact succeeded
    · show _ = _
      rw [appointments]
      exact sameAppointment.trans appointment
    · rw [← sameLive]
      unfold Db.activeForAppointment
      rw [reservations]

/-- Where nothing else happens to the booking during the call, the receipt of a replay is true exactly when a payment
that has succeeded goes with an appointment that is confirmed, or that the call itself confirms. -/
theorem replay_truthful (h : Replays Undisturbed c telegramId request addonSnapshots answer now s receipt s') :
    Truthful receipt s'.db ↔ ∀ p a, s.db.payments.row receipt.paymentId = some p →
      s.db.appointments.row receipt.appointmentId = some a → Pays p answer → ComesConfirmed s.db receipt.appointmentId a := by
  obtain ⟨checkout, first, pid', values, view, s₁, s₂, s₃, s₄, found, hpid, hvalues, gap₁, submits, gap₂, finalizes, gap₃,
    rfl⟩ := h.steps
  obtain ⟨a, pid, p, appointment, payment, of, hpid', rfl⟩ := existingReceipt_ok found
  obtain rfl : pid = pid' := Option.some.inj (hpid'.symm.trans hpid)
  obtain ⟨-, appointment₁, payment₁, live₁⟩ := gap₁
  obtain ⟨succeeded, of', appointment₂, live₂⟩ := submits.view_ok (payment₁.trans payment) (appointment₁.trans appointment)
  obtain ⟨-, appointment₃, -, live₃⟩ := gap₂
  obtain ⟨-, appointment₄, -, -⟩ := gap₃
  have row₃ : s₃.db.appointments.row checkout.appointmentId = some a := appointment₃.trans appointment₂
  have live : s₃.db.activeForAppointment checkout.appointmentId = s.db.activeForAppointment checkout.appointmentId :=
    (live₃.trans live₂).trans live₁
  have about : view.appointmentId = checkout.appointmentId := of'.trans of
  cases finalizes with
  | unpaid other =>
    have receipt : finalReceipt ⟨checkout.appointmentId, a.status, a.reservationExpiresAt, pid, p.status⟩ view =
        ⟨checkout.appointmentId, a.status, a.reservationExpiresAt, pid, view.status⟩ := if_neg other
    rw [receipt]
    refine ⟨fun _ q b hq _ pays => ?_, fun _ => ⟨a, appointment₄.trans row₃, rfl, rfl⟩⟩
    obtain rfl : p = q := Option.some.inj (payment.symm.trans hq)
    exact absurd (succeeded.mpr pays) other
  | paid paid consumed =>
    have receipt : finalReceipt ⟨checkout.appointmentId, a.status, a.reservationExpiresAt, pid, p.status⟩ view =
        ⟨checkout.appointmentId, .confirmed, none, pid, view.status⟩ := if_pos paid
    have only : (∀ q b, s.db.payments.row pid = some q → s.db.appointments.row checkout.appointmentId = some b →
        Pays q answer → ComesConfirmed s.db checkout.appointmentId b) ↔
        ComesConfirmed s.db checkout.appointmentId a := by
      refine ⟨fun h => h p a payment appointment (succeeded.mp paid), fun h q b _ hb _ => ?_⟩
      obtain rfl : a = b := Option.some.inj (appointment.symm.trans hb)
      exact h
    rw [receipt]
    refine Iff.trans ?_ only.symm
    unfold ComesConfirmed
    cases hlive : s.db.activeForAppointment checkout.appointmentId with
    | none =>
      have same := consumePaidReservation_none (by rw [about, live, hlive]) consumed
      have stored : s'.db.appointments.row checkout.appointmentId = some a := by
        rw [appointment₄, ← row₃, ← same]
      constructor
      · rintro ⟨b, hb, status, deadline⟩
        obtain rfl : a = b := Option.some.inj (stored.symm.trans hb)
        exact ⟨status.symm, deadline.symm⟩
      · rintro ⟨status, deadline⟩
        exact ⟨a, stored, status.symm, deadline.symm⟩
    | some found =>
      obtain ⟨j, r⟩ := found
      obtain ⟨a', row', cleared, status⟩ := consumePaidReservation_some (by rw [about]; exact row₃)
        (by rw [about, live, hlive]) consumed
      rw [about] at row'
      have stored : s'.db.appointments.row checkout.appointmentId = some a' := appointment₄.trans row'
      have confirms : a'.status = .confirmed ↔ a.status.isPending = true ∨ a.status = .confirmed := by
        rw [status]
        split
        · next pending => exact iff_of_true rfl (.inl pending)
        · next not => exact (or_iff_right not).symm
      rw [← confirms]
      constructor
      · rintro ⟨b, hb, hstatus, -⟩
        obtain rfl : a' = b := Option.some.inj (stored.symm.trans hb)
        exact hstatus.symm
      · intro hstatus
        exact ⟨a', stored, hstatus.symm, cleared.symm⟩

/-! ### Replays of a paid booking -/

open Sys

theorem Undisturbed.refl (i pid : Nat) (s : Sys) : Undisturbed i pid s s := ⟨⟨[], rfl⟩, rfl, rfl, rfl⟩

theorem eq_ok_of_mem {α : Type} {x : Check α} {b : α} (h : b ∈ x.toOption) : x = .ok b := by
  cases x with
  | error e => cases h
  | ok b' =>
    cases h
    rfl

/-- A replay finds a payment that has succeeded and no reservation to consume. -/
def FindsPaid (c : Catalog) (telegramId : Int) (request : BookingRequest) (db : Db)
    (ok : CheckoutResult → BookingReceipt → Prop) : Prop :=
  ∃ found ∈ (existingReceipt c telegramId request (fun _ => []) db).toOption, ∃ x ∈ found, ∃ pid ∈ x.1.paymentId,
    ∃ values ∈ x.1.paymentValues, ∃ view ∈ (readSubmitted pid values db).toOption, view.status = .succeeded ∧
      db.activeForAppointment view.appointmentId = none ∧ ok x.1 (finalReceipt x.2 view)

theorem FindsPaid.replays {ok : CheckoutResult → BookingReceipt → Prop} (h : FindsPaid c telegramId request s.db ok) :
    ∃ checkout receipt, Replays Undisturbed c telegramId request (fun _ => []) answer now s receipt s ∧
      ok checkout receipt := by
  obtain ⟨found, hfound, ⟨checkout, first⟩, hx, pid, hpid, values, hvalues, view, hview, succeeded, idle, hok⟩ := h
  obtain rfl : found = some (checkout, first) := hx
  refine ⟨checkout, _, ⟨checkout, first, pid, values, view, s, s, s, s, eq_ok_of_mem hfound, hpid, hvalues, .refl _ _ _,
    .read (eq_ok_of_mem hview) (by rw [succeeded]; nofun), .refl _ _ _, .paid succeeded ?_, .refl _ _ _, rfl⟩, hok⟩
  unfold consumePaidReservation
  rw [idle]
  rfl

instance {c : Catalog} {telegramId : Int} {request : BookingRequest} {db : Db}
    {ok : CheckoutResult → BookingReceipt → Prop} [∀ x y, Decidable (ok x y)] :
    Decidable (FindsPaid c telegramId request db ok) := inferInstanceAs (Decidable (∃ found ∈ _, _))

/-- Right after the visit has been paid for, the receipt is true. -/
theorem replay_truthful_paidVisit : ∃ receipt, Replays Undisturbed (salon .yookassa) 2 (Desk.requestFor 2 1) (fun _ => [])
    (.error ⟨"not asked", true⟩) (minutes 4) (after paidVisit) receipt (after paidVisit) ∧
      Truthful receipt (after paidVisit).db := by
  have paid : FindsPaid (salon .yookassa) 2 (Desk.requestFor 2 1) (after paidVisit).db
      fun _ receipt => receipt.appointmentId = 1 := by decide +kernel
  obtain ⟨-, receipt, replays, about⟩ := paid.replays
  refine ⟨receipt, replays, (replay_truthful replays).mpr fun p a _ row _ => ?_⟩
  have confirmed : ∃ a ∈ (after paidVisit).db.appointments.row 1, a.status = .confirmed ∧ a.reservationExpiresAt = none := by
    decide +kernel
  have idle : (after paidVisit).db.activeForAppointment 1 = none := by decide +kernel
  obtain ⟨a', row', stored⟩ := confirmed
  rw [about] at row ⊢
  obtain rfl : a = a' := Option.some.inj (row.symm.trans row')
  unfold ComesConfirmed
  rw [idle]
  exact stored

/-- The client cancels the visit she has paid for. -/
def cancelledVisit : List Label := paidVisit ++ [⟨salon .yookassa, minutes 4, .endVisit (.cancelMy 2 none) 1⟩]

/-- The same request is answered with a confirmed visit. -/
theorem replay_confirms_cancelled : ∃ receipt, Replays Undisturbed (salon .yookassa) 2 (Desk.requestFor 2 1)
    (fun _ => []) (.error ⟨"not asked", true⟩) (minutes 5) (after cancelledVisit) receipt (after cancelledVisit) ∧
      receipt.appointmentId = 1 ∧ receipt.appointmentStatus = .confirmed ∧
      ∃ a, (after cancelledVisit).db.appointments.row 1 = some a ∧ a.status = .cancelledByClient := by
  have paid : FindsPaid (salon .yookassa) 2 (Desk.requestFor 2 1) (after cancelledVisit).db
      fun _ receipt => receipt.appointmentId = 1 ∧ receipt.appointmentStatus = .confirmed := by decide +kernel
  have cancelled : ∃ a ∈ (after cancelledVisit).db.appointments.row 1, a.status = .cancelledByClient := by decide +kernel
  obtain ⟨-, receipt, replays, about, confirmed⟩ := paid.replays
  exact ⟨receipt, replays, about, confirmed, cancelled⟩

end BookingService

end SalonBooking
