import SalonBooking.Moves.Money
import SalonBooking.Slots.Refine

/-!
# Holds

What the transactions commit that create, confirm or release the hold of an appointment on a window:
booking, the consumption of a paid reservation, local expiry, the client's report of a manual payment
and its rejection.
-/

namespace SalonBooking

open Lib

variable {may : Db → Effect → Prop} {c : Catalog} {db db' : Db} {now : Int}

/-! ### Booking -/

namespace BookingService

variable {telegramId : Int} {values : BookingRequest} {allow : Bool} {override : Option BookingLimitOverride}
  {plan : BookingPlan} {checkout : CheckoutResult}

theorem bookingPlan_window (h : bookingPlan c telegramId values now allow override db = .ok plan) :
    db.windows.row values.windowId = some plan.window ∧ plan.window.status = .open ∧
      c.Admits db plan.window none := by
  simp only [bookingPlan, Catalog.requireSettings, Except.bind_ok, Except.require_ok, Except.orRaise_ok,
    exists_const, Except.pure_ok] at h
  obtain ⟨-, -, -, -, -, settings, configured, -, w, row, free, -, h⟩ := h
  obtain ⟨clientId, -, -, -, service, -, assignment, -, addons, -, base, -, -, -, -, day, -, -, -, -,
    workstationId, allocated, -, -, policy, -, rfl⟩ := h
  simp only [allocate, Except.require_bind_ok, not_le] at allocated
  exact ⟨row, free, settings, configured, allocated.1⟩

/-- The reservation of a new appointment is a new one, on a window that is still open. -/
theorem create_new (hl : Links db) {a : Appointment} {rc : ReservationCreate} {digest : String}
    {result : Nat × Bool} {db₁ : Db} (belongs : rc.appointmentId = some db.appointments.next)
    (h : ReservationService.create rc digest now (db.addAppointment a) = .ok (result, db₁)) :
    ∃ w, db.windows.row rc.windowId = some w ∧ w.status = .open ∧
      ∃ r : Reservation, r.status = .active ∧ r.appointmentId = rc.appointmentId ∧ r.clientId = rc.clientId ∧
        r.staffMemberId = rc.staffMemberId ∧ r.windowId = rc.windowId ∧ r.serviceId = rc.serviceId ∧
      result.1 = db.reservations.next ∧
      ∃ t, db₁ = { db with
        windows := db.windows.put rc.windowId { w with status := .reserved }
        appointments := db.appointments.insert { a with reservationExpiresAt := t }
        reservations := db.reservations.insert r } := by
  unfold ReservationService.create at h
  split at h
  · next reservationId existing hfound =>
    -- a hold under this key would belong to an appointment that does not exist yet
    obtain ⟨row, -⟩ := Table.find_eq_some hfound
    simp only [ReservationService.requireSameReservation, Except.bind_ok, Except.require_ok, exists_const] at h
    exact absurd (h.1.2.2.2.2.1.trans belongs) (hl.reservation_new reservationId existing row)
  · simp only [belongs, ReservationService.requiredWindow, ReservationService.requiredAppointment,
      ReservationService.requireAppointmentMatches, Except.bind_ok, Except.orRaise_ok, Except.require_ok,
      Except.pure_ok, exists_const, Prod.mk.injEq] at h
    obtain ⟨w, row, -, free, -, a', hrow, -, -, _, rfl, rfl, rfl⟩ := h
    obtain rfl : a = a' := Option.some.inj (Table.row_insert_self.symm.trans hrow)
    let reservation : Reservation := {
      clientId := rc.clientId, staffMemberId := rc.staffMemberId, windowId := rc.windowId
      serviceId := rc.serviceId, appointmentId := some db.appointments.next, tokenDigest := digest
      idempotencyKey := rc.idempotencyKey, status := .active, expiresAt := now + minutes rc.ttlMinutes }
    refine ⟨w, row, free, reservation, rfl, belongs.symm, rfl, rfl, rfl, rfl, rfl,
      some (now + minutes rc.ttlMinutes), ?_⟩
    simp only [Db.setAppointment, Db.addAppointment, Db.setWindow, Db.addReservation, Table.put_insert_next]
    rfl

theorem placeBooking_ok (hl : Links db) (hplan : db.windows.row values.windowId = some plan.window)
    (free : plan.window.status = .open) (admitted : may db (.accept plan.window none))
    (h : placeBooking c plan values now db = .ok (checkout, db')) : Transaction may db db' := by
  unfold placeBooking at h
  split at h
  · next mode =>
    simp only [Except.bind_ok, Except.pure_ok, Prod.mk.injEq] at h
    obtain ⟨_, rfl, db₂, hcommit, -, rfl⟩ := h
    refine .of_commit hcommit ?_
    exact .place values.windowId plan.window (newAppointment plan values) hplan free rfl
      (by simp [newAppointment, initialAppointmentStatus, mode]) mode rfl _ _ (.opened rfl rfl rfl)
      ⟨rfl, rfl, admitted⟩
  · next mode =>
    simp only [Except.bind_ok, Except.pure_ok, Prod.mk.injEq] at h
    obtain ⟨⟨checkout₁, db₁⟩, hcheckout, db₂, hcommit, -, rfl⟩ := h
    refine .of_commit hcommit ?_
    simp only [openCheckout, ReservationService.requiredReservation, validatePaymentCreate,
      PaymentService.newPayment, PaymentService.requireProvider, Except.bind_ok, Except.orRaise_ok,
      Except.require_ok, Except.pure_ok, validateMoney_ok, exists_const, Prod.mk.injEq] at hcheckout
    obtain ⟨settings, -, digest, -, ⟨⟨reservationId, fresh⟩, db₃⟩, hcreate, r', hr', ⟨-, ⟨hpos, hmax, hcur, -⟩,
      -⟩, -, -, payment, ⟨-, rfl⟩, -, rfl⟩ := hcheckout
    obtain ⟨w, row, hfree, r, live, belongs, hclient, hstaff, hwindow, hservice, -, t, rfl⟩ :=
      create_new hl rfl hcreate
    rw [show db.windows.row values.windowId = some w from row] at hplan
    cases hplan
    refine .hold values.windowId plan.window
      { newAppointment plan values with reservationExpiresAt := t } r _ row hfree rfl ?_ mode rfl live belongs
      ⟨hclient, hstaff, hwindow, hservice⟩ ?_ ?_ ?_ ?_ ?_ ?_ _ _ (.opened rfl rfl rfl) ⟨rfl, rfl, admitted⟩
    · show initialAppointmentStatus plan.mode = .pendingPayment
      cases hm : plan.mode with
      | disabled => exact absurd hm mode
      | manual => rfl
      | yookassa => rfl
    all_goals split
    all_goals first | rfl | exact ⟨hpos, hmax, hcur⟩

theorem book_ok (hl : Links db)
    (hmay : ∀ w, db.windows.row values.windowId = some w → c.Admits db w none → may db (.accept w none))
    (h : book c telegramId values now allow override db = .ok (checkout, db')) : Transaction may db db' := by
  simp only [book, Except.mapError_ok, Except.bind_ok] at h
  obtain ⟨plan, hplan, h⟩ := h
  obtain ⟨row, free, room⟩ := bookingPlan_window hplan
  exact placeBooking_ok hl row free (hmay plan.window row room) h

end BookingService

/-! ### Queries -/

theorem Db.activeForAppointment_row {i j : Nat} {r : Reservation}
    (h : db.activeForAppointment i = some (j, r)) :
    db.reservations.row j = some r ∧ r.appointmentId = some i ∧ r.status.isLive = true := by
  obtain ⟨row, hp⟩ := Table.find_eq_some h
  exact ⟨row, by simpa using hp⟩

theorem Db.latestPayment_row {i x : Nat} {p : Payment} (h : db.latestPayment i = some (x, p)) :
    db.payments.row x = some p ∧ p.appointmentId = i := by
  obtain ⟨row, hp⟩ := Table.mem_select.mp (List.mem_of_getLast? h)
  exact ⟨row, by simpa using hp⟩

theorem Db.captured_of_latest {i : Nat}
    (h : ((db.latestPayment i).any fun p => p.2.status == .succeeded) = true) : Captured db i := by
  cases hlast : db.latestPayment i with
  | none => rw [hlast] at h; cases h
  | some xp =>
    rw [hlast] at h
    have hs : xp.2.status = .succeeded := by simpa using h
    obtain ⟨row, of⟩ := Db.latestPayment_row hlast
    exact ⟨xp.1, xp.2, row, of, by rw [hs]; rfl⟩

theorem Links.latestPayment_eq (hl : Links db) {i x : Nat} {p : Payment} (row : db.payments.row x = some p)
    (of : p.appointmentId = i) : db.latestPayment i = some (x, p) := by
  have hmem : (x, p) ∈ db.payments.select fun p => p.appointmentId == i :=
    Table.mem_select.mpr ⟨row, by simpa using of⟩
  cases hlast : db.latestPayment i with
  | none => rw [List.getLast?_eq_none_iff.mp hlast] at hmem; cases hmem
  | some y =>
    obtain ⟨row', of'⟩ := Db.latestPayment_row hlast
    obtain rfl := hl.payment_once x y.1 p y.2 i row row' (congrArg some of) (congrArg some of')
    rw [row] at row'
    rw [Option.some.inj row']

/-! ### The end of a hold -/

theorem Agrees.pending_of_live {σ : Nat → Slot} (h : Agrees db σ) {i j : Nat} {r : Reservation} {a : Appointment}
    (row : db.reservations.row j = some r) (live : r.status.isLive = true) (belongs : r.appointmentId = some i)
    (appointment : db.appointments.row i = some a) :
    a.status.isPending = true ∧ ReservationService.Matches r a := by
  obtain ⟨a', r', ha', hr', -, pending, -, -, agrees⟩ := h.held _ _ _ (h.slot_of_live row live belongs)
  rw [appointment] at ha'; cases ha'
  rw [row] at hr'; cases hr'
  exact ⟨pending, agrees⟩

theorem Agrees.reserved_of_live {σ : Nat → Slot} (h : Agrees db σ) {j : Nat} {r : Reservation} {w : Window}
    (row : db.reservations.row j = some r) (live : r.status.isLive = true)
    (window : db.windows.row r.windowId = some w) : w.status = .reserved := by
  obtain ⟨i, held⟩ := h.live j r row live
  exact (h.reserved _ w window).mpr (by rw [held]; rfl)

/-- The state of the bookings on which the lemmas about holds rest. -/
structure Booked (db : Db) : Prop where
  book : ∃ σ, Agrees db σ
  links : Links db

namespace ReservationService

variable {i j : Nat} {r : Reservation} {actorUserId : Option Nat} {db₁ : Db}

theorem transitionAppointment_ok {a : Appointment} {t : AppointmentStatus} {reason : String}
    {result : Appointment × Db} :
    transitionAppointment db i a t actorUserId reason = .ok result ↔ (a.status = t ∨ t ∈ a.status.allowed) ∧
      ({ a with status := t }, db.addHistory ⟨i, some a.status, t, actorUserId, some reason⟩) = result := by
  simp only [transitionAppointment, Except.bind_ok, ensureAppointmentTransition_ok, Except.pure_ok, exists_const]

theorem consume_ok (hb : Booked db) (row : db.reservations.row j = some r) (live : r.status.isLive = true)
    (belongs : r.appointmentId = some i) (paid : Captured db i)
    (h : consume j i actorUserId now db = .ok db₁) : Move may db db₁ := by
  obtain ⟨σ, hA⟩ := hb.book
  simp only [consume, requiredReservation, row, orRaise, Except.bind_ok] at h
  obtain ⟨r', hr', h⟩ := h
  cases hr'
  split at h
  · next consumed => rw [consumed] at live; cases live
  · simp only [requiredAppointment, requireReservationMatchesAppointment, Except.bind_ok, Except.orRaise_ok,
      Except.require_ok, ensureReservationTransition_ok, exists_const] at h
    obtain ⟨-, -, a, appointment, agrees, -, h⟩ := h
    obtain ⟨pending, -⟩ := hA.pending_of_live row live belongs appointment
    rw [if_pos pending] at h
    simp only [requiredWindow, transitionAppointment_ok, Except.bind_ok, Except.orRaise_ok, Except.require_ok,
      Except.pure_ok] at h
    obtain ⟨-, ⟨-, rfl⟩, w, window, -, -, rfl⟩ := h
    rw [← belongs]
    have window : db.windows.row r.windowId = some w := window
    exact .confirmHold r.windowId w i a j r now window appointment row rfl pending live belongs agrees paid _ _
      (.moved appointment (AppointmentStatus.allowed_of_pending pending (.inl rfl)) rfl rfl rfl)

theorem reconcilePaid_ok {a : Appointment} {w : Window} (row : db.reservations.row j = some r)
    (live : r.status.isLive = true) (belongs : r.appointmentId = some i)
    (appointment : db.appointments.row i = some a) (pending : a.status.isPending = true)
    (agrees : Matches r a) (window : db.windows.row r.windowId = some w) (paid : Captured db i)
    (h : reconcilePaid db j r w i a now = .ok db₁) : Move may db db₁ := by
  rw [reconcilePaid, if_pos pending] at h
  simp only [transitionAppointment_ok, Except.bind_ok, Except.pure_ok] at h
  obtain ⟨-, ⟨-, rfl⟩, rfl⟩ := h
  exact .confirmHold r.windowId w i a j r now window appointment row rfl pending live belongs agrees paid _ _
    (.moved appointment (AppointmentStatus.allowed_of_pending pending (.inl rfl)) rfl rfl rfl)

theorem expirePayment_step {p : Payment} (pending : p.status = .pending) :
    PaymentStep p (expirePayment p now) ∧ (expirePayment p now).status = .cancelled := by
  rw [expirePayment, if_pos pending]
  exact ⟨⟨⟨rfl, rfl, rfl, rfl, rfl, rfl⟩, rfl, .inr rfl, .inr ⟨.inr pending, by simp⟩⟩, rfl⟩

theorem expireLatestPayment_eq (db : Db) (i : Nat) (now : Int) : ∃ payments,
    expireLatestPayment db i now = { db with payments } ∧ (payments = db.payments ∨
      ∃ x p q, db.payments.row x = some p ∧ p.appointmentId = i ∧ p.status = .pending ∧
        (q.status = .cancelled ∨ q.status = .failed) ∧ PaymentStep p q ∧ payments = db.payments.put x q) := by
  unfold expireLatestPayment
  split
  · next x p hlast =>
    obtain ⟨row, of⟩ := Db.latestPayment_row hlast
    refine ⟨_, rfl, ?_⟩
    by_cases hs : p.status = .pending
    · obtain ⟨step, cancelled⟩ : PaymentStep p (expirePayment p now) ∧ _ := expirePayment_step hs
      exact .inr ⟨x, p, _, row, of, hs, .inl cancelled, step, rfl⟩
    · left
      rw [expirePayment, if_neg hs, Table.put_same row]
  · exact ⟨_, rfl, .inl rfl⟩

/-- Expiry of an unpaid hold releases it, and cancels the payment it finds pending. -/
theorem expire_unpaid_ok (hl : Links db) {a : Appointment} {w : Window}
    (row : db.reservations.row j = some r) (live : r.status.isLive = true) (belongs : r.appointmentId = some i)
    (appointment : db.appointments.row i = some a) (pending : a.status.isPending = true)
    (agrees : Matches r a) (window : db.windows.row r.windowId = some w) (reserved : w.status = .reserved)
    (unpaid : ((db.latestPayment i).any fun p => p.2.status == .succeeded) = false)
    (h : (do let (a, db) ← expireAppointment db i a now; releaseHold db j r w (some a) now) = .ok db₁) :
    Move may db db₁ := by
  rw [expireAppointment, if_pos pending] at h
  simp only [transitionAppointment_ok, releaseHold, Except.bind_ok, ensureReservationTransition_ok, Except.pure_ok,
    exists_const] at h
  obtain ⟨-, ⟨-, ⟨-, rfl⟩, rfl⟩, -, h⟩ := h
  have release : (windowCanBeReleased (some { a with status := .paymentExpired, reservationExpiresAt := none })
      && w.status.isHeld) = true := by rw [reserved]; rfl
  rw [if_pos release] at h
  cases h
  have never : ∀ x p, db.payments.row x = some p → p.appointmentId = i → p.status ≠ .succeeded := by
    intro x p hp of hs
    rw [hl.latestPayment_eq hp of, Option.any_some, hs] at unpaid
    cases unpaid
  obtain ⟨payments, he, money⟩ := expireLatestPayment_eq
    ((db.addHistory ⟨i, some a.status, .paymentExpired, none, some "reservation_expired"⟩).setAppointment i
      { a with status := .paymentExpired, reservationExpiresAt := none }) i now
  rw [he]
  exact .releaseHold r.windowId w i a j r .paymentExpired
    { a with status := .paymentExpired, reservationExpiresAt := none }
    { r with status := .expired, cancelledAt := some now } payments window appointment row rfl pending live
    belongs agrees ⟨rfl, rfl, rfl, rfl, rfl, rfl, rfl⟩ rfl (.inl rfl) (.inl rfl) belongs never money _ _
    (.moved appointment (AppointmentStatus.allowed_of_pending pending (.inr (.inl rfl))) rfl rfl rfl) rfl

/-- Expiring a claimed reservation confirms a paid hold and releases an unpaid one. -/
theorem expireClaimed_ok (hb : Booked db) (h : expireClaimed j now db = .ok db₁) : Move may db db₁ := by
  obtain ⟨σ, hA⟩ := hb.book
  simp only [expireClaimed, requiredReservation, requiredWindow, Except.bind_ok, Except.orRaise_ok,
    Except.require_ok, exists_const] at h
  obtain ⟨r, row, active, -, w, window, h⟩ := h
  have live : r.status.isLive = true := by rw [active]; rfl
  obtain ⟨i, held⟩ := hA.live j r row live
  obtain ⟨a, r', appointment, row', -, pending, -, belongs, agrees⟩ := hA.held _ _ _ held
  rw [row] at row'; cases row'
  have reserved := hA.reserved_of_live row live window
  simp only [belongs, requiredAppointment, appointment, orRaise, requireReservationMatchesAppointment,
    Except.bind_ok, Except.require_ok, exists_const] at h
  obtain ⟨a', ⟨⟩, -, h⟩ := h
  split at h
  · next paid =>
    -- the appointment is pending, so it is the payment that asks for the repair
    have hpaid : ((db.latestPayment i).any fun p => p.2.status == .succeeded) = true := by
      simpa [mustReconcileAsPaid, AppointmentStatus.not_active_of_pending pending, pending] using paid
    exact reconcilePaid_ok row live belongs appointment pending agrees window (Db.captured_of_latest hpaid) h
  · next unpaid =>
    have hunpaid : ((db.latestPayment i).any fun p => p.2.status == .succeeded) = false := by
      simpa [mustReconcileAsPaid, AppointmentStatus.not_active_of_pending pending, pending] using unpaid
    exact expire_unpaid_ok hb.links row live belongs appointment pending agrees window reserved hunpaid h

end ReservationService

/-! ### The state of the bookings over a row of moves -/

theorem Booked.of_move (hb : Booked db) (hm : Move may db db') : Booked db' := by
  obtain ⟨σ, hA⟩ := hb.book
  obtain ⟨σ', -, hA'⟩ := hA.step hb.links hm
  exact ⟨⟨σ', hA'⟩, hb.links.of_move hm⟩

theorem Booked.of_moves (hb : Booked db) (hm : Moves may db db') : Booked db' :=
  hm.keeps (fun _ _ => .of_move) hb

namespace ReservationExpiryWorker

theorem expireOne_ok (hb : Booked db) (hc : db.Checks) (j : Nat) : Transaction may db (expireOne now db j) := by
  unfold expireOne
  cases h : (do let db ← ReservationService.expireClaimed j now db; db.commit : Check Db) with
  | error e => exact .refl hc
  | ok db₁ =>
    simp only [Except.bind_ok] at h
    obtain ⟨db₂, hexpire, hcommit⟩ := h
    exact .of_commit hcommit (ReservationService.expireClaimed_ok hb hexpire)

theorem runCycle_ok (hb : Booked db) (hc : db.Checks) (limit : Nat) (locked : List Nat) :
    Transaction may db (runCycle now limit locked db) := by
  unfold runCycle
  generalize (claimExpired db now locked).take limit = l
  induction l generalizing db with
  | nil => exact .refl hc
  | cons j l ih =>
    have first : Transaction may db (expireOne now db j) := expireOne_ok hb hc j
    exact first.trans (ih (hb.of_moves first.moves) first.checks)

end ReservationExpiryWorker

/-! ### Consumption of a paid hold -/

namespace BookingService

theorem consumePaidReservation_ok (hb : Booked db) (hc : db.Checks) {view : PaymentView}
    (paid : Captured db view.appointmentId) (h : consumePaidReservation view now db = .ok db') :
    Transaction may db db' := by
  unfold consumePaidReservation at h
  split at h
  · cases h
    exact .refl hc
  · next j r hfound =>
    obtain ⟨row, belongs, live⟩ := Db.activeForAppointment_row hfound
    simp only [Except.bind_ok] at h
    obtain ⟨db₁, hconsume, hcommit⟩ := h
    exact .of_commit hcommit (ReservationService.consume_ok hb row live belongs paid hconsume)

end BookingService

namespace ManualPaymentApprovalCoordinator

theorem consumePaidReservation_ok (hb : Booked db) (hc : db.Checks) {paymentId : Nat} {actorUserId : Option Nat}
    (h : consumePaidReservation paymentId actorUserId now db = .ok db') : Transaction may db db' := by
  unfold consumePaidReservation at h
  split at h
  · cases h
    exact .refl hc
  · next p hp =>
    split at h
    · next succeeded =>
      split at h
      · cases h
        exact .refl hc
      · next j r hfound =>
        obtain ⟨row, belongs, live⟩ := Db.activeForAppointment_row hfound
        simp only [Except.bind_ok] at h
        obtain ⟨db₁, hconsume, hcommit⟩ := h
        have paid : Captured db p.appointmentId := ⟨paymentId, p, hp, rfl, by rw [succeeded]; rfl⟩
        exact .of_commit hcommit (ReservationService.consume_ok hb row live belongs paid hconsume)
    · cases h
      exact .refl hc

end ManualPaymentApprovalCoordinator

theorem WebhookCoordinator.reconcilePaidReservation_ok (hb : Booked db) (hc : db.Checks) {paymentId : Nat}
    (h : reconcilePaidReservation paymentId now db = .ok db') : Transaction may db db' :=
  ManualPaymentApprovalCoordinator.consumePaidReservation_ok hb hc (Except.mapError_ok.mp h)

/-! ### Manual prepayments -/

namespace ManualPrepaymentService

variable {actor : Int} {paymentId : Nat} {o : OwnedPayment}

theorem lockedOwnedPayment_ok (h : lockedOwnedPayment c actor paymentId db = .ok o) :
    db.payments.row paymentId = some o.payment ∧ db.appointments.row o.payment.appointmentId = some o.appointment ∧
      db.reservations.row o.reservationId = some o.reservation ∧
      o.reservation.appointmentId = some o.payment.appointmentId ∧ o.reservation.status.isLive = true := by
  simp only [lockedOwnedPayment, Except.bind_ok, Except.orRaise_ok, Except.require_ok, Except.pure_ok,
    exists_const] at h
  obtain ⟨userId, -, p, hp, a, ha, -, ⟨j, r⟩, hfound, -, rfl⟩ := h
  obtain ⟨row, belongs, live⟩ := Db.activeForAppointment_row hfound
  exact ⟨hp, ha, row, belongs, live⟩

theorem reportPaid_ok (hb : Booked db) (hc : db.Checks) (h : reportPaid c actor paymentId now db = .ok db') :
    Transaction may db db' := by
  obtain ⟨σ, hA⟩ := hb.book
  simp only [reportPaid, Except.bind_ok] at h
  obtain ⟨o, hrows, h⟩ := h
  obtain ⟨hp, ha, row, belongs, live⟩ := lockedOwnedPayment_ok hrows
  obtain ⟨pending, -⟩ := hA.pending_of_live row live belongs ha
  split at h
  · cases h
    exact .refl hc
  · simp only [Except.bind_ok, Except.require_ok, ensureReservationTransition_ok, exists_const, not_or,
      not_not] at h
    obtain ⟨⟨-, -, active⟩, -, -, h⟩ := h
    have step : PaymentStep o.payment { o.payment with
      manualStatus := some .clientReported, clientReportedAt := some now } :=
      ⟨⟨rfl, rfl, rfl, rfl, rfl, rfl⟩, rfl, .inr rfl, .inl rfl⟩
    split at h
    · next unreported =>
      simp only [ReservationService.transitionAppointment_ok, Except.bind_ok] at h
      obtain ⟨-, ⟨edge, rfl⟩, h⟩ := h
      have edge : AppointmentStatus.pendingManualConfirmation ∈ o.appointment.status.allowed := by
        refine edge.resolve_left fun reported => ?_
        rw [unreported] at reported
        cases reported
      exact .of_commit h (.report _ o.appointment o.reservationId o.reservation paymentId o.payment _ none ha row
        pending active belongs hp rfl step rfl _ _ (.moved ha edge rfl rfl rfl))
    · simp only [Except.bind_ok, Except.require_ok, Except.pure_ok, exists_const] at h
      obtain ⟨reported, -, rfl, h⟩ := h
      have same : { o.appointment with status := .pendingManualConfirmation, reservationExpiresAt := none } =
          { o.appointment with reservationExpiresAt := none } := by rw [← reported]
      have move : Move may db _ := .report _ o.appointment o.reservationId o.reservation paymentId o.payment _ none
        ha row pending active belongs hp rfl step rfl db.events db.history (.kept ha reported.symm)
      rw [same] at move
      exact .of_commit h move

theorem submitForReview_ok (hc : db.Checks) {receipt : Option String}
    (h : submitForReview c actor paymentId receipt now db = .ok db') : Transaction may db db' := by
  simp only [submitForReview, Except.bind_ok] at h
  obtain ⟨o, hrows, h⟩ := h
  obtain ⟨hp, -⟩ := lockedOwnedPayment_ok hrows
  split at h
  · simp only [Except.bind_ok, Except.pure_ok] at h
    obtain ⟨-, -, rfl⟩ := h
    exact .refl hc
  · simp only [Except.bind_ok] at h
    obtain ⟨-, -, h⟩ := h
    refine .of_commit h (.payment paymentId o.payment _ hp ?_ ?_ _ _ .refl)
    · -- with a receipt or without, the money is not touched
      cases receipt <;> exact ⟨⟨rfl, rfl, rfl, rfl, rfl, rfl⟩, rfl, .inr rfl, .inl rfl⟩
    · cases receipt <;> exact .inl

end ManualPrepaymentService

namespace PaymentAdminService

variable {actor : Int} {paymentId : Nat} {reason : Option String}

theorem rejectManual_ok (hb : Booked db) (hc : db.Checks)
    (h : rejectManual c actor paymentId reason now db = .ok db') : Transaction may db db' := by
  obtain ⟨σ, hA⟩ := hb.book
  simp only [rejectManual, Except.bind_ok, Except.orRaise_ok, Except.require_ok, exists_const] at h
  obtain ⟨liveActor, -, -, p, hp, a, ha, -, -, user, -, h⟩ := h
  split at h
  · cases h
    exact .refl hc
  · simp only [Except.bind_ok, Except.orRaise_ok, Except.require_ok, requirePaymentTransition_ok,
      ensureAppointmentTransition_ok, ensureReservationTransition_ok, exists_const] at h
    obtain ⟨⟨-, -, unpaid⟩, ⟨j, r⟩, hfound, -, w, window, -, -, -, h⟩ := h
    obtain ⟨row, belongs, live⟩ := Db.activeForAppointment_row hfound
    obtain ⟨pending, agrees⟩ := hA.pending_of_live row live belongs ha
    have reserved := hA.reserved_of_live row live window
    rw [if_pos (by rw [reserved]; rfl)] at h
    have never : ∀ x q, db.payments.row x = some q → q.appointmentId = p.appointmentId → q.status ≠ .succeeded := by
      intro x q hq of hs
      obtain rfl := hb.links.payment_once x paymentId q p _ hq hp rfl (congrArg some of.symm)
      rw [hp] at hq; cases hq
      rw [unpaid] at hs; cases hs
    refine .of_commit h (.releaseHold r.windowId w p.appointmentId a j r .cancelledByAdmin _ _ _ window ha row rfl
      pending live belongs agrees ?_ ?_ (.inr rfl) ?_ ?_ never (.inr ⟨paymentId, p, _, hp, rfl, unpaid, ?_, ?_, rfl⟩)
      _ _ (.moved ha (AppointmentStatus.allowed_of_pending pending (.inr (.inr rfl))) rfl rfl ?_) ?_)
    · exact ⟨rfl, rfl, rfl, rfl, rfl, rfl, rfl⟩
    · rfl
    · exact .inr rfl
    · exact belongs
    · exact .inr rfl
    · exact ⟨⟨rfl, rfl, rfl, rfl, rfl, rfl⟩, rfl, .inr rfl, .inr ⟨.inr unpaid, by simp⟩⟩
    · rfl
    · rfl

end PaymentAdminService

end SalonBooking
