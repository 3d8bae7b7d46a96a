import SalonBooking.Moves.Steps
import SalonBooking.Services.Booking

/-!
# One appointment for a checkout key

A call of `book` is a check of its key and, when no reservation carries it, a booking transaction later on. Only a
booking with prepayment stores the key, in its reservation. A booking that needs no prepayment leaves nothing that
a repeated call could find: the key holds as long as both bookings are prepaid, or the slot is still taken.
-/

namespace SalonBooking

open Lib

/-- Two versions of one reservation: its key and its appointment. -/
def SameKey (r r' : Reservation) : Prop :=
  r'.idempotencyKey = r.idempotencyKey ∧ r'.appointmentId = r.appointmentId

theorem SameKey.refl (r : Reservation) : SameKey r r := ⟨rfl, rfl⟩

theorem SameKey.trans {r s t : Reservation} (h : SameKey r s) (h' : SameKey s t) : SameKey r t :=
  ⟨h'.1.trans h.1, h'.2.trans h.2⟩

variable {may : Db → Effect → Prop} {db db' : Db}

theorem keys_of_move (h : Move may db db') : db.reservations.Keeps SameKey db'.reservations := by
  have same : db.reservations.Keeps SameKey db.reservations := .refl .refl
  cases h with
  | hold => exact .insert .refl
  | confirmHold k w i a j r t window appointment reservation => exact .put .refl reservation ⟨rfl, rfl⟩
  | releaseHold k w i a j r t a' r' payments window appointment reservation at_window pending live belongs
      agrees sameb status ended gone gone_belongs unpaid money events history log key =>
    exact .put .refl reservation ⟨key, gone_belongs.trans belongs.symm⟩
  | report i a j r pid p q t appointment reservation => exact .put .refl reservation ⟨rfl, rfl⟩
  | reassign i a w k' w' staff reservations row occupies window target other free follows =>
    cases follows with
    | none => exact same
    | some j r row belongs => exact .put .refl row ⟨rfl, rfl⟩
  | _ => exact same

theorem keys_of_moves (h : Moves may db db') : db.reservations.Keeps SameKey db'.reservations := by
  induction h with
  | refl => exact .refl .refl
  | tail _ last ih => exact ih.trans (fun _ _ _ => .trans) (keys_of_move last)

/-! ### What a booking leaves -/

namespace BookingService

variable {c : Catalog} {telegramId : Int} {values : BookingRequest} {now : Int} {allow : Bool}
  {override : Option BookingLimitOverride} {plan : BookingPlan} {checkout : CheckoutResult}

theorem create_key (hl : Links db) {a : Appointment} {rc : ReservationCreate} {digest : String} {result : Nat × Bool}
    {db₁ : Db} (belongs : rc.appointmentId = some db.appointments.next)
    (h : ReservationService.create rc digest now (db.addAppointment a) = .ok (result, db₁)) :
    (∀ j r, db.reservations.row j = some r → r.idempotencyKey ≠ rc.idempotencyKey) ∧
      ∃ r, db₁.reservations.row db.reservations.next = some r ∧ r.idempotencyKey = rc.idempotencyKey := by
  unfold ReservationService.create at h
  split at h
  · next reservationId existing hfound =>
    obtain ⟨row, -⟩ := Table.find_eq_some hfound
    simp only [ReservationService.requireSameReservation, Except.bind_ok, Except.require_ok, exists_const] at h
    exact absurd (h.1.2.2.2.2.1.trans belongs) (hl.reservation_new reservationId existing row)
  · next hnone =>
    simp only [belongs, ReservationService.requiredWindow, ReservationService.requiredAppointment,
      ReservationService.requireAppointmentMatches, Except.bind_ok, Except.orRaise_ok, Except.require_ok,
      Except.pure_ok, exists_const, Prod.mk.injEq] at h
    obtain ⟨w, -, -, -, -, a', -, -, -, _, rfl, -, rfl⟩ := h
    refine ⟨fun j r row same => ?_, _, Table.row_insert_self, rfl⟩
    have absent := Table.find_eq_none.mp hnone j r row
    simp [same] at absent

theorem placeBooking_creates (hl : Links db)
    (h : placeBooking c plan values now db = .ok (checkout, db')) :
    checkout.appointmentId = db.appointments.next ∧
      (∃ a, db'.appointments.row db.appointments.next = some a ∧ a.paymentModeSnapshot = plan.mode) ∧
      (plan.mode ≠ .disabled →
        (∀ j r, db.reservations.row j = some r → r.idempotencyKey ≠ values.checkoutIdempotencyKey) ∧
        ∃ j r, db'.reservations.row j = some r ∧ r.idempotencyKey = values.checkoutIdempotencyKey) := by
  unfold placeBooking at h
  split at h
  · next mode =>
    simp only [Except.bind_ok, Except.pure_ok, Prod.mk.injEq] at h
    obtain ⟨_, rfl, db₂, hcommit, rfl, rfl⟩ := h
    obtain ⟨-, rfl⟩ := Db.commit_ok.mp hcommit
    exact ⟨rfl, ⟨newAppointment plan values, Table.row_insert_self, rfl⟩, fun prepaid => absurd mode prepaid⟩
  · simp only [Except.bind_ok, Except.pure_ok, Prod.mk.injEq] at h
    obtain ⟨⟨checkout₁, db₁⟩, hcheckout, db₂, hcommit, rfl, rfl⟩ := h
    obtain ⟨-, rfl⟩ := Db.commit_ok.mp hcommit
    simp only [openCheckout, ReservationService.requiredReservation, Except.bind_ok, Except.orRaise_ok, Except.pure_ok,
      Prod.mk.injEq] at hcheckout
    obtain ⟨settings, -, digest, -, ⟨⟨reservationId, fresh⟩, db₃⟩, hcreate, r', hr', -, -, -, -, payment, -, rfl, rfl⟩ :=
      hcheckout
    obtain ⟨new, r, row, key⟩ := create_key hl rfl hcreate
    obtain ⟨w, -, -, r₁, -, -, -, -, -, -, -, t, rfl⟩ := create_new hl rfl hcreate
    exact ⟨rfl, ⟨_, Table.row_insert_self, rfl⟩, fun _ => ⟨new, _, r, row, key⟩⟩

theorem book_creates (hl : Links db) (h : book c telegramId values now allow override db = .ok (checkout, db')) :
    ∃ plan, bookingPlan c telegramId values now allow override db = .ok plan ∧
      checkout.appointmentId = db.appointments.next ∧
      (∃ a, db'.appointments.row db.appointments.next = some a ∧ a.paymentModeSnapshot = plan.mode) ∧
      (plan.mode ≠ .disabled →
        (∀ j r, db.reservations.row j = some r → r.idempotencyKey ≠ values.checkoutIdempotencyKey) ∧
        ∃ j r, db'.reservations.row j = some r ∧ r.idempotencyKey = values.checkoutIdempotencyKey) := by
  simp only [book, Except.mapError_ok, Except.bind_ok] at h
  obtain ⟨plan, hplan, h⟩ := h
  exact ⟨plan, hplan, placeBooking_creates hl h⟩

end BookingService

/-! ### Calls -/

/-- An appointment that a call has created, with the add-ons stored with it. -/
structure Created where
  telegramId : Int
  key : String
  appointmentId : Nat
  addonIds : List Nat
  deriving DecidableEq

/-- The system with the calls of `book` that are past their check, and what calls have created so far. -/
structure Desk where
  sys : Sys
  admitted : List (Int × BookingRequest)
  created : List Created

inductive DeskOp
  /-- `_existing_checkout` of a call. -/
  | check (telegramId : Int) (values : BookingRequest)
  /-- The booking transaction of an admitted call. -/
  | book (call : Nat) (allowSelfBookingBlocked : Bool) (override : Option BookingLimitOverride)
  /-- Any other transaction, also the payment of a checkout that was found again. -/
  | other (cmd : Cmd)

structure DeskLabel where
  catalog : Catalog
  now : Int
  op : DeskOp

def Cmd.isBook : Cmd → Bool
  | book .. => true
  | _ => false

namespace Desk

def empty : Desk := ⟨.empty, [], []⟩

/-- `appointment_addon_snapshots`. -/
def addonSnapshots (d : Desk) (appointmentId : Nat) : List Nat :=
  ((d.created.find? fun e => e.appointmentId = appointmentId).map (·.addonIds)).getD []

def step (d : Desk) (x : DeskLabel) : Desk :=
  match x.op with
  | .check telegramId values =>
    match BookingService.existingCheckout x.catalog telegramId values d.addonSnapshots d.sys.db with
    | .ok none => { d with admitted := d.admitted ++ [(telegramId, values)] }
    | _ => d
  | .book call allow override =>
    match d.admitted[call]? with
    | none => d
    | some (telegramId, values) =>
      match BookingService.book x.catalog telegramId values x.now allow override d.sys.db with
      | .error _ => { d with admitted := d.admitted.eraseIdx call }
      | .ok (checkout, db) =>
        { sys := { d.sys with db }
          admitted := d.admitted.eraseIdx call
          created := d.created ++ [⟨telegramId, values.checkoutIdempotencyKey, checkout.appointmentId, values.addonIds⟩] }
  | .other cmd => if cmd.isBook then d else { d with sys := d.sys.step ⟨x.catalog, x.now, cmd⟩ }

def after (l : List DeskLabel) : Desk := run step empty l

/-- A booking whose checks pass repeats the key of an earlier one of the same client only where both are prepaid. -/
def RepeatsPrepaid (d : Desk) (x : DeskLabel) : Prop :=
  match x.op with
  | .book call allow override =>
    ∀ r ∈ d.admitted[call]?,
      ∀ plan ∈ (BookingService.bookingPlan x.catalog r.1 r.2 x.now allow override d.sys.db).toOption,
        ∀ e ∈ d.created, e.telegramId = r.1 → e.key = r.2.checkoutIdempotencyKey →
          plan.mode ≠ .disabled ∧ ∀ a ∈ d.sys.db.appointments.row e.appointmentId, a.paymentModeSnapshot ≠ .disabled
  | _ => True

instance (d : Desk) : (x : DeskLabel) → Decidable (RepeatsPrepaid d x)
  | ⟨_, _, .check ..⟩ | ⟨_, _, .other _⟩ => inferInstanceAs (Decidable True)
  | ⟨_, _, .book ..⟩ => inferInstanceAs (Decidable (∀ r ∈ _, _))

structure Orderly (d : Desk) : Prop where
  sound : d.sys.Sound
  known : ∀ e ∈ d.created, ∃ a, d.sys.db.appointments.row e.appointmentId = some a ∧ (a.paymentModeSnapshot ≠ .disabled →
    ∃ j r, d.sys.db.reservations.row j = some r ∧ r.idempotencyKey = e.key)
  once : (d.created.map fun e => (e.telegramId, e.key)).Nodup

theorem orderly_empty : Orderly empty := ⟨Sys.sound_empty, fun _ h => absurd h List.not_mem_nil, .nil⟩

theorem known_of_transaction {created : List Created} (h : Transaction may db db')
    (known : ∀ e ∈ created, ∃ a, db.appointments.row e.appointmentId = some a ∧ (a.paymentModeSnapshot ≠ .disabled →
      ∃ j r, db.reservations.row j = some r ∧ r.idempotencyKey = e.key)) :
    ∀ e ∈ created, ∃ a, db'.appointments.row e.appointmentId = some a ∧ (a.paymentModeSnapshot ≠ .disabled →
      ∃ j r, db'.reservations.row j = some r ∧ r.idempotencyKey = e.key) := by
  intro e he
  obtain ⟨a, row, stored⟩ := known e he
  obtain ⟨a', row', origin⟩ := (Kept.of_moves h.moves).appointments _ a row
  refine ⟨a', row', fun prepaid => ?_⟩
  obtain ⟨j, r, hr, key⟩ := stored (origin.paymentModeSnapshot ▸ prepaid)
  obtain ⟨r', hr', same⟩ := keys_of_moves h.moves j r hr
  exact ⟨j, r', hr', same.1.trans key⟩

theorem Orderly.step {d : Desk} (h : Orderly d) {x : DeskLabel} (guard : RepeatsPrepaid d x) : Orderly (d.step x) := by
  obtain ⟨c, now, op⟩ := x
  cases op with
  | check telegramId values =>
    unfold Desk.step
    dsimp only
    split
    · exact ⟨h.sound, h.known, h.once⟩
    · exact h
  | book call allow override =>
    unfold Desk.step
    dsimp only
    cases hcall : d.admitted[call]? with
    | none => exact h
    | some tv =>
      obtain ⟨telegramId, values⟩ := tv
      dsimp only
      cases hbook : BookingService.book c telegramId values now allow override d.sys.db with
      | error e => exact ⟨h.sound, h.known, h.once⟩
      | ok result =>
        obtain ⟨checkout, db'⟩ := result
        have links := h.sound.booked.links
        have transaction : Transaction (fun _ _ => True) d.sys.db db' :=
          BookingService.book_ok links (fun _ _ _ => trivial) hbook
        obtain ⟨plan, hplan, hid, ⟨a, row, mode⟩, stores⟩ := BookingService.book_creates links hbook
        refine ⟨h.sound.of_continues (.db transaction), fun e he => ?_, ?_⟩
        · rcases List.mem_append.mp he with he | he
          · exact known_of_transaction transaction h.known e he
          · obtain rfl := List.mem_singleton.mp he
            refine ⟨a, by rw [hid]; exact row, fun prepaid => ?_⟩
            exact (stores (mode ▸ prepaid)).2
        · rw [List.map_append, List.nodup_append]
          refine ⟨h.once, List.nodup_singleton _, fun pair hpair pair' hpair' same => ?_⟩
          -- an earlier booking under the key has stored it, and then this one is refused
          obtain ⟨e, he, rfl⟩ := List.mem_map.mp hpair
          obtain rfl := List.mem_singleton.mp hpair'
          obtain ⟨client, key⟩ := Prod.mk.inj same
          obtain ⟨prepaid, earlier⟩ := guard (telegramId, values) hcall plan (by rw [hplan]; rfl) e he client key
          obtain ⟨a', row', stored⟩ := h.known e he
          obtain ⟨j, r, hr, hkey⟩ := stored (earlier a' row')
          exact (stores prepaid).1 j r hr (hkey.trans key)
  | other cmd =>
    unfold Desk.step
    dsimp only
    split
    · exact h
    · have continues : Sys.Continues (fun _ _ => True) d.sys (d.sys.step ⟨c, now, cmd⟩) :=
        Sys.step_continues h.sound fun _ _ => trivial
      exact ⟨Sys.sound_step h.sound _, known_of_transaction continues.transaction h.known, h.once⟩

/-- Where a key is repeated only between prepaid bookings, the calls of a client under one key create at most one
appointment, whatever happens to it in between. -/
theorem one_appointment_per_key (l : List DeskLabel) (h : Guarded step RepeatsPrepaid empty l) (telegramId : Int)
    (key : String) : (after l).created.countP (fun e => e.telegramId = telegramId ∧ e.key = key) ≤ 1 := by
  have orderly : Orderly (after l) := run_induction (fun _ _ hd guard => hd.step guard) orderly_empty l h
  have once := List.nodup_iff_count_le_one.mp orderly.once (telegramId, key)
  rw [List.count_eq_countP, List.countP_map] at once
  refine le_trans (List.countP_mono_left fun e _ he => ?_) once
  obtain ⟨rfl, rfl⟩ := of_decide_eq_true he
  exact beq_self_eq_true _

/-- The request that a client sends for a window, and sends again. -/
def requestFor (client : Int) (window : Nat) : BookingRequest :=
  ⟨1, [], window, none, none, [], Salon.checkoutKey client, "reservation-token-0000000000000" ++ toString client⟩

/-- A call of a client: the check of the key and the booking transaction. -/
def callOf (c : Catalog) (client : Int) (window : Nat) (now : Int) : List DeskLabel :=
  [⟨c, now, .check client (requestFor client window)⟩, ⟨c, now, .book 0 false none⟩]

/-- A booking without prepayment that is cancelled by its client, and the same call once more. -/
def repeatedAfterCancel : List DeskLabel :=
  [⟨salon .disabled, 0, .other (Salon.openWindow 10)⟩] ++ callOf (salon .disabled) 2 1 (minutes 1) ++
    [⟨salon .disabled, minutes 2, .other (.endVisit (.cancelMy 2 none) 1)⟩] ++ callOf (salon .disabled) 2 1 (minutes 3)

/-- The same request creates a second appointment. -/
theorem repeat_books_again :
    (after repeatedAfterCancel).created.countP (fun e => e.telegramId = 2 ∧ e.key = Salon.checkoutKey 2) = 2 ∧
      ((after repeatedAfterCancel).sys.db.appointments.row 1).map (fun a => (a.clientId, a.status)) =
        some (2, .cancelledByClient) ∧
      ((after repeatedAfterCancel).sys.db.appointments.row 2).map (fun a => (a.clientId, a.status)) =
        some (2, .confirmed) := by
  decide +kernel

/-- Two calls with prepayment at once, whose hold expires, and the same call once more. -/
def repeatedAfterExpiry : List DeskLabel :=
  let c := salon .yookassa
  [⟨c, 0, .other (Salon.openWindow 10)⟩, ⟨c, minutes 1, .check 2 (requestFor 2 1)⟩] ++ callOf c 2 1 (minutes 1) ++
    [⟨c, minutes 1, .book 0 false none⟩, ⟨c, minutes 17, .other (.expiryCycle 10 [])⟩] ++ callOf c 2 1 (minutes 18)

theorem one_appointment_per_key_expired :
    (after repeatedAfterExpiry).created.countP (fun e => e.telegramId = 2 ∧ e.key = Salon.checkoutKey 2) ≤ 1 ∧
      ((after repeatedAfterExpiry).sys.db.appointments.row 1).map (·.status) = some .paymentExpired := by
  have guarded : Guarded step RepeatsPrepaid empty repeatedAfterExpiry := by decide +kernel
  exact ⟨one_appointment_per_key repeatedAfterExpiry guarded 2 (Salon.checkoutKey 2), by decide +kernel⟩

end Desk

end SalonBooking
