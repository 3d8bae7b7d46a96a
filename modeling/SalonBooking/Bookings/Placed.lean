import SalonBooking.Lib.Counts
import SalonBooking.Moves.Steps

/-!
# Where appointments go

Booking, rescheduling and the reassignment to another master put an appointment on a window. Each of them has one
lemma here that says which appointment rows a committed transaction leaves behind. Every other move leaves an
appointment on its window, with its client and its time, and takes none back into a status that occupies.
-/

namespace SalonBooking

open Lib

/-! ### Appointments that are only continued -/

/-- The row `a'` continues the booking of the row `a`. -/
structure Continued (a' a : Appointment) : Prop where
  clientId : a'.clientId = a.clientId
  start : a'.scheduledStartAt = a.scheduledStartAt
  occupies : a'.status.occupies = true → a.status.occupies = true
  cancelled : a'.status = .cancelledByClient →
    a.status.occupies = true ∨ a.status = .cancelledByClient ∧ a'.cancelledAt = a.cancelledAt

namespace Continued

variable {a b c : Appointment}

theorem refl (a : Appointment) : Continued a a := ⟨rfl, rfl, id, fun h => .inr ⟨h, rfl⟩⟩

theorem trans (h : Continued a b) (h' : Continued b c) : Continued a c where
  clientId := h.clientId.trans h'.clientId
  start := h.start.trans h'.start
  occupies := fun occupies => h'.occupies (h.occupies occupies)
  cancelled := fun cancelled => by
    rcases h.cancelled cancelled with occupied | ⟨before, at_⟩
    · exact .inl (h'.occupies occupied)
    · rcases h'.cancelled before with occupied | ⟨first, at'⟩
      · exact .inl occupied
      · exact .inr ⟨first, at_.trans at'⟩

theorem of_occupies (occupies : a.status.occupies = true) (clientId : b.clientId = a.clientId)
    (start : b.scheduledStartAt = a.scheduledStartAt) : Continued b a :=
  ⟨clientId, start, fun _ => occupies, fun _ => .inl occupies⟩

theorem of_refund {s : AppointmentStatus} (refund : s.isRefund = true) : Continued { a with status := s } a where
  clientId := rfl
  start := rfl
  occupies := fun occupies => by cases s <;> cases refund <;> cases occupies
  cancelled := fun cancelled => by
    rw [show s = .cancelledByClient from cancelled] at refund
    cases refund

end Continued

/-- Every appointment continues one on the same window, but for a reassignment. -/
def Db.Continues (may : Db → Effect → Prop) (db db' : Db) : Prop :=
  db'.appointments.Keeps (fun a' a => Continued a' a ∧ (a'.windowId = a.windowId ∨ ∃ d, may d .transfer)) db.appointments

namespace Db.Continues

variable {may : Db → Effect → Prop} {db db' db'' : Db} {i : Nat} {a b : Appointment}

theorem refl (h : db'.appointments = db.appointments) : db.Continues may db' := by
  unfold Continues
  rw [h]
  exact .refl fun a => ⟨.refl a, .inl rfl⟩

theorem trans (h : db.Continues may db') (h' : db'.Continues may db'') : db.Continues may db'' := by
  refine Table.Keeps.trans (fun a b c hab hbc => ⟨hab.1.trans hbc.1, ?_⟩) h' h
  rcases hab.2 with same | moved
  · exact hbc.2.imp_left same.trans
  · exact .inr moved

theorem put (row : db.appointments.row i = some a) (h : db'.appointments = db.appointments.put i b)
    (continued : Continued b a) (window : b.windowId = a.windowId ∨ ∃ d, may d .transfer) : db.Continues may db' := by
  unfold Continues
  rw [h]
  exact .put_back (fun a => ⟨.refl a, .inl rfl⟩) row ⟨continued, window⟩

theorem sync {t? : Option AppointmentStatus} (target : ∀ t ∈ t?, t.isRefund = true)
    (h : RefundSync db.appointments i t? db'.appointments) : db.Continues may db' := by
  generalize hd : db'.appointments = appointments at h
  cases h with
  | none => exact .refl hd
  | already a row => exact .refl hd
  | edge a t row edge => exact .put row hd (.of_refund (target t rfl)) (.inl rfl)

end Db.Continues

theorem Move.continues {may : Db → Effect → Prop} {db db' : Db} (none : ∀ d w i, ¬ may d (.accept w i))
    (hm : Move may db db') : db.Continues may db' := by
  have occupied : ∀ {a : Appointment}, a.status.isPending = true ∨ a.status.isActive = true → a.status.occupies = true :=
    fun h => (AppointmentStatus.occupies_iff _).mpr h
  cases hm with
  | place k w a row free window status mode origin events history log admitted => exact absurd admitted.allowed (none _ _ _)
  | hold k w a r p row free window status mode origin live appointmentId agrees payment created provider unrefunded
      unpaid money events history log admitted =>
    exact absurd admitted.allowed (none _ _ _)
  | reschedule i a w k' w' b s row active window target other free left at_target status origin mode client events
      history log admitted =>
    exact absurd admitted.allowed (none _ _ _)
  | confirmHold k w i a j r t window appointment reservation at_window pending =>
    exact .put appointment rfl (.of_occupies (occupied (.inl pending)) rfl rfl) (.inl rfl)
  | releaseHold k w i a j r t a' r' payments window appointment reservation at_window pending live belongs agrees same =>
    exact .put appointment rfl (.of_occupies (occupied (.inl pending)) same.clientId same.scheduledStartAt)
      (.inl same.windowId)
  | report i a j r pid p q t appointment reservation pending =>
    exact .put appointment rfl (.of_occupies (occupied (.inl pending)) rfl rfl) (.inl rfl)
  | confirmVisit i a t row status =>
    exact .put row rfl (.of_occupies (occupied (.inr (by rw [status]; rfl))) rfl rfl) (.inl rfl)
  | endVisit w i a a' s row active window same =>
    exact .put row rfl (.of_occupies (occupied (.inr active)) same.clientId same.scheduledStartAt) (.inl same.windowId)
  | reassign i a w k' w' staff reservations row occupies window target other free follows events history log start moved =>
    exact .put row rfl (.of_occupies occupies rfl rfl) (.inr moved)
  | request pid p r appointments row allowed status of pending positive room sync =>
    exact .sync (by rintro t ⟨⟩; rfl) sync
  | result pid p q x c c' r s appointments t? payment refund allowed of same step applied target sync =>
    refine .sync (fun t ht => ?_) sync
    rcases target with rfl | ⟨rfl, -⟩
    · exact isRefund_of_syncTarget ht
    · cases ht
  | _ => exact .refl rfl

theorem Moves.continues {may : Db → Effect → Prop} {db db' : Db} (none : ∀ d w i, ¬ may d (.accept w i))
    (hm : Moves may db db') : db.Continues may db' := by
  induction hm with
  | refl => exact .refl rfl
  | tail before last ih => exact ih.trans (last.continues none)

/-! ### Booking -/

variable {c : Catalog} {db db' : Db} {now : Int}

namespace BookingService

variable {telegramId : Int} {values : BookingRequest} {allow : Bool} {override : Option BookingLimitOverride}
  {plan : BookingPlan} {checkout : CheckoutResult}

theorem bookingPlan_checks (h : bookingPlan c telegramId values now allow override db = .ok plan) :
    (∃ settings, c.settings = some settings ∧
      enforceFutureBookingLimit c db settings plan.clientId now override = .ok ()) ∧
    ∃ assignment, bookableMaster c plan.window values.serviceId = .ok assignment := by
  simp only [bookingPlan, Catalog.requireSettings, Except.bind_ok, Except.require_ok, Except.orRaise_ok,
    exists_const, Except.pure_ok] at h
  obtain ⟨-, -, -, -, -, settings, configured, -, w, -, -, -, h⟩ := h
  obtain ⟨clientId, -, _, limit, service, -, assignment, bookable, -, -, -, -, -, -, -, -, -, -, -, -,
    -, -, -, -, -, -, -, rfl⟩ := h
  exact ⟨⟨settings, configured, limit⟩, assignment, bookable⟩

theorem book_places (hl : Links db) (h : book c telegramId values now allow override db = .ok (checkout, db')) :
    ∃ plan t, bookingPlan c telegramId values now allow override db = .ok plan ∧
      db'.appointments = db.appointments.insert { newAppointment plan values with reservationExpiresAt := t } := by
  simp only [book, Except.mapError_ok, Except.bind_ok] at h
  obtain ⟨plan, hplan, h⟩ := h
  unfold placeBooking at h
  split at h
  · simp only [Except.bind_ok, Except.pure_ok, Prod.mk.injEq] at h
    obtain ⟨_, rfl, db₂, hcommit, -, rfl⟩ := h
    obtain ⟨-, rfl⟩ := Db.commit_ok.mp hcommit
    exact ⟨plan, none, hplan, rfl⟩
  · simp only [Except.bind_ok, Except.pure_ok, Prod.mk.injEq] at h
    obtain ⟨⟨checkout₁, db₁⟩, hcheckout, db₂, hcommit, -, rfl⟩ := h
    obtain ⟨-, rfl⟩ := Db.commit_ok.mp hcommit
    simp only [openCheckout, Except.bind_ok, Except.orRaise_ok, Except.pure_ok, Prod.mk.injEq] at hcheckout
    obtain ⟨settings, -, digest, -, ⟨⟨reservationId, fresh⟩, db₃⟩, hcreate, -, -, -, -, -, -, payment, -, -, rfl⟩ :=
      hcheckout
    obtain ⟨w, -, -, r, -, -, -, -, -, -, -, t, rfl⟩ := create_new hl rfl hcreate
    exact ⟨plan, t, hplan, rfl⟩

end BookingService

/-! ### Rescheduling -/

namespace RescheduleService

variable {actor : RescheduleActor} {appointmentId newWindowId : Nat}

/-- A reschedule leaves the appointment and adds its successor on the new window. -/
theorem reschedule_places (h : reschedule c actor appointmentId newWindowId now db = .ok db') :
    ∃ a w' workstationId, db.appointments.row appointmentId = some a ∧ a.status.isActive = true ∧
      db.windows.row newWindowId = some w' ∧ now < w'.startAt ∧
      db'.appointments = (db.appointments.put appointmentId { a with status := .rescheduled }).insert
        (successor appointmentId newWindowId a w' workstationId) := by
  simp only [reschedule, AppointmentService.requireAppointment, Except.bind_ok, Except.orRaise_ok, Except.mapError_ok,
    Db.commit_ok, Except.require_ok, exists_const] at h
  obtain ⟨settings, -, a, row, -, -, userId, -, w, -, w', target, -, change, decided, -, rfl⟩ := h
  simp only [decide, Except.bind_ok, ensureActiveAppointment_ok, Except.require_ok, Except.orRaise_ok,
    Except.pure_ok, exists_const] at decided
  obtain ⟨active, -, -, -, ⟨-, later⟩, -, -, day, -, -, -, -, workstationId, -, -, -, rfl⟩ := decided
  exact ⟨a, w', workstationId, row, active, target, not_le.mp later, rfl⟩

end RescheduleService

/-! ### Reassigning -/

namespace StaffRepository

variable {sourceStaffId targetId : Nat}

/-- The row of an appointment after its round. -/
def Round.moved (targetId : Nat) (m : Round) : Appointment := { m.1.2 with staffMemberId := targetId, windowId := m.2.1 }

theorem reassignOne_appointments {m : Round} (h : reassignOne targetId db m = .ok db') :
    db'.appointments = db.appointments.put m.1.1 (Round.moved targetId m) := by
  simp only [reassignOne, Except.bind_ok, Except.orRaise_ok] at h
  obtain ⟨w, -, h⟩ := h
  split at h <;> cases h <;> rfl

/-- A reassignment takes every future appointment of the master to the open window of the target master at its
time, and leaves the others where they are. -/
theorem reassign_places (h : reassignFutureAppointments c sourceStaffId targetId now db = .ok db') :
    ∃ rounds : List Round, rounds.map Prod.fst = futureAppointments db sourceStaffId now ∧
      (∀ m ∈ rounds, exactWindow db targetId m.1.2 = some m.2) ∧
      (∀ m ∈ rounds, db'.appointments.row m.1.1 = some (Round.moved targetId m)) ∧
      ∀ i a', db'.appointments.row i = some a' →
        db.appointments.row i = some a' ∨ ∃ m ∈ rounds, m.1.1 = i ∧ a' = Round.moved targetId m := by
  obtain ⟨-, rounds, moved, facts, h⟩ := rounds_of_reassign h
  have row : ∀ m ∈ rounds, db.appointments.row m.1.1 = some m.1.2 := fun m hm =>
    (mem_futureAppointments.mp (facts m hm).1).1
  -- an appointment has one round
  have once : ∀ m ∈ rounds, ∀ n ∈ rounds, m.1.1 = n.1.1 → m = n := by
    rintro ⟨⟨i, a⟩, kw⟩ hm ⟨⟨j, b⟩, kw'⟩ hn (rfl : i = j)
    have ha := row _ hm
    rw [row _ hn, Option.some.injEq] at ha
    obtain rfl : b = a := ha
    have hw := (facts _ hm).2
    rw [(facts _ hn).2, Option.some.injEq] at hw
    obtain rfl : kw' = kw := hw
    rfl
  have result := Except.foldlM_ok (I := fun l s => (∀ m ∈ l, m ∈ rounds) ∧
      (∀ i, s.appointments.row i = none → db.appointments.row i = none) ∧
      (∀ m ∈ rounds, m ∈ l ∨ s.appointments.row m.1.1 = some (Round.moved targetId m)) ∧
      ∀ i a', s.appointments.row i = some a' →
        db.appointments.row i = some a' ∨ ∃ m ∈ rounds, m.1.1 = i ∧ a' = Round.moved targetId m)
    ?_ ⟨fun _ hm => hm, fun _ => id, fun _ => .inl, fun _ _ => .inl⟩ h
  · refine ⟨rounds, moved, fun m hm => (facts m hm).2, fun m hm => ?_, result.2.2.2⟩
    rcases result.2.2.1 m hm with hnil | done
    · cases hnil
    · exact done
  · rintro m l s s' ⟨members, kept, done, rows⟩ hround
    have hm := members m List.mem_cons_self
    have appointments := reassignOne_appointments hround
    obtain ⟨b, present⟩ : ∃ b, s.appointments.row m.1.1 = some b := by
      rw [← Option.ne_none_iff_exists']
      intro none
      have before := row m hm
      rw [kept _ none] at before
      cases before
    have here : s'.appointments.row m.1.1 = some (Round.moved targetId m) := by
      rw [appointments]
      exact Table.row_put_self present
    have there : ∀ i, i ≠ m.1.1 → s'.appointments.row i = s.appointments.row i := by
      intro i hi
      rw [appointments, Table.row_put_ne hi]
    refine ⟨fun n hn => members n (List.mem_cons_of_mem m hn), fun i none => ?_, fun n hn => ?_, fun i a' hrow => ?_⟩
    · by_cases hi : i = m.1.1
      · rw [hi, here] at none
        cases none
      · exact kept i (there i hi ▸ none)
    · by_cases hkey : n.1.1 = m.1.1
      · rw [once n hn m hm hkey]
        exact .inr here
      · rcases done n hn with hmem | hrow
        · rcases List.mem_cons.mp hmem with rfl | hmem
          · exact absurd rfl hkey
          · exact .inl hmem
        · rw [there _ hkey]
          exact .inr hrow
    · by_cases hi : i = m.1.1
      · rw [hi, here, Option.some.injEq] at hrow
        exact .inr ⟨m, hm, hi.symm, hrow.symm⟩
      · exact rows i a' (there i hi ▸ hrow)

end StaffRepository

end SalonBooking
