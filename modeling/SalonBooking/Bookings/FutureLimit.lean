import SalonBooking.Bookings.Placed

/-!
# The limit of future bookings

A booking counts the client's appointments ahead before it adds one. Nothing else adds one, but a reschedule
moves an appointment to another time, and it does not count: an appointment from outside the horizon can come
within it while the client already has as many there as the settings allow.
-/

namespace SalonBooking

open Lib

/-! ### What is counted -/

namespace BusinessSettings

variable (settings : BusinessSettings)

def limitsFutureBookings : Bool := settings.futureBookingLimitEnabled.getD true

/-- How many appointments a client may have within the horizon. -/
def futureBookingMaximum : Nat := BookingService.orDefault settings.futureBookingLimitMax 4

/-- The instant is within the horizon. -/
def isAhead (now t : Int) : Bool :=
  decide (now ≤ t) && decide (t < now + days (BookingService.orDefault settings.futureBookingLimitHorizonDays 30))

end BusinessSettings

/-- The appointment counts for this client, and it starts within the horizon. -/
def Appointment.countsAhead (a : Appointment) (settings : BusinessSettings) (clientId : Nat) (now : Int) : Bool :=
  a.clientId == clientId && settings.isAhead now a.scheduledStartAt &&
    (a.status.occupies || (settings.futureBookingCountClientCancellations && a.status == .cancelledByClient &&
      a.cancelledAt.any fun t => decide (now - days 30 ≤ t) && decide (t ≤ now)))

/-- How many of the appointments that count for a client start within the horizon. -/
def Db.ahead (db : Db) (settings : BusinessSettings) (clientId : Nat) (now : Int) : Nat :=
  db.appointments.count fun _ a => a.countsAhead settings clientId now

variable {settings : BusinessSettings} {clientId : Nat} {now : Int} {db db' : Db} {a b : Appointment}

theorem Appointment.countsAhead_of_occupies (occupies : a.status.occupies = true) :
    a.countsAhead settings clientId now = true ↔
      a.clientId = clientId ∧ settings.isAhead now a.scheduledStartAt = true := by
  simp only [countsAhead, occupies, Bool.true_or, Bool.and_true, Bool.and_eq_true, beq_iff_eq]

theorem Appointment.not_countsAhead_rescheduled :
    ({ a with status := .rescheduled } : Appointment).countsAhead settings clientId now = false := by
  simp [countsAhead, AppointmentStatus.occupies]

/-- What `count_for_future_booking_limit` counts. -/
theorem Db.countForFutureBookingLimit_eq {horizonDays : Nat} {includeClientCancellations : Bool} :
    db.countForFutureBookingLimit clientId now horizonDays includeClientCancellations =
      db.appointments.count fun _ a => a.clientId == clientId &&
        ((a.status.occupies && decide (now ≤ a.scheduledStartAt) &&
            decide (a.scheduledStartAt < now + days horizonDays)) ||
          (includeClientCancellations && a.status == .cancelledByClient &&
            a.cancelledAt.any fun t => decide (now - days 30 ≤ t) && decide (t ≤ now))) :=
  rfl

theorem Db.ahead_le_count : db.ahead settings clientId now ≤ db.countForFutureBookingLimit clientId now
    (BookingService.orDefault settings.futureBookingLimitHorizonDays 30)
    settings.futureBookingCountClientCancellations := by
  rw [Db.countForFutureBookingLimit_eq]
  refine Table.count_le fun i a row counts => ⟨a, row, ?_⟩
  simp only [Appointment.countsAhead, BusinessSettings.isAhead, Bool.and_eq_true, Bool.or_eq_true] at counts ⊢
  obtain ⟨⟨client, now_le, lt⟩, occupies | cancelled⟩ := counts
  · exact ⟨client, .inl ⟨⟨occupies, now_le⟩, lt⟩⟩
  · exact ⟨client, .inr cancelled⟩

theorem Continued.countsAhead (h : Continued b a) (counts : b.countsAhead settings clientId now = true) :
    a.countsAhead settings clientId now = true := by
  simp only [Appointment.countsAhead, Bool.and_eq_true, Bool.or_eq_true, beq_iff_eq] at counts ⊢
  obtain ⟨⟨client, start⟩, counted⟩ := counts
  refine ⟨⟨h.clientId ▸ client, h.start ▸ start⟩, ?_⟩
  rcases counted with occupies | ⟨⟨included, cancelled⟩, recent⟩
  · exact .inl (h.occupies occupies)
  · rcases h.cancelled cancelled with occupies | ⟨before, same⟩
    · exact .inl occupies
    · exact .inr ⟨⟨included, before⟩, same ▸ recent⟩

theorem Db.Continues.ahead {may : Db → Effect → Prop} (h : db.Continues may db') :
    db'.ahead settings clientId now ≤ db.ahead settings clientId now := by
  refine Table.count_le fun i b row counts => ?_
  obtain ⟨a, before, continued, -⟩ := h i b row
  exact ⟨a, before, continued.countsAhead counts⟩

/-! ### Booking -/

namespace BookingService

variable {c : Catalog} {telegramId : Int} {values : BookingRequest} {allow : Bool} {checkout : CheckoutResult}

theorem room_of_enforce (enabled : settings.limitsFutureBookings = true)
    (h : enforceFutureBookingLimit c db settings clientId now none = .ok ()) :
    db.countForFutureBookingLimit clientId now (orDefault settings.futureBookingLimitHorizonDays 30)
      settings.futureBookingCountClientCancellations < settings.futureBookingMaximum := by
  unfold enforceFutureBookingLimit at h
  rw [if_pos (show settings.futureBookingLimitEnabled.getD true = true from enabled)] at h
  simp only [Except.require_bind_ok] at h
  obtain ⟨-, h⟩ := h
  split at h
  · next room => exact room
  · simp at h

theorem book_ahead (hl : Links db) (configured : c.settings = some settings)
    (enabled : settings.limitsFutureBookings = true)
    (h : book c telegramId values now allow none db = .ok (checkout, db'))
    (le : db.ahead settings clientId now ≤ settings.futureBookingMaximum) :
    db'.ahead settings clientId now ≤ settings.futureBookingMaximum := by
  obtain ⟨plan, t, hplan, appointments⟩ := book_places hl h
  obtain ⟨⟨settings', configured', limit⟩, -⟩ := bookingPlan_checks hplan
  obtain rfl : settings = settings' := Option.some.inj (configured.symm.trans configured')
  unfold Db.ahead at le ⊢
  rw [appointments, Table.count_insert]
  by_cases client : plan.clientId = clientId
  · have room := lt_of_le_of_lt Db.ahead_le_count (room_of_enforce enabled (client ▸ limit))
    unfold Db.ahead at room
    split <;> omega
  · have other : ({ newAppointment plan values with reservationExpiresAt := t } : Appointment).countsAhead settings
        clientId now = false := by
      simp [Appointment.countsAhead, newAppointment, client]
    rw [other]
    exact le

end BookingService

/-! ### Rescheduling -/

namespace RescheduleService

variable {c : Catalog} {actor : RescheduleActor} {appointmentId newWindowId : Nat}

/-- The appointment comes from outside the horizon, and its new window is within it. -/
def comesAhead (settings : BusinessSettings) (clientId : Nat) (now : Int) (a : Appointment) (w : Window) : Bool :=
  a.clientId == clientId && !settings.isAhead now a.scheduledStartAt && settings.isAhead now w.startAt

theorem reschedule_ahead (h : reschedule c actor appointmentId newWindowId now db = .ok db') :
    ∃ a w, db.appointments.row appointmentId = some a ∧ db.windows.row newWindowId = some w ∧
      if comesAhead settings clientId now a w then
        db'.ahead settings clientId now = db.ahead settings clientId now + 1
      else db'.ahead settings clientId now ≤ db.ahead settings clientId now := by
  obtain ⟨a, w, workstationId, row, active, target, later, appointments⟩ := reschedule_places h
  refine ⟨a, w, row, target, ?_⟩
  have occupies : a.status.occupies = true := (AppointmentStatus.occupies_iff _).mpr (.inr active)
  have before := @Table.count_eq_countOthers _ _ _ (fun _ a => Appointment.countsAhead a settings clientId now) _ row
  have added : (successor appointmentId newWindowId a w workstationId).countsAhead settings clientId now = true ↔
      a.clientId = clientId ∧ settings.isAhead now w.startAt = true := Appointment.countsAhead_of_occupies rfl
  have left : a.countsAhead settings clientId now = true ↔
      a.clientId = clientId ∧ settings.isAhead now a.scheduledStartAt = true :=
    Appointment.countsAhead_of_occupies occupies
  unfold Db.ahead
  rw [appointments, Table.count_insert, Table.count_put row, before, Appointment.not_countsAhead_rescheduled,
    if_neg Bool.false_ne_true, Nat.add_zero]
  by_cases client : a.clientId = clientId
  · by_cases old : settings.isAhead now a.scheduledStartAt = true
    · rw [if_neg (by simp [comesAhead, old]), left.mpr ⟨client, old⟩, if_pos (rfl : true = true)]
      split <;> omega
    · rw [Bool.eq_false_iff.mpr (mt left.mp fun h => old h.2)]
      by_cases new : settings.isAhead now w.startAt = true
      · rw [if_pos (by simp [comesAhead, client, old, new]), added.mpr ⟨client, new⟩]
        simp
      · rw [if_neg (by simp [comesAhead, new]), Bool.eq_false_iff.mpr (mt added.mp fun h => new h.2)]
  · rw [if_neg (by simp [comesAhead, client]), Bool.eq_false_iff.mpr (mt added.mp fun h => client h.1)]
    simp

end RescheduleService

namespace Sys

theorem not_occurs_accept {s : Sys} {x : Label} {w : Window} {i : Option Nat}
    (book : ∀ telegramId values allow override, x.cmd ≠ .book telegramId values allow override)
    (reschedule : ∀ actor appointmentId windowId, x.cmd ≠ .reschedule actor appointmentId windowId) :
    ¬ s.Occurs x (.accept w i) := by
  rintro ⟨-, causes⟩
  obtain ⟨c, now, cmd⟩ := x
  cases cmd with
  | book => exact book _ _ _ _ rfl
  | reschedule => exact reschedule _ _ _ rfl
  | refundFailure => obtain ⟨r, -, ⟨t, he⟩ | he⟩ := submits_of_refundFailure causes <;> cases he
  | refundResult => obtain ⟨r, -, ⟨t, he⟩ | he⟩ := submits_of_refundResult causes <;> cases he
  | _ => simp [Causes] at causes

/-- A transaction that commits leaves no client over the limit who was not over it before. -/
def KeepsLimit (settings : BusinessSettings) (clientId : Nat) (s : Sys) (x : Label) : Prop :=
  ∀ s', s.transact x.catalog x.now x.cmd = .ok s' →
    s.db.ahead settings clientId x.now ≤ settings.futureBookingMaximum →
      s'.db.ahead settings clientId x.now ≤ settings.futureBookingMaximum

theorem KeepsLimit.step {s : Sys} {x : Label} (h : KeepsLimit settings clientId s x)
    (le : s.db.ahead settings clientId x.now ≤ settings.futureBookingMaximum) :
    (s.step x).db.ahead settings clientId x.now ≤ settings.futureBookingMaximum := by
  unfold Sys.step
  cases hx : s.transact x.catalog x.now x.cmd with
  | error e => exact le
  | ok s' => exact h s' hx le

/-- A reschedule takes an appointment into the horizon of a client who has as many there as she may. -/
def MovesAhead (settings : BusinessSettings) (clientId : Nat) (s : Sys) (x : Label) : Prop :=
  match x.cmd with
  | .reschedule _ appointmentId windowId =>
    s.db.ahead settings clientId x.now = settings.futureBookingMaximum ∧
      ∃ a ∈ s.db.appointments.row appointmentId, ∃ w ∈ s.db.windows.row windowId,
        RescheduleService.comesAhead settings clientId x.now a w = true
  | _ => False

end Sys

/-- The booking goes over the limit on purpose. -/
def Cmd.overridesLimit : Cmd → Bool
  | .book _ _ _ override => override.isSome
  | _ => false

namespace Sys

theorem keepsLimit_iff {s : Sys} {x : Label} (hs : s.Sound) (enabled : settings.limitsFutureBookings = true)
    (configured : x.catalog.settings = some settings) (direct : x.cmd.overridesLimit = false) :
    KeepsLimit settings clientId s x ↔ (s.commitsAt x → ¬ MovesAhead settings clientId s x) := by
  obtain ⟨c, now, cmd⟩ := x
  by_cases hbook : ∃ telegramId values allow override, cmd = .book telegramId values allow override
  · obtain ⟨telegramId, values, allow, override, rfl⟩ := hbook
    refine iff_of_true (fun s' h le => ?_) fun _ h => h
    obtain rfl : override = none := Option.not_isSome_iff_eq_none.mp (Bool.eq_false_iff.mp direct)
    simp only [transact, commits, Except.bind_ok, Except.fmap_ok, Except.pure_ok] at h
    obtain ⟨db', ⟨⟨checkout, db'⟩, hrun, rfl⟩, rfl⟩ := h
    exact BookingService.book_ahead hs.booked.links configured enabled hrun le
  by_cases hreschedule : ∃ actor appointmentId windowId, cmd = .reschedule actor appointmentId windowId
  · obtain ⟨actor, i, k, rfl⟩ := hreschedule
    constructor
    · rintro keeps ⟨s', h⟩ ⟨full, a, row, w, target, comes⟩
      have le := keeps s' h full.le
      simp only [transact, commits, Except.bind_ok, Except.pure_ok] at h
      obtain ⟨db', hrun, rfl⟩ := h
      obtain ⟨a', w', row', target', count⟩ := @RescheduleService.reschedule_ahead settings clientId now s.db
        db' c actor i k hrun
      obtain rfl : a = a' := Option.some.inj (row.symm.trans row')
      obtain rfl : w = w' := Option.some.inj (target.symm.trans target')
      rw [if_pos comes] at count
      simp only at le full
      omega
    · rintro careful s' h le
      have not := careful ⟨s', h⟩
      simp only [transact, commits, Except.bind_ok, Except.pure_ok] at h
      obtain ⟨db', hrun, rfl⟩ := h
      obtain ⟨a, w, row, target, count⟩ := @RescheduleService.reschedule_ahead settings clientId now s.db
        db' c actor i k hrun
      simp only at le ⊢
      split at count
      · next comes =>
        have room : s.db.ahead settings clientId now ≠ settings.futureBookingMaximum :=
          fun full => not ⟨full, a, row, w, target, comes⟩
        omega
      · omega
  · have continues : Continues (fun _ e => ∀ w i, e ≠ .accept w i) s (s.step ⟨c, now, cmd⟩) := by
      refine step_continues hs fun e he w i => ?_
      rintro rfl
      refine not_occurs_accept (fun t v a o h => hbook ⟨t, v, a, o, h⟩) (fun a i k h => hreschedule ⟨a, i, k, h⟩) he
    refine iff_of_true (fun s' h le => ?_) fun _ moves => ?_
    · have after : s.step ⟨c, now, cmd⟩ = s' := by
        unfold step
        rw [show s.transact c now cmd = .ok s' from h]
        rfl
      have goes := continues.transaction.moves.continues fun _ w i h => h w i rfl
      rw [after] at goes
      exact goes.ahead.trans le
    · unfold MovesAhead at moves
      split at moves
      · next h => exact hreschedule ⟨_, _, _, h⟩
      · exact moves

/-- In every run under fixed settings that enable the limit, and without overrides, every transaction that commits
keeps the limit of every client, exactly when no reschedule takes an appointment into a horizon that is full. -/
theorem future_limit (settings : BusinessSettings) (enabled : settings.limitsFutureBookings = true) (clientId : Nat)
    (l : List Label) (fixed : ∀ x ∈ l, x.catalog.settings = some settings)
    (direct : ∀ x ∈ l, x.cmd.overridesLimit = false) :
    Guarded step (KeepsLimit settings clientId) empty l ↔
      Guarded step (fun s x => s.commitsAt x → ¬ MovesAhead settings clientId s x) empty l := by
  refine guarded_congr (P := Sound) (L := fun x => x.catalog.settings = some settings ∧ x.cmd.overridesLimit = false)
    (fun s x hs => sound_step hs x) (fun s x hs hx => keepsLimit_iff hs enabled hx.1 hx.2) sound_empty
    fun x hx => ⟨fixed x hx, direct x hx⟩

/-- The salon lets a client have one appointment within the next day. -/
def strict : Catalog :=
  { salon .disabled with
    settings := (salon .disabled).settings.map fun s =>
      { s with futureBookingLimitMax := some 1, futureBookingLimitHorizonDays := some 1 } }

open Salon in
/-- A client books two visits for the next day, more than a day before they start. -/
def twoVisits : List Label := [
  ⟨strict, 0, openWindow 8⟩, ⟨strict, 0, openWindow 10⟩, ⟨strict, 0, openWindow 14⟩,
  ⟨strict, minutes 1, bookWindow 2 2⟩, ⟨strict, minutes 2, bookWindow 2 3⟩]

theorem strict_fixed {l : List Label} (h : ∀ x ∈ l, x.catalog = strict) :
    ∀ x ∈ l, x.catalog.settings = some (strict.settings.get rfl) := by
  intro x hx
  rw [h x hx]
  rfl

instance (s : Sys) (x : Label) : Decidable (MovesAhead settings clientId s x) := by
  unfold MovesAhead
  split <;> infer_instance

theorem future_limit_twoVisits : Guarded step (KeepsLimit (strict.settings.get rfl) 2) empty twoVisits := by
  have direct : ∀ x ∈ twoVisits, x.cmd.overridesLimit = false := by decide
  have careful : Guarded step (fun s x => ¬ MovesAhead (strict.settings.get rfl) 2 s x) empty twoVisits := by
    decide +kernel
  have fixed := strict_fixed (l := twoVisits) (by simp [twoVisits])
  have weaker : ∀ s x, ¬ MovesAhead (strict.settings.get rfl) 2 s x → s.commitsAt x →
      ¬ MovesAhead (strict.settings.get rfl) 2 s x := fun _ _ not _ => not
  exact (future_limit (strict.settings.get rfl) rfl 2 twoVisits fixed direct).mpr (careful.mono weaker)

/-- When the first of the two visits is less than a day ahead, the client moves the second one before it. -/
def movedAhead : Label := ⟨strict, hours 11, .reschedule (.client 2) 2 1⟩

/-- A client's own reschedule takes her beyond the limit. -/
theorem reschedule_exceeds_limit :
    (∀ x ∈ twoVisits ++ [movedAhead], x.catalog.settings = some (strict.settings.get rfl) ∧
      x.cmd.overridesLimit = false) ∧
    ¬ Guarded step (KeepsLimit (strict.settings.get rfl) 2) empty (twoVisits ++ [movedAhead]) := by
  constructor
  · exact fun x hx => ⟨strict_fixed (by simp [twoVisits, movedAhead]) x hx, by revert x; decide⟩
  · intro h
    have kept := (guarded_append.mp h).2.1.step (by decide +kernel)
    revert kept
    decide +kernel

end Sys

end SalonBooking
