import SalonBooking.Bookings.DailyCap
import SalonBooking.Bookings.FutureLimit

/-!
# Paused masters

A master who has paused her schedule takes no new visits before the pause ends. Booking refuses her windows until
then; rescheduling and the reassignment of another master's appointments check that she works and is bookable, and
do not look at the pause.
-/

namespace SalonBooking

open Lib

/-- The instant is before the end of the master's pause. -/
def Catalog.pausedAt (c : Catalog) (staffMemberId : Nat) (t : Int) : Bool :=
  (c.staff staffMemberId).any fun master => master.schedulePausedUntil.any fun until_ => decide (t < until_)

/-- An appointment has come onto the window `k`. -/
def Db.Places (db db' : Db) (k : Nat) : Prop :=
  ∃ i a', db'.appointments.row i = some a' ∧ a'.windowId = k ∧
    ∀ a, db.appointments.row i = some a → a.windowId ≠ k

variable {c : Catalog} {db db' : Db} {now : Int} {k : Nat}

theorem Db.Continues.not_places {may : Db → Effect → Prop} (h : db.Continues may db') (stay : ∀ d, ¬ may d .transfer) :
    ¬ db.Places db' k := by
  rintro ⟨i, a', row', window, new⟩
  obtain ⟨a, row, -, same | ⟨d, moved⟩⟩ := h i a' row'
  · exact new a row (same.symm.trans window)
  · exact stay d moved

/-- A booking places an appointment on a window of a master who is not paused then. -/
theorem BookingService.book_not_paused {telegramId : Int} {values : BookingRequest} {allow : Bool}
    {override : Option BookingLimitOverride} {checkout : CheckoutResult} (hl : Links db)
    (h : book c telegramId values now allow override db = .ok (checkout, db')) (placed : db.Places db' k) {w : Window}
    (window : db.windows.row k = some w) : c.pausedAt w.staffMemberId w.startAt = false := by
  obtain ⟨plan, t, hplan, appointments⟩ := book_places hl h
  obtain ⟨row, -, -⟩ := bookingPlan_window hplan
  obtain ⟨-, assignment, bookable⟩ := bookingPlan_checks hplan
  obtain ⟨i, a', row', at_window, new⟩ := placed
  rw [appointments] at row'
  obtain ⟨-, rfl⟩ := (Table.row_insert_eq_some.mp row').resolve_right fun before => new a' before at_window
  obtain rfl : values.windowId = k := at_window
  obtain rfl : plan.window = w := Option.some.inj (row.symm.trans window)
  simp only [bookableMaster, Except.bind_ok, Except.orRaise_ok, Except.require_ok, exists_const] at bookable
  obtain ⟨master, member, -, _, -, -, unpaused, -⟩ := bookable
  unfold Catalog.pausedAt
  rw [member, Option.any_some, Option.any_eq_false]
  exact fun until_ paused => decide_eq_false (unpaused until_ paused)

theorem RescheduleService.places_iff {actor : RescheduleActor} {appointmentId newWindowId : Nat}
    (h : reschedule c actor appointmentId newWindowId now db = .ok db') : db.Places db' k ↔ k = newWindowId := by
  obtain ⟨a, w', workstationId, row, -, -, -, appointments⟩ := reschedule_places h
  unfold Db.Places
  rw [appointments]
  constructor
  · rintro ⟨i, a', row', at_window, new⟩
    rcases Table.row_insert_eq_some.mp row' with ⟨-, rfl⟩ | row'
    · exact at_window.symm
    · rcases (Table.row_put_eq_some row).mp row' with ⟨rfl, rfl⟩ | ⟨-, before⟩
      · exact absurd at_window (new a row)
      · exact absurd at_window (new a' before)
  · rintro rfl
    refine ⟨_, _, Table.row_insert_self, rfl, fun b before => ?_⟩
    exact absurd (Table.lt_next before) (lt_irrefl _)

/-- A reassignment places the future appointments of one master on windows of the other at their times. -/
theorem StaffRepository.places_iff {sourceStaffId targetId : Nat} {σ : Nat → Slot} (hA : Agrees db σ)
    (h : reassignFutureAppointments c sourceStaffId targetId now db = .ok db') : db.Places db' k ↔
      ∃ r ∈ futureAppointments db sourceStaffId now, ∃ w, exactWindow db targetId r.2 = some (k, w) := by
  obtain ⟨rounds, keys, windows, moved, rows⟩ := reassign_places h
  constructor
  · rintro ⟨i, a', row', at_window, new⟩
    rcases rows i a' row' with before | ⟨m, hm, rfl, rfl⟩
    · exact absurd at_window (new a' before)
    · refine ⟨m.1, keys ▸ List.mem_map_of_mem hm, m.2.2, ?_⟩
      obtain rfl : m.2.1 = k := at_window
      exact windows m hm
  · rintro ⟨r, hr, w, exact_⟩
    obtain ⟨m, hm, rfl⟩ := List.mem_map.mp (keys ▸ hr)
    have target := windows m hm
    rw [exact_, Option.some.injEq] at target
    obtain ⟨row, -, -, occupies⟩ := mem_futureAppointments.mp hr
    refine ⟨m.1.1, _, moved m hm, by rw [Round.moved, ← target], fun a before at_window => ?_⟩
    -- an open window is occupied by nobody
    obtain ⟨window, free, -⟩ := exactWindow_ok exact_
    obtain rfl : m.1.2 = a := Option.some.inj (row.symm.trans before)
    rw [hA.not_occupies_of_free (hA.free_of_open window free) row at_window] at occupies
    cases occupies

theorem StaffRepository.exactWindow_staff {targetId : Nat} {a : Appointment} {w : Window}
    (h : exactWindow db targetId a = some (k, w)) : w.staffMemberId = targetId := by
  obtain ⟨-, hp⟩ := Table.mem_select.mp (List.mem_of_getLast? h)
  simp only [Bool.and_eq_true, beq_iff_eq] at hp
  exact hp.1.1.1

namespace Sys

/-- A transaction that commits places appointments on windows outside the pauses of their masters. -/
def RespectsPauses (s : Sys) (x : Label) : Prop :=
  ∀ s', s.transact x.catalog x.now x.cmd = .ok s' → ∀ k w, s.db.Places s'.db k → s.db.windows.row k = some w →
    x.catalog.pausedAt w.staffMemberId w.startAt = false

/-- A reschedule onto a window within its master's pause, or a reassignment of an appointment that starts within the
pause of the target master. -/
def IgnoresPause (s : Sys) (x : Label) : Prop :=
  match x.cmd with
  | .reschedule _ _ newWindowId =>
    ∃ w ∈ s.db.windows.row newWindowId, x.catalog.pausedAt w.staffMemberId w.startAt = true
  | .reassign _ sourceStaffId targetId =>
    ∃ r ∈ StaffRepository.futureAppointments s.db sourceStaffId x.now,
      x.catalog.pausedAt targetId r.2.scheduledStartAt = true
  | _ => False

def ignoresPause (s : Sys) (x : Label) : Bool :=
  match x.cmd with
  | .reschedule _ _ newWindowId => (s.db.windows.row newWindowId).any fun w => x.catalog.pausedAt w.staffMemberId w.startAt
  | .reassign _ sourceStaffId targetId =>
    (StaffRepository.futureAppointments s.db sourceStaffId x.now).any fun r =>
      x.catalog.pausedAt targetId r.2.scheduledStartAt
  | _ => false

theorem ignoresPause_iff (s : Sys) (x : Label) : ignoresPause s x = true ↔ IgnoresPause s x := by
  obtain ⟨c, now, cmd⟩ := x
  cases cmd with
  | reschedule actor i k => simp [ignoresPause, IgnoresPause, Option.any_eq_true]
  | reassign actor source target => simp [ignoresPause, IgnoresPause]
  | _ => simp [ignoresPause, IgnoresPause]

instance (s : Sys) (x : Label) : Decidable (IgnoresPause s x) := decidable_of_iff _ (ignoresPause_iff s x)

theorem respectsPauses_iff {s : Sys} {x : Label} (hs : s.Sound) :
    RespectsPauses s x ↔ (s.commitsAt x → ¬ IgnoresPause s x) := by
  obtain ⟨c, now, cmd⟩ := x
  by_cases hbook : ∃ telegramId values allow override, cmd = .book telegramId values allow override
  · obtain ⟨telegramId, values, allow, override, rfl⟩ := hbook
    refine iff_of_true (fun s' h k w placed window => ?_) fun _ h => h
    simp only [transact, commits, Except.bind_ok, Except.fmap_ok, Except.pure_ok] at h
    obtain ⟨db', ⟨⟨checkout, db'⟩, hrun, rfl⟩, rfl⟩ := h
    exact BookingService.book_not_paused hs.booked.links hrun placed window
  by_cases hreschedule : ∃ actor appointmentId windowId, cmd = .reschedule actor appointmentId windowId
  · obtain ⟨actor, i, newWindowId, rfl⟩ := hreschedule
    constructor
    · rintro respects ⟨s', h⟩ ⟨w, window, paused⟩
      have unpaused := respects s' h newWindowId w
      simp only [transact, commits, Except.bind_ok, Except.pure_ok] at h
      obtain ⟨db', hrun, rfl⟩ := h
      rw [unpaused ((RescheduleService.places_iff hrun).mpr rfl) window] at paused
      cases paused
    · intro careful s' h k w placed window
      have not := careful ⟨s', h⟩
      simp only [transact, commits, Except.bind_ok, Except.pure_ok] at h
      obtain ⟨db', hrun, rfl⟩ := h
      obtain rfl := (RescheduleService.places_iff hrun).mp placed
      exact Bool.eq_false_iff.mpr fun paused => not ⟨w, window, paused⟩
  by_cases hreassign : ∃ actor source target, cmd = .reassign actor source target
  · obtain ⟨actor, source, target, rfl⟩ := hreassign
    obtain ⟨σ, hA⟩ := hs.booked.book
    constructor
    · rintro respects ⟨s', h⟩ ⟨r, hr, paused⟩
      have unpaused := respects s' h
      simp only [transact, commits, Except.bind_ok, Except.pure_ok] at h
      obtain ⟨db', hrun, rfl⟩ := h
      obtain ⟨-, moved⟩ := AuthorizationService.mayReassign_of_ok hrun
      obtain ⟨⟨k, w⟩, exact_⟩ := Option.isSome_iff_exists.mp (StaffRepository.exactWindow_of_reassign moved r hr)
      obtain ⟨window, -, start, -⟩ := StaffRepository.exactWindow_ok exact_
      have placed := (StaffRepository.places_iff hA moved).mpr ⟨r, hr, w, exact_⟩
      have free := unpaused k w placed window
      rw [StaffRepository.exactWindow_staff exact_, start, paused] at free
      cases free
    · intro careful s' h k w placed window
      have not := careful ⟨s', h⟩
      simp only [transact, commits, Except.bind_ok, Except.pure_ok] at h
      obtain ⟨db', hrun, rfl⟩ := h
      obtain ⟨-, moved⟩ := AuthorizationService.mayReassign_of_ok hrun
      obtain ⟨r, hr, w', exact_⟩ := (StaffRepository.places_iff hA moved).mp placed
      obtain ⟨window', -, start, -⟩ := StaffRepository.exactWindow_ok exact_
      obtain rfl : w = w' := Option.some.inj (window.symm.trans window')
      rw [StaffRepository.exactWindow_staff exact_, start]
      exact Bool.eq_false_iff.mpr fun paused => not ⟨r, hr, paused⟩
  · have continues : Continues (fun _ e => e ≠ .transfer ∧ ∀ w i, e ≠ .accept w i) s (s.step ⟨c, now, cmd⟩) := by
      refine step_continues hs fun e he => ⟨?_, fun w i => ?_⟩
      · rintro rfl
        exact not_occurs_transfer (fun a s t h => hreassign ⟨a, s, t, h⟩) he
      · rintro rfl
        exact not_occurs_accept (fun t v a o h => hbook ⟨t, v, a, o, h⟩) (fun a i k h => hreschedule ⟨a, i, k, h⟩) he
    refine iff_of_true (fun s' h k w placed window => ?_) fun _ ignores => ?_
    · have after : s.step ⟨c, now, cmd⟩ = s' := by
        unfold step
        rw [show s.transact c now cmd = .ok s' from h]
        rfl
      have goes := continues.transaction.moves.continues fun _ w i h => h.2 w i rfl
      rw [after] at goes
      exact absurd placed (goes.not_places fun _ h => h.1 rfl)
    · unfold IgnoresPause at ignores
      split at ignores
      · next h => exact hreschedule ⟨_, _, _, h⟩
      · next h => exact hreassign ⟨_, _, _, h⟩
      · exact ignores

/-- In every run, every transaction that commits places appointments outside the pauses of their masters, exactly when
no reschedule and no reassignment that commits goes into a pause. -/
theorem pauses_respected (l : List Label) :
    Guarded step RespectsPauses empty l ↔ Guarded step (fun s x => s.commitsAt x → ¬ IgnoresPause s x) empty l :=
  guarded_congr (P := Sound) (L := fun _ => True) (fun _ x hs => sound_step hs x) (fun _ _ hs _ => respectsPauses_iff hs)
    sound_empty fun _ _ => trivial

/-- The salon without prepayments, whose master has paused until an instant. -/
def onPause (until_ : Int) : Catalog :=
  { salon .disabled with
    staff := fun i => ((salon .disabled).staff i).map fun m => { m with schedulePausedUntil := some until_ } }

open Salon in
/-- A client books a visit after the pause of the master. -/
def visitAfterPause : List Label := [
  ⟨onPause (hours 36), 0, openWindow 10⟩, ⟨onPause (hours 36), 0, openWindow 14⟩,
  ⟨onPause (hours 36), minutes 1, bookWindow 2 2⟩]

def movedIntoPause : Label := ⟨onPause (hours 36), minutes 2, .reschedule (.client 2) 1 1⟩

/-- An appointment has come onto a window within the pause of its master. -/
def PlacesInPause (c : Catalog) (db db' : Db) (k : Nat) : Prop :=
  (∃ r ∈ db'.appointments.toList, r.2.windowId = k ∧ ∀ a ∈ db.appointments.row r.1, a.windowId ≠ k) ∧
    ∃ w ∈ db.windows.row k, c.pausedAt w.staffMemberId w.startAt = true

instance (c : Catalog) (db db' : Db) (k : Nat) : Decidable (PlacesInPause c db db' k) :=
  inferInstanceAs (Decidable (_ ∧ _))

theorem RespectsPauses.step {s : Sys} {x : Label} (h : RespectsPauses s x) :
    ¬ PlacesInPause x.catalog s.db (s.step x).db k := by
  rintro ⟨⟨⟨i, a'⟩, hmem, at_window, new⟩, w, window, paused⟩
  have row' := Table.mem_toList.mp hmem
  unfold Sys.step at row'
  cases hx : s.transact x.catalog x.now x.cmd with
  | error e =>
    rw [hx] at row'
    exact new a' row' at_window
  | ok s' =>
    rw [hx] at row'
    rw [h s' hx k w ⟨i, a', row', at_window, new⟩ window] at paused
    cases paused

/-- A client's reschedule ignores the pause of the master. -/
theorem reschedule_ignores_pause : ¬ Guarded step RespectsPauses empty (visitAfterPause ++ [movedIntoPause]) := by
  intro h
  exact (guarded_append.mp h).2.1.step (k := 1) (by decide +kernel)

end Sys

end SalonBooking
