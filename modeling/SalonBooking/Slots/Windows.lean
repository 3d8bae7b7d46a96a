import SalonBooking.Moves.Steps

/-!
# Windows, appointments and reservations agree

The book determines what the three tables say about a window: who may refer to it, and in which status.
In a run without refunds no slot is ever abandoned, so a booked window has its visit, a reserved window
has its pending appointment and its live reservation, and any other window has neither.
-/

namespace SalonBooking

open Lib

variable {db : Db} {k : Nat}

/-- The appointment `i` is an active one on the window `k`. -/
def ActiveOn (db : Db) (k i : Nat) : Prop :=
  ∃ a, db.appointments.row i = some a ∧ a.windowId = k ∧ a.status.isActive = true

/-- The appointment `i` awaits payment or review on the window `k`. -/
def PendingOn (db : Db) (k i : Nat) : Prop :=
  ∃ a, db.appointments.row i = some a ∧ a.windowId = k ∧ a.status.isPending = true

/-- The reservation `j` is a live one of the window `k`. -/
def LiveOn (db : Db) (k j : Nat) : Prop :=
  ∃ r, db.reservations.row j = some r ∧ r.windowId = k ∧ r.status.isLive = true

/-- The reservation `j` is that of the appointment `i`, with the same client, master, window and service. -/
def Refers (db : Db) (j i : Nat) : Prop :=
  ∃ r a, db.reservations.row j = some r ∧ db.appointments.row i = some a ∧ r.appointmentId = some i ∧
    ReservationService.Matches r a

/-- Exactly one visit and no live reservation. -/
def HasVisit (db : Db) (k : Nat) : Prop := (∃! i, ActiveOn db k i) ∧ ∀ j, ¬ LiveOn db k j

/-- Exactly one pending appointment and exactly one live reservation, which is that of the appointment. -/
def HasHold (db : Db) (k : Nat) : Prop :=
  ∃ i j, (∀ i', PendingOn db k i' ↔ i' = i) ∧ (∀ j', LiveOn db k j' ↔ j' = j) ∧ Refers db j i

/-- No occupying appointment and no live reservation. -/
def IsVacant (db : Db) (k : Nat) : Prop :=
  (∀ i, ¬ ActiveOn db k i ∧ ¬ PendingOn db k i) ∧ ∀ j, ¬ LiveOn db k j

/-- What the status of a window says. -/
structure WindowsAgree (db : Db) : Prop where
  booked : ∀ k w, db.windows.row k = some w → (w.status = .booked ↔ HasVisit db k)
  reserved : ∀ k w, db.windows.row k = some w → (w.status = .reserved ↔ HasHold db k)
  vacant : ∀ k w, db.windows.row k = some w → w.status = .open ∨ w.status = .closed ∨ w.status = .expired →
    IsVacant db k
  /-- The check that consumption and expiry make on a live reservation and its appointment passes. -/
  checked : ∀ j r, db.reservations.row j = some r → r.status.isLive = true →
    ∃ i a, r.appointmentId = some i ∧ db.appointments.row i = some a ∧
      ReservationService.requireReservationMatchesAppointment r a = .ok ()

def Kempt (db : Db) : Prop := ∃ σ, Agrees db σ ∧ ∀ k, σ k ≠ .abandoned

namespace Agrees

variable {σ : Nat → Slot} {i j : Nat}

theorem activeOn_iff (h : Agrees db σ) : ActiveOn db k i ↔ σ k = .taken i := by
  constructor
  · rintro ⟨a, row, rfl, active⟩
    exact h.active i a row active
  · intro hk
    obtain ⟨a, row, at_window, active⟩ := h.taken k i hk
    exact ⟨a, row, at_window, active⟩

theorem pendingOn_iff (h : Agrees db σ) : PendingOn db k i ↔ ∃ j, σ k = .held i j := by
  constructor
  · rintro ⟨a, row, rfl, pending⟩
    exact h.pending i a row pending
  · rintro ⟨j, hk⟩
    obtain ⟨a, r, row, -, at_window, pending, -⟩ := h.held k i j hk
    exact ⟨a, row, at_window, pending⟩

theorem liveOn_iff (h : Agrees db σ) : LiveOn db k j ↔ ∃ i, σ k = .held i j := by
  constructor
  · rintro ⟨r, row, rfl, live⟩
    exact h.live j r row live
  · rintro ⟨i, hk⟩
    obtain ⟨a, r, -, row, at_window, -, live, -, agrees⟩ := h.held k i j hk
    exact ⟨r, row, agrees.2.2.1.trans at_window, live⟩

theorem refers (h : Agrees db σ) (hk : σ k = .held i j) : Refers db j i := by
  obtain ⟨a, r, row, row', -, -, -, belongs, agrees⟩ := h.held k i j hk
  exact ⟨r, a, row', row, belongs, agrees⟩

theorem hasVisit_iff (h : Agrees db σ) : HasVisit db k ↔ ∃ i, σ k = .taken i := by
  simp only [HasVisit, h.activeOn_iff, h.liveOn_iff]
  constructor
  · rintro ⟨⟨i, hk, -⟩, -⟩
    exact ⟨i, hk⟩
  · rintro ⟨i, hk⟩
    refine ⟨⟨i, hk, fun i' hk' => ?_⟩, ?_⟩
    · rw [hk] at hk'; cases hk'; rfl
    · rintro j ⟨i', hk'⟩
      rw [hk] at hk'; cases hk'

theorem hasHold_iff (h : Agrees db σ) : HasHold db k ↔ (σ k).isHeld = true := by
  simp only [HasHold, h.pendingOn_iff, h.liveOn_iff]
  constructor
  · rintro ⟨i, j, hi, -⟩
    obtain ⟨j', hk⟩ := (hi i).mpr rfl
    rw [hk]; rfl
  · intro hheld
    cases hk : σ k with
    | held i j =>
      refine ⟨i, j, fun i' => ⟨?_, ?_⟩, fun j' => ⟨?_, ?_⟩, h.refers hk⟩
      · rintro ⟨j', hk'⟩; cases hk'; rfl
      · rintro rfl; exact ⟨j, rfl⟩
      · rintro ⟨i', hk'⟩; cases hk'; rfl
      · rintro rfl; exact ⟨i, rfl⟩
    | free => rw [hk] at hheld; cases hheld
    | taken => rw [hk] at hheld; cases hheld
    | abandoned => rw [hk] at hheld; cases hheld

theorem isVacant_of_free (h : Agrees db σ) (hk : σ k = .free) : IsVacant db k := by
  simp only [IsVacant, h.activeOn_iff, h.pendingOn_iff, h.liveOn_iff, hk]
  exact ⟨fun i => ⟨nofun, by rintro ⟨j, hj⟩; cases hj⟩, by rintro j ⟨i, hi⟩; cases hi⟩

end Agrees

theorem Kempt.windowsAgree (h : Kempt db) : WindowsAgree db := by
  obtain ⟨σ, hA, kempt⟩ := h
  refine ⟨fun k w row => ?_, fun k w row => ?_, fun k w row status => ?_, fun j r row live => ?_⟩
  · rw [hA.booked k w row, hA.hasVisit_iff]
    constructor
    · intro hbooked
      cases hk : σ k with
      | taken i => exact ⟨i, rfl⟩
      | abandoned => exact absurd hk (kempt k)
      | free => rw [hk] at hbooked; cases hbooked
      | held => rw [hk] at hbooked; cases hbooked
    · rintro ⟨i, hk⟩
      rw [hk]; rfl
  · rw [hA.reserved k w row, hA.hasHold_iff]
  · have not_held : w.status.isHeld = false := by rcases status with hs | hs | hs <;> rw [hs] <;> rfl
    exact hA.isVacant_of_free (hA.free_of_not_held row not_held)
  · obtain ⟨i, hk⟩ := hA.live j r row live
    obtain ⟨a, r', row', hr', -, -, -, belongs, agrees⟩ := hA.held _ _ _ hk
    rw [row] at hr'; cases hr'
    exact ⟨i, a, belongs, row', Except.require_ok.mpr agrees⟩

/-- A move leaves no slot abandoned, unless a refund of an active appointment starts. -/
theorem Kempt.of_move {may : Db → Effect → Prop} {db' : Db} (h : Kempt db) (hl : Links db)
    (never : ¬ RequestsActive may db) (hm : Move may db db') : Kempt db' := by
  obtain ⟨σ, hA, kempt⟩ := h
  obtain ⟨σ', hstep, hA'⟩ := hA.step hl hm
  exact ⟨σ', hA', hstep.never_abandons never kempt⟩

namespace Sys

theorem not_occurs_request {s : Sys} {l : Label} (h : l.cmd.isRefund = false) (pid : Nat) :
    ¬ s.Occurs l (.request pid) := by
  obtain ⟨c, now, cmd⟩ := l
  cases cmd <;> simp_all [Occurs, Causes, Cmd.isRefund]

/-- In every state of every run without refunds, windows, appointments and reservations agree. -/
theorem windows_agree (l : List Label) (h : ∀ x ∈ l, x.cmd.isRefund = false) : WindowsAgree (after l).db := by
  have guarded : Guarded step (fun _ x => x.cmd.isRefund = false) empty l := guarded_of_forall h
  have kempt : Kempt (after l).db := @guarded_after Kempt (fun _ e => ∀ pid, e ≠ .request pid) _
    (fun s x hx e he pid => by rintro rfl; exact not_occurs_request hx pid he)
    (fun db db' hk hl hm => hk.of_move hl (fun ⟨pid, _, _, h, _⟩ => h pid rfl) hm) ⟨fun _ => .free, .empty, fun _ => nofun⟩ l guarded
  exact kempt.windowsAgree

open Salon in
/-- Two windows, one booked without and one with a prepayment. -/
def twoBookings : List Label := [
  ⟨salon .disabled, 0, openWindow 10⟩, ⟨salon .disabled, 0, openWindow 12⟩,
  ⟨salon .disabled, minutes 1, bookWindow 2 1⟩, ⟨salon .yookassa, minutes 2, bookWindow 3 2⟩]

theorem windows_agree_twoBookings :
    WindowsAgree (after twoBookings).db ∧ HasVisit (after twoBookings).db 1 ∧ HasHold (after twoBookings).db 2 := by
  have agree := windows_agree twoBookings (by decide)
  have row₁ : (after twoBookings).db.windows.row 1 = some ⟨1, hours 34, hours 35, .booked⟩ := by decide +kernel
  have row₂ : (after twoBookings).db.windows.row 2 = some ⟨1, hours 36, hours 37, .reserved⟩ := by decide +kernel
  exact ⟨agree, (agree.booked 1 _ row₁).mp rfl, (agree.reserved 2 _ row₂).mp rfl⟩

end Sys

end SalonBooking
