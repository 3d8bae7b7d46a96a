import Mathlib
import SalonBooking.Moves.Move

/-!
# The book of slots

What the salon sells is slots: a window is free, held for one appointment by one reservation, or taken
by one appointment. A refund may also leave a window booked for nobody (`abandoned`). `Agrees db σ`
relates the three tables in which the code keeps this to such a book `σ`; it is stated window by
window, appointment by appointment and reservation by reservation, and since `σ` is a function it
leaves no room for a second appointment on a window.
-/

namespace SalonBooking

open Lib Function

/-- The state of a window in the book. -/
inductive Slot
  | free
  | held (appointmentId reservationId : Nat)
  | taken (appointmentId : Nat)
  | abandoned
  deriving DecidableEq

namespace Slot

@[grind] def isHeld : Slot → Bool
  | held _ _ => true
  | _ => false

/-- Booked, be it for somebody or for nobody. -/
@[grind] def isBooked : Slot → Bool
  | taken _ | abandoned => true
  | _ => false

end Slot

/-- What may happen to the book at once; only a refund abandons a slot. -/
inductive BookStep (refunds : Prop) (σ : Nat → Slot) : (Nat → Slot) → Prop
  | stay : BookStep refunds σ σ
  | take (k i) (free : σ k = .free) : BookStep refunds σ (update σ k (.taken i))
  | hold (k i j) (free : σ k = .free) : BookStep refunds σ (update σ k (.held i j))
  | confirm (k i j) (held : σ k = .held i j) : BookStep refunds σ (update σ k (.taken i))
  | release (k i j) (held : σ k = .held i j) : BookStep refunds σ (update σ k .free)
  | vacate (k i) (taken : σ k = .taken i) : BookStep refunds σ (update σ k .free)
  | abandon (k i) (taken : σ k = .taken i) (allowed : refunds) : BookStep refunds σ (update σ k .abandoned)
  /-- The slot moves with its appointment. -/
  | move (k k' s) (slot : σ k = s) (occupied : s ≠ .abandoned) (free : σ k' = .free) :
    BookStep refunds σ (update (update σ k .free) k' s)
  /-- A successor takes another slot. -/
  | succeed (k k' i i') (taken : σ k = .taken i) (free : σ k' = .free) :
    BookStep refunds σ (update (update σ k .free) k' (.taken i'))

theorem BookStep.mono {p q : Prop} {σ σ' : Nat → Slot} (h : BookStep p σ σ') (hpq : p → q) :
    BookStep q σ σ' := by
  cases h with
  | stay => exact .stay
  | take k i free => exact .take k i free
  | hold k i j free => exact .hold k i j free
  | confirm k i j held => exact .confirm k i j held
  | release k i j held => exact .release k i j held
  | vacate k i taken => exact .vacate k i taken
  | abandon k i taken allowed => exact .abandon k i taken (hpq allowed)
  | move k k' s slot occupied free => exact .move k k' s slot occupied free
  | succeed k k' i i' taken free => exact .succeed k k' i i' taken free

theorem BookStep.never_abandons {refunds : Prop} {σ σ' : Nat → Slot} (h : BookStep refunds σ σ')
    (hno : ¬ refunds) (hσ : ∀ k, σ k ≠ .abandoned) : ∀ k, σ' k ≠ .abandoned := by
  intro k₀
  cases h with
  | stay => exact hσ k₀
  | _ => simp only [update_apply]; grind

/-- The tables of `db` record the book `σ`. -/
structure Agrees (db : Db) (σ : Nat → Slot) : Prop where
  absent : ∀ k, db.windows.row k = none → σ k = .free
  reserved : ∀ k w, db.windows.row k = some w → (w.status = .reserved ↔ (σ k).isHeld = true)
  booked : ∀ k w, db.windows.row k = some w → (w.status = .booked ↔ (σ k).isBooked = true)
  pending : ∀ i a, db.appointments.row i = some a → a.status.isPending = true → ∃ j, σ a.windowId = .held i j
  active : ∀ i a, db.appointments.row i = some a → a.status.isActive = true → σ a.windowId = .taken i
  live : ∀ j r, db.reservations.row j = some r → r.status.isLive = true → ∃ i, σ r.windowId = .held i j
  held : ∀ k i j, σ k = .held i j → ∃ a r, db.appointments.row i = some a ∧ db.reservations.row j = some r ∧
    a.windowId = k ∧ a.status.isPending = true ∧ r.status.isLive = true ∧ r.appointmentId = some i ∧
    ReservationService.Matches r a
  taken : ∀ k i, σ k = .taken i → ∃ a, db.appointments.row i = some a ∧ a.windowId = k ∧ a.status.isActive = true

namespace Agrees

variable {db : Db} {σ : Nat → Slot} {k i : Nat} {w : Window}

theorem empty : Agrees .empty fun _ => .free where
  absent _ _ := rfl
  reserved _ _ h := by cases h
  booked _ _ h := by cases h
  pending _ _ h := by cases h
  active _ _ h := by cases h
  live _ _ h := by cases h
  held _ _ _ h := by cases h
  taken _ _ h := by cases h

/-- `Agrees` reads three tables. -/
theorem of_tables {db' : Db} (h : Agrees db σ) (hw : db'.windows = db.windows)
    (ha : db'.appointments = db.appointments) (hr : db'.reservations = db.reservations) : Agrees db' σ := by
  obtain ⟨h₁, h₂, h₃, h₄, h₅, h₆, h₇, h₈⟩ := h
  constructor <;> simpa only [hw, ha, hr]

theorem free_of_not_held (h : Agrees db σ) (hw : db.windows.row k = some w) (hs : w.status.isHeld = false) :
    σ k = .free := by
  have hres := h.reserved k w hw
  have hbk := h.booked k w hw
  cases hk : σ k with
  | free => rfl
  | held i j => rw [hres.mpr (by rw [hk]; rfl)] at hs; cases hs
  | taken i => rw [hbk.mpr (by rw [hk]; rfl)] at hs; cases hs
  | abandoned => rw [hbk.mpr (by rw [hk]; rfl)] at hs; cases hs

theorem free_of_open (h : Agrees db σ) (hw : db.windows.row k = some w) (hs : w.status = .open) :
    σ k = .free :=
  h.free_of_not_held hw (by rw [hs]; rfl)

theorem not_occupies_of_free (h : Agrees db σ) (hk : σ k = .free) {a : Appointment}
    (ha : db.appointments.row i = some a) (haw : a.windowId = k) : a.status.occupies = false := by
  by_contra hocc
  rcases (AppointmentStatus.occupies_iff a.status).mp (by simpa using hocc) with hp | hac
  · obtain ⟨j, hj⟩ := h.pending i a ha hp
    rw [haw, hk] at hj; cases hj
  · have hj := h.active i a ha hac
    rw [haw, hk] at hj; cases hj

theorem occupant_unique (h : Agrees db σ) {i' : Nat} {a a' : Appointment}
    (ha : db.appointments.row i = some a) (ha' : db.appointments.row i' = some a')
    (hocc : a.status.occupies = true) (hocc' : a'.status.occupies = true) (hw : a.windowId = a'.windowId) :
    i = i' := by
  rcases (AppointmentStatus.occupies_iff a.status).mp hocc with hp | hac <;>
    rcases (AppointmentStatus.occupies_iff a'.status).mp hocc' with hp' | hac'
  · obtain ⟨j, hj⟩ := h.pending i a ha hp
    obtain ⟨j', hj'⟩ := h.pending i' a' ha' hp'
    rw [hw, hj'] at hj; cases hj; rfl
  · obtain ⟨j, hj⟩ := h.pending i a ha hp
    rw [hw, h.active i' a' ha' hac'] at hj; cases hj
  · obtain ⟨j', hj'⟩ := h.pending i' a' ha' hp'
    rw [← hw, h.active i a ha hac] at hj'; cases hj'
  · have hj := h.active i a ha hac
    rw [hw, h.active i' a' ha' hac'] at hj; cases hj; rfl

end Agrees

end SalonBooking
