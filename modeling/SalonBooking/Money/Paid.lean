import SalonBooking.Slots.Windows

/-!
# Paid before confirmed

A booking with prepayment reaches a visit only through `confirmHold`, which asks for a captured payment
and consumes the hold. Both facts are final, and a rescheduled visit points back to the booking it came
from, so they are found at the start of the chain for as long as the visit lasts.
-/

namespace SalonBooking

open Lib

namespace AppointmentStatus

/-- The statuses of a visit that takes place or has taken place. -/
def isVisit : AppointmentStatus → Bool
  | confirmed | clientConfirmed | completed | noShow => true
  | _ => false

theorem isVisit_of_active {s : AppointmentStatus} (h : s.isActive = true) : s.isVisit = true := by
  cases s <;> simp_all [isActive, isVisit]

theorem not_isVisit_of_isRefund {s : AppointmentStatus} (h : s.isRefund = true) : s.isVisit = false := by
  cases s <;> simp_all [isRefund, isVisit]

theorem not_isPending_of_isRefund {s : AppointmentStatus} (h : s.isRefund = true) : s.isPending = false := by
  cases s <;> simp_all [isRefund, isPending]

end AppointmentStatus

/-- `o` is the appointment at the start of the `rescheduled_from` chain of `i`. -/
inductive Origin (appointments : Table Appointment) : Nat → Nat → Prop
  | start (i a) (row : appointments.row i = some a) (first : a.rescheduledFromId = none) :
    Origin appointments i i
  | link (i a j o) (row : appointments.row i = some a) (from_ : a.rescheduledFromId = some j)
      (chain : Origin appointments j o) : Origin appointments i o

namespace Origin

variable {t t' : Table Appointment} {i o o' : Nat}

theorem of_keeps (h : Origin t i o) (hk : t.Keeps SameOrigin t') : Origin t' i o := by
  induction h with
  | start i a row first =>
    obtain ⟨a', row', same⟩ := hk i a row
    exact .start i a' row' (same.rescheduledFromId.trans first)
  | link i a j o row from_ _ ih =>
    obtain ⟨a', row', same⟩ := hk i a row
    exact .link i a' j o row' (same.rescheduledFromId.trans from_) ih

theorem unique (h : Origin t i o) (h' : Origin t i o') : o = o' := by
  induction h with
  | start i a row first =>
    cases h' with
    | start => rfl
    | link _ a' j _ row' from_ => rw [row] at row'; cases row'; rw [first] at from_; cases from_
  | link i a j o row from_ _ ih =>
    cases h' with
    | start _ a' row' first => rw [row] at row'; cases row'; rw [first] at from_; cases from_
    | link _ a' j' _ row' from' chain' =>
      rw [row] at row'; cases row'
      rw [from_] at from'; cases from'
      exact ih chain'

end Origin

/-- The reservation of an appointment is consumed. -/
def Consumed (db : Db) (i : Nat) : Prop :=
  ∃ j r, db.reservations.row j = some r ∧ r.appointmentId = some i ∧ r.status = .consumed

theorem Kept.consumed {db db' : Db} (h : Kept db db') {i : Nat} (hc : Consumed db i) : Consumed db' i := by
  obtain ⟨j, r, row, belongs, consumed⟩ := hc
  obtain ⟨r', row', belongs', consumed'⟩ := h.reservations j r row
  exact ⟨j, r', row', belongs'.trans belongs, consumed' consumed⟩

/-- The booking at the start of the chain is paid and its hold consumed. -/
def Paid (db : Db) (i : Nat) : Prop := ∃ o, Origin db.appointments i o ∧ Captured db o ∧ Consumed db o

theorem Kept.paid {db db' : Db} (h : Kept db db') {i : Nat} (hp : Paid db i) : Paid db' i := by
  obtain ⟨o, chain, captured, consumed⟩ := hp
  exact ⟨o, chain.of_keeps h.appointments, h.captured captured, h.consumed consumed⟩

/-- What the rows say about prepaid bookings. -/
structure Prepaid (db : Db) : Prop where
  /-- A chain has a start, on the same payment terms. -/
  rooted : db.appointments.All fun i a => ∃ o b, Origin db.appointments i o ∧
    db.appointments.row o = some b ∧ b.paymentModeSnapshot = a.paymentModeSnapshot
  pending : db.appointments.All fun _ a => a.status.isPending = true → a.rescheduledFromId = none
  paid : db.appointments.All fun i a => a.paymentModeSnapshot ≠ .disabled → a.status.isVisit = true → Paid db i

/-- A later version of an appointment that has not come closer to a visit. -/
structure Settled (a' a : Appointment) : Prop where
  origin : SameOrigin a a'
  pending : a'.status.isPending = true → a.status.isPending = true
  visit : a'.status.isVisit = true → a.status.isVisit = true

theorem Settled.refl (a : Appointment) : Settled a a := ⟨.refl a, id, id⟩

namespace Prepaid

variable {db db' : Db} {may : Db → Effect → Prop}

theorem empty : Prepaid .empty := ⟨Table.all_empty, Table.all_empty, Table.all_empty⟩

theorem root_of_keeps {t : Table Appointment} {i : Nat} {a : Appointment}
    (h : ∃ o b, Origin db.appointments i o ∧ db.appointments.row o = some b ∧
      b.paymentModeSnapshot = a.paymentModeSnapshot) (hk : db.appointments.Keeps SameOrigin t) :
    ∃ o b, Origin t i o ∧ t.row o = some b ∧ b.paymentModeSnapshot = a.paymentModeSnapshot := by
  obtain ⟨o, b, chain, row, mode⟩ := h
  obtain ⟨b', row', same⟩ := hk o b row
  exact ⟨o, b', chain.of_keeps hk, row', same.paymentModeSnapshot.trans mode⟩

theorem of_settled (h : Prepaid db) (hk : Kept db db')
    (back : db'.appointments.Keeps Settled db.appointments) : Prepaid db' := by
  refine ⟨fun i a' row' => ?_, fun i a' row' => ?_, fun i a' row' mode visit => ?_⟩ <;>
    obtain ⟨a, row, settled⟩ := back i a' row'
  · rw [settled.origin.paymentModeSnapshot]
    exact root_of_keeps (h.rooted i a row) hk.appointments
  · intro pending
    exact settled.origin.rescheduledFromId.trans (h.pending i a row (settled.pending pending))
  · rw [settled.origin.paymentModeSnapshot] at mode
    exact hk.paid (h.paid i a row mode (settled.visit visit))

/-- A new appointment: the first of its chain, or one whose predecessor is paid where it has to be. -/
theorem of_insert (h : Prepaid db) (hk : Kept db db') {a : Appointment}
    (rows : db'.appointments = db.appointments.insert a)
    (root : ∃ o b, Origin db'.appointments db.appointments.next o ∧ db'.appointments.row o = some b ∧
      b.paymentModeSnapshot = a.paymentModeSnapshot)
    (pending : a.status.isPending = true → a.rescheduledFromId = none)
    (paid : a.paymentModeSnapshot ≠ .disabled → a.status.isVisit = true → Paid db' db.appointments.next) :
    Prepaid db' := by
  have grown := hk.appointments
  rw [rows] at grown root
  refine ⟨?_, ?_, ?_⟩ <;> rw [rows]
  · exact .insert (h.rooted.mono fun i b hb => root_of_keeps hb grown) root
  · exact h.pending.insert pending
  · exact .insert (h.paid.mono fun i b hb mode hv => hk.paid (hb mode hv)) paid

theorem of_booking (h : Prepaid db) (hk : Kept db db') {a : Appointment}
    (rows : db'.appointments = db.appointments.insert a) (origin : a.rescheduledFromId = none)
    (visit : a.paymentModeSnapshot ≠ .disabled → a.status.isVisit = false) : Prepaid db' := by
  refine h.of_insert hk rows ?_ (fun _ => origin) fun mode hv => ?_
  · rw [rows]
    exact ⟨_, a, .start _ a Table.row_insert_self origin, Table.row_insert_self, rfl⟩
  · rw [visit mode] at hv; cases hv

theorem of_reschedule (h : Prepaid db) (hk : Kept db db') {i : Nat} {a b : Appointment}
    (rows : db'.appointments = db.appointments.insert b) (row : db.appointments.row i = some a)
    (origin : b.rescheduledFromId = some i) (mode : b.paymentModeSnapshot = a.paymentModeSnapshot)
    (status : b.status = .confirmed) (paid : a.paymentModeSnapshot ≠ .disabled → Paid db i) : Prepaid db' := by
  have new : db'.appointments.row db.appointments.next = some b := by rw [rows]; exact Table.row_insert_self
  refine h.of_insert hk rows ?_ (fun hp => ?_) fun enabled _ => ?_
  · obtain ⟨o, c, chain, row', mode'⟩ := root_of_keeps (h.rooted i a row) hk.appointments
    exact ⟨o, c, .link _ b i o new origin chain, row', mode'.trans mode.symm⟩
  · rw [status] at hp; cases hp
  · obtain ⟨o, chain, captured, consumed⟩ := hk.paid (paid (mode ▸ enabled))
    exact ⟨o, .link _ b i o new origin chain, captured, consumed⟩

theorem of_sync (h : Prepaid db) (hk : Kept db db') {i : Nat} {t? : Option AppointmentStatus}
    (refund : ∀ t, t? = some t → t.isRefund = true)
    (sync : RefundSync db.appointments i t? db'.appointments) : Prepaid db' := by
  refine h.of_settled hk ?_
  generalize db'.appointments = appointments at sync
  cases sync with
  | none => exact .refl .refl
  | already => exact .refl .refl
  | edge a t row =>
    have ht := refund t rfl
    refine .put_back .refl row ⟨⟨rfl, rfl, rfl⟩, fun hp => ?_, fun hv => ?_⟩
    · rw [AppointmentStatus.not_isPending_of_isRefund ht] at hp; cases hp
    · rw [AppointmentStatus.not_isVisit_of_isRefund ht] at hv; cases hv

theorem of_move (h : Prepaid db) (hm : Move may db db') : Prepaid db' := by
  have hk := Kept.of_move hm
  cases hm with
  | idle => exact h.of_settled hk (.refl .refl)
  | createWindow => exact h.of_settled hk (.refl .refl)
  | setWindow => exact h.of_settled hk (.refl .refl)
  | deleteWindow => exact h.of_settled hk (.refl .refl)
  | place k w a row free window status mode origin =>
    exact h.of_booking hk rfl origin fun enabled => absurd mode enabled
  | hold k w a r p row free window status mode origin =>
    exact h.of_booking hk rfl origin fun _ => by rw [status]; rfl
  | confirmHold k w i a j r t window appointment reservation at_window pending live belongs agrees paid =>
    have hold : Consumed { db with reservations := db.reservations.put j _ } i :=
      ⟨j, { r with status := .consumed, consumedAt := some t }, Table.row_put_self reservation, belongs, rfl⟩
    refine ⟨h.rooted.mono (fun i b hb => root_of_keeps hb hk.appointments) |>.put appointment ?_,
      h.pending.put appointment (by rintro ⟨⟩), ?_⟩
    · exact root_of_keeps (h.rooted i a appointment) hk.appointments
    · refine (h.paid.mono fun i b hb mode hv => hk.paid (hb mode hv)).put appointment fun _ _ => ?_
      exact ⟨i, .start i _ (Table.row_put_self appointment) (h.pending i a appointment pending), hk.captured paid, hold⟩
  | releaseHold k w i a j r t a' r' payments window appointment reservation at_window pending live belongs
      agrees same status ended =>
    refine h.of_settled hk (.put_back .refl appointment ⟨same.origin, fun _ => pending, fun hv => ?_⟩)
    rcases ended with rfl | rfl <;> rw [status] at hv <;> cases hv
  | report i a j r pid p q t appointment reservation pending =>
    exact h.of_settled hk (.put_back .refl appointment ⟨⟨rfl, rfl, rfl⟩, fun _ => pending, (by rintro ⟨⟩)⟩)
  | confirmVisit i a t row status =>
    exact h.of_settled hk (.put_back .refl row ⟨⟨rfl, rfl, rfl⟩, (by rintro ⟨⟩), fun _ => by rw [status]; rfl⟩)
  | endVisit w i a a' s row active window same ended =>
    refine h.of_settled hk (.put_back .refl row ⟨same.origin, fun hp => ?_, fun _ => ?_⟩)
    · revert ended hp
      cases a'.status <;> simp [AppointmentStatus.isEnd, AppointmentStatus.isPending]
    · exact AppointmentStatus.isVisit_of_active active
  | reschedule i a w k' w' b s row active window target other free left at_target status origin mode =>
    -- the old appointment leaves its window before the new one enters
    let left := { db with appointments := db.appointments.put i { a with status := .rescheduled } }
    have hl : Kept db left := ⟨.put .refl row ⟨rfl, rfl, rfl⟩, hk.reservations, hk.payments, hk.refunds⟩
    have settled : Prepaid left := h.of_settled hl (.put_back .refl row ⟨⟨rfl, rfl, rfl⟩, (by rintro ⟨⟩), (by rintro ⟨⟩)⟩)
    have gone : left.appointments.row i = some { a with status := .rescheduled } := Table.row_put_self row
    refine settled.of_reschedule ⟨.insert .refl, hk.reservations, hk.payments, hk.refunds⟩ rfl gone origin mode status ?_
    exact fun enabled => hl.paid (h.paid i a row enabled (AppointmentStatus.isVisit_of_active active))
  | reassign i a w k' w' staff reservations row occupies window target other free follows =>
    exact h.of_settled hk (.put_back .refl row ⟨⟨rfl, rfl, rfl⟩, id, id⟩)
  | payment => exact h.of_settled hk (.refl .refl)
  | request pid p r appointments row allowed status of pending positive room sync =>
    exact h.of_sync hk (fun t ht => by cases ht; rfl) sync
  | result pid p q x c c' r s appointments t? payment refund allowed of same step applied target sync =>
    refine h.of_sync hk (fun t ht => ?_) sync
    rcases target with ht' | ⟨ht', -⟩
    · exact isRefund_of_syncTarget (ht'.symm.trans ht)
    · rw [ht'] at ht; cases ht

end Prepaid

namespace Sys

theorem prepaid_after (l : List Label) : Prepaid (after l).db :=
  keeps_after (fun _ _ h _ hm => h.of_move hm) .empty l

theorem exists_origin (l : List Label) {i : Nat} {a : Appointment} (row : (after l).db.appointments.row i = some a) :
    ∃ o, Origin (after l).db.appointments i o := by
  obtain ⟨o, -, chain, -⟩ := (prepaid_after l).rooted i a row
  exact ⟨o, chain⟩

/-- Whoever has a visit that started as a prepaid booking has paid for it, and the hold of that booking is
consumed. -/
theorem paid_before_confirmed (l : List Label) {i o : Nat} {a b : Appointment}
    (row : (after l).db.appointments.row i = some a) (visit : a.status.isVisit = true)
    (chain : Origin (after l).db.appointments i o) (first : (after l).db.appointments.row o = some b)
    (prepaid : b.paymentModeSnapshot ≠ .disabled) :
    (Captured (after l).db i ∨ Captured (after l).db o) ∧ Consumed (after l).db o := by
  obtain ⟨rooted, -, paid⟩ := prepaid_after l
  obtain ⟨o', b', chain', row', mode⟩ := rooted i a row
  obtain rfl := chain.unique chain'
  rw [first] at row'; cases row'
  obtain ⟨o', chain', captured, consumed⟩ := paid i a row (mode ▸ prepaid) visit
  obtain rfl := chain.unique chain'
  exact ⟨.inr captured, consumed⟩

open Salon in
/-- A booking that is paid through the provider and then moved to another window. -/
def paidAndMoved : List Label :=
  let asked := askedPayment 2 .yookassa 1 1
  [⟨salon .yookassa, 0, openWindow 10⟩, ⟨salon .yookassa, 0, openWindow 12⟩,
    ⟨salon .yookassa, minutes 1, bookWindow 2 1⟩,
    ⟨salon .yookassa, minutes 2, .submitPayment 1 asked (.ok (pendingAnswer asked))⟩,
    ⟨salon .yookassa, minutes 3, .claimEvent (notice asked "succeeded")⟩,
    ⟨salon .yookassa, minutes 3, .applyPaymentResult (notice asked "succeeded") (succeededAnswer asked)⟩,
    ⟨salon .yookassa, minutes 3, .reconcilePaid 1⟩,
    ⟨salon .yookassa, minutes 4, .reschedule (.client 2) 1 2⟩]

theorem paid_before_confirmed_moved :
    (Captured (after paidAndMoved).db 2 ∨ Captured (after paidAndMoved).db 1) ∧ Consumed (after paidAndMoved).db 1 := by
  have new : (((after paidAndMoved).db.appointments.row 2).map fun a => (a.status, a.rescheduledFromId)) =
      some (.confirmed, some 1) := by decide +kernel
  have old : (((after paidAndMoved).db.appointments.row 1).map fun a => (a.paymentModeSnapshot, a.rescheduledFromId)) =
      some (.yookassa, none) := by decide +kernel
  obtain ⟨a, row, ha⟩ := Option.map_eq_some_iff.mp new
  obtain ⟨b, first, hb⟩ := Option.map_eq_some_iff.mp old
  obtain ⟨status, from_⟩ := Prod.mk.inj ha
  obtain ⟨mode, none⟩ := Prod.mk.inj hb
  exact paid_before_confirmed paidAndMoved row (by rw [status]; rfl)
    (.link 2 a 1 1 row from_ (.start 1 b first none)) first (by rw [mode]; decide)

end Sys

end SalonBooking
