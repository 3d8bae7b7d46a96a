import SalonBooking.Services.HardDelete

/-!
# What a hard delete leaves alone

The cascade deletes by the service and by the appointments of the service, so the appointments, reservations and
payments of other services stay. Its windows are those of every appointment the service ever had, and they are closed
whoever holds them by now.
-/

namespace SalonBooking

open Lib

/-- The appointment without its link to one of `ids`. -/
def Appointment.unlinked (ids : List Nat) (a : Appointment) : Appointment :=
  { a with rescheduledFromId := a.rescheduledFromId.filter (· ∉ ids) }

theorem Appointment.unlinked_eq {ids : List Nat} {a : Appointment} :
    (if a.rescheduledFromId.any (· ∈ ids) then { a with rescheduledFromId := none } else a) = a.unlinked ids := by
  obtain ⟨_, _, _, _, _, link, _⟩ := a
  cases link with
  | none => rfl
  | some k => by_cases hk : k ∈ ids <;> simp [unlinked, hk, Option.filter]

theorem Appointment.unlinked_nil {a : Appointment} : a.unlinked [] = a := by
  obtain ⟨_, _, _, _, _, link, _⟩ := a
  cases link <;> rfl

namespace HardDeleteRepository

variable {s : SalonRecords} {ids : List Nat} {serviceId i : Nat} {a : Appointment} {r : Reservation} {p : Payment} {w : Window}

/-! ### The parts of the cascade -/

@[simp] theorem deleteWaitlistEntries_db : (deleteWaitlistEntries ids s).db = s.db := by
  unfold deleteWaitlistEntries
  split <;> rfl

@[simp] theorem deleteReviews_db : (deleteReviews ids s).db = s.db := by
  unfold deleteReviews
  split <;> rfl

theorem deletePayments_db : (deletePayments ids s).db.windows = s.db.windows ∧
    (deletePayments ids s).db.appointments = s.db.appointments ∧
    (deletePayments ids s).db.reservations = s.db.reservations := by
  unfold deletePayments
  split <;> exact ⟨rfl, rfl, rfl⟩

theorem deletePayments_payments :
    (deletePayments ids s).db.payments.row i = some p ↔ s.db.payments.row i = some p ∧ i ∉ ids := by
  unfold deletePayments
  split
  · rename_i none
    simp [none]
  · exact Table.row_deleteWhere.trans (by simp)

theorem deleteAppointments_db (h : ids ≠ []) :
    (deleteAppointments ids s).db =
      { (deletePayments (s.db.payments.keysWhere fun _ p => p.appointmentId ∈ ids) s).db with
        reservations := s.db.reservations.deleteWhere fun _ r => r.appointmentId.any (· ∈ ids)
        history := (deletePayments (s.db.payments.keysWhere fun _ p => p.appointmentId ∈ ids) s).db.history.filter
          fun h => h.appointmentId ∉ ids
        appointments := (s.db.appointments.updateWhere (fun _ a => a.rescheduledFromId.any (· ∈ ids))
          fun a => { a with rescheduledFromId := none }).deleteWhere fun i _ => i ∈ ids } := by
  obtain ⟨-, appointments, reservations⟩ :=
    @deletePayments_db s (s.db.payments.keysWhere fun _ p => decide (p.appointmentId ∈ ids))
  simp only [deleteAppointments, if_neg h, deleteScoped, deleteWaitlistEntries_db, deleteReviews_db, appointments,
    reservations]

/-- What `_delete_appointments` does to the tables of the bookings. -/
structure Deletes (ids : List Nat) (db db' : Db) : Prop where
  windows : db'.windows = db.windows
  appointments : ∀ i a, db.appointments.row i = some a → i ∉ ids →
    db'.appointments.row i = some (a.unlinked ids)
  reservations : ∀ i r, db'.reservations.row i = some r ↔
    db.reservations.row i = some r ∧ ∀ k ∈ r.appointmentId, k ∉ ids
  payments : ∀ i p, db'.payments.row i = some p ↔ db.payments.row i = some p ∧ p.appointmentId ∉ ids

theorem deleteAppointments_deletes : Deletes ids s.db (deleteAppointments ids s).db := by
  by_cases h : ids = []
  · subst h
    refine ⟨rfl, fun i a row _ => ?_, fun i r => ?_, fun i p => ?_⟩
    · rw [Appointment.unlinked_nil]
      exact row
    · simp [deleteAppointments]
    · simp [deleteAppointments]
  · rw [deleteAppointments_db h]
    refine ⟨deletePayments_db.1, fun i a row hi => ?_, fun i r => ?_, fun i p => ?_⟩
    · refine Table.row_deleteWhere_of_not ?_ (by simpa using hi)
      rw [Table.row_updateWhere row, Appointment.unlinked_eq]
    · refine Table.row_deleteWhere.trans (and_congr_right fun _ => ?_)
      cases r.appointmentId with
      | none => simp
      | some k => simp
    · refine deletePayments_payments.trans (and_congr_right fun row => not_congr ?_)
      rw [Table.mem_keysWhere]
      constructor
      · rintro ⟨q, hq, hmem⟩
        obtain rfl := Option.some.inj (row.symm.trans hq)
        exact of_decide_eq_true hmem
      · exact fun hmem => ⟨p, row, decide_eq_true hmem⟩

/-! ### The whole cascade -/

def ofService (db : Db) (serviceId : Nat) : List Nat := db.appointments.keysWhere fun _ a => a.serviceId = serviceId

theorem mem_ofService {db : Db} : i ∈ ofService db serviceId ↔ ∃ a, db.appointments.row i = some a ∧ a.serviceId = serviceId := by
  simp only [ofService, Table.mem_keysWhere, decide_eq_true_eq]

/-- The window is linked to the service, or one of its appointments, past or present, was given it. -/
def Closes (s : SalonRecords) (serviceId k : Nat) : Prop :=
  s.windowService k = some serviceId ∨
    ∃ i a, s.db.appointments.row i = some a ∧ a.serviceId = serviceId ∧ a.windowId = k

/-- What the cascade does to the tables of the bookings. -/
structure Cascades (serviceId : Nat) (s : SalonRecords) (db' : Db) : Prop where
  windows : ∀ k w, s.db.windows.row k = some w →
    (Closes s serviceId k → db'.windows.row k = some { w with status := .closed }) ∧
      (¬ Closes s serviceId k → db'.windows.row k = some w)
  appointments : ∀ i a, s.db.appointments.row i = some a → a.serviceId ≠ serviceId →
    db'.appointments.row i = some (a.unlinked (ofService s.db serviceId))
  reservations : ∀ i r, db'.reservations.row i = some r ↔
    s.db.reservations.row i = some r ∧ r.serviceId ≠ serviceId ∧ ∀ k ∈ r.appointmentId, k ∉ ofService s.db serviceId
  payments : ∀ i p, db'.payments.row i = some p ↔
    s.db.payments.row i = some p ∧ p.appointmentId ∉ ofService s.db serviceId

theorem deleteServiceRows_db : (deleteServiceRows serviceId ids s).db =
    { s.db with reservations := s.db.reservations.deleteWhere fun _ r => r.serviceId = serviceId } := by
  unfold deleteServiceRows
  dsimp only
  split <;> simp only [deleteWaitlistEntries_db]

theorem windowService_deleteAppointments :
    (deleteAppointments ids (deleteServiceRows serviceId ids s)).windowService = s.windowService := by
  have entries : ∀ l (s : SalonRecords), (deleteWaitlistEntries l s).windowService = s.windowService := by
    intro l s
    unfold deleteWaitlistEntries
    split <;> rfl
  have reviews : ∀ l (s : SalonRecords), (deleteReviews l s).windowService = s.windowService := by
    intro l s
    unfold deleteReviews
    split <;> rfl
  have payments : ∀ l (s : SalonRecords), (deletePayments l s).windowService = s.windowService := by
    intro l s
    unfold deletePayments
    split <;> rfl
  have rows : (deleteServiceRows serviceId ids s).windowService = s.windowService := by
    unfold deleteServiceRows
    dsimp only
    split <;> simp only [entries]
  unfold deleteAppointments
  split
  · exact rows
  · simp only [deleteScoped, entries, reviews, payments, rows]

theorem deleteServiceWithHistory_cascades : Cascades serviceId s (deleteServiceWithHistory serviceId s).2.db := by
  have deletes := @deleteAppointments_deletes (deleteServiceRows serviceId (ofService s.db serviceId) s) (ofService s.db serviceId)
  rw [deleteServiceRows_db] at deletes
  refine ⟨fun k w row => ?_, fun i a row other => ?_, fun i r => ?_, fun i p => ?_⟩
  · have row' : (deleteAppointments (ofService s.db serviceId)
        (deleteServiceRows serviceId (ofService s.db serviceId) s)).db.windows.row k = some w := by
      rw [deletes.windows]
      exact row
    have written := Table.row_updateWhere (p := fun k _ => (deleteAppointments (ofService s.db serviceId)
      (deleteServiceRows serviceId (ofService s.db serviceId) s)).windowService k = some serviceId ||
        k ∈ (ofService s.db serviceId).filterMap fun i => (s.db.appointments.row i).map (·.windowId))
      (f := fun w => { w with status := .closed }) row'
    have closes : ((deleteAppointments (ofService s.db serviceId)
        (deleteServiceRows serviceId (ofService s.db serviceId) s)).windowService k = some serviceId ||
          k ∈ (ofService s.db serviceId).filterMap fun i => (s.db.appointments.row i).map (·.windowId)) = true ↔
        Closes s serviceId k := by
      rw [windowService_deleteAppointments, Bool.or_eq_true, decide_eq_true_eq, decide_eq_true_eq, List.mem_filterMap]
      refine or_congr_right ⟨?_, ?_⟩
      · rintro ⟨i, hi, hwindow⟩
        obtain ⟨a, ha, hs⟩ := mem_ofService.mp hi
        rw [ha, Option.map_some, Option.some.injEq] at hwindow
        exact ⟨i, a, ha, hs, hwindow⟩
      · rintro ⟨i, a, ha, hs, hwindow⟩
        exact ⟨i, mem_ofService.mpr ⟨a, ha, hs⟩, by rw [ha, Option.map_some, hwindow]⟩
    constructor
    · intro h
      rwa [if_pos (closes.mpr h)] at written
    · intro h
      rwa [if_neg (fun yes => h (closes.mp yes))] at written
  · refine deletes.appointments i a row fun hi => other ?_
    obtain ⟨b, hb, hs⟩ := mem_ofService.mp hi
    exact Option.some.inj (row.symm.trans hb) ▸ hs
  · refine (deletes.reservations i r).trans ?_
    rw [Table.row_deleteWhere, decide_eq_false_iff_not, and_assoc]
  · exact deletes.payments i p

end HardDeleteRepository

namespace ServiceCatalog

open HardDeleteRepository

variable {c : Catalog} {actor : Int} {context : Option StaffContext} {serviceId n : Nat} {s s' : SalonRecords}

/-- An occupying appointment or a live reservation of another service holds the window. -/
def HeldByAnother (db : Db) (serviceId k : Nat) : Prop :=
  (∃ i a, db.appointments.row i = some a ∧ a.windowId = k ∧ a.serviceId ≠ serviceId ∧ a.status.occupies = true) ∨
    ∃ i r, db.reservations.row i = some r ∧ r.windowId = k ∧ r.serviceId ≠ serviceId ∧ r.status.isLive = true

/-- The bookings of the other services are as they were, but for links to appointments that are gone, and their windows
keep their statuses. -/
structure Framed (serviceId : Nat) (db db' : Db) : Prop where
  appointments : ∀ i a, db.appointments.row i = some a → a.serviceId ≠ serviceId →
    db'.appointments.row i = some a ∨ db'.appointments.row i = some { a with rescheduledFromId := none }
  reservations : ∀ i r, db.reservations.row i = some r → r.serviceId ≠ serviceId → db'.reservations.row i = some r
  payments : ∀ i p, db.payments.row i = some p →
    (∀ a, db.appointments.row p.appointmentId = some a → a.serviceId ≠ serviceId) → db'.payments.row i = some p
  windows : ∀ k w, db.windows.row k = some w → HeldByAnother db serviceId k →
    ∃ w', db'.windows.row k = some w' ∧ w'.status = w.status

/-- A reservation is for the service of its appointment. -/
def ReservationsAgree (db : Db) (serviceId : Nat) : Prop :=
  ∀ i r, db.reservations.row i = some r → r.serviceId ≠ serviceId →
    ∀ k ∈ r.appointmentId, ∀ a, db.appointments.row k = some a → a.serviceId ≠ serviceId

theorem unlinked_cases (ids : List Nat) (a : Appointment) :
    a.unlinked ids = a ∨ a.unlinked ids = { a with rescheduledFromId := none } := by
  rw [← Appointment.unlinked_eq]
  split
  · exact .inr rfl
  · exact .inl rfl

/-- **A hard delete leaves the bookings of the other services alone when the reservations agree with their appointments
and every window that it closes and another service holds is closed already, and otherwise not.** -/
theorem force_delete_framed_iff (h : forceDeleteService c actor context serviceId s = .ok (n, s')) :
    Framed serviceId s.db s'.db ↔
      ReservationsAgree s.db serviceId ∧
        ∀ k w, s.db.windows.row k = some w → Closes s serviceId k → HeldByAnother s.db serviceId k → w.status = .closed := by
  have cascade : Cascades serviceId s s'.db := by
    simp only [forceDeleteService, Except.bind_ok, Except.pure_ok] at h
    obtain ⟨-, -, -, -, h⟩ := h
    have same : s' = (deleteServiceWithHistory serviceId s).2 := by rw [h]
    rw [same]
    exact deleteServiceWithHistory_cascades
  constructor
  · intro framed
    refine ⟨fun i r row other k hk a ha hs => ?_, fun k w row closes held => ?_⟩
    · have kept := ((cascade.reservations i r).mp (framed.reservations i r row other)).2.2 k hk
      exact kept (mem_ofService.mpr ⟨a, ha, hs⟩)
    · obtain ⟨w', row', status⟩ := framed.windows k w row held
      obtain rfl := Option.some.inj (row'.symm.trans ((cascade.windows k w row).1 closes))
      exact status.symm
  · rintro ⟨agree, closed⟩
    refine ⟨fun i a row other => ?_, fun i r row other => ?_, fun i p row other => ?_, fun k w row held => ?_⟩
    · rw [cascade.appointments i a row other]
      exact (unlinked_cases _ a).imp (congrArg some) (congrArg some)
    · refine (cascade.reservations i r).mpr ⟨row, other, fun k hk hmem => ?_⟩
      obtain ⟨a, ha, hs⟩ := mem_ofService.mp hmem
      exact agree i r row other k hk a ha hs
    · refine (cascade.payments i p).mpr ⟨row, fun hmem => ?_⟩
      obtain ⟨a, ha, hs⟩ := mem_ofService.mp hmem
      exact other a ha hs
    · by_cases closes : Closes s serviceId k
      · exact ⟨_, (cascade.windows k w row).1 closes, (closed k w row closes held).symm⟩
      · exact ⟨w, (cascade.windows k w row).2 closes, rfl⟩

/-! ### A salon with two services -/

def twoServices : Catalog :=
  { salon .disabled with
    service i := if i = 2 then (salon .disabled).service 1 else (salon .disabled).service i
    servicesOf _ := [1, 2]
    assignment staff service :=
      if staff = 1 ∧ (service = 1 ∨ service = 2) then some ⟨none, none, none, none, none, true, true⟩ else none }

/-- The bookings, and the first service among the services. -/
def ofBookings (db : Db) : SalonRecords where
  db := db
  windowService _ := none
  windowWorkstation _ := none
  services := .insert .empty ⟨true, true, none, 10000, 60, 60, some 10000⟩
  addons := .empty
  addonSnapshots := .empty
  waitlistEntries := .empty
  waitlistNotifications := .empty
  jobs := .empty
  reviews := .empty
  referenceMedia := .empty
  assignments := .empty
  workstationServices := .empty
  portfolio := .empty

open Salon in
/-- A client books the second service in a window. -/
def bookSecond (client : Int) (window : Nat) : Cmd :=
  .book client ⟨2, [], window, none, none, [], checkoutKey client, "reservation-token-0000000000000" ++ toString client⟩
    false none

open Salon in
/-- A window for each of two services. -/
def apart : Db :=
  (run Sys.step .empty [⟨twoServices, 0, openWindow 8⟩, ⟨twoServices, 0, openWindow 12⟩,
    ⟨twoServices, minutes 1, bookWindow 2 1⟩, ⟨twoServices, minutes 2, bookSecond 3 2⟩]).db

theorem force_delete_framed_apart :
    ∃ r, forceDeleteService twoServices 1 none 1 (ofBookings apart) = .ok r ∧ Framed 1 apart r.2.db := by
  have agree : apart.reservations.All fun _ r => r.serviceId ≠ 1 →
      ∀ k ∈ r.appointmentId, apart.appointments.All fun i a => i = k → a.serviceId ≠ 1 := by decide +kernel
  have free : apart.windows.All fun k _ =>
      (apart.appointments.All fun _ a => a.serviceId = 1 → a.windowId ≠ k) ∨
        (apart.appointments.All fun _ a => a.windowId = k → a.serviceId = 1) ∧
          apart.reservations.All fun _ r => r.windowId = k → r.serviceId = 1 := by decide +kernel
  obtain ⟨⟨n, s'⟩, ok⟩ : ∃ r, forceDeleteService twoServices 1 none 1 (ofBookings apart) = .ok r := ⟨_, rfl⟩
  refine ⟨(n, s'), ok, (force_delete_framed_iff ok).mpr ⟨?_, ?_⟩⟩
  · exact fun i r row other k hk a ha => agree i r row other k hk k a ha rfl
  · intro k w row closes held
    rcases closes with link | ⟨i, a, ha, service, window⟩
    · cases link
    · rcases free k w row with none | ⟨appointments, reservations⟩
      · exact absurd window (none i a ha service)
      · rcases held with ⟨i, a, ha, window, other, -⟩ | ⟨i, r, hr, window, other, -⟩
        · exact absurd (appointments i a ha window) other
        · exact absurd (reservations i r hr window) other

open Salon in
/-- A client cancels a visit of the first service, and another one books the second service in the same window. -/
def takenOver : Db :=
  (run Sys.step .empty [⟨twoServices, 0, openWindow 12⟩, ⟨twoServices, minutes 1, bookWindow 2 1⟩,
    ⟨twoServices, minutes 2, .endVisit (.cancelMy 2 none) 1⟩, ⟨twoServices, minutes 3, bookSecond 3 1⟩]).db

/-- The hard delete of the first service closes the window of the other client's confirmed visit. -/
theorem force_delete_closes_held :
    ∃ r, forceDeleteService twoServices 1 none 1 (ofBookings takenOver) = .ok r ∧
      (takenOver.windows.row 1).map (·.status) = some .booked ∧ HeldByAnother takenOver 1 1 ∧
        (r.2.db.windows.row 1).map (·.status) = some .closed ∧ ¬ Framed 1 takenOver r.2.db := by
  have booked : (takenOver.windows.row 1).map (·.status) = some .booked := by decide +kernel
  have visit : ∃ a ∈ takenOver.appointments.row 2, a.windowId = 1 ∧ a.serviceId ≠ 1 ∧ a.status.occupies = true := by
    decide +kernel
  have closed : ∀ r ∈ (forceDeleteService twoServices 1 none 1 (ofBookings takenOver)).toOption,
      (r.2.db.windows.row 1).map (·.status) = some .closed := by decide +kernel
  obtain ⟨a, ha, held⟩ := visit
  have held : HeldByAnother takenOver 1 1 := .inl ⟨2, a, ha, held⟩
  refine ⟨_, rfl, booked, held, closed _ rfl, fun framed => ?_⟩
  obtain ⟨w, row, status⟩ := Option.map_eq_some_iff.mp booked
  obtain ⟨w', row', same⟩ := framed.windows 1 w row held
  have := closed _ rfl
  rw [row', Option.map_some, same, status] at this
  cases this

end ServiceCatalog

end SalonBooking
