import SalonBooking.Bookings.Spacing

/-!
# The daily cap

Booking and rescheduling count the appointments of a master's day before they add one; nothing else may add
one, except that a reassignment brings appointments to the target master's open windows without counting her
day. What is counted is read off the windows, so the count is about the appointments only as long as each of
them starts when its window does, and it is about a local date only as long as the UTC bounds of the date hold
them.
-/

namespace SalonBooking

open Lib

/-- The appointment counts for this master on this day. -/
def Appointment.countsOn (a : Appointment) (z : Zone) (staffMemberId : Nat) (day : Int) : Bool :=
  a.status.countsCapacity && a.staffMemberId == staffMemberId && z.localDate a.scheduledStartAt == day

theorem Appointment.countsOn_iff {a : Appointment} {z : Zone} {staffMemberId : Nat} {day : Int} :
    a.countsOn z staffMemberId day = true ↔ a.status.countsCapacity = true ∧ a.staffMemberId = staffMemberId ∧
      z.localDate a.scheduledStartAt = day := by
  simp only [countsOn, Bool.and_eq_true, beq_iff_eq, and_assoc]

/-- How many appointments count for a master on a day. -/
def Db.load (db : Db) (z : Zone) (staffMemberId : Nat) (day : Int) : Nat :=
  db.appointments.count fun _ a => a.countsOn z staffMemberId day

/-! ### Appointments and the times of their windows -/

/-- Every appointment starts when its window starts. -/
def Db.OnTime (db : Db) : Prop :=
  db.appointments.All fun _ a => ∃ w, db.windows.row a.windowId = some w ∧ w.startAt = a.scheduledStartAt

namespace Db.OnTime

variable {db db' : Db}

theorem of_windows (h : db.OnTime)
    (windows : ∀ k w, db.windows.row k = some w → (∃ i a, db.appointments.row i = some a ∧ a.windowId = k) →
      ∃ w', db'.windows.row k = some w' ∧ w'.startAt = w.startAt)
    (appointments : ∀ i a', db'.appointments.row i = some a' →
      (∃ j a, db.appointments.row j = some a ∧ a'.windowId = a.windowId ∧ a'.scheduledStartAt = a.scheduledStartAt) ∨
      ∃ w', db'.windows.row a'.windowId = some w' ∧ w'.startAt = a'.scheduledStartAt) : db'.OnTime := by
  intro i a' row'
  rcases appointments i a' row' with ⟨j, a, row, hwindow, hstart⟩ | new
  · obtain ⟨w, hw, start⟩ := h j a row
    obtain ⟨w', hw', start'⟩ := windows a.windowId w hw ⟨j, a, row, rfl⟩
    exact ⟨w', by rw [hwindow]; exact hw', by rw [start', start, hstart]⟩
  · exact new

end Db.OnTime

theorem Db.start_put {t : Table Window} {k : Nat} {w : Window} (row : t.row k = some w) (s : WindowStatus) (j : Nat)
    (u : Window) (hu : t.row j = some u) :
    ∃ u', (t.put k { w with status := s }).row j = some u' ∧ u'.startAt = u.startAt := by
  by_cases hj : j = k
  · subst hj
    rw [row] at hu; cases hu
    exact ⟨{ w with status := s }, Table.row_put_self row, rfl⟩
  · exact ⟨u, by rw [Table.row_put_ne hj]; exact hu, rfl⟩

theorem RefundSync.appointments {t t' : Table Appointment} {i : Nat} {s : Option AppointmentStatus}
    (h : RefundSync t i s t') {j : Nat} {a' : Appointment} (row : t'.row j = some a') :
    t.row j = some a' ∨ ∃ a u, t.row j = some a ∧ s = some u ∧ a' = { a with status := u } := by
  cases h with
  | none => exact .inl row
  | already => exact .inl row
  | edge a u row₀ edge =>
    rcases (Table.row_put_eq_some row₀).mp row with ⟨rfl, rfl⟩ | ⟨-, row⟩
    · exact .inr ⟨a, u, row₀, rfl, rfl⟩
    · exact .inl row

theorem Db.OnTime.of_move {may : Db → Effect → Prop} {db db' : Db} (h : db.OnTime) (hm : Move may db db') :
    db'.OnTime := by
  have stay : ∀ k (w : Window), db.windows.row k = some w →
      (∃ i a, db.appointments.row i = some a ∧ a.windowId = k) →
      ∃ w', db.windows.row k = some w' ∧ w'.startAt = w.startAt := fun k w hw _ => ⟨w, hw, rfl⟩
  have same : ∀ i (a : Appointment), db.appointments.row i = some a →
      ∃ j a₀, db.appointments.row j = some a₀ ∧ a.windowId = a₀.windowId ∧ a.scheduledStartAt = a₀.scheduledStartAt :=
    fun i a row => ⟨i, a, row, rfl, rfl⟩
  have rewritten : ∀ i (a b : Appointment), db.appointments.row i = some a → b.windowId = a.windowId →
      b.scheduledStartAt = a.scheduledStartAt → ∀ j a', (db.appointments.put i b).row j = some a' →
      ∃ j a, db.appointments.row j = some a ∧ a'.windowId = a.windowId ∧ a'.scheduledStartAt = a.scheduledStartAt := by
    intro i a b row hwindow hstart j a' row'
    rcases (Table.row_put_eq_some row).mp row' with ⟨rfl, rfl⟩ | ⟨-, row'⟩
    · exact ⟨j, a, row, hwindow, hstart⟩
    · exact same j a' row'
  cases hm with
  | idle => exact h.of_windows stay fun i a' row => .inl (same i a' row)
  | createWindow w =>
    exact h.of_windows (fun k w hw _ => ⟨w, Table.row_insert_of_some hw, rfl⟩) fun i a' row => .inl (same i a' row)
  | setWindow k w s row =>
    exact h.of_windows (fun j u hu _ => Db.start_put row _ j u hu) fun i a' row => .inl (same i a' row)
  | deleteWindow k w row status unused =>
    refine h.of_windows (fun j u hu ⟨i, a, ha, hj⟩ => ⟨u, ?_, rfl⟩) fun i a' row => .inl (same i a' row)
    have other : j ≠ k := by
      intro he
      exact unused i a ha (hj.trans he)
    rw [Table.row_erase, if_neg other, hu]
  | place k w a row free window status mode origin events history log admitted =>
    refine h.of_windows (fun j u hu _ => Db.start_put row _ j u hu) fun i a' row' => ?_
    rcases Table.row_insert_eq_some.mp row' with ⟨-, rfl⟩ | row'
    · refine .inr ⟨{ w with status := .booked }, ?_, admitted.start.symm⟩
      rw [window]
      exact Table.row_put_self row
    · exact .inl (same i a' row')
  | hold k w a r p row free window status mode origin live appointmentId agrees payment created provider unrefunded
      unpaid money events history log admitted =>
    refine h.of_windows (fun j u hu _ => Db.start_put row _ j u hu) fun i a' row' => ?_
    rcases Table.row_insert_eq_some.mp row' with ⟨-, rfl⟩ | row'
    · refine .inr ⟨{ w with status := .reserved }, ?_, admitted.start.symm⟩
      rw [window]
      exact Table.row_put_self row
    · exact .inl (same i a' row')
  | confirmHold k w i a j r t window appointment =>
    refine h.of_windows (fun j u hu _ => Db.start_put window _ j u hu) fun i' a' row' => .inl ?_
    exact rewritten i a { a with status := .confirmed, reservationExpiresAt := none } appointment rfl rfl i' a' row'
  | releaseHold k w i a j r t a' r' payments window appointment reservation at_window pending live belongs agrees same =>
    refine h.of_windows (fun j u hu _ => Db.start_put window _ j u hu) fun i' b row' => .inl ?_
    exact rewritten i a a' appointment same.windowId same.scheduledStartAt i' b row'
  | report i a j r pid p q t appointment =>
    refine h.of_windows stay fun i' a' row' => .inl ?_
    exact rewritten i a { a with status := .pendingManualConfirmation, reservationExpiresAt := t } appointment rfl rfl
      i' a' row'
  | confirmVisit i a t row =>
    refine h.of_windows stay fun i' a' row' => .inl ?_
    exact rewritten i a { a with status := .clientConfirmed, clientConfirmedAt := t } row rfl rfl i' a' row'
  | endVisit w i a a' s row active window same =>
    refine h.of_windows (fun j u hu _ => Db.start_put window _ j u hu) fun i' b row' => .inl ?_
    exact rewritten i a a' row same.windowId same.scheduledStartAt i' b row'
  | reschedule i a w k' w' b s row active window target other free left at_target status origin mode client events
      history log admitted =>
    have target' : (db.windows.put a.windowId { w with status := s }).row k' = some w' := by
      rw [Table.row_put_ne (Ne.symm other), target]
    refine h.of_windows (fun j u hu _ => ?_) fun i' a' row' => ?_
    · obtain ⟨u', hu', start⟩ := Db.start_put window s j u hu
      obtain ⟨u'', hu'', start'⟩ := Db.start_put target' .booked j u' hu'
      exact ⟨u'', hu'', start'.trans start⟩
    · rcases Table.row_insert_eq_some.mp row' with ⟨-, rfl⟩ | row'
      · refine .inr ⟨{ w' with status := .booked }, ?_, admitted.start.symm⟩
        rw [at_target]
        exact Table.row_put_self target'
      · exact .inl (rewritten i a { a with status := .rescheduled } row rfl rfl i' a' row')
  | reassign i a w k' w' staff reservations row occupies window target other free follows events history log start =>
    have target' : (db.windows.put a.windowId { w with status := .open }).row k' = some w' := by
      rw [Table.row_put_ne (Ne.symm other), target]
    refine h.of_windows (fun j u hu _ => ?_) fun i' a' row' => ?_
    · obtain ⟨u', hu', start⟩ := Db.start_put window .open j u hu
      obtain ⟨u'', hu'', start'⟩ := Db.start_put target'
        (if a.status.isPending then .reserved else .booked) j u' hu'
      exact ⟨u'', hu'', start'.trans start⟩
    · rcases (Table.row_put_eq_some row).mp row' with ⟨rfl, rfl⟩ | ⟨-, row'⟩
      · exact .inr ⟨_, Table.row_put_self target', start⟩
      · exact .inl (same i' a' row')
  | payment => exact h.of_windows stay fun i a' row => .inl (same i a' row)
  | request pid p r appointments row allowed status of pending positive room sync =>
    refine h.of_windows stay fun i a' row' => .inl ?_
    rcases sync.appointments row' with before | ⟨a, u, before, -, rfl⟩
    · exact same i a' before
    · exact ⟨i, a, before, rfl, rfl⟩
  | result pid p q x c c' r s appointments t? payment refund allowed of same' step applied target sync =>
    refine h.of_windows stay fun i a' row' => .inl ?_
    rcases sync.appointments row' with before | ⟨a, u, before, -, rfl⟩
    · exact same i a' before
    · exact ⟨i, a, before, rfl, rfl⟩

/-! ### What a move adds to a day -/

/-- No day of a master gains an appointment. -/
def Db.LoadsSubside (db db' : Db) : Prop :=
  ∀ i a', db'.appointments.row i = some a' → a'.status.countsCapacity = true →
    ∃ a, db.appointments.row i = some a ∧ a.status.countsCapacity = true ∧ a'.staffMemberId = a.staffMemberId ∧
      a'.scheduledStartAt = a.scheduledStartAt

/-- One appointment is added to a day with room. -/
structure AppointmentAdmitted (may : Db → Effect → Prop) (db db' : Db) (k : Nat) (a : Appointment) (w : Window)
    (excludeId : Option Nat) : Prop where
  admitted : Admitted may db w excludeId a
  row : db'.appointments.row k = some a
  others : ∀ i a', i ≠ k → db'.appointments.row i = some a' → a'.status.countsCapacity = true →
    some i ≠ excludeId ∧ db.appointments.row i = some a'

namespace Db.LoadsSubside

variable {db db' : Db} {i : Nat} {a b : Appointment}

theorem refl (h : db'.appointments = db.appointments) : db.LoadsSubside db' :=
  fun i a row counts => ⟨a, by rw [← h]; exact row, counts, rfl, rfl⟩

theorem put (row : db.appointments.row i = some a) (counts : a.status.countsCapacity = true)
    (h : db'.appointments = db.appointments.put i b) (staff : b.staffMemberId = a.staffMemberId)
    (start : b.scheduledStartAt = a.scheduledStartAt) : db.LoadsSubside db' := by
  intro j a' row' counts'
  rw [h] at row'
  rcases (Table.row_put_eq_some row).mp row' with ⟨rfl, rfl⟩ | ⟨-, row'⟩
  · exact ⟨a, row, counts, staff, start⟩
  · exact ⟨a', row', counts', rfl, rfl⟩

theorem sync {t? : Option AppointmentStatus} (target : ∀ t ∈ t?, t.isRefund = true)
    (h : RefundSync db.appointments i t? db'.appointments) : db.LoadsSubside db' := by
  intro j a' row' counts'
  rcases h.appointments row' with before | ⟨a, u, before, rfl, rfl⟩
  · exact ⟨a', before, counts', rfl, rfl⟩
  · have refund := target u rfl
    cases u <;> simp_all [AppointmentStatus.isRefund, AppointmentStatus.countsCapacity, AppointmentStatus.occupies]

end Db.LoadsSubside

theorem AppointmentStatus.countsCapacity_of_occupies {s : AppointmentStatus} (h : s.occupies = true) :
    s.countsCapacity = true := by
  cases s <;> first | rfl | exact h

theorem Move.loads {may : Db → Effect → Prop} {db db' : Db} (stay : ∀ d, ¬ may d .transfer) (hm : Move may db db') :
    db.LoadsSubside db' ∨ ∃ k a w excludeId, AppointmentAdmitted may db db' k a w excludeId := by
  have inserted : ∀ a : Appointment, ∀ i a', i ≠ db.appointments.next → (db.appointments.insert a).row i = some a' →
      db.appointments.row i = some a' := by
    intro a i a' hi row'
    rwa [Table.row_insert, if_neg hi] at row'
  have counts : ∀ {a : Appointment}, a.status.isPending = true ∨ a.status.isActive = true →
      a.status.countsCapacity = true :=
    fun h => AppointmentStatus.countsCapacity_of_occupies ((AppointmentStatus.occupies_iff _).mpr h)
  cases hm with
  | place k w a row free window status mode origin events history log admitted =>
    exact .inr ⟨_, a, w, none, admitted, Table.row_insert_self, fun i a' hi row' _ => ⟨nofun, inserted a i a' hi row'⟩⟩
  | hold k w a r p row free window status mode origin live appointmentId agrees payment created provider unrefunded
      unpaid money events history log admitted =>
    exact .inr ⟨_, a, w, none, admitted, Table.row_insert_self, fun i a' hi row' _ => ⟨nofun, inserted a i a' hi row'⟩⟩
  | confirmHold k w i a j r t window appointment reservation at_window pending =>
    exact .inl (.put appointment (counts (.inl pending)) rfl rfl rfl)
  | releaseHold k w i a j r t a' r' payments window appointment reservation at_window pending live belongs agrees same =>
    exact .inl (.put appointment (counts (.inl pending)) rfl same.staffMemberId same.scheduledStartAt)
  | report i a j r pid p q t appointment reservation pending =>
    exact .inl (.put appointment (counts (.inl pending)) rfl rfl rfl)
  | confirmVisit i a t row status => exact .inl (.put row (counts (.inr (by rw [status]; rfl))) rfl rfl rfl)
  | endVisit w i a a' s row active window same =>
    exact .inl (.put row (counts (.inr active)) rfl same.staffMemberId same.scheduledStartAt)
  | reschedule i a w k' w' b s row active window target other free left at_target status origin mode client events
      history log admitted =>
    refine .inr ⟨_, b, w', some i, admitted, Table.row_insert_self, fun j a' hj row' hcounts => ?_⟩
    have row₁ : (db.appointments.put i { a with status := .rescheduled }).row j = some a' := by
      rw [Table.next_put] at hj
      rwa [Table.row_insert, Table.next_put, if_neg hj] at row'
    -- the appointment that is left no longer counts
    rcases (Table.row_put_eq_some row).mp row₁ with ⟨-, rfl⟩ | ⟨hne, before⟩
    · cases hcounts
    · exact ⟨fun he => hne (Option.some.inj he), before⟩
  | reassign i a w k' w' staff reservations row occupies window target other free follows events history log start moved =>
    obtain ⟨d, hd⟩ := moved
    exact absurd hd (stay d)
  | request pid p r appointments row allowed status of pending positive room sync =>
    exact .inl (.sync (by rintro t ⟨⟩; rfl) sync)
  | result pid p q x c c' r s appointments t? payment refund allowed of same step applied target sync =>
    refine .inl (.sync (fun t ht => ?_) sync)
    rcases target with rfl | ⟨rfl, -⟩
    · exact isRefund_of_syncTarget ht
    · cases ht
  | _ => exact .inl (.refl rfl)

/-! ### The cap -/

/-- The cap of every day of every master. -/
def Db.Capped (settings : BusinessSettings) (db : Db) : Prop :=
  ∀ staff day, db.load settings.timezone staff day ≤ settings.maxAppointmentsPerDay

/-- The UTC bounds of the day of the window hold the appointments that count for its master there. -/
def Window.CountsInSight (settings : BusinessSettings) (db : Db) (w : Window) : Prop :=
  db.appointments.All fun _ a =>
    a.countsOn settings.timezone w.staffMemberId (settings.timezone.localDate w.startAt) = true →
      (settings.timezone.utcDayBounds (settings.timezone.localDate w.startAt)).1 ≤ a.scheduledStartAt ∧
        a.scheduledStartAt < (settings.timezone.utcDayBounds (settings.timezone.localDate w.startAt)).2

instance (settings : BusinessSettings) (db : Db) (w : Window) : Decidable (w.CountsInSight settings db) :=
  inferInstanceAs (Decidable (Table.All _ _))

/-- What `count_capacity_between` counts. -/
theorem Db.countCapacityBetween_eq {db : Db} {startAt endAt : Int} {staff : Nat} {excludeId : Option Nat} :
    db.countCapacityBetween startAt endAt staff excludeId = db.appointments.count fun i a =>
      a.status.countsCapacity && a.staffMemberId == staff && decide (some i ≠ excludeId) &&
        (db.windows.row a.windowId).any fun w => decide (startAt ≤ w.startAt) && decide (w.startAt < endAt) :=
  rfl

namespace Db.Capped

variable {settings : BusinessSettings} {db db' : Db}

theorem of_subside (h : db.Capped settings) (subside : db.LoadsSubside db') : db'.Capped settings := by
  intro staff day
  refine le_trans (Table.count_le fun i a' row' counts' => ?_) (h staff day)
  obtain ⟨hcounts, hstaff, hday⟩ := Appointment.countsOn_iff.mp counts'
  obtain ⟨a, row, counts, staff', start⟩ := subside i a' row' hcounts
  exact ⟨a, row, Appointment.countsOn_iff.mpr ⟨counts, staff'.symm.trans hstaff, by rw [← start, hday]⟩⟩

theorem of_admitted (h : db.Capped settings) (onTime : db.OnTime) {may : Db → Effect → Prop} {k : Nat}
    {a : Appointment} {w : Window} {excludeId : Option Nat} (inSight : w.CountsInSight settings db) (added : AppointmentAdmitted may db db' k a w excludeId)
    (room : db.countCapacityBetween (settings.timezone.utcDayBounds (settings.timezone.localDate w.startAt)).1
      (settings.timezone.utcDayBounds (settings.timezone.localDate w.startAt)).2 w.staffMemberId excludeId <
        settings.maxAppointmentsPerDay) : db'.Capped settings := by
  rw [Db.countCapacityBetween_eq] at room
  intro staff day
  by_cases here : w.staffMemberId = staff ∧ settings.timezone.localDate w.startAt = day
  · obtain ⟨rfl, rfl⟩ := here
    -- the appointments of the day are those whose windows the code has counted
    refine le_trans (Table.count_le_succ (k := k) fun i a' hi row' counts' => ?_) room
    obtain ⟨hcounts, hstaff, hday⟩ := Appointment.countsOn_iff.mp counts'
    obtain ⟨hexclude, row⟩ := added.others i a' hi row' hcounts
    obtain ⟨v, hv, start⟩ := onTime i a' row
    have bounds := inSight i a' row counts'
    refine ⟨a', row, ?_⟩
    simp only [Bool.and_eq_true, beq_iff_eq, decide_eq_true_eq, hv, Option.any_some, start]
    exact ⟨⟨⟨hcounts, hstaff⟩, hexclude⟩, bounds⟩
  · refine le_trans (Table.count_le fun i a' row' counts' => ?_) (h staff day)
    obtain ⟨hcounts, hstaff, hday⟩ := Appointment.countsOn_iff.mp counts'
    by_cases hi : i = k
    · subst hi
      rw [added.row] at row'; cases row'
      exact absurd ⟨added.admitted.staff.symm.trans hstaff, by rw [← added.admitted.start]; exact hday⟩ here
    · exact ⟨a', (added.others i a' hi row' hcounts).2, counts'⟩

end Db.Capped

/-! ### Reassignment -/

namespace StaffRepository

variable {c : Catalog} {db db' : Db} {sourceStaffId targetId : Nat} {now : Int} {z : Zone}

/-- How many of the appointments to be moved start on a day. -/
def arrivals (z : Zone) (l : List (Nat × Appointment)) (day : Int) : Nat :=
  l.countP fun r => z.localDate r.2.scheduledStartAt == day

theorem load_reassignOne {m : Round} (h : reassignOne targetId db m = .ok db') (staff : Nat) (day : Int) :
    db'.load z staff day ≤ db.load z staff day +
      if staff = targetId ∧ z.localDate m.1.2.scheduledStartAt = day then 1 else 0 := by
  obtain ⟨⟨i, a⟩, k', w'⟩ := m
  have appointments : db'.appointments = db.appointments.put i { a with staffMemberId := targetId, windowId := k' } := by
    simp only [reassignOne, Except.bind_ok, Except.orRaise_ok] at h
    obtain ⟨w, -, h⟩ := h
    split at h <;> cases h <;> rfl
  have others : ∀ j b, j ≠ i → db'.appointments.row j = some b → db.appointments.row j = some b := by
    intro j b hj row
    rwa [appointments, Table.row_put_ne hj] at row
  by_cases here : staff = targetId ∧ z.localDate a.scheduledStartAt = day
  · rw [if_pos here]
    exact Table.count_le_succ (k := i) fun j b hj row hb => ⟨b, others j b hj row, hb⟩
  · rw [if_neg here, Nat.add_zero]
    refine Table.count_le fun j b row hb => ?_
    by_cases hj : j = i
    · subst hj
      cases hrow : db.appointments.row j with
      | none =>
        rw [appointments, Table.row_put_eq_none.mpr hrow] at row
        cases row
      | some a₀ =>
        rw [appointments, Table.row_put_self hrow] at row
        cases row
        obtain ⟨-, hstaff, hday⟩ := Appointment.countsOn_iff.mp hb
        exact absurd ⟨hstaff.symm, hday⟩ here
    · exact ⟨b, others j b hj row, hb⟩

/-- The loop takes the appointments that are moved onto the days of the target master, and nothing else onto
any day. -/
theorem load_reassignFutureAppointments (h : reassignFutureAppointments c sourceStaffId targetId now db = .ok db')
    (staff : Nat) (day : Int) : db'.load z staff day ≤ db.load z staff day +
      if staff = targetId then arrivals z (futureAppointments db sourceStaffId now) day else 0 := by
  obtain ⟨-, rounds, moved, -, h⟩ := rounds_of_reassign h
  rw [← moved]
  -- what is still to be moved has its room reserved
  refine (Except.foldlM_ok (I := fun l s => s.load z staff day + (if staff = targetId then
    arrivals z (l.map Prod.fst) day else 0) ≤ db.load z staff day +
      if staff = targetId then arrivals z (rounds.map Prod.fst) day else 0) ?_ le_rfl h).trans' ?_
  · intro m l s s' hI hround
    have one := load_reassignOne (z := z) hround staff day
    unfold arrivals at hI ⊢
    rw [List.map_cons, List.countP_cons] at hI
    by_cases hstaff : staff = targetId
    · by_cases hday : z.localDate m.1.2.scheduledStartAt = day
      · simp only [hstaff, hday, beq_self_eq_true, if_true, true_and] at one hI ⊢
        omega
      · simp only [hstaff, hday, beq_iff_eq, if_true, if_false, true_and] at one hI ⊢
        omega
    · simp only [hstaff, if_false, false_and] at one hI ⊢
      omega
  · exact Nat.le_add_right _ _

end StaffRepository

namespace AuthorizationService

/-- What a reassignment checks of the actor, the two masters and the appointments to be moved. -/
def mayReassign (c : Catalog) (actor : Int) (sourceStaffId targetId : Nat) (now : Int) (db : Db) : Bool :=
  decide (sourceStaffId ≠ targetId) &&
  (c.authorize actor .manageStaff).toOption.any (fun liveActor => (c.staff sourceStaffId).any fun source =>
    (requireManageableTarget liveActor sourceStaffId source).isOk) &&
  (c.staff targetId).any (fun target => target.isActive && target.archivedAt.isNone && target.isBookable) &&
  (StaffRepository.futureAppointments db sourceStaffId now).all fun r =>
    (c.assignment targetId r.2.serviceId).any (fun a => a.isActive) && (StaffRepository.exactWindow db targetId r.2).isSome

theorem mayReassign_of_ok {c : Catalog} {actor : Int} {sourceStaffId targetId : Nat} {now : Int} {db db' : Db}
    (h : reassignFutureAppointments c actor sourceStaffId targetId now db = .ok db') :
    mayReassign c actor sourceStaffId targetId now db = true ∧
      StaffRepository.reassignFutureAppointments c sourceStaffId targetId now db = .ok db' := by
  simp only [reassignFutureAppointments, Except.bind_ok, Except.mapError_ok, Except.require_ok, Except.orRaise_ok,
    exists_const] at h
  obtain ⟨different, liveActor, authorized, source, hsource, target, htarget, _, manageable, ready, db₁, moved,
    hcommit⟩ := h
  obtain ⟨-, rfl⟩ := Db.commit_ok.mp hcommit
  refine ⟨?_, moved⟩
  have found := StaffRepository.exactWindow_of_reassign moved
  obtain ⟨assigned, -⟩ := StaffRepository.rounds_of_reassign moved
  unfold mayReassign
  rw [authorized, hsource, htarget]
  simp only [Except.toOption, Option.any_some, manageable, Bool.and_eq_true, decide_eq_true_eq,
    Option.isNone_iff_eq_none, List.all_eq_true]
  exact ⟨⟨⟨different, rfl⟩, ⟨ready.1, ready.2.1⟩, ready.2.2⟩, fun r hr => ⟨assigned r hr, found r hr⟩⟩

end AuthorizationService

namespace Sys

/-- A reassignment that passes its checks finds room on the days it moves to. -/
def ReassignsWithRoom (settings : BusinessSettings) (s : Sys) (x : Label) : Prop :=
  match x.cmd with
  | .reassign actor sourceStaffId targetId =>
    AuthorizationService.mayReassign x.catalog actor sourceStaffId targetId x.now s.db = true →
    let moved := StaffRepository.futureAppointments s.db sourceStaffId x.now
    ∀ r ∈ moved, let day := settings.timezone.localDate r.2.scheduledStartAt
      s.db.load settings.timezone targetId day + StaffRepository.arrivals settings.timezone moved day ≤
        settings.maxAppointmentsPerDay
  | _ => True

instance (settings : BusinessSettings) (s : Sys) (x : Label) : Decidable (ReassignsWithRoom settings s x) := by
  obtain ⟨c, now, cmd⟩ := x
  unfold ReassignsWithRoom
  cases cmd <;> infer_instance

/-- A booking or reschedule that commits has counted all appointments of the local date. -/
def CountsInSight (settings : BusinessSettings) (s : Sys) (x : Label) : Prop :=
  s.commitsAt x → match x.cmd with
  | .book _ values _ _ => ∀ w ∈ s.db.windows.row values.windowId, w.CountsInSight settings s.db
  | .reschedule _ _ newWindowId => ∀ w ∈ s.db.windows.row newWindowId, w.CountsInSight settings s.db
  | _ => True

instance (settings : BusinessSettings) (s : Sys) (x : Label) : Decidable (CountsInSight settings s x) := by
  obtain ⟨c, now, cmd⟩ := x
  unfold CountsInSight
  cases cmd <;> infer_instance

theorem not_occurs_transfer {s : Sys} {x : Label} (h : ∀ actor source target, x.cmd ≠ .reassign actor source target) :
    ¬ s.Occurs x .transfer := by
  rintro ⟨-, causes⟩
  obtain ⟨c, now, cmd⟩ := x
  cases cmd with
  | reassign actor source target => exact h actor source target rfl
  | refundFailure => obtain ⟨r, -, ⟨t, he⟩ | he⟩ := submits_of_refundFailure causes <;> cases he
  | refundResult => obtain ⟨r, -, ⟨t, he⟩ | he⟩ := submits_of_refundResult causes <;> cases he
  | _ => simp [Causes] at causes

/-- Only booking and rescheduling admit appointments, after they have counted the day. -/
theorem CountsInSight.admits {settings : BusinessSettings} {s : Sys} {x : Label} {w : Window} {excludeId : Option Nat}
    (inSight : CountsInSight settings s x) (h : s.Occurs x (.accept w excludeId)) :
    x.catalog.Admits s.db w excludeId ∧ w.CountsInSight settings s.db := by
  obtain ⟨c, now, cmd⟩ := x
  obtain ⟨committed, h⟩ := h
  have inSight := inSight committed
  cases cmd with
  | book =>
    obtain ⟨v, row, admits, he⟩ := h
    cases he
    exact ⟨admits, inSight w row⟩
  | reschedule =>
    obtain ⟨v, row, admits, he⟩ := h
    cases he
    exact ⟨admits, inSight w row⟩
  | refundFailure => obtain ⟨r, -, ⟨t, he⟩ | he⟩ := submits_of_refundFailure h <;> cases he
  | refundResult => obtain ⟨r, -, ⟨t, he⟩ | he⟩ := submits_of_refundResult h <;> cases he
  | _ => simp [Causes] at h

theorem capped_step {settings : BusinessSettings} {s : Sys} {x : Label} (hs : s.Sound)
    (onTime : s.db.OnTime) (h : s.db.Capped settings) (fixed : ∀ t ∈ x.catalog.settings, t = settings)
    (room : ReassignsWithRoom settings s x) (inSight : CountsInSight settings s x) : (s.step x).db.OnTime ∧ (s.step x).db.Capped settings := by
  by_cases hcmd : ∀ actor source target, x.cmd ≠ .reassign actor source target
  · let may : Db → Effect → Prop := fun db e => e ≠ .transfer ∧ ∀ w excludeId, e = .accept w excludeId →
      db.countCapacityBetween (settings.timezone.utcDayBounds (settings.timezone.localDate w.startAt)).1
        (settings.timezone.utcDayBounds (settings.timezone.localDate w.startAt)).2 w.staffMemberId excludeId <
          settings.maxAppointmentsPerDay ∧ w.CountsInSight settings db
    have continues : Continues may s (s.step x) := by
      refine step_continues hs fun e he => ⟨?_, ?_⟩
      · rintro rfl
        exact not_occurs_transfer hcmd he
      · rintro w excludeId rfl
        obtain ⟨⟨configured, hconfigured, counted⟩, all⟩ := inSight.admits he
        obtain rfl := fixed configured hconfigured
        exact ⟨counted, all⟩
    refine continues.transaction.moves.keeps (P := fun db => db.OnTime ∧ db.Capped settings)
      (fun db db' hdb hm => ⟨hdb.1.of_move hm, ?_⟩) ⟨onTime, h⟩
    rcases hm.loads (fun d hd => hd.1 rfl) with subside | ⟨k, a, w, excludeId, added⟩
    · exact hdb.2.of_subside subside
    · obtain ⟨counted, all⟩ := added.admitted.allowed.2 w excludeId rfl
      exact hdb.2.of_admitted hdb.1 all added counted
  · push Not at hcmd
    obtain ⟨actor, source, target, hcmd⟩ := hcmd
    have continues : Continues (fun _ _ => True) s (s.step x) := step_continues hs fun _ _ => trivial
    refine ⟨continues.transaction.moves.keeps (P := Db.OnTime) (fun db db' hdb hm => hdb.of_move hm) onTime, ?_⟩
    obtain ⟨c, now, cmd⟩ := x
    subst hcmd
    unfold step
    cases hx : s.transact c now (.reassign actor source target) with
    | error e => exact h
    | ok s' =>
      simp only [transact, commits, Except.bind_ok, Except.pure_ok] at hx
      obtain ⟨db', hreassign, rfl⟩ := hx
      obtain ⟨allowed, moved⟩ := AuthorizationService.mayReassign_of_ok hreassign
      have fits := room allowed
      intro staff day
      have bound := StaffRepository.load_reassignFutureAppointments (z := settings.timezone) moved staff day
      refine bound.trans ?_
      by_cases hstaff : staff = target
      · rw [if_pos hstaff, hstaff]
        by_cases hday : ∃ r ∈ StaffRepository.futureAppointments s.db source now,
            settings.timezone.localDate r.2.scheduledStartAt = day
        · obtain ⟨r, hr, rfl⟩ := hday
          exact fits r hr
        · have nobody : StaffRepository.arrivals settings.timezone (StaffRepository.futureAppointments s.db source now)
              day = 0 := by
            refine List.countP_eq_zero.mpr fun r hr he => hday ⟨r, hr, ?_⟩
            exact beq_iff_eq.mp he
          rw [nobody]
          exact h target day
      · rw [if_neg hstaff]
        exact h staff day

/-- In every run under fixed settings in which no reassignment overfills a day and every count sees its whole day, no
master ever has more appointments on a local date than the settings allow. -/
theorem daily_cap (settings : BusinessSettings) (l : List Label)
    (fixed : ∀ x ∈ l, ∀ t ∈ x.catalog.settings, t = settings)
    (h : Guarded step (fun s x => ReassignsWithRoom settings s x ∧ CountsInSight settings s x) empty l)
    (staff : Nat) (day : Int) :
    (after l).db.load settings.timezone staff day ≤ settings.maxAppointmentsPerDay := by
  have guarded := (@guarded_of_forall _ _ step _ empty _ fixed).and h
  have start : empty.Sound ∧ empty.db.OnTime ∧ empty.db.Capped settings :=
    ⟨sound_empty, Table.all_empty, fun _ _ => Nat.zero_le _⟩
  refine (@run_induction Sys Label step _ (fun s => s.Sound ∧ s.db.OnTime ∧ s.db.Capped settings) ?_ empty start l
    guarded).2.2 staff day
  rintro s x ⟨sound, onTime, capped⟩ ⟨fixed, room, inSight⟩
  exact ⟨sound_step sound x, capped_step sound onTime capped fixed room inSight⟩

/-- Every count sees its whole day when the zone keeps its dates in order and the clock skips no midnight that a window
on offer follows. -/
theorem countsInSight_of_kept {settings : BusinessSettings} {z : TzInfo} (zone : settings.timezone = z.zone)
    (forward : z.Forward) {s : Sys} {x : Label}
    (kept : ∀ k w, s.db.windows.row k = some w → ¬ z.MidnightSkipped (z.zone.localDate w.startAt)) :
    CountsInSight settings s x := by
  have whole : ∀ k, ∀ w ∈ s.db.windows.row k, w.CountsInSight settings s.db := by
    intro k w row i a _ counts
    rw [zone] at counts ⊢
    exact Zone.mem_bounds forward (kept k w row) (Appointment.countsOn_iff.mp counts).2.2
  obtain ⟨c, now, cmd⟩ := x
  intro _
  cases cmd with
  | book => exact whole _
  | reschedule => exact whole _
  | _ => trivial

open Salon in
/-- The second master's only visit goes to the first one, who has a free day. -/
def movedVisit : List Label := [
  ⟨duo, 0, openWindowFor 1 14⟩, ⟨duo, 0, openWindowFor 2 14⟩, ⟨duo, minutes 1, bookWindow 2 2⟩,
  ⟨duo, hours 36, .reassign 1 2 1⟩]

theorem duo_fixed {l : List Label} (h : ∀ x ∈ l, x.catalog = duo) : ∀ x ∈ l, ∀ t ∈ x.catalog.settings,
    t = duo.settings.get rfl := by
  intro x hx t ht
  rw [h x hx] at ht
  cases ht
  rfl

theorem daily_cap_movedVisit : (after movedVisit).db.load (.fixed 0) 1 1 = 1 ∧
    (after movedVisit).db.load (.fixed 0) 1 1 ≤ (duo.settings.get rfl).maxAppointmentsPerDay := by
  have fixed := duo_fixed (l := movedVisit) (by simp [movedVisit])
  exact ⟨by decide +kernel,
    daily_cap (duo.settings.get rfl) movedVisit fixed (by decide +kernel) 1 1⟩

open Salon in
/-- After the first master's visit is completed, the owner opens another window on the same day, and the second
master's visit is moved there. -/
def secondVisit : List Label := [
  ⟨duo, 0, openWindowFor 1 10⟩, ⟨duo, 0, openWindowFor 2 14⟩,
  ⟨duo, minutes 1, bookWindow 2 1⟩, ⟨duo, minutes 2, bookWindow 3 2⟩,
  ⟨duo, hours 35, .endVisit (.completeVisit 1) 1⟩, ⟨duo, hours 35, openWindowFor 1 14⟩,
  ⟨duo, hours 36, .reassign 1 2 1⟩]

open Salon in
/-- Three clients book the windows of the day whose midnight is missing, of which two may be taken. -/
def marchVisits : List Label :=
  marchWindows ++ [⟨torontoSalon, days (-18540), bookWindow 2 1⟩, ⟨torontoSalon, days (-18540), bookWindow 3 2⟩,
    ⟨torontoSalon, days (-18540), bookWindow 4 3⟩]

/-- A reassignment takes a master beyond the cap of her day, and so does a booking that has not counted all of it. -/
theorem reassignment_overfills :
    ((∀ x ∈ secondVisit, ∀ t ∈ x.catalog.settings, t = duo.settings.get rfl) ∧
      ¬ (after secondVisit).db.load (duo.settings.get rfl).timezone 1 1 ≤ (duo.settings.get rfl).maxAppointmentsPerDay) ∧
    (∀ x ∈ marchVisits, ∀ t ∈ x.catalog.settings, t = torontoSalon.settings.get rfl) ∧
      ¬ (after marchVisits).db.load Zone.toronto.zone 1 (-18539) ≤ 2 :=
  ⟨⟨duo_fixed (by simp [secondVisit]), by decide +kernel⟩, torontoSalon_fixed (by simp [marchVisits, marchWindows]),
    by decide +kernel⟩

end Sys

end SalonBooking
