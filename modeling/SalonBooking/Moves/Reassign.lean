import SalonBooking.Moves.Holds

/-!
# Reassignment

`reassign_future_appointments` moves the appointments of one master one after the other, each to an open
window of another master at exactly its own time. That the rounds do not disturb each other is not
checked by the code: it follows from the exclusion constraint on a master's occupying appointments (two
appointments never have one time, so two rounds never have one target) and from the book (a window that
some appointment occupies is not open, so no round targets a window that another round leaves).
-/

namespace SalonBooking

open Lib

/-- One round: an appointment and its target window. -/
abbrev Round : Type := (Nat × Appointment) × (Nat × Window)

/-- The round can be made in `db`. -/
structure Round.Ready (m : Round) (db : Db) : Prop where
  appointment : db.appointments.row m.1.1 = some m.1.2
  occupies : m.1.2.status.occupies = true
  target : db.windows.row m.2.1 = some m.2.2
  free : m.2.2.status = .open
  start : m.2.2.startAt = m.1.2.scheduledStartAt
  other : m.1.2.windowId ≠ m.2.1

structure Round.Apart (m n : Round) : Prop where
  appointment : m.1.1 ≠ n.1.1
  left : m.1.2.windowId ≠ n.2.1
  target : m.2.1 ≠ n.2.1

namespace StaffRepository

variable {may : Db → Effect → Prop} {c : Catalog} {db db' db₁ : Db} {sourceStaffId targetId : Nat} {now : Int}
  {m n : Round}

theorem reservationOf_none {i : Nat} (h : reservationOf db i = none) (j : Nat) (r : Reservation)
    (row : db.reservations.row j = some r) : r.appointmentId ≠ some i := by
  intro belongs
  have hmem : (j, r) ∈ db.reservations.select fun r => r.appointmentId == some i :=
    Table.mem_select.mpr ⟨row, by simpa using belongs⟩
  rw [List.getLast?_eq_none_iff.mp h] at hmem
  cases hmem

theorem reservationOf_some {i j : Nat} {r : Reservation} (h : reservationOf db i = some (j, r)) :
    db.reservations.row j = some r ∧ r.appointmentId = some i := by
  obtain ⟨row, hp⟩ := Table.mem_select.mp (List.mem_of_getLast? h)
  exact ⟨row, by simpa using hp⟩

theorem reassignOne_ok (hmay : ∃ d, may d .transfer) (ready : m.Ready db) (h : reassignOne targetId db m = .ok db₁) : Move may db db₁ := by
  obtain ⟨⟨i, a⟩, k', w'⟩ := m
  obtain ⟨row, occupies, target, free, start, other⟩ := ready
  simp only [reassignOne, Except.bind_ok, Except.orRaise_ok] at h
  obtain ⟨w, window, h⟩ := h
  split at h
  · next hres =>
    cases h
    exact .reassign i a w k' w' targetId _ row occupies window target other free
      (.none (reservationOf_none hres)) _ _ (.kept row rfl) start hmay
  · next j r hres =>
    cases h
    obtain ⟨row', belongs⟩ := reservationOf_some hres
    exact .reassign i a w k' w' targetId _ row occupies window target other free (.some j r row' belongs) _ _
      (.kept row rfl) start hmay

theorem reassignOne_ready (h : reassignOne targetId db m = .ok db₁) (apart : m.Apart n) (ready : n.Ready db) :
    n.Ready db₁ := by
  obtain ⟨⟨i, a⟩, k', w'⟩ := m
  obtain ⟨row, occupies, target, free, start, other⟩ := ready
  simp only [reassignOne, Except.bind_ok, Except.orRaise_ok] at h
  obtain ⟨w, -, h⟩ := h
  have appointment : (db.appointments.put i { a with staffMemberId := targetId, windowId := k' }).row n.1.1 =
      some n.1.2 := by
    rw [Table.row_put_ne (Ne.symm apart.appointment), row]
  have window : ((db.windows.put a.windowId { w with status := .open }).put k' { w' with
      status := if a.status.isPending then .reserved else .booked }).row n.2.1 = some n.2.2 := by
    rw [Table.row_put_ne (Ne.symm apart.target), Table.row_put_ne (Ne.symm apart.left), target]
  split at h <;> cases h <;> exact ⟨appointment, occupies, window, free, start, other⟩

theorem rounds_ok {l : List Round} (hmay : ∃ d, may d .transfer) (ready : ∀ m ∈ l, m.Ready db) (apart : l.Pairwise Round.Apart)
    (h : l.foldlM (reassignOne targetId) db = .ok db') : Moves may db db' := by
  refine (Except.foldlM_ok (I := fun l s => Moves may db s ∧ (∀ m ∈ l, m.Ready s) ∧ l.Pairwise Round.Apart)
    ?_ ⟨.refl db, ready, apart⟩ h).1
  rintro m l s s' ⟨moves, ready, apart⟩ hround
  obtain ⟨hm, apart⟩ := List.pairwise_cons.mp apart
  refine ⟨.tail moves (reassignOne_ok hmay (ready m List.mem_cons_self) hround), fun n hn => ?_, apart⟩
  exact reassignOne_ready hround (hm n hn) (ready n (List.mem_cons_of_mem m hn))

/-! ### The rounds of a reassignment -/

theorem mem_futureAppointments {i : Nat} {a : Appointment} :
    (i, a) ∈ futureAppointments db sourceStaffId now ↔ db.appointments.row i = some a ∧
      a.staffMemberId = sourceStaffId ∧ now ≤ a.scheduledStartAt ∧ a.status.occupies = true := by
  rw [futureAppointments, (List.perm_insertionSort _ _).mem_iff, Table.mem_select]
  simp [and_assoc]

theorem nodup_futureAppointments : (futureAppointments db sourceStaffId now).Nodup :=
  (List.perm_insertionSort _ _).nodup_iff.mpr (Table.nodup_toList.filter _)

theorem exactWindow_ok {a : Appointment} {k : Nat} {w : Window} (h : exactWindow db targetId a = some (k, w)) :
    db.windows.row k = some w ∧ w.status = .open ∧ w.startAt = a.scheduledStartAt ∧ w.endAt = a.scheduledEndAt := by
  obtain ⟨row, hp⟩ := Table.mem_select.mp (List.mem_of_getLast? h)
  simp only [Bool.and_eq_true, beq_iff_eq] at hp
  exact ⟨row, hp.1.1.2, hp.1.2, hp.2⟩

theorem same_of_same_time (hc : db.Checks) {i j : Nat} {a b : Appointment} (ha : db.appointments.row i = some a)
    (hb : db.appointments.row j = some b) (ha' : a.status.occupies = true) (hb' : b.status.occupies = true)
    (staff : a.staffMemberId = b.staffMemberId) (hstart : a.scheduledStartAt = b.scheduledStartAt)
    (hend : a.scheduledEndAt = b.scheduledEndAt) : i = j := by
  by_contra hij
  obtain ⟨valid, compatible⟩ := hc.appointments i a ha
  have positive : a.scheduledStartAt < a.scheduledEndAt := valid.2.2.2.2
  exact (compatible j b hb hij).staff ha' hb' staff ⟨by rw [← hend]; exact positive, by rw [← hstart]; exact positive⟩

/-- The rounds of a reassignment: one for each future appointment, with the exact window that was found for it. -/
theorem rounds_of_reassign (h : reassignFutureAppointments c sourceStaffId targetId now db = .ok db') :
    (∀ r ∈ futureAppointments db sourceStaffId now,
      ((c.assignment targetId r.2.serviceId).any fun a => a.isActive) = true) ∧
    ∃ rounds : List Round, rounds.map Prod.fst = futureAppointments db sourceStaffId now ∧
      (∀ m ∈ rounds, m.1 ∈ futureAppointments db sourceStaffId now ∧ exactWindow db targetId m.1.2 = some m.2) ∧
      rounds.foldlM (reassignOne targetId) db = .ok db' := by
  simp only [reassignFutureAppointments, Except.bind_ok, Except.require_ok, exists_const] at h
  obtain ⟨assigned, rounds, hrounds, h⟩ := h
  refine ⟨assigned, rounds, ?_, fun m hm => ?_, h⟩
  · refine Except.map_mapM (fun r m hm => ?_) hrounds
    simp only [Except.bind_ok, Except.pure_ok] at hm
    obtain ⟨w, -, rfl⟩ := hm
    rfl
  · obtain ⟨r, hr, hm⟩ := Except.mem_mapM hrounds m hm
    simp only [Except.bind_ok, Except.orRaise_ok, Except.pure_ok] at hm
    obtain ⟨kw, hkw, rfl⟩ := hm
    exact ⟨hr, hkw⟩

theorem exactWindow_of_reassign (h : reassignFutureAppointments c sourceStaffId targetId now db = .ok db') :
    ∀ r ∈ futureAppointments db sourceStaffId now, (exactWindow db targetId r.2).isSome = true := by
  obtain ⟨-, rounds, moved, facts, -⟩ := rounds_of_reassign h
  intro r hr
  rw [← moved] at hr
  obtain ⟨m, hm, rfl⟩ := List.mem_map.mp hr
  rw [(facts m hm).2]
  rfl

theorem reassignFutureAppointments_ok (hb : Booked db) (hc : db.Checks) (hmay : ∃ d, may d .transfer)
    (h : reassignFutureAppointments c sourceStaffId targetId now db = .ok db') : Moves may db db' := by
  obtain ⟨σ, hA⟩ := hb.book
  obtain ⟨-, rounds, moved, facts, h⟩ := rounds_of_reassign h
  have nodup : rounds.Nodup := .of_map Prod.fst (moved ▸ nodup_futureAppointments)
  -- an open window is occupied by nobody
  have other : ∀ m ∈ rounds, ∀ n ∈ rounds, m.1.2.windowId ≠ n.2.1 := by
    intro m hm n hn he
    obtain ⟨row, -, -, occupies⟩ := mem_futureAppointments.mp (facts m hm).1
    obtain ⟨window, free, -⟩ := exactWindow_ok (facts n hn).2
    rw [hA.not_occupies_of_free (hA.free_of_open window free) row he] at occupies
    cases occupies
  refine rounds_ok hmay (fun m hm => ?_) (nodup.pairwise_of_forall_ne fun m hm n hn hne => ?_) h
  · obtain ⟨row, -, -, occupies⟩ := mem_futureAppointments.mp (facts m hm).1
    obtain ⟨window, free, start, -⟩ := exactWindow_ok (facts m hm).2
    exact ⟨row, occupies, window, free, start, other m hm m hm⟩
  · obtain ⟨row, staff, -, occupies⟩ := mem_futureAppointments.mp (facts m hm).1
    obtain ⟨row', staff', -, occupies'⟩ := mem_futureAppointments.mp (facts n hn).1
    have same_key : m.1.1 = n.1.1 → m = n := by
      intro he
      have hfst : m.1 = n.1 := by
        rw [he, row'] at row
        exact Prod.ext he (Option.some.inj row).symm
      have hsnd : m.2 = n.2 := Option.some.inj (by rw [← (facts m hm).2, ← (facts n hn).2, hfst])
      exact Prod.ext hfst hsnd
    refine ⟨fun he => hne (same_key he), other m hm n hn, fun he => hne (same_key ?_)⟩
    -- one target would be one time of one master
    obtain ⟨window, -, hstart, hend⟩ := exactWindow_ok (facts m hm).2
    obtain ⟨window', -, hstart', hend'⟩ := exactWindow_ok (facts n hn).2
    rw [he, window'] at window
    have hw := Option.some.inj window
    exact same_of_same_time hc row row' occupies occupies' (staff.trans staff'.symm)
      (by rw [← hstart, ← hstart', hw]) (by rw [← hend, ← hend', hw])

end StaffRepository

theorem AuthorizationService.reassignFutureAppointments_ok {may : Db → Effect → Prop} {c : Catalog} {db db' : Db}
    {actor : Int} {sourceStaffId targetId : Nat} {now : Int} (hb : Booked db) (hc : db.Checks)
    (hmay : ∃ d, may d .transfer)
    (h : reassignFutureAppointments c actor sourceStaffId targetId now db = .ok db') :
    Transaction may db db' := by
  simp only [reassignFutureAppointments, Except.bind_ok, Except.mapError_ok] at h
  obtain ⟨-, -, liveActor, -, source, -, target, -, -, -, -, -, db₁, hmoves, hcommit⟩ := h
  obtain ⟨checks, rfl⟩ := Db.commit_ok.mp hcommit
  exact ⟨StaffRepository.reassignFutureAppointments_ok hb hc hmay hmoves, checks⟩

end SalonBooking
