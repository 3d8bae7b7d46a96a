import SalonBooking.Lib.Views
import SalonBooking.Model.System
import SalonBooking.Moves.Visits
import SalonBooking.Waitlist.Matching

/-!
# Freed slots

Every operation that opens a window, as one transaction over the bookings and the waitlist. Those that run the
matching leave no matching request without an offer. The rejection of a manual prepayment, the expiry of
reservations and the reassignment of a master's appointments open windows and do not run it.
-/

namespace SalonBooking

open Lib

/-! ### The matching alone -/

namespace WaitlistMatching

variable {queue : (t : QueueTable) → Table t.Row} {v : View QueueTable.Row} {windowId : Nat} {now : Int} {β : Type}

def Paired (jobs : Table WaitlistNotification) (entryId windowId : Nat) : Prop :=
  ∃ j job, jobs.row j = some job ∧ job.waitlistEntryId = entryId ∧ job.windowId = windowId

/-- The session has written no entry, and changed no notification that was there before. -/
structure Matching (queue : (t : QueueTable) → Table t.Row) (v : View QueueTable.Row) : Prop where
  entries : v.store .entries = queue .entries
  unwritten : v.written .entries = fun _ => none
  clean : ∀ j x, v.copy .notifications j = some x → x.now = x.loaded

/-- The session goes on, and keeps the offers that it sees. -/
structure Goes (queue : (t : QueueTable) → Table t.Row) (v v' : View QueueTable.Row) : Prop where
  matching : Matching queue v'
  keeps : ∀ e k, Paired (v.sees .notifications) e k → Paired (v'.sees .notifications) e k

theorem Goes.refl (h : Matching queue v) : Goes queue v v := ⟨h, fun _ _ => id⟩

theorem Goes.trans {a b c : View QueueTable.Row} (hab : Goes queue a b) (hbc : Goes queue b c) : Goes queue a c :=
  ⟨hbc.matching, fun e k h => hbc.keeps e k (hab.keeps e k h)⟩

theorem Matching.load (h : Matching queue v) (held : Bool) (t : QueueTable) (ids : List Nat) :
    Goes queue v (v.load held t ids) := by
  refine ⟨⟨h.entries, h.unwritten, fun j x hx => ?_⟩, fun _ _ => id⟩
  rcases Copies.load_cases hx with hx | ⟨-, rfl, -, a, -, rfl⟩
  · exact h.clean j x hx
  · rfl

theorem Matching.assign (h : Matching queue v) (e : Nat) (entry : WaitlistEntry) :
    Goes queue v (v.assign .entries e entry) := by
  refine ⟨⟨h.entries, h.unwritten, fun j x hx => h.clean j x ?_⟩, fun _ _ => id⟩
  rwa [View.copy_assign_of_ne (by nofun)] at hx

theorem Matching.insert (h : Matching queue v) (job : WaitlistNotification) :
    Goes queue v (v.insert .notifications job) ∧
      Paired ((v.insert .notifications job).sees .notifications) job.waitlistEntryId job.windowId := by
  have other : QueueTable.entries ≠ .notifications := nofun
  refine ⟨⟨⟨?_, ?_, fun j x hx => ?_⟩, ?_⟩, (v.store .notifications).next, job, ?_, rfl, rfl⟩
  · rw [View.store_insert_of_ne other, h.entries]
  · rw [View.written_insert_of_ne other, h.unwritten]
  · rw [View.copy_insert] at hx
    by_cases hj : j = (v.store .notifications).next
    · rw [if_pos hj, Option.some.injEq] at hx
      exact hx ▸ rfl
    · rw [if_neg hj] at hx
      exact h.clean j x hx
  · rintro e k ⟨j, seen, hrow, pair⟩
    have old : j < (v.sees .notifications).next := Table.lt_next hrow
    have old : j < (v.store .notifications).next := old
    exact ⟨j, seen, by rw [View.sees_insert, if_neg old.ne]; exact hrow, pair⟩
  · rw [View.sees_insert, if_pos rfl]

theorem enqueueMatch_alone (h : Matching queue v) (e : Nat) (next : Bool → QueueTx) :
    ∃ v' inserted, (WaitlistRepository.enqueueMatch e windowId now next).alone v = (next inserted).alone v' ∧
      Goes queue v v' ∧ Paired (v'.sees .notifications) e windowId := by
  simp only [WaitlistRepository.enqueueMatch, Tx.alone]
  generalize hids : ((v.sees .notifications).select fun job =>
    job.waitlistEntryId = e && job.windowId = windowId).map Prod.fst = ids
  have loaded := h.load false .notifications ids
  by_cases empty : ((v.load false .notifications ids).copy.rows .notifications ids).isEmpty = true
  · obtain ⟨goes, pair⟩ := loaded.matching.insert (WaitlistRepository.offer e windowId now)
    refine ⟨_, true, ?_, loaded.trans goes, pair⟩
    rw [if_pos empty, Tx.alone]
  · refine ⟨_, false, by rw [if_neg empty], loaded, ?_⟩
    obtain ⟨r, hr⟩ := List.exists_mem_of_ne_nil _ fun nil => empty (List.isEmpty_iff.mpr nil)
    have hi := (Copies.mem_rows.mp hr).1
    rw [← hids] at hi
    obtain ⟨s, hmem, -⟩ := List.mem_map.mp hi
    obtain ⟨hrow, pair⟩ := Table.mem_select.mp hmem
    obtain ⟨he, hw⟩ := Bool.and_eq_true_iff.mp pair
    exact ⟨s.1, s.2, hrow, of_decide_eq_true he, of_decide_eq_true hw⟩

theorem enqueueEntries_alone (next : Nat → QueueTx) (entries : List (Nat × WaitlistEntry)) :
    ∀ v queued, Matching queue v → ∃ v' n, (enqueueEntries windowId now entries queued next).alone v = (next n).alone v' ∧
      Goes queue v v' ∧ ∀ r ∈ entries, Paired (v'.sees .notifications) r.1 windowId := by
  induction entries with
  | nil => exact fun v queued h => ⟨v, queued, rfl, .refl h, fun _ hs => absurd hs List.not_mem_nil⟩
  | cons r entries ih =>
    intro v queued h
    obtain ⟨v₁, inserted, run, goes, pair⟩ := enqueueMatch_alone h r.1 fun inserted =>
      if inserted then .assign .entries r.1 (matched now r.2) (enqueueEntries windowId now entries (queued + 1) next)
      else enqueueEntries windowId now entries queued next
    have step : ∃ v₂ n, Goes queue v₁ v₂ ∧
        (enqueueEntries windowId now (r :: entries) queued next).alone v =
          (enqueueEntries windowId now entries n next).alone v₂ := by
      cases inserted with
      | true => exact ⟨_, queued + 1, goes.matching.assign r.1 (matched now r.2), run⟩
      | false => exact ⟨v₁, queued, .refl goes.matching, run⟩
    obtain ⟨v₂, n, goes', step⟩ := step
    obtain ⟨v₃, n', rest, goes'', pairs⟩ := ih v₂ n goes'.matching
    refine ⟨v₃, n', step.trans rest, (goes.trans goes').trans goes'', fun s hs => ?_⟩
    rcases List.mem_cons.mp hs with rfl | hs
    · exact goes''.keeps _ _ (goes'.keeps _ _ pair)
    · exact pairs s hs

/-- What `list_matching` accepts for one of the services that it is called for. -/
def Accepts (ctx : MatchContext) (now : Int) (s : MatchService) (entry : WaitlistEntry) : Prop :=
  s.service.durationMaxMinutes ≤ ctx.duration ∧ s.hasAvailable = true ∧
    WaitlistRepository.isMatching (ctx.query now s.serviceId) s.joined s.isBlocked entry = true

theorem enqueueServices_alone (ctx : MatchContext) (next : Nat → QueueTx) (services : List MatchService) :
    ∀ v queued, Matching queue v → ∃ v' n, (enqueueServices ctx now services queued next).alone v = (next n).alone v' ∧
      Goes queue v v' ∧ ∀ s ∈ services, ∀ e entry, (queue .entries).row e = some entry → Accepts ctx now s entry →
        Paired (v'.sees .notifications) e ctx.windowId := by
  induction services with
  | nil => exact fun v queued h => ⟨v, queued, rfl, .refl h, fun _ hs => absurd hs List.not_mem_nil⟩
  | cons s services ih =>
    intro v queued h
    -- One service: the entries that it accepts are listed and offered.
    have step : ∃ v₁ n, (enqueueServices ctx now (s :: services) queued next).alone v =
        (enqueueServices ctx now services n next).alone v₁ ∧ Goes queue v v₁ ∧ ∀ e entry,
          (queue .entries).row e = some entry → Accepts ctx now s entry → Paired (v₁.sees .notifications) e ctx.windowId := by
      rw [enqueueServices]
      by_cases long : ctx.duration < s.service.durationMaxMinutes
      · exact ⟨v, queued, by rw [if_pos long], .refl h, fun _ _ _ accepts => absurd accepts.1 (not_le.mpr long)⟩
      · rw [if_neg long]
        by_cases free : s.hasAvailable = true
        · rw [if_pos free, Tx.alone]
          generalize hids : WaitlistRepository.listMatching (ctx.query now s.serviceId) s.joined s.isBlocked
            (v.sees .entries) = ids
          have loaded := h.load false .entries ids
          obtain ⟨v₁, n, run, goes, pairs⟩ := @enqueueEntries_alone _ ctx.windowId now
            (fun n => enqueueServices ctx now services n next) ((v.load false .entries ids).copy.rows .entries ids)
            _ queued loaded.matching
          refine ⟨v₁, n, run, loaded.trans goes, fun e entry hrow accepts => ?_⟩
          have seen : (v.sees .entries).row e = some entry := by
            rw [View.sees_row (congrFun h.unwritten e), h.entries, hrow]
          have listed : e ∈ ids := by
            rw [← hids]
            exact List.mem_map.mpr ⟨(e, entry), (List.mem_insertionSort _).mpr
              (Table.mem_select.mpr ⟨seen, accepts.2.2⟩), rfl⟩
          obtain ⟨x, hx⟩ := View.known_load false listed seen
          exact pairs (e, x.now) (Copies.mem_rows.mpr ⟨listed, x, hx, rfl⟩)
        · exact ⟨v, queued, by rw [if_neg free], .refl h, fun _ _ _ accepts => absurd accepts.2.1 free⟩
    obtain ⟨v₁, n, run, goes, first⟩ := step
    obtain ⟨v₂, n', run', goes', rest⟩ := ih v₁ n goes.matching
    refine ⟨v₂, n', run.trans run', goes.trans goes', fun s' hs e entry hrow accepts => ?_⟩
    rcases List.mem_cons.mp hs with rfl | hs
    · exact goes'.keeps _ _ (first e entry hrow accepts)
    · exact rest s' hs e entry hrow accepts

/-- The waitlist after the matching of a window, in a transaction of its own. -/
def enqueued (ctx : MatchContext) (now : Int) (queue : (t : QueueTable) → Table t.Row) : (t : QueueTable) → Table t.Row :=
  ((enqueueWaitlistMatches ctx now fun _ => .commit .done).alone (View.start queue)).elim queue Prod.fst

theorem committed_notifications (clean : ∀ j x, v.copy .notifications j = some x → x.now = x.loaded) :
    v.committed .notifications = v.sees .notifications := by
  unfold View.committed View.sees
  rw [View.flushed_of_clean clean]

theorem commit_offers (h : Matching queue v) (answer : QueueAnswer) (n : Nat) :
    ∃ store, (if n = 0 then .commit answer else .flush (.commit answer) : QueueTx).alone v = some (store, answer) ∧
      store .notifications = v.sees .notifications := by
  by_cases hn : n = 0
  · exact ⟨v.committed, by rw [if_pos hn, Tx.alone], committed_notifications h.clean⟩
  · have flushed : ∀ j x, v.flush.copy .notifications j = some x → x.now = x.loaded := by
      intro j x hx
      obtain ⟨y, -, rfl⟩ := Copies.flush_eq_some.mp hx
      rfl
    refine ⟨v.flush.committed, by rw [if_neg hn, Tx.alone, Tx.alone], ?_⟩
    rw [committed_notifications flushed]
    exact committed_notifications h.clean

theorem enqueued_pairs (ctx : MatchContext) (now : Int) (queue : (t : QueueTable) → Table t.Row) :
    (∀ e k, Paired (queue .notifications) e k → Paired (enqueued ctx now queue .notifications) e k) ∧
      (ctx.status = .open → now < ctx.startAt → ∀ s ∈ ctx.services, ∀ e entry, (queue .entries).row e = some entry →
        Accepts ctx now s entry → Paired (enqueued ctx now queue .notifications) e ctx.windowId) := by
  have start : Matching queue (View.start queue) := ⟨rfl, rfl, fun j x hx => by cases hx⟩
  have before : ∀ e k, Paired (queue .notifications) e k → Paired ((View.start queue).sees .notifications) e k := by
    rintro e k ⟨j, job, hrow, pair⟩
    exact ⟨j, job, (View.sees_row rfl).trans hrow, pair⟩
  by_cases open_ : ctx.status = .open ∧ now < ctx.startAt
  · obtain ⟨v, n, run, goes, pairs⟩ := (@enqueueServices_alone _ now) ctx
      (fun n => if n = 0 then .commit .done else .flush (.commit .done)) ctx.services (View.start queue) 0 start
    obtain ⟨store, stop, jobs⟩ := commit_offers goes.matching .done n
    have result : enqueued ctx now queue .notifications = v.sees .notifications := by
      unfold enqueued enqueueWaitlistMatches
      rw [if_pos open_, run, stop]
      exact jobs
    rw [result]
    exact ⟨fun e k h => goes.keeps e k (before e k h), fun _ _ => pairs⟩
  · have result : enqueued ctx now queue .notifications = (View.start queue).sees .notifications := by
      unfold enqueued enqueueWaitlistMatches
      rw [if_neg open_, Tx.alone]
      exact committed_notifications start.clean
    rw [result]
    exact ⟨before, fun isOpen later => absurd ⟨isOpen, later⟩ open_⟩

end WaitlistMatching

/-! ### Operations that open windows -/

/-- `has_available` of the workstation repository. -/
def Catalog.hasAvailable (c : Catalog) (db : Db) (serviceId : Nat) (startAt endAt : Int) : Bool :=
  (c.workstationsFor serviceId).any fun w => !db.workstationBusy w startAt endAt none

/-- What the matching reads besides the catalog. -/
structure MatchSettings where
  waitlistNotificationCooldownMinutes : Int
  isBlocked : Nat → Bool

/-- What the matching finds for a window. -/
def matchContext (c : Catalog) (m : MatchSettings) (settings : BusinessSettings) (db : Db) (windowId : Nat) (w : Window) :
    MatchContext where
  windowId := windowId
  status := w.status
  startAt := w.startAt
  endAt := w.endAt
  timezone := settings.timezone
  cooldownMinutes := m.waitlistNotificationCooldownMinutes
  services := (c.bookableServicesForStaff w.staffMemberId).map fun s =>
    ⟨s.1, s.2, c.hasAvailable db s.1 w.startAt w.endAt, s.2, m.isBlocked⟩

/-- The bookings and the waitlist. -/
structure SlotDb where
  db : Db
  queue : (t : QueueTable) → Table t.Row

/-- The operations that may open a window. -/
inductive SlotOp
  | createWindow (actor : WindowActor) (values : AvailabilityWindowCreate)
  | reopenWindow (actor : Int) (windowId : Nat)
  | endVisit (op : VisitOp) (appointmentId : Nat)
  | reschedule (actor : RescheduleActor) (appointmentId newWindowId : Nat)
  | rejectManual (actor : Int) (paymentId : Nat) (reason : Option String)
  | expiryCycle (limit : Nat) (locked : List Nat)
  | reassign (actor : Int) (sourceStaffId targetId : Nat)

/-- Completing a visit and marking a no-show do not run the matching. -/
def VisitOp.isCancellation : VisitOp → Bool
  | cancelMy .. | cancelAdmin .. | cancelOwnAppointment .. => true
  | _ => false

namespace SlotOp

/-- What the operation does to the bookings. -/
def run (c : Catalog) (now : Int) (db : Db) : SlotOp → Check Db
  | createWindow actor values => AvailabilityService.createWindow c actor values now db
  | reopenWindow actor windowId => AvailabilityService.reopenWindow c actor windowId now db
  | endVisit op appointmentId => AppointmentService.endVisit c op appointmentId now db
  | reschedule actor appointmentId newWindowId => RescheduleService.reschedule c actor appointmentId newWindowId now db
  | rejectManual actor paymentId reason => PaymentAdminService.rejectManual c actor paymentId reason now db
  | expiryCycle limit locked => .ok (ReservationExpiryWorker.runCycle now limit locked db)
  | reassign actor sourceStaffId targetId =>
    AuthorizationService.reassignFutureAppointments c actor sourceStaffId targetId now db

/-- The window that the operation hands to the matching once it has written it. -/
def handed (db : Db) : SlotOp → Option Nat
  | createWindow _ values => if values.status = .open then some db.windows.next else none
  | reopenWindow _ windowId => some windowId
  | endVisit op appointmentId =>
    if op.isCancellation then (db.appointments.row appointmentId).map (·.windowId) else none
  | reschedule _ appointmentId _ => (db.appointments.row appointmentId).map (·.windowId)
  | rejectManual .. | expiryCycle .. | reassign .. => none

/-- The operation opens windows without the matching. -/
def forgets : SlotOp → Bool
  | rejectManual .. | expiryCycle .. | reassign .. => true
  | _ => false

def transact (c : Catalog) (m : MatchSettings) (now : Int) (op : SlotOp) (s : SlotDb) : Check SlotDb := do
  let db ← op.run c now s.db
  match op.handed s.db with
  | none => return { s with db }
  | some windowId =>
    let settings ← c.requireSettings
    match db.windows.row windowId with
    | none => return { s with db }
    | some w =>
      return { db, queue := WaitlistMatching.enqueued (matchContext c m settings db windowId w) now s.queue }

/-- The window `k` becomes OPEN, and starts after now. -/
structure Opens (db db' : Db) (now : Int) (k : Nat) (w : Window) : Prop where
  row : db'.windows.row k = some w
  isOpen : w.status = .open
  later : now < w.startAt
  before : ∀ v, db.windows.row k = some v → v.status ≠ .open

/-- `list_matching` accepts the entry for the window and one of its bookable fitting services with a free workstation. -/
def Waits (c : Catalog) (m : MatchSettings) (now : Int) (db : Db) (queue : (t : QueueTable) → Table t.Row) (k : Nat)
    (w : Window) (entryId : Nat) : Prop :=
  ∃ settings entry, c.settings = some settings ∧ (queue .entries).row entryId = some entry ∧
    ∃ s ∈ (matchContext c m settings db k w).services,
      WaitlistMatching.Accepts (matchContext c m settings db k w) now s entry

/-- Every entry that waits for a window which opens from `s` to `db'` has a notification row for it. -/
def Reached (c : Catalog) (m : MatchSettings) (now : Int) (s : SlotDb) (db' : Db) (jobs : Table WaitlistNotification) :
    Prop :=
  ∀ k w, Opens s.db db' now k w → ∀ e, Waits c m now db' s.queue k w e → WaitlistMatching.Paired jobs e k

variable {c : Catalog} {m : MatchSettings} {now : Int} {op : SlotOp} {db db' : Db} {s s' : SlotDb} {k : Nat} {w : Window}

theorem not_opens_of_same (h : db'.windows.row k = db.windows.row k) : ¬ Opens db db' now k w :=
  fun opens => opens.before w (h ▸ opens.row) opens.isOpen

theorem opens_put {i : Nat} {v : Window} (hw : db'.windows = db.windows.put i v) (opens : Opens db db' now k w) : k = i := by
  by_contra other
  exact not_opens_of_same (by rw [hw, Table.row_put_ne other]) opens

theorem closes_of_not_cancellation {op : VisitOp} {a : Appointment} {v : Window} {change : VisitChange}
    (hop : op.isCancellation = false) (h : op.decide c now a v = .ok (some change)) : change.window.status = .closed := by
  have own : ∀ {actor : StaffContext} {target : AppointmentStatus},
      MasterWorkspaceService.closeOwnVisit c actor target now a v = .ok (some change) → change.window.status = .closed := by
    intro actor target h
    simp only [MasterWorkspaceService.closeOwnVisit, Except.bind_ok] at h
    obtain ⟨-, -, h⟩ := h
    split at h
    · simp at h
    · simp only [Except.bind_ok, Except.pure_ok, Option.some.injEq] at h
      obtain ⟨-, -, -, -, -, -, -, -, -, -, rfl⟩ := h
      rfl
  cases op with
  | completeVisit actor =>
    simp only [VisitOp.decide, AppointmentService.completeVisit, Except.bind_ok] at h
    obtain ⟨-, -, h⟩ := h
    split at h
    · simp at h
    · simp only [Except.bind_ok, Except.pure_ok, Option.some.injEq] at h
      obtain ⟨-, -, -, -, -, -, rfl⟩ := h
      rfl
  | markNoShow actor =>
    simp only [VisitOp.decide, AppointmentService.markNoShow, Except.bind_ok] at h
    obtain ⟨-, -, h⟩ := h
    split at h
    · simp at h
    · simp only [Except.bind_ok, Except.pure_ok, Option.some.injEq] at h
      obtain ⟨-, -, -, -, -, -, rfl⟩ := h
      rfl
  | completeOwnVisit actor => exact own h
  | markOwnNoShow actor => exact own h
  | _ => cases hop

theorem handed_of_opens (hop : op.forgets = false) (h : op.run c now db = .ok db') (opens : Opens db db' now k w) :
    op.handed db = some k := by
  cases op with
  | createWindow actor values =>
    simp only [run, AvailabilityService.createWindow, Except.bind_ok] at h
    obtain ⟨-, -, settings, -, -, -, -, -, h⟩ := h
    obtain ⟨-, rfl⟩ := Db.commit_ok.mp h
    rcases Table.row_insert_eq_some.mp opens.row with ⟨rfl, rfl⟩ | old
    · exact if_pos opens.isOpen
    · exact absurd opens.isOpen (opens.before w old)
  | reopenWindow actor windowId =>
    simp only [run, AvailabilityService.reopenWindow, Except.bind_ok] at h
    obtain ⟨-, -, settings, -, v, -, -, -, -, -, -, -, h⟩ := h
    obtain ⟨-, rfl⟩ := Db.commit_ok.mp h
    exact congrArg some (opens_put rfl opens).symm
  | endVisit op appointmentId =>
    simp only [run, AppointmentService.endVisit, AppointmentService.requireAppointment, Except.bind_ok,
      Except.orRaise_ok] at h
    obtain ⟨-, -, a, row, -, -, v, window, change?, decided, h⟩ := h
    cases change? with
    | none =>
      rw [Except.pure_ok] at h
      exact absurd opens (not_opens_of_same (h ▸ rfl))
    | some change =>
      obtain ⟨-, rfl⟩ := Db.commit_ok.mp h
      have ends := VisitOp.decide_ends decided
      have hk : k = a.windowId := ends.same.windowId ▸ opens_put rfl opens
      by_cases cancellation : op.isCancellation = true
      · show (if _ then _ else _) = _
        rw [if_pos cancellation, row, hk]
        rfl
      · have target : db.windows.row change.appointment.windowId = some v := by
          rw [ends.same.windowId]
          exact Except.orRaise_ok.mp window
        have stored : w = change.window := by
          have row' := opens.row
          rw [opens_put rfl opens] at row'
          exact Option.some.inj (row'.symm.trans (Table.row_put_self target))
        have closed := closes_of_not_cancellation (Bool.eq_false_of_not_eq_true cancellation) decided
        rw [← stored, opens.isOpen] at closed
        cases closed
  | reschedule actor appointmentId newWindowId =>
    simp only [run, RescheduleService.reschedule, AppointmentService.requireAppointment, Except.bind_ok,
      Except.orRaise_ok, Except.require_ok, exists_const] at h
    obtain ⟨settings, -, a, row, -, -, userId, -, v, window, v', target, other, change, decided, h⟩ := h
    obtain ⟨-, rfl⟩ := Db.commit_ok.mp (Except.mapError_ok.mp h)
    obtain ⟨-, -, -, hap, ⟨s, -, hold⟩, hnew, workstationId, hsucc⟩ := RescheduleService.decide_replaces decided
    have windows : (RescheduleService.write change a.status appointmentId db).windows =
        (db.windows.put a.windowId { v with status := s }).put newWindowId { v' with status := .booked } := by
      rw [RescheduleService.write, hap, hold, hnew, hsucc]
      rfl
    show (db.appointments.row appointmentId).map (·.windowId) = some k
    rw [row]
    refine congrArg some ?_
    by_contra left
    by_cases taken : k = newWindowId
    · subst taken
      have booked := opens.row
      rw [windows, Table.row_put_self (by rw [Table.row_put_ne (Ne.symm other), target]), Option.some.injEq] at booked
      have isOpen := opens.isOpen
      rw [← booked] at isOpen
      cases isOpen
    · refine not_opens_of_same ?_ opens
      rw [windows, Table.row_put_ne taken, Table.row_put_ne (Ne.symm left)]
  | _ => cases hop

theorem transact_ok (h : op.transact c m now s = .ok s') :
    op.run c now s.db = .ok s'.db ∧
      (s'.queue = s.queue ∨ ∃ settings k w, c.settings = some settings ∧ op.handed s.db = some k ∧
        s'.db.windows.row k = some w ∧
        s'.queue = WaitlistMatching.enqueued (matchContext c m settings s'.db k w) now s.queue) ∧
      ∀ k w, op.handed s.db = some k → s'.db.windows.row k = some w → ∃ settings, c.settings = some settings ∧
        s'.queue = WaitlistMatching.enqueued (matchContext c m settings s'.db k w) now s.queue := by
  simp only [transact, Except.bind_ok] at h
  obtain ⟨db, hrun, h⟩ := h
  rcases hw : op.handed s.db with _ | k
  · rw [hw] at h
    cases Except.pure_ok.mp h
    exact ⟨hrun, .inl rfl, nofun⟩
  · rw [hw] at h
    simp only [Catalog.requireSettings, Except.bind_ok, Except.orRaise_ok] at h
    obtain ⟨settings, hs, h⟩ := h
    rcases hrow : db.windows.row k with _ | w
    · rw [hrow] at h
      cases Except.pure_ok.mp h
      refine ⟨hrun, .inl rfl, ?_⟩
      rintro _ w ⟨⟩ hrow'
      rw [hrow] at hrow'
      cases hrow'
    · rw [hrow] at h
      cases Except.pure_ok.mp h
      refine ⟨hrun, .inr ⟨settings, k, w, hs, rfl, hrow, rfl⟩, ?_⟩
      rintro _ w' ⟨⟩ hrow'
      rw [hrow, Option.some.injEq] at hrow'
      exact ⟨settings, hs, hrow' ▸ rfl⟩

theorem keeps_pairs (h : op.transact c m now s = .ok s') (e : Nat)
    (pair : WaitlistMatching.Paired (s.queue .notifications) e k) : WaitlistMatching.Paired (s'.queue .notifications) e k := by
  obtain ⟨-, same | ⟨settings, k', w, -, -, -, queue⟩, -⟩ := transact_ok h
  · rwa [same]
  · rw [queue]
    exact (WaitlistMatching.enqueued_pairs _ now s.queue).1 e k pair

/-- Every request that waits for a window that an operation opens has an offer for it when the transaction commits,
exactly when the operation runs the matching or all these requests have been offered the window before. -/
theorem freed_slots_reach_waitlist (h : op.transact c m now s = .ok s') :
    Reached c m now s s'.db (s'.queue .notifications) ↔
      op.forgets = false ∨ Reached c m now s s'.db (s.queue .notifications) := by
  obtain ⟨hrun, changed, handed⟩ := transact_ok h
  constructor
  · intro reached
    cases hop : op.forgets with
    | false => exact .inl rfl
    | true =>
      have none : op.handed s.db = none := by cases op <;> first | rfl | cases hop
      refine .inr ?_
      rcases changed with same | ⟨-, k, -, -, some, -⟩
      · rwa [same] at reached
      · rw [none] at some
        cases some
  · rintro (hop | before)
    · intro k w opens e waits
      obtain ⟨settings, entry, hs, hrow, service, hservice, accepts⟩ := waits
      obtain ⟨settings', hs', queue⟩ := handed k w (handed_of_opens hop hrun opens) opens.row
      rw [hs, Option.some.injEq] at hs'
      subst hs'
      rw [queue]
      exact (WaitlistMatching.enqueued_pairs _ now s.queue).2 opens.isOpen opens.later service hservice e entry hrow accepts
    · exact fun k w opens e waits => keeps_pairs h e (before k w opens e waits)

/-- A client waits for service 1 on day 1. -/
def oneWish : (t : QueueTable) → Table t.Row
  | .entries => Table.empty.insert
      { clientId := 7, serviceId := 1, dateFrom := 1, dateTo := 1, expiresAt := days 2, createdAt := 0 }
  | .notifications | .jobs => Table.empty
  | .settings => Table.empty

/-- A window that opens reaches a client who waits for its day. -/
theorem opened_window_reaches_waitlist : ∃ s',
    (createWindow (.admin 1) ⟨1, hours 10, none, none, .open, .inl rfl, by decide⟩).transact (salon .disabled)
      ⟨60, fun _ => false⟩ 0 ⟨Db.empty, oneWish⟩ = .ok s' ∧
    Reached (salon .disabled) ⟨60, fun _ => false⟩ 0 ⟨Db.empty, oneWish⟩ s'.db (s'.queue .notifications) := by
  rcases h : (createWindow (.admin 1) ⟨1, hours 10, none, none, .open, .inl rfl, by decide⟩).transact (salon .disabled)
      ⟨60, fun _ => false⟩ 0 ⟨Db.empty, oneWish⟩ with e | s'
  · have commits : ((createWindow (.admin 1) ⟨1, hours 10, none, none, .open, .inl rfl, by decide⟩).transact
        (salon .disabled) ⟨60, fun _ => false⟩ 0 ⟨Db.empty, oneWish⟩).isOk = true := by
      decide +kernel
    rw [h] at commits
    cases commits
  · exact ⟨s', rfl, (freed_slots_reach_waitlist h).mpr (.inl rfl)⟩

/-! ### Requests that are left waiting -/

/-- The window `k` has opened, the entry waits for it, and there is no offer. -/
def Forgotten (c : Catalog) (m : MatchSettings) (now : Int) (s s' : SlotDb) (k e : Nat) : Prop :=
  (∃ w ∈ s'.db.windows.row k, w.status = .open ∧ now < w.startAt ∧ (∀ v ∈ s.db.windows.row k, v.status ≠ .open) ∧
    ∃ settings ∈ c.settings, ∃ entry ∈ (s.queue .entries).row e,
      ∃ x ∈ (matchContext c m settings s'.db k w).services,
        WaitlistMatching.Accepts (matchContext c m settings s'.db k w) now x entry) ∧
    ∀ r ∈ (s'.queue .notifications).toList, ¬ (r.2.waitlistEntryId = e ∧ r.2.windowId = k)

instance (ctx : MatchContext) (now : Int) (x : MatchService) (entry : WaitlistEntry) :
    Decidable (WaitlistMatching.Accepts ctx now x entry) := inferInstanceAs (Decidable (_ ∧ _))

instance (c : Catalog) (m : MatchSettings) (now : Int) (s s' : SlotDb) (k e : Nat) :
    Decidable (Forgotten c m now s s' k e) := inferInstanceAs (Decidable (_ ∧ _))

theorem Forgotten.not_reached {e : Nat} (h : Forgotten c m now s s' k e) :
    ¬ Reached c m now s s'.db (s'.queue .notifications) := by
  obtain ⟨⟨w, row, isOpen, later, before, settings, hs, entry, hrow, x, hx, accepts⟩, none⟩ := h
  intro reached
  obtain ⟨j, job, hjob, pair⟩ := reached k w ⟨row, isOpen, later, before⟩ e ⟨settings, entry, hs, hrow, x, hx, accepts⟩
  exact none (j, job) (Table.mem_toList.mpr hjob) pair

open Salon in
/-- A booking that awaits its prepayment. -/
def heldSlot : List Label := [⟨salon .yookassa, 0, openWindow 10⟩, ⟨salon .yookassa, minutes 1, bookWindow 2 1⟩]

open Salon in
/-- A manual prepayment that the client has reported. -/
def reportedSlot : List Label :=
  [⟨salon .manual, 0, openWindow 10⟩, ⟨salon .manual, minutes 1, bookWindow 2 1⟩,
    ⟨salon .manual, minutes 2, .submitPayment 1 (askedPayment 2 .manual 1 1)
      (.ok (pendingAnswer (askedPayment 2 .manual 1 1)))⟩,
    ⟨salon .manual, minutes 3, .reportPaid 2 1⟩]

open Salon in
def twoDesks : Catalog := { duo with workstationsFor := fun _ => [1, 2] }

open Salon in
/-- A visit of one master, and an open window of another at the same time. -/
def movableSlot : List Label :=
  [⟨twoDesks, 0, openWindowFor 1 14⟩, ⟨twoDesks, 0, openWindowFor 2 14⟩, ⟨twoDesks, minutes 1, bookWindow 2 2⟩]

/-- The transaction commits on a state that a run has reached, and a request that waits has no offer. -/
def Misses (c : Catalog) (l : List Label) (now : Int) (op : SlotOp) : Prop :=
  ∃ s', op.transact c ⟨60, fun _ => false⟩ now ⟨(Sys.after l).db, oneWish⟩ = .ok s' ∧
    ¬ Reached c ⟨60, fun _ => false⟩ now ⟨(Sys.after l).db, oneWish⟩ s'.db (s'.queue .notifications)

/-- The transaction commits and leaves the request waiting for the window `k`. -/
def leaves (c : Catalog) (l : List Label) (now : Int) (op : SlotOp) (k : Nat) : Bool :=
  match op.transact c ⟨60, fun _ => false⟩ now ⟨(Sys.after l).db, oneWish⟩ with
  | .ok s' => decide (Forgotten c ⟨60, fun _ => false⟩ now ⟨(Sys.after l).db, oneWish⟩ s' k 1)
  | .error _ => false

theorem Misses.of_leaves {l : List Label} (h : leaves c l now op k = true) : Misses c l now op := by
  unfold leaves at h
  rcases run : op.transact c ⟨60, fun _ => false⟩ now ⟨(Sys.after l).db, oneWish⟩ with e | s'
  · rw [run] at h
    cases h
  · rw [run] at h
    exact ⟨s', run, (of_decide_eq_true h).not_reached⟩

open Salon in
/-- The expiry of a reservation, the rejection of a manual prepayment and the reassignment of a visit each open a
window on day 1 and queue no offer for the request. -/
theorem releases_leave_request_waiting :
    Misses (salon .yookassa) heldSlot (minutes 20) (.expiryCycle 10 []) ∧
    Misses (salon .manual) reportedSlot (minutes 4) (.rejectManual 1 1 none) ∧
    Misses twoDesks movableSlot (minutes 4) (.reassign 1 2 1) :=
  ⟨.of_leaves (k := 1) (by decide +kernel), .of_leaves (k := 1) (by decide +kernel), .of_leaves (k := 2) (by decide +kernel)⟩

end SlotOp

end SalonBooking
