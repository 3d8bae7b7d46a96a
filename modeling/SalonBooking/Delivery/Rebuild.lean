import SalonBooking.Delivery.Stays
import SalonBooking.Lib.Alone
import SalonBooking.Staff.Members

/-!
# The reminder rebuild

A settings update with new reminder offsets goes over the future active appointments. For each it reads every job, whatever
it is about, resets those that the new offsets ask for and cancels the other unsent ones. Run alone it leaves the wanted
reminders pending, and every other kind of job as it was where none was unsent.
-/

namespace SalonBooking

open Lib

/-- The two types that `future_reminder_schedules` gives out. -/
def NotificationType.isReminder : NotificationType → Bool
  | clientReminder | adminReminder => true
  | _ => false

/-- `uq_notification_jobs_delivery`. -/
def NotificationJob.delivery (job : NotificationJob) : Option (Nat × Nat × NotificationType × Int) :=
  some (job.appointmentId, job.recipientUserId, job.notificationType, job.offsetMinutes)

/-- `list_future_active` of the appointment repository. -/
def Db.listFutureActive (db : Db) (now : Int) : List (Nat × Appointment × Window) :=
  ((db.appointments.select (·.status.occupies)).filterMap fun r =>
    ((db.windows.row r.2.windowId).filter fun w => now < w.startAt).map fun w => (r.1, r.2, w)).insertionSort fun a b =>
      a.2.2.startAt < b.2.2.startAt ∨ a.2.2.startAt = b.2.2.startAt ∧ a.1 ≤ b.1

/-- `LEGACY_ADMIN_ROLES`. -/
def legacyAdminRoles : List StaffRole := [.owner, .manager, .receptionist]

/-- `list_active_by_roles` of the staff repository, for a column `sort_order`. -/
def Staff.StaffDb.listActiveByRoles (db : Staff.StaffDb) (sortOrder : Nat → Int) (roles : List StaffRole) :
    List (Nat × Staff.StaffMember × Nat × Staff.User) :=
  ((db.members.select fun m => decide (m.role ∈ roles) && m.isActive && m.archivedAt.isNone).filterMap fun r =>
    r.2.userId.bind fun userId => (db.users.row userId).map fun user => (r.1, r.2, userId, user)).insertionSort fun a b =>
      sortOrder a.1 < sortOrder b.1 ∨ sortOrder a.1 = sortOrder b.1 ∧ a.1 ≤ b.1

namespace SettingsService

/-- `reminder_offsets_minutes` after the validators of `BusinessSettingsPatch`. -/
def ValidOffsets (offsetsMinutes : List Int) : Prop :=
  (∀ offset ∈ offsetsMinutes, 0 < offset ∧ offset ≤ 60 * 24 * 30) ∧ offsetsMinutes ≠ [] ∧ offsetsMinutes.length ≤ 5 ∧
    offsetsMinutes.Nodup

instance (offsetsMinutes : List Int) : Decidable (ValidOffsets offsetsMinutes) := inferInstanceAs (Decidable (_ ∧ _))

/-- The administrators of the rebuild. -/
def activeAdminIds (db : Staff.StaffDb) (sortOrder : Nat → Int) : List Nat :=
  ((db.listActiveByRoles sortOrder legacyAdminRoles).filter fun r => ! r.2.2.2.isBlocked).map (·.2.2.1)

/-- The appointments of the rebuild; `getById` is what the user repository finds. -/
def rebuildTargets (db : Db) (getById : Nat → Option Staff.User) (now : Int) : List RebuildTarget :=
  (db.listFutureActive now).map fun r =>
    ⟨r.1, r.2.2.startAt, (getById r.2.1.clientId).map fun client => (r.2.1.clientId, client.isBlocked)⟩

variable {offsets : List Int} {now : Int} {admins : List Nat} {schedules : RebuildTarget → List ReminderSchedule}
variable {jobs jobs' : Table NotificationJob} {target : RebuildTarget} {targets : List RebuildTarget} {s : ReminderSchedule}
variable {job : NotificationJob} {i j : Nat} {startAt : Int} {clientId : Nat} {all : List ReminderSchedule}

/-! ### Schedules -/

def remindersAt (startAt now : Int) (clientUserId : Nat) (adminUserIds : List Nat) (offset : Int) : List ReminderSchedule :=
  if startAt - minutes offset ≤ now then []
  else ((clientUserId, NotificationType.clientReminder) ::
    adminUserIds.map fun adminId => (adminId, NotificationType.adminReminder)).map fun r =>
      ⟨r.1, r.2, offset, startAt - minutes offset⟩

theorem futureReminderSchedules_ok (positive : ∀ offset ∈ offsets, 0 < offset) :
    futureReminderSchedules startAt now offsets clientId admins =
      .ok (offsets.flatMap (remindersAt startAt now clientId admins)) := by
  have turns : (offsets.mapM fun offset => do
      require (0 < offset) (Err.value "reminder offsets must be positive")
      let scheduledAt := startAt - minutes offset
      pure (if scheduledAt ≤ now then [] else
        ((clientId, NotificationType.clientReminder) ::
          admins.map fun adminId => (adminId, NotificationType.adminReminder)).map fun r =>
            (⟨r.1, r.2, offset, scheduledAt⟩ : ReminderSchedule)) : Check (List (List ReminderSchedule))) =
      .ok (offsets.map (remindersAt startAt now clientId admins)) := by
    induction offsets with
    | nil => rfl
    | cons offset offsets ih =>
      obtain ⟨first, positive⟩ := List.forall_mem_cons.mp positive
      rw [List.mapM_cons, ih positive]
      simp only [require, if_pos first]
      rfl
  unfold futureReminderSchedules
  simp only
  rw [turns]
  rfl

theorem mem_remindersAt {offset : Int} (h : s ∈ remindersAt startAt now clientId admins offset) :
    s.notificationType.isReminder = true ∧ s.offsetMinutes = offset ∧ s.scheduledAt = startAt - minutes offset := by
  unfold remindersAt at h
  split at h
  · cases h
  · obtain ⟨r, hr, rfl⟩ := List.mem_map.mp h
    rcases List.mem_cons.mp hr with rfl | hr
    · exact ⟨rfl, rfl, rfl⟩
    · obtain ⟨adminId, -, rfl⟩ := List.mem_map.mp hr
      exact ⟨rfl, rfl, rfl⟩

theorem nodup_remindersAt (nodup : admins.Nodup) (offset : Int) : (remindersAt startAt now clientId admins offset).Nodup := by
  unfold remindersAt
  split
  · exact List.nodup_nil
  · refine List.Nodup.map (fun a b same => ?_) (List.nodup_cons.mpr ⟨?_, nodup.map fun a b same => ?_⟩)
    · rw [ReminderSchedule.mk.injEq] at same
      exact Prod.ext same.1 same.2.1
    · intro h
      obtain ⟨adminId, -, same⟩ := List.mem_map.mp h
      cases same
    · exact congrArg Prod.fst same

/-- Schedules without duplicates, all of them reminders, and each known by its recipient, type and offset. -/
structure Keyed (all : List ReminderSchedule) : Prop where
  nodup : all.Nodup
  reminder : ∀ s ∈ all, s.notificationType.isReminder = true
  unique : ∀ s ∈ all, ∀ s' ∈ all, ∀ job, sameKey s job = true → sameKey s' job = true → s = s'

theorem sameKey_iff : sameKey s job = true ↔
    s.recipientUserId = job.recipientUserId ∧ s.notificationType = job.notificationType ∧ s.offsetMinutes = job.offsetMinutes := by
  simp [sameKey, and_assoc]

theorem keyed_futureReminderSchedules (distinct : offsets.Nodup) (nodup : admins.Nodup) :
    Keyed (offsets.flatMap (remindersAt startAt now clientId admins)) := by
  refine ⟨List.nodup_flatMap.mpr ⟨fun offset _ => nodup_remindersAt nodup offset, distinct.imp ?_⟩, ?_, ?_⟩
  · intro a b ne s ha hb
    exact ne ((mem_remindersAt ha).2.1.symm.trans (mem_remindersAt hb).2.1)
  · intro s hs
    obtain ⟨offset, -, hs⟩ := List.mem_flatMap.mp hs
    exact (mem_remindersAt hs).1
  · intro s hs s' hs' job key key'
    obtain ⟨offset, -, hs⟩ := List.mem_flatMap.mp hs
    obtain ⟨offset', -, hs'⟩ := List.mem_flatMap.mp hs'
    obtain ⟨-, atOffset, scheduled⟩ := mem_remindersAt hs
    obtain ⟨-, atOffset', scheduled'⟩ := mem_remindersAt hs'
    obtain ⟨recipient, type, same⟩ := sameKey_iff.mp key
    obtain ⟨recipient', type', same'⟩ := sameKey_iff.mp key'
    have offsets : offset = offset' := by omega
    cases s
    cases s'
    simp_all

/-! ### One appointment -/

/-- A job of the appointment is about the delivery of the schedule. -/
def Known (jobs : Table NotificationJob) (appointmentId : Nat) (s : ReminderSchedule) : Prop :=
  ∃ i job, jobs.row i = some job ∧ job.appointmentId = appointmentId ∧ sameKey s job = true

/-- The schedules of an appointment that have no job. -/
def missing (all : List ReminderSchedule) (jobs : Table NotificationJob) (appointmentId : Nat) : List ReminderSchedule :=
  all.filter fun s => ! (jobs.select fun job => job.appointmentId = appointmentId).any fun r => sameKey s r.2

/-- The jobs after the turn of an appointment. -/
def afterTarget (schedules : RebuildTarget → List ReminderSchedule) (jobs : Table NotificationJob) (target : RebuildTarget) :
    Table NotificationJob :=
  (jobs.mapRows fun _ job => if job.appointmentId = target.appointmentId then rebuilt (schedules target) job else job).insertAll
    ((missing (schedules target) jobs target.appointmentId).map (newJob target.appointmentId))

@[simp] theorem rebuilt_delivery : (rebuilt all job).delivery = job.delivery := by
  unfold rebuilt
  split
  · split <;> rfl
  · split <;> rfl

@[simp] theorem rebuilt_appointmentId : (rebuilt all job).appointmentId = job.appointmentId := by
  unfold rebuilt
  split
  · split <;> rfl
  · split <;> rfl

@[simp] theorem sameKey_rebuilt : sameKey s (rebuilt all job) = sameKey s job := by
  unfold rebuilt
  split
  · split <;> rfl
  · split <;> rfl

theorem mem_missing : s ∈ missing all jobs i ↔ s ∈ all ∧ ¬ Known jobs i s := by
  unfold missing
  rw [List.mem_filter]
  refine and_congr_right fun _ => ?_
  rw [Bool.not_eq_true', ← Bool.not_eq_true, not_iff_not, List.any_eq_true]
  constructor
  · rintro ⟨r, hr, key⟩
    obtain ⟨row, own⟩ := Table.mem_select.mp hr
    exact ⟨r.1, r.2, row, of_decide_eq_true own, key⟩
  · rintro ⟨k, job, row, own, key⟩
    exact ⟨(k, job), Table.mem_select.mpr ⟨row, decide_eq_true own⟩, key⟩

theorem row_afterTarget (row : jobs.row i = some job) : (afterTarget schedules jobs target).row i =
    some (if job.appointmentId = target.appointmentId then rebuilt (schedules target) job else job) := by
  refine Table.row_insertAll_of_some ?_
  rw [Table.row_mapRows, row]
  rfl

theorem row_of_afterTarget (row : (afterTarget schedules jobs target).row i = some job) :
    (∃ old, jobs.row i = some old ∧
        job = if old.appointmentId = target.appointmentId then rebuilt (schedules target) old else old) ∨
      jobs.row i = none ∧ ∃ s ∈ schedules target, ¬ Known jobs target.appointmentId s ∧ job = newJob target.appointmentId s := by
  rcases Table.row_insertAll row with row | ⟨none, hmem⟩
  · rw [Table.row_mapRows] at row
    obtain ⟨old, hold, rfl⟩ := Option.map_eq_some_iff.mp row
    exact .inl ⟨old, hold, rfl⟩
  · obtain ⟨s, hs, rfl⟩ := List.mem_map.mp hmem
    obtain ⟨wanted, unknown⟩ := mem_missing.mp hs
    rw [Table.row_mapRows] at none
    exact .inr ⟨Option.map_eq_none_iff.mp none, s, wanted, unknown, rfl⟩

theorem exists_afterTarget (wanted : s ∈ schedules target) (unknown : ¬ Known jobs target.appointmentId s) :
    ∃ i, (afterTarget schedules jobs target).row i = some (newJob target.appointmentId s) :=
  Table.exists_row_insertAll (List.mem_map_of_mem (mem_missing.mpr ⟨wanted, unknown⟩))

theorem known_afterTarget {k : Nat} (other : k ≠ target.appointmentId) :
    Known (afterTarget schedules jobs target) k s ↔ Known jobs k s := by
  constructor
  · rintro ⟨i, job, row, rfl, key⟩
    rcases row_of_afterTarget row with ⟨old, hold, rfl⟩ | ⟨-, s', -, -, rfl⟩
    · split at other
      · next own => exact absurd (rebuilt_appointmentId.trans own) other
      · next foreign =>
        rw [if_neg foreign] at key ⊢
        exact ⟨i, old, hold, rfl, key⟩
    · exact absurd rfl other
  · rintro ⟨i, job, row, rfl, key⟩
    exact ⟨i, job, (row_afterTarget row).trans (congrArg some (if_neg other)), rfl, key⟩

theorem sameKey_of_delivery (same : job.delivery = (newJob i s).delivery) : job.appointmentId = i ∧ sameKey s job = true := by
  simp only [NotificationJob.delivery, newJob, Option.some.injEq, Prod.mk.injEq] at same
  exact ⟨same.1, sameKey_iff.mpr ⟨same.2.1.symm, same.2.2.1.symm, same.2.2.2.symm⟩⟩

theorem distinct_afterTarget (keyed : Keyed (schedules target)) (distinct : jobs.Distinct NotificationJob.delivery) :
    (afterTarget schedules jobs target).Distinct NotificationJob.delivery := by
  refine Table.Distinct.insertAll ?_ ?_ ?_
  · refine List.pairwise_map.mpr ?_
    have nodup : (missing (schedules target) jobs target.appointmentId).Nodup := keyed.nodup.filter _
    refine nodup.imp_of_mem ?_
    intro a b ha hb ne k hk same
    obtain ⟨-, key⟩ := sameKey_of_delivery (same.trans hk.symm)
    have own : sameKey b (newJob target.appointmentId b) = true := by simp [sameKey, newJob]
    exact ne (keyed.unique a (mem_missing.mp ha).1 b (mem_missing.mp hb).1 _ key own)
  · refine distinct.of_keeps fun i job row => ?_
    rw [Table.row_mapRows] at row
    obtain ⟨old, hold, rfl⟩ := Option.map_eq_some_iff.mp row
    refine ⟨old, hold, ?_⟩
    split
    · exact rebuilt_delivery
    · rfl
  · intro a ha k hk i job row same
    obtain ⟨s, hs, rfl⟩ := List.mem_map.mp ha
    rw [Table.row_mapRows] at row
    obtain ⟨old, hold, rfl⟩ := Option.map_eq_some_iff.mp row
    have delivery : old.delivery = (newJob target.appointmentId s).delivery := by
      rw [hk, ← same]
      split
      · exact rebuilt_delivery.symm
      · rfl
    obtain ⟨own, key⟩ := sameKey_of_delivery delivery
    exact (mem_missing.mp hs).2 ⟨i, old, hold, own, key⟩

/-! ### All appointments -/

def afterRebuild (schedules : RebuildTarget → List ReminderSchedule) (targets : List RebuildTarget)
    (jobs : Table NotificationJob) : Table NotificationJob :=
  targets.foldl (afterTarget schedules) jobs

theorem row_afterRebuild_of_foreign (foreign : ∀ target ∈ targets, job.appointmentId ≠ target.appointmentId) :
    ∀ {jobs : Table NotificationJob}, jobs.row i = some job → (afterRebuild schedules targets jobs).row i = some job := by
  induction targets with
  | nil => exact id
  | cons target targets ih =>
    intro jobs row
    obtain ⟨first, foreign⟩ := List.forall_mem_cons.mp foreign
    exact ih foreign ((row_afterTarget row).trans (congrArg some (if_neg first)))

theorem row_afterRebuild (nodup : (targets.map (·.appointmentId)).Nodup) (mem : target ∈ targets)
    (own : job.appointmentId = target.appointmentId) : ∀ {jobs : Table NotificationJob}, jobs.row i = some job →
      (afterRebuild schedules targets jobs).row i = some (rebuilt (schedules target) job) := by
  induction targets with
  | nil => exact absurd mem List.not_mem_nil
  | cons t targets ih =>
    intro jobs row
    obtain ⟨new, nodup⟩ := List.nodup_cons.mp nodup
    rcases List.mem_cons.mp mem with rfl | mem
    · show (afterRebuild schedules targets (afterTarget schedules jobs target)).row i = _
      refine row_afterRebuild_of_foreign ?_ ((row_afterTarget row).trans (congrArg some (if_pos own)))
      intro t ht same
      refine new (List.mem_map.mpr ⟨t, ht, ?_⟩)
      rw [← same, rebuilt_appointmentId, own]
    · refine ih nodup mem ((row_afterTarget row).trans (congrArg some (if_neg ?_)))
      intro same
      exact new (List.mem_map.mpr ⟨target, mem, own.symm.trans same⟩)

theorem exists_afterRebuild (nodup : (targets.map (·.appointmentId)).Nodup) (mem : target ∈ targets)
    (wanted : s ∈ schedules target) : ∀ {jobs : Table NotificationJob}, ¬ Known jobs target.appointmentId s →
      ∃ i, (afterRebuild schedules targets jobs).row i = some (newJob target.appointmentId s) := by
  induction targets with
  | nil => exact absurd mem List.not_mem_nil
  | cons t targets ih =>
    intro jobs unknown
    obtain ⟨new, nodup⟩ := List.nodup_cons.mp nodup
    rcases List.mem_cons.mp mem with rfl | mem
    · obtain ⟨i, row⟩ := exists_afterTarget wanted unknown
      refine ⟨i, ?_⟩
      show (afterRebuild schedules targets (afterTarget schedules jobs target)).row i = _
      refine row_afterRebuild_of_foreign ?_ row
      intro t ht same
      exact new (List.mem_map.mpr ⟨t, ht, same.symm⟩)
    · refine ih nodup mem ?_
      rwa [known_afterTarget fun same => new (List.mem_map.mpr ⟨target, mem, same⟩)]

theorem new_of_afterRebuild (nodup : (targets.map (·.appointmentId)).Nodup) : ∀ {jobs : Table NotificationJob},
    jobs.row i = none → (afterRebuild schedules targets jobs).row i = some job →
      ∃ target ∈ targets, ∃ s ∈ schedules target, ¬ Known jobs target.appointmentId s ∧
        job = newJob target.appointmentId s := by
  induction targets with
  | nil =>
    intro jobs none row
    cases none.symm.trans row
  | cons t targets ih =>
    intro jobs none row
    obtain ⟨new, nodup⟩ := List.nodup_cons.mp nodup
    cases first : (afterTarget schedules jobs t).row i with
    | none =>
      obtain ⟨target, mem, s, wanted, unknown, same⟩ := ih nodup first row
      refine ⟨target, List.mem_cons_of_mem t mem, s, wanted, ?_, same⟩
      rwa [known_afterTarget fun same => new (List.mem_map.mpr ⟨target, mem, same⟩)] at unknown
    | some job' =>
      rcases row_of_afterTarget first with ⟨old, hold, -⟩ | ⟨-, s, wanted, unknown, rfl⟩
      · cases none.symm.trans hold
      · refine ⟨t, List.mem_cons_self, s, wanted, unknown, ?_⟩
        have kept : (afterRebuild schedules targets (afterTarget schedules jobs t)).row i = some (newJob t.appointmentId s) :=
          row_afterRebuild_of_foreign (fun target ht same => new (List.mem_map.mpr ⟨target, ht, same.symm⟩)) first
        exact Option.some.inj (row.symm.trans kept)

theorem distinct_afterRebuild (keyed : ∀ target ∈ targets, Keyed (schedules target)) : ∀ {jobs : Table NotificationJob},
    jobs.Distinct NotificationJob.delivery →
      (afterRebuild schedules targets jobs).Distinct NotificationJob.delivery := by
  induction targets with
  | nil => exact id
  | cons target targets ih =>
    intro jobs distinct
    obtain ⟨first, keyed⟩ := List.forall_mem_cons.mp keyed
    exact ih keyed (distinct_afterTarget first distinct)

/-! ### What the rebuild leaves -/

def Sent (jobs : Table NotificationJob) (appointmentId : Nat) (s : ReminderSchedule) : Prop :=
  ∃ i job, jobs.row i = some job ∧ job.appointmentId = appointmentId ∧ sameKey s job = true ∧ job.status = .sent

/-- The pending reminders of the appointment are the jobs of the schedules that have not been sent. -/
def Exact (jobs jobs' : Table NotificationJob) (appointmentId : Nat) (all : List ReminderSchedule) : Prop :=
  ∀ job, (∃ i, jobs'.row i = some job ∧ job.appointmentId = appointmentId ∧ job.status = .pending ∧
      job.notificationType.isReminder = true) ↔
    ∃ s ∈ all, ¬ Sent jobs appointmentId s ∧ job = newJob appointmentId s

/-- Jobs of other types are as they were. -/
def Framed (jobs jobs' : Table NotificationJob) : Prop :=
  ∀ i job, job.notificationType.isReminder = false → (jobs'.row i = some job ↔ jobs.row i = some job)

theorem rebuilt_of_wanted (keyed : Keyed all) (wanted : s ∈ all) (own : job.appointmentId = i) (key : sameKey s job = true)
    (unsent : job.status ≠ .sent) : rebuilt all job = newJob i s := by
  have found : all.find? (sameKey · job) = some s := by
    cases h : all.find? (sameKey · job) with
    | none =>
      rw [List.find?_eq_none] at h
      exact absurd key (h s wanted)
    | some s' =>
      have hs' := List.mem_of_find?_eq_some h
      have key' : sameKey s' job = true := by simpa using List.find?_some h
      rw [keyed.unique s' hs' s wanted job key' key]
  obtain ⟨recipient, type, offset⟩ := sameKey_iff.mp key
  unfold rebuilt
  rw [found]
  simp only [if_neg unsent, newJob]
  rw [recipient, type, offset, own]

theorem not_sent_of_row (distinct : jobs.Distinct NotificationJob.delivery) (row : jobs.row i = some job)
    (key : sameKey s job = true) (unsent : job.status ≠ .sent) : ¬ Sent jobs job.appointmentId s := by
  rintro ⟨k, sent, hk, own, key', status⟩
  obtain ⟨recipient, type, offset⟩ := sameKey_iff.mp key
  obtain ⟨recipient', type', offset'⟩ := sameKey_iff.mp key'
  have same : sent.delivery = job.delivery := by
    unfold NotificationJob.delivery
    rw [own, ← recipient, ← recipient', ← type, ← type', ← offset, ← offset']
  obtain rfl := distinct k i sent job _ hk row same rfl
  rw [row, Option.some.injEq] at hk
  exact unsent (hk ▸ status)

theorem pending_of_rebuilt (pending : (rebuilt all job).status = .pending) :
    ∃ s ∈ all, sameKey s job = true ∧ job.status ≠ .sent := by
  unfold rebuilt at pending
  split at pending
  · split at pending
    · cases pending
    · next settled =>
      rw [pending] at settled
      exact absurd rfl settled
  · next s found =>
    refine ⟨s, List.mem_of_find?_eq_some found, by simpa using List.find?_some found, ?_⟩
    split at pending
    · next sent =>
      rw [sent] at pending
      cases pending
    · assumption

theorem exact_afterRebuild (nodup : (targets.map (·.appointmentId)).Nodup) (mem : target ∈ targets)
    (keyed : Keyed (schedules target)) (distinct : jobs.Distinct NotificationJob.delivery) :
    Exact jobs (afterRebuild schedules targets jobs) target.appointmentId (schedules target) := by
  intro job
  constructor
  · rintro ⟨i, row, own, pending, -⟩
    cases old : jobs.row i with
    | none =>
      obtain ⟨t, ht, s, wanted, unknown, rfl⟩ := new_of_afterRebuild nodup old row
      obtain rfl : t = target := List.inj_on_of_nodup_map nodup ht mem own
      refine ⟨s, wanted, ?_, rfl⟩
      rintro ⟨k, sent, hk, own', key, -⟩
      exact unknown ⟨k, sent, hk, own', key⟩
    | some before =>
      obtain ⟨t, ht, comes⟩ : ∃ t ∈ targets, before.appointmentId = t.appointmentId := by
        by_contra foreign
        have kept : (afterRebuild schedules targets jobs).row i = some before :=
          row_afterRebuild_of_foreign (fun t ht same => foreign ⟨t, ht, same⟩) old
        rw [row, Option.some.injEq] at kept
        exact foreign ⟨target, mem, kept ▸ own⟩
      have here : (afterRebuild schedules targets jobs).row i = some (rebuilt (schedules t) before) :=
        row_afterRebuild nodup ht comes old
      rw [row, Option.some.injEq] at here
      subst here
      rw [rebuilt_appointmentId] at own
      obtain rfl : t = target := List.inj_on_of_nodup_map nodup ht mem (comes.symm.trans own)
      obtain ⟨s, wanted, key, unsent⟩ := pending_of_rebuilt pending
      refine ⟨s, wanted, ?_, rebuilt_of_wanted keyed wanted own key unsent⟩
      rw [← own]
      exact not_sent_of_row distinct old key unsent
  · rintro ⟨s, wanted, unsent, rfl⟩
    by_cases known : Known jobs target.appointmentId s
    · obtain ⟨i, old, row, own, key⟩ := known
      have status : old.status ≠ .sent := fun sent => unsent ⟨i, old, row, own, key, sent⟩
      refine ⟨i, ?_, rfl, rfl, keyed.reminder s wanted⟩
      rw [row_afterRebuild nodup mem own row, rebuilt_of_wanted keyed wanted own key status]
    · obtain ⟨i, row⟩ := exists_afterRebuild nodup mem wanted known
      exact ⟨i, row, rfl, rfl, keyed.reminder s wanted⟩

theorem rebuilt_of_other (keyed : Keyed all) (other : job.notificationType.isReminder = false) :
    rebuilt all job = if job.status.isUnsent then { job with status := .cancelled, lockedAt := none, lockedBy := none } else job := by
  have unwanted : all.find? (sameKey · job) = none := by
    refine List.find?_eq_none.mpr fun s hs key => ?_
    have reminder := keyed.reminder s hs
    rw [(sameKey_iff.mp key).2.1, other] at reminder
    cases reminder
  unfold rebuilt
  rw [unwanted]

theorem rebuilt_notificationType : (rebuilt all job).notificationType = job.notificationType := by
  unfold rebuilt
  split
  · split <;> rfl
  · split <;> rfl

/-- Jobs of other types are left alone exactly when none of a future active appointment waits to be sent. -/
theorem framed_afterRebuild_iff (nodup : (targets.map (·.appointmentId)).Nodup) (keyed : ∀ target ∈ targets, Keyed (schedules target)) :
    Framed jobs (afterRebuild schedules targets jobs) ↔ ∀ i job, jobs.row i = some job →
      (∃ target ∈ targets, target.appointmentId = job.appointmentId) → job.notificationType.isReminder = false →
        job.status.isUnsent = false := by
  constructor
  · rintro framed i job row ⟨t, ht, own⟩ other
    have here : (afterRebuild schedules targets jobs).row i = some (rebuilt (schedules t) job) :=
      row_afterRebuild nodup ht own.symm row
    rw [(framed i job other).mpr row, rebuilt_of_other (keyed t ht) other, Option.some.injEq] at here
    by_contra unsent
    rw [if_pos (Bool.not_eq_false _ ▸ unsent)] at here
    have cancelled : job.status = .cancelled := congrArg NotificationJob.status here
    rw [cancelled] at unsent
    exact unsent rfl
  · intro settled i job other
    constructor
    · intro row
      cases old : jobs.row i with
      | none =>
        obtain ⟨t, ht, s, wanted, -, rfl⟩ := new_of_afterRebuild nodup old row
        exact absurd ((keyed t ht).reminder s wanted) (by rw [show s.notificationType.isReminder = false from other]; decide)
      | some before =>
        by_cases comes : ∃ t ∈ targets, t.appointmentId = before.appointmentId
        · obtain ⟨t, ht, own⟩ := comes
          have here : (afterRebuild schedules targets jobs).row i = some (rebuilt (schedules t) before) :=
            row_afterRebuild nodup ht own.symm old
          rw [row, Option.some.injEq] at here
          subst here
          rw [rebuilt_notificationType] at other
          rw [rebuilt_of_other (keyed t ht) other, settled i before old ⟨t, ht, own⟩ other]
          rfl
        · have kept : (afterRebuild schedules targets jobs).row i = some before :=
            row_afterRebuild_of_foreign (fun t ht same => comes ⟨t, ht, same.symm⟩) old
          rw [← row, kept]
    · intro row
      by_cases comes : ∃ t ∈ targets, t.appointmentId = job.appointmentId
      · obtain ⟨t, ht, own⟩ := comes
        rw [row_afterRebuild nodup ht own.symm row, rebuilt_of_other (keyed t ht) other,
          settled i job row ⟨t, ht, own⟩ other]
        rfl
      · exact row_afterRebuild_of_foreign (fun t ht same => comes ⟨t, ht, same.symm⟩) row

/-! ### The transaction -/

/-- What the rebuild reads by is not assigned: a job belongs to the appointment that the session sees. -/
def Owned (v : View QueueTable.Row) : Prop :=
  ∀ i, ((v.sees .jobs).row i).map (·.appointmentId) = ((v.committed .jobs).row i).map (·.appointmentId)

variable {v : View QueueTable.Row} {next : QueueTx}

theorem Owned.flush (h : v.Coherent) : Owned v.flush := by
  unfold Owned
  rw [h.committed_flush]
  exact fun _ => rfl

theorem Owned.insertAll {rows : List NotificationJob} : ∀ {v : View QueueTable.Row}, v.Coherent → Owned v →
    Owned (rows.foldl (fun v job => v.insert .jobs job) v) := by
  induction rows with
  | nil => exact fun _ owned => owned
  | cons job rows ih =>
    intro v h owned
    refine ih (h.insert (t := .jobs) job) fun i => ?_
    rw [View.sees_insert, h.committed_insert, Function.update_self, Table.row_insert]
    by_cases new : i = (v.store .jobs).next
    · rw [if_pos new]
      exact (congrArg (Option.map _) (if_pos new)).symm
    · rw [if_neg new, owned i]
      exact (congrArg (Option.map _) (if_neg new)).symm

/-- `add_all`, with a flush or without. -/
theorem addAll_alone (h : v.Coherent) (owned : Owned v) (rows : List NotificationJob) : ∃ v',
    (addAll rows next).alone v = next.alone v' ∧ v'.Coherent ∧ Owned v' ∧
      v'.committed = Function.update v.committed .jobs ((v.committed .jobs).insertAll rows) := by
  cases rows with
  | nil => exact ⟨v, rfl, h, owned, (Function.update_eq_self _ _).symm⟩
  | cons job rows =>
    obtain ⟨coherent, committed⟩ := @View.Coherent.foldl_insert _ _ _ _ _ QueueTable.jobs (job :: rows) _ h.flush
    refine ⟨_, ?_, coherent, .insertAll h.flush (.flush h), ?_⟩
    · rw [addAll, Tx.alone]
      · exact Tx.alone_insertAll
      · simp
    · rw [committed, h.committed_flush]

theorem target_alone (h : v.Coherent) (owned : Owned v) (schedules : RebuildTarget → List ReminderSchedule)
    (target : RebuildTarget) : ∃ v',
      (Tx.select .jobs (fun jobs => (jobs.select fun job => job.appointmentId = target.appointmentId).map Prod.fst)
        fun existing => .assignAll .jobs (existing.map fun r => (r.1, rebuilt (schedules target) r.2))
          (addAll (((schedules target).filter fun s => !existing.any fun r => sameKey s r.2).map (newJob target.appointmentId))
            next) : QueueTx).alone v = next.alone v' ∧ v'.Coherent ∧ Owned v' ∧
        v'.committed = Function.update v.committed .jobs (afterTarget schedules (v.committed .jobs) target) := by
  obtain ⟨p, hp⟩ : ∃ p : NotificationJob → Bool, p = fun job : NotificationJob =>
    decide (job.appointmentId = target.appointmentId) := ⟨_, rfl⟩
  rw [Tx.alone, ← hp]
  have keys : ((v.sees .jobs).select p).map Prod.fst = ((v.committed .jobs).select p).map Prod.fst := by
    refine Table.keys_select_congr rfl fun i => ?_
    have same := owned i
    subst hp
    cases seen : (v.sees .jobs).row i with
    | none =>
      cases row : (v.committed .jobs).row i with
      | none => rfl
      | some job => rw [seen, row] at same; cases same
    | some job =>
      cases row : (v.committed .jobs).row i with
      | none => rw [seen, row] at same; cases same
      | some job' =>
        rw [seen, row] at same
        simp [Option.some.inj same]
  have existing : (v.load false .jobs (((v.sees .jobs).select p).map Prod.fst)).copy.rows .jobs
      (((v.sees .jobs).select p).map Prod.fst) = (v.committed .jobs).select p := by
    rw [h.rows_load, keys, Table.filterMap_keys_select]
  rw [existing]
  have known : ∀ r ∈ ((v.committed .jobs).select p).map fun r => (r.1, rebuilt (schedules target) r.2),
      ∃ x, (v.load false .jobs (((v.sees .jobs).select p).map Prod.fst)).copy .jobs r.1 = some x := by
    intro r hr
    obtain ⟨r', hr', rfl⟩ := List.mem_map.mp hr
    have listed : r'.1 ∈ ((v.sees .jobs).select p).map Prod.fst := keys ▸ List.mem_map_of_mem hr'
    obtain ⟨s, hs, same⟩ := List.mem_map.mp listed
    exact View.known_load false listed (same ▸ (Table.mem_select.mp hs).1)
  obtain ⟨coherent, sees, committed⟩ :=
    @View.Coherent.foldl_assign _ _ _ _ _ QueueTable.jobs _ _ (h.load false (((v.sees .jobs).select p).map Prod.fst)) known
  rw [h.committed_load, Table.foldl_put_select] at committed
  have rewritten : Owned ((((v.committed .jobs).select p).map fun r => (r.1, rebuilt (schedules target) r.2)).foldl
      (fun v r => v.assign .jobs r.1 r.2) (v.load false .jobs (((v.sees .jobs).select p).map Prod.fst))) := by
    intro i
    rw [sees, committed, Function.update_self, Table.row_mapRows, Option.map_map]
    refine (owned i).trans (Option.map_congr fun job _ => ?_)
    show job.appointmentId = (if p job = true then rebuilt (schedules target) job else job).appointmentId
    split
    · exact rebuilt_appointmentId.symm
    · rfl
  obtain ⟨v', goes, coherent', owned', committed'⟩ := @addAll_alone _ next coherent rewritten
    ((missing (schedules target) (v.committed .jobs) target.appointmentId).map (newJob target.appointmentId))
  refine ⟨v', ?_, coherent', owned', ?_⟩
  · rw [Tx.alone_assignAll, ← goes]
    unfold missing
    rw [hp]
  · rw [committed', committed, Function.update_idem, Function.update_self]
    unfold afterTarget
    simp only [hp, decide_eq_true_eq]

theorem rebuild_alone (planned : ∀ target ∈ targets, ∃ clientId isBlocked all, target.client = some (clientId, isBlocked) ∧
      futureReminderSchedules target.startAt now offsets clientId admins = .ok all ∧
      schedules target = if isBlocked then all.filter (·.notificationType ≠ .clientReminder) else all) :
    ∀ {v : View QueueTable.Row}, v.Coherent → Owned v → ∃ v',
      (rebuildFutureReminders offsets now admins targets next).alone v = next.alone v' ∧ v'.Coherent ∧
        v'.committed = Function.update v.committed .jobs (afterRebuild schedules targets (v.committed .jobs)) := by
  induction targets with
  | nil => exact fun {v} h _ => ⟨v, rfl, h, (Function.update_eq_self _ _).symm⟩
  | cons target targets ih =>
    intro v h owned
    obtain ⟨⟨clientId, isBlocked, all, client, wanted, plan⟩, planned⟩ := List.forall_mem_cons.mp planned
    obtain ⟨v₁, turn, coherent, owned₁, committed⟩ := @target_alone _ (rebuildFutureReminders offsets now admins targets next)
      h owned schedules target
    obtain ⟨v₂, rest, coherent₂, committed₂⟩ := ih planned coherent owned₁
    refine ⟨v₂, ?_, coherent₂, ?_⟩
    · rw [← rest, ← turn, rebuildFutureReminders, client]
      simp only [wanted, ← plan]
    · rw [committed₂, committed, Function.update_idem, Function.update_self]
      rfl

theorem updateReminderOffsets_alone {queue : (t : QueueTable) → Table t.Row} {settings : ReminderSettings}
    (stored : (queue .settings).row 1 = some settings)
    (planned : ∀ target ∈ targets, ∃ clientId isBlocked all, target.client = some (clientId, isBlocked) ∧
      futureReminderSchedules target.startAt now offsets clientId admins = .ok all ∧
      schedules target = if isBlocked then all.filter (·.notificationType ≠ .clientReminder) else all) :
    (updateReminderOffsets offsets now admins targets).alone (View.start queue) =
      some (Function.update (Function.update queue .settings ((queue .settings).put 1 ⟨offsets, settings.version + 1⟩)) .jobs
        (afterRebuild schedules targets (queue .jobs)), .done) := by
  have start : (View.start queue).Coherent := View.coherent_start
  have seen : ((View.start queue).sees .settings).row 1 = some settings := by
    rw [View.sees_row rfl]
    exact stored
  have row : ((View.start queue).committed .settings).row 1 = some settings := by
    rw [View.committed_start, stored]
  have loaded := start.load (t := .settings) true [1]
  obtain ⟨x, hx⟩ := View.known_load true (List.mem_singleton_self 1) seen
  have assigned := loaded.assign (t := .settings) (i := 1) (⟨offsets, settings.version + 1⟩ : ReminderSettings)
  have committed := loaded.committed_assign hx (⟨offsets, settings.version + 1⟩ : ReminderSettings)
  rw [start.committed_load, View.committed_start] at committed
  have owned : Owned (((View.start queue).load true .settings [1]).assign .settings 1 ⟨offsets, settings.version + 1⟩) := by
    intro i
    rw [committed, Function.update_of_ne (by decide)]
    exact congrArg (Option.map _) (View.sees_row rfl)
  obtain ⟨v, goes, coherent, after⟩ := @rebuild_alone _ _ _ _ _ (.flush (.commit .done)) planned _ assigned owned
  rw [updateReminderOffsets, Tx.alone_getForUpdate start seen row]
  refine goes.trans ?_
  rw [Tx.alone, Tx.alone, coherent.committed_flush, after, committed, Function.update_of_ne (by decide)]

theorem nodup_activeAdminIds {staff : Staff.StaffDb} (members : staff.members.Distinct (·.userId)) (sortOrder : Nat → Int) :
    (activeAdminIds staff sortOrder).Nodup := by
  have bound : ∀ r ∈ staff.listActiveByRoles sortOrder legacyAdminRoles,
      staff.members.row r.1 = some r.2.1 ∧ r.2.1.userId = some r.2.2.1 ∧ staff.users.row r.2.2.1 = some r.2.2.2 := by
    intro r hr
    obtain ⟨m, hm, found⟩ := List.mem_filterMap.mp ((List.mem_insertionSort _).mp hr)
    obtain ⟨userId, hu, found⟩ := Option.bind_eq_some_iff.mp found
    obtain ⟨user, huser, rfl⟩ := Option.map_eq_some_iff.mp found
    exact ⟨(Table.mem_select.mp hm).1, hu, huser⟩
  refine List.Nodup.map_on ?_ (List.Nodup.filter _ ?_)
  · intro a ha b hb same
    obtain ⟨rowA, userA, foundA⟩ := bound a (List.mem_filter.mp ha).1
    obtain ⟨rowB, userB, foundB⟩ := bound b (List.mem_filter.mp hb).1
    have key : a.1 = b.1 := members a.1 b.1 a.2.1 b.2.1 a.2.2.1 rowA rowB userA (userB.trans (congrArg some same.symm))
    rw [key, rowB, Option.some.injEq] at rowA
    rw [same, foundB, Option.some.injEq] at foundA
    exact Prod.ext key (Prod.ext rowA.symm (Prod.ext same foundA.symm))
  · refine (List.perm_insertionSort _ _).nodup_iff.mpr (List.Nodup.filterMap ?_ (Table.nodup_toList.filter _))
    intro a b r ha hb
    obtain ⟨userId, -, found⟩ := Option.bind_eq_some_iff.mp (Option.mem_def.mp ha)
    obtain ⟨user, -, rfl⟩ := Option.map_eq_some_iff.mp found
    obtain ⟨userId', -, found'⟩ := Option.bind_eq_some_iff.mp (Option.mem_def.mp hb)
    obtain ⟨user', -, same⟩ := Option.map_eq_some_iff.mp found'
    simp only [Prod.mk.injEq] at same
    exact Prod.ext same.1.symm same.2.1.symm

theorem nodup_rebuildTargets {db : Db} {getById : Nat → Option Staff.User} :
    ((rebuildTargets db getById now).map (·.appointmentId)).Nodup := by
  unfold rebuildTargets
  rw [List.map_map]
  have bound : ∀ r ∈ db.listFutureActive now, db.appointments.row r.1 = some r.2.1 ∧
      db.windows.row r.2.1.windowId = some r.2.2 := by
    intro r hr
    obtain ⟨a, ha, found⟩ := List.mem_filterMap.mp ((List.mem_insertionSort _).mp hr)
    obtain ⟨w, hw, rfl⟩ := Option.map_eq_some_iff.mp found
    exact ⟨(Table.mem_select.mp ha).1, (Option.filter_eq_some_iff.mp hw).1⟩
  refine List.Nodup.map_on ?_ ((List.perm_insertionSort _ _).nodup_iff.mpr (List.Nodup.filterMap ?_ (Table.nodup_toList.filter _)))
  · intro a ha b hb same
    obtain ⟨rowA, windowA⟩ := bound a ha
    obtain ⟨rowB, windowB⟩ := bound b hb
    have key : a.1 = b.1 := same
    rw [key, rowB, Option.some.injEq] at rowA
    rw [← rowA, windowB, Option.some.injEq] at windowA
    exact Prod.ext key (Prod.ext rowA.symm windowA.symm)
  · intro a b r ha hb
    obtain ⟨w, -, rfl⟩ := Option.map_eq_some_iff.mp (Option.mem_def.mp ha)
    obtain ⟨w', -, same⟩ := Option.map_eq_some_iff.mp (Option.mem_def.mp hb)
    simp only [Prod.mk.injEq] at same
    exact Prod.ext same.1.symm same.2.1.symm

end SettingsService

/-! ### The update of the offsets -/

namespace QueueOp

open SettingsService

/-- What the update is to leave: exactly the wanted reminders pending, no delivery twice, other jobs as they were. -/
structure Rebuilt (db : Db) (offsets : List Int) (now : Int) (admins : List Nat) (jobs jobs' : Table NotificationJob) :
    Prop where
  pending : ∀ r ∈ db.listFutureActive now, ∃ all,
    futureReminderSchedules r.2.2.startAt now offsets r.2.1.clientId admins = .ok all ∧ Exact jobs jobs' r.1 all
  distinct : jobs'.Distinct NotificationJob.delivery
  framed : Framed jobs jobs'

/-- No job of another type waits to be sent for a future active appointment. -/
def OnlyReminders (db : Db) (now : Int) (jobs : Table NotificationJob) : Prop :=
  jobs.All fun _ job => (∃ r ∈ db.listFutureActive now, r.1 = job.appointmentId) →
    job.notificationType.isReminder = false → job.status.isUnsent = false

/-- The update commits in a world where nobody else is there, and it leaves the queue rebuilt if and only if only reminders
wait for the future active appointments. -/
theorem reminders_rebuilt_iff (services : QueueServices) (tid : Nat) {queue : (t : QueueTable) → Table t.Row}
    {settings : ReminderSettings} {db : Db} {staff : Staff.StaffDb} {getById : Nat → Option Staff.User}
    {offsets : List Int} {now : Int} (sortOrder : Nat → Int) (stored : (queue .settings).row 1 = some settings)
    (deliveries : (queue .jobs).Distinct NotificationJob.delivery) (members : staff.members.Distinct (·.userId))
    (valid : ValidOffsets offsets)
    (reachable : ∀ r ∈ db.listFutureActive now, ∃ client, getById r.2.1.clientId = some client ∧ client.isBlocked = false) :
    ∃ queue', (step services (World.start queue) (.begin tid (.updateReminderOffsets offsets now
        (activeAdminIds staff sortOrder) (rebuildTargets db getById now)))).Commits (tx services) tid
        (.updateReminderOffsets offsets now (activeAdminIds staff sortOrder) (rebuildTargets db getById now)) queue' .done ∧
      (queue' .settings).row 1 = some ⟨offsets, settings.version + 1⟩ ∧
      (Rebuilt db offsets now (activeAdminIds staff sortOrder) (queue .jobs) (queue' .jobs) ↔
        OnlyReminders db now (queue .jobs)) := by
  obtain ⟨admins, hadmins⟩ : ∃ admins, activeAdminIds staff sortOrder = admins := ⟨_, rfl⟩
  have nodup : admins.Nodup := hadmins ▸ nodup_activeAdminIds members sortOrder
  rw [hadmins]
  obtain ⟨schedules, hschedules⟩ : ∃ schedules : RebuildTarget → List ReminderSchedule, schedules = fun target =>
    offsets.flatMap (remindersAt target.startAt now ((target.client.map Prod.fst).getD 0) admins) := ⟨_, rfl⟩
  have positive : ∀ offset ∈ offsets, 0 < offset := fun offset h => (valid.1 offset h).1
  have keyed : ∀ target, Keyed (schedules target) := by
    intro target
    rw [hschedules]
    exact keyed_futureReminderSchedules valid.2.2.2 nodup
  have planned : ∀ target ∈ rebuildTargets db getById now, ∃ clientId isBlocked all,
      target.client = some (clientId, isBlocked) ∧
      futureReminderSchedules target.startAt now offsets clientId admins = .ok all ∧
      schedules target = if isBlocked then all.filter (·.notificationType ≠ .clientReminder) else all := by
    intro target hmem
    obtain ⟨r, hr, rfl⟩ := List.mem_map.mp hmem
    obtain ⟨client, found, free⟩ := reachable r hr
    refine ⟨r.2.1.clientId, client.isBlocked, _, by rw [found]; rfl, futureReminderSchedules_ok positive, ?_⟩
    rw [hschedules, free, found]
    rfl
  have alone := updateReminderOffsets_alone stored planned
  refine ⟨_, World.commits_of_begin alone, ?_, ?_⟩
  · rw [Function.update_of_ne (by decide), Function.update_self]
    exact Table.row_put_self stored
  · rw [Function.update_self]
    have framed : Framed (queue .jobs) (afterRebuild schedules (rebuildTargets db getById now) (queue .jobs)) ↔
        OnlyReminders db now (queue .jobs) := by
      refine (framed_afterRebuild_iff nodup_rebuildTargets fun target _ => keyed target).trans
        (forall₃_congr fun i job _ => imp_congr_left ?_)
      simp [rebuildTargets]
    refine ⟨fun rebuilt => framed.mp rebuilt.framed, fun only => ⟨fun r hr => ?_, ?_, framed.mpr only⟩⟩
    · obtain ⟨client, found, -⟩ := reachable r hr
      have mem : (⟨r.1, r.2.2.startAt, (getById r.2.1.clientId).map fun client => (r.2.1.clientId, client.isBlocked)⟩ :
          RebuildTarget) ∈ rebuildTargets db getById now := List.mem_map.mpr ⟨r, hr, rfl⟩
      have pending := exact_afterRebuild nodup_rebuildTargets mem (keyed _) deliveries
      refine ⟨_, futureReminderSchedules_ok positive, ?_⟩
      rw [hschedules, found] at pending
      rw [hschedules]
      exact pending
    · exact distinct_afterRebuild (fun target _ => keyed target) deliveries

/-! ### One visit -/

instance (db : Db) (now : Int) (jobs : Table NotificationJob) : Decidable (OnlyReminders db now jobs) :=
  inferInstanceAs (Decidable (jobs.All _))

/-- A visit on the second day that waits for its prepayment. -/
def unpaidVisit : Db :=
  { Db.empty with
    windows := Table.empty.insert ⟨1, hours 34, hours 35, .booked⟩
    appointments := Table.empty.insert
      { staffMemberId := 1, clientId := 2, windowId := 1, serviceId := 1, workstationId := some 1, priceSnapshot := 10000
        prepaymentSnapshot := 10000, paymentModeSnapshot := .manual, durationMinSnapshot := 60, durationMaxSnapshot := 60
        scheduledStartAt := hours 34, scheduledEndAt := hours 35, status := .pendingPayment } }

/-- The owner of the salon, and a client. -/
def ownerAndClient : Staff.StaffDb where
  users := (Table.empty.insert ⟨100, false⟩).insert ⟨200, false⟩
  members := Table.empty.insert ⟨some 1, "Anna", .owner, true, false, true, [], none⟩
  invitations := .empty
  businessType := .solo

/-- An obsolete reminder of the visit, one that has been sent, and a job about its payment. -/
def visitJobs (due : NotificationJobStatus) : (t : QueueTable) → Table t.Row
  | .jobs =>
    ((Table.empty.insert
      { appointmentId := 1, recipientUserId := 2, notificationType := .clientReminder, offsetMinutes := 180
        scheduledAt := hours 31, availableAt := hours 31 }).insert
      { appointmentId := 1, recipientUserId := 2, notificationType := .clientReminder, offsetMinutes := 1440
        scheduledAt := hours 10, availableAt := hours 10, status := .sent, sentAt := some (hours 10) }).insert
      { appointmentId := 1, recipientUserId := 2, notificationType := .paymentDueClient, offsetMinutes := 10
        scheduledAt := hours 12, availableAt := hours 12, status := due }
  | .settings => Table.empty.insert ⟨[1440, 180], 1⟩
  | .notifications | .entries => Table.empty

def changeOffsets : QueueOp :=
  .updateReminderOffsets [1440, 60] (hours 11) (activeAdminIds ownerAndClient fun _ => 0)
    (rebuildTargets unpaidVisit ownerAndClient.users.row (hours 11))

/-- The update cancels a payment reminder that waits to be sent. -/
theorem payment_reminder_cancelled :
    let w := after workers (visitJobs .pending) (.begin 0 changeOffsets :: List.replicate 7 (.next 0))
    ValidOffsets [1440, 60] ∧ (unpaidVisit.listFutureActive (hours 11)).map (·.1) = [1] ∧ w.log.map Prod.snd = [.done] ∧
      ((visitJobs .pending .jobs).row 3).map (fun job => (job.appointmentId, job.notificationType, job.status)) =
        some (1, .paymentDueClient, .pending) ∧
      ((w.store .jobs).row 3).map (fun job => (job.appointmentId, job.notificationType, job.status)) =
        some (1, .paymentDueClient, .cancelled) := by
  decide +kernel

theorem reminders_rebuilt_visit :
    OnlyReminders unpaidVisit (hours 11) (visitJobs .sent .jobs) ∧ ∃ queue',
      (step workers (World.start (visitJobs .sent)) (.begin 0 changeOffsets)).Commits (tx workers) 0 changeOffsets queue' .done ∧
        (queue' .settings).row 1 = some ⟨[1440, 60], 2⟩ ∧
        Rebuilt unpaidVisit [1440, 60] (hours 11) [1] (visitJobs .sent .jobs) (queue' .jobs) := by
  have only : OnlyReminders unpaidVisit (hours 11) (visitJobs .sent .jobs) := by decide +kernel
  have stored : (visitJobs .sent .settings).row 1 = some ⟨[1440, 180], 1⟩ := by decide +kernel
  have deliveries : (visitJobs .sent .jobs).Distinct NotificationJob.delivery := .of_all (by decide +kernel)
  have members : ownerAndClient.members.Distinct (·.userId) := .of_all (by decide +kernel)
  have valid : ValidOffsets [1440, 60] := by decide +kernel
  have reachable : ∀ r ∈ unpaidVisit.listFutureActive (hours 11), ∃ client,
      ownerAndClient.users.row r.2.1.clientId = some client ∧ client.isBlocked = false := by
    intro r hr
    have clients : ∀ r ∈ unpaidVisit.listFutureActive (hours 11),
        ownerAndClient.users.row r.2.1.clientId = some ⟨200, false⟩ := by
      decide +kernel
    exact ⟨_, clients r hr, rfl⟩
  obtain ⟨queue', commits, updated, rebuilt⟩ :=
    reminders_rebuilt_iff workers 0 (fun _ => 0) stored deliveries members valid reachable
  exact ⟨only, queue', commits, updated, rebuilt.mpr only⟩

end QueueOp

end SalonBooking
