import SalonBooking.Delivery.Leases
import SalonBooking.Delivery.Waitlist

/-!
# What the queues' programs write

Every operation leaves a row alone that it finds SENT, and makes a row SENT only by the delivery of that row.
-/

namespace SalonBooking

open Lib

/-- The delivery time of a row that is SENT. -/
def QueueTable.delivered : (t : QueueTable) → t.Row → Option (Option Int)
  | .jobs, job => if job.status = .sent then some job.sentAt else none
  | .notifications, job => if job.status = .sent then some job.sentAt else none
  | .entries, _ | .settings, _ => none

/-- Two versions of a row with the same status and delivery time. -/
def QueueTable.sameDelivery : (t : QueueTable) → t.Row → t.Row → Bool
  | .jobs, l, a => l.status = a.status ∧ l.sentAt = a.sentAt
  | .notifications, l, a => l.status = a.status ∧ l.sentAt = a.sentAt
  | .entries, _, _ | .settings, _, _ => true

theorem QueueTable.sameDelivery_of_delivered {t : QueueTable} {l a : t.Row} {time : Option Int}
    (hl : t.delivered l = some time) (ha : t.delivered a = some time) : t.sameDelivery l a = true := by
  cases t with
  | jobs | notifications =>
    obtain ⟨hl, hl'⟩ := Option.ite_none_right_eq_some.mp hl
    obtain ⟨ha, ha'⟩ := Option.ite_none_right_eq_some.mp ha
    exact decide_eq_true ⟨hl.trans ha.symm, Option.some.inj (hl'.trans ha'.symm)⟩
  | entries => cases hl
  | settings => cases hl

theorem QueueTable.delivered_write {t : QueueTable} {l a s : t.Row} (h : t.sameDelivery l a = true) :
    t.delivered (Columns.write l a s) = t.delivered s := by
  cases t with
  | jobs | notifications =>
    obtain ⟨status, sentAt⟩ := of_decide_eq_true h
    show (if flushed l.status a.status s.status = .sent then some (flushed l.sentAt a.sentAt s.sentAt) else none) = _
    rw [flushed, if_pos status.symm, flushed, if_pos sentAt.symm]
    rfl
  | entries | settings => rfl

theorem QueueTable.not_delivered_of_unsent {job : NotificationJob} (h : job.status.isUnsent = true) :
    delivered .jobs job = none := by
  refine if_neg fun hs => ?_
  rw [hs] at h
  cases h

theorem QueueTable.not_delivered_of_waiting {job : WaitlistNotification} (h : job.status.isUnsent = true) :
    delivered .notifications job = none := by
  refine if_neg fun hs => ?_
  rw [hs] at h
  cases h

/-- What `prepare_delivery` of a waitlist notification does once it has read the entry. -/
def WaitlistDeliveryService.answered (notificationId : Nat) (ctx : WaitlistContext) (job : WaitlistNotification)
    (current : Int) (entry : Option WaitlistEntry) : QueueTx :=
  match verdict ctx entry notificationId job current with
  | .error (status, reason) => finish notificationId job status (some reason) (.waitlistDelivery none)
  | .ok d => .done (.waitlistDelivery (some d))

namespace QueueOp

/-- The operation is a delivery of the row. -/
def Delivers : QueueOp → QueueTable → Nat → Prop
  | notification (.markSent jobId _ _), .jobs, i => i = jobId
  | waitlist (.markSent notificationId _ _), .notifications, i => i = notificationId
  | _, _, _ => False

/-- What an operation assigns to a row that it has read: it leaves SENT rows alone, and makes one SENT only when it
delivers it. -/
def Assigns (op : QueueOp) (t : QueueTable) (i : Nat) (old new : t.Row) : Prop :=
  (∀ time, t.delivered old = some time → t.delivered new = some time) ∧
    (t.delivered old = none → t.delivered new ≠ none → op.Delivers t i)

theorem Assigns.refl {op : QueueOp} {t : QueueTable} {i : Nat} (a : t.Row) : op.Assigns t i a a :=
  ⟨fun _ => id, fun none some => absurd none some⟩

theorem Assigns.of_undelivered {op : QueueOp} {t : QueueTable} {i : Nat} {old new : t.Row}
    (hold : t.delivered old = none) (hnew : t.delivered new = none) : op.Assigns t i old new :=
  ⟨fun _ h => absurd (hold.symm.trans h) nofun, fun _ h => absurd hnew h⟩

theorem Assigns.trans_same {op : QueueOp} {t : QueueTable} {i : Nat} {a b c : t.Row} (h : op.Assigns t i a b)
    (same : t.delivered c = t.delivered b) : op.Assigns t i a c :=
  ⟨fun time ha => same.trans (h.1 time ha), fun ha hc => h.2 ha (same ▸ hc)⟩

/-! ### The programs -/

variable {op : QueueOp}

/-- The object of row `i` was loaded from `row`. -/
def Based (c : Copies QueueTable.Row) (t : QueueTable) (i : Nat) (row : t.Row) : Prop :=
  ∀ x b, c t i = some x → x.base = some b → b = row

theorem based_put {t : QueueTable} {i : Nat} {row : t.Row} {c : Copies QueueTable.Row} :
    Based (c.put t i (.ofRow true row)) t i row := by
  intro x b hx hbase
  rw [Copies.put_self, Option.some.injEq] at hx
  subst hx
  exact (Option.some.inj hbase).symm

theorem writes_assign {t : QueueTable} {i : Nat} {row new : t.Row} {next : QueueTx} {c : Copies QueueTable.Row}
    (hrow : Based c t i row) (h : op.Assigns t i row new) (hnext : next.Writes op.Assigns (c.assign t i new)) :
    (Tx.assign t i new next).Writes op.Assigns c :=
  ⟨fun x b hx hbase => hrow x b hx hbase ▸ h, hnext⟩

theorem writes_finish {j : Nat} {job new : NotificationJob} {answer : QueueAnswer} (h : op.Assigns .jobs j job new) :
    (NotificationService.finish j new answer).Writes op.Assigns (onlyJob j job) :=
  writes_assign based_put h trivial

/-- A claim or a bulk cancellation: the rows are locked, and none of them is SENT before or after. -/
theorem writes_locked {t : QueueTable} {tbl : Table t.Row} {ids : List Nat} {f : t.Row → t.Row} {next : QueueTx}
    {start : Copies QueueTable.Row} (hstart : start = Copies.load Copies.empty true t tbl ids)
    (hids : ∀ j ∈ ids, ∀ row, tbl.row j = some row → t.delivered row = none)
    (hf : ∀ row, t.delivered (f row) = none) (hnext : ∀ c, next.Writes op.Assigns c) :
    (Tx.assignAll t ((start.rows t ids).map fun r => (r.1, f r.2)) (.flush next)).Writes op.Assigns start := by
  refine Tx.writes_assignAll (P := fun c => ∀ j x b, c t j = some x → x.base = some b → t.delivered b = none) ?_ ?_
    fun c _ => hnext c.flush
  · intro j x b hx hbase
    rw [hstart] at hx
    rcases Copies.load_cases hx with h | ⟨-, _, hj, row, hrow, rfl⟩
    · cases h
    · obtain rfl := Option.some.inj hbase
      exact hids j hj row hrow
  · rintro c ⟨j, new⟩ hr hc
    obtain ⟨⟨_, row⟩, -, heq⟩ := List.mem_map.mp hr
    cases heq
    refine ⟨fun x b hx hbase => .of_undelivered (hc _ x b hx hbase) (hf row), fun k x b hx hbase => ?_⟩
    obtain ⟨y, hy, base, -⟩ := (Copies.same_assign t k).2 x hx
    exact hc k y b hy (base ▸ hbase)

theorem writes_notification (services : QueueServices) (o : NotificationOp) :
    (o.tx services.notification).Writes (notification o).Assigns Copies.empty := by
  have leased : ∀ {worker : String} {job : NotificationJob}, NotificationService.Leased worker job →
      QueueTable.delivered .jobs job = none := fun h => QueueTable.not_delivered_of_unsent (by rw [h.1]; rfl)
  have lost : ∀ {j : Nat} {worker : String} {job new : NotificationJob}, NotificationService.Leased worker job →
      new.status ≠ .sent → (notification o).Assigns .jobs j job new :=
    fun h hs => .of_undelivered (leased h) (if_neg hs)
  cases o with
  | claimDue worker limit now =>
    intro tbl ids _ hids
    refine writes_locked rfl (fun j hj job hjob => ?_) (fun _ => rfl) fun c => trivial
    obtain ⟨⟨_, job'⟩, hmem, rfl⟩ := List.mem_map.mp (hids.subset hj)
    obtain ⟨hrow, due⟩ := Table.mem_select.mp ((List.mem_insertionSort _).mp hmem)
    rw [hjob, Option.some.injEq] at hrow
    exact QueueTable.not_delivered_of_unsent (NotificationOp.isUnsent_of_isDue (hrow ▸ due))
  | prepareDelivery j worker ctx now =>
    unfold NotificationOp.tx NotificationService.prepareDelivery
    refine NotificationService.writes_claimedJob (fun c => trivial) fun job h => ?_
    dsimp only
    split
    · exact writes_finish (lost h (by rintro ⟨⟩))
    · exact writes_finish (lost h (by rintro ⟨⟩))
    · trivial
  | markSent j worker now =>
    unfold NotificationOp.tx NotificationService.markSent
    refine NotificationService.writes_claimedJob (fun c => trivial) fun job h => writes_finish ⟨fun time hs => ?_, fun _ _ => rfl⟩
    rw [leased h] at hs
    cases hs
  | retry j worker delay code now =>
    unfold NotificationOp.tx NotificationService.retry
    refine NotificationService.writes_claimedJob (fun c => trivial) fun job h => writes_finish (lost h ?_)
    split <;> rintro ⟨⟩
  | markRecipientBlocked j worker =>
    unfold NotificationOp.tx NotificationService.markRecipientBlocked
    exact NotificationService.writes_claimedJob (fun c => trivial) fun job h => writes_finish (lost h (by rintro ⟨⟩))
  | markPermanentFailure j worker code =>
    unfold NotificationOp.tx NotificationService.markPermanentFailure
    exact NotificationService.writes_claimedJob (fun c => trivial) fun job h => writes_finish (lost h (by rintro ⟨⟩))
  | cancelUnsent appointmentId =>
    intro tbl _
    refine writes_locked rfl (fun j hj job hjob => ?_) (fun _ => rfl) fun c => trivial
    obtain ⟨⟨_, job'⟩, hmem, rfl⟩ := List.mem_map.mp hj
    obtain ⟨hrow, unsent⟩ := Table.mem_select.mp hmem
    rw [hjob, Option.some.injEq] at hrow
    exact QueueTable.not_delivered_of_unsent (hrow ▸ (Bool.and_eq_true_iff.mp unsent).2)
  | cancelUnsentByType type =>
    intro tbl _
    refine writes_locked rfl (fun j hj job hjob => ?_) (fun _ => rfl) fun c => trivial
    obtain ⟨⟨_, job'⟩, hmem, rfl⟩ := List.mem_map.mp hj
    obtain ⟨hrow, unsent⟩ := Table.mem_select.mp hmem
    rw [hjob, Option.some.injEq] at hrow
    exact QueueTable.not_delivered_of_unsent (hrow ▸ (Bool.and_eq_true_iff.mp unsent).2)

theorem writes_waitlist (services : QueueServices) (o : WaitlistOp) :
    (o.tx services.waitlist).Writes (waitlist o).Assigns Copies.empty := by
  have leased : ∀ {worker : String} {job : WaitlistNotification}, WaitlistDeliveryService.Leased worker job →
      QueueTable.delivered .notifications job = none := fun h => QueueTable.not_delivered_of_waiting (by rw [h.1]; rfl)
  have lost : ∀ {i : Nat} {worker : String} {job new : WaitlistNotification}, WaitlistDeliveryService.Leased worker job →
      new.status ≠ .sent → (waitlist o).Assigns .notifications i job new :=
    fun h hs => .of_undelivered (leased h) (if_neg hs)
  cases o with
  | claimDue worker limit now =>
    intro tbl ids _ hids
    refine writes_locked rfl (fun j hj job hjob => ?_) (fun _ => rfl) fun c => trivial
    obtain ⟨⟨_, job'⟩, hmem, rfl⟩ := List.mem_map.mp (hids.subset hj)
    obtain ⟨hrow, due⟩ := Table.mem_select.mp ((List.mem_insertionSort _).mp hmem)
    rw [hjob, Option.some.injEq] at hrow
    subst hrow
    refine if_neg fun hs => ?_
    simp [WaitlistRepository.isDue, hs] at due
  | prepareDelivery i worker ctx now =>
    unfold WaitlistOp.tx WaitlistDeliveryService.prepareDelivery
    refine WaitlistDeliveryService.writes_claimed (fun c => trivial) fun job h => ?_
    dsimp only
    split
    · intro tbl _
      have checked : ∀ entry c, Based c .notifications i job →
          (WaitlistDeliveryService.answered i ctx job now entry).Writes
            (waitlist (.prepareDelivery i worker ctx now)).Assigns c := by
        intro entry c hc
        unfold WaitlistDeliveryService.answered
        split
        · next status reason refused =>
          exact writes_assign hc (lost h (by rcases WaitlistDeliveryService.verdict_error refused with rfl | rfl <;> rintro ⟨⟩)) trivial
        · trivial
      refine Tx.writes_row false (checked none _ based_put) (fun _ h => ?_) (fun _ entry => ?_) tbl
      · exact checked _ _ based_put
      · refine checked _ _ fun x b hx hbase => ?_
        rw [Copies.put_of_ne (by simp)] at hx
        exact based_put x b hx hbase
    · exact writes_assign based_put (lost h (by rintro ⟨⟩)) trivial
  | markSent i worker now =>
    unfold WaitlistOp.tx WaitlistDeliveryService.markSent
    refine WaitlistDeliveryService.writes_claimed (fun c => trivial) fun job h => ?_
    have sent : ∀ new, (waitlist (.markSent i worker now)).Assigns .notifications i job new := fun new =>
      ⟨fun time hs => absurd ((leased h).symm.trans hs) (by simp), fun _ _ => rfl⟩
    refine writes_assign based_put (sent _) (writes_assign ?_ (sent _) trivial)
    rw [Copies.assign_put, Copies.flush_put]
    intro x b hx hbase
    rw [Copies.put_self, Option.some.injEq] at hx
    subst hx
    exact (Option.some.inj hbase).symm
  | retry i worker delay code now =>
    unfold WaitlistOp.tx WaitlistDeliveryService.retry
    refine WaitlistDeliveryService.writes_claimed (fun c => trivial) fun job h => ?_
    dsimp only
    split
    · exact writes_assign based_put (lost h (by rintro ⟨⟩)) trivial
    · exact writes_assign based_put (lost h (by simp)) trivial
  | markRecipientBlocked i worker =>
    unfold WaitlistOp.tx WaitlistDeliveryService.markRecipientBlocked WaitlistDeliveryService.markFailed
    exact WaitlistDeliveryService.writes_claimed (fun c => trivial) fun job h => writes_assign based_put (lost h (by rintro ⟨⟩)) trivial
  | markPermanentFailure i worker code =>
    unfold WaitlistOp.tx WaitlistDeliveryService.markPermanentFailure WaitlistDeliveryService.markFailed
    exact WaitlistDeliveryService.writes_claimed (fun c => trivial) fun job h => writes_assign based_put (lost h (by rintro ⟨⟩)) trivial

/-- The notifications that a session has loaded: as they are stored, under their locks, or loaded before they were SENT. -/
structure Quiet (op : QueueOp) (c : Copies QueueTable.Row) : Prop where
  along : c.Along op.Assigns
  loaded : ∀ i x, c .notifications i = some x →
    x.held = true ∧ x.now = x.loaded ∨ ∀ b, x.base = some b → QueueTable.delivered .notifications b = none

theorem Quiet.flush {c : Copies QueueTable.Row} (h : Quiet op c) : Quiet op c.flush := by
  refine ⟨h.along.flush, fun i x hx => ?_⟩
  obtain ⟨y, hy, rfl⟩ := Copies.flush_eq_some.mp hx
  exact (h.loaded i y hy).imp_left fun hl => ⟨hl.1, rfl⟩

theorem Quiet.assign_entry {c : Copies QueueTable.Row} (h : Quiet op c) (i : Nat) (entry : WaitlistEntry) :
    Quiet op (c.assign .entries i entry) := by
  refine ⟨h.along.assign fun _ _ _ _ => .of_undelivered rfl rfl, fun j x hx => h.loaded j x ?_⟩
  rwa [Copies.assign_of_ne (by nofun)] at hx

theorem writes_cancelUnsent {entryId : Nat} {next : QueueTx} {c : Copies QueueTable.Row} (hc : Quiet op c)
    (hnext : ∀ c, Quiet op c → next.Writes op.Assigns c) :
    (WaitlistRepository.cancelUnsent entryId next).Writes op.Assigns c := by
  refine Tx.writes_select fun tbl ids sees hids => ?_
  have unsent : ∀ i ∈ ids, ∃ job, tbl.row i = some job ∧ job.status.isUnsent = true := by
    intro i hi
    rw [hids] at hi
    obtain ⟨⟨_, job⟩, hmem, rfl⟩ := List.mem_map.mp hi
    obtain ⟨hrow, hs⟩ := Table.mem_select.mp hmem
    exact ⟨job, hrow, (Bool.and_eq_true_iff.mp hs).2⟩
  have quiet : Quiet op (c.load false .notifications tbl ids) := by
    refine ⟨hc.along.load (fun _ _ => Assigns.refl) _ _ _, fun i x hx => ?_⟩
    rcases Copies.load_cases hx with hx | ⟨-, _, hi, job, hjob, rfl⟩
    · exact hc.loaded i x hx
    · obtain ⟨job', hjob', hs⟩ := unsent i hi
      rw [hjob, Option.some.injEq] at hjob'
      subst hjob'
      refine .inr fun b hbase => ?_
      obtain rfl := Option.some.inj hbase
      exact QueueTable.not_delivered_of_waiting hs
  -- A row that comes back unsent is not one that was SENT when it was loaded.
  have waiting : ∀ i ∈ ids, ∀ x b, c.load false .notifications tbl ids .notifications i = some x → x.base = some b →
      QueueTable.delivered .notifications b = none := by
    intro i hi x b hx hbase
    obtain ⟨job, hjob, hs⟩ := unsent i hi
    rcases quiet.loaded i x hx with ⟨held, -⟩ | waiting
    · rcases Copies.load_cases hx with hx' | ⟨-, _, -, _, -, rfl⟩
      · have stored := sees i x hx' held
        rw [hjob, Option.some.injEq] at stored
        cases hb : QueueTable.delivered .notifications b with
        | none => rfl
        | some time =>
          have hl := (quiet.along .notifications i x b hx hbase).1.1 time hb
          rw [← stored, QueueTable.not_delivered_of_waiting hs] at hl
          cases hl
      · cases held
    · exact waiting b hbase
  refine Tx.writes_assignAll (P := fun d => Quiet op d ∧ ∀ i ∈ ids, ∀ x b, d .notifications i = some x →
    x.base = some b → QueueTable.delivered .notifications b = none) ⟨quiet, waiting⟩ ?_ fun d hd => hnext d.flush hd.1.flush
  rintro d ⟨i, new⟩ hr ⟨hd, hw⟩
  obtain ⟨⟨_, job⟩, hmem, heq⟩ := List.mem_map.mp hr
  cases heq
  obtain ⟨i', hi', hx⟩ := List.mem_filterMap.mp hmem
  obtain ⟨y, -, hy⟩ := Option.map_eq_some_iff.mp hx
  obtain ⟨rfl, rfl⟩ := Prod.mk.inj hy
  have hi := hi'
  have write : ∀ x b, d .notifications i' = some x → x.base = some b →
      op.Assigns .notifications i' b (WaitlistRepository.cancelled y.now) :=
    fun x b hx hbase => .of_undelivered (hw i' hi x b hx hbase) rfl
  refine ⟨write, ⟨hd.along.assign write, fun k x hx => ?_⟩, fun k hk x b hx hbase => ?_⟩
  · rw [Copies.assign_self] at hx
    by_cases e : k = i'
    · subst e
      rw [if_pos rfl, Option.map_eq_some_iff] at hx
      obtain ⟨z, hz, rfl⟩ := hx
      exact .inr fun b hbase => hw k hi z b hz hbase
    · rw [if_neg e] at hx
      exact hd.loaded k x hx
  · obtain ⟨z, hz, base, -⟩ := (Copies.same_assign QueueTable.notifications k).2 x hx
    exact hw k hk z b hz (base ▸ hbase)

theorem writes_archive (entryId : Nat) : (WaitlistService.archive entryId).Writes (archive entryId).Assigns Copies.empty := by
  refine Tx.writes_getForUpdate trivial (fun _ h => absurd h (by simp)) fun _ entry => ?_
  dsimp only
  split
  · have start : Quiet (archive entryId) (Copies.put Copies.empty QueueTable.entries entryId (.ofRow true entry)) := by
      refine ⟨fun t i x b hx hbase => ?_, fun i x hx => ?_⟩
      · rcases Copies.put_eq_some hx with ⟨rfl, rfl, rfl⟩ | hx
        · exact ⟨.of_undelivered rfl rfl, .of_undelivered rfl rfl⟩
        · cases hx
      · rw [Copies.put_of_ne (by simp)] at hx
        cases hx
    exact ⟨fun _ _ _ _ => .of_undelivered rfl rfl,
      writes_cancelUnsent (start.assign_entry entryId _) fun _ _ => trivial⟩
  · trivial

theorem writes_markBooked (clientId serviceId windowId appointmentId : Nat) (matched : List Nat) :
    (WaitlistRepository.markBookedForWindow clientId serviceId windowId appointmentId matched (.commit .done)).Writes
      (markBooked clientId serviceId windowId appointmentId matched).Assigns Copies.empty := by
  refine Tx.writes_lock fun entries ids _ _ => Tx.writes_lock fun tbl held _ _ => ?_
  generalize Copies.rows _ QueueTable.entries ids = rows
  have start : Quiet (markBooked clientId serviceId windowId appointmentId matched)
      (((Copies.empty : Copies QueueTable.Row).load true .entries entries ids).load true .notifications tbl held) := by
    refine ⟨(Copies.along_empty.load (fun _ _ => Assigns.refl) _ _ _).load (fun _ _ => Assigns.refl) _ _ _, fun i x hx => ?_⟩
    rcases Copies.load_cases hx with hx | ⟨-, _, -, _, -, rfl⟩
    · rw [Copies.load_of_ne (by nofun)] at hx
      cases hx
    · exact .inl ⟨rfl, rfl⟩
  generalize Copies.load _ true QueueTable.notifications tbl held = c at start
  induction rows generalizing c with
  | nil => trivial
  | cons r rows ih =>
    exact ⟨fun _ _ _ _ => .of_undelivered rfl rfl,
      writes_cancelUnsent (start.assign_entry r.1 _) fun d hd => ih d hd⟩

theorem delivered_rebuilt (schedules : List ReminderSchedule) (job : NotificationJob) :
    QueueTable.delivered .jobs (SettingsService.rebuilt schedules job) = QueueTable.delivered .jobs job := by
  unfold SettingsService.rebuilt
  split
  · split
    · next unsent => exact (QueueTable.not_delivered_of_unsent unsent).symm
    · rfl
  · split
    · rfl
    · next unsent => exact (if_neg unsent).symm

theorem writes_addAll {jobs : List NotificationJob} {next : QueueTx} {c : Copies QueueTable.Row}
    (hc : c.Along op.Assigns) (hnext : ∀ c : Copies QueueTable.Row, c.Along op.Assigns → next.Writes op.Assigns c) :
    (SettingsService.addAll jobs next).Writes op.Assigns c := by
  have inserts : ∀ (jobs : List NotificationJob) (c : Copies QueueTable.Row), c.Along op.Assigns →
      (jobs.foldr (fun job p => .insert QueueTable.jobs job fun _ => p) next).Writes op.Assigns c := by
    intro jobs
    induction jobs with
    | nil => exact hnext
    | cons job jobs ih => exact fun c hc i _ => ih _ hc.insert
  cases jobs with
  | nil => exact hnext c hc
  | cons job jobs => exact inserts (job :: jobs) _ hc.flush

theorem writes_rebuild (offsets : List Int) (now : Int) (admins : List Nat) (targets : List RebuildTarget) {next : QueueTx}
    (hnext : ∀ c : Copies QueueTable.Row, c.Along op.Assigns → next.Writes op.Assigns c) :
    ∀ c : Copies QueueTable.Row, c.Along op.Assigns →
      (SettingsService.rebuildFutureReminders offsets now admins targets next).Writes op.Assigns c := by
  induction targets with
  | nil => exact hnext
  | cons target targets ih =>
    intro c hc
    unfold SettingsService.rebuildFutureReminders
    split
    · trivial
    · split
      · trivial
      · next isBlocked _ _ all _ =>
        generalize (if isBlocked then all.filter (·.notificationType ≠ .clientReminder) else all) = schedules
        refine Tx.writes_select fun tbl ids _ _ => ?_
        have start := hc.load (fun _ _ => Assigns.refl) false tbl ids
        refine Tx.writes_assignAll (P := fun d => d.Along op.Assigns ∧ ∀ i x, d .jobs i = some x →
          ∃ y, c.load false .jobs tbl ids .jobs i = some y ∧ x.base = y.base) ⟨start, fun i x hx => ⟨x, hx, rfl⟩⟩ ?_
          fun d hd => writes_addAll hd.1 ih
        rintro d ⟨i, new⟩ hr ⟨hd, hbase⟩
        obtain ⟨⟨_, job⟩, hmem, heq⟩ := List.mem_map.mp hr
        cases heq
        obtain ⟨i', -, hx⟩ := List.mem_filterMap.mp hmem
        obtain ⟨y, hy, hy'⟩ := Option.map_eq_some_iff.mp hx
        obtain ⟨rfl, rfl⟩ := Prod.mk.inj hy'
        have write : ∀ x b, d .jobs i' = some x → x.base = some b →
            op.Assigns .jobs i' b (SettingsService.rebuilt schedules y.now) := by
          intro x b hx hb
          obtain ⟨z, hz, base⟩ := hbase i' x hx
          rw [hy, Option.some.injEq] at hz
          subst hz
          exact (start .jobs i' y b hy (base ▸ hb)).2.trans_same (delivered_rebuilt _ _)
        refine ⟨write, hd.assign write, fun k x hx => ?_⟩
        obtain ⟨z, hz, base, -⟩ := (Copies.same_assign QueueTable.jobs k).2 x hx
        obtain ⟨z', hz', base'⟩ := hbase k z hz
        exact ⟨z', hz', base.trans base'⟩

theorem writes (services : QueueServices) (op : QueueOp) : (op.tx services).Writes op.Assigns Copies.empty := by
  cases op with
  | notification o => exact writes_notification services o
  | waitlist o => exact writes_waitlist services o
  | archive entryId => exact writes_archive entryId
  | markBooked clientId serviceId windowId appointmentId matched => exact writes_markBooked _ _ _ _ _
  | updateReminderOffsets offsets now admins targets =>
    unfold tx SettingsService.updateReminderOffsets
    refine Tx.writes_getForUpdate trivial (fun _ h => absurd h (by simp)) fun _ settings => ?_
    refine ⟨fun _ _ _ _ => .of_undelivered rfl rfl, writes_rebuild offsets now admins targets (by exact fun _ _ => trivial) _ ?_⟩
    refine Copies.Along.assign (fun t i x b hx hbase => ?_) fun _ _ _ _ => .of_undelivered rfl rfl
    rcases Copies.put_eq_some hx with ⟨rfl, rfl, rfl⟩ | hx
    · exact ⟨.of_undelivered rfl rfl, .of_undelivered rfl rfl⟩
    · cases hx

end QueueOp

end SalonBooking
