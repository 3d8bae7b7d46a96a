import SalonBooking.Lib.Marks
import SalonBooking.Delivery.Delivered

/-!
# Delivered rows

A row that a worker has committed as SENT is overwritten by a transaction that read it before, without a lock,
and writes its status afterwards: the reminder rebuild and the waitlist cancellation do both. Where no transaction
does that, the row keeps its status and its delivery time for good.
-/

namespace SalonBooking

open Lib

namespace QueueOp

/-! ### Deliveries -/

/-- The worker is about to deliver the row, or reports that it has. -/
def Serves : QueueOp → QueueTable → Nat → Prop
  | notification (.prepareDelivery jobId ..), .jobs, i | notification (.markSent jobId _ _), .jobs, i => i = jobId
  | waitlist (.prepareDelivery notificationId ..), .notifications, i
  | waitlist (.markSent notificationId _ _), .notifications, i => i = notificationId
  | _, _, _ => False

/-- The answer by which a worker gets a delivery or learns that it is recorded. -/
def Grants : QueueAnswer → Bool
  | .changed recorded => recorded
  | .delivery d => d.isSome
  | .waitlistDelivery d => d.isSome
  | _ => false

/-- A delivery is granted on a row that the operation has locked and found not SENT. -/
def Finds (op : QueueOp) (copy : Copies QueueTable.Row) (answer : QueueAnswer) : Prop :=
  ∀ t i, op.Serves t i → Grants answer = true →
    ∃ x old, copy t i = some x ∧ x.held = true ∧ x.base = some old ∧ t.delivered old = none

theorem finds_of_refused {op : QueueOp} {copy : Copies QueueTable.Row} {answer : QueueAnswer}
    (h : Grants answer = false) : op.Finds copy answer := by
  intro _ _ _ granted
  rw [h] at granted
  cases granted

theorem ensures_of_unserved {op : QueueOp} (services : QueueServices) (h : ∀ t i, ¬ op.Serves t i) :
    (op.tx services).Ensures op.Finds op.Finds Copies.empty :=
  Tx.ensures_of_forall (fun _ _ t i hs => absurd hs (h t i)) (fun _ _ t i hs => absurd hs (h t i)) _

theorem ensures (services : QueueServices) (op : QueueOp) : (op.tx services).Ensures op.Finds op.Finds Copies.empty := by
  cases op with
  | notification o =>
    have waiting : ∀ {worker : String} {job : NotificationJob}, NotificationService.Leased worker job →
        QueueTable.delivered .jobs job = none := fun h => QueueTable.not_delivered_of_unsent (by rw [h.1]; rfl)
    cases o with
    | prepareDelivery j worker ctx now =>
      unfold tx NotificationOp.tx NotificationService.prepareDelivery
      refine NotificationService.ensures_claimedJob (fun c => finds_of_refused rfl) fun job leased => ?_
      dsimp only
      split
      · exact finds_of_refused rfl
      · exact finds_of_refused rfl
      · intro t i serves _
        cases t with
        | jobs =>
          obtain rfl : i = j := serves
          exact ⟨_, job, onlyJob_self i job, rfl, rfl, waiting leased⟩
        | _ => exact serves.elim
    | markSent j worker now =>
      unfold tx NotificationOp.tx NotificationService.markSent
      refine NotificationService.ensures_claimedJob (fun c => finds_of_refused rfl) fun job leased => ?_
      simp only [NotificationService.finish, Tx.Ensures, Copies.assign_put, Copies.flush_put]
      intro t i serves _
      cases t with
      | jobs =>
        obtain rfl : i = j := serves
        exact ⟨_, job, Copies.put_self, rfl, rfl, waiting leased⟩
      | _ => exact serves.elim
    | _ => exact ensures_of_unserved services fun t i => by cases t <;> exact id
  | waitlist o =>
    have waiting : ∀ {worker : String} {job : WaitlistNotification}, WaitlistDeliveryService.Leased worker job →
        QueueTable.delivered .notifications job = none := fun h => QueueTable.not_delivered_of_waiting (by rw [h.1]; rfl)
    cases o with
    | prepareDelivery i worker ctx now =>
      unfold tx WaitlistOp.tx WaitlistDeliveryService.prepareDelivery
      refine WaitlistDeliveryService.ensures_claimed (fun c => finds_of_refused rfl) fun job leased => ?_
      dsimp only
      split
      · intro tbl _
        have checked : ∀ (entry : Option WaitlistEntry) (c : Copies QueueTable.Row),
            c .notifications i = some (.ofRow true job) →
            (WaitlistDeliveryService.answered i ctx job now entry).Ensures
              (waitlist (.prepareDelivery i worker ctx now)).Finds (waitlist (.prepareDelivery i worker ctx now)).Finds c := by
          intro entry c hc
          unfold WaitlistDeliveryService.answered
          split
          · exact finds_of_refused rfl
          · intro t j serves _
            cases t with
            | notifications =>
              obtain rfl : j = i := serves
              exact ⟨_, job, hc, rfl, rfl, waiting leased⟩
            | _ => exact serves.elim
        refine Tx.ensures_row false (checked none _ Copies.put_self) (fun _ h => ?_) (fun _ entry => ?_) tbl
        · exact checked _ _ Copies.put_self
        · refine checked _ _ ?_
          rw [Copies.put_of_ne (by simp)]
          exact Copies.put_self
      · exact finds_of_refused rfl
    | markSent i worker now =>
      unfold tx WaitlistOp.tx WaitlistDeliveryService.markSent
      refine WaitlistDeliveryService.ensures_claimed (fun c => finds_of_refused rfl) fun job leased => ?_
      simp only [Tx.Ensures, Copies.assign_put, Copies.flush_put]
      intro t j serves _
      cases t with
      | notifications =>
        obtain rfl : j = i := serves
        exact ⟨_, job, Copies.put_self, rfl, rfl, waiting leased⟩
      | _ => exact serves.elim
    | _ => exact ensures_of_unserved services fun t i => by cases t <;> exact id
  | _ => exact ensures_of_unserved services fun t i => by cases t <;> exact id

/-! ### Runs -/

def step (services : QueueServices) (w : QueueWorld QueueOp) (turn : Turn QueueOp) : QueueWorld QueueOp :=
  w.step (tx services) turn

/-- The queues after any interleaving, from any stored rows. -/
def after (services : QueueServices) (store : (t : QueueTable) → Table t.Row) (turns : List (Turn QueueOp)) :
    QueueWorld QueueOp := run (step services) (World.start store) turns

/-- No transaction commits a status or a delivery time of a row that it has loaded before the delivery. -/
abbrev CommitsAware (w : QueueWorld QueueOp) (turn : Turn QueueOp) : Prop :=
  w.Aware QueueTable.delivered QueueTable.sameDelivery turn

theorem lasting : World.Lasting QueueTable.delivered QueueTable.sameDelivery Assigns where
  agree _ _ _ _ hl ha := QueueTable.sameDelivery_of_delivered hl ha
  write _ _ _ _ := QueueTable.delivered_write
  keeps _ _ _ _ _ _ h := h.1 _

/-- What every world keeps that is reached without an unaware commit. -/
structure Kept (w : QueueWorld QueueOp) : Prop where
  sound : w.Sound False
  follows : w.Follows Finds Finds
  guided : w.Guided Assigns
  marked : w.Marked QueueTable.delivered

variable {services : QueueServices} {w : QueueWorld QueueOp} {turn : Turn QueueOp}

theorem Kept.step (h : Kept w) (aware : CommitsAware w turn) : Kept (step services w turn) where
  sound := h.sound.step nofun
  follows := h.follows.step (ensures services) h.sound
  guided := h.guided.step (fun _ _ _ => .refl) (writes services) h.sound
  marked := h.marked.step h.sound h.guided lasting aware

theorem Kept.refused_step (h : Kept w) {t : QueueTable} {i : Nat} {time : Option Int}
    (sent : w.Shows QueueTable.delivered t i time) :
    ∃ answers, (QueueOp.step services w turn).log = w.log ++ answers ∧
      ∀ e ∈ answers, e.1.Serves t i → Grants e.2 = false := by
  rcases World.log_step (tx services) turn h.follows with hlog | ⟨tid, c, b, -, hc, hlog, ends⟩
  · exact ⟨[], hlog.trans (List.append_nil _).symm, fun _ he => absurd he List.not_mem_nil⟩
  · refine ⟨[(c.op, b)], hlog, fun e he serves => ?_⟩
    rw [List.mem_singleton] at he
    subst he
    have finds : c.op.Finds c.copy b := ends.elim And.right fun hq => hq.2.1
    by_contra granted
    obtain ⟨x, old, hx, held, hbase, unsent⟩ := finds t i serves (Bool.of_not_eq_false granted)
    obtain ⟨row, hrow, hsent⟩ := sent
    have cur := ((h.sound tid c hc).current t i x hx (.inl held)).1
    rw [hbase, hrow, Option.some.injEq] at cur
    rw [← cur, unsent] at hsent
    cases hsent

/-- Delivered stays delivered where no transaction that read the row before commits a status of its own: the row keeps
its status and its delivery time, and no worker is granted it again. -/
theorem delivered_stays (services : QueueServices) (store : (t : QueueTable) → Table t.Row)
    (turns later : List (Turn QueueOp)) (h : Guarded (step services) CommitsAware (World.start store) (turns ++ later))
    {t : QueueTable} {i : Nat} {time : Option Int}
    (sent : (after services store turns).Shows QueueTable.delivered t i time) :
    (after services store (turns ++ later)).Shows QueueTable.delivered t i time ∧
      ∃ answers, (after services store (turns ++ later)).log = (after services store turns).log ++ answers ∧
        ∀ e ∈ answers, e.1.Serves t i → Grants e.2 = false := by
  obtain ⟨hturns, hlater⟩ := guarded_append.mp h
  have kept : Kept (after services store turns) :=
    run_induction (fun _ _ hv aware => hv.step aware)
      ⟨World.sound_start _, World.follows_start _, World.guided_start _, World.marked_start _⟩ turns hturns
  unfold after at sent kept ⊢
  rw [run_append]
  clear h
  generalize run (step services) (World.start store) turns = w at sent kept hlater ⊢
  induction later generalizing w with
  | nil => exact ⟨sent, [], (List.append_nil _).symm, fun _ he => absurd he List.not_mem_nil⟩
  | cons turn later ih =>
    have sent' : (step services w turn).Shows QueueTable.delivered t i time :=
      World.shows_step kept.sound kept.marked kept.guided lasting hlater.1 sent
    obtain ⟨answers, hlog, told⟩ := kept.refused_step sent
    obtain ⟨stays, answers', hlog', told'⟩ := ih _ sent' (kept.step hlater.1) hlater.2
    refine ⟨stays, answers ++ answers', ?_, fun e he => ?_⟩
    · rw [run_cons, hlog', hlog, List.append_assoc]
    · exact (List.mem_append.mp he).elim (told e) (told' e)

/-- One reminder of appointment 1, in the hands of worker `a`, and the settings. -/
def oneReminder : (t : QueueTable) → Table t.Row
  | .jobs => Table.empty.insert
      { appointmentId := 1, recipientUserId := 7, notificationType := .clientReminder, offsetMinutes := 60
        scheduledAt := 0, availableAt := 0, status := .processing, attempts := 1, lockedAt := some 0
        lockedBy := some "a" }
  | .settings => Table.empty.insert ⟨[60], 1⟩
  | .notifications | .entries => Table.empty

def workers : QueueServices := ⟨⟨300, 5⟩, ⟨300, 5⟩⟩

/-- The rebuild reads the reminder, and worker `a` marks it sent. -/
def sentWhileRead : List (Turn QueueOp) :=
  [.begin 0 (.updateReminderOffsets [60] 0 [] [⟨1, minutes 90, some (7, false)⟩]), .next 0, .next 0,
    .begin 1 (.notification (.markSent 1 "a" (seconds 1))), .next 1, .next 1, .next 1]

/-- The rebuild commits, and worker `b` delivers the reminder again. -/
def sentAgain : List (Turn QueueOp) :=
  [.next 0, .next 0, .begin 2 (.notification (.claimDue "b" 10 (minutes 30))), .next 2, .next 2, .next 2,
    .begin 3 (.notification (.markSent 1 "b" (minutes 31))), .next 3, .next 3, .next 3]

/-- A reminder that is SENT goes back to PENDING, and is claimed and marked sent again. -/
theorem rebuild_resends :
    (((after workers oneReminder sentWhileRead).store .jobs).row 1).map (fun job => (job.status, job.sentAt)) =
      some (.sent, some (seconds 1)) ∧
    (((after workers oneReminder (sentWhileRead ++ sentAgain.take 2)).store .jobs).row 1).map
      (fun job => (job.status, job.sentAt)) = some (.pending, some (seconds 1)) ∧
    ((after workers oneReminder (sentWhileRead ++ sentAgain)).log.map Prod.snd) =
      [.changed true, .done, .jobIds [1], .changed true] := by
  decide +kernel

/-- A delivery that nobody has read before, and a rebuild after it. -/
def sentInPeace : List (Turn QueueOp) :=
  [.begin 1 (.notification (.markSent 1 "a" (seconds 1))), .next 1, .next 1, .next 1]

def rebuiltAfterwards : List (Turn QueueOp) :=
  [.begin 0 (.updateReminderOffsets [60] 0 [] [⟨1, minutes 90, some (7, false)⟩]), .next 0, .next 0, .next 0, .next 0]

theorem delivered_stays_in_peace :
    (after workers oneReminder (sentInPeace ++ rebuiltAfterwards)).Shows QueueTable.delivered .jobs 1 (some (seconds 1)) ∧
      ∃ answers, (after workers oneReminder (sentInPeace ++ rebuiltAfterwards)).log =
        (after workers oneReminder sentInPeace).log ++ answers ∧
        ∀ e ∈ answers, e.1.Serves .jobs 1 → Grants e.2 = false := by
  have guarded : Guarded (step workers) CommitsAware (World.start oneReminder) (sentInPeace ++ rebuiltAfterwards) := by
    decide +kernel
  have shown : (((after workers oneReminder sentInPeace).store .jobs).row 1).map (QueueTable.delivered .jobs) =
      some (some (some (seconds 1))) := by
    decide +kernel
  exact delivered_stays workers oneReminder sentInPeace rebuiltAfterwards guarded (Option.map_eq_some_iff.mp shown)

end QueueOp

end SalonBooking
