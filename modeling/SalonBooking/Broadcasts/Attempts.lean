import SalonBooking.Broadcasts.Delivery
import SalonBooking.Delivery.Attempts

/-!
# How often a recipient is handed to a worker

The recipients of broadcasts are a queue like the notification jobs and the waitlist notifications, and so is the bound:
no row of the three queues is handed out more often than its maximum, in every run in which no claim takes over a row
whose attempts are used up.
-/

namespace SalonBooking

open Lib

/-- The ids that a claim answers with. -/
def BroadcastAnswer.claimedIds : BroadcastAnswer → List Nat
  | .recipientIds ids => ids
  | _ => []

namespace BroadcastOp

open BroadcastDeliveryService

def queue (service : BroadcastDeliveryService) : Queue BroadcastTable.Row BroadcastOp BroadcastAnswer where
  table := .recipients
  attempts := fun (r : BroadcastRecipient) => r.attempts
  waiting := fun (r : BroadcastRecipient) => r.status = .pending || r.status = .retry
  claims
    | claimDue .. => true
    | _ => false
  handed := BroadcastAnswer.claimedIds
  limit := service.maxAttempts

variable {service : BroadcastDeliveryService} {op : BroadcastOp} {i : Nat} {r : BroadcastRecipient}
  {c : Copies BroadcastTable.Row}

theorem serves_finalize {id : Nat} {broadcast : Option Broadcast} {now : Int} {answer : BroadcastAnswer}
    (none : answer.claimedIds = []) (locked : (queue service).Locked c) :
    (queue service).Serving op (finalize id broadcast now (.commit answer)) c := by
  have commits : ∀ {c}, (queue service).Locked c → (queue service).Serving op (.commit answer : BroadcastTx) c :=
    fun locked => locked.serves none
  unfold finalize
  split
  · exact commits locked
  · split
    · exact commits locked
    · intro tbl _
      dsimp only
      split
      · exact commits locked
      · exact commits (locked.assign_of_ne (show BroadcastTable.recipients ≠ .broadcasts by simp) _ _)

theorem serves_finalizeId {id : Nat} {now : Int} {answer : BroadcastAnswer} (none : answer.claimedIds = [])
    (locked : (queue service).Locked c) : (queue service).Serving op (finalizeId id now (.commit answer)) c := by
  intro tbl _
  exact serves_finalize none (locked.load_of_ne (show BroadcastTable.recipients ≠ .broadcasts by nofun) _ _ _)

theorem serves_startAll {keys : List Nat} {now : Int} {next : BroadcastTx}
    (hnext : ∀ {c}, (queue service).Claims keys keys c → (queue service).Serving op next c) (ids : List Nat) :
    ∀ {c}, (queue service).Claims keys keys c → (queue service).Serving op (startAll now ids next) c := by
  have other : BroadcastTable.recipients ≠ .broadcasts := nofun
  induction ids with
  | nil => exact hnext
  | cons id ids ih =>
    intro c claims tbl _
    have loaded := claims.load other true tbl (tbl.only id)
    dsimp only
    split
    · exact ih loaded
    · split
      · exact ih (loaded.assign other _ _)
      · exact ih loaded

theorem serves_markEnded {worker : String} {status : BroadcastRecipientStatus} {code : String} {now : Int}
    (ended : ∀ r, (queue service).waiting (finished r status (some code)) = false) :
    (queue service).Serving op (markEnded i worker status code now) Copies.empty := by
  unfold markEnded
  exact ensures_claimed (fun c => rfl) fun r leased =>
    Queue.Owns.serving Queue.owns_put (.of_ended rfl (ended r)) (serves_finalizeId rfl)

theorem keeps_skipped (r : BroadcastRecipient) : (queue service).Keeps r (BroadcastRepository.skipped r) := .of_ended rfl rfl

theorem keeps_unsubscribed (r : BroadcastRecipient) : (queue service).Keeps r (PrivacyRepository.unsubscribed r) :=
  .of_ended rfl rfl

theorem serves (op : BroadcastOp) : (queue service).Serving op (op.tx service) (fun _ _ => none) := by
  have other : BroadcastTable.recipients ≠ .broadcasts := (by simp)
  cases op with
  | claimDue worker limit feature now =>
    show (queue service).Serving _ (service.claimDue worker limit feature now) _
    unfold BroadcastDeliveryService.claimDue
    split
    · intro tbl _
      refine Queue.ensures_claim (q := queue service) (fun r => ⟨rfl, rfl⟩) (fun _ => Table.nodup_keys_insertionSort)
        fun rows c nodup claims => ?_
      have commits : ∀ {c}, (queue service).Claims (rows.map Prod.fst) (rows.map Prod.fst) c →
          (queue service).Serving (claimDue worker limit feature now)
            (.commit (.recipientIds (rows.map Prod.fst)) : BroadcastTx) c :=
        fun claims => claims.serves rfl rfl nodup
      exact serves_startAll commits _ claims
    · exact rfl
  | prepareDelivery i worker ctx now =>
    show (queue service).Serving _ (BroadcastDeliveryService.prepareDelivery i worker ctx now) _
    unfold BroadcastDeliveryService.prepareDelivery
    refine ensures_claimed (fun c => rfl) fun r leased => ?_
    have owns : (queue service).Owns _ i r := Queue.owns_put
    intro tbl _
    dsimp only
    split
    · next refused =>
      rcases verdict_error refused with rfl | rfl | rfl | rfl
      all_goals exact (owns.load_of_ne other _ _ _).serving (.of_ended rfl rfl) (serves_finalize rfl)
    · exact rfl
  | markMediaSent i worker messageId =>
    show (queue service).Serving _ (BroadcastDeliveryService.markMediaSent i worker messageId) _
    unfold BroadcastDeliveryService.markMediaSent
    refine ensures_claimed (fun c => rfl) fun r leased => ?_
    have owns : (queue service).Owns _ i r := Queue.owns_put
    have kept : (queue service).Keeps r
        { r with telegramMessageId := (r.telegramMessageId.filter (· ≠ 0)).orElse fun _ => some messageId } :=
      ⟨rfl, .inl⟩
    exact (owns.locked kept).flush.serves rfl
  | markSent i worker messageId now =>
    show (queue service).Serving _ (BroadcastDeliveryService.markSent i worker messageId now) _
    unfold BroadcastDeliveryService.markSent
    refine ensures_claimed (fun c => rfl) fun r leased => ?_
    have owns : (queue service).Owns _ i r := Queue.owns_put
    exact owns.serving (.of_ended rfl rfl) (serves_finalizeId rfl)
  | retry i worker delay code now =>
    show (queue service).Serving _ (service.retry i worker delay code now) _
    unfold BroadcastDeliveryService.retry
    refine ensures_claimed (fun c => rfl) fun r leased => ?_
    have owns : (queue service).Owns _ i r := Queue.owns_put
    dsimp only
    split
    · exact owns.serving (.of_ended rfl rfl) (serves_finalizeId rfl)
    · next below =>
      have kept : (queue service).Keeps r
          { r with status := .retry, availableAt := now + seconds (max 1 delay), lockedAt := none
                   lockedBy := none, lastError := some (errorText code) } := .of_below rfl (not_le.mp below)
      exact (owns.locked kept).serves rfl
  | markBlocked i worker now => exact serves_markEnded fun _ => rfl
  | markFailed i worker code now => exact serves_markEnded fun _ => rfl
  | cancel id now =>
    show (queue service).Serving _ (BroadcastService.cancel id now) _
    unfold BroadcastService.cancel
    refine Tx.ensures_getForUpdate rfl (fun _ h => absurd h (by simp)) fun _ broadcast => ?_
    dsimp only
    split
    · exact rfl
    · refine Queue.ensures_lockAll (q := queue service) keeps_skipped (fun rows c locked => ?_) fun i => ?_
      · exact (locked.assign_of_ne other _ _).serves rfl
      · exact congrFun (Copies.put_of_ne other) i
  | anonymize userId =>
    exact Queue.ensures_lockAll (q := queue service) keeps_unsubscribed (fun rows c locked => locked.serves rfl) fun _ => rfl

end BroadcastOp

/-! ### The three queues -/

/-- **No row of the three queues is handed out more often than its maximum**, in every run in which no claim takes over
a row in work whose attempts are used up. -/
theorem queues_bounded (notification : NotificationService) (waitlist : WaitlistDeliveryService)
    (broadcast : BroadcastDeliveryService) :
    (∀ (store : (t : QueueTable) → Table t.Row) (turns : List (Turn NotificationOp)),
      (store .jobs).All (fun _ job => (NotificationOp.queue notification).Within job) →
      Guarded (fun w turn => w.step (NotificationOp.tx notification) turn) (NotificationOp.queue notification).Spares
        (World.start store) turns →
      ∀ i job, (store .jobs).row i = some job →
        job.attempts + (NotificationOp.queue notification).count i
          (run (fun w turn => w.step (NotificationOp.tx notification) turn) (World.start store) turns) ≤
            notification.maxAttempts) ∧
    (∀ (store : (t : QueueTable) → Table t.Row) (turns : List (Turn WaitlistOp)),
      (store .notifications).All (fun _ job => (WaitlistOp.queue waitlist).Within job) →
      Guarded (fun w turn => w.step (WaitlistOp.tx waitlist) turn) (WaitlistOp.queue waitlist).Spares
        (World.start store) turns →
      ∀ i job, (store .notifications).row i = some job →
        job.attempts + (WaitlistOp.queue waitlist).count i
          (run (fun w turn => w.step (WaitlistOp.tx waitlist) turn) (World.start store) turns) ≤ waitlist.maxAttempts) ∧
    (∀ (store : (t : BroadcastTable) → Table t.Row) (turns : List (Turn BroadcastOp)),
      (store .recipients).All (fun _ r => (BroadcastOp.queue broadcast).Within r) →
      Guarded (fun w turn => w.step (BroadcastOp.tx broadcast) turn) (BroadcastOp.queue broadcast).Spares
        (World.start store) turns →
      ∀ i r, (store .recipients).row i = some r →
        r.attempts + (BroadcastOp.queue broadcast).count i
          (run (fun w turn => w.step (BroadcastOp.tx broadcast) turn) (World.start store) turns) ≤ broadcast.maxAttempts) := by
  refine ⟨fun store turns within spares i job stored => ?_, fun store turns within spares i job stored => ?_,
    fun store turns within spares i r stored => ?_⟩
  · exact Queue.attempts_bounded (q := NotificationOp.queue notification) NotificationOp.serves within turns spares stored
  · exact Queue.attempts_bounded (q := WaitlistOp.queue waitlist) WaitlistOp.serves within turns spares stored
  · exact Queue.attempts_bounded (q := BroadcastOp.queue broadcast) BroadcastOp.serves within turns spares stored

/-! ### Workers that go away -/

/-- One job and one waitlist notification, due at time zero. -/
def oneJob : (t : QueueTable) → Table t.Row
  | .jobs => Table.empty.insert
      { appointmentId := 1, recipientUserId := 1, notificationType := .clientReminder, offsetMinutes := 60
        scheduledAt := 0, availableAt := 0 }
  | .notifications => Table.empty.insert { waitlistEntryId := 1, windowId := 1, scheduledAt := 0, availableAt := 0 }
  | .entries => Table.empty
  | .settings => Table.empty

/-- One broadcast with one recipient, due at time zero. -/
def oneRecipient : (t : BroadcastTable) → Table t.Row
  | .broadcasts => Table.empty.insert { text := "Hello", status := .scheduled, scheduledAt := some 0 }
  | .recipients => Table.empty.insert { broadcastId := 1, userId := 1, scheduledAt := 0, availableAt := 0 }

/-- Three workers claim, an hour apart, and go away without a report. -/
def abandoned {Op : Type} (claim : Int → Op) (statements : Nat) : List (Turn Op) :=
  [0, 1, 2].flatMap fun k => .begin k (claim (hours k)) :: List.replicate statements (.next k)

/-- With a maximum of one attempt and a lease of a minute each queue hands its only row out three times. -/
theorem abandoned_exceed :
    (NotificationOp.queue ⟨60, 1⟩).count 1 (run (fun w turn => w.step (NotificationOp.tx ⟨60, 1⟩) turn) (World.start oneJob)
      (abandoned (.claimDue "worker" 10) 3)) = 3 ∧
    (WaitlistOp.queue ⟨60, 1⟩).count 1 (run (fun w turn => w.step (WaitlistOp.tx ⟨60, 1⟩) turn) (World.start oneJob)
      (abandoned (.claimDue "worker" 10) 3)) = 3 ∧
    (BroadcastOp.queue ⟨60, 1⟩).count 1 (run (fun w turn => w.step (BroadcastOp.tx ⟨60, 1⟩) turn) (World.start oneRecipient)
      (abandoned (.claimDue "worker" 10 (some true)) 5)) = 3 := by
  decide +kernel

/-- A claim, a report of a failure, a second claim whose report uses the attempts up, and a claim that finds nothing. -/
def reported {Op : Type} (claim report : Int → Op) (statements : Nat) : List (Turn Op) :=
  [0, 1, 2].flatMap fun k => .begin (2 * k) (claim (hours k)) :: List.replicate statements (.next (2 * k)) ++
    .begin (2 * k + 1) (report (hours k)) :: List.replicate statements (.next (2 * k + 1))

theorem queues_bounded_reported :
    (NotificationOp.queue ⟨60, 2⟩).count 1 (run (fun w turn => w.step (NotificationOp.tx ⟨60, 2⟩) turn) (World.start oneJob)
      (reported (.claimDue "worker" 10) (.retry 1 "worker" 30 "telegram_temporary_error") 5)) ≤ 2 ∧
    (WaitlistOp.queue ⟨60, 2⟩).count 1 (run (fun w turn => w.step (WaitlistOp.tx ⟨60, 2⟩) turn) (World.start oneJob)
      (reported (.claimDue "worker" 10) (.retry 1 "worker" 30 "telegram_temporary_error") 5)) ≤ 2 ∧
    (BroadcastOp.queue ⟨60, 2⟩).count 1 (run (fun w turn => w.step (BroadcastOp.tx ⟨60, 2⟩) turn) (World.start oneRecipient)
      (reported (.claimDue "worker" 10 (some true)) (.retry 1 "worker" 30 "telegram_temporary_error") 5)) ≤ 2 := by
  have bounded := queues_bounded ⟨60, 2⟩ ⟨60, 2⟩ ⟨60, 2⟩
  have job : (oneJob .jobs).All fun _ job => job.attempts ≤ 2 ∧ (decide (job.status = .pending) = true → job.attempts < 2) := by
    decide +kernel
  have notification : (oneJob .notifications).All fun _ job =>
      job.attempts ≤ 2 ∧ ((job.status = .pending || job.status = .retry) = true → job.attempts < 2) := by decide +kernel
  have recipient : (oneRecipient .recipients).All fun _ r =>
      r.attempts ≤ 2 ∧ ((r.status = .pending || r.status = .retry) = true → r.attempts < 2) := by decide +kernel
  refine ⟨?_, ?_, ?_⟩
  · simpa using bounded.1 oneJob (reported (.claimDue "worker" 10) (.retry 1 "worker" 30 "telegram_temporary_error") 5)
      job (by decide +kernel) 1 _ rfl
  · simpa using bounded.2.1 oneJob (reported (.claimDue "worker" 10) (.retry 1 "worker" 30 "telegram_temporary_error") 5)
      notification (by decide +kernel) 1 _ rfl
  · simpa using bounded.2.2 oneRecipient
      (reported (.claimDue "worker" 10 (some true)) (.retry 1 "worker" 30 "telegram_temporary_error") 5)
      recipient (by decide +kernel) 1 _ rfl

end SalonBooking
