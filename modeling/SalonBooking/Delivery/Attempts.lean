import SalonBooking.Delivery.Delivered
import SalonBooking.Lib.Attempts

/-!
# How often a job is handed to a worker

Claims count the attempts of a job and take over expired leases whatever the count says; only the report of a failure
compares it with the maximum. So a job is handed out at most that often as long as no claim takes over a job whose
worker went away with the last attempt.
-/

namespace SalonBooking

open Lib

/-- The ids that a claim answers with. -/
def QueueAnswer.claimedIds : QueueAnswer → List Nat
  | .jobIds ids => ids
  | _ => []

/-! ### Notification jobs -/

namespace NotificationOp

open NotificationService

def queue (service : NotificationService) : Queue QueueTable.Row NotificationOp QueueAnswer where
  table := .jobs
  attempts := fun (job : NotificationJob) => job.attempts
  waiting := fun (job : NotificationJob) => job.status = .pending
  claims
    | claimDue .. => true
    | _ => false
  handed := QueueAnswer.claimedIds
  limit := service.maxAttempts

variable {service : NotificationService}

theorem keeps_cancelled (job : NotificationJob) : (queue service).Keeps job (NotificationRepository.cancelled job) :=
  ⟨rfl, nofun⟩

theorem serves (op : NotificationOp) : (queue service).Serving op (op.tx service) (fun _ _ => none) := by
  cases op with
  | claimDue worker limit now =>
    have commits : ∀ (rows : List (Nat × NotificationJob)) c, (rows.map Prod.fst).Nodup →
        (queue service).Claims (rows.map Prod.fst) (rows.map Prod.fst) c →
        (queue service).Serving (claimDue worker limit now)
          ((fun rows => .commit (.jobIds (rows.map Prod.fst)) : List (Nat × NotificationJob) → QueueTx) rows) c :=
      fun rows c nodup claims => claims.serves rfl rfl nodup
    exact Queue.ensures_claim (q := queue service) (fun job => ⟨rfl, rfl⟩) (fun _ => Table.nodup_keys_insertionSort) commits
  | prepareDelivery j worker ctx now =>
    unfold tx NotificationService.prepareDelivery
    refine ensures_claimedJob (fun c => rfl) fun job leased => ?_
    have owns : (queue service).Owns _ j job := Queue.owns_put
    dsimp only
    split
    · apply owns.finish
      · exact .of_ended rfl rfl
      · rfl
    · apply owns.finish
      · exact .of_ended rfl rfl
      · rfl
    · exact rfl
  | markSent j worker now =>
    unfold tx NotificationService.markSent
    refine ensures_claimedJob (fun c => rfl) fun job leased => ?_
    have owns : (queue service).Owns _ j job := Queue.owns_put
    apply owns.finish
    · exact .of_ended rfl rfl
    · rfl
  | retry j worker delay code now =>
    unfold tx NotificationService.retry
    refine ensures_claimedJob (fun c => rfl) fun job leased => ?_
    have owns : (queue service).Owns _ j job := Queue.owns_put
    dsimp only
    split
    · apply owns.finish
      · exact .of_ended rfl rfl
      · rfl
    · next below =>
      apply owns.finish
      · exact .of_below rfl (not_le.mp below)
      · rfl
  | markRecipientBlocked j worker =>
    unfold tx NotificationService.markRecipientBlocked
    refine ensures_claimedJob (fun c => rfl) fun job leased => ?_
    have owns : (queue service).Owns _ j job := Queue.owns_put
    apply owns.finish
    · exact .of_ended rfl rfl
    · rfl
  | markPermanentFailure j worker code =>
    unfold tx NotificationService.markPermanentFailure
    refine ensures_claimedJob (fun c => rfl) fun job leased => ?_
    have owns : (queue service).Owns _ j job := Queue.owns_put
    apply owns.finish
    · exact .of_ended rfl rfl
    · rfl
  | cancelUnsent appointmentId =>
    exact Queue.ensures_lockAll (q := queue service) keeps_cancelled (fun rows c locked => locked.serves rfl) fun _ => rfl
  | cancelUnsentByType type =>
    exact Queue.ensures_lockAll (q := queue service) keeps_cancelled (fun rows c locked => locked.serves rfl) fun _ => rfl

end NotificationOp

/-! ### Waitlist notifications -/

namespace WaitlistOp

open WaitlistDeliveryService

/-- The waitlist notifications as a queue. -/
def queue (service : WaitlistDeliveryService) : Queue QueueTable.Row WaitlistOp QueueAnswer where
  table := .notifications
  attempts := fun (job : WaitlistNotification) => job.attempts
  waiting := fun (job : WaitlistNotification) => job.status = .pending || job.status = .retry
  claims
    | claimDue .. => true
    | _ => false
  handed := QueueAnswer.claimedIds
  limit := service.maxAttempts

variable {service : WaitlistDeliveryService}

theorem serves_markFailed {op : WaitlistOp} (i : Nat) (worker code : String) :
    (queue service).Serving op (markFailed i worker code) Copies.empty := by
  unfold markFailed
  refine ensures_claimed (fun c => rfl) fun job leased => ?_
  have owns : (queue service).Owns _ i job := Queue.owns_put
  apply owns.finish
  · exact .of_ended rfl rfl
  · rfl

theorem serves (op : WaitlistOp) : (queue service).Serving op (op.tx service) (fun _ _ => none) := by
  cases op with
  | claimDue worker limit current =>
    have commits : ∀ (rows : List (Nat × WaitlistNotification)) c, (rows.map Prod.fst).Nodup →
        (queue service).Claims (rows.map Prod.fst) (rows.map Prod.fst) c →
        (queue service).Serving (claimDue worker limit current)
          ((fun rows => .commit (.jobIds (rows.map Prod.fst)) : List (Nat × WaitlistNotification) → QueueTx) rows) c :=
      fun rows c nodup claims => claims.serves rfl rfl nodup
    exact Queue.ensures_claim (q := queue service) (fun job => ⟨rfl, rfl⟩) (fun _ => Table.nodup_keys_insertionSort) commits
  | prepareDelivery i worker ctx current =>
    unfold tx WaitlistDeliveryService.prepareDelivery
    refine ensures_claimed (fun c => rfl) fun job leased => ?_
    have owns : (queue service).Owns _ i job := Queue.owns_put
    dsimp only
    split
    · intro tbl _
      dsimp only
      split
      · next refused =>
        have owns := owns.load_of_ne (show QueueTable.notifications ≠ .entries by simp) false tbl (tbl.only job.waitlistEntryId)
        rcases verdict_error refused with rfl | rfl
        · apply owns.finish
          · exact .of_ended rfl rfl
          · rfl
        · apply owns.finish
          · exact .of_ended rfl rfl
          · rfl
      · exact rfl
    · apply owns.finish
      · exact .of_ended rfl rfl
      · rfl
  | markSent i worker now =>
    unfold tx WaitlistDeliveryService.markSent
    refine ensures_claimed (fun c => rfl) fun job leased => ?_
    have owns : (queue service).Owns _ i job := Queue.owns_put
    have kept : (queue service).Keeps job { finished job .sent none with sentAt := some now } := .of_ended rfl rfl
    exact ((owns.assign (finished job .sent none)).flush.locked kept).serves rfl
  | retry i worker delay code now =>
    unfold tx WaitlistDeliveryService.retry
    refine ensures_claimed (fun c => rfl) fun job leased => ?_
    have owns : (queue service).Owns _ i job := Queue.owns_put
    dsimp only
    split
    · apply owns.finish
      · exact .of_ended rfl rfl
      · rfl
    · next below =>
      have kept : (queue service).Keeps job
          { job with status := .retry, availableAt := now + seconds (max 1 delay), lockedAt := none
                     lockedBy := none, lastError := some (errorText code) } := .of_below rfl (not_le.mp below)
      exact (owns.locked kept).serves rfl
  | markRecipientBlocked i worker => exact serves_markFailed i worker _
  | markPermanentFailure i worker code => exact serves_markFailed i worker code

end WaitlistOp

end SalonBooking
