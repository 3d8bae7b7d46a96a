import SalonBooking.Broadcasts.Rows
import SalonBooking.Delivery.Notifications

/-!
# The broadcast worker

`BroadcastDeliveryService`, `BroadcastService.cancel` and `BroadcastRepository` as programs of statements. What the
delivery check reads from other tables comes with the operation.
-/

namespace SalonBooking

open Lib

/-- A photo of a broadcast, in the order of its position. -/
structure BroadcastMediaView where
  telegramFileId : String
  telegramFileUniqueId : String
  position : Nat
  deriving DecidableEq

structure BroadcastDelivery where
  recipientId : Nat
  broadcastId : Nat
  recipientUserId : Nat
  recipientTelegramId : Int
  attempts : Nat
  mediaCheckpointMessageId : Option Int
  text : String
  buttonType : BroadcastButtonType
  buttonText : Option String
  buttonUrl : Option String
  media : List BroadcastMediaView
  deriving DecidableEq

inductive BroadcastError
  | entityNotFound (text : String)
  | broadcastState (text : String)
  deriving DecidableEq

/-- What an operation on broadcasts answers. -/
inductive BroadcastAnswer
  | recipientIds (ids : List Nat)
  | delivery (d : Option BroadcastDelivery)
  | changed (b : Bool)
  | skipped (n : Nat)
  | raised (error : BroadcastError)
  deriving DecidableEq

abbrev BroadcastTx : Type := Tx BroadcastTable.Row Empty BroadcastAnswer

/-! ### `BroadcastRepository` -/

namespace BroadcastRepository

/-- The broadcasts that the join of `claim_due_recipients` leaves. -/
def sendableIds (now : Int) (broadcasts : Table Broadcast) : List Nat :=
  (broadcasts.select fun b => b.status.isSendable && b.scheduledAt.any (· ≤ now)).map Prod.fst

/-- The WHERE of `claim_due_recipients` for the recipients of the broadcasts `sendable`. -/
def isDue (now leaseExpiredBefore : Int) (sendable : List Nat) (r : BroadcastRecipient) : Bool :=
  sendable.contains r.broadcastId &&
    ((r.status = .pending || r.status = .retry) && r.availableAt ≤ now ||
      r.status = .processing && r.lockedAt.any (· ≤ leaseExpiredBefore))

/-- The WHERE and ORDER BY of `claim_due_recipients`. -/
def dueIds (now leaseExpiredBefore : Int) (sendable : List Nat) (recipients : Table BroadcastRecipient) : List Nat :=
  ((recipients.select (isDue now leaseExpiredBefore sendable)).insertionSort fun a b =>
    a.2.availableAt < b.2.availableAt ∨ a.2.availableAt = b.2.availableAt ∧ a.1 ≤ b.1).map Prod.fst

def claimed (worker : String) (now : Int) (r : BroadcastRecipient) : BroadcastRecipient :=
  { r with status := .processing, lockedAt := some now, lockedBy := some worker, attempts := r.attempts + 1 }

def claimDueRecipients (worker : String) (limit : Nat) (now leaseExpiredBefore : Int)
    (next : List (Nat × BroadcastRecipient) → BroadcastTx) : BroadcastTx :=
  .count .broadcasts (sendableIds now) fun sendable =>
    .skipLocked .recipients (dueIds now leaseExpiredBefore sendable) limit fun rows =>
      .assignAll .recipients (rows.map fun r => (r.1, claimed worker now r.2)) (.flush (next rows))

/-- The rows of an UPDATE or of a locking select with their new values, written at once. -/
def rewriteWhere (p : BroadcastRecipient → Bool) (f : BroadcastRecipient → BroadcastRecipient) (next : Nat → BroadcastTx) :
    BroadcastTx :=
  .lock .recipients (fun recipients => (recipients.select p).map Prod.fst) fun rows =>
    .assignAll .recipients (rows.map fun r => (r.1, f r.2)) (.flush (next rows.length))

/-- What `cancel_open_recipients` assigns. -/
def skipped (r : BroadcastRecipient) : BroadcastRecipient :=
  { r with status := .skipped, lockedAt := none, lockedBy := none, lastError := some "broadcast_cancelled" }

def cancelOpenRecipients (broadcastId : Nat) : (Nat → BroadcastTx) → BroadcastTx :=
  rewriteWhere (fun r => r.broadcastId = broadcastId && r.status.isOpen) skipped

/-- `status_counts`: a status without rows is not in the dictionary and counts as zero. -/
def statusCounts (broadcastId : Nat) (next : (BroadcastRecipientStatus → Nat) → BroadcastTx) : BroadcastTx :=
  .count .recipients (fun recipients => BroadcastRecipientStatus.all.map fun status =>
    (recipients.select fun r => r.broadcastId = broadcastId && r.status = status).length) fun counts =>
      next fun status => ((BroadcastRecipientStatus.all.zip counts).lookup status).getD 0

end BroadcastRepository

namespace PrivacyRepository

/-- What the anonymisation of a client sets in her open deliveries. -/
def unsubscribed (r : BroadcastRecipient) : BroadcastRecipient :=
  { r with status := .unsubscribed, lockedAt := none, lockedBy := none, lastError := some "privacy_subject_anonymized" }

/-- The UPDATE of `broadcast_recipients` in the anonymisation of a client. -/
def anonymizeRecipients (userId : Nat) : (Nat → BroadcastTx) → BroadcastTx :=
  BroadcastRepository.rewriteWhere (fun r => r.userId = userId && r.status.isOpen) unsubscribed

end PrivacyRepository

/-! ### `BroadcastDeliveryService` -/

/-- The columns of a user that a delivery reads. -/
structure BroadcastUser where
  id : Nat
  telegramId : Int
  isBlocked : Bool
  marketingConsentAt : Option Int
  marketingUnsubscribedAt : Option Int
  deriving DecidableEq

/-- What the selects of `prepare_delivery` on other tables return. -/
structure BroadcastContext where
  /-- The broadcast switch of the feature row. -/
  feature : Option Bool
  user : Option BroadcastUser
  media : List BroadcastMediaView

structure BroadcastDeliveryService where
  leaseSeconds : Int
  maxAttempts : Nat

namespace BroadcastDeliveryService

/-- The worker holds the lease of the recipient. -/
def Leased (worker : String) (r : BroadcastRecipient) : Prop := r.status = .processing ∧ r.lockedBy = some worker

instance (worker : String) (r : BroadcastRecipient) : Decidable (Leased worker r) := inferInstanceAs (Decidable (_ ∧ _))

/-- `_claimed`. -/
def claimed (recipientId : Nat) (worker : String) (next : Option BroadcastRecipient → BroadcastTx) : BroadcastTx :=
  .getForUpdate .recipients recipientId fun row => next (row.filter fun r => Leased worker r)

theorem ensures_claimed {D Q : Copies BroadcastTable.Row → BroadcastAnswer → Prop} {i : Nat} {worker : String}
    {next : Option BroadcastRecipient → BroadcastTx} (hnone : ∀ c, (next none).Ensures D Q c)
    (hsome : ∀ r, Leased worker r →
      (next (some r)).Ensures D Q (Copies.put Copies.empty BroadcastTable.recipients i (.ofRow true r))) :
    (claimed i worker next).Ensures D Q Copies.empty :=
  Tx.ensures_claimed (fun r : BroadcastTable.Row .recipients => Leased worker r) hnone hsome

/-- What `_finish` assigns. -/
def finished (r : BroadcastRecipient) (status : BroadcastRecipientStatus) (error : Option String) : BroadcastRecipient :=
  { r with status, lockedAt := none, lockedBy := none, lastError := error.map errorText }

/-- `_finish`. -/
def finish (recipientId : Nat) (r : BroadcastRecipient) (status : BroadcastRecipientStatus) (error : Option String)
    (next : BroadcastTx) : BroadcastTx :=
  .assign .recipients recipientId (finished r status error) (.flush next)

/-- `_finalize` of the broadcast `id` as the session has it. -/
def finalize (id : Nat) (broadcast : Option Broadcast) (now : Int) (next : BroadcastTx) : BroadcastTx :=
  match broadcast with
  | none => next
  | some broadcast =>
    if broadcast.status = .cancelled then next
    else
      BroadcastRepository.statusCounts id fun counts =>
        if BroadcastRecipientStatus.all.any fun status => status.isOpen && counts status ≠ 0 then next
        else
          .assign .broadcasts id
            { broadcast with
              status := if BroadcastRecipientStatus.all.any fun status => status.isFailure && counts status ≠ 0 then
                .partiallyFailed else .completed
              finishedAt := some now } next

/-- `_finalize_id`. -/
def finalizeId (id : Nat) (now : Int) (next : BroadcastTx) : BroadcastTx :=
  .getForUpdate .broadcasts id fun broadcast => finalize id broadcast now next

/-- The checks of `prepare_delivery` in their order. -/
def verdict (ctx : BroadcastContext) (broadcast : Option Broadcast) (recipientId : Nat) (r : BroadcastRecipient) :
    Except (BroadcastRecipientStatus × String) BroadcastDelivery :=
  if ctx.feature ≠ some true then .error (.skipped, "feature_disabled")
  else
    match broadcast, ctx.user with
    | some broadcast, some user =>
      if broadcast.status ≠ .sending then .error (.skipped, "broadcast_inactive")
      else if user.isBlocked then .error (.blocked, "recipient_blocked")
      else if user.marketingConsentAt.isNone || user.marketingUnsubscribedAt.isSome then
        .error (.unsubscribed, "marketing_unsubscribed")
      else
        .ok
          { recipientId, broadcastId := r.broadcastId, recipientUserId := user.id, recipientTelegramId := user.telegramId
            attempts := r.attempts, mediaCheckpointMessageId := r.telegramMessageId, text := broadcast.text
            buttonType := broadcast.buttonType, buttonText := broadcast.buttonText, buttonUrl := broadcast.buttonUrl
            media := ctx.media }
    | _, _ => .error (.failed, "context_missing")

theorem verdict_error {ctx : BroadcastContext} {broadcast : Option Broadcast} {i : Nat} {r : BroadcastRecipient}
    {status : BroadcastRecipientStatus} {reason : String} (h : verdict ctx broadcast i r = .error (status, reason)) :
    status = .skipped ∨ status = .blocked ∨ status = .unsubscribed ∨ status = .failed := by
  unfold verdict at h
  split_ifs at h
  · cases h
    simp
  · split at h
    · split_ifs at h <;> cases h <;> simp
    · cases h
      simp

variable (service : BroadcastDeliveryService)

/-- The broadcasts of the claimed recipients start to be sent. -/
def startAll (now : Int) : List Nat → BroadcastTx → BroadcastTx
  | [], next => next
  | id :: ids, next =>
    .getForUpdate .broadcasts id fun
      | none => startAll now ids next
      | some broadcast =>
        if broadcast.status = .scheduled ∨ broadcast.status = .preparing then
          .assign .broadcasts id
            { broadcast with status := .sending, startedAt := broadcast.startedAt.orElse fun _ => some now }
            (startAll now ids next)
        else startAll now ids next

def claimDue (worker : String) (limit : Nat) (feature : Option Bool) (now : Int) : BroadcastTx :=
  if feature = some true then
    BroadcastRepository.claimDueRecipients worker limit now (now - seconds service.leaseSeconds) fun rows =>
      startAll now (rows.map fun r => r.2.broadcastId).dedup (.commit (.recipientIds (rows.map Prod.fst)))
  else .done (.recipientIds [])

/-- The broadcast is read without a lock, also where it is finalised. -/
def prepareDelivery (recipientId : Nat) (worker : String) (ctx : BroadcastContext) (now : Int) : BroadcastTx :=
  claimed recipientId worker fun
    | none => .done (.delivery none)
    | some r =>
      .get .broadcasts r.broadcastId fun broadcast =>
        match verdict ctx broadcast recipientId r with
        | .error (status, error) =>
          finish recipientId r status (some error) (finalize r.broadcastId broadcast now (.commit (.delivery none)))
        | .ok d => .done (.delivery (some d))

def markMediaSent (recipientId : Nat) (worker : String) (telegramMessageId : Int) : BroadcastTx :=
  claimed recipientId worker fun
    | none => .done (.changed false)
    | some r =>
      -- `or` takes the new id also where the stored one is zero
      .assign .recipients recipientId
        { r with telegramMessageId := (r.telegramMessageId.filter (· ≠ 0)).orElse fun _ => some telegramMessageId }
        (.flush (.commit (.changed true)))

def markSent (recipientId : Nat) (worker : String) (telegramMessageId now : Int) : BroadcastTx :=
  claimed recipientId worker fun
    | none => .done (.changed false)
    | some r =>
      finish recipientId { r with sentAt := some now, telegramMessageId := some telegramMessageId } .sent none
        (finalizeId r.broadcastId now (.commit (.changed true)))

def retry (recipientId : Nat) (worker : String) (delaySeconds : Int) (errorCode : String) (now : Int) : BroadcastTx :=
  claimed recipientId worker fun
    | none => .done (.changed false)
    | some r =>
      if service.maxAttempts ≤ r.attempts then
        finish recipientId r .failed (some "attempts_exhausted") (finalizeId r.broadcastId now (.commit (.changed true)))
      else
        .assign .recipients recipientId
          { r with status := .retry, availableAt := now + seconds (max 1 delaySeconds), lockedAt := none
                   lockedBy := none, lastError := some (errorText errorCode) }
          (.commit (.changed true))

/-- `mark_blocked` and `mark_failed`. -/
def markEnded (recipientId : Nat) (worker : String) (status : BroadcastRecipientStatus) (errorCode : String) (now : Int) :
    BroadcastTx :=
  claimed recipientId worker fun
    | none => .done (.changed false)
    | some r => finish recipientId r status (some errorCode) (finalizeId r.broadcastId now (.commit (.changed true)))

def markBlocked (recipientId : Nat) (worker : String) (now : Int) : BroadcastTx :=
  markEnded recipientId worker .blocked "telegram_forbidden" now

def markFailed (recipientId : Nat) (worker errorCode : String) (now : Int) : BroadcastTx :=
  markEnded recipientId worker .failed errorCode now

end BroadcastDeliveryService

/-! ### `BroadcastService` -/

namespace BroadcastService

/-- `cancel` of an administrator. -/
def cancel (broadcastId : Nat) (now : Int) : BroadcastTx :=
  .getForUpdate .broadcasts broadcastId fun
    | none => .done (.raised (.entityNotFound "Рассылка не найдена."))
    | some broadcast =>
      if broadcast.status.isTerminal then .done (.raised (.broadcastState "Рассылка уже завершена."))
      else
        BroadcastRepository.cancelOpenRecipients broadcastId fun n =>
          .assign .broadcasts broadcastId { broadcast with status := .cancelled, finishedAt := some now }
            (.commit (.skipped n))

end BroadcastService

inductive BroadcastOp
  | claimDue (worker : String) (limit : Nat) (feature : Option Bool) (now : Int)
  | prepareDelivery (recipientId : Nat) (worker : String) (ctx : BroadcastContext) (now : Int)
  | markMediaSent (recipientId : Nat) (worker : String) (telegramMessageId : Int)
  | markSent (recipientId : Nat) (worker : String) (telegramMessageId now : Int)
  | retry (recipientId : Nat) (worker : String) (delaySeconds : Int) (errorCode : String) (now : Int)
  | markBlocked (recipientId : Nat) (worker : String) (now : Int)
  | markFailed (recipientId : Nat) (worker errorCode : String) (now : Int)
  | cancel (broadcastId : Nat) (now : Int)
  /-- Commits with the rest of the anonymisation. -/
  | anonymize (userId : Nat)

def BroadcastOp.tx (service : BroadcastDeliveryService) : BroadcastOp → BroadcastTx
  | claimDue worker limit feature now => service.claimDue worker limit feature now
  | prepareDelivery id worker ctx now => BroadcastDeliveryService.prepareDelivery id worker ctx now
  | markMediaSent id worker messageId => BroadcastDeliveryService.markMediaSent id worker messageId
  | markSent id worker messageId now => BroadcastDeliveryService.markSent id worker messageId now
  | retry id worker delay code now => service.retry id worker delay code now
  | markBlocked id worker now => BroadcastDeliveryService.markBlocked id worker now
  | markFailed id worker code now => BroadcastDeliveryService.markFailed id worker code now
  | cancel id now => BroadcastService.cancel id now
  | anonymize userId => PrivacyRepository.anonymizeRecipients userId fun n => .commit (.skipped n)

end SalonBooking
