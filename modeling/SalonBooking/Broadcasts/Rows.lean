import SalonBooking.Lib.Statements
import Mathlib

/-!
# Broadcasts and their recipients

The tables that the broadcast worker and an administrator's cancellation share, and how an UPDATE writes their rows.
-/

namespace SalonBooking

open Lib

inductive BroadcastStatus
  | draft | scheduled | preparing | sending | completed | partiallyFailed | cancelled | failed
  deriving DecidableEq, Repr

inductive BroadcastRecipientStatus
  | pending | processing | sent | retry | failed | skipped | unsubscribed | blocked
  deriving DecidableEq, Repr

inductive BroadcastButtonType
  | none | book | portfolio | availableWindows | url
  deriving DecidableEq, Repr

namespace BroadcastStatus

/-- The statuses from which `cancel` refuses. -/
def isTerminal : BroadcastStatus → Bool
  | completed | partiallyFailed | cancelled | failed => true
  | _ => false

/-- The statuses in which the recipients of a broadcast are claimed. -/
def isSendable : BroadcastStatus → Bool
  | scheduled | preparing | sending => true
  | _ => false

end BroadcastStatus

namespace BroadcastRecipientStatus

/-- All members in the order of the source. -/
def all : List BroadcastRecipientStatus := [pending, processing, sent, retry, failed, skipped, unsubscribed, blocked]

/-- `_OPEN`. -/
def isOpen : BroadcastRecipientStatus → Bool
  | pending | processing | retry => true
  | _ => false

/-- The statuses that make a finished broadcast `PARTIALLY_FAILED`. -/
def isFailure : BroadcastRecipientStatus → Bool
  | failed | blocked => true
  | _ => false

end BroadcastRecipientStatus

/-- `broadcasts`. -/
structure Broadcast where
  text : String
  status : BroadcastStatus := .draft
  buttonType : BroadcastButtonType := .none
  buttonText : Option String := none
  buttonUrl : Option String := none
  scheduledAt : Option Int := none
  startedAt : Option Int := none
  finishedAt : Option Int := none
  deriving DecidableEq

/-- `broadcast_recipients`. -/
structure BroadcastRecipient where
  broadcastId : Nat
  userId : Nat
  scheduledAt : Int
  availableAt : Int
  status : BroadcastRecipientStatus := .pending
  attempts : Nat := 0
  lockedAt : Option Int := none
  lockedBy : Option String := none
  sentAt : Option Int := none
  lastError : Option String := none
  telegramMessageId : Option Int := none
  deriving DecidableEq

inductive BroadcastTable
  | broadcasts | recipients
  deriving DecidableEq

instance : Fintype BroadcastTable := ⟨{.broadcasts, .recipients}, fun t => by cases t <;> decide⟩

@[reducible] def BroadcastTable.Row : BroadcastTable → Type
  | broadcasts => Broadcast
  | recipients => BroadcastRecipient

instance BroadcastTable.decidableEqRow : ∀ t : BroadcastTable, DecidableEq t.Row
  | .broadcasts => inferInstanceAs (DecidableEq Broadcast)
  | .recipients => inferInstanceAs (DecidableEq BroadcastRecipient)

instance : Columns Broadcast where
  write l a s :=
    { text := flushed l.text a.text s.text
      status := flushed l.status a.status s.status
      buttonType := flushed l.buttonType a.buttonType s.buttonType
      buttonText := flushed l.buttonText a.buttonText s.buttonText
      buttonUrl := flushed l.buttonUrl a.buttonUrl s.buttonUrl
      scheduledAt := flushed l.scheduledAt a.scheduledAt s.scheduledAt
      startedAt := flushed l.startedAt a.startedAt s.startedAt
      finishedAt := flushed l.finishedAt a.finishedAt s.finishedAt }
  write_fresh l a := by simp
  write_untouched l s := by simp

instance : Columns BroadcastRecipient where
  write l a s :=
    { broadcastId := flushed l.broadcastId a.broadcastId s.broadcastId
      userId := flushed l.userId a.userId s.userId
      scheduledAt := flushed l.scheduledAt a.scheduledAt s.scheduledAt
      availableAt := flushed l.availableAt a.availableAt s.availableAt
      status := flushed l.status a.status s.status
      attempts := flushed l.attempts a.attempts s.attempts
      lockedAt := flushed l.lockedAt a.lockedAt s.lockedAt
      lockedBy := flushed l.lockedBy a.lockedBy s.lockedBy
      sentAt := flushed l.sentAt a.sentAt s.sentAt
      lastError := flushed l.lastError a.lastError s.lastError
      telegramMessageId := flushed l.telegramMessageId a.telegramMessageId s.telegramMessageId }
  write_fresh l a := by simp
  write_untouched l s := by simp

instance BroadcastTable.columnsRow : ∀ t : BroadcastTable, Columns t.Row
  | .broadcasts => inferInstanceAs (Columns Broadcast)
  | .recipients => inferInstanceAs (Columns BroadcastRecipient)

end SalonBooking
