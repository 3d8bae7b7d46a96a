import SalonBooking.Broadcasts.Delivery
import SalonBooking.Domain.TelegramText
import SalonBooking.Lib.Serial

/-!
# Sending a broadcast to a recipient

`send_delivery` as a program of requests to Telegram and checkpoints, `process_delivery` around it, and the runs in
which a recipient is attempted again and again, by any number of processes at once. The service calls run one after the
other, each locks the recipient first; an attempt may end between any two of its steps.
-/

namespace SalonBooking

open Lib

/-! ### Requests -/

/-- The target of a button: a link or a callback with the action of the button. -/
inductive ButtonTarget
  | url (url : String)
  | callback (action : BroadcastButtonType) (broadcastId : Nat)
  deriving DecidableEq, Repr

structure Keyboard where
  text : String
  target : ButtonTarget
  deriving DecidableEq, Repr

/-- A request to the Bot API for the chat of the recipient. -/
inductive Request
  | message (text : String) (markup : Option Keyboard)
  | photo (fileId : String) (caption : Option String) (markup : Option Keyboard)
  | mediaGroup (photos : List (String × Option String))
  deriving DecidableEq, Repr

/-- How a request fails, and what is not Telegram's. -/
inductive Failure
  | retryAfter (seconds : Int)
  | forbidden
  | network
  | server
  | api
  | unexpected
  deriving DecidableEq

/-! ### `send_delivery` -/

/-- `delivery_keyboard`; an empty text or link is replaced or not used. -/
def deliveryKeyboard (d : BroadcastDelivery) : Option Keyboard :=
  if d.buttonType = .none then none
  else
    let text := (d.buttonText.filter (· ≠ "")).getD "Открыть"
    match d.buttonType, d.buttonUrl.filter (· ≠ "") with
    | .url, some url => some ⟨text, .url url⟩
    | action, _ => some ⟨text, .callback action d.broadcastId⟩

/-- What is left of `send_delivery`. A request goes on with the id of the (first) message that it made. -/
inductive Sending
  | request (q : Request) (next : Int → Sending)
  | checkpoint (messageId : Int) (next : Sending)
  | returns (messageId : Int)
  | raises

def sendDelivery (d : BroadcastDelivery) : Sending :=
  let markup := deliveryKeyboard d
  let text := Sending.request (.message d.text markup) .returns
  if 4096 < telegramTextLength d.text then .raises
  else
    match d.media with
    | [] => text
    | [photo] =>
      if fitsTelegramCaption d.text then
        match d.mediaCheckpointMessageId with
        | some id => .returns id
        | none => .request (.photo photo.telegramFileId (some d.text) markup) fun id => .checkpoint id (.returns id)
      else
        match d.mediaCheckpointMessageId with
        | some _ => text
        | none => .request (.photo photo.telegramFileId none none) fun id => .checkpoint id text
    | media =>
      let caption := if fitsTelegramCaption d.text then some d.text else none
      -- with the id of the first photo, sent now or in an earlier attempt
      let rest := fun id =>
        if caption.isNone then text
        else if markup.isSome then .request (.message "Выберите действие:" markup) fun _ => .returns id
        else .returns id
      match d.mediaCheckpointMessageId with
      | some id => rest id
      | none =>
        .request (.mediaGroup (media.mapIdx fun index photo => (photo.telegramFileId, if index = 0 then caption else none)))
          fun id => .checkpoint id (rest id)

/-! ### `process_delivery` -/

/-- `retry_delay_seconds`. -/
def retryDelaySeconds (attempts : Nat) : Int := min (15 * 2 ^ min (attempts - 1) 8) 3600

/-- The service call of each exception handler. -/
def Failure.report (recipientId : Nat) (worker : String) (attempts : Nat) (now : Int) : Failure → BroadcastOp
  | retryAfter delay => .retry recipientId worker (delay + 1) "telegram_retry_after" now
  | forbidden => .markBlocked recipientId worker now
  | network | server => .retry recipientId worker (retryDelaySeconds attempts) "telegram_temporary_error" now
  | api => .markFailed recipientId worker "telegram_permanent_error" now
  | unexpected => .retry recipientId worker (retryDelaySeconds attempts) "unexpected_delivery_error" now

/-- What a worker that processes a delivery does next. -/
inductive Processing
  | sending (p : Sending)
  | reporting (failure : Failure)

/-- A worker in `process_delivery`. -/
structure Attempt where
  worker : String
  attempts : Nat
  rest : Processing

/-! ### Runs -/

/-- The tables, the attempts that are under way for the recipient, each in a process, and what Telegram has delivered to
her. -/
structure Delivering where
  store : (t : BroadcastTable) → Table t.Row
  attempts : Nat → Option Attempt
  delivered : List Request

inductive DeliveryEvent
  /-- A claim, a cancellation, an anonymisation or a call of a worker for another recipient. -/
  | other (op : BroadcastOp)
  /-- A process that has claimed the recipient calls `prepare_delivery` and starts to send. -/
  | prepare (process : Nat) (worker : String) (feature : Option Bool) (user : Option BroadcastUser) (now : Int)
  /-- Telegram answers the request that is sent. -/
  | telegram (process : Nat) (result : Except Failure Int)
  /-- The process makes its next service call. -/
  | call (process : Nat) (now : Int)
  /-- The process is gone. -/
  | crash (process : Nat)

/-- An operation that a worker of the recipient does not call. -/
def BroadcastOp.Foreign (recipientId : Nat) : BroadcastOp → Prop
  | claimDue .. | cancel .. | anonymize .. => True
  | prepareDelivery id .. | markMediaSent id .. | markSent id .. | retry id .. | markBlocked id .. | markFailed id .. =>
    id ≠ recipientId

instance (recipientId : Nat) : (op : BroadcastOp) → Decidable (op.Foreign recipientId)
  | .claimDue .. | .cancel .. | .anonymize .. => inferInstanceAs (Decidable True)
  | .prepareDelivery .. | .markMediaSent .. | .markSent .. | .retry .. | .markBlocked .. | .markFailed .. =>
    inferInstanceAs (Decidable (_ ≠ _))

namespace Delivering

/-- One service call: the tables that it leaves, and its answer. -/
def serve (service : BroadcastDeliveryService) (store : (t : BroadcastTable) → Table t.Row) (op : BroadcastOp) :
    ((t : BroadcastTable) → Table t.Row) × BroadcastAnswer := (op.tx service).outcome (View.start store)

/-- The attempt of a process goes on, or ends. -/
def setAttempt (s : Delivering) (process : Nat) (attempt : Option Attempt) : Delivering :=
  { s with attempts := Function.update s.attempts process attempt }

variable (service : BroadcastDeliveryService) (recipientId : Nat) (media : List BroadcastMediaView)

/-- The next step of an attempt, with a service call at `now`. -/
def proceed (s : Delivering) (process : Nat) (a : Attempt) (now : Int) : Delivering :=
  match a.rest with
  | .sending (.request ..) => s
  | .sending (.checkpoint messageId next) =>
    let (store, answer) := serve service s.store (.markMediaSent recipientId a.worker messageId)
    let rest := if answer = .changed true then Processing.sending next else .reporting .unexpected
    { s with store }.setAttempt process (some { a with rest })
  | .sending (.returns messageId) =>
    { s with store := (serve service s.store (.markSent recipientId a.worker messageId now)).1 }.setAttempt process none
  | .sending .raises => s.setAttempt process (some { a with rest := .reporting .unexpected })
  | .reporting failure =>
    { s with store := (serve service s.store (failure.report recipientId a.worker a.attempts now)).1 }.setAttempt
      process none

/-- Telegram's answer to the request of an attempt. -/
def answered (s : Delivering) (process : Nat) (a : Attempt) (result : Except Failure Int) : Delivering :=
  match a.rest, result with
  | .sending (.request q next), .ok messageId =>
    { s with delivered := s.delivered ++ [q] }.setAttempt process (some { a with rest := .sending (next messageId) })
  | .sending (.request ..), .error failure => s.setAttempt process (some { a with rest := .reporting failure })
  | _, _ => s

/-- A process that has no attempt under way prepares one. -/
def prepared (s : Delivering) (process : Nat) (worker : String) (ctx : BroadcastContext) (now : Int) : Delivering :=
  match serve service s.store (.prepareDelivery recipientId worker ctx now) with
  | (store, .delivery (some d)) =>
    { s with store }.setAttempt process (some ⟨worker, d.attempts, .sending (sendDelivery d)⟩)
  | (store, _) => { s with store }

/-- One event; one that does not fit the state changes nothing. The photos of a broadcast do not change. -/
def step (s : Delivering) : DeliveryEvent → Delivering
  | .other op => if op.Foreign recipientId then { s with store := (serve service s.store op).1 } else s
  | .prepare process worker feature user now =>
    if (s.attempts process).isSome then s
    else s.prepared service recipientId process worker ⟨feature, user, media⟩ now
  | .telegram process result => ((s.attempts process).map fun a => s.answered process a result).getD s
  | .call process now => ((s.attempts process).map fun a => s.proceed service recipientId process a now).getD s
  | .crash process => s.setAttempt process none

end Delivering

end SalonBooking
