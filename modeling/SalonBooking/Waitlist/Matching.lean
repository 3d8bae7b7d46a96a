import SalonBooking.Delivery.Waitlist
import SalonBooking.Model.Catalog

/-!
# Matching waitlist requests to a window

`WaitlistRepository.list_matching` and `enqueue_match`, `services/waitlist_matching.py` and its direct callers
of the waitlist service. The entries are read by a plain select, and their status is written when the offer of
each of them is queued.
-/

namespace SalonBooking

open Lib

/-- `t.astimezone(zone).time()`. -/
def Zone.localTime (z : Zone) (t : Int) : Int := (t + z.utcoffset t) % days 1

/-! ### `WaitlistRepository` -/

/-- The arguments of `list_matching`. -/
structure MatchQuery where
  localDate : Int
  localTime : Int
  serviceId : Nat
  windowDurationMinutes : Int
  now : Int
  notifiedBefore : Int

namespace WaitlistRepository

/-- The WHERE of `list_matching`, with the joined service and client. -/
def isMatching (q : MatchQuery) (service : Service) (isBlocked : Nat → Bool) (entry : WaitlistEntry) : Bool :=
  entry.serviceId = q.serviceId && entry.status.isLive && entry.dateFrom ≤ q.localDate && q.localDate ≤ entry.dateTo &&
    q.now < entry.expiresAt && service.isActive && service.durationMaxMinutes ≤ q.windowDurationMinutes &&
    !isBlocked entry.clientId && entry.notifiedAt.all (· ≤ q.notifiedBefore) &&
    (entry.preferredDates = [] || q.localDate ∈ entry.preferredDates) &&
    entry.preferredTimeFrom.all fun timeFrom =>
      timeFrom ≤ q.localTime && entry.preferredTimeTo.any (q.localTime < ·)

/-- `list_matching`, by the keys of the rows. -/
def listMatching (q : MatchQuery) (service : Service) (isBlocked : Nat → Bool) (entries : Table WaitlistEntry) : List Nat :=
  ((entries.select (isMatching q service isBlocked)).insertionSort fun a b =>
    a.2.createdAt < b.2.createdAt ∨ a.2.createdAt = b.2.createdAt ∧ a.1 ≤ b.1).map Prod.fst

/-- The row of `enqueue_match`. -/
def offer (entryId windowId : Nat) (scheduledAt : Int) : WaitlistNotification :=
  { waitlistEntryId := entryId, windowId, scheduledAt, availableAt := scheduledAt }

/-- `enqueue_match`: the INSERT does nothing where the pair is there. -/
def enqueueMatch (entryId windowId : Nat) (scheduledAt : Int) (next : Bool → QueueTx) : QueueTx :=
  .select .notifications
    (fun jobs => (jobs.select fun job => job.waitlistEntryId = entryId && job.windowId = windowId).map Prod.fst) fun rows =>
    if rows.isEmpty then .insert .notifications (offer entryId windowId scheduledAt) fun _ => next true
    else next false

end WaitlistRepository

/-! ### `enqueue_waitlist_matches` -/

/-- What the selects on other tables return for one service of the master: the service, whether it has a free
workstation, and the service and its blocked clients as the join of `list_matching` finds them. -/
structure MatchService where
  serviceId : Nat
  service : Service
  hasAvailable : Bool
  joined : Service
  isBlocked : Nat → Bool

/-- A window with the settings that the matching reads and the services of its master. -/
structure MatchContext where
  windowId : Nat
  status : WindowStatus
  startAt : Int
  endAt : Int
  timezone : Zone
  cooldownMinutes : Int
  services : List MatchService

namespace MatchContext

def duration (ctx : MatchContext) : Int := (ctx.endAt - ctx.startAt) / minutes 1

def query (ctx : MatchContext) (now : Int) (serviceId : Nat) : MatchQuery where
  localDate := ctx.timezone.localDate ctx.startAt
  localTime := ctx.timezone.localTime ctx.startAt
  serviceId := serviceId
  windowDurationMinutes := ctx.duration
  now := now
  notifiedBefore := now - minutes ctx.cooldownMinutes

end MatchContext

namespace WaitlistMatching

/-- What the matching assigns to an entry whose offer it has queued. -/
def matched (now : Int) (entry : WaitlistEntry) : WaitlistEntry :=
  { entry with status := .matched, notifiedAt := some now }

/-- The entries of one service, with the number of offers queued so far. -/
def enqueueEntries (windowId : Nat) (now : Int) : List (Nat × WaitlistEntry) → Nat → (Nat → QueueTx) → QueueTx
  | [], queued, next => next queued
  | (entryId, entry) :: entries, queued, next =>
    WaitlistRepository.enqueueMatch entryId windowId now fun inserted =>
      if inserted then
        .assign .entries entryId (matched now entry) (enqueueEntries windowId now entries (queued + 1) next)
      else enqueueEntries windowId now entries queued next

/-- The services of the master, one after the other. -/
def enqueueServices (ctx : MatchContext) (now : Int) : List MatchService → Nat → (Nat → QueueTx) → QueueTx
  | [], queued, next => next queued
  | s :: services, queued, next =>
    if ctx.duration < s.service.durationMaxMinutes then enqueueServices ctx now services queued next
    else if s.hasAvailable then
      .select .entries (WaitlistRepository.listMatching (ctx.query now s.serviceId) s.joined s.isBlocked) fun entries =>
        enqueueEntries ctx.windowId now entries queued fun queued => enqueueServices ctx now services queued next
    else enqueueServices ctx now services queued next

/-- `enqueue_waitlist_matches`; the audit record of queued offers flushes the session. -/
def enqueueWaitlistMatches (ctx : MatchContext) (now : Int) (next : Nat → QueueTx) : QueueTx :=
  if ctx.status = .open ∧ now < ctx.startAt then
    enqueueServices ctx now ctx.services 0 fun queued => if queued = 0 then next 0 else .flush (next queued)
  else next 0

end WaitlistMatching

/-! ### Callers -/

namespace WaitlistService

/-- The insert of `create`. -/
def create (entry : WaitlistEntry) : QueueTx :=
  .insert .entries { entry with status := .active, notifiedAt := none, bookedAppointmentId := none } fun _ => .commit .done

/-- `offer_window`; the window and its context are read after the entry is locked. -/
def offerWindow (entryId : Nat) (window : Option MatchContext) (now : Int) : QueueTx :=
  .getForUpdate .entries entryId fun
    | none => .done .raised
    | some entry =>
      if entry.status.isLive then
        match window with
        | none => .done .raised
        | some ctx =>
          if ctx.status = .open then
            WaitlistMatching.enqueueWaitlistMatches ctx now fun queued => .commit (.changed (0 < queued))
          else .done .raised
      else .done .raised

end WaitlistService

/-- The operations that change waitlist entries. -/
inductive WaitlistEntryOp
  | create (entry : WaitlistEntry)
  /-- The matching of a window that was created, reopened or released. -/
  | matchWindow (ctx : MatchContext) (now : Int)
  | offerWindow (entryId : Nat) (window : Option MatchContext) (now : Int)
  /-- A client's cancellation, or an administrator's. -/
  | archive (entryId : Nat)
  /-- The waitlist part of a booking. -/
  | markBooked (clientId serviceId windowId appointmentId : Nat) (matched : List Nat)

def WaitlistEntryOp.tx : WaitlistEntryOp → QueueTx
  | create entry => WaitlistService.create entry
  | matchWindow ctx now => WaitlistMatching.enqueueWaitlistMatches ctx now fun _ => .commit .done
  | offerWindow entryId window now => WaitlistService.offerWindow entryId window now
  | archive entryId => WaitlistService.archive entryId
  | markBooked clientId serviceId windowId appointmentId matched =>
    WaitlistRepository.markBookedForWindow clientId serviceId windowId appointmentId matched (.commit .done)

end SalonBooking
