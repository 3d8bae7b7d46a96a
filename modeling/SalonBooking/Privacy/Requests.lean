import SalonBooking.Staff.Members

/-!
# Deletion requests

The rows of `database/models/privacy.py` and `database/models/crm.py` that consents and deletion requests use, the
rules of `domain/privacy.py`, and `DataDeletionService` of `services/privacy_service.py`. The users, memberships and
invitations are those of the staff operations; the columns of `users` that only consents use are a `UserProfile` for
each key.
-/

namespace SalonBooking.Privacy

open Lib Staff

/-- `DataDeletionRequestStatus`. -/
inductive DataDeletionRequestStatus
  | requested | inReview | approved | processing | failed | rejected | completed | cancelled
deriving DecidableEq, Repr

inductive ConsentType
  | privacy | marketing | repeatBooking
deriving DecidableEq, Repr

inductive ConsentSource
  | onboarding | notificationSettings | admin | system
deriving DecidableEq, Repr

inductive PrivacyError
  | privacyState (text : String)
  | privacyConsentRequired (text : String)
  | entityNotFound (text : String)
  | value (text : String)
  | runtime (text : String)
deriving DecidableEq, Repr

abbrev PrivacyCheck (α : Type) : Type := Except PrivacyError α

def DataDeletionRequestStatus.value : DataDeletionRequestStatus → String
  | .requested => "requested"
  | .inReview => "in_review"
  | .approved => "approved"
  | .processing => "processing"
  | .failed => "failed"
  | .rejected => "rejected"
  | .completed => "completed"
  | .cancelled => "cancelled"

/-- `_DELETION_TRANSITIONS`. -/
def DataDeletionRequestStatus.transitions : DataDeletionRequestStatus → List DataDeletionRequestStatus
  | .requested => [.inReview, .cancelled]
  | .inReview => [.approved, .rejected, .cancelled]
  | .approved => [.inReview, .processing, .failed, .completed]
  | .processing => [.approved, .completed, .failed]
  | .failed => [.approved]
  | .rejected | .completed | .cancelled => []

/-- `_OPEN_DELETION_STATUSES`. -/
def DataDeletionRequestStatus.isOpen : DataDeletionRequestStatus → Bool
  | .requested | .inReview | .approved | .processing | .failed => true
  | .rejected | .completed | .cancelled => false

/-- The characters of `_SHA256_PATTERN`. -/
def isLowerHex (c : Char) : Bool := ('0' ≤ c && c ≤ '9') || ('a' ≤ c && c ≤ 'f')

/-- `_SHA256_PATTERN`. -/
def isSha256 (digest : String) : Bool := digest.length == 64 && digest.toList.all isLowerHex

/-- `PolicyDocument`; the text that it stands for is given by an address or a digest. -/
structure PolicyDocument where
  version : String
  url : Option String
  sha256 : Option String
  identified : (url.isSome || sha256.isSome) = true
  digest : sha256.all isSha256 = true

/-- `PolicyDocument.matches`. -/
def PolicyDocument.matches (policy : PolicyDocument) (version : String) (url sha256 : Option String) : Bool :=
  if version ≠ policy.version then false
  else if policy.sha256 = none then policy.url = none || url = policy.url
  else sha256.any fun digest => some digest.toLower = policy.sha256

theorem toLower_of_isLowerHex {c : Char} (h : isLowerHex c = true) : c.toLower = c := by
  simp only [isLowerHex, Bool.or_eq_true, Bool.and_eq_true, decide_eq_true_eq, Char.le_def,
    UInt32.le_iff_toNat_le] at h
  rw [Char.toLower, dif_neg]
  rintro ⟨low, high⟩
  rw [ge_iff_le, UInt32.le_iff_toNat_le] at low
  rw [UInt32.le_iff_toNat_le] at high
  simp at *
  omega

theorem toLower_of_isSha256 {digest : String} (h : isSha256 digest = true) : digest.toLower = digest := by
  have lower : ∀ c ∈ digest.toList, c.toLower = c := fun c hc =>
    toLower_of_isLowerHex (List.all_eq_true.mp (Bool.and_eq_true_iff.mp h).2 c hc)
  rw [String.toLower, ← String.toList_inj, String.toList_map, List.map_congr_left lower, List.map_id']

theorem PolicyDocument.matches_self (policy : PolicyDocument) :
    policy.matches policy.version policy.url policy.sha256 = true := by
  unfold PolicyDocument.matches
  rw [if_neg (not_not.mpr rfl)]
  cases stored : policy.sha256 with
  | none => simp
  | some digest =>
    have sha : isSha256 digest = true := by
      have all := policy.digest
      rwa [stored] at all
    simp [toLower_of_isSha256 sha]

/-- The columns of `users` that consents write. -/
structure UserProfile where
  privacyConsentAt : Option Int
  marketingConsentAt : Option Int
  marketingUnsubscribedAt : Option Int
  repeatBookingOptOutAt : Option Int
deriving DecidableEq

/-- `business_clients`. -/
structure BusinessClient where
  businessId : Nat
  userId : Nat
  isActive : Bool
  anonymizedAt : Option Int
deriving DecidableEq

/-- `consent_history`. -/
structure ConsentHistory where
  userId : Nat
  consentType : ConsentType
  previousValue : Option Bool
  newValue : Bool
  source : ConsentSource
  policyVersion : String
  policyUrl : Option String
  policyHash : Option String
  revokedAt : Option Int
  createdAt : Int
deriving DecidableEq

/-- `AnonymizationMutationCounts` of the tables that are not modelled. -/
structure AnonymizationMutationCounts where
  notesAnonymized : Nat
  commentsAnonymized : Nat
  reviewsAnonymized : Nat
  referenceLinksRemoved : Nat
  deliveriesCancelled : Nat
  appointmentSnapshotsRetained : Nat
  financialSnapshotsRetained : Nat
deriving DecidableEq

/-- `AnonymizationResult`. -/
structure AnonymizationResult extends AnonymizationMutationCounts where
  resultCode : String
  identitiesAnonymized : Nat
  consentsRevoked : Nat
  errorCodes : List String
deriving DecidableEq

/-- `data_deletion_requests`. -/
structure DataDeletionRequest where
  businessClientId : Nat
  status : DataDeletionRequestStatus
  requestedAt : Int
  processedByStaffId : Option Nat
  processedAt : Option Int
  retentionReason : Option String
  resultCode : Option String
  attemptCount : Nat
  maxAttempts : Nat
  lockedAt : Option Int
  lockedBy : Option String
  lastErrorCode : Option String
  anonymizationResult : Option AnonymizationResult
deriving DecidableEq

/-- A value of `safe_details`. -/
inductive SafeDetail
  | text (s : String)
  | number (n : Nat)
  | flag (b : Bool)
deriving DecidableEq

/-- `data_deletion_request_events`. -/
structure DataDeletionRequestEvent where
  requestId : Nat
  previousStatus : Option DataDeletionRequestStatus
  newStatus : DataDeletionRequestStatus
  actorUserId : Option Nat
  actorStaffId : Option Nat
  safeDetails : List (String × SafeDetail)
  createdAt : Int
deriving DecidableEq

/-- `privacyPolicy` is what `_privacy_policy` reads from the business. -/
structure PrivacyDb where
  staff : StaffDb
  profiles : Nat → UserProfile
  clients : Table BusinessClient
  consents : Table ConsentHistory
  requests : Table DataDeletionRequest
  events : List DataDeletionRequestEvent
  privacyPolicy : Option PolicyDocument

/-- `DEFAULT_BUSINESS_ID`. -/
def defaultBusinessId : Nat := 1

namespace PrivacyDb

variable (db : PrivacyDb)

/-- `get_client`. -/
def getClient (businessClientId : Nat) : Option BusinessClient :=
  (db.clients.row businessClientId).filter fun c => c.businessId == defaultBusinessId

/-- `get_client_by_user`. -/
def getClientByUser (userId : Nat) : Option (Nat × BusinessClient) :=
  (db.clients.select fun c => c.userId == userId && c.businessId == defaultBusinessId).head?

/-- `_ensure_business_client` in any business. -/
def ensureBusinessClient (businessId userId : Nat) : PrivacyDb :=
  if db.clients.select (fun c => c.businessId == businessId && c.userId == userId) = [] then
    { db with clients := db.clients.insert ⟨businessId, userId, true, none⟩ }
  else db

/-- `get_or_create_client` in any business. -/
def getOrCreateClient (businessId : Nat) (telegramId : Int) : Nat × PrivacyDb :=
  let (userId, _, staff) := db.staff.getOrCreateUser telegramId
  (userId, { db with staff }.ensureBusinessClient businessId userId)

/-- The newest of some rows by `created_at` and then by key. -/
def newest (rows : List (Nat × ConsentHistory)) : Option ConsentHistory :=
  rows.foldl (fun best r => if best.all (·.createdAt ≤ r.2.createdAt) then some r.2 else best) none

/-- `latest_consent`. -/
def latestConsent (userId : Nat) (consentType : ConsentType) : Option ConsentHistory :=
  newest (db.consents.select fun c => c.userId == userId && c.consentType == consentType)

/-- `get_open_deletion_request`; an index keeps them unique. -/
def openDeletionRequest (businessClientId : Nat) : Option (Nat × DataDeletionRequest) :=
  (db.requests.select fun r => r.businessClientId == businessClientId && r.status.isOpen).head?

/-- `add_consent`. -/
def addConsent (entry : ConsentHistory) : PrivacyDb := { db with consents := db.consents.insert entry }

/-- `add_deletion_event`. -/
def addDeletionEvent (event : DataDeletionRequestEvent) : PrivacyDb := { db with events := db.events ++ [event] }

def setProfile (userId : Nat) (profile : UserProfile) : PrivacyDb :=
  { db with profiles := fun i => if i = userId then profile else db.profiles i }

end PrivacyDb

/-! ### `DataDeletionService` -/

namespace DataDeletionService

open DataDeletionRequestStatus

/-- `ensure_deletion_transition`. -/
def ensureDeletionTransition (current target : DataDeletionRequestStatus) : PrivacyCheck Unit :=
  require (target ∈ current.transitions)
    (.privacyState ("invalid deletion transition: " ++ current.value ++ " -> " ++ target.value))

/-- The keyword arguments of `transition`. -/
structure Transition where
  target : DataDeletionRequestStatus
  actorStaffId : Option Nat
  actorUserId : Option Nat := none
  retentionReason : Option String := none
  result : Option AnonymizationResult := none
  lockId : Option String := none
  errorCode : Option String := none

/-- An argument that is missing or empty. -/
def blank (text : Option String) : Prop := text.getD "" = ""

instance (text : Option String) : Decidable (blank text) := inferInstanceAs (Decidable (_ = _))

/-- `_validate_transition_details`. -/
def validateTransitionDetails (args : Transition) : PrivacyCheck Unit := do
  require (args.target ∈ [inReview, approved, rejected, completed, processing, .failed] → args.actorStaffId ≠ none)
    (.privacyState "this transition requires a staff actor")
  require (args.target = cancelled → (args.actorStaffId = none ↔ args.actorUserId ≠ none))
    (.privacyState "cancellation requires exactly one actor")
  require (args.target = rejected → ¬ blank args.retentionReason)
    (.privacyState "rejection requires a retention/rejection reason")
  if args.target = completed then
    let result ← orRaise args.result (.privacyState "completion requires an anonymization result")
    require (result.appointmentSnapshotsRetained + result.financialSnapshotsRetained ≠ 0 → ¬ blank args.retentionReason)
      (.privacyState "retained snapshots require a legal retention reason")
  else
    require (args.result = none) (.privacyState "anonymization result is only valid on completion")
  require (args.target = processing → ¬ blank args.lockId) (.privacyState "processing requires a worker lock")
  require (args.target ≠ processing → args.lockId = none) (.privacyState "worker lock is only valid while processing")
  require (args.target = .failed → ¬ blank args.errorCode) (.privacyState "failure requires a safe error code")
  require (args.target ≠ .failed → args.errorCode = none) (.privacyState "error code is only valid on failure")

/-- The request after the writes of `transition`. -/
def moved (request : DataDeletionRequest) (args : Transition) (now : Int) : DataDeletionRequest :=
  let request :=
    { request with
      status := args.target, processedByStaffId := args.actorStaffId, retentionReason := args.retentionReason }
  let request :=
    if args.target = processing then
      { request with
        attemptCount := request.attemptCount + 1, lockedAt := some now, lockedBy := args.lockId
        lastErrorCode := none, resultCode := some "processing" }
    else if args.target ∈ [approved, .failed, completed] then
      { request with lockedAt := none, lockedBy := none, lastErrorCode := args.errorCode }
    else request
  let request := if args.target ∈ [rejected, completed, cancelled] then { request with processedAt := some now } else request
  match args.result with
  | none => request
  | some result => { request with resultCode := some result.resultCode, anonymizationResult := some result }

/-- The `safe_details` of the event; `attempt` is the count after the writes. -/
def safeDetails (args : Transition) (attempt : Nat) : List (String × SafeDetail) :=
  (match args.result with
    | none => []
    | some result => [("result_code", .text result.resultCode), ("error_count", .number result.errorCodes.length)]) ++
  (if args.retentionReason = none then [] else [("retention_reason_present", .flag true)]) ++
  (match args.errorCode with
    | none => []
    | some code => [("error_code", .text code)]) ++
  (if args.target = processing then [("attempt", .number attempt)] else [])

/-- The writes of `transition` on a stored request. -/
def write (db : PrivacyDb) (requestId : Nat) (request : DataDeletionRequest) (args : Transition) (now : Int) : PrivacyDb :=
  { db with requests := db.requests.put requestId (moved request args now) }.addDeletionEvent
    { requestId, previousStatus := some request.status, newStatus := args.target, actorUserId := args.actorUserId
      actorStaffId := args.actorStaffId, safeDetails := safeDetails args (moved request args now).attemptCount
      createdAt := now }

/-- `transition`. -/
def transition (requestId : Nat) (args : Transition) (now : Int) (db : PrivacyDb) : PrivacyCheck PrivacyDb := do
  let request ← orRaise (db.requests.row requestId) (.entityNotFound "deletion request not found")
  ensureDeletionTransition request.status args.target
  validateTransitionDetails args
  return write db requestId request args now

/-- `_revoke_marketing`. -/
def revokeMarketing (userId : Nat) (policy : Option PolicyDocument) (changedAt : Int) (db : PrivacyDb) : PrivacyDb :=
  let latest := db.latestConsent userId .marketing
  if latest.any fun c => !c.newValue then db
  else
    db.addConsent
      { userId, consentType := .marketing, previousValue := latest.map (·.newValue), newValue := false, source := .system
        policyVersion := (policy.map (·.version)).getD "legacy-unversioned", policyUrl := policy.bind (·.url)
        policyHash := policy.bind (·.sha256), revokedAt := some changedAt, createdAt := changedAt }

/-- `request`. -/
def request (businessClientId : Nat) (marketingPolicy : Option PolicyDocument) (now : Int) (db : PrivacyDb) :
    PrivacyCheck PrivacyDb := do
  let client ← orRaise (db.getClient businessClientId) (.entityNotFound "business client not found")
  if db.openDeletionRequest businessClientId ≠ none then
    return db
  let request : DataDeletionRequest :=
    { businessClientId, status := .requested, requestedAt := now, processedByStaffId := none, processedAt := none
      retentionReason := none, resultCode := none, attemptCount := 0, maxAttempts := 3, lockedAt := none
      lockedBy := none, lastErrorCode := none, anonymizationResult := none }
  let event : DataDeletionRequestEvent :=
    { requestId := db.requests.next, previousStatus := none, newStatus := .requested, actorUserId := some client.userId
      actorStaffId := none, safeDetails := [("reason_code", .text "client_request")], createdAt := now }
  return revokeMarketing client.userId marketingPolicy now
    ({ db with requests := db.requests.insert request }.addDeletionEvent event)

/-- The revocation that `revoke_active_consents` appends. -/
def revocation (userId : Nat) (consentType : ConsentType) (latest : ConsentHistory) (now : Int) : ConsentHistory :=
  { userId, consentType, previousValue := some true, newValue := false, source := .system
    policyVersion := latest.policyVersion, policyUrl := latest.policyUrl, policyHash := latest.policyHash
    revokedAt := some now, createdAt := now }

/-- One turn of the loop of `revoke_active_consents`. -/
def revokeActiveConsent (userId : Nat) (now : Int) (revoked : Nat × PrivacyDb) (consentType : ConsentType) :
    Nat × PrivacyDb :=
  match (revoked.2.latestConsent userId consentType).filter (·.newValue) with
  | none => revoked
  | some latest => (revoked.1 + 1, revoked.2.addConsent (revocation userId consentType latest now))

/-- `revoke_active_consents`. -/
def revokeActiveConsents (userId : Nat) (now : Int) (db : PrivacyDb) : Nat × PrivacyDb :=
  [ConsentType.privacy, .marketing, .repeatBooking].foldl (revokeActiveConsent userId now) (0, db)

end DataDeletionService

end SalonBooking.Privacy
