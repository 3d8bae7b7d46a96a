import SalonBooking.Privacy.Consents

/-!
# Executing deletion requests

`PrivacyDeletionRuntimeService` with `anonymization_blockers` and `anonymize_client_data` of the repository. Each
operation is one transaction whose first read locks the request, so it sees the committed row and nobody changes it
before the commit; `authorize` runs before it, so the operations take its result. Claiming, running and recording a
failure are the transactions of `execute_anonymization`, and an executor that crashes leaves some of them out.
-/

namespace SalonBooking.Privacy

open Lib Staff DataDeletionService

/-! ### `PrivacyRepository` -/

/-- The values of `StaffRole`, in the order in which `sorted` puts them. -/
def staffRoleValues : List (StaffRole × String) :=
  [(.manager, "manager"), (.master, "master"), (.owner, "owner"), (.receptionist, "receptionist")]

/-- `AnonymizationBlockers`. -/
structure AnonymizationBlockers where
  activeStaffMemberships : Nat
  otherActiveBusinessMemberships : Nat
  activeStaffRoles : List String
  bootstrapOwner : Bool

/-- `error_codes`. -/
def AnonymizationBlockers.errorCodes (b : AnonymizationBlockers) : List String :=
  (if b.bootstrapOwner then ["bootstrap_owner"]
    else if b.activeStaffRoles ≠ [] then b.activeStaffRoles.map ("active_staff_role." ++ ·)
    else if b.activeStaffMemberships ≠ 0 then ["active_staff_membership"]
    else []) ++
  (if b.otherActiveBusinessMemberships ≠ 0 then ["other_active_business_membership"] else [])

namespace PrivacyDb

def activeStaff (db : PrivacyDb) (userId : Nat) : List (Nat × Staff.StaffMember) :=
  db.staff.members.select fun m => m.userId == some userId && m.isActive

/-- The active client memberships of a user in other businesses. -/
def otherClients (db : PrivacyDb) (userId : Nat) : List (Nat × BusinessClient) :=
  db.clients.select fun c => c.userId == userId && c.businessId != defaultBusinessId && c.isActive

/-- `anonymization_blockers`. -/
def anonymizationBlockers (db : PrivacyDb) (userId : Nat) : AnonymizationBlockers :=
  let activeStaffRows := db.activeStaff userId
  { activeStaffMemberships := activeStaffRows.length
    otherActiveBusinessMemberships := (db.otherClients userId).length
    activeStaffRoles := (staffRoleValues.filter fun r => activeStaffRows.any (·.2.role == r.1)).map (·.2)
    bootstrapOwner := activeStaffRows.any (·.2.isBootstrapOwner) }

/-- What `anonymize_client_data` writes to a membership of the user. -/
def anonymizedMember (userId : Nat) (m : Staff.StaffMember) : Staff.StaffMember :=
  if m.userId = some userId ∧ m.isActive = false ∧ m.isBootstrapOwner = false then
    { m with userId := none, displayName := "[anonymized]", permissionGrants := [] }
  else m

/-- What it writes to an invitation that the user accepted. -/
def anonymizedInvitation (userId : Nat) (inv : StaffInvitation) : StaffInvitation :=
  if inv.acceptedByUserId = some userId then { inv with displayName := "[anonymized]", acceptedByUserId := none } else inv

/-- The user's memberships, invitations and identity after it. -/
def anonymizedStaff (userId : Nat) (staff : StaffDb) : StaffDb :=
  { staff with
    users := staff.users.put userId ⟨-(2 ^ 62) + userId, true⟩
    members := staff.members.mapRows fun _ => anonymizedMember userId
    invitations := staff.invitations.mapRows fun _ => anonymizedInvitation userId }

/-- `anonymize_client_data`. -/
def anonymizeClientData (businessClientId userId : Nat) (changedAt : Int) (db : PrivacyDb) : PrivacyCheck PrivacyDb := do
  let client ← orRaise ((db.getClient businessClientId).filter (·.userId == userId))
    (.value "privacy subject does not belong to this business")
  require (db.staff.users.row userId ≠ none) (.value "privacy subject does not belong to this business")
  let client := { client with isActive := false, anonymizedAt := some changedAt }
  let profile : UserProfile :=
    { privacyConsentAt := none, marketingConsentAt := none, marketingUnsubscribedAt := some changedAt
      repeatBookingOptOutAt := some changedAt }
  let staff := anonymizedStaff userId db.staff
  return { db with staff, clients := db.clients.put businessClientId client }.setProfile userId profile

end PrivacyDb

/-! ### `PrivacyDeletionRuntimeService` -/

namespace PrivacyDeletionRuntimeService

def legalRetentionReason : String := "legal_accounting_and_service_history"

/-- `_ANONYMIZATION_LEASE`, in seconds. -/
def anonymizationLease : Int := 15 * 60

def anonymizationError : String := "anonymization_execution_failed"

def rejectionReasonCodes : List String :=
  ["active_staff_membership", "other_active_business_membership", "identity_not_verified", "legal_retention_required",
    "request_invalid"]

/-- `AnonymizationExecutionOutcome` without its view of the request. -/
structure Outcome where
  completed : Bool
  errorCodes : List String
deriving DecidableEq

/-- `_require_confirmation`. -/
def requireConfirmation (confirmed : Bool) : PrivacyCheck Unit :=
  require (confirmed = true) (.privacyState "explicit confirmation is required")

/-- `start_review`. -/
def startReview (liveActor : Staff.StaffContext) (requestId : Nat) (confirmed : Bool) (now : Int) (db : PrivacyDb) :
    PrivacyCheck PrivacyDb := do
  requireConfirmation confirmed
  transition requestId { target := .inReview, actorStaffId := some liveActor.staffMemberId } now db

/-- `approve`. -/
def approve (liveActor : Staff.StaffContext) (requestId : Nat) (confirmed : Bool) (now : Int) (db : PrivacyDb) :
    PrivacyCheck PrivacyDb := do
  requireConfirmation confirmed
  transition requestId { target := .approved, actorStaffId := some liveActor.staffMemberId } now db

/-- `reject`. -/
def reject (liveActor : Staff.StaffContext) (requestId : Nat) (reasonCode : String) (confirmed : Bool) (now : Int)
    (db : PrivacyDb) : PrivacyCheck PrivacyDb := do
  requireConfirmation confirmed
  require (reasonCode ∈ rejectionReasonCodes) (.privacyState "a predefined rejection reason is required")
  transition requestId
    { target := .rejected, actorStaffId := some liveActor.staffMemberId, retentionReason := some reasonCode } now db

/-- The request after the writes of `retry_failed`. -/
def retryApproved (request : DataDeletionRequest) : DataDeletionRequest :=
  { request with attemptCount := 0, lastErrorCode := none, resultCode := some "retry_approved" }

/-- `retry_failed`. -/
def retryFailed (liveActor : Staff.StaffContext) (requestId : Nat) (confirmed : Bool) (now : Int) (db : PrivacyDb) :
    PrivacyCheck PrivacyDb := do
  requireConfirmation confirmed
  require (liveActor.isBootstrapOwner = true) (.privacyState "only the bootstrap owner can retry a failed request")
  let request ← orRaise (db.requests.row requestId) (.entityNotFound "deletion request not found")
  if request.status = .completed then
    return db
  require (request.status = .failed) (.privacyState "only a failed request can be retried")
  transition requestId { target := .approved, actorStaffId := some liveActor.staffMemberId } now
    { db with requests := db.requests.put requestId (retryApproved request) }

/-- The rest of `_claim_anonymization` for an approved request. -/
def claimApproved (liveActor : Staff.StaffContext) (requestId : Nat) (lockId : String) (now : Int) (db : PrivacyDb) :
    PrivacyCheck (Option Outcome × PrivacyDb) := do
  let request ← orRaise (db.requests.row requestId) (.entityNotFound "deletion request not found")
  let client ← orRaise (db.getClient request.businessClientId) (.entityNotFound "business client not found")
  require (db.staff.users.row client.userId ≠ none) (.entityNotFound "privacy subject not found")
  let actorStaffId := some liveActor.staffMemberId
  match (db.anonymizationBlockers client.userId).errorCodes with
  | code :: codes =>
    let db ← transition requestId { target := .inReview, actorStaffId, retentionReason := some code } now db
    return (some ⟨false, code :: codes⟩, db)
  | [] =>
    if request.maxAttempts ≤ request.attemptCount then
      let db ← transition requestId
        { target := .failed, actorStaffId, errorCode := some "anonymization_attempts_exhausted" } now db
      return (some ⟨false, ["anonymization_attempts_exhausted"]⟩, db)
    let db ← transition requestId { target := .processing, actorStaffId, lockId := some lockId } now db
    return (none, db)

/-- `lease_is_fresh`. -/
def leaseIsFresh (request : DataDeletionRequest) (now : Int) : Bool :=
  request.lockedAt.any fun lockedAt => now - anonymizationLease < lockedAt

/-- `_claim_anonymization`; the outcome is missing when the claim succeeds. -/
def claimAnonymization (liveActor : Staff.StaffContext) (requestId : Nat) (lockId : String) (now : Int) (db : PrivacyDb) :
    PrivacyCheck (Option Outcome × PrivacyDb) := do
  let request ← orRaise (db.requests.row requestId) (.entityNotFound "deletion request not found")
  match request.status with
  | .completed => return (some ⟨true, []⟩, db)
  | .processing =>
    if leaseIsFresh request now = true then
      return (some ⟨false, ["anonymization_in_progress"]⟩, db)
    let actorStaffId := some liveActor.staffMemberId
    let db ← transition requestId { target := .failed, actorStaffId, errorCode := some "anonymization_lease_expired" } now db
    if request.maxAttempts ≤ request.attemptCount then
      return (some ⟨false, ["anonymization_attempts_exhausted"]⟩, db)
    let db ← transition requestId { target := .approved, actorStaffId } now db
    claimApproved liveActor requestId lockId now db
  | .failed => return (some ⟨false, [request.lastErrorCode.getD anonymizationError]⟩, db)
  | .approved => claimApproved liveActor requestId lockId now db
  | _ => throw (.privacyState "only an approved request can be executed")

/-- The result that a completed request keeps. -/
def completedResult (counts : AnonymizationMutationCounts) (consentsRevoked : Nat) : AnonymizationResult :=
  { counts with
    resultCode := "completed_with_legal_retention", identitiesAnonymized := 2, consentsRevoked, errorCodes := [] }

/-- `_run_claimed_anonymization`. -/
def runClaimedAnonymization (liveActor : Staff.StaffContext) (requestId : Nat) (lockId : String)
    (counts : AnonymizationMutationCounts) (now : Int) (db : PrivacyDb) : PrivacyCheck PrivacyDb := do
  let request ← orRaise (db.requests.row requestId) (.entityNotFound "deletion request not found")
  if request.status = .completed then
    return db
  require (request.status = .processing ∧ request.lockedBy = some lockId)
    (.privacyState "anonymization claim is no longer owned")
  let client ← orRaise (db.getClient request.businessClientId) (.entityNotFound "business client not found")
  require (db.staff.users.row client.userId ≠ none) (.entityNotFound "privacy subject not found")
  let (consentsRevoked, db) := revokeActiveConsents client.userId now db
  let db ← db.anonymizeClientData request.businessClientId client.userId now
  transition requestId
    { target := .completed, actorStaffId := some liveActor.staffMemberId, retentionReason := some legalRetentionReason
      result := some (completedResult counts consentsRevoked) } now db

/-- The request after a recorded failure. -/
def failureRecorded (request : DataDeletionRequest) (exhausted : Bool) : DataDeletionRequest :=
  { request with
    lastErrorCode := some anonymizationError, resultCode := some (if exhausted then "failed" else "retry_scheduled") }

/-- `_record_execution_failure`. -/
def recordExecutionFailure (liveActor : Staff.StaffContext) (requestId : Nat) (lockId : String) (now : Int) (db : PrivacyDb) :
    PrivacyCheck PrivacyDb := do
  let request ← orRaise (db.requests.row requestId) (.entityNotFound "deletion request not found")
  if request.status = .processing ∧ request.lockedBy = some lockId then
    let exhausted := decide (request.maxAttempts ≤ request.attemptCount)
    let db ← transition requestId
      { target := if exhausted then .failed else .approved, actorStaffId := some liveActor.staffMemberId
        errorCode := if exhausted then some anonymizationError else none } now db
    let request ← orRaise (db.requests.row requestId) (.entityNotFound "deletion request not found")
    return { db with requests := db.requests.put requestId (failureRecorded request exhausted) }
  return db

/-! ### What the operations do -/

section Specifications

variable {db db' : PrivacyDb} {i : Nat} {args : Transition} {now : Int} {liveActor : Staff.StaffContext} {lockId : String}
variable {confirmed : Bool}

theorem transition_ok :
    transition i args now db = .ok db' ↔
      ∃ r, db.requests.row i = some r ∧ args.target ∈ r.status.transitions ∧ validateTransitionDetails args = .ok () ∧
        write db i r args now = db' := by
  simp only [transition, ensureDeletionTransition, Except.bind_ok, Except.orRaise_ok, Except.require_ok, Except.pure_ok,
    exists_const]
  constructor
  · rintro ⟨r, row, edge, _, valid, eq⟩
    exact ⟨r, row, edge, valid, eq⟩
  · rintro ⟨r, row, edge, valid, eq⟩
    exact ⟨r, row, edge, _, valid, eq⟩

theorem startReview_ok (h : startReview liveActor i confirmed now db = .ok db') :
    ∃ args, args.target = .inReview ∧ transition i args now db = .ok db' := by
  simp only [startReview, Except.bind_ok] at h
  obtain ⟨_, -, h⟩ := h
  exact ⟨_, rfl, h⟩

theorem approve_ok (h : approve liveActor i confirmed now db = .ok db') :
    confirmed = true ∧ ∃ args, args.target = .approved ∧ transition i args now db = .ok db' := by
  simp only [approve, requireConfirmation, Except.bind_ok, Except.require_ok, exists_const] at h
  exact ⟨h.1, _, rfl, h.2⟩

theorem reject_ok {reasonCode : String} (h : reject liveActor i reasonCode confirmed now db = .ok db') :
    ∃ args, args.target = .rejected ∧ transition i args now db = .ok db' := by
  simp only [reject, Except.bind_ok] at h
  obtain ⟨_, -, _, -, h⟩ := h
  exact ⟨_, rfl, h⟩

/-- A retry is for the bootstrap owner; it approves a failed request with its attempts reset. -/
theorem retryFailed_ok (h : retryFailed liveActor i confirmed now db = .ok db') :
    liveActor.isBootstrapOwner = true ∧ ∃ r, db.requests.row i = some r ∧
      (r.status = .completed ∧ db' = db ∨ r.status = .failed ∧ ∃ args, args.target = .approved ∧
        transition i args now { db with requests := db.requests.put i (retryApproved r) } = .ok db') := by
  simp only [retryFailed, Except.bind_ok, Except.require_ok, Except.orRaise_ok, exists_const] at h
  obtain ⟨_, -, bootstrap, r, row, h⟩ := h
  refine ⟨bootstrap, r, row, ?_⟩
  split at h
  · next completed =>
    rw [Except.pure_ok] at h
    exact .inl ⟨completed, h.symm⟩
  · simp only [Except.bind_ok, Except.require_ok, exists_const] at h
    exact .inr ⟨h.1, _, rfl, h.2⟩

/-- A claim of an approved request is one transition; it processes the request only without blockers and within the
limit. -/
theorem claimApproved_ok {out : Option Outcome} (h : claimApproved liveActor i lockId now db = .ok (out, db')) :
    ∃ r c args, db.requests.row i = some r ∧ db.getClient r.businessClientId = some c ∧
      db.staff.users.row c.userId ≠ none ∧ transition i args now db = .ok db' ∧
      (args.target = .processing → args.lockId = some lockId ∧ r.attemptCount < r.maxAttempts ∧
        (db.anonymizationBlockers c.userId).errorCodes = []) := by
  simp only [claimApproved, Except.bind_ok, Except.orRaise_ok, Except.require_ok, exists_const] at h
  obtain ⟨r, row, c, client, user, h⟩ := h
  split at h
  · simp only [Except.bind_ok, Except.pure_ok, Prod.mk.injEq] at h
    obtain ⟨_, moved, -, rfl⟩ := h
    refine ⟨r, c, _, row, client, user, moved, fun processing => ?_⟩
    cases processing
  · next clear =>
    split at h
    · simp only [Except.bind_ok, Except.pure_ok, Prod.mk.injEq] at h
      obtain ⟨_, moved, -, rfl⟩ := h
      refine ⟨r, c, _, row, client, user, moved, fun processing => ?_⟩
      cases processing
    · next left =>
      simp only [Except.bind_ok, Except.pure_ok, Prod.mk.injEq] at h
      obtain ⟨_, moved, -, rfl⟩ := h
      exact ⟨r, c, _, row, client, user, moved, fun _ => ⟨rfl, not_le.mp left, clear⟩⟩

/-- A claim does nothing, claims an approved request, or takes over an expired lease. -/
theorem claimAnonymization_ok {out : Option Outcome} (h : claimAnonymization liveActor i lockId now db = .ok (out, db')) :
    ∃ r, db.requests.row i = some r ∧
      (db' = db ∨ (r.status = .approved ∧ claimApproved liveActor i lockId now db = .ok (out, db')) ∨
        (r.status = .processing ∧ leaseIsFresh r now = false ∧ ∃ failed args,
          args.target = .failed ∧ transition i args now db = .ok failed ∧
          (db' = failed ∨ ∃ approved args', args'.target = .approved ∧ transition i args' now failed = .ok approved ∧
            claimApproved liveActor i lockId now approved = .ok (out, db')))) := by
  simp only [claimAnonymization, Except.bind_ok, Except.orRaise_ok] at h
  obtain ⟨r, row, h⟩ := h
  refine ⟨r, row, ?_⟩
  split at h
  · rw [Except.pure_ok, Prod.mk.injEq] at h
    exact .inl h.2.symm
  · next status =>
    split at h
    · rw [Except.pure_ok, Prod.mk.injEq] at h
      exact .inl h.2.symm
    · next expired =>
      simp only [Except.bind_ok] at h
      obtain ⟨failed, fails, h⟩ := h
      refine .inr (.inr ⟨status, Bool.not_eq_true _ ▸ expired, failed, _, rfl, fails, ?_⟩)
      split at h
      · rw [Except.pure_ok, Prod.mk.injEq] at h
        exact .inl h.2.symm
      · simp only [Except.bind_ok] at h
        obtain ⟨approved, approves, h⟩ := h
        exact .inr ⟨approved, _, rfl, approves, h⟩
  · rw [Except.pure_ok, Prod.mk.injEq] at h
    exact .inl h.2.symm
  · next status => exact .inr (.inl ⟨status, h⟩)
  · exact absurd h Except.throw_ok

/-- An executor that holds the lease revokes the consents, anonymises the client and completes the request. -/
theorem runClaimedAnonymization_ok {counts : AnonymizationMutationCounts}
    (h : runClaimedAnonymization liveActor i lockId counts now db = .ok db') :
    ∃ r, db.requests.row i = some r ∧
      (r.status = .completed ∧ db' = db ∨ r.status = .processing ∧ r.lockedBy = some lockId ∧ ∃ c anonymized args,
        db.getClient r.businessClientId = some c ∧
        (revokeActiveConsents c.userId now db).2.anonymizeClientData r.businessClientId c.userId now = .ok anonymized ∧
        args.target = .completed ∧ transition i args now anonymized = .ok db') := by
  simp only [runClaimedAnonymization, Except.bind_ok, Except.orRaise_ok] at h
  obtain ⟨r, row, h⟩ := h
  refine ⟨r, row, ?_⟩
  split at h
  · next completed =>
    rw [Except.pure_ok] at h
    exact .inl ⟨completed, h.symm⟩
  · simp only [Except.bind_ok, Except.require_ok, Except.orRaise_ok, exists_const] at h
    obtain ⟨⟨processing, owns⟩, c, client, -, anonymized, anonymizes, completes⟩ := h
    exact .inr ⟨processing, owns, c, anonymized, _, client, anonymizes, rfl, completes⟩

/-- A failure of the executor that holds the lease is one transition, and then a note on the request. -/
theorem recordExecutionFailure_ok (h : recordExecutionFailure liveActor i lockId now db = .ok db') :
    ∃ r, db.requests.row i = some r ∧
      (db' = db ∨ r.status = .processing ∧ r.lockedBy = some lockId ∧ ∃ failed args r' exhausted,
        (args.target = .failed ∨ args.target = .approved) ∧ transition i args now db = .ok failed ∧
        failed.requests.row i = some r' ∧
        db' = { failed with requests := failed.requests.put i (failureRecorded r' exhausted) }) := by
  simp only [recordExecutionFailure, Except.bind_ok, Except.orRaise_ok] at h
  obtain ⟨r, row, h⟩ := h
  refine ⟨r, row, ?_⟩
  split at h
  · next owns =>
    simp only [Except.bind_ok, Except.orRaise_ok, Except.pure_ok] at h
    obtain ⟨failed, fails, r', row', rfl⟩ := h
    refine .inr ⟨owns.1, owns.2, failed, _, r', _, ?_, fails, row', rfl⟩
    by_cases exhausted : r.maxAttempts ≤ r.attemptCount
    · exact .inl (if_pos (decide_eq_true exhausted))
    · exact .inr (if_neg (by rw [decide_eq_false exhausted]; decide))
  · rw [Except.pure_ok] at h
    exact .inl h.symm

end Specifications

end PrivacyDeletionRuntimeService

/-! ### Runs -/

/-- Every transaction of the system that reads or writes what consents and deletion requests use. -/
inductive PrivacyOp
  | staff (op : StaffOp)
  | getOrCreateClient (businessId : Nat) (telegramId : Int)
  | publishPolicy (policy : Option PolicyDocument)
  | acceptPrivacy (telegramId : Int)
  | setMarketing (telegramId : Int) (accepted : Bool) (source : ConsentSource)
  | setRepeatBooking (telegramId : Int) (accepted : Bool)
  | requestDeletion (telegramId : Int)
  | startReview (liveActor : Staff.StaffContext) (requestId : Nat) (confirmed : Bool)
  | approve (liveActor : Staff.StaffContext) (requestId : Nat) (confirmed : Bool)
  | reject (liveActor : Staff.StaffContext) (requestId : Nat) (reasonCode : String) (confirmed : Bool)
  | retryFailed (liveActor : Staff.StaffContext) (requestId : Nat) (confirmed : Bool)
  | claim (liveActor : Staff.StaffContext) (requestId : Nat) (lockId : String)
  | run (liveActor : Staff.StaffContext) (requestId : Nat) (lockId : String) (counts : AnonymizationMutationCounts)
  | recordFailure (liveActor : Staff.StaffContext) (requestId : Nat) (lockId : String)

namespace PrivacyDb

open PrivacyDeletionRuntimeService in
/-- One transaction at the instant `now`. -/
def exec (db : PrivacyDb) (now : Int) : PrivacyOp → PrivacyCheck PrivacyDb
  | .staff op => .ok { db with staff := db.staff.step (now, op) }
  | .getOrCreateClient businessId telegramId => .ok (db.getOrCreateClient businessId telegramId).2
  | .publishPolicy policy => .ok { db with privacyPolicy := policy }
  | .acceptPrivacy telegramId => ConsentService.acceptPrivacy telegramId now db
  | .setMarketing telegramId accepted source => ConsentService.setMarketing telegramId accepted source now db
  | .setRepeatBooking telegramId accepted => ConsentService.setRepeatBooking telegramId accepted now db
  | .requestDeletion telegramId => ConsentService.requestDeletion telegramId now db
  | .startReview liveActor requestId confirmed => startReview liveActor requestId confirmed now db
  | .approve liveActor requestId confirmed => approve liveActor requestId confirmed now db
  | .reject liveActor requestId reasonCode confirmed => reject liveActor requestId reasonCode confirmed now db
  | .retryFailed liveActor requestId confirmed => retryFailed liveActor requestId confirmed now db
  | .claim liveActor requestId lockId => (·.2) <$> claimAnonymization liveActor requestId lockId now db
  | .run liveActor requestId lockId counts => runClaimedAnonymization liveActor requestId lockId counts now db
  | .recordFailure liveActor requestId lockId => recordExecutionFailure liveActor requestId lockId now db

/-- A transaction that raises rolls back. -/
def step (db : PrivacyDb) (l : Int × PrivacyOp) : PrivacyDb := ((db.exec l.1 l.2).toOption).getD db

end PrivacyDb

end SalonBooking.Privacy
