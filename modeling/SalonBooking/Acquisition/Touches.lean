import SalonBooking.Lib.Statements
import SalonBooking.Privacy.Requests
import SalonBooking.Staff.Invitations

/-!
# Campaign touches

The codes and the attribution of `domain/acquisition.py`, and the transactions of `services/acquisition_service.py`
statement by statement. A touch locks the card of the client before it looks at her attribution. The published policy is
read as `_has_current_privacy` makes it of the columns of the business: none when they do not form a document.
-/

namespace SalonBooking.Acquisition

open Lib

inductive AcquisitionError
  | campaignValidation (text : String)
  | value (text : String)
  | runtime (text : String)
deriving DecidableEq, Repr

abbrev AcquisitionCheck (α : Type) : Type := Except AcquisitionError α

/-! ### Codes -/

/-- `str.lower` of one character, as far as it gives ASCII: also the Kelvin sign. -/
def lowerChar (c : Char) : Char := if c.toNat = 8490 then 'k' else c.toLower

/-- `str.lower`. -/
def lower (s : String) : String := .ofList (s.toList.map lowerChar)

def isCodeStart (c : Char) : Bool := ('a' ≤ c && c ≤ 'z') || ('0' ≤ c && c ≤ '9')

def isCodeChar (c : Char) : Bool := isCodeStart c || c == '_' || c == '-'

/-- `_CAMPAIGN_CODE_PATTERN`. -/
def isCampaignCode (code : String) : Bool :=
  match code.toList with
  | [] => false
  | c :: rest => isCodeStart c && rest.all isCodeChar && decide (rest.length ≤ 63)

@[irreducible] def validateCampaignCode (rawCode : String) : AcquisitionCheck String := do
  let code := lower (strip rawCode)
  require ((code.toList.all fun c => c.toNat < 128) = true)
    (.campaignValidation "campaign code must contain ASCII characters only")
  require (isCampaignCode code = true)
    (.campaignValidation "campaign code must contain 1..64 lowercase letters, digits, '_' or '-'")
  return code

/-! ### Attributions -/

/-- `AttributionProjection`. -/
structure AttributionProjection where
  firstSourceId : Nat
  firstTouchedAt : Int
  lastSourceId : Nat
  lastTouchedAt : Int
  touchCount : Int
deriving DecidableEq, Repr

namespace AttributionProjection

/-- `__post_init__`. -/
def make (p : AttributionProjection) : AcquisitionCheck AttributionProjection := do
  require (¬ (p.firstSourceId = 0 ∨ p.lastSourceId = 0)) (.campaignValidation "source IDs must be positive")
  require (¬ p.touchCount < 1) (.campaignValidation "touch count must be positive")
  require (¬ p.lastTouchedAt < p.firstTouchedAt) (.campaignValidation "last touch cannot precede first touch")
  return p

def first (sourceId : Nat) (touchedAt : Int) : AcquisitionCheck AttributionProjection :=
  make ⟨sourceId, touchedAt, sourceId, touchedAt, 1⟩

def touch (p : AttributionProjection) (sourceId : Nat) (touchedAt : Int) : AcquisitionCheck AttributionProjection := do
  require (¬ touchedAt < p.lastTouchedAt) (.campaignValidation "an attribution touch cannot move backwards in time")
  make { p with lastSourceId := sourceId, lastTouchedAt := touchedAt, touchCount := p.touchCount + 1 }

end AttributionProjection

/-- `ClientAcquisitionAttribution`. -/
structure ClientAcquisitionAttribution where
  businessClientId : Nat
  firstSourceId : Nat
  firstTouchedAt : Int
  lastSourceId : Nat
  lastTouchedAt : Int
  touchCount : Int
deriving DecidableEq, Repr

/-- The columns that make the projection. -/
def ClientAcquisitionAttribution.columns (a : ClientAcquisitionAttribution) : AttributionProjection :=
  ⟨a.firstSourceId, a.firstTouchedAt, a.lastSourceId, a.lastTouchedAt, a.touchCount⟩

/-- `AcquisitionSource`. -/
structure AcquisitionSource where
  code : String
  displayName : String
  channel : Option String
  isActive : Bool
  createdByStaffId : Option Nat
  archivedAt : Option Int
deriving DecidableEq, Repr

deriving instance DecidableEq for Privacy.PolicyDocument

/-- `businesses`, as far as its policy is concerned. -/
structure Business where
  privacyPolicy : Option Privacy.PolicyDocument
deriving DecidableEq

/-! ### Tables -/

inductive AcquisitionTable
  | users | clients | business | consents | sources | attributions
deriving DecidableEq

instance : Fintype AcquisitionTable :=
  ⟨{.users, .clients, .business, .consents, .sources, .attributions}, fun t => by cases t <;> decide⟩

@[reducible] def AcquisitionTable.Row : AcquisitionTable → Type
  | users => Staff.User
  | clients => Privacy.BusinessClient
  | business => Business
  | consents => Privacy.ConsentHistory
  | sources => AcquisitionSource
  | attributions => ClientAcquisitionAttribution

instance : ∀ t : AcquisitionTable, DecidableEq t.Row
  | .users => inferInstanceAs (DecidableEq Staff.User)
  | .clients => inferInstanceAs (DecidableEq Privacy.BusinessClient)
  | .business => inferInstanceAs (DecidableEq Business)
  | .consents => inferInstanceAs (DecidableEq Privacy.ConsentHistory)
  | .sources => inferInstanceAs (DecidableEq AcquisitionSource)
  | .attributions => inferInstanceAs (DecidableEq ClientAcquisitionAttribution)

instance columnsAttribution : Columns ClientAcquisitionAttribution where
  write l a s :=
    { businessClientId := flushed l.businessClientId a.businessClientId s.businessClientId
      firstSourceId := flushed l.firstSourceId a.firstSourceId s.firstSourceId
      firstTouchedAt := flushed l.firstTouchedAt a.firstTouchedAt s.firstTouchedAt
      lastSourceId := flushed l.lastSourceId a.lastSourceId s.lastSourceId
      lastTouchedAt := flushed l.lastTouchedAt a.lastTouchedAt s.lastTouchedAt
      touchCount := flushed l.touchCount a.touchCount s.touchCount }
  write_fresh l a := by simp
  write_untouched l s := by simp

instance columnsSource : Columns AcquisitionSource where
  write l a s :=
    { code := flushed l.code a.code s.code
      displayName := flushed l.displayName a.displayName s.displayName
      channel := flushed l.channel a.channel s.channel
      isActive := flushed l.isActive a.isActive s.isActive
      createdByStaffId := flushed l.createdByStaffId a.createdByStaffId s.createdByStaffId
      archivedAt := flushed l.archivedAt a.archivedAt s.archivedAt }
  write_fresh l a := by simp
  write_untouched l s := by simp

@[reducible] def columnsClient : Columns Privacy.BusinessClient where
  write l a s :=
    { businessId := flushed l.businessId a.businessId s.businessId
      userId := flushed l.userId a.userId s.userId
      isActive := flushed l.isActive a.isActive s.isActive
      anonymizedAt := flushed l.anonymizedAt a.anonymizedAt s.anonymizedAt }
  write_fresh l a := by simp
  write_untouched l s := by simp

instance columnsBusiness : Columns Business where
  write l a s := { privacyPolicy := flushed l.privacyPolicy a.privacyPolicy s.privacyPolicy }
  write_fresh l a := by simp
  write_untouched l s := by simp

@[reducible] def columnsConsent : Columns Privacy.ConsentHistory where
  write l a s :=
    { userId := flushed l.userId a.userId s.userId
      consentType := flushed l.consentType a.consentType s.consentType
      previousValue := flushed l.previousValue a.previousValue s.previousValue
      newValue := flushed l.newValue a.newValue s.newValue
      source := flushed l.source a.source s.source
      policyVersion := flushed l.policyVersion a.policyVersion s.policyVersion
      policyUrl := flushed l.policyUrl a.policyUrl s.policyUrl
      policyHash := flushed l.policyHash a.policyHash s.policyHash
      revokedAt := flushed l.revokedAt a.revokedAt s.revokedAt
      createdAt := flushed l.createdAt a.createdAt s.createdAt }
  write_fresh l a := by simp
  write_untouched l s := by simp

instance : ∀ t : AcquisitionTable, Columns t.Row
  | .users => inferInstanceAs (Columns Staff.User)
  | .clients => columnsClient
  | .business => columnsBusiness
  | .consents => columnsConsent
  | .sources => columnsSource
  | .attributions => columnsAttribution

/-! ### Transactions -/

/-- What a call returns or raises. -/
inductive AcquisitionAnswer
  /-- `False`: the code is not valid or not known, or the client has not accepted the policy in force. -/
  | ignored
  | recorded (businessClientId sourceId : Nat) (touchedAt : Int) (firstTouchCreated : Bool)
  | source (sourceId : Nat)
  | refused (error : AcquisitionError)
deriving DecidableEq, Repr

abbrev AcquisitionTx : Type := Tx AcquisitionTable.Row Empty AcquisitionAnswer

/-- A check that raises rolls the transaction back. -/
def checked {α : Type} (check : AcquisitionCheck α) (next : α → AcquisitionTx) : AcquisitionTx :=
  match check with
  | .error e => .done (.refused e)
  | .ok a => next a

/-- A check whose error the call answers with `False`. -/
def ignoring {α : Type} (check : AcquisitionCheck α) (next : α → AcquisitionTx) : AcquisitionTx :=
  match check with
  | .error _ => .done .ignored
  | .ok a => next a

namespace UserRepository

/-- `_ensure_business_client`: the conflicting row is left as it is. -/
def ensureBusinessClient (userId : Nat) (next : AcquisitionTx) : AcquisitionTx :=
  .count .clients (fun clients =>
      (clients.select fun c => c.businessId == Privacy.defaultBusinessId && c.userId == userId).map Prod.fst) fun
    | [] => .insert .clients ⟨Privacy.defaultBusinessId, userId, true, none⟩ fun _ => next
    | _ :: _ => next

/-- `get_or_create_client`: an upsert locks the row that is there. -/
def getOrCreateClient (telegramId : Int) (next : Nat → AcquisitionTx) : AcquisitionTx :=
  .lock .users (fun users => (users.select (·.telegramId == telegramId)).map Prod.fst) fun
    | [] => .insert .users ⟨telegramId, false⟩ fun userId => ensureBusinessClient userId (next userId)
    | (userId, _) :: _ => ensureBusinessClient userId (next userId)

end UserRepository

namespace AcquisitionService

/-- `create_source`; the code of the session is unique, so the row that is there is returned. -/
def createSource (rawCode displayName : String) (channel : Option String) (actorStaffId : Option Nat) : AcquisitionTx :=
  checked (validateCampaignCode rawCode) fun code =>
  let normalizedName := strip displayName
  checked (require (normalizedName ≠ "" ∧ normalizedName.length ≤ 255)
    (.value "display_name must contain 1..255 characters")) fun _ =>
  .select .sources (fun sources => (sources.select (·.code == code)).map Prod.fst) fun
    | [] => .insert .sources ⟨code, normalizedName, channel, true, actorStaffId, none⟩ fun i => .commit (.source i)
    | (i, _) :: _ => .commit (.source i)

/-- `record_touch`; a missing client or source ends the call of the runtime service with `False`. -/
def recordTouch (businessClientId : Nat) (rawCode : String) (happenedAt : Int) : AcquisitionTx :=
  checked (validateCampaignCode rawCode) fun code =>
  .getForUpdate .clients businessClientId fun
    | none => .done .ignored
    | some _ =>
      .select .sources (fun sources =>
          (sources.select fun s => s.code == code && s.isActive && s.archivedAt.isNone).map Prod.fst) fun
        | [] => .done .ignored
        | (sourceId, _) :: _ =>
          .lock .attributions (fun attributions =>
              (attributions.select (·.businessClientId == businessClientId)).map Prod.fst) fun
            | [] =>
              checked (AttributionProjection.first sourceId happenedAt) fun p =>
              .insert .attributions
                ⟨businessClientId, p.firstSourceId, p.firstTouchedAt, p.lastSourceId, p.lastTouchedAt, p.touchCount⟩
                fun _ =>
              .commit (.recorded businessClientId sourceId happenedAt true)
            | (i, attribution) :: _ =>
              checked attribution.columns.make fun projection =>
              checked (projection.touch sourceId happenedAt) fun p =>
              .assign .attributions i
                { attribution with
                  lastSourceId := p.lastSourceId, lastTouchedAt := p.lastTouchedAt, touchCount := p.touchCount } <|
              .flush (.commit (.recorded businessClientId sourceId happenedAt false))

end AcquisitionService

namespace AcquisitionRuntimeService

/-- `_has_current_privacy`. -/
def hasCurrentPrivacy (userId : Nat) (next : Bool → AcquisitionTx) : AcquisitionTx :=
  .get .business Privacy.defaultBusinessId fun business =>
    match business.bind (·.privacyPolicy) with
    | none => next false
    | some policy =>
      .select .consents (fun consents =>
          (consents.select fun c => c.userId == userId && c.consentType == .privacy).map Prod.fst) fun rows =>
        next ((Privacy.PrivacyDb.newest rows).any fun latest =>
          latest.newValue && policy.matches latest.policyVersion latest.policyUrl latest.policyHash)

/-- `record_known_touch`. -/
def recordKnownTouch (telegramId : Int) (rawCode : String) (touchedAt : Int) : AcquisitionTx :=
  ignoring (validateCampaignCode rawCode) fun code =>
  UserRepository.getOrCreateClient telegramId fun userId =>
  hasCurrentPrivacy userId fun accepted =>
  if accepted then
    .lock .clients (fun clients =>
        (clients.select fun c => c.userId == userId && c.businessId == Privacy.defaultBusinessId).map Prod.fst) fun
      | [] => .done (.refused (.runtime "Business client membership is missing"))
      | (businessClientId, _) :: _ => AcquisitionService.recordTouch businessClientId code touchedAt
  else .done .ignored

end AcquisitionRuntimeService

inductive AcquisitionOp
  | recordKnownTouch (telegramId : Int) (rawCode : String) (touchedAt : Int)
  | createSource (rawCode displayName : String) (channel : Option String) (actorStaffId : Option Nat)

namespace AcquisitionOp

def tx : AcquisitionOp → AcquisitionTx
  | recordKnownTouch telegramId rawCode touchedAt =>
    AcquisitionRuntimeService.recordKnownTouch telegramId rawCode touchedAt
  | createSource rawCode displayName channel actorStaffId =>
    AcquisitionService.createSource rawCode displayName channel actorStaffId

end AcquisitionOp

abbrev AcquisitionWorld : Type := World AcquisitionTable.Row Empty AcquisitionAnswer AcquisitionOp

end SalonBooking.Acquisition
