import SalonBooking.Privacy.Requests

/-!
# Consents

`services/consent_service.py` with `VersionedConsentService`. Every operation is one transaction that begins with the
upsert of the user's row and so holds its lock until it commits.
-/

namespace SalonBooking.Privacy

open Lib

/-- `marketing_consent_policy`; the digest is that of `MARKETING_CONSENT_TEXT`. -/
def marketingConsentPolicy : PolicyDocument where
  version := "marketing-consent-2026-08"
  url := none
  sha256 := some "f15faf4a4def438884b588fc716ef7d85400b35684ea335db12978ff0c93569d"
  identified := rfl
  digest := rfl

/-- `_marketing_value`. -/
def marketingValue (profile : UserProfile) : Option Bool :=
  if profile.marketingConsentAt ≠ none then some true
  else if profile.marketingUnsubscribedAt ≠ none then some false
  else none

namespace VersionedConsentService

/-- `_same_decision`. -/
def sameDecision (latest : ConsentHistory) (accepted : Bool) (policy : PolicyDocument) : Bool :=
  latest.newValue == accepted && policy.matches latest.policyVersion latest.policyUrl latest.policyHash

/-- The row that `record` appends. -/
def entry (userId : Nat) (consentType : ConsentType) (accepted : Bool) (source : ConsentSource) (policy : PolicyDocument)
    (latest : Option ConsentHistory) (now : Int) : ConsentHistory :=
  { userId, consentType, previousValue := latest.map (·.newValue), newValue := accepted, source
    policyVersion := policy.version, policyUrl := policy.url, policyHash := policy.sha256
    revokedAt := if accepted then none else some now, createdAt := now }

/-- `record`. -/
def record (userId : Nat) (consentType : ConsentType) (accepted : Bool) (source : ConsentSource) (policy : PolicyDocument)
    (now : Int) (db : PrivacyDb) : PrivacyCheck PrivacyDb := do
  require (db.getClientByUser userId ≠ none) (.entityNotFound "business client not found")
  let latest := db.latestConsent userId consentType
  if latest.any fun c => sameDecision c accepted policy then
    return db
  return db.addConsent (entry userId consentType accepted source policy latest now)

end VersionedConsentService

namespace ConsentService

/-- `_is_current_decision`. -/
def isCurrentDecision (db : PrivacyDb) (userId : Nat) (consentType : ConsentType) (policy : Option PolicyDocument)
    (accepted : Bool) : Bool :=
  policy.any fun policy => (db.latestConsent userId consentType).any fun latest =>
    policy.matches latest.policyVersion latest.policyUrl latest.policyHash && latest.newValue == accepted

/-- `set_marketing_consent` of the user repository. -/
def setMarketingConsent (userId : Nat) (accepted : Bool) (changedAt : Int) (db : PrivacyDb) : PrivacyDb :=
  db.setProfile userId
    { db.profiles userId with
      marketingConsentAt := if accepted then some changedAt else none
      marketingUnsubscribedAt := if accepted then none else some changedAt }

/-- `accept_privacy`. -/
def acceptPrivacy (telegramId : Int) (now : Int) (db : PrivacyDb) : PrivacyCheck PrivacyDb := do
  let (userId, db) := db.getOrCreateClient defaultBusinessId telegramId
  let policy ← orRaise db.privacyPolicy
    (.privacyConsentRequired "Политика конфиденциальности не настроена владельцем бизнеса.")
  if isCurrentDecision db userId .privacy (some policy) true = true then
    return db
  VersionedConsentService.record userId .privacy true .onboarding policy now
    (db.setProfile userId { db.profiles userId with privacyConsentAt := some now })

/-- `set_marketing`. -/
def setMarketing (telegramId : Int) (accepted : Bool) (source : ConsentSource) (now : Int) (db : PrivacyDb) :
    PrivacyCheck PrivacyDb := do
  let (userId, db) := db.getOrCreateClient defaultBusinessId telegramId
  require (isCurrentDecision db userId .privacy db.privacyPolicy true = true)
    (.privacyConsentRequired
      "Согласие на рассылку запрашивается после актуального согласия на обработку персональных данных.")
  if marketingValue (db.profiles userId) = some accepted ∧
      isCurrentDecision db userId .marketing (some marketingConsentPolicy) accepted = true then
    return db
  VersionedConsentService.record userId .marketing accepted source marketingConsentPolicy now
    (setMarketingConsent userId accepted now db)

/-- `set_repeat_booking`. -/
def setRepeatBooking (telegramId : Int) (accepted : Bool) (now : Int) (db : PrivacyDb) : PrivacyCheck PrivacyDb := do
  let (userId, db) := db.getOrCreateClient defaultBusinessId telegramId
  require (isCurrentDecision db userId .privacy db.privacyPolicy true = true)
    (.privacyConsentRequired "Сначала примите актуальные условия обработки данных через /start.")
  let previous := (db.profiles userId).repeatBookingOptOutAt.isNone
  if previous = accepted then
    return db
  return (db.setProfile userId
      { db.profiles userId with repeatBookingOptOutAt := if accepted then none else some now }).addConsent
    { userId, consentType := .repeatBooking, previousValue := some previous, newValue := accepted
      source := .notificationSettings, policyVersion := "legacy-unversioned", policyUrl := none, policyHash := none
      revokedAt := none, createdAt := now }

/-- `request_deletion`. -/
def requestDeletion (telegramId : Int) (now : Int) (db : PrivacyDb) : PrivacyCheck PrivacyDb := do
  let (userId, db) := db.getOrCreateClient defaultBusinessId telegramId
  let db := if marketingValue (db.profiles userId) = some false then db else setMarketingConsent userId false now db
  let (businessClientId, _) ← orRaise (db.getClientByUser userId) (.runtime "Business client membership is missing")
  DataDeletionService.request businessClientId (some marketingConsentPolicy) now db

end ConsentService

/-! ### What consents leave alone -/

open ConsentService DataDeletionService

variable {db db' : PrivacyDb} {userId : Nat} {telegramId now : Int} {accepted : Bool} {source : ConsentSource}
variable {policy : PolicyDocument}

/-- Only profiles and consents change. -/
structure OnlyConsents (db db' : PrivacyDb) : Prop where
  staff : db'.staff = db.staff
  clients : db'.clients = db.clients
  requests : db'.requests = db.requests
  events : db'.events = db.events

namespace OnlyConsents

theorem refl : OnlyConsents db db := ⟨rfl, rfl, rfl, rfl⟩

theorem trans {db'' : PrivacyDb} (h : OnlyConsents db db') (h' : OnlyConsents db' db'') : OnlyConsents db db'' :=
  ⟨h'.staff.trans h.staff, h'.clients.trans h.clients, h'.requests.trans h.requests, h'.events.trans h.events⟩

theorem setProfile {profile : UserProfile} : OnlyConsents db (db.setProfile userId profile) := ⟨rfl, rfl, rfl, rfl⟩

theorem addConsent {entry : ConsentHistory} : OnlyConsents db (db.addConsent entry) := ⟨rfl, rfl, rfl, rfl⟩

theorem record {type : ConsentType} (h : VersionedConsentService.record userId type accepted source policy now db = .ok db') :
    OnlyConsents db db' := by
  simp only [VersionedConsentService.record, Except.bind_ok, Except.require_ok, exists_const] at h
  obtain ⟨-, h⟩ := h
  split at h
  · rw [Except.pure_ok] at h
    exact h ▸ refl
  · rw [Except.pure_ok] at h
    exact h ▸ addConsent

theorem revokeMarketing {policy : Option PolicyDocument} : OnlyConsents db (revokeMarketing userId policy now db) := by
  unfold DataDeletionService.revokeMarketing
  dsimp only
  split
  · exact refl
  · exact addConsent

theorem revokeActiveConsents : OnlyConsents db (revokeActiveConsents userId now db).2 := by
  suffices fold : ∀ (types : List ConsentType) (p : Nat × PrivacyDb),
      OnlyConsents p.2 (types.foldl (revokeActiveConsent userId now) p).2 from fold _ (0, db)
  intro types
  induction types with
  | nil => exact fun p => refl
  | cons type types ih =>
    intro p
    refine trans ?_ (ih _)
    unfold revokeActiveConsent
    split
    · exact refl
    · exact addConsent

theorem acceptPrivacy (h : acceptPrivacy telegramId now db = .ok db') :
    OnlyConsents (db.getOrCreateClient defaultBusinessId telegramId).2 db' := by
  simp only [ConsentService.acceptPrivacy, Except.bind_ok, Except.orRaise_ok] at h
  obtain ⟨policy, -, h⟩ := h
  split at h
  · rw [Except.pure_ok] at h
    exact h ▸ refl
  · exact setProfile.trans (record h)

theorem setMarketing (h : setMarketing telegramId accepted source now db = .ok db') :
    OnlyConsents (db.getOrCreateClient defaultBusinessId telegramId).2 db' := by
  simp only [ConsentService.setMarketing, Except.bind_ok, Except.require_ok, exists_const] at h
  obtain ⟨-, h⟩ := h
  split at h
  · rw [Except.pure_ok] at h
    exact h ▸ refl
  · exact setProfile.trans (record h)

theorem setRepeatBooking (h : setRepeatBooking telegramId accepted now db = .ok db') :
    OnlyConsents (db.getOrCreateClient defaultBusinessId telegramId).2 db' := by
  simp only [ConsentService.setRepeatBooking, Except.bind_ok, Except.require_ok, exists_const] at h
  obtain ⟨-, h⟩ := h
  split at h
  · rw [Except.pure_ok] at h
    exact h ▸ refl
  · rw [Except.pure_ok] at h
    exact h ▸ setProfile.trans addConsent

end OnlyConsents

theorem requestDeletion_ok (h : requestDeletion telegramId now db = .ok db') :
    ∃ withdrawn i, OnlyConsents (db.getOrCreateClient defaultBusinessId telegramId).2 withdrawn ∧
      request i (some marketingConsentPolicy) now withdrawn = .ok db' := by
  simp only [requestDeletion, Except.bind_ok, Except.orRaise_ok] at h
  obtain ⟨⟨i, client⟩, -, h⟩ := h
  refine ⟨_, i, ?_, h⟩
  split
  · exact .refl
  · exact .setProfile

end SalonBooking.Privacy
