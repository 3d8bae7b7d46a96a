import SalonBooking.Privacy.Agreement
import SalonBooking.Model.System

/-!
# The consent that a booking asks for

`_consented_client` of the booking service looks at `privacy_consent_at` only, a column that is set when a client accepts
the policy and cleared when she is anonymised. The consent itself is the newest privacy row of the history, and it is
valid for one version and digest of the policy. A policy that is published later leaves the column as it is.
-/

namespace SalonBooking.Privacy

open Lib Staff DataDeletionService PrivacyDeletionRuntimeService ConsentService

variable {db db' : PrivacyDb} {u v : Nat} {now : Int} {op : PrivacyOp} {e : ConsentHistory} {type : ConsentType}

namespace PrivacyDb

/-- `get_by_telegram_id` of the user repository: an active card that is not anonymised. -/
def getByTelegramId (db : PrivacyDb) (telegramId : Int) : Option Nat :=
  ((db.staff.userByTelegramId telegramId).map (·.1)).filter fun userId =>
    db.clients.toList.any fun r =>
      r.2.userId == userId && r.2.businessId == defaultBusinessId && r.2.isActive && r.2.anonymizedAt.isNone

/-- What the booking service reads of users and cards; `isSelfBookingBlocked` is a column that consents do not write. -/
def catalog (db : PrivacyDb) (isSelfBookingBlocked : Nat → Bool) (c : Catalog) : Catalog :=
  { c with
    userByTelegramId := db.getByTelegramId
    user := fun i => (db.staff.users.row i).map fun user =>
      { telegramId := user.telegramId
        hasActiveCard := decide (db.getByTelegramId user.telegramId = some i)
        privacyConsentAt := (db.profiles i).privacyConsentAt
        isSelfBookingBlocked := isSelfBookingBlocked i } }

/-- The column says that the user has accepted a policy. -/
def consented (db : PrivacyDb) (u : Nat) : Bool := (db.profiles u).privacyConsentAt.isSome

/-- The newest privacy row of the user grants consent to the policy in force. -/
def Current (db : PrivacyDb) (u : Nat) : Prop :=
  ∃ policy entry, db.privacyPolicy = some policy ∧ db.latestConsent u .privacy = some entry ∧ entry.newValue = true ∧
    policy.matches entry.policyVersion entry.policyUrl entry.policyHash = true

/-- Whoever has accepted a policy has accepted the one in force. -/
def InForce (db : PrivacyDb) : Prop := ∀ u, db.consented u = true → db.Current u

end PrivacyDb

/-- The operation leaves no client behind with a consent to another policy: a policy is published only when the consents
that are given are consents to it, and a client accepts it after her earlier decisions. -/
def Renews (db : PrivacyDb) (l : Int × PrivacyOp) : Prop :=
  match l.2 with
  | .publishPolicy policy => db.consents.All fun _ entry =>
      db.consented entry.userId = true → isCurrentDecision db entry.userId .privacy policy true = true
  | .acceptPrivacy telegramId =>
    let client := db.getOrCreateClient defaultBusinessId telegramId
    isCurrentDecision client.2 client.1 .privacy client.2.privacyPolicy true = false →
      ∀ entry ∈ client.2.latestConsent client.1 .privacy, entry.createdAt ≤ l.1
  | _ => True

theorem consented_setProfile {profile : UserProfile} : (db.setProfile u profile).consented v =
    if v = u then profile.privacyConsentAt.isSome else db.consented v := by
  unfold PrivacyDb.consented PrivacyDb.setProfile
  dsimp only
  split <;> rfl

theorem isCurrentDecision_iff {policy : Option PolicyDocument} : isCurrentDecision db u .privacy policy true = true ↔
    ∃ p entry, policy = some p ∧ db.latestConsent u .privacy = some entry ∧ entry.newValue = true ∧
      p.matches entry.policyVersion entry.policyUrl entry.policyHash = true := by
  cases policy with
  | none => simp [isCurrentDecision]
  | some p =>
    cases latest : db.latestConsent u .privacy with
    | none => simp [isCurrentDecision, latest]
    | some entry => simp [isCurrentDecision, latest, and_comm]

theorem mem_of_newest {rows : List (Nat × ConsentHistory)} (h : PrivacyDb.newest rows = some e) :
    ∃ r ∈ rows, r.2 = e := by
  induction rows using List.reverseRecOn with
  | nil => cases h
  | append_singleton rows r ih =>
    rw [newest_append] at h
    split at h
    · exact ⟨r, List.mem_append_right _ List.mem_cons_self, Option.some.inj h⟩
    · obtain ⟨r', hmem, same⟩ := ih h
      exact ⟨r', List.mem_append_left _ hmem, same⟩

theorem latestConsent_row (h : db.latestConsent u type = some e) :
    ∃ k, db.consents.row k = some e ∧ e.userId = u := by
  obtain ⟨⟨k, e⟩, hmem, rfl⟩ := mem_of_newest h
  obtain ⟨row, own⟩ := Table.mem_select.mp hmem
  exact ⟨k, row, beq_iff_eq.mp (Bool.and_eq_true_iff.mp own).1⟩

/-! ### What leaves consents alone -/

/-- The column, the newest privacy rows and the policy stay as they are. -/
structure Unmoved (db db' : PrivacyDb) : Prop where
  consented : ∀ u, db'.consented u = db.consented u
  latest : ∀ u, db'.latestConsent u .privacy = db.latestConsent u .privacy
  policy : db'.privacyPolicy = db.privacyPolicy

namespace Unmoved

theorem refl : Unmoved db db := ⟨fun _ => rfl, fun _ => rfl, rfl⟩

theorem trans {db'' : PrivacyDb} (h : Unmoved db db') (h' : Unmoved db' db'') : Unmoved db db'' :=
  ⟨fun u => (h'.consented u).trans (h.consented u), fun u => (h'.latest u).trans (h.latest u),
    h'.policy.trans h.policy⟩

theorem current (h : Unmoved db db') (current : db.Current u) : db'.Current u := by
  unfold PrivacyDb.Current
  rw [h.latest, h.policy]
  exact current

theorem inForce (h : Unmoved db db') (inForce : db.InForce) : db'.InForce := by
  intro u consented
  rw [h.consented] at consented
  exact h.current (inForce u consented)

theorem getOrCreateClient (db : PrivacyDb) (businessId : Nat) (telegramId : Int) :
    Unmoved db (db.getOrCreateClient businessId telegramId).2 := by
  unfold PrivacyDb.getOrCreateClient PrivacyDb.ensureBusinessClient
  dsimp only
  split <;> exact ⟨fun _ => rfl, fun _ => rfl, rfl⟩

theorem addConsent (other : e.consentType ≠ .privacy) : Unmoved db (db.addConsent e) :=
  ⟨fun _ => rfl, fun _ => latestConsent_addConsent_of_ne (.inr other), rfl⟩

theorem setProfile {profile : UserProfile} (same : profile.privacyConsentAt = (db.profiles u).privacyConsentAt) :
    Unmoved db (db.setProfile u profile) := by
  refine ⟨fun v => ?_, fun _ => rfl, rfl⟩
  rw [consented_setProfile]
  split
  · next own =>
    rw [same, own]
    rfl
  · rfl

theorem record {accepted : Bool} {source : ConsentSource} {policy : PolicyDocument} (other : type ≠ .privacy)
    (h : VersionedConsentService.record u type accepted source policy now db = .ok db') : Unmoved db db' := by
  rcases record_ok h with ⟨-, rfl⟩ | rfl
  · exact .refl
  · exact addConsent other

theorem setMarketingConsent {accepted : Bool} : Unmoved db (setMarketingConsent u accepted now db) :=
  setProfile rfl

theorem transition {i : Nat} {args : Transition} (h : transition i args now db = .ok db') : Unmoved db db' := by
  obtain ⟨r, -, -, -, rfl⟩ := transition_ok.mp h
  exact ⟨fun _ => rfl, fun _ => rfl, rfl⟩

theorem revokeMarketing {policy : Option PolicyDocument} : Unmoved db (revokeMarketing u policy now db) := by
  unfold DataDeletionService.revokeMarketing
  dsimp only
  split
  · exact .refl
  · exact addConsent nofun

theorem request {i : Nat} {policy : Option PolicyDocument} (h : request i policy now db = .ok db') : Unmoved db db' := by
  simp only [DataDeletionService.request, Except.bind_ok, Except.orRaise_ok] at h
  obtain ⟨client, -, h⟩ := h
  split at h
  · rw [Except.pure_ok] at h
    exact h ▸ .refl
  · rw [Except.pure_ok] at h
    subst h
    refine .trans ?_ revokeMarketing
    exact ⟨fun _ => rfl, fun _ => rfl, rfl⟩

theorem setMarketing {telegramId : Int} {accepted : Bool} {source : ConsentSource}
    (h : setMarketing telegramId accepted source now db = .ok db') : Unmoved db db' := by
  simp only [ConsentService.setMarketing, Except.bind_ok, Except.require_ok, exists_const] at h
  obtain ⟨-, h⟩ := h
  refine (getOrCreateClient db defaultBusinessId telegramId).trans ?_
  split at h
  · rw [Except.pure_ok] at h
    exact h ▸ .refl
  · refine setMarketingConsent.trans (record ?_ h)
    simp

theorem setRepeatBooking {telegramId : Int} {accepted : Bool}
    (h : setRepeatBooking telegramId accepted now db = .ok db') : Unmoved db db' := by
  simp only [ConsentService.setRepeatBooking, Except.bind_ok, Except.require_ok, exists_const] at h
  obtain ⟨-, h⟩ := h
  refine (getOrCreateClient db defaultBusinessId telegramId).trans ?_
  split at h
  · rw [Except.pure_ok] at h
    exact h ▸ .refl
  · rw [Except.pure_ok] at h
    subst h
    refine .trans (setProfile ?_) (addConsent ?_)
    · rfl
    · simp

theorem requestDeletion {telegramId : Int} (h : requestDeletion telegramId now db = .ok db') : Unmoved db db' := by
  simp only [ConsentService.requestDeletion, Except.bind_ok, Except.orRaise_ok] at h
  obtain ⟨⟨i, client⟩, -, h⟩ := h
  refine (getOrCreateClient db defaultBusinessId telegramId).trans (.trans ?_ (request h))
  split
  · exact .refl
  · exact setMarketingConsent

theorem claimApproved {liveActor : Staff.StaffContext} {i : Nat} {lockId : String} {out : Option Outcome}
    (h : claimApproved liveActor i lockId now db = .ok (out, db')) : Unmoved db db' := by
  obtain ⟨r, c, args, -, -, -, moved, -⟩ := claimApproved_ok h
  exact transition moved

theorem claimAnonymization {liveActor : Staff.StaffContext} {i : Nat} {lockId : String} {out : Option Outcome}
    (h : claimAnonymization liveActor i lockId now db = .ok (out, db')) : Unmoved db db' := by
  obtain ⟨r, -, rfl | ⟨-, claim⟩ | ⟨-, -, failed, args, -, fails, rest⟩⟩ := claimAnonymization_ok h
  · exact .refl
  · exact claimApproved claim
  · refine (transition fails).trans ?_
    rcases rest with rfl | ⟨approved, args', -, approves, claim⟩
    · exact .refl
    · exact (transition approves).trans (claimApproved claim)

end Unmoved

/-! ### Accepting, publishing, anonymising -/

theorem inForce_acceptPrivacy {telegramId : Int} (inForce : db.InForce)
    (renews : Renews db (now, .acceptPrivacy telegramId)) (h : acceptPrivacy telegramId now db = .ok db') :
    db'.InForce := by
  simp only [acceptPrivacy, Except.bind_ok, Except.orRaise_ok] at h
  obtain ⟨policy, published, h⟩ := h
  obtain ⟨⟨u, created⟩, hclient⟩ : ∃ client, db.getOrCreateClient defaultBusinessId telegramId = client := ⟨_, rfl⟩
  have before : created.InForce := by
    have client := Unmoved.getOrCreateClient db defaultBusinessId telegramId
    rw [hclient] at client
    exact client.inForce inForce
  unfold Renews at renews
  simp only [hclient] at published h renews
  rw [published] at renews
  split at h
  · rw [Except.pure_ok] at h
    exact h ▸ before
  · next stale =>
    have recent := renews (Bool.eq_false_iff.mpr stale)
    simp only [VersionedConsentService.record, Except.bind_ok, Except.require_ok, exists_const] at h
    obtain ⟨-, h⟩ := h
    split at h
    · next decided =>
      obtain ⟨entry, latest, same⟩ := (Option.any_eq_true _ _).mp decided
      obtain ⟨granted, matching⟩ := Bool.and_eq_true_iff.mp same
      exact absurd (isCurrentDecision_iff.mpr ⟨policy, entry, rfl, latest, beq_iff_eq.mp granted, matching⟩) stale
    · rw [Except.pure_ok] at h
      subst h
      intro v consented
      by_cases own : v = u
      · subst own
        refine ⟨policy, VersionedConsentService.entry v .privacy true .onboarding policy
          (created.latestConsent v .privacy) now, published, ?_, rfl, policy.matches_self⟩
        rw [latestConsent_addConsent]
        refine if_pos ⟨rfl, rfl, ?_⟩
        rw [Option.all_eq_true]
        exact fun entry hentry => decide_eq_true (recent entry hentry)
      · have asked : created.consented v = true := (consented_setProfile.trans (if_neg own)).symm.trans consented
        obtain ⟨p, entry, policy', latest, rest⟩ := before v asked
        refine ⟨p, entry, policy', ?_, rest⟩
        rw [latestConsent_addConsent_of_ne (.inl (Ne.symm own))]
        exact latest

theorem inForce_publishPolicy {policy : Option PolicyDocument} (inForce : db.InForce)
    (renews : Renews db (now, .publishPolicy policy)) : PrivacyDb.InForce { db with privacyPolicy := policy } := by
  intro u consented
  obtain ⟨-, entry, -, latest, -⟩ := inForce u consented
  obtain ⟨k, row, of⟩ := latestConsent_row latest
  obtain ⟨p, entry', hpolicy, rest⟩ := isCurrentDecision_iff.mp (of ▸ renews k entry row (of.symm ▸ consented))
  exact ⟨p, entry', hpolicy, rest⟩

theorem revokeActiveConsents_others :
    (revokeActiveConsents u now db).2.profiles = db.profiles ∧
      (revokeActiveConsents u now db).2.privacyPolicy = db.privacyPolicy ∧
      ∀ v, v ≠ u → ∀ type, (revokeActiveConsents u now db).2.latestConsent v type = db.latestConsent v type := by
  suffices fold : ∀ (types : List ConsentType) (p : Nat × PrivacyDb),
      (types.foldl (revokeActiveConsent u now) p).2.profiles = p.2.profiles ∧
        (types.foldl (revokeActiveConsent u now) p).2.privacyPolicy = p.2.privacyPolicy ∧
        ∀ v, v ≠ u → ∀ type, (types.foldl (revokeActiveConsent u now) p).2.latestConsent v type =
          p.2.latestConsent v type from fold _ (0, db)
  intro types
  induction types with
  | nil => exact fun p => ⟨rfl, rfl, fun _ _ _ => rfl⟩
  | cons type types ih =>
    intro p
    obtain ⟨profiles, policy, latest⟩ := ih (revokeActiveConsent u now p type)
    rw [List.foldl_cons, profiles, policy]
    rcases (@revokeActiveConsent_cases u now) p type with ⟨same, -⟩ | ⟨e, added, own, -⟩
    · rw [same] at latest ⊢
      exact ⟨rfl, rfl, latest⟩
    · rw [added] at latest ⊢
      refine ⟨rfl, rfl, fun v other type' => ?_⟩
      rw [latest v other, latestConsent_addConsent_of_ne (.inl (own ▸ other.symm))]

theorem anonymizeClientData_consents {i : Nat} (h : db.anonymizeClientData i u now = .ok db') :
    (∀ v, db'.consented v = if v = u then false else db.consented v) ∧
      (∀ v, db'.latestConsent v .privacy = db.latestConsent v .privacy) ∧ db'.privacyPolicy = db.privacyPolicy := by
  simp only [PrivacyDb.anonymizeClientData, Except.bind_ok, Except.orRaise_ok, Except.require_ok, Except.pure_ok,
    exists_const] at h
  obtain ⟨client, -, -, rfl⟩ := h
  exact ⟨fun v => consented_setProfile, fun _ => rfl, rfl⟩

theorem inForce_run {liveActor : Staff.StaffContext} {i : Nat} {lockId : String} {counts : AnonymizationMutationCounts}
    (inForce : db.InForce) (h : runClaimedAnonymization liveActor i lockId counts now db = .ok db') : db'.InForce := by
  obtain ⟨r, -, ⟨-, rfl⟩ | ⟨-, -, c, anonymized, args, -, anonymizes, -, completes⟩⟩ := runClaimedAnonymization_ok h
  · exact inForce
  · refine (Unmoved.transition completes).inForce ?_
    obtain ⟨profiles, policy, latest⟩ := @revokeActiveConsents_others db c.userId now
    obtain ⟨cleared, kept, policy'⟩ := anonymizeClientData_consents anonymizes
    intro v consented
    rw [cleared] at consented
    split at consented
    · cases consented
    · next other =>
      have asked : db.consented v = true := by
        unfold PrivacyDb.consented at consented ⊢
        rwa [profiles] at consented
      unfold PrivacyDb.Current
      rw [kept, latest v other, policy', policy]
      exact inForce v asked

/-! ### Runs -/

theorem exec_inForce (inForce : db.InForce) (renews : Renews db (now, op)) (h : db.exec now op = .ok db') :
    db'.InForce := by
  cases op with
  | staff op =>
    rw [PrivacyDb.exec, Except.ok.injEq] at h
    exact h ▸ inForce
  | getOrCreateClient businessId telegramId =>
    rw [PrivacyDb.exec, Except.ok.injEq] at h
    exact h ▸ (Unmoved.getOrCreateClient db businessId telegramId).inForce inForce
  | publishPolicy policy =>
    rw [PrivacyDb.exec, Except.ok.injEq] at h
    exact h ▸ inForce_publishPolicy inForce renews
  | acceptPrivacy telegramId => exact inForce_acceptPrivacy inForce renews h
  | setMarketing telegramId accepted source => exact (Unmoved.setMarketing h).inForce inForce
  | setRepeatBooking telegramId accepted => exact (Unmoved.setRepeatBooking h).inForce inForce
  | requestDeletion telegramId => exact (Unmoved.requestDeletion h).inForce inForce
  | startReview liveActor requestId confirmed =>
    obtain ⟨args, -, h⟩ := startReview_ok h
    exact (Unmoved.transition h).inForce inForce
  | approve liveActor requestId confirmed =>
    obtain ⟨-, args, -, h⟩ := approve_ok h
    exact (Unmoved.transition h).inForce inForce
  | reject liveActor requestId reasonCode confirmed =>
    obtain ⟨args, -, h⟩ := reject_ok h
    exact (Unmoved.transition h).inForce inForce
  | retryFailed liveActor requestId confirmed =>
    obtain ⟨-, r, -, ⟨-, rfl⟩ | ⟨-, args, -, h⟩⟩ := retryFailed_ok h
    · exact inForce
    · have moved := Unmoved.transition h
      exact Unmoved.inForce ⟨moved.consented, moved.latest, moved.policy⟩ inForce
  | claim liveActor requestId lockId =>
    obtain ⟨⟨out, claimed⟩, claims, rfl⟩ := Except.fmap_ok.mp h
    exact (Unmoved.claimAnonymization claims).inForce inForce
  | run liveActor requestId lockId counts => exact inForce_run inForce h
  | recordFailure liveActor requestId lockId =>
    obtain ⟨r, -, rfl | ⟨-, -, failed, args, r', exhausted, -, fails, -, rfl⟩⟩ := recordExecutionFailure_ok h
    · exact inForce
    · have moved := Unmoved.transition fails
      exact Unmoved.inForce ⟨moved.consented, moved.latest, moved.policy⟩ inForce

theorem step_inForce {l : Int × PrivacyOp} (inForce : db.InForce) (renews : Renews db l) : (db.step l).InForce := by
  unfold PrivacyDb.step
  cases h : db.exec l.1 l.2 with
  | error e => exact inForce
  | ok db' => exact exec_inForce inForce renews h

theorem consented_of_gate {c : Catalog} {isSelfBookingBlocked : Nat → Bool} {telegramId : Int} {allow : Bool}
    (h : BookingService.consentedClient (db.catalog isSelfBookingBlocked c) telegramId allow = .ok u) :
    db.consented u = true := by
  simp only [BookingService.consentedClient, Except.bind_ok, Except.orRaise_ok, Except.require_ok, Except.pure_ok,
    exists_const] at h
  obtain ⟨_, -, user, found, accepted, -, rfl⟩ := h
  obtain ⟨_, -, rfl⟩ := Option.map_eq_some_iff.mp found
  exact accepted

/-- In every run in which each operation renews the consents, from a state in which they are in force: whenever the gate
of the booking service lets a client pass, the newest privacy row of that client grants consent to the policy that is
then in force. -/
theorem gate_asks_current_consent (c : Catalog) (isSelfBookingBlocked : Nat → Bool) (inForce : db.InForce)
    {l : List (Int × PrivacyOp)} (renews : Guarded PrivacyDb.step Renews db l) :
    ∀ pre post, l = pre ++ post → ∀ telegramId allow u,
      BookingService.consentedClient ((run PrivacyDb.step db pre).catalog isSelfBookingBlocked c) telegramId allow =
        .ok u → (run PrivacyDb.step db pre).Current u := by
  rintro pre post rfl telegramId allow u passes
  have reached : (run PrivacyDb.step db pre).InForce := by
    have before := (guarded_append.mp renews).1
    clear passes renews
    induction pre generalizing db with
    | nil => exact inForce
    | cons x pre ih => exact ih (step_inForce inForce before.1) before.2
  exact reached u (consented_of_gate passes)

/-! ### Runs from an empty database -/

instance (db : PrivacyDb) (u : Nat) : Decidable (db.Current u) := decidable_of_iff _ isCurrentDecision_iff

instance (db : PrivacyDb) : (l : Int × PrivacyOp) → Decidable (Renews db l)
  | (_, .publishPolicy policy) =>
    inferInstanceAs (Decidable (db.consents.All fun _ entry =>
      db.consented entry.userId = true → isCurrentDecision db entry.userId .privacy policy true = true))
  | (now, .acceptPrivacy telegramId) =>
    inferInstanceAs (Decidable (_ → ∀ entry ∈
      (db.getOrCreateClient defaultBusinessId telegramId).2.latestConsent _ .privacy, entry.createdAt ≤ now))
  | (_, .staff ..) | (_, .getOrCreateClient ..) | (_, .setMarketing ..) | (_, .requestDeletion ..)
  | (_, .setRepeatBooking ..) | (_, .startReview ..) | (_, .approve ..) | (_, .reject ..) | (_, .retryFailed ..)
  | (_, .claim ..) | (_, .run ..) | (_, .recordFailure ..) => instDecidableTrue

namespace Sample

/-- A client accepts the policy, which is published again as it is, and she is anonymised later. -/
def renewed : List (Int × PrivacyOp) :=
  [(10, .acceptPrivacy 200), (20, .publishPolicy unused.privacyPolicy),
    (30, .acceptPrivacy 201), (40, .requestDeletion 200), (50, .startReview owner 1 true), (60, .approve owner 1 true),
    (70, .claim owner 1 "a"), (70, .run owner 1 "a" ⟨0, 0, 0, 0, 0, 2, 1⟩)]

/-- A client accepts the first version, and the second is published. -/
def superseded : List (Int × PrivacyOp) :=
  [(10, .acceptPrivacy 200),
    (20, .publishPolicy (some (linked "v2")))]

end Sample

theorem inForce_unused : Sample.unused.InForce := by
  intro u consented
  cases consented

/-- The gate lets a client pass who has accepted the first version when the second is in force. -/
theorem gate_passes_superseded :
    let db := run PrivacyDb.step Sample.unused Sample.superseded
    BookingService.consentedClient (db.catalog (fun _ => false) duo) 200 false = .ok 1 ∧ ¬ db.Current 1 := by
  decide +kernel

theorem gate_asks_current_consent_renewed :
    Guarded PrivacyDb.step Renews Sample.unused Sample.renewed ∧
      BookingService.consentedClient
        ((run PrivacyDb.step Sample.unused (Sample.renewed.take 4)).catalog (fun _ => false) duo) 200 false = .ok 1 ∧
      ∀ pre post, Sample.renewed = pre ++ post → ∀ telegramId allow u,
        BookingService.consentedClient
          ((run PrivacyDb.step Sample.unused pre).catalog (fun _ => false) duo) telegramId allow = .ok u →
            (run PrivacyDb.step Sample.unused pre).Current u := by
  have renews : Guarded PrivacyDb.step Renews Sample.unused Sample.renewed := by decide +kernel
  exact ⟨renews, by decide +kernel, gate_asks_current_consent duo (fun _ => false) inForce_unused renews⟩

end SalonBooking.Privacy
