import SalonBooking.Privacy.Workflow

/-!
# The marketing flag and its history

The flag of a user is `marketing_consent_at`, and the history should explain it: the newest marketing row grants consent
exactly when the flag is set, and who changes the flag appends the row that says so. Only three transactions write the
flag. Each of them looks at the newest row before it appends one, so what they do to the agreement depends on the old
flag, on an early return, and on whether the appended row really is the newest.
-/

namespace SalonBooking.Privacy

open Lib Staff DataDeletionService PrivacyDeletionRuntimeService ConsentService

variable {db db' : PrivacyDb} {u v : Nat} {now : Int} {op : PrivacyOp} {e : ConsentHistory} {type : ConsentType}

namespace PrivacyDb

def flag (db : PrivacyDb) (u : Nat) : Bool := (db.profiles u).marketingConsentAt.isSome

/-- The newest marketing row grants consent. -/
def granted (db : PrivacyDb) (u : Nat) : Bool := (db.latestConsent u .marketing).any (·.newValue)

def Agrees (db : PrivacyDb) : Prop := ∀ u, db.flag u = db.granted u

/-- A row that is appended now is the newest marketing row of the user. -/
def Recent (db : PrivacyDb) (u : Nat) (now : Int) : Prop := ∀ c ∈ db.latestConsent u .marketing, c.createdAt ≤ now

end PrivacyDb

/-- A marketing row of the user was appended. -/
def Appended (db db' : PrivacyDb) (u : Nat) (value : Bool) : Prop :=
  ∃ k c, db.consents.row k = none ∧ db'.consents.row k = some c ∧ c.userId = u ∧ c.consentType = .marketing ∧ c.newValue = value

/-- The history explains the flags after an operation, and it shows each change. -/
structure Explained (db db' : PrivacyDb) : Prop where
  agrees : db'.Agrees
  appended : ∀ u, db'.flag u ≠ db.flag u → Appended db db' u (db'.flag u)

/-- The operation keeps the history in step with the flag. -/
def Explains (db : PrivacyDb) (l : Int × PrivacyOp) : Prop :=
  match l.2 with
  | .setMarketing telegramId accepted _ =>
    let client := db.getOrCreateClient defaultBusinessId telegramId
    isCurrentDecision client.2 client.1 .privacy client.2.privacyPolicy true = true → client.2.flag client.1 ≠ accepted →
      client.2.Recent client.1 l.1
  | .requestDeletion telegramId =>
    let client := db.getOrCreateClient defaultBusinessId telegramId
    client.2.flag client.1 = true →
      client.2.Recent client.1 l.1 ∧ ∀ c ∈ client.2.getClientByUser client.1, client.2.openDeletionRequest c.1 = none
  | .run _ requestId lockId _ =>
    ∀ r ∈ db.requests.row requestId, r.status = .processing → r.lockedBy = some lockId →
      ∀ c ∈ db.getClient r.businessClientId, db.flag c.userId = true → db.Recent c.userId l.1
  | _ => True

/-! ### The newest row -/

theorem newest_append {rows : List (Nat × ConsentHistory)} {r : Nat × ConsentHistory} :
    PrivacyDb.newest (rows ++ [r]) =
      if (PrivacyDb.newest rows).all (·.createdAt ≤ r.2.createdAt) then some r.2 else PrivacyDb.newest rows :=
  List.foldl_append

theorem latestConsent_addConsent :
    (db.addConsent e).latestConsent u type =
      if e.userId = u ∧ e.consentType = type ∧ (db.latestConsent u type).all (·.createdAt ≤ e.createdAt) = true then some e
      else db.latestConsent u type := by
  show PrivacyDb.newest ((db.consents.insert e).select fun c => c.userId == u && c.consentType == type) = _
  rw [Table.select_insert]
  by_cases of : e.userId = u ∧ e.consentType = type
  · rw [if_pos (by rw [of.1, of.2]; simp), newest_append]
    show (if (db.latestConsent u type).all (·.createdAt ≤ e.createdAt) = true then some e else db.latestConsent u type) = _
    by_cases later : (db.latestConsent u type).all (·.createdAt ≤ e.createdAt) = true
    · rw [if_pos later, if_pos ⟨of.1, of.2, later⟩]
    · rw [if_neg later, if_neg fun h => later h.2.2]
  · rw [if_neg (fun h => of (by simpa using h)), List.append_nil, if_neg fun h => of ⟨h.1, h.2.1⟩]
    rfl

theorem latestConsent_addConsent_of_ne (other : e.userId ≠ u ∨ e.consentType ≠ type) :
    (db.addConsent e).latestConsent u type = db.latestConsent u type := by
  rw [latestConsent_addConsent, if_neg]
  rintro ⟨of, same, -⟩
  rcases other with other | other
  · exact other of
  · exact other same

theorem granted_addConsent (of : e.userId = u) (marketing : e.consentType = .marketing) (recent : db.Recent u e.createdAt) :
    (db.addConsent e).granted u = e.newValue := by
  unfold PrivacyDb.granted
  have newest : (db.latestConsent u .marketing).all (·.createdAt ≤ e.createdAt) = true := by
    rw [Option.all_eq_true]
    exact fun c hc => decide_eq_true (recent c hc)
  rw [latestConsent_addConsent, if_pos ⟨of, marketing, newest⟩]
  rfl

theorem granted_addConsent_same (same : e.newValue = db.granted u) : (db.addConsent e).granted u = db.granted u := by
  unfold PrivacyDb.granted at same ⊢
  rw [latestConsent_addConsent]
  split
  · exact same
  · rfl

theorem granted_addConsent_of_ne (other : e.userId ≠ u ∨ e.consentType ≠ .marketing) :
    (db.addConsent e).granted u = db.granted u := by
  unfold PrivacyDb.granted
  rw [latestConsent_addConsent_of_ne other]

theorem appended_addConsent (of : e.userId = u) (marketing : e.consentType = .marketing) :
    Appended db (db.addConsent e) u e.newValue :=
  ⟨db.consents.next, e, db.consents.bounded _ le_rfl, Table.row_insert_self, of, marketing, rfl⟩

/-! ### Transactions -/

/-- Flags and history stay as they are. -/
def Quiet (db db' : PrivacyDb) : Prop := (∀ u, db'.flag u = db.flag u) ∧ db'.consents = db.consents

namespace Quiet

theorem latestConsent (h : Quiet db db') : db'.latestConsent u type = db.latestConsent u type := by
  unfold PrivacyDb.latestConsent
  rw [h.2]

theorem granted (h : Quiet db db') : db'.granted u = db.granted u := by
  unfold PrivacyDb.granted
  rw [h.latestConsent]

theorem agrees (h : Quiet db db') (agrees : db.Agrees) : db'.Agrees := by
  intro u
  rw [h.1, h.granted]
  exact agrees u

theorem explained (h : Quiet db db') (agrees : db.Agrees) : Explained db db' :=
  ⟨h.agrees agrees, fun u changed => absurd (h.1 u) changed⟩

theorem trans {db'' : PrivacyDb} (h : Quiet db db') (h' : Quiet db' db'') : Quiet db db'' :=
  ⟨fun u => (h'.1 u).trans (h.1 u), h'.2.trans h.2⟩

end Quiet

theorem Explained.after_quiet {db'' : PrivacyDb} (quiet : Quiet db db') (h : Explained db' db'') : Explained db db'' := by
  refine ⟨h.agrees, fun u changed => ?_⟩
  rw [← quiet.1] at changed
  obtain ⟨k, c, new, rest⟩ := h.appended u changed
  exact ⟨k, c, quiet.2 ▸ new, rest⟩

theorem Explained.before_quiet {db'' : PrivacyDb} (h : Explained db db') (quiet : Quiet db' db'') : Explained db db'' := by
  refine ⟨quiet.agrees h.agrees, fun u changed => ?_⟩
  rw [quiet.1] at changed ⊢
  obtain ⟨k, c, new, row, rest⟩ := h.appended u changed
  exact ⟨k, c, new, quiet.2 ▸ row, rest⟩

theorem quiet_getOrCreateClient (db : PrivacyDb) (businessId : Nat) (telegramId : Int) :
    Quiet db (db.getOrCreateClient businessId telegramId).2 := by
  unfold PrivacyDb.getOrCreateClient PrivacyDb.ensureBusinessClient
  dsimp only
  split
  · exact ⟨fun _ => rfl, rfl⟩
  · exact ⟨fun _ => rfl, rfl⟩

theorem flag_setMarketingConsent (accepted : Bool) :
    (setMarketingConsent u accepted now db).flag v = if v = u then accepted else db.flag v := by
  show Option.isSome ((if v = u then _ else db.profiles v) : UserProfile).marketingConsentAt = _
  by_cases same : v = u
  · rw [if_pos same, if_pos same]
    cases accepted <;> rfl
  · rw [if_neg same, if_neg same]
    rfl

theorem explained_of_append {db₁ : PrivacyDb} (agrees : db.Agrees) (history : db₁.consents = db.consents)
    (flags : ∀ v, v ≠ u → db₁.flag v = db.flag v) (of : e.userId = u) (marketing : e.consentType = .marketing)
    (tells : e.newValue = db₁.flag u) (recent : db.flag u ≠ e.newValue → db.Recent u e.createdAt) :
    Explained db (db₁.addConsent e) := by
  have latest : ∀ v, db₁.latestConsent v .marketing = db.latestConsent v .marketing := by
    intro v
    unfold PrivacyDb.latestConsent
    rw [history]
  have granted : ∀ v, db₁.granted v = db.granted v := by
    intro v
    unfold PrivacyDb.granted
    rw [latest]
  refine ⟨fun v => ?_, fun v changed => ?_⟩
  · by_cases same : v = u
    · subst same
      show db₁.flag v = _
      rw [← tells]
      by_cases kept : db.flag v = e.newValue
      · rw [granted_addConsent_same (by rw [granted, ← agrees v, kept]), granted, ← agrees v, kept]
      · have recent₁ : db₁.Recent v e.createdAt := by
          unfold PrivacyDb.Recent
          rw [latest]
          exact recent kept
        rw [granted_addConsent of marketing recent₁]
    · show db₁.flag v = _
      rw [granted_addConsent_of_ne (.inl fun h => same (h.symm.trans of)), granted, flags v same]
      exact agrees v
  · have same : v = u := by
      by_contra other
      exact changed (flags v other)
    subst same
    show Appended db _ v (db₁.flag v)
    rw [← tells]
    obtain ⟨k, c, new, rest⟩ := (@appended_addConsent db₁) of marketing
    exact ⟨k, c, history ▸ new, rest⟩

theorem record_ok {accepted : Bool} {source : ConsentSource} {policy : PolicyDocument}
    (h : VersionedConsentService.record u type accepted source policy now db = .ok db') :
    ((∃ c, db.latestConsent u type = some c ∧ c.newValue = accepted) ∧ db' = db) ∨
      db' = db.addConsent (VersionedConsentService.entry u type accepted source policy (db.latestConsent u type) now) := by
  simp only [VersionedConsentService.record, Except.bind_ok, Except.require_ok, exists_const] at h
  obtain ⟨-, h⟩ := h
  split at h
  · next decided =>
    rw [Except.pure_ok] at h
    obtain ⟨c, latest, same⟩ := (Option.any_eq_true _ _).mp decided
    exact .inl ⟨⟨c, latest, beq_iff_eq.mp (Bool.and_eq_true_iff.mp same).1⟩, h.symm⟩
  · rw [Except.pure_ok] at h
    exact .inr h.symm

theorem explained_addConsent_of_ne (agrees : db.Agrees) (other : e.consentType ≠ .marketing) :
    Explained db (db.addConsent e) := by
  refine ⟨fun u => ?_, fun u changed => absurd rfl changed⟩
  rw [granted_addConsent_of_ne (.inr other)]
  exact agrees u

theorem explained_record_of_ne {accepted : Bool} {source : ConsentSource} {policy : PolicyDocument} (agrees : db.Agrees)
    (other : type ≠ .marketing) (h : VersionedConsentService.record u type accepted source policy now db = .ok db') :
    Explained db db' := by
  rcases record_ok h with ⟨-, rfl⟩ | rfl
  · exact Quiet.explained ⟨fun _ => rfl, rfl⟩ agrees
  · exact explained_addConsent_of_ne agrees other

theorem explained_decision {accepted : Bool} {source : ConsentSource} {policy : PolicyDocument} (agrees : db.Agrees)
    (recent : db.flag u ≠ accepted → db.Recent u now)
    (h : VersionedConsentService.record u .marketing accepted source policy now (setMarketingConsent u accepted now db) =
      .ok db') : Explained db db' := by
  have flags := fun v => (@flag_setMarketingConsent db u v now) accepted
  have others : ∀ v, v ≠ u → (setMarketingConsent u accepted now db).flag v = db.flag v := fun v other => by
    rw [flags, if_neg other]
  rcases record_ok h with ⟨⟨c, latest, same⟩, rfl⟩ | rfl
  · have granted : db.granted u = accepted := by
      unfold PrivacyDb.granted
      rw [show db.latestConsent u .marketing = some c from latest]
      exact same
    have kept : ∀ v, (setMarketingConsent u accepted now db).flag v = db.flag v := by
      intro v
      by_cases own : v = u
      · rw [own, flags, if_pos rfl, agrees u, granted]
      · exact others v own
    refine ⟨fun v => ?_, fun v changed => absurd (kept v) changed⟩
    rw [kept]
    exact agrees v
  · refine explained_of_append agrees rfl others rfl rfl ?_ recent
    rw [flags, if_pos rfl]
    rfl

theorem explained_revokeMarketing {policy : Option PolicyDocument} {db₁ : PrivacyDb} (agrees : db.Agrees)
    (history : db₁.consents = db.consents) (others : ∀ v, v ≠ u → db₁.flag v = db.flag v) (off : db₁.flag u = false)
    (recent : db.flag u = true → db.Recent u now) : Explained db (revokeMarketing u policy now db₁) := by
  have latest : db₁.latestConsent u .marketing = db.latestConsent u .marketing := by
    unfold PrivacyDb.latestConsent
    rw [history]
  unfold revokeMarketing
  dsimp only
  split
  · next refused =>
    have granted : db.granted u = false := by
      unfold PrivacyDb.granted
      rw [latest] at refused
      obtain ⟨c, found, no⟩ := (Option.any_eq_true _ _).mp refused
      rw [found]
      exact Bool.not_eq_true' _ ▸ no
    have kept : ∀ v, db₁.flag v = db.flag v := by
      intro v
      by_cases own : v = u
      · rw [own, off, agrees u, granted]
      · exact others v own
    refine ⟨fun v => ?_, fun v changed => absurd (kept v) changed⟩
    rw [kept, agrees v]
    unfold PrivacyDb.granted PrivacyDb.latestConsent
    rw [history]
  · refine explained_of_append agrees history others rfl rfl off.symm fun changed => recent ?_
    exact Bool.not_eq_false _ ▸ changed

theorem quiet_setProfile {profile : UserProfile} (same : profile.marketingConsentAt = (db.profiles u).marketingConsentAt) :
    Quiet db (db.setProfile u profile) := by
  refine ⟨fun v => ?_, rfl⟩
  show Option.isSome ((if v = u then profile else db.profiles v) : UserProfile).marketingConsentAt = _
  by_cases own : v = u
  · rw [if_pos own, same, own]
    rfl
  · rw [if_neg own]
    rfl

theorem explained_acceptPrivacy {telegramId : Int} (agrees : db.Agrees)
    (h : acceptPrivacy telegramId now db = .ok db') : Explained db db' := by
  simp only [acceptPrivacy, Except.bind_ok, Except.orRaise_ok] at h
  obtain ⟨policy, -, h⟩ := h
  have client := quiet_getOrCreateClient db defaultBusinessId telegramId
  split at h
  · rw [Except.pure_ok] at h
    subst h
    exact client.explained agrees
  · refine .after_quiet client (.after_quiet (quiet_setProfile ?_) (explained_record_of_ne ?_ ?_ h))
    · rfl
    · refine (quiet_setProfile ?_).agrees (client.agrees agrees)
      rfl
    · exact nofun

theorem explained_setRepeatBooking {telegramId : Int} {accepted : Bool} (agrees : db.Agrees)
    (h : setRepeatBooking telegramId accepted now db = .ok db') : Explained db db' := by
  simp only [setRepeatBooking, Except.bind_ok, Except.require_ok, exists_const] at h
  obtain ⟨-, h⟩ := h
  have client := quiet_getOrCreateClient db defaultBusinessId telegramId
  split at h
  · rw [Except.pure_ok] at h
    subst h
    exact client.explained agrees
  · rw [Except.pure_ok] at h
    subst h
    refine .after_quiet client (.after_quiet (quiet_setProfile ?_) (explained_addConsent_of_ne ?_ ?_))
    · rfl
    · refine (quiet_setProfile ?_).agrees (client.agrees agrees)
      rfl
    · simp

theorem explained_setMarketing {telegramId : Int} {accepted : Bool} {source : ConsentSource} (agrees : db.Agrees)
    (explains : Explains db (now, .setMarketing telegramId accepted source))
    (h : setMarketing telegramId accepted source now db = .ok db') : Explained db db' := by
  simp only [setMarketing, Except.bind_ok, Except.require_ok, exists_const] at h
  obtain ⟨current, h⟩ := h
  have client := quiet_getOrCreateClient db defaultBusinessId telegramId
  refine .after_quiet client ?_
  split at h
  · rw [Except.pure_ok] at h
    subst h
    exact Quiet.explained ⟨fun _ => rfl, rfl⟩ (client.agrees agrees)
  · exact explained_decision (client.agrees agrees) (explains current) h

theorem getClientByUser_row {c : Nat × BusinessClient} (h : db.getClientByUser u = some c) :
    db.clients.row c.1 = some c.2 ∧ c.2.userId = u := by
  obtain ⟨row, own⟩ := Table.mem_select.mp (List.mem_of_mem_head? h)
  exact ⟨row, beq_iff_eq.mp (Bool.and_eq_true_iff.mp own).1⟩

theorem getClient_row {i : Nat} {c : BusinessClient} (h : db.getClient i = some c) : db.clients.row i = some c :=
  (Option.filter_eq_some_iff.mp h).1

theorem explained_request {clientId : Nat} {client : BusinessClient} {policy : Option PolicyDocument} {db₁ : PrivacyDb}
    (agrees : db.Agrees) (found : db₁.clients.row clientId = some client) (own : client.userId = u)
    (history : db₁.consents = db.consents) (others : ∀ v, v ≠ u → db₁.flag v = db.flag v) (off : db₁.flag u = false)
    (explains : db.flag u = true → db.Recent u now ∧ db₁.openDeletionRequest clientId = none)
    (h : request clientId policy now db₁ = .ok db') : Explained db db' := by
  simp only [request, Except.bind_ok, Except.orRaise_ok] at h
  obtain ⟨client', found', h⟩ := h
  obtain rfl : client = client' := Option.some.inj (found.symm.trans (getClient_row found'))
  split at h
  · next open_ =>
    rw [Except.pure_ok] at h
    subst h
    refine Quiet.explained ⟨fun v => ?_, history⟩ agrees
    by_cases same : v = u
    · subst same
      rw [off]
      by_contra on
      exact open_ (explains (Bool.eq_true_of_not_eq_false fun no => on no.symm)).2
    · exact others v same
  · rw [Except.pure_ok] at h
    subst h
    rw [own]
    exact explained_revokeMarketing agrees history others off fun on => (explains on).1

theorem explained_requestDeletion {telegramId : Int} (agrees : db.Agrees)
    (explains : Explains db (now, .requestDeletion telegramId)) (h : requestDeletion telegramId now db = .ok db') :
    Explained db db' := by
  simp only [requestDeletion, Except.bind_ok, Except.orRaise_ok] at h
  obtain ⟨⟨clientId, client⟩, found, h⟩ := h
  have created := quiet_getOrCreateClient db defaultBusinessId telegramId
  obtain ⟨row, own⟩ := getClientByUser_row found
  refine .after_quiet created (explained_request (created.agrees agrees) row own ?_ ?_ ?_ ?_ h)
  · split
    · rfl
    · rfl
  · intro v other
    split
    · rfl
    · rw [flag_setMarketingConsent, if_neg other]
  · split
    · next refused =>
      unfold marketingValue at refused
      split at refused
      · cases refused
      · next off =>
        rw [not_not] at off
        unfold PrivacyDb.flag
        rw [off]
        rfl
    · rw [flag_setMarketingConsent, if_pos rfl]
  · intro on
    obtain ⟨recent, closed⟩ := explains on
    have stored : (db.getOrCreateClient defaultBusinessId telegramId).2.getClientByUser
        (db.getOrCreateClient defaultBusinessId telegramId).1 = some (clientId, client) := by
      split at found
      · exact found
      · exact found
    refine ⟨recent, ?_⟩
    split
    · exact closed _ stored
    · exact closed _ stored

/-! ### Anonymisation -/

def Extends (db db' : PrivacyDb) : Prop :=
  ∀ k, (db'.consents.row k = none → db.consents.row k = none) ∧ ∀ c, db.consents.row k = some c → db'.consents.row k = some c

theorem extends_refl : Extends db db := fun _ => ⟨id, fun _ => id⟩

theorem extends_addConsent : Extends db (db.addConsent e) := by
  intro k
  refine ⟨fun none => ?_, fun c => Table.row_insert_of_some⟩
  cases row : db.consents.row k with
  | none => rfl
  | some c =>
    rw [show (db.addConsent e).consents.row k = some c from Table.row_insert_of_some row] at none
    cases none

theorem Appended.between {a b c d : PrivacyDb} {value : Bool} (h : Appended b c u value) (before : Extends a b)
    (after : Extends c d) : Appended a d u value := by
  obtain ⟨k, e, new, row, rest⟩ := h
  exact ⟨k, e, (before k).1 new, (after k).2 e row, rest⟩

/-- A turn of the loop leaves consent alone that is not granted, and appends a revocation to the rest. -/
theorem revokeActiveConsent_cases (p : Nat × PrivacyDb) (type : ConsentType) :
    (revokeActiveConsent u now p type).2 = p.2 ∧ (p.2.latestConsent u type).any (·.newValue) = false ∨
      ∃ e, (revokeActiveConsent u now p type).2 = p.2.addConsent e ∧ e.userId = u ∧ e.consentType = type ∧
        e.newValue = false ∧ e.createdAt = now := by
  unfold revokeActiveConsent
  cases active : (p.2.latestConsent u type).filter (·.newValue) with
  | none =>
    refine .inl ⟨rfl, ?_⟩
    rw [Option.filter_eq_none_iff] at active
    rw [Bool.eq_false_iff]
    intro granted
    obtain ⟨c, latest, yes⟩ := (Option.any_eq_true _ _).mp granted
    exact active c latest yes
  | some latest => exact .inr ⟨_, rfl, rfl, rfl, rfl, rfl⟩

theorem revokeActiveConsent_other {p : Nat × PrivacyDb} (other : type ≠ .marketing) :
    Extends p.2 (revokeActiveConsent u now p type).2 ∧
      (revokeActiveConsent u now p type).2.profiles = p.2.profiles ∧
      ∀ v, (revokeActiveConsent u now p type).2.latestConsent v .marketing = p.2.latestConsent v .marketing := by
  rcases (@revokeActiveConsent_cases u now) p type with ⟨same, -⟩ | ⟨e, added, -, of, -⟩
  · rw [same]
    exact ⟨extends_refl, rfl, fun _ => rfl⟩
  · rw [added]
    exact ⟨extends_addConsent, rfl, fun v => latestConsent_addConsent_of_ne (.inr (of ▸ other))⟩

theorem revokeActiveConsent_marketing {p : Nat × PrivacyDb} (recent : p.2.granted u = true → p.2.Recent u now) :
    Extends p.2 (revokeActiveConsent u now p .marketing).2 ∧
      (revokeActiveConsent u now p .marketing).2.profiles = p.2.profiles ∧
      (∀ v, (revokeActiveConsent u now p .marketing).2.granted v = if v = u then false else p.2.granted v) ∧
      (p.2.granted u = true → Appended p.2 (revokeActiveConsent u now p .marketing).2 u false) := by
  rcases (@revokeActiveConsent_cases u now) p .marketing with ⟨same, refused⟩ | ⟨e, added, own, of, no, at_⟩
  · rw [same]
    refine ⟨extends_refl, rfl, fun v => ?_, fun granted => ?_⟩
    · by_cases hv : v = u
      · rw [if_pos hv, hv]
        exact refused
      · rw [if_neg hv]
    · rw [show p.2.granted u = false from refused] at granted
      cases granted
  · rw [added]
    refine ⟨extends_addConsent, rfl, fun v => ?_, fun granted => no ▸ appended_addConsent own of⟩
    by_cases hv : v = u
    · rw [if_pos hv, hv]
      by_cases granted : p.2.granted u = true
      · rw [granted_addConsent own of (at_ ▸ recent granted), no]
      · rw [Bool.not_eq_true] at granted
        rw [granted_addConsent_same (no.trans granted.symm), granted]
    · rw [if_neg hv, granted_addConsent_of_ne (.inl (own ▸ Ne.symm hv))]

theorem revokeActiveConsents_marketing (recent : db.granted u = true → db.Recent u now) :
    (revokeActiveConsents u now db).2.profiles = db.profiles ∧
      (∀ v, (revokeActiveConsents u now db).2.granted v = if v = u then false else db.granted v) ∧
      (db.granted u = true → Appended db (revokeActiveConsents u now db).2 u false) := by
  obtain ⟨first, hfirst⟩ : ∃ p, revokeActiveConsent u now (0, db) .privacy = p := ⟨_, rfl⟩
  obtain ⟨second, hsecond⟩ : ∃ p, revokeActiveConsent u now first .marketing = p := ⟨_, rfl⟩
  have turns : revokeActiveConsents u now db = revokeActiveConsent u now second .repeatBooking := by
    rw [← hsecond, ← hfirst]
    rfl
  rw [turns]
  obtain ⟨before, profiles₁, latest₁⟩ := (@revokeActiveConsent_other u now .privacy (0, db)) nofun
  obtain ⟨after, profiles₃, latest₃⟩ :=
    (@revokeActiveConsent_other u now .repeatBooking second) nofun
  rw [hfirst] at before profiles₁ latest₁
  have granted₁ : ∀ v, first.2.granted v = db.granted v := fun v => congrArg (Option.any _) (latest₁ v)
  have recent₁ : first.2.granted u = true → first.2.Recent u now := by
    rw [granted₁]
    intro granted
    unfold PrivacyDb.Recent
    rw [show first.2.latestConsent u .marketing = db.latestConsent u .marketing from latest₁ u]
    exact recent granted
  obtain ⟨-, profiles₂, granted₂, appended⟩ := revokeActiveConsent_marketing recent₁
  rw [hsecond] at profiles₂ granted₂ appended
  refine ⟨profiles₃.trans (profiles₂.trans profiles₁), fun v => ?_, fun granted => ?_⟩
  · rw [show (revokeActiveConsent u now second .repeatBooking).2.granted v = second.2.granted v from
      congrArg (Option.any _) (latest₃ v), granted₂, granted₁]
  · exact (appended (granted₁ u ▸ granted)).between before after

theorem anonymizeClientData_ok {clientId : Nat} (h : db.anonymizeClientData clientId u now = .ok db') :
    (∀ v, db'.flag v = if v = u then false else db.flag v) ∧ db'.consents = db.consents := by
  simp only [PrivacyDb.anonymizeClientData, Except.bind_ok, Except.orRaise_ok, Except.require_ok, Except.pure_ok,
    exists_const] at h
  obtain ⟨client, -, -, rfl⟩ := h
  refine ⟨fun v => ?_, rfl⟩
  show Option.isSome ((if v = u then _ else db.profiles v) : UserProfile).marketingConsentAt = _
  by_cases own : v = u
  · rw [if_pos own, if_pos own]
    rfl
  · rw [if_neg own, if_neg own]
    rfl

theorem quiet_transition {i : Nat} {args : Transition} (h : transition i args now db = .ok db') : Quiet db db' := by
  obtain ⟨r, -, -, -, rfl⟩ := transition_ok.mp h
  exact ⟨fun _ => rfl, rfl⟩

theorem explained_anonymize {clientId : Nat} (agrees : db.Agrees) (recent : db.flag u = true → db.Recent u now)
    (h : (revokeActiveConsents u now db).2.anonymizeClientData clientId u now = .ok db') : Explained db db' := by
  obtain ⟨profiles, granted, appended⟩ := (@revokeActiveConsents_marketing _ u now) (agrees u ▸ recent)
  obtain ⟨flags, history⟩ := anonymizeClientData_ok h
  have flags : ∀ v, db'.flag v = if v = u then false else db.flag v := by
    intro v
    rw [flags]
    unfold PrivacyDb.flag
    rw [profiles]
  refine ⟨fun v => ?_, fun v changed => ?_⟩
  · have same : db'.granted v = (revokeActiveConsents u now db).2.granted v := by
      unfold PrivacyDb.granted PrivacyDb.latestConsent
      rw [history]
    rw [flags, same, granted, agrees v]
  · rw [flags] at changed ⊢
    by_cases own : v = u
    · subst own
      rw [if_pos rfl] at changed ⊢
      have on : db.granted v = true := agrees v ▸ Bool.eq_true_of_not_eq_false fun no => changed no.symm
      obtain ⟨k, c, new, row, rest⟩ := appended on
      exact ⟨k, c, new, history ▸ row, rest⟩
    · rw [if_neg own] at changed
      exact absurd rfl changed

theorem explained_run {liveActor : Staff.StaffContext} {i : Nat} {lockId : String} {counts : AnonymizationMutationCounts}
    (agrees : db.Agrees) (explains : Explains db (now, .run liveActor i lockId counts))
    (h : runClaimedAnonymization liveActor i lockId counts now db = .ok db') : Explained db db' := by
  obtain ⟨r, row, ⟨-, rfl⟩ | ⟨processing, owns, c, anonymized, args, client, anonymizes, -, completes⟩⟩ :=
    runClaimedAnonymization_ok h
  · exact Quiet.explained ⟨fun _ => rfl, rfl⟩ agrees
  · have recent := explains r row processing owns c client
    exact (explained_anonymize agrees recent anonymizes).before_quiet (quiet_transition completes)

/-! ### Runs -/

theorem quiet_claimApproved {liveActor : Staff.StaffContext} {i : Nat} {lockId : String} {out : Option Outcome}
    (h : claimApproved liveActor i lockId now db = .ok (out, db')) : Quiet db db' := by
  obtain ⟨r, c, args, -, -, -, moved, -⟩ := claimApproved_ok h
  exact quiet_transition moved

theorem exec_explained (agrees : db.Agrees) (explains : Explains db (now, op)) (h : db.exec now op = .ok db') :
    Explained db db' := by
  cases op with
  | staff op =>
    rw [PrivacyDb.exec, Except.ok.injEq] at h
    subst h
    exact Quiet.explained ⟨fun _ => rfl, rfl⟩ agrees
  | getOrCreateClient businessId telegramId =>
    rw [PrivacyDb.exec, Except.ok.injEq] at h
    subst h
    exact (quiet_getOrCreateClient db businessId telegramId).explained agrees
  | publishPolicy policy =>
    rw [PrivacyDb.exec, Except.ok.injEq] at h
    subst h
    exact Quiet.explained ⟨fun _ => rfl, rfl⟩ agrees
  | acceptPrivacy telegramId => exact explained_acceptPrivacy agrees h
  | setMarketing telegramId accepted source => exact explained_setMarketing agrees explains h
  | setRepeatBooking telegramId accepted => exact explained_setRepeatBooking agrees h
  | requestDeletion telegramId => exact explained_requestDeletion agrees explains h
  | startReview liveActor requestId confirmed =>
    obtain ⟨args, -, h⟩ := startReview_ok h
    exact (quiet_transition h).explained agrees
  | approve liveActor requestId confirmed =>
    obtain ⟨-, args, -, h⟩ := approve_ok h
    exact (quiet_transition h).explained agrees
  | reject liveActor requestId reasonCode confirmed =>
    obtain ⟨args, -, h⟩ := reject_ok h
    exact (quiet_transition h).explained agrees
  | retryFailed liveActor requestId confirmed =>
    obtain ⟨-, r, -, ⟨-, rfl⟩ | ⟨-, args, -, h⟩⟩ := retryFailed_ok h
    · exact Quiet.explained ⟨fun _ => rfl, rfl⟩ agrees
    · have moved := quiet_transition h
      exact Quiet.explained ⟨fun u => moved.1 u, moved.2⟩ agrees
  | claim liveActor requestId lockId =>
    obtain ⟨⟨out, claimed⟩, claims, rfl⟩ := Except.fmap_ok.mp h
    obtain ⟨r, -, rfl | ⟨-, claim⟩ | ⟨-, -, failed, args, -, fails, rest⟩⟩ := claimAnonymization_ok claims
    · exact Quiet.explained ⟨fun _ => rfl, rfl⟩ agrees
    · exact (quiet_claimApproved claim).explained agrees
    · refine Quiet.explained ((quiet_transition fails).trans ?_) agrees
      rcases rest with rfl | ⟨approved, args', -, approves, claim⟩
      · exact ⟨fun _ => rfl, rfl⟩
      · exact (quiet_transition approves).trans (quiet_claimApproved claim)
  | run liveActor requestId lockId counts => exact explained_run agrees explains h
  | recordFailure liveActor requestId lockId =>
    obtain ⟨r, -, rfl | ⟨-, -, failed, args, r', exhausted, -, fails, -, rfl⟩⟩ := recordExecutionFailure_ok h
    · exact Quiet.explained ⟨fun _ => rfl, rfl⟩ agrees
    · have moved := quiet_transition fails
      exact Quiet.explained ⟨fun u => moved.1 u, moved.2⟩ agrees

theorem step_explained {l : Int × PrivacyOp} (agrees : db.Agrees) (explains : Explains db l) : Explained db (db.step l) := by
  unfold PrivacyDb.step
  cases h : db.exec l.1 l.2 with
  | error e => exact Quiet.explained ⟨fun _ => rfl, rfl⟩ agrees
  | ok db' => exact exec_explained agrees explains h

theorem run_agrees {l : List (Int × PrivacyOp)} (agrees : db.Agrees) (explains : Guarded PrivacyDb.step Explains db l) :
    (run PrivacyDb.step db l).Agrees := by
  induction l generalizing db with
  | nil => exact agrees
  | cons x l ih => exact ih (step_explained agrees explains.1).agrees explains.2

/--
In every run whose operations keep the history in step: after every operation the flag of every client is set exactly
when the newest marketing row grants consent, and an operation that changes a flag appends the row that shows it.
-/
theorem marketing_consent_explained (agrees : db.Agrees) {l : List (Int × PrivacyOp)}
    (explains : Guarded PrivacyDb.step Explains db l) :
    ∀ pre x post, l = pre ++ x :: post → ∀ u,
      ((run PrivacyDb.step db (pre ++ [x])).flag u = (run PrivacyDb.step db (pre ++ [x])).granted u) ∧
        ((run PrivacyDb.step db (pre ++ [x])).flag u ≠ (run PrivacyDb.step db pre).flag u →
          Appended (run PrivacyDb.step db pre) (run PrivacyDb.step db (pre ++ [x])) u
            ((run PrivacyDb.step db (pre ++ [x])).flag u)) := by
  rintro pre x post rfl u
  obtain ⟨before, after⟩ := guarded_append.mp explains
  have step := step_explained (run_agrees agrees before) after.1
  rw [run_append]
  exact ⟨step.agrees u, step.appended u⟩

/-! ### Runs from an empty database -/

instance (db : PrivacyDb) (u : Nat) (now : Int) : Decidable (db.Recent u now) :=
  inferInstanceAs (Decidable (∀ c ∈ db.latestConsent u .marketing, c.createdAt ≤ now))

instance (db : PrivacyDb) : (l : Int × PrivacyOp) → Decidable (Explains db l)
  | (now, .setMarketing telegramId _ _) =>
    inferInstanceAs (Decidable (_ → _ → (db.getOrCreateClient defaultBusinessId telegramId).2.Recent _ now))
  | (now, .requestDeletion telegramId) =>
    inferInstanceAs (Decidable (_ → (db.getOrCreateClient defaultBusinessId telegramId).2.Recent _ now ∧
      ∀ c ∈ PrivacyDb.getClientByUser _ _, _))
  | (now, .run _ requestId _ _) =>
    inferInstanceAs (Decidable (∀ r ∈ db.requests.row requestId, _ → _ → ∀ c ∈ db.getClient r.businessClientId,
      _ → db.Recent c.userId now))
  | (_, .staff ..) | (_, .getOrCreateClient ..) | (_, .publishPolicy ..) | (_, .acceptPrivacy ..) | (_, .setRepeatBooking ..)
  | (_, .startReview ..) | (_, .approve ..) | (_, .reject ..) | (_, .retryFailed ..) | (_, .claim ..)
  | (_, .recordFailure ..) => instDecidableTrue

namespace Sample

/-- Consent is given, and withdrawn with a deletion request. -/
def withdrawn : List (Int × PrivacyOp) :=
  [(10, .acceptPrivacy 200), (20, .setMarketing 200 true .onboarding), (30, .requestDeletion 200)]

/-- It is given again while the request waits, and revoked when the client is anonymised. -/
def anonymised : List (Int × PrivacyOp) :=
  withdrawn ++ [(40, .setMarketing 200 true .notificationSettings), (50, .startReview owner 1 true),
    (60, .approve owner 1 true), (70, .claim owner 1 "a"), (70, .run owner 1 "a" ⟨0, 0, 0, 0, 0, 2, 1⟩)]

end Sample

theorem agrees_unused : Sample.unused.Agrees := fun _ => rfl

/-- A second deletion request takes the flag away and leaves the newest row granting consent. -/
theorem repeated_request_unexplained :
    let db := run PrivacyDb.step Sample.unused (Sample.withdrawn ++ [(40, .setMarketing 200 true .notificationSettings)])
    db.flag 1 = true ∧ db.granted 1 = true ∧ (db.step (50, .requestDeletion 200)).flag 1 = false ∧
      (db.step (50, .requestDeletion 200)).granted 1 = true ∧ (db.step (50, .requestDeletion 200)).consents.next = db.consents.next := by
  decide +kernel

theorem marketing_consent_explained_anonymised :
    Guarded PrivacyDb.step Explains Sample.unused Sample.anonymised ∧
      (run PrivacyDb.step Sample.unused (Sample.anonymised.take 4)).flag 1 = true ∧
      ∀ pre x post, Sample.anonymised = pre ++ x :: post → ∀ u,
        ((run PrivacyDb.step Sample.unused (pre ++ [x])).flag u = (run PrivacyDb.step Sample.unused (pre ++ [x])).granted u) ∧
          ((run PrivacyDb.step Sample.unused (pre ++ [x])).flag u ≠ (run PrivacyDb.step Sample.unused pre).flag u →
            Appended (run PrivacyDb.step Sample.unused pre) (run PrivacyDb.step Sample.unused (pre ++ [x])) u
              ((run PrivacyDb.step Sample.unused (pre ++ [x])).flag u)) := by
  have explains : Guarded PrivacyDb.step Explains Sample.unused Sample.anonymised := by decide +kernel
  exact ⟨explains, by decide +kernel, marketing_consent_explained agrees_unused explains⟩

end SalonBooking.Privacy
