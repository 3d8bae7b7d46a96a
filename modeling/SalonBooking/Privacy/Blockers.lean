import SalonBooking.Privacy.Workflow

/-!
# Anonymisation without blockers

A claim checks that its subject is free: no active membership in staff, no active client membership elsewhere. The
mutation comes in a later transaction that does not look again. In between, only three operations make somebody an
active member of anything, and `SparesSubjects` says when they leave the subjects of claims alone.
-/

namespace SalonBooking.Staff

open Lib Staff.AuthorizationService Staff.BusinessAdministrationService

/-- The accounts that an operation may give a membership. -/
def StaffOp.accounts (db : StaffDb) (now : Int) : StaffOp → List Int
  | .acceptInvitation digest telegramId =>
    if ((db.invitations.select (·.tokenDigest == digest)).head?).any (fun inv => now < inv.2.expiresAt) then [telegramId]
    else []
  | .bootstrapOwners telegramIds _ => telegramIds
  | _ => []

namespace StaffDb

variable {db db' : StaffDb} {now telegramId : Int} {op : StaffOp} {u k : Nat} {m m' : Staff.StaffMember} {accounts : List Int}

/-- Some membership of the user is active. -/
def ActiveMember (db : StaffDb) (u : Nat) : Prop := ∃ k m, db.members.row k = some m ∧ m.userId = some u ∧ m.isActive = true

/-- The user has one of the accounts and no membership. -/
def Joins (db : StaffDb) (accounts : List Int) (u : Nat) : Prop :=
  (∃ user ∈ db.users.row u, user.telegramId ∈ accounts) ∧ db.memberByUserId u = none

/-- What an operation leaves of the known users: who becomes an active member had one of the accounts. -/
structure Follows (db db' : StaffDb) (accounts : List Int) : Prop where
  users : ∀ u user, db.users.row u = some user → db'.users.row u = some user
  unknown : ∀ u, db'.memberByUserId u = none → db.memberByUserId u = none
  active : ∀ u user, db.users.row u = some user → ActiveMember db' u → ActiveMember db u ∨ Joins db accounts u

theorem memberByUserId_eq_none : db.memberByUserId u = none ↔ ∀ k m, db.members.row k = some m → m.userId ≠ some u := by
  unfold memberByUserId
  rw [List.head?_eq_none_iff, List.eq_nil_iff_forall_not_mem]
  constructor
  · exact fun h k m row user => h (k, m) (Table.mem_select.mpr ⟨row, beq_iff_eq.mpr user⟩)
  · rintro h ⟨k, m⟩ mem
    obtain ⟨row, user⟩ := Table.mem_select.mp mem
    exact h k m row (beq_iff_eq.mp user)

namespace Follows

theorem refl : Follows db db accounts := ⟨fun _ _ => id, fun _ => id, fun _ _ _ => .inl⟩

theorem trans {db'' : StaffDb} (h : Follows db db' accounts) (h' : Follows db' db'' accounts) : Follows db db'' accounts where
  users u user row := h'.users u user (h.users u user row)
  unknown u none := h.unknown u (h'.unknown u none)
  active u user row active := by
    rcases h'.active u user (h.users u user row) active with active | ⟨⟨user', row', account⟩, none⟩
    · exact h.active u user row active
    · obtain rfl : user = user' := Option.some.inj ((h.users u user row).symm.trans row')
      exact .inr ⟨⟨user, row, account⟩, h.unknown u none⟩

theorem setMember (row : db.members.row k = some m) (user : m'.userId = m.userId)
    (active : m'.isActive = true → m.isActive = true) : Follows db (db.setMember k m') accounts where
  users _ _ := id
  unknown u none := by
    rw [memberByUserId_eq_none] at none ⊢
    intro j n hrow own
    by_cases hj : j = k
    · subst hj
      obtain rfl : m = n := Option.some.inj (row.symm.trans hrow)
      exact none j m' (Table.row_put_self row) (user.trans own)
    · exact none j n ((Table.row_put_ne hj).trans hrow) own
  active u _ _ := by
    rintro ⟨j, n, hrow, own, ha⟩
    rcases (Table.row_put_eq_some row).mp hrow with ⟨rfl, rfl⟩ | ⟨-, hrow⟩
    · exact .inl ⟨j, m, row, user ▸ own, active ha⟩
    · exact .inl ⟨j, n, hrow, own, ha⟩

theorem of_eq (users : db'.users = db.users) (members : db'.members = db.members) : Follows db db' accounts where
  users u user row := users ▸ row
  unknown u none := by
    rw [memberByUserId_eq_none] at none ⊢
    exact members ▸ none
  active u _ _ := by
    rintro ⟨j, n, hrow, own, ha⟩
    exact .inl ⟨j, n, members ▸ hrow, own, ha⟩

theorem getOrCreateUser (db : StaffDb) (telegramId : Int) : Follows db (db.getOrCreateUser telegramId).2.2 accounts := by
  unfold StaffDb.getOrCreateUser
  split
  · exact refl
  · exact ⟨fun _ _ => Table.row_insert_of_some, fun _ => id, fun _ _ _ => .inl⟩

theorem join (account : telegramId ∈ accounts) (user : m.userId = some (db.getOrCreateUser telegramId).1)
    (users : db'.users = (db.getOrCreateUser telegramId).2.2.users)
    (members : db'.members = db.members.insert m)
    (absent : ∀ p, db.userByTelegramId telegramId = some p → db.memberByUserId p.1 = none) :
    Follows db db' accounts where
  users u user row := users ▸ (@getOrCreateUser accounts db telegramId).users u user row
  unknown u none := by
    rw [memberByUserId_eq_none] at none ⊢
    exact fun k n row => none k n (members ▸ Table.row_insert_of_some row)
  active u known row := by
    rintro ⟨k, n, hrow, own, ha⟩
    rw [members] at hrow
    rcases Table.row_insert_eq_some.mp hrow with ⟨-, rfl⟩ | hrow
    · have same : (db.getOrCreateUser telegramId).1 = u := Option.some.inj (user.symm.trans own)
      -- the user was known before, so the account led to it
      unfold StaffDb.getOrCreateUser at same
      split at same
      · next i user found =>
        subst same
        refine .inr ⟨⟨known, row, ?_⟩, absent _ found⟩
        obtain ⟨hrow, telegram⟩ := Table.mem_select.mp (List.mem_of_mem_head? found)
        obtain rfl : known = user := Option.some.inj (row.symm.trans hrow)
        rw [beq_iff_eq.mp telegram]
        exact account
      · subst same
        rw [db.users.bounded _ le_rfl] at row
        cases row
    · exact .inl ⟨k, n, hrow, own, ha⟩

end Follows

theorem memberByUserId_of_account {p : Nat × Staff.User} (absent : db.memberByTelegramId telegramId = none)
    (found : db.userByTelegramId telegramId = some p) : db.memberByUserId p.1 = none := by
  unfold memberByTelegramId at absent
  rw [found] at absent
  cases member : db.memberByUserId p.1 with
  | none => rfl
  | some m =>
    simp only [Option.bind_eq_bind, Option.bind_some, member] at absent
    cases absent

theorem follows_seedOwner {name : String} {p : Nat × Int} (account : p.2 ∈ accounts) :
    Follows db (seedOwner name db p) accounts := by
  unfold seedOwner
  split
  · exact .refl
  · next absent =>
    refine .join (m := newOwner (db.getOrCreateUser p.2).1 (name ++ " " ++ toString p.1) false false) account ?_ ?_ ?_
      fun user found => memberByUserId_of_account absent found
    · rfl
    · rfl
    · exact congrArg (Table.insert · _) getOrCreateUser_members

theorem follows_seedOwners {name : String} {l : List (Int × Nat)} (account : ∀ p ∈ l, p.1 ∈ accounts) :
    Follows db (l.foldl (fun db p => seedOwner name db (p.2, p.1)) db) accounts := by
  induction l generalizing db with
  | nil => exact .refl
  | cons p l ih =>
    refine .trans (follows_seedOwner (account p List.mem_cons_self)) (ih fun q hq => account q (List.mem_cons_of_mem p hq))

theorem follows_bindBootstrapOwner {name : String} (account : telegramId ∈ accounts)
    (h : bindBootstrapOwner telegramId name db = .ok db') : Follows db db' accounts := by
  unfold bindBootstrapOwner at h
  split at h
  · simp only [Except.bind_ok, Except.require_ok, Except.pure_ok, exists_const] at h
    obtain ⟨-, rfl⟩ := h
    exact .refl
  · next found =>
    simp only [Except.bind_ok, Except.require_ok, Except.pure_ok, exists_const] at h
    obtain ⟨-, rfl⟩ := h
    refine .setMember (memberByTelegramId_row found) ?_ ?_
    · rfl
    · exact id
  · next absent =>
    simp only [Except.bind_ok, Except.require_ok, Except.pure_ok, exists_const] at h
    obtain ⟨-, rfl⟩ := h
    let isBookable := (db.getOrCreateUser telegramId).2.2.businessType == .solo
    refine .join (m := newOwner (db.getOrCreateUser telegramId).1 name isBookable true) account ?_ ?_ ?_
      fun p found => memberByUserId_of_account absent found
    · rfl
    · rfl
    · exact congrArg (Table.insert · _) getOrCreateUser_members

theorem follows_exec (h : db.exec now op = .ok db') : Follows db db' (op.accounts db now) := by
  cases op with
  | issueInvitation actor values digest =>
    simp only [exec, issueInvitation, Except.bind_ok, Except.pure_ok] at h
    obtain ⟨_, -, _, -, _, -, _, -, rfl⟩ := h
    exact .of_eq rfl rfl
  | acceptInvitation digest telegramId =>
    simp only [exec, acceptInvitation, Except.bind_ok, Except.orRaise_ok, Except.require_ok, exists_const] at h
    obtain ⟨⟨j, inv⟩, found, -, h⟩ := h
    split at h
    · rw [Except.pure_ok] at h
      subst h
      exact .of_eq rfl rfl
    · next fresh =>
      simp only [Except.bind_ok, Except.require_ok, Except.pure_ok, exists_const] at h
      obtain ⟨absent, rfl⟩ := h
      have account : telegramId ∈ (StaffOp.acceptInvitation digest telegramId).accounts db now := by
        show telegramId ∈ if ((db.invitations.select (·.tokenDigest == digest)).head?).any _ = true then [telegramId] else []
        rw [found, Option.any_some, if_pos (decide_eq_true (not_le.mp fresh))]
        exact List.mem_singleton_self telegramId
      let member : StaffMember :=
        { userId := some (db.getOrCreateUser telegramId).1, displayName := inv.displayName, role := inv.role
          isActive := true, isBookable := inv.isBookable, isBootstrapOwner := false, permissionGrants := []
          archivedAt := none }
      refine .join (m := member) account ?_ ?_ ?_ fun p user => ?_
      · rfl
      · rfl
      · exact congrArg (Table.insert · member) getOrCreateUser_members
      · have none := memberByUserId_eq_none.mp absent
        rw [getOrCreateUser_members] at none
        unfold getOrCreateUser at none
        rw [user] at none
        exact memberByUserId_eq_none.mpr none
  | revokeInvitation actor invitationId =>
    simp only [exec, revokeInvitation, Except.bind_ok] at h
    obtain ⟨_, -, _, -, _, -, _, -, _, -, h⟩ := h
    split at h
    · rw [Except.pure_ok] at h
      subst h
      exact .of_eq rfl rfl
    · rw [Except.pure_ok] at h
      subst h
      exact .of_eq rfl rfl
  | revokeMember actor staffMemberId =>
    simp only [exec, revokeMember, Except.bind_ok, Except.pure_ok] at h
    obtain ⟨_, -, _, -, m, found, rfl⟩ := h
    refine .trans (.setMember (manageableTarget_row found) ?_ ?_) (.of_eq rfl rfl)
    · rfl
    · simp
  | changeMemberRole actor staffMemberId role =>
    simp only [exec, changeMemberRole, Except.bind_ok, Except.pure_ok] at h
    obtain ⟨_, -, _, -, m, found, _, -, rfl⟩ := h
    refine .trans (.setMember (manageableTarget_row found) ?_ ?_) (.of_eq rfl rfl)
    · rfl
    · exact id
  | setPermissionGrant actor staffMemberId permission enabled =>
    simp only [exec, setPermissionGrant, Except.bind_ok, Except.pure_ok] at h
    obtain ⟨_, -, _, -, _, -, m, found, rfl⟩ := h
    refine .setMember (manageableTarget_row found) ?_ ?_
    · rfl
    · exact id
  | setStaffBookable actor staffMemberId enabled =>
    simp only [exec, setStaffBookable, Except.bind_ok, Except.orRaise_ok, Except.pure_ok] at h
    obtain ⟨_, -, _, -, m, row, _, -, _, -, rfl⟩ := h
    refine .trans (.setMember row ?_ ?_) (.of_eq rfl rfl)
    · rfl
    · exact id
  | bootstrapOwners ids name =>
    simp only [exec, bootstrapOwners, Except.bind_ok, Except.require_ok, exists_const] at h
    obtain ⟨-, -, h⟩ := h
    cases distinct : ids.eraseDups with
    | nil =>
      rw [distinct] at h
      exact absurd h Except.throw_ok
    | cons first others =>
      rw [distinct] at h
      simp only [Except.bind_ok, Except.pure_ok] at h
      obtain ⟨bound, binds, rfl⟩ := h
      have account : ∀ t ∈ first :: others, t ∈ ids := fun t ht => List.mem_eraseDups.mp (distinct ▸ ht)
      refine .trans (follows_bindBootstrapOwner (account first List.mem_cons_self) binds) (follows_seedOwners fun p hp => ?_)
      exact account _ (List.mem_cons_of_mem first (List.fst_mem_of_mem_zipIdx hp))
  | updateBusiness actor businessType others =>
    simp only [exec, BusinessAdministrationService.update, Except.bind_ok] at h
    obtain ⟨_, -, _, -, h⟩ := h
    split at h
    · simp only [Except.bind_ok, Except.pure_ok] at h
      obtain ⟨_, -, _, -, rfl⟩ := h
      exact .of_eq rfl rfl
    · rw [Except.pure_ok] at h
      subst h
      exact .of_eq rfl rfl
  | setBootstrapBookable actor enabled =>
    simp only [exec, setBootstrapBookable, Except.bind_ok, Except.orRaise_ok, Except.pure_ok] at h
    obtain ⟨_, -, _, -, _, -, m, row, _, -, _, -, rfl⟩ := h
    refine .setMember row ?_ ?_
    · rfl
    · exact id

end StaffDb

end SalonBooking.Staff

namespace SalonBooking.Privacy

open Lib Staff DataDeletionService PrivacyDeletionRuntimeService

variable {db db' : PrivacyDb} {i u : Nat} {r : DataDeletionRequest} {now : Int} {op : PrivacyOp} {args : Transition}
variable {joined : Nat → Prop}

/-- No active membership in staff, and none as a client elsewhere. -/
def Free (db : PrivacyDb) (u : Nat) : Prop :=
  ¬ db.staff.ActiveMember u ∧
    ∀ k c, db.clients.row k = some c → c.userId = u → c.businessId ≠ defaultBusinessId → c.isActive = false

theorem free_iff : (db.anonymizationBlockers u).errorCodes = [] ↔ Free db u := by
  have staff : db.activeStaff u = [] ↔ ¬ db.staff.ActiveMember u := by
    rw [List.eq_nil_iff_forall_not_mem]
    constructor
    · rintro none ⟨k, m, row, user, active⟩
      exact none (k, m) (Table.mem_select.mpr ⟨row, Bool.and_eq_true_iff.mpr ⟨beq_iff_eq.mpr user, active⟩⟩)
    · rintro free ⟨k, m⟩ mem
      obtain ⟨row, counted⟩ := Table.mem_select.mp mem
      obtain ⟨user, active⟩ := Bool.and_eq_true_iff.mp counted
      exact free ⟨k, m, row, beq_iff_eq.mp user, active⟩
  have clients : db.otherClients u = [] ↔
      ∀ k c, db.clients.row k = some c → c.userId = u → c.businessId ≠ defaultBusinessId → c.isActive = false := by
    rw [List.eq_nil_iff_forall_not_mem]
    constructor
    · intro none k c row user other
      by_contra active
      rw [Bool.not_eq_false] at active
      exact none (k, c) (Table.mem_select.mpr ⟨row, by simp [user, other, active]⟩)
    · rintro free ⟨k, c⟩ mem
      obtain ⟨row, counted⟩ := Table.mem_select.mp mem
      simp only [Bool.and_eq_true, beq_iff_eq, bne_iff_ne] at counted
      rw [free k c row counted.1.1 counted.1.2] at counted
      cases counted.2
  unfold Free
  rw [← staff, ← clients]
  unfold AnonymizationBlockers.errorCodes PrivacyDb.anonymizationBlockers
  rw [List.append_eq_nil_iff]
  refine and_congr ⟨fun codes => ?_, fun none => ?_⟩ ⟨fun codes => ?_, fun none => ?_⟩
  · by_contra some
    have counted : (db.activeStaff u).length ≠ 0 := fun zero => some (List.eq_nil_of_length_eq_zero zero)
    dsimp only at codes
    rw [if_pos counted] at codes
    split at codes
    · cases codes
    · split at codes
      · next roles => exact roles (List.map_eq_nil_iff.mp codes)
      · cases codes
  · rw [none]
    rfl
  · by_contra some
    have counted : (db.otherClients u).length ≠ 0 := fun zero => some (List.eq_nil_of_length_eq_zero zero)
    rw [if_pos counted] at codes
    cases codes
  · rw [none]
    rfl

/-! ### Subjects of claims -/

/-- The users whose anonymisation is claimed. -/
def PrivacyDb.subjects (db : PrivacyDb) : List Nat :=
  (db.requests.select (·.status == .processing)).filterMap fun p => (db.clients.row p.2.businessClientId).map (·.userId)

/-- The operation gives no subject of a claim an active membership. -/
def SparesSubjects (db : PrivacyDb) (l : Int × PrivacyOp) : Prop :=
  match l.2 with
  | .staff op =>
    (db.staff.exec l.1 op).toOption.isSome = true → ∀ u ∈ db.subjects, ¬ db.staff.Joins (op.accounts db.staff l.1) u
  | .getOrCreateClient businessId telegramId =>
    businessId ≠ defaultBusinessId → ∀ user ∈ db.staff.userByTelegramId telegramId, user.1 ∈ db.subjects →
      db.clients.select (fun c => c.businessId == businessId && c.userId == user.1) ≠ []
  | _ => True

/-- The subject of every claim is a known client, and free. -/
def Clear (db : PrivacyDb) : Prop :=
  ∀ i r, db.requests.row i = some r → r.status = .processing →
    ∃ c, db.clients.row r.businessClientId = some c ∧ db.staff.users.row c.userId ≠ none ∧ Free db c.userId

theorem mem_subjects {c : BusinessClient} (row : db.requests.row i = some r) (processing : r.status = .processing)
    (client : db.clients.row r.businessClientId = some c) : c.userId ∈ db.subjects := by
  refine List.mem_filterMap.mpr ⟨(i, r), Table.mem_select.mpr ⟨row, beq_iff_eq.mpr processing⟩, ?_⟩
  show (db.clients.row r.businessClientId).map _ = _
  rw [client]
  rfl

/-- What an operation leaves to subjects other than the users in `joined`. -/
structure Leaves (joined : Nat → Prop) (db db' : PrivacyDb) : Prop where
  clients : ∀ k c, db.clients.row k = some c → ∃ c', db'.clients.row k = some c' ∧ c'.userId = c.userId
  users : ∀ u, db.staff.users.row u ≠ none → db'.staff.users.row u ≠ none
  free : ∀ u, db.staff.users.row u ≠ none → ¬ joined u → Free db u → Free db' u
  requests : ∀ i r', db'.requests.row i = some r' → r'.status = .processing →
    ∃ r, db.requests.row i = some r ∧ r.status = .processing ∧ r.businessClientId = r'.businessClientId

namespace Leaves

theorem trans {db'' : PrivacyDb} (h : Leaves joined db db') (h' : Leaves joined db' db'') : Leaves joined db db'' where
  clients k c row := by
    obtain ⟨c', row', same⟩ := h.clients k c row
    obtain ⟨c'', row'', same'⟩ := h'.clients k c' row'
    exact ⟨c'', row'', same'.trans same⟩
  users u known := h'.users u (h.users u known)
  free u known other free := h'.free u (h.users u known) other (h.free u known other free)
  requests i r' row processing := by
    obtain ⟨s, hs, status, same⟩ := h'.requests i r' row processing
    obtain ⟨t, ht, status', same'⟩ := h.requests i s hs status
    exact ⟨t, ht, status', same'.trans same⟩

theorem of_eq (staff : db'.staff = db.staff) (clients : db'.clients = db.clients) (requests : db'.requests = db.requests) :
    Leaves joined db db' where
  clients k c row := ⟨c, clients ▸ row, rfl⟩
  users u known := staff ▸ known
  free u _ _ free := by
    unfold Free
    rw [staff, clients]
    exact free
  requests i r row processing := ⟨r, requests ▸ row, processing, rfl⟩

theorem mono {joined' : Nat → Prop} (h : Leaves joined db db') (less : ∀ u, joined u → joined' u) : Leaves joined' db db' :=
  ⟨h.clients, h.users, fun u known other => h.free u known fun j => other (less u j), h.requests⟩

theorem clear (h : Leaves joined db db') (clear : Clear db)
    (spares : ∀ u ∈ db.subjects, db.staff.users.row u ≠ none → ¬ joined u) : Clear db' := by
  intro i r' row' processing'
  obtain ⟨r, row, processing, same⟩ := h.requests i r' row' processing'
  obtain ⟨c, client, known, free⟩ := clear i r row processing
  obtain ⟨c', client', user⟩ := h.clients _ c client
  refine ⟨c', same ▸ client', ?_, ?_⟩
  · rw [user]
    exact h.users c.userId known
  · rw [user]
    exact h.free c.userId known (spares _ (mem_subjects row processing client) known) free

end Leaves

theorem leaves_transition (h : transition i args now db = .ok db') (plain : args.target ≠ .processing) :
    Leaves joined db db' := by
  obtain ⟨r, row, -, -, rfl⟩ := transition_ok.mp h
  refine ⟨fun k c client => ⟨c, client, rfl⟩, fun u => id, fun u _ _ => id, fun j r' hrow processing => ?_⟩
  rcases (Table.row_put_eq_some row).mp hrow with ⟨rfl, rfl⟩ | ⟨-, hrow⟩
  · rw [moved_status] at processing
    exact absurd processing plain
  · exact ⟨r', hrow, processing, rfl⟩

theorem leaves_put {r' : DataDeletionRequest} (row : db.requests.row i = some r) (plain : r'.status ≠ .processing) :
    Leaves joined db { db with requests := db.requests.put i r' } := by
  refine ⟨fun k c client => ⟨c, client, rfl⟩, fun u => id, fun u _ _ => id, fun j s hrow processing => ?_⟩
  rcases (Table.row_put_eq_some row).mp hrow with ⟨rfl, rfl⟩ | ⟨-, hrow⟩
  · exact absurd processing plain
  · exact ⟨s, hrow, processing, rfl⟩

theorem clear_claimApproved {liveActor : Staff.StaffContext} {lockId : String} {out : Option Outcome} (clear : Clear db)
    (h : claimApproved liveActor i lockId now db = .ok (out, db')) : Clear db' := by
  obtain ⟨r, c, args, row, client, known, moved, claims⟩ := claimApproved_ok h
  obtain ⟨s, hrow, -, -, rfl⟩ := transition_ok.mp moved
  obtain rfl : r = s := Option.some.inj (row.symm.trans hrow)
  intro j r' row' processing
  rcases (Table.row_put_eq_some row).mp row' with ⟨rfl, rfl⟩ | ⟨-, old⟩
  · rw [moved_status] at processing
    refine ⟨c, ?_, known, free_iff.mp (claims processing).2.2⟩
    rw [moved_businessClientId]
    exact (Option.filter_eq_some_iff.mp client).1
  · exact clear j r' old processing

/-! ### Transactions -/

theorem leaves_staff {op : StaffOp} :
    Leaves (fun u => (db.staff.exec now op).toOption.isSome = true ∧ db.staff.Joins (op.accounts db.staff now) u)
      db { db with staff := db.staff.step (now, op) } := by
  have after : db.staff.step (now, op) = ((db.staff.exec now op).toOption).getD db.staff := rfl
  rcases done : db.staff.exec now op with e | staff
  · refine .of_eq ?_ rfl rfl
    show db.staff.step (now, op) = db.staff
    rw [after, done]
    rfl
  · rw [done] at after
    have follows := StaffDb.follows_exec done
    have users : (db.staff.step (now, op)).users = staff.users := congrArg _ after
    have members : (db.staff.step (now, op)).members = staff.members := congrArg _ after
    refine ⟨fun k c client => ⟨c, client, rfl⟩, fun u known => ?_, fun u known other free => ⟨fun active => ?_, free.2⟩,
      fun i r row processing => ⟨r, row, processing, rfl⟩⟩
    · obtain ⟨user, row⟩ := Option.ne_none_iff_exists'.mp known
      show (db.staff.step (now, op)).users.row u ≠ none
      rw [users, follows.users u user row]
      exact Option.some_ne_none user
    · obtain ⟨user, row⟩ := Option.ne_none_iff_exists'.mp known
      have active : staff.ActiveMember u := by
        obtain ⟨k, m, hrow, own, ha⟩ := active
        exact ⟨k, m, members ▸ hrow, own, ha⟩
      rcases follows.active u user row active with before | joins
      · exact free.1 before
      · exact other ⟨rfl, joins⟩

theorem leaves_getOrCreateClient (businessId : Nat) (telegramId : Int) :
    Leaves (fun u => businessId ≠ defaultBusinessId ∧ u = (db.staff.getOrCreateUser telegramId).1 ∧
        db.clients.select (fun c => c.businessId == businessId && c.userId == u) = [])
      db (db.getOrCreateClient businessId telegramId).2 := by
  let known := { db with staff := (db.staff.getOrCreateUser telegramId).2.2 }
  have follows : StaffDb.Follows db.staff known.staff [] := .getOrCreateUser db.staff telegramId
  have users : ∀ u, db.staff.users.row u ≠ none → known.staff.users.row u ≠ none := by
    intro u before
    obtain ⟨user, row⟩ := Option.ne_none_iff_exists'.mp before
    rw [follows.users u user row]
    exact Option.some_ne_none user
  have active : ∀ u, db.staff.users.row u ≠ none → known.staff.ActiveMember u → db.staff.ActiveMember u := by
    intro u before active
    obtain ⟨user, row⟩ := Option.ne_none_iff_exists'.mp before
    rcases follows.active u user row active with before | ⟨⟨_, _, none⟩, -⟩
    · exact before
    · cases none
  show Leaves _ db (known.ensureBusinessClient businessId (db.staff.getOrCreateUser telegramId).1)
  unfold PrivacyDb.ensureBusinessClient
  by_cases absent : db.clients.select
      (fun c => c.businessId == businessId && c.userId == (db.staff.getOrCreateUser telegramId).1) = []
  · rw [if_pos absent]
    refine ⟨fun k c client => ⟨c, Table.row_insert_of_some client, rfl⟩, users,
      fun u before other free => ⟨fun after => free.1 (active u before after), fun k c row user elsewhere => ?_⟩,
      fun i r row processing => ⟨r, row, processing, rfl⟩⟩
    rcases Table.row_insert_eq_some.mp row with ⟨-, rfl⟩ | old
    · subst user
      exact absurd ⟨elsewhere, rfl, absent⟩ other
    · exact free.2 k c old user elsewhere
  · rw [if_neg absent]
    exact ⟨fun k c client => ⟨c, client, rfl⟩, users,
      fun u before _ free => ⟨fun after => free.1 (active u before after), free.2⟩,
      fun i r row processing => ⟨r, row, processing, rfl⟩⟩

theorem leaves_client (telegramId : Int) : Leaves joined db (db.getOrCreateClient defaultBusinessId telegramId).2 :=
  (leaves_getOrCreateClient defaultBusinessId telegramId).mono fun _ elsewhere => absurd rfl elsewhere.1

theorem leaves_onlyConsents (h : OnlyConsents db db') : Leaves joined db db' := .of_eq h.staff h.clients h.requests

theorem leaves_insert {r' : DataDeletionRequest} {event : DataDeletionRequestEvent} (new : r'.status = .requested) :
    Leaves joined db ({ db with requests := db.requests.insert r' }.addDeletionEvent event) := by
  refine ⟨fun k c client => ⟨c, client, rfl⟩, fun u => id, fun u _ _ => id, fun j r row processing => ?_⟩
  rcases Table.row_insert_eq_some.mp row with ⟨-, rfl⟩ | old
  · rw [new] at processing
    cases processing
  · exact ⟨r, old, processing, rfl⟩

theorem leaves_request {businessClientId : Nat} {policy : Option PolicyDocument}
    (h : request businessClientId policy now db = .ok db') : Leaves joined db db' := by
  simp only [request, Except.bind_ok, Except.orRaise_ok] at h
  obtain ⟨client, -, h⟩ := h
  split at h
  · rw [Except.pure_ok] at h
    exact h ▸ .of_eq rfl rfl rfl
  · rw [Except.pure_ok] at h
    subst h
    exact .trans (leaves_insert rfl) (leaves_onlyConsents .revokeMarketing)

/-- Anonymisation strips memberships that are not active and ends the client's own. -/
theorem leaves_anonymizeClientData {businessClientId : Nat}
    (h : db.anonymizeClientData businessClientId u now = .ok db') : Leaves joined db db' := by
  simp only [PrivacyDb.anonymizeClientData, Except.bind_ok, Except.orRaise_ok, Except.require_ok, Except.pure_ok,
    exists_const] at h
  obtain ⟨client, found, known, rfl⟩ := h
  have row : db.clients.row businessClientId = some client :=
    (Option.filter_eq_some_iff.mp (Option.filter_eq_some_iff.mp found).1).1
  refine ⟨fun k c hrow => ?_, fun v before => ?_, fun v _ _ free => ⟨?_, fun k c hrow user elsewhere => ?_⟩,
    fun i r hrow processing => ⟨r, hrow, processing, rfl⟩⟩
  · by_cases same : k = businessClientId
    · subst same
      obtain rfl : client = c := Option.some.inj (row.symm.trans hrow)
      exact ⟨_, Table.row_put_self row, rfl⟩
    · exact ⟨c, (Table.row_put_ne same).trans hrow, rfl⟩
  · exact fun none => before (Table.row_put_eq_none.mp none)
  · rintro ⟨k, m, hrow, own, active⟩
    refine free.1 ?_
    obtain ⟨m', hrow', rfl⟩ := Option.map_eq_some_iff.mp (Table.row_mapRows.symm.trans hrow)
    unfold PrivacyDb.anonymizedMember at own active
    split at own
    · cases own
    · next kept =>
      rw [if_neg kept] at active
      exact ⟨k, m', hrow', own, active⟩
  · rcases (Table.row_put_eq_some row).mp hrow with ⟨rfl, rfl⟩ | ⟨-, old⟩
    · rfl
    · exact free.2 k c old user elsewhere

/-! ### Steps -/

/-- The users that an operation makes active members. -/
def PrivacyOp.joins (db : PrivacyDb) (now : Int) : PrivacyOp → Nat → Prop
  | .staff op, u => (db.staff.exec now op).toOption.isSome = true ∧ db.staff.Joins (op.accounts db.staff now) u
  | .getOrCreateClient businessId telegramId, u =>
    businessId ≠ defaultBusinessId ∧ u = (db.staff.getOrCreateUser telegramId).1 ∧
      db.clients.select (fun c => c.businessId == businessId && c.userId == u) = []
  | _, _ => False

theorem leaves_exec (h : db.exec now op = .ok db') (other : ∀ liveActor i lockId, op ≠ .claim liveActor i lockId) :
    Leaves (op.joins db now) db db' := by
  cases op with
  | staff op =>
    rw [PrivacyDb.exec, Except.ok.injEq] at h
    exact h ▸ leaves_staff
  | getOrCreateClient businessId telegramId =>
    rw [PrivacyDb.exec, Except.ok.injEq] at h
    exact h ▸ leaves_getOrCreateClient businessId telegramId
  | publishPolicy policy =>
    rw [PrivacyDb.exec, Except.ok.injEq] at h
    exact h ▸ .of_eq rfl rfl rfl
  | acceptPrivacy telegramId => exact .trans (leaves_client telegramId) (leaves_onlyConsents (.acceptPrivacy h))
  | setMarketing telegramId accepted source =>
    exact .trans (leaves_client telegramId) (leaves_onlyConsents (.setMarketing h))
  | setRepeatBooking telegramId accepted =>
    exact .trans (leaves_client telegramId) (leaves_onlyConsents (.setRepeatBooking h))
  | requestDeletion telegramId =>
    obtain ⟨withdrawn, i, only, h⟩ := requestDeletion_ok h
    exact .trans (leaves_client telegramId) (.trans (leaves_onlyConsents only) (leaves_request h))
  | startReview liveActor requestId confirmed =>
    obtain ⟨args, target, h⟩ := startReview_ok h
    exact leaves_transition h (by rw [target]; decide)
  | approve liveActor requestId confirmed =>
    obtain ⟨-, args, target, h⟩ := approve_ok h
    exact leaves_transition h (by rw [target]; decide)
  | reject liveActor requestId reasonCode confirmed =>
    obtain ⟨args, target, h⟩ := reject_ok h
    exact leaves_transition h (by rw [target]; decide)
  | retryFailed liveActor requestId confirmed =>
    obtain ⟨-, r, row, ⟨-, rfl⟩ | ⟨failed, args, target, h⟩⟩ := retryFailed_ok h
    · exact .of_eq rfl rfl rfl
    · have plain : (retryApproved r).status ≠ .processing := by
        show r.status ≠ .processing
        rw [failed]
        decide
      exact .trans (leaves_put row plain) (leaves_transition h (by rw [target]; decide))
  | claim liveActor requestId lockId => exact absurd rfl (other liveActor requestId lockId)
  | run liveActor requestId lockId counts =>
    obtain ⟨r, row, ⟨-, rfl⟩ | ⟨-, -, c, anonymized, args, -, anonymizes, target, completes⟩⟩ := runClaimedAnonymization_ok h
    · exact .of_eq rfl rfl rfl
    · refine .trans (leaves_onlyConsents .revokeActiveConsents) (.trans (leaves_anonymizeClientData anonymizes) ?_)
      exact leaves_transition completes (by rw [target]; decide)
  | recordFailure liveActor requestId lockId =>
    obtain ⟨r, row, rfl | ⟨-, -, failed, args, r', exhausted, target, fails, row', rfl⟩⟩ := recordExecutionFailure_ok h
    · exact .of_eq rfl rfl rfl
    · have plain : args.target ≠ .processing := by
        rcases target with target | target
        · rw [target]
          decide
        · rw [target]
          decide
      refine .trans (leaves_transition fails plain) (leaves_put row' ?_)
      obtain ⟨s, hrow, -, -, rfl⟩ := transition_ok.mp fails
      obtain rfl : moved s args now = r' := Option.some.inj ((Table.row_put_self hrow).symm.trans row')
      show (moved s args now).status ≠ .processing
      rw [moved_status]
      exact plain

theorem not_joins (spares : SparesSubjects db (now, op)) (subject : u ∈ db.subjects) (known : db.staff.users.row u ≠ none) :
    ¬ op.joins db now u := by
  intro joins
  cases op with
  | staff op => exact spares joins.1 u subject joins.2
  | getOrCreateClient businessId telegramId =>
    obtain ⟨elsewhere, same, absent⟩ := joins
    unfold StaffDb.getOrCreateUser at same
    split at same
    · next i user found =>
      subst same
      exact spares elsewhere (u, user) (Option.mem_def.mpr found) subject absent
    · subst same
      exact known (db.staff.users.bounded _ le_rfl)
  | publishPolicy | acceptPrivacy | setMarketing | setRepeatBooking | requestDeletion | startReview | approve | reject
  | retryFailed | claim | run | recordFailure => exact joins

theorem clear_exec (clear : Clear db) (spares : SparesSubjects db (now, op)) (h : db.exec now op = .ok db') : Clear db' := by
  by_cases claims : ∃ liveActor i lockId, op = .claim liveActor i lockId
  · obtain ⟨liveActor, i, lockId, rfl⟩ := claims
    obtain ⟨⟨out, claimed⟩, claims, rfl⟩ := Except.fmap_ok.mp h
    obtain ⟨r, -, rfl | ⟨-, claim⟩ | ⟨-, -, failed, args, target, fails, rest⟩⟩ := claimAnonymization_ok claims
    · exact clear
    · exact clear_claimApproved clear claim
    · have clearFailed : Clear failed :=
        (@leaves_transition _ _ _ _ _ (fun _ => False) fails (by rw [target]; decide)).clear clear fun _ _ _ => id
      rcases rest with rfl | ⟨approved, args', target', approves, claim⟩
      · exact clearFailed
      · refine clear_claimApproved (@Leaves.clear _ _ (fun _ => False) ?_ clearFailed fun _ _ _ => id) claim
        exact leaves_transition approves (by rw [target']; decide)
  · have other : ∀ liveActor i lockId, op ≠ .claim liveActor i lockId := fun liveActor i lockId is =>
      claims ⟨liveActor, i, lockId, is⟩
    exact (leaves_exec h other).clear clear fun u subject known => not_joins spares subject known

theorem clear_step {l : Int × PrivacyOp} (clear : Clear db) (spares : SparesSubjects db l) : Clear (db.step l) := by
  rcases step_cases l with ok | same
  · exact clear_exec clear spares ok
  · rw [same]
    exact clear

/-- The transaction reaches the anonymisation of this user. -/
def Anonymises (db : PrivacyDb) (op : PrivacyOp) (u : Nat) : Prop :=
  match op with
  | .run _ requestId lockId _ => ∃ r ∈ db.requests.row requestId, r.status = .processing ∧ r.lockedBy = some lockId ∧
      ∃ c ∈ db.getClient r.businessClientId, c.userId = u
  | _ => False

theorem Clear.blockers {op : PrivacyOp} (clear : Clear db) (anonymises : Anonymises db op u) :
    (db.anonymizationBlockers u).errorCodes = [] := by
  cases op with
  | run liveActor requestId lockId counts =>
    obtain ⟨r, row, processing, -, c, client, rfl⟩ := anonymises
    obtain ⟨c', client', -, free⟩ := clear requestId r row processing
    obtain rfl : c = c' := Option.some.inj ((Option.filter_eq_some_iff.mp client).1.symm.trans client')
    exact free_iff.mpr free
  | staff | getOrCreateClient | publishPolicy | acceptPrivacy | setMarketing | setRepeatBooking | requestDeletion | startReview
  | approve | reject | retryFailed | claim | recordFailure => cases anonymises

/--
From a database without requests: in every run whose steps leave the subjects of claims alone, who is anonymised has no
blocker in the state in which the anonymisation begins.
-/
theorem anonymised_without_blockers (noRequests : db.requests = .empty) {l : List (Int × PrivacyOp)}
    (spares : Guarded PrivacyDb.step SparesSubjects db l) {pre post : List (Int × PrivacyOp)} {x : Int × PrivacyOp}
    (e : l = pre ++ x :: post) (anonymises : Anonymises (run PrivacyDb.step db pre) x.2 u) :
    ((run PrivacyDb.step db pre).anonymizationBlockers u).errorCodes = [] := by
  have start : Clear db := by
    intro i r row
    rw [noRequests, Table.row_empty] at row
    cases row
  have clear : Clear (run PrivacyDb.step db pre) :=
    run_induction (fun s y => clear_step) start pre (guarded_append.mp (e ▸ spares)).1
  exact clear.blockers anonymises

/-! ### Runs from an empty database -/

instance (db : StaffDb) (accounts : List Int) (u : Nat) : Decidable (db.Joins accounts u) :=
  inferInstanceAs (Decidable ((∃ user ∈ _, _) ∧ _))

instance (db : PrivacyDb) : (l : Int × PrivacyOp) → Decidable (SparesSubjects db l)
  | (_, .staff ..) => inferInstanceAs (Decidable (_ → ∀ u ∈ _, ¬ _))
  | (_, .getOrCreateClient ..) => inferInstanceAs (Decidable (_ → ∀ user ∈ _, _ → _))
  | (_, .publishPolicy ..) | (_, .acceptPrivacy ..) | (_, .setMarketing ..) | (_, .setRepeatBooking ..)
  | (_, .requestDeletion ..) | (_, .startReview ..) | (_, .approve ..) | (_, .reject ..) | (_, .retryFailed ..) | (_, .claim ..)
  | (_, .run ..) | (_, .recordFailure ..) => instDecidableTrue

instance (db : PrivacyDb) (u : Nat) : (op : PrivacyOp) → Decidable (Anonymises db op u)
  | .run .. => inferInstanceAs (Decidable (∃ r ∈ _, _ ∧ _ ∧ ∃ c ∈ _, _))
  | .staff .. | .getOrCreateClient .. | .publishPolicy .. | .acceptPrivacy .. | .setMarketing .. | .setRepeatBooking ..
  | .requestDeletion .. | .startReview .. | .approve .. | .reject .. | .retryFailed .. | .claim .. | .recordFailure .. =>
    instDecidableFalse

namespace Sample

def master : StaffInvitationCreate := ⟨.master, "Вера", true, 24, StaffInvitationCreate.day_in_range, fun _ => rfl⟩

/-- A client with a claimed request, and an invitation that is still open. -/
def invited : List (Int × PrivacyOp) :=
  [(0, .staff (.bootstrapOwners [100] "Анна")), (1, .staff (.issueInvitation 100 master "token"))] ++ claimed

def accepts : Int × PrivacyOp := (40, .staff (.acceptInvitation "token" 200))

def runs : Int × PrivacyOp := (50, .run owner 1 "a" ⟨0, 0, 0, 0, 0, 2, 1⟩)

end Sample

/-- The client joins the staff after the claim, and is anonymised all the same. -/
theorem anonymised_despite_blocker :
    let db := run PrivacyDb.step Sample.unused (Sample.invited ++ [Sample.accepts])
    Anonymises db Sample.runs.2 2 ∧ (db.anonymizationBlockers 2).errorCodes = ["active_staff_role.master"] ∧
      ((db.step Sample.runs).clients.row 1).map (·.isActive) = some false ∧
      ((db.step Sample.runs).staff.users.row 2).map (·.isBlocked) = some true := by
  decide +kernel

/-- An invitation that somebody else accepts. -/
theorem anonymised_without_blockers_invited :
    Anonymises (run PrivacyDb.step Sample.unused (Sample.invited ++ [(40, .staff (.acceptInvitation "token" 300))]))
        Sample.runs.2 2 ∧
      ((run PrivacyDb.step Sample.unused
        (Sample.invited ++ [(40, .staff (.acceptInvitation "token" 300))])).anonymizationBlockers 2).errorCodes = [] := by
  have spares : Guarded PrivacyDb.step SparesSubjects Sample.unused
      (Sample.invited ++ [(40, .staff (.acceptInvitation "token" 300))] ++ [Sample.runs]) := by
    decide +kernel
  have anonymises : Anonymises (run PrivacyDb.step Sample.unused
      (Sample.invited ++ [(40, .staff (.acceptInvitation "token" 300))])) Sample.runs.2 2 := by
    decide +kernel
  exact ⟨anonymises, anonymised_without_blockers rfl spares rfl anonymises⟩

end SalonBooking.Privacy
