import SalonBooking.Domain.Enums
import SalonBooking.Lib.Guarded
import Mathlib

/-!
# Staff memberships

`services/authorization_service.py` with `repositories/staff_repository.py`, and the two operations of
`services/business_service.py` that touch the business type. One business; a membership belongs to a user of
`users`, and every operation authorizes its actor anew by Telegram id. The other tables that
`solo_transition_blockers` counts are the argument `SoloCounts`.
-/

namespace SalonBooking.Staff

open Lib

/-- The permissions that the operations ask for or grant. -/
inductive StaffPermission
  | manageBusiness | inviteStaff | manageStaff | manageBroadcasts | overrideBookingLimit | handleDataDeletion
deriving DecidableEq, Repr

inductive StaffInvitationStatus
  | active | used | revoked | expired
deriving DecidableEq, Repr

inductive BusinessType
  | solo | salon
deriving DecidableEq, Repr

inductive StaffError
  | authorization (text : String)
  | entityNotFound (text : String)
  | businessTypeTransition (blockers : List String)
  | value (text : String)
  | integrity
deriving DecidableEq, Repr

abbrev StaffCheck (α : Type) : Type := Except StaffError α

structure User where
  telegramId : Int
  isBlocked : Bool
deriving DecidableEq

/-- `staff_members`. -/
structure StaffMember where
  userId : Option Nat
  displayName : String
  role : StaffRole
  isActive : Bool
  isBookable : Bool
  isBootstrapOwner : Bool
  permissionGrants : List StaffPermission
  archivedAt : Option Int
deriving DecidableEq

/-- `staff_invitations`. -/
structure StaffInvitation where
  tokenDigest : String
  role : StaffRole
  displayName : String
  isBookable : Bool
  status : StaffInvitationStatus
  expiresAt : Int
  createdByStaffId : Nat
  acceptedByUserId : Option Nat
  usedAt : Option Int
  revokedAt : Option Int
  revokedByStaffId : Option Nat
deriving DecidableEq

structure StaffDb where
  users : Table User
  members : Table StaffMember
  invitations : Table StaffInvitation
  businessType : BusinessType

/-- `StaffContext`. -/
structure StaffContext where
  staffMemberId : Nat
  userId : Nat
  role : StaffRole
  isBookable : Bool
  isBootstrapOwner : Bool
  permissionGrants : List StaffPermission
deriving DecidableEq

/-- `ROLE_PERMISSIONS`. -/
def rolePermissions : StaffRole → List StaffPermission
  | .owner => [.manageBusiness, .inviteStaff, .manageStaff, .manageBroadcasts, .overrideBookingLimit, .handleDataDeletion]
  | .manager => [.manageBroadcasts]
  | .master | .receptionist => []

/-- `GRANTABLE_STAFF_PERMISSIONS`, in the order in which grants are stored. -/
def grantable : List StaffPermission := [.inviteStaff, .manageBroadcasts, .manageStaff, .overrideBookingLimit]

/-- `StaffContext.has_permission`. -/
def StaffContext.hasPermission (actor : StaffContext) (permission : StaffPermission) : Prop :=
  permission ∈ if actor.isBootstrapOwner then rolePermissions .owner else rolePermissions actor.role ++ actor.permissionGrants

instance (actor : StaffContext) (permission : StaffPermission) : Decidable (actor.hasPermission permission) :=
  inferInstanceAs (Decidable (_ ∈ _))

/-- `can_assign_role`. -/
def canAssignRole (actor target : StaffRole) (actorIsBootstrap : Bool) : Bool :=
  match target with
  | .owner => actorIsBootstrap
  | _ => actor == .owner || (actor == .manager && (target == .master || target == .receptionist))

/-- `StaffInvitationCreate` after its validators. -/
structure StaffInvitationCreate where
  role : StaffRole
  displayName : String
  isBookable : Bool
  expiresInHours : Int
  hours_range : 1 ≤ expiresInHours ∧ expiresInHours ≤ 720
  only_masters_are_bookable : isBookable = true → role = .master

theorem StaffInvitationCreate.day_in_range : (1 : Int) ≤ 24 ∧ (24 : Int) ≤ 720 := by decide

/-- What `solo_transition_blockers` counts of the other staff in other tables. -/
structure SoloCounts where
  assignments : Nat
  weekly : Nat
  exceptions : Nat
  futureAppointments : Nat

namespace StaffDb

variable (db : StaffDb)

def userByTelegramId (telegramId : Int) : Option (Nat × User) := (db.users.select (·.telegramId == telegramId)).head?

/-- `get_by_user_id`. -/
def memberByUserId (userId : Nat) : Option (Nat × StaffMember) := (db.members.select (·.userId == some userId)).head?

/-- `get_by_telegram_id` for all memberships. -/
def memberByTelegramId (telegramId : Int) : Option ((Nat × StaffMember) × (Nat × User)) := do
  let user ← db.userByTelegramId telegramId
  let member ← db.memberByUserId user.1
  return (member, user)

/-- `get_bootstrap_owner`. -/
def bootstrapOwner : Option (Nat × StaffMember) := (db.members.select (·.isBootstrapOwner)).head?

/-- `get_or_create_user`. -/
def getOrCreateUser (telegramId : Int) : Nat × User × StaffDb :=
  match db.userByTelegramId telegramId with
  | some (i, user) => (i, user, db)
  | none => (db.users.next, ⟨telegramId, false⟩, { db with users := db.users.insert ⟨telegramId, false⟩ })

def specialists : List (Nat × StaffMember) := db.members.select fun m => m.isActive && m.isBookable && m.archivedAt.isNone

/-- The type that `sync_business_type` derives. -/
def derivedType : BusinessType := if 1 < db.specialists.length then .salon else .solo

/-- `sync_business_type`. -/
def syncBusinessType : StaffDb := { db with businessType := db.derivedType }

def setMember (i : Nat) (m : StaffMember) : StaffDb := { db with members := db.members.put i m }

def setInvitation (i : Nat) (inv : StaffInvitation) : StaffDb := { db with invitations := db.invitations.put i inv }

/-- `solo_transition_blockers`. -/
def soloTransitionBlockers (bootstrapStaffId : Nat) (others : SoloCounts) : List String :=
  let names := fun (l : List (Nat × StaffMember)) =>
    ", ".intercalate ((l.filter (·.1 ≠ bootstrapStaffId)).map (·.2.displayName) |>.insertionSort (· ≤ ·))
  let otherStaff := (db.members.select fun m => m.isActive && m.archivedAt.isNone).filter (·.1 ≠ bootstrapStaffId)
  let otherSpecialists := db.specialists.filter (·.1 ≠ bootstrapStaffId)
  (if otherStaff = [] then [] else ["активные сотрудники: " ++ names otherStaff]) ++
  (if otherSpecialists = [] then [] else ["активные специалисты: " ++ names otherSpecialists]) ++
  (if others.assignments = 0 then [] else
    ["назначения услуг другим специалистам: " ++ toString others.assignments]) ++
  (if others.weekly = 0 ∧ others.exceptions = 0 then [] else
    ["элементы расписания других специалистов: " ++ toString (others.weekly + others.exceptions)]) ++
  (if others.futureAppointments = 0 then [] else
    ["будущие записи других специалистов: " ++ toString others.futureAppointments])

end StaffDb

namespace AuthorizationService

/-- `_context`. -/
def context (i : Nat) (m : StaffMember) (userId : Nat) : StaffContext :=
  ⟨i, userId, m.role, m.isBookable, m.isBootstrapOwner, m.permissionGrants⟩

/-- `_live_context`. -/
def liveContext (db : StaffDb) (telegramId : Int) : StaffCheck StaffContext := do
  let ((i, member), (userId, _)) ← orRaise
    ((db.memberByTelegramId telegramId).filter fun row => row.1.2.isActive && row.1.2.archivedAt.isNone)
    (.authorization "Доступ сотрудника не найден или отозван.")
  return context i member userId

/-- `_require_permission`. -/
def requirePermission (actor : StaffContext) (permission : StaffPermission) : StaffCheck Unit :=
  require (actor.hasPermission permission) (.authorization "Недостаточно прав для этого действия.")

/-- `_require_assignable_role`. -/
def requireAssignableRole (actor : StaffContext) (target : StaffRole) : StaffCheck Unit :=
  require (canAssignRole actor.role target actor.isBootstrapOwner = true)
    (.authorization "Нельзя назначить выбранную роль.")

/-- `_require_manageable_target`. -/
def requireManageableTarget (actor : StaffContext) (targetId : Nat) (target : StaffMember) : StaffCheck Unit := do
  require (¬ (targetId = actor.staffMemberId ∨ target.isBootstrapOwner = true))
    (.authorization "Bootstrap-владельца и собственную роль изменять нельзя.")
  if target.role = .owner then
    require (actor.isBootstrapOwner = true)
      (.authorization "Управлять другими владельцами может только bootstrap.")
  else
    require (actor.role = .owner ∨
        (actor.role = .manager ∧ (target.role = .master ∨ target.role = .receptionist)))
      (.authorization "Недостаточно прав для изменения этого сотрудника.")

def memberNotFound : StaffError := .entityNotFound "Сотрудник не найден."

def invalidInvitation : StaffError := .authorization "Приглашение недействительно, уже использовано или истекло."

/-- `issue_invitation`; the token enters through its digest. -/
def issueInvitation (actor : Int) (values : StaffInvitationCreate) (digest : String) (now : Int) (db : StaffDb) :
    StaffCheck StaffDb := do
  let liveActor ← liveContext db actor
  requirePermission liveActor .inviteStaff
  requireAssignableRole liveActor values.role
  require (db.invitations.select (·.tokenDigest == digest) = []) .integrity
  let invitation : StaffInvitation :=
    { tokenDigest := digest, role := values.role, displayName := values.displayName, isBookable := values.isBookable
      status := .active, expiresAt := now + values.expiresInHours * 3600, createdByStaffId := liveActor.staffMemberId
      acceptedByUserId := none, usedAt := none, revokedAt := none, revokedByStaffId := none }
  return { db with invitations := db.invitations.insert invitation }

/-- `accept_invitation`; an expired invitation is recorded as such before the refusal. -/
def acceptInvitation (digest : String) (telegramId : Int) (now : Int) (db : StaffDb) : StaffCheck StaffDb := do
  let (i, invitation) ← orRaise ((db.invitations.select (·.tokenDigest == digest)).head?) invalidInvitation
  require (invitation.status = .active) invalidInvitation
  if invitation.expiresAt ≤ now then
    return db.setInvitation i { invitation with status := .expired }
  let (userId, _, db) := db.getOrCreateUser telegramId
  require (db.memberByUserId userId = none)
    (.authorization "Этот Telegram-пользователь уже связан с сотрудником бизнеса.")
  let member : StaffMember :=
    { userId := some userId, displayName := invitation.displayName, role := invitation.role, isActive := true
      isBookable := invitation.isBookable, isBootstrapOwner := false, permissionGrants := [], archivedAt := none }
  let db := { db with members := db.members.insert member }
  return (db.setInvitation i
    { invitation with status := .used, acceptedByUserId := some userId, usedAt := some now }).syncBusinessType

/-- `revoke_invitation`; an expired invitation is recorded as such before the refusal. -/
def revokeInvitation (actor : Int) (invitationId : Nat) (now : Int) (db : StaffDb) : StaffCheck StaffDb := do
  let liveActor ← liveContext db actor
  requirePermission liveActor .inviteStaff
  let invitation ← orRaise (db.invitations.row invitationId) (.entityNotFound "Активное приглашение не найдено.")
  require (invitation.status = .active) (.entityNotFound "Активное приглашение не найдено.")
  requireAssignableRole liveActor invitation.role
  if invitation.expiresAt ≤ now then
    return db.setInvitation invitationId { invitation with status := .expired }
  return db.setInvitation invitationId
    { invitation with status := .revoked, revokedAt := some now, revokedByStaffId := some liveActor.staffMemberId }

/-- The target of an operation on a membership, after all checks on it. -/
def manageableTarget (liveActor : StaffContext) (staffMemberId : Nat) (db : StaffDb) : StaffCheck StaffMember := do
  let target ← orRaise (db.members.row staffMemberId) memberNotFound
  requireManageableTarget liveActor staffMemberId target
  return target

/-- `revoke_member`. -/
def revokeMember (actor : Int) (staffMemberId : Nat) (now : Int) (db : StaffDb) : StaffCheck StaffDb := do
  let liveActor ← liveContext db actor
  requirePermission liveActor .manageStaff
  let target ← manageableTarget liveActor staffMemberId db
  return (db.setMember staffMemberId
    { target with isActive := false, isBookable := false, archivedAt := some now, permissionGrants := [] }).syncBusinessType

/-- `change_member_role`. -/
def changeMemberRole (actor : Int) (staffMemberId : Nat) (role : StaffRole) (db : StaffDb) : StaffCheck StaffDb := do
  let liveActor ← liveContext db actor
  requirePermission liveActor .manageStaff
  let target ← manageableTarget liveActor staffMemberId db
  requireAssignableRole liveActor role
  let isBookable := if role ≠ .master ∧ target.isBootstrapOwner = false then false else target.isBookable
  return (db.setMember staffMemberId { target with role, isBookable }).syncBusinessType

/-- `set_permission_grant`. -/
def setPermissionGrant (actor : Int) (staffMemberId : Nat) (permission : StaffPermission) (enabled : Bool) (db : StaffDb) :
    StaffCheck StaffDb := do
  require (permission ∈ grantable) (.authorization "Это разрешение нельзя выдавать отдельно.")
  let liveActor ← liveContext db actor
  require (liveActor.role = .owner) (.authorization "Только владелец может менять дополнительные разрешения.")
  let target ← manageableTarget liveActor staffMemberId db
  let updated := if enabled then permission :: target.permissionGrants else target.permissionGrants.filter (· ≠ permission)
  return db.setMember staffMemberId { target with permissionGrants := grantable.filter (· ∈ updated) }

/-- `set_staff_bookable`. -/
def setStaffBookable (actor : Int) (staffMemberId : Nat) (enabled : Bool) (db : StaffDb) : StaffCheck StaffDb := do
  let liveActor ← liveContext db actor
  requirePermission liveActor .manageStaff
  let member ← orRaise (db.members.row staffMemberId) (.entityNotFound "Профиль мастера не найден.")
  require (member.isActive = true ∧ member.archivedAt = none) (.entityNotFound "Профиль мастера не найден.")
  require (¬ (enabled = true ∧ ¬ (member.role = .owner ∨ member.role = .master)))
    (.authorization "Принимать записи может владелец или сотрудник с ролью мастера.")
  return (db.setMember staffMemberId { member with isBookable := enabled }).syncBusinessType

/-- A membership that `bootstrap_owners` creates. -/
def newOwner (userId : Nat) (displayName : String) (isBookable isBootstrapOwner : Bool) : StaffMember :=
  { userId := some userId, displayName, role := .owner, isActive := true, isBookable, isBootstrapOwner
    permissionGrants := [], archivedAt := none }

def bindBootstrapOwner (telegramId : Int) (displayName : String) (db : StaffDb) : StaffCheck StaffDb :=
  match db.bootstrapOwner, db.memberByTelegramId telegramId with
  | some (i, _), configured => do
    require (configured.any fun row => row.1.1 == i)
      (.authorization "Настроенный bootstrap ID не совпадает с неизменяемым владельцем экземпляра.")
    return db
  | none, some ((i, member), (_, user)) => do
    require (member.role = .owner ∧ member.isActive = true ∧ member.archivedAt = none ∧ user.isBlocked = false)
      (.authorization "Настроенный bootstrap ID связан с отозванной или заблокированной ролью.")
    return db.setMember i { member with isBootstrapOwner := true, permissionGrants := [] }
  | none, none => do
    let (userId, user, db) := db.getOrCreateUser telegramId
    require (user.isBlocked = false) (.authorization "Bootstrap-владелец не может быть заблокирован.")
    return { db with members := db.members.insert (newOwner userId displayName (db.businessType == .solo) true) }

def seedOwner (displayName : String) (db : StaffDb) (configured : Nat × Int) : StaffDb :=
  match db.memberByTelegramId configured.2 with
  | some _ => db
  | none =>
    let (userId, _, db) := db.getOrCreateUser configured.2
    { db with members := db.members.insert (newOwner userId (displayName ++ " " ++ toString configured.1) false false) }

/-- `bootstrap_owners`. -/
def bootstrapOwners (telegramIds : List Int) (displayName : String) (db : StaffDb) : StaffCheck StaffDb := do
  require (∀ t ∈ telegramIds, 0 < t) (.value "bootstrap Telegram IDs must be positive integers")
  require (strip displayName ≠ "") (.value "bootstrap display name must not be empty")
  match telegramIds.eraseDups with
  | [] => throw (.value "at least one bootstrap Telegram ID is required")
  | first :: others =>
    let db ← bindBootstrapOwner first (strip displayName) db
    return (others.zipIdx 2).foldl (fun db p => seedOwner (strip displayName) db (p.2, p.1)) db

end AuthorizationService

namespace BusinessAdministrationService

open Staff.AuthorizationService

/-- `update`, as far as the type is concerned. -/
def update (actor : Int) (businessType : Option BusinessType) (others : SoloCounts) (db : StaffDb) : StaffCheck StaffDb := do
  let liveActor ← liveContext db actor
  requirePermission liveActor .manageBusiness
  if businessType = some .solo ∧ db.businessType = .salon then
    let (bootstrapId, _) ← orRaise db.bootstrapOwner
      (.businessTypeTransition ["bootstrap-владелец ещё не привязан"])
    let blockers := db.soloTransitionBlockers bootstrapId others
    require (blockers = []) (.businessTypeTransition blockers)
  return { db with businessType := businessType.getD db.businessType }

/-- `set_bootstrap_bookable`. -/
def setBootstrapBookable (actor : Int) (enabled : Bool) (db : StaffDb) : StaffCheck StaffDb := do
  let liveActor ← liveContext db actor
  requirePermission liveActor .manageBusiness
  require (liveActor.isBootstrapOwner = true)
    (.authorization "Только bootstrap-владелец может изменить свой профиль.")
  let member ← orRaise (db.members.row liveActor.staffMemberId) (.entityNotFound "Bootstrap-профиль не найден.")
  require (member.isBootstrapOwner = true) (.entityNotFound "Bootstrap-профиль не найден.")
  require (¬ (enabled = true ∧ db.businessType ≠ .solo))
    (.authorization "Отметить bootstrap специалистом можно в режиме «Один мастер».")
  return db.setMember liveActor.staffMemberId { member with isBookable := enabled }

end BusinessAdministrationService

/-! ### Lookups -/

namespace StaffDb

open Staff.AuthorizationService

variable {db : StaffDb} {telegramId : Int} {i : Nat} {m : StaffMember}

theorem memberByTelegramId_row {u : Nat × User} (h : db.memberByTelegramId telegramId = some ((i, m), u)) :
    db.members.row i = some m := by
  simp only [memberByTelegramId, Option.bind_eq_bind, Option.bind_eq_some_iff, Option.pure_def, Option.some.injEq,
    Prod.mk.injEq] at h
  obtain ⟨u, -, r, found, rfl, -⟩ := h
  exact (Table.mem_select.mp (List.mem_of_mem_head? found)).1

theorem manageableTarget_row {liveActor : StaffContext} (h : manageableTarget liveActor i db = .ok m) :
    db.members.row i = some m := by
  simp only [manageableTarget, Except.bind_ok, Except.orRaise_ok, Except.pure_ok] at h
  obtain ⟨m', row, -, -, rfl⟩ := h
  exact row

theorem getOrCreateUser_members : (db.getOrCreateUser telegramId).2.2.members = db.members := by
  unfold getOrCreateUser
  split <;> rfl

theorem getOrCreateUser_invitations : (db.getOrCreateUser telegramId).2.2.invitations = db.invitations := by
  unfold getOrCreateUser
  split <;> rfl

end StaffDb

/-! ### Runs -/

inductive StaffOp
  | issueInvitation (actor : Int) (values : StaffInvitationCreate) (digest : String)
  | acceptInvitation (digest : String) (telegramId : Int)
  | revokeInvitation (actor : Int) (invitationId : Nat)
  | revokeMember (actor : Int) (staffMemberId : Nat)
  | changeMemberRole (actor : Int) (staffMemberId : Nat) (role : StaffRole)
  | setPermissionGrant (actor : Int) (staffMemberId : Nat) (permission : StaffPermission) (enabled : Bool)
  | setStaffBookable (actor : Int) (staffMemberId : Nat) (enabled : Bool)
  | bootstrapOwners (telegramIds : List Int) (displayName : String)
  | updateBusiness (actor : Int) (businessType : Option BusinessType) (others : SoloCounts)
  | setBootstrapBookable (actor : Int) (enabled : Bool)

namespace StaffDb

open Staff.AuthorizationService in
/-- One operation at the instant `now`. -/
def exec (db : StaffDb) (now : Int) : StaffOp → StaffCheck StaffDb
  | .issueInvitation actor values digest => issueInvitation actor values digest now db
  | .acceptInvitation digest telegramId => acceptInvitation digest telegramId now db
  | .revokeInvitation actor invitationId => revokeInvitation actor invitationId now db
  | .revokeMember actor staffMemberId => revokeMember actor staffMemberId now db
  | .changeMemberRole actor staffMemberId role => changeMemberRole actor staffMemberId role db
  | .setPermissionGrant actor staffMemberId permission enabled => setPermissionGrant actor staffMemberId permission enabled db
  | .setStaffBookable actor staffMemberId enabled => setStaffBookable actor staffMemberId enabled db
  | .bootstrapOwners telegramIds displayName => bootstrapOwners telegramIds displayName db
  | .updateBusiness actor businessType others => BusinessAdministrationService.update actor businessType others db
  | .setBootstrapBookable actor enabled => BusinessAdministrationService.setBootstrapBookable actor enabled db

/-- A refused operation changes nothing. -/
def step (db : StaffDb) (l : Int × StaffOp) : StaffDb := ((db.exec l.1 l.2).toOption).getD db

end StaffDb

end SalonBooking.Staff
