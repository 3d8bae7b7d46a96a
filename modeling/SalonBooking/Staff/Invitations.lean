import SalonBooking.Lib.Statements
import SalonBooking.Staff.Members

/-!
# Invitations as transactions

`accept_invitation` and `revoke_invitation` statement by statement, in the world where any number of them is open at
the same time. The instant of a call is the one that it reads before its first statement.
-/

namespace SalonBooking.Staff

open Lib

/-- `businesses`, as far as its type is concerned. -/
structure Business where
  businessType : BusinessType
  deriving DecidableEq

/-- The tables that the transactions lock, read and write. -/
inductive StaffTable
  | invitations | members | users | business
  deriving DecidableEq

instance : Fintype StaffTable := ⟨{.invitations, .members, .users, .business}, fun t => by cases t <;> decide⟩

@[reducible] def StaffTable.Row : StaffTable → Type
  | invitations => StaffInvitation
  | members => StaffMember
  | users => User
  | business => Business

instance : ∀ t : StaffTable, DecidableEq t.Row
  | .invitations => inferInstanceAs (DecidableEq StaffInvitation)
  | .members => inferInstanceAs (DecidableEq StaffMember)
  | .users => inferInstanceAs (DecidableEq User)
  | .business => inferInstanceAs (DecidableEq Business)

instance : Columns StaffInvitation where
  write l a s :=
    { tokenDigest := flushed l.tokenDigest a.tokenDigest s.tokenDigest
      role := flushed l.role a.role s.role
      displayName := flushed l.displayName a.displayName s.displayName
      isBookable := flushed l.isBookable a.isBookable s.isBookable
      status := flushed l.status a.status s.status
      expiresAt := flushed l.expiresAt a.expiresAt s.expiresAt
      createdByStaffId := flushed l.createdByStaffId a.createdByStaffId s.createdByStaffId
      acceptedByUserId := flushed l.acceptedByUserId a.acceptedByUserId s.acceptedByUserId
      usedAt := flushed l.usedAt a.usedAt s.usedAt
      revokedAt := flushed l.revokedAt a.revokedAt s.revokedAt
      revokedByStaffId := flushed l.revokedByStaffId a.revokedByStaffId s.revokedByStaffId }
  write_fresh l a := by simp
  write_untouched l s := by simp

instance : Columns StaffMember where
  write l a s :=
    { userId := flushed l.userId a.userId s.userId
      displayName := flushed l.displayName a.displayName s.displayName
      role := flushed l.role a.role s.role
      isActive := flushed l.isActive a.isActive s.isActive
      isBookable := flushed l.isBookable a.isBookable s.isBookable
      isBootstrapOwner := flushed l.isBootstrapOwner a.isBootstrapOwner s.isBootstrapOwner
      permissionGrants := flushed l.permissionGrants a.permissionGrants s.permissionGrants
      archivedAt := flushed l.archivedAt a.archivedAt s.archivedAt }
  write_fresh l a := by simp
  write_untouched l s := by simp

instance : Columns User where
  write l a s :=
    { telegramId := flushed l.telegramId a.telegramId s.telegramId
      isBlocked := flushed l.isBlocked a.isBlocked s.isBlocked }
  write_fresh l a := by simp
  write_untouched l s := by simp

instance : Columns Business where
  write l a s := { businessType := flushed l.businessType a.businessType s.businessType }
  write_fresh l a := by simp
  write_untouched l s := by simp

instance : ∀ t : StaffTable, Columns t.Row
  | .invitations => inferInstanceAs (Columns StaffInvitation)
  | .members => inferInstanceAs (Columns StaffMember)
  | .users => inferInstanceAs (Columns User)
  | .business => inferInstanceAs (Columns Business)

/-- What a call returns or raises. -/
inductive StaffAnswer
  | refused (error : StaffError)
  | accepted (invitationId : Nat) (acceptedAt : Int) (staff : StaffContext)
  | revoked (invitationId : Nat) (role : StaffRole) (revokedAt : Int)
  deriving DecidableEq

abbrev StaffTx : Type := Tx StaffTable.Row Empty StaffAnswer

/-- A check that raises rolls the transaction back. -/
def checked (check : StaffCheck Unit) (next : StaffTx) : StaffTx :=
  match check with
  | .error e => .done (.refused e)
  | .ok () => next

namespace StaffRepository

/-- `get_or_create_user`: an upsert locks the row that is there. -/
def getOrCreateUser (telegramId : Int) (next : Nat → StaffTx) : StaffTx :=
  .lock .users (fun users => (users.select (·.telegramId == telegramId)).map Prod.fst) fun
    | [] => .insert .users ⟨telegramId, false⟩ next
    | (i, _) :: _ => next i

/-- `sync_business_type`. -/
def syncBusinessType (next : StaffTx) : StaffTx :=
  .select .members (fun members =>
      (members.select fun m => m.isActive && m.isBookable && m.archivedAt.isNone).map Prod.fst) fun specialists =>
    .getForUpdate .business 1 fun
      | none => .done (.refused (.value "business_not_found"))
      | some _ => .assign .business 1 ⟨if 1 < specialists.length then .salon else .solo⟩ (.flush next)

/-- `get_by_telegram_id`: the join, as two selects. -/
def getByTelegramId (telegramId : Int) (next : Option ((Nat × StaffMember) × Nat) → StaffTx) : StaffTx :=
  .select .users (fun users => (users.select (·.telegramId == telegramId)).map Prod.fst) fun users =>
    match users.head? with
    | none => next none
    | some (userId, _) =>
      .select .members (fun members =>
          (members.select fun m => m.userId == some userId && m.isActive && m.archivedAt.isNone).map Prod.fst) fun members =>
        next (members.head?.map fun member => (member, userId))

end StaffRepository

namespace InvitationService

open Staff.AuthorizationService Staff.StaffRepository

def alreadyMember : StaffError := .authorization "Этот Telegram-пользователь уже связан с сотрудником бизнеса."

def notActive : StaffError := .entityNotFound "Активное приглашение не найдено."

/-- The membership that an acceptance creates. -/
def invited (invitation : StaffInvitation) (userId : Nat) : StaffMember :=
  { userId := some userId, displayName := invitation.displayName, role := invitation.role, isActive := true
    isBookable := invitation.isBookable, isBootstrapOwner := false, permissionGrants := [], archivedAt := none }

/-- `accept_invitation`; an expired invitation is recorded as such before the refusal. -/
def acceptInvitation (digest : String) (telegramId now : Int) : StaffTx :=
  .lock .invitations (fun invitations => (invitations.select (·.tokenDigest == digest)).map Prod.fst) fun rows =>
    match rows.head? with
    | none => .done (.refused invalidInvitation)
    | some (i, invitation) =>
      checked (require (invitation.status = .active) invalidInvitation) <|
      if invitation.expiresAt ≤ now then
        .assign .invitations i { invitation with status := .expired } (.flush (.commit (.refused invalidInvitation)))
      else
        getOrCreateUser telegramId fun userId =>
        .lock .members (fun members => (members.select (·.userId == some userId)).map Prod.fst) fun existing =>
        checked (require (existing = []) alreadyMember) <|
        .insert .members (invited invitation userId) fun memberId =>
        .assign .invitations i
          { invitation with status := .used, acceptedByUserId := some userId, usedAt := some now } <|
        .flush <| syncBusinessType <|
        .commit (.accepted i now (context memberId (invited invitation userId) userId))

/-- `revoke_invitation`; an expired invitation is recorded as such before the refusal. -/
def revokeInvitation (actor : Int) (invitationId : Nat) (now : Int) : StaffTx :=
  getByTelegramId actor fun
    | none => .done (.refused (.authorization "Доступ сотрудника не найден или отозван."))
    | some ((staffId, member), userId) =>
      let liveActor := context staffId member userId
      checked (requirePermission liveActor .inviteStaff) <|
      .getForUpdate .invitations invitationId fun
        | none => .done (.refused notActive)
        | some invitation =>
          checked (require (invitation.status = .active) notActive) <|
          checked (requireAssignableRole liveActor invitation.role) <|
          if invitation.expiresAt ≤ now then
            .assign .invitations invitationId { invitation with status := .expired }
              (.flush (.commit (.refused notActive)))
          else
            .assign .invitations invitationId
              { invitation with status := .revoked, revokedAt := some now, revokedByStaffId := some staffId }
              (.flush (.commit (.revoked invitationId invitation.role now)))

end InvitationService

/-- The calls that compete for an invitation. -/
inductive InvitationOp
  | acceptInvitation (digest : String) (telegramId now : Int)
  | revokeInvitation (actor : Int) (invitationId : Nat) (now : Int)

namespace InvitationOp

def tx : InvitationOp → StaffTx
  | acceptInvitation digest telegramId now => InvitationService.acceptInvitation digest telegramId now
  | revokeInvitation actor invitationId now => InvitationService.revokeInvitation actor invitationId now

end InvitationOp

abbrev InvitationWorld : Type := World StaffTable.Row Empty StaffAnswer InvitationOp

end SalonBooking.Staff
