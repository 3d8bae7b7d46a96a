import SalonBooking.Lib.Alone
import SalonBooking.Staff.Invitations

/-!
# Calls that nobody interrupts

`accept_invitation` and `revoke_invitation` are modelled twice: as one step of the staff database, and statement by
statement. Run alone, the statements commit the tables that the step leads to, and commit nothing where it raises.
-/

namespace SalonBooking.Staff

open Lib Staff.AuthorizationService

def StaffDb.tables (db : StaffDb) : (t : StaffTable) → Table t.Row
  | .invitations => db.invitations
  | .members => db.members
  | .users => db.users
  | .business => Table.empty.insert ⟨db.businessType⟩

/-- The call as an operation on the staff database, with its instant. -/
def InvitationOp.staffOp : InvitationOp → Int × StaffOp
  | acceptInvitation digest telegramId now => (now, .acceptInvitation digest telegramId)
  | revokeInvitation actor invitationId now => (now, .revokeInvitation actor invitationId)

namespace StaffDb

variable {db : StaffDb} {telegramId : Int} {userId : Nat} {i : Nat}

@[simp] theorem tables_invitations : db.tables .invitations = db.invitations := rfl

@[simp] theorem tables_members : db.tables .members = db.members := rfl

@[simp] theorem tables_users : db.tables .users = db.users := rfl

theorem tables_setInvitation {inv : StaffInvitation} :
    Function.update db.tables .invitations (db.invitations.put i inv) = (db.setInvitation i inv).tables := by
  funext t
  cases t <;> rfl

theorem tables_insertMember {m : StaffMember} :
    Function.update db.tables .members (db.members.insert m) = tables { db with members := db.members.insert m } := by
  funext t
  cases t <;> rfl

theorem tables_insertUser {user : User} :
    Function.update db.tables .users (db.users.insert user) = tables { db with users := db.users.insert user } := by
  funext t
  cases t <;> rfl

theorem tables_syncBusinessType :
    Function.update db.tables .business ((db.tables .business).put 1 ⟨db.derivedType⟩) = db.syncBusinessType.tables := by
  funext t
  cases t with
  | business => exact Table.put_insert_next (t := Table.empty) (a := Business.mk db.businessType)
  | _ => rfl

/-- The unique index on `user_id` lets the join filter the memberships before or after it takes the first. -/
theorem head?_live (distinct : db.members.Distinct (·.userId)) :
    (db.members.select fun m => m.userId == some userId && m.isActive && m.archivedAt.isNone).head? =
      (db.memberByUserId userId).filter fun r => r.2.isActive && r.2.archivedAt.isNone := by
  simp only [Bool.and_assoc]
  exact distinct.head?_select

end StaffDb

namespace StaffRepository

variable {db : StaffDb} {v : View StaffTable.Row}

theorem alone_getOrCreateUser (telegramId : Int) (h : v.Settled db.tables) : ∃ v',
    (∀ next, (getOrCreateUser telegramId next).alone v = (next (db.getOrCreateUser telegramId).1).alone v') ∧
      v'.Settled (db.getOrCreateUser telegramId).2.2.tables ∧
      ∀ i, v.Known .invitations i → v'.Known .invitations i := by
  have loaded := h.load true (t := .users) ((db.users.select (·.telegramId == telegramId)).map Prod.fst)
  have locked : ∀ next : Nat → StaffTx, (getOrCreateUser telegramId next).alone v = _ := fun next => h.alone_lock
  simp only [StaffDb.tables_users] at locked
  unfold StaffDb.getOrCreateUser StaffDb.userByTelegramId
  cases found : db.users.select (·.telegramId == telegramId) with
  | nil =>
    rw [found] at loaded locked
    have created := loaded.insert (t := .users) (User.mk telegramId false)
    rw [StaffDb.tables_users, StaffDb.tables_insertUser] at created
    refine ⟨_, fun next => ?_, created, fun i known => (known.load true _).insert (by simp) _⟩
    rw [locked, List.head?_nil, ← StaffDb.tables_users, ← loaded.next_eq]
    rfl
  | cons r rows =>
    rw [found] at loaded locked
    exact ⟨_, locked, loaded, fun i known => known.load true _⟩

theorem alone_syncBusinessType (next : StaffTx) (h : v.Settled db.tables) :
    ∃ v', (syncBusinessType next).alone v = next.alone v' ∧ v'.Settled db.syncBusinessType.tables := by
  unfold syncBusinessType
  rw [h.alone_select]
  have loaded := h.load false (t := .members) ((db.specialists).map Prod.fst)
  have row : (db.tables .business).row 1 = some ⟨db.businessType⟩ := Table.row_insert_self
  have here : 1 ∈ (db.tables .business).only 1 := by simp [Table.only, row]
  have known := loaded.known_load true here row
  have written := (loaded.load true ((db.tables .business).only 1)).write known (Business.mk db.derivedType)
  rw [StaffDb.tables_syncBusinessType] at written
  refine ⟨_, ?_, written⟩
  refine (loaded.alone_getForUpdate (t := .business)).trans ?_
  rw [row]
  rfl

theorem alone_getByTelegramId {next : Option ((Nat × StaffMember) × Nat) → StaffTx} (telegramId : Int)
    (h : v.Settled db.tables) (distinct : db.members.Distinct (·.userId)) : ∃ v', v'.Settled db.tables ∧
      (getByTelegramId telegramId next).alone v = (next (((db.memberByTelegramId telegramId).filter
        fun row => row.1.2.isActive && row.1.2.archivedAt.isNone).map fun row => (row.1, row.2.1))).alone v' := by
  unfold getByTelegramId
  rw [h.alone_select, StaffDb.tables_users]
  have loaded := h.load false (t := .users) ((db.users.select (·.telegramId == telegramId)).map Prod.fst)
  unfold StaffDb.memberByTelegramId StaffDb.userByTelegramId
  cases (db.users.select (·.telegramId == telegramId)).head? with
  | none => exact ⟨_, loaded, rfl⟩
  | some user =>
    obtain ⟨userId, user⟩ := user
    refine ⟨_, loaded.load false (t := .members) ((db.members.select fun m =>
      m.userId == some userId && m.isActive && m.archivedAt.isNone).map Prod.fst), ?_⟩
    refine loaded.alone_select.trans ?_
    rw [StaffDb.tables_members, StaffDb.head?_live distinct]
    cases found : db.memberByUserId userId with
    | none => simp [found]
    | some r => cases hr : (r.2.isActive && r.2.archivedAt.isNone) <;> simp [found, Option.filter, hr]

end StaffRepository

namespace InvitationService

open Staff.StaffRepository

variable {db : StaffDb} {v : View StaffTable.Row} {digest : String} {telegramId actor now : Int} {invitationId i : Nat}

/-- What the transaction commits alone, next to what the step makes of the database. -/
def Refines (tx : StaffTx) (v : View StaffTable.Row) (step : StaffCheck StaffDb) : Prop :=
  (tx.alone v).map Prod.fst = step.toOption.map StaffDb.tables

theorem refines_checked {check : StaffCheck Unit} {next : StaffTx} {rest : StaffCheck StaffDb}
    (h : check = .ok () → Refines next v rest) : Refines (checked check next) v (do check; rest) := by
  cases check with
  | error e => rfl
  | ok => exact h rfl

theorem refines_commit {answer : StaffAnswer} (h : v.Settled db.tables) : Refines (.commit answer) v (.ok db) :=
  congrArg some h.committed

theorem settled_setInvitation (inv : StaffInvitation) (h : v.Settled db.tables) (known : v.Known .invitations i) :
    (v.assign .invitations i inv).flush.Settled (db.setInvitation i inv).tables :=
  StaffDb.tables_setInvitation ▸ h.write known inv

theorem refines_setInvitation {inv : StaffInvitation} {answer : StaffAnswer} (h : v.Settled db.tables)
    (known : v.Known .invitations i) :
    Refines (.assign .invitations i inv (.flush (.commit answer))) v (.ok (db.setInvitation i inv)) :=
  refines_commit (settled_setInvitation inv h known)

/-- The membership is added, the invitation used, and the type of the business derived anew. -/
theorem refines_join {m : StaffMember} {inv : StaffInvitation} {answer : Nat → StaffAnswer} (h : v.Settled db.tables)
    (known : v.Known .invitations i) :
    Refines (.insert .members m fun memberId =>
        .assign .invitations i inv (.flush (syncBusinessType (.commit (answer memberId))))) v
      (.ok (StaffDb.setInvitation { db with members := db.members.insert m } i inv).syncBusinessType) := by
  have joined := h.insert (t := .members) m
  rw [StaffDb.tables_members, StaffDb.tables_insertMember] at joined
  have used := settled_setInvitation inv joined (known.insert (show StaffTable.invitations ≠ .members by simp) m)
  obtain ⟨v', run, synced⟩ := alone_syncBusinessType (.commit (answer (v.store .members).next)) used
  refine (congrArg (Option.map Prod.fst) run).trans ?_
  exact refines_commit synced

theorem refines_acceptInvitation (h : v.Settled db.tables) :
    Refines (acceptInvitation digest telegramId now) v (AuthorizationService.acceptInvitation digest telegramId now db) := by
  unfold Refines acceptInvitation AuthorizationService.acceptInvitation
  rw [h.alone_lock, StaffDb.tables_invitations]
  cases found : db.invitations.select (·.tokenDigest == digest) with
  | nil => rfl
  | cons r rows =>
    obtain ⟨i, invitation⟩ := r
    have row : (db.tables .invitations).row i = some invitation :=
      (Table.mem_select.mp (found ▸ List.mem_cons_self : (i, invitation) ∈ db.invitations.select (·.tokenDigest == digest))).1
    have locked := h.load true (t := .invitations) (((i, invitation) :: rows).map Prod.fst)
    have known : (v.load true .invitations (((i, invitation) :: rows).map Prod.fst)).Known .invitations i :=
      h.known_load true (by simp) row
    refine refines_checked fun _ => ?_
    by_cases expired : invitation.expiresAt ≤ now
    · rw [if_pos expired, if_pos expired]
      exact refines_setInvitation locked known
    · rw [if_neg expired, if_neg expired]
      obtain ⟨v', run, settled, keeps⟩ := alone_getOrCreateUser telegramId locked
      rw [Refines, run]
      generalize db.getOrCreateUser telegramId = created at settled
      obtain ⟨userId, user, db'⟩ := created
      refine (congrArg (Option.map Prod.fst) (settled.alone_lock (t := .members))).trans ?_
      dsimp only
      rw [StaffDb.tables_members, StaffDb.memberByUserId]
      have member := settled.load true (t := .members) ((db'.members.select (·.userId == some userId)).map Prod.fst)
      cases found : db'.members.select (·.userId == some userId) with
      | cons r rows => rfl
      | nil =>
        rw [found] at member
        exact refines_join member ((keeps i known).load true _)

theorem refines_revokeInvitation (h : v.Settled db.tables) (distinct : db.members.Distinct (·.userId)) :
    Refines (revokeInvitation actor invitationId now) v
      (AuthorizationService.revokeInvitation actor invitationId now db) := by
  unfold revokeInvitation AuthorizationService.revokeInvitation liveContext
  obtain ⟨v', settled, run⟩ := alone_getByTelegramId actor h distinct
  rw [Refines, run]
  cases (db.memberByTelegramId actor).filter fun row => row.1.2.isActive && row.1.2.archivedAt.isNone with
  | none => rfl
  | some found =>
    obtain ⟨⟨staffId, member⟩, userId, user⟩ := found
    refine refines_checked fun _ => ?_
    refine (congrArg (Option.map Prod.fst) (settled.alone_getForUpdate (t := .invitations))).trans ?_
    rw [StaffDb.tables_invitations]
    have locked := settled.load true (t := .invitations) (db.invitations.only invitationId)
    cases row : db.invitations.row invitationId with
    | none => rfl
    | some invitation =>
      have known : (v'.load true .invitations (db.invitations.only invitationId)).Known .invitations invitationId :=
        settled.known_load true (by simp [Table.only, row]) (show (db.tables .invitations).row invitationId = _ from row)
      refine refines_checked fun _ => refines_checked fun _ => ?_
      by_cases expired : invitation.expiresAt ≤ now
      · rw [if_pos expired, if_pos expired]
        exact refines_setInvitation locked known
      · rw [if_neg expired, if_neg expired]
        exact refines_setInvitation locked known

end InvitationService

/-! ### The step and the transaction -/

namespace InvitationOp

variable {db db' : StaffDb}

/-- Alone, a call commits the tables that the step of the database leads to, and nothing where the step raises. -/
theorem tx_refines (op : InvitationOp) (distinct : db.members.Distinct (·.userId)) :
    (op.tx.alone (View.start db.tables)).map Prod.fst = (db.exec op.staffOp.1 op.staffOp.2).toOption.map StaffDb.tables := by
  cases op with
  | acceptInvitation digest telegramId now => exact InvitationService.refines_acceptInvitation View.settled_start
  | revokeInvitation actor invitationId now => exact InvitationService.refines_revokeInvitation View.settled_start distinct

/-- So the open transactions of the world, left to themselves one at a time, walk the runs of the staff database. -/
theorem commits_step (op : InvitationOp) (distinct : db.members.Distinct (·.userId)) (tid : Nat)
    (h : db.exec op.staffOp.1 op.staffOp.2 = .ok db') : ∃ answer,
      ((World.start db.tables : InvitationWorld).step tx (.begin tid op)).Commits tx tid op db'.tables answer := by
  have alone := tx_refines op distinct
  rw [h] at alone
  obtain ⟨⟨store, answer⟩, run, rfl⟩ := Option.map_eq_some_iff.mp alone
  exact ⟨answer, World.commits_of_begin run⟩

end InvitationOp

end SalonBooking.Staff
