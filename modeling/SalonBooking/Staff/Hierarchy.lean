import SalonBooking.Lib.Run
import SalonBooking.Staff.Members

/-!
# The owner hierarchy

Without the bootstrap owner nobody gains or loses what an owner has. Every operation on a membership checks its
target and every new role is assignable to the actor that gives it, so the argument is about single steps, except for
an acceptance: it gives the role that the invitation carries, and a run keeps the roles of invitations and never
issues one for an owner.
-/

namespace SalonBooking.Staff

open Lib Staff.AuthorizationService

/-- What the hierarchy protects of a membership. -/
def StaffMember.standing (m : StaffMember) : StaffRole × Bool × Option Int × List StaffPermission :=
  (m.role, m.isActive, m.archivedAt, m.permissionGrants)

def low (r : StaffRole) : Prop := r = .master ∨ r = .receptionist

/-- Who sends the operation, as far as it is staff. -/
def StaffOp.actor : StaffOp → Option Int
  | .issueInvitation actor .. | .revokeInvitation actor .. | .revokeMember actor .. | .changeMemberRole actor ..
  | .setPermissionGrant actor .. | .setStaffBookable actor .. | .updateBusiness actor .. | .setBootstrapBookable actor .. =>
    some actor
  | .acceptInvitation .. | .bootstrapOwners .. => none

/-- Invitations, acceptances, revocations, role changes and grants. -/
def StaffOp.isHierarchy : StaffOp → Bool
  | .setStaffBookable .. | .bootstrapOwners .. | .updateBusiness .. | .setBootstrapBookable .. => false
  | _ => true

namespace StaffDb

variable {db db' : StaffDb} {now actor telegramId : Int} {op : StaffOp} {ctx : StaffContext} {i j : Nat}
variable {m m' target : StaffMember} {inv : StaffInvitation}

/-- The live membership behind the sender of an operation. -/
def sender (db : StaffDb) (op : StaffOp) : Option StaffContext := op.actor.bind fun t => (liveContext db t).toOption

/-- No pending invitation is for an owner. -/
def NoOwnerInvited (db : StaffDb) : Prop := ∀ i inv, db.invitations.row i = some inv → inv.status = .active → inv.role ≠ .owner

/-- Invitations stay and keep their roles, and a new one is for a role that its sender may give. -/
structure InvitationsFrom (ctx : Option StaffContext) (db db' : StaffDb) : Prop where
  stay : ∀ i inv, db.invitations.row i = some inv → ∃ inv', db'.invitations.row i = some inv' ∧ inv'.role = inv.role
  origin : ∀ i inv', db'.invitations.row i = some inv' →
    (∃ inv, db.invitations.row i = some inv ∧ inv'.role = inv.role ∧ (inv'.status = .active → inv.status = .active)) ∨
    (db.invitations.row i = none ∧ ∃ c, ctx = some c ∧ canAssignRole c.role inv'.role c.isBootstrapOwner = true)

/-- The invitation that an acceptance names by its digest: a pending one. -/
def Accepts (db : StaffDb) (op : StaffOp) (inv : StaffInvitation) : Prop :=
  ∃ digest telegramId, op = .acceptInvitation digest telegramId ∧ inv.tokenDigest = digest ∧ inv.status = .active ∧
    ∃ i, db.invitations.row i = some inv

/-- What an operation of the hierarchy can do. -/
inductive Change (db db' : StaffDb) (op : StaffOp) (ctx : Option StaffContext) : Prop
  | invitations (same : db'.members = db.members) (from_ : InvitationsFrom ctx db db')
  | accepted (unsent : ctx = none) (inv : StaffInvitation) (m : StaffMember) (accepts : db.Accepts op inv)
      (role : m.role = inv.role) (ordinary : m.isBootstrapOwner = false)
      (added : db'.members = db.members.insert m) (from_ : InvitationsFrom ctx db db')
  | managed (c : StaffContext) (sent : ctx = some c) (i : Nat) (target m : StaffMember) (row : db.members.row i = some target)
      (other : i ≠ c.staffMemberId) (ordinary : target.isBootstrapOwner = false)
      (below : if target.role = .owner then c.isBootstrapOwner = true else c.role = .owner ∨ c.role = .manager ∧ low target.role)
      (flag : m.isBootstrapOwner = target.isBootstrapOwner)
      (role : m.role = target.role ∨ canAssignRole c.role m.role c.isBootstrapOwner = true)
      (put : db'.members = db.members.put i m) (same : db'.invitations = db.invitations)

theorem invitationsFrom_refl {c : Option StaffContext} (h : db'.invitations = db.invitations) : InvitationsFrom c db db' := by
  refine ⟨fun i inv hrow => ⟨inv, by rw [h]; exact hrow, rfl⟩, fun i inv' hrow => ?_⟩
  rw [h] at hrow
  exact .inl ⟨inv', hrow, rfl, id⟩

theorem invitationsFrom_put {c : Option StaffContext} {inv' : StaffInvitation} (row : db.invitations.row i = some inv)
    (h : db'.invitations = db.invitations.put i inv') (role : inv'.role = inv.role) (ended : inv'.status ≠ .active) :
    InvitationsFrom c db db' := by
  refine ⟨fun j old hrow => ?_, fun j inv'' hrow => ?_⟩
  · rw [h]
    by_cases hj : j = i
    · subst hj
      rw [row, Option.some.injEq] at hrow
      exact ⟨inv', Table.row_put_self row, hrow ▸ role⟩
    · exact ⟨old, (Table.row_put_ne hj).trans hrow, rfl⟩
  · rw [h] at hrow
    rcases (Table.row_put_eq_some row).mp hrow with ⟨rfl, rfl⟩ | ⟨-, hrow⟩
    · exact .inl ⟨inv, row, role, fun active => absurd active ended⟩
    · exact .inl ⟨inv'', hrow, rfl, id⟩

@[simp] theorem syncBusinessType_members : db.syncBusinessType.members = db.members := rfl

@[simp] theorem syncBusinessType_invitations : db.syncBusinessType.invitations = db.invitations := rfl

theorem manageableTarget_ok (h : manageableTarget ctx i db = .ok target) :
    db.members.row i = some target ∧ i ≠ ctx.staffMemberId ∧ target.isBootstrapOwner = false ∧
      if target.role = .owner then ctx.isBootstrapOwner = true else ctx.role = .owner ∨ ctx.role = .manager ∧ low target.role := by
  simp only [manageableTarget, requireManageableTarget, Except.bind_ok, Except.orRaise_ok, Except.require_ok, Except.pure_ok,
    exists_const] at h
  obtain ⟨_, row, _, ⟨checks, below⟩, rfl⟩ := h
  rw [not_or, Bool.not_eq_true] at checks
  refine ⟨row, checks.1, checks.2, ?_⟩
  split
  · next owner =>
    rw [if_pos owner, Except.require_ok] at below
    exact below
  · next owner =>
    rw [if_neg owner, Except.require_ok] at below
    exact below

theorem sender_eq (hop : op.actor = some actor) (h : liveContext db actor = .ok ctx) : db.sender op = some ctx := by
  unfold sender
  rw [hop, Option.bind_some, h]
  rfl

theorem change_of_exec (hop : op.isHierarchy = true) (h : db.exec now op = .ok db') : Change db db' op (db.sender op) := by
  cases op with
  | issueInvitation actor values digest =>
    simp only [exec, issueInvitation, requirePermission, requireAssignableRole, Except.bind_ok, Except.require_ok, Except.pure_ok,
      exists_const] at h
    obtain ⟨c, live, -, assignable, -, rfl⟩ := h
    refine .invitations rfl ⟨fun i inv hrow => ⟨inv, Table.row_insert_of_some hrow, rfl⟩, fun i inv' hrow => ?_⟩
    rcases Table.row_insert_eq_some.mp hrow with ⟨rfl, rfl⟩ | hrow
    · exact .inr ⟨db.invitations.bounded _ le_rfl, c, sender_eq rfl live, assignable⟩
    · exact .inl ⟨inv', hrow, rfl, id⟩
  | acceptInvitation digest telegramId =>
    simp only [exec, acceptInvitation, Except.bind_ok, Except.orRaise_ok, Except.require_ok, exists_const] at h
    obtain ⟨⟨i, inv⟩, found, active, h⟩ := h
    obtain ⟨row, named⟩ := Table.mem_select.mp (List.mem_of_mem_head? found)
    rw [beq_iff_eq] at named
    split at h
    · simp only [Except.pure_ok] at h
      subst h
      refine .invitations rfl (invitationsFrom_put row rfl rfl ?_)
      exact fun active => by cases active
    · simp only [Except.bind_ok, Except.require_ok, Except.pure_ok, exists_const] at h
      obtain ⟨-, rfl⟩ := h
      refine .accepted rfl inv _ ⟨digest, telegramId, rfl, named, active, i, row⟩ ?_ ?_ (congrArg (Table.insert · _) getOrCreateUser_members)
        (invitationsFrom_put row (congrArg (Table.put · i _) getOrCreateUser_invitations) ?_ ?_)
      · rfl
      · rfl
      · rfl
      · exact fun active => by cases active
  | revokeInvitation actor invitationId =>
    simp only [exec, revokeInvitation, requirePermission, requireAssignableRole, Except.bind_ok, Except.orRaise_ok,
      Except.require_ok, exists_const] at h
    obtain ⟨c, -, -, inv, row, -, -, h⟩ := h
    split at h
    · simp only [Except.pure_ok] at h
      subst h
      refine .invitations rfl (invitationsFrom_put row rfl rfl ?_)
      exact fun active => by cases active
    · simp only [Except.pure_ok] at h
      subst h
      refine .invitations rfl (invitationsFrom_put row rfl rfl ?_)
      exact fun active => by cases active
  | revokeMember actor staffMemberId =>
    simp only [exec, revokeMember, requirePermission, Except.bind_ok, Except.require_ok, Except.pure_ok, exists_const] at h
    obtain ⟨c, live, -, target, found, rfl⟩ := h
    obtain ⟨row, other, ordinary, below⟩ := manageableTarget_ok found
    refine .managed c (sender_eq rfl live) _ _ _ row other ordinary below ?_ ?_ rfl rfl
    · rfl
    · exact .inl rfl
  | changeMemberRole actor staffMemberId role =>
    simp only [exec, changeMemberRole, requirePermission, requireAssignableRole, Except.bind_ok, Except.require_ok, Except.pure_ok,
      exists_const] at h
    obtain ⟨c, live, -, target, found, assignable, rfl⟩ := h
    obtain ⟨row, other, ordinary, below⟩ := manageableTarget_ok found
    refine .managed c (sender_eq rfl live) _ _ _ row other ordinary below ?_ ?_ rfl rfl
    · rfl
    · exact .inr assignable
  | setPermissionGrant actor staffMemberId permission enabled =>
    simp only [exec, setPermissionGrant, Except.bind_ok, Except.require_ok, Except.pure_ok, exists_const] at h
    obtain ⟨-, c, live, -, target, found, rfl⟩ := h
    obtain ⟨row, other, ordinary, below⟩ := manageableTarget_ok found
    refine .managed c (sender_eq rfl live) _ _ _ row other ordinary below ?_ ?_ rfl rfl
    · rfl
    · exact .inl rfl
  | setStaffBookable | bootstrapOwners | updateBusiness | setBootstrapBookable => cases hop

/-! ### One operation -/

/-- What one operation leaves of the memberships and invitations. -/
structure Upholds (db : StaffDb) (op : StaffOp) (db' : StaffDb) : Prop where
  /-- Nobody becomes an owner. -/
  owners : ∀ i m', db'.members.row i = some m' → m'.role = .owner → ∃ m, db.members.row i = some m ∧ m.role = .owner
  /-- Owners and the bootstrap owner keep their standing. -/
  kept : ∀ i m, db.members.row i = some m → m.role = .owner ∨ m.isBootstrapOwner = true →
    ∃ m', db'.members.row i = some m' ∧ m'.standing = m.standing ∧ m'.isBootstrapOwner = m.isBootstrapOwner
  /-- So does the actor. -/
  own : ∀ c, db.sender op = some c → ∀ m, db.members.row c.staffMemberId = some m →
    ∃ m', db'.members.row c.staffMemberId = some m' ∧ m'.standing = m.standing
  /-- An actor that is no owner changes the standing of masters and receptionists only, -/
  changed : ∀ c, db.sender op = some c → c.role ≠ .owner → ∀ i m', db'.members.row i = some m' →
    ∃ m, db.members.row i = some m ∧ (m'.standing = m.standing ∨ low m.role ∧ low m'.role)
  /-- and invites only these. -/
  invites : ∀ c, db.sender op = some c → c.role ≠ .owner → ∀ i inv', db'.invitations.row i = some inv' →
    db.invitations.row i = none → low inv'.role
  /-- A new membership has the role of the pending invitation that was accepted, -/
  accepted : ∀ i m', db'.members.row i = some m' → db.members.row i = none → ∃ inv, db.Accepts op inv ∧ m'.role = inv.role
  /-- and invitations keep their roles. -/
  carried : ∀ i inv, db.invitations.row i = some inv → ∃ inv', db'.invitations.row i = some inv' ∧ inv'.role = inv.role

theorem upholds_refl : Upholds db op db where
  owners i m' h owner := ⟨m', h, owner⟩
  kept i m h _ := ⟨m, h, rfl, rfl⟩
  own c _ m h := ⟨m, h, rfl⟩
  changed c _ _ i m' h := ⟨m', h, .inl rfl⟩
  invites c _ _ i inv' h none := by rw [none] at h; cases h
  accepted i m' h none := by rw [none] at h; cases h
  carried i inv h := ⟨inv, h, rfl⟩

theorem low_of_assignable {r : StaffRole} (h : canAssignRole ctx.role r ctx.isBootstrapOwner = true)
    (ordinary : ctx.isBootstrapOwner = false) : r ≠ .owner ∧ (ctx.role ≠ .owner → low r) := by
  cases r <;> simp_all [canAssignRole, low]

theorem role_ne_owner (below : if target.role = .owner then ctx.isBootstrapOwner = true
      else ctx.role = .owner ∨ ctx.role = .manager ∧ low target.role)
    (ordinary : ctx.isBootstrapOwner = false) : target.role ≠ .owner ∧ (ctx.role ≠ .owner → low target.role) := by
  by_cases owner : target.role = .owner
  · rw [if_pos owner, ordinary] at below
    cases below
  · rw [if_neg owner] at below
    refine ⟨owner, fun ne => ?_⟩
    rcases below with role | ⟨-, role⟩
    · exact absurd role ne
    · exact role

theorem invites_of_from (from_ : InvitationsFrom (db.sender op) db db')
    (ordinary : ∀ c ∈ db.sender op, c.isBootstrapOwner = false) (sent : db.sender op = some ctx) (ne : ctx.role ≠ .owner)
    {inv' : StaffInvitation} (row : db'.invitations.row i = some inv') (new : db.invitations.row i = none) : low inv'.role := by
  rcases from_.origin i inv' row with ⟨inv, old, -⟩ | ⟨-, c, sent', assignable⟩
  · rw [new] at old
    cases old
  · obtain rfl : ctx = c := Option.some.inj (sent.symm.trans sent')
    exact (low_of_assignable assignable (ordinary ctx sent)).2 ne

theorem upholds_of_change (pending : db.NoOwnerInvited) (ordinary : ∀ c ∈ db.sender op, c.isBootstrapOwner = false)
    (h : Change db db' op (db.sender op)) : Upholds db op db' := by
  cases h with
  | invitations same from_ =>
    have base : Upholds db op db := upholds_refl
    exact
      { owners := by rw [same]; exact base.owners
        kept := by rw [same]; exact base.kept
        own := by rw [same]; exact base.own
        changed := by rw [same]; exact base.changed
        invites := fun c sent ne i inv' row new => invites_of_from from_ ordinary sent ne row new
        accepted := by rw [same]; exact base.accepted
        carried := from_.stay }
  | accepted unsent inv m accepts role plain added from_ =>
    rw [unsent] at from_
    obtain ⟨_, _, -, -, active, j, row⟩ := id accepts
    exact
      { owners := by
          intro i m' hrow owner
          rw [added] at hrow
          rcases Table.row_insert_eq_some.mp hrow with ⟨-, rfl⟩ | hrow
          · exact absurd (role ▸ owner) (pending j inv row active)
          · exact ⟨m', hrow, owner⟩
        kept := by
          intro i m' hrow _
          rw [added]
          exact ⟨m', Table.row_insert_of_some hrow, rfl, rfl⟩
        own := by
          intro c sent
          rw [unsent] at sent
          cases sent
        changed := by
          intro c sent
          rw [unsent] at sent
          cases sent
        invites := by
          intro c sent
          rw [unsent] at sent
          cases sent
        accepted := by
          intro i m' hrow new
          rw [added] at hrow
          rcases Table.row_insert_eq_some.mp hrow with ⟨-, rfl⟩ | hrow
          · exact ⟨inv, accepts, role⟩
          · rw [new] at hrow
            cases hrow
        carried := from_.stay }
  | managed c sent j target m row other plain below flag role put same =>
    obtain ⟨ne, lowTarget⟩ := role_ne_owner below (ordinary c sent)
    have mRole : m.role ≠ .owner ∧ (c.role ≠ .owner → low m.role) := by
      rcases role with role | assignable
      · rw [role]
        exact ⟨ne, lowTarget⟩
      · exact low_of_assignable assignable (ordinary c sent)
    have rows : ∀ i, i ≠ j → db'.members.row i = db.members.row i := fun i hi => by rw [put, Table.row_put_ne hi]
    have changed : db'.members.row j = some m := by rw [put, Table.row_put_self row]
    exact
      { owners := by
          intro i m' hrow owner
          by_cases hi : i = j
          · subst hi
            rw [changed, Option.some.injEq] at hrow
            exact absurd (hrow ▸ owner) mRole.1
          · exact ⟨m', rows i hi ▸ hrow, owner⟩
        kept := by
          intro i m' hrow special
          by_cases hi : i = j
          · subst hi
            rw [row, Option.some.injEq] at hrow
            subst hrow
            rcases special with owner | bootstrap
            · exact absurd owner ne
            · rw [plain] at bootstrap
              cases bootstrap
          · exact ⟨m', (rows i hi).trans hrow, rfl, rfl⟩
        own := by
          intro c' sent' m' hrow
          obtain rfl : c = c' := Option.some.inj (sent.symm.trans sent')
          exact ⟨m', (rows _ (Ne.symm other)).trans hrow, rfl⟩
        changed := by
          intro c' sent' notOwner i m' hrow
          obtain rfl : c = c' := Option.some.inj (sent.symm.trans sent')
          by_cases hi : i = j
          · subst hi
            rw [changed, Option.some.injEq] at hrow
            subst hrow
            exact ⟨target, row, .inr ⟨lowTarget notOwner, mRole.2 notOwner⟩⟩
          · exact ⟨m', rows i hi ▸ hrow, .inl rfl⟩
        invites := by
          intro _ _ _ i inv' hrow new
          rw [same, new] at hrow
          cases hrow
        accepted := by
          intro i m' hrow new
          rw [put] at hrow
          rw [Table.row_put_eq_none.mpr new] at hrow
          cases hrow
        carried := by
          intro i inv hrow
          rw [same]
          exact ⟨inv, hrow, rfl⟩ }

/-! ### Runs -/

/-- An operation of the hierarchy that is not sent by the bootstrap owner. -/
def Ordinary (db : StaffDb) (l : Int × StaffOp) : Prop :=
  l.2.isHierarchy = true ∧ ∀ c ∈ db.sender l.2, c.isBootstrapOwner = false

instance (db : StaffDb) (l : Int × StaffOp) : Decidable (db.Ordinary l) :=
  inferInstanceAs (Decidable (_ ∧ ∀ c ∈ db.sender l.2, c.isBootstrapOwner = false))

theorem pending_of_change (pending : db.NoOwnerInvited) (ordinary : ∀ c ∈ db.sender op, c.isBootstrapOwner = false)
    (h : Change db db' op (db.sender op)) : db'.NoOwnerInvited := by
  have from_ : InvitationsFrom (db.sender op) db db' := by
    cases h with
    | invitations same from_ => exact from_
    | accepted unsent inv m accepts role plain added from_ => exact from_
    | managed c sent j target m row other plain below flag role put same => exact invitationsFrom_refl same
  intro i inv' row active
  rcases from_.origin i inv' row with ⟨inv, old, role, was⟩ | ⟨-, c, sent, assignable⟩
  · rw [role]
    exact pending i inv old (was active)
  · exact (low_of_assignable assignable (ordinary c sent)).1

theorem step_upholds {l : Int × StaffOp} (pending : db.NoOwnerInvited) (h : db.Ordinary l) :
    Upholds db l.2 (db.step l) ∧ (db.step l).NoOwnerInvited := by
  unfold step
  cases run : db.exec l.1 l.2 with
  | error e => exact ⟨upholds_refl, pending⟩
  | ok db' =>
    have change := change_of_exec h.1 run
    exact ⟨upholds_of_change pending h.2 change, pending_of_change pending h.2 change⟩

theorem run_carried (pending : db.NoOwnerInvited) {l : List (Int × StaffOp)} (h : Guarded step Ordinary db l)
    {inv inv' : StaffInvitation} (row : db.invitations.row i = some inv)
    (row' : (run step db l).invitations.row i = some inv') : inv'.role = inv.role := by
  induction l generalizing db inv with
  | nil =>
    obtain rfl : inv = inv' := Option.some.inj (row.symm.trans row')
    rfl
  | cons x l ih =>
    obtain ⟨upholds, pending'⟩ := step_upholds pending h.1
    obtain ⟨next, hnext, role⟩ := upholds.carried i inv row
    exact (ih pending' h.2 hnext row').trans role

/--
The hierarchy holds in every run of ordinary operations: in every step; from the start of the run to its end; and for
the invitations of an actor that is no owner, whenever they are accepted.
-/
theorem hierarchy_holds (pending : db.NoOwnerInvited) {l : List (Int × StaffOp)} (h : Guarded step Ordinary db l) :
    (∀ pre x post, l = pre ++ x :: post → Upholds (run step db pre) x.2 (run step db (pre ++ [x]))) ∧
      (∀ i m', (run step db l).members.row i = some m' → m'.role = .owner →
        ∃ m, db.members.row i = some m ∧ m.role = .owner) ∧
      (∀ i m, db.members.row i = some m → m.role = .owner ∨ m.isBootstrapOwner = true →
        ∃ m', (run step db l).members.row i = some m' ∧ m'.standing = m.standing) ∧
      ∀ pre x post, l = pre ++ x :: post → ∀ c, (run step db pre).sender x.2 = some c → c.role ≠ .owner →
        ∀ i, (run step db pre).invitations.row i = none → (run step db (pre ++ [x])).invitations.row i ≠ none →
          ∀ inv, (run step db l).invitations.row i = some inv → low inv.role := by
  induction l generalizing db with
  | nil =>
    refine ⟨fun pre x post e => ?_, fun i m' hrow owner => ⟨m', hrow, owner⟩, fun i m hrow _ => ⟨m, hrow, rfl⟩,
      fun pre x post e => ?_⟩
    · cases pre <;> cases e
    · cases pre <;> cases e
  | cons x l ih =>
    obtain ⟨upholds, pending'⟩ := step_upholds pending h.1
    obtain ⟨steps, owners, kept, invited⟩ := ih pending' h.2
    refine ⟨fun pre y post e => ?_, fun i m' hrow owner => ?_, fun i m hrow special => ?_, fun pre y post e => ?_⟩
    · cases pre with
      | nil =>
        obtain ⟨rfl, -⟩ := List.cons.inj e
        exact upholds
      | cons z pre =>
        obtain ⟨rfl, rest⟩ := List.cons.inj e
        exact steps pre y post rest
    · obtain ⟨m, hm, role⟩ := owners i m' hrow owner
      exact upholds.owners i m hm role
    · obtain ⟨m', hm', standing, flag⟩ := upholds.kept i m hrow special
      have role : m'.role = m.role := congrArg Prod.fst standing
      obtain ⟨m'', hm'', standing'⟩ := kept i m' hm' (by rw [role, flag]; exact special)
      exact ⟨m'', hm'', standing'.trans standing⟩
    · cases pre with
      | nil =>
        obtain ⟨rfl, -⟩ := List.cons.inj e
        intro c sent ne i new issued inv row
        obtain ⟨first, hfirst⟩ := Option.ne_none_iff_exists'.mp issued
        rw [run_carried pending' h.2 hfirst row]
        exact upholds.invites c sent ne i first hfirst new
      | cons z pre =>
        obtain ⟨rfl, rest⟩ := List.cons.inj e
        exact invited pre y post rest

/-! ### A run -/

/-- A bootstrap owner, a second owner and a manager who may invite. -/
def sampleSalon : StaffDb where
  users := ((Table.empty.insert ⟨100, false⟩).insert ⟨200, false⟩).insert ⟨300, false⟩
  members :=
    ((Table.empty.insert (newOwner 1 "Анна" true true)).insert (newOwner 2 "Анна 2" false false)).insert
      { newOwner 3 "Мария" false false with role := .manager, permissionGrants := [.inviteStaff] }
  invitations := Table.empty
  businessType := .solo

/-- The manager invites a master, loses the right to invite, and the invitation is accepted all the same. -/
def sampleRun : List (Int × StaffOp) :=
  let values : StaffInvitationCreate :=
    { role := .master, displayName := "Ольга", isBookable := true, expiresInHours := 24
      hours_range := StaffInvitationCreate.day_in_range, only_masters_are_bookable := fun _ => rfl }
  [(0, .issueInvitation 300 values "t"), (10, .setPermissionGrant 200 3 .inviteStaff false), (20, .acceptInvitation "t" 400),
    (30, .changeMemberRole 200 4 .receptionist), (40, .revokeMember 200 3), (50, .changeMemberRole 300 4 .owner)]

theorem hierarchy_holds_sampleRun :
    sampleSalon.NoOwnerInvited ∧ Guarded step Ordinary sampleSalon sampleRun ∧
      ∀ i m', (run step sampleSalon sampleRun).members.row i = some m' → m'.role = .owner →
        ∃ m, sampleSalon.members.row i = some m ∧ m.role = .owner := by
  have pending : sampleSalon.NoOwnerInvited := fun i inv row => by cases row
  have ordinary : Guarded step Ordinary sampleSalon sampleRun := by decide +kernel
  exact ⟨pending, ordinary, (hierarchy_holds pending ordinary).2.1⟩

end StaffDb

end SalonBooking.Staff
