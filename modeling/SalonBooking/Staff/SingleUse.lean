import SalonBooking.Lib.Held
import SalonBooking.Staff.Invitations

/-!
# Invitations are used once

Both calls lock the invitation before they look at its status, and hold the lock to their commit. A commit therefore
takes at most one invitation away from ACTIVE, and only a successful acceptance writes a membership. From there on the
invitation is closed, whoever else was waiting for it.
-/

namespace SalonBooking.Staff

open Lib

namespace InvitationOp

abbrev StaffView : Type := View StaffTable.Row

/-! ### What a commit does -/

abbrev Anything : Reliance StaffTable.Row := fun _ _ => True

/-- One invitation is taken from ACTIVE, along the answer of the call; `takes` says what becomes of a row, and `members`
that no membership changes. -/
inductive Closes (takes : Nat → StaffInvitation → StaffInvitation → Prop) (members : Prop) :
    InvitationOp → StaffAnswer → Prop
  | accepted {digest : String} {telegramId now : Int} {i userId : Nat} {old : StaffInvitation} {staff : StaffContext}
      (taken : takes i old { old with status := .used, acceptedByUserId := some userId, usedAt := some now })
      (active : old.status = .active) (token : old.tokenDigest = digest) (alive : now < old.expiresAt) :
      Closes takes members (acceptInvitation digest telegramId now) (.accepted i now staff)
  | revoked {actor now : Int} {i staffId : Nat} {old : StaffInvitation}
      (taken : takes i old { old with status := .revoked, revokedAt := some now, revokedByStaffId := some staffId })
      (active : old.status = .active) (quiet : members) :
      Closes takes members (revokeInvitation actor i now) (.revoked i old.role now)
  | expired {op : InvitationOp} {i : Nat} {old : StaffInvitation} {error : StaffError}
      (taken : takes i old { old with status := .expired }) (active : old.status = .active) (quiet : members) :
      Closes takes members op (.refused error)

abbrev Commits (op : InvitationOp) : StaffView → StaffAnswer → Prop :=
  fun v b => Closes (v.Holds .invitations) (v.Clean .members) op b

variable {op : InvitationOp} {v v' : StaffView} {i : Nat} {old now : StaffInvitation} {next : StaffTx}

/-! ### The programs -/

theorem safe_checked {check : StaffCheck Unit} (h : check = .ok () → next.Safe Anything (Commits op) v) :
    (checked check next).Safe Anything (Commits op) v := by
  unfold checked
  split
  · trivial
  · exact h rfl

theorem safe_syncBusinessType
    (hnext : ∀ v, v.Holds .invitations i old now → next.Safe Anything (Commits op) v) (hv : v.Holds .invitations i old now) :
    (StaffRepository.syncBusinessType next).Safe Anything (Commits op) v := by
  intro u others
  have loaded := (hv.others others).load false StaffTable.members
  refine Tx.safe_getForUpdate (fun _ _ _ => trivial) fun u' a x others' _ _ => ?_
  intro w others''
  exact hnext _ (((((loaded _).others others').load _ _ _).assign (by nofun) _).others others'').flush

theorem safe_getOrCreateUser {telegramId : Int} {next : Nat → StaffTx}
    (hnext : ∀ v k, v.Holds .invitations i old now → (next k).Safe Anything (Commits op) v)
    (hv : v.Holds .invitations i old now) :
    (StaffRepository.getOrCreateUser telegramId next).Safe Anything (Commits op) v := by
  intro u others
  have loaded := (hv.others others).load true StaffTable.users
  dsimp only
  split
  · exact fun w others' _ => hnext _ _ (((loaded _).others others').insert (by nofun) _)
  · exact hnext _ _ (loaded _)

theorem safe_acceptInvitation {digest : String} {telegramId now : Int} {store : (t : StaffTable) → Table t.Row} :
    (InvitationService.acceptInvitation digest telegramId now).Safe Anything
      (Commits (acceptInvitation digest telegramId now)) (View.start store) := by
  intro v others
  have clean : ∀ t, v.Clean t := fun t => View.clean_start.others others
  have unread : v.copy = fun _ _ => none := others.session.2.1
  beta_reduce
  generalize hids : ((v.sees .invitations).select (·.tokenDigest == digest)).map Prod.fst = ids
  cases hrows : ((v.load true .invitations ids).copy.rows .invitations ids).head? with
  | none => trivial
  | some r =>
    obtain ⟨i, invitation⟩ := r
    obtain ⟨hi, x, hx, rfl⟩ := Copies.mem_rows.mp (List.mem_of_mem_head? hrows)
    -- the row that the select has found and locked
    obtain ⟨old, found, token⟩ : ∃ old, (v.sees .invitations).row i = some old ∧ old.tokenDigest = digest := by
      rw [← hids] at hi
      obtain ⟨⟨j, old⟩, hmem, rfl⟩ := List.mem_map.mp hi
      obtain ⟨row, hdigest⟩ := Table.mem_select.mp hmem
      exact ⟨old, row, by simpa using hdigest⟩
    have holds : (v.load true .invitations ids).Holds .invitations i old old :=
      View.holds_load (clean _) (by rw [unread]) hi found
    obtain rfl : x.now = old := by
      obtain ⟨y, hy, rfl, -⟩ := holds.object
      rw [hx, Option.some.injEq] at hy
      rw [hy]
    refine safe_checked fun active => ?_
    have active : x.now.status = .active := by simpa [require] using active
    split
    · intro w others' w' others''
      exact .expired (((holds.assign_self _).others others').flush.others others'') active
        (((((clean _).load _ _ _).assign (by simp) _).others others').flush.others others'')
    · next alive =>
      refine safe_getOrCreateUser (fun u userId hu => ?_) holds
      intro w others'
      refine safe_checked fun _ => ?_
      intro w' others'' _
      have created := ((((hu.others others').load true StaffTable.members
        (((w.sees .members).select (·.userId == some userId)).map Prod.fst)).others others'').insert (show StaffTable.members ≠ .invitations by simp)
          (InvitationService.invited x.now userId)).assign_self
            { x.now with status := .used, acceptedByUserId := some userId, usedAt := some now }
      intro s others₃
      refine safe_syncBusinessType (fun s' hs' => ?_) (created.others others₃).flush
      exact fun s'' others₄ => .accepted (hs'.others others₄) active token (not_le.mp alive)

/-- The session has written nothing and read no invitation. -/
structure Fresh (v : StaffView) : Prop where
  clean : ∀ t, v.Clean t
  unread : v.copy .invitations = fun _ => none

theorem Fresh.start {store : (t : StaffTable) → Table t.Row} : Fresh (View.start store) := ⟨fun _ => View.clean_start, rfl⟩

theorem Fresh.others (h : Fresh v) (others : v.Others Anything v') : Fresh v' :=
  ⟨fun t => (h.clean t).others others, others.session.2.1 ▸ h.unread⟩

theorem Fresh.load (h : Fresh v) {t : StaffTable} (ht : StaffTable.invitations ≠ t) (held : Bool) (ids : List Nat) :
    Fresh (v.load held t ids) :=
  ⟨fun u => (h.clean u).load _ _ _, (Copies.load_of_ne ht).trans h.unread⟩

theorem safe_getByTelegramId {actor : Int} {next : Option ((Nat × StaffMember) × Nat) → StaffTx}
    (hnext : ∀ v row, Fresh v → (next row).Safe Anything (Commits op) v) (hv : Fresh v) :
    (StaffRepository.getByTelegramId actor next).Safe Anything (Commits op) v := by
  intro u others
  have loaded := (hv.others others).load (show StaffTable.invitations ≠ .users by nofun) false
  beta_reduce
  split
  · exact hnext _ _ (loaded _)
  · exact fun w others' => hnext _ _ (((loaded _).others others').load (by nofun) _ _)

theorem safe_revokeInvitation {actor now : Int} {invitationId : Nat} {store : (t : StaffTable) → Table t.Row} :
    (InvitationService.revokeInvitation actor invitationId now).Safe Anything
      (Commits (revokeInvitation actor invitationId now)) (View.start store) := by
  refine safe_getByTelegramId (fun v row fresh => ?_) .start
  split
  · trivial
  · refine safe_checked fun _ => ?_
    refine Tx.safe_getForUpdate (fun _ _ _ => trivial) fun u old x others found hx => ?_
    have fresh' : Fresh u := fresh.others others
    have holds : (u.load true .invitations [invitationId]).Holds .invitations invitationId old old :=
      View.holds_load (fresh'.clean _) (by rw [fresh'.unread]) (List.mem_singleton_self _) found
    obtain rfl : x.now = old := by
      obtain ⟨y, hy, rfl, -⟩ := holds.object
      rw [hx, Option.some.injEq] at hy
      rw [hy]
    refine safe_checked fun active => safe_checked fun _ => ?_
    have active : x.now.status = .active := by simpa [require] using active
    have quiet : ∀ a w w', View.Others Anything ((u.load true .invitations [invitationId]).assign .invitations invitationId a) w →
        View.Others Anything w.flush w' → w'.Clean .members := fun a w w' others' others'' =>
      (((((fresh'.clean .members).load _ _ _).assign (by simp) _).others others').flush.others others'')
    split
    · intro w others' w' others''
      exact .expired (((holds.assign_self _).others others').flush.others others'') active (quiet _ w w' others' others'')
    · intro w others' w' others''
      exact .revoked (((holds.assign_self _).others others').flush.others others'') active (quiet _ w w' others' others'')

theorem safe (op : InvitationOp) (store : (t : StaffTable) → Table t.Row) :
    op.tx.Safe Anything (Commits op) (View.start store) := by
  cases op with
  | acceptInvitation digest telegramId now => exact safe_acceptInvitation
  | revokeInvitation actor invitationId now => exact safe_revokeInvitation

/-! ### What leaves without a commit -/

def Refused : StaffAnswer → Prop
  | .refused _ => True
  | _ => False

theorem leaves_checked {check : StaffCheck Unit} (h : next.Leaves Refused) : (checked check next).Leaves Refused := by
  unfold checked
  split
  · trivial
  · exact h

theorem leaves_syncBusinessType (h : next.Leaves Refused) : (StaffRepository.syncBusinessType next).Leaves Refused := by
  intro specialists rows
  dsimp only
  split
  · trivial
  · exact h

theorem leaves_getOrCreateUser {telegramId : Int} {f : Nat → StaffTx} (h : ∀ k, (f k).Leaves Refused) :
    (StaffRepository.getOrCreateUser telegramId f).Leaves Refused := by
  intro rows
  dsimp only
  split
  · exact h
  · exact h _

theorem leaves_getByTelegramId {actor : Int} {f : Option ((Nat × StaffMember) × Nat) → StaffTx}
    (h : ∀ row, (f row).Leaves Refused) : (StaffRepository.getByTelegramId actor f).Leaves Refused := by
  intro users
  dsimp only
  split
  · exact h _
  · exact fun members => h _

theorem leaves (op : InvitationOp) : op.tx.Leaves Refused := by
  cases op with
  | acceptInvitation digest telegramId now =>
    intro rows
    dsimp only
    split
    · trivial
    · refine leaves_checked ?_
      split
      · trivial
      · exact leaves_getOrCreateUser fun userId existing => leaves_checked fun memberId => leaves_syncBusinessType trivial
  | revokeInvitation actor invitationId now =>
    unfold tx InvitationService.revokeInvitation
    refine leaves_getByTelegramId fun row => ?_
    split
    · trivial
    · refine leaves_checked fun rows => ?_
      dsimp only
      split
      · trivial
      · refine leaves_checked (leaves_checked ?_)
        split <;> trivial

/-! ### One step -/

def step (w : InvitationWorld) (turn : Turn InvitationOp) : InvitationWorld := w.step tx turn

/-- The calls after any interleaving, from any stored rows. -/
def after (store : (t : StaffTable) → Table t.Row) (turns : List (Turn InvitationOp)) : InvitationWorld :=
  run step (World.start store) turns

/-- What holds of the open calls of every reachable world. -/
structure Kept (w : InvitationWorld) : Prop where
  sound : w.Sound False
  knows : w.Knows (fun _ => Anything) Commits
  follows : w.Follows (fun _ _ b => Refused b) (fun _ _ _ => True)

variable {w : InvitationWorld} {turn : Turn InvitationOp}

theorem Kept.start {store : (t : StaffTable) → Table t.Row} : Kept (World.start store) :=
  ⟨World.sound_start _, World.knows_start _, World.follows_start _⟩

theorem Kept.step (h : Kept w) : Kept (InvitationOp.step w turn) where
  sound := h.sound.step nofun
  knows := h.knows.step (fun op => safe op _) h.sound fun _ _ _ _ _ _ _ _ _ _ => trivial
  follows := h.follows.step (fun op => (leaves op).ensures _) h.sound

/-- The row `i` goes from `old` to `new`, and no other row changes. -/
def Replaces (s s' : Table StaffInvitation) (i : Nat) (old new : StaffInvitation) : Prop :=
  s.row i = some old ∧ s'.row i = some new ∧ ∀ j, j ≠ i → s'.row j = s.row j

/-- The rows of the invitations and of the memberships stay as they are. -/
def Idle (w w' : InvitationWorld) : Prop :=
  (∀ i, (w'.store .invitations).row i = (w.store .invitations).row i) ∧
    ∀ i, (w'.store .members).row i = (w.store .members).row i

/-- A step answers no call, answers a refusal and leaves the rows alone, or closes an invitation. -/
theorem Kept.effect (h : Kept w) (turn : Turn InvitationOp) :
    ((InvitationOp.step w turn).log = w.log ∧ Idle w (InvitationOp.step w turn)) ∨
      ∃ op b, (InvitationOp.step w turn).log = w.log ++ [(op, b)] ∧
        (Refused b ∧ Idle w (InvitationOp.step w turn) ∨
          Closes (Replaces (w.store .invitations) ((InvitationOp.step w turn).store .invitations))
            (∀ i, ((InvitationOp.step w turn).store .members).row i = (w.store .members).row i) op b) := by
  have stepped := World.step_stepped (w := w) tx turn
  unfold InvitationOp.step
  generalize w.step tx turn = w' at stepped ⊢
  cases stepped with
  | idle => exact .inl ⟨rfl, fun _ => rfl, fun _ => rfl⟩
  | opened => exact .inl ⟨rfl, fun _ => rfl, fun _ => rfl⟩
  | lost => exact .inl ⟨List.append_nil _, fun _ => rfl, fun _ => rfl⟩
  | @ran tid c _ hc exec =>
    cases exec with
    | @left b hb =>
      have refused := h.follows tid c hc
      rw [hb] at refused
      exact .inr ⟨c.op, b, rfl, .inl ⟨refused, fun _ => rfl, fun _ => rfl⟩⟩
    | @inserted t a _ _ i hi =>
      have rows : ∀ u j, (Function.update w.store t (w.store t).skip u).row j = (w.store u).row j := by
        intro u j
        by_cases e : u = t
        · subst e; simp [Table.skip]
        · simp [Function.update_of_ne e]
      exact .inl ⟨rfl, rows _, rows _⟩
    | @commits b hb =>
      refine .inr ⟨c.op, b, rfl, .inr ?_⟩
      have commits := h.knows.commit hc hb
      have taken : ∀ {i old new}, (w.viewOf tid c).Holds .invitations i old new →
          Replaces (w.store .invitations) (w.committed c .invitations) i old new :=
        fun holds => ⟨holds.stored, holds.committed⟩
      have quiet : (w.viewOf tid c).Clean .members → ∀ i, (w.committed c .members).row i = (w.store .members).row i :=
        fun clean i => clean.committed
      generalize c.op = op at commits ⊢
      cases commits with
      | accepted holds active token alive => exact .accepted (taken holds) active token alive
      | revoked holds active clean => exact .revoked (taken holds) active (quiet clean)
      | expired holds active clean => exact .expired (taken holds) active (quiet clean)
    | _ => exact .inl ⟨rfl, fun _ => rfl, fun _ => rfl⟩

/-! ### Runs -/

/-- The invitation that the answer closes by accepting or revoking it. -/
def consumes : StaffAnswer → Option Nat
  | .accepted i _ _ => some i
  | .revoked i _ _ => some i
  | .refused _ => none

/-- The call accepts the token and succeeds. -/
def Accepts (digest : String) : InvitationOp × StaffAnswer → Bool
  | (acceptInvitation d _ _, .accepted ..) => d = digest
  | _ => false

variable {store : (t : StaffTable) → Table t.Row} {turns : List (Turn InvitationOp)}

/-- What the answers so far say of the stored invitations. -/
structure Recorded (store : (t : StaffTable) → Table t.Row) (w : InvitationWorld) : Prop where
  kept : Kept w
  same : ∀ i inv, (w.store .invitations).row i = some inv → ∃ inv₀, (store .invitations).row i = some inv₀ ∧
    inv.tokenDigest = inv₀.tokenDigest ∧ inv.expiresAt = inv₀.expiresAt
  closed : ∀ e ∈ w.log, ∀ i, consumes e.2 = some i → ∃ inv, (w.store .invitations).row i = some inv ∧ inv.status ≠ .active
  once : w.log.Pairwise fun e f => ∀ i, consumes e.2 = some i → consumes f.2 ≠ some i
  accepted : ∀ digest telegramId now i at' staff, (acceptInvitation digest telegramId now, .accepted i at' staff) ∈ w.log →
    at' = now ∧ ∃ inv, (store .invitations).row i = some inv ∧ inv.tokenDigest = digest ∧ now < inv.expiresAt

theorem Recorded.start : Recorded store (World.start store) :=
  ⟨.start, fun _ inv row => ⟨inv, row, rfl, rfl⟩, nofun, .nil, nofun⟩

/-- What closes an invitation finds it ACTIVE, and leaves its token and its expiry. -/
structure ClosesRow (s s' : Table StaffInvitation) (op : InvitationOp) (b : StaffAnswer) (i : Nat)
    (old new : StaffInvitation) : Prop where
  taken : Replaces s s' i old new
  active : old.status = .active
  closed : new.status ≠ .active
  token : new.tokenDigest = old.tokenDigest
  expiry : new.expiresAt = old.expiresAt
  answer : ∀ k, consumes b = some k → k = i
  accepted : ∀ digest telegramId now k at' staff, op = acceptInvitation digest telegramId now → b = .accepted k at' staff →
    k = i ∧ at' = now ∧ old.tokenDigest = digest ∧ now < old.expiresAt

theorem Closes.row {s s' : Table StaffInvitation} {members : Prop} {b : StaffAnswer}
    (h : Closes (Replaces s s') members op b) : ∃ i old new, ClosesRow s s' op b i old new := by
  cases h with
  | accepted taken active token alive =>
    refine ⟨_, _, _, taken, active, nofun, rfl, rfl, fun _ hk => (Option.some.inj hk).symm, ?_⟩
    rintro digest telegramId now k at' staff ⟨⟩ ⟨⟩
    exact ⟨rfl, rfl, token, alive⟩
  | revoked taken active => exact ⟨_, _, _, taken, active, nofun, rfl, rfl, fun k hk => (Option.some.inj hk).symm, nofun⟩
  | expired taken active => exact ⟨_, _, _, taken, active, nofun, rfl, rfl, nofun, nofun⟩

theorem Kept.closed_stays (h : Kept w) {i : Nat} {inv : StaffInvitation} (row : (w.store .invitations).row i = some inv)
    (closed : inv.status ≠ .active) : ((InvitationOp.step w turn).store .invitations).row i = some inv := by
  rcases h.effect turn with ⟨-, idle⟩ | ⟨op, b, -, ⟨-, idle⟩ | closes⟩
  · rw [idle.1, row]
  · rw [idle.1, row]
  · obtain ⟨j, old, new, closes⟩ := closes.row
    obtain ⟨stored, -, others⟩ := closes.taken
    have ne : i ≠ j := by
      rintro rfl
      rw [row, Option.some.injEq] at stored
      exact closed (stored ▸ closes.active)
    rw [others i ne, row]

theorem Recorded.idle {w' : InvitationWorld} (h : Recorded store w) (kept : Kept w') (idle : Idle w w')
    {answers : List (InvitationOp × StaffAnswer)} (log : w'.log = w.log ++ answers) (refused : ∀ e ∈ answers, Refused e.2) :
    Recorded store w' := by
  have none : ∀ e ∈ answers, consumes e.2 = none := by
    rintro ⟨op, b⟩ he
    have := refused _ he
    cases b with
    | refused => rfl
    | _ => exact this.elim
  refine ⟨kept, fun i inv row => h.same i inv (idle.1 i ▸ row), fun e he i hi => ?_, ?_, ?_⟩
  · rw [idle.1 i]
    rw [log] at he
    rcases List.mem_append.mp he with he | he
    · exact h.closed e he i hi
    · rw [none e he] at hi
      cases hi
  · rw [log]
    refine List.pairwise_append.mpr ⟨h.once, ?_, fun e _ f hf i _ hi => ?_⟩
    · refine List.pairwise_of_forall_mem_list fun e he f _ i hi => ?_
      rw [none e he] at hi
      cases hi
    · rw [none f hf] at hi
      cases hi
  · intro digest telegramId now i at' staff he
    rw [log] at he
    rcases List.mem_append.mp he with he | he
    · exact h.accepted digest telegramId now i at' staff he
    · exact absurd (none _ he) (by simp [consumes])

theorem Recorded.closes {w' : InvitationWorld} {b : StaffAnswer} {i : Nat} {old new : StaffInvitation} (h : Recorded store w)
    (kept : Kept w') (log : w'.log = w.log ++ [(op, b)])
    (closes : ClosesRow (w.store .invitations) (w'.store .invitations) op b i old new) : Recorded store w' := by
  obtain ⟨stored, written, others⟩ := closes.taken
  obtain ⟨inv₀, row₀, token₀, expiry₀⟩ := h.same i old stored
  refine ⟨kept, fun j inv row => ?_, fun e he j hj => ?_, ?_, ?_⟩
  · by_cases hj : j = i
    · subst hj
      obtain rfl := Option.some.inj (written.symm.trans row)
      exact ⟨inv₀, row₀, closes.token.trans token₀, closes.expiry.trans expiry₀⟩
    · rw [others j hj] at row
      exact h.same j inv row
  · by_cases hi : j = i
    · subst hi
      exact ⟨new, written, closes.closed⟩
    · rw [others j hi]
      rw [log] at he
      rcases List.mem_append.mp he with he | he
      · exact h.closed e he j hj
      · rw [List.mem_singleton.mp he] at hj
        exact absurd (closes.answer j hj) hi
  · rw [log]
    refine List.pairwise_append.mpr ⟨h.once, List.pairwise_singleton _ _, fun e he f hf j hj hk => ?_⟩
    rw [List.mem_singleton.mp hf] at hk
    obtain rfl := closes.answer j hk
    obtain ⟨inv, row, closed⟩ := h.closed e he j hj
    rw [stored, Option.some.injEq] at row
    exact closed (row ▸ closes.active)
  · intro digest telegramId now k at' staff he
    rw [log] at he
    rcases List.mem_append.mp he with he | he
    · exact h.accepted digest telegramId now k at' staff he
    · obtain ⟨hop, hb⟩ := Prod.mk.inj (List.mem_singleton.mp he)
      obtain ⟨rfl, same, token, alive⟩ := closes.accepted digest telegramId now k at' staff hop.symm hb.symm
      exact ⟨same, inv₀, row₀, token₀ ▸ token, expiry₀ ▸ alive⟩

theorem Recorded.step (h : Recorded store w) : Recorded store (InvitationOp.step w turn) := by
  rcases h.kept.effect turn with ⟨log, idle⟩ | ⟨op, b, log, ⟨refused, idle⟩ | closes⟩
  · exact h.idle h.kept.step idle (log.trans (List.append_nil _).symm) nofun
  · exact h.idle h.kept.step idle log fun e he => List.mem_singleton.mp he ▸ refused
  · obtain ⟨i, old, new, closes⟩ := closes.row
    exact h.closes h.kept.step log closes

theorem recorded (store : (t : StaffTable) → Table t.Row) (turns : List (Turn InvitationOp)) :
    Recorded store (after store turns) := run_invariant (fun _ _ h => h.step) .start turns

/-- **However acceptances and revocations of invitations interleave, at most one acceptance of a token succeeds, none
after a revocation has committed or from its expiry on; only a successful acceptance writes a membership, and a closed
invitation stays as it is.** -/
theorem invitation_single_use (store : (t : StaffTable) → Table t.Row) (turns : List (Turn InvitationOp))
    (unique : Table.Distinct (fun inv : StaffInvitation => some inv.tokenDigest) (store .invitations)) (digest : String) :
    ((after store turns).log.filter (Accepts digest)).length ≤ 1 ∧
      (∀ earlier op i role revokedAt later, (after store turns).log = earlier ++ (op, .revoked i role revokedAt) :: later →
        ∀ e ∈ later, ∀ acceptedAt staff, e.2 ≠ .accepted i acceptedAt staff) ∧
      (∀ telegramId now i acceptedAt staff,
        (acceptInvitation digest telegramId now, .accepted i acceptedAt staff) ∈ (after store turns).log →
          acceptedAt = now ∧ ∃ inv, (store .invitations).row i = some inv ∧ inv.tokenDigest = digest ∧ now < inv.expiresAt) ∧
      ∀ earlier turn later, turns = earlier ++ turn :: later →
        (∀ i inv, ((after store earlier).store .invitations).row i = some inv → inv.status ≠ .active →
          ((after store (earlier ++ [turn])).store .invitations).row i = some inv) ∧
        ((∃ op i acceptedAt staff, (after store (earlier ++ [turn])).log =
            (after store earlier).log ++ [(op, .accepted i acceptedAt staff)]) ∨
          ∀ i, ((after store (earlier ++ [turn])).store .members).row i = ((after store earlier).store .members).row i) := by
  have record := recorded store turns
  refine ⟨?_, fun earlier op i role revokedAt later log e he acceptedAt staff hb => ?_, ?_, fun earlier turn later _ => ?_⟩
  · have once := record.once.filter (Accepts digest)
    have listed : ∀ e ∈ (after store turns).log.filter (Accepts digest), ∃ i, consumes e.2 = some i ∧
        ∃ inv, (store .invitations).row i = some inv ∧ inv.tokenDigest = digest := by
      rintro ⟨op, b⟩ he
      obtain ⟨hmem, accepts⟩ := List.mem_filter.mp he
      unfold Accepts at accepts
      split at accepts
      · next d telegramId now i acceptedAt staff same =>
        obtain ⟨rfl, rfl⟩ := Prod.mk.inj same
        obtain rfl : d = digest := by simpa using accepts
        obtain ⟨-, inv, row, token, -⟩ := record.accepted _ _ _ _ _ _ hmem
        exact ⟨i, rfl, inv, row, token⟩
      · cases accepts
    cases hl : (after store turns).log.filter (Accepts digest) with
    | nil => exact Nat.zero_le 1
    | cons e l =>
      cases l with
      | nil => exact le_rfl
      | cons f l =>
        rw [hl] at once listed
        obtain ⟨i, hi, inv, row, token⟩ := listed e List.mem_cons_self
        obtain ⟨j, hj, inv', row', token'⟩ := listed f (List.mem_cons_of_mem e List.mem_cons_self)
        obtain rfl : i = j := unique i j inv inv' digest row row' (congrArg some token) (congrArg some token')
        exact absurd hj ((List.pairwise_cons.mp once).1 f List.mem_cons_self i hi)
  · have once := record.once
    rw [log] at once
    have later := (List.pairwise_cons.mp (List.pairwise_append.mp once).2.1).1 e he i rfl
    exact later (congrArg consumes hb)
  · exact fun telegramId now i acceptedAt staff hmem => record.accepted digest telegramId now i acceptedAt staff hmem
  · have kept := (recorded store earlier).kept
    have next : after store (earlier ++ [turn]) = InvitationOp.step (after store earlier) turn := run_append ..
    rw [next]
    refine ⟨fun i inv row closed => kept.closed_stays row closed, ?_⟩
    rcases kept.effect turn with ⟨-, idle⟩ | ⟨op, b, log, ⟨-, idle⟩ | closes⟩
    · exact .inr idle.2
    · exact .inr idle.2
    · cases closes with
      | accepted => exact .inl ⟨_, _, _, _, log⟩
      | revoked _ _ quiet => exact .inr quiet
      | expired _ _ quiet => exact .inr quiet

/-! ### One invitation -/

/-- The owner has invited a master; the invitation expires at 100. -/
def oneInvitation : (t : StaffTable) → Table t.Row
  | .invitations => Table.empty.insert
      { tokenDigest := "digest", role := .master, displayName := "Anna", isBookable := true, status := .active
        expiresAt := 100, createdByStaffId := 1, acceptedByUserId := none, usedAt := none, revokedAt := none
        revokedByStaffId := none }
  | .members => Table.empty.insert (AuthorizationService.newOwner 1 "Olga" true true)
  | .users => Table.empty.insert ⟨1, false⟩
  | .business => Table.empty.insert ⟨.solo⟩

/-- Two users open the link and the owner revokes it, all at the same time; the call that locks first is served first. -/
def contested : List (Turn InvitationOp) :=
  [.begin 0 (.acceptInvitation "digest" 7 10), .begin 1 (.acceptInvitation "digest" 8 11),
    .begin 2 (.revokeInvitation 1 1 12), .next 2, .next 2] ++ List.replicate 10 (.next 0) ++
    List.replicate 2 (.next 1) ++ List.replicate 2 (.next 2)

theorem invitation_single_use_contested :
    (after oneInvitation contested).log.map Prod.snd =
        [.accepted 1 10 ⟨2, 2, .master, true, false, []⟩, .refused AuthorizationService.invalidInvitation,
          .refused InvitationService.notActive] ∧
      ((after oneInvitation contested).log.filter (Accepts "digest")).length ≤ 1 := by
  have unique : Table.Distinct (fun inv : StaffInvitation => some inv.tokenDigest) (oneInvitation .invitations) :=
    Table.Distinct.empty.insert fun _ _ => Table.all_empty
  exact ⟨by decide +kernel, (invitation_single_use oneInvitation contested unique "digest").1⟩

end InvitationOp

end SalonBooking.Staff
