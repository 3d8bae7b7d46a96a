import SalonBooking.Lib.Counts
import SalonBooking.Lib.Run
import SalonBooking.Schedule.Projection
import SalonBooking.Staff.Members

/-!
# The business type

`Business.business_type` caches whether more than one specialist is active. An operation that ends in
`sync_business_type` makes the cache right whatever it was before. The others leave the type alone or set it by
request, and `Settles` lists the states in which that is wrong.
-/

namespace SalonBooking

open Lib

namespace Staff.StaffDb

open Staff.AuthorizationService Staff.BusinessAdministrationService Schedule Schedule.AvailabilityProjector

variable {db db' : StaffDb} {now actor telegramId : Int} {c : StaffContext} {i : Nat} {m m' : StaffMember}

/-- The type says whether more than one specialist is active. -/
def Agrees (db : StaffDb) : Prop := db.businessType = .salon ↔ 1 < db.specialists.length

/-- A member that `sync_business_type` counts. -/
def specialist (m : StaffMember) : Bool := m.isActive && m.isBookable && m.archivedAt.isNone

/-- How many specialists there are other than the member `i`. -/
def otherSpecialists (db : StaffDb) (i : Nat) : Nat := db.members.countOthers i fun _ => specialist

/-- `bootstrap_owners` gets as far as inserting a bootstrap owner. -/
def CreatesBootstrapOwner (db : StaffDb) (telegramIds : List Int) (displayName : String) : Prop :=
  (∀ t ∈ telegramIds, 0 < t) ∧ strip displayName ≠ "" ∧ db.bootstrapOwner = none ∧
    ∃ t ∈ telegramIds.head?, db.memberByTelegramId t = none ∧ ∀ u ∈ db.userByTelegramId t, u.2.isBlocked = false

/-- The operation does not leave the type behind. -/
def Settles (db : StaffDb) (l : Int × StaffOp) : Prop :=
  match l.2 with
  | .updateBusiness actor businessType _ =>
    businessType = some .salon → (∃ c ∈ (liveContext db actor).toOption, c.hasPermission .manageBusiness) →
      1 < db.specialists.length
  | .setBootstrapBookable actor enabled =>
    ∀ c ∈ (liveContext db actor).toOption, c.isBootstrapOwner = true → (enabled = true → db.businessType = .solo) →
      c.isBookable ≠ enabled → db.otherSpecialists c.staffMemberId ≠ 1
  | .bootstrapOwners telegramIds displayName =>
    db.CreatesBootstrapOwner telegramIds displayName → db.businessType = .solo → db.specialists = []
  | _ => True

/-! ### Counting specialists -/

/-- Same type, and as many specialists. -/
def Neutral (db db' : StaffDb) : Prop :=
  db'.businessType = db.businessType ∧ db'.specialists.length = db.specialists.length

theorem Neutral.agrees (h : Neutral db db') : Agrees db' ↔ Agrees db := by
  unfold Agrees
  rw [h.1, h.2]

theorem Neutral.trans {db'' : StaffDb} (h : Neutral db db') (h' : Neutral db' db'') : Neutral db db'' :=
  ⟨h'.1.trans h.1, h'.2.trans h.2⟩

theorem agrees_sync : Agrees db.syncBusinessType := by
  show (if 1 < db.specialists.length then BusinessType.salon else .solo) = .salon ↔ 1 < db.specialists.length
  by_cases more : 1 < db.specialists.length
  · rw [if_pos more]
    exact ⟨fun _ => more, fun _ => rfl⟩
  · rw [if_neg more]
    refine ⟨fun salon => ?_, fun h => absurd h more⟩
    cases salon

theorem solo_of_agrees (h : Agrees db) (solo : db.businessType = .solo) : db.specialists.length ≤ 1 := by
  by_contra more
  have salon := h.mpr (by omega)
  rw [solo] at salon
  cases salon

theorem specialists_of_row (row : db.members.row i = some m) :
    db.specialists.length = db.otherSpecialists i + if specialist m = true then 1 else 0 :=
  Table.count_eq_countOthers (p := fun _ => specialist) row

theorem specialists_setMember (row : db.members.row i = some m) :
    (db.setMember i m').specialists.length = db.otherSpecialists i + if specialist m' = true then 1 else 0 :=
  Table.count_put (p := fun _ => specialist) row

theorem specialists_insert (hmembers : db'.members = db.members.insert m) :
    db'.specialists.length = db.specialists.length + if specialist m = true then 1 else 0 := by
  unfold specialists
  rw [hmembers]
  exact Table.count_insert (p := fun _ => specialist)

/-- A change of a membership that keeps its activity, bookability and archival. -/
theorem neutral_setMember (row : db.members.row i = some m) (same : specialist m' = specialist m) :
    Neutral db (db.setMember i m') := by
  refine ⟨rfl, ?_⟩
  rw [specialists_setMember row, specialists_of_row row, same]

theorem neutral_getOrCreateUser : Neutral db (db.getOrCreateUser telegramId).2.2 := by
  unfold getOrCreateUser
  split
  · exact ⟨rfl, rfl⟩
  · exact ⟨rfl, rfl⟩

/-! ### Operations -/

theorem liveContext_ok (h : liveContext db actor = .ok c) :
    ∃ m, db.members.row c.staffMemberId = some m ∧ m.isActive = true ∧ m.archivedAt = none ∧
      c.isBookable = m.isBookable ∧ c.isBootstrapOwner = m.isBootstrapOwner := by
  simp only [liveContext, Except.bind_ok, Except.orRaise_ok, Except.pure_ok, Option.filter_eq_some_iff, Bool.and_eq_true,
    Option.isNone_iff_eq_none] at h
  obtain ⟨⟨⟨j, member⟩, userId, user⟩, ⟨found, active, archived⟩, rfl⟩ := h
  exact ⟨member, memberByTelegramId_row found, active, archived, rfl, rfl⟩

theorem update_ok {businessType : Option BusinessType} {others : SoloCounts} :
    update actor businessType others db = .ok db' ↔
      ∃ c, liveContext db actor = .ok c ∧ c.hasPermission .manageBusiness ∧
        (businessType = some .solo → db.businessType = .salon →
          ∃ b, db.bootstrapOwner = some b ∧ db.soloTransitionBlockers b.1 others = []) ∧
        { db with businessType := businessType.getD db.businessType } = db' := by
  simp only [update, requirePermission, Except.bind_ok, Except.require_ok, exists_const]
  refine exists_congr fun c => and_congr_right fun live => and_congr_right fun allowed => ?_
  by_cases change : businessType = some .solo ∧ db.businessType = .salon
  · rw [if_pos change]
    simp only [Except.bind_ok, Except.orRaise_ok, Except.require_ok, Except.pure_ok, exists_const]
    constructor
    · rintro ⟨b, found, clear, eq⟩
      exact ⟨fun _ _ => ⟨b, found, clear⟩, eq⟩
    · rintro ⟨checks, eq⟩
      obtain ⟨b, found, clear⟩ := checks change.1 change.2
      exact ⟨b, found, clear, eq⟩
  · rw [if_neg change, Except.pure_ok]
    exact ⟨fun eq => ⟨fun solo salon => absurd ⟨solo, salon⟩ change, eq⟩, fun h => h.2⟩

theorem setBootstrapBookable_ok {enabled : Bool} :
    setBootstrapBookable actor enabled db = .ok db' ↔
      ∃ c m, liveContext db actor = .ok c ∧ c.isBootstrapOwner = true ∧ db.members.row c.staffMemberId = some m ∧
        (enabled = true → db.businessType = .solo) ∧ db.setMember c.staffMemberId { m with isBookable := enabled } = db' := by
  simp only [setBootstrapBookable, requirePermission, Except.bind_ok, Except.require_ok, Except.orRaise_ok, Except.pure_ok,
    exists_const, not_and, not_not]
  constructor
  · rintro ⟨c, live, -, bootstrap, m, row, -, solo, eq⟩
    exact ⟨c, m, live, bootstrap, row, solo, eq⟩
  · rintro ⟨c, m, live, bootstrap, row, solo, eq⟩
    refine ⟨c, live, ?_, bootstrap, m, row, ?_, solo, eq⟩
    · unfold StaffContext.hasPermission
      rw [if_pos bootstrap]
      decide
    · obtain ⟨m', row', -, -, -, flag⟩ := liveContext_ok live
      obtain rfl : m = m' := Option.some.inj (row.symm.trans row')
      exact flag ▸ bootstrap

/-! ### Steps -/

theorem step_ok {l : Int × StaffOp} (h : db.exec l.1 l.2 = .ok db') : db.step l = db' := by
  unfold step
  rw [h]
  rfl

theorem step_error {l : Int × StaffOp} {e : StaffError} (h : db.exec l.1 l.2 = .error e) : db.step l = db := by
  unfold step
  rw [h]
  rfl

theorem mem_live : c ∈ (liveContext db actor).toOption ↔ liveContext db actor = .ok c := by
  cases liveContext db actor with
  | error e => exact ⟨nofun, nofun⟩
  | ok c' =>
    rw [Except.ok.injEq]
    exact Option.some.injEq c' c ▸ Iff.rfl

theorem specialists_le_one {b : Nat × StaffMember} {others : SoloCounts} (h : db.soloTransitionBlockers b.1 others = []) :
    db.specialists.length ≤ 1 := by
  simp only [soloTransitionBlockers, List.append_eq_nil_iff, ite_eq_left_iff] at h
  obtain ⟨⟨⟨⟨-, others⟩, -⟩, -⟩, -⟩ := h
  have none : db.specialists.filter (·.1 ≠ b.1) = [] := by
    by_contra some
    cases others some
  refine (@Table.count_le_length _ _ (fun _ => specialist) [b.1]) fun i m row counted => ?_
  rw [List.mem_singleton]
  by_contra other
  have mem : (i, m) ∈ db.specialists.filter (·.1 ≠ b.1) :=
    List.mem_filter.mpr ⟨Table.mem_select.mpr ⟨row, counted⟩, decide_eq_true other⟩
  rw [none] at mem
  cases mem

theorem agrees_update {businessType : Option BusinessType} {others : SoloCounts} (h : Agrees db) :
    Agrees (db.step (now, .updateBusiness actor businessType others)) ↔
      Settles db (now, .updateBusiness actor businessType others) := by
  cases run : db.exec now (.updateBusiness actor businessType others) with
  | error e =>
    rw [step_error run]
    refine ⟨fun _ salon ⟨c, live, allowed⟩ => ?_, fun _ => h⟩
    have notSolo : businessType ≠ some .solo := by
      rw [salon]
      decide
    cases run.symm.trans (update_ok.mpr ⟨c, mem_live.mp live, allowed, fun solo => absurd solo notSolo, rfl⟩)
  | ok db' =>
    rw [step_ok run]
    obtain ⟨c, live, allowed, clear, rfl⟩ := update_ok.mp run
    cases businessType with
    | none => exact ⟨fun _ => nofun, fun _ => h⟩
    | some type =>
      cases type with
      | salon =>
        refine ⟨fun agrees _ _ => agrees.mp rfl, fun settles => ⟨fun _ => ?_, fun _ => rfl⟩⟩
        exact settles rfl ⟨c, mem_live.mpr live, allowed⟩
      | solo =>
        refine ⟨fun _ => nofun, fun _ => ⟨nofun, fun more => ?_⟩⟩
        obtain ⟨b, -, none⟩ := clear rfl (h.mpr more)
        exact absurd more (not_lt.mpr (specialists_le_one none))

/-- One specialist more or less, with `others` besides. -/
theorem toggle_agrees {salon : Prop} {others : Nat} {was on : Bool} (h : salon ↔ 1 < others + if was = true then 1 else 0)
    (solo : on = true → ¬ salon) : (salon ↔ 1 < others + if on = true then 1 else 0) ↔ (was ≠ on → others ≠ 1) := by
  by_cases hs : salon
  · cases on with
    | true => exact absurd hs (solo rfl)
    | false => cases was <;> simp [hs] at h ⊢ <;> omega
  · cases on <;> cases was <;> simp [hs] at h ⊢ <;> omega

theorem agrees_setBootstrapBookable {t : Int} {enabled : Bool} (h : Agrees db) :
    Agrees (db.step (t, .setBootstrapBookable actor enabled)) ↔ Settles db (t, .setBootstrapBookable actor enabled) := by
  cases run : db.exec t (.setBootstrapBookable actor enabled) with
  | error e =>
    rw [step_error run]
    refine ⟨fun _ c live bootstrap solo => ?_, fun _ => h⟩
    obtain ⟨m, row, -⟩ := liveContext_ok (mem_live.mp live)
    have ok := setBootstrapBookable_ok.mpr ⟨c, m, mem_live.mp live, bootstrap, row, solo, rfl⟩
    cases run.symm.trans ok
  | ok db' =>
    rw [step_ok run]
    obtain ⟨c, m, live, bootstrap, row, solo, rfl⟩ := setBootstrapBookable_ok.mp run
    obtain ⟨m', row', active, archived, bookable, -⟩ := liveContext_ok live
    obtain rfl : m = m' := Option.some.inj (row.symm.trans row')
    have before := specialists_of_row row
    have after := (@specialists_setMember _ _ _ { m with isBookable := enabled }) row
    have was : specialist m = c.isBookable := by rw [specialist, active, archived, bookable]; simp
    have is : specialist { m with isBookable := enabled } = enabled := by rw [specialist, active, archived]; simp
    rw [was] at before
    rw [is] at after
    have settles : Settles db (t, .setBootstrapBookable actor enabled) ↔
        (c.isBookable ≠ enabled → db.otherSpecialists c.staffMemberId ≠ 1) := by
      refine ⟨fun settles => settles c (mem_live.mpr live) bootstrap solo, fun free c' live' _ _ => ?_⟩
      obtain rfl : c = c' := Except.ok.inj (live.symm.trans (mem_live.mp live'))
      exact free
    rw [settles]
    unfold Agrees at h ⊢
    rw [after]
    rw [before] at h
    refine toggle_agrees h fun on (salon : db.businessType = .salon) => ?_
    rw [solo on] at salon
    cases salon

theorem neutral_seedOwner {name : String} {p : Nat × Int} : Neutral db (seedOwner name db p) := by
  unfold seedOwner
  split
  · exact ⟨rfl, rfl⟩
  · refine neutral_getOrCreateUser.trans ⟨rfl, ?_⟩
    rw [specialists_insert rfl]
    rfl

theorem neutral_seedOwners {name : String} {l : List (Int × Nat)} :
    Neutral db (l.foldl (fun db p => seedOwner name db (p.2, p.1)) db) := by
  induction l generalizing db with
  | nil => exact ⟨rfl, rfl⟩
  | cons p l ih => exact neutral_seedOwner.trans ih

/-- Binding leaves the specialists as they are, or inserts a bootstrap owner that is one in a solo business. -/
theorem bindBootstrapOwner_ok {name : String} (h : bindBootstrapOwner telegramId name db = .ok db') :
    (Neutral db db' ∧ ¬ (db.bootstrapOwner = none ∧ db.memberByTelegramId telegramId = none)) ∨
    (db.bootstrapOwner = none ∧ db.memberByTelegramId telegramId = none ∧
      (∀ u ∈ db.userByTelegramId telegramId, u.2.isBlocked = false) ∧ db'.businessType = db.businessType ∧
      db'.specialists.length = db.specialists.length + if db.businessType = .solo then 1 else 0) := by
  unfold bindBootstrapOwner at h
  split at h
  · next found =>
    simp only [Except.bind_ok, Except.require_ok, Except.pure_ok, exists_const] at h
    obtain ⟨-, rfl⟩ := h
    refine .inl ⟨⟨rfl, rfl⟩, fun absent => ?_⟩
    rw [found] at absent
    cases absent.1
  · next i m _ _ _ found =>
    simp only [Except.bind_ok, Except.require_ok, Except.pure_ok, exists_const] at h
    obtain ⟨-, rfl⟩ := h
    refine .inl ⟨neutral_setMember (memberByTelegramId_row found) rfl, fun absent => ?_⟩
    rw [found] at absent
    cases absent.2
  · next none member =>
    simp only [Except.bind_ok, Except.require_ok, Except.pure_ok, exists_const] at h
    obtain ⟨unblocked, rfl⟩ := h
    have user := @neutral_getOrCreateUser db telegramId
    refine .inr ⟨none, member, fun u hu => ?_, user.1, ?_⟩
    · unfold getOrCreateUser at unblocked
      rw [Option.mem_def.mp hu] at unblocked
      exact unblocked
    · rw [specialists_insert rfl, user.1, user.2]
      cases db.businessType <;> rfl

theorem bootstrapOwners_cons {ids : List Int} {first : Int} {name : String} :
    bootstrapOwners (first :: ids) name db = .ok db' ↔
      (∀ t ∈ first :: ids, 0 < t) ∧ strip name ≠ "" ∧ ∃ bound, bindBootstrapOwner first (strip name) db = .ok bound ∧
        (((ids.filter fun t => !t == first).eraseDups.zipIdx 2).foldl
          (fun db p => seedOwner (strip name) db (p.2, p.1)) bound) = db' := by
  simp only [bootstrapOwners, List.eraseDups_cons, Except.bind_ok, Except.require_ok, Except.pure_ok, exists_const]

theorem bindBootstrapOwner_of_creates {ids : List Int} {first : Int} {name : String}
    (h : db.CreatesBootstrapOwner (first :: ids) name) :
    db.bootstrapOwner = none ∧ db.memberByTelegramId first = none ∧
      ∃ bound, bindBootstrapOwner first (strip name) db = .ok bound := by
  obtain ⟨-, -, absent, t, ht, member, unblocked⟩ := h
  obtain rfl : first = t := Option.some.inj ht
  refine ⟨absent, member, ?_⟩
  unfold bindBootstrapOwner
  rw [absent, member]
  simp only [Except.bind_ok, Except.require_ok, Except.pure_ok, exists_const]
  refine ⟨_, ?_, rfl⟩
  unfold getOrCreateUser
  cases found : db.userByTelegramId first with
  | none => rfl
  | some u => exact unblocked u found

theorem agrees_bootstrapOwners {ids : List Int} {name : String} (h : Agrees db) :
    Agrees (db.step (now, .bootstrapOwners ids name)) ↔ Settles db (now, .bootstrapOwners ids name) := by
  cases ids with
  | nil =>
    have refused : ∃ e, db.exec now (.bootstrapOwners [] name) = .error e := by
      cases run : db.exec now (.bootstrapOwners [] name) with
      | error e => exact ⟨e, rfl⟩
      | ok db' => simp [exec, bootstrapOwners, Except.bind_ok] at run
    obtain ⟨e, run⟩ := refused
    rw [step_error run]
    refine ⟨fun _ creates => ?_, fun _ => h⟩
    obtain ⟨-, -, -, t, ht, -⟩ := creates
    cases ht
  | cons first ids =>
    cases run : db.exec now (.bootstrapOwners (first :: ids) name) with
    | error e =>
      rw [step_error run]
      refine ⟨fun _ creates => ?_, fun _ => h⟩
      obtain ⟨-, -, bound, binds⟩ := bindBootstrapOwner_of_creates creates
      cases run.symm.trans (bootstrapOwners_cons.mpr ⟨creates.1, creates.2.1, bound, binds, rfl⟩)
    | ok db' =>
      obtain ⟨positive, named, bound, binds, rfl⟩ := bootstrapOwners_cons.mp run
      rw [step_ok run, neutral_seedOwners.agrees]
      rcases bindBootstrapOwner_ok binds with ⟨neutral, existing⟩ | ⟨absent, member, unblocked, type, count⟩
      · rw [neutral.agrees]
        refine ⟨fun _ creates => ?_, fun _ => h⟩
        obtain ⟨absent, member, -⟩ := bindBootstrapOwner_of_creates creates
        exact absurd ⟨absent, member⟩ existing
      · have creates : db.CreatesBootstrapOwner (first :: ids) name := ⟨positive, named, absent, first, rfl, member, unblocked⟩
        unfold Agrees
        rw [type, count]
        by_cases solo : db.businessType = .solo
        · have few := solo_of_agrees h solo
          rw [if_pos solo]
          refine ⟨fun agrees _ _ => List.eq_nil_of_length_eq_zero ?_, fun settles => ?_⟩
          · by_contra more
            have salon := agrees.mpr (by omega)
            rw [solo] at salon
            cases salon
          · rw [settles creates solo, solo]
            exact ⟨fun salon => absurd salon (by simp), fun more => absurd more (by decide)⟩
        · rw [if_neg solo, Nat.add_zero]
          exact ⟨fun _ _ => fun is => absurd is solo, fun _ => h⟩

theorem agrees_of_exec {op : StaffOp} (h : Agrees db) (settled : Settles db (now, op))
    (keeps : ∀ db', db.exec now op = .ok db' → Agrees db') : Agrees (db.step (now, op)) ↔ Settles db (now, op) := by
  refine ⟨fun _ => settled, fun _ => ?_⟩
  cases run : db.exec now op with
  | error e => rwa [step_error run]
  | ok db' =>
    rw [step_ok run]
    exact keeps db' run

theorem agrees_step {l : Int × StaffOp} (h : Agrees db) : Agrees (db.step l) ↔ Settles db l := by
  obtain ⟨now, op⟩ := l
  cases op with
  | updateBusiness actor businessType others => exact agrees_update h
  | setBootstrapBookable actor enabled => exact agrees_setBootstrapBookable h
  | bootstrapOwners ids name => exact agrees_bootstrapOwners h
  | issueInvitation actor values digest =>
    refine agrees_of_exec h trivial fun db' run => ?_
    simp only [exec, issueInvitation, Except.bind_ok, Except.require_ok, Except.pure_ok, exists_const] at run
    obtain ⟨_, -, _, -, _, -, -, rfl⟩ := run
    exact h
  | acceptInvitation digest telegramId =>
    refine agrees_of_exec h trivial fun db' run => ?_
    simp only [exec, acceptInvitation, Except.bind_ok, Except.orRaise_ok, Except.require_ok, exists_const] at run
    obtain ⟨⟨j, inv⟩, -, -, run⟩ := run
    split at run
    · rw [Except.pure_ok] at run
      exact run ▸ h
    · simp only [Except.bind_ok, Except.require_ok, Except.pure_ok, exists_const] at run
      exact run.2 ▸ agrees_sync
  | revokeInvitation actor invitationId =>
    refine agrees_of_exec h trivial fun db' run => ?_
    simp only [exec, revokeInvitation, Except.bind_ok, Except.orRaise_ok, Except.require_ok, exists_const] at run
    obtain ⟨_, -, _, -, _, -, -, _, -, run⟩ := run
    split at run
    · rw [Except.pure_ok] at run
      exact run ▸ h
    · rw [Except.pure_ok] at run
      exact run ▸ h
  | revokeMember actor staffMemberId =>
    refine agrees_of_exec h trivial fun db' run => ?_
    simp only [exec, revokeMember, Except.bind_ok, Except.pure_ok] at run
    obtain ⟨_, -, _, -, _, -, rfl⟩ := run
    exact agrees_sync
  | changeMemberRole actor staffMemberId role =>
    refine agrees_of_exec h trivial fun db' run => ?_
    simp only [exec, changeMemberRole, Except.bind_ok, Except.pure_ok] at run
    obtain ⟨_, -, _, -, _, -, _, -, rfl⟩ := run
    exact agrees_sync
  | setPermissionGrant actor staffMemberId permission enabled =>
    refine agrees_of_exec h trivial fun db' run => ?_
    simp only [exec, setPermissionGrant, Except.bind_ok, Except.require_ok, Except.pure_ok, exists_const] at run
    obtain ⟨-, _, -, -, target, found, rfl⟩ := run
    refine (neutral_setMember (manageableTarget_row found) ?_).agrees.mpr h
    rfl
  | setStaffBookable actor staffMemberId enabled =>
    refine agrees_of_exec h trivial fun db' run => ?_
    simp only [exec, setStaffBookable, Except.bind_ok, Except.pure_ok] at run
    obtain ⟨_, -, _, -, _, -, _, -, _, -, rfl⟩ := run
    exact agrees_sync

/-- A run keeps the agreement in every state that it goes through exactly when its steps settle. -/
theorem agrees_run {l : List (Int × StaffOp)} (h : Agrees db) :
    (∀ pre, pre <+: l → Agrees (run step db pre)) ↔ Guarded step Settles db l := by
  induction l generalizing db with
  | nil =>
    refine ⟨fun _ => trivial, fun _ pre hpre => ?_⟩
    rw [List.prefix_nil.mp hpre]
    exact h
  | cons x l ih =>
    constructor
    · intro all
      have next : Agrees (db.step x) := all [x] ⟨l, rfl⟩
      exact ⟨(agrees_step h).mp next, (ih next).mp fun pre hpre => all (x :: pre) (List.prefix_cons_inj x |>.mpr hpre)⟩
    · rintro ⟨settles, rest⟩ pre hpre
      cases pre with
      | nil => exact h
      | cons y pre =>
        obtain ⟨rfl, inner⟩ := List.cons_prefix_cons.mp hpre
        exact (ih ((agrees_step h).mpr settles)).mpr rest pre inner

/-! ### The projector -/

/-- A schedule definition that is read from a membership that is not archived. -/
def Scheduled (db : StaffDb) (staff : StaffScheduleDefinition) : Prop :=
  ∃ (i : Nat) (m : StaffMember), staff.staffMemberId = i ∧ db.members.row i = some m ∧ m.archivedAt = none ∧
    staff.isActive = m.isActive ∧ staff.isBookable = m.isBookable

theorem projector_accepts (h : Agrees db) {l : List StaffScheduleDefinition} (scheduled : ∀ staff ∈ l, db.Scheduled staff)
    (projector : AvailabilityProjector) (timezone : String) (localDate at_ horizon : Int) (requested : Option Int) (step : Int) :
    projector.projectDay db.businessType timezone localDate at_ horizon l requested step ≠ .error severalMasters := by
  intro refused
  obtain ⟨solo, several, distinct⟩ := projectDay_severalMasters refused
  -- the eligible masters are specialists under distinct ids
  have subset : (projector.eligible l).map (·.staffMemberId) ⊆ db.specialists.map fun r => (r.1 : Int) := by
    intro id hid
    obtain ⟨staff, hstaff, rfl⟩ := List.mem_map.mp hid
    obtain ⟨mem, eligible⟩ := List.mem_filter.mp ((List.mem_insertionSort _).mp hstaff)
    obtain ⟨i, m, eq, row, archived, active, bookable⟩ := scheduled staff mem
    rw [active, bookable] at eligible
    refine List.mem_map.mpr ⟨(i, m), Table.mem_select.mpr ⟨row, ?_⟩, eq.symm⟩
    rw [eligible, archived]
    rfl
  have le := (List.subperm_of_subset distinct subset).length_le
  rw [List.length_map, List.length_map] at le
  have few := solo_of_agrees h solo
  omega

/--
The type says in every state of a run whether more than one specialist is active, and the projector never finds a
solo business with several bookable masters, exactly when the steps of the run settle.
-/
theorem business_type_agrees (h : Agrees db) {l : List (Int × StaffOp)} :
    (∀ pre, pre <+: l → ((run step db pre).businessType = .salon ↔ 1 < (run step db pre).specialists.length) ∧
      ∀ schedules, (∀ staff ∈ schedules, (run step db pre).Scheduled staff) →
        ∀ (projector : AvailabilityProjector) timezone localDate now horizon requested slotStep,
          projector.projectDay (run step db pre).businessType timezone localDate now horizon schedules requested slotStep ≠
            .error severalMasters) ↔
      Guarded step Settles db l := by
  rw [← agrees_run h]
  constructor
  · exact fun holds pre hpre => (holds pre hpre).1
  · exact fun agrees pre hpre => ⟨agrees pre hpre, fun schedules scheduled => projector_accepts (agrees pre hpre) scheduled⟩

/-! ### Runs from an empty database -/

instance (db : StaffDb) : Decidable db.Agrees := inferInstanceAs (Decidable (_ ↔ _))

instance (db : StaffDb) (telegramIds : List Int) (displayName : String) :
    Decidable (db.CreatesBootstrapOwner telegramIds displayName) :=
  inferInstanceAs (Decidable (_ ∧ _ ∧ _ ∧ ∃ t ∈ telegramIds.head?, _ ∧ ∀ u ∈ db.userByTelegramId t, u.2.isBlocked = false))

instance (db : StaffDb) : (l : Int × StaffOp) → Decidable (db.Settles l)
  | (_, .updateBusiness ..) => inferInstanceAs (Decidable (_ → (∃ c ∈ Except.toOption _, _) → _))
  | (_, .setBootstrapBookable ..) => inferInstanceAs (Decidable (∀ c ∈ Except.toOption _, _ → (_ → _) → _ → _))
  | (_, .bootstrapOwners ..) => inferInstanceAs (Decidable (_ → _ → _))
  | (_, .issueInvitation ..) | (_, .acceptInvitation ..) | (_, .revokeInvitation ..) | (_, .revokeMember ..)
  | (_, .changeMemberRole ..) | (_, .setPermissionGrant ..) | (_, .setStaffBookable ..) => instDecidableTrue

def unused : StaffDb := ⟨.empty, .empty, .empty, .solo⟩

/-- The bootstrap owner stops taking clients and invites a master. -/
def handOver : List (Int × StaffOp) :=
  let values : StaffInvitationCreate :=
    { role := .master, displayName := "Ольга", isBookable := true, expiresInHours := 24
      hours_range := StaffInvitationCreate.day_in_range, only_masters_are_bookable := fun _ => rfl }
  [(0, .bootstrapOwners [100] "Анна"), (10, .setBootstrapBookable 100 false), (20, .issueInvitation 100 values "t"),
    (30, .acceptInvitation "t" 200)]

/-- The schedules of the specialists, without rules. -/
def schedules (db : StaffDb) : Except WindowValidationError (List StaffScheduleDefinition) :=
  db.specialists.mapM fun r =>
    StaffScheduleDefinition.make r.1 r.2.displayName 60 [] [] [] r.1 r.2.isActive r.2.isBookable none

/-- When the bootstrap owner takes clients again, a solo business has two specialists. -/
theorem bootstrap_overfills_solo :
    Guarded step Settles unused handOver ∧
      let db := run step unused (handOver ++ [(40, .setBootstrapBookable 100 true)])
      ¬ db.Agrees ∧ db.businessType = .solo ∧ ∃ staff, db.schedules = .ok staff ∧
        atNewYork.projectDay db.businessType "America/New_York" 20520 (days 20519) 60 staff none 30 =
          .error severalMasters := by
  decide +kernel

theorem business_type_agrees_handOver :
    unused.Agrees ∧ ((∀ pre, pre <+: handOver ++ [(40, .setStaffBookable 100 1 true)] →
      ((run step unused pre).businessType = .salon ↔ 1 < (run step unused pre).specialists.length) ∧
        ∀ schedules, (∀ staff ∈ schedules, (run step unused pre).Scheduled staff) →
          ∀ (projector : AvailabilityProjector) timezone localDate now horizon requested slotStep,
            projector.projectDay (run step unused pre).businessType timezone localDate now horizon schedules requested
              slotStep ≠ .error severalMasters) ↔
      Guarded step Settles unused (handOver ++ [(40, .setStaffBookable 100 1 true)])) ∧
      Guarded step Settles unused (handOver ++ [(40, .setStaffBookable 100 1 true)]) := by
  have start : unused.Agrees := by decide
  exact ⟨start, business_type_agrees start, by decide +kernel⟩

end Staff.StaffDb

end SalonBooking
