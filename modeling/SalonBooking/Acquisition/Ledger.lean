import SalonBooking.Acquisition.Touches
import SalonBooking.Lib.Owned
import SalonBooking.Lib.Run
import SalonBooking.Privacy.Workflow

/-!
# The ledger of touches

A touch holds the lock of the client's card from before it looks for her attribution to its commit, and nothing else
writes attributions. However the calls interleave, the stored attribution of a client is therefore what the pure
projection makes of the touches that were recorded for her, in the order of their commits.
-/

namespace SalonBooking.Acquisition

open Lib

abbrev AcquisitionView : Type := View AcquisitionTable.Row

/-- Others leave the attributions of a locked card alone. -/
abbrev CardGuard : Reliance AcquisitionTable.Row :=
  View.Guard (t := .attributions) .clients ClientAcquisitionAttribution.businessClientId

/-- What a commit does to the attributions, along the answer of the call. -/
inductive Records (v : AcquisitionView) : AcquisitionAnswer → Prop
  | first {clientId sourceId j : Nat} {touchedAt : Int} {a : ClientAcquisitionAttribution} (mine : v.mine .clients clientId)
      (none : ∀ k b, (v.store .attributions).row k = some b → b.businessClientId ≠ clientId)
      (adds : v.Adds .attributions j a) (own : a.businessClientId = clientId)
      (made : AttributionProjection.first sourceId touchedAt = .ok a.columns) :
      Records v (.recorded clientId sourceId touchedAt true)
  | again {clientId sourceId j : Nat} {touchedAt : Int} {old now : ClientAcquisitionAttribution}
      (mine : v.mine .clients clientId) (holds : v.Holds .attributions j old now) (own : old.businessClientId = clientId)
      (same : now.businessClientId = clientId) (made : old.columns.touch sourceId touchedAt = .ok now.columns) :
      Records v (.recorded clientId sourceId touchedAt false)
  | source {sourceId : Nat} (quiet : v.Clean .attributions) : Records v (.source sourceId)

theorem Records.guarded {v : AcquisitionView} {b : AcquisitionAnswer} (h : Records v b) :
    v.Guarded (t := .attributions) .clients ClientAcquisitionAttribution.businessClientId := by
  cases h with
  | first mine _ adds own => exact adds.guarded (own ▸ mine)
  | again mine holds own same => exact holds.guarded (same.trans own.symm) (own ▸ mine)
  | source quiet => exact quiet.guarded

/-! ### The programs -/

abbrev Commits : AcquisitionView → AcquisitionAnswer → Prop := fun v b => Records v b

variable {v v' : AcquisitionView} {next : AcquisitionTx}

/-- The session has not come to the attributions yet. -/
structure Fresh (v : AcquisitionView) : Prop where
  clean : v.Clean .attributions
  unread : v.copy .attributions = fun _ => none

namespace Fresh

theorem start {store : (t : AcquisitionTable) → Table t.Row} : Fresh (View.start store) := ⟨View.clean_start, rfl⟩

theorem others (h : Fresh v) (others : v.Others CardGuard v') : Fresh v' :=
  ⟨h.clean.others others, others.session.2.1 ▸ h.unread⟩

theorem load (h : Fresh v) {t : AcquisitionTable} (ht : AcquisitionTable.attributions ≠ t) (held : Bool) (ids : List Nat) :
    Fresh (v.load held t ids) := ⟨h.clean.load _ _ _, (Copies.load_of_ne ht).trans h.unread⟩

theorem insert (h : Fresh v) {t : AcquisitionTable} (ht : AcquisitionTable.attributions ≠ t) (a : t.Row) :
    Fresh (v.insert t a) := ⟨h.clean.insert ht.symm a, (Copies.insert_of_ne ht).trans h.unread⟩

end Fresh

theorem make_ok {p q : AttributionProjection} (h : p.make = .ok q) : q = p := by
  simp only [AttributionProjection.make, Except.bind_ok, Except.require_ok, Except.pure_ok, exists_const] at h
  exact h.2.2.2.symm

theorem safe_checked {α : Type} {check : AcquisitionCheck α} {next : α → AcquisitionTx}
    (hnext : ∀ a, check = .ok a → (next a).Safe CardGuard Commits v) : (checked check next).Safe CardGuard Commits v := by
  unfold checked
  split
  · trivial
  · exact hnext _ rfl

theorem safe_ignoring {α : Type} {check : AcquisitionCheck α} {next : α → AcquisitionTx}
    (hnext : ∀ a, (next a).Safe CardGuard Commits v) : (ignoring check next).Safe CardGuard Commits v := by
  unfold ignoring
  split
  · trivial
  · exact hnext _

theorem safe_ensureBusinessClient {userId : Nat} (hnext : ∀ v, Fresh v → next.Safe CardGuard Commits v) (hv : Fresh v) :
    (UserRepository.ensureBusinessClient userId next).Safe CardGuard Commits v := by
  intro u others
  dsimp only
  split
  · exact fun w others' _ => hnext _ (((hv.others others).others others').insert (by simp) _)
  · exact hnext _ (hv.others others)

theorem safe_getOrCreateClient {telegramId : Int} {next : Nat → AcquisitionTx}
    (hnext : ∀ v i, Fresh v → (next i).Safe CardGuard Commits v) (hv : Fresh v) :
    (UserRepository.getOrCreateClient telegramId next).Safe CardGuard Commits v := by
  intro u others
  have loaded := (hv.others others).load (show AcquisitionTable.attributions ≠ .users by simp) true
  dsimp only
  split
  · exact fun w others' _ => safe_ensureBusinessClient (fun v => hnext v _) (((loaded _).others others').insert (by simp) _)
  · exact safe_ensureBusinessClient (fun v => hnext v _) (loaded _)

theorem safe_hasCurrentPrivacy {userId : Nat} {next : Bool → AcquisitionTx}
    (hnext : ∀ v b, Fresh v → (next b).Safe CardGuard Commits v) (hv : Fresh v) :
    (AcquisitionRuntimeService.hasCurrentPrivacy userId next).Safe CardGuard Commits v := by
  intro u others
  have loaded := (hv.others others).load (show AcquisitionTable.attributions ≠ .business by simp) false
  dsimp only
  split
  · exact hnext _ _ (loaded _)
  · exact fun w others' => hnext _ _ (((loaded _).others others').load (by simp) _ _)

theorem touch_ok {p q : AttributionProjection} {sourceId : Nat} {touchedAt : Int} (h : p.touch sourceId touchedAt = .ok q) :
    p.lastTouchedAt ≤ touchedAt ∧ q = { p with
      lastSourceId := sourceId, lastTouchedAt := touchedAt, touchCount := p.touchCount + 1 } := by
  simp only [AttributionProjection.touch, Except.bind_ok, Except.require_ok, exists_const] at h
  exact ⟨not_lt.mp h.1, make_ok h.2⟩

/-- There is no attribution of a locked card: the one that is inserted stays the only one. -/
theorem safe_first {clientId sourceId : Nat} {happenedAt : Int} (clean : v.Clean .attributions)
    (mine : v.mine .clients clientId)
    (none : ∀ k b, (v.store .attributions).row k = some b → b.businessClientId ≠ clientId) :
    (checked (AttributionProjection.first sourceId happenedAt) fun p =>
      .insert .attributions
        ⟨clientId, p.firstSourceId, p.firstTouchedAt, p.lastSourceId, p.lastTouchedAt, p.touchCount⟩ fun _ =>
      .commit (.recorded clientId sourceId happenedAt true)).Safe CardGuard Commits v := by
  refine safe_checked fun p made => ?_
  intro u others _ w others'
  have inserted : (u.insert .attributions ⟨clientId, p.firstSourceId, p.firstTouchedAt, p.lastSourceId, p.lastTouchedAt,
    p.touchCount⟩).mine .clients clientId := .inr (others.session.1 ▸ mine)
  refine .first (others'.session.1 ▸ inserted) (fun k b row own => ?_)
    ((View.adds_insert (clean.others others) _).others others') rfl made
  have before : (u.store .attributions).row k = some b := by
    rw [← View.row_insert]
    exact (View.sameOwned_others others' inserted k b own).mp row
  exact none k b ((View.sameOwned_others others mine k b own).mp before) own

theorem safe_again {clientId sourceId j : Nat} {happenedAt : Int} {old : ClientAcquisitionAttribution}
    (mine : v.mine .clients clientId) (holds : v.Holds .attributions j old old) (own : old.businessClientId = clientId) :
    (checked old.columns.make fun projection =>
      checked (projection.touch sourceId happenedAt) fun p =>
      .assign .attributions j { old with
        lastSourceId := p.lastSourceId, lastTouchedAt := p.lastTouchedAt, touchCount := p.touchCount } <|
      .flush (.commit (.recorded clientId sourceId happenedAt false))).Safe CardGuard Commits v := by
  refine safe_checked fun projection made => ?_
  obtain rfl := make_ok made
  refine safe_checked fun p touched => ?_
  intro u others w others'
  have assigned : u.mine .clients clientId := others.session.1 ▸ mine
  refine .again (others'.session.1 ▸ .inr assigned) (((holds.assign_self _).others others).flush.others others') own own
    (touched.trans ?_)
  rw [(touch_ok touched).2]
  rfl

/-- From the lock of the card on nobody else writes an attribution of the client. -/
theorem safe_recordTouch {clientId : Nat} {code : String} {happenedAt : Int} (hv : Fresh v) :
    (AcquisitionService.recordTouch clientId code happenedAt).Safe CardGuard Commits v := by
  refine safe_checked fun code _ => ?_
  refine Tx.safe_getForUpdate (fun _ _ _ => trivial) fun u client x others row _ => ?_
  have fresh := (hv.others others).load (show AcquisitionTable.attributions ≠ .clients by simp) true [clientId]
  have mine : (u.load true .clients [clientId]).mine .clients clientId :=
    .inl ⟨rfl, rfl, List.mem_singleton_self _, Table.lt_next (t := u.sees .clients) row⟩
  intro w others'
  have fresh := fresh.others others'
  have mine : w.mine .clients clientId := others'.session.1 ▸ mine
  dsimp only
  split
  · trivial
  · next sourceId source _ _ =>
    intro s others₂
    have fresh := (fresh.load (show AcquisitionTable.attributions ≠ .sources by simp) false _).others others₂
    have mine : s.mine .clients clientId := others₂.session.1 ▸ .inr mine
    beta_reduce
    generalize hids : ((s.sees .attributions).select (·.businessClientId == clientId)).map Prod.fst = ids
    have mine : (s.load true .attributions ids).mine .clients clientId := .inr mine
    split
    · next empty =>
      refine safe_first (fresh.clean.load _ _ _) mine fun k b row own => ?_
      have seen : (s.sees .attributions).row k = some b := by
        rw [View.sees_row]
        · exact row
        · by_contra written
          exact fresh.clean k (.inl written)
      have listed : k ∈ ids := by
        rw [← hids]
        exact List.mem_map.mpr ⟨(k, b), Table.mem_select.mpr ⟨seen, beq_iff_eq.mpr own⟩, rfl⟩
      obtain ⟨y, hy⟩ := View.known_load true listed seen
      have member := Copies.mem_rows (r := (k, y.now)).mpr ⟨listed, y, hy, rfl⟩
      rw [empty] at member
      exact absurd member List.not_mem_nil
    · next j attribution _ rows =>
      have member : (j, attribution) ∈ (s.load true .attributions ids).copy.rows .attributions ids :=
        rows ▸ List.mem_cons_self
      obtain ⟨hj, y, hy, same⟩ := Copies.mem_rows.mp member
      obtain ⟨old, found, own⟩ : ∃ old, (s.sees .attributions).row j = some old ∧ old.businessClientId = clientId := by
        rw [← hids] at hj
        obtain ⟨⟨k, old⟩, hmem, rfl⟩ := List.mem_map.mp hj
        obtain ⟨row, own⟩ := Table.mem_select.mp hmem
        exact ⟨old, row, beq_iff_eq.mp own⟩
      have holds : (s.load true .attributions ids).Holds .attributions j old old :=
        View.holds_load fresh.clean (by rw [fresh.unread]) hj found
      obtain rfl : attribution = old := by
        obtain ⟨z, hz, rfl, -⟩ := holds.object
        rw [hy, Option.some.injEq] at hz
        exact same.trans (congrArg Copy.now hz)
      exact safe_again mine holds own

theorem safe_recordKnownTouch {telegramId touchedAt : Int} {code : String} (hv : Fresh v) :
    (AcquisitionRuntimeService.recordKnownTouch telegramId code touchedAt).Safe CardGuard Commits v := by
  refine safe_ignoring fun code => safe_getOrCreateClient (fun u userId hu => safe_hasCurrentPrivacy (fun w accepted hw => ?_) hu) hv
  split
  · intro s others
    dsimp only
    split
    · trivial
    · exact safe_recordTouch ((hw.others others).load (by simp) _ _)
  · trivial

theorem safe_createSource {code name : String} {channel : Option String} {staffId : Option Nat} (hv : Fresh v) :
    (AcquisitionService.createSource code name channel staffId).Safe CardGuard Commits v := by
  refine safe_checked fun code _ => safe_checked fun _ _ => ?_
  intro u others
  have loaded := (hv.others others).load (show AcquisitionTable.attributions ≠ .sources by simp) false
  dsimp only
  split
  · exact fun w others' _ s others'' => .source ((((loaded _).others others').insert (by simp) _).others others'').clean
  · exact fun w others' => .source ((loaded _).others others').clean

theorem safe (op : AcquisitionOp) (store : (t : AcquisitionTable) → Table t.Row) :
    op.tx.Safe CardGuard Commits (View.start store) := by
  cases op with
  | recordKnownTouch => exact safe_recordKnownTouch .start
  | createSource => exact safe_createSource .start

/-! ### What leaves without a commit -/

def Refused : AcquisitionAnswer → Prop
  | .ignored | .refused _ => True
  | _ => False

theorem leaves_checked {α : Type} {check : AcquisitionCheck α} {next : α → AcquisitionTx}
    (hnext : ∀ a, (next a).Leaves Refused) : (checked check next).Leaves Refused := by
  unfold checked
  split
  · trivial
  · exact hnext _

theorem leaves_ignoring {α : Type} {check : AcquisitionCheck α} {next : α → AcquisitionTx}
    (hnext : ∀ a, (next a).Leaves Refused) : (ignoring check next).Leaves Refused := by
  unfold ignoring
  split
  · trivial
  · exact hnext _

theorem leaves_hasCurrentPrivacy {userId : Nat} {next : Bool → AcquisitionTx} (hnext : ∀ b, (next b).Leaves Refused) :
    (AcquisitionRuntimeService.hasCurrentPrivacy userId next).Leaves Refused := by
  intro business
  dsimp only
  split
  · exact hnext _
  · exact fun _ => hnext _

theorem leaves_getOrCreateClient {telegramId : Int} {next : Nat → AcquisitionTx} (hnext : ∀ i, (next i).Leaves Refused) :
    (UserRepository.getOrCreateClient telegramId next).Leaves Refused := by
  have ensure : ∀ i, (UserRepository.ensureBusinessClient i (next i)).Leaves Refused := by
    intro i counts
    dsimp only
    split
    · exact fun _ => hnext i
    · exact hnext i
  intro rows
  dsimp only
  split
  · exact ensure
  · exact ensure _

theorem leaves_recordTouch {clientId : Nat} {code : String} {happenedAt : Int} :
    (AcquisitionService.recordTouch clientId code happenedAt).Leaves Refused := by
  refine leaves_checked fun code rows => ?_
  dsimp only
  split
  · trivial
  · intro sources
    dsimp only
    split
    · trivial
    · intro attributions
      dsimp only
      split
      · exact leaves_checked fun _ _ => trivial
      · exact leaves_checked fun _ => leaves_checked fun _ => trivial

theorem leaves (op : AcquisitionOp) : op.tx.Leaves Refused := by
  cases op with
  | recordKnownTouch telegramId code touchedAt =>
    refine leaves_ignoring fun code => leaves_getOrCreateClient fun userId => leaves_hasCurrentPrivacy fun accepted => ?_
    split
    · intro rows
      dsimp only
      split
      · trivial
      · exact leaves_recordTouch
    · trivial
  | createSource =>
    refine leaves_checked fun _ => leaves_checked fun _ rows => ?_
    dsimp only
    split
    · exact fun _ => trivial
    · trivial

/-! ### Ledgers -/

def step (w : AcquisitionWorld) (turn : Turn AcquisitionOp) : AcquisitionWorld := w.step AcquisitionOp.tx turn

/-- The calls after any interleaving, from any stored rows. -/
def after (store : (t : AcquisitionTable) → Table t.Row) (turns : List (Turn AcquisitionOp)) : AcquisitionWorld :=
  run step (World.start store) turns

/-- A client has one attribution at most. -/
def OnePerClient (attributions : Table ClientAcquisitionAttribution) : Prop :=
  ∀ j k a b, attributions.row j = some a → attributions.row k = some b → a.businessClientId = b.businessClientId → j = k

/-- The projection that is stored for a client. -/
def stored (attributions : Table ClientAcquisitionAttribution) (clientId : Nat) : Option AttributionProjection :=
  (attributions.select (·.businessClientId == clientId)).head?.map fun r => r.2.columns

/-- The touch that an answer records for a client. -/
def touchOf (clientId : Nat) : AcquisitionAnswer → Option (Nat × Int)
  | .recorded i sourceId touchedAt _ => if i = clientId then some (sourceId, touchedAt) else none
  | _ => none

/-- The touches that were recorded for a client, in the order of the commits. -/
def touches (clientId : Nat) (log : List (AcquisitionOp × AcquisitionAnswer)) : List (Nat × Int) :=
  log.filterMap fun e => touchOf clientId e.2

/-- The pure projection of one more touch. -/
def project (p : Option AttributionProjection) (t : Nat × Int) : AcquisitionCheck (Option AttributionProjection) :=
  match p with
  | none => (AttributionProjection.first t.1 t.2).map some
  | some p => (p.touch t.1 t.2).map some

theorem stored_of_row {attributions : Table ClientAcquisitionAttribution} (one : OnePerClient attributions) {j : Nat}
    {a : ClientAcquisitionAttribution} (row : attributions.row j = some a) :
    stored attributions a.businessClientId = some a.columns := by
  unfold stored
  have member : (j, a) ∈ attributions.select (·.businessClientId == a.businessClientId) :=
    Table.mem_select.mpr ⟨row, beq_self_eq_true _⟩
  cases rows : attributions.select (·.businessClientId == a.businessClientId) with
  | nil => rw [rows] at member; exact absurd member List.not_mem_nil
  | cons r rest =>
    obtain ⟨row', own⟩ := Table.mem_select.mp (rows ▸ List.mem_cons_self : r ∈ attributions.select _)
    obtain rfl : r.1 = j := one _ _ _ _ row' row (beq_iff_eq.mp own)
    rw [row, Option.some.injEq] at row'
    rw [row']
    rfl

theorem stored_eq_none {attributions : Table ClientAcquisitionAttribution} {clientId : Nat}
    (free : ∀ j a, attributions.row j = some a → a.businessClientId ≠ clientId) : stored attributions clientId = none := by
  unfold stored
  cases rows : attributions.select (·.businessClientId == clientId) with
  | nil => rfl
  | cons r rest =>
    obtain ⟨row, own⟩ := Table.mem_select.mp (rows ▸ List.mem_cons_self : r ∈ attributions.select _)
    exact absurd (beq_iff_eq.mp own) (free _ _ row)

variable {attributions attributions' : Table ClientAcquisitionAttribution} {clientId : Nat}

/-- The attributions of the client are the same. -/
abbrev Same (clientId : Nat) (attributions attributions' : Table ClientAcquisitionAttribution) : Prop :=
  SameOwned ClientAcquisitionAttribution.businessClientId clientId attributions attributions'

theorem stored_congr (one : OnePerClient attributions) (one' : OnePerClient attributions')
    (same : Same clientId attributions attributions') : stored attributions' clientId = stored attributions clientId := by
  by_cases found : ∃ j a, attributions.row j = some a ∧ a.businessClientId = clientId
  · obtain ⟨j, a, row, rfl⟩ := found
    rw [stored_of_row one row, stored_of_row one' ((same j a rfl).mpr row)]
  · push Not at found
    rw [stored_eq_none found, stored_eq_none fun j a row own => found j a ((same j a own).mp row) own]

theorem same_of_ne {j : Nat} (others : ∀ k, k ≠ j → attributions'.row k = attributions.row k)
    (old : ∀ a, attributions.row j = some a → a.businessClientId ≠ clientId)
    (new : ∀ a, attributions'.row j = some a → a.businessClientId ≠ clientId) : Same clientId attributions attributions' := by
  intro k a own
  by_cases e : k = j
  · subst e
    exact ⟨fun row => absurd own (new a row), fun row => absurd own (old a row)⟩
  · rw [others k e]

theorem onePerClient_congr (one : OnePerClient attributions) (same : ∀ k, attributions'.row k = attributions.row k) :
    OnePerClient attributions' := by
  intro j k a b ha hb
  rw [same] at ha hb
  exact one j k a b ha hb

/-- What a commit with the answer `b` does to the attributions. -/
structure Posts (attributions attributions' : Table ClientAcquisitionAttribution) (b : AcquisitionAnswer) : Prop where
  one : OnePerClient attributions'
  others : ∀ i, touchOf i b = none → stored attributions' i = stored attributions i
  own : ∀ i t, touchOf i b = some t → project (stored attributions i) t = .ok (stored attributions' i)

theorem Records.posts {b : AcquisitionAnswer} (h : Records v b) (one : OnePerClient (v.store .attributions)) :
    Posts (v.store .attributions) (v.committed .attributions) b := by
  cases h with
  | @first clientId sourceId j touchedAt a mine free adds own made =>
    obtain ⟨row, others⟩ := adds.committed
    have one' : OnePerClient (v.committed .attributions) := by
      intro k l b c hb hc same
      by_cases hk : k = j <;> by_cases hl : l = j
      · rw [hk, hl]
      · rw [hk, row, Option.some.injEq] at hb
        rw [others l hl] at hc
        exact absurd (same.symm.trans (hb ▸ own)) (free l c hc)
      · rw [hl, row, Option.some.injEq] at hc
        rw [others k hk] at hb
        exact absurd (same.trans (hc ▸ own)) (free k b hb)
      · rw [others k hk] at hb
        rw [others l hl] at hc
        exact one k l b c hb hc same
    refine ⟨one', fun i other => stored_congr one one' (same_of_ne others ?_ ?_), fun i t mine => ?_⟩
    · intro b hb
      rw [adds.fresh] at hb
      cases hb
    · intro b hb
      rw [row, Option.some.injEq] at hb
      subst hb
      simpa [touchOf, own] using other
    · obtain ⟨rfl, rfl⟩ : clientId = i ∧ (sourceId, touchedAt) = t := by simpa [touchOf] using mine
      rw [stored_eq_none free, ← own, stored_of_row one' row]
      simp only [project, made]
      rfl
  | @again clientId sourceId j touchedAt old now mine holds own same made =>
    obtain ⟨row, others⟩ := holds.committed
    have one' : OnePerClient (v.committed .attributions) := by
      have before : ∀ k b, (v.committed .attributions).row k = some b →
          ∃ c, (v.store .attributions).row k = some c ∧ c.businessClientId = b.businessClientId := by
        intro k b hb
        by_cases hk : k = j
        · subst hk
          rw [row, Option.some.injEq] at hb
          exact ⟨old, holds.stored, own.trans (hb ▸ same.symm)⟩
        · exact ⟨b, (others k hk).symm.trans hb, rfl⟩
      intro k l b c hb hc equal
      obtain ⟨b', hb', ownb⟩ := before k b hb
      obtain ⟨c', hc', ownc⟩ := before l c hc
      exact one k l b' c' hb' hc' (ownb.trans (equal.trans ownc.symm))
    refine ⟨one', fun i other => stored_congr one one' (same_of_ne others ?_ ?_), fun i t mine => ?_⟩
    · intro b hb
      rw [holds.stored, Option.some.injEq] at hb
      subst hb
      simpa [touchOf, own] using other
    · intro b hb
      rw [row, Option.some.injEq] at hb
      subst hb
      simpa [touchOf, same] using other
    · obtain ⟨rfl, rfl⟩ : clientId = i ∧ (sourceId, touchedAt) = t := by simpa [touchOf] using mine
      have before := stored_of_row one holds.stored
      have afterwards := stored_of_row one' row
      rw [own] at before
      rw [same] at afterwards
      rw [before, afterwards]
      simp only [project, made]
      rfl
  | source quiet =>
    have rows : ∀ k, (v.committed .attributions).row k = (v.store .attributions).row k := fun k => quiet.committed
    have one' := onePerClient_congr one rows
    exact ⟨one', fun i _ => stored_congr one one' fun k a _ => by rw [rows], nofun⟩

/-- What holds of the open calls of every reachable world. -/
structure Kept (w : AcquisitionWorld) : Prop where
  sound : w.Sound False
  knows : w.Knows (fun _ => CardGuard) fun _ => Commits
  follows : w.Follows (fun _ _ b => Refused b) fun _ _ _ => True

variable {w : AcquisitionWorld} {turn : Turn AcquisitionOp} {store : (t : AcquisitionTable) → Table t.Row}

theorem Kept.start : Kept (World.start store) := ⟨World.sound_start _, World.knows_start _, World.follows_start _⟩

theorem Kept.step (h : Kept w) : Kept (step w turn) where
  sound := h.sound.step nofun
  knows := h.knows.step (fun op => safe op _) h.sound fun _ _ _ _ _ _ hc commit _ hk =>
    World.guard_of_guarded (h.knows.commit hc commit).guarded hk
  follows := h.follows.step (fun op => (leaves op).ensures _) h.sound

/-- The ledger so far: each client's attribution is the projection of her touches. -/
structure Ledger (store : (t : AcquisitionTable) → Table t.Row) (w : AcquisitionWorld) : Prop where
  kept : Kept w
  one : OnePerClient (w.store .attributions)
  projected : ∀ i, (touches i w.log).foldlM project (stored (store .attributions) i) = .ok (stored (w.store .attributions) i)

theorem touches_append (log : List (AcquisitionOp × AcquisitionAnswer)) (op : AcquisitionOp) (b : AcquisitionAnswer) :
    touches clientId (log ++ [(op, b)]) = touches clientId log ++ (touchOf clientId b).toList := by
  unfold touches
  rw [List.filterMap_append]
  cases h : touchOf clientId b <;> simp [h]

theorem touchOf_refused {b : AcquisitionAnswer} (h : Refused b) : touchOf clientId b = none := by
  cases b with
  | ignored | refused => rfl
  | _ => exact h.elim

theorem Ledger.step (h : Ledger store w) : Ledger store (step w turn) := by
  have idle : w.Idle (Acquisition.step w turn) → OnePerClient ((Acquisition.step w turn).store .attributions) ∧
      ∀ i, stored ((Acquisition.step w turn).store .attributions) i = stored (w.store .attributions) i := by
    intro idle
    have one' := onePerClient_congr h.one (idle .attributions)
    exact ⟨one', fun i => stored_congr h.one one' fun k a _ => by rw [idle .attributions]⟩
  rcases World.step_answers h.kept.knows h.kept.follows AcquisitionOp.tx turn with
    ⟨log, same⟩ | ⟨op, b, log, refused, same⟩ | ⟨tid, c, b, log, records, committed⟩
  · obtain ⟨one', same⟩ := idle same
    refine ⟨h.kept.step, one', fun i => ?_⟩
    rw [same, show (Acquisition.step w turn).log = w.log from log]
    exact h.projected i
  · obtain ⟨one', same⟩ := idle same
    refine ⟨h.kept.step, one', fun i => ?_⟩
    rw [same, show (Acquisition.step w turn).log = _ from log, touches_append, touchOf_refused refused]
    simpa using h.projected i
  · have posts := Records.posts records h.one
    rw [← committed] at posts
    refine ⟨h.kept.step, posts.one, fun i => ?_⟩
    rw [show (Acquisition.step w turn).log = _ from log, touches_append, List.foldlM_append, h.projected i]
    cases mine : touchOf i b with
    | none =>
      rw [show stored ((Acquisition.step w turn).store .attributions) i = _ from posts.others i mine]
      rfl
    | some t =>
      have own := posts.own i t mine
      simp only [Option.toList_some, List.foldlM_cons, List.foldlM_nil]
      show (project (stored (w.store .attributions) i) t >>= pure) = _
      rw [bind_pure]
      exact own

theorem ledger (one : OnePerClient (store .attributions)) (turns : List (Turn AcquisitionOp)) :
    Ledger store (after store turns) :=
  run_invariant (fun _ _ h => h.step) ⟨.start, one, fun _ => rfl⟩ turns

/-! ### Projections -/

/-- An attribution after further touches: the first touch stays, the last one is the latest, and all are counted. -/
def AttributionProjection.later (p : AttributionProjection) (ts : List (Nat × Int)) : AttributionProjection :=
  match ts.getLast? with
  | none => p
  | some t => { p with lastSourceId := t.1, lastTouchedAt := t.2, touchCount := p.touchCount + ts.length }

/-- What touches make of an attribution or of none. -/
def summary (p : Option AttributionProjection) (ts : List (Nat × Int)) : Option AttributionProjection :=
  match p, ts with
  | some p, ts => some (p.later ts)
  | none, [] => none
  | none, t :: ts => some (AttributionProjection.later ⟨t.1, t.2, t.1, t.2, 1⟩ ts)

theorem later_cons {p : AttributionProjection} {t : Nat × Int} {ts : List (Nat × Int)} :
    AttributionProjection.later { p with lastSourceId := t.1, lastTouchedAt := t.2, touchCount := p.touchCount + 1 } ts =
      p.later (t :: ts) := by
  unfold AttributionProjection.later
  cases ts with
  | nil => simp
  | cons u us =>
    rw [List.getLast?_cons_cons]
    cases h : (u :: us).getLast? with
    | none => simp at h
    | some last =>
      simp only [List.length_cons]
      push_cast
      congr 1
      ring

theorem fold_some {ts : List (Nat × Int)} : ∀ {p : AttributionProjection} {q : Option AttributionProjection},
    ts.foldlM project (some p) = .ok q → q = some (p.later ts) ∧ (p.lastTouchedAt :: ts.map Prod.snd).IsChain (· ≤ ·) := by
  induction ts with
  | nil =>
    intro p q h
    rw [List.foldlM_nil, Except.pure_ok] at h
    exact ⟨h.symm, .singleton _⟩
  | cons t ts ih =>
    intro p q h
    rw [List.foldlM_cons, Except.bind_ok] at h
    obtain ⟨r, projected, rest⟩ := h
    obtain ⟨p', touched, rfl⟩ := Except.map_eq_ok.mp projected
    obtain ⟨order, rfl⟩ := touch_ok touched
    obtain ⟨rfl, chain⟩ := ih rest
    rw [later_cons]
    exact ⟨rfl, .cons_cons order chain⟩

theorem fold_project {ts : List (Nat × Int)} {p q : Option AttributionProjection} (h : ts.foldlM project p = .ok q) :
    q = summary p ts ∧ ((p.map AttributionProjection.lastTouchedAt).toList ++ ts.map Prod.snd).Pairwise (· ≤ ·) := by
  cases p with
  | some p =>
    obtain ⟨rfl, chain⟩ := fold_some h
    exact ⟨rfl, List.isChain_iff_pairwise.mp chain⟩
  | none =>
    cases ts with
    | nil =>
      rw [List.foldlM_nil, Except.pure_ok] at h
      exact ⟨h.symm, .nil⟩
    | cons t ts =>
      rw [List.foldlM_cons, Except.bind_ok] at h
      obtain ⟨r, projected, rest⟩ := h
      obtain ⟨p', first, rfl⟩ := Except.map_eq_ok.mp projected
      obtain rfl := make_ok first
      obtain ⟨rfl, chain⟩ := fold_some rest
      exact ⟨rfl, List.isChain_iff_pairwise.mp chain⟩

/-- **However touches and new sources interleave, a client has one attribution at most, and it is the projection of the
touches that were recorded for her, in the order of their commits:** the first touch is never replaced, the last one is
the latest, none is lost or counted twice, and they do not go back in time. -/
theorem attribution_is_projection (store : (t : AcquisitionTable) → Table t.Row) (turns : List (Turn AcquisitionOp))
    (one : OnePerClient (store .attributions)) (clientId : Nat) :
    OnePerClient ((after store turns).store .attributions) ∧
      (touches clientId (after store turns).log).foldlM project (stored (store .attributions) clientId) =
        .ok (stored ((after store turns).store .attributions) clientId) ∧
      stored ((after store turns).store .attributions) clientId =
        summary (stored (store .attributions) clientId) (touches clientId (after store turns).log) ∧
      (((stored (store .attributions) clientId).map AttributionProjection.lastTouchedAt).toList ++
        (touches clientId (after store turns).log).map Prod.snd).Pairwise (· ≤ ·) := by
  have ledger := ledger one turns
  obtain ⟨eq, ordered⟩ := fold_project (ledger.projected clientId)
  exact ⟨ledger.one, ledger.projected clientId, eq, ordered⟩

/-- A client with the Telegram id 7 who has accepted the policy, and a campaign. -/
def oneClient : (t : AcquisitionTable) → Table t.Row
  | .users => Table.empty.insert ⟨7, false⟩
  | .clients => Table.empty.insert ⟨Privacy.defaultBusinessId, 1, true, none⟩
  | .business => Table.empty.insert ⟨some (Privacy.Sample.linked "v1")⟩
  | .consents => Table.empty.insert
      ⟨1, .privacy, none, true, .onboarding, "v1", some "https://salon.example/privacy", none, none, 5⟩
  | .sources => Table.empty.insert ⟨"spring", "Spring", none, true, none, none⟩
  | .attributions => Table.empty

/-- Two touches at the same time: the second one waits for the row of the user until the first one has committed. -/
def doubleTouch : List (Turn AcquisitionOp) :=
  [.begin 1 (.recordKnownTouch 7 " SPRING" 10), .begin 2 (.recordKnownTouch 7 "spring" 11)] ++
    List.replicate 3 (.next 1) ++ [.next 2] ++ List.replicate 7 (.next 1) ++ List.replicate 11 (.next 2)

theorem attribution_is_projection_doubleTouch :
    touches 1 (after oneClient doubleTouch).log = [(1, 10), (1, 11)] ∧
      stored ((after oneClient doubleTouch).store .attributions) 1 = some ⟨1, 10, 1, 11, 2⟩ ∧
      OnePerClient ((after oneClient doubleTouch).store .attributions) := by
  have one : OnePerClient (oneClient .attributions) := by
    intro j k a b row
    cases row
  obtain ⟨one', -, written, -⟩ := attribution_is_projection oneClient doubleTouch one 1
  have log : touches 1 (after oneClient doubleTouch).log = [(1, 10), (1, 11)] := by decide +kernel
  refine ⟨log, ?_, one'⟩
  rw [written, log]
  rfl

end SalonBooking.Acquisition
