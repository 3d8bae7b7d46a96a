import SalonBooking.Delivery.Leases
import SalonBooking.Lib.Marks
import SalonBooking.Lib.Steering
import SalonBooking.Lib.Views
import SalonBooking.Waitlist.Matching

/-!
# Closed requests

A request that is no longer live is left alone by every transaction that locks it first. The matching does not:
it lists live requests without a lock, and when a client cancels between the list and the offer, the offer is
queued and the request is MATCHED again. Where no transaction commits an offer for a request that was closed in
the meantime, closed requests stay as they are and get no further offers.
-/

namespace SalonBooking

open Lib

namespace WaitlistEntryOp

abbrev QueueView : Type := View QueueTable.Row

/-! ### What the programs change -/

/-- The session has queued an offer for the entry. -/
def Offers (copy : Copies QueueTable.Row) (entryId : Nat) : Prop :=
  ∃ j x, copy .notifications j = some x ∧ x.base = none ∧ x.now.waitlistEntryId = entryId

/-- The entry is in the session's lock, and live if it is stored. -/
def Open (v : QueueView) (entryId : Nat) : Prop :=
  v.mine .entries entryId ∧ ∀ entry, (v.store .entries).row entryId = some entry → entry.status.isLive = true

/-- The session changes entries that it has locked and found live, and has found the entries `es` so. -/
structure Ready (es : List Nat) (v : QueueView) : Prop where
  touched : ∀ e, v.Touched .entries e → Open v e
  waiting : ∀ e ∈ es, Open v e

/-- The session changes entries that it has locked and found live, or queued an offer for. -/
def Offered (v : QueueView) : Prop := ∀ e, v.Touched .entries e → Open v e ∨ Offers v.copy e

abbrev Anything : Reliance QueueTable.Row := fun _ _ => True

abbrev Commits : QueueView → QueueAnswer → Prop := fun v _ => Offered v

variable {v v' : QueueView} {e : Nat} {es : List Nat}

theorem Open.others (h : Open v e) (others : v.Others Anything v') : Open v' e := by
  obtain ⟨mine, live⟩ := h
  refine ⟨others.session.1 ▸ mine, fun entry hrow => live entry ?_⟩
  rwa [others.locked mine] at hrow

theorem Open.load (h : Open v e) (held : Bool) (t : QueueTable) (ids : List Nat) : Open (v.load held t ids) e :=
  ⟨.inr h.1, h.2⟩

theorem Open.flush (h : Open v e) : Open v.flush e := ⟨.inr h.1, h.2⟩

theorem open_of_sees {ids : List Nat} {entry : WaitlistEntry} (hids : e ∈ ids) (unwritten : v.written .entries e = none)
    (hrow : (v.sees .entries).row e = some entry) (live : entry.status.isLive = true) :
    Open (v.load true .entries ids) e := by
  rw [View.sees_row unwritten] at hrow
  refine ⟨.inl ⟨rfl, rfl, hids, Table.lt_next hrow⟩, fun stored hstored => ?_⟩
  rw [show (v.store .entries).row e = some stored from hstored, Option.some.injEq] at hrow
  exact hrow ▸ live

theorem touched_others (others : v.Others Anything v') {t : QueueTable} (h : v'.Touched t e) : v.Touched t e := by
  obtain ⟨-, copy, written⟩ := others.session
  unfold View.Touched at h ⊢
  rwa [copy, written] at h

namespace Ready

theorem start {store : (t : QueueTable) → Table t.Row} : Ready [] (View.start store) :=
  ⟨fun _ he => absurd he View.not_touched_start, nofun⟩

theorem others (h : Ready es v) (others : v.Others Anything v') : Ready es v' :=
  ⟨fun e he => (h.touched e (touched_others others he)).others others, fun e he => (h.waiting e he).others others⟩

theorem load (h : Ready es v) (held : Bool) (t : QueueTable) (ids : List Nat) : Ready es (v.load held t ids) :=
  ⟨fun e he => (h.touched e he.of_load).load held t ids, fun e he => (h.waiting e he).load held t ids⟩

theorem flush (h : Ready es v) : Ready es v.flush :=
  ⟨fun e he => (h.touched e he.of_flush).flush, fun e he => (h.waiting e he).flush⟩

theorem assign_entry (h : Ready (e :: es) v) (entry : WaitlistEntry) : Ready es (v.assign .entries e entry) := by
  refine ⟨fun k hk => ?_, fun k hk => h.waiting k (List.mem_cons_of_mem e hk)⟩
  rcases hk.of_assign with hk | ⟨-, rfl⟩
  · exact h.touched k hk
  · exact h.waiting k List.mem_cons_self

theorem assign_notification (h : Ready es v) (j : Nat) (job : WaitlistNotification) :
    Ready es (v.assign .notifications j job) := by
  refine ⟨fun k hk => ?_, h.waiting⟩
  rcases hk.of_assign with hk | ⟨other, -⟩
  · exact h.touched k hk
  · cases other

theorem offered (h : Ready es v) : Offered v := fun e he => .inl (h.touched e he)

end Ready

namespace Offered

theorem others (h : Offered v) (others : v.Others Anything v') : Offered v' := by
  intro e he
  refine (h e (touched_others others he)).imp (·.others others) fun offers => ?_
  rwa [others.session.2.1]

theorem load (h : Offered v) (held : Bool) (t : QueueTable) (ids : List Nat) : Offered (v.load held t ids) := by
  intro e he
  refine (h e he.of_load).imp (·.load held t ids) ?_
  rintro ⟨j, x, hx, base, entry⟩
  exact ⟨j, x, Copies.load_of_some hx, base, entry⟩

theorem flush (h : Offered v) : Offered v.flush := by
  intro e he
  refine (h e he.of_flush).imp Open.flush ?_
  rintro ⟨j, x, hx, base, entry⟩
  exact ⟨j, _, Copies.flush_eq_some.mpr ⟨x, hx, rfl⟩, base, entry⟩

theorem enqueue (h : Offered v) (fresh : v.copy .notifications (v.store .notifications).next = none) (windowId : Nat)
    (now : Int) (entry : WaitlistEntry) :
    Offered ((v.insert .notifications (WaitlistRepository.offer e windowId now)).assign .entries e entry) := by
  intro k hk
  have offers : Offers (v.insert .notifications (WaitlistRepository.offer e windowId now)).copy e := by
    refine ⟨(v.store .notifications).next, ⟨none, WaitlistRepository.offer e windowId now,
      WaitlistRepository.offer e windowId now, true⟩, ?_, rfl, rfl⟩
    exact View.copy_insert.trans (if_pos rfl)
  rcases hk.of_assign with hk | ⟨-, rfl⟩
  · rcases hk.of_insert with hk | ⟨other, -⟩
    · rcases h k hk with opened | ⟨j, x, hx, base, entry⟩
      · refine .inl ⟨.inr opened.1, fun stored hrow => opened.2 stored ?_⟩
        exact (View.row_insert (WaitlistRepository.offer e windowId now)).symm.trans hrow
      · refine .inr ⟨j, x, ?_, base, entry⟩
        have other : j ≠ (v.store .notifications).next := by
          rintro rfl
          rw [fresh] at hx
          cases hx
        exact View.copy_insert.trans ((if_neg other).trans hx)
    · cases other
  · exact .inr offers

end Offered

/-! ### The programs -/

variable {next : QueueTx}

theorem safe_cancelUnsent {entryId : Nat} (hnext : ∀ v, Ready es v → next.Safe Anything Commits v) (hv : Ready es v) :
    (WaitlistRepository.cancelUnsent entryId next).Safe Anything Commits v := by
  intro v' others
  refine Tx.safe_assignAll (fun u r _ hu => hu.assign_notification r.1 r.2) ((hv.others others).load _ _ _) ?_
  exact fun u hu u' others => hnext _ (hu.others others).flush

theorem safe_markBooked {appointmentId : Nat} (hnext : ∀ v, Ready [] v → next.Safe Anything Commits v)
    (rows : List (Nat × WaitlistEntry)) (hv : Ready (rows.map Prod.fst) v) :
    (WaitlistRepository.markBooked appointmentId rows next).Safe Anything Commits v := by
  induction rows generalizing v with
  | nil => exact hnext v hv
  | cons r rows ih => exact safe_cancelUnsent (fun u hu => ih hu) (hv.assign_entry _)

theorem safe_enqueueEntries {windowId : Nat} {now : Int} {next : Nat → QueueTx}
    (hnext : ∀ v n, Offered v → (next n).Safe Anything Commits v) (entries : List (Nat × WaitlistEntry)) (queued : Nat)
    (hv : Offered v) :
    (WaitlistMatching.enqueueEntries windowId now entries queued next).Safe Anything Commits v := by
  induction entries generalizing v queued with
  | nil => exact hnext v queued hv
  | cons r entries ih =>
    intro v' others
    have loaded := (hv.others others).load false QueueTable.notifications
    dsimp only
    split
    · intro u others fresh
      exact ih (queued + 1) (((loaded _).others others).enqueue fresh _ _ _)
    · exact ih queued (loaded _)

theorem safe_enqueueServices {ctx : MatchContext} {now : Int} {next : Nat → QueueTx}
    (hnext : ∀ v n, Offered v → (next n).Safe Anything Commits v) (services : List MatchService) (queued : Nat)
    (hv : Offered v) :
    (WaitlistMatching.enqueueServices ctx now services queued next).Safe Anything Commits v := by
  induction services generalizing v queued with
  | nil => exact hnext v queued hv
  | cons s services ih =>
    unfold WaitlistMatching.enqueueServices
    split
    · exact ih queued hv
    · split
      · intro v' others
        exact safe_enqueueEntries (fun u n hu => ih n hu) _ queued ((hv.others others).load _ _ _)
      · exact ih queued hv

theorem safe_enqueueWaitlistMatches {ctx : MatchContext} {now : Int} {next : Nat → QueueTx}
    (hnext : ∀ v n, Offered v → (next n).Safe Anything Commits v) (hv : Offered v) :
    (WaitlistMatching.enqueueWaitlistMatches ctx now next).Safe Anything Commits v := by
  unfold WaitlistMatching.enqueueWaitlistMatches
  split
  · refine safe_enqueueServices (fun u n hu => ?_) ctx.services 0 hv
    split
    · exact hnext u 0 hu
    · exact fun u' others => hnext _ n (hu.others others).flush
  · exact hnext v 0 hv

theorem safe (op : WaitlistEntryOp) (store : (t : QueueTable) → Table t.Row) :
    op.tx.Safe Anything Commits (View.start store) := by
  cases op with
  | create entry =>
    intro v others _ u others'
    refine (@Ready.offered _ []) (Ready.others ⟨fun e he => ?_, nofun⟩ others')
    rcases he.of_insert with he | ⟨-, rfl⟩
    · exact absurd (touched_others others he) View.not_touched_start
    · refine ⟨.inl ⟨rfl, rfl⟩, fun stored hrow => ?_⟩
      rw [View.row_insert, (v.store .entries).bounded _ le_rfl] at hrow
      cases hrow
  | matchWindow ctx now =>
    exact safe_enqueueWaitlistMatches (fun u n hu u' others => hu.others others) Ready.start.offered
  | offerWindow entryId window now =>
    unfold tx WaitlistService.offerWindow
    refine Tx.safe_getForUpdate_new rfl rfl (fun _ _ _ => ?_) fun u entry others _ _ => ?_
    · trivial
    · have start : Offered (u.load true .entries [entryId]) := (Ready.start.offered.others others).load _ _ _
      dsimp only
      split
      · split
        · trivial
        · split
          · exact safe_enqueueWaitlistMatches (fun u n hu u' others => hu.others others) start
          · trivial
      · trivial
  | archive entryId =>
    unfold tx WaitlistService.archive
    refine Tx.safe_getForUpdate_new rfl rfl (fun _ _ _ => ?_) fun u entry others hrow _ => ?_
    · trivial
    · dsimp only
      split
      · next live =>
        have start : Ready [] (u.load true .entries [entryId]) := (Ready.start.others others).load _ _ _
        have opened : Open (u.load true .entries [entryId]) entryId := by
          refine open_of_sees (List.mem_singleton_self _) (others.session.2.2 ▸ rfl) ?_ live
          rwa [View.sees_row (others.session.2.2 ▸ rfl)]
        have ends : ∀ w, Ready [] w → Tx.Safe Anything Commits w (.commit .done : QueueTx) :=
          fun w hw w' others => (hw.others others).offered
        refine safe_cancelUnsent ends ?_
        exact Ready.assign_entry ⟨start.touched, fun k hk => List.mem_singleton.mp hk ▸ opened⟩ _
      · trivial
  | markBooked clientId serviceId windowId appointmentId matched =>
    intro u others u' others'
    have ends : ∀ w, Ready [] w → Tx.Safe Anything Commits w (.flush (.commit .done) : QueueTx) :=
      fun w hw w' others w'' others' => ((hw.others others).flush.others others').offered
    have found : ∀ ids, (∀ e ∈ ids, ∃ entry, (u.sees .entries).row e = some entry ∧ entry.status.isLive = true) →
        Ready (((u.load true .entries ids).copy.rows .entries ids).map Prod.fst) (u.load true .entries ids) := by
      intro ids hids
      refine ⟨((Ready.start.others others).load _ _ _).touched, fun e he => ?_⟩
      obtain ⟨r, hmem, rfl⟩ := List.mem_map.mp he
      have hi := (Copies.mem_rows.mp hmem).1
      obtain ⟨entry, hrow, live⟩ := hids r.1 hi
      exact open_of_sees hi (others.session.2.2 ▸ rfl) hrow live
    refine safe_markBooked ends _ (((found _ fun e he => ?_).others others').load _ _ _)
    obtain ⟨⟨e', entry⟩, hmem, rfl⟩ := List.mem_map.mp (List.mem_filter.mp he).1
    obtain ⟨hrow, accepted⟩ := Table.mem_select.mp hmem
    exact ⟨entry, hrow, (Bool.and_eq_true_iff.mp accepted).2⟩

/-! ### Offers keep their entry -/

/-- A notification stays with its entry. -/
def sameEntry : (t : QueueTable) → t.Row → t.Row → Prop
  | .notifications, a, b => a.waitlistEntryId = b.waitlistEntryId
  | _, _, _ => True

theorem steering_sameEntry : Steering sameEntry where
  refl t a := by cases t <;> trivial
  trans t a b c hab hbc := by
    cases t with
    | notifications => exact hab.trans hbc
    | _ => trivial
  write t l a s h := by
    cases t with
    | notifications =>
      show s.waitlistEntryId = flushed l.waitlistEntryId a.waitlistEntryId s.waitlistEntryId
      rw [show l.waitlistEntryId = a.waitlistEntryId from h]
      exact (if_pos rfl).symm
    | _ => trivial

theorem steers_cancelled (hnext : ∀ c, next.Steers sameEntry c) (start : Copies QueueTable.Row) (ids : List Nat) :
    (Tx.assignAll .notifications ((start.rows .notifications ids).map fun r => (r.1, WaitlistRepository.cancelled r.2))
      (.flush next)).Steers sameEntry start := by
  refine Tx.steers_assignAll (P := fun d => ∀ j x, d .notifications j = some x →
    ∃ y, start .notifications j = some y ∧ x.now.waitlistEntryId = y.now.waitlistEntryId) (fun j x hx => ⟨x, hx, rfl⟩) ?_
    fun d _ => hnext d.flush
  intro d r hr hd
  obtain ⟨s, hs, rfl⟩ := List.mem_map.mp hr
  obtain ⟨-, y, hy, hrow⟩ := Copies.mem_rows.mp hs
  refine ⟨fun x hx => ?_, fun j x hx => ?_⟩
  · obtain ⟨y', hy', same⟩ := hd s.1 x hx
    rw [hy, Option.some.injEq] at hy'
    show x.now.waitlistEntryId = s.2.waitlistEntryId
    rw [same, hrow, hy']
  · rw [Copies.assign_self] at hx
    by_cases hj : j = s.1
    · subst hj
      rw [if_pos rfl, Option.map_eq_some_iff] at hx
      obtain ⟨z, -, rfl⟩ := hx
      refine ⟨y, hy, ?_⟩
      show s.2.waitlistEntryId = y.now.waitlistEntryId
      rw [hrow]
    · rw [if_neg hj] at hx
      exact hd j x hx

theorem steers_cancelUnsent {entryId : Nat} (hnext : ∀ c, next.Steers sameEntry c) (c : Copies QueueTable.Row) :
    (WaitlistRepository.cancelUnsent entryId next).Steers sameEntry c :=
  fun _ _ => steers_cancelled hnext _ _

theorem steers_enqueueEntries {windowId : Nat} {now : Int} {next : Nat → QueueTx}
    (hnext : ∀ c n, (next n).Steers sameEntry c) (entries : List (Nat × WaitlistEntry)) :
    ∀ queued c, (WaitlistMatching.enqueueEntries windowId now entries queued next).Steers sameEntry c := by
  induction entries with
  | nil => exact fun queued c => hnext c queued
  | cons r entries ih =>
    intro queued c tbl _
    dsimp only
    split
    · exact fun j _ => ⟨fun _ _ => trivial, ih _ _⟩
    · exact ih queued _

theorem steers_enqueueServices {ctx : MatchContext} {now : Int} {next : Nat → QueueTx}
    (hnext : ∀ c n, (next n).Steers sameEntry c) (services : List MatchService) :
    ∀ queued c, (WaitlistMatching.enqueueServices ctx now services queued next).Steers sameEntry c := by
  induction services with
  | nil => exact fun queued c => hnext c queued
  | cons s services ih =>
    intro queued c
    unfold WaitlistMatching.enqueueServices
    split
    · exact ih queued c
    · split
      · exact fun tbl _ => steers_enqueueEntries (fun c n => ih n c) _ queued _
      · exact ih queued c

theorem steers_enqueueWaitlistMatches {ctx : MatchContext} {now : Int} {next : Nat → QueueTx}
    (hnext : ∀ c n, (next n).Steers sameEntry c) (c : Copies QueueTable.Row) :
    (WaitlistMatching.enqueueWaitlistMatches ctx now next).Steers sameEntry c := by
  unfold WaitlistMatching.enqueueWaitlistMatches
  split
  · refine steers_enqueueServices (fun c n => ?_) ctx.services 0 c
    split
    · exact hnext c 0
    · exact hnext _ n
  · exact hnext c 0

theorem steers_markBooked {appointmentId : Nat} (hnext : ∀ c, next.Steers sameEntry c) (rows : List (Nat × WaitlistEntry)) :
    ∀ c, (WaitlistRepository.markBooked appointmentId rows next).Steers sameEntry c := by
  induction rows with
  | nil => exact hnext
  | cons r rows ih => exact fun c => ⟨fun _ _ => trivial, steers_cancelUnsent ih _⟩

theorem steers_commit (answer : QueueAnswer) (c : Copies QueueTable.Row) :
    (.commit answer : QueueTx).Steers sameEntry c := trivial

theorem steers (op : WaitlistEntryOp) : op.tx.Steers sameEntry fun _ _ => none := by
  cases op with
  | create entry => exact fun _ _ => trivial
  | matchWindow ctx now => exact steers_enqueueWaitlistMatches (fun c _ => steers_commit _ c) _
  | offerWindow entryId window now =>
    intro tbl _
    dsimp only
    split
    · trivial
    · split
      · split
        · trivial
        · split
          · exact steers_enqueueWaitlistMatches (fun c _ => steers_commit _ c) _
          · trivial
      · trivial
  | archive entryId =>
    intro tbl _
    dsimp only
    split
    · trivial
    · split
      · exact ⟨fun _ _ => trivial, steers_cancelUnsent (steers_commit _) _⟩
      · trivial
  | markBooked clientId serviceId windowId appointmentId matched =>
    have ends : ∀ c, (.flush (.commit .done) : QueueTx).Steers sameEntry c := fun _ => trivial
    exact fun _ _ _ _ => steers_markBooked ends _ _

/-! ### Runs -/

def step (w : QueueWorld WaitlistEntryOp) (turn : Turn WaitlistEntryOp) : QueueWorld WaitlistEntryOp := w.step tx turn

/-- The waitlist after any interleaving, from any stored rows. -/
def after (store : (t : QueueTable) → Table t.Row) (turns : List (Turn WaitlistEntryOp)) : QueueWorld WaitlistEntryOp :=
  run step (World.start store) turns

/-- The transaction has queued an offer for an entry that is closed by now. -/
def Overtaken (w : QueueWorld WaitlistEntryOp) (c : Conn QueueTable.Row Empty QueueAnswer WaitlistEntryOp) (entryId : Nat) :
    Prop :=
  (((w.store .entries).row entryId).any fun entry => !entry.status.isLive) = true ∧
    ∃ j < (w.store .notifications).next,
      ((c.copy .notifications j).any fun x => x.base.isNone && x.now.waitlistEntryId = entryId) = true

instance (w : QueueWorld WaitlistEntryOp) (c : Conn QueueTable.Row Empty QueueAnswer WaitlistEntryOp) (entryId : Nat) :
    Decidable (Overtaken w c entryId) := inferInstanceAs (Decidable (_ ∧ _))

/-- No transaction commits an offer for an entry that was closed after it was listed. -/
def InTime (w : QueueWorld WaitlistEntryOp) : Turn WaitlistEntryOp → Prop
  | .next tid => ∀ c ∈ w.conn tid, c.rest.commits = true → w.CanFlush tid c →
      ∀ entryId < (w.store .entries).next, ¬ Overtaken w c entryId
  | _ => True

/-- Entries that are closed in `w` keep their status up to `w'`, and get no offers. -/
structure KeepsClosed (w w' : QueueWorld WaitlistEntryOp) : Prop where
  status : ∀ e entry, (w.store .entries).row e = some entry → entry.status.isLive = false →
    ∃ entry', (w'.store .entries).row e = some entry' ∧ entry'.status = entry.status
  offers : ∀ e entry, (w.store .entries).row e = some entry → entry.status.isLive = false →
    ∀ j job, (w'.store .notifications).row j = some job → job.waitlistEntryId = e →
      ∃ job', (w.store .notifications).row j = some job' ∧ job'.waitlistEntryId = e

theorem KeepsClosed.refl (w : QueueWorld WaitlistEntryOp) : KeepsClosed w w :=
  ⟨fun _ entry hrow _ => ⟨entry, hrow, rfl⟩, fun _ _ _ _ _ job hjob he => ⟨job, hjob, he⟩⟩

theorem KeepsClosed.trans {a b c : QueueWorld WaitlistEntryOp} (hab : KeepsClosed a b) (hbc : KeepsClosed b c) :
    KeepsClosed a c := by
  constructor
  · intro e entry hrow closed
    obtain ⟨entry', hrow', same⟩ := hab.status e entry hrow closed
    obtain ⟨entry'', hrow'', same'⟩ := hbc.status e entry' hrow' (same ▸ closed)
    exact ⟨entry'', hrow'', same'.trans same⟩
  · intro e entry hrow closed j job hjob he
    obtain ⟨entry', hrow', same⟩ := hab.status e entry hrow closed
    obtain ⟨job', hjob', he'⟩ := hbc.offers e entry' hrow' (same ▸ closed) j job hjob he
    exact hab.offers e entry hrow closed j job' hjob' he'

structure Kept (w : QueueWorld WaitlistEntryOp) : Prop where
  sound : w.Sound False
  knows : w.Knows (fun _ => Anything) (fun _ => Commits)
  steered : w.Steered sameEntry

variable {w : QueueWorld WaitlistEntryOp} {turn : Turn WaitlistEntryOp}

theorem Kept.step (h : Kept w) : Kept (step w turn) where
  sound := h.sound.step nofun
  knows := h.knows.step (fun op => safe op _) h.sound fun _ _ _ _ _ _ _ _ _ _ => trivial
  steered := h.steered.step steering_sameEntry steers h.sound

theorem kept_after (store : (t : QueueTable) → Table t.Row) (turns : List (Turn WaitlistEntryOp)) :
    Kept (after store turns) :=
  run_invariant (fun _ _ h => h.step) ⟨World.sound_start _, World.knows_start _, World.steered_start _⟩ turns

theorem overtaken_of {c : Conn QueueTable.Row Empty QueueAnswer WaitlistEntryOp} {tid e : Nat} {entry : WaitlistEntry}
    (hs : c.Sound False w tid) (hrow : (w.store .entries).row e = some entry) (closed : entry.status.isLive = false)
    (offers : Offers c.copy e) : Overtaken w c e := by
  obtain ⟨j, x, hx, base, he⟩ := offers
  refine ⟨?_, j, hs.bounded .notifications j x hx, ?_⟩
  · simp [hrow, closed]
  · simp [hx, base, he]

theorem Kept.keepsClosed (h : Kept w) (inTime : InTime w turn) : KeepsClosed w (WaitlistEntryOp.step w turn) := by
  rcases World.store_step (w := w) tx turn with rows | ⟨tid, c, b, rfl, hc, rest, can, step⟩
  · constructor
    · exact fun e entry hrow _ => ⟨entry, (rows _ _).trans hrow, rfl⟩
    · exact fun _ _ _ _ j job hjob he => ⟨job, (rows _ _).symm.trans hjob, he⟩
  · have hs := h.sound tid c hc
    have unoffered : ∀ e entry, (w.store .entries).row e = some entry → entry.status.isLive = false → ¬ Offers c.copy e :=
      fun e entry hrow closed offers =>
        inTime c hc (by rw [rest]; rfl) can e (Table.lt_next hrow) (overtaken_of hs hrow closed offers)
    have store : ∀ t, (WaitlistEntryOp.step w (.next tid)).store t = w.committed c t := by
      intro t
      unfold WaitlistEntryOp.step
      rw [step]
      rfl
    constructor
    · intro e entry hrow closed
      have untouched : ¬ (w.viewOf tid c).Touched .entries e := by
        intro touched
        rcases h.knows.commit hc rest e touched with opened | offers
        · rw [opened.2 entry hrow] at closed
          cases closed
        · exact unoffered e entry hrow closed offers
      refine ⟨entry, ?_, rfl⟩
      rw [store, World.committed_row_of_none (View.flushed_of_untouched untouched), hrow]
    · intro e entry hrow closed j job hjob he
      rw [store] at hjob
      cases hold : (w.store .notifications).row j with
      | none =>
        obtain ⟨x, hx, base, rfl⟩ := World.committed_new (h.steered tid c hc) hs hold hjob
        exact absurd ⟨j, x, hx, base, he⟩ (unoffered e entry hrow closed)
      | some old =>
        obtain ⟨new, hnew, same⟩ := World.committed_steered steering_sameEntry (h.steered tid c hc) hs hold
        rw [hjob, Option.some.injEq] at hnew
        subst hnew
        exact ⟨old, rfl, Eq.trans same he⟩

theorem Kept.inTime (h : Kept w) (keeps : KeepsClosed w (WaitlistEntryOp.step w turn)) : InTime w turn := by
  cases turn with
  | begin tid op => trivial
  | abort tid => trivial
  | next tid =>
    rintro c hc commits can e - ⟨closed, j, -, offers⟩
    obtain ⟨entry, hrow, closed⟩ := (Option.any_eq_true ..).mp closed
    obtain ⟨x, hx, offers⟩ := (Option.any_eq_true ..).mp offers
    obtain ⟨base, he⟩ := Bool.and_eq_true_iff.mp offers
    have hs := h.sound tid c hc
    have held := (h.steered tid c hc).copies.fresh .notifications j x hx (Option.isNone_iff_eq_none.mp base)
    have current := hs.current .notifications j x hx (.inl held)
    have new : (w.store .notifications).row j = none := current.1.symm.trans (Option.isNone_iff_eq_none.mp base)
    have stored : ((WaitlistEntryOp.step w (.next tid)).store .notifications).row j = some x.now := by
      cases hrest : c.rest with
      | commit b =>
        have step : w.step tx (.next tid) = { w with store := w.committed c }.close tid c (some b) := by
          simp only [World.step, (show w.conn tid = some c from hc), World.exec, hrest, if_pos can]
        unfold WaitlistEntryOp.step
        rw [step]
        exact (World.committed_row hs).2 x hx current
      | _ =>
        rw [hrest] at commits
        cases commits
    obtain ⟨old, hold, -⟩ := keeps.offers e entry hrow (by simpa using closed) j x.now stored (of_decide_eq_true he)
    rw [new] at hold
    cases hold

/-- Closed requests stay closed and get no further offers, in every part of a run, exactly when no transaction commits
an offer for a request that was closed after it was listed. -/
theorem closed_stays_iff (store : (t : QueueTable) → Table t.Row) (turns : List (Turn WaitlistEntryOp)) :
    Guarded step InTime (World.start store) turns ↔
      ∀ pre mid post, turns = pre ++ mid ++ post → KeepsClosed (after store pre) (after store (pre ++ mid)) := by
  constructor
  · rintro h pre mid post rfl
    have guarded := (guarded_append.mp (guarded_append.mp h).1).2
    unfold after
    rw [run_append]
    exact run_relation KeepsClosed.refl (fun _ _ _ => KeepsClosed.trans)
      (fun _ _ kept inTime => ⟨kept.step, kept.keepsClosed inTime⟩) (kept_after store pre) mid guarded
  · intro h
    refine guarded_iff_forall.mpr fun pre turn post e => (kept_after store pre).inTime ?_
    have keeps := h pre [turn] post (by rw [e, List.append_assoc]; rfl)
    unfold after at keeps
    rwa [run_append] at keeps

/-- One request for service 1 on day 10, of client 7. -/
def oneRequest : (t : QueueTable) → Table t.Row
  | .entries => Table.empty.insert
      { clientId := 7, serviceId := 1, dateFrom := 10, dateTo := 10, expiresAt := days 11, createdAt := 0 }
  | .notifications | .jobs => Table.empty
  | .settings => Table.empty

/-- A window on day 10 at noon whose master offers service 1. -/
def noonWindow : MatchContext where
  windowId := 9
  status := .open
  startAt := days 10 + minutes 720
  endAt := days 10 + minutes 780
  timezone := .fixed 0
  cooldownMinutes := 60
  services := [⟨1, hour, true, hour, fun _ => false⟩]
where
  hour : Service := ⟨true, true, none, 100, 60, 60, none⟩

/-- The matching lists the request, the client cancels it, and the matching goes on. -/
def cancelledWhileMatched : List (Turn WaitlistEntryOp) :=
  [.begin 0 (.matchWindow noonWindow 0), .next 0, .begin 1 (.archive 1), .next 1, .next 1, .next 1, .next 1]

def matchedAfterwards : List (Turn WaitlistEntryOp) := [.next 0, .next 0, .next 0, .next 0]

/-- A CANCELLED request becomes MATCHED, and its offer is queued. -/
theorem cancelled_request_is_matched :
    (((after oneRequest cancelledWhileMatched).store .entries).row 1).map (·.status) = some .cancelled ∧
    (((after oneRequest (cancelledWhileMatched ++ matchedAfterwards)).store .entries).row 1).map (·.status) =
      some .matched ∧
    (((after oneRequest (cancelledWhileMatched ++ matchedAfterwards)).store .notifications).toList.map
      fun r => (r.2.waitlistEntryId, r.2.windowId, r.2.status)) = [(1, 9, .pending)] := by
  decide +kernel

end WaitlistEntryOp

end SalonBooking
