import SalonBooking.Lib.Alone
import SalonBooking.Waitlist.Closed
import SalonBooking.Waitlist.Freed

/-!
# What an offered window is answered with

`offer_window` runs the matching of the window, which queues an offer for every request that it accepts and that has
none for this window, and answers whether any was queued. This is an answer about the request it was called for only
where that request is queued whenever another one is. No pair of a request and a window ever gets a second offer.
-/

namespace SalonBooking

open Lib

namespace WaitlistMatching

variable {queue : (t : QueueTable) → Table t.Row} {v v' : View QueueTable.Row} {windowId n n' : Nat} {now : Int}
  {E F : Nat → Prop} {jobs : Table WaitlistNotification}

def OnePerPair (jobs : Table WaitlistNotification) : Prop :=
  ∀ i j a b, jobs.row i = some a → jobs.row j = some b → a.waitlistEntryId = b.waitlistEntryId → a.windowId = b.windowId → i = j

/-- From one view to the next the entries of `E` have been offered the window; `n` counts the offers that are new. -/
structure Offered (queue : (t : QueueTable) → Table t.Row) (windowId : Nat) (E : Nat → Prop) (v : View QueueTable.Row)
    (n : Nat) (v' : View QueueTable.Row) (n' : Nat) : Prop where
  matching : Matching queue v'
  pairs : ∀ e k, Paired (v'.sees .notifications) e k ↔ Paired (v.sees .notifications) e k ∨ k = windowId ∧ E e
  counts : n ≤ n'
  new : n < n' ↔ ∃ e, E e ∧ ¬ Paired (v.sees .notifications) e windowId
  single : OnePerPair (v.sees .notifications) → OnePerPair (v'.sees .notifications)

theorem Offered.none (h : Matching queue v) (never : ∀ e, ¬ E e) : Offered queue windowId E v n v n :=
  ⟨h, fun e k => by simp [never e], le_rfl, by simp [never], id⟩

theorem Offered.trans {m : Nat} {w : View QueueTable.Row} (h : Offered queue windowId E v n w m)
    (h' : Offered queue windowId F w m v' n') : Offered queue windowId (fun e => E e ∨ F e) v n v' n' := by
  refine ⟨h'.matching, fun e k => ?_, h.counts.trans h'.counts, ?_, h'.single ∘ h.single⟩
  · rw [h'.pairs, h.pairs]
    tauto
  · have split : n < n' ↔ n < m ∨ m < n' := by
      have := h.counts
      have := h'.counts
      omega
    rw [split, h.new, h'.new]
    constructor
    · rintro (⟨e, he, free⟩ | ⟨e, he, free⟩)
      · exact ⟨e, .inl he, free⟩
      · exact ⟨e, .inr he, fun pair => free ((h.pairs e windowId).mpr (.inl pair))⟩
    · rintro ⟨e, he, free⟩
      by_cases first : E e
      · exact .inl ⟨e, first, free⟩
      · refine .inr ⟨e, he.resolve_left first, fun pair => ?_⟩
        rcases (h.pairs e windowId).mp pair with pair | ⟨-, hE⟩
        · exact free pair
        · exact first hE

theorem Offered.congr (h : Offered queue windowId E v n v' n') (same : ∀ e, E e ↔ F e) :
    Offered queue windowId F v n v' n' := by
  have : E = F := funext fun e => propext (same e)
  exact this ▸ h

theorem enqueueMatch_offered (h : Matching queue v) (e : Nat) (next : Bool → QueueTx) :
    ∃ v' inserted, (WaitlistRepository.enqueueMatch e windowId now next).alone v = (next inserted).alone v' ∧
      Offered queue windowId (· = e) v n v' (if inserted then n + 1 else n) := by
  simp only [WaitlistRepository.enqueueMatch, Tx.alone]
  generalize hids : ((v.sees .notifications).select fun job =>
    job.waitlistEntryId = e && job.windowId = windowId).map Prod.fst = ids
  have listed : ∀ j job, (v.sees .notifications).row j = some job → job.waitlistEntryId = e → job.windowId = windowId →
      j ∈ ids := by
    intro j job row he hw
    rw [← hids]
    refine List.mem_map.mpr ⟨(j, job), Table.mem_select.mpr ⟨row, ?_⟩, rfl⟩
    simp only [he, hw, decide_true, Bool.and_self]
  have loaded := (h.load false .notifications ids).matching
  by_cases empty : ((v.load false .notifications ids).copy.rows .notifications ids).isEmpty = true
  · have free : ¬ Paired (v.sees .notifications) e windowId := by
      rintro ⟨j, job, row, he, hw⟩
      obtain ⟨x, hx⟩ := View.known_load false (listed j job row he hw) row
      have member : (j, x.now) ∈ (v.load false .notifications ids).copy.rows .notifications ids :=
        Copies.mem_rows.mpr ⟨listed j job row he hw, x, hx, rfl⟩
      rw [List.isEmpty_iff.mp empty] at member
      exact absurd member List.not_mem_nil
    obtain ⟨goes, pair⟩ := loaded.insert (WaitlistRepository.offer e windowId now)
    generalize hq : (v.load false .notifications ids).insert .notifications (WaitlistRepository.offer e windowId now) = v'
      at goes pair
    have rows : ∀ j, (v'.sees .notifications).row j = if j = (v.store .notifications).next then
        some (WaitlistRepository.offer e windowId now) else (v.sees .notifications).row j := by
      intro j
      rw [← hq, View.sees_insert]
      rfl
    refine ⟨v', true, by rw [if_pos empty, Tx.alone, hq], goes.matching, fun e' k => ?_, by simp, by simp [free], ?_⟩
    · constructor
      · rintro ⟨j, job, row, he, hk⟩
        rw [rows] at row
        split at row
        · obtain rfl := Option.some.inj row
          exact .inr ⟨hk.symm, he.symm⟩
        · exact .inl ⟨j, job, row, he, hk⟩
      · rintro (before | ⟨rfl, rfl⟩)
        · exact goes.keeps e' k before
        · exact pair
    · intro single i j a b hi hj entry window
      rw [rows] at hi hj
      split at hi <;> split at hj
      · omega
      · obtain rfl := Option.some.inj hi
        exact absurd ⟨j, b, hj, entry.symm, window.symm⟩ free
      · obtain rfl := Option.some.inj hj
        exact absurd ⟨i, a, hi, entry, window⟩ free
      · exact single i j a b hi hj entry window
  · obtain ⟨r, hr⟩ := List.exists_mem_of_ne_nil _ fun nil => empty (List.isEmpty_iff.mpr nil)
    have hi := (Copies.mem_rows.mp hr).1
    rw [← hids] at hi
    obtain ⟨s, hmem, -⟩ := List.mem_map.mp hi
    obtain ⟨hrow, pair⟩ := Table.mem_select.mp hmem
    obtain ⟨he, hw⟩ := Bool.and_eq_true_iff.mp pair
    have paired : Paired (v.sees .notifications) e windowId := ⟨s.1, s.2, hrow, of_decide_eq_true he, of_decide_eq_true hw⟩
    refine ⟨_, false, by rw [if_neg empty], loaded, fun e' k => ?_, by simp, ?_, id⟩
    · show Paired (v.sees .notifications) e' k ↔ _
      constructor
      · exact .inl
      · rintro (h | ⟨rfl, rfl⟩)
        · exact h
        · exact paired
    · simp [paired]

theorem enqueueEntries_offered (next : Nat → QueueTx) (entries : List (Nat × WaitlistEntry)) :
    ∀ v n, Matching queue v → ∃ v' n', (enqueueEntries windowId now entries n next).alone v = (next n').alone v' ∧
      Offered queue windowId (fun e => ∃ r ∈ entries, r.1 = e) v n v' n' := by
  induction entries with
  | nil => exact fun v n h => ⟨v, n, rfl, .none h (by simp)⟩
  | cons r entries ih =>
    intro v n h
    obtain ⟨v₁, inserted, run, first⟩ := @enqueueMatch_offered queue v windowId n now h r.1 fun inserted =>
      if inserted then .assign .entries r.1 (matched now r.2) (enqueueEntries windowId now entries (n + 1) next)
      else enqueueEntries windowId now entries n next
    -- The status of an entry is written to its object only.
    have step : ∃ v₂, Offered queue windowId (· = r.1) v n v₂ (if inserted then n + 1 else n) ∧
        (enqueueEntries windowId now (r :: entries) n next).alone v =
          (enqueueEntries windowId now entries (if inserted then n + 1 else n) next).alone v₂ := by
      cases inserted with
      | true =>
        have goes := first.matching.assign r.1 (matched now r.2)
        exact ⟨_, ⟨goes.matching, first.pairs, first.counts, first.new, first.single⟩, run⟩
      | false => exact ⟨v₁, first, run⟩
    obtain ⟨v₂, first, step⟩ := step
    obtain ⟨v₃, n', rest, others⟩ := ih v₂ _ first.matching
    refine ⟨v₃, n', step.trans rest, (first.trans others).congr fun e => ?_⟩
    simp only [List.mem_cons, exists_eq_or_imp, eq_comm (a := e)]

/-- The entry is accepted for the window by one of the services. -/
def AcceptedBy (ctx : MatchContext) (now : Int) (queue : (t : QueueTable) → Table t.Row) (services : List MatchService)
    (e : Nat) : Prop :=
  ∃ s ∈ services, ∃ entry, (queue .entries).row e = some entry ∧ Accepts ctx now s entry

theorem mem_listed {ctx : MatchContext} {s : MatchService} (h : Matching queue v) {ids : List Nat}
    (hids : WaitlistRepository.listMatching (ctx.query now s.serviceId) s.joined s.isBlocked (v.sees .entries) = ids) {e : Nat} :
    (∃ r ∈ (v.load false .entries ids).copy.rows .entries ids, r.1 = e) ↔
      ∃ entry, (queue .entries).row e = some entry ∧
        WaitlistRepository.isMatching (ctx.query now s.serviceId) s.joined s.isBlocked entry = true := by
  have sees : ∀ e, (v.sees .entries).row e = (queue .entries).row e := fun e => by
    rw [View.sees_row (congrFun h.unwritten e), h.entries]
  have listed : e ∈ ids ↔ ∃ entry, (queue .entries).row e = some entry ∧
      WaitlistRepository.isMatching (ctx.query now s.serviceId) s.joined s.isBlocked entry = true := by
    rw [← hids]
    constructor
    · intro he
      obtain ⟨⟨i, entry⟩, hr, rfl⟩ := List.mem_map.mp he
      obtain ⟨row, accepted⟩ := Table.mem_select.mp ((List.mem_insertionSort _).mp hr)
      exact ⟨entry, (sees i).symm.trans row, accepted⟩
    · rintro ⟨entry, row, accepted⟩
      exact List.mem_map.mpr ⟨(e, entry), (List.mem_insertionSort _).mpr
        (Table.mem_select.mpr ⟨(sees e).trans row, accepted⟩), rfl⟩
  constructor
  · rintro ⟨r, hr, rfl⟩
    exact listed.mp (Copies.mem_rows.mp hr).1
  · rintro ⟨entry, row, accepted⟩
    have he := listed.mpr ⟨entry, row, accepted⟩
    obtain ⟨x, hx⟩ := View.known_load false he ((sees e).trans row)
    exact ⟨(e, x.now), Copies.mem_rows.mpr ⟨he, x, hx, rfl⟩, rfl⟩

theorem enqueueServices_offered (ctx : MatchContext) (next : Nat → QueueTx) (services : List MatchService) :
    ∀ v n, Matching queue v → ∃ v' n', (enqueueServices ctx now services n next).alone v = (next n').alone v' ∧
      Offered queue ctx.windowId (AcceptedBy ctx now queue services) v n v' n' := by
  induction services with
  | nil => exact fun v n h => ⟨v, n, rfl, .none h fun e => by simp [AcceptedBy]⟩
  | cons s services ih =>
    intro v n h
    have step : ∃ v₁ m, (enqueueServices ctx now (s :: services) n next).alone v =
        (enqueueServices ctx now services m next).alone v₁ ∧
          Offered queue ctx.windowId (fun e => ∃ entry, (queue .entries).row e = some entry ∧ Accepts ctx now s entry) v n v₁ m := by
      rw [enqueueServices]
      by_cases long : ctx.duration < s.service.durationMaxMinutes
      · refine ⟨v, n, by rw [if_pos long], .none h ?_⟩
        rintro e ⟨entry, -, accepts⟩
        exact absurd accepts.1 (not_le.mpr long)
      · rw [if_neg long]
        by_cases free : s.hasAvailable = true
        · rw [if_pos free, Tx.alone]
          generalize hids : WaitlistRepository.listMatching (ctx.query now s.serviceId) s.joined s.isBlocked
            (v.sees .entries) = ids
          have loaded := (h.load false .entries ids).matching
          obtain ⟨v₁, m, run, offered⟩ := @enqueueEntries_offered _ ctx.windowId now
            (fun m => enqueueServices ctx now services m next) ((v.load false .entries ids).copy.rows .entries ids)
            _ n loaded
          refine ⟨v₁, m, run, Offered.congr ⟨offered.matching, offered.pairs, offered.counts, offered.new, offered.single⟩
            fun e => (mem_listed h hids).trans ?_⟩
          constructor
          · rintro ⟨entry, row, accepted⟩
            exact ⟨entry, row, not_lt.mp long, free, accepted⟩
          · rintro ⟨entry, row, -, -, accepted⟩
            exact ⟨entry, row, accepted⟩
        · refine ⟨v, n, by rw [if_neg free], .none h ?_⟩
          rintro e ⟨entry, -, -, available, -⟩
          exact free available
    obtain ⟨v₁, m, run, first⟩ := step
    obtain ⟨v₂, n', run', rest⟩ := ih v₁ m first.matching
    refine ⟨v₂, n', run.trans run', (first.trans rest).congr fun e => ?_⟩
    simp only [AcceptedBy, List.mem_cons, exists_eq_or_imp]

/-- The matching of the window queues an offer for the entry unless there is one. -/
def Eligible (ctx : MatchContext) (now : Int) (queue : (t : QueueTable) → Table t.Row) (e : Nat) : Prop :=
  ctx.status = .open ∧ now < ctx.startAt ∧ AcceptedBy ctx now queue ctx.services e

theorem enqueueWaitlistMatches_offered (ctx : MatchContext) (answer : Nat → QueueAnswer) (h : Matching queue v) :
    ∃ store n, (enqueueWaitlistMatches ctx now fun n => .commit (answer n)).alone v = some (store, answer n) ∧
      (∀ e k, Paired (store .notifications) e k ↔
        Paired (v.sees .notifications) e k ∨ k = ctx.windowId ∧ Eligible ctx now queue e) ∧
      (0 < n ↔ ∃ e, Eligible ctx now queue e ∧ ¬ Paired (v.sees .notifications) e ctx.windowId) ∧
      (OnePerPair (v.sees .notifications) → OnePerPair (store .notifications)) := by
  by_cases matches_ : ctx.status = .open ∧ now < ctx.startAt
  · obtain ⟨v', n, run, offered⟩ := @enqueueServices_offered queue now ctx
      (fun n => if n = 0 then .commit (answer 0) else .flush (.commit (answer n))) ctx.services v 0 h
    obtain ⟨store, stop, jobs⟩ := commit_offers offered.matching (answer n) n
    have same : (if n = 0 then .commit (answer 0) else .flush (.commit (answer n)) : QueueTx) =
        if n = 0 then .commit (answer n) else .flush (.commit (answer n)) := by
      split_ifs with hn
      · rw [hn]
      · rfl
    refine ⟨store, n, ?_, ?_, ?_, ?_⟩
    · rw [enqueueWaitlistMatches, if_pos matches_, run, same, stop]
    · rw [jobs]
      simpa only [Eligible, matches_, true_and] using offered.pairs
    · simpa only [Eligible, matches_, true_and] using offered.new
    · rw [jobs]
      exact offered.single
  · have never : ∀ e, ¬ Eligible ctx now queue e := fun e eligible => matches_ ⟨eligible.1, eligible.2.1⟩
    refine ⟨v.committed, 0, by rw [enqueueWaitlistMatches, if_neg matches_, Tx.alone], ?_, by simp [never], ?_⟩
    · rw [committed_notifications h.clean]
      simp [never]
    · rw [committed_notifications h.clean]
      exact id

end WaitlistMatching

/-! ### Runs of offers -/

def WaitlistEntryOp.offers : WaitlistEntryOp → Bool
  | matchWindow .. | offerWindow .. => true
  | _ => false

/-- The waitlist after a call with nobody else there; a call that raises leaves it as it is. -/
def WaitlistEntryOp.leaves (queue : (t : QueueTable) → Table t.Row) (op : WaitlistEntryOp) : (t : QueueTable) → Table t.Row :=
  (op.tx.alone (View.start queue)).elim queue Prod.fst

theorem WaitlistEntryOp.leaves_of_run {queue store : (t : QueueTable) → Table t.Row} {op : WaitlistEntryOp} {answer : QueueAnswer}
    (h : op.tx.alone (View.start queue) = some (store, answer)) : op.leaves queue = store := by
  rw [leaves, h]
  rfl

theorem WaitlistEntryOp.leaves_of_raise {queue : (t : QueueTable) → Table t.Row} {op : WaitlistEntryOp}
    (h : op.tx.alone (View.start queue) = none) : op.leaves queue = queue := by
  rw [leaves, h]
  rfl

namespace WaitlistService

open WaitlistMatching

variable {queue store : (t : QueueTable) → Table t.Row} {entryId e k : Nat} {window : Option MatchContext} {ctx : MatchContext}
  {now : Int} {answer : QueueAnswer} {op : WaitlistEntryOp}

theorem matching_start : Matching queue (View.start queue) := ⟨rfl, rfl, fun j x hx => by cases hx⟩

theorem paired_start : WaitlistMatching.Paired ((View.start queue).sees .notifications) e k ↔ WaitlistMatching.Paired (queue .notifications) e k := by
  have same : ∀ j, ((View.start queue).sees .notifications).row j = (queue .notifications).row j := fun j => View.sees_row rfl
  simp only [WaitlistMatching.Paired, same]

theorem onePerPair_start : OnePerPair ((View.start queue).sees .notifications) ↔ OnePerPair (queue .notifications) := by
  have same : ∀ j, ((View.start queue).sees .notifications).row j = (queue .notifications).row j := fun j => View.sees_row rfl
  simp only [OnePerPair, same]

/-- The call comes to its matching: the entry is live and the window is there and open. -/
def Comes (entryId : Nat) (window : Option MatchContext) (queue : (t : QueueTable) → Table t.Row) (ctx : MatchContext) : Prop :=
  (∃ entry, (queue .entries).row entryId = some entry ∧ entry.status.isLive = true) ∧ window = some ctx ∧ ctx.status = .open

theorem offerWindow_alone :
    (offerWindow entryId window now).alone (View.start queue) = none ∧ (∀ ctx, ¬ Comes entryId window queue ctx) ∨
      ∃ ctx v, Comes entryId window queue ctx ∧ Matching queue v ∧ v.sees = (View.start queue).sees ∧
        (offerWindow entryId window now).alone (View.start queue) =
          (enqueueWaitlistMatches ctx now fun queued => .commit (.changed (0 < queued))).alone v := by
  have sees : ((View.start queue).sees .entries).row entryId = (queue .entries).row entryId := View.sees_row rfl
  unfold offerWindow
  cases hrow : (queue .entries).row entryId with
  | none =>
    refine .inl ⟨?_, ?_⟩
    · have ids : Table.only entryId ((View.start queue).sees .entries) = [] := by simp [Table.only, sees, hrow]
      rw [Tx.getForUpdate, Tx.alone, ids]
      rfl
    · rintro ctx ⟨⟨entry, row, -⟩, -⟩
      cases hrow.symm.trans row
  | some entry =>
    have committed : ((View.start queue).committed .entries).row entryId = some entry := by
      rw [View.committed_start, hrow]
    rw [Tx.alone_getForUpdate View.coherent_start (sees.trans hrow) committed]
    have matching := (@matching_start queue).load true .entries [entryId]
    by_cases live : entry.status.isLive = true
    · cases window with
      | none =>
        refine .inl ⟨by simp only [live, if_true, Tx.alone], ?_⟩
        rintro ctx ⟨-, hw, -⟩
        cases hw
      | some ctx =>
        by_cases isOpen : ctx.status = .open
        · refine .inr ⟨ctx, _, ⟨⟨entry, hrow, live⟩, rfl, isOpen⟩, matching.matching, rfl, ?_⟩
          simp only [live, if_true, isOpen]
        · refine .inl ⟨by simp only [live, if_true, isOpen, if_false, Tx.alone], ?_⟩
          rintro other ⟨-, hw, hopen⟩
          obtain rfl := Option.some.inj hw
          exact isOpen hopen
    · refine .inl ⟨by simp only [live, Bool.false_eq_true, if_false, Tx.alone], ?_⟩
      rintro ctx ⟨⟨other, row, hlive⟩, -⟩
      obtain rfl := Option.some.inj (hrow.symm.trans row)
      exact live hlive

/-- The call answers that an offer was queued. -/
def Succeeds (entryId : Nat) (window : Option MatchContext) (now : Int) (queue : (t : QueueTable) → Table t.Row) : Prop :=
  ∃ store, (offerWindow entryId window now).alone (View.start queue) = some (store, .changed true)

/-- The call queues an offer of the window `k` for the entry. -/
def Queues (entryId k : Nat) (window : Option MatchContext) (now : Int) (queue : (t : QueueTable) → Table t.Row) : Prop :=
  ¬ WaitlistMatching.Paired (queue .notifications) entryId k ∧
    WaitlistMatching.Paired ((WaitlistEntryOp.offerWindow entryId window now).leaves queue .notifications) entryId k

/-- A request that the matching of the window would offer it, and has not yet. -/
def Awaits (ctx : MatchContext) (now : Int) (queue : (t : QueueTable) → Table t.Row) (e : Nat) : Prop :=
  Eligible ctx now queue e ∧ ¬ WaitlistMatching.Paired (queue .notifications) e ctx.windowId

/-- A call that comes to its matching leaves an offer for every request that awaits one. -/
theorem offerWindow_leaves (comes : Comes entryId window queue ctx) :
    ∃ store n, (offerWindow entryId window now).alone (View.start queue) = some (store, .changed (0 < n)) ∧
      (∀ e k, WaitlistMatching.Paired (store .notifications) e k ↔
        WaitlistMatching.Paired (queue .notifications) e k ∨ k = ctx.windowId ∧ Eligible ctx now queue e) ∧
      (0 < n ↔ ∃ e, Awaits ctx now queue e) ∧
      (OnePerPair (queue .notifications) → OnePerPair (store .notifications)) := by
  rcases @offerWindow_alone queue entryId window now with ⟨-, never⟩ | ⟨other, v, hother, matching, sees, run⟩
  · exact absurd comes (never ctx)
  · obtain rfl := Option.some.inj (comes.2.1.symm.trans hother.2.1)
    obtain ⟨store, n, stop, pairs, new, single⟩ :=
      @enqueueWaitlistMatches_offered queue v now ctx (fun n => .changed (0 < n)) matching
    simp only [sees, paired_start, onePerPair_start] at pairs new single
    exact ⟨store, n, run.trans stop, pairs, new, single⟩

theorem offerWindow_answers (comes : Comes entryId window queue ctx) :
    (Succeeds entryId window now queue ↔ ∃ e, Awaits ctx now queue e) ∧
      (Queues entryId ctx.windowId window now queue ↔ Awaits ctx now queue entryId) := by
  obtain ⟨store, n, run, pairs, new, -⟩ := @offerWindow_leaves queue entryId window ctx now comes
  have left := @WaitlistEntryOp.leaves_of_run queue store (.offerWindow entryId window now) _ run
  constructor
  · rw [← new, Succeeds, run]
    constructor
    · rintro ⟨store', same⟩
      obtain ⟨-, positive⟩ : store = store' ∧ 0 < n := by simpa using same
      exact positive
    · intro positive
      exact ⟨store, by rw [decide_eq_true positive]⟩
  · rw [Queues, left, pairs]
    unfold Awaits
    tauto

theorem leaves_offers (h : op.offers = true) :
    (∀ e k, WaitlistMatching.Paired (queue .notifications) e k → WaitlistMatching.Paired (op.leaves queue .notifications) e k) ∧
      (OnePerPair (queue .notifications) → OnePerPair (op.leaves queue .notifications)) := by
  cases op with
  | matchWindow ctx now =>
    obtain ⟨store, n, run, pairs, -, single⟩ :=
      @enqueueWaitlistMatches_offered queue (View.start queue) now ctx (fun _ => .done) matching_start
    rw [@WaitlistEntryOp.leaves_of_run queue store (.matchWindow ctx now) _ run]
    simp only [paired_start, onePerPair_start] at pairs single
    exact ⟨fun e k before => (pairs e k).mpr (.inl before), single⟩
  | offerWindow entryId window now =>
    by_cases comes : ∃ ctx, Comes entryId window queue ctx
    · obtain ⟨ctx, comes⟩ := comes
      obtain ⟨store, n, run, pairs, -, single⟩ := @offerWindow_leaves queue entryId window ctx now comes
      rw [@WaitlistEntryOp.leaves_of_run queue store (.offerWindow entryId window now) _ run]
      exact ⟨fun e k before => (pairs e k).mpr (.inl before), single⟩
    · have raised : (WaitlistEntryOp.offerWindow entryId window now).leaves queue = queue := by
        rcases @offerWindow_alone queue entryId window now with ⟨run, -⟩ | ⟨ctx, v, hctx, -⟩
        · exact WaitlistEntryOp.leaves_of_raise run
        · exact absurd ⟨ctx, hctx⟩ comes
      rw [raised]
      exact ⟨fun _ _ => id, id⟩
  | create _ => cases h
  | archive _ => cases h
  | markBooked _ _ _ _ _ => cases h

/-- A sequence of offers and matchings, one after the other. -/
def afterOffers (queue : (t : QueueTable) → Table t.Row) (ops : List WaitlistEntryOp) : (t : QueueTable) → Table t.Row :=
  ops.foldl WaitlistEntryOp.leaves queue

theorem afterOffers_keeps {ops : List WaitlistEntryOp} (h : ∀ op ∈ ops, op.offers = true) :
    ∀ queue, (∀ e k, WaitlistMatching.Paired (queue .notifications) e k → WaitlistMatching.Paired (afterOffers queue ops .notifications) e k) ∧
      (OnePerPair (queue .notifications) → OnePerPair (afterOffers queue ops .notifications)) := by
  induction ops with
  | nil => exact fun queue => ⟨fun _ _ => id, id⟩
  | cons op ops ih =>
    intro queue
    obtain ⟨keeps, single⟩ := @leaves_offers queue op (h op List.mem_cons_self)
    obtain ⟨keeps', single'⟩ := ih (fun o ho => h o (List.mem_cons_of_mem _ ho)) (op.leaves queue)
    exact ⟨fun e k before => keeps' e k (keeps e k before), fun one => single' (single one)⟩

/-- **`offer_window` answers for its entry when that entry awaits an offer of the window whenever some entry does, and
otherwise not. No sequence of offers and matchings loses an offer or queues a second one for a pair.** -/
theorem offer_truthful_iff (entryId : Nat) (window : Option MatchContext) (now : Int) (queue : (t : QueueTable) → Table t.Row) :
    ((∀ ctx ∈ window, (Succeeds entryId window now queue ↔ Queues entryId ctx.windowId window now queue)) ↔
      ∀ ctx, Comes entryId window queue ctx → (∃ e, Awaits ctx now queue e) → Awaits ctx now queue entryId) ∧
    ∀ ops : List WaitlistEntryOp, (∀ op ∈ ops, op.offers = true) →
      (∀ e k, WaitlistMatching.Paired (queue .notifications) e k → WaitlistMatching.Paired (afterOffers queue ops .notifications) e k) ∧
      (OnePerPair (queue .notifications) → OnePerPair (afterOffers queue ops .notifications)) := by
  refine ⟨?_, fun ops h => afterOffers_keeps h queue⟩
  constructor
  · intro truthful ctx comes some_
    obtain ⟨success, queued⟩ := @offerWindow_answers queue entryId window ctx now comes
    exact queued.mp ((truthful ctx comes.2.1).mp (success.mpr some_))
  · intro own ctx hctx
    by_cases comes : Comes entryId window queue ctx
    · obtain ⟨success, queued⟩ := @offerWindow_answers queue entryId window ctx now comes
      rw [success, queued]
      exact ⟨own ctx comes, fun awaits => ⟨entryId, awaits⟩⟩
    · -- The call raises: no answer, and nothing is queued.
      rcases @offerWindow_alone queue entryId window now with ⟨run, -⟩ | ⟨other, v, hother, -⟩
      · constructor
        · rintro ⟨store, answer⟩
          cases run.symm.trans answer
        · rintro ⟨free, pair⟩
          rw [@WaitlistEntryOp.leaves_of_raise queue (.offerWindow entryId window now) run] at pair
          exact absurd pair free
      · obtain rfl := Option.some.inj (hctx.symm.trans hother.2.1)
        exact absurd hother comes

/-- Two requests for service 1 on day 10; the first has been offered the window at noon. -/
def offeredBefore : (t : QueueTable) → Table t.Row
  | .entries => (Table.empty.insert { clientId := 7, serviceId := 1, dateFrom := 10, dateTo := 10, expiresAt := days 11, createdAt := 0 }).insert
      { clientId := 8, serviceId := 1, dateFrom := 10, dateTo := 10, expiresAt := days 11, createdAt := 0 }
  | .notifications => Table.empty.insert (WaitlistRepository.offer 1 9 0)
  | .jobs => Table.empty
  | .settings => Table.empty

/-- The window is offered to the first request again: the answer is yes, and only the second one is queued. -/
theorem offer_answers_for_another :
    ((offerWindow 1 (some WaitlistEntryOp.noonWindow) 1).alone (View.start offeredBefore)).map Prod.snd = some (.changed true) ∧
    ((((WaitlistEntryOp.offerWindow 1 (some WaitlistEntryOp.noonWindow) 1).leaves offeredBefore) .notifications).toList.map
      fun r => (r.2.waitlistEntryId, r.2.windowId)) = [(1, 9), (2, 9)] ∧
    ¬ Queues 1 9 (some WaitlistEntryOp.noonWindow) 1 offeredBefore := by
  refine ⟨by decide +kernel, by decide +kernel, fun queued => queued.1 ⟨1, WaitlistRepository.offer 1 9 0, ?_, rfl, rfl⟩⟩
  decide +kernel

end WaitlistService

end SalonBooking
