import SalonBooking.Delivery.Notifications

/-!
# Leases of notification jobs

Every operation of a worker locks its job before it looks at it, and every bulk cancellation is one UPDATE, so
what an operation decides on is what is committed when it commits. `Effect` is what one commit can do to one
job; the properties of leases are read off it.
-/

namespace SalonBooking

open Lib NotificationRepository NotificationService

/-- Concurrent transactions over the queues. -/
abbrev QueueWorld (Op : Type) : Type := World QueueTable.Row Empty QueueAnswer Op

/-- The objects of a transaction that has locked one job. -/
def onlyJob (j : Nat) (job : NotificationJob) : Copies QueueTable.Row :=
  Copies.put Copies.empty QueueTable.jobs j (.ofRow true job)

theorem onlyJob_self (j : Nat) (job : NotificationJob) : onlyJob j job .jobs j = some (.ofRow true job) := Copies.put_self

namespace NotificationOp

variable (service : NotificationService)

/-- What a commit of the operation can do to job `j`. -/
def Effect : NotificationOp → Nat → NotificationJob → NotificationJob → Prop
  | claimDue worker _ now, _, old, new =>
    isDue now (now - seconds service.leaseSeconds) old = true ∧ new = claimed worker now old
  | prepareDelivery jobId worker _ _, j, old, new =>
    j = jobId ∧ Leased worker old ∧ (new.status = .cancelled ∨ new.status = .failed)
  | markSent jobId worker now, j, old, new => j = jobId ∧ Leased worker old ∧ new = sentJob old now
  | retry jobId worker _ _ _, j, old, new =>
    j = jobId ∧ Leased worker old ∧ (new.status = .pending ∨ new.status = .failed)
  | markRecipientBlocked jobId worker, j, old, new => j = jobId ∧ Leased worker old ∧ new.status = .failed
  | markPermanentFailure jobId worker _, j, old, new => j = jobId ∧ Leased worker old ∧ new.status = .failed
  | cancelUnsent appointmentId, _, old, new =>
    old.appointmentId = appointmentId ∧ old.status.isUnsent = true ∧ new = cancelled old
  | cancelUnsentByType type, _, old, new =>
    old.notificationType = type ∧ old.status.isUnsent = true ∧ new = cancelled old

/-- The objects of a transaction: loaded under their locks, and changed along `Effect`. -/
def Changes (op : NotificationOp) (copy : Copies QueueTable.Row) : Prop :=
  ∀ j x, copy .jobs j = some x →
    x.held = true ∧ ∃ old, x.base = some old ∧ (x.now = old ∨ op.Effect service j old x.now)

/-- The operation has locked its job and found it leased to its worker. -/
def Holds (op : NotificationOp) (copy : Copies QueueTable.Row) : Prop :=
  ∃ j worker x old, op.target = some j ∧ op.worker = some worker ∧ copy .jobs j = some x ∧ x.held = true ∧
    x.base = some old ∧ Leased worker old

/-- Where the operation leaves: it reports that the job is not claimed, or it holds the lease. -/
def Leaves (op : NotificationOp) (copy : Copies QueueTable.Row) (answer : QueueAnswer) : Prop :=
  (answer = op.notClaimed ∨ op.Holds copy) ∧ ∀ j worker now, op = markSent j worker now → answer = .changed false

def Commits (op : NotificationOp) (copy : Copies QueueTable.Row) (_ : QueueAnswer) : Prop :=
  op.Changes service copy ∧ (op.target = none ∨ op.Holds copy) ∧
    ∀ j worker now, op = markSent j worker now → ∃ x old, copy .jobs j = some x ∧ x.base = some old ∧ Leased worker old ∧
      x.now = sentJob old now

variable {service}

/-- Commit of an operation that has locked its job under the lease and assigned it. -/
theorem ensures_finish {op : NotificationOp} {j : Nat} {worker : String} {job new : NotificationJob} {answer : QueueAnswer}
    (leased : Leased worker job) (htarget : op.target = some j) (hworker : op.worker = some worker)
    (effect : op.Effect service j job new)
    (sent : ∀ i k now, op = markSent i k now → i = j ∧ k = worker ∧ new = sentJob job now) :
    (finish j new answer).Ensures op.Leaves (op.Commits service) (onlyJob j job) := by
  simp only [finish, onlyJob, Tx.Ensures, Copies.assign_put, Copies.flush_put, Copies.flush_empty]
  refine ⟨fun i x hx => ?_, .inr ⟨j, worker, _, job, htarget, hworker, Copies.put_self, rfl, rfl, leased⟩,
    fun i k now hop => ?_⟩
  · rcases Copies.put_eq_some hx with ⟨_, rfl, rfl⟩ | hx
    · exact ⟨rfl, job, rfl, .inr effect⟩
    · cases hx
  · obtain ⟨rfl, rfl, rfl⟩ := sent i k now hop
    exact ⟨_, job, Copies.put_self, rfl, leased, rfl⟩

/-- An operation that is none's or has no job of its own leaves and commits no lease. -/
theorem ensures_assigned {op : NotificationOp} {p : NotificationJob → Prop} {f : NotificationJob → NotificationJob}
    {tbl : Table NotificationJob} {ids : List Nat} {next : QueueTx} {start : Copies QueueTable.Row}
    (hstart : start = Copies.load Copies.empty true QueueTable.jobs tbl ids)
    (hids : ∀ j ∈ ids, ∀ job, tbl.row j = some job → p job) (effect : ∀ j job, p job → op.Effect service j job (f job))
    (hnext : ∀ c, op.Changes service c → next.Ensures op.Leaves (op.Commits service) c) :
    (Tx.assignAll .jobs ((start.rows .jobs ids).map fun r => (r.1, f r.2)) (.flush next)).Ensures op.Leaves
      (op.Commits service) start := by
  have first : ∀ j x, start .jobs j = some x → ∃ job, tbl.row j = some job ∧ p job ∧ x = .ofRow true job := by
    intro j x hx
    rw [hstart] at hx
    rcases Copies.load_cases hx with h | ⟨-, _, hj, job, hjob, rfl⟩
    · cases h
    · exact ⟨job, hjob, hids j hj job hjob, rfl⟩
  refine Tx.ensures_assignAll (P := fun c => ∀ j x, c .jobs j = some x → x.held = true ∧
    ∃ old, tbl.row j = some old ∧ p old ∧ x.base = some old ∧ (x.now = old ∨ x.now = f old)) ?_ ?_ ?_
  · rintro c ⟨i, new⟩ hr hc j x hx
    rw [Copies.assign_self] at hx
    by_cases hj : j = i
    · subst hj
      rw [if_pos rfl, Option.map_eq_some_iff] at hx
      obtain ⟨y, hy, rfl⟩ := hx
      obtain ⟨held, old, hold, hp, hbase, -⟩ := hc j y hy
      refine ⟨held, old, hold, hp, hbase, .inr ?_⟩
      obtain ⟨⟨k, job⟩, hmem, heq⟩ := List.mem_map.mp hr
      obtain ⟨k', -, hk⟩ := List.mem_filterMap.mp hmem
      obtain ⟨z, hz, hz'⟩ := Option.map_eq_some_iff.mp hk
      cases hz'
      cases heq
      obtain ⟨job', hjob, -, rfl⟩ := first _ z hz
      rw [hold, Option.some.injEq] at hjob
      subst hjob
      rfl
    · rw [if_neg hj] at hx
      exact hc j x hx
  · intro j x hx
    obtain ⟨job, hjob, hp, rfl⟩ := first j x hx
    exact ⟨rfl, job, hjob, hp, rfl, .inl rfl⟩
  · intro c hc
    refine hnext c.flush fun j x hx => ?_
    obtain ⟨y, hy, rfl⟩ := Copies.flush_eq_some.mp hx
    obtain ⟨held, old, -, hp, hbase, hnow⟩ := hc j y hy
    refine ⟨held, old, hbase, hnow.imp_right fun h => ?_⟩
    rw [h]
    exact effect j old hp

/-- Every operation ensures what its `Leaves` and `Commits` say. -/
theorem ensures (op : NotificationOp) :
    (op.tx service).Ensures op.Leaves (op.Commits service) Copies.empty := by
  have quiet : ∀ {op : NotificationOp} {c : Copies QueueTable.Row} {answer}, op.target = none → op.Changes service c →
      op.Commits service c answer := by
    intro op c answer htarget h
    refine ⟨h, .inl htarget, fun i k now hop => ?_⟩
    rw [hop] at htarget
    cases htarget
  cases op with
  | claimDue worker limit now =>
    intro tbl ids _ hids
    have due : ∀ j ∈ ids, ∀ job, tbl.row j = some job → isDue now (now - seconds service.leaseSeconds) job = true := by
      intro j hj job hjob
      obtain ⟨⟨_, job'⟩, hmem, rfl⟩ := List.mem_map.mp (hids.subset hj)
      obtain ⟨hrow, due⟩ := Table.mem_select.mp ((List.mem_insertionSort _).mp hmem)
      rw [hjob, Option.some.injEq] at hrow
      exact hrow ▸ due
    have effect : ∀ j job, isDue now (now - seconds service.leaseSeconds) job = true →
        (claimDue worker limit now).Effect service j job (claimed worker now job) := fun _ _ due => ⟨due, rfl⟩
    exact ensures_assigned rfl due effect fun c hc => quiet rfl hc
  | prepareDelivery j worker ctx now =>
    unfold tx NotificationService.prepareDelivery
    refine ensures_claimedJob (fun c => ?_) fun job leased => ?_
    · exact ⟨.inl rfl, (by simp)⟩
    · dsimp only
      split
      · exact ensures_finish leased rfl rfl ⟨rfl, leased, .inl rfl⟩ (by simp)
      · exact ensures_finish leased rfl rfl ⟨rfl, leased, .inr rfl⟩ (by simp)
      · exact ⟨.inr ⟨j, worker, _, job, rfl, rfl, onlyJob_self j job, rfl, rfl, leased⟩, (by simp)⟩
  | markSent j worker now =>
    unfold tx NotificationService.markSent
    refine ensures_claimedJob (fun c => ?_) fun job leased => ?_
    · exact ⟨.inl rfl, fun _ _ _ _ => rfl⟩
    · refine ensures_finish leased rfl rfl ⟨rfl, leased, rfl⟩ fun i k now' hop => ?_
      cases hop
      exact ⟨rfl, rfl, rfl⟩
  | retry j worker delay code now =>
    unfold tx NotificationService.retry
    refine ensures_claimedJob (fun c => ?_) fun job leased => ?_
    · exact ⟨.inl rfl, (by simp)⟩
    · refine ensures_finish leased rfl rfl ⟨rfl, leased, ?_⟩ (by simp)
      split
      · exact .inr rfl
      · exact .inl rfl
  | markRecipientBlocked j worker =>
    unfold tx NotificationService.markRecipientBlocked
    refine ensures_claimedJob (fun c => ?_) fun job leased => ?_
    · exact ⟨.inl rfl, (by simp)⟩
    · exact ensures_finish leased rfl rfl ⟨rfl, leased, rfl⟩ (by simp)
  | markPermanentFailure j worker code =>
    unfold tx NotificationService.markPermanentFailure
    refine ensures_claimedJob (fun c => ?_) fun job leased => ?_
    · exact ⟨.inl rfl, (by simp)⟩
    · exact ensures_finish leased rfl rfl ⟨rfl, leased, rfl⟩ (by simp)
  | cancelUnsent appointmentId =>
    intro tbl _
    refine ensures_assigned (p := fun job => job.appointmentId = appointmentId ∧ job.status.isUnsent = true) rfl ?_
      (fun _ _ h => ⟨h.1, h.2, rfl⟩) fun c hc => quiet rfl hc
    intro j hj job hjob
    obtain ⟨⟨_, job'⟩, hmem, rfl⟩ := List.mem_map.mp hj
    obtain ⟨hrow, unsent⟩ := Table.mem_select.mp hmem
    rw [hjob, Option.some.injEq] at hrow
    simpa [hrow] using unsent
  | cancelUnsentByType type =>
    intro tbl _
    refine ensures_assigned (p := fun job => job.notificationType = type ∧ job.status.isUnsent = true) rfl ?_
      (fun _ _ h => ⟨h.1, h.2, rfl⟩) fun c hc => quiet rfl hc
    intro j hj job hjob
    obtain ⟨⟨_, job'⟩, hmem, rfl⟩ := List.mem_map.mp hj
    obtain ⟨hrow, unsent⟩ := Table.mem_select.mp hmem
    rw [hjob, Option.some.injEq] at hrow
    simpa [hrow] using unsent

/-! ### What happens to a job -/

def step (service : NotificationService) (w : QueueWorld NotificationOp) (turn : Turn NotificationOp) :
    QueueWorld NotificationOp := w.step (tx service) turn

/-- The queue after any interleaving, from any stored jobs. -/
def after (service : NotificationService) (store : (t : QueueTable) → Table t.Row) (turns : List (Turn NotificationOp)) :
    QueueWorld NotificationOp := run (step service) (World.start store) turns

def job (w : QueueWorld NotificationOp) (j : Nat) : Option NotificationJob := (w.store .jobs).row j

/-- The step is a statement of the operation. -/
def Acts (w : QueueWorld NotificationOp) (turn : Turn NotificationOp) (op : NotificationOp) : Prop :=
  ∃ tid c, turn = .next tid ∧ w.conn tid = some c ∧ c.op = op

variable {w : QueueWorld NotificationOp} {turn : Turn NotificationOp} {j : Nat}

/-- What every reachable world keeps. -/
structure Kept (service : NotificationService) (w : QueueWorld NotificationOp) : Prop where
  sound : w.Sound False
  follows : w.Follows Leaves (Commits service)

theorem Kept.step (h : Kept service w) (turn : Turn NotificationOp) : Kept service (step service w turn) :=
  ⟨h.sound.step nofun, h.follows.step ensures h.sound⟩

theorem kept_after (service : NotificationService) (store : (t : QueueTable) → Table t.Row)
    (turns : List (Turn NotificationOp)) : Kept service (after service store turns) :=
  run_invariant (fun _ turn h => h.step turn) ⟨World.sound_start _, World.follows_start _⟩ turns

theorem Kept.job_step (h : Kept service w) (changed : job (NotificationOp.step service w turn) j ≠ job w j) :
    ∃ op old new, Acts w turn op ∧ job w j = some old ∧ job (NotificationOp.step service w turn) j = some new ∧
      op.Effect service j old new := by
  obtain ⟨tid, c, b, x, hturn, hc, -, hq, hx, -, -, cur⟩ := World.changed_row h.sound h.follows changed
  obtain ⟨held, old, hbase, hnow⟩ := hq.1 j x hx
  obtain ⟨hrow, hnew⟩ := cur (.inl held)
  refine ⟨c.op, old, x.now, ⟨tid, c, hturn, hc, rfl⟩, hrow.symm.trans hbase, hnew, hnow.resolve_left fun same => ?_⟩
  exact changed (hnew.trans (same ▸ hbase.symm.trans hrow))

theorem Acts.unique {op op' : NotificationOp} (h : Acts w turn op) (h' : Acts w turn op') : op = op' := by
  obtain ⟨tid, c, rfl, hc, rfl⟩ := h
  obtain ⟨_, c', ⟨⟩, hc', rfl⟩ := h'
  rw [hc, Option.some.injEq] at hc'
  rw [hc']

theorem isUnsent_of_isDue {now lease : Int} {old : NotificationJob} (h : isDue now lease old = true) :
    old.status.isUnsent = true := by
  simp only [isDue, Bool.or_eq_true, Bool.and_eq_true, decide_eq_true_eq] at h
  rcases h with h | h
  · rw [h.1]; rfl
  · rw [h.1.1]; rfl

theorem isUnsent_of_leased {worker : String} {old : NotificationJob} (h : Leased worker old) : old.status.isUnsent = true := by
  rw [h.1]; rfl

theorem Effect.unsent {op : NotificationOp} {old new : NotificationJob} (h : op.Effect service j old new) :
    old.status.isUnsent = true := by
  cases op with
  | claimDue => exact isUnsent_of_isDue h.1
  | cancelUnsent => exact h.2.1
  | cancelUnsentByType => exact h.2.1
  | _ => exact isUnsent_of_leased h.2.1

/-- A worker's operation other than a claim changes the job that it has a lease of. -/
theorem Effect.leased {op : NotificationOp} {old new : NotificationJob} {worker : String} (h : op.Effect service j old new)
    (hworker : op.worker = some worker) :
    Leased worker old ∨ ∃ limit now, op = claimDue worker limit now ∧ new = claimed worker now old := by
  cases op with
  | claimDue k limit now =>
    cases hworker
    exact .inr ⟨limit, now, rfl, h.2⟩
  | cancelUnsent => cases hworker
  | cancelUnsentByType => cases hworker
  | _ =>
    cases hworker
    exact .inl h.2.1

/-- After a change a job is in the hands of the worker that claimed it, or of none. -/
theorem Effect.holder {op : NotificationOp} {old new : NotificationJob} {worker : String} (h : op.Effect service j old new)
    (leased : Leased worker new) : ∃ limit now, op = claimDue worker limit now := by
  cases op with
  | claimDue k limit now =>
    obtain ⟨-, rfl⟩ := h
    obtain ⟨-, ⟨⟩⟩ := leased
    exact ⟨limit, now, rfl⟩
  | prepareDelivery => rcases h.2.2 with hs | hs <;> rw [leased.1] at hs <;> cases hs
  | markSent =>
    obtain ⟨-, -, rfl⟩ := h
    cases leased.1
  | retry => rcases h.2.2 with hs | hs <;> rw [leased.1] at hs <;> cases hs
  | markRecipientBlocked => exact absurd (leased.1.symm.trans h.2.2) nofun
  | markPermanentFailure => exact absurd (leased.1.symm.trans h.2.2) nofun
  | cancelUnsent =>
    obtain ⟨-, -, rfl⟩ := h
    cases leased.1
  | cancelUnsentByType =>
    obtain ⟨-, -, rfl⟩ := h
    cases leased.1

/-! ### Runs -/

theorem Kept.job_finished (h : Kept service w) {old : NotificationJob} (hold : job w j = some old)
    (finished : old.status.isUnsent = false) (turn : Turn NotificationOp) :
    job (NotificationOp.step service w turn) j = some old := by
  by_contra changed
  obtain ⟨_, old', _, _, hold', _, effect⟩ := h.job_step fun same => changed (same.trans hold)
  rw [hold, Option.some.injEq] at hold'
  subst hold'
  rw [effect.unsent] at finished
  cases finished

theorem Kept.job_finished_run (h : Kept service w) {old : NotificationJob} (hold : job w j = some old)
    (finished : old.status.isUnsent = false) (later : List (Turn NotificationOp)) :
    job (run (NotificationOp.step service) w later) j = some old :=
  (run_invariant (P := fun v => Kept service v ∧ job v j = some old)
    (fun _ turn hv => ⟨hv.1.step turn, hv.1.job_finished hv.2 finished turn⟩) ⟨h, hold⟩ later).2

/-- The operation marks job `j` sent. -/
def marks (j : Nat) : NotificationOp → Bool
  | markSent i _ _ => i = j
  | _ => false

/-- How often the job was marked sent: the calls of `mark_sent` that answered `True`. -/
def sends (j : Nat) (w : QueueWorld NotificationOp) : Nat :=
  w.log.countP fun e => e.1.marks j && e.2 = .changed true

/-- A job that was marked sent once is sent. -/
def MarkedOnce (j : Nat) (w : QueueWorld NotificationOp) : Prop :=
  sends j w = 0 ∨ sends j w = 1 ∧ ∃ row, job w j = some row ∧ row.status = .sent

theorem MarkedOnce.step (h : MarkedOnce j w) (kept : Kept service w) (turn : Turn NotificationOp) :
    MarkedOnce j (NotificationOp.step service w turn) := by
  have stays : ∀ row, job w j = some row → row.status = .sent → job (NotificationOp.step service w turn) j = some row :=
    fun row hrow hs => kept.job_finished hrow (by rw [hs]; rfl) turn
  have quiet : sends j (NotificationOp.step service w turn) = sends j w → MarkedOnce j (NotificationOp.step service w turn) := by
    intro same
    rw [MarkedOnce, same]
    exact h.imp_right fun ⟨once, row, hrow, hs⟩ => ⟨once, row, stays row hrow hs, hs⟩
  rcases World.log_step (tx service) turn kept.follows with hlog | ⟨tid, c, b, hturn, hc, hlog, ends⟩
  · exact quiet (congrArg (List.countP _) hlog)
  · by_cases counted : (c.op.marks j && decide (b = .changed true)) = true
    · obtain ⟨hop, rfl⟩ := (Bool.and_eq_true_iff.mp counted).imp_right of_decide_eq_true
      obtain ⟨i, worker, now, hmark⟩ : ∃ i worker now, c.op = markSent i worker now := by
        cases hcop : c.op with
        | markSent i worker now => exact ⟨i, worker, now, rfl⟩
        | _ => rw [hcop] at hop; cases hop
      rw [hmark] at hop
      obtain rfl : i = j := of_decide_eq_true hop
      rcases ends with ⟨-, leaves⟩ | ⟨-, commits, hstore⟩
      · exact absurd (leaves.2 i worker now hmark) nofun
      · obtain ⟨x, old, hx, hbase, leased, hnow⟩ := commits.2.2 i worker now hmark
        have cur := (kept.sound tid c hc).current .jobs i x hx (.inl (commits.1 i x hx).1)
        have hold : job w i = some old := cur.1.symm.trans hbase
        have hnew : job (NotificationOp.step service w turn) i = some (sentJob old now) := by
          rw [← hnow]
          show ((NotificationOp.step service w turn).store .jobs).row i = _
          rw [NotificationOp.step, hstore]
          exact (World.committed_row (kept.sound tid c hc)).2 x hx cur
        have unmarked : sends i w = 0 := by
          refine h.resolve_right fun ⟨_, row, hrow, hs⟩ => ?_
          rw [hold, Option.some.injEq] at hrow
          rw [← hrow, leased.1] at hs
          cases hs
        have grown : sends i (NotificationOp.step service w turn) = sends i w + 1 := by
          show List.countP _ (w.step (tx service) turn).log = _
          rw [hlog, List.countP_append, List.countP_singleton, if_pos counted]
          rfl
        exact .inr ⟨by rw [grown, unmarked], _, hnew, rfl⟩
    · refine quiet ?_
      show List.countP _ (w.step (tx service) turn).log = _
      rw [hlog, List.countP_append, List.countP_singleton, if_neg counted]
      rfl

/-- While a worker without the lease does not claim the job again, it neither changes the job nor is told
that it has it. -/
theorem Kept.unleased_step (h : Kept service w) {worker : String}
    (unleased : ∀ old, job w j = some old → ¬ Leased worker old)
    (idle : ∀ limit now, Acts w turn (claimDue worker limit now) → job (NotificationOp.step service w turn) j = job w j) :
    (∀ op, Acts w turn op → op.worker = some worker → job (NotificationOp.step service w turn) j = job w j) ∧
      (∀ old, job (NotificationOp.step service w turn) j = some old → ¬ Leased worker old) ∧
      ∃ answers, (NotificationOp.step service w turn).log = w.log ++ answers ∧
        ∀ e ∈ answers, e.1.worker = some worker → e.1.target = some j → e.2 = e.1.notClaimed := by
  refine ⟨fun op acts hworker => ?_, fun new hnew leased => ?_, ?_⟩
  · by_contra changed
    obtain ⟨op', old, new, acts', hold, -, effect⟩ := h.job_step changed
    obtain rfl := acts'.unique acts
    rcases effect.leased hworker with leased | ⟨limit, now, rfl, -⟩
    · exact unleased old hold leased
    · exact changed (idle limit now acts)
  · by_cases changed : job (NotificationOp.step service w turn) j = job w j
    · exact unleased new (changed ▸ hnew) leased
    · obtain ⟨op, old, new', acts, hold, hnew', effect⟩ := h.job_step changed
      rw [hnew, Option.some.injEq] at hnew'
      subst hnew'
      obtain ⟨limit, now, rfl⟩ := effect.holder leased
      exact changed (idle limit now acts)
  · rcases World.log_step (tx service) turn h.follows with hlog | ⟨tid, c, b, -, hc, hlog, ends⟩
    · exact ⟨[], hlog.trans (List.append_nil _).symm, fun _ he => absurd he List.not_mem_nil⟩
    · refine ⟨[(c.op, b)], hlog, fun e he hworker htarget => ?_⟩
      rw [List.mem_singleton] at he
      subst he
      have free : ¬ c.op.Holds c.copy := by
        rintro ⟨i, k, x, old, hi, hk, hx, held, hbase, leased⟩
        rw [htarget, Option.some.injEq] at hi
        rw [hworker, Option.some.injEq] at hk
        subst hi hk
        exact unleased old (((h.sound tid c hc).current .jobs _ x hx (.inl held)).1.symm.trans hbase) leased
      rcases ends with ⟨-, leaves⟩ | ⟨-, commits, -⟩
      · exact leaves.1.resolve_right free
      · rcases commits.2.1 with none | holds
        · rw [htarget] at none; cases none
        · exact absurd holds free

end NotificationOp

end SalonBooking
