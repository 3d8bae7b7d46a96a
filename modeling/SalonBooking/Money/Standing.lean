import SalonBooking.Money.Ledger

/-!
# What the status of a captured payment says

`Standing` is a payment next to its refunds: it is not captured, or it waits for exactly one pending
refund, or it has none and its status follows from its totals. A result about a refund recomputes the
status from the totals alone, so this is kept as long as results arrive in order.
-/

namespace SalonBooking

open Lib

/-- A status that follows from the totals. -/
inductive Accounted (p : Payment) : Prop
  | whole (status : p.status = .succeeded) (total : p.refundedAmount = 0)
  | part (status : p.status = .partiallyRefunded) (total : 0 < p.refundedAmount) (room : p.refundedAmount < p.amount)
  | nothing (status : p.status = .refunded) (total : p.refundedAmount = p.amount)

/-- The refund `x` of the payment is pending. -/
def Db.PendingRefund (db : Db) (pid x : Nat) : Prop :=
  ∃ r, db.refunds.row x = some r ∧ r.paymentId = pid ∧ r.status = .pending

/-- A result is applied to a pending refund, or to a finished one of a payment that waits for no other. -/
def InOrder (db : Db) : Effect → Prop
  | .result pid _ r _ => r.status = .pending ∨ ∀ x, ¬ db.PendingRefund pid x
  | _ => True

namespace Accounted

variable {p q : Payment}

theorem not_waiting (h : Accounted p) : p.status ≠ .refundPending := by
  cases h with
  | whole status => rw [status]; nofun
  | part status => rw [status]; nofun
  | nothing status => rw [status]; nofun

theorem captured (h : Accounted p) : p.status.captured = true := by
  cases h with
  | whole status => rw [status]; rfl
  | part status => rw [status]; rfl
  | nothing status => rw [status]; rfl

theorem congr (h : Accounted p) (status : q.status = p.status) (total : q.refundedAmount = p.refundedAmount)
    (amount : q.amount = p.amount) : Accounted q := by
  cases h with
  | whole hs ht => exact .whole (status.trans hs) (total.trans ht)
  | part hs ht hr => exact .part (status.trans hs) (total ▸ ht) (by rw [total, amount]; exact hr)
  | nothing hs ht => exact .nothing (status.trans hs) (by rw [total, amount, ht])

theorem of_refunded (status : q.status = PaymentService.refundedTarget q) (total : 0 < q.refundedAmount)
    (room : q.refundedAmount ≤ q.amount) : Accounted q := by
  unfold PaymentService.refundedTarget at status
  split at status
  · next full => exact .nothing status full
  · next part => exact .part status total (lt_of_le_of_ne room part)

theorem of_restored (status : q.status = PaymentService.restoredTarget q) (total : 0 ≤ q.refundedAmount)
    (room : q.refundedAmount < q.amount) : Accounted q := by
  unfold PaymentService.restoredTarget at status
  split at status
  · next part => exact .part status part room
  · next none => exact .whole status (le_antisymm (not_lt.mp none) total)

theorem room (h : Accounted p) (positive : 0 < p.amount) : 0 ≤ p.refundedAmount ∧ p.refundedAmount ≤ p.amount := by
  cases h with
  | whole _ total => rw [total]; exact ⟨le_rfl, positive.le⟩
  | part _ total room => exact ⟨total.le, room.le⟩
  | nothing _ total => rw [total]; exact ⟨positive.le, le_rfl⟩

/-- No success is turned away for the status: only a complete refund leads nowhere, and it has no room. -/
theorem not_stuck (h : Accounted p) {t : Money} (room : p.refundedAmount + t ≤ p.amount) (positive : 0 < t)
    (s : PaymentStatus) (hs : s = .refunded ∨ s = .partiallyRefunded) : p.status = s ∨ s ∈ p.status.allowed := by
  cases h with
  | whole status => rw [status]; rcases hs with rfl | rfl <;> simp [PaymentStatus.allowed]
  | part status => rw [status]; rcases hs with rfl | rfl <;> simp [PaymentStatus.allowed]
  | nothing status total =>
    rw [total] at room
    exact absurd room (not_le.mpr (lt_add_of_pos_right _ positive))

end Accounted

namespace RefundOutcome

variable {p q : Payment} {r r' : Refund}

/-- A result on the pending refund of a payment that waits for it: the refund stays pending and nothing
changes, or it ends and the payment is settled. -/
theorem of_waiting (h : RefundOutcome p r q r') (amount : q.amount = p.amount) (waiting : p.status = .refundPending)
    (pending : r.status = .pending) (positive : 0 < r.amount) (total : 0 ≤ p.refundedAmount)
    (room : p.refundedAmount + r.amount ≤ p.amount) :
    r'.status = .pending ∧ q.status = .refundPending ∧ q.refundedAmount = p.refundedAmount ∨
      r'.status ≠ .pending ∧ Accounted q := by
  have left : p.refundedAmount < p.amount := lt_of_lt_of_le (lt_add_of_pos_right _ positive) room
  have ended : ∀ s : RefundStatus, s = .failed ∨ s = .cancelled → s ≠ .pending := by
    rintro s (rfl | rfl) <;> nofun
  cases h with
  | touched status payment same => exact .inl ⟨status.trans pending, payment.trans waiting, same⟩
  | replayed was => rw [pending] at was; cases was
  | succeeded was status payment room' total' =>
    refine .inr ⟨by rw [status]; nofun, .of_refunded payment ?_ ?_⟩
    · rw [total']; exact add_pos_of_nonneg_of_pos total positive
    · rw [total', amount]; exact room
  | overflown was status payment full => exact absurd room (not_le.mpr full)
  | stuck was status payment room' total' blocked =>
    rw [payment, waiting] at blocked
    rcases PaymentService.refundedTarget_cases q with hs | hs <;> rw [hs] at blocked <;>
      simp [PaymentStatus.allowed] at blocked
  | failed was status payment same =>
    refine .inr ⟨ended _ status, .of_restored ?_ ?_ ?_⟩
    · rw [payment, PaymentService.restoredTarget, PaymentService.restoredTarget, same]
    · rw [same]; exact total
    · rw [same, amount]; exact left
  | unrestored was status payment same blocked =>
    rw [waiting] at blocked
    rcases PaymentService.restoredTarget_cases p with hs | hs <;> rw [hs] at blocked <;>
      simp [PaymentStatus.allowed] at blocked

theorem of_settled (h : RefundOutcome p r q r') (amount : q.amount = p.amount)
    (edge : q.status = p.status ∨ q.status ∈ p.status.allowed) (settled : Accounted p) (money : 0 < p.amount)
    (positive : 0 < r.amount) (paid : r.status = .succeeded → 0 < p.refundedAmount)
    (late : r.status = .pending → r'.status = .succeeded ∧ p.refundedAmount + r.amount ≤ p.amount) :
    r'.status ≠ .pending ∧ Accounted q := by
  obtain ⟨total, room⟩ := settled.room money
  have unended : r.status = .pending → r'.status ≠ .pending := fun hr => by rw [(late hr).1]; nofun
  have failed : r'.status = .failed ∨ r'.status = .cancelled → r'.status ≠ .pending := by
    rintro (hs | hs) <;> rw [hs] <;> nofun
  cases h with
  | touched status payment same =>
    refine ⟨fun hr => ?_, settled.congr payment same amount⟩
    exact unended (status.symm.trans hr) hr
  | replayed was status payment same =>
    refine ⟨by rw [status]; nofun, .of_refunded ?_ ?_ ?_⟩
    · rw [payment, PaymentService.refundedTarget, PaymentService.refundedTarget, same, amount]
    · rw [same]; exact paid was
    · rw [same, amount]; exact room
  | succeeded was status payment room' total' =>
    refine ⟨by rw [status]; nofun, .of_refunded payment ?_ ?_⟩
    · rw [total']; exact add_pos_of_nonneg_of_pos total positive
    · rw [total', amount]; exact room'
  | overflown was status payment full => exact absurd (late was).2 (not_le.mpr full)
  | stuck was status payment room' total' blocked =>
    rw [payment] at blocked
    exact absurd (settled.not_stuck room' positive _ (PaymentService.refundedTarget_cases q)) blocked
  | failed was status payment same =>
    refine ⟨failed status, ?_⟩
    cases settled with
    | nothing hp full =>
      -- a complete refund leads nowhere, so nothing restores it
      rw [hp] at edge
      rcases edge with edge | edge
      · rw [payment] at edge
        rcases PaymentService.restoredTarget_cases p with hs | hs <;> rw [hs] at edge <;> cases edge
      · cases edge
    | whole hp none =>
      refine .of_restored ?_ (by rw [same]; exact total) (by rw [same, amount, none]; exact money)
      rw [payment, PaymentService.restoredTarget, PaymentService.restoredTarget, same]
    | part hp some left =>
      refine .of_restored ?_ (by rw [same]; exact total) (by rw [same, amount]; exact left)
      rw [payment, PaymentService.restoredTarget, PaymentService.restoredTarget, same]
  | unrestored was status payment same => exact ⟨failed status, settled.congr payment same amount⟩

theorem counted (h : RefundOutcome p r q r') (positive : 0 < r.amount) (total : 0 ≤ p.refundedAmount)
    (room : r.status = .pending → p.refundedAmount + r.amount ≤ p.amount)
    (paid : r.status = .succeeded → 0 < p.refundedAmount) (status : r'.status = .succeeded) : 0 < q.refundedAmount := by
  cases h with
  | touched same _ total' => rw [total']; exact paid (same.symm.trans status)
  | replayed was _ _ total' => rw [total']; exact paid was
  | succeeded _ _ _ _ total' => rw [total']; exact add_pos_of_nonneg_of_pos total positive
  | overflown was _ _ full => exact absurd (room was) (not_le.mpr full)
  | stuck _ _ _ _ total' => rw [total']; exact add_pos_of_nonneg_of_pos total positive
  | failed _ ended => rw [status] at ended; rcases ended with h | h <;> cases h
  | unrestored _ ended => rw [status] at ended; rcases ended with h | h <;> cases h

end RefundOutcome

/-- A payment next to its refunds. -/
inductive Standing (db : Db) (pid : Nat) (p : Payment) : Prop
  | unpaid (status : p.status.captured = false) (total : p.refundedAmount = 0)
  | waiting (x r) (status : p.status = .refundPending) (refund : db.refunds.row x = some r) (of : r.paymentId = pid)
      (pending : r.status = .pending) (only : ∀ y, db.PendingRefund pid y → y = x) (total : 0 ≤ p.refundedAmount)
      (room : p.refundedAmount + r.amount ≤ p.amount)
  | settled (none : ∀ x, ¬ db.PendingRefund pid x) (settled : Accounted p)

structure Standings (db : Db) : Prop where
  money : db.payments.All fun _ p => 0 < p.amount
  positive : db.refunds.All fun _ r => 0 < r.amount
  standing : db.payments.All fun pid p => Standing db pid p
  counted : db.refunds.All fun _ r => r.status = .succeeded → ∀ p, db.payments.row r.paymentId = some p →
    0 < p.refundedAmount

namespace Standing

variable {db db' : Db} {pid : Nat} {p q : Payment}

theorem congr (h : Standing db pid p)
    (same : ∀ x r, r.paymentId = pid → (db'.refunds.row x = some r ↔ db.refunds.row x = some r)) : Standing db' pid p := by
  have pending : ∀ x, db'.PendingRefund pid x → db.PendingRefund pid x := by
    rintro x ⟨r, row, of, pending⟩
    exact ⟨r, (same x r of).mp row, of, pending⟩
  cases h with
  | unpaid status total => exact .unpaid status total
  | waiting x r status refund of hp only total room =>
    exact .waiting x r status ((same x r of).mpr refund) of hp (fun y hy => only y (pending y hy)) total room
  | settled none settled => exact .settled (fun x hx => none x (pending x hx)) settled

theorem of_payment (h : Standing db pid p) (row : db.payments.row pid = some p) (hl : Links db) (step : PaymentStep p q) :
    Standing db pid q := by
  cases h with
  | unpaid status total =>
    have total' : q.refundedAmount = 0 := step.refundedAmount.trans total
    by_cases captured : q.status.captured = true
    · have succeeded : q.status = .succeeded := by
        rcases step.status with hs | ⟨-, hs⟩
        · rw [hs, status] at captured; cases captured
        · revert captured hs
          cases q.status <;> simp [PaymentStatus.captured]
      refine .settled ?_ (.whole succeeded total')
      rintro x ⟨r, hr, of, -⟩
      obtain ⟨p', row', captured'⟩ := hl.refund_captured x r hr
      rw [of, row] at row'; cases row'
      rw [status] at captured'; cases captured'
    · exact .unpaid (by simpa using captured) total'
  | waiting x r status refund of pending only total room =>
    refine .waiting x r ?_ refund of pending only (step.refundedAmount ▸ total) ?_
    · rcases step.status with hs | ⟨hs, -⟩
      · exact hs.trans status
      · rw [status] at hs
        rcases hs with hs | hs <;> cases hs
    · rw [step.refundedAmount, step.intent.amount]; exact room
  | settled none settled =>
    refine .settled none (settled.congr ?_ step.refundedAmount step.intent.amount)
    rcases step.status with hs | ⟨hs, -⟩
    · exact hs
    · have captured := settled.captured
      rcases hs with hs | hs <;> rw [hs] at captured <;> cases captured

theorem total_nonneg (h : Standing db pid p) (money : 0 < p.amount) : 0 ≤ p.refundedAmount := by
  cases h with
  | unpaid _ total => exact total.ge
  | waiting _ _ _ _ _ _ _ total => exact total
  | settled _ settled => exact (settled.room money).1

end Standing

theorem Db.pendingRefund_insert {db db' : Db} {pid x : Nat} {r : Refund} (refunds : db'.refunds = db.refunds.insert r)
    (h : db'.PendingRefund pid x) : x = db.refunds.next ∨ db.PendingRefund pid x := by
  obtain ⟨s, row, of, pending⟩ := h
  rw [refunds] at row
  rcases Table.row_insert_eq_some.mp row with ⟨hx, -⟩ | row
  · exact .inl hx
  · exact .inr ⟨s, row, of, pending⟩

theorem Db.pendingRefund_put {db db' : Db} {pid x y : Nat} {r r' : Refund} (row : db.refunds.row y = some r)
    (refunds : db'.refunds = db.refunds.put y r') (h : db'.PendingRefund pid x) :
    x = y ∧ r'.status = .pending ∨ x ≠ y ∧ db.PendingRefund pid x := by
  obtain ⟨s, row', of, pending⟩ := h
  rw [refunds] at row'
  rcases (Table.row_put_eq_some row).mp row' with ⟨hx, rfl⟩ | ⟨hx, row'⟩
  · exact .inl ⟨hx, pending⟩
  · exact .inr ⟨hx, s, row', of, pending⟩

namespace Standings

variable {db db' : Db}

theorem empty : Standings .empty := ⟨Table.all_empty, Table.all_empty, Table.all_empty, Table.all_empty⟩

section Result

variable {pid y : Nat} {p q : Payment} {c r c' : Refund} {s : RefundStatus}

theorem paid (h : Standings db) (payment : db.payments.row pid = some p) (refund : db.refunds.row y = some r)
    (of : r.paymentId = pid) (applied : Applied p c r c' s) (succeeded : c.status = .succeeded) :
    0 < p.refundedAmount := by
  rcases applied.copied with rfl | ⟨pending, -⟩
  · exact h.counted y c refund succeeded p (of ▸ payment)
  · rw [pending] at succeeded; cases succeeded

/-- A result in order leaves the payment in one of its standings, and it had room for the refund. -/
theorem of_result (h : Standings db) (hl : Links db) (payment : db.payments.row pid = some p)
    (refund : db.refunds.row y = some r) (allowed : InOrder db (.result pid c r s)) (of : r.paymentId = pid)
    (same : SameRefund r c) (step : RefundStep p c q c') (applied : Applied p c r c' s)
    (refunds : db'.refunds = db.refunds.put y (flushedRefund c c' r)) :
    Standing db' pid q ∧ 0 ≤ p.refundedAmount ∧ (c.status = .pending → p.refundedAmount + c.amount ≤ p.amount) := by
  have mine := h.standing pid p payment
  have money := h.money pid p payment
  have total := mine.total_nonneg money
  have positive : 0 < c.amount := by rw [same.amount]; exact h.positive y r refund
  cases mine with
  | unpaid uncaptured =>
    obtain ⟨p', payment', captured⟩ := hl.refund_captured y r refund
    rw [of, payment] at payment'; cases payment'
    rw [uncaptured] at captured; cases captured
  | waiting x r₀ waits refund₀ of₀ pending₀ only total room =>
    have pending : r.status = .pending := allowed.resolve_right fun none => none x ⟨r₀, refund₀, of₀, pending₀⟩
    obtain rfl := only y ⟨r, refund, of, pending⟩
    rw [refund] at refund₀; cases refund₀
    have cpending : c.status = .pending := by
      rcases applied.copied with rfl | ⟨hc, -⟩
      · exact pending
      · exact hc
    have room' : p.refundedAmount + c.amount ≤ p.amount := by rw [same.amount]; exact room
    refine ⟨?_, total, fun _ => room'⟩
    rcases step.outcome.of_waiting step.intent.amount waits cpending positive total room' with
      ⟨hc', hq, total'⟩ | ⟨hc', settled⟩
    · refine .waiting y (flushedRefund c c' r) hq (by rw [refunds]; exact Table.row_put_self refund) of
        (applied.stored.trans hc') (fun z hz => ?_) (total' ▸ total) (by rw [total', step.intent.amount]; exact room)
      rcases Db.pendingRefund_put refund refunds hz with ⟨hz, -⟩ | ⟨-, hz⟩
      · exact hz
      · exact only z hz
    · refine .settled (fun z hz => ?_) settled
      rcases Db.pendingRefund_put refund refunds hz with ⟨-, hz⟩ | ⟨hne, hz⟩
      · exact hc' (applied.stored.symm.trans hz)
      · exact hne (only z hz)
  | settled none settled =>
    have late : c.status = .pending → c'.status = .succeeded ∧ p.refundedAmount + c.amount ≤ p.amount := by
      intro pending
      rcases applied.copied with rfl | ⟨-, late⟩
      · exact (none y ⟨c, refund, of, pending⟩).elim
      · exact late
    refine ⟨?_, total, fun pending => (late pending).2⟩
    obtain ⟨hc', settled'⟩ := step.outcome.of_settled step.intent.amount step.edge settled money positive
      (h.paid payment refund of applied) late
    refine .settled (fun z hz => ?_) settled'
    rcases Db.pendingRefund_put refund refunds hz with ⟨-, hz⟩ | ⟨-, hz⟩
    · exact hc' (applied.stored.symm.trans hz)
    · exact none z hz

theorem row_put_other {pid' x : Nat} {r' s' : Refund} (refund : db.refunds.row y = some r) (of : r.paymentId = pid)
    (refunds : db'.refunds = db.refunds.put y s') (hs' : s'.paymentId = r.paymentId) (hpid : pid' ≠ pid)
    (hr' : r'.paymentId = pid') : db'.refunds.row x = some r' ↔ db.refunds.row x = some r' := by
  rw [refunds, Table.row_put_eq_some refund]
  constructor
  · rintro (⟨-, rfl⟩ | ⟨-, row⟩)
    · exact absurd (hr'.symm.trans (hs'.trans of)) hpid
    · exact row
  · intro row
    refine .inr ⟨?_, row⟩
    rintro rfl
    rw [refund] at row; cases row
    exact hpid (hr'.symm.trans of)

end Result

theorem of_move (h : Standings db) (hl : Links db) (hm : Move InOrder db db') : Standings db' := by
  cases hm.money with
  | payments refunds rows =>
    have old : ∀ pid p, Standing db pid p → Standing db' pid p := fun pid p hs =>
      hs.congr fun x r _ => by rw [refunds]
    refine ⟨fun pid q row' => ?_, by rw [refunds]; exact h.positive, fun pid q row' => ?_, fun x r hr succeeded q row' => ?_⟩
    · rcases rows pid q row' with ⟨-, opened⟩ | ⟨p, row, step⟩
      · exact opened.money.1
      · rw [step.intent.amount]; exact h.money pid p row
    · rcases rows pid q row' with ⟨-, opened⟩ | ⟨p, row, step⟩
      · exact .unpaid (by rw [opened.created]; rfl) opened.unrefunded
      · exact old pid q ((h.standing pid p row).of_payment row hl step)
    · rw [refunds] at hr
      rcases rows _ q row' with ⟨new, -⟩ | ⟨p, row, step⟩
      · obtain ⟨p, row, -⟩ := hl.refund_captured x r hr
        rw [row] at new; cases new
      · rw [step.refundedAmount]; exact h.counted x r hr succeeded p row
  | request pid p r row allowed status of pending positive room payments refunds =>
    have mine := h.standing pid p row
    have left : p.refundedAmount + r.amount ≤ p.amount := by
      have sum : 0 ≤ db.sumRefunds pid .pending := by
        rw [Db.sumRefunds_eq]
        exact Table.total_nonneg fun x s hs => Refund.share_nonneg (h.positive x s hs)
      exact le_trans (add_le_add_left (le_add_of_nonneg_right sum) r.amount) room
    have none : ∀ x, ¬ db.PendingRefund pid x := by
      cases mine with
      | unpaid uncaptured => rcases status with hs | hs <;> rw [hs] at uncaptured <;> cases uncaptured
      | waiting _ _ waits => rcases status with hs | hs <;> rw [hs] at waits <;> cases waits
      | settled none => exact none
    refine ⟨by rw [payments]; exact h.money.put row (h.money pid p row), by rw [refunds]; exact h.positive.insert positive,
      fun pid' q row' => ?_, fun x s hs succeeded q row' => ?_⟩
    · rw [payments] at row'
      rcases (Table.row_put_eq_some row).mp row' with ⟨rfl, rfl⟩ | ⟨hpid, row'⟩
      · refine .waiting db.refunds.next r rfl ?_ of pending (fun y hy => ?_) (mine.total_nonneg (h.money pid' p row)) left
        · rw [refunds]; exact Table.row_insert_self
        · exact (Db.pendingRefund_insert refunds hy).resolve_right (none y)
      · refine (h.standing pid' q row').congr fun x s hs => ?_
        rw [refunds, Table.row_insert_eq_some]
        refine or_iff_right ?_
        rintro ⟨-, rfl⟩
        exact hpid (hs.symm.trans of)
    · rw [refunds] at hs
      rw [payments] at row'
      rcases Table.row_insert_eq_some.mp hs with ⟨-, rfl⟩ | hs
      · rw [pending] at succeeded; cases succeeded
      · rcases (Table.row_put_eq_some row).mp row' with ⟨hpid, rfl⟩ | ⟨-, row'⟩
        · exact h.counted x s hs succeeded p (hpid ▸ row)
        · exact h.counted x s hs succeeded q row'
  | result pid p q y c r c' s payment refund allowed of same step applied payments refunds =>
    have positive : 0 < c.amount := by rw [same.amount]; exact h.positive y r refund
    obtain ⟨mine, total, fits⟩ := h.of_result hl payment refund allowed of same step applied refunds
    refine ⟨by rw [payments]; exact h.money.put payment (step.intent.amount ▸ h.money pid p payment),
      by rw [refunds]; exact h.positive.put refund (h.positive y r refund), fun pid' q' row' => ?_,
      fun x r' hr' succeeded q' row' => ?_⟩
    · rw [payments] at row'
      rcases (Table.row_put_eq_some payment).mp row' with ⟨rfl, rfl⟩ | ⟨hpid, row'⟩
      · exact mine
      · exact (h.standing pid' q' row').congr fun x r' hr' => row_put_other refund of refunds rfl hpid hr'
    · rw [payments] at row'
      rw [refunds] at hr'
      rcases (Table.row_put_eq_some refund).mp hr' with ⟨rfl, rfl⟩ | ⟨-, hr'⟩
      · have hpid : (flushedRefund c c' r).paymentId = pid := of
        rw [hpid, Table.row_put_self payment] at row'; cases row'
        exact step.outcome.counted positive total fits (h.paid payment refund of applied)
          (applied.stored.symm.trans succeeded)
      · rcases (Table.row_put_eq_some payment).mp row' with ⟨hpid, rfl⟩ | ⟨-, row'⟩
        · exact lt_of_lt_of_le (h.counted x r' hr' succeeded p (hpid ▸ payment)) (step.outcome.total_le positive)
        · exact h.counted x r' hr' succeeded q' row'

end Standings

namespace Sys

/-- The command applies no result to a finished refund while its payment waits for another one. -/
def ResultsInOrder (s : Sys) (x : Label) : Prop := ∀ pid c r t, s.Occurs x (.result pid c r t) →
  r.status = .pending ∨ ∀ y, ¬ s.db.PendingRefund pid y

theorem ResultsInOrder.inOrder {s : Sys} {x : Label} (h : ResultsInOrder s x) (e : Effect) (he : s.Occurs x e) :
    InOrder s.db e := by
  cases e with
  | result pid c r t => exact h pid c r t he
  | _ => trivial

/-- A captured payment waits for a refund exactly when it has one pending refund, and otherwise its status
says how much of it has been returned. -/
theorem refund_status_agrees (l : List Label) (h : Guarded step ResultsInOrder empty l) {pid : Nat} {p : Payment}
    (row : (after l).db.payments.row pid = some p) (captured : p.status.captured = true) :
    (p.status = .refundPending ↔ ∃! x, (after l).db.PendingRefund pid x) ∧
      (p.status ≠ .refundPending → Accounted p) := by
  have standings : Standings (after l).db :=
    guarded_after (fun s x hx => hx.inOrder) (fun _ _ hP hl hm => hP.of_move hl hm) .empty l h
  cases standings.standing pid p row with
  | unpaid uncaptured => rw [uncaptured] at captured; cases captured
  | waiting x r waits refund of pending only =>
    exact ⟨iff_of_true waits ⟨x, ⟨r, refund, of, pending⟩, only⟩, fun h => absurd waits h⟩
  | settled none settled =>
    exact ⟨iff_of_false settled.not_waiting fun ⟨x, hx, _⟩ => none x hx, fun _ => settled⟩

/-- The commands that may apply a result to a finished refund. -/
def mayRepeat : Cmd → Bool
  | .approveManualRefund .. | .applyRefundResult .. => true
  | _ => false

theorem resultsInOrder_of_submission {s : Sys} {x : Label} (h : mayRepeat x.cmd = false) : ResultsInOrder s x := by
  obtain ⟨catalog, now, cmd⟩ := x
  intro pid c r t hx
  obtain ⟨-, hx⟩ := hx
  have submitted : ∀ i, Submits i (.result pid c r t) → r.status = .pending := by
    rintro i ⟨r', pending, ⟨t', he⟩ | he⟩
    · cases he
      exact pending
    · cases he
  cases cmd with
  | prepareRefund => exact .inl (submitted _ (submits_of_prepareRefund hx))
  | refundFailure => exact .inl (submitted _ (submits_of_refundFailure hx))
  | refundResult => exact .inl (submitted _ (submits_of_refundResult hx))
  | approveManualRefund => cases h
  | applyRefundResult => cases h
  | _ => simp [Causes] at hx

open Salon in
/-- A client pays, a part of the payment is returned, and another part is asked back. -/
def secondRefund : List Label :=
  let asked := askedPayment 2 .yookassa 1 1
  [⟨salon .yookassa, 0, openWindow 10⟩, ⟨salon .yookassa, minutes 1, bookWindow 2 1⟩,
    ⟨salon .yookassa, minutes 2, .submitPayment 1 asked (.ok (pendingAnswer asked))⟩,
    ⟨salon .yookassa, minutes 3, .claimEvent (notice asked "succeeded")⟩,
    ⟨salon .yookassa, minutes 3, .applyPaymentResult (notice asked "succeeded") (succeededAnswer asked)⟩,
    ⟨salon .yookassa, minutes 3, .reconcilePaid 1⟩,
    ⟨salon .yookassa, minutes 6, .createRefund 1 .yookassa (refundOf 1 4000 "refund-key-0000001")⟩,
    ⟨salon .yookassa, minutes 7, .refundResult .yookassa 1 1 1 (refundAnswer .yookassa 1 1 .succeeded 4000)⟩,
    ⟨salon .yookassa, minutes 8, .createRefund 1 .yookassa (refundOf 1 3000 "refund-key-0000002")⟩]

theorem refund_status_agrees_second : ∃ p, (after secondRefund).db.payments.row 1 = some p ∧
    (p.status = .refundPending ↔ ∃! x, (after secondRefund).db.PendingRefund 1 x) ∧
    (p.status ≠ .refundPending → Accounted p) := by
  have submissions : ∀ x ∈ secondRefund, mayRepeat x.cmd = false := by decide
  have payment : ((after secondRefund).db.payments.row 1).map (fun p => p.status.captured) = some true := by
    decide +kernel
  obtain ⟨p, row, captured⟩ := Option.map_eq_some_iff.mp payment
  have guarded : Guarded step (fun _ x => mayRepeat x.cmd = false) empty secondRefund := guarded_of_forall submissions
  have inOrder := guarded.mono fun s x hx => @resultsInOrder_of_submission s x hx
  exact ⟨p, row, refund_status_agrees secondRefund inOrder row captured⟩

open Salon in
/-- The notification about the first refund arrives while the second one is pending. -/
def replayedFirst : List Label :=
  secondRefund ++ [⟨salon .yookassa, minutes 9, .claimEvent (refundNotice .yookassa 1 1 "succeeded")⟩,
    ⟨salon .yookassa, minutes 9, .applyRefundResult (refundNotice .yookassa 1 1 "succeeded")
      (refundAnswer .yookassa 1 1 .succeeded 4000)⟩]

theorem replay_forgets_pending : ∃ p, (after replayedFirst).db.payments.row 1 = some p ∧ p.status.captured = true ∧
    ¬ (p.status = .refundPending ↔ ∃! x, (after replayedFirst).db.PendingRefund 1 x) := by
  have payment : ((after replayedFirst).db.payments.row 1).map (fun p => p.status) = some .partiallyRefunded := by
    decide +kernel
  have refund : ((after replayedFirst).db.refunds.row 2).map (fun r => (r.paymentId, r.status)) = some (1, .pending) := by
    decide +kernel
  have others : (after replayedFirst).db.refunds.All fun x r => r.status = .pending → x = 2 := by decide +kernel
  obtain ⟨p, row, status⟩ := Option.map_eq_some_iff.mp payment
  obtain ⟨r, row', hr⟩ := Option.map_eq_some_iff.mp refund
  obtain ⟨of, pending⟩ := Prod.mk.inj hr
  refine ⟨p, row, by rw [status]; rfl, fun h => ?_⟩
  rw [status] at h
  have unique : ∃! x, (after replayedFirst).db.PendingRefund 1 x := by
    refine ⟨2, ⟨r, row', of, pending⟩, ?_⟩
    rintro y ⟨s, hs, -, hpending⟩
    exact others y s hs hpending
  exact absurd (h.mpr unique) nofun

end Sys

end SalonBooking
