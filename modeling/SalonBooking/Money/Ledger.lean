import SalonBooking.Lib.Totals
import SalonBooking.Money.Pairs

/-!
# The ledger of a payment

`MoneyMove` lists what a transaction can do to the payments and the refunds together. Along it the
refunded total stays the sum of the succeeded refunds, and with the pending ones it stays within the
payment, as long as a manual approval does not work on an outdated copy of its refund.
-/

namespace SalonBooking

open Lib

/-- A payment as a booking opens it. -/
structure Opened (q : Payment) : Prop where
  created : q.status = .created
  unrefunded : q.refundedAmount = 0
  unpaid : q.providerPaymentId = none
  money : 0 < q.amount ∧ q.amount ≤ maxMoney ∧ isCurrency q.currency = true

/-- The payments and the refunds before and after a transaction. -/
inductive MoneyMove (may : Db → Effect → Prop) (db db' : Db) : Prop
  | payments (refunds : db'.refunds = db.refunds)
      (rows : ∀ pid q, db'.payments.row pid = some q → (db.payments.row pid = none ∧ Opened q) ∨
        ∃ p, db.payments.row pid = some p ∧ PaymentStep p q)
  | request (pid p r) (row : db.payments.row pid = some p) (allowed : may db (.request pid))
      (status : p.status = .succeeded ∨ p.status = .partiallyRefunded) (of : r.paymentId = pid)
      (pending : r.status = .pending) (positive : 0 < r.amount)
      (room : p.refundedAmount + db.sumPendingRefunds pid + r.amount ≤ p.amount)
      (payments : db'.payments = db.payments.put pid { p with status := .refundPending })
      (refunds : db'.refunds = db.refunds.insert r)
  | result (pid p q x c r c' s) (payment : db.payments.row pid = some p) (refund : db.refunds.row x = some r)
      (allowed : may db (.result pid c r s)) (of : r.paymentId = pid) (same : SameRefund r c)
      (step : RefundStep p c q c') (applied : Applied p c r c' s)
      (payments : db'.payments = db.payments.put pid q)
      (refunds : db'.refunds = db.refunds.put x (flushedRefund c c' r))

variable {may : Db → Effect → Prop} {db db' : Db} {pid : Nat} {p q : Payment}

namespace MoneyMove

theorem of_same (payments : db'.payments = db.payments) (refunds : db'.refunds = db.refunds) :
    MoneyMove may db db' :=
  .payments refunds fun _ q row => .inr ⟨q, payments ▸ row, .refl q⟩

theorem of_put (row : db.payments.row pid = some p) (step : PaymentStep p q)
    (payments : db'.payments = db.payments.put pid q) (refunds : db'.refunds = db.refunds) : MoneyMove may db db' := by
  refine .payments refunds fun x q' row' => .inr ?_
  rw [payments] at row'
  rcases (Table.row_put_eq_some row).mp row' with ⟨rfl, rfl⟩ | ⟨-, row'⟩
  · exact ⟨p, row, step⟩
  · exact ⟨q', row', .refl q'⟩

end MoneyMove

theorem Move.money (hm : Move may db db') : MoneyMove may db db' := by
  cases hm with
  | hold k w a r p row free window status mode origin live appointmentId agrees payment created provider
      unrefunded unpaid money =>
    refine .payments rfl fun x q row' => ?_
    rcases Table.row_insert_eq_some.mp row' with ⟨rfl, rfl⟩ | row'
    · exact .inl ⟨db.payments.bounded _ le_rfl, created, unrefunded, unpaid, money⟩
    · exact .inr ⟨q, row', .refl q⟩
  | releaseHold k w i a j r t a' r' payments window appointment reservation at_window pending live belongs
      agrees same status ended gone gone_belongs unpaid money =>
    rcases money with rfl | ⟨pid, p, q, row, -, -, -, step, rfl⟩
    · exact .of_same rfl rfl
    · exact .of_put row step rfl rfl
  | report i a j r pid p q t appointment reservation pending active belongs payment of step =>
    exact .of_put payment step rfl rfl
  | payment pid p q row step => exact .of_put row step rfl rfl
  | request pid p r appointments row allowed status of pending positive room =>
    exact .request pid p r row allowed status of pending positive room rfl rfl
  | result pid p q x c c' r s appointments t? payment refund allowed of same step applied =>
    exact .result pid p q x c r c' s payment refund allowed (same.paymentId.symm.trans of) same step applied rfl rfl
  | _ => exact .of_same rfl rfl

theorem Move.payment_row (hm : Move may db db') (row' : db'.payments.row pid = some q) :
    (∃ p, db.payments.row pid = some p ∧ SameIntent p q) ∨ db.payments.row pid = none ∧ Opened q := by
  cases hm.money with
  | payments _ rows =>
    rcases rows pid q row' with new | ⟨p, row, step⟩
    · exact .inr new
    · exact .inl ⟨p, row, step.intent⟩
  | request x p r row allowed status of pending positive room payments =>
    rw [payments] at row'
    rcases (Table.row_put_eq_some row).mp row' with ⟨rfl, rfl⟩ | ⟨-, row'⟩
    · exact .inl ⟨p, row, ⟨rfl, rfl, rfl, rfl, rfl, rfl⟩⟩
    · exact .inl ⟨q, row', .refl q⟩
  | result x p p' y c r c' s payment refund allowed of same step applied payments =>
    rw [payments] at row'
    rcases (Table.row_put_eq_some payment).mp row' with ⟨rfl, rfl⟩ | ⟨-, row'⟩
    · exact .inl ⟨p, payment, step.intent⟩
    · exact .inl ⟨q, row', .refl q⟩

/-! ### Sums of refunds -/

/-- What a refund adds to the sum of the refunds of a payment in a status. -/
def Refund.share (r : Refund) (pid : Nat) (s : RefundStatus) : Int :=
  if r.paymentId = pid ∧ r.status = s then r.amount else 0

/-- The sum of the refunds of a payment in a status. -/
def Db.sumRefunds (db : Db) (pid : Nat) (s : RefundStatus) : Money :=
  ((db.refundsOf pid s).map fun r => r.2.amount).sum

theorem Db.sumRefunds_eq (db : Db) (pid : Nat) (s : RefundStatus) :
    db.sumRefunds pid s = db.refunds.total fun r => r.share pid s := by
  have sums := Table.sum_select (t := db.refunds) (p := fun r => r.paymentId == pid && r.status == s)
    (f := fun r => r.amount)
  refine sums.trans ?_
  congr 1
  funext r
  simp [Refund.share]

theorem Refund.share_of {r : Refund} {s : RefundStatus} (of : r.paymentId = pid) (status : r.status = s) :
    r.share pid s = r.amount := if_pos ⟨of, status⟩

theorem Refund.share_eq_zero {r : Refund} {s : RefundStatus} (h : r.paymentId ≠ pid ∨ r.status ≠ s) :
    r.share pid s = 0 := by
  refine if_neg ?_
  rintro ⟨of, status⟩
  exact h.elim (fun h => h of) fun h => h status

theorem Refund.share_nonneg {r : Refund} {s : RefundStatus} (h : 0 < r.amount) : 0 ≤ r.share pid s := by
  unfold share
  split
  · exact h.le
  · exact le_rfl

theorem Db.sumRefunds_congr (refunds : db'.refunds = db.refunds) (pid : Nat) (s : RefundStatus) :
    db'.sumRefunds pid s = db.sumRefunds pid s := by rw [sumRefunds_eq, sumRefunds_eq, refunds]

theorem Db.sumRefunds_insert {r : Refund} (refunds : db'.refunds = db.refunds.insert r) (pid : Nat) (s : RefundStatus) :
    db'.sumRefunds pid s = db.sumRefunds pid s + r.share pid s := by
  rw [sumRefunds_eq, sumRefunds_eq, refunds, Table.total_insert]

theorem Db.sumRefunds_put {x : Nat} {r r' : Refund} (row : db.refunds.row x = some r)
    (refunds : db'.refunds = db.refunds.put x r') (pid : Nat) (s : RefundStatus) :
    db'.sumRefunds pid s + r.share pid s = db.sumRefunds pid s + r'.share pid s := by
  rw [sumRefunds_eq, sumRefunds_eq, refunds, Table.total_put row]

theorem Links.sumRefunds_new (hl : Links db) (new : db.payments.row pid = none) (s : RefundStatus) :
    db.sumRefunds pid s = 0 := by
  rw [Db.sumRefunds_eq]
  refine Table.total_eq_zero fun x r row => Refund.share_eq_zero (.inl fun of => ?_)
  obtain ⟨p, hp, -⟩ := hl.refund_captured x r row
  rw [of, new] at hp
  cases hp

theorem RefundOutcome.congr {r r' s s' : Refund} (h : RefundOutcome p r q r') (hs : s.status = r.status)
    (ha : s.amount = r.amount) (hs' : s'.status = r'.status) : RefundOutcome p s q s' := by
  cases h with
  | touched status payment total => exact .touched (hs'.trans (status.trans hs.symm)) payment total
  | replayed was status payment total => exact .replayed (hs.trans was) (hs'.trans status) payment total
  | succeeded was status payment room total =>
    exact .succeeded (hs.trans was) (hs'.trans status) payment (ha ▸ room) (ha ▸ total)
  | overflown was status payment full total =>
    exact .overflown (hs.trans was) (hs'.trans status) payment (ha ▸ full) total
  | stuck was status payment room total blocked =>
    exact .stuck (hs.trans was) (hs'.trans status) payment (ha ▸ room) (ha ▸ total) blocked
  | failed was status payment total => exact .failed (by rw [hs, hs']; exact was) (by rw [hs']; exact status) payment total
  | unrestored was status payment total blocked =>
    exact .unrestored (by rw [hs, hs']; exact was) (by rw [hs']; exact status) payment total blocked

theorem PaymentService.refundedTarget_cases (p : Payment) :
    refundedTarget p = .refunded ∨ refundedTarget p = .partiallyRefunded := by
  unfold refundedTarget
  split
  · exact .inl rfl
  · exact .inr rfl

theorem PaymentService.restoredTarget_cases (p : Payment) :
    restoredTarget p = .partiallyRefunded ∨ restoredTarget p = .succeeded := by
  unfold restoredTarget
  split
  · exact .inl rfl
  · exact .inr rfl

/-- The object is the stored row, or an outdated one that ends: either way its status is the one stored. -/
theorem Applied.stored {p : Payment} {c r c' : Refund} {s : RefundStatus} (h : Applied p c r c' s) :
    (flushedRefund c c' r).status = c'.status := by
  rcases h.copied with rfl | ⟨pending, succeeded, -⟩
  · exact flushed_fresh ..
  · exact flushed_of_ne (by rw [pending, succeeded]; nofun) _

theorem RefundOutcome.total_le {r r' : Refund} (h : RefundOutcome p r q r') (positive : 0 < r.amount) : p.refundedAmount ≤ q.refundedAmount := by
  have more : p.refundedAmount ≤ p.refundedAmount + r.amount := le_add_of_nonneg_right positive.le
  cases h with
  | touched _ _ total => exact total.ge
  | replayed _ _ _ total => exact total.ge
  | succeeded _ _ _ _ total => rw [total]; exact more
  | overflown _ _ _ _ total => exact total.ge
  | stuck _ _ _ _ total => rw [total]; exact more
  | failed _ _ _ total => exact total.ge
  | unrestored _ _ _ total => exact total.ge

/-! ### The balance -/

/-- The sums of a payment's refunds agree with its total. -/
structure Balanced (db : Db) : Prop where
  positive : db.refunds.All fun _ r => 0 < r.amount
  sums : ∀ pid p, db.payments.row pid = some p → p.refundedAmount = db.sumRefunds pid .succeeded ∧
    p.refundedAmount + db.sumRefunds pid .pending ≤ p.amount

/-- A result is applied to a refund as it is stored, unless the payment has no room for it. -/
def Fresh (db : Db) : Effect → Prop
  | .result pid c r _ => c.status = .pending → r.status = .pending ∨
    ∀ p, db.payments.row pid = some p → p.amount < p.refundedAmount + c.amount
  | _ => True

/-- On a refund as it is stored, what the session leaves is what the table holds afterwards. -/
theorem flushedRefund_status {c c' r : Refund} (h : c.status = r.status) : (flushedRefund c c' r).status = c'.status := by
  show flushed c.status c'.status r.status = c'.status
  rw [h]
  exact flushed_fresh ..

namespace Balanced

theorem empty : Balanced .empty := ⟨Table.all_empty, fun _ _ => nofun⟩

theorem pending_le (h : Balanced db) {x : Nat} {r : Refund} (row : db.refunds.row x = some r)
    (pending : r.status = .pending) : r.amount ≤ db.sumRefunds r.paymentId .pending := by
  rw [Db.sumRefunds_eq, ← Refund.share_of rfl pending]
  exact Table.le_total (fun y s hs => Refund.share_nonneg (h.positive y s hs)) row

/-- What a result moves from the pending refunds to the succeeded ones, the payment counts. -/
theorem of_outcome {r r' : Refund} (outcome : RefundOutcome p r q r') (of : r.paymentId = pid) (positive : 0 < r.amount)
    (same : r'.paymentId = r.paymentId ∧ r'.amount = r.amount)
    (room : r.status = .pending → p.refundedAmount + r.amount ≤ p.amount) :
    q.refundedAmount + r.share pid .succeeded = p.refundedAmount + r'.share pid .succeeded ∧
      q.refundedAmount + r'.share pid .pending ≤ p.refundedAmount + r.share pid .pending := by
  have of' : r'.paymentId = pid := same.1.trans of
  have unmoved : r'.status = r.status → q.refundedAmount = p.refundedAmount →
      q.refundedAmount + r.share pid .succeeded = p.refundedAmount + r'.share pid .succeeded ∧
        q.refundedAmount + r'.share pid .pending ≤ p.refundedAmount + r.share pid .pending := by
    intro status total
    have shares : ∀ s, r'.share pid s = r.share pid s := fun s => by rw [Refund.share, Refund.share, status, same.1, same.2]
    rw [shares, shares, total]
    exact ⟨rfl, le_rfl⟩
  have moved : r.status = .pending → r'.status = .succeeded → q.refundedAmount = p.refundedAmount + r.amount →
      q.refundedAmount + r.share pid .succeeded = p.refundedAmount + r'.share pid .succeeded ∧
        q.refundedAmount + r'.share pid .pending ≤ p.refundedAmount + r.share pid .pending := by
    intro was status total
    rw [Refund.share_of of' status, Refund.share_of of was, Refund.share_eq_zero (.inr (by rw [was]; nofun)),
      Refund.share_eq_zero (.inr (by rw [status]; nofun)), total, same.2]
    exact ⟨add_zero _, (add_zero _).le⟩
  have ended : (r'.status = .failed ∨ r'.status = .cancelled) → r.status = r'.status ∨ r.status = .pending →
      q.refundedAmount = p.refundedAmount →
      q.refundedAmount + r.share pid .succeeded = p.refundedAmount + r'.share pid .succeeded ∧
        q.refundedAmount + r'.share pid .pending ≤ p.refundedAmount + r.share pid .pending := by
    rintro status (was | was) total
    · exact unmoved was.symm total
    · have failed : r'.status ≠ .pending ∧ r'.status ≠ .succeeded := by
        rcases status with hs | hs <;> rw [hs] <;> exact ⟨nofun, nofun⟩
      rw [Refund.share_of of was, Refund.share_eq_zero (.inr (by rw [was]; nofun)),
        Refund.share_eq_zero (.inr failed.1), Refund.share_eq_zero (.inr failed.2), total]
      exact ⟨rfl, Int.add_le_add_left positive.le _⟩
  cases outcome with
  | touched status _ total => exact unmoved status total
  | replayed was status _ total => exact unmoved (status.trans was.symm) total
  | succeeded was status _ _ total => exact moved was status total
  | overflown was _ _ full => exact absurd (room was) (not_le.mpr full)
  | stuck was status _ _ total => exact moved was status total
  | failed was status _ total => exact ended status was total
  | unrestored was status _ total => exact ended status was total

theorem of_kept (h : Balanced db) {p : Payment} (row : db.payments.row pid = some p)
    (total : q.refundedAmount = p.refundedAmount) (amount : q.amount = p.amount)
    (sums : ∀ s, db'.sumRefunds pid s = db.sumRefunds pid s) :
    q.refundedAmount = db'.sumRefunds pid .succeeded ∧ q.refundedAmount + db'.sumRefunds pid .pending ≤ q.amount := by
  rw [sums, sums, total, amount]
  exact h.sums pid p row

theorem moved_total {a b s s' x y : Int} (total : b = s) (moved : a + x = b + y) (put : s' + x = s + y) : a = s' := by
  omega

theorem moved_room {a b s s' x y m : Int} (room : b + s ≤ m) (moved : a + y ≤ b + x) (put : s' + x = s + y) :
    a + s' ≤ m := by
  omega

theorem of_move (h : Balanced db) (hl : Links db) (hm : Move Fresh db db') : Balanced db' := by
  cases hm.money with
  | payments refunds rows =>
    refine ⟨by rw [refunds]; exact h.positive, fun x q row' => ?_⟩
    have sums := Db.sumRefunds_congr refunds x
    rcases rows x q row' with ⟨new, opened⟩ | ⟨p, row, step⟩
    · rw [sums, sums, opened.unrefunded, hl.sumRefunds_new new, hl.sumRefunds_new new]
      exact ⟨rfl, opened.money.1.le⟩
    · exact h.of_kept row step.refundedAmount step.intent.amount sums
  | request pid p r row allowed status of pending positive room payments refunds =>
    refine ⟨by rw [refunds]; exact h.positive.insert positive, fun x q row' => ?_⟩
    rw [payments] at row'
    rcases (Table.row_put_eq_some row).mp row' with ⟨rfl, rfl⟩ | ⟨hx, row'⟩
    · rw [Db.sumRefunds_insert refunds, Db.sumRefunds_insert refunds, Refund.share_of of pending,
        Refund.share_eq_zero (.inr (by rw [pending]; nofun)), add_zero, ← add_assoc]
      exact ⟨(h.sums x p row).1, room⟩
    · refine h.of_kept row' rfl rfl fun s => ?_
      rw [Db.sumRefunds_insert refunds, Refund.share_eq_zero (.inl fun hp => hx (hp.symm.trans of)), add_zero]
  | result pid p q y c r c' s payment refund allowed of same step applied payments refunds =>
    obtain ⟨total, room⟩ := h.sums pid p payment
    have positive := h.positive y r refund
    -- the object agrees with the row on the status, so the session leaves the status of the object
    have status : c.status = r.status := by
      rcases applied.copied with rfl | ⟨pending, -, room⟩
      · rfl
      · rcases allowed pending with hr | full
        · rw [pending, hr]
        · exact absurd room (not_le.mpr (full p payment))
    have fits : r.status = .pending → p.refundedAmount + r.amount ≤ p.amount := fun pending =>
      (Int.add_le_add_left (of ▸ h.pending_le refund pending) _).trans room
    have outcome : RefundOutcome p r q (flushedRefund c c' r) :=
      step.outcome.congr status.symm same.amount.symm (flushedRefund_status status)
    obtain ⟨succeeded, pending⟩ := of_outcome outcome of positive ⟨rfl, rfl⟩ fits
    refine ⟨by rw [refunds]; exact h.positive.put refund positive, fun x q' row' => ?_⟩
    rw [payments] at row'
    rcases (Table.row_put_eq_some payment).mp row' with ⟨rfl, rfl⟩ | ⟨hx, row'⟩
    · have hs := Db.sumRefunds_put refund refunds x .succeeded
      have hp := Db.sumRefunds_put refund refunds x .pending
      rw [step.intent.amount]
      exact ⟨moved_total total succeeded hs, moved_room room pending hp⟩
    · refine h.of_kept row' rfl rfl fun s => ?_
      have other : ∀ r₀ : Refund, r₀.paymentId = r.paymentId → r₀.share x s = 0 := fun r₀ h₀ =>
        Refund.share_eq_zero (.inl fun h₁ => hx (h₁.symm.trans (h₀.trans of)))
      have put := Db.sumRefunds_put refund refunds x s
      rwa [other r rfl, other (flushedRefund c c' r) rfl, add_zero, add_zero] at put

end Balanced

namespace Sys

/-- Only a manual approval works on an object that it has loaded before its locks. -/
theorem occurs_result {s : Sys} {x : Label} {pid : Nat} {c r : Refund} {t : RefundStatus}
    (h : s.Occurs x (.result pid c r t)) : c = r ∨ ∃ actor y, x.cmd = .approveManualRefund actor (y, c) ∧
      (y, c) ∈ s.refundCopies ∧ c.paymentId = pid ∧ s.db.refunds.row y = some r := by
  obtain ⟨catalog, now, cmd⟩ := x
  obtain ⟨-, h⟩ := h
  have submitted : ∀ i, Submits i (.result pid c r t) → c = r := by
    rintro i ⟨r', -, ⟨t', he⟩ | he⟩
    · cases he
      rfl
    · cases he
  cases cmd with
  | prepareRefund => exact .inl (submitted _ (submits_of_prepareRefund h))
  | refundFailure => exact .inl (submitted _ (submits_of_refundFailure h))
  | refundResult => exact .inl (submitted _ (submits_of_refundResult h))
  | approveManualRefund actor copy =>
    obtain ⟨hcopy, p, r, -, refund, -, he⟩ := h
    cases he
    exact .inr ⟨actor, copy.1, rfl, hcopy, rfl, refund⟩
  | applyRefundResult =>
    obtain ⟨i, event, pid, p, x, r, -, -, -, -, -, he⟩ := h
    cases he
    exact .inl rfl
  | _ => simp [Causes] at h

/-- No manual approval commits with a copy of its refund that is still pending when the refund no longer is and the
payment has room for it once more. -/
def ApprovesFresh (s : Sys) (x : Label) : Prop := s.commitsAt x → ∀ actor y c r p,
  x.cmd = .approveManualRefund actor (y, c) → (y, c) ∈ s.refundCopies → s.db.refunds.row y = some r → s.db.payments.row c.paymentId = some p →
  c.status = .pending → r.status = .pending ∨ p.amount < p.refundedAmount + c.amount

theorem ApprovesFresh.fresh {s : Sys} {x : Label} (h : ApprovesFresh s x) (e : Effect) (he : s.Occurs x e) :
    Fresh s.db e := by
  cases e with
  | result pid c r t =>
    rcases occurs_result he with rfl | ⟨actor, y, cmd, copy, rfl, row⟩
    · exact .inl
    · intro pending
      by_cases hr : r.status = .pending
      · exact .inl hr
      · exact .inr fun p payment => (h he.1 actor y c r p cmd copy row payment pending).resolve_left hr
  | _ => trivial

/-- The refunded total of a payment is the sum of its succeeded refunds, each counted once, and together
with the pending ones it never exceeds the payment. -/
theorem refunds_add_up (l : List Label) (h : Guarded step ApprovesFresh empty l) {pid : Nat} {p : Payment}
    (row : (after l).db.payments.row pid = some p) :
    p.refundedAmount = (after l).db.sumRefunds pid .succeeded ∧
      p.refundedAmount + (after l).db.sumRefunds pid .pending ≤ p.amount := by
  have balanced : Balanced (after l).db :=
    guarded_after (fun s x hx => hx.fresh) (fun _ _ hP hl hm => hP.of_move hl hm) .empty l h
  exact balanced.sums pid p row

open Salon in
/-- A client pays by hand, and a part of the payment is to be returned by hand. -/
def manualRefund : List Label :=
  let asked := askedPayment 2 .manual 1 1
  [⟨salon .manual, 0, openWindow 10⟩, ⟨salon .manual, minutes 1, bookWindow 2 1⟩,
    ⟨salon .manual, minutes 2, .submitPayment 1 asked (.ok (pendingAnswer asked))⟩,
    ⟨salon .manual, minutes 3, .reportPaid 2 1⟩, ⟨salon .manual, minutes 4, .submitForReview 2 1 (some "receipt")⟩,
    ⟨salon .manual, minutes 5, .approveManual 1 1⟩, ⟨salon .manual, minutes 5, .consumeApproved 1 (some 1)⟩,
    ⟨salon .manual, minutes 6, .createRefund 1 .manual (refundOf 1 4000 "refund-key-0000001")⟩,
    ⟨salon .manual, minutes 7, .refundResult .manual 1 1 1 (refundAnswer .manual 1 1 .pending 4000)⟩,
    ⟨salon .manual, minutes 8, .readRefund 1⟩]

/-- The refund of `manualRefund` as it is read before its approval. -/
def waitingRefund : Refund :=
  { paymentId := 1, provider := .manual, providerRefundId := some "refund-1", idempotencyKey := "refund-key-0000001",
    amount := 4000, currency := "RUB", status := .pending, reasonCode := "requested", safeMetadata := [],
    requestedByUserId := some 1 }

/-- The approval of that refund with the object read before. -/
def approveWaiting : Label := ⟨salon .manual, minutes 9, .approveManualRefund 1 (1, waitingRefund)⟩

theorem refunds_add_up_approved : ∃ p, (after (manualRefund ++ [approveWaiting])).db.payments.row 1 = some p ∧
    p.refundedAmount = (after (manualRefund ++ [approveWaiting])).db.sumRefunds 1 .succeeded ∧
    p.refundedAmount + (after (manualRefund ++ [approveWaiting])).db.sumRefunds 1 .pending ≤ p.amount := by
  have waiting : Guarded step (fun s _ => s.db.refunds.All fun _ r => r.status = .pending) empty
      (manualRefund ++ [approveWaiting]) := by decide +kernel
  have guarded : Guarded step ApprovesFresh empty (manualRefund ++ [approveWaiting]) :=
    waiting.mono fun s x all _ actor y c r p _ _ refund _ _ => .inl (all y r refund)
  have payment : ((after (manualRefund ++ [approveWaiting])).db.payments.row 1).isSome = true := by decide +kernel
  obtain ⟨p, row⟩ := Option.isSome_iff_exists.mp payment
  exact ⟨p, row, refunds_add_up (manualRefund ++ [approveWaiting]) guarded row⟩

/-- Two members of the staff read the refund and approve it one after the other: it is counted twice. -/
theorem refund_counted_twice : ∃ p,
    (after (manualRefund ++ [approveWaiting, approveWaiting])).db.payments.row 1 = some p ∧ p.refundedAmount = 8000 ∧
    (after (manualRefund ++ [approveWaiting, approveWaiting])).db.sumRefunds 1 .succeeded = 4000 := by
  have payment : ((after (manualRefund ++ [approveWaiting, approveWaiting])).db.payments.row 1).map
      (fun p => p.refundedAmount) = some 8000 := by decide +kernel
  have refunds : (after (manualRefund ++ [approveWaiting, approveWaiting])).db.sumRefunds 1 .succeeded = 4000 := by
    decide +kernel
  obtain ⟨p, row, total⟩ := Option.map_eq_some_iff.mp payment
  exact ⟨p, row, total, refunds⟩

end Sys

end SalonBooking
