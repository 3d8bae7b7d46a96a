import SalonBooking.Broadcasts.Sending

/-!
# The plan of a broadcast

The requests that a recipient is to get, the programs that go on from a position of that plan, and what the service calls
do to a recipient: only a record of Telegram's success sets the checkpoint or marks her as SENT.
-/

namespace SalonBooking

open Lib

/-! ### The plan -/

/-- What `verdict` hands out of a broadcast and a user. -/
def deliveryOf (recipientId : Nat) (r : BroadcastRecipient) (b : Broadcast) (user : BroadcastUser)
    (media : List BroadcastMediaView) : BroadcastDelivery :=
  { recipientId, broadcastId := r.broadcastId, recipientUserId := user.id, recipientTelegramId := user.telegramId
    attempts := r.attempts, mediaCheckpointMessageId := r.telegramMessageId, text := b.text, buttonType := b.buttonType
    buttonText := b.buttonText, buttonUrl := b.buttonUrl, media }

namespace BroadcastDelivery

/-- The requests of an attempt that starts from nothing and meets no failure. -/
def requests (d : BroadcastDelivery) : List Request :=
  let markup := deliveryKeyboard d
  match d.media with
  | [] => [.message d.text markup]
  | [photo] =>
    if fitsTelegramCaption d.text then [.photo photo.telegramFileId (some d.text) markup]
    else [.photo photo.telegramFileId none none, .message d.text markup]
  | media =>
    let caption := if fitsTelegramCaption d.text then some d.text else none
    .mediaGroup (media.mapIdx fun index photo => (photo.telegramFileId, if index = 0 then caption else none)) ::
      if caption.isNone then [.message d.text markup]
      else if markup.isSome then [.message "Выберите действие:" markup] else []

/-- How many of them the media checkpoint stands for. -/
def marked (d : BroadcastDelivery) : Nat := min 1 d.media.length

theorem nodup_requests (d : BroadcastDelivery) : d.requests.Nodup := by
  unfold requests
  dsimp only
  split
  · simp
  · split <;> simp
  · split_ifs <;> simp

theorem marked_le (d : BroadcastDelivery) : d.marked ≤ d.requests.length := by
  unfold requests marked
  dsimp only
  split
  · next h => simp [h]
  · split <;> simp
  · simp only [List.length_cons]
    omega

theorem requests_congr {d e : BroadcastDelivery} (id : d.broadcastId = e.broadcastId) (text : d.text = e.text)
    (type : d.buttonType = e.buttonType) (button : d.buttonText = e.buttonText) (url : d.buttonUrl = e.buttonUrl)
    (media : d.media = e.media) : d.requests = e.requests := by
  have keyboard : deliveryKeyboard d = deliveryKeyboard e := by
    simp only [deliveryKeyboard, id, type, button, url]
  simp only [requests, keyboard, text, media]

end BroadcastDelivery

/-! ### Programs that follow a plan -/

namespace Sending

/-- The next step is a service call that records what Telegram has accepted. -/
def Records : Sending → Prop
  | checkpoint .. | returns .. => True
  | request .. | raises => False

/-- The program asks for the rest of the plan from the position `m` on; it stores a checkpoint at the position
`marked`, and it records each success at once. -/
def Follows (plan : List Request) (marked : Nat) : Nat → Sending → Prop
  | m, request q next => plan[m]? = some q ∧ ∀ id, Follows plan marked (m + 1) (next id) ∧ (next id).Records
  | m, checkpoint _ next => m = marked ∧ Follows plan marked m next
  | m, returns _ => m = plan.length
  | _, raises => True

end Sending

theorem follows_sendDelivery (d : BroadcastDelivery) :
    (sendDelivery d).Follows d.requests d.marked (if d.mediaCheckpointMessageId.isSome then d.marked else 0) := by
  by_cases long : 4096 < telegramTextLength d.text
  · simp [sendDelivery, long, Sending.Follows]
  · unfold sendDelivery BroadcastDelivery.requests BroadcastDelivery.marked
    dsimp only
    rw [if_neg long]
    cases d.media with
    | nil => simp [Sending.Follows, Sending.Records]
    | cons photo rest =>
      cases rest with
      | nil =>
        cases d.mediaCheckpointMessageId <;> by_cases fits : fitsTelegramCaption d.text <;>
          simp [fits, Sending.Follows, Sending.Records]
      | cons second rest =>
        have one : min 1 (photo :: second :: rest).length = 1 := by simp
        rw [one]
        cases d.mediaCheckpointMessageId <;> by_cases fits : fitsTelegramCaption d.text <;>
          by_cases keyboard : (deliveryKeyboard d).isSome <;> simp [fits, keyboard, Sending.Follows, Sending.Records]

/-! ### What the operations write -/

namespace BroadcastOp

def Announces (old new : Broadcast) : Prop :=
  new.text = old.text ∧ new.buttonType = old.buttonType ∧ new.buttonText = old.buttonText ∧ new.buttonUrl = old.buttonUrl

theorem Announces.refl (b : Broadcast) : Announces b b := ⟨rfl, rfl, rfl, rfl⟩

theorem Announces.trans {a b c : Broadcast} (h : Announces a b) (h' : Announces b c) : Announces a c :=
  ⟨h'.1.trans h.1, h'.2.1.trans h.2.1, h'.2.2.1.trans h.2.2.1, h'.2.2.2.trans h.2.2.2⟩

/-- A service call that records what Telegram has accepted for the recipient. -/
def Records (i : Nat) : BroadcastOp → Prop
  | markMediaSent id .. | markSent id .. => id = i
  | _ => False

/-- The call that records that all of it was accepted. -/
def Completes (i : Nat) : BroadcastOp → Prop
  | markSent id .. => id = i
  | _ => False

/-- What an operation does to a row: nothing to a recipient that is done; only a record sets the checkpoint, which none
takes back, and only the last one marks the recipient as SENT. -/
def Touches (op : BroadcastOp) : (t : BroadcastTable) → Nat → t.Row → t.Row → Prop
  | .broadcasts, _, old, new => Announces old new
  | .recipients, j, old, new =>
    new.broadcastId = old.broadcastId ∧ (old.status.isOpen = false → new = old) ∧
      (old.telegramMessageId.isSome = true → new.telegramMessageId.isSome = true) ∧
      (¬ op.Records j → new.telegramMessageId = old.telegramMessageId) ∧
      (¬ op.Completes j → new.status = .sent → old.status = .sent)

variable {service : BroadcastDeliveryService} {op : BroadcastOp} {i : Nat} {r : BroadcastRecipient}
  {c : Copies BroadcastTable.Row}

theorem touches_refl (op : BroadcastOp) : ∀ (t : BroadcastTable) (i : Nat) (a : t.Row), op.Touches t i a a
  | .broadcasts, _, a => Announces.refl a
  | .recipients, _, _ => ⟨rfl, fun _ => rfl, id, fun _ => rfl, fun _ => id⟩

theorem touches_of_open {new : BroadcastRecipient} (isOpen : r.status.isOpen = true) (id : new.broadcastId = r.broadcastId)
    (message : new.telegramMessageId = r.telegramMessageId) (unsent : new.status ≠ .sent) :
    op.Touches .recipients i r new := by
  refine ⟨id, fun closed => ?_, fun h => message ▸ h, fun _ => message, fun _ sent => absurd sent unsent⟩
  rw [isOpen] at closed
  cases closed

theorem touches_of_records {new : BroadcastRecipient} (isOpen : r.status.isOpen = true) (records : op.Records i)
    (id : new.broadcastId = r.broadcastId) (message : new.telegramMessageId.isSome = true)
    (unsent : ¬ op.Completes i → new.status ≠ .sent) : op.Touches .recipients i r new := by
  refine ⟨id, fun closed => ?_, fun _ => message, fun not => absurd records not, fun not sent => absurd sent (unsent not)⟩
  rw [isOpen] at closed
  cases closed

theorem isOpen_of_leased {worker : String} (leased : BroadcastDeliveryService.Leased worker r) : r.status.isOpen = true := by
  rw [leased.1]
  rfl

open BroadcastDeliveryService

/-- The session has loaded the recipient, and nothing that it has assigned is out of line. -/
structure Holds (c : Copies BroadcastTable.Row) (op : BroadcastOp) (i : Nat) (r : BroadcastRecipient) : Prop where
  along : Copies.Along op.Touches c
  based : ∀ x b, c .recipients i = some x → x.base = some b → b = r

theorem holds_put (r : BroadcastRecipient) :
    Holds (Copies.put Copies.empty BroadcastTable.recipients i (.ofRow true r)) op i r := by
  refine ⟨fun u j x b hx hb => ?_, fun x b hx hb => ?_⟩
  · rcases Copies.put_eq_some hx with ⟨rfl, rfl, rfl⟩ | h
    · obtain rfl := Option.some.inj hb
      exact ⟨op.touches_refl _ _ _, op.touches_refl _ _ _⟩
    · cases h
  · rw [Copies.put_self, Option.some.injEq] at hx
    subst hx
    exact (Option.some.inj hb).symm

/-- An operation on one recipient finds it not claimed, or goes on under the lease. -/
theorem writes_claimed {worker : String} {next : Option BroadcastRecipient → BroadcastTx}
    (hnone : ∀ c, (next none).Writes op.Touches c)
    (hsome : ∀ r c, Leased worker r → Holds c op i r → (next (some r)).Writes op.Touches c) :
    (claimed i worker next).Writes op.Touches Copies.empty := by
  refine Tx.writes_getForUpdate (hnone _) (fun _ h => absurd h (by simp)) fun _ r => ?_
  by_cases leased : Leased worker r
  · have found : (next (some r)).Writes op.Touches (Copies.put Copies.empty BroadcastTable.recipients i (.ofRow true r)) :=
      hsome r _ leased (holds_put r)
    simpa [Option.filter, leased] using found
  · simpa [Option.filter, leased] using hnone _

theorem writes_assign {new : BroadcastRecipient} {next : BroadcastTx} (holds : Holds c op i r)
    (touches : op.Touches .recipients i r new)
    (hnext : Copies.Along op.Touches (c.assign .recipients i new) → next.Writes op.Touches (c.assign .recipients i new)) :
    (Tx.assign .recipients i new next).Writes op.Touches c := by
  have based : ∀ x b, c .recipients i = some x → x.base = some b → op.Touches .recipients i b new :=
    fun x b hx hb => holds.based x b hx hb ▸ touches
  exact ⟨based, hnext (holds.along.assign based)⟩

theorem writes_finalize {id : Nat} {broadcast : Option Broadcast} {now : Int} {answer : BroadcastAnswer}
    (h : ∀ b ∈ broadcast, ∀ x base, c .broadcasts id = some x → x.base = some base → Announces base b) :
    (finalize id broadcast now (.commit answer)).Writes op.Touches c := by
  unfold finalize
  split
  · trivial
  · next broadcast =>
    split
    · trivial
    · intro tbl _
      dsimp only
      split
      · trivial
      · refine ⟨fun x base hx hb => ?_, trivial⟩
        exact (h broadcast rfl x base hx hb).trans ⟨rfl, rfl, rfl, rfl⟩

theorem writes_finalizeId {id : Nat} {now : Int} {answer : BroadcastAnswer} (along : Copies.Along op.Touches c) :
    (finalizeId id now (.commit answer)).Writes op.Touches c := by
  exact Tx.writes_getForUpdate_along op.touches_refl along fun _ _ _ h => writes_finalize h

theorem writes_finish {new : BroadcastRecipient} {status : BroadcastRecipientStatus} {error : Option String}
    {next : BroadcastTx} (holds : Holds c op i r) (touches : op.Touches .recipients i r (finished new status error))
    (hnext : Copies.Along op.Touches (c.assign .recipients i (finished new status error)).flush →
      next.Writes op.Touches (c.assign .recipients i (finished new status error)).flush) :
    (finish i new status error next).Writes op.Touches c :=
  writes_assign holds touches fun along => hnext along.flush

theorem writes_startAll {now : Int} {answer : BroadcastAnswer} (ids : List Nat) :
    ∀ {c}, Copies.Along op.Touches c → (startAll now ids (.commit answer)).Writes op.Touches c := by
  induction ids with
  | nil => exact fun _ => trivial
  | cons id ids ih =>
    intro c along
    refine Tx.writes_getForUpdate_along op.touches_refl along fun {c} broadcast along _ h => ?_
    split
    · exact ih along
    · next broadcast =>
      split
      · have based : ∀ x b, c .broadcasts id = some x → x.base = some b → Announces b broadcast := h broadcast rfl
        refine ⟨fun x b hx hb => ?_, ih (along.assign fun x b hx hb => ?_)⟩
        · exact (based x b hx hb).trans ⟨rfl, rfl, rfl, rfl⟩
        · exact (based x b hx hb).trans ⟨rfl, rfl, rfl, rfl⟩
      · exact ih along

theorem writes_rewriteWhere {p : BroadcastRecipient → Bool} {f : BroadcastRecipient → BroadcastRecipient}
    {next : Nat → BroadcastTx} (along : Copies.Along op.Touches c) (fresh : ∀ j, c .recipients j = none)
    (hf : ∀ j r, p r = true → op.Touches .recipients j r (f r))
    (hnext : ∀ n {c'}, Copies.Along op.Touches c' → (∀ u, u ≠ BroadcastTable.recipients → ∀ j x, c' u j = some x →
      ∃ y, c u j = some y ∧ x.base = y.base) → (next n).Writes op.Touches c') :
    (BroadcastRepository.rewriteWhere p f next).Writes op.Touches c := by
  refine Tx.writes_lock fun tbl ids _ hids => ?_
  refine Tx.writes_locked_along op.touches_refl along fresh (fun j hj r hr => ?_) fun along other => ?_
  · subst hids
    obtain ⟨⟨_, r'⟩, hmem, rfl⟩ := List.mem_map.mp hj
    obtain ⟨row, hp⟩ := Table.mem_select.mp hmem
    obtain rfl := Option.some.inj (row.symm.trans hr)
    exact hf _ _ hp
  · refine hnext _ along.flush fun u hu j x hx => ?_
    obtain ⟨y, hy, rfl⟩ := Copies.flush_eq_some.mp hx
    exact other u hu j y hy

theorem writes_markEnded {worker code : String} {status : BroadcastRecipientStatus} {now : Int} (unsent : status ≠ .sent) :
    (markEnded i worker status code now).Writes op.Touches Copies.empty := by
  unfold markEnded
  refine writes_claimed (fun _ => trivial) fun r c leased holds => ?_
  exact writes_finish holds (touches_of_open (isOpen_of_leased leased) rfl rfl unsent) writes_finalizeId

theorem writes (op : BroadcastOp) : (op.tx service).Writes op.Touches Copies.empty := by
  have empty : Copies.Along op.Touches (Copies.empty : Copies BroadcastTable.Row) := Copies.along_empty
  cases op with
  | claimDue worker limit feature now =>
    show (service.claimDue worker limit feature now).Writes _ _
    unfold BroadcastDeliveryService.claimDue
    split
    · intro tbl _ recipients ids _ sub
      refine Tx.writes_locked_along (touches_refl _) empty (fun _ => rfl) (fun j hj r hr => ?_) fun along _ => ?_
      · obtain ⟨⟨_, r'⟩, hmem, rfl⟩ := List.mem_map.mp (sub.subset hj)
        obtain ⟨row, due⟩ := Table.mem_select.mp ((List.mem_insertionSort _).mp hmem)
        obtain rfl := Option.some.inj (row.symm.trans hr)
        have isOpen : r'.status.isOpen = true := by
          simp only [BroadcastRepository.isDue, Bool.and_eq_true, Bool.or_eq_true, decide_eq_true_eq] at due
          rcases due.2 with ⟨h | h, -⟩ | ⟨h, -⟩ <;> rw [h] <;> rfl
        exact touches_of_open isOpen rfl rfl (by simp [BroadcastRepository.claimed])
      · exact writes_startAll _ along.flush
    · trivial
  | prepareDelivery i worker ctx now =>
    show (BroadcastDeliveryService.prepareDelivery i worker ctx now).Writes _ _
    unfold BroadcastDeliveryService.prepareDelivery
    refine writes_claimed (fun _ => trivial) fun r c leased holds => ?_
    refine Tx.writes_get_along (touches_refl _) holds.along fun {c'} broadcast along other h => ?_
    split
    · next status error refused =>
      have unsent : status ≠ .sent := by rcases verdict_error refused with rfl | rfl | rfl | rfl <;> simp
      have held : Holds c' (prepareDelivery i worker ctx now) i r :=
        ⟨along, fun x b hx => holds.based x b (other .recipients (by simp) ▸ hx)⟩
      refine writes_finish held (touches_of_open (isOpen_of_leased leased) rfl rfl unsent) fun along' => ?_
      refine writes_finalize fun b hb x base hx => ?_
      obtain ⟨y, hy, rfl⟩ := Copies.flush_eq_some.mp hx
      rw [Copies.assign_of_ne (by simp)] at hy
      exact h b hb y base hy
    · trivial
  | markMediaSent i worker messageId =>
    show (BroadcastDeliveryService.markMediaSent i worker messageId).Writes _ _
    unfold BroadcastDeliveryService.markMediaSent
    refine writes_claimed (fun _ => trivial) fun r c leased holds => ?_
    refine writes_assign holds (touches_of_records (isOpen_of_leased leased) rfl rfl ?_ fun _ => ?_) fun _ => trivial
    · cases (r.telegramMessageId.filter (· ≠ 0)) <;> rfl
    · simp [leased.1]
  | markSent i worker messageId now =>
    show (BroadcastDeliveryService.markSent i worker messageId now).Writes _ _
    unfold BroadcastDeliveryService.markSent
    refine writes_claimed (fun _ => trivial) fun r c leased holds => ?_
    refine writes_finish holds (touches_of_records (isOpen_of_leased leased) rfl rfl rfl fun not => ?_) writes_finalizeId
    exact absurd rfl not
  | retry i worker delay code now =>
    show (service.retry i worker delay code now).Writes _ _
    unfold BroadcastDeliveryService.retry
    refine writes_claimed (fun _ => trivial) fun r c leased holds => ?_
    dsimp only
    split
    · exact writes_finish holds (touches_of_open (isOpen_of_leased leased) rfl rfl (by simp [finished])) writes_finalizeId
    · exact writes_assign holds (touches_of_open (isOpen_of_leased leased) rfl rfl (by simp)) fun _ => trivial
  | markBlocked i worker now => exact writes_markEnded (by simp)
  | markFailed i worker code now => exact writes_markEnded (by simp)
  | cancel id now =>
    show (BroadcastService.cancel id now).Writes _ _
    unfold BroadcastService.cancel
    refine Tx.writes_getForUpdate_along (touches_refl _) empty fun {c} broadcast along other h => ?_
    split
    · trivial
    · next broadcast =>
      split
      · trivial
      · refine writes_rewriteWhere along (fun j => ?_) (fun j r hp => ?_) fun n {c'} along' known => ?_
        · rw [other .recipients (by simp)]
          rfl
        · simp only [Bool.and_eq_true] at hp
          exact touches_of_open hp.2 rfl rfl (by simp [BroadcastRepository.skipped])
        · refine ⟨fun x base hx hb => ?_, trivial⟩
          obtain ⟨y, hy, same⟩ := known .broadcasts (by simp) id x hx
          exact (h broadcast rfl y base hy (same ▸ hb)).trans ⟨rfl, rfl, rfl, rfl⟩
  | anonymize userId =>
    show (PrivacyRepository.anonymizeRecipients userId _).Writes _ _
    refine writes_rewriteWhere empty (fun _ => rfl) (fun j r hp => ?_) fun _ _ _ _ => trivial
    simp only [Bool.and_eq_true] at hp
    exact touches_of_open hp.2 rfl rfl (by simp [PrivacyRepository.unsubscribed])

end BroadcastOp

/-! ### Service calls -/

section Serve

open BroadcastDeliveryService BroadcastOp Delivering

variable {service : BroadcastDeliveryService} {store : (t : BroadcastTable) → Table t.Row} {op : BroadcastOp} {i : Nat}
  {r : BroadcastRecipient} {worker : String} {messageId now : Int}

theorem serve_row (service : BroadcastDeliveryService) (op : BroadcastOp) {t : BroadcastTable} {old : t.Row}
    (row : (store t).row i = some old) :
    ∃ new, ((serve service store op).1 t).row i = some new ∧ op.Touches t i old new :=
  Tx.outcome_along op.touches_refl View.solo_start Copies.along_empty (BroadcastOp.writes op) row

/-- A program on one recipient that runs alone goes on with the row if the worker has it leased. -/
theorem outcome_claimed {next : Option BroadcastRecipient → BroadcastTx} :
    (claimed i worker next).outcome (View.start store) =
      (next (((store .recipients).row i).filter fun r => Leased worker r)).outcome
        ((View.start store).load true .recipients (((View.start store).sees .recipients).only i)) :=
  Tx.outcome_getForUpdate rfl rfl

theorem verdict_ok {ctx : BroadcastContext} {broadcast : Option Broadcast} {d : BroadcastDelivery}
    (h : verdict ctx broadcast i r = .ok d) : ∃ b user, broadcast = some b ∧ d = deliveryOf i r b user ctx.media := by
  unfold verdict at h
  split_ifs at h
  cases broadcast with
  | none => cases h
  | some b =>
    cases found : ctx.user with
    | none =>
      rw [found] at h
      cases h
    | some user =>
      rw [found] at h
      dsimp only at h
      split_ifs at h
      exact ⟨b, user, rfl, (Except.ok.inj h).symm⟩

theorem finalize_answers {id : Nat} {broadcast : Option Broadcast} {answer : BroadcastAnswer} {v : View BroadcastTable.Row} :
    ((finalize id broadcast now (.commit answer)).outcome v).2 = answer := by
  unfold finalize
  split
  · rfl
  · split
    · rfl
    · unfold BroadcastRepository.statusCounts
      simp only [Tx.outcome]
      split <;> rfl

/-- A delivery that is handed out is one of the broadcast, and nothing is written. -/
theorem prepared_delivery {ctx : BroadcastContext} {d : BroadcastDelivery}
    (h : (serve service store (.prepareDelivery i worker ctx now)).2 = .delivery (some d)) :
    (serve service store (.prepareDelivery i worker ctx now)).1 = store ∧
      ∃ r b user, (store .recipients).row i = some r ∧ Leased worker r ∧
        (store .broadcasts).row r.broadcastId = some b ∧ d = deliveryOf i r b user ctx.media := by
  have served : serve service store (.prepareDelivery i worker ctx now) =
      (BroadcastDeliveryService.prepareDelivery i worker ctx now).outcome (View.start store) := rfl
  unfold BroadcastDeliveryService.prepareDelivery at served
  rw [outcome_claimed] at served
  cases found : ((store .recipients).row i).filter fun r => Leased worker r with
  | none =>
    rw [served, found] at h
    cases h
  | some r =>
    obtain ⟨row, leased⟩ := Option.filter_eq_some_iff.mp found
    rw [found] at served
    dsimp only at served
    rw [Tx.outcome_get rfl rfl] at served
    cases refused : verdict ctx ((store .broadcasts).row r.broadcastId) i r with
    | error e =>
      obtain ⟨status, error⟩ := e
      have refused' : verdict ctx (((View.start store).load true .recipients
          (((View.start store).sees .recipients).only i)).store .broadcasts |>.row r.broadcastId) i r = .error (status, error) := refused
      rw [served, refused'] at h
      have answers := finalize_answers.symm.trans h
      cases answers
    | ok d' =>
      have accepted : verdict ctx (((View.start store).load true .recipients
          (((View.start store).sees .recipients).only i)).store .broadcasts |>.row r.broadcastId) i r = .ok d' := refused
      rw [served, accepted] at h
      obtain ⟨b, user, broadcast, rfl⟩ := verdict_ok refused
      obtain rfl : deliveryOf i r b user ctx.media = d := Option.some.inj (BroadcastAnswer.delivery.inj h)
      rw [served, accepted]
      exact ⟨rfl, r, b, user, row, by simpa using leased, broadcast, rfl⟩

theorem holds_leased (row : (store .recipients).row i = some r) :
    ((View.start store).load true .recipients (((View.start store).sees .recipients).only i)).Holds .recipients i r r := by
  have seen : ((View.start store).sees .recipients).row i = some r := by rwa [View.sees_row rfl]
  exact View.holds_load View.clean_start rfl (by simp [Table.only, seen]) seen

theorem markMediaSent_leased (row : (store .recipients).row i = some r) (leased : Leased worker r) :
    (serve service store (.markMediaSent i worker messageId)).2 = .changed true ∧
      ∃ new, ((serve service store (.markMediaSent i worker messageId)).1 .recipients).row i = some new ∧
        new.telegramMessageId.isSome = true := by
  have holds := (holds_leased row).assign_self
    { r with telegramMessageId := (r.telegramMessageId.filter (· ≠ 0)).orElse fun _ => some messageId }
  have found : ((store .recipients).row i).filter (fun r => Leased worker r) = some r := by
    simp [row, Option.filter, leased]
  have served : serve service store (.markMediaSent i worker messageId) =
      (BroadcastDeliveryService.markMediaSent i worker messageId).outcome (View.start store) := rfl
  unfold BroadcastDeliveryService.markMediaSent at served
  rw [outcome_claimed, found] at served
  rw [served]
  refine ⟨rfl, _, holds.flush.committed.1, ?_⟩
  cases (r.telegramMessageId.filter (· ≠ 0)) <;> rfl

theorem finalizeId_keeps {v : View BroadcastTable.Row} {old new : BroadcastRecipient} {id : Nat} {answer : BroadcastAnswer}
    (holds : v.Holds .recipients i old new) :
    (((finalizeId id now (.commit answer)).outcome v).1 .recipients).row i = some new := by
  unfold finalizeId
  show (((Tx.outcome _ (finalize id _ now (.commit answer))).1 .recipients).row i) = _
  unfold finalize
  have loaded := holds.load true .broadcasts ((v.sees .broadcasts).only id)
  split
  · exact loaded.committed.1
  · split
    · exact loaded.committed.1
    · unfold BroadcastRepository.statusCounts
      simp only [Tx.outcome]
      split
      · exact loaded.committed.1
      · exact (loaded.assign (show BroadcastTable.broadcasts ≠ .recipients by simp) _).committed.1

theorem markSent_leased (row : (store .recipients).row i = some r) (leased : Leased worker r) :
    ∃ new, ((serve service store (.markSent i worker messageId now)).1 .recipients).row i = some new ∧ new.status = .sent := by
  have holds := (holds_leased row).assign_self
    (finished { r with sentAt := some now, telegramMessageId := some messageId } .sent none)
  have found : ((store .recipients).row i).filter (fun r => Leased worker r) = some r := by
    simp [row, Option.filter, leased]
  have served : serve service store (.markSent i worker messageId now) =
      (BroadcastDeliveryService.markSent i worker messageId now).outcome (View.start store) := rfl
  unfold BroadcastDeliveryService.markSent at served
  rw [outcome_claimed, found] at served
  rw [served]
  exact ⟨_, finalizeId_keeps holds.flush, rfl⟩

end Serve

end SalonBooking
