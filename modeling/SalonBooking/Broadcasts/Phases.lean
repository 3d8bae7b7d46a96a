import SalonBooking.Broadcasts.Plan

/-!
# What a recipient is sent

However many processes attempt a recipient, and wherever their attempts end, nothing is asked for before what comes first
in the plan was delivered, and a recipient is SENT only after all of it was. Where no attempt ends between Telegram's
success and its record, nothing is delivered twice.
-/

namespace SalonBooking

open Lib

/-! ### Every run -/

/-- Nothing is delivered before what comes first in the plan. -/
def FollowsPlan (plan delivered : List Request) : Prop :=
  ∀ before q after, delivered = before ++ q :: after → ∃ first rest, plan = first ++ q :: rest ∧ ∀ p ∈ first, p ∈ before

theorem FollowsPlan.deliver {plan delivered : List Request} {q : Request} {m : Nat} (h : FollowsPlan plan delivered)
    (here : plan[m]? = some q) (first : ∀ p ∈ plan.take m, p ∈ delivered) : FollowsPlan plan (delivered ++ [q]) := by
  intro before p after split
  rcases List.eq_nil_or_concat after with rfl | ⟨init, last, rfl⟩
  · obtain ⟨rfl, same⟩ := List.append_inj' split rfl
    obtain ⟨rfl, -⟩ := List.cons.inj same
    obtain ⟨hm, rfl⟩ := List.getElem?_eq_some_iff.mp here
    refine ⟨plan.take m, plan.drop (m + 1), ?_, first⟩
    rw [List.getElem_cons_drop, List.take_append_drop]
  · rw [List.concat_eq_append, ← List.cons_append, ← List.append_assoc] at split
    obtain ⟨rfl, -⟩ := List.append_inj' split rfl
    exact h before p init rfl

/-- A recipient and the broadcast as they are stored at first, a user and the photos. -/
structure Scene where
  recipientId : Nat
  recipient : BroadcastRecipient
  broadcast : Broadcast
  user : BroadcastUser
  media : List BroadcastMediaView

namespace Scene

variable (c : Scene)

def plan : List Request := (deliveryOf c.recipientId c.recipient c.broadcast c.user c.media).requests

/-- How many requests of the plan the media checkpoint stands for. -/
def marked : Nat := (deliveryOf c.recipientId c.recipient c.broadcast c.user c.media).marked

theorem plan_eq {r : BroadcastRecipient} {b : Broadcast} (same : r.broadcastId = c.recipient.broadcastId)
    (announces : BroadcastOp.Announces c.broadcast b) (user : BroadcastUser) :
    (deliveryOf c.recipientId r b user c.media).requests = c.plan :=
  BroadcastDelivery.requests_congr same announces.1 announces.2.1 announces.2.2.1 announces.2.2.2 rfl

theorem marked_le : c.marked ≤ c.plan.length := BroadcastDelivery.marked_le _

theorem nodup_plan : c.plan.Nodup := BroadcastDelivery.nodup_requests _

end Scene

namespace Delivering

open BroadcastOp

/-- The tables belong to the broadcast, every checkpoint and every SENT stands for what was delivered, and every attempt
goes on from there. -/
structure Agrees (c : Scene) (s : Delivering) : Prop where
  broadcast : ∃ b, (s.store .broadcasts).row c.recipient.broadcastId = some b ∧ Announces c.broadcast b
  recipient : ∃ r, (s.store .recipients).row c.recipientId = some r ∧ r.broadcastId = c.recipient.broadcastId ∧
    (r.telegramMessageId.isSome = true → ∀ q ∈ c.plan.take c.marked, q ∈ s.delivered) ∧
    (r.status = .sent → ∀ q ∈ c.plan, q ∈ s.delivered)
  attempts : ∀ k a p, s.attempts k = some a → a.rest = .sending p →
    ∃ m, p.Follows c.plan c.marked m ∧ ∀ q ∈ c.plan.take m, q ∈ s.delivered
  order : FollowsPlan c.plan s.delivered

namespace Agrees

variable {c : Scene} {s : Delivering} {k : Nat} {q : Request}

theorem serve (service : BroadcastDeliveryService) (op : BroadcastOp) (h : s.Agrees c)
    (records : op.Records c.recipientId → ∀ q ∈ c.plan.take c.marked, q ∈ s.delivered)
    (completes : op.Completes c.recipientId → ∀ q ∈ c.plan, q ∈ s.delivered) :
    Agrees c { s with store := (Delivering.serve service s.store op).1 } := by
  obtain ⟨b, hb, announces⟩ := h.broadcast
  obtain ⟨b', hb', announces'⟩ := serve_row service op hb
  obtain ⟨r, hr, same, stored, sent⟩ := h.recipient
  obtain ⟨r', hr', same', -, -, message, status⟩ := serve_row service op hr
  refine ⟨⟨b', hb', announces.trans announces'⟩, ⟨r', hr', same'.trans same, fun h => ?_, fun h => ?_⟩, h.attempts, h.order⟩
  · by_cases hop : op.Records c.recipientId
    · exact records hop
    · exact stored (message hop ▸ h)
  · by_cases hop : op.Completes c.recipientId
    · exact completes hop
    · exact sent (status hop h)

theorem setAttempt (h : s.Agrees c) (attempt : Option Attempt)
    (follows : ∀ a p, attempt = some a → a.rest = .sending p →
      ∃ m, p.Follows c.plan c.marked m ∧ ∀ q ∈ c.plan.take m, q ∈ s.delivered) : Agrees c (s.setAttempt k attempt) := by
  refine ⟨h.broadcast, h.recipient, fun j a p hj rest => ?_, h.order⟩
  by_cases hk : j = k
  · subst hk
    exact follows a p (by simpa [Delivering.setAttempt] using hj) rest
  · exact h.attempts j a p (by simpa [Delivering.setAttempt, hk] using hj) rest

theorem deliver {m : Nat} (h : s.Agrees c) (here : c.plan[m]? = some q) (first : ∀ p ∈ c.plan.take m, p ∈ s.delivered) :
    Agrees c { s with delivered := s.delivered ++ [q] } := by
  have more : ∀ {p}, p ∈ s.delivered → p ∈ s.delivered ++ [q] := List.mem_append_left _
  obtain ⟨r, hr, same, stored, sent⟩ := h.recipient
  refine ⟨h.broadcast, ⟨r, hr, same, fun h p hp => more (stored h p hp), fun h p hp => more (sent h p hp)⟩,
    fun j a p hj rest => ?_, h.order.deliver here first⟩
  obtain ⟨m, follows, known⟩ := h.attempts j a p hj rest
  exact ⟨m, follows, fun p hp => more (known p hp)⟩

end Agrees

theorem not_records_of_foreign {op : BroadcastOp} {i : Nat} (h : op.Foreign i) : ¬ op.Records i := by
  cases op <;> first | exact h | exact id

theorem not_completes_of_not_records {op : BroadcastOp} {i : Nat} (h : ¬ op.Records i) : ¬ op.Completes i := by
  cases op <;> first | exact h | exact id

theorem Agrees.step {c : Scene} {s : Delivering} {service : BroadcastDeliveryService} (h : s.Agrees c) (e : DeliveryEvent) :
    (s.step service c.recipientId c.media e).Agrees c := by
  cases e with
  | other op =>
    simp only [Delivering.step]
    split
    · next foreign =>
      have quiet := not_records_of_foreign foreign
      exact h.serve service _ (absurd · quiet) (absurd · (not_completes_of_not_records quiet))
    · exact h
  | prepare k worker feature user now =>
    simp only [Delivering.step]
    split
    · exact h
    · unfold prepared
      split
      · next store d served =>
        obtain ⟨same, r, b, user, row, leased, broadcast, rfl⟩ := prepared_delivery (congrArg Prod.snd served)
        obtain rfl : s.store = store := same.symm.trans (congrArg Prod.fst served)
        obtain ⟨r', row', sameId, stored, -⟩ := h.recipient
        obtain rfl := Option.some.inj (row.symm.trans row')
        obtain ⟨b', broadcast', announces⟩ := h.broadcast
        rw [sameId, broadcast', Option.some.injEq] at broadcast
        subst broadcast
        refine h.setAttempt _ fun a p ha rest => ?_
        obtain rfl := Option.some.inj ha
        obtain rfl := Processing.sending.inj rest
        have follows := follows_sendDelivery (deliveryOf c.recipientId r b' user c.media)
        rw [c.plan_eq sameId announces] at follows
        refine ⟨_, follows, fun q hq => ?_⟩
        change q ∈ c.plan.take (if r.telegramMessageId.isSome = true then c.marked else 0) at hq
        by_cases checkpoint : r.telegramMessageId.isSome = true
        · rw [if_pos checkpoint] at hq
          exact stored checkpoint q hq
        · rw [if_neg checkpoint] at hq
          simp at hq
      · next store answer _ served =>
        obtain rfl : (Delivering.serve service s.store
          (.prepareDelivery c.recipientId worker ⟨feature, user, c.media⟩ now)).1 = store := congrArg Prod.fst served
        exact h.serve service _ False.elim False.elim
  | telegram k result =>
    simp only [Delivering.step]
    cases found : s.attempts k with
    | none => exact h
    | some a =>
      show (s.answered k a result).Agrees c
      unfold answered
      split
      · next q next id rest =>
        obtain ⟨m, ⟨here, follows⟩, known⟩ := h.attempts k a _ found rest
        refine (h.deliver here known).setAttempt _ fun a' p ha rest' => ⟨m + 1, ?_, fun q' hq' => ?_⟩
        · obtain rfl := Option.some.inj ha
          obtain rfl := Processing.sending.inj rest'
          exact (follows id).1
        · rw [List.take_add_one, here] at hq'
          exact (List.mem_append.mp hq').elim (fun h => List.mem_append_left _ (known q' h)) fun h => List.mem_append_right _ h
      · refine h.setAttempt _ fun a' p ha rest' => ?_
        obtain rfl := Option.some.inj ha
        cases rest'
      · exact h
  | call k now =>
    simp only [Delivering.step]
    cases found : s.attempts k with
    | none => exact h
    | some a =>
      have reports : ∀ {s' : Delivering} {failure : Failure}, s'.Agrees c →
          (s'.setAttempt k (some { a with rest := .reporting failure })).Agrees c := fun h' =>
        h'.setAttempt _ fun a' p ha rest' => by
          obtain rfl := Option.some.inj ha
          cases rest'
      show (s.proceed service c.recipientId k a now).Agrees c
      unfold proceed
      split
      · exact h
      · next id next rest =>
        obtain ⟨m, ⟨rfl, follows⟩, known⟩ := h.attempts k a _ found rest
        have stored := h.serve service (.markMediaSent c.recipientId a.worker id) (fun _ => known) False.elim
        dsimp only
        split
        · refine stored.setAttempt _ fun a' p ha rest' => ?_
          obtain rfl := Option.some.inj ha
          obtain rfl := Processing.sending.inj rest'
          exact ⟨_, follows, known⟩
        · exact reports stored
      · next id rest =>
        obtain ⟨m, hm, known⟩ := h.attempts k a _ found rest
        have whole : ∀ q ∈ c.plan, q ∈ s.delivered := fun q hq => known q (by
          rw [show m = c.plan.length from hm, List.take_length]
          exact hq)
        exact (h.serve service _ (fun _ q hq => whole q (List.mem_of_mem_take hq)) fun _ => whole).setAttempt _ (by simp)
      · exact reports h
      · next failure rest =>
        have quiet : ¬ (failure.report c.recipientId a.worker a.attempts now).Records c.recipientId := by
          cases failure <;> exact id
        exact (h.serve service _ (absurd · quiet) (absurd · (not_completes_of_not_records quiet))).setAttempt _ (by simp)
  | crash k => exact h.setAttempt _ (by simp)

end Delivering

/-! ### Attempts one after the other -/

/-- How many requests of the plan the stored recipient stands for: all of them when it is done. -/
def Scene.recorded (c : Scene) (r : BroadcastRecipient) : Nat :=
  if r.status.isOpen then if r.telegramMessageId.isSome then c.marked else 0 else c.plan.length

namespace Delivering

open BroadcastOp

/-- Telegram has accepted more than the stored recipient stands for. -/
def Unrecorded (c : Scene) (s : Delivering) : Prop :=
  ((s.store .recipients).row c.recipientId).any (fun r => c.recorded r < s.delivered.length) = true

instance (c : Scene) (s : Delivering) : Decidable (s.Unrecorded c) := inferInstanceAs (Decidable (_ = true))

/-- The recipient is leased by the worker of the attempt. -/
def HasLease (c : Scene) (s : Delivering) (a : Attempt) : Prop :=
  ((s.store .recipients).row c.recipientId).any (fun r => BroadcastDeliveryService.Leased a.worker r) = true

instance (c : Scene) (s : Delivering) (a : Attempt) : Decidable (s.HasLease c a) := inferInstanceAs (Decidable (_ = true))

/-- The attempts follow one another, in one process at a time, and what Telegram has accepted is recorded before an
attempt ends: it is not gone before its record, nor has it lost the lease when it makes it. -/
def Spares (c : Scene) (process : Nat) (s : Delivering) : DeliveryEvent → Prop
  | .other _ => True
  | .prepare k .. | .telegram k _ => k = process
  | .call k _ => k = process ∧ (s.Unrecorded c → (s.attempts k).all (fun a => s.HasLease c a) = true)
  | .crash k => k = process ∧ ¬ s.Unrecorded c

instance (c : Scene) (process : Nat) (s : Delivering) : (e : DeliveryEvent) → Decidable (s.Spares c process e)
  | .other _ => inferInstanceAs (Decidable True)
  | .prepare .. | .telegram .. => inferInstanceAs (Decidable (_ = _))
  | .call .. | .crash .. => inferInstanceAs (Decidable (_ ∧ _))

variable {c : Scene} {s : Delivering} {service : BroadcastDeliveryService} {op : BroadcastOp} {k : Nat}
  {r : BroadcastRecipient}

theorem unrecorded_iff (row : (s.store .recipients).row c.recipientId = some r) :
    s.Unrecorded c ↔ c.recorded r < s.delivered.length := by
  simp [Unrecorded, row]

theorem recorded_le {new : BroadcastRecipient} {i : Nat} (touches : op.Touches .recipients i r new) :
    c.recorded r ≤ c.recorded new := by
  obtain ⟨-, closed, stored, -, -⟩ := touches
  have := c.marked_le
  unfold Scene.recorded
  by_cases isOpen : r.status.isOpen = true
  · rw [if_pos isOpen]
    by_cases checkpoint : r.telegramMessageId.isSome = true
    · rw [if_pos checkpoint, if_pos (stored checkpoint)]
      split_ifs <;> omega
    · rw [if_neg checkpoint]
      omega
  · rw [closed (by simpa using isOpen)]

theorem Agrees.unrecorded_serve (h : s.Agrees c)
    (left : Unrecorded c { s with store := (Delivering.serve service s.store op).1 }) : s.Unrecorded c := by
  obtain ⟨r, row, -⟩ := h.recipient
  obtain ⟨r', row', touches⟩ := serve_row service op row
  rw [unrecorded_iff row]
  rw [unrecorded_iff row'] at left
  exact (recorded_le touches).trans_lt left

/-- The attempts follow one another: nothing is delivered twice, and what is not recorded the attempt under way records
next. -/
structure Once (c : Scene) (process : Nat) (s : Delivering) : Prop where
  alone : ∀ k, k ≠ process → s.attempts k = none
  begins : s.delivered <+: c.plan
  idle : s.attempts process = none → ¬ s.Unrecorded c
  sending : ∀ a p, s.attempts process = some a → a.rest = .sending p →
    p.Follows c.plan c.marked s.delivered.length ∧ (s.Unrecorded c → p.Records)
  reporting : ∀ a failure, s.attempts process = some a → a.rest = .reporting failure → ¬ s.Unrecorded c

theorem Once.setAttempt {attempt : Option Attempt} (alone : ∀ j, j ≠ k → s.attempts j = none) (begins : s.delivered <+: c.plan)
    (idle : attempt = none → ¬ s.Unrecorded c)
    (sending : ∀ a p, attempt = some a → a.rest = .sending p →
      p.Follows c.plan c.marked s.delivered.length ∧ (s.Unrecorded c → p.Records))
    (reporting : ∀ a failure, attempt = some a → a.rest = .reporting failure → ¬ s.Unrecorded c) :
    Once c k (s.setAttempt k attempt) := by
  have here : (s.setAttempt k attempt).attempts k = attempt := Function.update_self ..
  refine ⟨fun j hj => ?_, begins, fun none => idle (here.symm.trans none), fun a p ha => sending a p (here.symm.trans ha),
    fun a failure ha => reporting a failure (here.symm.trans ha)⟩
  exact (Function.update_of_ne hj ..).trans (alone j hj)

theorem Once.ends (alone : ∀ j, j ≠ k → s.attempts j = none) (begins : s.delivered <+: c.plan) (done : ¬ s.Unrecorded c) :
    Once c k (s.setAttempt k none) :=
  .setAttempt alone begins (fun _ => done) (fun _ _ h => by cases h) fun _ _ h => by cases h

theorem Once.fails {a : Attempt} {failure : Failure} (alone : ∀ j, j ≠ k → s.attempts j = none)
    (begins : s.delivered <+: c.plan) (done : ¬ s.Unrecorded c) :
    Once c k (s.setAttempt k (some { a with rest := .reporting failure })) := by
  refine .setAttempt alone begins (fun h => by cases h) (fun a' p ha rest => ?_) fun _ _ _ _ => done
  obtain rfl := Option.some.inj ha
  cases rest

theorem marked_le_of_delivered (known : ∀ q ∈ c.plan.take c.marked, q ∈ s.delivered) :
    c.marked ≤ s.delivered.length := by
  have sub := (c.nodup_plan.sublist (List.take_sublist c.marked c.plan)).subperm known
  have := sub.length_le
  rw [List.length_take] at this
  have := c.marked_le
  omega

theorem Once.step {e : DeliveryEvent} (agrees : s.Agrees c) (h : s.Once c k) (spares : s.Spares c k e) :
    (s.step service c.recipientId c.media e).Once c k := by
  obtain ⟨r, row, sameId, stored, -⟩ := agrees.recipient
  cases e with
  | other op =>
    simp only [Delivering.step]
    split
    · refine ⟨h.alone, h.begins, fun none left => h.idle none (agrees.unrecorded_serve left), fun a p ha rest => ?_,
        fun a failure ha rest left => h.reporting a failure ha rest (agrees.unrecorded_serve left)⟩
      obtain ⟨follows, records⟩ := h.sending a p ha rest
      exact ⟨follows, fun left => records (agrees.unrecorded_serve left)⟩
    · exact h
  | prepare k worker feature user now =>
    obtain rfl : k = _ := spares
    simp only [Delivering.step]
    split
    · exact h
    · next free =>
      have none : s.attempts k = none := by simpa using free
      unfold prepared
      split
      · next store d served =>
        obtain ⟨same, r', b, user, row', leased, broadcast, rfl⟩ := prepared_delivery (congrArg Prod.snd served)
        obtain rfl : s.store = store := same.symm.trans (congrArg Prod.fst served)
        obtain rfl := Option.some.inj (row.symm.trans row')
        obtain ⟨b', broadcast', announces⟩ := agrees.broadcast
        rw [sameId, broadcast', Option.some.injEq] at broadcast
        subst broadcast
        have recorded : ¬ s.Unrecorded c := h.idle none
        refine .setAttempt h.alone h.begins (fun h => by cases h) (fun a p ha rest => ?_) fun a failure ha rest => ?_
        · obtain rfl := Option.some.inj ha
          obtain rfl := Processing.sending.inj rest
          refine ⟨?_, fun left => absurd left recorded⟩
          have follows := follows_sendDelivery (deliveryOf c.recipientId r b' user c.media)
          rw [c.plan_eq sameId announces] at follows
          change (sendDelivery _).Follows c.plan c.marked (if r.telegramMessageId.isSome = true then c.marked else 0) at follows
          rw [unrecorded_iff row, Scene.recorded, if_pos (isOpen_of_leased leased)] at recorded
          have length : s.delivered.length = if r.telegramMessageId.isSome = true then c.marked else 0 := by
            by_cases checkpoint : r.telegramMessageId.isSome = true
            · have := marked_le_of_delivered (stored checkpoint)
              rw [if_pos checkpoint] at recorded ⊢
              omega
            · rw [if_neg checkpoint] at recorded ⊢
              omega
          rw [length]
          exact follows
        · obtain rfl := Option.some.inj ha
          cases rest
      · next store answer _ served =>
        obtain rfl : (Delivering.serve service s.store
          (.prepareDelivery c.recipientId worker ⟨feature, user, c.media⟩ now)).1 = store := congrArg Prod.fst served
        refine ⟨h.alone, h.begins, fun none left => h.idle none (agrees.unrecorded_serve left), fun a p ha => ?_,
          fun a failure ha => ?_⟩
        · rw [none] at ha
          cases ha
        · rw [none] at ha
          cases ha
  | telegram k result =>
    obtain rfl : k = _ := spares
    simp only [Delivering.step]
    cases found : s.attempts k with
    | none => exact h
    | some a =>
      show (s.answered k a result).Once c k
      unfold answered
      split
      · next q next id rest =>
        obtain ⟨⟨here, follows⟩, records⟩ := h.sending a _ found rest
        refine .setAttempt h.alone ?_ (fun h => by cases h) (fun a' p ha rest' => ?_) fun a' failure ha rest' => ?_
        · have next := List.take_prefix (s.delivered.length + 1) c.plan
          rwa [List.take_add_one, here, ← List.prefix_iff_eq_take.mp h.begins] at next
        · obtain rfl := Option.some.inj ha
          obtain rfl := Processing.sending.inj rest'
          rw [List.length_append]
          exact ⟨(follows id).1, fun _ => (follows id).2⟩
        · obtain rfl := Option.some.inj ha
          cases rest'
      · next q next failure rest =>
        exact .fails h.alone h.begins fun left => (h.sending a _ found rest).2 left
      · exact h
  | call k now =>
    obtain ⟨rfl, lease⟩ := spares
    simp only [Delivering.step]
    cases found : s.attempts k with
    | none => exact h
    | some a =>
      have hasLease : (s.attempts k).all (fun a => s.HasLease c a) = true → BroadcastDeliveryService.Leased a.worker r := by
        simp [found, HasLease, row]
      show (s.proceed service c.recipientId k a now).Once c k
      unfold proceed
      split
      · exact h
      · next id next rest =>
        obtain ⟨⟨marked, follows⟩, -⟩ := h.sending a _ found rest
        have recorded : ¬ Unrecorded c
            { s with store := (Delivering.serve service s.store (.markMediaSent c.recipientId a.worker id)).1 } := by
          intro left
          have leased := hasLease (lease (agrees.unrecorded_serve left))
          obtain ⟨-, new, row', checkpoint⟩ := markMediaSent_leased row leased
          rw [unrecorded_iff row', Scene.recorded, if_pos checkpoint] at left
          have := c.marked_le
          dsimp only at left
          split_ifs at left <;> omega
        dsimp only
        split
        · refine .setAttempt h.alone h.begins (fun h => by cases h) (fun a' p ha rest' => ?_) fun a' failure ha rest' => ?_
          · obtain rfl := Option.some.inj ha
            obtain rfl := Processing.sending.inj rest'
            exact ⟨follows, fun left => absurd left recorded⟩
          · obtain rfl := Option.some.inj ha
            cases rest'
        · exact .fails h.alone h.begins recorded
      · next id rest =>
        refine .ends h.alone h.begins fun left => ?_
        have leased := hasLease (lease (agrees.unrecorded_serve left))
        obtain ⟨new, row', sent⟩ := markSent_leased row leased
        rw [unrecorded_iff row', Scene.recorded, sent, if_neg (by simp [BroadcastRecipientStatus.isOpen])] at left
        have := h.begins.length_le
        dsimp only at left
        omega
      · next rest =>
        exact .fails h.alone h.begins fun left => (h.sending a _ found rest).2 left
      · next failure rest =>
        exact .ends h.alone h.begins fun left => h.reporting a failure found rest (agrees.unrecorded_serve left)
  | crash k =>
    obtain ⟨rfl, recorded⟩ := spares
    exact .ends h.alone h.begins recorded

end Delivering

/-! ### Runs -/

/-- The recipient is stored with nothing delivered to her. -/
structure Scene.Fresh (c : Scene) (store : (t : BroadcastTable) → Table t.Row) : Prop where
  recipient : (store .recipients).row c.recipientId = some c.recipient
  broadcast : (store .broadcasts).row c.recipient.broadcastId = some c.broadcast
  unsent : c.recipient.status ≠ .sent
  unmarked : c.recipient.telegramMessageId = none

namespace Delivering

def start (store : (t : BroadcastTable) → Table t.Row) : Delivering := ⟨store, fun _ => none, []⟩

def after (service : BroadcastDeliveryService) (c : Scene) (store : (t : BroadcastTable) → Table t.Row)
    (events : List DeliveryEvent) : Delivering :=
  run (step service c.recipientId c.media) (start store) events

variable {c : Scene} {store : (t : BroadcastTable) → Table t.Row}

theorem agrees_start (fresh : c.Fresh store) : (start store).Agrees c := by
  refine ⟨⟨c.broadcast, fresh.broadcast, .refl _⟩, ⟨c.recipient, fresh.recipient, rfl, fun h => ?_, fun h => ?_⟩,
    (fun k a p h => by cases h), fun before q after split => ?_⟩
  · rw [fresh.unmarked] at h
    cases h
  · exact absurd h fresh.unsent
  · simp [start] at split

theorem once_start (k : Nat) : (start store).Once c k := by
  refine ⟨fun _ _ => rfl, List.nil_prefix, fun _ => ?_, (fun a p h => by cases h), fun a f h => by cases h⟩
  unfold Unrecorded
  cases (store .recipients).row c.recipientId <;> simp [start]

/-- **Whatever attempts there are for a recipient, at once or one after the other, and wherever they end, no request is
delivered before those that come first in the plan, and a recipient that is SENT got all of them.** -/
theorem delivered_in_order (service : BroadcastDeliveryService) (c : Scene) (store : (t : BroadcastTable) → Table t.Row)
    (fresh : c.Fresh store) (events : List DeliveryEvent) :
    FollowsPlan c.plan (after service c store events).delivered ∧
      ∀ r, ((after service c store events).store .recipients).row c.recipientId = some r → r.status = .sent →
        ∀ q ∈ c.plan, q ∈ (after service c store events).delivered := by
  have agrees : (after service c store events).Agrees c :=
    run_invariant (P := Agrees c) (fun s e h => h.step e) (agrees_start fresh) events
  obtain ⟨r, row, -, -, sent⟩ := agrees.recipient
  refine ⟨agrees.order, fun r' row' => ?_⟩
  obtain rfl := Option.some.inj (row.symm.trans row')
  exact sent

/-- **Where the attempts follow one another and none ends, or loses the lease, between Telegram's success and its
record, the recipient gets the requests of the plan from the first on, each at most once.** -/
theorem delivered_once (service : BroadcastDeliveryService) (c : Scene) (store : (t : BroadcastTable) → Table t.Row)
    (fresh : c.Fresh store) (process : Nat) (events : List DeliveryEvent)
    (spares : Guarded (step service c.recipientId c.media) (Spares c process) (start store) events) :
    (after service c store events).delivered <+: c.plan ∧ (after service c store events).delivered.Nodup := by
  have once : (after service c store events).Agrees c ∧ (after service c store events).Once c process :=
    run_induction (P := fun s => s.Agrees c ∧ s.Once c process) (fun s e h hs => ⟨h.1.step e, h.2.step h.1 hs⟩)
      ⟨agrees_start fresh, once_start process⟩ events spares
  exact ⟨once.2.begins, c.nodup_plan.sublist once.2.begins.sublist⟩

/-- Two photos and a button, for one recipient of a scheduled broadcast. -/
def album : Scene where
  recipientId := 1
  recipient := { broadcastId := 1, userId := 1, scheduledAt := 0, availableAt := 0 }
  broadcast := { text := "Hello", status := .scheduled, scheduledAt := some 0, buttonType := .book }
  user := ⟨1, 100, false, some 0, none⟩
  media := [⟨"front", "a", 0⟩, ⟨"back", "b", 1⟩]

def albumStore : (t : BroadcastTable) → Table t.Row
  | .broadcasts => Table.empty.insert album.broadcast
  | .recipients => Table.empty.insert album.recipient

/-- A worker sends the photos and is told to wait; an hour later another one sends the button. -/
def albumRun : List DeliveryEvent :=
  [.other (.claimDue "first" 10 (some true) 0), .prepare 0 "first" (some true) (some album.user) 0, .telegram 0 (.ok 7),
    .call 0 0, .telegram 0 (.error (.retryAfter 30)), .call 0 0, .other (.claimDue "second" 10 (some true) (hours 1)),
    .prepare 0 "second" (some true) (some album.user) (hours 1), .telegram 0 (.ok 8), .call 0 (hours 1)]

theorem album_fresh : album.Fresh albumStore := ⟨rfl, rfl, by decide, rfl⟩

theorem delivered_in_order_album :
    album.Fresh albumStore ∧ (after ⟨60, 5⟩ album albumStore albumRun).delivered =
      [.mediaGroup [("front", some "Hello"), ("back", none)], .message "Выберите действие:" (some ⟨"Открыть", .callback .book 1⟩)] ∧
      FollowsPlan album.plan (after ⟨60, 5⟩ album albumStore albumRun).delivered :=
  ⟨album_fresh, by decide +kernel, (delivered_in_order ⟨60, 5⟩ album albumStore album_fresh albumRun).1⟩

theorem delivered_once_album :
    Guarded (step ⟨60, 5⟩ album.recipientId album.media) (Spares album 0) (start albumStore) albumRun ∧
      (after ⟨60, 5⟩ album albumStore albumRun).delivered.Nodup := by
  have spares : Guarded (step ⟨60, 5⟩ album.recipientId album.media) (Spares album 0) (start albumStore) albumRun := by
    decide +kernel
  exact ⟨spares, (delivered_once ⟨60, 5⟩ album albumStore album_fresh 0 albumRun spares).2⟩

/-- A worker that is gone before the checkpoint: the next one sends the photos again. -/
theorem photos_twice :
    ¬ (after ⟨60, 5⟩ album albumStore [.other (.claimDue "first" 10 (some true) 0),
      .prepare 0 "first" (some true) (some album.user) 0, .telegram 0 (.ok 7), .crash 0,
      .other (.claimDue "second" 10 (some true) (hours 1)), .prepare 0 "second" (some true) (some album.user) (hours 1),
      .telegram 0 (.ok 8)]).delivered.Nodup := by
  decide +kernel

end Delivering

end SalonBooking
