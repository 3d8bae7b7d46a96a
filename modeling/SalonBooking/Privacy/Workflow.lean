import SalonBooking.Lib.Run
import SalonBooking.Privacy.Deletion

/-!
# The deletion workflow

Every writer of a request goes through `transition`, which writes the row and its event together, or rewrites counters
and codes without moving the status. `Advance` says this once for all transactions; locks, attempts and the event path
follow from it. Who may change a claimed request is a matter of single transactions.
-/

namespace SalonBooking.Privacy

open Lib Staff DataDeletionService PrivacyDeletionRuntimeService

variable {db db' : PrivacyDb} {i j : Nat} {r r' : DataDeletionRequest} {args : Transition} {now : Int} {op : PrivacyOp}
variable {liveActor : Staff.StaffContext} {lockId : String} {confirmed : Bool}

/-! ### Paths of events -/

/-- The edges of a request's events, in the order of their insertion. -/
def eventsOf (events : List DataDeletionRequestEvent) (i : Nat) :
    List (Option DataDeletionRequestStatus × DataDeletionRequestStatus) :=
  (events.filter fun e => e.requestId = i).map fun e => (e.previousStatus, e.newStatus)

/-- The edges lead from nothing to `requested` and then along the table of transitions. -/
inductive DeletionPath : List (Option DataDeletionRequestStatus × DataDeletionRequestStatus) → DataDeletionRequestStatus → Prop
  | start : DeletionPath [(none, .requested)] .requested
  | snoc {path s t} (h : DeletionPath path s) (edge : t ∈ s.transitions) : DeletionPath (path ++ [(some s, t)]) t

/-- How often a request was completed. -/
def completions (path : List (Option DataDeletionRequestStatus × DataDeletionRequestStatus)) : Nat :=
  path.countP fun e => e.2 = .completed

theorem DeletionPath.completions {path : List (Option DataDeletionRequestStatus × DataDeletionRequestStatus)}
    {s : DataDeletionRequestStatus} (h : DeletionPath path s) : completions path = if s = .completed then 1 else 0 := by
  induction h with
  | start => rfl
  | @snoc path s t h edge ih =>
    have open_ : s ≠ .completed := by
      rintro rfl
      cases edge
    rw [if_neg open_] at ih
    unfold Privacy.completions at ih ⊢
    rw [List.countP_append, ih, Nat.zero_add, List.countP_singleton]
    by_cases last : t = .completed
    · rw [if_pos last, if_pos (decide_eq_true last)]
    · rw [if_neg last, if_neg (by rw [decide_eq_false last]; decide)]

theorem eventsOf_append_self {events : List DataDeletionRequestEvent} {e : DataDeletionRequestEvent} (of : e.requestId = i) :
    eventsOf (events ++ [e]) i = eventsOf events i ++ [(e.previousStatus, e.newStatus)] := by
  rw [eventsOf, List.filter_append, List.filter_singleton, decide_eq_true of, List.map_append]
  rfl

theorem eventsOf_append_of_ne {events : List DataDeletionRequestEvent} {e : DataDeletionRequestEvent}
    (other : e.requestId ≠ i) : eventsOf (events ++ [e]) i = eventsOf events i := by
  rw [eventsOf, List.filter_append, List.filter_singleton, decide_eq_false other]
  exact congrArg _ (List.append_nil _)

/-! ### One transition -/

@[simp] theorem moved_status : (moved r args now).status = args.target := by
  unfold moved
  cases args.result <;> (split_ifs <;> rfl)

@[simp] theorem moved_maxAttempts : (moved r args now).maxAttempts = r.maxAttempts := by
  unfold moved
  cases args.result <;> (split_ifs <;> rfl)

@[simp] theorem moved_businessClientId : (moved r args now).businessClientId = r.businessClientId := by
  unfold moved
  cases args.result <;> (split_ifs <;> rfl)

theorem moved_attemptCount :
    (moved r args now).attemptCount = if args.target = .processing then r.attemptCount + 1 else r.attemptCount := by
  unfold moved
  cases args.result <;> (split_ifs <;> rfl)

theorem moved_lock : ((moved r args now).lockedAt, (moved r args now).lockedBy) =
    if args.target = .processing then (some now, args.lockId)
    else if args.target ∈ [.approved, .failed, .completed] then (none, none)
    else (r.lockedAt, r.lockedBy) := by
  unfold moved
  cases args.result <;> (split_ifs <;> rfl)

/-! ### What a stored request satisfies -/

/-- A request is locked exactly while it is processed, and its attempts stay below their limit. -/
structure RowSound (r : DataDeletionRequest) : Prop where
  locked : r.status = .processing → r.lockedAt ≠ none ∧ r.lockedBy ≠ none
  unlocked : r.status ≠ .processing → r.lockedAt = none ∧ r.lockedBy = none
  attempts : r.attemptCount ≤ r.maxAttempts

theorem RowSound.moved (h : RowSound r) (edge : args.target ∈ r.status.transitions)
    (claims : args.target = .processing → args.lockId ≠ none ∧ r.attemptCount < r.maxAttempts) :
    RowSound (moved r args now) := by
  have lock := @moved_lock r args now
  have attempts := @moved_attemptCount r args now
  by_cases processing : args.target = .processing
  · obtain ⟨named, left⟩ := claims processing
    rw [if_pos processing, Prod.mk.injEq] at lock
    rw [if_pos processing] at attempts
    refine ⟨fun _ => ?_, fun other => ?_, ?_⟩
    · rw [lock.1, lock.2]
      exact ⟨Option.some_ne_none now, named⟩
    · exact absurd (moved_status.trans processing) other
    · rw [attempts, moved_maxAttempts]
      exact left
  · rw [if_neg processing] at lock attempts
    refine ⟨fun status => absurd (moved_status.symm.trans status) processing, fun _ => ?_, ?_⟩
    · by_cases clears : args.target ∈ [.approved, .failed, .completed]
      · rw [if_pos clears, Prod.mk.injEq] at lock
        exact lock
      · rw [if_neg clears, Prod.mk.injEq] at lock
        rw [lock.1, lock.2]
        -- from `processing` every edge clears the lock
        refine h.unlocked fun status => clears ?_
        rw [status] at edge
        revert edge
        cases args.target <;> decide
    · rw [attempts, moved_maxAttempts]
      exact h.attempts

/-- The stored requests are sound, and their events are legal paths to their statuses. -/
structure Sound (requests : Table DataDeletionRequest) (events : List DataDeletionRequestEvent) : Prop where
  rows : ∀ i r, requests.row i = some r → RowSound r
  path : ∀ i r, requests.row i = some r → DeletionPath (eventsOf events i) r.status
  unknown : ∀ i, requests.row i = none → eventsOf events i = []

theorem Sound.empty : Sound .empty [] where
  rows i r row := by
    rw [Table.row_empty] at row
    cases row
  path i r row := by
    rw [Table.row_empty] at row
    cases row
  unknown i _ := rfl

/-- A change of the requests with the events that it adds; it rewrites the requests in `touches`, and the attempts of
those in `resets` may go back. -/
inductive Advance (touches resets : Nat → Prop) :
    Table DataDeletionRequest → List DataDeletionRequestEvent → Table DataDeletionRequest → List DataDeletionRequestEvent → Prop
  | refl {requests events} : Advance touches resets requests events requests events
  | opened {requests events r e} (of : e.requestId = requests.next) (first : e.previousStatus = none)
      (now : e.newStatus = .requested) (status : r.status = .requested) (sound : RowSound r) :
      Advance touches resets requests events (requests.insert r) (events ++ [e])
  | moved {requests events i r args now e} (touched : touches i) (row : requests.row i = some r)
      (edge : args.target ∈ r.status.transitions)
      (claims : args.target = .processing → args.lockId ≠ none ∧ r.attemptCount < r.maxAttempts) (of : e.requestId = i)
      (before : e.previousStatus = some r.status) (after : e.newStatus = args.target) :
      Advance touches resets requests events (requests.put i (moved r args now)) (events ++ [e])
  | kept {requests events i r r'} (touched : touches i) (row : requests.row i = some r) (status : r'.status = r.status)
      (lock : (r'.lockedAt, r'.lockedBy) = (r.lockedAt, r.lockedBy)) (limit : r'.maxAttempts = r.maxAttempts)
      (attempts : r'.attemptCount = r.attemptCount ∨ resets i ∧ r'.attemptCount = 0) :
      Advance touches resets requests events (requests.put i r') events
  | trans {requests events requests' events' requests'' events''}
      (h : Advance touches resets requests events requests' events')
      (h' : Advance touches resets requests' events' requests'' events'') :
      Advance touches resets requests events requests'' events''

namespace Advance

variable {touches resets : Nat → Prop} {requests requests' : Table DataDeletionRequest}
variable {events events' : List DataDeletionRequestEvent}

theorem sound (h : Advance touches resets requests events requests' events') (hs : Sound requests events) :
    Sound requests' events' := by
  induction h with
  | refl => exact hs
  | @opened requests events r e of first now status sound =>
    refine ⟨fun i r' row => ?_, fun i r' row => ?_, fun i row => ?_⟩
    · rcases Table.row_insert_eq_some.mp row with ⟨rfl, rfl⟩ | old
      · exact sound
      · exact hs.rows i r' old
    · rcases Table.row_insert_eq_some.mp row with ⟨rfl, rfl⟩ | old
      · rw [eventsOf_append_self of, hs.unknown _ (requests.bounded _ le_rfl), first, now, status]
        exact .start
      · rw [eventsOf_append_of_ne (of ▸ (Table.lt_next old).ne')]
        exact hs.path i r' old
    · rw [Table.row_insert] at row
      by_cases new : i = requests.next
      · rw [if_pos new] at row
        cases row
      · rw [if_neg new] at row
        rw [eventsOf_append_of_ne (of ▸ Ne.symm new)]
        exact hs.unknown i row
  | @moved requests events i r args now e _ row edge claims of before after =>
    refine ⟨fun j r' hrow => ?_, fun j r' hrow => ?_, fun j hrow => ?_⟩
    · rcases (Table.row_put_eq_some row).mp hrow with ⟨rfl, rfl⟩ | ⟨-, old⟩
      · exact (hs.rows j r row).moved edge claims
      · exact hs.rows j r' old
    · rcases (Table.row_put_eq_some row).mp hrow with ⟨rfl, rfl⟩ | ⟨other, old⟩
      · rw [eventsOf_append_self of, before, after, moved_status]
        exact (hs.path j r row).snoc edge
      · rw [eventsOf_append_of_ne (of ▸ Ne.symm other)]
        exact hs.path j r' old
    · rw [Table.row_put_eq_none] at hrow
      have other : i ≠ j := by
        rintro rfl
        rw [row] at hrow
        cases hrow
      rw [eventsOf_append_of_ne (of ▸ other)]
      exact hs.unknown j hrow
  | @kept requests events i r r' _ row status lock limit attempts =>
    rw [Prod.mk.injEq] at lock
    refine ⟨fun j s hrow => ?_, fun j s hrow => ?_, fun j hrow => hs.unknown j (Table.row_put_eq_none.mp hrow)⟩
    · rcases (Table.row_put_eq_some row).mp hrow with ⟨rfl, rfl⟩ | ⟨-, old⟩
      · have old := hs.rows j r row
        refine ⟨?_, ?_, ?_⟩
        · rw [status, lock.1, lock.2]
          exact old.locked
        · rw [status, lock.1, lock.2]
          exact old.unlocked
        · rw [limit]
          rcases attempts with same | ⟨-, zero⟩
          · rw [same]
            exact old.attempts
          · rw [zero]
            exact Nat.zero_le _
      · exact hs.rows j s old
    · rcases (Table.row_put_eq_some row).mp hrow with ⟨rfl, rfl⟩ | ⟨-, old⟩
      · rw [status]
        exact hs.path j r row
      · exact hs.path j s old
  | trans _ _ ih ih' => exact ih' (ih hs)

theorem attempts (h : Advance touches resets requests events requests' events') {i : Nat} {r : DataDeletionRequest}
    (row : requests.row i = some r) : ∃ r', requests'.row i = some r' ∧ (r.attemptCount ≤ r'.attemptCount ∨ resets i) := by
  induction h generalizing r with
  | refl => exact ⟨r, row, .inl le_rfl⟩
  | opened => exact ⟨r, Table.row_insert_of_some row, .inl le_rfl⟩
  | @moved requests events j s args now e _ hrow edge claims of before after =>
    by_cases same : i = j
    · subst same
      obtain rfl : r = s := Option.some.inj (row.symm.trans hrow)
      refine ⟨_, Table.row_put_self row, .inl ?_⟩
      rw [moved_attemptCount]
      split <;> omega
    · exact ⟨r, (Table.row_put_ne same).trans row, .inl le_rfl⟩
  | @kept requests events j s s' _ hrow status lock limit attempts =>
    by_cases same : i = j
    · subst same
      obtain rfl : r = s := Option.some.inj (row.symm.trans hrow)
      refine ⟨_, Table.row_put_self row, ?_⟩
      rcases attempts with same | ⟨reset, -⟩
      · exact .inl same.ge
      · exact .inr reset
    · exact ⟨r, (Table.row_put_ne same).trans row, .inl le_rfl⟩
  | trans _ _ ih ih' =>
    obtain ⟨s, hs, le⟩ := ih row
    obtain ⟨t, ht, le'⟩ := ih' hs
    refine ⟨t, ht, ?_⟩
    rcases le with le | reset
    · exact le'.imp_left le.trans
    · exact .inr reset

theorem untouched (h : Advance touches resets requests events requests' events') {i : Nat} {r : DataDeletionRequest}
    (other : ¬ touches i) (row : requests.row i = some r) : requests'.row i = some r := by
  induction h with
  | refl => exact row
  | opened => exact Table.row_insert_of_some row
  | @moved requests events j s args now e touched =>
    have ne : i ≠ j := fun same => other (same ▸ touched)
    exact (Table.row_put_ne ne).trans row
  | @kept requests events j s s' touched =>
    have ne : i ≠ j := fun same => other (same ▸ touched)
    exact (Table.row_put_ne ne).trans row
  | trans _ _ ih ih' => exact ih' (ih row)

end Advance

/-! ### Transactions -/

/-- Requests and events stay as they are. -/
def SameRequests (db db' : PrivacyDb) : Prop := db'.requests = db.requests ∧ db'.events = db.events

theorem SameRequests.trans {db'' : PrivacyDb} (h : SameRequests db db') (h' : SameRequests db' db'') : SameRequests db db'' :=
  ⟨h'.1.trans h.1, h'.2.trans h.2⟩

theorem SameRequests.advance {touches resets : Nat → Prop} (h : SameRequests db db') :
    Advance touches resets db.requests db.events db'.requests db'.events := by
  rw [h.1, h.2]
  exact .refl

theorem OnlyConsents.sameRequests (h : OnlyConsents db db') : SameRequests db db' := ⟨h.requests, h.events⟩

theorem sameRequests_getOrCreateClient (db : PrivacyDb) (businessId : Nat) (telegramId : Int) :
    SameRequests db (db.getOrCreateClient businessId telegramId).2 := by
  unfold PrivacyDb.getOrCreateClient PrivacyDb.ensureBusinessClient
  dsimp only
  split
  · exact ⟨rfl, rfl⟩
  · exact ⟨rfl, rfl⟩

theorem sameRequests_anonymizeClientData {businessClientId userId : Nat}
    (h : db.anonymizeClientData businessClientId userId now = .ok db') : SameRequests db db' := by
  simp only [PrivacyDb.anonymizeClientData, Except.bind_ok, Except.orRaise_ok, Except.require_ok, Except.pure_ok,
    exists_const] at h
  obtain ⟨_, -, -, rfl⟩ := h
  exact ⟨rfl, rfl⟩

theorem advance_transition {touches resets : Nat → Prop} (touched : touches i) (h : transition i args now db = .ok db')
    (claims : args.target = .processing →
      args.lockId ≠ none ∧ ∀ r, db.requests.row i = some r → r.attemptCount < r.maxAttempts) :
    Advance touches resets db.requests db.events db'.requests db'.events := by
  obtain ⟨r, row, edge, -, rfl⟩ := transition_ok.mp h
  refine .moved touched row edge (fun processing => ?_) ?_ ?_ ?_
  · exact ⟨(claims processing).1, (claims processing).2 r row⟩
  · rfl
  · rfl
  · rfl

/-- The request that an operation names. -/
def PrivacyOp.requestId : PrivacyOp → Option Nat
  | .startReview _ requestId _ | .approve _ requestId _ | .reject _ requestId _ _ | .retryFailed _ requestId _
  | .claim _ requestId _ | .run _ requestId _ _ | .recordFailure _ requestId _ => some requestId
  | _ => none

/-- The attempts of a request go back when the bootstrap owner retries it. -/
def Resets (op : PrivacyOp) (i : Nat) : Prop :=
  match op with
  | .retryFailed liveActor requestId _ => requestId = i ∧ liveActor.isBootstrapOwner = true
  | _ => False

theorem advance_claimApproved {touches resets : Nat → Prop} {out : Option Outcome} (touched : touches i)
    (h : claimApproved liveActor i lockId now db = .ok (out, db')) :
    Advance touches resets db.requests db.events db'.requests db'.events := by
  obtain ⟨r, c, args, row, -, -, moved, claims⟩ := claimApproved_ok h
  refine advance_transition touched moved fun processing => ?_
  obtain ⟨named, left, -⟩ := claims processing
  refine ⟨by rw [named]; exact Option.some_ne_none lockId, fun r' row' => ?_⟩
  obtain rfl : r = r' := Option.some.inj (row.symm.trans row')
  exact left

theorem advance_plain {touches resets : Nat → Prop} (touched : touches i) (h : transition i args now db = .ok db')
    (plain : args.target ≠ .processing) : Advance touches resets db.requests db.events db'.requests db'.events :=
  advance_transition touched h fun processing => absurd processing plain

theorem advance_request {touches resets : Nat → Prop} {businessClientId : Nat} {policy : Option PolicyDocument}
    (h : request businessClientId policy now db = .ok db') :
    Advance touches resets db.requests db.events db'.requests db'.events := by
  simp only [request, Except.bind_ok, Except.orRaise_ok] at h
  obtain ⟨client, -, h⟩ := h
  split at h
  · rw [Except.pure_ok] at h
    exact h ▸ .refl
  · rw [Except.pure_ok] at h
    subst h
    rw [OnlyConsents.revokeMarketing.requests, OnlyConsents.revokeMarketing.events]
    refine .opened ?_ ?_ ?_ ?_ ?_
    · rfl
    · rfl
    · rfl
    · rfl
    · exact ⟨(by simp), fun _ => ⟨rfl, rfl⟩, Nat.zero_le _⟩

theorem exec_advance (h : db.exec now op = .ok db') :
    Advance (op.requestId = some ·) (Resets op) db.requests db.events db'.requests db'.events := by
  cases op with
  | staff op =>
    rw [PrivacyDb.exec, Except.ok.injEq] at h
    exact h ▸ .refl
  | getOrCreateClient businessId telegramId =>
    rw [PrivacyDb.exec, Except.ok.injEq] at h
    exact h ▸ (sameRequests_getOrCreateClient db businessId telegramId).advance
  | publishPolicy policy =>
    rw [PrivacyDb.exec, Except.ok.injEq] at h
    exact h ▸ .refl
  | acceptPrivacy telegramId =>
    have client := sameRequests_getOrCreateClient db defaultBusinessId telegramId
    exact (client.trans (OnlyConsents.acceptPrivacy h).sameRequests).advance
  | setMarketing telegramId accepted source =>
    have client := sameRequests_getOrCreateClient db defaultBusinessId telegramId
    exact (client.trans (OnlyConsents.setMarketing h).sameRequests).advance
  | setRepeatBooking telegramId accepted =>
    have client := sameRequests_getOrCreateClient db defaultBusinessId telegramId
    exact (client.trans (OnlyConsents.setRepeatBooking h).sameRequests).advance
  | requestDeletion telegramId =>
    obtain ⟨withdrawn, clientId, only, h⟩ := requestDeletion_ok h
    have client := sameRequests_getOrCreateClient db defaultBusinessId telegramId
    exact .trans (client.trans only.sameRequests).advance (advance_request h)
  | startReview liveActor requestId confirmed =>
    obtain ⟨args, target, h⟩ := startReview_ok h
    exact advance_plain rfl h (by rw [target]; decide)
  | approve liveActor requestId confirmed =>
    obtain ⟨-, args, target, h⟩ := approve_ok h
    exact advance_plain rfl h (by rw [target]; decide)
  | reject liveActor requestId reasonCode confirmed =>
    obtain ⟨args, target, h⟩ := reject_ok h
    exact advance_plain rfl h (by rw [target]; decide)
  | retryFailed liveActor requestId confirmed =>
    obtain ⟨bootstrap, r, row, ⟨-, rfl⟩ | ⟨-, args, target, h⟩⟩ := retryFailed_ok h
    · exact .refl
    · have resets : Advance (some requestId = some ·) (Resets (.retryFailed liveActor requestId confirmed)) db.requests
          db.events (db.requests.put requestId (retryApproved r)) db.events :=
        .kept rfl row rfl rfl rfl (.inr ⟨⟨rfl, bootstrap⟩, rfl⟩)
      refine resets.trans (advance_plain ?_ h (by rw [target]; decide))
      rfl
  | claim liveActor requestId lockId =>
    obtain ⟨⟨out, claimed⟩, claims, rfl⟩ := Except.fmap_ok.mp h
    obtain ⟨r, -, rfl | ⟨-, claim⟩ | ⟨-, -, failed, args, target, fails, rest⟩⟩ := claimAnonymization_ok claims
    · exact .refl
    · exact advance_claimApproved rfl claim
    · refine .trans (advance_plain rfl fails (by rw [target]; decide)) ?_
      rcases rest with rfl | ⟨approved, args', target', approves, claim⟩
      · exact .refl
      · exact .trans (advance_plain rfl approves (by rw [target']; decide)) (advance_claimApproved rfl claim)
  | run liveActor requestId lockId counts =>
    obtain ⟨r, row, ⟨-, rfl⟩ | ⟨-, -, c, anonymized, args, -, anonymizes, target, completes⟩⟩ := runClaimedAnonymization_ok h
    · exact .refl
    · refine .trans (SameRequests.advance ?_) (advance_plain rfl completes (by rw [target]; decide))
      exact OnlyConsents.revokeActiveConsents.sameRequests.trans (sameRequests_anonymizeClientData anonymizes)
  | recordFailure liveActor requestId lockId =>
    obtain ⟨r, row, rfl | ⟨-, -, failed, args, r', exhausted, target, fails, row', rfl⟩⟩ := recordExecutionFailure_ok h
    · exact .refl
    · refine .trans (advance_plain rfl fails ?_) (.kept rfl row' ?_ ?_ ?_ (.inl ?_))
      · rcases target with target | target
        · rw [target]
          decide
        · rw [target]
          decide
      · rfl
      · rfl
      · rfl
      · rfl

/-! ### Who changes a claimed request -/

/-- The executor that holds the lease acts, or another one takes over an expired lease. -/
def ByExecutor (r : DataDeletionRequest) (now : Int) : PrivacyOp → Prop
  | .claim .. => leaseIsFresh r now = false
  | .run _ _ lockId _ | .recordFailure _ _ lockId => r.lockedBy = some lockId
  | _ => False

/-- The operation does not approve a request that is being processed. -/
def SparesClaims (db : PrivacyDb) (l : Int × PrivacyOp) : Prop :=
  match l.2 with
  | .approve _ requestId confirmed => confirmed = true → ∀ r ∈ db.requests.row requestId, r.status ≠ .processing
  | _ => True

/-- The status and the lease in which an operation may change the request that it names. -/
def Admits (r : DataDeletionRequest) (now : Int) : PrivacyOp → Prop
  | .startReview .. => .inReview ∈ r.status.transitions
  | .approve _ _ confirmed => confirmed = true ∧ .approved ∈ r.status.transitions
  | .reject .. => .rejected ∈ r.status.transitions
  | .retryFailed .. => r.status = .failed
  | .claim .. => r.status = .approved ∨ r.status = .processing ∧ leaseIsFresh r now = false
  | .run _ _ lockId _ | .recordFailure _ _ lockId => r.status = .processing ∧ r.lockedBy = some lockId
  | _ => False

theorem transition_edge (h : transition i args now db = .ok db') (row : db.requests.row i = some r) :
    args.target ∈ r.status.transitions := by
  obtain ⟨r', row', edge, -⟩ := transition_ok.mp h
  obtain rfl : r = r' := Option.some.inj (row.symm.trans row')
  exact edge

theorem request_changes (h : db.exec now op = .ok db') (row : db.requests.row i = some r) :
    db'.requests.row i = some r ∨ op.requestId = some i ∧ Admits r now op := by
  by_cases names : op.requestId = some i
  swap
  · exact .inl ((exec_advance h).untouched names row)
  have stored : ∀ {r'}, db.requests.row i = some r' → r' = r := fun row' => Option.some.inj (row'.symm.trans row)
  cases op with
  | staff | getOrCreateClient | publishPolicy | acceptPrivacy | setMarketing | setRepeatBooking | requestDeletion => cases names
  | startReview liveActor requestId confirmed =>
    obtain rfl : requestId = i := Option.some.inj names
    obtain ⟨args, target, h⟩ := startReview_ok h
    have edge := transition_edge h row
    rw [target] at edge
    exact .inr ⟨rfl, edge⟩
  | approve liveActor requestId confirmed =>
    obtain rfl : requestId = i := Option.some.inj names
    obtain ⟨confirmed, args, target, h⟩ := approve_ok h
    have edge := transition_edge h row
    rw [target] at edge
    exact .inr ⟨rfl, confirmed, edge⟩
  | reject liveActor requestId reasonCode confirmed =>
    obtain rfl : requestId = i := Option.some.inj names
    obtain ⟨args, target, h⟩ := reject_ok h
    have edge := transition_edge h row
    rw [target] at edge
    exact .inr ⟨rfl, edge⟩
  | retryFailed liveActor requestId confirmed =>
    obtain rfl : requestId = i := Option.some.inj names
    obtain ⟨-, r', row', cases_⟩ := retryFailed_ok h
    rw [stored row'] at cases_
    rcases cases_ with ⟨-, rfl⟩ | ⟨failed, -⟩
    · exact .inl row
    · exact .inr ⟨rfl, failed⟩
  | claim liveActor requestId lockId =>
    obtain rfl : requestId = i := Option.some.inj names
    obtain ⟨⟨out, claimed⟩, claims, rfl⟩ := Except.fmap_ok.mp h
    obtain ⟨r', row', cases_⟩ := claimAnonymization_ok claims
    rw [stored row'] at cases_
    rcases cases_ with rfl | ⟨approved, -⟩ | ⟨processing, expired, -⟩
    · exact .inl row
    · exact .inr ⟨rfl, .inl approved⟩
    · exact .inr ⟨rfl, .inr ⟨processing, expired⟩⟩
  | run liveActor requestId lockId counts =>
    obtain rfl : requestId = i := Option.some.inj names
    obtain ⟨r', row', cases_⟩ := runClaimedAnonymization_ok h
    rw [stored row'] at cases_
    rcases cases_ with ⟨-, rfl⟩ | ⟨processing, owns, -⟩
    · exact .inl row
    · exact .inr ⟨rfl, processing, owns⟩
  | recordFailure liveActor requestId lockId =>
    obtain rfl : requestId = i := Option.some.inj names
    obtain ⟨r', row', cases_⟩ := recordExecutionFailure_ok h
    rw [stored row'] at cases_
    rcases cases_ with rfl | ⟨processing, owns, -⟩
    · exact .inl row
    · exact .inr ⟨rfl, processing, owns⟩

theorem completed_stays (h : db.exec now op = .ok db') (row : db.requests.row i = some r) (completed : r.status = .completed) :
    db'.requests.row i = some r := by
  refine (request_changes h row).resolve_right fun ⟨_, admits⟩ => ?_
  cases op <;> simp [Admits, completed, DataDeletionRequestStatus.transitions] at admits

theorem processing_changes (h : db.exec now op = .ok db') (spares : SparesClaims db (now, op))
    (row : db.requests.row i = some r) (processing : r.status = .processing) :
    db'.requests.row i = some r ∨ op.requestId = some i ∧ ByExecutor r now op := by
  refine (request_changes h row).imp_right fun ⟨names, admits⟩ => ⟨names, ?_⟩
  cases op with
  | approve liveActor requestId confirmed =>
    obtain rfl : requestId = i := Option.some.inj names
    exact absurd processing (spares admits.1 r row)
  | claim | run | recordFailure => simpa [Admits, ByExecutor, processing] using admits
  | _ => simp [Admits, processing, DataDeletionRequestStatus.transitions] at admits

/-! ### Runs -/

theorem step_cases (l : Int × PrivacyOp) : db.exec l.1 l.2 = .ok (db.step l) ∨ db.step l = db := by
  unfold PrivacyDb.step
  cases db.exec l.1 l.2 with
  | error e => exact .inr rfl
  | ok db' => exact .inl rfl

theorem step_sound {l : Int × PrivacyOp} (h : Sound db.requests db.events) :
    Sound (db.step l).requests (db.step l).events := by
  rcases step_cases l with ok | same
  · exact (exec_advance ok).sound h
  · rw [same]
    exact h

theorem run_sound (h : Sound db.requests db.events) (l : List (Int × PrivacyOp)) :
    Sound (run PrivacyDb.step db l).requests (run PrivacyDb.step db l).events := by
  induction l generalizing db with
  | nil => exact h
  | cons x l ih => exact ih (step_sound h)

/-- What one step may do to a stored request. -/
structure Workflow (db : PrivacyDb) (l : Int × PrivacyOp) (db' : PrivacyDb) (i : Nat) (r : DataDeletionRequest) : Prop where
  /-- Nothing, once it is completed. -/
  completed : r.status = .completed → db'.requests.row i = some r
  /-- While it is processed, only what its executor does. -/
  claimed : r.status = .processing → db'.requests.row i = some r ∨ l.2.requestId = some i ∧ ByExecutor r l.1 l.2
  /-- Requests stay, and their attempts go back by a retry of the bootstrap owner only. -/
  attempts : ∃ r', db'.requests.row i = some r' ∧ (r.attemptCount ≤ r'.attemptCount ∨ Resets l.2 i)

theorem step_workflow {l : Int × PrivacyOp} (spares : SparesClaims db l) (row : db.requests.row i = some r) :
    Workflow db l (db.step l) i r := by
  rcases step_cases l with ok | same
  · exact ⟨completed_stays ok row, processing_changes ok spares row, (exec_advance ok).attempts row⟩
  · rw [same]
    exact ⟨fun _ => row, fun _ => .inl row, r, row, .inl le_rfl⟩

theorem approval_takes_claim {l : Int × PrivacyOp} (takes : ¬ SparesClaims db l) :
    ∃ i r, db.requests.row i = some r ∧ ¬ Workflow db l (db.step l) i r := by
  obtain ⟨now, op⟩ := l
  cases op with
  | approve liveActor requestId confirmed =>
    simp only [SparesClaims, Classical.not_imp, not_forall, not_not] at takes
    obtain ⟨rfl, r, row, processing⟩ := takes
    refine ⟨requestId, r, row, fun workflow => ?_⟩
    let args : Transition := { target := .approved, actorStaffId := some liveActor.staffMemberId }
    have edge : DataDeletionRequestStatus.approved ∈ r.status.transitions := by
      rw [processing]
      decide
    have approves : db.exec now (.approve liveActor requestId true) = .ok (write db requestId r args now) :=
      transition_ok.mpr ⟨r, row, edge, rfl, rfl⟩
    have after : db.step (now, .approve liveActor requestId true) = write db requestId r args now := by
      unfold PrivacyDb.step
      rw [approves]
      rfl
    rw [after] at workflow
    rcases workflow.claimed processing with same | ⟨-, never⟩
    · have moved : (write db requestId r args now).requests.row requestId = some (moved r args now) := Table.row_put_self row
      have status := congrArg DataDeletionRequest.status (Option.some.inj (moved.symm.trans same))
      rw [moved_status, processing] at status
      cases status
    · exact never
  | staff | getOrCreateClient | publishPolicy | acceptPrivacy | setMarketing | setRepeatBooking | requestDeletion | startReview
  | reject | retryFailed | claim | run | recordFailure => exact absurd trivial takes

/--
From a database without requests: in every state of a run every request is locked exactly while it is processed, its
attempts stay within their limit, and its events are a legal path to its status with at most one completion; and every
step leaves completed requests and claimed requests to those who may change them exactly when no approval takes a claim
away.
-/
theorem deletion_workflow (noRequests : db.requests = .empty) (noEvents : db.events = []) (l : List (Int × PrivacyOp)) :
    (∀ i r, (run PrivacyDb.step db l).requests.row i = some r →
      (r.status = .processing ↔ r.lockedAt.isSome ∧ r.lockedBy.isSome) ∧ r.attemptCount ≤ r.maxAttempts ∧
        DeletionPath (eventsOf (run PrivacyDb.step db l).events i) r.status ∧
        completions (eventsOf (run PrivacyDb.step db l).events i) ≤ 1) ∧
      ((∀ pre x post, l = pre ++ x :: post → ∀ i r, (run PrivacyDb.step db pre).requests.row i = some r →
        Workflow (run PrivacyDb.step db pre) x (run PrivacyDb.step db (pre ++ [x])) i r) ↔
        Guarded PrivacyDb.step SparesClaims db l) := by
  constructor
  · have sound := run_sound (noRequests ▸ noEvents ▸ Sound.empty) l
    intro i r row
    have locks := sound.rows i r row
    have path := sound.path i r row
    refine ⟨⟨fun processing => ?_, fun locked => ?_⟩, locks.attempts, path, ?_⟩
    · rw [Option.isSome_iff_ne_none, Option.isSome_iff_ne_none]
      exact locks.locked processing
    · by_contra other
      rw [(locks.unlocked other).1] at locked
      cases locked.1
    · rw [path.completions]
      split
      · exact le_rfl
      · exact Nat.zero_le 1
  · rw [guarded_iff_forall]
    constructor
    · intro holds pre x post e
      by_contra takes
      obtain ⟨i, r, row, broken⟩ := approval_takes_claim takes
      have step := holds pre x post e i r row
      rw [run_append] at step
      exact broken step
    · intro spares pre x post e i r row
      rw [run_append]
      exact step_workflow (spares pre x post e) row

/-! ### Runs from an empty database -/

instance (db : PrivacyDb) : (l : Int × PrivacyOp) → Decidable (SparesClaims db l)
  | (_, .approve ..) => inferInstanceAs (Decidable (_ → ∀ r ∈ _, _))
  | (_, .staff ..) | (_, .getOrCreateClient ..) | (_, .publishPolicy ..) | (_, .acceptPrivacy ..) | (_, .setMarketing ..)
  | (_, .setRepeatBooking ..) | (_, .requestDeletion ..) | (_, .startReview ..) | (_, .reject ..) | (_, .retryFailed ..)
  | (_, .claim ..) | (_, .run ..) | (_, .recordFailure ..) => instDecidableTrue

namespace Sample

/-- A version of the privacy policy on the site of the salon. -/
def linked (version : String) : PolicyDocument := ⟨version, some "https://salon.example/privacy", none, rfl, rfl⟩

def unused : PrivacyDb where
  staff := ⟨.empty, .empty, .empty, .solo⟩
  profiles _ := ⟨none, none, none, none⟩
  clients := .empty
  consents := .empty
  requests := .empty
  events := []
  privacyPolicy := some (linked "v1")

/-- The bootstrap owner, with the right to handle deletions. -/
def owner : Staff.StaffContext := ⟨1, 1, .owner, true, true, []⟩

/-- A request that an executor claims. -/
def claimed : List (Int × PrivacyOp) :=
  [(0, .requestDeletion 200), (10, .startReview owner 1 true), (20, .approve owner 1 true), (30, .claim owner 1 "a")]

/-- The executor crashes, a second one takes over its expired lease, and the late first one is refused. -/
def takenOver : List (Int × PrivacyOp) :=
  claimed ++ [(40, .claim owner 1 "b"), (930, .claim owner 1 "b"), (940, .run owner 1 "a" ⟨0, 0, 0, 0, 0, 2, 1⟩),
    (950, .recordFailure owner 1 "a"), (960, .run owner 1 "b" ⟨0, 0, 0, 0, 0, 2, 1⟩), (970, .approve owner 1 true)]

end Sample

/-- A second approval takes the claim away from the executor that holds it. -/
theorem claim_approved_away :
    ((run PrivacyDb.step Sample.unused Sample.claimed).requests.row 1).map (fun r => (r.status, r.lockedBy)) =
        some (.processing, some "a") ∧
      ((run PrivacyDb.step Sample.unused (Sample.claimed ++ [(40, .approve Sample.owner 1 true)])).requests.row 1).map
        (fun r => (r.status, r.lockedBy)) = some (.approved, none) ∧
      ∃ i r, (run PrivacyDb.step Sample.unused Sample.claimed).requests.row i = some r ∧
        ¬ Workflow (run PrivacyDb.step Sample.unused Sample.claimed) (40, .approve Sample.owner 1 true)
          ((run PrivacyDb.step Sample.unused Sample.claimed).step (40, .approve Sample.owner 1 true)) i r :=
  ⟨by decide +kernel, by decide +kernel, approval_takes_claim (by decide +kernel)⟩

theorem deletion_workflow_takenOver :
    Guarded PrivacyDb.step SparesClaims Sample.unused Sample.takenOver ∧
      ((run PrivacyDb.step Sample.unused Sample.takenOver).requests.row 1).map (·.status) = some .completed ∧
      ∀ pre x post, Sample.takenOver = pre ++ x :: post → ∀ i r,
        (run PrivacyDb.step Sample.unused pre).requests.row i = some r →
          Workflow (run PrivacyDb.step Sample.unused pre) x (run PrivacyDb.step Sample.unused (pre ++ [x])) i r := by
  have spares : Guarded PrivacyDb.step SparesClaims Sample.unused Sample.takenOver := by decide +kernel
  exact ⟨spares, by decide +kernel, (deletion_workflow rfl rfl Sample.takenOver).2.mpr spares⟩

end SalonBooking.Privacy
