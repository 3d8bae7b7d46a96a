import SalonBooking.Access.Limits
import SalonBooking.Lib.Latest
import SalonBooking.Model.Db
import SalonBooking.Privacy.Requests

/-!
# Limits of booking attempts

`services/booking_abuse_service.py`: three sliding windows in Redis for each client, then the counts of the database
under the lock of the client's card. Redis is asked three times, and any other calls may come in between. A log is what
a window has admitted since it was last cleared; the set in Redis is the young part of it, so that a request is
authorised exactly when the logs and the counts leave room for it.
-/

namespace SalonBooking

open Lib

/-! ### A window as a log -/

namespace AttemptLog

/-- What is younger than the window at `now`. -/
def young (windowMs now : Int) (log : List (String × Int)) : List (String × Int) := log.filter (now - windowMs < ·.2)

/-- The request id is young, or there is room for it. -/
def HasRoom (windowMs limit now : Int) (id : String) (log : List (String × Int)) : Prop :=
  id ∈ (young windowMs now log).map Prod.fst ∨ (young windowMs now log).length < limit

instance {windowMs limit now : Int} {id : String} {log : List (String × Int)} :
    Decidable (HasRoom windowMs limit now id log) := inferInstanceAs (Decidable (_ ∨ _))

/-- The log after a request: a new id is admitted when there is room. -/
def request (windowMs limit now : Int) (id : String) (log : List (String × Int)) : List (String × Int) :=
  if id ∉ (young windowMs now log).map Prod.fst ∧ (young windowMs now log).length < limit then log ++ [(id, now)] else log

variable {windowMs limit now later : Int} {id : String} {log : List (String × Int)}

theorem young_snoc (positive : 0 < windowMs) :
    young windowMs now (log ++ [(id, now)]) = young windowMs now log ++ [(id, now)] := by
  unfold young
  rw [List.filter_append, List.filter_singleton, decide_eq_true (by simpa using positive), cond_true]

theorem mem_young_request (positive : 0 < windowMs) (fits : HasRoom windowMs limit now id log) :
    id ∈ (young windowMs now (request windowMs limit now id log)).map Prod.fst := by
  unfold request
  split
  · rw [young_snoc positive, List.map_append]
    exact List.mem_append_right _ (List.mem_singleton_self _)
  · next full =>
    rcases fits with known | room
    · exact known
    · exact not_not.mp fun new => full ⟨new, room⟩

theorem admitted_request (past : ∀ p ∈ log, p.2 ≤ now) (h : Lib.Admitted windowMs limit.toNat (log.map Prod.snd)) :
    Lib.Admitted windowMs limit.toNat ((request windowMs limit now id log).map Prod.snd) := by
  unfold request
  split
  · next room =>
    rw [List.map_append]
    refine h.snoc ?_ ?_
    · intro t ht
      obtain ⟨p, hp, rfl⟩ := List.mem_map.mp ht
      exact past p hp
    · have same : (recent windowMs now (log.map Prod.snd)).length = (young windowMs now log).length := by
        unfold recent young
        rw [List.filter_map, List.length_map]
        rfl
      have free := room.2
      show (recent windowMs now (log.map Prod.snd)).length < limit.toNat
      omega
  · exact h

end AttemptLog

open AttemptLog

namespace SortedSet

variable {s s' : SortedSet} {now last windowMs : Int} {log : List (String × Int)}

/-- From `last` on the key holds the young part of the log. -/
structure Shows (windowMs : Int) (log : List (String × Int)) (last : Int) (s : SortedSet) : Prop where
  past : ∀ p ∈ log, p.2 ≤ last
  retained_eq : ∀ later, last ≤ later → s.retained later windowMs = young windowMs later log

theorem shows_absent : Shows windowMs [] last absent := ⟨fun _ hp => absurd hp List.not_mem_nil, fun _ _ => retained_absent⟩

theorem Shows.later (h : Shows windowMs log last s) (le : last ≤ now) : Shows windowMs log now s :=
  ⟨fun p hp => (h.past p hp).trans le, fun later hl => h.retained_eq later (le.trans hl)⟩

theorem Touched.shows (h : Touched now windowMs (young windowMs now log) s') (past : ∀ p ∈ log, p.2 ≤ now) :
    Shows windowMs log now s' := by
  refine ⟨past, fun later le => List.Sublist.antisymm ?_ ?_⟩
  · show (s'.retained later windowMs).Sublist (log.filter (later - windowMs < ·.2))
    rw [← filter_filter_later le]
    exact h.retained_sublist
  · show (log.filter (later - windowMs < ·.2)).Sublist (s'.retained later windowMs)
    rw [← filter_filter_later le]
    exact h.sublist_retained (List.Sublist.refl _) fun p hp => past p (List.mem_of_mem_filter hp)

end SortedSet

section Scripts

open SortedSet RedisRateLimiter

variable {time windowMs limit last : Int} {id : String} {s : SortedSet} {log : List (String × Int)}

theorem consumeScript_shows (h : Shows windowMs log last s) (le : last ≤ nowMs time) (room : 1 ≤ limit)
    (positive : 0 < windowMs) : ∃ d, decision (consumeScript time windowMs limit id s).1 = .ok d ∧
      (d.allowed = true ↔ HasRoom windowMs limit (nowMs time) id log) ∧
      Shows windowMs (request windowMs limit (nowMs time) id log) (nowMs time) (consumeScript time windowMs limit id s).2 := by
  have held := h.retained_eq (nowMs time) le
  have past := (h.later le).past
  unfold HasRoom request
  rcases consumeScript_cases time windowMs limit id s with
    ⟨known, reply, kept⟩ | ⟨new, full, refused⟩ | ⟨new, free, reply, added⟩
  · rw [held] at known kept
    rw [reply, decision_eq ⟨.inr rfl, le_max_right _ _, le_rfl⟩, if_neg fun h => h.1 known]
    exact ⟨_, rfl, iff_of_true rfl (.inl known), kept.shows past⟩
  · obtain ⟨p, -, answer⟩ := (@decision_refuse (nowMs time) windowMs) (ne_nil_of_full room full)
    rw [held] at new full
    rw [refused, answer, if_neg fun h => not_lt.mpr full h.2]
    refine ⟨_, rfl, iff_of_false Bool.false_ne_true fun h => h.elim new (not_lt.mpr full), ?_⟩
    have kept : Touched (nowMs time) windowMs (s.retained (nowMs time) windowMs)
        (refuse (nowMs time) windowMs ((s.live (nowMs time)).zremrangebyscore (nowMs time - windowMs))).2 := refuse_touched
    rw [held] at kept
    exact kept.shows past
  · rw [held] at new free added
    rw [reply, decision_eq ⟨.inr rfl, le_max_right _ _, le_rfl⟩, if_pos ⟨new, free⟩]
    refine ⟨_, rfl, iff_of_true rfl (.inr free), ?_⟩
    rw [← young_snoc positive] at added
    refine added.shows fun p hp => ?_
    rcases List.mem_append.mp hp with hp | hp
    · exact past p hp
    · rw [List.mem_singleton.mp hp]

theorem inspectScript_shows (h : Shows windowMs log last s) (le : last ≤ nowMs time) (room : 1 ≤ limit) :
    ∃ d, decision (inspectScript time windowMs limit s).1 = .ok d ∧
      (d.allowed = true ↔ (young windowMs (nowMs time) log).length < limit) ∧
      Shows windowMs log (nowMs time) (inspectScript time windowMs limit s).2 := by
  have held := h.retained_eq (nowMs time) le
  have past := (h.later le).past
  rcases inspectScript_cases time windowMs limit s with ⟨full, refused⟩ | ⟨free, reply, kept⟩
  · obtain ⟨p, -, answer⟩ := (@decision_refuse (nowMs time) windowMs) (ne_nil_of_full room full)
    rw [held] at full
    rw [refused, answer]
    refine ⟨_, rfl, iff_of_false Bool.false_ne_true (not_lt.mpr full), ?_⟩
    have kept : Touched (nowMs time) windowMs (s.retained (nowMs time) windowMs)
        (refuse (nowMs time) windowMs ((s.live (nowMs time)).zremrangebyscore (nowMs time - windowMs))).2 := refuse_touched
    rw [held] at kept
    exact kept.shows past
  · rw [held] at free kept
    rw [reply, decision_eq ⟨.inr rfl, le_max_right _ _, le_rfl⟩]
    exact ⟨_, rfl, iff_of_true rfl free, kept.shows past⟩

end Scripts

/-! ### The service -/

inductive AbuseScope
  | failures | attempts | cooldown
deriving DecidableEq

def AbuseScope.value : AbuseScope → String
  | .failures => "booking_failures"
  | .attempts => "booking_attempts"
  | .cooldown => "booking_cooldown"

/-- `BookingAbusePolicy`, with the checks of `__post_init__`. -/
structure BookingAbusePolicy where
  maxFutureAppointments : Int := 4
  maxActiveReservations : Int := 2
  maxAppointmentsPerDay : Int := 2
  attemptLimit : Int := 6
  attemptWindowSeconds : Int := 60
  cooldownSeconds : Int := 3
  failedAttemptLimit : Int := 5
  failedAttemptWindowSeconds : Int := 900
  positive : ∀ value ∈ [maxFutureAppointments, maxActiveReservations, maxAppointmentsPerDay, attemptLimit,
    attemptWindowSeconds, cooldownSeconds, failedAttemptLimit, failedAttemptWindowSeconds], 0 < value := by decide
  windows : attemptWindowSeconds ≤ 86400 ∧ failedAttemptWindowSeconds ≤ 86400 := by decide

namespace BookingAbusePolicy

def limit (p : BookingAbusePolicy) : AbuseScope → Int
  | .failures => p.failedAttemptLimit
  | .attempts => p.attemptLimit
  | .cooldown => 1

def windowSeconds (p : BookingAbusePolicy) : AbuseScope → Int
  | .failures => p.failedAttemptWindowSeconds
  | .attempts => p.attemptWindowSeconds
  | .cooldown => p.cooldownSeconds

def windowMs (p : BookingAbusePolicy) (scope : AbuseScope) : Int := p.windowSeconds scope * 1000

/-- The limiter takes the limit and the window. The policy checks less: not the limits, and not the cooldown. -/
def Accepted (p : BookingAbusePolicy) (scope : AbuseScope) : Prop := p.limit scope ≤ 100000 ∧ p.windowSeconds scope ≤ 86400

instance {p : BookingAbusePolicy} {scope : AbuseScope} : Decidable (p.Accepted scope) :=
  inferInstanceAs (Decidable (_ ∧ _))

end BookingAbusePolicy

/-- `BookingAbuseError`, or the `ValueError` of a check. -/
inductive AbuseError
  | value (message : String)
  | abuse (message code : String) (retryAfterSeconds : Int)
deriving DecidableEq

structure BookingAbusePolicyService where
  limiter : RedisRateLimiter
  businessId : Int
  policy : BookingAbusePolicy
  business_positive : 0 < businessId

namespace BookingAbusePolicyService

/-- `_limiter_unavailable`. -/
def limiterUnavailable : AbuseError :=
  .abuse "Booking protection is temporarily unavailable." "booking_protection_unavailable" 5

/-- `_require_allowed`. -/
def requireAllowed (code : String) (decision : RateLimitDecision) : Except AbuseError Unit :=
  require (decision.allowed = true) (.abuse "Please wait before trying to book again." code decision.retryAfterSeconds)

/-- The errors of the limiter close the booking; its refusals of an argument go through. -/
def failClosed {α : Type} : Except RateLimitError α → Except AbuseError α
  | .ok a => .ok a
  | .error (.limiter _) => .error limiterUnavailable
  | .error (.value message) => .error (.value message)

variable (s : BookingAbusePolicyService) (r : RateStore) (time : Int) (scope : AbuseScope) (clientId : Int) (requestId : String)

/-- A `consume` with the limit and the window of the scope. -/
def consume : Except AbuseError RateLimitDecision × RateStore :=
  let answer := s.limiter.consume r time scope.value s.businessId clientId requestId (s.policy.limit scope)
    (s.policy.windowSeconds scope)
  (failClosed answer.1, answer.2)

def inspectFailures : Except AbuseError RateLimitDecision × RateStore :=
  let answer := s.limiter.inspect r time AbuseScope.failures.value s.businessId clientId (s.policy.limit .failures)
    (s.policy.windowSeconds .failures)
  (failClosed answer.1, answer.2)

def recordFailedAttempt (failureId : String) : Except AbuseError Unit × RateStore :=
  let answer := s.consume r time .failures clientId failureId
  (answer.1.map fun _ => (), answer.2)

def clearFailedAttempts : Except AbuseError Unit × RateStore :=
  let answer := s.limiter.reset r AbuseScope.failures.value s.businessId clientId
  (failClosed answer.1, answer.2)

/-- `_enforce_redis_limits`, at three times and with what others do to the store in between. -/
def enforceRedisLimits (t₁ t₂ t₃ : Int) (then₁ then₂ : RateStore → RateStore) : Except AbuseError Unit × RateStore :=
  let failures := s.inspectFailures r t₁ clientId
  match failures.1 >>= requireAllowed "too_many_failed_attempts" with
  | .error e => (.error e, failures.2)
  | .ok () =>
    let attempts := s.consume (then₁ failures.2) t₂ .attempts clientId requestId
    match attempts.1 >>= requireAllowed "booking_rate_limit" with
    | .error e => (.error e, attempts.2)
    | .ok () =>
      let cooldown := s.consume (then₂ attempts.2) t₃ .cooldown clientId requestId
      (cooldown.1 >>= requireAllowed "booking_cooldown", cooldown.2)

/-- `lock_client_for_booking`. -/
def lockClientForBooking (clients : Table Privacy.BusinessClient) : Option (Nat × Privacy.BusinessClient) :=
  clients.find fun c => decide ((c.businessId : Int) = s.businessId) && decide ((c.userId : Int) = clientId) && c.isActive &&
    c.anonymizedAt.isNone

def countFutureAppointments (db : Db) (now : Int) : Nat :=
  (db.appointments.select fun a =>
    decide ((a.clientId : Int) = clientId) && a.status.occupies && decide (now < a.scheduledStartAt)).length

def countClientAppointmentsBetween (db : Db) (startAt endAt : Int) : Nat :=
  (db.appointments.select fun a => decide ((a.clientId : Int) = clientId) && a.status.occupies &&
    decide (startAt ≤ a.scheduledStartAt) && decide (a.scheduledStartAt < endAt)).length

def countActiveReservations (db : Db) (now : Int) : Nat :=
  (db.reservations.select fun v => decide ((v.clientId : Int) = clientId) &&
    ((v.status == .active && decide (now < v.expiresAt)) || v.status == .awaitingReview)).length

/-- The checks of `authorize_new_reservation` under the lock of the card. -/
def requireQuotas (clients : Table Privacy.BusinessClient) (db : Db) (dayStart dayEnd now : Int) : Except AbuseError Unit := do
  require ((s.lockClientForBooking clientId clients).isSome = true)
    (.abuse "Client is not active in this business." "inactive_business_client" 0)
  require (countFutureAppointments clientId db now < s.policy.maxFutureAppointments)
    (.abuse "Too many future appointments." "future_appointment_limit" 0)
  require (countActiveReservations clientId db now < s.policy.maxActiveReservations)
    (.abuse "Too many active reservations." "active_reservation_limit" 0)
  require (countClientAppointmentsBetween clientId db dayStart dayEnd < s.policy.maxAppointmentsPerDay)
    (.abuse "Daily appointment limit reached." "daily_appointment_limit" 0)

def authorizeNewReservation (t₁ t₂ t₃ : Int) (then₁ then₂ : RateStore → RateStore) (clients : Table Privacy.BusinessClient)
    (db : Db) (dayStart dayEnd now : Int) : Except AbuseError Unit × RateStore :=
  let checked : Except AbuseError Unit := do
    require (0 < clientId) (.value "client_id must be positive")
    require (dayStart ≤ now ∧ now < dayEnd) (.value "current time must be inside the supplied business day")
  match checked with
  | .error e => (.error e, r)
  | .ok () =>
    let limits := s.enforceRedisLimits r clientId requestId t₁ t₂ t₃ then₁ then₂
    (limits.1 >>= fun _ => s.requireQuotas clientId clients db dayStart dayEnd now, limits.2)

/-! ### Accesses -/

/-- One access of the service to Redis; a failed attempt is recorded by a `consume`. -/
inductive Access
  | inspectFailures (clientId : Int)
  | consume (scope : AbuseScope) (clientId : Int) (requestId : String)
  | clearFailures (clientId : Int)

def exec (r : RateStore) (time : Int) : Access → RateStore
  | .inspectFailures clientId => (s.inspectFailures r time clientId).2
  | .consume scope clientId requestId => (s.consume r time scope clientId requestId).2
  | .clearFailures clientId => (s.clearFailedAttempts r clientId).2

/-- The store after the accesses of any number of calls. -/
def after (r : RateStore) (calls : List (Int × Access)) : RateStore := calls.foldl (fun r e => s.exec r e.1 e.2) r

/-- The log of a client's window after one access. -/
def logStep (log : List (String × Int)) (e : Int × Access) : List (String × Int) :=
  match e.2 with
  | .inspectFailures _ => log
  | .consume scope' clientId' requestId =>
    if (scope' = scope ∧ clientId' = clientId) ∧ s.policy.Accepted scope ∧ safeRequestId requestId = true then
      request (s.policy.windowMs scope) (s.policy.limit scope) (nowMs e.1) requestId log
    else log
  | .clearFailures clientId' => if scope = .failures ∧ clientId' = clientId then [] else log

/-- What the window of a client has admitted since it was last cleared. -/
def log (calls : List (Int × Access)) : List (String × Int) := calls.foldl (s.logStep scope clientId) []

def Ordered (calls : List (Int × Access)) : Prop := (calls.map Prod.fst).Pairwise (· ≤ ·)

instance : DecidablePred Ordered := fun calls => inferInstanceAs (Decidable ((calls.map Prod.fst).Pairwise (· ≤ ·)))

def name : String := s.limiter.keyName scope.value s.businessId clientId

variable {s r time scope clientId requestId}
variable {scope' : AbuseScope} {clientId' last : Int} {calls : List (Int × Access)}

theorem limit_pos : 1 ≤ s.policy.limit scope := by
  have positive := s.policy.positive
  simp only [List.mem_cons, List.not_mem_nil, or_false, forall_eq_or_imp, forall_eq] at positive
  cases scope with
  | failures => exact positive.2.2.2.2.2.2.1
  | attempts => exact positive.2.2.2.1
  | cooldown => exact le_rfl

theorem windowSeconds_pos : 1 ≤ s.policy.windowSeconds scope := by
  have positive := s.policy.positive
  simp only [List.mem_cons, List.not_mem_nil, or_false, forall_eq_or_imp, forall_eq] at positive
  cases scope with
  | failures => exact positive.2.2.2.2.2.2.2
  | attempts => exact positive.2.2.2.2.1
  | cooldown => exact positive.2.2.2.2.2.1

theorem windowMs_pos : 0 < s.policy.windowMs scope := by
  have := @windowSeconds_pos s scope
  unfold BookingAbusePolicy.windowMs
  omega

theorem validateWindow_iff :
    RedisRateLimiter.validateWindow (s.policy.limit scope) (s.policy.windowSeconds scope) = .ok () ↔
      s.policy.Accepted scope := by
  have room := @limit_pos s scope
  have positive := @windowSeconds_pos s scope
  simp only [RedisRateLimiter.validateWindow, Except.bind_ok, Except.require_ok, exists_const, BookingAbusePolicy.Accepted]
  omega

theorem key_eq (positive : 0 < clientId) : s.limiter.key scope.value s.businessId clientId = .ok (s.name scope clientId) := by
  have safe : safeNamespace scope.value = true := by cases scope <;> decide +kernel
  simp only [RedisRateLimiter.key, Except.bind_ok, Except.require_ok, exists_const]
  exact ⟨⟨s.business_positive, positive⟩, safe, rfl⟩

theorem key_ok {k : String} (h : s.limiter.key scope.value s.businessId clientId = .ok k) : k = s.name scope clientId := by
  simp only [RedisRateLimiter.key, Except.bind_ok, Except.require_ok, exists_const] at h
  exact (Except.ok.inj h.2.2).symm

theorem colon_notMem_parts : ∀ part ∈ [scope.value, toString clientId], ':' ∉ part.toList := by
  have scope_ : ':' ∉ scope.value.toList := by cases scope <;> decide
  simp only [List.mem_cons, List.not_mem_nil, or_false, forall_eq_or_imp, forall_eq]
  exact ⟨scope_, colon_notMem_intRepr _⟩

/-- **Two windows never share a key.** -/
theorem name_injective (h : s.name scope clientId = s.name scope' clientId') : scope = scope' ∧ clientId = clientId' := by
  have same : [scope.value, toString clientId] = [scope'.value, toString clientId'] := by
    refine intercalate_injective (c := ':') colon_notMem_parts colon_notMem_parts ⟨by simp, by simp⟩ ?_
    simpa [name, RedisRateLimiter.keyName, String.append_assoc] using h
  simp only [List.cons.injEq, and_true] at same
  obtain ⟨value, id⟩ := same
  refine ⟨?_, Int.repr_injective id⟩
  revert value
  cases scope <;> cases scope' <;> decide

/-! ### What an access does -/

/-- Only a call with its arguments in the ranges of the limiter reaches a script. -/
theorem consume_unaccepted (h : ¬ (s.policy.Accepted scope ∧ safeRequestId requestId = true)) :
    ∃ e, s.limiter.consume r time scope.value s.businessId clientId requestId (s.policy.limit scope)
      (s.policy.windowSeconds scope) = (.error e, r) := by
  unfold RedisRateLimiter.consume
  cases hkey : s.limiter.key scope.value s.businessId clientId with
  | error e => exact ⟨e, rfl⟩
  | ok k =>
    cases window : RedisRateLimiter.validateWindow (s.policy.limit scope) (s.policy.windowSeconds scope) with
    | error e => exact ⟨e, rfl⟩
    | ok =>
      have unsafe_ : ¬ safeRequestId requestId = true := fun safe => h ⟨validateWindow_iff.mp window, safe⟩
      rw [require, if_neg unsafe_]
      exact ⟨_, rfl⟩

theorem inspect_unaccepted (h : ¬ s.policy.Accepted .failures) :
    ∃ e, s.limiter.inspect r time AbuseScope.failures.value s.businessId clientId (s.policy.limit .failures)
      (s.policy.windowSeconds .failures) = (.error e, r) := by
  unfold RedisRateLimiter.inspect
  cases hkey : s.limiter.key AbuseScope.failures.value s.businessId clientId with
  | error e => exact ⟨e, rfl⟩
  | ok k =>
    cases window : RedisRateLimiter.validateWindow (s.policy.limit .failures) (s.policy.windowSeconds .failures) with
    | error e => exact ⟨e, rfl⟩
    | ok => exact absurd (validateWindow_iff.mp window) h

theorem consume_other (other : ¬ (scope' = scope ∧ clientId' = clientId)) :
    (s.consume r time scope' clientId' requestId).2 (s.name scope clientId) = r (s.name scope clientId) := by
  unfold consume
  rcases @RedisRateLimiter.consume_cases s.limiter r scope'.value requestId time s.businessId clientId'
      (s.policy.limit scope') (s.policy.windowSeconds scope') with ⟨k, hkey, ran⟩ | ⟨e, refused⟩
  · rw [ran, key_ok hkey]
    exact RedisRateLimiter.eval_of_ne fun same => other (name_injective same.symm)
  · rw [refused]

theorem inspect_other (other : ¬ (AbuseScope.failures = scope ∧ clientId' = clientId)) :
    (s.inspectFailures r time clientId').2 (s.name scope clientId) = r (s.name scope clientId) := by
  unfold inspectFailures
  rcases @RedisRateLimiter.inspect_cases s.limiter r AbuseScope.failures.value time s.businessId clientId'
      (s.policy.limit .failures) (s.policy.windowSeconds .failures) with ⟨k, hkey, ran⟩ | ⟨e, refused⟩
  · rw [ran, key_ok hkey]
    exact RedisRateLimiter.eval_of_ne fun same => other (name_injective same.symm)
  · rw [refused]

theorem clear_eq (positive : 0 < clientId) :
    (s.clearFailedAttempts r clientId).2 = Function.update r (s.name .failures clientId) .absent := by
  unfold clearFailedAttempts RedisRateLimiter.reset
  rw [key_eq positive]

theorem clear_other (other : ¬ (scope = .failures ∧ clientId' = clientId)) :
    (s.clearFailedAttempts r clientId').2 (s.name scope clientId) = r (s.name scope clientId) := by
  unfold clearFailedAttempts RedisRateLimiter.reset
  cases hkey : s.limiter.key AbuseScope.failures.value s.businessId clientId' with
  | error e => rfl
  | ok k =>
    rw [key_ok hkey]
    refine Function.update_of_ne (fun same => other ?_) _ _
    obtain ⟨scope_, client⟩ := name_injective same
    exact ⟨scope_, client.symm⟩

variable {l : List (String × Int)}

theorem inspect_shows (positive : 0 < clientId)
    (h : SortedSet.Shows (s.policy.windowMs scope) l last (r (s.name scope clientId))) (le : last ≤ nowMs time) :
    SortedSet.Shows (s.policy.windowMs scope) l (nowMs time) ((s.inspectFailures r time clientId').2 (s.name scope clientId)) := by
  by_cases same : AbuseScope.failures = scope ∧ clientId' = clientId
  · obtain ⟨rfl, rfl⟩ := same
    unfold inspectFailures
    by_cases accepted : s.policy.Accepted .failures
    · rw [RedisRateLimiter.inspect_eq (key_eq positive) (validateWindow_iff.mpr accepted), RedisRateLimiter.eval_self]
      obtain ⟨d, -, -, shows_⟩ := inspectScript_shows h le limit_pos
      exact shows_
    · obtain ⟨e, refused⟩ := @inspect_unaccepted s r time clientId' accepted
      rw [refused]
      exact h.later le
  · rw [inspect_other same]
    exact h.later le

theorem consume_shows (positive : 0 < clientId)
    (h : SortedSet.Shows (s.policy.windowMs scope) l last (r (s.name scope clientId))) (le : last ≤ nowMs time) :
    SortedSet.Shows (s.policy.windowMs scope) (s.logStep scope clientId l (time, .consume scope' clientId' requestId))
      (nowMs time) ((s.consume r time scope' clientId' requestId).2 (s.name scope clientId)) := by
  unfold logStep
  dsimp only
  by_cases same : scope' = scope ∧ clientId' = clientId
  · by_cases accepted : s.policy.Accepted scope ∧ safeRequestId requestId = true
    · rw [if_pos ⟨same, accepted⟩]
      obtain ⟨rfl, rfl⟩ := same
      unfold consume
      rw [RedisRateLimiter.consume_eq (key_eq positive) (validateWindow_iff.mpr accepted.1) accepted.2,
        RedisRateLimiter.eval_self]
      obtain ⟨d, -, -, shows_⟩ := consumeScript_shows h le limit_pos windowMs_pos
      exact shows_
    · rw [if_neg fun h => accepted h.2]
      obtain ⟨rfl, rfl⟩ := same
      obtain ⟨e, refused⟩ := @consume_unaccepted s r time scope' clientId' requestId accepted
      unfold consume
      rw [refused]
      exact h.later le
  · rw [if_neg fun h => same h.1, consume_other same]
    exact h.later le

theorem clear_shows (positive : 0 < clientId)
    (h : SortedSet.Shows (s.policy.windowMs scope) l last (r (s.name scope clientId))) (le : last ≤ nowMs time) :
    SortedSet.Shows (s.policy.windowMs scope) (s.logStep scope clientId l (time, .clearFailures clientId')) (nowMs time)
      ((s.clearFailedAttempts r clientId').2 (s.name scope clientId)) := by
  unfold logStep
  dsimp only
  by_cases same : scope = .failures ∧ clientId' = clientId
  · rw [if_pos same]
    obtain ⟨rfl, rfl⟩ := same
    rw [clear_eq positive, Function.update_self]
    exact SortedSet.shows_absent
  · rw [if_neg same, clear_other same]
    exact h.later le

theorem exec_shows (positive : 0 < clientId)
    (h : SortedSet.Shows (s.policy.windowMs scope) l last (r (s.name scope clientId))) {e : Int × Access}
    (le : last ≤ nowMs e.1) :
    SortedSet.Shows (s.policy.windowMs scope) (s.logStep scope clientId l e) (nowMs e.1)
      (s.exec r e.1 e.2 (s.name scope clientId)) := by
  obtain ⟨time, access⟩ := e
  cases access with
  | inspectFailures => exact inspect_shows positive h le
  | consume => exact consume_shows positive h le
  | clearFailures => exact clear_shows positive h le

theorem run_shows (positive : 0 < clientId) (ordered : Ordered calls)
    (h : SortedSet.Shows (s.policy.windowMs scope) l last (r (s.name scope clientId))) (since : ∀ e ∈ calls, last ≤ nowMs e.1)
    (le : last ≤ nowMs time) (past : ∀ e ∈ calls, e.1 ≤ time) :
    SortedSet.Shows (s.policy.windowMs scope) (calls.foldl (s.logStep scope clientId) l) (nowMs time)
      (s.after r calls (s.name scope clientId)) := by
  induction calls generalizing r l last with
  | nil => exact h.later le
  | cons e calls ih =>
    rw [List.forall_mem_cons] at since past
    unfold Ordered at ordered
    rw [List.map_cons, List.pairwise_cons] at ordered
    have later : ∀ x ∈ calls, nowMs e.1 ≤ nowMs x.1 := fun x hx =>
      RedisRateLimiter.nowMs_le (ordered.1 x.1 (List.mem_map_of_mem hx))
    exact ih ordered.2 (exec_shows positive h since.1) later (RedisRateLimiter.nowMs_le past.1) past.2

/-- **After any accesses the set in Redis is the young part of the log.** -/
theorem after_shows (positive : 0 < clientId) (ordered : Ordered calls) (past : ∀ e ∈ calls, e.1 ≤ time) :
    SortedSet.Shows (s.policy.windowMs scope) (s.log scope clientId calls) (nowMs time)
      (s.after (fun _ => .absent) calls (s.name scope clientId)) := by
  cases calls with
  | nil => exact SortedSet.shows_absent
  | cons e rest =>
    refine run_shows positive ordered (SortedSet.shows_absent : SortedSet.Shows _ _ (nowMs e.1) _) ?_ ?_ past
    · unfold Ordered at ordered
      rw [List.map_cons, List.pairwise_cons] at ordered
      intro x hx
      rcases List.mem_cons.mp hx with rfl | hx
      · exact le_rfl
      · exact RedisRateLimiter.nowMs_le (ordered.1 x.1 (List.mem_map_of_mem hx))
    · exact RedisRateLimiter.nowMs_le (past e List.mem_cons_self)

/-! ### What passes -/

section Answers

variable {code : String}

theorem passes_iff {answer : Except RateLimitError RateLimitDecision} :
    (failClosed answer >>= requireAllowed code) = .ok () ↔ ∃ d, answer = .ok d ∧ d.allowed = true := by
  cases answer with
  | ok d => simp [failClosed, requireAllowed, Except.bind_ok]
  | error e => cases e <;> simp [failClosed, limiterUnavailable, bind, Except.bind]

theorem allowed_iff {answer : Except RateLimitError RateLimitDecision} {d : RateLimitDecision} (h : answer = .ok d) :
    (∃ d', answer = .ok d' ∧ d'.allowed = true) ↔ d.allowed = true := by
  constructor
  · rintro ⟨d', answer', granted⟩
    obtain rfl : d' = d := Except.ok.inj (answer'.symm.trans h)
    exact granted
  · exact fun granted => ⟨d, h, granted⟩

theorem consume_passes (positive : 0 < clientId)
    (h : SortedSet.Shows (s.policy.windowMs scope) l last (r (s.name scope clientId))) (le : last ≤ nowMs time) :
    ((s.consume r time scope clientId requestId).1 >>= requireAllowed code) = .ok () ↔
      (s.policy.Accepted scope ∧ safeRequestId requestId = true) ∧
        HasRoom (s.policy.windowMs scope) (s.policy.limit scope) (nowMs time) requestId l := by
  unfold consume
  rw [passes_iff]
  by_cases accepted : s.policy.Accepted scope ∧ safeRequestId requestId = true
  · rw [RedisRateLimiter.consume_eq (key_eq positive) (validateWindow_iff.mpr accepted.1) accepted.2]
    obtain ⟨d, answer, allowed, -⟩ := (@consumeScript_shows _ _ _ _ requestId) h le limit_pos windowMs_pos
    rw [and_iff_right accepted, ← allowed]
    exact allowed_iff answer
  · obtain ⟨e, refused⟩ := @consume_unaccepted s r time scope clientId requestId accepted
    rw [refused]
    exact iff_of_false (fun ⟨_, h, _⟩ => nomatch h) fun h => accepted h.1

theorem inspect_passes (positive : 0 < clientId)
    (h : SortedSet.Shows (s.policy.windowMs .failures) l last (r (s.name .failures clientId))) (le : last ≤ nowMs time) :
    ((s.inspectFailures r time clientId).1 >>= requireAllowed code) = .ok () ↔
      s.policy.Accepted .failures ∧
        (young (s.policy.windowMs .failures) (nowMs time) l).length < s.policy.failedAttemptLimit := by
  unfold inspectFailures
  rw [passes_iff]
  by_cases accepted : s.policy.Accepted .failures
  · rw [RedisRateLimiter.inspect_eq (key_eq positive) (validateWindow_iff.mpr accepted)]
    obtain ⟨d, answer, allowed, -⟩ := inspectScript_shows h le (@limit_pos s .failures)
    rw [and_iff_right accepted]
    exact (allowed_iff answer).trans allowed
  · obtain ⟨e, refused⟩ := @inspect_unaccepted s r time clientId accepted
    rw [refused]
    exact iff_of_false (fun ⟨_, h, _⟩ => nomatch h) fun h => accepted h.1

end Answers

section Authorize

variable {t₁ t₂ t₃ dayStart dayEnd now : Int} {then₁ then₂ : RateStore → RateStore}
variable {clients : Table Privacy.BusinessClient} {db : Db} {before between between' : List (Int × Access)}

theorem enforceRedisLimits_ok :
    (s.enforceRedisLimits r clientId requestId t₁ t₂ t₃ then₁ then₂).1 = .ok () ↔
      ((s.inspectFailures r t₁ clientId).1 >>= requireAllowed "too_many_failed_attempts") = .ok () ∧
      ((s.consume (then₁ (s.inspectFailures r t₁ clientId).2) t₂ .attempts clientId requestId).1 >>=
        requireAllowed "booking_rate_limit") = .ok () ∧
      ((s.consume (then₂ (s.consume (then₁ (s.inspectFailures r t₁ clientId).2) t₂ .attempts clientId requestId).2) t₃
        .cooldown clientId requestId).1 >>= requireAllowed "booking_cooldown") = .ok () := by
  unfold enforceRedisLimits
  dsimp only
  split
  · next e refused =>
    rw [refused]
    exact iff_of_false (fun h => nomatch h) fun h => nomatch h.1
  · next passed =>
    rw [passed, and_iff_right rfl]
    split
    · next e refused =>
      rw [refused]
      exact iff_of_false (fun h => nomatch h) fun h => nomatch h.1
    · next passed' =>
      rw [passed', and_iff_right rfl]

theorem authorizeNewReservation_ok :
    (s.authorizeNewReservation r clientId requestId t₁ t₂ t₃ then₁ then₂ clients db dayStart dayEnd now).1 = .ok () ↔
      (0 < clientId ∧ dayStart ≤ now ∧ now < dayEnd) ∧
      (s.enforceRedisLimits r clientId requestId t₁ t₂ t₃ then₁ then₂).1 = .ok () ∧
      s.requireQuotas clientId clients db dayStart dayEnd now = .ok () := by
  have checked : (do
      require (0 < clientId) (AbuseError.value "client_id must be positive")
      require (dayStart ≤ now ∧ now < dayEnd) (.value "current time must be inside the supplied business day")) =
        (.ok () : Except AbuseError Unit) ↔ 0 < clientId ∧ dayStart ≤ now ∧ now < dayEnd := by
    simp only [Except.bind_ok, Except.require_ok, exists_const]
  unfold authorizeNewReservation
  dsimp only
  split
  · next e failed =>
    refine iff_of_false (fun h => nomatch h) fun h => ?_
    rw [checked.mpr h.1] at failed
    cases failed
  · next passed =>
    rw [and_iff_right (checked.mp passed), Except.bind_ok]
    exact ⟨fun ⟨_, limits, quotas⟩ => ⟨limits, quotas⟩, fun h => ⟨(), h⟩⟩

/-- The client has a card in the business, and the counts of the database leave room. -/
structure Quotas (s : BookingAbusePolicyService) (clientId : Int) (clients : Table Privacy.BusinessClient) (db : Db)
    (dayStart dayEnd now : Int) : Prop where
  card : (s.lockClientForBooking clientId clients).isSome = true
  future : countFutureAppointments clientId db now < s.policy.maxFutureAppointments
  active : countActiveReservations clientId db now < s.policy.maxActiveReservations
  daily : countClientAppointmentsBetween clientId db dayStart dayEnd < s.policy.maxAppointmentsPerDay

theorem requireQuotas_ok :
    s.requireQuotas clientId clients db dayStart dayEnd now = .ok () ↔ s.Quotas clientId clients db dayStart dayEnd now := by
  simp only [requireQuotas, Except.bind_ok, Except.require_ok, exists_const]
  constructor
  · rintro ⟨card, future, active, daily⟩
    exact ⟨card, future, active, daily⟩
  · exact fun h => ⟨h.card, h.future, h.active, h.daily⟩

/-- The windows of the client leave room for the request at the three times, after the accesses before each of them. -/
structure Room (s : BookingAbusePolicyService) (clientId : Int) (requestId : String) (t₁ t₂ t₃ : Int)
    (before between between' : List (Int × Access)) : Prop where
  failures : (young (s.policy.windowMs .failures) (nowMs t₁) (s.log .failures clientId before)).length <
    s.policy.failedAttemptLimit
  attempts : HasRoom (s.policy.windowMs .attempts) s.policy.attemptLimit (nowMs t₂) requestId
    (s.log .attempts clientId (before ++ between))
  cooldown : HasRoom (s.policy.windowMs .cooldown) 1 (nowMs t₃) requestId
    (s.log .cooldown clientId (before ++ between ++ between'))

theorem Ordered.left {rest : List (Int × Access)} (h : Ordered (calls ++ rest)) : Ordered calls := by
  unfold Ordered at h ⊢
  rw [List.map_append] at h
  exact (List.pairwise_append.mp h).1

theorem Ordered.past {e : Int × Access} {rest : List (Int × Access)} (h : Ordered (calls ++ e :: rest)) :
    ∀ x ∈ calls, x.1 ≤ e.1 := by
  unfold Ordered at h
  rw [List.map_append] at h
  intro x hx
  exact (List.pairwise_append.mp h).2.2 x.1 (List.mem_map_of_mem hx) e.1 List.mem_cons_self

theorem after_append_cons {e : Int × Access} {rest : List (Int × Access)} :
    s.after r (calls ++ e :: rest) = s.after (s.exec (s.after r calls) e.1 e.2) rest := by
  unfold after
  rw [List.foldl_append, List.foldl_cons]

theorem shows_before (positive : 0 < clientId) {e : Int × Access} {rest : List (Int × Access)}
    (ordered : Ordered (calls ++ e :: rest)) :
    SortedSet.Shows (s.policy.windowMs scope) (s.log scope clientId calls) (nowMs e.1)
      (s.after (fun _ => .absent) calls (s.name scope clientId)) :=
  after_shows positive ordered.left ordered.past

theorem authorizeNewReservation_iff
    (ordered : Ordered (before ++ (t₁, .inspectFailures clientId) :: (between ++ (t₂, .consume .attempts clientId requestId) ::
      (between' ++ [(t₃, .consume .cooldown clientId requestId)])))) :
    (s.authorizeNewReservation (s.after (fun _ => .absent) before) clientId requestId t₁ t₂ t₃ (s.after · between)
        (s.after · between') clients db dayStart dayEnd now).1 = .ok () ↔
      (0 < clientId ∧ dayStart ≤ now ∧ now < dayEnd) ∧
      ((∀ scope, s.policy.Accepted scope) ∧ safeRequestId requestId = true) ∧
      s.Room clientId requestId t₁ t₂ t₃ before between between' ∧
      s.Quotas clientId clients db dayStart dayEnd now := by
  rw [authorizeNewReservation_ok, requireQuotas_ok, enforceRedisLimits_ok]
  by_cases checked : 0 < clientId ∧ dayStart ≤ now ∧ now < dayEnd
  · have positive := checked.1
    rw [and_iff_right checked, and_iff_right checked]
    -- the three accesses, each after those before it
    have ordered₂ : Ordered ((before ++ (t₁, .inspectFailures clientId) :: between) ++
        (t₂, .consume .attempts clientId requestId) :: (between' ++ [(t₃, .consume .cooldown clientId requestId)])) := by
      simpa using ordered
    have ordered₃ : Ordered (((before ++ (t₁, .inspectFailures clientId) :: between) ++
        (t₂, .consume .attempts clientId requestId) :: between') ++ [(t₃, .consume .cooldown clientId requestId)]) := by
      simpa using ordered
    have store₂ : s.after (s.inspectFailures (s.after (fun _ => .absent) before) t₁ clientId).2 between =
        s.after (fun _ => .absent) (before ++ (t₁, .inspectFailures clientId) :: between) := by
      rw [after_append_cons]
      rfl
    have store₃ : s.after (s.consume (s.after (fun _ => .absent) (before ++ (t₁, .inspectFailures clientId) :: between)) t₂
          .attempts clientId requestId).2 between' =
        s.after (fun _ => .absent) ((before ++ (t₁, .inspectFailures clientId) :: between) ++
          (t₂, .consume .attempts clientId requestId) :: between') := by
      symm
      rw [after_append_cons]
      rfl
    have log₂ : s.log .attempts clientId (before ++ (t₁, .inspectFailures clientId) :: between) =
        s.log .attempts clientId (before ++ between) := by
      unfold log
      rw [List.foldl_append, List.foldl_append, List.foldl_cons]
      rfl
    have log₃ : s.log .cooldown clientId ((before ++ (t₁, .inspectFailures clientId) :: between) ++
          (t₂, .consume .attempts clientId requestId) :: between') = s.log .cooldown clientId (before ++ between ++ between') := by
      unfold log
      rw [List.foldl_append, List.foldl_append, List.foldl_cons, List.foldl_cons, List.foldl_append, List.foldl_append]
      rfl
    rw [store₂, store₃, inspect_passes positive (shows_before positive ordered) le_rfl,
      consume_passes positive (shows_before positive ordered₂) le_rfl,
      consume_passes positive (shows_before positive ordered₃) le_rfl, log₂, log₃]
    constructor
    · rintro ⟨⟨⟨failures, few⟩, ⟨⟨attempts, safe⟩, fits⟩, ⟨⟨cooldown, -⟩, spaced⟩⟩, quotas⟩
      exact ⟨⟨fun scope => by cases scope <;> assumption, safe⟩, ⟨few, fits, spaced⟩, quotas⟩
    · rintro ⟨⟨accepted, safe⟩, ⟨few, fits, spaced⟩, quotas⟩
      exact ⟨⟨⟨accepted _, few⟩, ⟨⟨accepted _, safe⟩, fits⟩, ⟨accepted _, safe⟩, spaced⟩, quotas⟩
  · exact iff_of_false (fun h => checked h.1) fun h => checked h.1

/-- **A request is authorised exactly when its arguments are in order, the three windows of the client leave room for
it, and so do the counts of the database:** whatever the service was asked before, and whatever comes between the three
accesses of the call. The set in Redis is always the young part of its log, and no other window has its key. -/
theorem authorized_exactly
    (ordered : Ordered (before ++ (t₁, .inspectFailures clientId) :: (between ++ (t₂, .consume .attempts clientId requestId) ::
      (between' ++ [(t₃, .consume .cooldown clientId requestId)])))) :
    ((s.authorizeNewReservation (s.after (fun _ => .absent) before) clientId requestId t₁ t₂ t₃ (s.after · between)
        (s.after · between') clients db dayStart dayEnd now).1 = .ok () ↔
      (0 < clientId ∧ dayStart ≤ now ∧ now < dayEnd) ∧
      ((∀ scope, s.policy.Accepted scope) ∧ safeRequestId requestId = true) ∧
      s.Room clientId requestId t₁ t₂ t₃ before between between' ∧
      s.Quotas clientId clients db dayStart dayEnd now) ∧
    (∀ scope client, 0 < client → ∀ later, nowMs t₁ ≤ later →
      (s.after (fun _ => .absent) before (s.name scope client)).retained later (s.policy.windowMs scope) =
        young (s.policy.windowMs scope) later (s.log scope client before)) ∧
    ∀ scope client scope' client', s.name scope client = s.name scope' client' → scope = scope' ∧ client = client' :=
  ⟨authorizeNewReservation_iff ordered, fun _ _ positive => (shows_before positive ordered).retained_eq,
    fun _ _ _ _ => name_injective⟩

/-- The limits of the source for the business with the key 1. -/
def sample : BookingAbusePolicyService := ⟨RedisRateLimiter.sample, 1, {}, Int.one_pos⟩

def twoFailures : List (Int × Access) :=
  [(0, .consume .failures 7 "failure-1"), (1000000, .consume .failures 7 "failure-2")]

/-- Another client fails while the request is on its way. -/
def otherFailure : List (Int × Access) := [(3000000, .consume .failures 8 "failure-3")]

theorem authorized_exactly_twoFailures :
    (sample.authorizeNewReservation (sample.after (fun _ => .absent) twoFailures) 7 "request-1" 2000000 4000000 5000000
      (sample.after · otherFailure) (sample.after · []) (Table.empty.insert ⟨1, 7, true, none⟩) .empty 0 (days 1) 5000000).1 =
      .ok () := by
  refine (authorized_exactly (by decide)).1.mpr ⟨by decide, ⟨fun scope => ?_, by decide +kernel⟩, ⟨?_, ?_, ?_⟩, ?_⟩
  · cases scope <;> decide
  · decide +kernel
  · decide +kernel
  · decide +kernel
  · exact ⟨by decide +kernel, by decide +kernel, by decide +kernel, by decide +kernel⟩

end Authorize

/-! ### What the logs keep to -/

theorem log_snoc {e : Int × Access} :
    s.log scope clientId (calls ++ [e]) = s.logStep scope clientId (s.log scope clientId calls) e := by
  unfold log
  rw [List.foldl_append, List.foldl_cons, List.foldl_nil]

theorem logStep_cases (s : BookingAbusePolicyService) (scope : AbuseScope) (clientId : Int) (l : List (String × Int))
    (e : Int × Access) : s.logStep scope clientId l e = l ∨
      (∃ id, s.logStep scope clientId l e = request (s.policy.windowMs scope) (s.policy.limit scope) (nowMs e.1) id l) ∨
      scope = .failures ∧ s.logStep scope clientId l e = [] := by
  obtain ⟨time, access⟩ := e
  unfold logStep
  cases access with
  | inspectFailures => exact .inl rfl
  | consume scope' clientId' requestId =>
    dsimp only
    split
    · exact .inr (.inl ⟨requestId, rfl⟩)
    · exact .inl rfl
  | clearFailures clientId' =>
    dsimp only
    split
    · next same => exact .inr (.inr ⟨same.1, rfl⟩)
    · exact .inl rfl

theorem mem_log {p : String × Int} (h : p ∈ s.log scope clientId calls) : ∃ e ∈ calls, p.2 = nowMs e.1 := by
  induction calls using List.reverseRecOn with
  | nil => cases h
  | append_singleton calls e ih =>
    have earlier : p ∈ s.log scope clientId calls → ∃ x ∈ calls ++ [e], p.2 = nowMs x.1 := fun h => by
      obtain ⟨x, hx, at_⟩ := ih h
      exact ⟨x, List.mem_append_left _ hx, at_⟩
    rw [log_snoc] at h
    rcases logStep_cases s scope clientId (s.log scope clientId calls) e with same | ⟨id, asked⟩ | ⟨-, gone⟩
    · exact earlier (same ▸ h)
    · rw [asked] at h
      unfold request at h
      split at h
      · rcases List.mem_append.mp h with h | h
        · exact earlier h
        · exact ⟨e, List.mem_append_right _ (List.mem_singleton_self _), by rw [List.mem_singleton.mp h]⟩
      · exact earlier h
    · rw [gone] at h
      cases h

theorem log_admitted (kept : scope ≠ .failures) (ordered : Ordered calls) :
    Lib.Admitted (s.policy.windowMs scope) (s.policy.limit scope).toNat ((s.log scope clientId calls).map Prod.snd) := by
  induction calls using List.reverseRecOn with
  | nil => exact .nil
  | append_singleton calls e ih =>
    have past : ∀ p ∈ s.log scope clientId calls, p.2 ≤ nowMs e.1 := by
      intro p hp
      obtain ⟨x, hx, at_⟩ := mem_log hp
      rw [at_]
      exact RedisRateLimiter.nowMs_le (ordered.past x hx)
    rw [log_snoc]
    rcases logStep_cases s scope clientId (s.log scope clientId calls) e with same | ⟨id, asked⟩ | ⟨cleared, -⟩
    · rw [same]
      exact ih ordered.left
    · rw [asked]
      exact admitted_request past (ih ordered.left)
    · exact absurd cleared kept

theorem consume_logged {code : String} {rest : List (Int × Access)} (positive : 0 < clientId)
    (ordered : Ordered (calls ++ (time, .consume scope clientId requestId) :: rest))
    (passed : ((s.consume (s.after (fun _ => .absent) calls) time scope clientId requestId).1 >>= requireAllowed code) = .ok ()) :
    requestId ∈ (young (s.policy.windowMs scope) (nowMs time)
      (s.log scope clientId (calls ++ [(time, .consume scope clientId requestId)]))).map Prod.fst := by
  obtain ⟨accepted, fits⟩ := (consume_passes positive (shows_before positive ordered) le_rfl).mp passed
  rw [log_snoc]
  unfold logStep
  dsimp only
  rw [if_pos ⟨⟨rfl, rfl⟩, accepted⟩]
  exact mem_young_request windowMs_pos fits

/-- **Over every history a request that passes a window stands in its log, an interval as long as the window of the
attempts holds at most their limit of them, and two that the cooldown has admitted are at least the cooldown apart.** -/
theorem attempts_limited (positive : 0 < clientId) (ordered : Ordered calls) :
    (∀ before time scope requestId code rest, calls = before ++ (time, .consume scope clientId requestId) :: rest →
      ((s.consume (s.after (fun _ => .absent) before) time scope clientId requestId).1 >>= requireAllowed code) = .ok () →
      requestId ∈ (young (s.policy.windowMs scope) (nowMs time)
        (s.log scope clientId (before ++ [(time, .consume scope clientId requestId)]))).map Prod.fst) ∧
      (∀ a, ((s.log .attempts clientId calls).filter fun p => a ≤ p.2 ∧ p.2 < a + s.policy.windowMs .attempts).length ≤
        s.policy.attemptLimit) ∧
      ((s.log .cooldown clientId calls).map Prod.snd).Pairwise fun t t' => t + s.policy.windowMs .cooldown ≤ t' := by
  refine ⟨?logged, ?burst, (log_admitted (by decide) ordered).spaced⟩
  case logged =>
    rintro before time scope requestId code rest rfl passed
    exact consume_logged positive ordered passed
  case burst =>
    intro a
    have few := (@log_admitted s .attempts clientId calls (by decide) ordered).burst a
    rw [List.filter_map, List.length_map] at few
    have room := @limit_pos s .attempts
    have cast : ((s.policy.limit .attempts).toNat : Int) = s.policy.attemptLimit := Int.toNat_of_nonneg (by omega)
    rw [← cast]
    exact_mod_cast few

/-- Two requests of one client, five seconds apart. -/
def twoRequests : List (Int × Access) :=
  [(0, .consume .attempts 7 "request-1"), (0, .consume .cooldown 7 "request-1"), (5000000, .consume .attempts 7 "request-2"),
    (5000000, .consume .cooldown 7 "request-2")]

theorem attempts_limited_twoRequests :
    sample.log .cooldown 7 twoRequests = [("request-1", 0), ("request-2", 5000)] ∧
      ((sample.log .cooldown 7 twoRequests).map Prod.snd).Pairwise fun t t' => t + sample.policy.windowMs .cooldown ≤ t' :=
  ⟨by decide +kernel, (attempts_limited (by decide) (by decide)).2.2⟩

end BookingAbusePolicyService

end SalonBooking
