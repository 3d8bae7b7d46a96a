import SalonBooking.Access.Bursts

/-!
# The sliding-window limit

What the limiter promises for a key that is always used with one limit and one window. Time intervals are taken on the
millisecond clock of the scripts, and an admission is a grant that is no repeat of a retained request id: a repeat late
in the window is granted again, and a grant that is a fraction of a millisecond younger than the window is pruned.
-/

namespace SalonBooking

open Lib

namespace RedisRateLimiter

open SortedSet

/-- `limit` and `windowSeconds` are enforced on the key of `scope`, `businessId` and `subjectId`. -/
structure Enforced (l : RedisRateLimiter) (scope : String) (businessId subjectId limit windowSeconds : Int) : Prop where
  /-- Between resets a window-long interval holds at most `limit` admissions. -/
  burst : ∀ db calls, l.Fixed (l.keyName scope businessId subjectId) limit windowSeconds calls →
    l.Unreset (l.keyName scope businessId subjectId) calls → Monotone calls → ∀ a,
    ((l.admissions (l.keyName scope businessId subjectId) db calls).filter fun p =>
      a ≤ p.2 ∧ p.2 < a + windowSeconds * 1000).length ≤ limit
  /-- A repeat of an admitted request id that is younger than the window is granted, and takes no room. -/
  repeats : ∀ db calls time, l.Fixed (l.keyName scope businessId subjectId) limit windowSeconds calls →
    l.Unreset (l.keyName scope businessId subjectId) calls → Monotone calls → (∀ e ∈ calls, e.1 ≤ time) →
    ∀ p ∈ l.admissions (l.keyName scope businessId subjectId) db calls, nowMs time < p.2 + windowSeconds * 1000 →
    safeRequestId p.1 = true → ∃ d db',
      l.consume (l.run db calls) time scope businessId subjectId p.1 limit windowSeconds = (.ok d, db') ∧ d.allowed = true ∧
      (db' (l.keyName scope businessId subjectId)).retained (nowMs time) (windowSeconds * 1000) =
        (l.run db calls (l.keyName scope businessId subjectId)).retained (nowMs time) (windowSeconds * 1000)
  /-- At one instant `inspect` and a `consume` of a new request id answer the same. -/
  inspects : ∀ (db : RateStore) time requestId, safeRequestId requestId = true →
    requestId ∉ ((db (l.keyName scope businessId subjectId)).retained (nowMs time) (windowSeconds * 1000)).map Prod.fst →
    ∃ d d', (l.inspect db time scope businessId subjectId limit windowSeconds).1 = .ok d ∧
      (l.consume db time scope businessId subjectId requestId limit windowSeconds).1 = .ok d' ∧
      d.allowed = d'.allowed ∧ d.retryAfterSeconds = d'.retryAfterSeconds ∧
      d.remaining = d'.remaining + if d.allowed then 1 else 0
  /-- Who waits as long as a refusal says is granted, when nothing was admitted meanwhile. -/
  waits : ∀ history time requestId d db', l.Fixed (l.keyName scope businessId subjectId) limit windowSeconds history →
    l.consume (l.run (fun _ => .absent) history) time scope businessId subjectId requestId limit windowSeconds = (.ok d, db') →
    d.allowed = false → ∀ calls, l.Fixed (l.keyName scope businessId subjectId) limit windowSeconds calls → Monotone calls →
    (∀ e ∈ calls, time ≤ e.1) → l.admissions (l.keyName scope businessId subjectId) db' calls = [] →
    ∀ again requestId', (∀ e ∈ calls, e.1 ≤ again) → time + d.retryAfterSeconds * 1000000 ≤ again →
    safeRequestId requestId' = true →
    (l.consume (l.run db' calls) again scope businessId subjectId requestId' limit windowSeconds).1.toOption.any (·.allowed) = true

variable {l : RedisRateLimiter} {db : RateStore} {key scope requestId : String} {calls : List (Int × RateCall)}
variable {time businessId subjectId limit windowSeconds : Int}

theorem validateWindow_ok (h : validateWindow limit windowSeconds = .ok ()) : 1 ≤ limit ∧ 1 ≤ windowSeconds := by
  simp only [validateWindow, Except.bind_ok, Except.require_ok, exists_const] at h
  exact ⟨h.1.1, h.2.1⟩

theorem times_bounded (calls : List (Int × RateCall)) : ∃ first last, ∀ e ∈ calls, first ≤ e.1 ∧ e.1 ≤ last := by
  induction calls with
  | nil => exact ⟨0, 0, fun _ he => absurd he List.not_mem_nil⟩
  | cons e calls ih =>
    obtain ⟨first, last, h⟩ := ih
    refine ⟨min e.1 first, max e.1 last, fun x hx => ?_⟩
    rcases List.mem_cons.mp hx with rfl | hx
    · exact ⟨min_le_left _ _, le_max_left _ _⟩
    · exact ⟨(min_le_right _ _).trans (h x hx).1, (h x hx).2.trans (le_max_right _ _)⟩

/-- What a run without resets has admitted, and what it retains of it at a later time. -/
theorem admitted_run (fixed : l.Fixed key limit windowSeconds calls) (unreset : l.Unreset key calls) (ordered : Monotone calls)
    (past : ∀ e ∈ calls, e.1 ≤ time) :
    Holds (windowSeconds * 1000) (l.admissions key db calls) (nowMs time) (l.run db calls key) ∧
      Admitted (windowSeconds * 1000) limit.toNat ((l.admissions key db calls).map Prod.snd) := by
  obtain ⟨first, _, h⟩ := times_bounded calls
  have since : ∀ e ∈ calls, min first time ≤ e.1 := fun e he => (min_le_left _ _).trans (h e he).1
  exact (@run_holds _ _ _ _ _ _ []) fixed unreset ordered since holds_nil .nil (min_le_right _ _) past

theorem burst_of_fixed (positive : 1 ≤ limit) (fixed : l.Fixed key limit windowSeconds calls)
    (unreset : l.Unreset key calls) (ordered : Monotone calls) (a : Int) :
    ((l.admissions key db calls).filter fun p => a ≤ p.2 ∧ p.2 < a + windowSeconds * 1000).length ≤ limit := by
  obtain ⟨_, last, h⟩ := times_bounded calls
  have few := (@admitted_run _ db _ _ _ _ _ fixed unreset ordered fun e he => (h e he).2).2.burst a
  rw [List.filter_map, List.length_map] at few
  have cast : (limit.toNat : Int) = limit := Int.toNat_of_nonneg (by omega)
  rw [← cast]
  exact_mod_cast few

theorem decision_refuse {now windowMs : Int} {s : SortedSet} (full : s.members ≠ []) :
    ∃ p ∈ s.members, decision (refuse now windowMs s).1 =
      .ok ⟨false, 0, (max 1 (p.2 + windowMs - now) + 999) / 1000⟩ := by
  obtain ⟨p, hp, reply⟩ := (@refuse_retry windowMs _ now) full
  refine ⟨p, hp, ?_⟩
  rw [reply, decision_eq ⟨.inl rfl, le_rfl, (by decide : (0 : Int) ≤ 1).trans (le_max_left _ _)⟩]
  rfl

theorem ne_nil_of_full {s : SortedSet} {now windowMs : Int} (positive : 1 ≤ limit)
    (full : limit ≤ (s.retained now windowMs).length) : s.retained now windowMs ≠ [] := by
  intro none
  rw [none, List.length_nil] at full
  omega

theorem consume_of_retained (hkey : l.key scope businessId subjectId = .ok key)
    (window : validateWindow limit windowSeconds = .ok ()) (safe : safeRequestId requestId = true)
    (known : requestId ∈ ((db key).retained (nowMs time) (windowSeconds * 1000)).map Prod.fst) :
    ∃ d db', l.consume db time scope businessId subjectId requestId limit windowSeconds = (.ok d, db') ∧ d.allowed = true ∧
      (db' key).retained (nowMs time) (windowSeconds * 1000) = (db key).retained (nowMs time) (windowSeconds * 1000) := by
  rw [consume_eq hkey window safe]
  unfold eval
  rcases consumeScript_cases time (windowSeconds * 1000) limit requestId (db key) with
    ⟨-, reply, kept⟩ | ⟨new, -⟩ | ⟨new, -⟩
  · rw [reply, decision_eq ⟨.inr rfl, le_max_right _ _, le_rfl⟩]
    refine ⟨_, _, rfl, rfl, ?_⟩
    rw [Function.update_self]
    have positive := (validateWindow_ok window).2
    exact kept.retained_now (by omega)
  · exact absurd known new
  · exact absurd known new

theorem consume_of_room (hkey : l.key scope businessId subjectId = .ok key)
    (window : validateWindow limit windowSeconds = .ok ()) (safe : safeRequestId requestId = true)
    (room : ((db key).retained (nowMs time) (windowSeconds * 1000)).length < limit) :
    (l.consume db time scope businessId subjectId requestId limit windowSeconds).1.toOption.any (·.allowed) = true := by
  rw [consume_eq hkey window safe]
  unfold eval
  rcases consumeScript_cases time (windowSeconds * 1000) limit requestId (db key) with
    ⟨-, reply, -⟩ | ⟨-, full, -⟩ | ⟨-, -, reply, -⟩
  · rw [reply, decision_eq ⟨.inr rfl, le_max_right _ _, le_rfl⟩]
    rfl
  · omega
  · rw [reply, decision_eq ⟨.inr rfl, le_max_right _ _, le_rfl⟩]
    rfl

theorem inspect_agrees (hkey : l.key scope businessId subjectId = .ok key)
    (window : validateWindow limit windowSeconds = .ok ()) (safe : safeRequestId requestId = true)
    (new : requestId ∉ ((db key).retained (nowMs time) (windowSeconds * 1000)).map Prod.fst) :
    ∃ d d', (l.inspect db time scope businessId subjectId limit windowSeconds).1 = .ok d ∧
      (l.consume db time scope businessId subjectId requestId limit windowSeconds).1 = .ok d' ∧
      d.allowed = d'.allowed ∧ d.retryAfterSeconds = d'.retryAfterSeconds ∧
      d.remaining = d'.remaining + if d.allowed then 1 else 0 := by
  rw [consume_eq hkey window safe, inspect_eq hkey window]
  unfold eval
  have positive := (validateWindow_ok window).1
  rcases consumeScript_cases time (windowSeconds * 1000) limit requestId (db key) with
    ⟨known, -⟩ | ⟨-, full, refused⟩ | ⟨-, room, reply, -⟩
  · exact absurd known new
  · rcases inspectScript_cases time (windowSeconds * 1000) limit (db key) with ⟨-, refused'⟩ | ⟨room, -⟩
    · obtain ⟨p, -, answer⟩ := (@decision_refuse (nowMs time) (windowSeconds * 1000)) (ne_nil_of_full positive full)
      rw [refused, refused']
      exact ⟨_, _, answer, answer, rfl, rfl, rfl⟩
    · omega
  · rcases inspectScript_cases time (windowSeconds * 1000) limit (db key) with ⟨full, -⟩ | ⟨-, reply', -⟩
    · omega
    · rw [reply, reply', decision_eq ⟨.inr rfl, le_max_right _ _, le_rfl⟩, decision_eq ⟨.inr rfl, le_max_right _ _, le_rfl⟩]
      refine ⟨_, _, rfl, rfl, rfl, rfl, ?_⟩
      show max _ 0 = max _ 0 + 1
      omega

theorem consume_refused (hkey : l.key scope businessId subjectId = .ok key)
    (window : validateWindow limit windowSeconds = .ok ()) {d : RateLimitDecision} {db' : RateStore}
    (h : l.consume db time scope businessId subjectId requestId limit windowSeconds = (.ok d, db')) (refused : d.allowed = false) :
    ∃ p ∈ (db key).retained (nowMs time) (windowSeconds * 1000),
      d.retryAfterSeconds = (max 1 (p.2 + windowSeconds * 1000 - nowMs time) + 999) / 1000 ∧
      Touched (nowMs time) (windowSeconds * 1000) ((db key).retained (nowMs time) (windowSeconds * 1000)) (db' key) := by
  rcases @consume_cases l db scope requestId time businessId subjectId limit windowSeconds with
    ⟨k, hk, run⟩ | ⟨e, failed⟩
  · obtain rfl : key = k := Except.ok.inj (hkey.symm.trans hk)
    rw [run] at h
    unfold eval at h
    rcases consumeScript_cases time (windowSeconds * 1000) limit requestId (db key) with
      ⟨-, reply, -⟩ | ⟨-, full, refuses⟩ | ⟨-, -, reply, -⟩
    · rw [reply, decision_eq ⟨.inr rfl, le_max_right _ _, le_rfl⟩] at h
      obtain ⟨rfl, -⟩ := Prod.mk.inj h |>.imp_left Except.ok.inj
      cases refused
    · obtain ⟨p, hp, answer⟩ := @decision_refuse (nowMs time) (windowSeconds * 1000) _
        (ne_nil_of_full (validateWindow_ok window).1 full)
      rw [refuses, answer] at h
      obtain ⟨rfl, rfl⟩ := Prod.mk.inj h |>.imp_left Except.ok.inj
      refine ⟨p, hp, rfl, ?_⟩
      rw [Function.update_self]
      exact refuse_touched
    · rw [reply, decision_eq ⟨.inr rfl, le_max_right _ _, le_rfl⟩] at h
      obtain ⟨rfl, -⟩ := Prod.mk.inj h |>.imp_left Except.ok.inj
      cases refused
  · rw [failed] at h
    cases (Prod.mk.inj h).1

theorem room_after {members : List (String × Int)} {p : String × Int} {s : SortedSet} {now windowMs : Int} (mem : p ∈ members)
    (few : (members.length : Int) ≤ limit) (gone : p.2 ≤ now - windowMs)
    (within : (s.retained now windowMs).Sublist (members.filter (now - windowMs < ·.2))) :
    (s.retained now windowMs).length < limit := by
  have fewer : (members.filter (now - windowMs < ·.2)).length < members.length := by
    rw [List.length_filter_lt_length_iff_exists]
    exact ⟨p, mem, by simpa using gone⟩
  have := within.length_le
  omega

theorem enforced (hkey : l.key scope businessId subjectId = .ok (l.keyName scope businessId subjectId))
    (window : validateWindow limit windowSeconds = .ok ()) : l.Enforced scope businessId subjectId limit windowSeconds := by
  refine ⟨?burst, ?repeats, ?inspects, ?waits⟩
  case burst =>
    intro db calls fixed unreset ordered a
    exact burst_of_fixed (validateWindow_ok window).1 fixed unreset ordered a
  case repeats =>
    intro db calls time fixed unreset ordered past p hp young safe
    refine consume_of_retained hkey window safe ?_
    have held := ((@admitted_run _ db _ _ _ _ _ fixed unreset ordered past).1.kept (nowMs time) le_rfl).subset
    refine List.mem_map_of_mem (held (List.mem_filter.mpr ⟨hp, ?_⟩))
    rw [decide_eq_true_eq]
    omega
  case inspects =>
    intro db time requestId safe new
    exact inspect_agrees hkey window safe new
  case waits =>
    intro history time requestId d db' fixed answer refused calls fixed' ordered since quiet again requestId' past wait safe
    obtain ⟨p, mem, retry, kept⟩ := consume_refused hkey window answer refused
    refine consume_of_room hkey window safe (room_after mem ?few ?gone ?within)
    case few =>
      have few := (@run_few _ (fun _ => SortedSet.absent)) fixed
        ((by decide : ((0 : Nat) : Int) ≤ 1).trans (validateWindow_ok window).1)
      have held := (@retained_sublist (l.run (fun _ => .absent) history (l.keyName scope businessId subjectId)) (nowMs time)
        (windowSeconds * 1000)).length_le
      omega
    case gone =>
      rw [retry] at wait
      rw [nowMs_eq] at wait ⊢
      omega
    case within =>
      have here : time ≤ again := by omega
      exact run_within fixed' ordered since (fun later hl => kept.retained_sublist) quiet here past (nowMs again) le_rfl

/-! ### One call a minute -/

def sample : RedisRateLimiter := ⟨"telegram_crm", safeNamespace_telegramCrm⟩

def minute (requestId : String) : RateCall := .consume "booking" 1 7 requestId 1 60

/-- Whether the call would be granted after these. -/
def grantedAfter (calls : List (Int × RateCall)) (time : Int) (requestId : String) : Bool :=
  (sample.consume (sample.run (fun _ => .absent) calls) time "booking" 1 7 requestId 1 60).1.toOption.any (·.allowed)

/-- Two request ids are granted within a minute: the first one by a repeat in its last second, or a fraction of a
millisecond before the minute is over. -/
theorem granted_within_minute :
    grantedAfter [(0, minute "request-1")] 59000000 "request-1" = true ∧
      grantedAfter [(0, minute "request-1"), (59000000, minute "request-1")] 60000000 "request-2" = true ∧
      grantedAfter [] 900 "request-1" = true ∧ grantedAfter [(900, minute "request-1")] 60000000 "request-2" = true := by
  decide +kernel

theorem enforced_minute : sample.Enforced "booking" 1 7 1 60 := enforced (by decide +kernel) (by decide +kernel)

end RedisRateLimiter

end SalonBooking
