import SalonBooking.Access.RateLimit
import SalonBooking.Lib.SlidingWindow

/-!
# What a rate limit enforces

A key holds exactly the admissions that are younger than the window: a call prunes the older ones, and the key
expires a window after the last call that touched it, when none of its members is younger. An admission is a grant
that is no repeat of a retained request id. Time in the scripts is in whole milliseconds.
-/

namespace SalonBooking

open Lib

namespace SortedSet

/-- The members that a script with this window finds. -/
def retained (s : SortedSet) (now windowMs : Int) : List (String × Int) :=
  ((s.live now).zremrangebyscore (now - windowMs)).members

variable {s : SortedSet} {now later windowMs cutoff : Int} {members log : List (String × Int)} {id : String}

theorem zremrangebyscore_members : (s.zremrangebyscore cutoff).members = s.members.filter (cutoff < ·.2) := by
  unfold zremrangebyscore
  dsimp only
  split
  · next h => exact h.symm
  · rfl

@[simp] theorem pexpire_members : (s.pexpire now windowMs).members = s.members := by
  unfold pexpire
  split <;> rfl

theorem retained_sublist : (s.retained now windowMs).Sublist s.members := by
  unfold retained live
  rw [zremrangebyscore_members]
  split
  · exact List.nil_sublist _
  · exact List.filter_sublist

@[simp] theorem retained_absent : absent.retained now windowMs = [] :=
  List.sublist_nil.mp retained_sublist

/-- A call left these members and renewed the key. -/
structure Touched (now windowMs : Int) (members : List (String × Int)) (s : SortedSet) : Prop where
  members_eq : s.members = members
  expires : members ≠ [] → s.expiresAt = some (now + windowMs)

theorem touched_pexpire : Touched now windowMs s.members (s.pexpire now windowMs) := by
  refine ⟨pexpire_members, fun h => ?_⟩
  unfold pexpire
  rw [if_neg h]

theorem touched_absent : Touched now windowMs [] absent := ⟨rfl, fun h => absurd rfl h⟩

theorem Touched.retained_sublist (h : Touched now windowMs members s) :
    (s.retained later windowMs).Sublist (members.filter (later - windowMs < ·.2)) := by
  unfold retained live
  rw [zremrangebyscore_members]
  split
  · exact List.nil_sublist _
  · rw [h.members_eq]

/-- Nothing that is younger than the window is lost: a key that expired holds none. -/
theorem Touched.sublist_retained (h : Touched now windowMs members s) (sub : log.Sublist members)
    (past : ∀ p ∈ log, p.2 ≤ now) : (log.filter (later - windowMs < ·.2)).Sublist (s.retained later windowMs) := by
  by_cases gone : log.filter (later - windowMs < ·.2) = []
  · rw [gone]
    exact List.nil_sublist _
  obtain ⟨p, hp⟩ := List.exists_mem_of_ne_nil _ gone
  obtain ⟨mem, young⟩ := List.mem_filter.mp hp
  have nonempty : members ≠ [] := List.ne_nil_of_mem (sub.subset mem)
  have fresh : ¬ now + windowMs ≤ later := by
    have := past p mem
    have := of_decide_eq_true young
    omega
  unfold retained live
  rw [zremrangebyscore_members, h.expires nonempty, if_neg (by simpa using fresh), h.members_eq]
  exact sub.filter _

end SortedSet

/-! ### The scripts -/

section Scripts

variable {time windowMs limit : Int} {member : String} {s : SortedSet}

theorem nowMs_eq : nowMs time = time / 1000 := by
  unfold nowMs
  omega

theorem zscore_isSome : (s.zscore member).isSome = true ↔ member ∈ s.members.map Prod.fst := by
  simp [SortedSet.zscore]

theorem refuse_touched {now : Int} : SortedSet.Touched now windowMs s.members (refuse now windowMs s).2 :=
  SortedSet.touched_pexpire

theorem consumeScript_cases (time windowMs limit : Int) (member : String) (s : SortedSet) :
    (member ∈ (s.retained (nowMs time) windowMs).map Prod.fst ∧
      (consumeScript time windowMs limit member s).1 =
        ⟨1, max (limit - (s.retained (nowMs time) windowMs).length) 0, 0⟩ ∧
      SortedSet.Touched (nowMs time) windowMs (s.retained (nowMs time) windowMs) (consumeScript time windowMs limit member s).2) ∨
    (member ∉ (s.retained (nowMs time) windowMs).map Prod.fst ∧ limit ≤ (s.retained (nowMs time) windowMs).length ∧
      consumeScript time windowMs limit member s =
        refuse (nowMs time) windowMs ((s.live (nowMs time)).zremrangebyscore (nowMs time - windowMs))) ∨
    (member ∉ (s.retained (nowMs time) windowMs).map Prod.fst ∧ (s.retained (nowMs time) windowMs).length < limit ∧
      (consumeScript time windowMs limit member s).1 =
        ⟨1, max (limit - ((s.retained (nowMs time) windowMs).length + 1)) 0, 0⟩ ∧
      SortedSet.Touched (nowMs time) windowMs (s.retained (nowMs time) windowMs ++ [(member, nowMs time)])
        (consumeScript time windowMs limit member s).2) := by
  unfold consumeScript
  dsimp only
  by_cases known : member ∈ (s.retained (nowMs time) windowMs).map Prod.fst
  · left
    rw [if_pos (zscore_isSome.mpr known)]
    exact ⟨known, rfl, SortedSet.touched_pexpire⟩
  · right
    rw [if_neg (fun h => known (zscore_isSome.mp h))]
    by_cases full : limit ≤ ((s.live (nowMs time)).zremrangebyscore (nowMs time - windowMs)).zcard
    · left
      rw [if_pos full]
      exact ⟨known, full, rfl⟩
    · right
      rw [if_neg full]
      exact ⟨known, not_le.mp full, rfl,
        SortedSet.touched_pexpire (s := ((s.live _).zremrangebyscore _).zadd (nowMs time) member)⟩

theorem inspectScript_cases (time windowMs limit : Int) (s : SortedSet) :
    (limit ≤ (s.retained (nowMs time) windowMs).length ∧ inspectScript time windowMs limit s =
        refuse (nowMs time) windowMs ((s.live (nowMs time)).zremrangebyscore (nowMs time - windowMs))) ∨
    ((s.retained (nowMs time) windowMs).length < limit ∧
      (inspectScript time windowMs limit s).1 = ⟨1, max (limit - (s.retained (nowMs time) windowMs).length) 0, 0⟩ ∧
      SortedSet.Touched (nowMs time) windowMs (s.retained (nowMs time) windowMs) (inspectScript time windowMs limit s).2) := by
  unfold inspectScript
  dsimp only
  by_cases full : limit ≤ ((s.live (nowMs time)).zremrangebyscore (nowMs time - windowMs)).zcard
  · left
    rw [if_pos full]
    exact ⟨full, rfl⟩
  · right
    rw [if_neg full]
    refine ⟨not_le.mp full, rfl, ?_⟩
    by_cases empty : ((s.live (nowMs time)).zremrangebyscore (nowMs time - windowMs)).zcard = 0
    · have gone : s.retained (nowMs time) windowMs = [] := List.length_eq_zero_iff.mp (Int.natCast_eq_zero.mp empty)
      rw [if_pos empty, gone]
      exact SortedSet.touched_absent
    · rw [if_neg empty]
      exact SortedSet.touched_pexpire

theorem refuse_retry {now : Int} (nonempty : s.members ≠ []) :
    ∃ p ∈ s.members, (refuse now windowMs s).1 = ⟨0, 0, max 1 (p.2 + windowMs - now)⟩ := by
  obtain ⟨score, hscore⟩ : ∃ score, s.oldest = some score := by
    cases h : s.oldest with
    | some score => exact ⟨score, rfl⟩
    | none =>
      unfold SortedSet.oldest at h
      rw [List.min?_eq_none_iff, List.map_eq_nil_iff] at h
      exact absurd h nonempty
  obtain ⟨p, hp, rfl⟩ := List.mem_map.mp (List.min?_mem hscore)
  refine ⟨p, hp, ?_⟩
  unfold refuse
  rw [hscore]

end Scripts

/-! ### Calls -/

inductive RateCall
  | consume (scope : String) (businessId subjectId : Int) (requestId : String) (limit windowSeconds : Int)
  | inspect (scope : String) (businessId subjectId : Int) (limit windowSeconds : Int)
  | reset (scope : String) (businessId subjectId : Int)

namespace RedisRateLimiter

variable (l : RedisRateLimiter)

/-- The store after one call at a server time. -/
def exec (db : RateStore) (time : Int) : RateCall → RateStore
  | .consume scope businessId subjectId requestId limit windowSeconds =>
    (l.consume db time scope businessId subjectId requestId limit windowSeconds).2
  | .inspect scope businessId subjectId limit windowSeconds =>
    (l.inspect db time scope businessId subjectId limit windowSeconds).2
  | .reset scope businessId subjectId => (l.reset db scope businessId subjectId).2

/-- The store after a sequence of calls. -/
def run (db : RateStore) (calls : List (Int × RateCall)) : RateStore := calls.foldl (fun db e => l.exec db e.1 e.2) db

/-- The key of a call that passes its checks on it. -/
def target : RateCall → Option String
  | .consume scope businessId subjectId _ _ _ => (l.key scope businessId subjectId).toOption
  | .inspect scope businessId subjectId _ _ => (l.key scope businessId subjectId).toOption
  | .reset scope businessId subjectId => (l.key scope businessId subjectId).toOption

/-- The request id that a call admits to the key: it is granted and was not retained. -/
def admits (db : RateStore) (key : String) (time : Int) : RateCall → Option String
  | .consume scope businessId subjectId requestId limit windowSeconds =>
    if (l.key scope businessId subjectId).toOption = some key ∧
        (l.consume db time scope businessId subjectId requestId limit windowSeconds).1.toOption.any (·.allowed) = true ∧
        requestId ∉ ((db key).retained (nowMs time) (windowSeconds * 1000)).map Prod.fst then some requestId
    else none
  | _ => none

/-- What a sequence of calls admits to the key, with the milliseconds. -/
def admissions (key : String) : RateStore → List (Int × RateCall) → List (String × Int)
  | _, [] => []
  | db, e :: rest => ((l.admits db key e.1 e.2).map fun id => (id, nowMs e.1)).toList ++
      admissions key (l.exec db e.1 e.2) rest

/-- Every call on the key uses one limit and one window. -/
def Fixed (key : String) (limit windowSeconds : Int) (calls : List (Int × RateCall)) : Prop :=
  ∀ e ∈ calls, l.target e.2 = some key → match e.2 with
    | .consume _ _ _ _ limit' windowSeconds' => limit' = limit ∧ windowSeconds' = windowSeconds
    | .inspect _ _ _ limit' windowSeconds' => limit' = limit ∧ windowSeconds' = windowSeconds
    | .reset .. => True

def Unreset (key : String) (calls : List (Int × RateCall)) : Prop :=
  ∀ e ∈ calls, l.target e.2 = some key → match e.2 with
    | .reset .. => False
    | _ => True

def Monotone (calls : List (Int × RateCall)) : Prop := (calls.map Prod.fst).Pairwise (· ≤ ·)

variable {l} {db : RateStore} {key scope requestId : String} {time businessId subjectId limit windowSeconds : Int}
variable {raw : ScriptReply}

theorem decision_eq (h : (raw.allowed = 0 ∨ raw.allowed = 1) ∧ 0 ≤ raw.remaining ∧ 0 ≤ raw.retryMs) :
    decision raw = .ok ⟨raw.allowed = 1, raw.remaining, (raw.retryMs + 999) / 1000⟩ := by
  unfold decision require
  rw [if_pos h]
  rfl

theorem consume_eq (hkey : l.key scope businessId subjectId = .ok key) (window : validateWindow limit windowSeconds = .ok ())
    (safe : safeRequestId requestId = true) :
    l.consume db time scope businessId subjectId requestId limit windowSeconds =
      eval (consumeScript time (windowSeconds * 1000) limit requestId) key db := by
  unfold consume
  rw [hkey, window, require, if_pos safe]
  rfl

theorem inspect_eq (hkey : l.key scope businessId subjectId = .ok key) (window : validateWindow limit windowSeconds = .ok ()) :
    l.inspect db time scope businessId subjectId limit windowSeconds =
      eval (inspectScript time (windowSeconds * 1000) limit) key db := by
  unfold inspect
  rw [hkey, window]
  rfl

theorem consume_cases : (∃ k, l.key scope businessId subjectId = .ok k ∧
      l.consume db time scope businessId subjectId requestId limit windowSeconds =
        eval (consumeScript time (windowSeconds * 1000) limit requestId) k db) ∨
    ∃ e, l.consume db time scope businessId subjectId requestId limit windowSeconds = (.error e, db) := by
  cases hkey : l.key scope businessId subjectId with
  | error e => exact .inr ⟨e, by unfold consume; rw [hkey]; rfl⟩
  | ok k =>
    cases window : validateWindow limit windowSeconds with
    | error e => exact .inr ⟨e, by unfold consume; rw [hkey, window]; rfl⟩
    | ok =>
      by_cases safe : safeRequestId requestId = true
      · exact .inl ⟨k, rfl, consume_eq hkey window safe⟩
      · exact .inr ⟨_, by unfold consume; rw [hkey, window, require, if_neg safe]; rfl⟩

theorem inspect_cases : (∃ k, l.key scope businessId subjectId = .ok k ∧
      l.inspect db time scope businessId subjectId limit windowSeconds =
        eval (inspectScript time (windowSeconds * 1000) limit) k db) ∨
    ∃ e, l.inspect db time scope businessId subjectId limit windowSeconds = (.error e, db) := by
  cases hkey : l.key scope businessId subjectId with
  | error e => exact .inr ⟨e, by unfold inspect; rw [hkey]; rfl⟩
  | ok k =>
    cases window : validateWindow limit windowSeconds with
    | error e => exact .inr ⟨e, by unfold inspect; rw [hkey, window]; rfl⟩
    | ok => exact .inl ⟨k, rfl, inspect_eq hkey window⟩

/-- What one call does to the key, and the id that it admits. -/
inductive Step (mayReset : Prop) (now windowMs limit : Int) (s s' : SortedSet) : Option String → Prop
  | untouched (same : s' = s) : Step mayReset now windowMs limit s s' none
  | reset (may : mayReset) (gone : s' = .absent) : Step mayReset now windowMs limit s s' none
  | touched (kept : SortedSet.Touched now windowMs (s.retained now windowMs) s') : Step mayReset now windowMs limit s s' none
  | admitted (id : String) (new : id ∉ (s.retained now windowMs).map Prod.fst)
      (room : (s.retained now windowMs).length < limit)
      (added : SortedSet.Touched now windowMs (s.retained now windowMs ++ [(id, now)]) s') :
      Step mayReset now windowMs limit s s' (some id)

theorem eval_of_ne {script : SortedSet → ScriptReply × SortedSet} {k : String} (h : key ≠ k) : (eval script k db).2 key = db key :=
  Function.update_of_ne h _ _

theorem eval_self {script : SortedSet → ScriptReply × SortedSet} : (eval script key db).2 key = (script (db key)).2 :=
  Function.update_self _ _ _

theorem allowed_of_decision (h : (decision raw).toOption.any (·.allowed) = true) : raw.allowed = 1 := by
  unfold decision require at h
  split at h
  · exact of_decide_eq_true h
  · cases h

theorem exec_step {call : RateCall} (fixed : l.Fixed key limit windowSeconds [(time, call)]) :
    Step (¬ l.Unreset key [(time, call)]) (nowMs time) (windowSeconds * 1000) limit (db key) (l.exec db time call key) (l.admits db key time call) := by
  have fixed := fixed (time, call) (List.mem_singleton_self _)
  cases call with
  | consume scope businessId subjectId requestId limit' windowSeconds' =>
    unfold exec admits
    dsimp only at fixed ⊢
    rcases @consume_cases l db scope requestId time businessId subjectId limit' windowSeconds' with
      ⟨k, hkey, run⟩ | ⟨e, refused⟩
    · rw [run, hkey]
      by_cases hk : k = key
      · subst hk
        obtain ⟨rfl, rfl⟩ := fixed (congrArg Except.toOption hkey)
        rw [eval_self]
        unfold eval
        rcases consumeScript_cases time (windowSeconds' * 1000) limit' requestId (db k) with
          ⟨known, -, kept⟩ | ⟨-, -, refused⟩ | ⟨new, room, reply, added⟩
        · rw [if_neg fun h => h.2.2 known]
          exact .touched kept
        · rw [refused, if_neg fun h => absurd (allowed_of_decision h.2.1) (by decide : ¬ (0 : Int) = 1)]
          exact .touched refuse_touched
        · have granted : (decision (consumeScript time (windowSeconds' * 1000) limit' requestId (db k)).1).toOption.any
              (·.allowed) = true := by
            rw [reply, decision_eq ⟨.inr rfl, le_max_right _ _, le_rfl⟩]
            rfl
          rw [if_pos ⟨rfl, granted, new⟩]
          exact .admitted requestId new room added
      · rw [eval_of_ne (Ne.symm hk), if_neg fun h => hk (Option.some.inj h.1)]
        exact .untouched rfl
    · rw [refused, if_neg fun h => by simp [Except.toOption] at h]
      exact .untouched rfl
  | inspect scope businessId subjectId limit' windowSeconds' =>
    unfold exec admits
    dsimp only at fixed ⊢
    rcases @inspect_cases l db scope time businessId subjectId limit' windowSeconds' with ⟨k, hkey, run⟩ | ⟨e, refused⟩
    · rw [run]
      by_cases hk : k = key
      · subst hk
        obtain ⟨rfl, rfl⟩ := fixed (congrArg Except.toOption hkey)
        rw [eval_self]
        rcases inspectScript_cases time (windowSeconds' * 1000) limit' (db k) with ⟨-, refused⟩ | ⟨-, -, kept⟩
        · rw [refused]
          exact .touched refuse_touched
        · exact .touched kept
      · rw [eval_of_ne (Ne.symm hk)]
        exact .untouched rfl
    · rw [refused]
      exact .untouched rfl
  | reset scope businessId subjectId =>
    unfold exec admits reset
    dsimp only
    cases hkey : l.key scope businessId subjectId with
    | error e => exact .untouched rfl
    | ok k =>
      by_cases hk : k = key
      · subst hk
        refine .reset (fun kept => ?_) (Function.update_self _ _ _)
        exact kept _ (List.mem_singleton_self _) (congrArg Except.toOption hkey)
      · exact .untouched (Function.update_of_ne (Ne.symm hk) _ _)

end RedisRateLimiter

/-! ### Runs -/

namespace SortedSet

variable {s s' : SortedSet} {now last windowMs : Int} {members log : List (String × Int)}

/-- Every admission that is younger than the window is retained, from `last` on. -/
structure Holds (windowMs : Int) (log : List (String × Int)) (last : Int) (s : SortedSet) : Prop where
  past : ∀ p ∈ log, p.2 ≤ last
  kept : ∀ later, last ≤ later → (log.filter (later - windowMs < ·.2)).Sublist (s.retained later windowMs)

/-- Only these members are retained, from `last` on. -/
def Within (windowMs : Int) (members : List (String × Int)) (last : Int) (s : SortedSet) : Prop :=
  ∀ later, last ≤ later → (s.retained later windowMs).Sublist (members.filter (later - windowMs < ·.2))

theorem Holds.later (h : Holds windowMs log last s) (le : last ≤ now) : Holds windowMs log now s :=
  ⟨fun p hp => (h.past p hp).trans le, fun later hl => h.kept later (le.trans hl)⟩

theorem holds_nil : Holds windowMs [] last s := ⟨fun _ hp => absurd hp List.not_mem_nil, fun _ _ => List.nil_sublist _⟩

theorem filter_filter_later {later : Int} (le : now ≤ later) :
    (log.filter (now - windowMs < ·.2)).filter (later - windowMs < ·.2) = log.filter (later - windowMs < ·.2) := by
  rw [List.filter_filter]
  apply List.filter_congr
  intro p _
  rw [Bool.and_eq_left_iff_imp, decide_eq_true_eq, decide_eq_true_eq]
  omega

theorem Touched.holds (h : Touched now windowMs members s') (past : ∀ p ∈ log, p.2 ≤ now)
    (sub : (log.filter (now - windowMs < ·.2)).Sublist members) : Holds windowMs log now s' := by
  refine ⟨past, fun later le => ?_⟩
  rw [← filter_filter_later le]
  exact h.sublist_retained sub fun p hp => past p (List.mem_of_mem_filter hp)

theorem Touched.retained_now (h : Touched now windowMs (s.retained now windowMs) s') (positive : 0 < windowMs) :
    s'.retained now windowMs = s.retained now windowMs := by
  have young : ∀ p ∈ s.retained now windowMs, now - windowMs < p.2 := by
    intro p hp
    unfold retained at hp
    rw [zremrangebyscore_members] at hp
    exact of_decide_eq_true (List.mem_filter.mp hp).2
  by_cases empty : s.retained now windowMs = []
  · rw [empty]
    refine List.sublist_nil.mp ?_
    have := @Touched.retained_sublist _ _ now _ _ h
    rwa [empty] at this
  · show ((s'.live now).zremrangebyscore (now - windowMs)).members = _
    rw [zremrangebyscore_members, live, h.expires empty, if_neg (by simpa using positive), h.members_eq]
    exact List.filter_eq_self.mpr fun p hp => decide_eq_true (young p hp)

end SortedSet

namespace RedisRateLimiter

open SortedSet

variable {l : RedisRateLimiter} {db : RateStore} {key scope requestId : String} {calls : List (Int × RateCall)}
variable {s s' : SortedSet} {now last time businessId subjectId limit windowMs windowSeconds : Int} {log members : List (String × Int)}
variable {id : Option String}

theorem Step.holds (step : Step False now windowMs limit s s' id)
    (h : Holds windowMs log last s) (le : last ≤ now) (fair : Admitted windowMs limit.toNat (log.map Prod.snd)) :
    Holds windowMs (log ++ (id.map fun id => (id, now)).toList) now s' ∧
      Admitted windowMs limit.toNat ((log ++ (id.map fun id => (id, now)).toList).map Prod.snd) := by
  have h := h.later le
  cases step with
  | untouched same =>
    rw [Option.map_none, Option.toList_none, List.append_nil, same]
    exact ⟨h, fair⟩
  | reset may => exact may.elim
  | touched kept =>
    rw [Option.map_none, Option.toList_none, List.append_nil]
    exact ⟨kept.holds h.past (h.kept now le_rfl), fair⟩
  | admitted id new room added =>
    rw [Option.map_some, Option.toList_some]
    constructor
    · refine added.holds ?_ ?_
      · intro p hp
        rcases List.mem_append.mp hp with hp | hp
        · exact h.past p hp
        · rw [List.mem_singleton.mp hp]
      · rw [List.filter_append]
        refine (h.kept now le_rfl).append ?_
        exact List.filter_sublist
    · rw [List.map_append]
      refine fair.snoc ?_ ?_
      · intro t ht
        obtain ⟨p, hp, rfl⟩ := List.mem_map.mp ht
        exact h.past p hp
      · have held := (h.kept now le_rfl).length_le
        have same : (recent windowMs now (log.map Prod.snd)).length = (log.filter (now - windowMs < ·.2)).length := by
          unfold recent
          rw [List.filter_map, List.length_map]
          rfl
        rw [same]
        omega

theorem Step.within {mayReset : Prop} (step : Step mayReset now windowMs limit s s' none)
    (h : Within windowMs members last s) (le : last ≤ now) : Within windowMs members now s' := by
  intro later hl
  cases step with
  | untouched same => exact same ▸ h later (le.trans hl)
  | reset _ gone =>
    rw [gone, retained_absent]
    exact List.nil_sublist _
  | touched kept =>
    refine kept.retained_sublist.trans ?_
    have young := (h now le).filter fun p => decide (later - windowMs < p.2)
    rwa [filter_filter_later hl] at young

theorem Step.few {mayReset : Prop} (step : Step mayReset now windowMs limit s s' id) (h : s.members.length ≤ limit) :
    s'.members.length ≤ limit := by
  have held := (@retained_sublist s now windowMs).length_le
  cases step with
  | untouched same => exact same ▸ h
  | reset _ gone =>
    rw [gone]
    exact (Int.natCast_nonneg _).trans h
  | touched kept =>
    rw [kept.members_eq]
    omega
  | admitted id new room added =>
    rw [added.members_eq, List.length_append, List.length_singleton]
    omega

theorem Fixed.head {e : Int × RateCall} (h : l.Fixed key limit windowSeconds (e :: calls)) :
    l.Fixed key limit windowSeconds [e] ∧ l.Fixed key limit windowSeconds calls :=
  ⟨fun x hx => h x (List.mem_singleton.mp hx ▸ List.mem_cons_self), fun x hx => h x (List.mem_cons_of_mem _ hx)⟩

theorem Unreset.head {e : Int × RateCall} (h : l.Unreset key (e :: calls)) :
    l.Unreset key [e] ∧ l.Unreset key calls :=
  ⟨fun x hx => h x (List.mem_singleton.mp hx ▸ List.mem_cons_self), fun x hx => h x (List.mem_cons_of_mem _ hx)⟩

theorem nowMs_le {t t' : Int} (h : t ≤ t') : nowMs t ≤ nowMs t' := by
  rw [nowMs_eq, nowMs_eq]
  omega

theorem Step.unreset {mayReset : Prop} (step : Step mayReset now windowMs limit s s' id) (no : ¬ mayReset) :
    Step False now windowMs limit s s' id := by
  cases step with
  | untouched same => exact .untouched same
  | reset may => exact absurd may no
  | touched kept => exact .touched kept
  | admitted id new room added => exact .admitted id new room added

/-- What a run without resets has admitted is spread out, and the young part of it is retained. -/
theorem run_holds (fixed : l.Fixed key limit windowSeconds calls)
    (unreset : l.Unreset key calls) (ordered : Monotone calls) {last : Int} (since : ∀ e ∈ calls, last ≤ e.1)
    (h : Holds (windowSeconds * 1000) log (nowMs last) (db key))
    (fair : Admitted (windowSeconds * 1000) limit.toNat (log.map Prod.snd)) {until_ : Int} (le : last ≤ until_)
    (past : ∀ e ∈ calls, e.1 ≤ until_) :
    Holds (windowSeconds * 1000) (log ++ l.admissions key db calls) (nowMs until_) (l.run db calls key) ∧
      Admitted (windowSeconds * 1000) limit.toNat ((log ++ l.admissions key db calls).map Prod.snd) := by
  induction calls generalizing db log last with
  | nil =>
    rw [admissions, List.append_nil]
    exact ⟨h.later (nowMs_le le), fair⟩
  | cons e calls ih =>
    rw [List.forall_mem_cons] at since past
    unfold Monotone at ordered
    rw [List.map_cons, List.pairwise_cons] at ordered
    have step := (@exec_step _ db _ e.1 _ _ e.2 fixed.head.1).unreset (not_not.mpr unreset.head.1)
    obtain ⟨h, fair⟩ := step.holds h (nowMs_le since.1) fair
    rw [admissions, ← List.append_assoc]
    have later : ∀ x ∈ calls, e.1 ≤ x.1 := fun x hx => ordered.1 x.1 (List.mem_map_of_mem hx)
    exact ih fixed.head.2 unreset.head.2 ordered.2 later h fair past.1 past.2

theorem run_within (fixed : l.Fixed key limit windowSeconds calls) (ordered : Monotone calls) {last : Int}
    (since : ∀ e ∈ calls, last ≤ e.1) (h : Within (windowSeconds * 1000) members (nowMs last) (db key))
    (quiet : l.admissions key db calls = []) {until_ : Int} (le : last ≤ until_) (past : ∀ e ∈ calls, e.1 ≤ until_) :
    Within (windowSeconds * 1000) members (nowMs until_) (l.run db calls key) := by
  induction calls generalizing db last with
  | nil => exact fun later hl => h later ((nowMs_le le).trans hl)
  | cons e calls ih =>
    rw [List.forall_mem_cons] at since past
    unfold Monotone at ordered
    rw [List.map_cons, List.pairwise_cons] at ordered
    rw [admissions, List.append_eq_nil_iff] at quiet
    have step := (@exec_step _ db _ e.1 _ _ e.2) fixed.head.1
    have none : l.admits db key e.1 e.2 = none := by
      cases hid : l.admits db key e.1 e.2 with
      | none => rfl
      | some id =>
        rw [hid] at quiet
        cases quiet.1
    rw [none] at step
    have later : ∀ x ∈ calls, e.1 ≤ x.1 := fun x hx => ordered.1 x.1 (List.mem_map_of_mem hx)
    exact ih fixed.head.2 ordered.2 later (step.within h (nowMs_le since.1)) quiet.2 past.1 past.2

theorem run_few (fixed : l.Fixed key limit windowSeconds calls) (h : (db key).members.length ≤ limit) :
    (l.run db calls key).members.length ≤ limit := by
  induction calls generalizing db with
  | nil => exact h
  | cons e calls ih =>
    have step := (@exec_step _ db _ e.1 _ _ e.2) fixed.head.1
    exact ih fixed.head.2 (step.few h)

end RedisRateLimiter

end SalonBooking
