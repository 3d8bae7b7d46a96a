import SalonBooking.Domain.Enums
import SalonBooking.Lib.Guarded
import SalonBooking.Lib.Latest

/-!
# Component heartbeats

Every process publishes when it last worked under a key of its deployment and component, and a probe judges the age of
what it finds there by the same clock. Over every history of heartbeats of any number of deployments in one store the
probe of a component sees the last heartbeat of this very component and nothing else, and takes it for healthy exactly
as long as its maximal age allows.
-/

namespace SalonBooking.Runtime

open Lib

/-- The clock of the store in milliseconds. -/
abbrev ClockMs := {ms : Int // 0 < ms}

def lowerOrDigit (c : Char) : Bool := c.isLower || c.isDigit

/-- `^[first][a-z0-9_-]{1,limit}$` on the whole text. -/
def safeName (first : Char → Bool) (limit : Nat) (s : String) : Bool :=
  match s.toList with
  | c :: rest => first c && 1 ≤ rest.length && rest.length ≤ limit &&
      rest.all fun c => lowerOrDigit c || c == '_' || c == '-'
  | [] => false

/-- `_SAFE_COMPONENT`. -/
def safeComponent (s : String) : Bool := safeName Char.isLower 47 s

/-- `_SAFE_INSTANCE`. -/
def safeInstance (s : String) : Bool := safeName lowerOrDigit 63 s

inductive ComponentStatus
  | healthy | overdue | missing | storeUnavailable
deriving DecidableEq

def ComponentStatus.value : ComponentStatus → String
  | .healthy => "healthy"
  | .overdue => "overdue"
  | .missing => "missing"
  | .storeUnavailable => "store_unavailable"

structure ComponentPolicy where
  name : String
  maxAgeSeconds : Int
  required : Bool
  name_safe : safeComponent name = true
  age_range : 1 ≤ maxAgeSeconds ∧ maxAgeSeconds ≤ 2678400

structure ComponentState where
  name : String
  status : ComponentStatus
  required : Bool
  maxAgeSeconds : Int
  ageSeconds : Option ℚ
  lastHeartbeatAt : Option Int
deriving DecidableEq

structure ComponentHealthSnapshot where
  healthy : Bool
  storeAvailable : Bool
  checkedAt : Int
  components : List ComponentState
  errorCode : Option String
deriving DecidableEq

structure ComponentHealthMonitor where
  policies : List ComponentPolicy
  namespace_ : String
  instanceId : Option String
  hasFailureHook : Bool
  namespace_safe : safeComponent namespace_ = true
  policies_given : policies ≠ []
  instance_safe : ∀ i ∈ instanceId, safeInstance i = true
  names_unique : (policies.map (·.name)).Nodup

/-- The keys with the instants stored under them. -/
abbrev HeartbeatStore := Expiring String Int

def ComponentPolicy.retentionMs (p : ComponentPolicy) : Int := max (p.maxAgeSeconds * 3) 60 * 1000

/-- `_integer`. -/
def integer (value : Int) : Except Err Int := do
  require (0 < value) (.value "invalid heartbeat timestamp")
  return value

/-- `_snapshot_values`. -/
def snapshotValues (nowMs : Int) (raw : List (Option Int)) : Except Err (Int × List (Option Int)) := do
  let nowMs ← integer nowMs
  let heartbeats ← raw.mapM fun value => match value with
    | none => pure none
    | some value => some <$> integer value
  return (nowMs, heartbeats)

/-- `_state`. -/
def state (policy : ComponentPolicy) (heartbeatMs : Option Int) (nowMs : Int) : ComponentState :=
  match heartbeatMs with
  | none => ⟨policy.name, .missing, policy.required, policy.maxAgeSeconds, none, none⟩
  | some heartbeatMs =>
    let age : ℚ := max 0 ((nowMs - heartbeatMs) / 1000)
    let status : ComponentStatus := if age ≤ policy.maxAgeSeconds then .healthy else .overdue
    ⟨policy.name, status, policy.required, policy.maxAgeSeconds, some age, some heartbeatMs⟩

namespace ComponentHealthMonitor

/-- `__post_init__` of the policy. -/
def policy (name : String) (maxAgeSeconds : Int) : Except Err ComponentPolicy :=
  if safe : safeComponent name = true then
    if range : 1 ≤ maxAgeSeconds ∧ maxAgeSeconds ≤ 2678400 then .ok ⟨name, maxAgeSeconds, true, safe, range⟩
    else .error (.value "max_age_seconds must be between 1 and 2678400")
  else .error (.value "component name must be a safe lowercase identifier")

/-- `__init__`. -/
def make (policies : List ComponentPolicy) (namespace_ : String) (instanceId : Option String) (hasFailureHook : Bool) :
    Except Err ComponentHealthMonitor :=
  if safe : safeComponent namespace_ = true then
    if given : policies ≠ [] then
      if inst : ∀ i ∈ instanceId, safeInstance i = true then
        if unique : (policies.map (·.name)).Nodup then
          .ok ⟨policies, namespace_, instanceId, hasFailureHook, safe, given, inst, unique⟩
        else .error (.value "component policies must be unique")
      else .error (.value "instance_id must be a safe lowercase identifier")
    else .error (.value "at least one component policy is required")
  else .error (.value "namespace must be a safe lowercase identifier")

/-- `_by_name`. -/
def byName (m : ComponentHealthMonitor) (component : String) : Option ComponentPolicy :=
  m.policies.find? (·.name == component)

/-- `_key`. -/
def key (m : ComponentHealthMonitor) (component : String) : String :=
  let instanceSegment := match m.instanceId with
    | some instanceId => ":" ++ instanceId
    | none => ""
  m.namespace_ ++ instanceSegment ++ ":heartbeat:" ++ component

/-- `heartbeat`, at an instant of a store that answers or does not. -/
def heartbeat (m : ComponentHealthMonitor) (store : HeartbeatStore) (reachable : Bool) (now : ClockMs) (component : String) :
    Except Err Int × HeartbeatStore :=
  match m.byName component with
  | none => (.error (.value "component is not registered"), store)
  | some policy =>
    if reachable then (.ok now, store.set now (m.key component) now policy.retentionMs)
    else (.error (.runtime "heartbeat store unavailable"), store)

/-- `_unavailable_snapshot`. -/
def unavailableSnapshot (m : ComponentHealthMonitor) (utcNow : Int) : ComponentHealthSnapshot where
  healthy := false
  storeAvailable := false
  checkedAt := utcNow
  components := m.policies.map fun policy =>
    ⟨policy.name, .storeUnavailable, policy.required, policy.maxAgeSeconds, none, none⟩
  errorCode := some "heartbeat_store_unavailable"

/-- `check`: the snapshot, and what the failure hook is called with. `utcNow` is the clock of the process. -/
def check (m : ComponentHealthMonitor) (store : HeartbeatStore) (reachable : Bool) (now : ClockMs) (utcNow : Int) :
    ComponentHealthSnapshot × Option ComponentHealthSnapshot :=
  let values := if reachable then snapshotValues now (m.policies.map fun policy => store.get now (m.key policy.name))
    else .error (.runtime "redis")
  match values with
  | .error _ => (m.unavailableSnapshot utcNow, if m.hasFailureHook then some (m.unavailableSnapshot utcNow) else none)
  | .ok (nowMs, heartbeatValues) =>
    let states := (m.policies.zip heartbeatValues).map fun p => state p.1 p.2 nowMs
    let healthy := states.all fun state => !state.required || state.status == .healthy
    let snapshot : ComponentHealthSnapshot :=
      ⟨healthy, true, nowMs, states, if healthy then none else some "component_overdue"⟩
    (snapshot, if !healthy && m.hasFailureHook then some snapshot else none)

end ComponentHealthMonitor

/-! ### Keys -/

variable {m m' : ComponentHealthMonitor} {component component' : String} {now t : Int}

theorem colon_notMem_of_safe {first : Char → Bool} {limit : Nat} {s : String} (colon : first ':' = false)
    (h : safeName first limit s = true) : ':' ∉ s.toList := by
  intro mem
  unfold safeName at h
  split at h
  · rename_i c rest letters
    rw [letters] at mem
    simp only [Bool.and_eq_true, List.all_eq_true] at h
    rcases List.mem_cons.mp mem with rfl | mem
    · rw [colon] at h
      exact absurd h.1.1.1 (by decide)
    · exact absurd (h.2 _ mem) (by decide)
  · cases h

/-- The parts between the colons of a key. -/
def ComponentHealthMonitor.parts (m : ComponentHealthMonitor) (component : String) : List String :=
  m.namespace_ :: (m.instanceId.toList ++ ["heartbeat", component])

theorem key_parts : m.key component = ":".intercalate (m.parts component) := by
  have colons : ":heartbeat:" ++ component = ":" ++ ("heartbeat:" ++ component) := by
    rw [← String.append_assoc]
    rfl
  unfold ComponentHealthMonitor.key ComponentHealthMonitor.parts
  cases m.instanceId with
  | none => simp [String.append_assoc, colons]
  | some i => simp [String.append_assoc, colons]

theorem colon_notMem_parts (safe : safeComponent component = true) : ∀ part ∈ m.parts component, ':' ∉ part.toList := by
  have ofInstance : ∀ i ∈ m.instanceId.toList, ':' ∉ i.toList := fun i mem =>
    colon_notMem_of_safe (by decide) (m.instance_safe i (Option.mem_toList.mp mem))
  intro part mem
  simp only [ComponentHealthMonitor.parts, List.mem_cons, List.mem_append, List.not_mem_nil, or_false] at mem
  rcases mem with rfl | mem | rfl | rfl
  · exact colon_notMem_of_safe (by decide) m.namespace_safe
  · exact ofInstance part mem
  · decide
  · exact colon_notMem_of_safe (by decide) safe

/-- **Two components of two deployments never share a key.** -/
theorem key_injective (safe : safeComponent component = true) (safe' : safeComponent component' = true)
    (h : m.key component = m'.key component') :
    m.namespace_ = m'.namespace_ ∧ m.instanceId = m'.instanceId ∧ component = component' := by
  rw [key_parts, key_parts] at h
  have same : m.parts component = m'.parts component' :=
    intercalate_injective (c := ':') (colon_notMem_parts safe) (colon_notMem_parts safe')
      ⟨List.cons_ne_nil _ _, List.cons_ne_nil _ _⟩ h
  unfold ComponentHealthMonitor.parts at same
  cases here : m.instanceId with
  | none => cases there : m'.instanceId with
    | none => simpa [here, there] using same
    | some j => simp [here, there] at same
  | some i => cases there : m'.instanceId with
    | none => simp [here, there] at same
    | some j => simpa [here, there] using same

/-! ### Heartbeats -/

/-- One heartbeat that a process publishes. -/
structure Beat where
  monitor : ComponentHealthMonitor
  component : String
  reachable : Bool
  now : ClockMs

/-- The store after a history of heartbeats. -/
def run (beats : List Beat) : HeartbeatStore :=
  beats.foldl (fun store b => (b.monitor.heartbeat store b.reachable b.now b.component).2) Expiring.empty

namespace Beat

variable {b : Beat} {beats : List Beat}

/-- The instant from which the heartbeat is gone. -/
def expires (b : Beat) : Int := b.now + ((b.monitor.byName b.component).map ComponentPolicy.retentionMs).getD 0

/-- The heartbeat is written, for this component of the deployment of `m`. -/
def Publishes (b : Beat) (m : ComponentHealthMonitor) (component : String) : Prop :=
  (b.monitor.byName b.component).isSome = true ∧ b.reachable = true ∧ b.monitor.namespace_ = m.namespace_ ∧
    b.monitor.instanceId = m.instanceId ∧ b.component = component

/-- The last heartbeat that was published for this component of the deployment of `m`. -/
def Last (b : Beat) (beats : List Beat) (m : ComponentHealthMonitor) (component : String) : Prop :=
  ∃ before later, beats = before ++ b :: later ∧ b.Publishes m component ∧ ∀ other ∈ later, ¬ other.Publishes m component

/-- The access of the store that a heartbeat makes. -/
def access (b : Beat) : Option (Int × Access String Int) :=
  if b.reachable then
    (b.monitor.byName b.component).map fun policy =>
      (b.now.val, .put (b.monitor.key b.component) b.now policy.retentionMs)
  else none

theorem safe_of_byName {policy : ComponentPolicy} (h : m.byName component = some policy) :
    policy.name = component ∧ safeComponent component = true := by
  have named : policy.name = component := by simpa using List.find?_some h
  exact ⟨named, named ▸ policy.name_safe⟩

theorem heartbeat_access (store : HeartbeatStore) :
    (b.monitor.heartbeat store b.reachable b.now b.component).2 = store.after access b := by
  unfold ComponentHealthMonitor.heartbeat Expiring.after access
  cases b.monitor.byName b.component with
  | none => cases b.reachable <;> rfl
  | some policy => cases b.reachable <;> rfl

theorem run_accesses : run beats = Expiring.empty.run access beats := by
  unfold run Expiring.run
  congr 1
  funext store b
  exact heartbeat_access store

theorem concerns_iff (safe : safeComponent component = true) :
    Expiring.Concerns access b (m.key component) ↔ b.Publishes m component := by
  unfold Expiring.Concerns access Publishes
  cases found : b.monitor.byName b.component with
  | none => simp
  | some policy =>
    have safe' := (safe_of_byName found).2
    cases b.reachable with
    | false => simp
    | true =>
      simp only [if_true, Option.map_some, Option.mem_def, Option.some.injEq, exists_eq_left', Access.key, Option.isSome_some,
        true_and]
      constructor
      · exact fun same => key_injective safe' safe same
      · rintro ⟨space, inst, rfl⟩
        rw [key_parts, key_parts, ComponentHealthMonitor.parts, ComponentHealthMonitor.parts, space, inst]

theorem access_put (h : b.Publishes m component) :
    b.access = some (b.now.val, .put (m.key component) b.now.val (b.expires - b.now)) := by
  obtain ⟨registered, reachable, space, inst, rfl⟩ := h
  obtain ⟨policy, found⟩ := Option.isSome_iff_exists.mp registered
  have same : b.monitor.key b.component = m.key b.component := by
    rw [key_parts, key_parts, ComponentHealthMonitor.parts, ComponentHealthMonitor.parts, space, inst]
  simp [access, reachable, found, same, expires]

theorem get_run (safe : safeComponent component = true) : (run beats).get now (m.key component) = some t ↔
    ∃ b : Beat, b.Last beats m component ∧ now < b.expires ∧ b.now = t := by
  rw [run_accesses]
  constructor
  · intro got
    obtain ⟨⟨v, e⟩, found, live⟩ := Option.bind_eq_some_iff.mp got
    obtain ⟨before, b, later, at_, ttl, rfl, put, rfl, idle⟩ := Expiring.entry_run.mp found
    have publishes := (concerns_iff safe).mp ⟨_, put, rfl⟩
    rw [access_put publishes, Option.some.injEq, Prod.mk.injEq, Access.put.injEq] at put
    obtain ⟨rfl, -, rfl, rfl⟩ := put
    split_ifs at live with early
    · refine ⟨b, ⟨before, later, rfl, publishes, ?_⟩, by omega, Option.some.inj live⟩
      exact fun other mem published => idle other mem ((concerns_iff safe).mpr published)
  · rintro ⟨b, ⟨before, later, rfl, publishes, idle⟩, live, rfl⟩
    have found := Expiring.entry_run.mpr ⟨before, b, later, b.now, _, rfl, access_put publishes, rfl,
      fun other mem concerns => idle other mem ((concerns_iff safe).mp concerns)⟩
    rw [Expiring.get_of_entry found, if_pos (by omega)]

end Beat

/-! ### The probe -/

section Probe

variable {beats : List Beat} {policy : ComponentPolicy} {store : HeartbeatStore}

theorem snapshotValues_ok (positive : 0 < now) {raw : List (Option Int)} (h : ∀ v ∈ raw, ∀ t ∈ v, 0 < t) :
    snapshotValues now raw = .ok (now, raw) := by
  have values : (raw.mapM fun value => match value with
      | none => pure none
      | some value => some <$> integer value) = (Except.ok raw : Except Err _) := by
    induction raw with
    | nil => rfl
    | cons v raw ih =>
      have rest := ih fun w mem => h w (List.mem_cons_of_mem v mem)
      rw [List.mapM_cons, rest]
      cases v with
      | none => rfl
      | some t =>
        have ok : integer t = .ok t := by
          simp only [integer, Except.require_bind_ok, Except.pure_ok, and_true]
          exact h _ List.mem_cons_self t rfl
        simp only [ok]
        rfl
  have ok : integer now = .ok now := by
    simpa only [integer, Except.require_bind_ok, Except.pure_ok, and_true] using positive
  simp only [snapshotValues, Except.bind_ok, ok, values, Except.pure_ok, Except.ok.injEq, exists_eq_left']

/-- The age of a heartbeat and the maximal age compare on the clock of the store. -/
theorem age_le_iff {age : Int} (h : 0 ≤ age) :
    max 0 (((now : ℚ) - (t : ℚ)) / 1000) ≤ (age : ℚ) ↔ now ≤ t + 1000 * age := by
  have nonneg : (0 : ℚ) ≤ age := by exact_mod_cast h
  rw [max_le_iff, and_iff_right nonneg, div_le_iff₀ (by norm_num)]
  constructor
  · intro le
    have : (now : ℚ) ≤ t + 1000 * age := by linarith
    exact_mod_cast this
  · intro le
    have : (now : ℚ) ≤ t + 1000 * age := by exact_mod_cast le
    linarith

theorem maxAge_lt_retention (policy : ComponentPolicy) : 1000 * policy.maxAgeSeconds < policy.retentionMs := by
  have range := policy.age_range
  unfold ComponentPolicy.retentionMs
  omega

/-- What a probe says of one component at `now`. -/
structure Judged (beats : List Beat) (m : ComponentHealthMonitor) (now : Int) (policy : ComponentPolicy) (state : ComponentState) :
    Prop where
  named : state.name = policy.name ∧ state.required = policy.required ∧ state.maxAgeSeconds = policy.maxAgeSeconds
  /-- The component has worked within its maximal age. -/
  healthy : state.status = .healthy ↔
    ∃ b : Beat, b.Last beats m policy.name ∧ now < b.expires ∧ now ≤ b.now + 1000 * policy.maxAgeSeconds
  /-- Its last heartbeat is older, but not yet gone. -/
  overdue : state.status = .overdue ↔
    ∃ b : Beat, b.Last beats m policy.name ∧ now < b.expires ∧ b.now + 1000 * policy.maxAgeSeconds < now
  missing : state.status = .missing ↔ ∀ b : Beat, b.Last beats m policy.name → b.expires ≤ now
  shown : ∀ t, state.lastHeartbeatAt = some t ↔ ∃ b : Beat, b.Last beats m policy.name ∧ now < b.expires ∧ b.now = t
  /-- Under the policy of the process that published it a heartbeat is overdue before it is gone. -/
  kept : ∀ b : Beat, b.Last beats m policy.name → b.monitor.byName policy.name = some policy →
    now ≤ b.now + 1000 * policy.maxAgeSeconds → now < b.expires

theorem judged (beats : List Beat) (m : ComponentHealthMonitor) (now : Int) (policy : ComponentPolicy) :
    Judged beats m now policy (state policy ((run beats).get now (m.key policy.name)) now) := by
  have read : ∀ t, (run beats).get now (m.key policy.name) = some t ↔
      ∃ b : Beat, b.Last beats m policy.name ∧ now < b.expires ∧ b.now = t := fun _ => Beat.get_run policy.name_safe
  have nonneg : 0 ≤ policy.maxAgeSeconds := by have := policy.age_range; omega
  have kept : ∀ b : Beat, b.Last beats m policy.name → b.monitor.byName policy.name = some policy →
      now ≤ b.now + 1000 * policy.maxAgeSeconds → now < b.expires := by
    rintro b ⟨before, later, -, ⟨-, -, -, -, same⟩, -⟩ known fresh
    have longer := maxAge_lt_retention policy
    rw [Beat.expires, same, known, Option.map_some, Option.getD_some]
    omega
  cases found : (run beats).get now (m.key policy.name) with
  | none =>
    have gone : ∀ b : Beat, b.Last beats m policy.name → b.expires ≤ now := by
      intro b last
      by_contra live
      have got := (read b.now).mpr ⟨b, last, by omega, rfl⟩
      rw [found] at got
      cases got
    refine ⟨⟨rfl, rfl, rfl⟩, ?_, ?_, ?_, ?_, kept⟩
    · simp only [state, reduceCtorEq, false_iff]
      rintro ⟨b, last, live, -⟩
      exact absurd live (not_lt.mpr (gone b last))
    · simp only [state, reduceCtorEq, false_iff]
      rintro ⟨b, last, live, -⟩
      exact absurd live (not_lt.mpr (gone b last))
    · exact ⟨fun _ => gone, fun _ => rfl⟩
    · intro t
      rw [← read t, found]
      rfl
  | some at_ =>
    obtain ⟨b, last, live, rfl⟩ := (read _).mp found
    have only : ∀ b' : Beat, b'.Last beats m policy.name → now < b'.expires → b'.now.val = b.now.val := by
      intro b' last' live'
      have got := (read b'.now).mpr ⟨b', last', live', rfl⟩
      rw [found] at got
      exact (Option.some.inj got).symm
    have fresh : max 0 (((now : ℚ) - (b.now.val : ℚ)) / 1000) ≤ (policy.maxAgeSeconds : ℚ) ↔
        now ≤ b.now.val + 1000 * policy.maxAgeSeconds := age_le_iff nonneg
    refine ⟨⟨rfl, rfl, rfl⟩, ?_, ?_, ?_, ?_, kept⟩
    · simp only [state, fresh, ite_eq_left_iff, reduceCtorEq, imp_false, not_not]
      constructor
      · exact fun young => ⟨b, last, live, young⟩
      · rintro ⟨b', last', live', young⟩
        rwa [only b' last' live'] at young
    · simp only [state, fresh, ite_eq_right_iff, reduceCtorEq, imp_false, not_le]
      constructor
      · exact fun old => ⟨b, last, live, old⟩
      · rintro ⟨b', last', live', old⟩
        rwa [only b' last' live'] at old
    · have present : (state policy (some b.now.val) now).status ≠ .missing := by
        simp only [state]
        split_ifs <;> decide
      simp only [present, false_iff]
      exact fun gone => absurd live (not_lt.mpr (gone b last))
    · intro t
      rw [← read t, found]
      rfl

theorem zip_map_self {α β γ : Type} (xs : List α) (f : α → β) (g : α × β → γ) :
    (xs.zip (xs.map f)).map g = xs.map fun x => g (x, f x) := by
  induction xs with
  | nil => rfl
  | cons x xs ih => rw [List.map_cons, List.zip_cons_cons, List.map_cons, List.map_cons, ih]

theorem run_positive {key : String} (h : (run beats).get now key = some t) : 0 < t := by
  rw [Beat.run_accesses] at h
  obtain ⟨⟨v, e⟩, found, live⟩ := Option.bind_eq_some_iff.mp h
  obtain ⟨before, b, later, at_, ttl, rfl, put, -, -⟩ := Expiring.entry_run.mp found
  unfold Beat.access at put
  split_ifs at put
  obtain ⟨policy, -, same⟩ := Option.map_eq_some_iff.mp put
  simp only [Prod.mk.injEq, Access.put.injEq] at same
  split_ifs at live
  rw [← Option.some.inj live, ← same.2.2.1]
  exact b.now.property

/-- The states that a probe of a reachable store reports. -/
def states (m : ComponentHealthMonitor) (store : HeartbeatStore) (now : Int) : List ComponentState :=
  m.policies.map fun policy => state policy (store.get now (m.key policy.name)) now

theorem check_run (beats : List Beat) (m : ComponentHealthMonitor) (now : ClockMs) (utcNow : Int) : (m.check (run beats) true now utcNow).1 =
    ⟨(states m (run beats) now).all fun state => !state.required || state.status == .healthy, true, now,
      states m (run beats) now, if (states m (run beats) now).all fun state => !state.required || state.status == .healthy
        then none else some "component_overdue"⟩ ∧
    (m.check (run beats) true now utcNow).2 =
      if (m.check (run beats) true now utcNow).1.healthy = false ∧ m.hasFailureHook = true
        then some (m.check (run beats) true now utcNow).1 else none := by
  have values : snapshotValues now (m.policies.map fun policy => (run beats).get now (m.key policy.name)) = .ok (now.val, _) :=
    snapshotValues_ok now.property fun v mem t ht => by
      obtain ⟨policy, -, rfl⟩ := List.mem_map.mp mem
      exact run_positive ht
  simp only [ComponentHealthMonitor.check, if_true, values, zip_map_self]
  refine ⟨rfl, ?_⟩
  cases m.hasFailureHook <;> simp

theorem judged_states : List.Forall₂ (Judged beats m now) m.policies (states m (run beats) now) := by
  unfold states
  rw [List.forall₂_map_right_iff]
  exact List.forall₂_same.mpr fun policy _ => judged beats m now policy

/-- **Whatever heartbeats any number of deployments have published, a probe of a reachable store judges each of its
components by the last heartbeat of this component of its own deployment, and reports health exactly when every required
component has worked within its maximal age; a store that does not answer is never healthy.** -/
theorem check_exact (beats : List Beat) (m : ComponentHealthMonitor) (now : ClockMs) (utcNow : Int) :
    (∃ snapshot, (m.check (run beats) true now utcNow).1 = snapshot ∧ snapshot.storeAvailable = true ∧
      snapshot.checkedAt = now ∧ List.Forall₂ (Judged beats m now) m.policies snapshot.components ∧
      (snapshot.healthy = true ↔ ∀ policy ∈ m.policies, policy.required = true →
        ∃ b : Beat, b.Last beats m policy.name ∧ now < b.expires ∧ now ≤ b.now.val + 1000 * policy.maxAgeSeconds) ∧
      (snapshot.errorCode = if snapshot.healthy then none else some "component_overdue") ∧
      (m.check (run beats) true now utcNow).2 =
        if snapshot.healthy = false ∧ m.hasFailureHook = true then some snapshot else none) ∧
    ∀ store, (m.check store false now utcNow).1 = m.unavailableSnapshot utcNow ∧
      (m.unavailableSnapshot utcNow).healthy = false ∧
      (m.check store false now utcNow).2 = if m.hasFailureHook = true then some (m.unavailableSnapshot utcNow) else none := by
  obtain ⟨report, hook⟩ := check_run beats m now utcNow
  refine ⟨⟨_, rfl, ?_, ?_, ?_, ?_, ?_, hook⟩, fun _ => ⟨rfl, rfl, rfl⟩⟩
  · rw [report]
  · rw [report]
  · rw [report]
    exact judged_states
  · rw [report]
    simp only [states, List.all_map, List.all_eq_true, Function.comp_apply, Bool.or_eq_true, Bool.not_eq_true',
      beq_iff_eq, (judged beats m now _).named.2.1, (judged beats m now _).healthy]
    apply forall₂_congr
    intro policy _
    cases policy.required <;> simp
  · rw [report]

end Probe

/-! ### Processes -/

/-- The settings of a process that its heartbeats use. -/
structure RuntimeSettings where
  redisNamespace : String
  instanceId : String
  /-- `math.ceil(2 * reminder_poll_interval_seconds + 30)`. -/
  pollMaxAgeSeconds : Int
  referenceCleanupIntervalHours : Int
  namespace_safe : safeComponent redisNamespace = true
  instance_safe : safeInstance instanceId = true
  poll_range : 30 ≤ pollMaxAgeSeconds ∧ pollMaxAgeSeconds ≤ 630
  cleanup_range : 1 ≤ referenceCleanupIntervalHours ∧ referenceCleanupIntervalHours ≤ 168

/-- `_COMPONENTS`. -/
def runtimeComponents : List String :=
  ["bot", "reminders", "broadcasts", "reference_cleanup", "reservation_expiry", "privacy_deletion"]

namespace RuntimeSettings

/-- The maximal age that `component_policy` derives: two rounds of the worker and half a minute. -/
def maxAgeSeconds (settings : RuntimeSettings) (component : String) : Int :=
  if component = "bot" then 60
  else if component = "reminders" ∨ component = "broadcasts" then settings.pollMaxAgeSeconds
  else if component = "reference_cleanup" then settings.referenceCleanupIntervalHours * 3600 + 1800
  else if component = "privacy_deletion" then 150
  else 40

def componentPolicy (settings : RuntimeSettings) (component : String) : Except Err ComponentPolicy :=
  if component ∈ runtimeComponents then ComponentHealthMonitor.policy component (settings.maxAgeSeconds component)
  else .error (.value "unknown runtime component")

def componentMonitor (settings : RuntimeSettings) (component : String) : Except Err ComponentHealthMonitor := do
  let policy ← settings.componentPolicy component
  ComponentHealthMonitor.make [policy] settings.redisNamespace (some settings.instanceId) false

inductive ProbeError
  | raised (e : Err)
  | componentUnhealthy (component status errorCode : String)

/-- `check_component_heartbeat`. -/
def checkComponentHeartbeat (settings : RuntimeSettings) (store : HeartbeatStore) (reachable : Bool) (now : ClockMs) (utcNow : Int)
    (component : String) : Except ProbeError ComponentHealthSnapshot := do
  let monitor ← (settings.componentMonitor component).mapError .raised
  let snapshot := (monitor.check store reachable now utcNow).1
  if snapshot.healthy then return snapshot
  match snapshot.components with
  | state :: _ => throw (.componentUnhealthy component state.status.value (snapshot.errorCode.getD "component_unhealthy"))
  | [] => throw (.raised (.runtime "tuple index out of range"))

theorem componentMonitor_ok (settings : RuntimeSettings) {component : String} (h : component ∈ runtimeComponents) :
    ∃ m policy, settings.componentMonitor component = .ok m ∧ m.policies = [policy] ∧ policy.name = component ∧
      policy.maxAgeSeconds = settings.maxAgeSeconds component ∧ policy.required = true ∧
      m.namespace_ = settings.redisNamespace ∧ m.instanceId = some settings.instanceId := by
  have safe : safeComponent component = true := by
    simp only [runtimeComponents, List.mem_cons, List.not_mem_nil, or_false] at h
    rcases h with rfl | rfl | rfl | rfl | rfl | rfl <;> decide
  have range : 1 ≤ settings.maxAgeSeconds component ∧ settings.maxAgeSeconds component ≤ 2678400 := by
    have poll := settings.poll_range
    have cleanup := settings.cleanup_range
    unfold maxAgeSeconds
    split_ifs <;> omega
  have checked : settings.componentPolicy component =
      .ok ⟨component, settings.maxAgeSeconds component, true, safe, range⟩ := by
    rw [componentPolicy, if_pos h, ComponentHealthMonitor.policy, dif_pos safe, dif_pos range]
  have inst : ∀ i ∈ some settings.instanceId, safeInstance i = true := by
    intro i mem
    rw [← Option.some.inj mem]
    exact settings.instance_safe
  have made : settings.componentMonitor component =
      .ok ⟨[⟨component, settings.maxAgeSeconds component, true, safe, range⟩], settings.redisNamespace,
        some settings.instanceId, false, settings.namespace_safe, List.cons_ne_nil _ _, inst, by simp⟩ := by
    simp only [componentMonitor, checked, Except.bind_ok, Except.ok.injEq, exists_eq_left']
    rw [ComponentHealthMonitor.make, dif_pos settings.namespace_safe, dif_pos (List.cons_ne_nil _ _), dif_pos inst,
      dif_pos (by simp)]
  exact ⟨_, _, made, rfl, rfl, rfl, rfl, rfl, rfl⟩

/-- The probe of a process passes exactly when the component has worked within its maximal age, and its error names the
component and what was found. -/
theorem probe_of_registered (settings : RuntimeSettings) {component : String} (h : component ∈ runtimeComponents)
    (beats : List Beat) (now : ClockMs) (utcNow : Int) : ∃ m, settings.componentMonitor component = .ok m ∧
      ((∃ snapshot, settings.checkComponentHeartbeat (run beats) true now utcNow component = .ok snapshot) ↔
        ∃ b : Beat, b.Last beats m component ∧ now < b.expires ∧ now ≤ b.now.val + 1000 * settings.maxAgeSeconds component) ∧
      ∀ e, settings.checkComponentHeartbeat (run beats) true now utcNow component = .error e →
        ∃ status : ComponentStatus, (status = .overdue ∨ status = .missing) ∧
          e = .componentUnhealthy component status.value "component_overdue" := by
  obtain ⟨m, policy, made, policies, rfl, age, required, -, -⟩ := settings.componentMonitor_ok h
  have judgment := judged beats m now policy
  have report := (check_run beats m now utcNow).1
  have single : states m (run beats) now = [state policy ((run beats).get now (m.key policy.name)) now] := by
    rw [states, policies, List.map_singleton]
  rw [single, List.all_cons, List.all_nil, Bool.and_true, judgment.named.2.1, required, Bool.not_true, Bool.false_or] at report
  have answer : settings.checkComponentHeartbeat (run beats) true now utcNow policy.name =
      if (state policy ((run beats).get now (m.key policy.name)) now).status = .healthy then
        .ok (m.check (run beats) true now utcNow).1
      else .error (.componentUnhealthy policy.name
        (state policy ((run beats).get now (m.key policy.name)) now).status.value "component_overdue") := by
    unfold checkComponentHeartbeat
    rw [made]
    change (if (m.check (run beats) true now utcNow).1.healthy = true then _ else _) = _
    rw [report]
    by_cases healthy : (state policy ((run beats).get now (m.key policy.name)) now).status = .healthy
    · simp only [healthy, beq_self_eq_true, if_true]
      rfl
    · simp only [healthy, beq_iff_eq, if_false]
      rfl
  refine ⟨m, made, ?_, ?_⟩
  · rw [← age, ← judgment.healthy, answer]
    split_ifs with healthy <;> simp [healthy]
  · intro e failed
    rw [answer] at failed
    split_ifs at failed with healthy
    refine ⟨_, ?_, (Except.error.inj failed).symm⟩
    cases found : (run beats).get now (m.key policy.name) with
    | none => exact .inr rfl
    | some t =>
      rw [found] at healthy
      simp only [state] at healthy ⊢
      split_ifs at healthy ⊢
      · exact absurd rfl healthy
      · exact .inl rfl

end RuntimeSettings

end SalonBooking.Runtime
