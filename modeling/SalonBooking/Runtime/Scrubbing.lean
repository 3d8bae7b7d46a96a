import Mathlib

/-!
# Scrubbed events

`scrub_sentry_event` of `observability.py`. What becomes of a value depends on the keys on the way to it alone: it is
shown with its texts sanitised, replaced by a mark, or left out. So an event says nothing about what is under a
sensitive key, at any depth, and nothing else is lost. `str.casefold` and the patterns of `sanitize_text` are
parameters.
-/

namespace SalonBooking.Observability

/-- A value of an event; what is of no known type is given by its `str`. -/
inductive Value
  | none
  | bool (b : Bool)
  | int (n : Int)
  | float (text : String)
  | text (s : String)
  | other (s : String)
  | list (items : List Value)
  | mapping (items : List (String × Value))

inductive Location
  | event | request | frame | exception
deriving DecidableEq

/-- `_SENSITIVE_KEY_PARTS`. -/
def sensitiveKeyParts : List String :=
  ["authorization", "api_key", "apikey", "cookie", "password", "secret", "token", "dsn", "database_url", "redis_url",
    "phone", "email", "username", "ip_address", "initdata", "init_data", "webhook", "payment", "provider_object", "card",
    "account_number"]

/-- `_SENSITIVE_EXACT_KEYS`. -/
def sensitiveExactKeys : List String := ["pan", "cvv", "cvc"]

/-- `_DROP_EVENT_KEYS`. -/
def dropEventKeys : List String := ["user", "server_name"]

/-- `_DROP_REQUEST_KEYS`. -/
def dropRequestKeys : List String := ["data", "cookies", "query_string", "env"]

/-- `_DROP_FRAME_KEYS`. -/
def dropFrameKeys : List String := ["vars"]

def redacted : Value := .text "[redacted]"

/-- `_child_location`. -/
def childLocation (parent : Location) (key : String) : Location :=
  if key = "request" then .request
  else if key ∈ ["frames", "stacktrace"] ∨ parent = .frame then .frame
  else if key ∈ ["exception", "exceptions"] ∨ parent = .exception then .exception
  else parent

/-- What `_scrub_mapping` does with an item. -/
inductive Fate
  | dropped
  | redacted
  | kept (child : Location)

structure Texts where
  casefold : String → String
  sanitizeText : String → String

namespace Texts

variable (t : Texts)

/-- `key.casefold().replace("-", "_")`. -/
def normalized (key : String) : String := (t.casefold key).map fun c => if c = '-' then '_' else c

/-- `_sensitive_key`. -/
def sensitiveKey (key : String) : Bool :=
  sensitiveExactKeys.contains (t.normalized key) ||
    sensitiveKeyParts.any fun fragment => decide (fragment.toList <:+: (t.normalized key).toList)

/-- The branches of `_scrub_mapping`; the key is normalised before it is tested, and again by the test. -/
def fate (location : Location) (key : String) : Fate :=
  if location = .event ∧ t.normalized key ∈ dropEventKeys then .dropped
  else if location = .request ∧ t.normalized key ∈ dropRequestKeys then .redacted
  else if location = .frame ∧ t.normalized key ∈ dropFrameKeys then .dropped
  else if location = .exception ∧ t.normalized key = "value" then .redacted
  else if t.sensitiveKey (t.normalized key) = true then .redacted
  else .kept (childLocation location (t.normalized key))

mutual

/-- `_scrub_value`. -/
def scrubValue (location : Location) : Value → Value
  | .none => .none
  | .bool b => .bool b
  | .int n => .int n
  | .float text => .float text
  | .text s => .text (t.sanitizeText s)
  | .other s => .text (t.sanitizeText s)
  | .list items => .list (scrubItems location items)
  | .mapping items => .mapping (scrubMapping location items)

def scrubItems (location : Location) : List Value → List Value
  | [] => []
  | item :: items => scrubValue location item :: scrubItems location items

/-- `_scrub_mapping`. -/
def scrubMapping (location : Location) : List (String × Value) → List (String × Value)
  | [] => []
  | (key, item) :: items =>
    match t.fate location key with
    | .dropped => scrubMapping location items
    | .redacted => (key, redacted) :: scrubMapping location items
    | .kept child => (key, scrubValue child item) :: scrubMapping location items

end

def scrubSentryEvent (event : List (String × Value)) : List (String × Value) := t.scrubMapping .event event

end Texts

/-! ### Paths -/

inductive Step
  | key (key : String)
  | index (i : Nat)

namespace Value

def get? : List Step → Value → Option Value
  | [], v => some v
  | .key key :: path, .mapping items => (items.lookup key).bind (get? path)
  | .index i :: path, .list items => items[i]?.bind (get? path)
  | _ :: _, _ => Option.none

def isLeaf : Value → Bool
  | .list _ | .mapping _ => false
  | _ => true

def leaf? (v : Value) (path : List Step) : Option Value := (v.get? path).filter isLeaf

end Value

/-- What of the original is seen at the end of a path: its sanitised leaf, whether there is a value, or nothing. -/
inductive Reach
  | shown
  | marked
  | hidden
deriving DecidableEq

namespace Texts

variable (t : Texts)

def sanitized : Value → Value
  | .text s | .other s => .text (t.sanitizeText s)
  | v => v

def reach : Location → List Step → Reach
  | _, [] => .shown
  | location, .index _ :: path => reach location path
  | location, .key key :: path =>
    match t.fate location key with
    | .dropped => .hidden
    | .redacted => if path.isEmpty then .marked else .hidden
    | .kept child => reach child path

variable {t} {location : Location} {key : String} {path : List Step}

theorem scrubItems_eq (items : List Value) : t.scrubItems location items = items.map (t.scrubValue location) := by
  induction items with
  | nil => rw [scrubItems, List.map_nil]
  | cons item items ih => rw [scrubItems, List.map_cons, ih]

theorem lookup_scrubMapping (items : List (String × Value)) :
    (t.scrubMapping location items).lookup key =
      match t.fate location key with
      | .dropped => none
      | .redacted => (items.lookup key).map fun _ => redacted
      | .kept child => (items.lookup key).map (t.scrubValue child) := by
  induction items with
  | nil =>
    rw [scrubMapping]
    cases t.fate location key <;> rfl
  | cons item items ih =>
    obtain ⟨key', item⟩ := item
    rw [scrubMapping]
    by_cases same : key = key'
    · subst same
      cases h : t.fate location key with
      | dropped =>
        rw [h] at ih
        exact ih
      | redacted => simp
      | kept child => simp
    · have other : (key == key') = false := by simpa using same
      cases t.fate location key' <;> simp only [List.lookup_cons, other] <;> exact ih

/-- **What the scrubbed value has at the end of a path.** -/
theorem leaf?_scrubValue (v : Value) :
    (t.scrubValue location v).leaf? path =
      match t.reach location path with
      | .shown => (v.leaf? path).map t.sanitized
      | .marked => (v.get? path).map fun _ => redacted
      | .hidden => none := by
  have get_index : ∀ (i : Nat) (path : List Step) (items : List Value),
      (Value.list items).get? (.index i :: path) = items[i]?.bind (Value.get? path) := fun _ _ _ => rfl
  have get_key : ∀ (key : String) (path : List Step) (items : List (String × Value)),
      (Value.mapping items).get? (.key key :: path) = (items.lookup key).bind (Value.get? path) := fun _ _ _ => rfl
  induction path generalizing location v with
  | nil => cases v <;> rw [scrubValue] <;> rfl
  | cons step path ih =>
    cases step with
    | index i =>
      rw [reach]
      cases v with
      | list items =>
        rw [scrubValue, scrubItems_eq]
        unfold Value.leaf?
        rw [get_index, get_index, List.getElem?_map]
        cases items[i]? with
        | none => cases t.reach location path <;> rfl
        | some item => exact ih item
      | _ =>
        rw [scrubValue]
        cases t.reach location path <;> rfl
    | key key =>
      cases v with
      | mapping items =>
        rw [scrubValue, reach]
        unfold Value.leaf?
        rw [get_key, get_key, lookup_scrubMapping]
        cases items.lookup key with
        | none =>
          cases t.fate location key with
          | dropped => rfl
          | redacted => cases path <;> rfl
          | kept child => cases h : t.reach child path <;> simp [h]
        | some item =>
          cases t.fate location key with
          | dropped => rfl
          | redacted =>
            cases path with
            | nil => rfl
            | cons step path => cases step <;> rfl
          | kept child => exact ih item
      | _ =>
        rw [scrubValue]
        cases t.reach location (.key key :: path) <;> rfl

theorem reach_sensitive (mem : .key key ∈ path) (sensitive : t.sensitiveKey (t.normalized key) = true) :
    t.reach location path ≠ .shown := by
  induction path generalizing location with
  | nil => cases mem
  | cons step path ih =>
    cases step with
    | index i =>
      rw [reach]
      rcases List.mem_cons.mp mem with same | mem
      · cases same
      · exact ih mem
    | key key' =>
      rw [reach]
      cases h : t.fate location key' with
      | dropped => exact fun h => nomatch h
      | redacted => cases path <;> exact fun h => nomatch h
      | kept child =>
        rcases List.mem_cons.mp mem with same | mem
        · obtain rfl : key = key' := Step.key.inj same
          unfold fate at h
          split_ifs at h
        · exact ih mem

/-- Two events that have the same shown leaves, and values at the same marks, have the same scrubbed leaves. -/
theorem leaf?_scrub_congr {v w : Value} (shown : ∀ path, t.reach location path = .shown → v.leaf? path = w.leaf? path)
    (marked : ∀ path, t.reach location path = .marked → (v.get? path).isSome = (w.get? path).isSome) (path : List Step) :
    (t.scrubValue location v).leaf? path = (t.scrubValue location w).leaf? path := by
  rw [leaf?_scrubValue, leaf?_scrubValue]
  cases h : t.reach location path with
  | shown => rw [shown path h]
  | marked =>
    have same := marked path h
    cases hv : v.get? path <;> cases hw : w.get? path <;> simp_all
  | hidden => rfl

/-- **What a scrubbed event has at the end of a path is the sanitised leaf of the event when every key on the way is
kept, the mark at a value that is withheld, and nothing else; no leaf is shown whose way leads through a sensitive key,
at any depth; and events that differ in nothing that is shown or marked are scrubbed to the same leaves.** -/
theorem scrubbed_exactly (t : Texts) (event : List (String × Value)) :
    (∀ path, (Value.mapping (t.scrubSentryEvent event)).leaf? path =
      match t.reach .event path with
      | .shown => ((Value.mapping event).leaf? path).map t.sanitized
      | .marked => ((Value.mapping event).get? path).map fun _ => redacted
      | .hidden => none) ∧
      (∀ path key, .key key ∈ path → t.sensitiveKey (t.normalized key) = true → t.reach .event path ≠ .shown) ∧
      ∀ event', (∀ path, t.reach .event path = .shown →
          (Value.mapping event).leaf? path = (Value.mapping event').leaf? path) →
        (∀ path, t.reach .event path = .marked →
          ((Value.mapping event).get? path).isSome = ((Value.mapping event').get? path).isSome) →
        ∀ path, (Value.mapping (t.scrubSentryEvent event)).leaf? path =
          (Value.mapping (t.scrubSentryEvent event')).leaf? path := by
  have whole : ∀ event, Value.mapping (t.scrubSentryEvent event) = t.scrubValue .event (.mapping event) := by
    intro event
    rw [scrubValue]
    rfl
  refine ⟨?exact, fun path key mem sensitive => reach_sensitive mem sensitive, ?same⟩
  case exact =>
    intro path
    rw [whole]
    exact leaf?_scrubValue _
  case same =>
    intro event' shown marked path
    rw [whole, whole]
    exact leaf?_scrub_congr shown marked path

end Texts

end SalonBooking.Observability
