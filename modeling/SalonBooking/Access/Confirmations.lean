import SalonBooking.Lib.Latest
import SalonBooking.Staff.Members

/-!
# Confirmations of irreversible deletions

A prompt stores a token under a key of the business, the owner, the kind of the object and the object, and the
confirmation that precedes the deletion takes the token away. Over every history of prompts and confirmations a
confirmation passes exactly when the last admissible call about the same object by the same owner was a prompt whose
time to live has not elapsed, so that no object is deleted more often than it was prompted for.
-/

namespace SalonBooking

open Lib

inductive DestructiveObjectType
  | service | window | review
deriving DecidableEq

def DestructiveObjectType.value : DestructiveObjectType → String
  | .service => "service"
  | .window => "window"
  | .review => "review"

/-- `StaffContext` with its business. -/
structure OwnerContext extends Staff.StaffContext where
  businessId : Nat
deriving DecidableEq

structure DestructiveConfirmationService where
  namespace_ : String
  ttlSeconds : Int
  ttl_range : 30 ≤ ttlSeconds ∧ ttlSeconds ≤ 900

namespace DestructiveConfirmationService

/-- The keys with their tokens, on the millisecond clock of the store. -/
abbrev ConfirmationRedis := Expiring String String

/-- `_require_owner`. -/
def requireOwner (actor : Staff.StaffContext) : Except Err Unit :=
  require (actor.role = .owner ∨ actor.isBootstrapOwner = true)
    (.authorization "Только владелец может подтверждать необратимое удаление.")

/-- `_key`. -/
def key (s : DestructiveConfirmationService) (actor : OwnerContext) (objectType : DestructiveObjectType) (objectId : Int) :
    Except Err String := do
  require (0 < objectId) (.authorization "Некорректный объект удаления.")
  return s.namespace_ ++ ":destructive-confirmation:" ++ ":".intercalate
    [toString actor.businessId, toString actor.userId, objectType.value, toString objectId]

variable (s : DestructiveConfirmationService) (r : ConfirmationRedis) (now : Int) (token : String) (actor : OwnerContext)
variable (objectType : DestructiveObjectType) (objectId : Int)

def issue : Except Err Unit × ConfirmationRedis :=
  match (do requireOwner actor.toStaffContext; s.key actor objectType objectId) with
  | .error e => (.error e, r)
  | .ok key => (.ok (), r.set now key token (s.ttlSeconds * 1000))

def consume : Except Err Unit × ConfirmationRedis :=
  match (do requireOwner actor.toStaffContext; s.key actor objectType objectId) with
  | .error e => (.error e, r)
  | .ok key =>
    match r.getDel now key with
    | (none, r) => (.error (.authorization
        "Подтверждение отсутствует, уже использовано или истекло. Начните удаление заново."), r)
    | (some _, r) => (.ok (), r)

/-- What a handler asks for: the prompt with the token it draws, or the confirmation before the deletion. -/
inductive Operation
  | issue (token : String)
  | consume
deriving DecidableEq

structure Call where
  now : Int
  actor : OwnerContext
  objectType : DestructiveObjectType
  objectId : Int
  operation : Operation
deriving DecidableEq

def answer (s : DestructiveConfirmationService) (r : ConfirmationRedis) (c : Call) : Except Err Unit × ConfirmationRedis :=
  match c.operation with
  | .issue token => s.issue r c.now token c.actor c.objectType c.objectId
  | .consume => s.consume r c.now c.actor c.objectType c.objectId

/-- The store after a history of calls. -/
def run (s : DestructiveConfirmationService) (calls : List Call) : ConfirmationRedis :=
  calls.foldl (fun r c => (s.answer r c).2) Expiring.empty

/-! ### What a call is about -/

/-- The business, the owner, the kind of the object and the object. -/
structure Subject where
  businessId : Nat
  userId : Nat
  objectType : DestructiveObjectType
  objectId : Int
deriving DecidableEq

namespace Call

def subject (c : Call) : Subject := ⟨c.actor.businessId, c.actor.userId, c.objectType, c.objectId⟩

def Admissible (c : Call) : Prop := (c.actor.role = .owner ∨ c.actor.isBootstrapOwner = true) ∧ 0 < c.objectId

instance : DecidablePred Admissible := fun c => inferInstanceAs (Decidable ((c.actor.role = .owner ∨ _) ∧ _))

def isPrompt (c : Call) : Bool :=
  match c.operation with
  | .issue _ => true
  | .consume => false

end Call

variable {s r now token actor objectType objectId}
variable {c : Call} {a b : Subject} {calls : List Call}

def Subject.parts (a : Subject) : List String :=
  [toString a.businessId, toString a.userId, a.objectType.value, toString a.objectId]

def name (s : DestructiveConfirmationService) (a : Subject) : String :=
  s.namespace_ ++ ":destructive-confirmation:" ++ ":".intercalate a.parts

theorem DestructiveObjectType.value_injective {t u : DestructiveObjectType} (h : t.value = u.value) : t = u := by
  revert h
  cases t <;> cases u <;> decide

theorem Subject.colon_notMem_parts : ∀ part ∈ a.parts, ':' ∉ part.toList := by
  have type : ':' ∉ a.objectType.value.toList := by cases a.objectType <;> decide
  simp only [Subject.parts, List.mem_cons, List.not_mem_nil, or_false, forall_eq_or_imp, forall_eq]
  exact ⟨colon_notMem_repr _, colon_notMem_repr _, type, colon_notMem_intRepr _⟩

/-- **Two subjects never share a key.** -/
theorem name_injective (h : s.name a = s.name b) : a = b := by
  have same : a.parts = b.parts := by
    refine intercalate_injective (c := ':') Subject.colon_notMem_parts Subject.colon_notMem_parts ⟨by simp [Subject.parts],
      by simp [Subject.parts]⟩ ?_
    simpa [name] using h
  obtain ⟨business, user, type, object⟩ := a
  obtain ⟨business', user', type', object'⟩ := b
  simp only [Subject.parts, List.cons.injEq, and_true] at same
  obtain ⟨h₁, h₂, h₃, h₄⟩ := same
  rw [Nat.repr_injective h₁, Nat.repr_injective h₂, DestructiveObjectType.value_injective h₃, Int.repr_injective h₄]

/-! ### What a call does -/

/-- The access of the store that a call makes. -/
def Call.access (s : DestructiveConfirmationService) (c : Call) : Option (Int × Access String String) :=
  if c.Admissible then
    some (c.now, match c.operation with
      | .issue token => .put (s.name c.subject) token (s.ttlSeconds * 1000)
      | .consume => .take (s.name c.subject))
  else none

theorem checks_ok {name : String} :
    (do requireOwner actor.toStaffContext; s.key actor objectType objectId) = Except.ok name ↔
      ((actor.role = .owner ∨ actor.isBootstrapOwner = true) ∧ 0 < objectId) ∧
        s.name ⟨actor.businessId, actor.userId, objectType, objectId⟩ = name := by
  simp only [requireOwner, key, DestructiveConfirmationService.name, Subject.parts, Except.require_bind_ok, Except.pure_ok,
    and_assoc]

theorem checks_error (s : DestructiveConfirmationService) (objectType : DestructiveObjectType)
    (h : ¬ ((actor.role = .owner ∨ actor.isBootstrapOwner = true) ∧ 0 < objectId)) :
    ∃ e, (do requireOwner actor.toStaffContext; s.key actor objectType objectId) = Except.error e := by
  cases checked : (do requireOwner actor.toStaffContext; s.key actor objectType objectId) with
  | error e => exact ⟨e, rfl⟩
  | ok name => exact absurd (checks_ok.mp checked).1 h

theorem issue_of_admissible (h : (actor.role = .owner ∨ actor.isBootstrapOwner = true) ∧ 0 < objectId) :
    s.issue r now token actor objectType objectId =
      (.ok (), r.set now (s.name ⟨actor.businessId, actor.userId, objectType, objectId⟩) token (s.ttlSeconds * 1000)) := by
  rw [issue, checks_ok.mpr ⟨h, rfl⟩]

theorem consume_of_admissible (h : (actor.role = .owner ∨ actor.isBootstrapOwner = true) ∧ 0 < objectId) :
    ((s.consume r now actor objectType objectId).1 = .ok () ↔
        (r.get now (s.name ⟨actor.businessId, actor.userId, objectType, objectId⟩)).isSome = true) ∧
      (s.consume r now actor objectType objectId).2 =
        (r.getDel now (s.name ⟨actor.businessId, actor.userId, objectType, objectId⟩)).2 := by
  rw [consume, checks_ok.mpr ⟨h, rfl⟩]
  simp only [Expiring.getDel]
  cases r.get now (s.name ⟨actor.businessId, actor.userId, objectType, objectId⟩) with
  | none => simp
  | some token => simp

theorem consume_of_not_admissible (h : ¬ ((actor.role = .owner ∨ actor.isBootstrapOwner = true) ∧ 0 < objectId)) :
    (s.consume r now actor objectType objectId).1 ≠ .ok () ∧ (s.consume r now actor objectType objectId).2 = r := by
  obtain ⟨e, failed⟩ := checks_error s objectType h
  rw [consume, failed]
  simp

theorem answer_access : (s.answer r c).2 = r.after (Call.access s) c := by
  unfold answer Expiring.after Call.access
  split_ifs with admissible
  · cases operation : c.operation with
    | issue token =>
      simp only [issue_of_admissible admissible]
      rfl
    | consume =>
      simp only [(consume_of_admissible admissible).2]
      rfl
  · cases c.operation with
    | issue token =>
      obtain ⟨e, failed⟩ := checks_error s c.objectType admissible
      simp only [issue, failed]
    | consume => exact (consume_of_not_admissible admissible).2

theorem run_accesses : s.run calls = Expiring.empty.run (Call.access s) calls := by
  unfold run Expiring.run
  congr 1
  funext r c
  exact answer_access

theorem access_eq_put {ttl : Int} : Call.access s c = some (now, .put (s.name a) token ttl) ↔
    c.Admissible ∧ c.operation = .issue token ∧ c.subject = a ∧ c.now = now ∧ ttl = s.ttlSeconds * 1000 := by
  unfold Call.access
  split_ifs with admissible
  · cases c.operation with
    | issue token' =>
      simp only [Option.some.injEq, Prod.mk.injEq, Access.put.injEq, admissible, true_and, Operation.issue.injEq]
      constructor
      · rintro ⟨rfl, same, rfl, rfl⟩
        exact ⟨rfl, name_injective same, rfl, rfl⟩
      · rintro ⟨rfl, rfl, rfl, rfl⟩
        exact ⟨rfl, rfl, rfl, rfl⟩
    | consume => simp
  · simp [admissible]

theorem concerns_iff : Expiring.Concerns (Call.access s) c (s.name a) ↔ c.Admissible ∧ c.subject = a := by
  unfold Expiring.Concerns Call.access
  split_ifs with admissible
  · simp only [Option.mem_def, Option.some.injEq, exists_eq_left', admissible, true_and]
    constructor
    · intro same
      apply name_injective (s := s)
      cases operation : c.operation with
      | issue token => simpa [operation, Access.key] using same
      | consume => simpa [operation, Access.key] using same
    · rintro rfl
      cases operation : c.operation with
      | issue token => simp [Access.key]
      | consume => simp [Access.key]
  · simp [admissible]

/-! ### Histories -/

/-- The last admissible call about the subject is a prompt that lives at `now`. -/
def Pending (s : DestructiveConfirmationService) (calls : List Call) (now : Int) (a : Subject) : Prop :=
  ∃ before prompt later, calls = before ++ prompt :: later ∧ prompt.isPrompt = true ∧ prompt.Admissible ∧
    prompt.subject = a ∧ now < prompt.now + s.ttlSeconds * 1000 ∧
    ∀ other ∈ later, other.Admissible → other.subject ≠ a

theorem get_run : ((s.run calls).get now (s.name a)).isSome = true ↔ s.Pending calls now a := by
  rw [run_accesses]
  constructor
  · intro some
    obtain ⟨token, got⟩ := Option.isSome_iff_exists.mp some
    obtain ⟨⟨v, e⟩, found, live⟩ := Option.bind_eq_some_iff.mp got
    obtain ⟨before, prompt, later, at_, ttl, rfl, put, rfl, idle⟩ := Expiring.entry_run.mp found
    obtain ⟨admissible, operation, rfl, rfl, rfl⟩ := access_eq_put.mp put
    refine ⟨before, prompt, later, rfl, by simp [Call.isPrompt, operation], admissible, rfl, ?_, ?_⟩
    · by_contra late
      simp [late] at live
    · intro other mem admitted same
      exact idle other mem (concerns_iff.mpr ⟨admitted, same⟩)
  · rintro ⟨before, prompt, later, rfl, isPrompt, admissible, rfl, live, idle⟩
    obtain ⟨token, operation⟩ : ∃ token, prompt.operation = .issue token := by
      cases operation : prompt.operation with
      | issue token => exact ⟨token, rfl⟩
      | consume => simp [Call.isPrompt, operation] at isPrompt
    have found := Expiring.entry_run.mpr ⟨before, prompt, later, prompt.now, _, rfl,
      (access_eq_put (s := s)).mpr ⟨admissible, operation, rfl, rfl, rfl⟩, rfl, fun other mem concerns =>
        idle other mem (concerns_iff.mp concerns).1 (concerns_iff.mp concerns).2⟩
    rw [Expiring.get_of_entry found, if_pos live]
    rfl

theorem consume_run : (s.consume (s.run calls) now actor objectType objectId).1 = .ok () ↔
    (actor.role = .owner ∨ actor.isBootstrapOwner = true) ∧ 0 < objectId ∧
      s.Pending calls now ⟨actor.businessId, actor.userId, objectType, objectId⟩ := by
  by_cases admissible : (actor.role = .owner ∨ actor.isBootstrapOwner = true) ∧ 0 < objectId
  · rw [(consume_of_admissible admissible).1, get_run]
    simp only [admissible.1, admissible.2, true_and]
  · simp only [(consume_of_not_admissible admissible).1, false_iff]
    intro pending
    exact admissible ⟨pending.1, pending.2.1⟩

/-- The deletions of a history that a handler reaches: the confirmations that pass. -/
def deletions (s : DestructiveConfirmationService) (r : ConfirmationRedis) : List Call → List Subject
  | [] => []
  | c :: calls =>
    (if c.isPrompt = false ∧ (s.answer r c).1 = .ok () then [c.subject] else []) ++ s.deletions (s.answer r c).2 calls

/-- The prompts that an owner asked for. -/
def prompts (calls : List Call) : List Subject :=
  (calls.filter fun c => c.isPrompt = true ∧ c.Admissible).map Call.subject

/-- Whether the store holds a token for the subject, live or not. -/
def held (s : DestructiveConfirmationService) (r : ConfirmationRedis) (a : Subject) : Nat :=
  if (r.entry (s.name a)).isSome then 1 else 0

theorem held_step : (if c.isPrompt = false ∧ (s.answer r c).1 = .ok () then [c.subject] else []).count a +
    s.held (s.answer r c).2 a ≤ (prompts [c]).count a + s.held r a := by
  by_cases concerns : c.Admissible ∧ c.subject = a
  · obtain ⟨admissible, rfl⟩ := concerns
    cases operation : c.operation with
    | issue token =>
      have at_most : s.held (s.answer r c).2 c.subject ≤ 1 := by
        unfold held
        split_ifs <;> omega
      simp [prompts, Call.isPrompt, operation, admissible]
      omega
    | consume =>
      have taken : s.held (s.answer r c).2 c.subject = 0 := by
        simp only [answer, operation, (consume_of_admissible admissible).2, Expiring.getDel, held]
        rw [← Call.subject, Function.update_self]
        rfl
      rw [taken]
      split_ifs with passed
      · have live := passed.2
        simp only [answer, operation, (consume_of_admissible admissible).1] at live
        obtain ⟨token, got⟩ := Option.isSome_iff_exists.mp live
        obtain ⟨p, found, -⟩ := Option.bind_eq_some_iff.mp got
        have one : s.held r c.subject = 1 := by
          unfold held Call.subject
          rw [found]
          rfl
        simp [one]
      · simp
  · have same : s.held (s.answer r c).2 a = s.held r a := by
      unfold held
      rw [answer_access, Expiring.entry_after_of_other fun h => concerns (concerns_iff.mp h)]
    have none : (if c.isPrompt = false ∧ (s.answer r c).1 = .ok () then [c.subject] else []).count a = 0 := by
      split_ifs with passed
      · rw [List.count_singleton, if_neg]
        intro subject
        obtain ⟨isPrompt, ok⟩ := passed
        refine concerns ⟨?_, by simpa using subject⟩
        by_contra refused
        cases operation : c.operation with
        | issue token => simp [Call.isPrompt, operation] at isPrompt
        | consume =>
          simp only [answer, operation] at ok
          exact (consume_of_not_admissible refused).1 ok
      · rfl
    rw [none, same]
    omega

theorem deletions_le (calls : List Call) : (s.deletions r calls).count a ≤ (prompts calls).count a + s.held r a := by
  induction calls generalizing r with
  | nil => simp [deletions]
  | cons c calls ih =>
    have step := held_step (s := s) (r := r) (c := c) (a := a)
    have rest := ih (r := (s.answer r c).2)
    have split : (prompts (c :: calls)).count a = (prompts [c]).count a + (prompts calls).count a := by
      unfold prompts
      rw [← List.singleton_append, List.filter_append, List.map_append, List.count_append]
    rw [deletions, List.count_append, split]
    omega

/-- **After every history of prompts and confirmations, a deletion is confirmed exactly for an owner and a possible
object when the last admissible call of this owner about this object was a prompt that has not expired; and no object is
deleted more often than its owner was prompted for it.** -/
theorem confirmed_exactly (s : DestructiveConfirmationService) (calls : List Call) :
    (∀ now actor objectType objectId, (s.consume (s.run calls) now actor objectType objectId).1 = .ok () ↔
      (actor.role = .owner ∨ actor.isBootstrapOwner = true) ∧ 0 < objectId ∧
        s.Pending calls now ⟨actor.businessId, actor.userId, objectType, objectId⟩) ∧
      ∀ a, (s.deletions Expiring.empty calls).count a ≤ (prompts calls).count a := by
  refine ⟨fun _ _ _ _ => consume_run, fun a => ?_⟩
  have bound := deletions_le (s := s) (r := Expiring.empty) (a := a) calls
  simpa [held, Expiring.empty] using bound

end DestructiveConfirmationService

end SalonBooking
