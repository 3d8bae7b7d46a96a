import SalonBooking.Lib.Expiring

/-!
# The last access of a key

Accesses of an expiring store that replace what a key holds, and ones that take it away. After any sequence of
accesses of an empty store a key holds what its last access put there, if that access put something. The sequence may
come from events of another type, of which some access no key.
-/

namespace SalonBooking.Lib

inductive Access (K V : Type*) where
  | put (k : K) (v : V) (ttl : Int)
  | take (k : K)

namespace Access

variable {K V : Type*}

def key : Access K V → K
  | .put k _ _ => k
  | .take k => k

end Access

namespace Expiring

variable {K V : Type*} [DecidableEq K] {r : Expiring K V} {now e : Int} {k : K} {v : V} {a : Access K V}

/-- `SET k v EX ttl`. -/
def set (r : Expiring K V) (now : Int) (k : K) (v : V) (ttl : Int) : Expiring K V :=
  ⟨Function.update r.entry k (some (v, now + ttl))⟩

/-- `GETDEL k`. -/
def getDel (r : Expiring K V) (now : Int) (k : K) : Option V × Expiring K V :=
  (r.get now k, ⟨Function.update r.entry k none⟩)

def access (r : Expiring K V) (now : Int) : Access K V → Expiring K V
  | .put k v ttl => r.set now k v ttl
  | .take k => (r.getDel now k).2

theorem entry_access_ne (h : a.key ≠ k) : (r.access now a).entry k = r.entry k := by
  cases a with
  | put => exact Function.update_of_ne (Ne.symm h) _ _
  | take => exact Function.update_of_ne (Ne.symm h) _ _

theorem entry_access_self : (r.access now a).entry a.key = some (v, e) ↔ ∃ ttl, a = .put a.key v ttl ∧ e = now + ttl := by
  cases a with
  | put k w ttl =>
    simp only [access, set, Access.key, Function.update_self, Option.some.injEq, Prod.mk.injEq, Access.put.injEq, true_and]
    constructor
    · rintro ⟨rfl, rfl⟩
      exact ⟨ttl, ⟨rfl, rfl⟩, rfl⟩
    · rintro ⟨-, ⟨rfl, rfl⟩, rfl⟩
      exact ⟨rfl, rfl⟩
  | take k => simp [access, getDel, Access.key]

section Events

variable {E : Type*} (accesses : E → Option (Int × Access K V)) {event : E} {before later events : List E}

def after (r : Expiring K V) (event : E) : Expiring K V :=
  match accesses event with
  | none => r
  | some (now, a) => r.access now a

def run (r : Expiring K V) (events : List E) : Expiring K V := events.foldl (after accesses) r

def Concerns (event : E) (k : K) : Prop := ∃ p ∈ accesses event, p.2.key = k

variable {accesses}

theorem entry_after_of_other (h : ¬ Concerns accesses event k) : (r.after accesses event).entry k = r.entry k := by
  unfold after
  cases found : accesses event with
  | none => rfl
  | some p => exact entry_access_ne fun same => h ⟨p, found, same⟩

theorem entry_after_of_concerns (h : Concerns accesses event k) :
    (r.after accesses event).entry k = some (v, e) ↔
      ∃ now ttl, accesses event = some (now, .put k v ttl) ∧ e = now + ttl := by
  obtain ⟨⟨now, a⟩, found, rfl⟩ := h
  rw [Option.mem_def] at found
  simp only [after, found, entry_access_self, Option.some.injEq, Prod.mk.injEq]
  constructor
  · rintro ⟨ttl, put, ends⟩
    exact ⟨now, ttl, ⟨rfl, put⟩, ends⟩
  · rintro ⟨_, ttl, ⟨rfl, put⟩, ends⟩
    exact ⟨ttl, put, ends⟩

/-- **What a key holds was put there by an event after which no event concerns the key.** -/
theorem entry_run : (empty.run accesses events).entry k = some (v, e) ↔
    ∃ before event later now ttl, events = before ++ event :: later ∧ accesses event = some (now, .put k v ttl) ∧
      e = now + ttl ∧ ∀ other ∈ later, ¬ Concerns accesses other k := by
  induction events using List.reverseRecOn with
  | nil => simp [run, empty]
  | append_singleton events last ih =>
    rw [run, List.foldl_append, List.foldl_cons, List.foldl_nil]
    by_cases concerns : Concerns accesses last k
    · rw [entry_after_of_concerns concerns]
      constructor
      · rintro ⟨now, ttl, put, ends⟩
        exact ⟨events, last, [], now, ttl, rfl, put, ends, fun _ mem => absurd mem List.not_mem_nil⟩
      · rintro ⟨before, event, later, now, ttl, split, put, ends, idle⟩
        rcases List.eq_nil_or_concat' later with rfl | ⟨later, other, rfl⟩
        · obtain ⟨-, same⟩ := List.append_inj' split rfl
          rw [(List.cons.inj same).1]
          exact ⟨now, ttl, put, ends⟩
        · rw [← List.cons_append, ← List.append_assoc] at split
          obtain ⟨-, same⟩ := List.append_inj' split rfl
          rw [(List.cons.inj same).1] at concerns
          exact absurd concerns (idle other (List.mem_append_right _ List.mem_cons_self))
    · rw [entry_after_of_other concerns]
      refine ih.trans ?_
      constructor
      · rintro ⟨before, event, later, now, ttl, rfl, put, ends, idle⟩
        refine ⟨before, event, later ++ [last], now, ttl, by simp, put, ends, ?_⟩
        intro other mem
        rcases List.mem_append.mp mem with mem | mem
        · exact idle other mem
        · rwa [List.mem_singleton.mp mem]
      · rintro ⟨before, event, later, now, ttl, split, put, ends, idle⟩
        rcases List.eq_nil_or_concat' later with rfl | ⟨later, other, rfl⟩
        · obtain ⟨-, same⟩ := List.append_inj' split rfl
          rw [(List.cons.inj same).1] at concerns
          exact absurd ⟨_, put, rfl⟩ concerns
        · rw [← List.cons_append, ← List.append_assoc] at split
          obtain ⟨same, -⟩ := List.append_inj' split rfl
          exact ⟨before, event, later, now, ttl, same, put, ends, fun o mem => idle o (List.mem_append_left _ mem)⟩

end Events

end Expiring

/-! ### Names made of parts -/

section Names

variable {ls ms : List String} {c : Char}

/-- Text that is made of parts without the character between them has one reading as parts. -/
theorem intercalate_injective (hl : ∀ l ∈ ls, c ∉ l.toList) (hm : ∀ l ∈ ms, c ∉ l.toList) (filled : ls ≠ [] ∧ ms ≠ [])
    (h : (String.singleton c).intercalate ls = (String.singleton c).intercalate ms) : ls = ms := by
  have split : ∀ ls : List String, ls ≠ [] → (∀ l ∈ ls, c ∉ l.toList) →
      ((String.singleton c).intercalate ls).toList.splitOn c = ls.map String.toList := by
    intro ls filled hl
    rw [String.toList_intercalate, String.toList_singleton]
    refine List.splitOn_intercalate c ?_ (by simpa using filled)
    intro l hl'
    obtain ⟨s, hs, rfl⟩ := List.mem_map.mp hl'
    exact hl s hs
  have same := congrArg (·.toList.splitOn c) h
  simp only [split ls filled.1 hl, split ms filled.2 hm] at same
  exact List.map_injective_iff.mpr (fun a b => String.toList_inj.mp) same

theorem colon_notMem_repr (n : Nat) : ':' ∉ n.repr.toList := by
  intro mem
  rw [Nat.toList_repr] at mem
  exact absurd (Nat.isDigit_of_mem_toDigits (by omega) (by omega) mem) (by decide)

theorem colon_notMem_intRepr (i : Int) : ':' ∉ i.repr.toList := by
  rw [Int.repr_eq_if]
  split
  · exact colon_notMem_repr _
  · simpa using colon_notMem_repr _

end Names

end SalonBooking.Lib
