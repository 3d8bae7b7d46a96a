import SalonBooking.Lib.Isolation

/-!
# Statements that programs are made of

Reads of one row by its key, and assignments to all rows of a result, with the rule that each of them has for
what a program ensures. `put` is the normal form of an identity map: every rule leaves the objects as a chain of
puts over the empty map.
-/

set_option linter.unusedSectionVars false

namespace SalonBooking.Lib

variable {T : Type} [DecidableEq T] {Row : T → Type} {Name β : Type} {t u : T} {i j : Nat}

/-! ### Objects by key -/

namespace Copies

def empty : Copies Row := fun _ _ => none

/-- The object of row `i`. -/
def put (c : Copies Row) (t : T) (i : Nat) (x : Copy (Row t)) : Copies Row :=
  Function.update c t fun j => if j = i then some x else c t j

variable {c : Copies Row} {x : Copy (Row t)}

@[simp] theorem empty_apply : (empty : Copies Row) t i = none := rfl

@[simp] theorem put_self : c.put t i x t i = some x := by simp [put]

theorem put_same_table : c.put t i x t j = if j = i then some x else c t j := by simp [put]

theorem put_of_ne (h : u ≠ t) : c.put t i x u = c u := Function.update_of_ne h _ _

theorem put_eq_some {y : Copy (Row u)} (h : c.put t i x u j = some y) :
    (∃ e : u = t, j = i ∧ y = e ▸ x) ∨ c u j = some y := by
  by_cases e : u = t
  · subst e
    rw [put_same_table] at h
    split at h
    · next hj => exact .inl ⟨rfl, hj, (Option.some.inj h).symm⟩
    · exact .inr h
  · rw [put_of_ne e] at h
    exact .inr h

@[simp] theorem assign_put (a : Row t) : (c.put t i x).assign t i a = c.put t i { x with now := a } := by
  refine funext fun u => ?_
  by_cases e : u = t
  · subst e
    refine funext fun j => ?_
    rw [assign_self, put_same_table, put_same_table]
    split <;> simp [*]
  · rw [assign_of_ne e, put_of_ne e, put_of_ne e]

@[simp] theorem flush_put : (c.put t i x).flush = c.flush.put t i { x with loaded := x.now } := by
  refine funext fun u => funext fun j => ?_
  by_cases e : u = t
  · subst e
    rw [flush, put_same_table, put_same_table]
    split <;> rfl
  · rw [flush, put_of_ne e, put_of_ne e]; rfl

@[simp] theorem flush_empty : (empty : Copies Row).flush = empty := rfl

theorem mem_rows {ids : List Nat} {r : Nat × Row t} :
    r ∈ c.rows t ids ↔ r.1 ∈ ids ∧ ∃ x, c t r.1 = some x ∧ r.2 = x.now := by
  constructor
  · intro h
    obtain ⟨i, hi, hr⟩ := List.mem_filterMap.mp h
    obtain ⟨x, hx, rfl⟩ := Option.map_eq_some_iff.mp hr
    exact ⟨hi, x, hx, rfl⟩
  · rintro ⟨hi, x, hx, hr⟩
    exact List.mem_filterMap.mpr ⟨r.1, hi, Option.map_eq_some_iff.mpr ⟨x, hx, Prod.ext rfl hr.symm⟩⟩

theorem load_nil (held : Bool) (tbl : Table (Row t)) : c.load held t tbl [] = c := by
  refine funext fun u => ?_
  by_cases e : u = t
  · subst e
    refine funext fun j => ?_
    rw [load_self]
    cases c u j <;> simp
  · rw [load_of_ne e]

theorem load_known (held : Bool) (tbl : Table (Row t)) (hx : c t i = some x) : c.load held t tbl [i] = c := by
  refine funext fun u => ?_
  by_cases e : u = t
  · subst e
    refine funext fun j => ?_
    rw [load_self]
    by_cases hj : j = i
    · subst hj; rw [hx]; rfl
    · cases c u j <;> simp [hj]
  · rw [load_of_ne e]

theorem load_new (held : Bool) {tbl : Table (Row t)} {a : Row t} (hx : c t i = none) (ha : tbl.row i = some a) :
    c.load held t tbl [i] = c.put t i (.ofRow held a) := by
  refine funext fun u => ?_
  by_cases e : u = t
  · subst e
    refine funext fun j => ?_
    rw [load_self, put_same_table]
    by_cases hj : j = i
    · subst hj; simp [hx, ha]
    · cases c u j <;> simp [hj]
  · rw [load_of_ne e, put_of_ne e]

end Copies

/-! ### Reads by key -/

namespace Tx

variable {D Q : Copies Row → β → Prop} {c : Copies Row}

/-- `SELECT ... WHERE id = i`. -/
def get (t : T) (i : Nat) (next : Option (Row t) → Tx Row Name β) : Tx Row Name β :=
  .select t (Table.only i) fun rows => next (rows.head?.map Prod.snd)

/-- `SELECT ... WHERE id = i FOR UPDATE`. -/
def getForUpdate (t : T) (i : Nat) (next : Option (Row t) → Tx Row Name β) : Tx Row Name β :=
  .lock t (Table.only i) fun rows => next (rows.head?.map Prod.snd)

theorem ensures_row (held : Bool) {next : Option (Row t) → Tx Row Name β}
    (hnone : (next none).Ensures D Q c) (hknown : ∀ x, c t i = some x → (next (some x.now)).Ensures D Q c)
    (hnew : c t i = none → ∀ a, (next (some a)).Ensures D Q (c.put t i (.ofRow held a))) (tbl : Table (Row t)) :
    (next (((c.load held t tbl (tbl.only i)).rows t (tbl.only i)).head?.map Prod.snd)).Ensures D Q
      (c.load held t tbl (tbl.only i)) := by
  cases ha : tbl.row i with
  | none =>
    have ids : tbl.only i = [] := by simp [Table.only, ha]
    rw [ids, Copies.load_nil]
    exact hnone
  | some a =>
    have ids : tbl.only i = [i] := by simp [Table.only, ha]
    rw [ids]
    cases hx : c t i with
    | none =>
      rw [Copies.load_new held hx ha]
      simpa [Copies.rows, Copy.ofRow] using hnew hx a
    | some x =>
      rw [Copies.load_known held tbl hx]
      simpa [Copies.rows, hx] using hknown x hx

theorem ensures_getForUpdate {next : Option (Row t) → Tx Row Name β} (hnone : (next none).Ensures D Q c)
    (hknown : ∀ x, c t i = some x → (next (some x.now)).Ensures D Q c)
    (hnew : c t i = none → ∀ a, (next (some a)).Ensures D Q (c.put t i (.ofRow true a))) :
    (getForUpdate t i next).Ensures D Q c := fun tbl _ => ensures_row true hnone hknown hnew tbl

/-- A locking read by key of a row that the program goes on with under a condition only. -/
theorem ensures_claimed (claimed : Row t → Prop) [DecidablePred claimed] {next : Option (Row t) → Tx Row Name β}
    (hnone : ∀ c, (next none).Ensures D Q c)
    (hsome : ∀ a, claimed a → (next (some a)).Ensures D Q (Copies.put Copies.empty t i (.ofRow true a))) :
    (getForUpdate t i fun row => next (row.filter fun a => claimed a)).Ensures D Q Copies.empty := by
  refine ensures_getForUpdate (hnone _) (fun _ h => nomatch h) fun _ a => ?_
  by_cases h : claimed a
  · simpa [Option.filter, h] using hsome a h
  · simpa [Option.filter, h] using hnone _

theorem writes_row {G : (t : T) → Nat → Row t → Row t → Prop} (held : Bool) {next : Option (Row t) → Tx Row Name β}
    (hnone : (next none).Writes G c) (hknown : ∀ x, c t i = some x → (next (some x.now)).Writes G c)
    (hnew : c t i = none → ∀ a, (next (some a)).Writes G (c.put t i (.ofRow held a))) (tbl : Table (Row t)) :
    (next (((c.load held t tbl (tbl.only i)).rows t (tbl.only i)).head?.map Prod.snd)).Writes G
      (c.load held t tbl (tbl.only i)) := by
  cases ha : tbl.row i with
  | none =>
    have ids : tbl.only i = [] := by simp [Table.only, ha]
    rw [ids, Copies.load_nil]
    exact hnone
  | some a =>
    have ids : tbl.only i = [i] := by simp [Table.only, ha]
    rw [ids]
    cases hx : c t i with
    | none =>
      rw [Copies.load_new held hx ha]
      simpa [Copies.rows, Copy.ofRow] using hnew hx a
    | some x =>
      rw [Copies.load_known held tbl hx]
      simpa [Copies.rows, hx] using hknown x hx

theorem writes_getForUpdate {G : (t : T) → Nat → Row t → Row t → Prop} {next : Option (Row t) → Tx Row Name β}
    (hnone : (next none).Writes G c) (hknown : ∀ x, c t i = some x → (next (some x.now)).Writes G c)
    (hnew : c t i = none → ∀ a, (next (some a)).Writes G (c.put t i (.ofRow true a))) :
    (getForUpdate t i next).Writes G c := fun tbl _ => writes_row true hnone hknown hnew tbl

theorem writes_claimed {G : (t : T) → Nat → Row t → Row t → Prop} (claimed : Row t → Prop) [DecidablePred claimed]
    {next : Option (Row t) → Tx Row Name β} (hnone : ∀ c, (next none).Writes G c)
    (hsome : ∀ a, claimed a → (next (some a)).Writes G (Copies.put Copies.empty t i (.ofRow true a))) :
    (getForUpdate t i fun row => next (row.filter fun a => claimed a)).Writes G Copies.empty := by
  refine writes_getForUpdate (hnone _) (fun _ h => nomatch h) fun _ a => ?_
  by_cases h : claimed a
  · simpa [Option.filter, h] using hsome a h
  · simpa [Option.filter, h] using hnone _

theorem writes_select {G : (t : T) → Nat → Row t → Row t → Prop} {which : Table (Row t) → List Nat}
    {next : List (Nat × Row t) → Tx Row Name β}
    (h : ∀ tbl ids, c.Sees t tbl → ids = which tbl → (next ((c.load false t tbl ids).rows t ids)).Writes G (c.load false t tbl ids)) :
    (select t which next).Writes G c := fun tbl sees => h tbl _ sees rfl

theorem writes_lock {G : (t : T) → Nat → Row t → Row t → Prop} {which : Table (Row t) → List Nat}
    {next : List (Nat × Row t) → Tx Row Name β}
    (h : ∀ tbl ids, c.Sees t tbl → ids = which tbl → (next ((c.load true t tbl ids).rows t ids)).Writes G (c.load true t tbl ids)) :
    (lock t which next).Writes G c := fun tbl sees => h tbl _ sees rfl

/-! ### Assignments to a result -/

def assignAll (t : T) (rows : List (Nat × Row t)) (next : Tx Row Name β) : Tx Row Name β :=
  rows.foldr (fun r p => .assign t r.1 r.2 p) next

theorem ensures_assignAll {rows : List (Nat × Row t)} {next : Tx Row Name β} {P : Copies Row → Prop}
    (step : ∀ c, ∀ r ∈ rows, P c → P (c.assign t r.1 r.2)) (hc : P c)
    (hnext : ∀ c, P c → next.Ensures D Q c) : (assignAll t rows next).Ensures D Q c := by
  induction rows generalizing c with
  | nil => exact hnext c hc
  | cons r rows ih =>
    exact ih (fun c s hs => step c s (List.mem_cons_of_mem r hs)) (step c r List.mem_cons_self hc)

theorem writes_assignAll {G : (t : T) → Nat → Row t → Row t → Prop} {rows : List (Nat × Row t)} {next : Tx Row Name β}
    {P : Copies Row → Prop} (hc : P c) (step : ∀ c, ∀ r ∈ rows, P c →
      (∀ x b, c t r.1 = some x → x.base = some b → G t r.1 b r.2) ∧ P (c.assign t r.1 r.2))
    (hnext : ∀ c, P c → next.Writes G c) : (assignAll t rows next).Writes G c := by
  induction rows generalizing c with
  | nil => exact hnext c hc
  | cons r rows ih =>
    obtain ⟨first, hc'⟩ := step c r List.mem_cons_self hc
    exact ⟨first, ih hc' fun c s hs => step c s (List.mem_cons_of_mem r hs)⟩

end Tx

end SalonBooking.Lib
