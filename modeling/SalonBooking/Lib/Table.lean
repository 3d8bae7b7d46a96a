import Mathlib

/-!
# Tables keyed by a sequence

A table holds rows under numeric keys drawn from a sequence: `insert` takes the next key, `put`
rewrites an existing row, `erase` drops one. The field `bounded` says that no key at or past the
sequence is in use, so an inserted row is always new and a table can be listed, searched and counted
by going over finitely many keys.

A session keeps the object of a row that it loaded first. When it writes, it writes the columns whose value differs
from the loaded one and leaves the rest of the row as it is.
-/

namespace SalonBooking.Lib

universe u

/-- Rows under keys below `next`; `next` is the next value of the key sequence. -/
structure Table (α : Type u) where
  row : Nat → Option α
  next : Nat
  bounded : ∀ i, next ≤ i → row i = none

namespace Table

variable {α : Type u} {t : Table α} {i j : Nat} {a b : α}

def empty : Table α := ⟨fun _ => none, 1, fun _ _ => rfl⟩

def insert (t : Table α) (a : α) : Table α where
  row j := if j = t.next then some a else t.row j
  next := t.next + 1
  bounded j hj := by
    rw [if_neg (by omega)]
    exact t.bounded j (by omega)

/-- Rewrites the row under `i`; without such a row nothing changes. -/
def put (t : Table α) (i : Nat) (a : α) : Table α where
  row j := if j = i then (t.row j).map fun _ => a else t.row j
  next := t.next
  bounded j hj := by
    split
    · rw [t.bounded j hj]; rfl
    · exact t.bounded j hj

/-- Drops the row under `i`. -/
def erase (t : Table α) (i : Nat) : Table α where
  row j := if j = i then none else t.row j
  next := t.next
  bounded j hj := by
    split
    · rfl
    · exact t.bounded j hj

def mapRows (f : Nat → α → α) (t : Table α) : Table α where
  row i := (t.row i).map (f i)
  next := t.next
  bounded i hi := by rw [t.bounded i hi]; rfl

/-! ### Lookups -/

theorem lt_next (h : t.row i = some a) : i < t.next := by
  by_contra hge
  rw [t.bounded i (by omega)] at h
  cases h

@[simp] theorem row_empty : (empty : Table α).row i = none := rfl

@[simp] theorem next_empty : (empty : Table α).next = 1 := rfl

@[simp] theorem next_insert : (t.insert a).next = t.next + 1 := rfl

@[simp] theorem next_put : (t.put i a).next = t.next := rfl

@[simp] theorem next_erase : (t.erase i).next = t.next := rfl

theorem row_insert : (t.insert a).row j = if j = t.next then some a else t.row j := rfl

theorem row_erase : (t.erase i).row j = if j = i then none else t.row j := rfl

theorem row_mapRows {f : Nat → α → α} : (t.mapRows f).row i = (t.row i).map (f i) := rfl

theorem row_insert_self : (t.insert a).row t.next = some a := by simp [row_insert]

theorem row_insert_of_some (h : t.row j = some b) : (t.insert a).row j = some b := by
  rw [row_insert, if_neg (by have := lt_next h; omega), h]

theorem row_insert_eq_some : (t.insert a).row j = some b ↔ (j = t.next ∧ b = a) ∨ t.row j = some b := by
  rw [row_insert]
  by_cases hj : j = t.next
  · subst hj
    rw [if_pos rfl, t.bounded _ le_rfl]
    simp [eq_comm]
  · simp [hj]

theorem row_put_of_some (h : t.row i = some b) : (t.put i a).row j = if j = i then some a else t.row j := by
  show (if j = i then (t.row j).map fun _ => a else t.row j) = _
  by_cases hj : j = i
  · subst hj; simp [h]
  · simp [hj]

theorem row_put_ne (h : j ≠ i) : (t.put i a).row j = t.row j := by
  show (if j = i then (t.row j).map fun _ => a else t.row j) = _
  rw [if_neg h]

theorem row_put_self (h : t.row i = some b) : (t.put i a).row i = some a := by
  rw [row_put_of_some h, if_pos rfl]

theorem row_put_eq_none : (t.put i a).row j = none ↔ t.row j = none := by
  show (if j = i then (t.row j).map fun _ => a else t.row j) = none ↔ _
  split <;> simp

/-- A row of the rewritten table is the new value of row `i` or another, unchanged row. -/
theorem row_put_eq_some (h : t.row i = some a) {c d : α} :
    (t.put i c).row j = some d ↔ (j = i ∧ d = c) ∨ (j ≠ i ∧ t.row j = some d) := by
  rw [row_put_of_some h]
  by_cases hj : j = i <;> simp [hj, eq_comm]

theorem eq_of_row {t' : Table α} (hrow : ∀ i, t.row i = t'.row i) (hnext : t.next = t'.next) : t = t' := by
  cases t
  cases t'
  obtain rfl := funext hrow
  cases hnext
  rfl

theorem put_insert_next : (t.insert a).put t.next b = t.insert b := by
  refine eq_of_row (fun j => ?_) rfl
  rw [row_put_of_some row_insert_self, row_insert, row_insert]
  split <;> rfl

theorem put_same (h : t.row i = some a) : t.put i a = t := by
  refine eq_of_row (fun j => ?_) rfl
  rw [row_put_of_some h]
  split
  · next hj => rw [hj, h]
  · rfl

/-! ### Growing tables -/

/-- Every row of `t` is still there in `t'`, changed at most along `R`. -/
def Keeps (R : α → α → Prop) (t t' : Table α) : Prop := ∀ i a, t.row i = some a → ∃ b, t'.row i = some b ∧ R a b

namespace Keeps

variable {R : α → α → Prop} {t' t'' : Table α}

theorem refl (hR : ∀ a, R a a) : Keeps R t t := fun _ a h => ⟨a, h, hR a⟩

theorem trans (hR : ∀ a b c, R a b → R b c → R a c) (h : Keeps R t t') (h' : Keeps R t' t'') :
    Keeps R t t'' := by
  intro i a ha
  obtain ⟨b, hb, hab⟩ := h i a ha
  obtain ⟨c, hc, hbc⟩ := h' i b hb
  exact ⟨c, hc, hR a b c hab hbc⟩

theorem insert (hR : ∀ a, R a a) : Keeps R t (t.insert a) := fun _ b h => ⟨b, row_insert_of_some h, hR b⟩

theorem put (hR : ∀ a, R a a) (h : t.row i = some a) (hab : R a b) : Keeps R t (t.put i b) := by
  intro j c hc
  rw [row_put_of_some h]
  by_cases hj : j = i
  · subst hj
    rw [h] at hc
    cases hc
    exact ⟨b, if_pos rfl, hab⟩
  · exact ⟨c, by rw [if_neg hj, hc], hR c⟩

theorem put_back (hR : ∀ a, R a a) (h : t.row i = some a) (hba : R b a) : Keeps R (t.put i b) t := by
  intro j c hc
  rcases (row_put_eq_some h).mp hc with ⟨rfl, rfl⟩ | ⟨-, hc⟩
  · exact ⟨a, h, hba⟩
  · exact ⟨c, hc, hR c⟩

end Keeps

/-! ### Listing and searching -/

def toList (t : Table α) : List (Nat × α) :=
  (List.range t.next).filterMap fun i => (t.row i).map fun a => (i, a)

theorem mem_toList : (i, a) ∈ t.toList ↔ t.row i = some a := by
  constructor
  · intro h
    obtain ⟨j, -, hj⟩ := List.mem_filterMap.mp h
    rw [Option.map_eq_some_iff] at hj
    obtain ⟨b, hb, he⟩ := hj
    rw [Prod.mk.injEq] at he
    rw [← he.1, ← he.2, hb]
  · intro h
    exact List.mem_filterMap.mpr ⟨i, List.mem_range.mpr (lt_next h), by simp [h]⟩

theorem nodup_toList : t.toList.Nodup := by
  refine List.Nodup.filterMap ?_ List.nodup_range
  intro i j r hi hj
  rw [Option.mem_def, Option.map_eq_some_iff] at hi hj
  obtain ⟨a, -, rfl⟩ := hi
  obtain ⟨b, -, he⟩ := hj
  exact (congrArg Prod.fst he).symm

theorem toList_insert : (t.insert a).toList = t.toList ++ [(t.next, a)] := by
  unfold toList
  rw [next_insert, List.range_succ, List.filterMap_append]
  congr 1
  · refine List.filterMap_congr fun i hi => ?_
    rw [row_insert, if_neg (List.mem_range.mp hi).ne]
  · rw [List.filterMap_cons, row_insert_self]
    rfl

/-- The rows that satisfy `p`, in key order. -/
def select (t : Table α) (p : α → Bool) : List (Nat × α) := t.toList.filter fun r => p r.2

theorem mem_select {p : α → Bool} : (i, a) ∈ t.select p ↔ t.row i = some a ∧ p a = true := by
  simp [select, mem_toList]

theorem nodup_keys_select {p : α → Bool} : ((t.select p).map Prod.fst).Nodup := by
  refine List.Nodup.map_on ?_ (nodup_toList.filter _)
  intro r hr s hs same
  have row := (mem_select.mp hr).1
  rw [same, (mem_select.mp hs).1, Option.some.injEq] at row
  exact Prod.ext same row.symm

theorem nodup_keys_insertionSort {p : α → Bool} {r : Nat × α → Nat × α → Prop} [DecidableRel r] :
    (((t.select p).insertionSort r).map Prod.fst).Nodup :=
  ((List.perm_insertionSort r _).map Prod.fst).nodup_iff.mpr nodup_keys_select

theorem select_insert {p : α → Bool} :
    (t.insert a).select p = t.select p ++ if p a = true then [(t.next, a)] else [] := by
  unfold select
  rw [toList_insert, List.filter_append, List.filter_singleton]
  cases p a <;> rfl

/-- The first row that satisfies `p`. -/
def find (t : Table α) (p : α → Bool) : Option (Nat × α) := t.toList.find? fun r => p r.2

theorem find_eq_some {p : α → Bool} (h : t.find p = some (i, a)) : t.row i = some a ∧ p a = true := by
  have hmem := List.mem_of_find?_eq_some h
  have hp := List.find?_some h
  exact ⟨mem_toList.mp hmem, hp⟩

theorem find_eq_none {p : α → Bool} : t.find p = none ↔ ∀ i a, t.row i = some a → p a = false := by
  rw [find, List.find?_eq_none]
  constructor
  · intro h i a hrow
    simpa using h (i, a) (mem_toList.mpr hrow)
  · rintro h ⟨i, a⟩ hmem
    simpa using h i a (mem_toList.mp hmem)

/-- When only one row can satisfy `p`, the search returns it. -/
theorem find_of_unique {p : α → Bool} (h : t.row i = some a) (hp : p a = true)
    (huniq : ∀ j b, t.row j = some b → p b = true → j = i) : t.find p = some (i, a) := by
  cases hf : t.find p with
  | none => rw [find_eq_none.mp hf i a h] at hp; cases hp
  | some r =>
    obtain ⟨j, b⟩ := r
    obtain ⟨hj, hpb⟩ := find_eq_some hf
    obtain rfl := huniq j b hj hpb
    rw [h] at hj
    rw [Option.some.inj hj]

/-- `P` holds of every row. -/
def All (t : Table α) (P : Nat → α → Prop) : Prop := ∀ i a, t.row i = some a → P i a

theorem all_iff {P : Nat → α → Prop} : t.All P ↔ ∀ r ∈ t.toList, P r.1 r.2 := by
  constructor
  · rintro h ⟨i, a⟩ hmem
    exact h i a (mem_toList.mp hmem)
  · intro h i a hrow
    exact h (i, a) (mem_toList.mpr hrow)

instance (P : Nat → α → Prop) [∀ i a, Decidable (P i a)] : Decidable (t.All P) :=
  decidable_of_iff _ all_iff.symm

@[simp] theorem all_empty {P : Nat → α → Prop} : (empty : Table α).All P := fun i a h => by cases h

theorem All.mono {P Q : Nat → α → Prop} (h : t.All P) (hPQ : ∀ i a, P i a → Q i a) : t.All Q :=
  fun i a ha => hPQ i a (h i a ha)

theorem All.insert {P : Nat → α → Prop} (h : t.All P) (ha : P t.next a) : (t.insert a).All P := by
  intro j b hb
  rcases row_insert_eq_some.mp hb with ⟨rfl, rfl⟩ | hb
  · exact ha
  · exact h j b hb

theorem All.put {P : Nat → α → Prop} (h : t.All P) (hi : t.row i = some a) (hb : P i b) : (t.put i b).All P := by
  intro j c hc
  rcases (row_put_eq_some hi).mp hc with ⟨rfl, rfl⟩ | ⟨-, hc⟩
  · exact hb
  · exact h j c hc

/-! ### Pairs of rows -/

section Pairs

variable {P : α → Prop} {R : α → α → Prop}

/-- Every row satisfies `P` and every two rows a symmetric `R`, also with a new row, when the new row does. -/
theorem pairs_insert (symm : ∀ a b, R a b → R b a) :
    ((t.insert a).All fun i x => P x ∧ (t.insert a).All fun j y => i ≠ j → R x y) ↔
      (t.All fun i x => P x ∧ t.All fun j y => i ≠ j → R x y) ∧ P a ∧ t.All fun _ y => R a y := by
  have old : ∀ {j y}, t.row j = some y → t.next ≠ j := fun h => (lt_next h).ne'
  constructor
  · intro h
    refine ⟨fun i x hx => ?_, (h _ a row_insert_self).1, fun j y hy => ?_⟩
    · obtain ⟨hP, hR⟩ := h i x (row_insert_of_some hx)
      exact ⟨hP, fun j y hy => hR j y (row_insert_of_some hy)⟩
    · exact (h _ a row_insert_self).2 j y (row_insert_of_some hy) (old hy)
  · rintro ⟨h, hP, hR⟩ i x hx
    rcases row_insert_eq_some.mp hx with ⟨hi, hxa⟩ | hx
    · refine ⟨hxa ▸ hP, fun j y hy hne => ?_⟩
      rcases row_insert_eq_some.mp hy with ⟨hj, -⟩ | hy
      · exact absurd (hi.trans hj.symm) hne
      · exact hxa ▸ hR j y hy
    · refine ⟨(h i x hx).1, fun j y hy hne => ?_⟩
      rcases row_insert_eq_some.mp hy with ⟨-, hya⟩ | hy
      · exact hya ▸ symm _ _ (hR i x hx)
      · exact (h i x hx).2 j y hy hne

theorem pairs_put (symm : ∀ a b, R a b → R b a) (h : t.All fun i x => P x ∧ t.All fun j y => i ≠ j → R x y)
    (row : t.row i = some a) (hP : P a → P b) (hR : ∀ y, R a y → R b y) :
    (t.put i b).All fun j x => P x ∧ (t.put i b).All fun k y => j ≠ k → R x y := by
  obtain ⟨ha, all⟩ := h i a row
  intro j x hx
  rcases (row_put_eq_some row).mp hx with ⟨hj, hxb⟩ | ⟨hne, hx⟩
  · refine ⟨hxb ▸ hP ha, fun k y hy hk => ?_⟩
    rcases (row_put_eq_some row).mp hy with ⟨hk', -⟩ | ⟨hne, hy⟩
    · exact absurd (hj.trans hk'.symm) hk
    · exact hxb ▸ hR y (all k y hy hne.symm)
  · refine ⟨(h j x hx).1, fun k y hy hk => ?_⟩
    rcases (row_put_eq_some row).mp hy with ⟨-, hyb⟩ | ⟨-, hy⟩
    · exact hyb ▸ symm _ _ (hR x (all j x hx hne.symm))
    · exact (h j x hx).2 k y hy hk

end Pairs

/-! ### Unique columns -/

/-- No two rows share a value of the column `key`; rows without a value are free. -/
def Distinct {κ : Type} (key : α → Option κ) (t : Table α) : Prop :=
  ∀ i j a b k, t.row i = some a → t.row j = some b → key a = some k → key b = some k → i = j

namespace Distinct

variable {κ : Type} {key : α → Option κ}

theorem empty : Distinct key (.empty : Table α) := fun i j a b k h => by cases h

theorem insert (h : Distinct key t) (new : ∀ k, key a = some k → t.All fun _ b => key b ≠ some k) :
    Distinct key (t.insert a) := by
  intro i j b c k hb hc hkb hkc
  rcases row_insert_eq_some.mp hb with ⟨hi, hb'⟩ | hb' <;>
    rcases row_insert_eq_some.mp hc with ⟨hj, hc'⟩ | hc'
  · rw [hi, hj]
  · exact absurd hkc (new k (hb' ▸ hkb) j c hc')
  · exact absurd hkb (new k (hc' ▸ hkc) i b hb')
  · exact h i j b c k hb' hc' hkb hkc

theorem of_keeps {t' : Table α} (h : Distinct key t) (back : t'.Keeps (fun b a => key b = key a) t) :
    Distinct key t' := by
  intro i j b c k hb hc hkb hkc
  obtain ⟨a, ha, hba⟩ := back i b hb
  obtain ⟨a', ha', hca⟩ := back j c hc
  exact h i j a a' k ha ha' (hba ▸ hkb) (hca ▸ hkc)

/-- At most one row has the value `k`, so it may be filtered before or after it is taken. -/
theorem head?_select [BEq κ] [LawfulBEq κ] (h : Distinct key t) {k : κ} {p : α → Bool} :
    (t.select fun a => key a == some k && p a).head? = ((t.select fun a => key a == some k).head?).filter (p ·.2) := by
  have filtered : (t.select fun a => key a == some k && p a) = (t.select fun a => key a == some k).filter (p ·.2) := by
    rw [select, select, List.filter_filter]
    exact List.filter_congr fun r _ => Bool.and_comm _ _
  have same : ∀ r ∈ t.select (key · == some k), ∀ s ∈ t.select (key · == some k), r.1 = s.1 := by
    intro r hr s hs
    obtain ⟨row, hk⟩ := mem_select.mp hr
    obtain ⟨row', hk'⟩ := mem_select.mp hs
    exact h r.1 s.1 r.2 s.2 k row row' (beq_iff_eq.mp hk) (beq_iff_eq.mp hk')
  rw [filtered]
  cases found : t.select (key · == some k) with
  | nil => rfl
  | cons r rows =>
    have alone : rows = [] := by
      refine List.eq_nil_iff_forall_not_mem.mpr fun s hs => ?_
      have nodup : (r.1 :: rows.map Prod.fst).Nodup := by
        rw [← List.map_cons, ← found]
        exact nodup_keys_select
      have hs' : s ∈ t.select (key · == some k) := found ▸ List.mem_cons_of_mem r hs
      have hr' : r ∈ t.select (key · == some k) := found ▸ List.mem_cons_self
      exact (List.nodup_cons.mp nodup).1 (same r hr' s hs' ▸ List.mem_map_of_mem hs)
    subst alone
    cases hp : p r.2 <;> simp [Option.filter, hp]

end Distinct

/-! ### Bulk statements -/

section Bulk

variable {p : Nat → α → Bool} {f : α → α}

/-- `delete … where …`. -/
def deleteWhere (t : Table α) (p : Nat → α → Bool) : Table α where
  row i := (t.row i).filter fun a => !p i a
  next := t.next
  bounded i hi := by rw [t.bounded i hi]; rfl

/-- `update … where … values …`. -/
def updateWhere (t : Table α) (p : Nat → α → Bool) (f : α → α) : Table α := t.mapRows fun i a => if p i a then f a else a

/-- `select id … where …`. -/
def keysWhere (t : Table α) (p : Nat → α → Bool) : List Nat := (t.toList.filter fun r => p r.1 r.2).map Prod.fst

theorem mem_keysWhere : i ∈ t.keysWhere p ↔ ∃ a, t.row i = some a ∧ p i a = true := by
  unfold keysWhere
  constructor
  · intro h
    obtain ⟨r, hr, rfl⟩ := List.mem_map.mp h
    obtain ⟨hmem, hp⟩ := List.mem_filter.mp hr
    exact ⟨r.2, mem_toList.mp hmem, hp⟩
  · rintro ⟨a, row, hp⟩
    exact List.mem_map.mpr ⟨(i, a), List.mem_filter.mpr ⟨mem_toList.mpr row, hp⟩, rfl⟩

theorem row_deleteWhere : (t.deleteWhere p).row i = some a ↔ t.row i = some a ∧ p i a = false := by
  show (t.row i).filter _ = some a ↔ _
  rw [Option.filter_eq_some_iff, Bool.not_eq_true']

theorem row_deleteWhere_of_not (h : t.row i = some a) (hp : p i a = false) : (t.deleteWhere p).row i = some a :=
  row_deleteWhere.mpr ⟨h, hp⟩

theorem row_updateWhere (h : t.row i = some a) : (t.updateWhere p f).row i = some (if p i a then f a else a) := by
  rw [updateWhere, row_mapRows, h, Option.map_some]

end Bulk

end Table

/-! ### Columns -/

section Columns

variable {α : Type}

/-- The value of a column after a session that loaded `loaded` and assigned `assigned` writes to a row
that holds `stored`. -/
def flushed [DecidableEq α] (loaded assigned stored : α) : α := if assigned = loaded then stored else assigned

@[simp] theorem flushed_fresh [DecidableEq α] (loaded assigned : α) :
    flushed loaded assigned loaded = assigned := by
  unfold flushed
  split
  · next h => exact h.symm
  · rfl

@[simp] theorem flushed_untouched [DecidableEq α] (loaded stored : α) :
    flushed loaded loaded stored = stored := by
  rw [flushed, if_pos rfl]

theorem flushed_of_ne [DecidableEq α] {loaded assigned : α} (h : assigned ≠ loaded) (stored : α) :
    flushed loaded assigned stored = assigned := by
  rw [flushed, if_neg h]

end Columns

end SalonBooking.Lib
