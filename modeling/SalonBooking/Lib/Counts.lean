import Mathlib
import SalonBooking.Lib.Table

/-!
# Counting rows

How many rows of a table satisfy a test, compared between two tables by the keys of the rows. A bound on such
a count is kept by every change that leaves the tested rows where they are, and by every change that adds one
row below the bound.
-/

namespace SalonBooking.Lib.Table

universe u

variable {α : Type u} {t t' : Table α} {i : Nat} {p p' : Nat → α → Bool}

/-- The rows that satisfy `p`. -/
def count (t : Table α) (p : Nat → α → Bool) : Nat := (t.toList.filter fun r => p r.1 r.2).length

@[simp] theorem count_empty : (empty : Table α).count p = 0 := rfl

theorem count_le_length {ks : List Nat} (h : ∀ i a, t.row i = some a → p i a = true → i ∈ ks) : t.count p ≤ ks.length := by
  have nodup : ((t.toList.filter fun r => p r.1 r.2).map Prod.fst).Nodup := by
    refine List.Nodup.map_on (fun r hr r' hr' same => ?_) (nodup_toList.filter _)
    have row := mem_toList.mp (List.mem_filter.mp hr).1
    have row' := mem_toList.mp (List.mem_filter.mp hr').1
    rw [same, row'] at row
    exact Prod.ext same (Option.some.inj row).symm
  have subset : (t.toList.filter fun r => p r.1 r.2).map Prod.fst ⊆ ks := by
    intro i hi
    obtain ⟨r, hr, rfl⟩ := List.mem_map.mp hi
    obtain ⟨hmem, hp⟩ := List.mem_filter.mp hr
    exact h r.1 r.2 (mem_toList.mp hmem) hp
  have le := (List.subperm_of_subset nodup subset).length_le
  rwa [List.length_map] at le

theorem mem_keys : i ∈ (t.toList.filter fun r => p r.1 r.2).map Prod.fst ↔ ∃ a, t.row i = some a ∧ p i a = true := by
  simp [mem_toList]

theorem count_le (h : ∀ i a, t'.row i = some a → p' i a = true → ∃ b, t.row i = some b ∧ p i b = true) :
    t'.count p' ≤ t.count p := by
  have le := (@count_le_length _ _ _ ((t.toList.filter fun r => p r.1 r.2).map Prod.fst))
    fun i a row hp => mem_keys.mpr (h i a row hp)
  rwa [List.length_map] at le

theorem count_le_succ {k : Nat}
    (h : ∀ i a, i ≠ k → t'.row i = some a → p' i a = true → ∃ b, t.row i = some b ∧ p i b = true) :
    t'.count p' ≤ t.count p + 1 := by
  have le := (@count_le_length _ t' p' (k :: (t.toList.filter fun r => p r.1 r.2).map Prod.fst))
    fun i a row hp => by
      by_cases hi : i = k
      · exact hi ▸ List.mem_cons_self
      · exact List.mem_cons_of_mem _ (mem_keys.mpr (h i a hi row hp))
  rwa [List.length_cons, List.length_map] at le

/-! ### One row and the others -/

/-- The counted rows under other keys. -/
def countOthers (t : Table α) (i : Nat) (p : Nat → α → Bool) : Nat := t.count fun j a => p j a && j != i

theorem countOthers_congr (h : ∀ j, j ≠ i → t'.row j = t.row j) : t'.countOthers i p = t.countOthers i p := by
  have other : ∀ {j a}, (p j a && j != i) = true → j ≠ i := fun hp => bne_iff_ne.mp (Bool.and_eq_true_iff.mp hp).2
  apply le_antisymm
  · exact count_le fun j a row hp => ⟨a, h j (other hp) ▸ row, hp⟩
  · exact count_le fun j a row hp => ⟨a, (h j (other hp)).trans row, hp⟩

theorem count_eq_countOthers {a : α} (row : t.row i = some a) :
    t.count p = t.countOthers i p + if p i a = true then 1 else 0 := by
  by_cases hi : p i a = true
  · rw [if_pos hi]
    have mem : i ∈ (t.toList.filter fun r => p r.1 r.2).map Prod.fst := mem_keys.mpr ⟨a, row, hi⟩
    apply le_antisymm
    · exact count_le_succ fun j b hj hrow hp => ⟨b, hrow, by rw [hp, bne_iff_ne.mpr hj]; rfl⟩
    · have le : t.countOthers i p ≤ (((t.toList.filter fun r => p r.1 r.2).map Prod.fst).erase i).length := by
        refine count_le_length fun j b hrow hp => ?_
        obtain ⟨hp, hj⟩ := Bool.and_eq_true_iff.mp hp
        exact (List.mem_erase_of_ne (bne_iff_ne.mp hj)).mpr (mem_keys.mpr ⟨b, hrow, hp⟩)
      have pos := List.length_pos_of_mem mem
      rw [List.length_erase_of_mem mem] at le
      rw [List.length_map] at le pos
      unfold count
      omega
  · rw [if_neg hi, Nat.add_zero]
    apply le_antisymm
    · refine count_le fun j b hrow hp => ⟨b, hrow, ?_⟩
      have hj : j ≠ i := by
        rintro rfl
        rw [row, Option.some.injEq] at hrow
        exact hi (hrow ▸ hp)
      rw [hp, bne_iff_ne.mpr hj]
      rfl
    · exact count_le fun j b hrow hp => ⟨b, hrow, (Bool.and_eq_true_iff.mp hp).1⟩

theorem count_put {a b : α} (row : t.row i = some a) :
    (t.put i b).count p = t.countOthers i p + if p i b = true then 1 else 0 := by
  rw [count_eq_countOthers (row_put_self row), countOthers_congr fun j hj => row_put_ne hj]

theorem count_insert {a : α} : (t.insert a).count p = t.count p + if p t.next a = true then 1 else 0 := by
  rw [count_eq_countOthers row_insert_self]
  have other : ∀ {j : Nat} {b : α}, (t.insert a).row j = some b → j ≠ t.next → t.row j = some b := by
    intro j b hrow hj
    rcases row_insert_eq_some.mp hrow with ⟨rfl, -⟩ | hrow
    · exact absurd rfl hj
    · exact hrow
  congr 1
  apply le_antisymm
  · refine count_le fun j b hrow hp => ?_
    obtain ⟨hp, hj⟩ := Bool.and_eq_true_iff.mp hp
    exact ⟨b, other hrow (bne_iff_ne.mp hj), hp⟩
  · refine count_le fun j b hrow hp => ⟨b, row_insert_of_some hrow, ?_⟩
    rw [hp, bne_iff_ne.mpr (lt_next hrow).ne]
    rfl

end SalonBooking.Lib.Table
