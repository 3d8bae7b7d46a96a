import Mathlib
import SalonBooking.Lib.Table

/-!
# Totals over a table

The sum of a quantity over the rows of a table, with what an inserted and a rewritten row change in it.
-/

namespace SalonBooking.Lib.Table

universe u

variable {α : Type u} {t : Table α} {i : Nat} {a b : α} {f g : α → Int}

/-- The contribution of the key `j`. -/
def cell (t : Table α) (f : α → Int) (j : Nat) : Int := (t.row j).elim 0 f

/-- The sum of `f` over all rows. -/
def total (t : Table α) (f : α → Int) : Int := ∑ j ∈ Finset.range t.next, t.cell f j

@[simp] theorem cell_of_row (h : t.row i = some a) : t.cell f i = f a := by rw [cell, h]; rfl

@[simp] theorem total_empty : (empty : Table α).total f = 0 := rfl

theorem total_insert : (t.insert a).total f = t.total f + f a := by
  rw [total, next_insert, Finset.sum_range_succ, cell_of_row row_insert_self]
  congr 1
  refine Finset.sum_congr rfl fun j hj => ?_
  rw [cell, row_insert, if_neg (Finset.mem_range.mp hj).ne]
  rfl

theorem total_put (h : t.row i = some a) : (t.put i b).total f + f a = t.total f + f b := by
  have hmem : i ∈ Finset.range t.next := Finset.mem_range.mpr (lt_next h)
  have others : ∀ j ∈ (Finset.range t.next).erase i, (t.put i b).cell f j = t.cell f j := by
    intro j hj
    rw [cell, row_put_ne (Finset.ne_of_mem_erase hj)]
    rfl
  rw [total, total, next_put, ← Finset.add_sum_erase _ _ hmem, ← Finset.add_sum_erase _ (t.cell f) hmem,
    Finset.sum_congr rfl others, cell_of_row h, cell_of_row (row_put_self h)]
  have swap : ∀ x y z : Int, x + y + z = z + y + x := by intros; omega
  exact swap _ _ _

theorem total_eq_zero (h : t.All fun _ a => f a = 0) : t.total f = 0 := by
  refine Finset.sum_eq_zero fun j _ => ?_
  cases hrow : t.row j with
  | none => rw [cell, hrow]; rfl
  | some a => rw [cell_of_row hrow]; exact h j a hrow

theorem cell_nonneg (h : t.All fun _ a => 0 ≤ f a) (j : Nat) : 0 ≤ t.cell f j := by
  cases hrow : t.row j with
  | none => rw [cell, hrow]; exact le_rfl
  | some a => rw [cell_of_row hrow]; exact h j a hrow

theorem total_nonneg (h : t.All fun _ a => 0 ≤ f a) : 0 ≤ t.total f :=
  Finset.sum_nonneg fun j _ => cell_nonneg h j

theorem le_total (h : t.All fun _ a => 0 ≤ f a) (hi : t.row i = some a) : f a ≤ t.total f := by
  have hmem : i ∈ Finset.range t.next := Finset.mem_range.mpr (lt_next hi)
  have single := Finset.single_le_sum (f := t.cell f) (fun j _ => cell_nonneg h j) hmem
  rwa [cell_of_row hi] at single

theorem sum_select {p : α → Bool} :
    ((t.select p).map fun r => f r.2).sum = t.total fun a => if p a = true then f a else 0 := by
  have cells : ∀ l : List Nat,
      (((l.filterMap fun i => (t.row i).map fun a => (i, a)).filter fun r => p r.2).map fun r => f r.2).sum =
        (l.map (t.cell fun a => if p a = true then f a else 0)).sum := by
    intro l
    induction l with
    | nil => rfl
    | cons j l ih =>
      cases hrow : t.row j with
      | none => simp [hrow, ih, cell]
      | some a => by_cases hp : p a = true <;> simp [hrow, hp, ih, cell]
  exact cells (List.range t.next)

end SalonBooking.Lib.Table
