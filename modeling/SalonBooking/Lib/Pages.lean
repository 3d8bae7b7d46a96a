import Mathlib
import SalonBooking.Lib.Counts

/-!
# Ordered queries with a limit

The rows of a table that satisfy a test, ordered by a key and then by their primary key, up to a limit. A row is on
such a page exactly when it satisfies the test and fewer rows than the limit come before it.
-/

namespace SalonBooking.Lib

universe u

/-- In a list that is strictly ordered, the first `n` are those that fewer than `n` come before. -/
theorem mem_take_of_pairwise {α : Type u} {lt : α → α → Prop} [DecidableRel lt] (irrefl : ∀ a, ¬ lt a a)
    (asymm : ∀ a b, lt a b → ¬ lt b a) {l : List α} (ordered : l.Pairwise lt) {n : Nat} {x : α} :
    x ∈ l.take n ↔ x ∈ l ∧ l.countP (fun y => lt y x) < n := by
  induction l generalizing n with
  | nil => simp
  | cons a l ih =>
    obtain ⟨first, rest⟩ := List.pairwise_cons.mp ordered
    cases n with
    | zero => simp
    | succ n =>
      rw [List.take_succ_cons, List.mem_cons, List.mem_cons, ih rest, List.countP_cons]
      constructor
      · rintro (rfl | ⟨hx, before⟩)
        · have none : l.countP (fun y => lt y x) = 0 :=
            List.countP_eq_zero.mpr fun b hb => by simpa using asymm x b (first b hb)
          refine ⟨.inl rfl, ?_⟩
          rw [none, if_neg (by simpa using irrefl x)]
          omega
        · refine ⟨.inr hx, ?_⟩
          rw [if_pos (by simpa using first x hx)]
          omega
      · rintro ⟨rfl | hx, before⟩
        · exact .inl rfl
        · rw [if_pos (by simpa using first x hx)] at before
          exact .inr ⟨hx, by omega⟩

namespace Table

variable {α : Type u} {t : Table α} {p : α → Bool} {key : α → Int} {limit i : Nat} {a : α}

/-- A row comes before another one in the order of a key, ties in the order of their primary keys. -/
def Before (key : α → Int) (x y : Nat × α) : Prop := key x.2 < key y.2 ∨ key x.2 = key y.2 ∧ x.1 < y.1

instance : DecidableRel (Before key) := fun _ _ => inferInstanceAs (Decidable (_ ∨ _))

/-- `select … where … order by key, id limit …`. -/
def page (t : Table α) (p : α → Bool) (key : α → Int) (limit : Nat) : List (Nat × α) :=
  ((t.select p).insertionSort fun x y => ¬ Before key y x).take limit

theorem Before.irrefl (x : Nat × α) : ¬ Before key x x := by
  rintro (h | ⟨-, h⟩) <;> omega

theorem Before.asymm (x y : Nat × α) (h : Before key x y) : ¬ Before key y x := by
  rcases h with h | ⟨h, h'⟩ <;> rintro (g | ⟨g, g'⟩) <;> omega

theorem Before.total {x y : Nat × α} (h : x.1 ≠ y.1) (hyx : ¬ Before key y x) : Before key x y := by
  unfold Before at *
  omega

instance : Std.Total fun x y : Nat × α => ¬ Before key y x :=
  ⟨fun x y => by by_cases h : Before key y x; exacts [.inr (Before.asymm y x h), .inl h]⟩

instance : IsTrans (Nat × α) fun x y => ¬ Before key y x :=
  ⟨fun x y z hxy hyz hzx => by unfold Before at *; omega⟩

theorem pairwise_before : ((t.select p).insertionSort fun x y => ¬ Before key y x).Pairwise (Before key) := by
  have sorted := List.pairwise_insertionSort (fun x y : Nat × α => ¬ Before key y x) (t.select p)
  have perm := List.perm_insertionSort (fun x y : Nat × α => ¬ Before key y x) (t.select p)
  have nodup : ((t.select p).insertionSort fun x y => ¬ Before key y x).Pairwise fun x y => x ≠ y :=
    perm.nodup_iff.mpr (nodup_toList.filter _)
  refine (sorted.and nodup).imp_of_mem fun {x y} hx hy h => Before.total (fun same => h.2 ?_) h.1
  have row := (mem_select.mp (perm.mem_iff.mp hx)).1
  have row' := (mem_select.mp (perm.mem_iff.mp hy)).1
  rw [same, row'] at row
  exact Prod.ext same (Option.some.inj row).symm

/-- A row is on the page when it is selected and fewer rows than the limit come before it. -/
theorem mem_page : (i, a) ∈ t.page p key limit ↔ (t.row i = some a ∧ p a = true) ∧
    t.count (fun j b => p b && decide (Before key (j, b) (i, a))) < limit := by
  have perm := List.perm_insertionSort (fun x y : Nat × α => ¬ Before key y x) (t.select p)
  have earlier : (t.select p).countP (fun y => Before key y (i, a)) =
      t.count fun j b => p b && decide (Before key (j, b) (i, a)) := by
    rw [count, select, List.countP_filter, List.countP_eq_length_filter]
    congr 1
    refine List.filter_congr fun y _ => ?_
    rw [Bool.and_comm]
  rw [page, mem_take_of_pairwise Before.irrefl Before.asymm pairwise_before, perm.mem_iff, perm.countP_eq, mem_select,
    earlier]

end Table

end SalonBooking.Lib
