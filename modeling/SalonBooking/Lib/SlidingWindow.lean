import Mathlib

/-!
# Sliding windows

A log of admissions in time order, in which each one was admitted while fewer than `limit` of the earlier ones were
younger than the window. Then no half-open interval of the length of the window holds more than `limit` of them.
-/

namespace SalonBooking.Lib

variable {α : Type*} [AddCommGroup α] [LinearOrder α] [IsOrderedAddMonoid α]

/-- What a window of length `w` that ends at `now` still holds. -/
def recent (w now : α) (log : List α) : List α := log.filter (now - w < ·)

/-- Every entry was admitted while fewer than `limit` entries were recent. -/
inductive Admitted (w : α) (limit : Nat) : List α → Prop
  | nil : Admitted w limit []
  | snoc {log : List α} {now : α} (earlier : Admitted w limit log) (ordered : ∀ t ∈ log, t ≤ now)
      (room : (recent w now log).length < limit) : Admitted w limit (log ++ [now])

/-- What an interval holds before its entry at `now` is recent at `now`. -/
theorem filter_interval_le {w a now : α} {log : List α} (before : now < a + w) :
    (log.filter fun t => a ≤ t ∧ t < a + w).length ≤ (recent w now log).length := by
  refine (List.monotone_filter_right log ?_).length_le
  intro t ht
  simp only [decide_eq_true_eq] at ht ⊢
  exact lt_of_lt_of_le (sub_lt_iff_lt_add.mpr before) ht.1

theorem Admitted.burst {w : α} {limit : Nat} {log : List α} (h : Admitted w limit log) (a : α) :
    (log.filter fun t => a ≤ t ∧ t < a + w).length ≤ limit := by
  induction h with
  | nil => exact Nat.zero_le _
  | @snoc log now earlier ordered room ih =>
    rw [List.filter_append, List.length_append]
    by_cases inside : a ≤ now ∧ now < a + w
    · have earlierOnes := (@filter_interval_le _ _ _ _ _ _ _ log) inside.2
      rw [List.filter_singleton, decide_eq_true inside, cond_true, List.length_singleton]
      omega
    · rw [List.filter_singleton, decide_eq_false inside, cond_false, List.length_nil]
      exact ih

theorem Admitted.spaced {w : α} {log : List α} (h : Admitted w 1 log) : log.Pairwise fun t t' => t + w ≤ t' := by
  induction h with
  | nil => exact .nil
  | @snoc log now earlier ordered room ih =>
    refine List.pairwise_append.mpr ⟨ih, List.pairwise_singleton _ _, ?_⟩
    intro t ht now' same
    rw [List.mem_singleton.mp same]
    have none : recent w now log = [] := List.length_eq_zero_iff.mp (Nat.lt_one_iff.mp room)
    have old := List.filter_eq_nil_iff.mp none t ht
    rw [decide_eq_true_eq, not_lt] at old
    exact le_sub_iff_add_le.mp old

end SalonBooking.Lib
