import Mathlib

/-!
# Subtracting spans

Half-open spans of a linear order. Cutting one span out of another leaves at most two parts, and cutting a list of
spans out of an ordered list leaves an ordered list whose points are the set difference.
-/

namespace SalonBooking.Lib

/-- The points from `start` on and before `stop`; there is at least one. -/
structure Span (α : Type*) [LinearOrder α] where
  start : α
  stop : α
  ordered : start < stop
deriving DecidableEq

namespace Span

variable {α : Type*} [LinearOrder α] {r s e : Span α} {l : List (Span α)} {x : α}

def points (r : Span α) : Set α := Set.Ico r.start r.stop

/-- Wholly before; the ends may touch. -/
def Before (r s : Span α) : Prop := r.stop ≤ s.start

def Overlaps (r s : Span α) : Prop := r.start < s.stop ∧ s.start < r.stop

instance (r s : Span α) : Decidable (r.Before s) := inferInstanceAs (Decidable (_ ≤ _))

instance (r s : Span α) : Decidable (r.Overlaps s) := inferInstanceAs (Decidable (_ ∧ _))

theorem Before.not_overlaps (h : r.Before s) : ¬ r.Overlaps s := fun o => absurd o.2 (not_lt.mpr h)

theorem overlaps_comm : r.Overlaps s ↔ s.Overlaps r := and_comm

theorem before_of_not_overlaps (h : ¬ r.Overlaps s) (first : r.start ≤ s.start) : r.Before s := by
  have : r.start < s.stop := first.trans_lt s.ordered
  exact not_lt.mp fun later => h ⟨this, later⟩

theorem overlaps_iff : r.Overlaps s ↔ (r.points ∩ s.points).Nonempty := by
  constructor
  · intro h
    refine ⟨max r.start s.start, ⟨le_max_left .., ?_⟩, ⟨le_max_right .., ?_⟩⟩
    · exact max_lt r.ordered h.2
    · exact max_lt h.1 s.ordered
  · rintro ⟨x, hr, hs⟩
    exact ⟨hr.1.trans_lt hs.2, hs.1.trans_lt hr.2⟩

def cover (l : List (Span α)) : Set α := {x | ∃ r ∈ l, x ∈ r.points}

@[simp] theorem mem_cover : x ∈ cover l ↔ ∃ r ∈ l, x ∈ r.points := Iff.rfl

/-! ### One span out of another -/

/-- The part of `r` before `e` and the part after it. -/
def cut (r e : Span α) : List (Span α) :=
  if r.Overlaps e then
    (if h : r.start < e.start then [⟨r.start, min r.stop e.start, lt_min r.ordered h⟩] else []) ++
      if h : e.stop < r.stop then [⟨max r.start e.stop, r.stop, max_lt r.ordered h⟩] else []
  else [r]

theorem cut_of_not_overlaps (h : ¬ r.Overlaps e) : r.cut e = [r] := if_neg h

theorem mem_cut_of_overlaps (h : r.Overlaps e) :
    s ∈ r.cut e ↔ (s.start = r.start ∧ s.stop = e.start) ∨ (s.start = e.stop ∧ s.stop = r.stop) := by
  obtain ⟨a, b, ab⟩ := s
  have h1 := h.1
  have h2 := h.2
  unfold cut
  rw [if_pos h, List.mem_append]
  apply or_congr
  · split_ifs with left
    · simp [min_eq_right h2.le]
    · simp only [List.not_mem_nil, false_iff]
      rintro ⟨rfl, rfl⟩
      exact left ab
  · split_ifs with right
    · simp [max_eq_right h1.le]
    · simp only [List.not_mem_nil, false_iff]
      rintro ⟨rfl, rfl⟩
      exact right ab

theorem within_cut (h : s ∈ r.cut e) : r.start ≤ s.start ∧ s.stop ≤ r.stop := by
  by_cases o : r.Overlaps e
  · rcases (mem_cut_of_overlaps o).mp h with ⟨a, b⟩ | ⟨a, b⟩
    · exact ⟨a.ge, b.trans_le o.2.le⟩
    · exact ⟨o.1.le.trans a.ge, b.le⟩
  · rw [cut_of_not_overlaps o, List.mem_singleton] at h
    subst h
    exact ⟨le_rfl, le_rfl⟩

theorem ordered_cut (r e : Span α) : (r.cut e).Pairwise Before := by
  unfold cut
  split_ifs
  all_goals simp [Before, e.ordered.le]

theorem cover_cut (r e : Span α) : cover (r.cut e) = r.points \ e.points := by
  ext x
  rw [mem_cover, Set.mem_sdiff]
  by_cases o : r.Overlaps e
  · constructor
    · rintro ⟨s, hs, low, high⟩
      rcases (mem_cut_of_overlaps o).mp hs with ⟨a, b⟩ | ⟨a, b⟩
      · rw [a] at low
        rw [b] at high
        exact ⟨⟨low, high.trans o.2⟩, fun inside => absurd high (not_lt.mpr inside.1)⟩
      · rw [a] at low
        rw [b] at high
        exact ⟨⟨o.1.le.trans low, high⟩, fun inside => absurd inside.2 (not_lt.mpr low)⟩
    · rintro ⟨⟨low, high⟩, outside⟩
      rcases lt_or_ge x e.start with before | after
      · exact ⟨⟨r.start, e.start, low.trans_lt before⟩, (mem_cut_of_overlaps o).mpr (.inl ⟨rfl, rfl⟩), low, before⟩
      · have past : e.stop ≤ x := not_lt.mp fun within => outside ⟨after, within⟩
        exact ⟨⟨e.stop, r.stop, past.trans_lt high⟩, (mem_cut_of_overlaps o).mpr (.inr ⟨rfl, rfl⟩), past, high⟩
  · rw [cut_of_not_overlaps o]
    simp only [List.mem_singleton, exists_eq_left]
    refine ⟨fun inside => ⟨inside, fun excluded => ?_⟩, fun h => h.1⟩
    exact o (overlaps_iff.mpr ⟨x, inside, excluded⟩)

/-! ### A list out of a list -/

/-- One span cut out of each of a list. -/
def cutAll (l : List (Span α)) (e : Span α) : List (Span α) := l.flatMap (·.cut e)

theorem ordered_cutAll (h : l.Pairwise Before) (e : Span α) : (cutAll l e).Pairwise Before := by
  refine List.pairwise_flatMap.mpr ⟨fun r _ => ordered_cut r e, h.imp ?_⟩
  intro r s first a ha b hb
  exact (within_cut ha).2.trans (first.trans (within_cut hb).1)

theorem cover_cutAll (l : List (Span α)) (e : Span α) : cover (cutAll l e) = cover l \ e.points := by
  ext x
  have part : ∀ r : Span α, (∃ s ∈ r.cut e, x ∈ s.points) ↔ x ∈ r.points ∧ x ∉ e.points := fun r => by
    rw [← mem_cover, cover_cut, Set.mem_sdiff]
  simp only [cutAll, mem_cover, List.mem_flatMap, Set.mem_sdiff]
  constructor
  · rintro ⟨s, ⟨r, hr, hs⟩, hx⟩
    have := (part r).mp ⟨s, hs, hx⟩
    exact ⟨⟨r, hr, this.1⟩, this.2⟩
  · rintro ⟨⟨r, hr, inside⟩, outside⟩
    obtain ⟨s, hs, hx⟩ := (part r).mpr ⟨inside, outside⟩
    exact ⟨s, ⟨r, hr, hs⟩, hx⟩

/-- What a list of exclusions leaves of a list of spans. -/
def subtract (l exclusions : List (Span α)) : List (Span α) := exclusions.foldl cutAll l

theorem ordered_subtract (exclusions : List (Span α)) (h : l.Pairwise Before) :
    (subtract l exclusions).Pairwise Before := by
  induction exclusions generalizing l with
  | nil => exact h
  | cons e rest ih => exact ih (ordered_cutAll h e)

theorem cover_subtract (l exclusions : List (Span α)) : cover (subtract l exclusions) = cover l \ cover exclusions := by
  induction exclusions generalizing l with
  | nil => simp [subtract, cover]
  | cons e rest ih =>
    have : cover (e :: rest) = e.points ∪ cover rest := by
      ext x
      simp [mem_cover]
    rw [this, ← Set.sdiff_sdiff, ← cover_cutAll]
    exact ih (cutAll l e)

/-- Spans that do not overlap, listed by their starts, come one before the other. -/
theorem ordered_of_sorted (sorted : l.Pairwise fun r s => r.start ≤ s.start) (apart : l.Pairwise fun r s => ¬ r.Overlaps s) :
    l.Pairwise Before :=
  (sorted.and apart).imp fun h => before_of_not_overlaps h.2 h.1

end Span

end SalonBooking.Lib
