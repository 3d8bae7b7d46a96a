import SalonBooking.Domain.Appointments
import SalonBooking.Lib.Spans

/-!
# The ranges of a local day

`LocalMinuteRange` and `_subtract_ranges` of `domain/schedule_projection.py`. A range is built through a check, also
inside the subtraction, where the check never fails: what is built there is what cutting one span out of another
leaves.
-/

namespace SalonBooking.Schedule

open Lib

structure WindowValidationError where
  message : String
deriving DecidableEq, Repr

/-- Minutes of the wall clock in one local day; 1440 is the next midnight. -/
structure LocalMinuteRange extends Span Int where
  nonneg : 0 ≤ start
  withinDay : stop ≤ 1440
deriving DecidableEq

namespace LocalMinuteRange

variable {r s : LocalMinuteRange}

/-- `LocalMinuteRange(start, end)`. -/
def make (start stop : Int) : Except WindowValidationError LocalMinuteRange :=
  if h : 0 ≤ start ∧ start < stop ∧ stop ≤ 1440 then .ok ⟨⟨start, stop, h.2.1⟩, h.1, h.2.2⟩
  else .error ⟨"Schedule interval must be within one local day"⟩

def overlaps (r other : LocalMinuteRange) : Bool := r.start < other.stop ∧ other.start < r.stop

/-- `sorted` compares the starts and then the ends. -/
def le (r s : LocalMinuteRange) : Bool := r.start < s.start ∨ (r.start = s.start ∧ r.stop ≤ s.stop)

/-- The wall clock `t` into the day, in microseconds, lies in the range. -/
def Holds (r : LocalMinuteRange) (t : Int) : Prop := minutes r.start ≤ t ∧ t < minutes r.stop

instance (r : LocalMinuteRange) (t : Int) : Decidable (r.Holds t) := inferInstanceAs (Decidable (_ ∧ _))

theorem overlaps_iff : r.overlaps s = true ↔ r.toSpan.Overlaps s.toSpan := decide_eq_true_iff

theorem holds_iff {t : Int} : r.Holds t ↔ t / minutes 1 ∈ r.toSpan.points := by
  simp only [Holds, Span.points, Set.mem_Ico, minutes]
  omega

theorem le_trans' (a b c : LocalMinuteRange) (hab : a.le b) (hbc : b.le c) : a.le c := by
  simp only [le, decide_eq_true_eq] at *
  omega

theorem le_total' (a b : LocalMinuteRange) : (a.le b || b.le a) = true := by
  simp only [le, Bool.or_eq_true, decide_eq_true_eq]
  omega

theorem make_within {start stop : Int} (h : start < stop) (low : r.start ≤ start) (high : stop ≤ r.stop) :
    ∃ part, make start stop = .ok part ∧ part.toSpan = ⟨start, stop, h⟩ := by
  have inDay : 0 ≤ start ∧ start < stop ∧ stop ≤ 1440 := ⟨r.nonneg.trans low, h, high.trans r.withinDay⟩
  exact ⟨_, dif_pos inDay, rfl⟩

end LocalMinuteRange

open LocalMinuteRange

/-! ### The subtraction -/

/-- The range to append, where the source reaches past the exclusion. -/
def piece (reaches : Bool) (start stop : Int) : Except WindowValidationError (List LocalMinuteRange) :=
  if reaches then do return [← make start stop] else return []

/-- What one exclusion leaves of one source, the inner loop of `_subtract_ranges`. -/
def remaining (source exclusion : LocalMinuteRange) : Except WindowValidationError (List LocalMinuteRange) := do
  if source.overlaps exclusion then
    return (← piece (source.start < exclusion.start) source.start (min source.stop exclusion.start)) ++
      (← piece (exclusion.stop < source.stop) (max source.start exclusion.stop) source.stop)
  else
    return [source]

/-- `_subtract_ranges`. -/
def subtractRanges (sources exclusions : List LocalMinuteRange) :
    Except WindowValidationError (List LocalMinuteRange) :=
  (exclusions.mergeSort le).foldlM
    (fun result exclusion => do return (← result.mapM (remaining · exclusion)).flatten) (sources.mergeSort le)

theorem remaining_cut (source exclusion : LocalMinuteRange) :
    ∃ parts, remaining source exclusion = .ok parts ∧ parts.map (·.toSpan) = source.toSpan.cut exclusion.toSpan := by
  unfold remaining Span.cut
  by_cases o : source.overlaps exclusion
  · rw [if_pos o, if_pos (overlaps_iff.mp o)]
    have left : ∃ parts, piece (source.start < exclusion.start) source.start (min source.stop exclusion.start) = .ok parts ∧
        parts.map (·.toSpan) = if h : source.start < exclusion.start then
          [⟨source.start, min source.stop exclusion.start, lt_min source.ordered h⟩] else [] := by
      by_cases h : source.start < exclusion.start
      · obtain ⟨part, made, shape⟩ := make_within (r := source) (lt_min source.ordered h) le_rfl (min_le_left ..)
        simp [piece, h, made, shape]
      · simp [piece, h]
    have right : ∃ parts, piece (exclusion.stop < source.stop) (max source.start exclusion.stop) source.stop = .ok parts ∧
        parts.map (·.toSpan) = if h : exclusion.stop < source.stop then
          [⟨max source.start exclusion.stop, source.stop, max_lt source.ordered h⟩] else [] := by
      by_cases h : exclusion.stop < source.stop
      · obtain ⟨part, made, shape⟩ := make_within (r := source) (max_lt source.ordered h) (le_max_left ..) le_rfl
        simp [piece, h, made, shape]
      · simp [piece, h]
    obtain ⟨before, hb, shapeb⟩ := left
    obtain ⟨after, ha, shapea⟩ := right
    refine ⟨before ++ after, ?_, by rw [List.map_append, shapeb, shapea]⟩
    rw [hb, ha]
    rfl
  · rw [if_neg o, if_neg fun h => o (overlaps_iff.mpr h)]
    exact ⟨[source], rfl, rfl⟩

theorem mapM_remaining (result : List LocalMinuteRange) (exclusion : LocalMinuteRange) :
    ∃ parts, result.mapM (remaining · exclusion) = .ok parts ∧
      parts.flatten.map (·.toSpan) = Span.cutAll (result.map (·.toSpan)) exclusion.toSpan := by
  induction result with
  | nil => exact ⟨[], rfl, rfl⟩
  | cons source rest ih =>
    obtain ⟨first, hf, shape⟩ := remaining_cut source exclusion
    obtain ⟨parts, hp, shapes⟩ := ih
    refine ⟨first :: parts, ?_, ?_⟩
    · rw [List.mapM_cons, hf, hp]
      rfl
    · rw [List.flatten_cons, List.map_append, shape, shapes]
      rfl

/-- The function subtracts the spans of the sorted exclusions from those of the sorted sources, and nothing it builds
fails the check of a range. -/
theorem subtractRanges_subtract (sources exclusions : List LocalMinuteRange) :
    ∃ result, subtractRanges sources exclusions = .ok result ∧
      result.map (·.toSpan) = Span.subtract ((sources.mergeSort le).map (·.toSpan))
        ((exclusions.mergeSort le).map (·.toSpan)) := by
  unfold subtractRanges
  generalize exclusions.mergeSort le = sorted
  generalize sources.mergeSort le = start
  induction sorted generalizing start with
  | nil => exact ⟨start, rfl, rfl⟩
  | cons exclusion rest ih =>
    obtain ⟨parts, hp, shapes⟩ := mapM_remaining start exclusion
    obtain ⟨result, hr, shape⟩ := ih parts.flatten
    refine ⟨result, ?_, ?_⟩
    · rw [List.foldlM_cons, hp]
      exact hr
    · rw [shape, shapes]
      rfl

theorem ordered_mergeSort {sources : List LocalMinuteRange}
    (disjoint : sources.Pairwise fun r s => r.overlaps s = false) :
    ((sources.mergeSort le).map (·.toSpan)).Pairwise Span.Before := by
  have apart : (sources.mergeSort le).Pairwise fun r s => r.overlaps s = false := by
    refine ((List.mergeSort_perm sources le).pairwise_iff ?_).mpr disjoint
    intro r s h
    rw [← Bool.not_eq_true, overlaps_iff] at h ⊢
    exact fun o => h (Span.overlaps_comm.mp o)
  have sorted := List.pairwise_mergeSort le_trans' le_total' sources
  refine Span.ordered_of_sorted (List.pairwise_map.mpr (sorted.imp ?_)) (List.pairwise_map.mpr (apart.imp ?_))
  · intro r s h
    simp only [le, decide_eq_true_eq] at h
    omega
  · intro r s h
    rwa [← overlaps_iff, Bool.not_eq_true]

theorem cover_map {l : List LocalMinuteRange} {t : Int} :
    t / minutes 1 ∈ Span.cover (l.map (·.toSpan)) ↔ ∃ r ∈ l, r.Holds t := by
  simp only [Span.mem_cover, List.mem_map, exists_exists_and_eq_and, holds_iff]

/-- **Subtracting any exclusions from disjoint sources succeeds, and leaves ranges that are non-empty, disjoint and
in order and hold exactly the times of the sources that no exclusion holds.** -/
theorem subtractRanges_exact (sources exclusions : List LocalMinuteRange)
    (disjoint : sources.Pairwise fun r s => r.overlaps s = false) :
    ∃ result, subtractRanges sources exclusions = .ok result ∧
      (∀ r ∈ result, r.start < r.stop) ∧
      result.Pairwise (fun r s => r.overlaps s = false) ∧
      result.Pairwise (fun r s => r.stop ≤ s.start) ∧
      ∀ t, (∃ r ∈ result, r.Holds t) ↔ (∃ r ∈ sources, r.Holds t) ∧ ∀ e ∈ exclusions, ¬ e.Holds t := by
  obtain ⟨result, ok, shape⟩ := subtractRanges_subtract sources exclusions
  have ordered : result.Pairwise fun r s => r.toSpan.Before s.toSpan := by
    have := Span.ordered_subtract ((exclusions.mergeSort le).map (·.toSpan)) (ordered_mergeSort disjoint)
    rw [← shape] at this
    exact List.pairwise_map.mp this
  refine ⟨result, ok, fun r _ => r.ordered, ordered.imp fun h => ?_, ordered, fun t => ?_⟩
  · rw [← Bool.not_eq_true, overlaps_iff]
    exact h.not_overlaps
  · rw [← cover_map, shape, Span.cover_subtract, Set.mem_sdiff, cover_map, cover_map]
    simp only [List.mem_mergeSort, not_exists, not_and]

/-- A working day with a lunch break and a later one that overlaps it. -/
theorem subtractRanges_exact_breaks :
    [(⟨⟨540, 1080, by decide⟩, by decide, by decide⟩ : LocalMinuteRange)].Pairwise (fun r s => r.overlaps s = false) ∧
      ∃ result, subtractRanges [⟨⟨540, 1080, by decide⟩, by decide, by decide⟩]
        [⟨⟨810, 870, by decide⟩, by decide, by decide⟩, ⟨⟨780, 840, by decide⟩, by decide, by decide⟩] = .ok result ∧
        ∀ t, (∃ r ∈ result, r.Holds t) → minutes 540 ≤ t ∧ t < minutes 1080 := by
  refine ⟨by decide, ?_⟩
  obtain ⟨result, ok, -, -, -, exact⟩ := subtractRanges_exact [⟨⟨540, 1080, by decide⟩, by decide, by decide⟩]
    [⟨⟨810, 870, by decide⟩, by decide, by decide⟩, ⟨⟨780, 840, by decide⟩, by decide, by decide⟩] (by decide)
  refine ⟨result, ok, fun t h => ?_⟩
  obtain ⟨⟨r, hr, holds⟩, -⟩ := (exact t).mp h
  rw [List.mem_singleton] at hr
  subst hr
  exact holds

end SalonBooking.Schedule
