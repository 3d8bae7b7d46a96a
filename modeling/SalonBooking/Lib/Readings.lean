import SalonBooking.Lib.Zones

/-!
# The instants that show a reading

A reading of the wall clock that no change skips is found with one of the two folds, and where the repeated hours of
the changes stay apart the folds find every instant that shows it. Between two instants at which the clock is not put
back the readings increase.
-/

namespace SalonBooking.Lib

section Lookup

variable {key : OffsetChange → Int} {offset x t : Int} {c : OffsetChange} {l : List OffsetChange}

theorem offsetFrom_congr (same : ∀ c ∈ l, key c ≤ x ↔ c.instant ≤ t) :
    offsetFrom key offset l x = offsetFrom OffsetChange.instant offset l t := by
  induction l generalizing offset with
  | nil => rfl
  | cons c rest ih =>
    simp only [offsetFrom, same c List.mem_cons_self, ih fun d hd => same d (List.mem_cons_of_mem _ hd)]

theorem lastChange_of_lt (first : ∀ c ∈ l, t < c.instant) : lastChange l t = none := by
  cases l with
  | nil => rfl
  | cons c rest =>
    have := first c List.mem_cons_self
    simp only [lastChange]
    rw [if_neg (by omega)]

/-- The last change up to an instant leaves the offset there, and its keys are the greatest of the changes seen. -/
theorem lastChange_of_le (offset : Int) (sorted : l.Pairwise fun c d => c.instant < d.instant ∧ key c ≤ key d) (hc : c ∈ l)
    (seen : c.instant ≤ t) :
    ∃ d ∈ l, lastChange l t = some d ∧ d.instant ≤ t ∧ d.after = offsetFrom OffsetChange.instant offset l t ∧
      key c ≤ key d := by
  induction l generalizing offset c with
  | nil => cases hc
  | cons e rest ih =>
    obtain ⟨next, sorted⟩ := List.pairwise_cons.mp sorted
    have he : e.instant ≤ t := by
      rcases List.mem_cons.mp hc with rfl | hc
      · exact seen
      · exact (next c hc).1.le.trans seen
    simp only [lastChange, offsetFrom, if_pos he]
    by_cases later : ∃ d ∈ rest, d.instant ≤ t
    · obtain ⟨d, hd, hdt⟩ := later
      have least : ∃ a ∈ rest, a.instant ≤ t ∧ key c ≤ key a := by
        rcases List.mem_cons.mp hc with rfl | hc
        · exact ⟨d, hd, hdt, (next d hd).2⟩
        · exact ⟨c, hc, seen, le_rfl⟩
      obtain ⟨a, ha, hat, le⟩ := least
      obtain ⟨d, hd, last, hdt, after, le'⟩ := ih e.after sorted ha hat
      exact ⟨d, List.mem_cons_of_mem _ hd, by rw [last, Option.getD_some], hdt, after, le.trans le'⟩
    · have none : ∀ d ∈ rest, t < d.instant := fun d hd => by
        by_contra h
        exact later ⟨d, hd, by omega⟩
      obtain rfl : c = e := by
        rcases List.mem_cons.mp hc with rfl | hc
        · rfl
        · exact absurd seen (by have := none c hc; omega)
      refine ⟨c, List.mem_cons_self, by rw [lastChange_of_lt none, Option.getD_none], seen, ?_, le_rfl⟩
      rw [offsetFrom_of_lt none]

/-- The first change after an instant finds the offset there, and its keys are the least of the changes to come. -/
theorem exists_nextChange (chained : Chained offset l) (sorted : l.Pairwise fun c d => c.instant < d.instant ∧ key c ≤ key d)
    (hc : c ∈ l) (ahead : t < c.instant) :
    ∃ d ∈ l, t < d.instant ∧ d.before = offsetFrom OffsetChange.instant offset l t ∧ key d ≤ key c := by
  induction l generalizing offset c with
  | nil => cases hc
  | cons e rest ih =>
    obtain ⟨rfl, chained⟩ := chained
    obtain ⟨next, sorted⟩ := List.pairwise_cons.mp sorted
    by_cases he : e.instant ≤ t
    · have hc : c ∈ rest := by
        rcases List.mem_cons.mp hc with rfl | hc
        · omega
        · exact hc
      obtain ⟨d, hd, hdt, before, le⟩ := ih chained sorted hc ahead
      refine ⟨d, List.mem_cons_of_mem _ hd, hdt, ?_, le⟩
      simp only [offsetFrom, if_pos he]
      exact before
    · refine ⟨e, List.mem_cons_self, by omega, ?_, ?_⟩
      · simp only [offsetFrom, if_neg he]
      · rcases List.mem_cons.mp hc with rfl | hc
        · exact le_rfl
        · exact (next c hc).2

end Lookup

namespace TzInfo

variable {z : TzInfo} {c d : OffsetChange} {t u w : Int}

/-- The clock shows the readings of one change a second time before it goes back for the next one. -/
def Spaced (z : TzInfo) : Prop :=
  z.transitions.Pairwise fun c d => c.instant + (c.before - c.after) ≤ d.instant - (d.before - d.after)

instance (z : TzInfo) : Decidable z.Spaced := inferInstanceAs (Decidable (List.Pairwise _ _))

theorem sorted_key (z : TzInfo) (fold : Bool) :
    z.transitions.Pairwise fun c d => c.instant < d.instant ∧ c.wall fold ≤ d.wall fold :=
  z.sorted.imp fun h => ⟨h.1, by cases fold; exacts [h.2.1, h.2.2]⟩

/-- The changes that a fold of a reading sees are those up to the instant, so that it converts back. -/
theorem resolve_localTime {fold : Bool} (seen : ∀ c ∈ z.transitions, c.instant ≤ t →
      c.after = z.utcoffset t → lastChange z.transitions t = some c → c.wall fold ≤ z.localTime t)
    (ahead : ∀ c ∈ z.transitions, t < c.instant → c.before = z.utcoffset t → z.localTime t < c.wall fold) :
    z.resolve fold (z.localTime t) = t := by
  have same : z.wallOffset fold (z.localTime t) = z.utcoffset t := by
    refine offsetFrom_congr fun c hc => ⟨fun h => ?_, fun h => ?_⟩
    · by_contra later
      obtain ⟨d, hd, hdt, before, le⟩ := exists_nextChange z.chained (z.sorted_key fold) hc (show t < c.instant by omega)
      have := ahead d hd hdt before
      omega
    · obtain ⟨d, hd, last, hdt, after, le⟩ := lastChange_of_le z.initial (z.sorted_key fold) hc h
      exact le.trans (seen d hd hdt after last)
  rw [resolve, same, localTime]
  omega

theorem resolve_first (first : z.fold t = false) : z.resolve false (z.localTime t) = t := by
  refine resolve_localTime (fun c hc hct after last => ?_) fun c hc hct before => ?_
  · unfold fold at first
    rw [last, Option.any_some, decide_eq_false_iff_not] at first
    simp only [OffsetChange.wall, localTime, Bool.false_eq_true, if_false]
    omega
  · simp only [OffsetChange.wall, localTime, Bool.false_eq_true, if_false]
    omega

theorem rel_of_lt {R : OffsetChange → OffsetChange → Prop} (h : z.transitions.Pairwise R) (hc : c ∈ z.transitions)
    (hd : d ∈ z.transitions) (first : c.instant < d.instant) : R c d := by
  obtain ⟨i, hi, rfl⟩ := List.mem_iff_getElem.mp hc
  obtain ⟨j, hj, rfl⟩ := List.mem_iff_getElem.mp hd
  rcases lt_trichotomy i j with lt | rfl | lt
  · exact List.pairwise_iff_getElem.mp h i j hi hj lt
  · omega
  · have := List.pairwise_iff_getElem.mp z.sorted_instant j i hj hi lt
    omega

theorem resolve_second (spaced : z.Spaced) (second : z.fold t = true) : z.resolve true (z.localTime t) = t := by
  unfold fold at second
  obtain ⟨d, last, repeats⟩ := (Option.any_eq_true ..).mp second
  rw [decide_eq_true_iff] at repeats
  have hd : d ∈ z.transitions ∧ d.instant ≤ t ∧ d.after = z.utcoffset t := by
    by_cases h : ∃ c ∈ z.transitions, c.instant ≤ t
    · obtain ⟨c, hc, hct⟩ := h
      obtain ⟨d', hd, last', hdt, after, -⟩ := lastChange_of_le z.initial (z.sorted_key true) hc hct
      obtain rfl := Option.some.inj (last.symm.trans last')
      exact ⟨hd, hdt, after⟩
    · rw [lastChange_of_lt fun c hc => by
        by_contra hct
        exact h ⟨c, hc, by omega⟩] at last
      cases last
  obtain ⟨hd, hdt, after⟩ := hd
  refine resolve_localTime (fun c hc hct after' _ => ?_) fun e he het before => ?_
  · simp only [OffsetChange.wall, localTime, if_true]
    omega
  · have := rel_of_lt spaced hd he (by omega)
    simp only [OffsetChange.wall, localTime, if_true]
    omega

/-- Converting the reading of an instant with the fold of the instant gives the instant back. -/
theorem resolve_fold (spaced : z.Spaced) (t : Int) : z.resolve (z.fold t) (z.localTime t) = t := by
  cases h : z.fold t with
  | false => exact resolve_first h
  | true => exact resolve_second spaced h

/-- The clock is not put back after `t` and up to `u`. -/
def Advances (z : TzInfo) (t u : Int) : Prop :=
  ∀ c ∈ z.transitions, t < c.instant → c.instant ≤ u → c.before ≤ c.after

instance (z : TzInfo) (t u : Int) : Decidable (z.Advances t u) := inferInstanceAs (Decidable (∀ c ∈ _, _))

theorem Advances.mono {t' u' : Int} (h : z.Advances t u) (ht : t ≤ t') (hu : u' ≤ u) : z.Advances t' u' :=
  fun c hc first last => h c hc (by omega) (by omega)

theorem utcoffset_le (advances : z.Advances t u) (h : t ≤ u) : z.utcoffset t ≤ z.utcoffset u := by
  simp only [utcoffset, offsetFrom_eq_sum z.chained (z.sorted_instant.imp fun h => h.le)]
  have := sum_changes OffsetChange.instant h z.transitions
  have : 0 ≤ ((z.transitions.filter fun c => t < c.instant ∧ c.instant ≤ u).map fun c => c.after - c.before).sum := by
    refine List.sum_nonneg fun x hx => ?_
    obtain ⟨c, hc, rfl⟩ := List.mem_map.mp hx
    obtain ⟨hc, between⟩ := List.mem_filter.mp hc
    simp only [decide_eq_true_eq] at between
    have := advances c hc between.1 between.2
    omega
  omega

theorem sub_le_localTime (advances : z.Advances t u) (h : t ≤ u) : u - t ≤ z.localTime u - z.localTime t := by
  have := utcoffset_le advances h
  simp only [localTime]
  omega

theorem utcoffset_eq (same : ∀ c ∈ z.transitions, t < c.instant → u < c.instant) (h : t ≤ u) :
    z.utcoffset u = z.utcoffset t := by
  refine offsetFrom_congr fun c hc => ⟨fun hu => ?_, fun ht => ht.trans h⟩
  by_contra ht
  have := same c hc (by omega)
  omega

/-- Since `t`, or since the last change after it, the clock has run with the time. -/
theorem exists_runs (z : TzInfo) (h : t ≤ u) :
    ∃ v, t ≤ v ∧ v ≤ u ∧ (v = t ∨ ∃ c ∈ z.transitions, c.instant = v ∧ t < v) ∧
      ∀ x, v ≤ x → x ≤ u → z.localTime x = z.localTime v + (x - v) := by
  have runs : ∀ {v}, (∀ c ∈ z.transitions, v < c.instant → u < c.instant) → ∀ x, v ≤ x → x ≤ u →
      z.localTime x = z.localTime v + (x - v) := by
    intro v none x hv hx
    have := utcoffset_eq (fun c hc hvc => hx.trans_lt (none c hc hvc)) hv
    simp only [localTime]
    omega
  by_cases changes : ∃ c ∈ z.transitions, t < c.instant ∧ c.instant ≤ u
  · obtain ⟨c, hc, htc, hcu⟩ := changes
    have sorted := z.sorted_instant.imp fun {c d} h => (⟨h, h.le⟩ : c.instant < d.instant ∧ c.instant ≤ d.instant)
    obtain ⟨d, hd, last, hdu, -, le⟩ := lastChange_of_le z.initial sorted hc hcu
    refine ⟨d.instant, by omega, hdu, .inr ⟨d, hd, rfl, by omega⟩, runs fun e he hde => ?_⟩
    by_contra heu
    obtain ⟨d', -, last', -, -, le'⟩ := lastChange_of_le z.initial sorted he (show e.instant ≤ u by omega)
    obtain rfl := Option.some.inj (last.symm.trans last')
    omega
  · refine ⟨t, le_rfl, h, .inl rfl, runs fun c hc htc => ?_⟩
    by_contra hcu
    exact changes ⟨c, hc, htc, by omega⟩

end TzInfo

end SalonBooking.Lib
