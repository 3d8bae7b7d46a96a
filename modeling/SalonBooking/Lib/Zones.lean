import Mathlib

/-!
# Tables of a zone's offsets

A zone is an initial offset and the instants at which it changes. Both lookups bisect a sorted list: that of an
instant the instants of the changes, that of a wall-clock reading the readings from which they are seen. A change
has two such readings, the wall clock just before it and the one just after it; the first fold of a reading takes
the later of the two and the second fold the earlier.
-/

namespace SalonBooking.Lib

/-- One change of a zone's offset. -/
structure OffsetChange where
  instant : Int
  before : Int
  after : Int
deriving DecidableEq

namespace OffsetChange

/-- The wall-clock reading from which a change is seen. -/
def wall (fold : Bool) (c : OffsetChange) : Int :=
  c.instant + if fold then min c.before c.after else max c.before c.after

/-- The wall clock jumps over this reading: it comes after the last reading before the change and before the first
one after it. -/
def Skips (c : OffsetChange) (w : Int) : Prop := c.instant + c.before ≤ w ∧ w < c.instant + c.after

instance (c : OffsetChange) (w : Int) : Decidable (c.Skips w) := inferInstanceAs (Decidable (_ ∧ _))

end OffsetChange

/-- Each change starts from the offset the one before it left. -/
def Chained : Int → List OffsetChange → Prop
  | _, [] => True
  | offset, c :: rest => c.before = offset ∧ Chained c.after rest

instance decidableChained : (offset : Int) → (l : List OffsetChange) → Decidable (Chained offset l)
  | _, [] => inferInstanceAs (Decidable True)
  | offset, c :: rest =>
    have := decidableChained c.after rest
    inferInstanceAs (Decidable (c.before = offset ∧ _))

/-- The offset at `x`: what the last change whose key is not after `x` leaves. -/
def offsetFrom (key : OffsetChange → Int) (offset : Int) : List OffsetChange → Int → Int
  | [], _ => offset
  | c :: rest, x => if key c ≤ x then offsetFrom key c.after rest x else offset

/-- The last change at or before an instant. -/
def lastChange : List OffsetChange → Int → Option OffsetChange
  | [], _ => none
  | c :: rest, t => if c.instant ≤ t then some ((lastChange rest t).getD c) else none

/-- A zone: what `ZoneInfo` loads for a key. All three lists that are bisected are sorted. -/
structure TzInfo where
  initial : Int
  transitions : List OffsetChange
  chained : Chained initial transitions
  sorted : transitions.Pairwise fun c d => c.instant < d.instant ∧ c.wall false ≤ d.wall false ∧ c.wall true ≤ d.wall true

namespace TzInfo

/-- The offset in force at an instant. -/
def utcoffset (z : TzInfo) : Int → Int := offsetFrom OffsetChange.instant z.initial z.transitions

/-- The offset given to a wall-clock reading. -/
def wallOffset (z : TzInfo) (fold : Bool) : Int → Int := offsetFrom (OffsetChange.wall fold) z.initial z.transitions

/-- The wall-clock reading at an instant. -/
def localTime (z : TzInfo) (t : Int) : Int := t + z.utcoffset t

/-- The fold of the reading at an instant: the clock was put back and shows it for the second time. -/
def fold (z : TzInfo) (t : Int) : Bool :=
  (lastChange z.transitions t).any fun c => decide (t - c.instant < c.before - c.after)

/-- The instant given to a wall-clock reading. -/
def resolve (z : TzInfo) (fold : Bool) (w : Int) : Int := w - z.wallOffset fold w

end TzInfo

/-! ### The lookups -/

section Lookup

variable {key : OffsetChange → Int} {offset x t w : Int} {c : OffsetChange} {l : List OffsetChange}

theorem offsetFrom_of_lt (first : ∀ c ∈ l, x < key c) : offsetFrom key offset l x = offset := by
  cases l with
  | nil => rfl
  | cons c rest =>
    have hc := first c List.mem_cons_self
    simp only [offsetFrom]
    rw [if_neg (by omega)]

/-- A lookup adds up the changes whose keys are not after `x`. -/
theorem offsetFrom_eq_sum (chained : Chained offset l) (sorted : l.Pairwise fun c d => key c ≤ key d) :
    offsetFrom key offset l x = offset + ((l.filter fun c => key c ≤ x).map fun c => c.after - c.before).sum := by
  induction l generalizing offset with
  | nil => simp [offsetFrom]
  | cons c rest ih =>
    obtain ⟨rfl, chained⟩ := chained
    obtain ⟨first, sorted⟩ := List.pairwise_cons.mp sorted
    by_cases hc : key c ≤ x
    · simp only [offsetFrom, hc, if_true, ih chained sorted, List.filter_cons, decide_true, List.map_cons, List.sum_cons]
      omega
    · have none : rest.filter (fun d => decide (key d ≤ x)) = [] := by
        refine List.filter_eq_nil_iff.mpr fun d hd => ?_
        have := first d hd
        simp only [decide_eq_true_eq]
        omega
      simp [offsetFrom, hc, none]

/-- A change leaves its offset at its instant and finds the one before it until then. -/
theorem offsetFrom_instant (chained : Chained offset l) (sorted : l.Pairwise fun c d => c.instant < d.instant)
    (hc : c ∈ l) :
    offsetFrom OffsetChange.instant offset l c.instant = c.after ∧
      offsetFrom OffsetChange.instant offset l (c.instant - 1) = c.before := by
  induction l generalizing offset with
  | nil => simp at hc
  | cons d rest ih =>
    obtain ⟨rfl, chained⟩ := chained
    obtain ⟨first, sorted⟩ := List.pairwise_cons.mp sorted
    rcases List.mem_cons.mp hc with rfl | hc
    · have later : offsetFrom OffsetChange.instant c.after rest c.instant = c.after := offsetFrom_of_lt first
      simp only [offsetFrom, le_refl, if_true, later, true_and]
      rw [if_neg (by omega)]
    · have earlier := first c hc
      simp only [offsetFrom]
      rw [if_pos (by omega), if_pos (by omega)]
      exact ih chained sorted hc

theorem le_sub_offsetFrom_wall {lower : Int} (chained : Chained offset l)
    (sorted : l.Pairwise fun c d => c.instant < d.instant) (first : ∀ c ∈ l, lower ≤ c.instant) (h : lower ≤ w - offset) :
    lower ≤ w - offsetFrom (OffsetChange.wall false) offset l w := by
  induction l generalizing offset lower with
  | nil => exact h
  | cons c rest ih =>
    obtain ⟨rfl, chained⟩ := chained
    obtain ⟨next, sorted⟩ := List.pairwise_cons.mp sorted
    simp only [offsetFrom]
    split
    · rename_i hw
      have seen : c.instant ≤ w - c.after := by
        simp only [OffsetChange.wall, Bool.false_eq_true, if_false] at hw
        omega
      exact (first c List.mem_cons_self).trans (ih chained sorted (fun d hd => (next d hd).le) seen)
    · exact h

/-- What the first fold of a reading comes to. Either it is the instant that shows it, and the instant before that
shows an earlier one; or a change skips the reading, and it is taken as if the change had not been made. -/
theorem offsetFrom_wall (chained : Chained offset l) (sorted : l.Pairwise fun c d => c.instant < d.instant) {o : Int}
    (ho : offsetFrom (OffsetChange.wall false) offset l w = o) :
    (offsetFrom OffsetChange.instant offset l (w - o) = o ∧ offsetFrom OffsetChange.instant offset l (w - o - 1) ≤ o) ∨
      ∃ c ∈ l, c.Skips w ∧ c.before = o := by
  induction l generalizing offset with
  | nil =>
    simp only [offsetFrom] at ho ⊢
    exact .inl ⟨ho, ho.le⟩
  | cons c rest ih =>
    obtain ⟨rfl, chained⟩ := chained
    obtain ⟨next, sorted⟩ := List.pairwise_cons.mp sorted
    by_cases hw : OffsetChange.wall false c ≤ w
    · simp only [offsetFrom, hw, if_true] at ho
      simp only [OffsetChange.wall, Bool.false_eq_true, if_false] at hw
      have seen := le_sub_offsetFrom_wall chained sorted (fun d hd => (next d hd).le) (show c.instant ≤ w - c.after by omega)
      rw [ho] at seen
      rcases ih chained sorted ho with ⟨shows, earlier⟩ | ⟨d, hd, skips, hb⟩
      · refine .inl ⟨?_, ?_⟩
        · simp only [offsetFrom, seen, if_true, shows]
        · by_cases hu : c.instant ≤ w - o - 1
          · simpa only [offsetFrom, hu, if_true] using earlier
          · simp only [offsetFrom, hu, if_false]
            omega
      · exact .inr ⟨d, List.mem_cons_of_mem _ hd, skips, hb⟩
    · simp only [offsetFrom, hw, if_false] at ho
      simp only [OffsetChange.wall, Bool.false_eq_true, if_false] at hw
      by_cases hu : c.instant ≤ w - o
      · exact .inr ⟨c, List.mem_cons_self, ⟨by omega, by omega⟩, ho⟩
      · refine .inl ⟨?_, ?_⟩
        · simp only [offsetFrom, hu, if_false, ho]
        · simp only [offsetFrom, show ¬ c.instant ≤ w - o - 1 by omega, if_false, ho, le_refl]

/-- The changes up to `w` are those up to `v` and those between the two. -/
theorem sum_changes (key : OffsetChange → Int) {v : Int} (h : v ≤ w) (l : List OffsetChange) :
    ((l.filter fun c => key c ≤ w).map fun c => c.after - c.before).sum =
      ((l.filter fun c => key c ≤ v).map fun c => c.after - c.before).sum +
        ((l.filter fun c => v < key c ∧ key c ≤ w).map fun c => c.after - c.before).sum := by
  induction l with
  | nil => rfl
  | cons c rest ih =>
    simp only [List.filter_cons, decide_eq_true_eq]
    by_cases hv : key c ≤ v
    · rw [if_pos (by omega), if_pos hv, if_neg (by omega), List.map_cons, List.sum_cons, List.map_cons, List.sum_cons, ih]
      omega
    · by_cases hw : key c ≤ w
      · rw [if_pos hw, if_neg hv, if_pos (by omega), List.map_cons, List.sum_cons, List.map_cons, List.sum_cons, ih]
        omega
      · rw [if_neg hw, if_neg hv, if_neg (by omega), ih]

end Lookup

namespace TzInfo

variable {z : TzInfo} {c : OffsetChange} {w : Int}

theorem sorted_instant (z : TzInfo) : z.transitions.Pairwise fun c d => c.instant < d.instant :=
  z.sorted.imp fun h => h.1

theorem sorted_wall (z : TzInfo) : ∀ fold, z.transitions.Pairwise fun c d => c.wall fold ≤ d.wall fold
  | false => z.sorted.imp fun h => h.2.1
  | true => z.sorted.imp fun h => h.2.2

/-- At a change the wall clock shows the reading after it, and just before it the last reading before it. -/
theorem localTime_transition (hc : c ∈ z.transitions) :
    z.localTime c.instant = c.instant + c.after ∧ z.localTime (c.instant - 1) = c.instant - 1 + c.before := by
  obtain ⟨after, before⟩ := offsetFrom_instant z.chained z.sorted_instant hc
  exact ⟨congrArg (c.instant + ·) after, congrArg (c.instant - 1 + ·) before⟩

/-- The first fold of a reading shows it, right after an earlier one, or lies past the change that skips it. -/
theorem resolve_cases (z : TzInfo) (w : Int) :
    (z.localTime (z.resolve false w) = w ∧ z.localTime (z.resolve false w - 1) < w) ∨
      ∃ c ∈ z.transitions, c.Skips w ∧ z.resolve false w = w - c.before := by
  rcases offsetFrom_wall z.chained z.sorted_instant (o := z.wallOffset false w) rfl with ⟨shows, earlier⟩ | ⟨c, hc, skips, hb⟩
  · refine .inl ⟨?_, ?_⟩
    · show w - z.wallOffset false w + offsetFrom _ _ _ (w - z.wallOffset false w) = w
      omega
    · show w - z.wallOffset false w - 1 + offsetFrom _ _ _ (w - z.wallOffset false w - 1) < w
      omega
  · exact .inr ⟨c, hc, skips, by rw [resolve, hb]⟩

/-- Readings keep their distance as far as the changes seen between them add up to nothing. -/
theorem wallOffset_sub (z : TzInfo) (fold : Bool) {v w : Int} (h : v ≤ w) :
    z.wallOffset fold w - z.wallOffset fold v =
      ((z.transitions.filter fun c => v < c.wall fold ∧ c.wall fold ≤ w).map fun c => c.after - c.before).sum := by
  simp only [wallOffset, offsetFrom_eq_sum z.chained (z.sorted_wall fold)]
  have := sum_changes (OffsetChange.wall fold) h z.transitions
  omega

end TzInfo

end SalonBooking.Lib
