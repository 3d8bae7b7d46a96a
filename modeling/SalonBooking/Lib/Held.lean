import SalonBooking.Lib.Views

/-!
# The row that a session holds

A session has locked one row of a table and touched no other row of it. Whatever others do in the meantime, its commit
takes the row from the value that it was found with to the value of the session's object.
-/

set_option linter.unusedSectionVars false

namespace SalonBooking.Lib

/-! ### Answers without a commit -/

namespace Tx

variable {T : Type} [DecidableEq T] {Row : T → Type} {Name β : Type} {D : β → Prop}

/-- Whatever its statements return, the program leaves only with answers of `D`. -/
def Leaves (D : β → Prop) : Tx Row Name β → Prop
  | .done b => D b
  | .select _ _ next | .lock _ _ next | .skipLocked _ _ _ next => ∀ rows, Leaves D (next rows)
  | .count _ _ next => ∀ counts, Leaves D (next counts)
  | .advisory _ next | .assign _ _ _ next | .flush next => Leaves D next
  | .insert _ _ next => ∀ i, Leaves D (next i)
  | .commit _ => True

theorem Leaves.ensures {p : Tx Row Name β} (h : p.Leaves D) (c : Copies Row) :
    p.Ensures (fun _ b => D b) (fun _ _ => True) c := by
  induction p generalizing c with
  | done b => exact h
  | select t which next ih | lock t which next ih => exact fun tbl _ => ih _ (h _) _
  | count t f next ih => exact fun tbl _ => ih _ (h _) _
  | skipLocked t which limit next ih => exact fun tbl ids _ _ => ih _ (h _) _
  | advisory n next ih | assign t i a next ih | flush next ih => exact ih h _
  | insert t a next ih => exact fun i _ => ih i (h i) _
  | commit b => trivial

end Tx

namespace View

variable {T : Type} [DecidableEq T] {Row : T → Type} [∀ t, DecidableEq (Row t)] [∀ t, Columns (Row t)]
variable {v v' : View Row} {R : Reliance Row} {t u : T} {i j : Nat} {old now a : Row t} {held : Bool} {ids : List Nat}

/-! ### Tables that the session leaves alone -/

/-- The session has changed no row of the table. -/
def Clean (v : View Row) (t : T) : Prop := ∀ i, ¬ v.Touched t i

theorem clean_start {store : (t : T) → Table (Row t)} : (start store).Clean t := fun _ => not_touched_start

theorem touched_others (others : v.Others R v') (h : v'.Touched t i) : v.Touched t i := by
  obtain ⟨-, copy, written⟩ := others.session
  unfold Touched at h ⊢
  rwa [copy, written] at h

theorem committed_of_untouched (h : ¬ v.Touched t i) : (v.committed t).row i = (v.store t).row i := by
  by_cases hi : i < (v.store t).next
  · rw [committed, Table.row_overlay hi, flushed_of_untouched h]
    rfl
  · rw [(v.store t).bounded i (by omega)]
    exact (v.committed t).bounded i (by simpa [committed, Table.overlay] using hi)

namespace Clean

theorem others (h : v.Clean t) (others : v.Others R v') : v'.Clean t := fun i hi => h i (touched_others others hi)

theorem load (h : v.Clean t) (held : Bool) (u : T) (ids : List Nat) : (v.load held u ids).Clean t :=
  fun i hi => h i hi.of_load

theorem assign (h : v.Clean t) (hu : u ≠ t) (a : Row u) : (v.assign u j a).Clean t :=
  fun i hi => hi.of_assign.elim (h i) fun same => hu same.1.symm

theorem insert (h : v.Clean t) (hu : u ≠ t) (a : Row u) : (v.insert u a).Clean t :=
  fun i hi => hi.of_insert.elim (h i) fun same => hu same.1.symm

theorem flush (h : v.Clean t) : v.flush.Clean t := fun i hi => h i hi.of_flush

theorem committed (h : v.Clean t) : (v.committed t).row i = (v.store t).row i := committed_of_untouched (h i)

end Clean

/-! ### The held row -/

/-- The row is in the session's lock, stored as `old` and `now` for the session. -/
structure Holds (v : View Row) (t : T) (i : Nat) (old now : Row t) : Prop where
  mine : v.mine t i
  stored : (v.store t).row i = some old
  object : ∃ x, v.copy t i = some x ∧ x.now = now ∧ (v.sees t).row i = some x.loaded
  alone : ∀ j, j ≠ i → ¬ v.Touched t j

theorem holds_load (clean : v.Clean t) (unread : v.copy t i = none) (hi : i ∈ ids) (found : (v.sees t).row i = some a) :
    (v.load true t ids).Holds t i a a := by
  have unwritten : v.written t i = none := by
    by_contra written
    exact clean i (.inl written)
  have stored : (v.store t).row i = some a := by rwa [sees_row unwritten] at found
  refine ⟨.inl ⟨rfl, rfl, hi, Table.lt_next stored⟩, stored, ⟨.ofRow true a, ?_, rfl, found⟩, fun j _ => clean.load _ _ _ j⟩
  show v.copy.load true t (v.sees t) ids t i = _
  simp [Copies.load_self, unread, hi, found]

namespace Holds

theorem others (h : v.Holds t i old now) (others : v.Others R v') : v'.Holds t i old now := by
  obtain ⟨mine, copy, written⟩ := others.session
  obtain ⟨x, hx, rfl, seen⟩ := h.object
  have stored : (v'.store t).row i = some old := (others.locked h.mine).trans h.stored
  refine ⟨mine ▸ h.mine, stored, ⟨x, copy ▸ hx, rfl, ?_⟩, fun j hj touched => h.alone j hj (touched_others others touched)⟩
  rw [sees, Table.row_overlay (Table.lt_next stored), written, stored]
  rwa [sees, Table.row_overlay (Table.lt_next h.stored), h.stored] at seen

theorem load (h : v.Holds t i old now) (held : Bool) (u : T) (ids : List Nat) : (v.load held u ids).Holds t i old now := by
  obtain ⟨x, hx, rfl, seen⟩ := h.object
  exact ⟨.inr h.mine, h.stored, ⟨x, Copies.load_of_some hx, rfl, seen⟩, fun j hj touched => h.alone j hj touched.of_load⟩

theorem assign_self (h : v.Holds t i old now) (a : Row t) : (v.assign t i a).Holds t i old a := by
  obtain ⟨x, hx, -, seen⟩ := h.object
  refine ⟨h.mine, h.stored, ⟨{ x with now := a }, ?_, rfl, seen⟩, fun j hj touched => ?_⟩
  · show v.copy.assign t i a t i = _
    rw [Copies.assign_self, if_pos rfl, hx]
    rfl
  · exact touched.of_assign.elim (h.alone j hj) fun same => hj same.2

theorem assign (h : v.Holds t i old now) (hu : u ≠ t) (a : Row u) : (v.assign u j a).Holds t i old now := by
  obtain ⟨x, hx, rfl, seen⟩ := h.object
  refine ⟨h.mine, h.stored, ⟨x, ?_, rfl, seen⟩, fun k hk touched => ?_⟩
  · rw [copy_assign_of_ne hu.symm]
    exact hx
  · exact touched.of_assign.elim (h.alone k hk) fun same => hu same.1.symm

theorem insert (h : v.Holds t i old now) (hu : u ≠ t) (a : Row u) : (v.insert u a).Holds t i old now := by
  obtain ⟨x, hx, rfl, seen⟩ := h.object
  refine ⟨.inr h.mine, (row_insert a).trans h.stored, ⟨x, ?_, rfl, ?_⟩, fun k hk touched => ?_⟩
  · show v.copy.insert u _ a t i = _
    rw [Copies.insert_of_ne hu.symm]
    exact hx
  · rw [sees_insert_of_ne hu.symm]
    exact seen
  · exact touched.of_insert.elim (h.alone k hk) fun same => hu same.1.symm

theorem flushed_eq (h : v.Holds t i old now) : (v.flushed t i).orElse (fun _ => some old) = some now := by
  obtain ⟨x, hx, rfl, seen⟩ := h.object
  by_cases clean : x.now = x.loaded
  · rw [sees, Table.row_overlay (Table.lt_next h.stored), h.stored] at seen
    simpa [flushed, hx, clean] using seen
  · simp [flushed, hx, clean, seen]

theorem committed (h : v.Holds t i old now) :
    (v.committed t).row i = some now ∧ ∀ j, j ≠ i → (v.committed t).row j = (v.store t).row j := by
  refine ⟨?_, fun j hj => committed_of_untouched (h.alone j hj)⟩
  rw [View.committed, Table.row_overlay (Table.lt_next h.stored), h.stored]
  exact h.flushed_eq

theorem flush (h : v.Holds t i old now) : v.flush.Holds t i old now := by
  obtain ⟨x, hx, rfl, seen⟩ := h.object
  refine ⟨.inr h.mine, h.stored, ⟨{ x with loaded := x.now }, Copies.flush_eq_some.mpr ⟨x, hx, rfl⟩, rfl, ?_⟩,
    fun j hj touched => h.alone j hj touched.of_flush⟩
  exact h.committed.1

end Holds

end View

end SalonBooking.Lib
