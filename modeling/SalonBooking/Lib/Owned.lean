import SalonBooking.Lib.Held

/-!
# Rows that belong to a locked row

The rows of one table belong to rows of another one. Where everybody locks the owner before changing what belongs to it,
a session that holds the lock of an owner is the only one that changes these rows: it may look at all of them, find that
there is none, and insert one, and none is there when it commits.
-/

set_option linter.unusedSectionVars false

namespace SalonBooking.Lib

variable {T : Type} [DecidableEq T] {Row : T → Type} [∀ t, DecidableEq (Row t)] [∀ t, Columns (Row t)]
variable {v v' : View Row} {t u s : T} {owner : Row t → Nat} {i j : Nat} {a : Row t}

/-- The rows that belong to `i` are the same in both tables. -/
def SameOwned {α : Type} (owner : α → Nat) (i : Nat) (tbl tbl' : Table α) : Prop :=
  ∀ j a, owner a = i → (tbl'.row j = some a ↔ tbl.row j = some a)

namespace View

/-- Others leave the rows of locked owners alone. -/
def Guard (u : T) (owner : Row t → Nat) : Reliance Row := fun v store => ∀ i, v.mine u i → SameOwned owner i (v.store t) (store t)

/-- The session commits changes to rows of locked owners only. -/
def Guarded (u : T) (owner : Row t → Nat) (v : View Row) : Prop :=
  ∀ i, ¬ v.mine u i → SameOwned owner i (v.store t) (v.committed t)

theorem sameOwned_others (others : v.Others (Guard u owner) v') (mine : v.mine u i) :
    SameOwned owner i (v.store t) (v'.store t) := by
  refine (others.keeps (P := fun w => w.mine u i ∧ SameOwned owner i (v.store t) (w.store t)) (fun w w' step hw => ?_)
    ⟨mine, fun _ _ _ => Iff.rfl⟩).2
  refine ⟨step.mine ▸ hw.1, fun j a ha => Iff.trans ?_ (hw.2 j a ha)⟩
  obtain rows | rely := step.rows
  · rw [rows]
  · exact rely i hw.1 j a ha

theorem Clean.guarded (h : v.Clean t) : v.Guarded u owner := by
  intro i _ j a _
  rw [h.committed]

theorem Holds.guarded {old now : Row t} (h : v.Holds t j old now) (same : owner now = owner old)
    (mine : v.mine u (owner old)) : v.Guarded u owner := by
  intro i free k a ha
  by_cases e : k = j
  · subst e
    rw [h.committed.1, h.stored]
    constructor
    · rintro ⟨⟩
      exact absurd (ha ▸ same ▸ mine) free
    · rintro ⟨⟩
      exact absurd (ha ▸ mine) free
  · rw [h.committed.2 k e]

/-! ### The inserted row -/

/-- The session has inserted the row `j` and touched no other row of the table. -/
structure Adds (v : View Row) (t : T) (j : Nat) (a : Row t) : Prop where
  mine : v.mine t j
  bound : j < (v.store t).next
  fresh : (v.store t).row j = none
  object : ∃ x, v.copy t j = some x ∧ x.now = a ∧ x.loaded = a
  written : v.written t j = some a
  alone : ∀ k, k ≠ j → ¬ v.Touched t k

theorem adds_insert (clean : v.Clean t) (a : Row t) : (v.insert t a).Adds t (v.store t).next a where
  mine := .inl ⟨rfl, rfl⟩
  bound := by simp [insert, Table.skip]
  fresh := by
    rw [row_insert]
    exact (v.store t).bounded _ le_rfl
  object := ⟨_, by rw [copy_insert, if_pos rfl], rfl, rfl⟩
  written := by simp [insert]
  alone k hk touched := touched.of_insert.elim (clean k) fun same => hk same.2

namespace Adds

theorem others {R : Reliance Row} (h : v.Adds t j a) (others : v.Others R v') : v'.Adds t j a := by
  obtain ⟨mine, copy, written⟩ := others.session
  refine ⟨mine ▸ h.mine, ?_, (others.locked h.mine).trans h.fresh, copy ▸ h.object, written ▸ h.written,
    fun k hk touched => h.alone k hk (touched_others others touched)⟩
  exact others.keeps (P := fun w => j < (w.store t).next) (fun w w' step hw => hw.trans_le (step.next t)) h.bound

theorem committed (h : v.Adds t j a) :
    (v.committed t).row j = some a ∧ ∀ k, k ≠ j → (v.committed t).row k = (v.store t).row k := by
  refine ⟨?_, fun k hk => committed_of_untouched (h.alone k hk)⟩
  obtain ⟨x, hx, rfl, clean⟩ := h.object
  rw [View.committed, Table.row_overlay h.bound, flushed, hx]
  simp [clean, h.written]

theorem guarded (h : v.Adds t j a) (mine : v.mine u (owner a)) : v.Guarded u owner := by
  intro i free k b hb
  by_cases e : k = j
  · subst e
    rw [h.committed.1, h.fresh]
    constructor
    · rintro ⟨⟩
      exact absurd (hb ▸ mine) free
    · nofun
  · rw [h.committed.2 k e]

end Adds

end View

namespace World

variable {Name β Op : Type} [DecidableEq Name] [Fintype T] {w : World Row Name β Op} {turn : Turn Op} {tid k : Nat}
variable {c d : Conn Row Name β Op} {prog : Op → Tx Row Name β} {D : β → Prop} {R : Op → Reliance Row}
variable {K : Op → View Row → β → Prop}

theorem guard_of_guarded (guarded : (w.viewOf tid c).Guarded u owner) (hk : k ≠ tid) :
    View.Guard u owner (w.viewOf k d) (w.committed c) :=
  fun i mine => guarded i fun own => hk (Option.some.inj (mine.1.symm.trans own.1))

/-! ### One step and its answer -/

def Idle (w w' : World Row Name β Op) : Prop := ∀ t i, (w'.store t).row i = (w.store t).row i

/-- A step answers no call, or one that leaves without a commit, or it is a commit of which the program says `K`. -/
theorem step_answers (knows : w.Knows R K) (follows : w.Follows (fun _ _ b => D b) (fun _ _ _ => True)) (prog : Op → Tx Row Name β)
    (turn : Turn Op) :
    ((w.step prog turn).log = w.log ∧ w.Idle (w.step prog turn)) ∨
      (∃ op b, (w.step prog turn).log = w.log ++ [(op, b)] ∧ D b ∧ w.Idle (w.step prog turn)) ∨
      ∃ tid c b, (w.step prog turn).log = w.log ++ [(c.op, b)] ∧ K c.op (w.viewOf tid c) b ∧
        (w.step prog turn).store = (w.viewOf tid c).committed := by
  have stepped := step_stepped (w := w) prog turn
  generalize w.step prog turn = w' at stepped ⊢
  cases stepped with
  | idle => exact .inl ⟨rfl, fun _ _ => rfl⟩
  | opened => exact .inl ⟨rfl, fun _ _ => rfl⟩
  | lost => exact .inl ⟨List.append_nil _, fun _ _ => rfl⟩
  | @ran tid c _ hc exec =>
    cases exec with
    | @left b hb =>
      have leaves := follows tid c hc
      rw [hb] at leaves
      exact .inr (.inl ⟨c.op, b, rfl, leaves, fun _ _ => rfl⟩)
    | @inserted t a _ _ i hi =>
      refine .inl ⟨rfl, fun u j => ?_⟩
      by_cases e : u = t
      · subst e; simp [resume, Table.skip]
      · simp [resume, Function.update_of_ne e]
    | @commits b hb => exact .inr (.inr ⟨tid, c, b, rfl, knows.commit hc hb, rfl⟩)
    | _ => exact .inl ⟨rfl, fun _ _ => rfl⟩

end World

end SalonBooking.Lib
