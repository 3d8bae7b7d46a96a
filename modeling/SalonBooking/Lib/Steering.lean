import SalonBooking.Lib.Statements

/-!
# What an UPDATE can do to a row

An object may be older than the row that its session writes it to. What the commit does to the row still follows
from what the program assigns: the UPDATE carries the changes of the object over to the row. `Steering` is a
relation between versions of a row that is closed under this, and `committed_steered` says that a commit takes
every stored row along it.
-/

set_option linter.unusedSectionVars false

namespace SalonBooking.Lib

variable {T : Type} [DecidableEq T] {Row : T → Type} {Name β Op : Type}
variable [∀ t, DecidableEq (Row t)] [∀ t, Columns (Row t)] [DecidableEq Name] [Fintype T]

/-- Changes that can be carried over from an object to a newer version of its row. -/
structure Steering (g : (t : T) → Row t → Row t → Prop) : Prop where
  refl : ∀ t a, g t a a
  trans : ∀ t a b c, g t a b → g t b c → g t a c
  write : ∀ t l a s, g t l a → g t s (Columns.write l a s)

/-- Every assignment of the program takes its object along `g`. -/
def Tx.Steers (g : (t : T) → Row t → Row t → Prop) : Copies Row → Tx Row Name β → Prop
  | _, .done _ | _, .commit _ => True
  | c, .select t which next =>
    ∀ tbl, c.Sees t tbl → Steers g (c.load false t tbl (which tbl)) (next ((c.load false t tbl (which tbl)).rows t (which tbl)))
  | c, .count t f next => ∀ tbl, c.Sees t tbl → Steers g c (next (f tbl))
  | c, .lock t which next =>
    ∀ tbl, c.Sees t tbl → Steers g (c.load true t tbl (which tbl)) (next ((c.load true t tbl (which tbl)).rows t (which tbl)))
  | c, .skipLocked t which _ next =>
    ∀ tbl ids, c.Sees t tbl → ids.Sublist (which tbl) →
      Steers g (c.load true t tbl ids) (next ((c.load true t tbl ids).rows t ids))
  | c, .advisory _ next => Steers g c next
  | c, .assign t i a next => (∀ x, c t i = some x → g t x.now a) ∧ Steers g (c.assign t i a) next
  | c, .flush next => Steers g c.flush next
  | c, .insert t a next => ∀ i, c t i = none → Steers g (c.insert t i a) (next i)

variable {g : (t : T) → Row t → Row t → Prop}

theorem Tx.steers_assignAll {t : T} {rows : List (Nat × Row t)} {next : Tx Row Name β} {P : Copies Row → Prop}
    {c : Copies Row} (hc : P c) (step : ∀ c, ∀ r ∈ rows, P c →
      (∀ x, c t r.1 = some x → g t x.now r.2) ∧ P (c.assign t r.1 r.2))
    (hnext : ∀ c, P c → next.Steers g c) : (assignAll t rows next).Steers g c := by
  induction rows generalizing c with
  | nil => exact hnext c hc
  | cons r rows ih =>
    obtain ⟨first, hc'⟩ := step c r List.mem_cons_self hc
    exact ⟨first, ih hc' fun c s hs => step c s (List.mem_cons_of_mem r hs)⟩

/-- Every object has moved along `g` since it was loaded or written, and a new object is locked. -/
structure Copies.Steered (g : (t : T) → Row t → Row t → Prop) (c : Copies Row) : Prop where
  along : ∀ t i x, c t i = some x → g t x.loaded x.now
  fresh : ∀ t i x, c t i = some x → x.base = none → x.held = true

namespace Copies.Steered

variable {c : Copies Row} {t : T} {i : Nat}

theorem empty : Copies.Steered g (fun _ _ => none : Copies Row) := by
  constructor
  · intro t i x h
    cases h
  · intro t i x h
    cases h

theorem load (hg : Steering g) (h : c.Steered g) (held : Bool) (tbl : Table (Row t)) (ids : List Nat) :
    (c.load held t tbl ids).Steered g := by
  constructor
  · intro u j x hx
    rcases Copies.load_cases hx with hx | ⟨-, rfl, -, a, -, rfl⟩
    · exact h.along u j x hx
    · exact hg.refl u a
  · intro u j x hx hbase
    rcases Copies.load_cases hx with hx | ⟨-, rfl, -, a, -, rfl⟩
    · exact h.fresh u j x hx hbase
    · cases hbase

theorem assign (hg : Steering g) (h : c.Steered g) {a : Row t} (step : ∀ x, c t i = some x → g t x.now a) :
    (c.assign t i a).Steered g := by
  constructor
  · intro u j x hx
    by_cases e : u = t
    · subst e
      rw [Copies.assign_self] at hx
      split at hx
      · next hj =>
        subst hj
        obtain ⟨y, hy, rfl⟩ := Option.map_eq_some_iff.mp hx
        exact hg.trans u _ _ _ (h.along u j y hy) (step y hy)
      · exact h.along u j x hx
    · rw [Copies.assign_of_ne e] at hx
      exact h.along u j x hx
  · intro u j x hx hbase
    obtain ⟨y, hy, base, -, held⟩ := (Copies.same_assign u j).2 x hx
    exact held.trans (h.fresh u j y hy (base ▸ hbase))

theorem flush (hg : Steering g) (h : c.Steered g) : c.flush.Steered g := by
  constructor
  · intro u j x hx
    obtain ⟨y, hy, rfl⟩ := Copies.flush_eq_some.mp hx
    exact hg.refl u y.now
  · intro u j x hx hbase
    obtain ⟨y, hy, rfl⟩ := Copies.flush_eq_some.mp hx
    exact h.fresh u j y hy hbase

theorem insert (hg : Steering g) (h : c.Steered g) (a : Row t) : (c.insert t i a).Steered g := by
  constructor
  · intro u j x hx
    rcases Copies.insert_cases hx with hx | ⟨rfl, -, rfl⟩
    · exact h.along u j x hx
    · exact hg.refl u a
  · intro u j x hx hbase
    rcases Copies.insert_cases hx with hx | ⟨rfl, -, rfl⟩
    · exact h.fresh u j x hx hbase
    · rfl

theorem settle (hg : Steering g) {p : Tx Row Name β} (h : c.Steered g) (hp : p.Steers g c) :
    (p.settle c).2.Steers g (p.settle c).1 ∧ (p.settle c).1.Steered g := by
  induction p generalizing c with
  | assign t i a next ih => exact ih (h.assign hg hp.1) hp.2
  | _ => exact ⟨hp, h⟩

end Copies.Steered

namespace World

variable {prog : Op → Tx Row Name β} {w w' : World Row Name β Op} {turn : Turn Op} {tid k : Nat}
variable {c d : Conn Row Name β Op} {t : T} {i : Nat}

/-- What an open transaction has done and will do to its objects and rows goes along `g`. -/
structure Steers (g : (t : T) → Row t → Row t → Prop) (w : World Row Name β Op) (c : Conn Row Name β Op) : Prop where
  rest : c.rest.Steers g c.copy
  copies : c.copy.Steered g
  known : ∀ t i x b, c.copy t i = some x → x.base = some b → ∃ s, (w.store t).row i = some s
  written : ∀ t i a s, c.written t i = some a → (w.store t).row i = some s → g t s a

def Steered (g : (t : T) → Row t → Row t → Prop) (w : World Row Name β Op) : Prop :=
  ∀ k c, w.conn k = some c → w.Steers g c

theorem steered_start (store : (t : T) → Table (Row t)) : (start store : World Row Name β Op).Steered g := nofun

theorem Steers.flushed (hg : Steering g) (h : w.Steers g c) (hs : c.Sound False w tid) {a s : Row t}
    (ha : w.flushed c t i = some a) (hrow : (w.store t).row i = some s) : g t s a := by
  cases hx : c.copy t i with
  | none =>
    simp only [World.flushed, hx] at ha
    exact h.written t i a s ha hrow
  | some x =>
    by_cases clean : x.now = x.loaded
    · simp only [World.flushed, hx, if_pos clean] at ha
      exact h.written t i a s ha hrow
    · simp only [World.flushed, hx, if_neg clean, Option.map_eq_some_iff] at ha
      obtain ⟨seen, hseen, rfl⟩ := ha
      rw [view, Table.row_overlay (hs.bounded t i x hx)] at hseen
      have carried := hg.write t x.loaded x.now seen (h.copies.along t i x hx)
      cases hw : c.written t i with
      | none =>
        rw [hw, hrow] at hseen
        obtain rfl := Option.some.inj hseen
        exact carried
      | some b =>
        rw [hw] at hseen
        obtain rfl := Option.some.inj hseen
        exact hg.trans t _ _ _ (h.written t i b s hw hrow) carried

/-- A commit takes every stored row along `g`. -/
theorem committed_steered (hg : Steering g) (h : w.Steers g c) (hs : c.Sound False w tid) {s : Row t}
    (hrow : (w.store t).row i = some s) : ∃ a, (w.committed c t).row i = some a ∧ g t s a := by
  cases ha : w.flushed c t i with
  | none => exact ⟨s, (committed_row_of_none ha).trans hrow, hg.refl t s⟩
  | some a =>
    refine ⟨a, ?_, h.flushed hg hs ha hrow⟩
    rw [committed, Table.row_overlay (Table.lt_next hrow), ha]
    rfl

theorem committed_new (h : w.Steers g c) (hs : c.Sound False w tid) {a : Row t} (hrow : (w.store t).row i = none)
    (ha : (w.committed c t).row i = some a) : ∃ x, c.copy t i = some x ∧ x.base = none ∧ x.now = a := by
  cases hx : c.copy t i with
  | none =>
    rw [(committed_row hs).1 hx, hrow] at ha
    cases ha
  | some x =>
    have base : x.base = none := by
      cases hb : x.base with
      | none => rfl
      | some b =>
        obtain ⟨s, hs⟩ := h.known t i x b hx hb
        rw [hrow] at hs
        cases hs
    have cur := hs.current t i x hx (.inl (h.copies.fresh t i x hx base))
    refine ⟨x, rfl, base, ?_⟩
    rw [(committed_row hs).2 x hx cur] at ha
    exact Option.some.inj ha

/-! ### One step -/

theorem Steers.resume (hg : Steering g) {copy : Copies Row} {rest : Tx Row Name β} (h : w.Steers g { c with copy, rest })
    {d : Conn Row Name β Op} (hd : (w.resume tid c copy rest).conn tid = some d) : (w.resume tid c copy rest).Steers g d := by
  rw [World.resume, conn_putConn_self, Option.some.injEq] at hd
  subst hd
  obtain ⟨steers, copies⟩ := h.copies.settle hg h.rest
  refine ⟨steers, copies, fun t i x b hx hbase => ?_, h.written⟩
  obtain ⟨y, hy, base, -⟩ := (Copies.same_settle rest copy t i).2 x hx
  exact h.known t i y b hy (base ▸ hbase)

theorem Steers.of_store (h : w.Steers g c) (hstore : w'.store = w.store) : w'.Steers g c :=
  ⟨h.rest, h.copies, fun t i x b hx hbase => by rw [hstore]; exact h.known t i x b hx hbase,
    fun t i a s ha hrow => h.written t i a s ha (by rw [hstore] at hrow; exact hrow)⟩

theorem Steers.load (hg : Steering g) (h : w.Steers g c) (hs : c.Sound False w tid) (held : Bool) {t : T} {ids : List Nat}
    {tbl : Table (Row t)} (htbl : tbl = w.view c t) {rest : Tx Row Name β}
    (hrest : rest.Steers g (c.copy.load held t tbl ids)) :
    w.Steers g { c with copy := c.copy.load held t tbl ids, rest } := by
  subst htbl
  refine ⟨hrest, h.copies.load hg held _ _, fun u i x b hx hbase => ?_, h.written⟩
  rcases Copies.load_cases hx with hx | ⟨hnone, rfl, -, a, ha, rfl⟩
  · exact h.known u i x b hx hbase
  · have hi : i < (w.store u).next := Table.lt_next (t := w.view c u) ha
    rw [view, Table.row_overlay hi, hs.known u i hnone] at ha
    exact ⟨a, ha⟩

/-- What the transaction that sends its statement keeps to, when it stays open. -/
theorem Exec.steers (hg : Steering g) (h : Exec w tid c w') (hs : c.Sound False w tid) (hc : w.conn tid = some c)
    (hst : w.Steers g c) {d : Conn Row Name β Op} (hd : w'.conn tid = some d) : w'.Steers g d := by
  have hrest := hst.rest
  cases h with
  | waits =>
    rw [hc, Option.some.injEq] at hd
    exact hd ▸ hst
  | left => rw [conn_close] at hd; cases hd
  | selected h htbl hcopy =>
    rw [h] at hrest
    subst hcopy
    exact (hst.load hg hs false htbl (hrest _ (htbl ▸ sees_view hs _))).resume hg hd
  | @counts t f next h =>
    rw [h] at hrest
    have moved : w.Steers g { c with rest := next (f (w.view c t)) } :=
      ⟨hrest _ (sees_view hs t), hst.copies, hst.known, hst.written⟩
    exact moved.resume hg hd
  | locked h htbl hcopy =>
    rw [h] at hrest
    subst hcopy
    have moved := hst.load hg hs true htbl (hrest _ (htbl ▸ sees_view hs _))
    exact Steers.resume (w := take ..) hg (moved.of_store rfl) hd
  | @skipped t_ which_ limit_ _ h _ _ _ htbl hids hcopy =>
    rw [h] at hrest
    subst hcopy
    subst htbl hids
    have picked := (List.take_sublist limit_ _).trans
      (List.filter_sublist (p := fun i => decide (w.Free tid t_ i)) (l := which_ (w.view c t_)))
    have moved := hst.load hg hs true rfl (hrest _ _ (sees_view hs _) picked)
    exact Steers.resume (w := take ..) hg (moved.of_store rfl) hd
  | @advised _ next h named =>
    rw [h] at hrest
    have moved : w.Steers g { c with rest := next } := ⟨hrest, hst.copies, hst.known, hst.written⟩
    exact Steers.resume (w := { w with named }) hg (moved.of_store rfl) hd
  | @assigned t i a next h =>
    rw [h] at hrest
    refine Steers.resume hg ⟨hrest.2, hst.copies.assign hg hrest.1, fun u j x b hx hbase => ?_, hst.written⟩ hd
    obtain ⟨y, hy, base, -⟩ := (Copies.same_assign (c := c.copy) (t := t) (i := i) (a := a) u j).2 x hx
    exact hst.known u j y b hy (base ▸ hbase)
  | flushes h can =>
    rw [h] at hrest
    refine Steers.resume (w := takeDirty ..) hg ⟨hrest, hst.copies.flush hg, fun u j x b hx hbase => ?_,
      fun u j a s ha hrow => hst.flushed hg hs ha hrow⟩ hd
    obtain ⟨y, hy, rfl⟩ := Copies.flush_eq_some.mp hx
    exact hst.known u j y b hy hbase
  | @inserted t a next h i hi =>
    rw [h] at hrest
    subst hi
    have unknown : c.copy t (w.store t).next = none := by
      cases hy : c.copy t (w.store t).next with
      | none => rfl
      | some y => exact absurd (hs.bounded t _ y hy) (by omega)
    have rows : ∀ u j, (Function.update w.store t (w.store t).skip u).row j = (w.store u).row j := by
      intro u j
      by_cases e : u = t
      · subst e; simp [Table.skip]
      · simp [Function.update_of_ne e]
    refine Steers.resume hg ⟨hrest _ unknown, hst.copies.insert hg a, fun u j x b hx hbase => ?_, fun u j b s hb hrow => ?_⟩ hd
    · dsimp only at hx ⊢
      rw [rows]
      rcases Copies.insert_cases hx with hx | ⟨rfl, -, rfl⟩
      · exact hst.known u j x b hx hbase
      · cases hbase
    · dsimp only at hb hrow
      rw [rows] at hrow
      by_cases e : u = t
      · subst e
        rw [Function.update_self, if_neg (Table.lt_next hrow).ne] at hb
        exact hst.written u j b s hb hrow
      · rw [Function.update_of_ne e] at hb
        exact hst.written u j b s hb hrow
  | commits => rw [conn_close] at hd; cases hd

theorem store_step (prog : Op → Tx Row Name β) (turn : Turn Op) : (∀ t i, ((w.step prog turn).store t).row i = (w.store t).row i) ∨
    ∃ tid c b, turn = .next tid ∧ w.conn tid = some c ∧ c.rest = .commit b ∧ w.CanFlush tid c ∧
      w.step prog turn = { w with store := w.committed c }.close tid c (some b) := by
  have stepped := step_stepped (w := w) prog turn
  generalize w.step prog turn = w' at stepped ⊢
  cases stepped with
  | idle => exact .inl fun _ _ => rfl
  | opened => exact .inl fun _ _ => rfl
  | lost => exact .inl fun _ _ => rfl
  | @ran tid c _ hc run =>
    cases run with
    | @commits b h can => exact .inr ⟨tid, c, b, rfl, hc, h, can, rfl⟩
    | @inserted u a _ _ j hj =>
      refine .inl fun t i => ?_
      by_cases e : t = u
      · subst e; simp [World.resume, Table.skip]
      · simp [World.resume, Function.update_of_ne e]
    | _ => exact .inl fun _ _ => rfl

/-- Another transaction changes none of the rows that this one has written, and removes none. -/
theorem Steers.spared (hg : Steering g) (h : w.Steers g d) (hd : d.Sound False w k) (hs : w.Sound False)
    (hst : w.Steered g) (other : turn ≠ .next k) : (w.step prog turn).Steers g d := by
  rcases store_step (w := w) prog turn with rows | ⟨tid, c, b, rfl, hc, -, can, step⟩
  · refine ⟨h.rest, h.copies, fun t i x b hx hbase => ?_, fun t i a s ha hrow => ?_⟩
    · rw [rows]
      exact h.known t i x b hx hbase
    · rw [rows] at hrow
      exact h.written t i a s ha hrow
  · have hk : k ≠ tid := fun e => other (by rw [e])
    rw [step]
    refine ⟨h.rest, h.copies, fun t i x b hx hbase => ?_, fun t i a s ha hrow => ?_⟩
    · obtain ⟨s, hrow⟩ := h.known t i x b hx hbase
      obtain ⟨a, ha, -⟩ := committed_steered hg (hst tid c hc) (hs tid c hc) hrow
      exact ⟨a, ha⟩
    · have taken := hd.locked t i a ha
      have untouched := flushed_of_taken (hs tid c hc) can hk taken
      have hrow : (w.committed c t).row i = some s := hrow
      rw [committed_row_of_none untouched] at hrow
      exact h.written t i a s ha hrow

theorem Steered.step (hg : Steering g) (hprog : ∀ op, (prog op).Steers g fun _ _ => none) (hs : w.Sound False)
    (h : w.Steered g) : (w.step prog turn).Steered g := by
  have spared : ∀ k d, w.conn k = some d → turn ≠ .next k → (w.step prog turn).Steers g d := fun k d hd other =>
    Steers.spared hg (h k d hd) (hs k d hd) hs h other
  have stepped := step_stepped (w := w) prog turn
  generalize w.step prog turn = w' at stepped spared ⊢
  cases stepped with
  | idle => exact h
  | @opened tid op hnone =>
    intro k d hd
    by_cases hk : k = tid
    · subst hk
      refine Steers.resume hg ⟨hprog op, Copies.Steered.empty, fun t i x b hx => ?_, fun t i a s ha => ?_⟩ hd
      · cases hx
      · cases ha
    · rw [World.resume, conn_putConn_of_ne hk] at hd
      exact spared k d hd (by simp)
  | @ran tid c _ hc run =>
    intro k d hd
    by_cases hk : k = tid
    · subst hk
      exact run.steers hg (hs k c hc) hc (h k c hc) hd
    · rw [run.conn_of_ne hk] at hd
      refine spared k d hd ?_
      rintro ⟨⟩
      exact hk rfl
  | @lost tid c hc =>
    intro k d hd
    by_cases hk : k = tid
    · subst hk
      rw [conn_close] at hd
      cases hd
    · exact spared k d ((if_neg hk).symm.trans hd) (by simp)

end World

end SalonBooking.Lib
