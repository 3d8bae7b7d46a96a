import SalonBooking.Lib.Alone
import SalonBooking.Lib.Held

/-!
# Transactions one after the other

A program that is run to its end while nobody else is there leaves tables and an answer. Every row is afterwards what it
was or along what the program writes; for a program on one row both can be computed.
-/

set_option linter.unusedSectionVars false

namespace SalonBooking.Lib

variable {T : Type} [DecidableEq T] {Row : T → Type} {Name β : Type}
variable [∀ t, DecidableEq (Row t)] [∀ t, Columns (Row t)]

/-- The tables that the program leaves while nobody else is there, and its answer. -/
def Tx.outcome : View Row → Tx Row Name β → ((t : T) → Table (Row t)) × β
  | v, .done b => (v.store, b)
  | v, .select t which next =>
    outcome (v.load false t (which (v.sees t))) (next ((v.load false t (which (v.sees t))).copy.rows t (which (v.sees t))))
  | v, .count t f next => outcome v (next (f (v.sees t)))
  | v, .lock t which next =>
    outcome (v.load true t (which (v.sees t))) (next ((v.load true t (which (v.sees t))).copy.rows t (which (v.sees t))))
  | v, .skipLocked t which limit next =>
    outcome (v.load true t ((which (v.sees t)).take limit))
      (next ((v.load true t ((which (v.sees t)).take limit)).copy.rows t ((which (v.sees t)).take limit)))
  | v, .advisory _ next => outcome v next
  | v, .assign t i a next => outcome (v.assign t i a) next
  | v, .flush next => outcome v.flush next
  | v, .insert t a next => outcome (v.insert t a) (next (v.store t).next)
  | v, .commit b => (v.committed, b)

namespace View

variable {v : View Row} {t u : T} {i j : Nat} {a old : Row t}

/-- The session of a program that runs alone: its objects were loaded from the stored rows, and it has written no row
without an object. -/
structure Solo (v : View Row) : Prop where
  coherent : v.Coherent
  based : ∀ t i x old, v.copy t i = some x → (v.store t).row i = some old → x.base = some old
  unread : ∀ t i, v.copy t i = none → v.written t i = none

theorem solo_start {store : (t : T) → Table (Row t)} : (start store).Solo := ⟨coherent_start, nofun, fun _ _ _ => rfl⟩

namespace Solo

theorem sees (h : v.Solo) (t : T) : v.copy.Sees t (v.sees t) := fun i x hx _ => h.coherent t i x hx

theorem load (h : v.Solo) (held : Bool) (ids : List Nat) : (v.load held t ids).Solo := by
  refine ⟨h.coherent.load held ids, fun u j x old hx row => ?_, fun u j hx => ?_⟩
  · rcases Copies.load_cases hx with hx | ⟨none, rfl, -, a, seen, rfl⟩
    · exact h.based u j x old hx row
    · rw [sees_row (h.unread u j none)] at seen
      exact seen.symm.trans row
  · refine h.unread u j ?_
    cases hy : v.copy u j with
    | none => rfl
    | some y =>
      rw [show (v.load held t ids).copy u j = some y from Copies.load_of_some hy] at hx
      cases hx

theorem assign (h : v.Solo) (a : Row t) : (v.assign t i a).Solo := by
  refine ⟨h.coherent.assign a, fun u j x old hx row => ?_, fun u j hx => ?_⟩
  · obtain ⟨y, hy, base, -⟩ := (Copies.same_assign (c := v.copy) (t := t) (i := i) (a := a) u j).2 x hx
    exact base.trans (h.based u j y old hy row)
  · exact h.unread u j ((Copies.same_assign (c := v.copy) (t := t) (i := i) (a := a) u j).1 hx)

theorem flush (h : v.Solo) : v.flush.Solo := by
  refine ⟨h.coherent.flush, fun u j x old hx row => ?_, fun u j hx => ?_⟩
  · obtain ⟨y, hy, rfl⟩ := Copies.flush_eq_some.mp hx
    exact h.based u j y old hy row
  · have none : v.copy u j = none := by
      cases hy : v.copy u j with
      | none => rfl
      | some y =>
        rw [show v.flush.copy u j = _ from Copies.flush_eq_some.mpr ⟨y, hy, rfl⟩] at hx
        cases hx
    show v.flushed u j = Option.none
    simp only [flushed, none, h.unread u j none]

theorem insert (h : v.Solo) (a : Row t) : (v.insert t a).Solo := by
  refine ⟨h.coherent.insert a, fun u j x old hx row => ?_, fun u j hx => ?_⟩
  · rw [row_insert] at row
    rcases Copies.insert_cases hx with hx | ⟨rfl, rfl, -⟩
    · exact h.based u j x old hx row
    · exact absurd (Table.lt_next row) (lt_irrefl _)
  · by_cases e : u = t
    · subst e
      rw [copy_insert] at hx
      split at hx
      · cases hx
      · next other =>
        show Function.update v.written u _ u j = none
        rw [Function.update_self, if_neg other]
        exact h.unread u j hx
    · rw [copy_insert_of_ne e] at hx
      rw [written_insert_of_ne e]
      exact h.unread u j hx

end Solo

end View

namespace Tx

variable {G : (t : T) → Nat → Row t → Row t → Prop} {t u : T} {i : Nat}

/-- The rows that were there are there afterwards, moved along what the program writes. -/
theorem outcome_along (refl : ∀ t i a, G t i a a) {p : Tx Row Name β} : ∀ {v : View Row}, v.Solo → Copies.Along G v.copy →
    p.Writes G v.copy → ∀ {old : Row t}, (v.store t).row i = some old →
      ∃ new, ((p.outcome v).1 t).row i = some new ∧ G t i old new := by
  induction p with
  | done b => exact fun _ _ _ old row => ⟨old, row, refl t i old⟩
  | select u which next ih =>
    exact fun solo along writes _ row => ih _ (solo.load false _) (along.load refl false _ _) (writes _ (solo.sees u)) row
  | count u f next ih => exact fun solo along writes _ row => ih _ solo along (writes _ (solo.sees u)) row
  | lock u which next ih =>
    exact fun solo along writes _ row => ih _ (solo.load true _) (along.load refl true _ _) (writes _ (solo.sees u)) row
  | skipLocked u which limit next ih =>
    exact fun solo along writes _ row => ih _ (solo.load true _) (along.load refl true _ _)
      (writes _ _ (solo.sees u) (List.take_sublist limit _)) row
  | advisory n next ih => exact ih
  | assign u j a next ih =>
    exact fun solo along writes _ row => ih (solo.assign a) (along.assign writes.1) writes.2 row
  | flush next ih => exact fun solo along writes _ row => ih solo.flush along.flush writes row
  | insert u a next ih =>
    intro v solo along writes old row
    have fresh : v.copy u (v.store u).next = none := by
      cases hx : v.copy u (v.store u).next with
      | none => rfl
      | some x => exact absurd (Table.lt_next (solo.coherent u _ x hx)) (lt_irrefl _)
    exact ih _ (solo.insert a) along.insert (writes _ fresh) ((View.row_insert a).trans row)
  | commit b =>
    intro v solo along _ old row
    show ∃ new, (v.committed t).row i = some new ∧ G t i old new
    rw [solo.coherent.row_committed]
    cases hx : v.copy t i with
    | none => exact ⟨old, (View.sees_row (solo.unread t i hx)).trans row, refl t i old⟩
    | some x => exact ⟨x.now, rfl, (along t i x old hx (solo.based t i x old hx row)).2⟩

/-- What a read by key hands out lies along `G` from the row that its object was loaded from. -/
theorem writes_row_along (refl : ∀ t i a, G t i a a) {c : Copies Row} (along : Copies.Along G c) (held : Bool)
    {next : Option (Row t) → Tx Row Name β} (h : ∀ {c' : Copies Row} (a : Option (Row t)), Copies.Along G c' →
      (∀ u, u ≠ t → c' u = c u) → (∀ b ∈ a, ∀ x base, c' t i = some x → x.base = some base → G t i base b) →
      (next a).Writes G c') (tbl : Table (Row t)) :
    (next (((c.load held t tbl (tbl.only i)).rows t (tbl.only i)).head?.map Prod.snd)).Writes G
      (c.load held t tbl (tbl.only i)) := by
  refine writes_row held (h none along (fun _ _ => rfl) (by simp)) (fun x hx => h _ along (fun _ _ => rfl) ?_)
    (fun _ a => h _ ?_ (fun _ hu => Copies.put_of_ne hu) ?_) tbl
  · intro b hb y base hy hbase
    rw [hx, Option.some.injEq] at hy
    obtain rfl := Option.mem_some_iff.mp hb
    exact hy ▸ (along t i y base (hx.trans (congrArg some hy)) hbase).2
  · intro u j y b hy hb
    rcases Copies.put_eq_some hy with ⟨rfl, rfl, rfl⟩ | hy
    · obtain rfl := Option.some.inj hb
      exact ⟨refl _ _ _, refl _ _ _⟩
    · exact along u j y b hy hb
  · intro b hb y base hy hbase
    rw [Copies.put_self, Option.some.injEq] at hy
    subst hy
    obtain rfl := Option.some.inj hbase
    obtain rfl := Option.mem_some_iff.mp hb
    exact refl _ _ _

theorem writes_getForUpdate_along (refl : ∀ t i a, G t i a a) {c : Copies Row} (along : Copies.Along G c)
    {next : Option (Row t) → Tx Row Name β} (h : ∀ {c' : Copies Row} (a : Option (Row t)), Copies.Along G c' →
      (∀ u, u ≠ t → c' u = c u) → (∀ b ∈ a, ∀ x base, c' t i = some x → x.base = some base → G t i base b) →
      (next a).Writes G c') :
    (getForUpdate t i next).Writes G c := fun tbl _ => writes_row_along refl along true h tbl

theorem writes_get_along (refl : ∀ t i a, G t i a a) {c : Copies Row} (along : Copies.Along G c)
    {next : Option (Row t) → Tx Row Name β} (h : ∀ {c' : Copies Row} (a : Option (Row t)), Copies.Along G c' →
      (∀ u, u ≠ t → c' u = c u) → (∀ b ∈ a, ∀ x base, c' t i = some x → x.base = some base → G t i base b) →
      (next a).Writes G c') :
    (get t i next).Writes G c := fun tbl _ => writes_row_along refl along false h tbl

/-- Rows that are locked and rewritten at once; the objects of other tables stay based on what they were. -/
theorem writes_locked_along (refl : ∀ t i a, G t i a a) {c : Copies Row} (along : Copies.Along G c)
    (fresh : ∀ j, c t j = none) {tbl : Table (Row t)} {ids : List Nat} {f : Row t → Row t} {next : Tx Row Name β}
    (hf : ∀ j ∈ ids, ∀ a, tbl.row j = some a → G t j a (f a))
    (hnext : ∀ {c' : Copies Row}, Copies.Along G c' →
      (∀ u, u ≠ t → ∀ j x, c' u j = some x → ∃ y, c u j = some y ∧ x.base = y.base) → next.Writes G c') :
    (assignAll t ((Copies.rows (c.load true t tbl ids) t ids).map fun r => (r.1, f r.2)) next).Writes G
      (c.load true t tbl ids) := by
  have listed : ∀ j x, c.load true t tbl ids t j = some x → j ∈ ids ∧ ∃ a, tbl.row j = some a ∧ x = .ofRow true a := by
    intro j x hx
    rcases Copies.load_cases hx with hx | ⟨-, _, hj, a, ha, rfl⟩
    · rw [fresh] at hx
      cases hx
    · exact ⟨hj, a, ha, rfl⟩
  refine writes_assignAll (P := fun c' => Copies.Along G c' ∧
    (∀ j x b, c' t j = some x → x.base = some b → j ∈ ids ∧ tbl.row j = some b) ∧
    ∀ u, u ≠ t → ∀ j x, c' u j = some x → ∃ y, c u j = some y ∧ x.base = y.base) ⟨along.load refl true _ _, ?_, ?_⟩ ?_
    fun c' h => hnext h.1 h.2.2
  · intro j x b hx hb
    obtain ⟨hj, a, ha, rfl⟩ := listed j x hx
    exact ⟨hj, ha.trans hb⟩
  · intro u hu j x hx
    rw [Copies.load_of_ne hu] at hx
    exact ⟨x, hx, rfl⟩
  · rintro c' r hr ⟨along, known, other⟩
    obtain ⟨⟨j, a⟩, hja, rfl⟩ := List.mem_map.mp hr
    obtain ⟨hj, x, hx, rfl⟩ := Copies.mem_rows.mp hja
    obtain ⟨-, a, ha, rfl⟩ := listed j x hx
    have based : ∀ x b, c' t j = some x → x.base = some b → G t j b (f a) := by
      intro x b hx hb
      obtain rfl := Option.some.inj (ha.symm.trans (known j x b hx hb).2)
      exact hf j hj a ha
    refine ⟨based, along.assign based, fun k x b hx hb => ?_, fun u hu k x hx => ?_⟩
    · obtain ⟨y, hy, base, -⟩ := (Copies.same_assign t k).2 x hx
      exact known k y b hy (base ▸ hb)
    · obtain ⟨y, hy, base, -⟩ := (Copies.same_assign u k).2 x hx
      obtain ⟨z, hz, base'⟩ := other u hu k y hy
      exact ⟨z, hz, base.trans base'⟩

/-- What a read by key hands out of a table that the session has not read before. -/
theorem rows_only {v : View Row} (held : Bool) (unread : v.copy t i = none) (unwritten : v.written t i = none) :
    ((v.load held t ((v.sees t).only i)).copy.rows t ((v.sees t).only i)).head?.map Prod.snd = (v.store t).row i := by
  have seen : (v.sees t).row i = (v.store t).row i := View.sees_row unwritten
  cases row : (v.store t).row i with
  | none =>
    have ids : (v.sees t).only i = [] := by simp [Table.only, seen, row]
    rw [ids]
    rfl
  | some a =>
    have ids : (v.sees t).only i = [i] := by simp [Table.only, seen, row]
    have copy : (v.load held t [i]).copy t i = some (.ofRow held a) := by
      simp [View.load, Copies.load_self, unread, seen, row]
    rw [ids]
    simp [Copies.rows, copy, Copy.ofRow]

theorem outcome_getForUpdate {v : View Row} {next : Option (Row t) → Tx Row Name β} (unread : v.copy t i = none)
    (unwritten : v.written t i = none) : (getForUpdate t i next).outcome v =
      (next ((v.store t).row i)).outcome (v.load true t ((v.sees t).only i)) :=
  congrArg (fun a => (next a).outcome (v.load true t ((v.sees t).only i))) (rows_only true unread unwritten)

theorem outcome_get {v : View Row} {next : Option (Row t) → Tx Row Name β} (unread : v.copy t i = none)
    (unwritten : v.written t i = none) : (get t i next).outcome v =
      (next ((v.store t).row i)).outcome (v.load false t ((v.sees t).only i)) :=
  congrArg (fun a => (next a).outcome (v.load false t ((v.sees t).only i))) (rows_only false unread unwritten)

end Tx

end SalonBooking.Lib
