import SalonBooking.Lib.Isolation

/-!
# Marks that last

A mark is what a row shows once it has reached a final state. Where no program takes a mark away from a row that
it has found marked, a mark is lost only to a transaction that read the row before it was marked and writes the
columns of the mark afterwards. `Aware` excludes these commits, and then every mark lasts.
-/

set_option linter.unusedSectionVars false

namespace SalonBooking.Lib

variable {T : Type} [DecidableEq T] {Row : T → Type} {Name β Op M : Type}
variable [∀ t, DecidableEq (Row t)] [∀ t, Columns (Row t)] [DecidableEq Name] [Fintype T] [DecidableEq M]

def Tx.commits : Tx Row Name β → Bool
  | commit _ => true
  | _ => false

namespace World

/-- The transaction has loaded the row without the mark that the row has now, and its commit writes the columns of
the mark: the object differs from what was loaded there (`same` compares them), or it was flushed without the mark. -/
def Outdated (mark : (t : T) → Row t → Option M) (same : (t : T) → Row t → Row t → Bool) (w : World Row Name β Op)
    (c : Conn Row Name β Op) (t : T) (i : Nat) : Prop :=
  ∃ row ∈ (w.store t).row i, (mark t row).isSome = true ∧ ∃ x ∈ c.copy t i, x.base.bind (mark t) = none ∧
    (same t x.loaded x.now = false ∨ ∃ a ∈ c.written t i, mark t a ≠ mark t row)

instance (mark : (t : T) → Row t → Option M) (same : (t : T) → Row t → Row t → Bool) (w : World Row Name β Op)
    (c : Conn Row Name β Op) (t : T) (i : Nat) : Decidable (w.Outdated mark same c t i) :=
  inferInstanceAs (Decidable (∃ row ∈ _, _ ∧ ∃ x ∈ _, _ ∧ (_ ∨ ∃ a ∈ _, _)))

/-- No transaction commits over a mark that it has not seen. -/
def Aware (mark : (t : T) → Row t → Option M) (same : (t : T) → Row t → Row t → Bool) (w : World Row Name β Op) :
    Turn Op → Prop
  | .next tid =>
    ∀ c ∈ w.conn tid, c.rest.commits = true → ∀ t, ∀ i < (w.store t).next, ¬ w.Outdated mark same c t i
  | _ => True

instance (mark : (t : T) → Row t → Option M) (same : (t : T) → Row t → Row t → Bool) (w : World Row Name β Op)
    (turn : Turn Op) : Decidable (w.Aware mark same turn) :=
  match turn with
  | .begin .. | .abort .. => inferInstanceAs (Decidable True)
  | .next _ => inferInstanceAs (Decidable (∀ c ∈ _, _))

variable {mark : (t : T) → Row t → Option M} {same : (t : T) → Row t → Row t → Bool}
variable {G : Op → (t : T) → Nat → Row t → Row t → Prop}
variable {prog : Op → Tx Row Name β} {w w' : World Row Name β Op} {turn : Turn Op} {tid : Nat} {c : Conn Row Name β Op}

/-- Assignments along `G` keep a mark that the object was loaded with, objects of one mark agree in its columns, and
an UPDATE of an object that was not changed there does not touch the mark of the row. -/
structure Lasting (mark : (t : T) → Row t → Option M) (same : (t : T) → Row t → Row t → Bool)
    (G : Op → (t : T) → Nat → Row t → Row t → Prop) : Prop where
  agree : ∀ (t : T) (l a : Row t) m, mark t l = some m → mark t a = some m → same t l a = true
  write : ∀ (t : T) (l a s : Row t), same t l a = true → mark t (Columns.write l a s) = mark t s
  keeps : ∀ op t i old new m, G op t i old new → mark t old = some m → mark t new = some m

def Shows (mark : (t : T) → Row t → Option M) (w : World Row Name β Op) (t : T) (i : Nat) (m : M) : Prop :=
  ∃ row, (w.store t).row i = some row ∧ mark t row = some m

/-- A row that the transaction has loaded with a mark still has it, also in the version that it has written. -/
def Retains (mark : (t : T) → Row t → Option M) (w : World Row Name β Op) (c : Conn Row Name β Op) : Prop :=
  ∀ t i x old m, c.copy t i = some x → x.base = some old → mark t old = some m →
    w.Shows mark t i m ∧ ∀ a, c.written t i = some a → mark t a = some m

def Marked (mark : (t : T) → Row t → Option M) (w : World Row Name β Op) : Prop :=
  ∀ k c, w.conn k = some c → w.Retains mark c

theorem marked_start (store : (t : T) → Table (Row t)) : (start store : World Row Name β Op).Marked mark := nofun

/-! ### One step -/

/-- An object that was not changed in the columns of the mark, and was not flushed without it. -/
theorem flushed_spared (hs : c.Sound False w tid) (last : Lasting mark same G) {t : T} {i : Nat} {row a : Row t}
    {x : Copy (Row t)} (hrow : (w.store t).row i = some row) (hx : c.copy t i = some x)
    (spared : same t x.loaded x.now = true) (written : ∀ b, c.written t i = some b → mark t b = mark t row)
    (ha : w.flushed c t i = some a) : mark t a = mark t row := by
  by_cases clean : x.now = x.loaded
  · simp only [World.flushed, hx, if_pos clean] at ha
    exact written a ha
  · simp only [World.flushed, hx, if_neg clean, Option.map_eq_some_iff] at ha
    obtain ⟨seen, hseen, rfl⟩ := ha
    rw [view, Table.row_overlay (hs.bounded t i x hx)] at hseen
    rw [last.write t _ _ _ spared]
    cases hw : c.written t i with
    | none =>
      rw [hw, hrow] at hseen
      rw [Option.some.inj hseen]
    | some b =>
      rw [hw] at hseen
      exact Option.some.inj hseen ▸ written b hw

/-- What the session writes to a row that it has loaded with a mark has the mark. -/
theorem Retains.flushed (h : w.Retains mark c) (hs : c.Sound False w tid) (along : Copies.Along (G c.op) c.copy)
    (last : Lasting mark same G) {t : T} {i : Nat}
    {x : Copy (Row t)} {old a : Row t} {m : M} (hx : c.copy t i = some x) (hbase : x.base = some old)
    (hold : mark t old = some m) (ha : w.flushed c t i = some a) : mark t a = some m := by
  obtain ⟨⟨row, hrow, shown⟩, written⟩ := h t i x old m hx hbase hold
  obtain ⟨hl, hn⟩ := along t i x old hx hbase
  have spared := last.agree t _ _ m (last.keeps _ t i _ _ m hl hold) (last.keeps _ t i _ _ m hn hold)
  exact (flushed_spared hs last hrow hx spared (fun b hb => (written b hb).trans shown.symm) ha).trans shown

theorem shows_committed (hs : c.Sound False w tid) (hm : w.Retains mark c) (along : Copies.Along (G c.op) c.copy)
    (last : Lasting mark same G) (aware : ∀ t, ∀ i < (w.store t).next, ¬ w.Outdated mark same c t i) {t : T} {i : Nat} {m : M}
    (shown : w.Shows mark t i m) :
    ∃ row, (w.committed c t).row i = some row ∧ mark t row = some m := by
  obtain ⟨row, hrow, hmark⟩ := shown
  have hi : i < (w.store t).next := Table.lt_next hrow
  cases ha : w.flushed c t i with
  | none => exact ⟨row, (committed_row_of_none ha).trans hrow, hmark⟩
  | some a =>
    refine ⟨a, by rw [committed, Table.row_overlay hi, ha]; rfl, ?_⟩
    cases hx : c.copy t i with
    | none =>
      simp only [World.flushed, hx, hs.known t i hx] at ha
      cases ha
    | some x =>
      cases hold : x.base.bind (mark t) with
      | none =>
        have untouched := aware t i hi
        simp only [Outdated, Option.mem_def, hrow, hx, hmark, hold, Option.some.injEq, exists_eq_left', Option.isSome_some,
          true_and, not_or, not_exists, not_and, not_not, Bool.not_eq_false] at untouched
        exact flushed_spared hs last hrow hx untouched.1 (fun b hb => (untouched.2 b hb).trans hmark.symm) ha ▸ hmark
      | some m' =>
        obtain ⟨old, hbase, hold⟩ := Option.bind_eq_some_iff.mp hold
        obtain ⟨⟨row', hrow', shown'⟩, -⟩ := hm t i x old m' hx hbase hold
        rw [hrow, Option.some.injEq] at hrow'
        subst hrow'
        rw [hmark, Option.some.injEq] at shown'
        subst shown'
        exact hm.flushed hs along last hx hbase hold ha

/-- Objects that were there before have what they retain, also after assignments. -/
theorem Retains.resume {copy : Copies Row} {rest : Tx Row Name β} (h : w.Retains mark { c with copy })
    {d : Conn Row Name β Op} (hd : (w.resume tid c copy rest).conn tid = some d) :
    (w.resume tid c copy rest).Retains mark d := by
  rw [World.resume, conn_putConn_self, Option.some.injEq] at hd
  subst hd
  intro t i x old m hx hbase hold
  obtain ⟨y, hy, base, -⟩ := (Copies.same_settle rest copy t i).2 x hx
  exact h t i y old m hy (base ▸ hbase) hold

theorem Retains.load (h : w.Retains mark c) (hs : c.Sound False w tid) (held : Bool) {t : T} {ids : List Nat}
    {tbl : Table (Row t)} (htbl : tbl = w.view c t) : w.Retains mark { c with copy := c.copy.load held t tbl ids } := by
  subst htbl
  intro u i x old m hx hbase hold
  rcases Copies.load_cases hx with hx | ⟨hnone, rfl, -, a, ha, rfl⟩
  · exact h u i x old m hx hbase hold
  · have unwritten := hs.known u i hnone
    have hi : i < (w.store u).next := Table.lt_next (t := w.view c u) ha
    rw [view, Table.row_overlay hi, unwritten] at ha
    obtain rfl := Option.some.inj hbase
    refine ⟨⟨a, ha, hold⟩, fun b hb => ?_⟩
    rw [unwritten] at hb
    cases hb

theorem Exec.retains (h : Exec w tid c w') (hs : c.Sound False w tid) (hm : w.Retains mark c)
    (hg : c.rest.Writes (G c.op) c.copy ∧ Copies.Along (G c.op) c.copy) (hc : w.conn tid = some c)
    (last : Lasting mark same G) {d : Conn Row Name β Op} (hd : w'.conn tid = some d) : w'.Retains mark d := by
  cases h with
  | waits =>
    rw [hc, Option.some.injEq] at hd
    exact hd ▸ hm
  | left => rw [conn_close] at hd; cases hd
  | selected _ htbl hcopy =>
    subst hcopy
    exact (hm.load hs false htbl).resume hd
  | counts => exact Retains.resume hm hd
  | locked _ htbl hcopy =>
    subst hcopy
    exact Retains.resume (w := take ..) (hm.load hs true htbl) hd
  | skipped _ htbl _ hcopy =>
    subst hcopy
    exact Retains.resume (w := take ..) (hm.load hs true htbl) hd
  | @advised _ _ _ named => exact Retains.resume (w := { w with named }) hm hd
  | @assigned t i a =>
    refine Retains.resume (fun u j x old m hx hbase hold => ?_) hd
    obtain ⟨y, hy, base, -⟩ := (Copies.same_assign (c := c.copy) (t := t) (i := i) (a := a) u j).2 x hx
    exact hm u j y old m hy (base ▸ hbase) hold
  | flushes =>
    refine Retains.resume (w := takeDirty ..) (fun t i x old m hx hbase hold => ?_) hd
    obtain ⟨y, hy, rfl⟩ := Copies.flush_eq_some.mp hx
    exact ⟨(hm t i y old m hy hbase hold).1, fun a ha => hm.flushed hs hg.2 last hy hbase hold ha⟩
  | @inserted t a _ _ i hi =>
    subst hi
    refine Retains.resume (fun u j x old m hx hbase hold => ?_) hd
    rcases Copies.insert_cases hx with hx | ⟨rfl, -, rfl⟩
    · obtain ⟨⟨row, hrow, shown⟩, written⟩ := hm u j x old m hx hbase hold
      have old' := (hs.bounded u j x hx).ne
      refine ⟨⟨row, ?_, shown⟩, fun b hb => written b ?_⟩
      · by_cases e : u = t
        · subst e; simpa [Table.skip] using hrow
        · simpa [Function.update_of_ne e] using hrow
      · dsimp only at hb
        by_cases e : u = t
        · subst e
          rwa [Function.update_self, if_neg old'] at hb
        · rwa [Function.update_of_ne e] at hb
    · cases hbase
  | commits => rw [conn_close] at hd; cases hd

theorem shows_step (hs : w.Sound False) (hm : w.Marked mark) (hg : w.Guided G)
    (last : Lasting mark same G) (aware : w.Aware mark same turn) {t : T} {i : Nat} {m : M} (shown : w.Shows mark t i m) :
    (w.step prog turn).Shows mark t i m := by
  have stepped := step_stepped (w := w) prog turn
  generalize w.step prog turn = w' at stepped ⊢
  cases stepped with
  | idle => exact shown
  | opened => exact shown
  | lost => exact shown
  | @ran tid c _ hc run =>
    cases run with
    | commits h =>
      exact shows_committed (hs tid c hc) (hm tid c hc) (hg tid c hc).2 last (aware c hc (by rw [h]; rfl)) shown
    | @inserted u a _ _ j hj =>
      obtain ⟨row, hrow, hmark⟩ := shown
      refine ⟨row, ?_, hmark⟩
      by_cases e : t = u
      · subst e; simpa [World.resume, Table.skip] using hrow
      · simpa [World.resume, Function.update_of_ne e] using hrow
    | _ => exact shown

theorem Retains.spared (h : w.Retains mark c) (shows : ∀ t i m, w.Shows mark t i m → w'.Shows mark t i m) :
    w'.Retains mark c :=
  fun t i x old m hx hbase hold => (h t i x old m hx hbase hold).imp_left (shows t i m)

theorem Marked.step (hs : w.Sound False) (hm : w.Marked mark) (hg : w.Guided G)
    (last : Lasting mark same G) (aware : w.Aware mark same turn) : (w.step prog turn).Marked mark := by
  have shows : ∀ t i m, w.Shows mark t i m → (w.step prog turn).Shows mark t i m :=
    fun t i m shown => shows_step hs hm hg last aware shown
  have stepped := step_stepped (w := w) prog turn
  generalize w.step prog turn = w' at stepped shows ⊢
  cases stepped with
  | idle => exact hm
  | @opened tid op h =>
    intro k d hd
    by_cases hk : k = tid
    · subst hk
      refine Retains.resume ?_ hd
      intro t i x old m hx
      cases hx
    · rw [World.resume, conn_putConn_of_ne hk] at hd
      exact (hm k d hd).spared shows
  | @ran tid c _ hc run =>
    intro k d hd
    by_cases hk : k = tid
    · subst hk
      exact run.retains (hs k c hc) (hm k c hc) (hg k c hc) hc last hd
    · rw [run.conn_of_ne hk] at hd
      exact (hm k d hd).spared shows
  | @lost tid c _ =>
    intro k d hd
    by_cases hk : k = tid
    · subst hk
      rw [conn_close] at hd
      cases hd
    · exact (hm k d ((if_neg hk).symm.trans hd)).spared shows

end World

end SalonBooking.Lib
