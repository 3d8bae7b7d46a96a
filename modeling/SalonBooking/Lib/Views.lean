import SalonBooking.Lib.Statements
import Mathlib

/-!
# What a transaction can go by

A view is the world as one open transaction knows it: the committed tables, the rows in its locks and its own
session. Between two of its statements others commit; they leave the rows in its locks alone and change the
tables along a relation `R` that the transaction relies on. `Tx.Safe` carries a program from statement to
statement over all that others may do, and says what holds where it commits.
-/

set_option linter.unusedSectionVars false

namespace SalonBooking.Lib

variable {T : Type} [DecidableEq T] {Row : T → Type} {Name β Op : Type}

structure View (Row : T → Type) where
  store : (t : T) → Table (Row t)
  mine : T → Nat → Prop
  copy : Copies Row
  written : (t : T) → Nat → Option (Row t)

/-- What the tables may become by a commit of another transaction. -/
abbrev Reliance (Row : T → Type) : Type := View Row → ((t : T) → Table (Row t)) → Prop

namespace View

variable (v : View Row)

/-- A transaction that has sent no statement. -/
def start (store : (t : T) → Table (Row t)) : View Row := ⟨store, fun _ _ => False, fun _ _ => none, fun _ _ => none⟩

def sees (t : T) : Table (Row t) := (v.store t).overlay (v.written t)

/-- Rows that come back; with a lock they are the session's from now on. -/
def load (held : Bool) (t : T) (ids : List Nat) : View Row :=
  { v with
    mine := fun u j => (held = true ∧ u = t ∧ j ∈ ids ∧ j < (v.store t).next) ∨ v.mine u j
    copy := v.copy.load held t (v.sees t) ids }

def assign (t : T) (i : Nat) (a : Row t) : View Row := { v with copy := v.copy.assign t i a }

def insert (t : T) (a : Row t) : View Row where
  store := Function.update v.store t (v.store t).skip
  mine u j := (u = t ∧ j = (v.store t).next) ∨ v.mine u j
  copy := v.copy.insert t (v.store t).next a
  written := Function.update v.written t fun j => if j = (v.store t).next then some a else v.written t j

section Write

variable [∀ t, DecidableEq (Row t)] [∀ t, Columns (Row t)]

/-- The session's own rows after the UPDATEs. -/
def flushed (t : T) (i : Nat) : Option (Row t) :=
  match v.copy t i with
  | some x => if x.now = x.loaded then v.written t i else ((v.sees t).row i).map (Columns.write x.loaded x.now)
  | none => v.written t i

def committed (t : T) : Table (Row t) := (v.store t).overlay (v.flushed t)

def flush : View Row where
  store := v.store
  mine t i := (World.Dirty v.copy t i ∧ i < (v.store t).next) ∨ v.mine t i
  copy := v.copy.flush
  written := v.flushed

end Write

/-! ### What others do -/

/-- One step of the others: rows in the session's locks stay, and rows change along `R` if at all. -/
structure Disturbed (R : Reliance Row) (v v' : View Row) : Prop where
  mine : v'.mine = v.mine
  copy : v'.copy = v.copy
  written : v'.written = v.written
  next : ∀ t, (v.store t).next ≤ (v'.store t).next
  locked : ∀ t i, v.mine t i → (v'.store t).row i = (v.store t).row i
  rows : (∀ t i, (v'.store t).row i = (v.store t).row i) ∨ R v v'.store

def Others (R : Reliance Row) : View Row → View Row → Prop := Relation.ReflTransGen (Disturbed R)

variable {v} {v' : View Row} {R : Reliance Row}

theorem Others.refl : v.Others R v := Relation.ReflTransGen.refl

theorem Others.keeps {P : View Row → Prop} (hstep : ∀ v v', Disturbed R v v' → P v → P v') (h : v.Others R v')
    (hv : P v) : P v' := by
  induction h with
  | refl => exact hv
  | tail _ step ih => exact hstep _ _ step ih

theorem Others.session (h : v.Others R v') : v'.mine = v.mine ∧ v'.copy = v.copy ∧ v'.written = v.written := by
  induction h with
  | refl => exact ⟨rfl, rfl, rfl⟩
  | tail _ step ih => exact ⟨step.mine.trans ih.1, step.copy.trans ih.2.1, step.written.trans ih.2.2⟩

theorem Others.locked (h : v.Others R v') {t : T} {i : Nat} (hi : v.mine t i) :
    (v'.store t).row i = (v.store t).row i := by
  refine (h.keeps (P := fun u => u.mine t i ∧ (u.store t).row i = (v.store t).row i) (fun u u' step hu => ?_) ⟨hi, rfl⟩).2
  exact ⟨step.mine ▸ hu.1, (step.locked t i hu.1).trans hu.2⟩

end View

/-! ### Rows that the session changes -/

section Touched

variable [∀ t, DecidableEq (Row t)] [∀ t, Columns (Row t)] {v : View Row} {t u : T} {i j : Nat}

/-- The session has written the row, or will with its next flush. -/
def View.Touched (v : View Row) (t : T) (i : Nat) : Prop :=
  v.written t i ≠ none ∨ ∃ x, v.copy t i = some x ∧ x.now ≠ x.loaded

namespace View

theorem flushed_of_untouched (h : ¬ v.Touched t i) : v.flushed t i = none := by
  have unwritten : v.written t i = none := by
    by_contra hw
    exact h (.inl hw)
  unfold flushed
  split
  · next x hx =>
    by_cases clean : x.now = x.loaded
    · rwa [if_pos clean]
    · exact absurd (.inr ⟨x, hx, clean⟩) h
  · exact unwritten

theorem not_touched_start {store : (t : T) → Table (Row t)} : ¬ (start store).Touched t i := by
  rintro (h | ⟨x, hx, -⟩)
  · exact h rfl
  · cases hx

theorem Touched.of_load {held : Bool} {ids : List Nat} (h : (v.load held t ids).Touched u j) : v.Touched u j := by
  obtain h | ⟨x, hx, dirty⟩ := h
  · exact .inl h
  · rcases Copies.load_cases hx with hx | ⟨-, rfl, -, a, -, rfl⟩
    · exact .inr ⟨x, hx, dirty⟩
    · exact absurd rfl dirty

theorem Touched.of_assign {a : Row t} (h : (v.assign t i a).Touched u j) : v.Touched u j ∨ u = t ∧ j = i := by
  obtain h | ⟨x, hx, dirty⟩ := h
  · exact .inl (.inl h)
  · by_cases e : u = t
    · subst e
      by_cases hj : j = i
      · exact .inr ⟨rfl, hj⟩
      · simp only [assign, Copies.assign_self, if_neg hj] at hx
        exact .inl (.inr ⟨x, hx, dirty⟩)
    · simp only [assign, Copies.assign_of_ne e] at hx
      exact .inl (.inr ⟨x, hx, dirty⟩)

theorem Touched.of_flush (h : v.flush.Touched u j) : v.Touched u j := by
  obtain h | ⟨x, hx, dirty⟩ := h
  · by_contra untouched
    exact h (flushed_of_untouched untouched)
  · obtain ⟨y, -, rfl⟩ := Copies.flush_eq_some.mp hx
    exact absurd rfl dirty

theorem Touched.of_insert {a : Row t} (h : (v.insert t a).Touched u j) : v.Touched u j ∨ u = t ∧ j = (v.store t).next := by
  by_cases e : u = t
  · subst e
    by_cases hj : j = (v.store u).next
    · exact .inr ⟨rfl, hj⟩
    · simp only [Touched, insert, Function.update_self, Copies.insert_self, if_neg hj] at h
      exact .inl h
  · simp only [Touched, insert, Function.update_of_ne e, Copies.insert_of_ne e] at h
    exact .inl h

theorem row_insert (a : Row t) : ((v.insert t a).store u).row j = (v.store u).row j := by
  by_cases e : u = t
  · subst e
    simp [insert, Table.skip]
  · simp [insert, Function.update_of_ne e]

theorem copy_insert {a : Row t} : (v.insert t a).copy t j =
    if j = (v.store t).next then some ⟨none, a, a, true⟩ else v.copy t j := Copies.insert_self

theorem sees_insert (a : Row t) :
    ((v.insert t a).sees t).row j = if j = (v.store t).next then some a else (v.sees t).row j := by
  simp only [sees, insert, Function.update_self, Table.overlay, Table.skip]
  by_cases hj : j = (v.store t).next
  · simp [hj]
  · by_cases lt : j < (v.store t).next
    · simp [hj, lt, Nat.lt_succ_of_lt lt]
    · have beyond : ¬ j < (v.store t).next + 1 := by omega
      simp [hj, lt, beyond]

theorem known_load (held : Bool) {ids : List Nat} {a : Row t} (hj : j ∈ ids) (hrow : (v.sees t).row j = some a) :
    ∃ x, (v.load held t ids).copy t j = some x := by
  show ∃ x, v.copy.load held t (v.sees t) ids t j = some x
  cases hx : v.copy t j with
  | some x => exact ⟨x, Copies.load_of_some hx⟩
  | none => exact ⟨.ofRow held a, by simp [Copies.load_self, hx, hj, hrow]⟩

theorem store_insert_of_ne (h : u ≠ t) (a : Row t) : (v.insert t a).store u = v.store u := Function.update_of_ne h _ _

theorem written_insert_of_ne (h : u ≠ t) (a : Row t) : (v.insert t a).written u = v.written u := Function.update_of_ne h _ _

theorem copy_assign_of_ne (h : u ≠ t) (a : Row t) : (v.assign t i a).copy u = v.copy u := Copies.assign_of_ne h

theorem sees_insert_of_ne (h : u ≠ t) (a : Row t) : (v.insert t a).sees u = v.sees u := by
  simp [sees, insert, Function.update_of_ne h]

theorem flushed_of_clean (clean : ∀ i x, v.copy t i = some x → x.now = x.loaded) : v.flushed t = v.written t := by
  funext i
  unfold flushed
  split
  · next x hx => rw [if_pos (clean i x hx)]
  · rfl

theorem sees_row (h : v.written t i = none) : (v.sees t).row i = (v.store t).row i := by
  by_cases hi : i < (v.store t).next
  · rw [sees, Table.row_overlay hi, h]
    rfl
  · rw [(v.store t).bounded i (by omega)]
    exact (v.sees t).bounded i (by simpa [sees, Table.overlay] using hi)

end View

end Touched

/-! ### Programs -/

section Safe

variable [∀ t, DecidableEq (Row t)] [∀ t, Columns (Row t)]

/-- Whatever others do between its statements, the program satisfies `K` where it commits. -/
def Tx.Safe (R : Reliance Row) (K : View Row → β → Prop) : View Row → Tx Row Name β → Prop
  | _, .done _ => True
  | v, .select t which next =>
    ∀ v', v.Others R v' →
      Safe R K (v'.load false t (which (v'.sees t)))
        (next ((v'.load false t (which (v'.sees t))).copy.rows t (which (v'.sees t))))
  | v, .count t f next => ∀ v', v.Others R v' → Safe R K v' (next (f (v'.sees t)))
  | v, .lock t which next =>
    ∀ v', v.Others R v' →
      Safe R K (v'.load true t (which (v'.sees t)))
        (next ((v'.load true t (which (v'.sees t))).copy.rows t (which (v'.sees t))))
  | v, .skipLocked t which _ next =>
    ∀ v' ids, v.Others R v' → ids.Sublist (which (v'.sees t)) →
      Safe R K (v'.load true t ids) (next ((v'.load true t ids).copy.rows t ids))
  | v, .advisory _ next => ∀ v', v.Others R v' → Safe R K v' next
  | v, .assign t i a next => Safe R K (v.assign t i a) next
  | v, .flush next => ∀ v', v.Others R v' → Safe R K v'.flush next
  | v, .insert t a next =>
    ∀ v', v.Others R v' → v'.copy t (v'.store t).next = none → Safe R K (v'.insert t a) (next (v'.store t).next)
  | v, .commit b => ∀ v', v.Others R v' → K v' b

variable {R : Reliance Row} {K : View Row → β → Prop} {v v' : View Row} {p : Tx Row Name β}

def Tx.Settled : Tx Row Name β → Prop
  | assign .. => False
  | _ => True

theorem Tx.settled_settle (p : Tx Row Name β) : ∀ c : Copies Row, (p.settle c).2.Settled := by
  induction p with
  | assign t i a next ih => exact fun c => ih (c.assign t i a)
  | _ => exact fun c => trivial

theorem Tx.safe_settle : ∀ {v : View Row}, p.Safe R K v → (p.settle v.copy).2.Safe R K { v with copy := (p.settle v.copy).1 } := by
  induction p with
  | assign t i a next ih => exact fun h => ih (v := View.assign _ t i a) h
  | _ => exact fun h => h

theorem Tx.Safe.others (settled : p.Settled) (h : p.Safe R K v) (others : v.Others R v') : p.Safe R K v' := by
  cases p with
  | done b => trivial
  | assign t i a next => exact settled.elim
  | skipLocked t which limit next => exact fun u ids hu => h u ids (others.trans hu)
  | _ => exact fun u hu => h u (others.trans hu)

theorem Tx.safe_assignAll {t : T} {rows : List (Nat × Row t)} {next : Tx Row Name β} {P : View Row → Prop}
    (step : ∀ v, ∀ r ∈ rows, P v → P (v.assign t r.1 r.2)) (hv : P v) (hnext : ∀ v, P v → next.Safe R K v) :
    (assignAll t rows next).Safe R K v := by
  induction rows generalizing v with
  | nil => exact hnext v hv
  | cons r rows ih =>
    exact ih (fun v s hs => step v s (List.mem_cons_of_mem r hs)) (step v r List.mem_cons_self hv)

/-- A locking read by key: no row, the object that is there, or a new object of a row in the session's lock. -/
theorem Tx.safe_getForUpdate {t : T} {i : Nat} {next : Option (Row t) → Tx Row Name β}
    (hnone : ∀ v', v.Others R v' → (v'.sees t).row i = none → (next none).Safe R K v')
    (hsome : ∀ v' a x, v.Others R v' → (v'.sees t).row i = some a → (v'.load true t [i]).copy t i = some x →
      (next (some x.now)).Safe R K (v'.load true t [i])) :
    (getForUpdate t i next).Safe R K v := by
  intro v' others
  cases ha : (v'.sees t).row i with
  | none =>
    have ids : (v'.sees t).only i = [] := by simp [Table.only, ha]
    have same : v'.load true t [] = v' := by
      simp [View.load, Copies.load_nil]
    rw [ids, same]
    exact hnone v' others ha
  | some a =>
    have ids : (v'.sees t).only i = [i] := by simp [Table.only, ha]
    rw [ids]
    obtain ⟨x, hx⟩ := View.known_load true (List.mem_singleton_self i) ha
    have rows : (v'.load true t [i]).copy.rows t [i] = [(i, x.now)] := by simp [Copies.rows, hx]
    rw [rows]
    exact hsome v' a x others ha hx

theorem Tx.safe_getForUpdate_new {t : T} {i : Nat} {next : Option (Row t) → Tx Row Name β} (hcopy : v.copy t i = none)
    (hwritten : v.written t i = none)
    (hnone : ∀ v', v.Others R v' → (v'.store t).row i = none → (next none).Safe R K v')
    (hsome : ∀ v' a, v.Others R v' → (v'.store t).row i = some a →
      (v'.load true t [i]).copy t i = some (.ofRow true a) → (next (some a)).Safe R K (v'.load true t [i])) :
    (getForUpdate t i next).Safe R K v := by
  have unwritten : ∀ {v' : View Row}, v.Others R v' → v'.written t i = none := fun others => others.session.2.2 ▸ hwritten
  refine safe_getForUpdate (fun v' others ha => hnone v' others ?_) fun v' a x others ha hx => ?_
  · rwa [View.sees_row (unwritten others)] at ha
  · have fresh : (v'.load true t [i]).copy t i = some (.ofRow true a) := by
      have hcopy' : v'.copy t i = none := others.session.2.1 ▸ hcopy
      simp [View.load, Copies.load_self, hcopy', ha]
    rw [fresh, Option.some.injEq] at hx
    subst hx
    rw [View.sees_row (unwritten others)] at ha
    exact hsome v' a others ha fresh

/-- The program run to its end while nobody else is there: the tables that it commits, and its answer. -/
def Tx.alone : View Row → Tx Row Name β → Option (((t : T) → Table (Row t)) × β)
  | _, .done _ => none
  | v, .select t which next =>
    alone (v.load false t (which (v.sees t))) (next ((v.load false t (which (v.sees t))).copy.rows t (which (v.sees t))))
  | v, .count t f next => alone v (next (f (v.sees t)))
  | v, .lock t which next =>
    alone (v.load true t (which (v.sees t))) (next ((v.load true t (which (v.sees t))).copy.rows t (which (v.sees t))))
  | v, .skipLocked t which limit next =>
    alone (v.load true t ((which (v.sees t)).take limit))
      (next ((v.load true t ((which (v.sees t)).take limit)).copy.rows t ((which (v.sees t)).take limit)))
  | v, .advisory _ next => alone v next
  | v, .assign t i a next => alone (v.assign t i a) next
  | v, .flush next => alone v.flush next
  | v, .insert t a next => alone (v.insert t a) (next (v.store t).next)
  | v, .commit b => some (v.committed, b)

end Safe

/-! ### Open transactions -/

namespace World

variable [∀ t, DecidableEq (Row t)] [∀ t, Columns (Row t)] [DecidableEq Name] [Fintype T]
variable {prog : Op → Tx Row Name β} {w w' : World Row Name β Op} {turn : Turn Op} {tid k : Nat}
variable {c d : Conn Row Name β Op} {b : β}

/-- The world as the transaction `tid` knows it. -/
def viewOf (w : World Row Name β Op) (tid : Nat) (c : Conn Row Name β Op) : View Row where
  store := w.store
  mine t i := w.holder t i = some tid ∧ i < (w.store t).next
  copy := c.copy
  written := c.written

/-- What is left of every open program is safe, and locks are those of open transactions. -/
structure Knows (R : Op → Reliance Row) (K : Op → View Row → β → Prop) (w : World Row Name β Op) : Prop where
  safe : ∀ k c, w.conn k = some c → c.rest.Settled ∧ c.rest.Safe (R c.op) (K c.op) (w.viewOf k c)
  closed : ∀ k, w.conn k = none → ∀ t i, w.holder t i ≠ some k

variable {R : Op → Reliance Row} {K : Op → View Row → β → Prop}

theorem knows_start (store : (t : T) → Table (Row t)) : (start store : World Row Name β Op).Knows R K := ⟨nofun, nofun⟩

theorem Knows.commit (h : w.Knows R K) (hc : w.conn tid = some c) (rest : c.rest = .commit b) :
    K c.op (w.viewOf tid c) b := by
  have safe := (h.safe tid c hc).2
  rw [rest] at safe
  exact safe _ .refl

theorem disturbed_of_store {R : Reliance Row} (store : w'.store = w.store)
    (holder : ∀ t i, i < (w.store t).next → (w'.holder t i = some k ↔ w.holder t i = some k)) :
    (w.viewOf k d).Disturbed R (w'.viewOf k d) := by
  refine ⟨funext fun t => funext fun i => propext ?_, rfl, rfl, fun t => ?_, fun t i _ => ?_, .inl fun t i => ?_⟩
  · show (w'.holder t i = some k ∧ i < (w'.store t).next) ↔ (w.holder t i = some k ∧ i < (w.store t).next)
    rw [store]
    exact and_congr_left fun hi => holder t i hi
  all_goals simp only [viewOf, store, le_refl]

theorem holder_close (hk : k ≠ tid) (b : Option β) (t : T) (i : Nat) :
    (w.close tid c b).holder t i = some k ↔ w.holder t i = some k := by
  show (if w.holder t i = some tid then none else w.holder t i) = some k ↔ _
  by_cases mine : w.holder t i = some tid
  · rw [if_pos mine, mine]
    exact ⟨nofun, fun e => absurd (Option.some.inj e).symm hk⟩
  · rw [if_neg mine]

theorem holder_take (hk : k ≠ tid) {t : T} {ids : List Nat} (free : ∀ i ∈ ids, w.Free tid t i) (u : T) (j : Nat) :
    (w.take tid t ids).holder u j = some k ↔ w.holder u j = some k := by
  show (if u = t ∧ j ∈ ids then some tid else w.holder u j) = some k ↔ _
  by_cases taken : u = t ∧ j ∈ ids
  · rw [if_pos taken]
    obtain ⟨rfl, hj⟩ := taken
    refine ⟨fun e => absurd (Option.some.inj e).symm hk, fun e => ?_⟩
    rcases free j hj with none | mine
    · rw [e] at none; cases none
    · exact mine.symm.trans e
  · rw [if_neg taken]

theorem holder_takeDirty (hk : k ≠ tid) (can : w.CanFlush tid c) {t : T} {i : Nat} (hi : i < (w.store t).next) :
    (w.takeDirty tid c).holder t i = some k ↔ w.holder t i = some k := by
  show (if Dirty c.copy t i then some tid else w.holder t i) = some k ↔ _
  by_cases dirty : Dirty c.copy t i
  · rw [if_pos dirty]
    refine ⟨fun e => absurd (Option.some.inj e).symm hk, fun e => ?_⟩
    rcases can t i hi dirty with none | mine
    · rw [e] at none; cases none
    · exact mine.symm.trans e
  · rw [if_neg dirty]

theorem Exec.disturbed {R : Reliance Row} (h : Exec w tid c w') (hs : w.Sound False) (hc : w.conn tid = some c)
    (hk : k ≠ tid) (hrely : ∀ b, c.rest = .commit b → R (w.viewOf k d) (w.committed c)) :
    (w.viewOf k d).Disturbed R (w'.viewOf k d) := by
  cases h with
  | waits => exact disturbed_of_store rfl fun _ _ _ => Iff.rfl
  | left => exact disturbed_of_store rfl fun t i _ => holder_close hk _ t i
  | selected => exact disturbed_of_store rfl fun _ _ _ => Iff.rfl
  | counts => exact disturbed_of_store rfl fun _ _ _ => Iff.rfl
  | locked _ _ _ free => exact disturbed_of_store rfl fun t i _ => holder_take hk free t i
  | skipped _ _ hids =>
    refine disturbed_of_store rfl fun t i _ => holder_take hk (fun j hj => ?_) t i
    rw [hids] at hj
    exact of_decide_eq_true (List.mem_filter.mp (List.mem_of_mem_take hj)).2
  | advised => exact disturbed_of_store rfl fun _ _ _ => Iff.rfl
  | assigned => exact disturbed_of_store rfl fun _ _ _ => Iff.rfl
  | flushes _ can => exact disturbed_of_store rfl fun _ _ hi => holder_takeDirty hk can hi
  | @inserted t a _ _ i hi =>
    subst hi
    have rows : ∀ u j, (Function.update w.store t (w.store t).skip u).row j = (w.store u).row j := by
      intro u j
      by_cases e : u = t
      · subst e; simp [Table.skip]
      · simp [Function.update_of_ne e]
    have next : ∀ u, (w.store u).next ≤ (Function.update w.store t (w.store t).skip u).next := by
      intro u
      by_cases e : u = t
      · subst e; simp [Table.skip]
      · simp [Function.update_of_ne e]
    refine ⟨funext fun u => funext fun j => propext ?_, rfl, rfl, next, fun u j _ => rows u j, .inl rows⟩
    show ((if u = t ∧ j ∈ [(w.store t).next] then some tid else w.holder u j) = some k ∧
      j < (Function.update w.store t (w.store t).skip u).next) ↔ (w.holder u j = some k ∧ j < (w.store u).next)
    by_cases fresh : u = t ∧ j ∈ [(w.store t).next]
    · obtain ⟨rfl, hj⟩ := fresh
      rw [if_pos ⟨rfl, hj⟩, List.mem_singleton.mp hj]
      exact ⟨fun e => absurd (Option.some.inj e.1).symm hk, fun e => absurd e.2 (lt_irrefl _)⟩
    · rw [if_neg fresh]
      refine and_congr_right fun _ => ⟨fun hj => ?_, fun hj => hj.trans_le (next u)⟩
      by_cases e : u = t
      · subst e
        have hj' : j < (w.store u).next + 1 := by simpa [Table.skip] using hj
        have other : j ≠ (w.store u).next := fun e => fresh ⟨rfl, List.mem_singleton.mpr e⟩
        omega
      · rwa [Function.update_of_ne e] at hj
  | @commits b rest can =>
    refine ⟨funext fun t => funext fun i => propext ?_, rfl, rfl, fun t => le_rfl, fun t i hi => ?_, .inr (hrely b rest)⟩
    · exact and_congr_left fun _ => holder_close (w := { w with store := w.committed c }) hk (some b) t i
    · exact committed_row_of_none (flushed_of_taken (hs tid c hc) can hk hi.1)

theorem knows_resume {copy : Copies Row} {rest : Tx Row Name β} {v : View Row} (hv : w.viewOf tid { c with copy } = v)
    (h : rest.Safe (R c.op) (K c.op) v) {x : Conn Row Name β Op} (hx : (w.resume tid c copy rest).conn tid = some x) :
    x.rest.Settled ∧ x.rest.Safe (R x.op) (K x.op) ((w.resume tid c copy rest).viewOf tid x) := by
  rw [resume, conn_putConn_self, Option.some.injEq] at hx
  subst hx hv
  exact ⟨Tx.settled_settle rest copy, Tx.safe_settle h⟩

theorem viewOf_load {held : Bool} {t : T} {ids : List Nat} (holder : T → Nat → Option Nat)
    (hholder : ∀ u j, j < (w.store u).next → (holder u j = some tid ↔ (held = true ∧ u = t ∧ j ∈ ids) ∨ w.holder u j = some tid)) :
    viewOf { w with holder } tid { c with copy := c.copy.load held t (w.view c t) ids } = (w.viewOf tid c).load held t ids := by
  refine congrArg (fun m => View.mk w.store m (c.copy.load held t (w.view c t) ids) c.written) ?_
  refine funext fun u => funext fun j => propext ⟨fun ⟨h, hj⟩ => ?_, ?_⟩
  · rcases (hholder u j hj).mp h with ⟨held, rfl, hmem⟩ | mine
    · exact .inl ⟨held, rfl, hmem, hj⟩
    · exact .inr ⟨mine, hj⟩
  · rintro (⟨held, rfl, hmem, hj⟩ | ⟨mine, hj⟩)
    · exact ⟨(hholder u j hj).mpr (.inl ⟨held, rfl, hmem⟩), hj⟩
    · exact ⟨(hholder u j hj).mpr (.inr mine), hj⟩

theorem Exec.knows (h : Exec w tid c w') (hs : c.Sound False w tid) (hc : w.conn tid = some c)
    (hsafe : c.rest.Settled ∧ c.rest.Safe (R c.op) (K c.op) (w.viewOf tid c)) {x : Conn Row Name β Op}
    (hx : w'.conn tid = some x) : x.rest.Settled ∧ x.rest.Safe (R x.op) (K x.op) (w'.viewOf tid x) := by
  have settled := hsafe.1
  have safe := hsafe.2
  have taken : ∀ (t : T) (ids : List Nat) (u : T) (j : Nat), j < (w.store u).next →
      ((w.take tid t ids).holder u j = some tid ↔ (true = true ∧ u = t ∧ j ∈ ids) ∨ w.holder u j = some tid) := by
    intro t ids u j _
    show (if u = t ∧ j ∈ ids then some tid else w.holder u j) = some tid ↔ _
    by_cases hj : u = t ∧ j ∈ ids
    · rw [if_pos hj]
      exact ⟨fun _ => .inl ⟨rfl, hj⟩, fun _ => rfl⟩
    · rw [if_neg hj]
      exact ⟨.inr, fun h => h.resolve_left fun h => hj h.2⟩
  cases h with
  | waits =>
    rw [hc, Option.some.injEq] at hx
    exact hx ▸ hsafe
  | left => rw [conn_close] at hx; cases hx
  | selected h htbl hcopy =>
    rw [h] at safe
    subst htbl hcopy
    refine knows_resume (viewOf_load w.holder fun u j _ => ?_) (safe _ .refl) hx
    simp
  | counts h =>
    rw [h] at safe
    exact knows_resume (c := c) rfl (safe _ .refl) hx
  | locked h htbl hcopy free =>
    rw [h] at safe
    subst htbl hcopy
    exact knows_resume (w := take ..) (viewOf_load _ (taken _ _)) (safe _ .refl) hx
  | @skipped t which limit next h tbl ids copy htbl hids hcopy =>
    rw [h] at safe
    subst htbl hcopy
    have picked : ids.Sublist (which (w.view c t)) := hids ▸ (List.take_sublist _ _).trans List.filter_sublist
    exact knows_resume (w := take ..) (viewOf_load _ (taken _ _)) (safe _ ids .refl picked) hx
  | @advised _ _ h named =>
    rw [h] at safe
    exact knows_resume (w := { w with named }) (c := c) rfl (safe _ .refl) hx
  | assigned h => rw [h] at settled; exact settled.elim
  | @flushes next h can =>
    rw [h] at safe
    refine knows_resume (w := takeDirty ..) (c := ⟨c.op, c.copy, w.flushed c, c.rest⟩) ?_ (safe _ .refl) hx
    refine congrArg (fun m => View.mk w.store m c.copy.flush (w.flushed c)) ?_
    refine funext fun u => funext fun j => propext ?_
    show ((if Dirty c.copy u j then some tid else w.holder u j) = some tid ∧ j < (w.store u).next) ↔
      (Dirty c.copy u j ∧ j < (w.store u).next) ∨ (w.holder u j = some tid ∧ j < (w.store u).next)
    by_cases dirty : Dirty c.copy u j
    · simp only [true_and, dirty]
      tauto
    · rw [if_neg dirty]
      exact (or_iff_right fun h => dirty h.1).symm
  | @inserted t a next h i hi =>
    rw [h] at safe
    subst hi
    have fresh : c.copy t (w.store t).next = none := by
      by_contra hy
      obtain ⟨y, hy⟩ := Option.ne_none_iff_exists'.mp hy
      exact absurd (hs.bounded t _ y hy) (lt_irrefl _)
    refine knows_resume (c := ⟨c.op, c.copy, Function.update c.written t fun j =>
      if j = (w.store t).next then some a else c.written t j, c.rest⟩) ?_ (safe _ .refl fresh) hx
    refine congrArg (fun m => View.mk (Function.update w.store t (w.store t).skip) m (c.copy.insert t (w.store t).next a)
      (Function.update c.written t fun j => if j = (w.store t).next then some a else c.written t j)) ?_
    refine funext fun u => funext fun j => propext ?_
    show ((if u = t ∧ j ∈ [(w.store t).next] then some tid else w.holder u j) = some tid ∧
        j < (Function.update w.store t (w.store t).skip u).next) ↔
      (u = t ∧ j = (w.store t).next) ∨ (w.holder u j = some tid ∧ j < (w.store u).next)
    simp only [List.mem_singleton]
    by_cases e : u = t
    · subst e
      rw [Function.update_self]
      by_cases hj : j = (w.store u).next
      · simp [hj, Table.skip]
      · have bound : j < (w.store u).skip.next ↔ j < (w.store u).next := by
          show j < (w.store u).next + 1 ↔ _
          omega
        simp [hj, bound]
    · simp [e]
  | commits => rw [conn_close] at hx; cases hx

theorem Exec.holder_of_ne (h : Exec w tid c w') (hk : k ≠ tid) {t : T} {i : Nat} (taken : w'.holder t i = some k) :
    w.holder t i = some k := by
  have own : ∀ {p : Prop} [Decidable p], (if p then some tid else w.holder t i) = some k → w.holder t i = some k := by
    intro p _ h
    by_cases hp : p
    · rw [if_pos hp] at h
      exact absurd (Option.some.inj h).symm hk
    · rwa [if_neg hp] at h
  cases h with
  | left => exact (holder_close hk _ t i).mp taken
  | locked => exact own taken
  | skipped => exact own taken
  | flushes => exact own taken
  | inserted => exact own taken
  | @commits b => exact (holder_close (w := { w with store := w.committed c }) hk (some b) t i).mp taken
  | _ => exact taken

theorem holder_close_self (b : Option β) (t : T) (i : Nat) : (w.close tid c b).holder t i ≠ some tid := by
  show (if w.holder t i = some tid then none else w.holder t i) ≠ some tid
  by_cases mine : w.holder t i = some tid
  · rw [if_pos mine]
    nofun
  · rwa [if_neg mine]

theorem Stepped.closed (h : Stepped prog w turn w') (closed : ∀ k, w.conn k = none → ∀ t i, w.holder t i ≠ some k)
    (hnone : w'.conn k = none) (t : T) (i : Nat) : w'.holder t i ≠ some k := by
  cases h with
  | idle => exact closed k hnone t i
  | @opened tid op _ =>
    by_cases hk : k = tid
    · subst hk
      rw [resume, conn_putConn_self] at hnone
      cases hnone
    · rw [resume, conn_putConn_of_ne hk] at hnone
      exact closed k hnone t i
  | @ran tid c _ hc run =>
    by_cases hk : k = tid
    · subst hk
      cases run with
      | left => exact holder_close_self _ t i
      | @commits b => exact holder_close_self (w := { w with store := w.committed c }) (some b) t i
      | waits => rw [hc] at hnone; cases hnone
      | _ => rw [resume, conn_putConn_self] at hnone; cases hnone
    · rw [run.conn_of_ne hk] at hnone
      exact fun taken => closed k hnone t i (run.holder_of_ne hk taken)
  | @lost tid c _ =>
    by_cases hk : k = tid
    · subst hk
      exact holder_close_self _ t i
    · exact fun taken => closed k ((if_neg hk).symm.trans hnone) t i ((holder_close hk none t i).mp taken)

/-- A step keeps what is known, where a commit is one that the open transactions rely on. -/
theorem Knows.step (hprog : ∀ op, (prog op).Safe (R op) (K op) (View.start w.store)) (hs : w.Sound False)
    (h : w.Knows R K)
    (hrely : ∀ tid c b k d, turn = .next tid → w.conn tid = some c → c.rest = .commit b → w.conn k = some d → k ≠ tid →
      R d.op (w.viewOf k d) (w.committed c)) : (w.step prog turn).Knows R K := by
  have stepped := step_stepped (w := w) prog turn
  generalize w.step prog turn = w' at stepped ⊢
  refine ⟨?_, fun k hnone => stepped.closed h.closed hnone⟩
  cases stepped with
  | idle => exact h.safe
  | @opened tid op hnone =>
    intro k x hx
    by_cases hk : k = tid
    · subst hk
      refine knows_resume (v := View.start w.store) ?_ (hprog op) hx
      refine congrArg (fun m => View.mk w.store m _ _) (funext fun t => funext fun i => ?_)
      exact eq_false fun mine => h.closed k hnone t i mine.1
    · rw [resume, conn_putConn_of_ne hk] at hx
      exact h.safe k x hx
  | @ran tid c _ hc run =>
    intro k x hx
    by_cases hk : k = tid
    · subst hk
      exact run.knows (hs k c hc) hc (h.safe k c hc) hx
    · rw [run.conn_of_ne hk] at hx
      have disturbed := run.disturbed (R := R x.op) hs hc hk fun b rest => hrely tid c b k x rfl hc rest hx hk
      exact ⟨(h.safe k x hx).1, (h.safe k x hx).2.others (h.safe k x hx).1 (.single disturbed)⟩
  | @lost tid c hc =>
    intro k x hx
    by_cases hk : k = tid
    · subst hk
      rw [conn_close] at hx
      cases hx
    · have hx' : w.conn k = some x := (if_neg hk).symm.trans hx
      have disturbed : (w.viewOf k x).Disturbed (R x.op) ((w.close tid c none).viewOf k x) :=
        disturbed_of_store rfl fun t i _ => holder_close hk none t i
      exact ⟨(h.safe k x hx').1, (h.safe k x hx').2.others (h.safe k x hx').1 (.single disturbed)⟩

end World

end SalonBooking.Lib
