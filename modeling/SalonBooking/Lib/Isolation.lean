import SalonBooking.Lib.Transactions

/-!
# What row locks keep apart

An object that was loaded under its row lock stands for the committed row until its transaction ends: that
holds in every world. An object that was loaded by a plain select does so only as long as no transaction
commits a change to its row. `Follows` carries what a program ensures through the run, and `commit_row` says
what a commit does to the tables, so that a property of commits is one of programs.
-/

set_option linter.unusedSectionVars false

namespace SalonBooking.Lib

variable {T : Type} [DecidableEq T] {Row : T → Type} {Name β Op : Type}

/-! ### The identity map -/

namespace Copies

variable {c : Copies Row} {t u : T} {i j : Nat} {x : Copy (Row t)} {held : Bool} {tbl : Table (Row t)} {ids : List Nat}

theorem load_self : c.load held t tbl ids t j =
    (c t j).orElse fun _ => if j ∈ ids then (tbl.row j).map (.ofRow held) else none := by
  rw [load, Function.update_self]

theorem load_of_ne (h : u ≠ t) : c.load held t tbl ids u = c u := Function.update_of_ne h _ _

/-- An object after a load was there before, or is one of the rows that came back. -/
theorem load_cases {x : Copy (Row u)} (h : c.load held t tbl ids u j = some x) :
    c u j = some x ∨ c u j = none ∧ ∃ e : u = t, j ∈ ids ∧ ∃ a, tbl.row j = some a ∧ x = e ▸ .ofRow held a := by
  by_cases e : u = t
  · subst e
    rw [load_self] at h
    cases hx : c u j with
    | some y => rw [hx] at h; exact .inl h
    | none =>
      rw [hx] at h
      by_cases hj : j ∈ ids
      · simp only [Option.orElse_none, if_pos hj, Option.map_eq_some_iff] at h
        obtain ⟨a, ha, rfl⟩ := h
        exact .inr ⟨rfl, rfl, hj, a, ha, rfl⟩
      · simp [hj] at h
  · rw [load_of_ne e] at h
    exact .inl h

theorem load_of_some {x : Copy (Row u)} (h : c u j = some x) : c.load held t tbl ids u j = some x := by
  by_cases e : u = t
  · subst e; rw [load_self, h]; rfl
  · rw [load_of_ne e, h]

theorem assign_self {a : Row t} : c.assign t i a t j = if j = i then (c t j).map fun x => { x with now := a } else c t j := by
  rw [assign, Function.update_self]

theorem assign_of_ne {a : Row t} (h : u ≠ t) : c.assign t i a u = c u := Function.update_of_ne h _ _

/-- The same objects, up to what was assigned to them. -/
def Same (c c' : Copies Row) : Prop :=
  ∀ t i, (c' t i = none → c t i = none) ∧
    ∀ x, c' t i = some x → ∃ y, c t i = some y ∧ x.base = y.base ∧ x.loaded = y.loaded ∧ x.held = y.held

theorem Same.refl (c : Copies Row) : c.Same c := fun _ _ => ⟨id, fun x hx => ⟨x, hx, rfl, rfl, rfl⟩⟩

theorem Same.trans {a b c : Copies Row} (hab : a.Same b) (hbc : b.Same c) : a.Same c := by
  refine fun t i => ⟨fun h => (hab t i).1 ((hbc t i).1 h), fun x hx => ?_⟩
  obtain ⟨y, hy, base, loaded, held⟩ := (hbc t i).2 x hx
  obtain ⟨z, hz, base', loaded', held'⟩ := (hab t i).2 y hy
  exact ⟨z, hz, base.trans base', loaded.trans loaded', held.trans held'⟩

theorem same_assign {a : Row t} : c.Same (c.assign t i a) := by
  intro u j
  by_cases e : u = t
  · subst e
    rw [assign_self]
    by_cases hj : j = i
    · rw [if_pos hj]
      refine ⟨fun h => Option.map_eq_none_iff.mp h, fun x hx => ?_⟩
      obtain ⟨y, hy, rfl⟩ := Option.map_eq_some_iff.mp hx
      exact ⟨y, hy, rfl, rfl, rfl⟩
    · rw [if_neg hj]
      exact ⟨id, fun x hx => ⟨x, hx, rfl, rfl, rfl⟩⟩
  · rw [assign_of_ne e]
    exact ⟨id, fun x hx => ⟨x, hx, rfl, rfl, rfl⟩⟩

theorem same_settle (p : Tx Row Name β) : ∀ c : Copies Row, c.Same (p.settle c).1 := by
  induction p with
  | assign t i a next ih => exact fun c => same_assign.trans (ih (c.assign t i a))
  | _ => exact fun c => .refl c

theorem insert_self {a : Row t} : c.insert t i a t j = if j = i then some ⟨none, a, a, true⟩ else c t j := by
  rw [insert, Function.update_self]

theorem insert_of_ne {a : Row t} (h : u ≠ t) : c.insert t i a u = c u := Function.update_of_ne h _ _

theorem insert_cases {a : Row t} {x : Copy (Row u)} (h : c.insert t i a u j = some x) :
    c u j = some x ∨ ∃ e : u = t, j = i ∧ x = e ▸ ⟨none, a, a, true⟩ := by
  by_cases e : u = t
  · subst e
    rw [insert_self] at h
    by_cases hj : j = i
    · rw [if_pos hj] at h
      exact .inr ⟨rfl, hj, (Option.some.inj h).symm⟩
    · rw [if_neg hj] at h
      exact .inl h
  · rw [insert_of_ne e] at h
    exact .inl h

theorem flush_eq_some {x : Copy (Row u)} : c.flush u j = some x ↔ ∃ y, c u j = some y ∧ x = { y with loaded := y.now } := by
  simp [flush, eq_comm]

/-- Every object has moved along `g` from the row that it was loaded from. -/
def Along (g : (t : T) → Nat → Row t → Row t → Prop) (c : Copies Row) : Prop :=
  ∀ t i x b, c t i = some x → x.base = some b → g t i b x.loaded ∧ g t i b x.now

section Along

variable {g : (t : T) → Nat → Row t → Row t → Prop}

theorem along_empty : Along g (fun _ _ => none : Copies Row) := fun _ _ _ _ h => by cases h

theorem Along.load (hc : Along g c) (hg : ∀ t i a, g t i a a) (held : Bool) (tbl : Table (Row t)) (ids : List Nat) :
    Along g (c.load held t tbl ids) := by
  intro u j x b hx hbase
  rcases load_cases hx with hx | ⟨-, rfl, -, a, -, rfl⟩
  · exact hc u j x b hx hbase
  · obtain rfl := Option.some.inj hbase
    exact ⟨hg u j a, hg u j a⟩

theorem Along.assign (hc : Along g c) {a : Row t} (h : ∀ x b, c t i = some x → x.base = some b → g t i b a) :
    Along g (c.assign t i a) := by
  intro u j x b hx hbase
  by_cases e : u = t
  · subst e
    rw [assign_self] at hx
    split at hx
    · next hj =>
      subst hj
      obtain ⟨y, hy, rfl⟩ := Option.map_eq_some_iff.mp hx
      exact ⟨(hc u j y b hy hbase).1, h y b hy hbase⟩
    · exact hc u j x b hx hbase
  · rw [assign_of_ne e] at hx
    exact hc u j x b hx hbase

theorem Along.flush (hc : Along g c) : Along g c.flush := by
  intro t i x b hx hbase
  obtain ⟨y, hy, rfl⟩ := flush_eq_some.mp hx
  have along := hc t i y b hy hbase
  exact ⟨along.2, along.2⟩

theorem Along.insert (hc : Along g c) {a : Row t} : Along g (c.insert t i a) := by
  intro u j x b hx hbase
  rcases insert_cases hx with hx | ⟨rfl, rfl, rfl⟩
  · exact hc u j x b hx hbase
  · cases hbase

theorem Along.settle {c : Copies Row} (hc : Along g c) {p : Tx Row Name β} (hp : p.Writes g c) :
    (p.settle c).2.Writes g (p.settle c).1 ∧ Along g (p.settle c).1 := by
  induction p generalizing c with
  | assign t i a next ih => exact ih (hc.assign hp.1) hp.2
  | _ => exact ⟨hp, hc⟩

end Along

end Copies

/-! ### Open transactions -/

section Sound

variable [∀ t, DecidableEq (Row t)] [∀ t, Columns (Row t)] [DecidableEq Name] [Fintype T]

/-- What holds of an open transaction: it writes rows that it has loaded and locked, and its objects are current
when they were loaded under their lock. With `U` all of them are. -/
structure Conn.Sound (U : Prop) (w : World Row Name β Op) (tid : Nat) (c : Conn Row Name β Op) : Prop where
  bounded : ∀ t i x, c.copy t i = some x → i < (w.store t).next
  known : ∀ t i, c.copy t i = none → c.written t i = none
  locked : ∀ t i a, c.written t i = some a → w.holder t i = some tid
  held : ∀ t i x, c.copy t i = some x → x.held = true → w.holder t i = some tid
  current : ∀ t i x, c.copy t i = some x → x.held = true ∨ U → x.Current ((w.store t).row i) (c.written t i)

/-- A step of another transaction leaves alone what this one relies on. -/
structure Conn.Spared (U : Prop) (w w' : World Row Name β Op) (k : Nat) (d : Conn Row Name β Op) : Prop where
  next : ∀ t, (w.store t).next ≤ (w'.store t).next
  holder : ∀ t i x, d.copy t i = some x → w.holder t i = some k → w'.holder t i = some k
  row : ∀ t i x, d.copy t i = some x → x.held = true ∨ U → (w'.store t).row i = (w.store t).row i

namespace Conn

variable {U : Prop} {w w' : World Row Name β Op} {tid k : Nat} {c d : Conn Row Name β Op} {t : T} {i : Nat}

theorem Sound.spared (h : d.Sound U w k) (hs : d.Spared U w w' k) : d.Sound U w' k where
  bounded t i x hx := (h.bounded t i x hx).trans_le (hs.next t)
  known := h.known
  locked t i a ha := by
    cases hx : d.copy t i with
    | none => rw [h.known t i hx] at ha; cases ha
    | some x => exact hs.holder t i x hx (h.locked t i a ha)
  held t i x hx hheld := hs.holder t i x hx (h.held t i x hx hheld)
  current t i x hx hu := by rw [hs.row t i x hx hu]; exact h.current t i x hx hu

theorem Spared.of_store (hstore : w'.store = w.store)
    (hholder : ∀ t i, w.holder t i = some k → w'.holder t i = some k) : d.Spared U w w' k :=
  ⟨fun t => by rw [hstore], fun t i _ _ => hholder t i, fun t i _ _ _ => by rw [hstore]⟩

end Conn

namespace World

variable {U : Prop} {w w' : World Row Name β Op} {tid k : Nat} {c d : Conn Row Name β Op} {t : T} {i : Nat}

def Sound (U : Prop) (w : World Row Name β Op) : Prop := ∀ k d, w.conn k = some d → d.Sound U w k

theorem sound_start (store : (t : T) → Table (Row t)) : (start store : World Row Name β Op).Sound U := nofun

@[simp] theorem store_putConn (x : Option (Conn Row Name β Op)) : (w.putConn tid x).store = w.store := rfl

@[simp] theorem holder_putConn (x : Option (Conn Row Name β Op)) : (w.putConn tid x).holder = w.holder := rfl

@[simp] theorem conn_putConn_self (x : Option (Conn Row Name β Op)) : (w.putConn tid x).conn tid = x := if_pos rfl

theorem conn_putConn_of_ne (hk : k ≠ tid) (x : Option (Conn Row Name β Op)) : (w.putConn tid x).conn k = w.conn k :=
  if_neg hk

theorem flushed_of_taken (h : c.Sound U w tid) (can : w.CanFlush tid c) (hk : k ≠ tid) (taken : w.holder t i = some k) :
    w.flushed c t i = none := by
  have unwritten : c.written t i = none := by
    cases hw : c.written t i with
    | none => rfl
    | some a =>
      have mine := h.locked t i a hw
      rw [taken, Option.some.injEq] at mine
      exact absurd mine hk
  unfold flushed
  split
  · next x hx =>
    split
    · exact unwritten
    · next dirty =>
      have free := can t i (h.bounded t i x hx) (by simp [Dirty, hx, dirty])
      rcases free with none | mine
      · rw [taken] at none; cases none
      · rw [taken, Option.some.injEq] at mine; exact absurd mine hk
  · exact unwritten

theorem committed_row_of_none (hw : w.flushed c t i = none) : (w.committed c t).row i = (w.store t).row i := by
  unfold committed
  by_cases hi : i < (w.store t).next
  · rw [Table.row_overlay hi, hw]; rfl
  · rw [(w.store t).bounded i (by omega)]
    exact Table.bounded _ i (by simpa [Table.overlay] using hi)

/-- What the commit of a transaction does to a row: a row that it has no object for stays, and where its object
is current the row takes the values of the object. -/
theorem committed_row (h : c.Sound U w tid) :
    (c.copy t i = none → (w.committed c t).row i = (w.store t).row i) ∧
      ∀ x, c.copy t i = some x → x.Current ((w.store t).row i) (c.written t i) →
        (w.committed c t).row i = some x.now := by
  refine ⟨fun hx => committed_row_of_none ?_, fun x hx cur => ?_⟩
  · simp only [flushed, hx, h.known t i hx]
  · have hi := h.bounded t i x hx
    unfold committed
    rw [Table.row_overlay hi]
    by_cases dirty : x.now = x.loaded
    · simp only [flushed, hx, if_pos dirty]
      rw [cur.2, dirty]
    · have seen : (w.view c t).row i = some x.loaded := by rw [view, Table.row_overlay hi, cur.2]
      simp [flushed, hx, if_neg dirty, seen]

/-! ### One step -/

/-- No transaction that stays open has loaded a row that the step changes. -/
def Undisturbed (prog : Op → Tx Row Name β) (w : World Row Name β Op) (turn : Turn Op) : Prop :=
  ∀ t i, ((w.step prog turn).store t).row i ≠ (w.store t).row i →
    ∀ k d, turn ≠ .next k → w.conn k = some d → d.copy t i = none

/-- What the next statement of a transaction can do. -/
inductive Exec (w : World Row Name β Op) (tid : Nat) (c : Conn Row Name β Op) : World Row Name β Op → Prop
  | waits : Exec w tid c w
  | left {b} (h : c.rest = .done b) : Exec w tid c (w.close tid c (some b))
  | selected {t which next} (h : c.rest = .select t which next) {tbl copy} (htbl : tbl = w.view c t)
      (hcopy : copy = c.copy.load false t tbl (which tbl)) :
      Exec w tid c (w.resume tid c copy (next (copy.rows t (which tbl))))
  | counts {t f next} (h : c.rest = .count t f next) : Exec w tid c (w.resume tid c c.copy (next (f (w.view c t))))
  | locked {t which next} (h : c.rest = .lock t which next) {tbl copy} (htbl : tbl = w.view c t)
      (hcopy : copy = c.copy.load true t tbl (which tbl)) (free : ∀ i ∈ which tbl, w.Free tid t i) :
      Exec w tid c ((w.take tid t (which tbl)).resume tid c copy (next (copy.rows t (which tbl))))
  | skipped {t which limit next} (h : c.rest = .skipLocked t which limit next) {tbl ids copy} (htbl : tbl = w.view c t)
      (hids : ids = ((which tbl).filter fun i => w.Free tid t i).take limit)
      (hcopy : copy = c.copy.load true t tbl ids) :
      Exec w tid c ((w.take tid t ids).resume tid c copy (next (copy.rows t ids)))
  | advised {n next} (h : c.rest = .advisory n next) {named} :
      Exec w tid c ({ w with named }.resume tid c c.copy next)
  | assigned {t i a next} (h : c.rest = .assign t i a next) :
      Exec w tid c (w.resume tid c (c.copy.assign t i a) next)
  | flushes {next} (h : c.rest = .flush next) (can : w.CanFlush tid c) :
      Exec w tid c ((w.takeDirty tid c).resume tid { c with written := w.flushed c } c.copy.flush next)
  | inserted {t a next} (h : c.rest = .insert t a next) {i} (hi : i = (w.store t).next) :
      Exec w tid c (resume { w.take tid t [i] with store := Function.update w.store t (w.store t).skip } tid
        { c with written := Function.update c.written t fun j => if j = i then some a else c.written t j }
        (c.copy.insert t i a) (next i))
  | commits {b} (h : c.rest = .commit b) (can : w.CanFlush tid c) :
      Exec w tid c ({ w with store := w.committed c }.close tid c (some b))

theorem exec_exec : Exec w tid c (w.exec tid c) := by
  unfold exec
  cases h : c.rest with
  | done b => exact .left h
  | select t which next => exact .selected h rfl rfl
  | count t f next => exact .counts h
  | lock t which next =>
    dsimp only
    split
    · next free => exact .locked h rfl rfl free
    · exact .waits
  | skipLocked t which limit next => exact .skipped h rfl rfl rfl
  | advisory n next =>
    dsimp only
    split
    · exact .advised h
    · exact .waits
  | assign t i a next => exact .assigned h
  | flush next =>
    dsimp only
    split
    · next can => exact .flushes h can
    · exact .waits
  | insert t a next => exact .inserted h rfl
  | commit b =>
    dsimp only
    split
    · next can => exact .commits h can
    · exact .waits

theorem Exec.conn_of_ne (h : Exec w tid c w') (hk : k ≠ tid) : w'.conn k = w.conn k := by
  cases h <;> first | rfl | exact if_neg hk

/-- A step opens a transaction, lets one send its next statement, or loses one. -/
inductive Stepped (prog : Op → Tx Row Name β) (w : World Row Name β Op) : Turn Op → World Row Name β Op → Prop
  | idle {turn : Turn Op} : Stepped prog w turn w
  | opened {tid : Nat} {op : Op} (h : w.conn tid = none) :
      Stepped prog w (.begin tid op)
        (w.resume tid ⟨op, fun _ _ => none, fun _ _ => none, prog op⟩ (fun _ _ => none) (prog op))
  | ran {tid : Nat} {c : Conn Row Name β Op} {w' : World Row Name β Op} (h : w.conn tid = some c)
      (run : Exec w tid c w') : Stepped prog w (.next tid) w'
  | lost {tid : Nat} {c : Conn Row Name β Op} (h : w.conn tid = some c) : Stepped prog w (.abort tid) (w.close tid c none)

theorem step_stepped (prog : Op → Tx Row Name β) (turn : Turn Op) : Stepped prog w turn (w.step prog turn) := by
  cases turn with
  | begin tid op =>
    cases h : w.conn tid with
    | none => simp only [step, h]; exact .opened h
    | some c => simp only [step, h]; exact .idle
  | next tid =>
    cases h : w.conn tid with
    | none => simp only [step, h]; exact .idle
    | some c => simp only [step, h]; exact .ran h exec_exec
  | abort tid =>
    cases h : w.conn tid with
    | none => simp only [step, h]; exact .idle
    | some c => simp only [step, h]; exact .lost h

/-- A row in the lock of another transaction is not touched, and neither is one that a commit would disturb. -/
theorem Exec.spared (h : Exec w tid c w') (hs : w.Sound U) (hc : w.conn tid = some c) (hk : k ≠ tid)
    (hd : w.conn k = some d)
    (calm : U → ∀ t i, (w'.store t).row i ≠ (w.store t).row i → d.copy t i = none) : d.Spared U w w' k := by
  have keep : ∀ t ids, (∀ i ∈ ids, w.Free tid t i) → ∀ u j, w.holder u j = some k → (w.take tid t ids).holder u j = some k := by
    intro t ids free u j taken
    refine (if_neg ?_).trans taken
    rintro ⟨rfl, hj⟩
    rcases free j hj with none | mine
    · rw [taken] at none; cases none
    · rw [taken, Option.some.injEq] at mine; exact hk mine
  have closed : ∀ (v : World Row Name β Op) b, v.holder = w.holder → ∀ u j, w.holder u j = some k →
      (v.close tid c b).holder u j = some k := by
    intro v b same u j taken
    refine (if_neg ?_).trans (same ▸ taken)
    rw [same, taken, Option.some.injEq]
    exact hk
  cases h with
  | waits => exact .of_store rfl fun _ _ => id
  | left => exact .of_store rfl (closed w _ rfl)
  | selected => exact .of_store rfl fun _ _ => id
  | counts => exact .of_store rfl fun _ _ => id
  | locked _ _ _ free => exact .of_store rfl (keep _ _ free)
  | skipped _ htbl hids =>
    refine .of_store rfl (keep _ _ fun i hi => ?_)
    rw [hids] at hi
    exact of_decide_eq_true (List.mem_filter.mp (List.mem_of_mem_take hi)).2
  | advised => exact .of_store rfl fun _ _ => id
  | assigned => exact .of_store rfl fun _ _ => id
  | flushes _ can =>
    refine .of_store rfl fun t i taken => ?_
    have clean : ¬ Dirty c.copy t i := by
      intro dirty
      obtain ⟨x, hx, -⟩ := (Option.any_eq_true ..).mp dirty
      rcases can t i ((hs tid c hc).bounded t i x hx) dirty with none | mine
      · rw [taken] at none; cases none
      · rw [taken, Option.some.injEq] at mine; exact hk mine
    exact (if_neg clean).trans taken
  | @inserted t a next _ i hi =>
    subst hi
    have fresh : ∀ u, ((Function.update w.store t (w.store t).skip u).row = (w.store u).row) ∧
        (w.store u).next ≤ (Function.update w.store t (w.store t).skip u).next := by
      intro u
      by_cases e : u = t
      · subst e; simp [Table.skip]
      · simp [Function.update_of_ne e]
    refine ⟨fun u => (fresh u).2, fun u j x hx taken => ?_, fun u j x _ _ => congrFun (fresh u).1 j⟩
    refine (if_neg ?_).trans taken
    rintro ⟨rfl, hj⟩
    exact absurd ((hs k d hd).bounded u j x hx) (by rw [List.mem_singleton.mp hj]; omega)
  | @commits b _ can =>
    refine ⟨fun t => le_rfl, fun t i x _ => closed { w with store := w.committed c } (some b) rfl t i,
      fun t i x hx hu => ?_⟩
    rcases hu with held | u
    · exact committed_row_of_none (flushed_of_taken (hs tid c hc) can hk ((hs k d hd).held t i x hx held))
    · by_contra changed
      rw [calm u t i changed] at hx
      cases hx

/-- What a transaction relies on, for the objects before the assignments that follow. -/
theorem sound_resume {copy : Copies Row} {rest : Tx Row Name β} (h : Conn.Sound U w tid { c with copy })
    {x : Conn Row Name β Op} (hx : (w.resume tid c copy rest).conn tid = some x) : x.Sound U (w.resume tid c copy rest) tid := by
  rw [resume, conn_putConn_self, Option.some.injEq] at hx
  subst hx
  have same := Copies.same_settle rest copy
  refine ⟨fun t i x hx => ?_, fun t i hx => h.known t i ((same t i).1 hx), h.locked, fun t i x hx held => ?_,
    fun t i x hx hu => ?_⟩ <;> obtain ⟨y, hy, base, loaded, held'⟩ := (same t i).2 x hx
  · exact h.bounded t i y hy
  · exact h.held t i y hy (held' ▸ held)
  · have cur := h.current t i y hy (held' ▸ hu)
    exact ⟨base.trans cur.1, cur.2.trans (congrArg some loaded.symm)⟩

theorem conn_close {b : Option β} : (w.close tid c b).conn tid = none := if_pos rfl

theorem sound_load (h : c.Sound U w tid) (held : Bool) {ids : List Nat} {tbl : Table (Row t)} (htbl : tbl = w.view c t)
    {holder : T → Nat → Option Nat} (kept : ∀ u j, w.holder u j = some tid → holder u j = some tid)
    (taken : held = true → ∀ j ∈ ids, holder t j = some tid) :
    Conn.Sound U { w with holder } tid ⟨c.op, c.copy.load held t tbl ids, c.written, c.rest⟩ := by
  subst htbl
  have new : ∀ u j x, c.copy.load held t (w.view c t) ids u j = some x → c.copy u j = some x ∨
      c.written u j = none ∧ ∃ e : u = t, j ∈ ids ∧ ∃ a, (w.store t).row j = some a ∧ x = e ▸ .ofRow held a := by
    intro u j x hx
    refine (Copies.load_cases hx).imp_right ?_
    rintro ⟨hnone, rfl, hj, a, ha, rfl⟩
    have unwritten := h.known u j hnone
    have hj' : j < (w.store u).next := Table.lt_next (t := w.view c u) ha
    rw [view, Table.row_overlay hj', unwritten] at ha
    exact ⟨unwritten, rfl, hj, a, ha, rfl⟩
  refine ⟨fun u j x hx => ?_, fun u j hx => h.known u j ?_, fun u j a ha => kept u j (h.locked u j a ha),
    fun u j x hx hheld => ?_, fun u j x hx hu => ?_⟩
  · rcases new u j x hx with hx | ⟨-, rfl, -, a, ha, -⟩
    · exact h.bounded u j x hx
    · exact Table.lt_next ha
  · by_contra hsome
    obtain ⟨y, hy⟩ := Option.ne_none_iff_exists'.mp hsome
    exact absurd ((Copies.load_of_some hy).symm.trans hx) nofun
  · rcases new u j x hx with hx | ⟨-, rfl, hj, a, -, rfl⟩
    · exact kept u j (h.held u j x hx hheld)
    · exact taken hheld j hj
  · rcases new u j x hx with hx | ⟨hw, rfl, -, a, ha, rfl⟩
    · exact h.current u j x hx hu
    · exact ⟨ha.symm, by rw [hw]; exact ha⟩

theorem sound_flush (h : c.Sound U w tid) :
    Conn.Sound U (w.takeDirty tid c) tid ⟨c.op, c.copy.flush, w.flushed c, c.rest⟩ := by
  have mine : ∀ t i, w.holder t i = some tid → (w.takeDirty tid c).holder t i = some tid := by
    intro t i ht
    by_cases dirty : Dirty c.copy t i
    · exact if_pos dirty
    · exact (if_neg dirty).trans ht
  refine ⟨fun t i x hx => ?_, fun t i hx => ?_, fun t i a ha => ?_, fun t i x hx held => ?_, fun t i x hx hu => ?_⟩
  · obtain ⟨y, hy, rfl⟩ := Copies.flush_eq_some.mp hx
    exact h.bounded t i y hy
  · have hx' : c.copy t i = none := Option.map_eq_none_iff.mp hx
    simp only [flushed, hx', h.known t i hx']
  · cases hx : c.copy t i with
    | none => simp only [flushed, hx, h.known t i hx] at ha; cases ha
    | some x =>
      by_cases clean : x.now = x.loaded
      · simp only [flushed, hx, if_pos clean] at ha
        exact mine t i (h.locked t i a ha)
      · exact if_pos (by simp [Dirty, hx, clean])
  · obtain ⟨y, hy, rfl⟩ := Copies.flush_eq_some.mp hx
    exact mine t i (h.held t i y hy held)
  · obtain ⟨y, hy, rfl⟩ := Copies.flush_eq_some.mp hx
    have cur := h.current t i y hy hu
    refine ⟨cur.1, ?_⟩
    have written := (committed_row h).2 y hy cur
    have hi := h.bounded t i y hy
    rwa [committed, Table.row_overlay hi] at written

theorem sound_insert (h : c.Sound U w tid) (t : T) (a : Row t) {i : Nat} (hi : i = (w.store t).next) :
    Conn.Sound U { w.take tid t [i] with store := Function.update w.store t (w.store t).skip } tid
      ⟨c.op, c.copy.insert t i a, Function.update c.written t fun j => if j = i then some a else c.written t j, c.rest⟩ := by
  subst hi
  have row : ∀ u j, ((Function.update w.store t (w.store t).skip u).row j) = (w.store u).row j := by
    intro u j
    by_cases e : u = t
    · subst e; simp [Table.skip]
    · simp [Function.update_of_ne e]
  have kept : ∀ u j, w.holder u j = some tid → (w.take tid t [(w.store t).next]).holder u j = some tid := by
    intro u j hu
    unfold take
    dsimp only
    split
    · rfl
    · exact hu
  have old : ∀ u j x, c.copy u j = some x → ∀ b, (Function.update c.written t fun j =>
      if j = (w.store t).next then some b else c.written t j) u j = c.written u j := by
    intro u j x hx b
    by_cases e : u = t
    · subst e
      rw [Function.update_self, if_neg (h.bounded u j x hx).ne]
    · rw [Function.update_of_ne e]
  refine ⟨fun u j x hx => ?_, fun u j hx => ?_, fun u j b hb => ?_, fun u j x hx held => ?_, fun u j x hx hu => ?_⟩
  · have grown : (w.store u).next ≤ (Function.update w.store t (w.store t).skip u).next := by
      by_cases e : u = t
      · subst e; simp [Table.skip]
      · simp [Function.update_of_ne e]
    rcases Copies.insert_cases hx with hx | ⟨rfl, rfl, -⟩
    · exact (h.bounded u j x hx).trans_le grown
    · simp [Table.skip]
  · dsimp only at hx ⊢
    by_cases e : u = t
    · subst e
      by_cases hj : j = (w.store u).next
      · rw [Copies.insert_self, if_pos hj] at hx; cases hx
      · rw [Copies.insert_self, if_neg hj] at hx
        rw [Function.update_self, if_neg hj]
        exact h.known u j hx
    · rw [Copies.insert_of_ne e] at hx
      rw [Function.update_of_ne e]
      exact h.known u j hx
  · dsimp only at hb
    by_cases e : u = t
    · subst e
      rw [Function.update_self] at hb
      by_cases hj : j = (w.store u).next
      · exact if_pos ⟨rfl, List.mem_singleton.mpr hj⟩
      · rw [if_neg hj] at hb
        exact kept u j (h.locked u j b hb)
    · rw [Function.update_of_ne e] at hb
      exact kept u j (h.locked u j b hb)
  · rcases Copies.insert_cases hx with hx | ⟨rfl, hj, -⟩
    · exact kept u j (h.held u j x hx held)
    · exact if_pos ⟨rfl, List.mem_singleton.mpr hj⟩
  · dsimp only at hx ⊢
    rw [row]
    rcases Copies.insert_cases hx with hx | ⟨rfl, rfl, rfl⟩
    · rw [old u j x hx]
      exact h.current u j x hx hu
    · refine ⟨((w.store u).bounded _ le_rfl).symm, ?_⟩
      simp

theorem Exec.sound_self (h : Exec w tid c w') (hs : c.Sound U w tid) (hc : w.conn tid = some c)
    {x : Conn Row Name β Op} (hx : w'.conn tid = some x) : x.Sound U w' tid := by
  have same : ∀ t ids u j, w.holder u j = some tid → (w.take tid t ids).holder u j = some tid := by
    intro t ids u j hu
    unfold take
    dsimp only
    split
    · rfl
    · exact hu
  cases h with
  | waits =>
    rw [hc, Option.some.injEq] at hx
    exact hx ▸ hs
  | left => rw [conn_close] at hx; cases hx
  | selected _ htbl hcopy =>
    subst hcopy
    exact sound_resume (sound_load hs false htbl (fun _ _ => id) nofun) hx
  | counts => exact sound_resume ⟨hs.bounded, hs.known, hs.locked, hs.held, hs.current⟩ hx
  | locked _ htbl hcopy =>
    subst hcopy
    exact sound_resume (w := take ..) (sound_load hs true htbl (same _ _) fun _ j hj => if_pos ⟨rfl, hj⟩) hx
  | skipped _ htbl _ hcopy =>
    subst hcopy
    exact sound_resume (w := take ..) (sound_load hs true htbl (same _ _) fun _ j hj => if_pos ⟨rfl, hj⟩) hx
  | @advised _ _ _ named =>
    exact sound_resume (w := { w with named }) ⟨hs.bounded, hs.known, hs.locked, hs.held, hs.current⟩ hx
  | @assigned t i a =>
    have moved : Conn.Sound U w tid { c with copy := c.copy.assign t i a } := by
      refine ⟨fun u j x hx => ?_, fun u j hx => ?_, hs.locked, fun u j x hx held => ?_, fun u j x hx hu => ?_⟩
      · obtain ⟨y, hy, -⟩ := (Copies.same_assign u j).2 x hx
        exact hs.bounded u j y hy
      · exact hs.known u j ((Copies.same_assign u j).1 hx)
      · obtain ⟨y, hy, -, -, held'⟩ := (Copies.same_assign u j).2 x hx
        exact hs.held u j y hy (held' ▸ held)
      · obtain ⟨y, hy, base, loaded, held'⟩ := (Copies.same_assign u j).2 x hx
        have cur := hs.current u j y hy (held' ▸ hu)
        exact ⟨base.trans cur.1, cur.2.trans (congrArg some loaded.symm)⟩
    exact sound_resume moved hx
  | flushes => exact sound_resume (w := takeDirty ..) (sound_flush hs) hx
  | inserted _ hi => exact sound_resume (sound_insert hs _ _ hi) hx
  | commits => rw [conn_close] at hx; cases hx

theorem Sound.step {prog : Op → Tx Row Name β} {turn : Turn Op} (hs : w.Sound U)
    (calm : U → Undisturbed prog w turn) : (w.step prog turn).Sound U := by
  have calm' := calm
  unfold Undisturbed at calm'
  have stepped := step_stepped (w := w) prog turn
  generalize w.step prog turn = w' at stepped calm' ⊢
  cases stepped with
  | idle => exact hs
  | @opened tid op h =>
    intro k d hd
    by_cases hk : k = tid
    · subst hk
      exact sound_resume ⟨nofun, fun _ _ _ => rfl, nofun, nofun, nofun⟩ hd
    · rw [resume, conn_putConn_of_ne hk] at hd
      exact (hs k d hd).spared (.of_store rfl fun _ _ => id)
  | @ran tid c _ h run =>
    intro k d hd
    by_cases hk : k = tid
    · subst hk
      exact run.sound_self (hs k c h) h hd
    · rw [run.conn_of_ne hk] at hd
      refine (hs k d hd).spared (run.spared hs h hk hd fun u t i changed => calm' u t i changed k d ?_ hd)
      rintro ⟨⟩
      exact hk rfl
  | @lost tid c h =>
    intro k d hd
    by_cases hk : k = tid
    · subst hk
      rw [conn_close] at hd
      cases hd
    · have hd' : w.conn k = some d := (if_neg hk).symm.trans hd
      refine (hs k d hd').spared (.of_store rfl fun t i taken => (if_neg ?_).trans taken)
      rw [taken, Option.some.injEq]
      exact hk

/-- What a statement sees agrees with the objects that were loaded under their locks. -/
theorem sees_view (h : c.Sound U w tid) (t : T) : c.copy.Sees t (w.view c t) := by
  intro i x hx held
  rw [view, Table.row_overlay (h.bounded t i x hx)]
  exact (h.current t i x hx (.inl held)).2

/-! ### Programs and what they commit -/

section Follows

variable {D Q : Op → Copies Row → β → Prop} {prog : Op → Tx Row Name β} {turn : Turn Op}

/-- What is left of every open program ensures what its operation ensures. -/
def Follows (D Q : Op → Copies Row → β → Prop) (w : World Row Name β Op) : Prop :=
  ∀ k c, w.conn k = some c → c.rest.Ensures (D c.op) (Q c.op) c.copy

theorem follows_start (store : (t : T) → Table (Row t)) : (start store : World Row Name β Op).Follows D Q := nofun

theorem ensures_resume {copy : Copies Row} {rest : Tx Row Name β} (h : rest.Ensures (D c.op) (Q c.op) copy)
    {x : Conn Row Name β Op} (hx : (w.resume tid c copy rest).conn tid = some x) :
    x.rest.Ensures (D x.op) (Q x.op) x.copy := by
  rw [resume, conn_putConn_self, Option.some.injEq] at hx
  subst hx
  exact Tx.ensures_settle.mpr h

theorem Exec.follows (h : Exec w tid c w') (hs : c.Sound U w tid) (hf : c.rest.Ensures (D c.op) (Q c.op) c.copy)
    (hc : w.conn tid = some c) {x : Conn Row Name β Op} (hx : w'.conn tid = some x) :
    x.rest.Ensures (D x.op) (Q x.op) x.copy := by
  cases h with
  | waits =>
    rw [hc, Option.some.injEq] at hx
    exact hx ▸ hf
  | left => rw [conn_close] at hx; cases hx
  | selected h htbl hcopy =>
    rw [h] at hf
    subst htbl hcopy
    exact ensures_resume (hf _ (sees_view hs _)) hx
  | counts h =>
    rw [h] at hf
    refine ensures_resume ?_ hx
    exact hf _ (sees_view hs _)
  | locked h htbl hcopy =>
    rw [h] at hf
    subst htbl hcopy
    exact ensures_resume (hf _ (sees_view hs _)) hx
  | skipped h htbl hids hcopy =>
    rw [h] at hf
    subst htbl hcopy
    refine ensures_resume (hf _ _ (sees_view hs _) ?_) hx
    rw [hids]
    exact (List.take_sublist _ _).trans List.filter_sublist
  | advised h =>
    rw [h] at hf
    refine ensures_resume ?_ hx
    exact hf
  | assigned h =>
    rw [h] at hf
    refine ensures_resume ?_ hx
    exact hf
  | flushes h =>
    rw [h] at hf
    refine ensures_resume ?_ hx
    exact hf
  | @inserted t _ _ h i hi =>
    rw [h] at hf
    refine ensures_resume ?_ hx
    refine hf i ?_
    cases hy : c.copy t i with
    | none => rfl
    | some y => exact absurd (hs.bounded t i y hy) (by omega)
  | commits => rw [conn_close] at hx; cases hx

theorem Follows.step (hprog : ∀ op, (prog op).Ensures (D op) (Q op) fun _ _ => none) (hs : w.Sound U)
    (h : w.Follows D Q) : (w.step prog turn).Follows D Q := by
  have stepped := step_stepped (w := w) prog turn
  generalize w.step prog turn = w' at stepped ⊢
  cases stepped with
  | idle => exact h
  | @opened tid op _ =>
    intro k x hx
    by_cases hk : k = tid
    · subst hk
      exact ensures_resume (hprog op) hx
    · rw [resume, conn_putConn_of_ne hk] at hx
      exact h k x hx
  | @ran tid c _ hc run =>
    intro k x hx
    by_cases hk : k = tid
    · subst hk
      exact run.follows (hs k c hc) (h k c hc) hc hx
    · rw [run.conn_of_ne hk] at hx
      exact h k x hx
  | @lost tid c _ =>
    intro k x hx
    by_cases hk : k = tid
    · subst hk
      rw [conn_close] at hx
      cases hx
    · exact h k x ((if_neg hk).symm.trans hx)

/-- A row changes when a transaction commits an object of it, and takes the values of the object if that is current. -/
theorem changed_row (hs : w.Sound U) (hf : w.Follows D Q) (changed : ((w.step prog turn).store t).row i ≠ (w.store t).row i) :
    ∃ tid c b x, turn = .next tid ∧ w.conn tid = some c ∧ c.rest = .commit b ∧ Q c.op c.copy b ∧ c.copy t i = some x ∧
      (w.step prog turn).conn = (w.close tid c (some b)).conn ∧ (∀ u, (w.step prog turn).store u = w.committed c u) ∧
      (x.held = true ∨ U → x.base = (w.store t).row i ∧ ((w.step prog turn).store t).row i = some x.now) := by
  have stepped := step_stepped (w := w) prog turn
  generalize w.step prog turn = w' at stepped changed ⊢
  cases stepped with
  | idle => exact absurd rfl changed
  | opened => exact absurd rfl changed
  | lost => exact absurd rfl changed
  | @ran tid c _ hc run =>
    cases run with
    | @commits b h _ =>
      have hq := hf tid c hc
      rw [h] at hq
      cases hx : c.copy t i with
      | none => exact absurd ((committed_row (hs tid c hc)).1 hx) changed
      | some x =>
        refine ⟨tid, c, b, x, rfl, hc, h, hq, hx, rfl, fun u => rfl, fun hu => ?_⟩
        have cur := (hs tid c hc).current t i x hx hu
        exact ⟨cur.1, (committed_row (hs tid c hc)).2 x hx cur⟩
    | @inserted u a _ _ j hj =>
      refine absurd ?_ changed
      by_cases e : t = u
      · subst e; simp [resume, Table.skip]
      · simp [resume, Function.update_of_ne e]
    | _ => exact absurd rfl changed

/-- An answer comes from a transaction that leaves or commits, and says what its program ensures there. -/
theorem log_step (prog : Op → Tx Row Name β) (turn : Turn Op) (hf : w.Follows D Q) : (w.step prog turn).log = w.log ∨
    ∃ tid c b, turn = .next tid ∧ w.conn tid = some c ∧ (w.step prog turn).log = w.log ++ [(c.op, b)] ∧
      (c.rest = .done b ∧ D c.op c.copy b ∨
        c.rest = .commit b ∧ Q c.op c.copy b ∧ ∀ u, (w.step prog turn).store u = w.committed c u) := by
  have stepped := step_stepped (w := w) prog turn
  generalize w.step prog turn = w' at stepped ⊢
  cases stepped with
  | idle => exact .inl rfl
  | opened => exact .inl rfl
  | lost => exact .inl (List.append_nil _)
  | @ran tid c _ hc run =>
    cases run with
    | @left b h =>
      have hd := hf tid c hc
      rw [h] at hd
      exact .inr ⟨tid, c, b, rfl, hc, rfl, .inl ⟨h, hd⟩⟩
    | @commits b h _ =>
      have hq := hf tid c hc
      rw [h] at hq
      exact .inr ⟨tid, c, b, rfl, hc, rfl, .inr ⟨h, hq, fun _ => rfl⟩⟩
    | _ => exact .inl rfl

end Follows

/-! ### Assignments -/

section Guided

variable {G : Op → (t : T) → Nat → Row t → Row t → Prop} {prog : Op → Tx Row Name β} {turn : Turn Op}

/-- Every open transaction has moved and will move its objects along `G`. -/
def Guided (G : Op → (t : T) → Nat → Row t → Row t → Prop) (w : World Row Name β Op) : Prop :=
  ∀ k c, w.conn k = some c → c.rest.Writes (G c.op) c.copy ∧ Copies.Along (G c.op) c.copy

theorem guided_start (store : (t : T) → Table (Row t)) : (start store : World Row Name β Op).Guided G := nofun

theorem guided_resume {copy : Copies Row} {rest : Tx Row Name β} (h : rest.Writes (G c.op) copy ∧ Copies.Along (G c.op) copy)
    {x : Conn Row Name β Op} (hx : (w.resume tid c copy rest).conn tid = some x) :
    x.rest.Writes (G x.op) x.copy ∧ Copies.Along (G x.op) x.copy := by
  rw [resume, conn_putConn_self, Option.some.injEq] at hx
  subst hx
  exact h.2.settle h.1

theorem Exec.guided (h : Exec w tid c w') (hg : ∀ op t i a, G op t i a a) (hs : c.Sound U w tid)
    (hf : c.rest.Writes (G c.op) c.copy ∧ Copies.Along (G c.op) c.copy) (hc : w.conn tid = some c)
    {x : Conn Row Name β Op} (hx : w'.conn tid = some x) : x.rest.Writes (G x.op) x.copy ∧ Copies.Along (G x.op) x.copy := by
  cases h with
  | waits =>
    rw [hc, Option.some.injEq] at hx
    exact hx ▸ hf
  | left => rw [conn_close] at hx; cases hx
  | selected h htbl hcopy =>
    rw [h] at hf
    subst htbl hcopy
    exact guided_resume ⟨hf.1 _ (sees_view hs _), hf.2.load (hg c.op) _ _ _⟩ hx
  | counts h =>
    rw [h] at hf
    exact guided_resume ⟨hf.1 _ (sees_view hs _), hf.2⟩ hx
  | locked h htbl hcopy =>
    rw [h] at hf
    subst htbl hcopy
    exact guided_resume ⟨hf.1 _ (sees_view hs _), hf.2.load (hg c.op) _ _ _⟩ hx
  | skipped h htbl hids hcopy =>
    rw [h] at hf
    subst htbl hcopy
    refine guided_resume ⟨hf.1 _ _ (sees_view hs _) ?_, hf.2.load (hg c.op) _ _ _⟩ hx
    rw [hids]
    exact (List.take_sublist _ _).trans List.filter_sublist
  | advised h =>
    rw [h] at hf
    refine guided_resume ?_ hx
    exact hf
  | @assigned t i a next h =>
    rw [h] at hf
    obtain ⟨written, along⟩ := hf.2.settle hf.1
    rw [resume, conn_putConn_self, Option.some.injEq] at hx
    subst hx
    exact ⟨written, along⟩
  | flushes h =>
    rw [h] at hf
    refine guided_resume ?_ hx
    exact ⟨hf.1, hf.2.flush⟩
  | @inserted t a _ h i hi =>
    rw [h] at hf
    refine guided_resume ?_ hx
    refine ⟨hf.1 i ?_, hf.2.insert⟩
    cases hy : c.copy t i with
    | none => rfl
    | some y => exact absurd (hs.bounded t i y hy) (by omega)
  | commits => rw [conn_close] at hx; cases hx

theorem Guided.step (hg : ∀ op t i a, G op t i a a) (hprog : ∀ op, (prog op).Writes (G op) fun _ _ => none)
    (hs : w.Sound U) (h : w.Guided G) : (w.step prog turn).Guided G := by
  have stepped := step_stepped (w := w) prog turn
  generalize w.step prog turn = w' at stepped ⊢
  cases stepped with
  | idle => exact h
  | @opened tid op _ =>
    intro k x hx
    by_cases hk : k = tid
    · subst hk
      exact guided_resume ⟨hprog op, Copies.along_empty⟩ hx
    · rw [resume, conn_putConn_of_ne hk] at hx
      exact h k x hx
  | @ran tid c _ hc run =>
    intro k x hx
    by_cases hk : k = tid
    · subst hk
      exact run.guided hg (hs k c hc) (h k c hc) hc hx
    · rw [run.conn_of_ne hk] at hx
      exact h k x hx
  | @lost tid c _ =>
    intro k x hx
    by_cases hk : k = tid
    · subst hk
      rw [conn_close] at hx
      cases hx
    · exact h k x ((if_neg hk).symm.trans hx)

end Guided

end World

end Sound

end SalonBooking.Lib
