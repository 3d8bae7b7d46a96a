import SalonBooking.Lib.Marks
import SalonBooking.Lib.Statements

/-!
# Rows that are handed out a bounded number of times

A queue counts on each of its rows how often the row was handed out. A claim raises the counter, and every other commit
leaves it and makes a row wait again only below the limit. Where no claim takes over a row that is in work and has
reached the limit, no row is handed out more often than the limit allows.
-/

set_option linter.unusedSectionVars false

namespace SalonBooking.Lib

variable {T : Type} [DecidableEq T] {Row : T → Type} {Name β Op : Type}

/-- A table that is a queue: what its rows say, what the answers of the programs hand out, and the limit. -/
structure Queue (Row : T → Type) (Op β : Type) where
  table : T
  attempts : Row table → Nat
  waiting : Row table → Bool
  claims : Op → Bool
  handed : β → List Nat
  limit : Nat

namespace Queue

variable (q : Queue Row Op β)

/-- The counter stays, and the row waits again only below the limit. -/
def Keeps (old new : Row q.table) : Prop :=
  q.attempts new = q.attempts old ∧ (q.waiting new = true → q.waiting old = true ∨ q.attempts old < q.limit)

/-- What a commit may do to a row that it hands out, and to one that it does not. -/
structure Moves (handed : Prop) (old new : Row q.table) : Prop where
  taken : handed → q.attempts new = q.attempts old + 1 ∧ q.waiting new = false
  kept : ¬ handed → q.Keeps old new

/-- Where a program commits: it has locked the rows of the queue that it knows, and knows those that it hands out. -/
structure Serves (op : Op) (copy : Copies Row) (b : β) : Prop where
  claims : q.handed b ≠ [] → q.claims op = true
  nodup : (q.handed b).Nodup
  known : ∀ i ∈ q.handed b, ∃ x, copy q.table i = some x
  moved : ∀ i x, copy q.table i = some x →
    x.held = true ∧ ∃ old, x.base = some old ∧ q.Moves (i ∈ q.handed b) old x.now

/-- A row that has not been handed out too often, and may be handed out once more if it waits. -/
def Within (row : Row q.table) : Prop := q.attempts row ≤ q.limit ∧ (q.waiting row = true → q.attempts row < q.limit)

variable {q} {old new : Row q.table}

theorem Keeps.refl (row : Row q.table) : q.Keeps row row := ⟨rfl, .inl⟩

theorem Keeps.of_ended (same : q.attempts new = q.attempts old) (ended : q.waiting new = false) : q.Keeps old new := by
  refine ⟨same, fun waits => ?_⟩
  rw [ended] at waits
  cases waits

theorem Keeps.of_below (same : q.attempts new = q.attempts old) (below : q.attempts old < q.limit) : q.Keeps old new :=
  ⟨same, fun _ => .inr below⟩

theorem Moves.refl (handed : Prop) (h : ¬ handed) (row : Row q.table) : q.Moves handed row row :=
  ⟨fun yes => absurd yes h, fun _ => .refl row⟩

theorem Moves.within {handed : Prop} (h : q.Moves handed old new) (within : q.Within old)
    (spared : handed → q.waiting old = true ∨ q.attempts old < q.limit) : q.Within new := by
  by_cases taken : handed
  · obtain ⟨raised, busy⟩ := h.taken taken
    have lt : q.attempts old < q.limit := (spared taken).elim within.2 id
    exact ⟨by omega, fun waits => by rw [busy] at waits; cases waits⟩
  · obtain ⟨same, back⟩ := h.kept taken
    refine ⟨same ▸ within.1, fun waits => ?_⟩
    rw [same]
    exact (back waits).elim within.2 id

/-! ### Commits that hand nothing out -/

section Locked

variable {c : Copies Row} {D Q : Copies Row → β → Prop} {ids : List Nat}

/-- The objects of the queue are locked, and keep what their rows say. -/
def Locked (q : Queue Row Op β) (c : Copies Row) : Prop :=
  ∀ i x, c q.table i = some x → x.held = true ∧ ∃ old, x.base = some old ∧ q.Keeps old x.now

theorem Locked.serves (h : q.Locked c) {op : Op} {b : β} (none : q.handed b = []) : q.Serves op c b where
  claims some := absurd none some
  nodup := none ▸ List.nodup_nil
  known i hi := by
    rw [none] at hi
    cases hi
  moved i x hx := by
    obtain ⟨held, old, base, keeps⟩ := h i x hx
    refine ⟨held, old, base, fun hi => ?_, fun _ => keeps⟩
    rw [none] at hi
    cases hi

theorem Locked.flush (h : q.Locked c) : q.Locked c.flush := by
  intro i x hx
  obtain ⟨y, hy, rfl⟩ := Copies.flush_eq_some.mp hx
  exact h i y hy

theorem Locked.load_of_ne (h : q.Locked c) {u : T} (hu : q.table ≠ u) (held : Bool) (tbl : Table (Row u)) (ids : List Nat) :
    q.Locked (c.load held u tbl ids) := by
  intro i x hx
  rw [Copies.load_of_ne hu] at hx
  exact h i x hx

theorem Locked.assign_of_ne (h : q.Locked c) {u : T} (hu : q.table ≠ u) (i : Nat) (a : Row u) : q.Locked (c.assign u i a) := by
  intro j x hx
  rw [Copies.assign_of_ne hu] at hx
  exact h j x hx

/-- The only object of the queue is row `i`, locked and loaded from `row`. -/
def Owns (q : Queue Row Op β) (c : Copies Row) (i : Nat) (row : Row q.table) : Prop :=
  ∀ j x, c q.table j = some x → j = i ∧ x.held = true ∧ x.base = some row

section Owns

variable {i : Nat} {row : Row q.table}

theorem owns_put : q.Owns (Copies.put Copies.empty q.table i (.ofRow true row)) i row := by
  intro j x hx
  rcases Copies.put_eq_some hx with ⟨-, rfl, rfl⟩ | hx
  · exact ⟨rfl, rfl, rfl⟩
  · cases hx

theorem Owns.flush (h : q.Owns c i row) : q.Owns c.flush i row := by
  intro j x hx
  obtain ⟨y, hy, rfl⟩ := Copies.flush_eq_some.mp hx
  exact h j y hy

theorem Owns.assign (h : q.Owns c i row) (a : Row q.table) : q.Owns (c.assign q.table i a) i row := by
  intro j x hx
  obtain ⟨y, hy, base, -, held⟩ := (Copies.same_assign q.table j).2 x hx
  rw [base, held]
  exact h j y hy

theorem Owns.load_of_ne (h : q.Owns c i row) {u : T} (hu : q.table ≠ u) (held : Bool) (tbl : Table (Row u)) (ids : List Nat) :
    q.Owns (c.load held u tbl ids) i row := by
  intro j x hx
  rw [Copies.load_of_ne hu] at hx
  exact h j x hx

theorem Owns.assign_of_ne (h : q.Owns c i row) {u : T} (hu : q.table ≠ u) (j : Nat) (a : Row u) :
    q.Owns (c.assign u j a) i row := by
  intro k x hx
  rw [Copies.assign_of_ne hu] at hx
  exact h k x hx

theorem Owns.locked (h : q.Owns c i row) {a : Row q.table} (keeps : q.Keeps row a) : q.Locked (c.assign q.table i a) := by
  intro j x hx
  rw [Copies.assign_self] at hx
  by_cases hj : j = i
  · rw [if_pos hj] at hx
    obtain ⟨y, hy, rfl⟩ := Option.map_eq_some_iff.mp hx
    obtain ⟨-, held, base⟩ := h j y hy
    exact ⟨held, row, base, keeps⟩
  · rw [if_neg hj] at hx
    exact absurd (h j x hx).1 hj

end Owns

/-- The program hands nothing out where it leaves, and serves the queue where it commits. -/
abbrev Serving (q : Queue Row Op β) (op : Op) (p : Tx Row Name β) (c : Copies Row) : Prop :=
  p.Ensures (fun _ b => q.handed b = []) (q.Serves op) c

section Serving

variable {op : Op} {i : Nat} {row : Row q.table} {next : Tx Row Name β}

theorem Owns.serving (h : q.Owns c i row) {a : Row q.table} (keeps : q.Keeps row a)
    (hnext : ∀ {c}, q.Locked c → q.Serving op next c) : q.Serving op (.assign q.table i a (.flush next)) c :=
  hnext (h.locked keeps).flush

theorem Owns.finish (h : q.Owns c i row) {a : Row q.table} (keeps : q.Keeps row a) {b : β} (none : q.handed b = []) :
    q.Serving op (.assign q.table i a (.flush (.commit b) : Tx Row Name β)) c :=
  h.serving keeps fun locked => locked.serves none

end Serving

/-- All rows that a locking select finds, rewritten by a session that has read none of them before. -/
theorem ensures_lockAll {which : Table (Row q.table) → List Nat} {f : Row q.table → Row q.table}
    {next : List (Nat × Row q.table) → Tx Row Name β} (hf : ∀ row, q.Keeps row (f row))
    (hnext : ∀ rows c, q.Locked c → (next rows).Ensures D Q c) (fresh : ∀ i, c q.table i = none) :
    (Tx.lock q.table which fun rows => .assignAll q.table (rows.map fun r => (r.1, f r.2)) (.flush (next rows))).Ensures D Q
      c := by
  intro tbl _
  generalize which tbl = ids
  generalize hstart : c.load true q.table tbl ids = start
  have first : ∀ i x, start q.table i = some x → ∃ row, x = .ofRow true row := by
    intro i x hx
    rw [← hstart] at hx
    rcases Copies.load_cases hx with hx | ⟨-, _, -, row, -, rfl⟩
    · rw [fresh] at hx
      cases hx
    · exact ⟨row, rfl⟩
  refine Tx.ensures_assignAll (P := fun c => ∀ i x, c q.table i = some x → x.held = true ∧ ∃ old, x.base = some old ∧
    start q.table i = some (.ofRow true old) ∧ q.Keeps old x.now) (fun c r hr hc i x hx => ?_) (fun i x hx => ?_)
    fun c hc => hnext _ _ (Locked.flush fun i x hx => ?_)
  · obtain ⟨s, hs, rfl⟩ := List.mem_map.mp hr
    rw [Copies.assign_self] at hx
    by_cases hi : i = s.1
    · subst hi
      rw [if_pos rfl] at hx
      obtain ⟨y, hy, rfl⟩ := Option.map_eq_some_iff.mp hx
      obtain ⟨held, old, base, loaded, -⟩ := hc s.1 y hy
      obtain ⟨-, z, hz, hrow⟩ := Copies.mem_rows.mp hs
      obtain rfl := Option.some.inj (hz.symm.trans loaded)
      refine ⟨held, old, base, loaded, ?_⟩
      rw [show s.2 = old from hrow]
      exact hf old
    · rw [if_neg hi] at hx
      exact hc i x hx
  · obtain ⟨row, rfl⟩ := first i x hx
    exact ⟨rfl, row, rfl, hx, .refl row⟩
  · obtain ⟨held, old, base, -, keeps⟩ := hc i x hx
    exact ⟨held, old, base, keeps⟩

end Locked

/-! ### Claims -/

section Claim

variable {c : Copies Row} {D Q : Copies Row → β → Prop} {ids : List Nat}

theorem keys_rows_sublist {t : T} : ((c.rows t ids).map Prod.fst).Sublist ids := by
  unfold Copies.rows
  induction ids with
  | nil => exact .slnil
  | cons i ids ih =>
    rw [List.filterMap_cons]
    cases c t i with
    | none => exact ih.cons i
    | some x => exact ih.cons_cons i

/-- The objects of a claim: locked, and moved for the keys in `done`. -/
structure Claims (q : Queue Row Op β) (keys done : List Nat) (c : Copies Row) : Prop where
  known : ∀ i ∈ keys, ∃ x, c q.table i = some x
  moved : ∀ i x, c q.table i = some x → i ∈ keys ∧ x.held = true ∧ ∃ old, x.base = some old ∧
    (i ∈ done → q.attempts x.now = q.attempts old + 1 ∧ q.waiting x.now = false)

theorem Claims.serves {keys : List Nat} (h : q.Claims keys keys c) {op : Op} {b : β} (claims : q.claims op = true)
    (handed : q.handed b = keys) (nodup : keys.Nodup) : q.Serves op c b where
  claims _ := claims
  nodup := handed ▸ nodup
  known i hi := h.known i (handed ▸ hi)
  moved i x hx := by
    obtain ⟨mem, held, old, base, moved⟩ := h.moved i x hx
    exact ⟨held, old, base, fun _ => moved mem, fun free => absurd (handed.symm ▸ mem) free⟩

theorem Claims.flush {keys done : List Nat} (h : q.Claims keys done c) : q.Claims keys done c.flush := by
  refine ⟨fun i hi => ?_, fun i x hx => ?_⟩
  · obtain ⟨x, hx⟩ := h.known i hi
    exact ⟨_, Copies.flush_eq_some.mpr ⟨x, hx, rfl⟩⟩
  · obtain ⟨y, hy, rfl⟩ := Copies.flush_eq_some.mp hx
    exact h.moved i y hy

theorem Claims.load {keys done : List Nat} (h : q.Claims keys done c) {u : T} (hu : q.table ≠ u) (held : Bool)
    (tbl : Table (Row u)) (ids : List Nat) : q.Claims keys done (c.load held u tbl ids) := by
  refine ⟨fun i hi => ?_, fun i x hx => ?_⟩
  · rw [Copies.load_of_ne hu]
    exact h.known i hi
  · rw [Copies.load_of_ne hu] at hx
    exact h.moved i x hx

theorem Claims.assign {keys done : List Nat} (h : q.Claims keys done c) {u : T} (hu : q.table ≠ u) (i : Nat) (a : Row u) :
    q.Claims keys done (c.assign u i a) := by
  refine ⟨fun j hj => ?_, fun j x hx => ?_⟩
  · rw [Copies.assign_of_ne hu]
    exact h.known j hj
  · rw [Copies.assign_of_ne hu] at hx
    exact h.moved j x hx

/-- One object after the other takes the values that a claim makes of the row that it was loaded from. -/
theorem Claims.ensures_assignAll {f : Row q.table → Row q.table}
    (hf : ∀ row, q.attempts (f row) = q.attempts row + 1 ∧ q.waiting (f row) = false) {keys : List Nat} {next : Tx Row Name β}
    (hnext : ∀ c, q.Claims keys keys c → next.Ensures D Q c) (l : List (Nat × Row q.table)) :
    ∀ {done : List Nat} {c : Copies Row}, q.Claims keys done c →
      (∀ r ∈ l, ∀ x, c q.table r.1 = some x → x.base = some r.2) → (∀ i ∈ keys, i ∈ done ∨ i ∈ l.map Prod.fst) →
      (l.map Prod.fst).Nodup → (Tx.assignAll q.table (l.map fun r => (r.1, f r.2)) next).Ensures D Q c := by
  induction l with
  | nil =>
    intro done c h _ all _
    refine hnext c ⟨h.known, fun i x hx => ?_⟩
    obtain ⟨mem, held, old, base, moved⟩ := h.moved i x hx
    exact ⟨mem, held, old, base, fun _ => moved ((all i mem).resolve_right List.not_mem_nil)⟩
  | cons r l ih =>
    intro done c h based all nodup
    obtain ⟨new, nodup⟩ := List.nodup_cons.mp nodup
    refine @ih (r.1 :: done) (c.assign q.table r.1 (f r.2)) ⟨fun i hi => ?_, fun i x hx => ?_⟩ (fun s hs x hx => ?_)
      (fun i hi => ?_) nodup
    · obtain ⟨x, hx⟩ := h.known i hi
      rw [Copies.assign_self, hx]
      split
      · exact ⟨_, rfl⟩
      · exact ⟨x, rfl⟩
    · rw [Copies.assign_self] at hx
      by_cases hi : i = r.1
      · subst hi
        rw [if_pos rfl] at hx
        obtain ⟨y, hy, rfl⟩ := Option.map_eq_some_iff.mp hx
        obtain ⟨mem, held, old, base, -⟩ := h.moved r.1 y hy
        obtain rfl := Option.some.inj (base.symm.trans (based r List.mem_cons_self y hy))
        exact ⟨mem, held, _, base, fun _ => hf r.2⟩
      · rw [if_neg hi] at hx
        obtain ⟨mem, held, old, base, moved⟩ := h.moved i x hx
        exact ⟨mem, held, old, base, fun done => moved ((List.mem_cons.mp done).resolve_left hi)⟩
    · have ne : s.1 ≠ r.1 := fun e => new (e ▸ List.mem_map_of_mem hs)
      rw [Copies.assign_self, if_neg ne] at hx
      exact based s (List.mem_cons_of_mem r hs) x hx
    · rcases all i hi with hi | hi
      · exact .inl (List.mem_cons_of_mem _ hi)
      · rcases List.mem_cons.mp hi with rfl | hi
        · exact .inl List.mem_cons_self
        · exact .inr hi

/-- The part of a claim that all queues share: it locks what is due, raises the counters and writes them. -/
theorem ensures_claim {which : Table (Row q.table) → List Nat} {limit : Nat} {f : Row q.table → Row q.table}
    {next : List (Nat × Row q.table) → Tx Row Name β}
    (hf : ∀ row, q.attempts (f row) = q.attempts row + 1 ∧ q.waiting (f row) = false) (nodup : ∀ tbl, (which tbl).Nodup)
    (hnext : ∀ rows c, (rows.map Prod.fst).Nodup → q.Claims (rows.map Prod.fst) (rows.map Prod.fst) c →
      (next rows).Ensures D Q c) :
    (Tx.skipLocked q.table which limit fun rows =>
      .assignAll q.table (rows.map fun r => (r.1, f r.2)) (.flush (next rows))).Ensures D Q (fun _ _ => none) := by
  intro tbl ids _ hids
  generalize hstart : Copies.load (fun _ _ => none : Copies Row) true q.table tbl ids = start
  have first : ∀ i x, start q.table i = some x → ∃ row, i ∈ ids ∧ x = .ofRow true row := by
    intro i x hx
    rw [← hstart] at hx
    rcases Copies.load_cases hx with hx | ⟨-, _, hi, row, -, rfl⟩
    · cases hx
    · exact ⟨row, hi, rfl⟩
  have keysNodup : ((start.rows q.table ids).map Prod.fst).Nodup := (nodup tbl).sublist (keys_rows_sublist.trans hids)
  have none : q.Claims ((start.rows q.table ids).map Prod.fst) [] start := by
    refine ⟨fun i hi => ?_, fun i x hx => ?_⟩
    · obtain ⟨r, hr, rfl⟩ := List.mem_map.mp hi
      obtain ⟨-, x, hx, -⟩ := Copies.mem_rows.mp hr
      exact ⟨x, hx⟩
    · obtain ⟨row, hi, rfl⟩ := first i x hx
      exact ⟨List.mem_map.mpr ⟨(i, row), Copies.mem_rows.mpr ⟨hi, _, hx, rfl⟩, rfl⟩, rfl, row, rfl, nofun⟩
  refine Claims.ensures_assignAll hf (fun c h => hnext (start.rows q.table ids) c.flush keysNodup h.flush) _ none (fun r hr x hx => ?_)
    (fun i hi => .inr hi) keysNodup
  obtain ⟨-, y, hy, hrow⟩ := Copies.mem_rows.mp hr
  obtain ⟨row, -, rfl⟩ := first r.1 y hy
  obtain rfl := Option.some.inj (hx.symm.trans hy)
  exact congrArg some hrow.symm

end Claim

/-! ### Runs -/

section Runs

variable [∀ t, DecidableEq (Row t)] [∀ t, Columns (Row t)] [DecidableEq Name] [Fintype T]
variable {prog : Op → Tx Row Name β} {w : World Row Name β Op} {turn : Turn Op} {i : Nat}

def count (q : Queue Row Op β) (i : Nat) (w : World Row Name β Op) : Nat :=
  (w.log.map fun e => (q.handed e.2).count i).sum

/-- No claim commits that has locked a row in work that has reached the limit. -/
def Spares (q : Queue Row Op β) (w : World Row Name β Op) : Turn Op → Prop
  | .next tid => ∀ c ∈ w.conn tid, c.rest.commits = true → q.claims c.op = true → ∀ i < (w.store q.table).next,
      w.holder q.table i = some tid → ∀ row ∈ (w.store q.table).row i, q.waiting row = true ∨ q.attempts row < q.limit
  | _ => True

instance (q : Queue Row Op β) (w : World Row Name β Op) (turn : Turn Op) : Decidable (q.Spares w turn) :=
  match turn with
  | .begin .. | .abort .. => inferInstanceAs (Decidable True)
  | .next _ => inferInstanceAs (Decidable (∀ c ∈ _, _))

/-- The counter of a row is the number of times that it was handed out. -/
structure Counted (q : Queue Row Op β) (store : (t : T) → Table (Row t)) (w : World Row Name β Op) : Prop where
  sound : w.Sound False
  follows : w.Follows (fun _ _ b => q.handed b = []) q.Serves
  rows : ∀ i old, (store q.table).row i = some old → ∃ row, (w.store q.table).row i = some row ∧
    q.attempts row = q.attempts old + q.count i w ∧ q.Within row

theorem Counted.start {store : (t : T) → Table (Row t)} (within : (store q.table).All fun _ row => q.Within row) :
    q.Counted store (World.start store : World Row Name β Op) :=
  ⟨World.sound_start _, World.follows_start _, fun i old row => ⟨old, row, rfl, within i old row⟩⟩

theorem moves_step (prog : Op → Tx Row Name β) (hs : w.Sound False) (hf : w.Follows (fun _ _ b => q.handed b = []) q.Serves) {row : Row q.table}
    (hrow : (w.store q.table).row i = some row) (spares : q.Spares w turn) :
    ∃ row' handed, ((w.step prog turn).store q.table).row i = some row' ∧ q.Moves (handed = 1) row row' ∧
      q.count i (w.step prog turn) = q.count i w + handed ∧ handed ≤ 1 ∧
      (handed = 1 → q.waiting row = true ∨ q.attempts row < q.limit) := by
  have stepped := World.step_stepped (w := w) prog turn
  generalize w.step prog turn = w' at stepped ⊢
  have quiet : (w'.store q.table).row i = some row → w'.log = w.log ++ [] → ∃ row' handed,
      (w'.store q.table).row i = some row' ∧ q.Moves (handed = 1) row row' ∧ q.count i w' = q.count i w + handed ∧
        handed ≤ 1 ∧ (handed = 1 → q.waiting row = true ∨ q.attempts row < q.limit) := by
    intro same log
    exact ⟨row, 0, same, .refl _ (by omega) row, by rw [count, log, List.append_nil]; rfl, by omega, by omega⟩
  cases stepped with
  | idle => exact quiet hrow (List.append_nil _).symm
  | opened => exact quiet hrow (List.append_nil _).symm
  | lost => exact quiet hrow rfl
  | @ran tid c _ hc run =>
    cases run with
    | @left b hb =>
      have none := hf tid c hc
      rw [hb] at none
      refine ⟨row, 0, hrow, .refl _ (by omega) row, ?_, by omega, by omega⟩
      have none : q.handed b = [] := none
      simp [count, World.close, none]
    | @inserted t a _ _ j hj =>
      refine quiet ?_ (List.append_nil _).symm
      by_cases e : q.table = t
      · subst e; simpa [World.resume, Table.skip] using hrow
      · simpa [World.resume, Function.update_of_ne e] using hrow
    | @commits b hb =>
      have serves := hf tid c hc
      rw [hb] at serves
      have serves : q.Serves c.op c.copy b := serves
      have counted : q.count i ({ w with store := w.committed c }.close tid c (some b)) =
          q.count i w + (q.handed b).count i := by
        simp [count, World.close]
      have once : (q.handed b).count i ≤ 1 := List.nodup_iff_count_le_one.mp serves.nodup i
      have listed : (q.handed b).count i = 1 ↔ i ∈ q.handed b := by
        rw [← List.count_pos_iff]
        omega
      cases hx : c.copy q.table i with
      | none =>
        have free : i ∉ q.handed b := fun hi => by
          obtain ⟨x, hx'⟩ := serves.known i hi
          rw [hx] at hx'
          cases hx'
        exact ⟨row, _, ((World.committed_row (hs tid c hc)).1 hx).trans hrow, .refl _ (free ∘ listed.mp) row, counted, once,
          fun one => absurd (listed.mp one) free⟩
      | some x =>
        obtain ⟨held, old, base, moves⟩ := serves.moved i x hx
        have cur := (hs tid c hc).current q.table i x hx (.inl held)
        obtain rfl : row = old := Option.some.inj (hrow.symm.trans (cur.1.symm.trans base))
        refine ⟨x.now, _, (World.committed_row (hs tid c hc)).2 x hx cur, ⟨fun one => moves.taken (listed.mp one),
          fun other => moves.kept fun hi => other (listed.mpr hi)⟩, counted, once, fun one => ?_⟩
        have mem := listed.mp one
        exact spares c hc (by rw [hb]; rfl) (serves.claims (List.ne_nil_of_mem mem)) i (Table.lt_next hrow)
          ((hs tid c hc).held q.table i x hx held) row hrow
    | _ => exact quiet hrow (List.append_nil _).symm

theorem Counted.step {store : (t : T) → Table (Row t)}
    (hprog : ∀ op, (prog op).Ensures (fun _ b => q.handed b = []) (q.Serves op) fun _ _ => none)
    (h : q.Counted store w) (spares : q.Spares w turn) : q.Counted store (w.step prog turn) := by
  refine ⟨h.sound.step nofun, h.follows.step hprog h.sound, fun i old stored => ?_⟩
  obtain ⟨row, hrow, counted, within⟩ := h.rows i old stored
  obtain ⟨row', handed, hrow', moves, count, le, spared⟩ := moves_step prog h.sound h.follows hrow spares
  refine ⟨row', hrow', ?_, moves.within within spared⟩
  rw [count]
  rcases Nat.le_one_iff_eq_zero_or_eq_one.mp le with rfl | rfl
  · rw [(moves.kept (by omega)).1, counted]
    rfl
  · rw [(moves.taken rfl).1, counted]
    rfl

/-- No row is handed out more often than the limit allows, counted with what it was handed out before. -/
theorem attempts_bounded {store : (t : T) → Table (Row t)}
    (hprog : ∀ op, (prog op).Ensures (fun _ b => q.handed b = []) (q.Serves op) fun _ _ => none)
    (within : (store q.table).All fun _ row => q.Within row) (turns : List (Turn Op))
    (spares : Guarded (fun w turn => w.step prog turn) q.Spares (World.start store) turns) {old : Row q.table}
    (stored : (store q.table).row i = some old) :
    q.attempts old + q.count i (run (fun w turn => w.step prog turn) (World.start store) turns) ≤ q.limit := by
  have counted := run_induction (P := q.Counted store) (fun w turn h spares => h.step hprog spares) (.start within) turns spares
  obtain ⟨row, -, counts, le, -⟩ := counted.rows i old stored
  omega

end Runs

end Queue

end SalonBooking.Lib
