import SalonBooking.Lib.Views

/-!
# A transaction that runs alone

Where nobody else commits, every object of a session was loaded from the row that the session sees. What it would commit
then follows its statements: a select changes nothing, an assignment rewrites a row, an insert adds one.
-/

set_option linter.unusedSectionVars false

namespace SalonBooking.Lib

variable {T : Type} [DecidableEq T] {Row : T → Type} {Name β Op : Type}
variable [∀ t, DecidableEq (Row t)] [∀ t, Columns (Row t)]

/-! ### Rows by their keys -/

namespace Table

variable {α κ : Type} {t t' : Table α} {p : α → Bool} {i j : Nat} {a : α} {rows : List α}

/-- The keys of a selection depend on what `p` says of the rows only. -/
theorem keys_select_congr (hnext : t'.next = t.next) (same : ∀ i, (t'.row i).any p = (t.row i).any p) :
    (t'.select p).map Prod.fst = (t.select p).map Prod.fst := by
  have keys : ∀ t : Table α, (t.select p).map Prod.fst = (List.range t.next).filter fun i => (t.row i).any p := by
    intro t
    unfold select toList
    induction List.range t.next with
    | nil => rfl
    | cons i ids ih =>
      rw [List.filterMap_cons, List.filter_cons]
      cases hrow : t.row i with
      | none => simpa using ih
      | some a =>
        by_cases hp : p a = true
        · simp [hp, ih]
        · simp [hp, ih]
  rw [keys, keys, hnext]
  exact List.filter_congr fun i _ => same i

theorem filterMap_keys_select :
    ((t.select p).map Prod.fst).filterMap (fun i => (t.row i).map fun a => (i, a)) = t.select p := by
  rw [List.filterMap_map]
  refine (List.filterMap_congr fun r hr => ?_).trans List.filterMap_some
  obtain ⟨i, a⟩ := r
  simp [(mem_select.mp hr).1]

/-- Rows that are rewritten one after the other, each from the value that it was listed with. -/
theorem row_foldl_put {f : α → α} {l : List (Nat × α)} (keys : (l.map Prod.fst).Nodup) :
    ∀ {t : Table α}, (∀ r ∈ l, t.row r.1 = some r.2) →
      (l.foldl (fun t r => t.put r.1 (f r.2)) t).row j = (t.row j).map fun a => if j ∈ l.map Prod.fst then f a else a := by
  induction l with
  | nil =>
    intro t _
    cases h : t.row j <;> simp [h]
  | cons r l ih =>
    intro t listed
    obtain ⟨new, keys⟩ := List.nodup_cons.mp keys
    have here : t.row r.1 = some r.2 := listed r List.mem_cons_self
    rw [List.foldl_cons, ih keys]
    · rw [row_put_of_some here]
      by_cases hj : j = r.1
      · subst hj
        rw [if_pos rfl, here, Option.map_some, Option.map_some, if_neg new, if_pos (by simp)]
      · rw [if_neg hj]
        refine Option.map_congr fun a _ => if_congr ?_ rfl rfl
        rw [List.map_cons, List.mem_cons]
        exact (or_iff_right hj).symm
    · intro s hs
      have ne : s.1 ≠ r.1 := fun e => new (e ▸ List.mem_map_of_mem hs)
      rw [row_put_ne ne]
      exact listed s (List.mem_cons_of_mem r hs)

theorem foldl_put_select {f : α → α} : ((t.select p).map fun r => (r.1, f r.2)).foldl (fun t r => t.put r.1 r.2) t =
    t.mapRows fun _ a => if p a = true then f a else a := by
  rw [List.foldl_map]
  refine eq_of_row (fun j => ?_) ?_
  · rw [row_foldl_put nodup_keys_select fun r hr => (mem_select.mp hr).1, row_mapRows]
    refine Option.map_congr fun a ha => ?_
    have listed : j ∈ (t.select p).map Prod.fst ↔ p a = true := by
      constructor
      · intro h
        obtain ⟨⟨k, b⟩, hr, rfl⟩ := List.mem_map.mp h
        obtain ⟨row, hp⟩ := mem_select.mp hr
        rw [Option.mem_def.mp ha, Option.some.injEq] at row
        exact row ▸ hp
      · exact fun hp => List.mem_map.mpr ⟨(j, a), mem_select.mpr ⟨ha, hp⟩, rfl⟩
    exact if_congr listed rfl rfl
  · have next : ∀ (l : List (Nat × α)) (t : Table α), (l.foldl (fun t r => t.put r.1 (f r.2)) t).next = t.next := by
      intro l
      induction l with
      | nil => exact fun t => rfl
      | cons r l ih => exact fun t => ih _
    exact next _ t

def insertAll (t : Table α) (rows : List α) : Table α := rows.foldl Table.insert t

theorem row_insertAll_of_some : ∀ {t : Table α}, t.row i = some a → (t.insertAll rows).row i = some a := by
  induction rows with
  | nil => exact id
  | cons b rows ih => exact fun h => ih (row_insert_of_some h)

theorem row_insertAll : ∀ {t : Table α}, (t.insertAll rows).row i = some a → t.row i = some a ∨ t.row i = none ∧ a ∈ rows := by
  induction rows with
  | nil => exact .inl
  | cons b rows ih =>
    intro t h
    rcases ih h with h | ⟨none, hmem⟩
    · rcases row_insert_eq_some.mp h with ⟨rfl, rfl⟩ | h
      · exact .inr ⟨t.bounded _ le_rfl, List.mem_cons_self⟩
      · exact .inl h
    · refine .inr ⟨?_, List.mem_cons_of_mem b hmem⟩
      rw [row_insert] at none
      split at none
      · cases none
      · exact none

theorem exists_row_insertAll : ∀ {t : Table α}, a ∈ rows → ∃ i, (t.insertAll rows).row i = some a := by
  induction rows with
  | nil => exact fun h => absurd h List.not_mem_nil
  | cons b rows ih =>
    intro t h
    rcases List.mem_cons.mp h with rfl | h
    · refine ⟨t.next, ?_⟩
      show ((t.insert a).insertAll rows).row t.next = some a
      exact row_insertAll_of_some row_insert_self
    · exact ih h

theorem Distinct.of_all {key : α → Option κ} (h : t.All fun i a => t.All fun j b => key a = key b → i = j) :
    Distinct key t := by
  intro i j a b k ha hb hka hkb
  exact h i a ha j b hb (hka.trans hkb.symm)

theorem Distinct.insertAll {key : α → Option κ} (pairwise : rows.Pairwise fun a b => ∀ k, key a = some k → key b ≠ some k) :
    ∀ {t : Table α}, Distinct key t → (∀ a ∈ rows, ∀ k, key a = some k → t.All fun _ b => key b ≠ some k) →
      Distinct key (t.insertAll rows) := by
  induction rows with
  | nil => exact fun h _ => h
  | cons a rows ih =>
    intro t h new
    obtain ⟨first, pairwise⟩ := List.pairwise_cons.mp pairwise
    refine ih pairwise (h.insert (new a List.mem_cons_self)) fun b hb k hk => ?_
    exact (new b (List.mem_cons_of_mem a hb) k hk).insert fun ha => first b hb k ha hk

end Table

/-! ### What the session would commit -/

namespace View

variable {v : View Row} {t u : T} {i j : Nat}

/-- Every object was loaded from the row that the session sees. -/
def Coherent (v : View Row) : Prop := ∀ t i x, v.copy t i = some x → (v.sees t).row i = some x.loaded

theorem copy_assign_self {a : Row t} :
    (v.assign t i a).copy t j = if j = i then (v.copy t j).map fun x => { x with now := a } else v.copy t j :=
  Copies.assign_self

theorem known_assign {a : Row t} {x : Copy (Row t)} (hx : v.copy t j = some x) :
    ∃ y, (v.assign t i a).copy t j = some y := by
  rw [copy_assign_self, hx]
  split
  · exact ⟨_, rfl⟩
  · exact ⟨x, rfl⟩

theorem copy_insert_of_ne (h : u ≠ t) (a : Row t) : (v.insert t a).copy u = v.copy u := Copies.insert_of_ne h

theorem coherent_start {store : (t : T) → Table (Row t)} : (start store).Coherent := nofun

theorem committed_start {store : (t : T) → Table (Row t)} : (start store).committed = store := by
  refine funext fun t => Table.eq_of_row (fun i => ?_) rfl
  by_cases hi : i < (store t).next
  · exact Table.row_overlay hi
  · rw [(store t).bounded i (by omega)]
    exact if_neg hi

namespace Coherent

theorem row_committed (h : v.Coherent) :
    (v.committed t).row i = ((v.copy t i).map fun x => x.now).orElse fun _ => (v.sees t).row i := by
  by_cases hi : i < (v.store t).next
  · unfold committed flushed
    rw [Table.row_overlay hi]
    cases hx : v.copy t i with
    | none => exact (Table.row_overlay hi).symm
    | some x =>
      have seen := h t i x hx
      by_cases clean : x.now = x.loaded
      · simp only [if_pos clean]
        rw [sees, Table.row_overlay hi] at seen
        exact seen.trans (congrArg some clean.symm)
      · simp only [if_neg clean]
        rw [seen]
        simp
  · have out : v.copy t i = none := by
      cases hx : v.copy t i with
      | none => rfl
      | some x => exact absurd (Table.lt_next (h t i x hx)) hi
    rw [out, (v.committed t).bounded i (Nat.not_lt.mp hi)]
    exact ((v.sees t).bounded i (Nat.not_lt.mp hi)).symm

theorem row_of_copy (h : v.Coherent) {x : Copy (Row t)} (hx : v.copy t i = some x) :
    (v.committed t).row i = some x.now := by
  rw [h.row_committed, hx]
  rfl

theorem load (h : v.Coherent) (held : Bool) (ids : List Nat) : (v.load held t ids).Coherent := by
  intro u j x hx
  rcases Copies.load_cases hx with hx | ⟨-, rfl, -, a, seen, rfl⟩
  · exact h u j x hx
  · exact seen

theorem committed_load (h : v.Coherent) (held : Bool) (ids : List Nat) : (v.load held t ids).committed = v.committed := by
  refine funext fun u => Table.eq_of_row (fun j => ?_) rfl
  rw [(h.load held ids).row_committed, h.row_committed]
  cases hx : (v.load held t ids).copy u j with
  | none =>
    cases hy : v.copy u j with
    | none => rfl
    | some y =>
      rw [show (v.load held t ids).copy u j = some y from Copies.load_of_some hy] at hx
      cases hx
  | some x =>
    rcases Copies.load_cases hx with hy | ⟨hy, rfl, -, a, seen, rfl⟩
    · rw [hy]
      rfl
    · rw [hy]
      exact seen.symm

theorem rows_load (h : v.Coherent) (held : Bool) {ids : List Nat} : (v.load held t ids).copy.rows t ids =
    ids.filterMap fun i => ((v.committed t).row i).map fun a => (i, a) := by
  refine List.filterMap_congr fun i hi => ?_
  rw [← h.committed_load held ids, (h.load held ids).row_committed]
  cases hx : (v.load held t ids).copy t i with
  | some x => rfl
  | none =>
    cases hrow : (v.sees t).row i with
    | some a =>
      obtain ⟨x, hx'⟩ := known_load held hi hrow
      rw [hx] at hx'
      cases hx'
    | none =>
      show none = Option.map _ ((v.sees t).row i)
      rw [hrow]
      rfl

theorem assign (h : v.Coherent) (a : Row t) : (v.assign t i a).Coherent := by
  intro u j x hx
  by_cases e : u = t
  · subst e
    rw [copy_assign_self] at hx
    split at hx
    · obtain ⟨y, hy, rfl⟩ := Option.map_eq_some_iff.mp hx
      exact h u j y hy
    · exact h u j x hx
  · rw [copy_assign_of_ne e] at hx
    exact h u j x hx

theorem committed_assign (h : v.Coherent) {x : Copy (Row t)} (hx : v.copy t i = some x) (a : Row t) :
    (v.assign t i a).committed = Function.update v.committed t ((v.committed t).put i a) := by
  refine funext fun u => ?_
  by_cases e : u = t
  · subst e
    rw [Function.update_self]
    refine Table.eq_of_row (fun j => ?_) rfl
    rw [Table.row_put_of_some (h.row_of_copy hx), (h.assign a).row_committed, h.row_committed, copy_assign_self]
    by_cases hj : j = i
    · subst hj
      rw [if_pos rfl, if_pos rfl, hx]
      rfl
    · rw [if_neg hj, if_neg hj]
      rfl
  · rw [Function.update_of_ne e]
    refine Table.eq_of_row (fun j => ?_) rfl
    rw [(h.assign a).row_committed, h.row_committed, copy_assign_of_ne e]
    rfl

theorem flush (h : v.Coherent) : v.flush.Coherent := by
  intro t i x hx
  obtain ⟨y, hy, rfl⟩ := Copies.flush_eq_some.mp hx
  exact h.row_of_copy hy

theorem committed_flush (h : v.Coherent) : v.flush.committed = v.committed := by
  refine funext fun t => Table.eq_of_row (fun i => ?_) rfl
  rw [h.flush.row_committed]
  cases hx : v.copy t i with
  | none =>
    rw [show v.flush.copy t i = none by simp [View.flush, Copies.flush, hx]]
    rfl
  | some x =>
    rw [show v.flush.copy t i = some { x with loaded := x.now } by simp [View.flush, Copies.flush, hx]]
    exact (h.row_of_copy hx).symm

theorem insert (h : v.Coherent) (a : Row t) : (v.insert t a).Coherent := by
  intro u j x hx
  by_cases e : u = t
  · subst e
    rw [copy_insert] at hx
    rw [sees_insert]
    split at hx
    · next hj =>
      rw [Option.some.injEq] at hx
      rw [if_pos hj, ← hx]
    · next hj =>
      rw [if_neg hj]
      exact h u j x hx
  · rw [sees_insert_of_ne e]
    rw [copy_insert_of_ne e] at hx
    exact h u j x hx

theorem committed_insert (h : v.Coherent) (a : Row t) :
    (v.insert t a).committed = Function.update v.committed t ((v.committed t).insert a) := by
  refine funext fun u => ?_
  by_cases e : u = t
  · subst e
    rw [Function.update_self]
    refine Table.eq_of_row (fun j => ?_) ?_
    · rw [(h.insert a).row_committed, Table.row_insert, copy_insert, sees_insert]
      by_cases hj : j = (v.store u).next
      · rw [if_pos hj, if_pos hj]
        exact (if_pos hj).symm
      · rw [if_neg hj, if_neg hj, ← h.row_committed]
        exact (if_neg hj).symm
    · show (Function.update v.store u (v.store u).skip u).next = (v.store u).next + 1
      rw [Function.update_self]
      rfl
  · rw [Function.update_of_ne e]
    have rows : ∀ j, ((v.insert t a).committed u).row j = (v.committed u).row j := by
      intro j
      rw [(h.insert a).row_committed, h.row_committed, sees_insert_of_ne e, copy_insert_of_ne e]
    refine Table.eq_of_row rows ?_
    show (Function.update v.store t (v.store t).skip u).next = (v.store u).next
    rw [Function.update_of_ne e]

theorem foldl_assign {rows : List (Nat × Row t)} : ∀ {v : View Row}, v.Coherent → (∀ r ∈ rows, ∃ x, v.copy t r.1 = some x) →
    (rows.foldl (fun v r => v.assign t r.1 r.2) v).Coherent ∧
      (rows.foldl (fun v r => v.assign t r.1 r.2) v).sees = v.sees ∧
      (rows.foldl (fun v r => v.assign t r.1 r.2) v).committed =
        Function.update v.committed t (rows.foldl (fun tbl r => tbl.put r.1 r.2) (v.committed t)) := by
  induction rows with
  | nil => exact fun h _ => ⟨h, rfl, (Function.update_eq_self t _).symm⟩
  | cons r rows ih =>
    intro v h known
    obtain ⟨x, hx⟩ := known r List.mem_cons_self
    obtain ⟨coherent, sees, committed⟩ := ih (v := v.assign t r.1 r.2) (h.assign r.2) fun s hs => by
      obtain ⟨y, hy⟩ := known s (List.mem_cons_of_mem r hs)
      exact known_assign hy
    refine ⟨coherent, sees, committed.trans ?_⟩
    rw [h.committed_assign hx, Function.update_idem, Function.update_self]
    rfl

theorem foldl_insert {rows : List (Row t)} : ∀ {v : View Row}, v.Coherent →
    (rows.foldl (fun v a => v.insert t a) v).Coherent ∧
      (rows.foldl (fun v a => v.insert t a) v).committed = Function.update v.committed t ((v.committed t).insertAll rows) := by
  induction rows with
  | nil => exact fun h => ⟨h, (Function.update_eq_self t _).symm⟩
  | cons a rows ih =>
    intro v h
    obtain ⟨coherent, committed⟩ := ih (h.insert a)
    refine ⟨coherent, committed.trans ?_⟩
    rw [h.committed_insert a, Function.update_idem, Function.update_self]
    rfl

end Coherent

end View

/-! ### The program in the world -/

theorem Tx.alone_assignAll {t : T} {rows : List (Nat × Row t)} {next : Tx Row Name β} : ∀ {v : View Row},
    (assignAll t rows next).alone v = next.alone (rows.foldl (fun v r => v.assign t r.1 r.2) v) := by
  induction rows with
  | nil => exact rfl
  | cons r rows ih => exact ih

theorem Tx.alone_insertAll {t : T} {rows : List (Row t)} {next : Tx Row Name β} : ∀ {v : View Row},
    (rows.foldr (fun a p => .insert t a fun _ => p) next : Tx Row Name β).alone v =
      next.alone (rows.foldl (fun v a => v.insert t a) v) := by
  induction rows with
  | nil => exact rfl
  | cons a rows ih => exact ih

theorem Tx.alone_getForUpdate {t : T} {i : Nat} {a b : Row t} {next : Option (Row t) → Tx Row Name β} {v : View Row}
    (h : v.Coherent) (seen : (v.sees t).row i = some b) (row : (v.committed t).row i = some a) :
    (getForUpdate t i next).alone v = (next (some a)).alone (v.load true t [i]) := by
  have ids : Table.only i (v.sees t) = [i] := by simp [Table.only, seen]
  have rows : (v.load true t [i]).copy.rows t [i] = [(i, a)] := by
    rw [h.rows_load, List.filterMap_cons, row]
    rfl
  rw [getForUpdate, Tx.alone, ids, rows]
  rfl

/-! ### A session without pending assignments -/

namespace View

variable {v : View Row} {store : (t : T) → Table (Row t)} {t u : T} {i : Nat} {a : Row t} {p : Row t → Bool}

/-- The session sees the tables that it would commit. -/
structure Settled (store : (t : T) → Table (Row t)) (v : View Row) : Prop where
  coherent : v.Coherent
  sees : v.sees = store
  committed : v.committed = store

/-- The session has an object of the row. -/
def Known (v : View Row) (t : T) (i : Nat) : Prop := ∃ x, v.copy t i = some x

theorem Known.load (h : v.Known t i) (held : Bool) (ids : List Nat) : (v.load held u ids).Known t i :=
  h.imp fun _ => Copies.load_of_some

theorem Known.insert (h : v.Known t i) (ne : t ≠ u) (b : Row u) : (v.insert u b).Known t i := by
  unfold Known
  rw [copy_insert_of_ne ne]
  exact h

theorem settled_start : (start store).Settled store := by
  refine ⟨coherent_start, funext fun t => Table.eq_of_row (fun i => ?_) rfl, committed_start⟩
  exact sees_row rfl

namespace Settled

theorem load (h : v.Settled store) (held : Bool) (ids : List Nat) : (v.load held t ids).Settled store :=
  ⟨h.coherent.load held ids, h.sees, (h.coherent.committed_load held ids).trans h.committed⟩

theorem known_load (h : v.Settled store) (held : Bool) {ids : List Nat} (hi : i ∈ ids) (row : (store t).row i = some a) :
    (v.load held t ids).Known t i := by
  rw [← h.sees] at row
  exact View.known_load held hi row

theorem next_eq (h : v.Settled store) : (v.store t).next = (store t).next := by
  rw [← h.sees]
  rfl

theorem insert (h : v.Settled store) (a : Row t) :
    (v.insert t a).Settled (Function.update store t ((store t).insert a)) := by
  refine ⟨h.coherent.insert a, funext fun u => ?_, (h.coherent.committed_insert a).trans (by rw [h.committed])⟩
  by_cases e : u = t
  · subst e
    rw [Function.update_self]
    refine Table.eq_of_row (fun j => ?_) ?_
    · rw [sees_insert, h.next_eq, h.sees, Table.row_insert]
    · rw [Table.next_insert, ← h.next_eq]
      show ((v.insert u a).store u).next = _
      simp [View.insert, Table.skip]
  · rw [sees_insert_of_ne e, h.sees, Function.update_of_ne e]

theorem write (h : v.Settled store) (known : v.Known t i) (a : Row t) :
    (v.assign t i a).flush.Settled (Function.update store t ((store t).put i a)) := by
  obtain ⟨x, hx⟩ := known
  have written : (v.assign t i a).committed = Function.update store t ((store t).put i a) := by
    rw [h.coherent.committed_assign hx, h.committed]
  exact ⟨(h.coherent.assign a).flush, written, (h.coherent.assign a).committed_flush.trans written⟩

theorem rows_load (h : v.Settled store) (held : Bool) :
    (v.load held t (((store t).select p).map Prod.fst)).copy.rows t (((store t).select p).map Prod.fst) =
      (store t).select p := by
  rw [h.coherent.rows_load, h.committed, Table.filterMap_keys_select]

theorem alone_select (h : v.Settled store) {next : List (Nat × Row t) → Tx Row Name β} :
    (Tx.select t (fun tbl => (tbl.select p).map Prod.fst) next).alone v =
      (next ((store t).select p)).alone (v.load false t (((store t).select p).map Prod.fst)) := by
  rw [Tx.alone, h.sees, h.rows_load]

theorem alone_lock (h : v.Settled store) {next : List (Nat × Row t) → Tx Row Name β} :
    (Tx.lock t (fun tbl => (tbl.select p).map Prod.fst) next).alone v =
      (next ((store t).select p)).alone (v.load true t (((store t).select p).map Prod.fst)) := by
  rw [Tx.alone, h.sees, h.rows_load]

theorem alone_getForUpdate (h : v.Settled store) {next : Option (Row t) → Tx Row Name β} :
    (Tx.getForUpdate t i next).alone v = (next ((store t).row i)).alone (v.load true t ((store t).only i)) := by
  have rows : (v.load true t ((store t).only i)).copy.rows t ((store t).only i) =
      (((store t).row i).map fun a => (i, a)).toList := by
    rw [h.coherent.rows_load, h.committed, Table.only]
    cases row : (store t).row i <;> simp [row]
  rw [Tx.getForUpdate, Tx.alone, h.sees, rows]
  cases (store t).row i <;> rfl

end Settled

end View

namespace World

variable [DecidableEq Name] [Fintype T] {prog : Op → Tx Row Name β} {w : World Row Name β Op} {c : Conn Row Name β Op}
variable {tid : Nat} {b : β}

/-- The transaction stands before the program `p` with the session of `v`, and no other transaction holds a lock. -/
structure At (tid : Nat) (op : Op) (v : View Row) (p : Tx Row Name β) (w : World Row Name β Op) : Prop where
  free : ∀ t i, w.Free tid t i
  named : ∀ n, w.named n = none ∨ w.named n = some tid
  store : w.store = v.store
  conn : w.conn tid = some ⟨op, (p.settle v.copy).1, v.written, (p.settle v.copy).2⟩

theorem At.resume (free : ∀ t i, w.Free tid t i) (named : ∀ n, w.named n = none ∨ w.named n = some tid) {v : View Row}
    (store : w.store = v.store) (written : c.written = v.written) (p : Tx Row Name β) :
    (w.resume tid c v.copy p).At tid c.op v p := by
  refine ⟨free, named, store, ?_⟩
  rw [World.resume, conn_putConn_self, written]

theorem free_take (free : ∀ t i, w.Free tid t i) (t : T) (ids : List Nat) : ∀ u j, (w.take tid t ids).Free tid u j := by
  intro u j
  show (if u = t ∧ j ∈ ids then some tid else w.holder u j) = none ∨ (if u = t ∧ j ∈ ids then some tid else w.holder u j) = some tid
  split
  · exact .inr rfl
  · exact free u j

theorem free_takeDirty (free : ∀ t i, w.Free tid t i) (c : Conn Row Name β Op) : ∀ u j, (w.takeDirty tid c).Free tid u j := by
  intro u j
  show (if Dirty c.copy u j then some tid else w.holder u j) = none ∨ (if Dirty c.copy u j then some tid else w.holder u j) = some tid
  split
  · exact .inr rfl
  · exact free u j

/-- Some statements of the transaction later it has committed the tables `store` and answered `b`. -/
def Commits (prog : Op → Tx Row Name β) (tid : Nat) (op : Op) (store : (t : T) → Table (Row t)) (b : β)
    (w : World Row Name β Op) : Prop :=
  ∃ n, (run (fun w turn => w.step prog turn) w (List.replicate n (.next tid))).store = store ∧
    (run (fun w turn => w.step prog turn) w (List.replicate n (.next tid))).log = w.log ++ [(op, b)]

theorem Commits.before {op : Op} {store : (t : T) → Table (Row t)} {w' : World Row Name β Op}
    (step : w.step prog (.next tid) = w') (same : w'.log = w.log) (h : w'.Commits prog tid op store b) :
    w.Commits prog tid op store b := by
  obtain ⟨n, stored, logged⟩ := h
  exact ⟨n + 1, by rw [List.replicate_succ, run_cons, step, stored], by rw [List.replicate_succ, run_cons, step, logged, same]⟩

/-- A statement that brings the transaction before the program `q` with the session of `u`. -/
theorem At.commits {op : Op} {store : (t : T) → Table (Row t)} {v u : View Row} {p q : Tx Row Name β}
    {x : World Row Name β Op} (here : w.At tid op v p) (settled : p.settle v.copy = (v.copy, p))
    (exec : w.exec tid ⟨op, v.copy, v.written, p⟩ = x.resume tid ⟨op, v.copy, u.written, p⟩ u.copy q)
    (free : ∀ t i, x.Free tid t i) (named : ∀ n, x.named n = none ∨ x.named n = some tid)
    (stored : x.store = u.store) (same : x.log = w.log)
    (rest : ∀ {w : World Row Name β Op}, w.At tid op u q → w.Commits prog tid op store b) :
    w.Commits prog tid op store b := by
  have step : w.step prog (.next tid) = x.resume tid ⟨op, v.copy, u.written, p⟩ u.copy q := by
    simp only [World.step, here.conn, settled]
    exact exec
  exact .before step same (rest (At.resume (c := ⟨op, v.copy, u.written, p⟩) free named stored rfl q))

theorem flushed_of_store {op : Op} {v : View Row} (store : w.store = v.store) {p : Tx Row Name β} :
    w.flushed ⟨op, v.copy, v.written, p⟩ = v.flushed := by
  refine funext fun t => funext fun i => ?_
  simp only [World.flushed, View.flushed, World.view, store]
  rfl

/-- What a program commits when it runs alone is what its transaction commits in a world where it waits for nobody. -/
theorem commits_of_alone {op : Op} {store : (t : T) → Table (Row t)} {p : Tx Row Name β} :
    ∀ {v : View Row} {w : World Row Name β Op}, p.alone v = some (store, b) → w.At tid op v p →
      w.Commits prog tid op store b := by
  induction p with
  | done b' => exact fun h => nomatch h
  | assign t i a next ih =>
    exact fun h here => ih (v := View.assign _ t i a) h ⟨here.free, here.named, here.store, here.conn⟩
  | select t which next ih =>
    intro v w h here
    refine here.commits (u := v.load false t (which (v.sees t))) rfl ?_ here.free here.named here.store rfl (ih _ h)
    simp only [World.exec, World.view, here.store]
    rfl
  | count t f next ih =>
    intro v w h here
    refine here.commits (u := v) rfl ?_ here.free here.named here.store rfl (ih _ h)
    simp only [World.exec, World.view, here.store]
    rfl
  | lock t which next ih =>
    intro v w h here
    refine here.commits (u := v.load true t (which (v.sees t))) rfl ?_ (free_take here.free t (which (v.sees t)))
      here.named here.store rfl (ih _ h)
    simp only [World.exec, World.view, here.store]
    exact if_pos fun i _ => here.free t i
  | skipLocked t which limit next ih =>
    intro v w h here
    refine here.commits (u := v.load true t ((which (v.sees t)).take limit)) rfl ?_
      (free_take here.free t ((which (v.sees t)).take limit)) here.named here.store rfl (ih _ h)
    have all : (which (v.sees t)).filter (fun i => w.Free tid t i) = which (v.sees t) :=
      List.filter_eq_self.mpr fun i _ => decide_eq_true (here.free t i)
    simp only [World.exec, World.view, here.store]
    change (let ids := ((which (v.sees t)).filter fun i => w.Free tid t i).take limit
      (w.take tid t ids).resume tid _ (v.copy.load true t (v.sees t) ids)
        (next ((v.copy.load true t (v.sees t) ids).rows t ids))) = _
    rw [all]
    rfl
  | advisory n next ih =>
    intro v w h here
    refine here.commits (u := v) (x := { w with named := fun m => if m = n then some tid else w.named m }) rfl ?_ here.free
      (fun m => ?_) here.store rfl (ih h)
    · exact if_pos (here.named n)
    · show (if m = n then some tid else w.named m) = none ∨ (if m = n then some tid else w.named m) = some tid
      split
      · exact .inr rfl
      · exact here.named m
  | flush next ih =>
    intro v w h here
    refine here.commits (u := v.flush) rfl ?_ (free_takeDirty here.free ⟨op, v.copy, v.written, .flush next⟩) here.named
      here.store rfl (ih h)
    refine (if_pos fun t i _ _ => here.free t i).trans ?_
    rw [flushed_of_store here.store]
    rfl
  | insert t a next ih =>
    intro v w h here
    refine here.commits (u := v.insert t a)
      (x := { w.take tid t [(v.store t).next] with store := Function.update v.store t (v.store t).skip }) rfl ?_
      (free_take here.free t [(v.store t).next]) here.named rfl rfl (ih _ h)
    simp only [World.exec, here.store]
    rfl
  | commit b' =>
    intro v w h here
    obtain ⟨rfl, rfl⟩ := Prod.mk.inj (Option.some.inj h)
    refine ⟨1, ?_⟩
    have exec : w.step prog (.next tid) =
        { w with store := v.committed }.close tid ⟨op, v.copy, v.written, .commit b'⟩ (some b') := by
      simp only [World.step, here.conn, Tx.settle]
      refine (if_pos fun t i _ _ => here.free t i).trans ?_
      have same : w.committed ⟨op, v.copy, v.written, .commit b'⟩ = v.committed := by
        refine funext fun t => ?_
        show (w.store t).overlay (w.flushed _ t) = (v.store t).overlay (v.flushed t)
        rw [flushed_of_store here.store, here.store]
      rw [same]
    rw [List.replicate_one, run_cons, run_nil, exec]
    exact ⟨rfl, rfl⟩

/-- A transaction that is opened where no lock is held, and that nobody interrupts. -/
theorem commits_of_begin {op : Op} {store store' : (t : T) → Table (Row t)}
    (h : (prog op).alone (View.start store) = some (store', b)) :
    ((start store : World Row Name β Op).step prog (.begin tid op)).Commits prog tid op store' b := by
  refine commits_of_alone h (At.resume (c := ⟨op, _, _, prog op⟩) (v := View.start store) ?_ ?_ rfl rfl (prog op))
  · exact fun _ _ => .inl rfl
  · exact fun _ => .inl rfl

end World

end SalonBooking.Lib
