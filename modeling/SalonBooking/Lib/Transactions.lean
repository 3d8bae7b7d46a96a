import SalonBooking.Lib.Run
import SalonBooking.Lib.Table
import Mathlib

/-!
# Concurrent transactions under row locks

Transactions are programs of SQL statements over a family of tables, run by a session with an identity
map: the session hands out the object it loaded first, also to a later locking select, and an UPDATE
writes the columns whose value differs from the loaded one. Isolation is READ COMMITTED: every statement
sees the rows committed at that moment and the session's own writes. Row locks are exclusive and are held
to the end of the transaction; a statement that needs a lock of another transaction waits.

One step of the world is one statement of one transaction. What happens between two statements
(assignments to loaded objects) happens at once, in the process that runs the transaction.
-/

namespace SalonBooking.Lib

/-- Rows whose columns are written one by one: the value of a row that held `stored`, after an object that was
loaded with one set of values and was assigned another is written to it. -/
class Columns (α : Type) where
  write : (loaded assigned stored : α) → α
  write_fresh : ∀ loaded assigned, write loaded assigned loaded = assigned
  write_untouched : ∀ loaded stored, write loaded loaded stored = stored

attribute [simp] Columns.write_fresh Columns.write_untouched

/-- An object in the identity map: the committed row it was read from (none for a new object), the values
that the session takes to be stored, the values now, and whether its first load locked the row. -/
structure Copy (α : Type) where
  base : Option α
  loaded : α
  now : α
  held : Bool
deriving DecidableEq

namespace Copy

variable {α : Type}

/-- The object of a row that is read for the first time. -/
def ofRow (held : Bool) (a : α) : Copy α := ⟨some a, a, a, held⟩

/-- The object stands for the row as it is committed, up to what the session itself has written. -/
def Current (row written : Option α) (x : Copy α) : Prop :=
  x.base = row ∧ (written.orElse fun _ => row) = some x.loaded

end Copy

/-! ### Programs -/

section Programs

variable {T : Type} (Row : T → Type) (Name β : Type)

/-- A transaction as the statements it sends. `which` is the WHERE, ORDER BY and LIMIT of a select, as the keys
it picks from the table. -/
inductive Tx : Type
  /-- Leaves without a commit. -/
  | done (b : β)
  | select (t : T) (which : Table (Row t) → List Nat) (next : List (Nat × Row t) → Tx)
  /-- SELECT count(...): numbers of rows, without their objects. -/
  | count (t : T) (f : Table (Row t) → List Nat) (next : List Nat → Tx)
  /-- SELECT ... FOR UPDATE. -/
  | lock (t : T) (which : Table (Row t) → List Nat) (next : List (Nat × Row t) → Tx)
  /-- SELECT ... LIMIT ... FOR UPDATE SKIP LOCKED. -/
  | skipLocked (t : T) (which : Table (Row t) → List Nat) (limit : Nat) (next : List (Nat × Row t) → Tx)
  /-- A transaction-level advisory lock. -/
  | advisory (n : Name) (next : Tx)
  | assign (t : T) (i : Nat) (a : Row t) (next : Tx)
  | flush (next : Tx)
  | insert (t : T) (a : Row t) (next : Nat → Tx)
  | commit (b : β)

abbrev Copies : Type := (t : T) → Nat → Option (Copy (Row t))

end Programs

section World

variable {T : Type} [DecidableEq T] {Row : T → Type} {Name β Op : Type}

/-- The key of the row `i`, when there is one. -/
def Table.only {α : Type} (i : Nat) (t : Table α) : List Nat := if (t.row i).isSome then [i] else []

/-- A table as a session sees it: with the rows that it has written over the committed ones. -/
def Table.overlay {α : Type} (t : Table α) (written : Nat → Option α) : Table α where
  row i := if i < t.next then (written i).orElse fun _ => t.row i else none
  next := t.next
  bounded _ hi := if_neg (Nat.not_lt.mpr hi)

theorem Table.row_overlay {α : Type} {t : Table α} {written : Nat → Option α} {i : Nat} (hi : i < t.next) :
    (t.overlay written).row i = (written i).orElse fun _ => t.row i := if_pos hi

/-- The next key is spent without a row. -/
def Table.skip {α : Type} (t : Table α) : Table α where
  row := t.row
  next := t.next + 1
  bounded i hi := t.bounded i (by omega)

namespace Copies

/-- Rows that come back from a select enter the identity map unless they are there. -/
def load (c : Copies Row) (held : Bool) (t : T) (tbl : Table (Row t)) (ids : List Nat) : Copies Row :=
  Function.update c t fun i => (c t i).orElse fun _ => if i ∈ ids then (tbl.row i).map (.ofRow held) else none

/-- The objects that a select hands out. -/
def rows (c : Copies Row) (t : T) (ids : List Nat) : List (Nat × Row t) :=
  ids.filterMap fun i => (c t i).map fun x => (i, x.now)

def assign (c : Copies Row) (t : T) (i : Nat) (a : Row t) : Copies Row :=
  Function.update c t fun j => if j = i then (c t j).map fun x => { x with now := a } else c t j

def insert (c : Copies Row) (t : T) (i : Nat) (a : Row t) : Copies Row :=
  Function.update c t fun j => if j = i then some ⟨none, a, a, true⟩ else c t j

/-- After the UPDATEs the session takes its values to be stored. -/
def flush (c : Copies Row) : Copies Row := fun t i => (c t i).map fun x => { x with loaded := x.now }

end Copies

/-- Runs the assignments up to the next statement. -/
def Tx.settle : Copies Row → Tx Row Name β → Copies Row × Tx Row Name β
  | c, .assign t i a next => settle (c.assign t i a) next
  | c, p => (c, p)

structure Conn (Row : T → Type) (Name β Op : Type) where
  op : Op
  copy : Copies Row
  written : (t : T) → Nat → Option (Row t)
  rest : Tx Row Name β

/-- The committed tables, who holds which lock, the open transactions, and the answers of those that ended. -/
structure World (Row : T → Type) (Name β Op : Type) where
  store : (t : T) → Table (Row t)
  holder : T → Nat → Option Nat
  named : Name → Option Nat
  conn : Nat → Option (Conn Row Name β Op)
  log : List (Op × β)

/-- Some open transaction sends its next statement, a new one is opened, or one is lost. -/
inductive Turn (Op : Type)
  | begin (tid : Nat) (op : Op)
  | next (tid : Nat)
  | abort (tid : Nat)
deriving DecidableEq

namespace World

variable (w : World Row Name β Op) (tid : Nat) (c : Conn Row Name β Op)

/-- Only committed tables and no transaction. -/
def start (store : (t : T) → Table (Row t)) : World Row Name β Op :=
  ⟨store, fun _ _ => none, fun _ => none, fun _ => none, []⟩

/-- The table as the transaction sees it. -/
def view (t : T) : Table (Row t) := (w.store t).overlay (c.written t)

/-- No other transaction holds the row. -/
def Free (t : T) (i : Nat) : Prop := w.holder t i = none ∨ w.holder t i = some tid

instance (t : T) (i : Nat) : Decidable (w.Free tid t i) := inferInstanceAs (Decidable (_ ∨ _))

/-- Takes the locks of the rows `ids`. -/
def take (t : T) (ids : List Nat) : World Row Name β Op :=
  { w with holder := fun u j => if u = t ∧ j ∈ ids then some tid else w.holder u j }

/-- Stores the state of an open transaction. -/
def putConn (x : Option (Conn Row Name β Op)) : World Row Name β Op :=
  { w with conn := fun k => if k = tid then x else w.conn k }

/-- The transaction goes on with its objects and its program up to the next statement. -/
def resume (copy : Copies Row) (rest : Tx Row Name β) : World Row Name β Op :=
  w.putConn tid (some { c with copy := (rest.settle copy).1, rest := (rest.settle copy).2 })

/-- Ends the transaction: its locks are gone and its answer is out. -/
def close (b : Option β) : World Row Name β Op :=
  { store := w.store
    holder := fun t i => if w.holder t i = some tid then none else w.holder t i
    named := fun n => if w.named n = some tid then none else w.named n
    conn := fun k => if k = tid then none else w.conn k
    log := w.log ++ (b.map fun b => (c.op, b)).toList }

section Write

variable [∀ t, DecidableEq (Row t)] [∀ t, Columns (Row t)] [DecidableEq Name]

/-- The row has assignments that are not written yet. -/
def Dirty (copy : Copies Row) (t : T) (i : Nat) : Prop := (copy t i).any (fun x => x.now ≠ x.loaded) = true

instance (copy : Copies Row) (t : T) (i : Nat) : Decidable (Dirty copy t i) := inferInstanceAs (Decidable (_ = _))

/-- The session's own rows after the UPDATEs. -/
def flushed (t : T) (i : Nat) : Option (Row t) :=
  match c.copy t i with
  | some x => if x.now = x.loaded then c.written t i else ((w.view c t).row i).map (Columns.write x.loaded x.now)
  | none => c.written t i

/-- No UPDATE of the transaction has to wait. -/
def CanFlush : Prop := ∀ t, ∀ i < (w.store t).next, Dirty c.copy t i → w.Free tid t i

instance [Fintype T] : Decidable (w.CanFlush tid c) :=
  inferInstanceAs (Decidable (∀ t, ∀ i < (w.store t).next, Dirty c.copy t i → w.Free tid t i))

def takeDirty : World Row Name β Op :=
  { w with holder := fun t i => if Dirty c.copy t i then some tid else w.holder t i }

/-- The committed tables after the transaction. -/
def committed (t : T) : Table (Row t) := (w.store t).overlay (w.flushed c t)

variable [Fintype T]

/-- The next statement of an open transaction; a statement that has to wait changes nothing. -/
def exec : World Row Name β Op :=
  match c.rest with
  | .done b => w.close tid c (some b)
  | .select t which next =>
    let ids := which (w.view c t)
    let copy := c.copy.load false t (w.view c t) ids
    w.resume tid c copy (next (copy.rows t ids))
  | .count t f next => w.resume tid c c.copy (next (f (w.view c t)))
  | .lock t which next =>
    let ids := which (w.view c t)
    let copy := c.copy.load true t (w.view c t) ids
    if ∀ i ∈ ids, w.Free tid t i then (w.take tid t ids).resume tid c copy (next (copy.rows t ids)) else w
  | .skipLocked t which limit next =>
    let ids := ((which (w.view c t)).filter fun i => w.Free tid t i).take limit
    let copy := c.copy.load true t (w.view c t) ids
    (w.take tid t ids).resume tid c copy (next (copy.rows t ids))
  | .advisory n next =>
    if w.named n = none ∨ w.named n = some tid then
      { w with named := fun m => if m = n then some tid else w.named m }.resume tid c c.copy next
    else w
  | .assign t i a next => w.resume tid c (c.copy.assign t i a) next
  | .flush next =>
    if w.CanFlush tid c then
      (w.takeDirty tid c).resume tid { c with written := w.flushed c } c.copy.flush next
    else w
  | .insert t a next =>
    let i := (w.store t).next
    let w' := { w.take tid t [i] with store := Function.update w.store t (w.store t).skip }
    let written := Function.update c.written t fun j => if j = i then some a else c.written t j
    w'.resume tid { c with written } (c.copy.insert t i a) (next i)
  | .commit b => if w.CanFlush tid c then { w with store := w.committed c }.close tid c (some b) else w

/-- One step of the world. A transaction that is opened under a number in use is refused. -/
def step (prog : Op → Tx Row Name β) : Turn Op → World Row Name β Op
  | .begin tid op =>
    match w.conn tid with
    | none => w.resume tid ⟨op, fun _ _ => none, fun _ _ => none, prog op⟩ (fun _ _ => none) (prog op)
    | some _ => w
  | .next tid =>
    match w.conn tid with
    | some c => w.exec tid c
    | none => w
  | .abort tid =>
    match w.conn tid with
    | some c => w.close tid c none
    | none => w

end Write

end World

/-! ### What a program ensures -/

/-- A table that a statement may see: rows in the session's locks are as the session takes them to be. -/
def Copies.Sees (c : Copies Row) (t : T) (tbl : Table (Row t)) : Prop :=
  ∀ i x, c t i = some x → x.held = true → tbl.row i = some x.loaded

/-- Whatever the statements of the program return, it satisfies `D` where it leaves and `Q` where it commits. -/
def Tx.Ensures (D Q : Copies Row → β → Prop) : Copies Row → Tx Row Name β → Prop
  | c, .done b => D c b
  | c, .select t which next =>
    ∀ tbl, c.Sees t tbl → Ensures D Q (c.load false t tbl (which tbl)) (next ((c.load false t tbl (which tbl)).rows t (which tbl)))
  | c, .count t f next => ∀ tbl, c.Sees t tbl → Ensures D Q c (next (f tbl))
  | c, .lock t which next =>
    ∀ tbl, c.Sees t tbl → Ensures D Q (c.load true t tbl (which tbl)) (next ((c.load true t tbl (which tbl)).rows t (which tbl)))
  | c, .skipLocked t which _ next =>
    ∀ tbl ids, c.Sees t tbl → ids.Sublist (which tbl) →
      Ensures D Q (c.load true t tbl ids) (next ((c.load true t tbl ids).rows t ids))
  | c, .advisory _ next => Ensures D Q c next
  | c, .assign t i a next => Ensures D Q (c.assign t i a) next
  | c, .flush next => Ensures D Q c.flush next
  | c, .insert t a next => ∀ i, c t i = none → Ensures D Q (c.insert t i a) (next i)
  | c, .commit b => Q c b

theorem Tx.ensures_settle {D Q : Copies Row → β → Prop} {c : Copies Row} {p : Tx Row Name β} :
    (p.settle c).2.Ensures D Q (p.settle c).1 ↔ p.Ensures D Q c := by
  induction p generalizing c with
  | assign t i a next ih => exact ih
  | _ => rfl

theorem Tx.ensures_of_forall {D Q : Copies Row → β → Prop} (hD : ∀ c b, D c b) (hQ : ∀ c b, Q c b) {c : Copies Row}
    (p : Tx Row Name β) : p.Ensures D Q c := by
  induction p generalizing c with
  | done b => exact hD c b
  | select t which next ih => exact fun tbl _ => ih _
  | count t f next ih => exact fun tbl _ => ih _
  | lock t which next ih => exact fun tbl _ => ih _
  | skipLocked t which limit next ih => exact fun tbl ids _ _ => ih _
  | advisory n next ih => exact ih
  | assign t i a next ih => exact ih
  | flush next ih => exact ih
  | insert t a next ih => exact fun i _ => ih i
  | commit b => exact hQ c b

/-- Every assignment of the program takes the row that its object was loaded from along `G`. -/
def Tx.Writes (G : (t : T) → Nat → Row t → Row t → Prop) : Copies Row → Tx Row Name β → Prop
  | _, .done _ | _, .commit _ => True
  | c, .select t which next =>
    ∀ tbl, c.Sees t tbl → Writes G (c.load false t tbl (which tbl)) (next ((c.load false t tbl (which tbl)).rows t (which tbl)))
  | c, .count t f next => ∀ tbl, c.Sees t tbl → Writes G c (next (f tbl))
  | c, .lock t which next =>
    ∀ tbl, c.Sees t tbl → Writes G (c.load true t tbl (which tbl)) (next ((c.load true t tbl (which tbl)).rows t (which tbl)))
  | c, .skipLocked t which _ next =>
    ∀ tbl ids, c.Sees t tbl → ids.Sublist (which tbl) →
      Writes G (c.load true t tbl ids) (next ((c.load true t tbl ids).rows t ids))
  | c, .advisory _ next => Writes G c next
  | c, .assign t i a next => (∀ x b, c t i = some x → x.base = some b → G t i b a) ∧ Writes G (c.assign t i a) next
  | c, .flush next => Writes G c.flush next
  | c, .insert t a next => ∀ i, c t i = none → Writes G (c.insert t i a) (next i)

end World

end SalonBooking.Lib
