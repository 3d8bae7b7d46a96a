import Mathlib
import SalonBooking.Model.Db

/-!
# The status history

Every writer of an appointment status adds the history row itself. `Chronicle` says what one transaction may do
to the appointments and their history together; the rows of one appointment are then a path through the
transition table that ends in its status.
-/

namespace SalonBooking

open Lib

/-- The history rows of an appointment, in the order of their insertion. -/
def historyOf (history : List AppointmentStatusHistory) (i : Nat) : List AppointmentStatusHistory :=
  history.filter fun row => row.appointmentId = i

/-- A change of the appointments with the history rows that it adds. -/
inductive Chronicle :
    Table Appointment → List AppointmentStatusHistory → Table Appointment → List AppointmentStatusHistory → Prop
  | refl {appointments history} : Chronicle appointments history appointments history
  | opened {appointments history a row} (of : row.appointmentId = appointments.next) (first : row.previousStatus = none)
      (now : row.newStatus = a.status) : Chronicle appointments history (appointments.insert a) (history ++ [row])
  | moved {appointments history i a a' row} (stored : appointments.row i = some a) (edge : a'.status ∈ a.status.allowed)
      (of : row.appointmentId = i) (before : row.previousStatus = some a.status) (now : row.newStatus = a'.status) :
      Chronicle appointments history (appointments.put i a') (history ++ [row])
  | kept {appointments history i a a'} (stored : appointments.row i = some a) (same : a'.status = a.status) :
      Chronicle appointments history (appointments.put i a') history
  | trans {appointments history appointments' history' appointments'' history''}
      (h : Chronicle appointments history appointments' history')
      (h' : Chronicle appointments' history' appointments'' history'') :
      Chronicle appointments history appointments'' history''

/-- The rows lead from no status to `status`, each from where the one before it ended, along the edges of the table. -/
structure LegalPath (rows : List AppointmentStatusHistory) (status : AppointmentStatus) : Prop where
  starts : rows.head?.map (·.previousStatus) = some none
  chained : rows.IsChain fun r s => s.previousStatus = some r.newStatus ∧ s.newStatus ∈ r.newStatus.allowed
  ends : rows.getLast?.map (·.newStatus) = some status

/-- Every appointment has a legal history, and no other appointment has any. -/
structure Traced (appointments : Table Appointment) (history : List AppointmentStatusHistory) : Prop where
  path : ∀ i a, appointments.row i = some a → LegalPath (historyOf history i) a.status
  unknown : ∀ i, appointments.row i = none → historyOf history i = []

theorem historyOf_append_self {history : List AppointmentStatusHistory} {row : AppointmentStatusHistory} {i : Nat}
    (of : row.appointmentId = i) : historyOf (history ++ [row]) i = historyOf history i ++ [row] := by
  rw [historyOf, List.filter_append, List.filter_singleton, decide_eq_true of]
  rfl

theorem historyOf_append_of_ne {history : List AppointmentStatusHistory} {row : AppointmentStatusHistory} {i : Nat}
    (other : row.appointmentId ≠ i) : historyOf (history ++ [row]) i = historyOf history i := by
  rw [historyOf, List.filter_append, List.filter_singleton, decide_eq_false other]
  exact List.append_nil _

namespace LegalPath

variable {rows : List AppointmentStatusHistory} {row : AppointmentStatusHistory} {s t : AppointmentStatus}

theorem single (first : row.previousStatus = none) (now : row.newStatus = s) : LegalPath [row] s :=
  ⟨congrArg some first, .singleton row, congrArg some now⟩

theorem snoc (h : LegalPath rows s) (edge : t ∈ s.allowed) (before : row.previousStatus = some s)
    (now : row.newStatus = t) : LegalPath (rows ++ [row]) t := by
  obtain ⟨first, hfirst, starts⟩ := Option.map_eq_some_iff.mp h.starts
  obtain ⟨last, hlast, ends⟩ := Option.map_eq_some_iff.mp h.ends
  refine ⟨?_, h.chained.append (.singleton row) fun r hr s' hs => ?_, ?_⟩
  · rw [List.head?_append, hfirst]
    exact congrArg some starts
  · rw [hlast, Option.mem_some_iff] at hr
    obtain rfl : row = s' := Option.mem_some_iff.mp hs
    subst hr
    rw [ends]
    exact ⟨before, now ▸ edge⟩
  · rw [List.getLast?_append]
    exact congrArg some now

end LegalPath

namespace Traced

variable {appointments appointments' : Table Appointment} {history history' : List AppointmentStatusHistory}

theorem empty : Traced .empty [] := ⟨fun _ _ h => absurd h (by simp), fun _ _ => rfl⟩

theorem of_chronicle (h : Traced appointments history) (hc : Chronicle appointments history appointments' history') :
    Traced appointments' history' := by
  induction hc with
  | refl => exact h
  | @opened appointments history a row of first now =>
    refine ⟨fun i b hb => ?_, fun i hi => ?_⟩
    · rcases Table.row_insert_eq_some.mp hb with ⟨rfl, rfl⟩ | hold
      · rw [historyOf_append_self of, h.unknown _ (appointments.bounded _ le_rfl)]
        exact .single first now
      · rw [historyOf_append_of_ne (of ▸ (Table.lt_next hold).ne')]
        exact h.path i b hold
    · rw [Table.row_insert] at hi
      by_cases e : i = appointments.next
      · rw [if_pos e] at hi
        cases hi
      · rw [if_neg e] at hi
        rw [historyOf_append_of_ne (of ▸ Ne.symm e)]
        exact h.unknown i hi
  | @moved appointments history i a a' row stored edge of before now =>
    refine ⟨fun j b hb => ?_, fun j hj => ?_⟩
    · rw [Table.row_put_of_some stored] at hb
      by_cases e : j = i
      · rw [if_pos e, Option.some.injEq] at hb
        subst e hb
        rw [historyOf_append_self of]
        exact (h.path j a stored).snoc edge before now
      · rw [if_neg e] at hb
        rw [historyOf_append_of_ne (of ▸ Ne.symm e)]
        exact h.path j b hb
    · rw [Table.row_put_eq_none] at hj
      have other : i ≠ j := by
        rintro rfl
        rw [stored] at hj
        cases hj
      rw [historyOf_append_of_ne (of ▸ other)]
      exact h.unknown j hj
  | @kept appointments history i a a' stored same =>
    refine ⟨fun j b hb => ?_, fun j hj => h.unknown j (Table.row_put_eq_none.mp hj)⟩
    rw [Table.row_put_of_some stored] at hb
    by_cases e : j = i
    · rw [if_pos e, Option.some.injEq] at hb
      subst e hb
      rw [same]
      exact h.path j a stored
    · rw [if_neg e] at hb
      exact h.path j b hb
  | trans _ _ ih ih' => exact ih' (ih h)

end Traced

end SalonBooking
