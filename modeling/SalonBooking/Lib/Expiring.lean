import Mathlib

/-!
# Values that expire

A store that forgets a value when its time to live has elapsed. What one key holds changes only through that key.
-/

namespace SalonBooking.Lib

/-- Each key with its value and the instant from which it is gone. -/
structure Expiring (K V : Type*) where
  entry : K → Option (V × Int)

namespace Expiring

variable {K V : Type*} {r : Expiring K V} {now ttl e : Int} {k k' : K} {v : V}

def empty : Expiring K V := ⟨fun _ => none⟩

/-- `GET`. -/
def get (r : Expiring K V) (now : Int) (k : K) : Option V := (r.entry k).bind fun p => if now < p.2 then some p.1 else none

theorem get_of_entry (h : r.entry k = some (v, e)) : r.get now k = if now < e then some v else none := by
  rw [get, h, Option.bind_some]

theorem get_of_none (h : r.entry k = none) : r.get now k = none := by
  rw [get, h, Option.bind_none]

variable [DecidableEq K]

/-- `SET k v EX ttl NX`. -/
def setNx (r : Expiring K V) (now : Int) (k : K) (v : V) (ttl : Int) : Bool × Expiring K V :=
  if (r.get now k).isSome then (false, r) else (true, ⟨Function.update r.entry k (some (v, now + ttl))⟩)

/-- `DEL k`: whether there was a value. -/
def delete (r : Expiring K V) (now : Int) (k : K) : Bool × Expiring K V :=
  ((r.get now k).isSome, ⟨Function.update r.entry k none⟩)

theorem setNx_of_free (h : r.get now k = none) :
    r.setNx now k v ttl = (true, ⟨Function.update r.entry k (some (v, now + ttl))⟩) := by
  rw [setNx, h]
  rfl

theorem setNx_of_taken (h : (r.get now k).isSome = true) : r.setNx now k v ttl = (false, r) := if_pos h

theorem entry_setNx_ne (h : k' ≠ k) : (r.setNx now k v ttl).2.entry k' = r.entry k' := by
  unfold setNx
  split_ifs
  · rfl
  · exact Function.update_of_ne h _ _

theorem entry_delete_ne (h : k' ≠ k) : (r.delete now k).2.entry k' = r.entry k' := Function.update_of_ne h _ _

@[simp] theorem entry_delete : (r.delete now k).2.entry k = none := Function.update_self _ _ _

end Expiring

end SalonBooking.Lib
