import Mathlib

/-!
# Nested tags

Streams of tags and content, the stack of the tags that enclose each piece of content, and cutting a stream in two:
the tags that are open at the cut are closed before it and opened again after it.
-/

namespace SalonBooking.Lib

inductive Markup (τ κ α : Type*)
  | opens (tag : τ)
  | closes (name : κ)
  | holds (content : α)
  deriving DecidableEq

namespace Markup

variable {τ κ α : Type*} {stack inner outer : List τ} {xs ys : List (Markup τ κ α)} {tag : τ} {k : κ} {a : α}

/-- The content of a stream, each piece with the tags that enclose it, innermost first. -/
def contents (stack : List τ) : List (Markup τ κ α) → List (α × List τ)
  | [] => []
  | opens tag :: rest => contents (tag :: stack) rest
  | closes _ :: rest => contents stack.tail rest
  | holds a :: rest => (a, stack) :: contents stack rest

@[simp] theorem contents_nil : contents stack ([] : List (Markup τ κ α)) = [] := rfl

@[simp] theorem contents_opens : contents stack (opens tag :: xs) = contents (tag :: stack) xs := rfl

@[simp] theorem contents_closes : contents stack (closes k :: xs) = contents stack.tail xs := rfl

@[simp] theorem contents_holds : contents stack (holds a :: xs) = (a, stack) :: contents stack xs := rfl

/-- The tags of a stack closed, the innermost first. -/
def closers (name : τ → κ) (stack : List τ) : List (Markup τ κ α) := stack.map fun tag => closes (name tag)

/-- The tags of a stack opened, the outermost first. -/
def openers (stack : List τ) : List (Markup τ κ α) := (stack.map opens).reverse

theorem openers_cons_append : openers (tag :: inner) ++ xs = openers inner ++ opens tag :: xs := by
  simp [openers]

theorem contents_closers {name : τ → κ} : contents outer (closers name stack : List (Markup τ κ α)) = [] := by
  induction stack generalizing outer with
  | nil => rfl
  | cons tag stack ih => simpa [closers] using ih

/-! ### The open tags -/

variable [DecidableEq κ] (name : τ → κ)

/-- The open tags after a stream, innermost first; `none` when a tag is closed that is not the innermost open one. -/
def nest (stack : List τ) : List (Markup τ κ α) → Option (List τ)
  | [] => some stack
  | opens tag :: rest => nest (tag :: stack) rest
  | closes k :: rest =>
    match stack with
    | tag :: outer => if name tag = k then nest outer rest else none
    | [] => none
  | holds _ :: rest => nest stack rest

/-- Every tag is closed, in the order of nesting. -/
def Nested (xs : List (Markup τ κ α)) : Prop := nest name [] xs = some []

instance [DecidableEq τ] (xs : List (Markup τ κ α)) : Decidable (Nested name xs) :=
  inferInstanceAs (Decidable (_ = _))

variable {name}

@[simp] theorem nest_nil : nest name stack ([] : List (Markup τ κ α)) = some stack := rfl

@[simp] theorem nest_opens : nest name stack (opens tag :: xs) = nest name (tag :: stack) xs := rfl

@[simp] theorem nest_closes : nest name (tag :: stack) (closes (name tag) :: xs) = nest name stack xs := by
  simp [nest]

@[simp] theorem nest_holds : nest name stack (holds a :: xs) = nest name stack xs := rfl

theorem nest_closes_some {left : List τ} (h : nest name stack (closes k :: xs) = some left) :
    ∃ tag outer, stack = tag :: outer ∧ name tag = k ∧ nest name outer xs = some left := by
  cases stack with
  | nil => simp [nest] at h
  | cons tag outer =>
    by_cases same : name tag = k
    · exact ⟨tag, outer, rfl, same, by simpa [nest, same] using h⟩
    · simp [nest, same] at h

theorem nest_append : nest name stack (xs ++ ys) = (nest name stack xs).bind (nest name · ys) := by
  induction xs generalizing stack with
  | nil => rfl
  | cons x xs ih =>
    cases x with
    | opens tag => simpa using ih
    | holds a => simpa using ih
    | closes k =>
      cases stack with
      | nil => simp [nest]
      | cons tag outer =>
        by_cases same : name tag = k
        · simpa [nest, same] using ih
        · simp [nest, same]

theorem contents_append (h : nest name stack xs = some inner) :
    contents stack (xs ++ ys) = contents stack xs ++ contents inner ys := by
  induction xs generalizing stack with
  | nil =>
    obtain rfl : stack = inner := by simpa using h
    rfl
  | cons x xs ih =>
    cases x with
    | opens tag => simpa using ih h
    | holds a => simpa using ih h
    | closes k =>
      obtain ⟨tag, outer, rfl, rfl, rest⟩ := nest_closes_some h
      simpa using ih rest

/-! ### Cutting a stream -/

theorem nest_closers : nest name (inner ++ stack) (closers name inner : List (Markup τ κ α)) = some stack := by
  induction inner with
  | nil => rfl
  | cons tag inner ih => simpa [closers] using ih

theorem nest_openers_append : nest name stack (openers inner ++ xs) = nest name (inner ++ stack) xs := by
  induction inner generalizing xs with
  | nil => rfl
  | cons tag inner ih => rw [openers_cons_append, ih, nest_opens, List.cons_append]

theorem nested_before_cut (h : nest name [] xs = some inner) : Nested name (xs ++ closers name inner) := by
  rw [Nested, nest_append, h]
  have closed : nest name (inner ++ []) (closers name inner : List (Markup τ κ α)) = some [] := nest_closers
  simpa using closed

theorem contents_before_cut (h : nest name [] xs = some inner) :
    contents [] (xs ++ closers name inner) = contents [] xs := by
  rw [contents_append h, contents_closers, List.append_nil]

theorem nest_after_cut : nest name [] (openers inner ++ ys) = nest name inner ys := by
  have opened : nest name [] (openers inner ++ ys) = nest name (inner ++ []) ys := nest_openers_append
  simpa using opened

end Markup

end SalonBooking.Lib
