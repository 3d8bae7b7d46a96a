import Mathlib

/-!
# Runs of a transition system

A system is a step function over labels; a step that is refused leaves the state as it is. `run` is the
state after a list of labels, and a run is `Guarded` when all its steps meet a side condition on the
state they start from. The induction rules package "true at the start and kept by every step".
-/

namespace SalonBooking.Lib

universe u v

variable {σ : Type u} {ι : Type v}

/-- The state after the labels `l`, one step each. -/
def run (step : σ → ι → σ) (s : σ) (l : List ι) : σ := l.foldl step s

@[simp] theorem run_nil (step : σ → ι → σ) (s : σ) : run step s [] = s := rfl

@[simp] theorem run_cons (step : σ → ι → σ) (s : σ) (i : ι) (l : List ι) :
    run step s (i :: l) = run step (step s i) l := rfl

theorem run_append (step : σ → ι → σ) (s : σ) (l m : List ι) :
    run step s (l ++ m) = run step (run step s l) m := List.foldl_append

/-- Every step of the run from `s` meets `C` in the state it starts from. -/
def Guarded (step : σ → ι → σ) (C : σ → ι → Prop) : σ → List ι → Prop
  | _, [] => True
  | s, i :: l => C s i ∧ Guarded step C (step s i) l

theorem guarded_append {step : σ → ι → σ} {C : σ → ι → Prop} {s : σ} {l m : List ι} :
    Guarded step C s (l ++ m) ↔ Guarded step C s l ∧ Guarded step C (run step s l) m := by
  induction l generalizing s with
  | nil => simp [Guarded]
  | cons i l ih => simp [Guarded, ih, and_assoc]

theorem guarded_iff_forall {step : σ → ι → σ} {C : σ → ι → Prop} {s : σ} {l : List ι} :
    Guarded step C s l ↔ ∀ pre i post, l = pre ++ i :: post → C (run step s pre) i := by
  constructor
  · rintro h pre i post rfl
    exact (guarded_append.mp h).2.1
  · intro h
    induction l generalizing s with
    | nil => trivial
    | cons i l ih => exact ⟨h [] i l rfl, ih fun pre j post e => h (i :: pre) j post (by rw [e]; rfl)⟩

theorem guarded_congr {step : σ → ι → σ} {C D : σ → ι → Prop} {P : σ → Prop} {L : ι → Prop}
    (hstep : ∀ s i, P s → P (step s i)) (hCD : ∀ s i, P s → L i → (C s i ↔ D s i)) {s : σ} (hs : P s) {l : List ι}
    (hl : ∀ i ∈ l, L i) : Guarded step C s l ↔ Guarded step D s l := by
  induction l generalizing s with
  | nil => exact Iff.rfl
  | cons i l ih =>
    obtain ⟨hi, hl⟩ := List.forall_mem_cons.mp hl
    exact and_congr (hCD s i hs hi) (ih (hstep s i hs) hl)

theorem guarded_of_forall {step : σ → ι → σ} {C : ι → Prop} {s : σ} {l : List ι} (h : ∀ i ∈ l, C i) :
    Guarded step (fun _ i => C i) s l := by
  induction l generalizing s with
  | nil => trivial
  | cons i l ih => exact ⟨h i List.mem_cons_self, ih fun j hj => h j (List.mem_cons_of_mem i hj)⟩

theorem Guarded.mono {step : σ → ι → σ} {C D : σ → ι → Prop} (hCD : ∀ s i, C s i → D s i) {s : σ} {l : List ι}
    (h : Guarded step C s l) : Guarded step D s l := by
  induction l generalizing s with
  | nil => trivial
  | cons i l ih => exact ⟨hCD s i h.1, ih h.2⟩

theorem Guarded.and {step : σ → ι → σ} {C D : σ → ι → Prop} {s : σ} {l : List ι} (h : Guarded step C s l)
    (h' : Guarded step D s l) : Guarded step (fun s i => C s i ∧ D s i) s l := by
  induction l generalizing s with
  | nil => trivial
  | cons i l ih => exact ⟨⟨h.1, h'.1⟩, ih h.2 h'.2⟩

instance decidableGuarded (step : σ → ι → σ) (C : σ → ι → Prop) [∀ s i, Decidable (C s i)] :
    ∀ s l, Decidable (Guarded step C s l)
  | _, [] => inferInstanceAs (Decidable True)
  | s, i :: l =>
    have := decidableGuarded step C (step s i) l
    inferInstanceAs (Decidable (C s i ∧ Guarded step C (step s i) l))

theorem guarded_true (step : σ → ι → σ) (s : σ) (l : List ι) : Guarded step (fun _ _ => True) s l := by
  induction l generalizing s with
  | nil => trivial
  | cons i l ih => exact ⟨trivial, ih _⟩

/-- What holds at the start and is kept by every step that meets `C` holds after every guarded run. -/
theorem run_induction {step : σ → ι → σ} {C : σ → ι → Prop} {P : σ → Prop}
    (hstep : ∀ s i, P s → C s i → P (step s i)) {s : σ} (hs : P s) :
    ∀ l, Guarded step C s l → P (run step s l) := by
  intro l
  induction l generalizing s with
  | nil => intro _; exact hs
  | cons i l ih => exact fun h => ih (hstep s i hs h.1) h.2

theorem run_invariant {step : σ → ι → σ} {P : σ → Prop} (hstep : ∀ s i, P s → P (step s i)) {s : σ}
    (hs : P s) (l : List ι) : P (run step s l) :=
  run_induction (C := fun _ _ => True) (fun s i h _ => hstep s i h) hs l (guarded_true step s l)

/-- A relation that every guarded step satisfies, and that is reflexive and transitive, relates the
ends of every guarded run. -/
theorem run_relation {step : σ → ι → σ} {C : σ → ι → Prop} {P : σ → Prop} {R : σ → σ → Prop}
    (hrefl : ∀ s, R s s) (htrans : ∀ a b c, R a b → R b c → R a c)
    (hstep : ∀ s i, P s → C s i → P (step s i) ∧ R s (step s i)) {s : σ} (hs : P s) :
    ∀ l, Guarded step C s l → R s (run step s l) := by
  intro l
  induction l generalizing s with
  | nil => intro _; exact hrefl s
  | cons i l ih =>
    intro h
    obtain ⟨hP, hR⟩ := hstep s i hs h.1
    exact htrans _ _ _ hR (ih hP h.2)

end SalonBooking.Lib
