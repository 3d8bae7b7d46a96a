import SalonBooking.Lib.Table

/-!
# Guarded programs

Straight-line programs that check a condition, look a row up, or raise. `Except ε` carries the
programs whose raise discards everything they did (a rolled-back transaction); `Mut ε σ` carries
the ones that assign to an object step by step, where what was assigned before a raise stays
assigned. The `_ok` lemmas read a successful run backwards: from the result of a program they give
back the conditions it passed and the rows it found.
-/

namespace SalonBooking.Lib

universe u v

variable {ε : Type u} {α β : Type v}

/-- Raises `e` unless `c` holds. -/
def require (c : Prop) [Decidable c] (e : ε) : Except ε PUnit.{v + 1} := if c then .ok ⟨⟩ else .error e

/-- The value of an optional, or `e`. -/
def orRaise (x : Option α) (e : ε) : Except ε α :=
  match x with
  | some a => .ok a
  | none => .error e

namespace Except

theorem bind_ok {x : Except ε α} {f : α → Except ε β} {b : β} :
    (x >>= f) = .ok b ↔ ∃ a, x = .ok a ∧ f a = .ok b := by
  cases x with
  | error e => simp [bind, Except.bind]
  | ok a => simp [bind, Except.bind]

@[simp] theorem fmap_ok {x : Except ε α} {f : α → β} {b : β} :
    (f <$> x) = .ok b ↔ ∃ a, x = .ok a ∧ f a = b := by
  cases x <;> simp [Functor.map, Except.map]

@[simp] theorem require_bind_ok {c : Prop} [Decidable c] {e : ε} {f : PUnit → Except ε β} {b : β} :
    ((require c e : Except ε PUnit.{v + 1}) >>= f) = .ok b ↔ c ∧ f ⟨⟩ = .ok b := by
  unfold require
  split <;> simp [bind, Except.bind, *]

@[simp] theorem require_ok {c : Prop} [Decidable c] {e : ε} {x : PUnit} :
    (require c e : Except ε PUnit.{v + 1}) = .ok x ↔ c := by
  unfold require
  split <;> simp [*]

theorem require_error {c : Prop} [Decidable c] {e e' : ε} :
    (require c e : Except ε PUnit.{v + 1}) = .error e' ↔ ¬ c ∧ e = e' := by
  unfold require
  split <;> simp [*]

@[simp] theorem orRaise_bind_ok {x : Option α} {e : ε} {f : α → Except ε β} {b : β} :
    (orRaise x e >>= f) = .ok b ↔ ∃ a, x = some a ∧ f a = .ok b := by
  cases x <;> simp [orRaise, bind, Except.bind]

@[simp] theorem orRaise_ok {x : Option α} {e : ε} {a : α} : orRaise x e = .ok a ↔ x = some a := by
  cases x <;> simp [orRaise]

@[simp] theorem pure_ok {a b : α} : (pure a : Except ε α) = .ok b ↔ a = b := by
  simp [pure, Except.pure]

@[simp] theorem throw_ok {e : ε} {a : α} : (throw e : Except ε α) ≠ .ok a := by
  simp [throw, throwThe, MonadExceptOf.throw]

@[simp] theorem mapError_ok {δ : Type u} {x : Except ε α} {f : ε → δ} {a : α} :
    x.mapError f = .ok a ↔ x = .ok a := by
  cases x <;> simp [Except.mapError]

theorem map_eq_ok {x : Except ε α} {f : α → β} {b : β} : x.map f = .ok b ↔ ∃ a, x = .ok a ∧ f a = b := by
  cases x <;> simp [Except.map]

instance decidableExistsOk {x : Except ε α} {P : α → Prop} [DecidablePred P] : Decidable (∃ a, x = .ok a ∧ P a) :=
  match x with
  | .ok a => decidable_of_iff (P a) (by simp)
  | .error _ => .isFalse (by simp)

instance decidableOk {x : Except ε α} : Decidable (∃ a, x = .ok a) :=
  match x with
  | .ok a => .isTrue ⟨a, rfl⟩
  | .error _ => .isFalse (by simp)

/-- The value of a program, or the default when it raises. -/
def orElse (x : Except ε α) (a : α) : α :=
  match x with
  | .ok b => b
  | .error _ => a

/-! ### Errors -/

/-- Whatever the program raises satisfies `P`. -/
def Raises (x : Except ε α) (P : ε → Prop) : Prop := ∀ e, x = .error e → P e

section Raises

variable {P : ε → Prop} {e : ε}

@[simp] theorem raises_bind {x : Except ε α} {f : α → Except ε β} :
    Raises (x >>= f) P ↔ Raises x P ∧ ∀ a, x = .ok a → Raises (f a) P := by
  cases x <;> simp [Raises, bind, Except.bind]

@[simp] theorem raises_map {x : Except ε α} {f : α → β} : Raises (f <$> x) P ↔ Raises x P := by
  cases x <;> simp [Raises, Functor.map, Except.map]

@[simp] theorem raises_require {c : Prop} [Decidable c] :
    Raises (require c e : Except ε PUnit.{v + 1}) P ↔ (¬ c → P e) := by
  by_cases hc : c <;> simp [Raises, require, hc]

@[simp] theorem raises_orRaise {x : Option α} : Raises (orRaise x e) P ↔ (x = none → P e) := by
  cases x <;> simp [Raises, orRaise]

@[simp] theorem raises_pure {a : α} : Raises (pure a : Except ε α) P ↔ True := by simp [Raises, pure, Except.pure]

theorem raises_mapM {f : α → Except ε β} {l : List α} (h : ∀ a ∈ l, Raises (f a) P) : Raises (l.mapM f) P := by
  induction l with
  | nil => simp
  | cons a l ih =>
    simp only [List.mapM_cons, raises_bind, raises_pure, implies_true, and_true]
    exact ⟨h a List.mem_cons_self, fun _ _ => ih fun b hb => h b (List.mem_cons_of_mem a hb)⟩

theorem raises_of_ok {x : Except ε α} {a : α} (h : x = .ok a) : Raises x P := by
  intro e he
  rw [h] at he
  cases he

end Raises

/-! ### Loops -/

section Loops

variable {σ : Type v} {f : α → Except ε β} {g : σ → α → Except ε σ} {l : List α}

theorem foldlM_ok {I : List α → σ → Prop} (hstep : ∀ a l s s', I (a :: l) s → g s a = .ok s' → I l s') :
    ∀ {s s' : σ}, I l s → l.foldlM g s = .ok s' → I [] s' := by
  induction l with
  | nil =>
    intro s s' hI h
    rw [List.foldlM_nil, Except.pure_ok] at h
    exact h ▸ hI
  | cons a l ih =>
    intro s s' hI h
    rw [List.foldlM_cons, Except.bind_ok] at h
    obtain ⟨s₁, hfirst, hrest⟩ := h
    exact ih (hstep a l s s₁ hI hfirst) hrest

/-- A successful `mapM` has run its program on every element. -/
theorem mem_mapM {l' : List β} (h : l.mapM f = .ok l') : ∀ b ∈ l', ∃ a ∈ l, f a = .ok b := by
  induction l generalizing l' with
  | nil =>
    rw [List.mapM_nil, Except.pure_ok] at h
    subst h
    nofun
  | cons a l ih =>
    rw [List.mapM_cons, Except.bind_ok] at h
    obtain ⟨b, hb, h⟩ := h
    rw [Except.bind_ok] at h
    obtain ⟨l₁, hl, h⟩ := h
    rw [Except.pure_ok] at h
    subst h
    intro c hc
    rcases List.mem_cons.mp hc with rfl | hc
    · exact ⟨a, List.mem_cons_self, hb⟩
    · obtain ⟨a', ha', hc'⟩ := ih hl c hc
      exact ⟨a', List.mem_cons_of_mem a ha', hc'⟩

/-- A `mapM` succeeds when its program succeeds on every element, and then has the results of all of them. -/
theorem mapM_ok_iff : (∃ l', l.mapM f = .ok l') ↔ ∀ a ∈ l, ∃ b, f a = .ok b := by
  induction l with
  | nil => simp
  | cons a l ih =>
    simp only [List.mapM_cons, bind_ok, pure_ok, List.forall_mem_cons, ← ih]
    constructor
    · rintro ⟨_, b, hb, l', hl, -⟩
      exact ⟨⟨b, hb⟩, l', hl⟩
    · rintro ⟨⟨b, hb⟩, l', hl⟩
      exact ⟨_, b, hb, l', hl, rfl⟩

theorem mem_of_mapM {l' : List β} {a : α} {b : β} (h : l.mapM f = .ok l') (ha : a ∈ l) (hb : f a = .ok b) :
    b ∈ l' := by
  induction l generalizing l' with
  | nil => cases ha
  | cons c l ih =>
    simp only [List.mapM_cons, bind_ok, pure_ok] at h
    obtain ⟨d, hd, l₁, hl, rfl⟩ := h
    rcases List.mem_cons.mp ha with rfl | ha
    · rw [hb] at hd
      cases hd
      exact List.mem_cons_self
    · exact List.mem_cons_of_mem d (ih hl ha)

/-- Where results show their arguments, `mapM` shows its list. -/
theorem map_mapM {g : β → α} {l' : List β} (shows : ∀ a b, f a = .ok b → g b = a) (h : l.mapM f = .ok l') :
    l'.map g = l := by
  induction l generalizing l' with
  | nil =>
    rw [List.mapM_nil, Except.pure_ok] at h
    subst h
    rfl
  | cons a l ih =>
    rw [List.mapM_cons, Except.bind_ok] at h
    obtain ⟨b, hb, h⟩ := h
    rw [Except.bind_ok] at h
    obtain ⟨l₁, hrest, h⟩ := h
    rw [Except.pure_ok] at h
    subst h
    rw [List.map_cons, shows a b hb, ih hrest]

theorem forM_ok {f : α → Except ε PUnit} {l : List α} {x : PUnit} : l.forM f = .ok x ↔ ∀ a ∈ l, f a = .ok ⟨⟩ := by
  induction l with
  | nil => exact iff_of_true rfl nofun
  | cons a l ih =>
    show (f a >>= fun _ => l.forM f) = .ok x ↔ _
    rw [bind_ok, List.forall_mem_cons, ih]
    exact ⟨fun ⟨_, ha, hl⟩ => ⟨ha, hl⟩, fun ⟨ha, hl⟩ => ⟨_, ha, hl⟩⟩

end Loops

end Except

/-- Programs that assign to an object of type `σ` and may raise; the object survives the raise. -/
abbrev Mut (ε σ α : Type u) : Type u := ExceptT ε (StateM σ) α

namespace Mut

variable {ε σ α β : Type u}

/-- Runs a check inside an assigning program. -/
def check (x : Except ε α) : Mut ε σ α := ExceptT.mk (pure x)

/-- The outcome of a program on `s` with the object it leaves behind. -/
def exec (m : Mut ε σ α) (s : σ) : Except ε α × σ := StateT.run (ExceptT.run m) s

@[simp] theorem exec_pure (a : α) (s : σ) : exec (pure a : Mut ε σ α) s = (.ok a, s) := rfl

@[simp] theorem exec_get (s : σ) : exec (get : Mut ε σ σ) s = (.ok s, s) := rfl

@[simp] theorem exec_set (s s' : σ) : exec (set s' : Mut ε σ PUnit) s = (.ok ⟨⟩, s') := rfl

@[simp] theorem exec_modify (f : σ → σ) (s : σ) : exec (modify f : Mut ε σ PUnit) s = (.ok ⟨⟩, f s) := rfl

@[simp] theorem exec_check (x : Except ε α) (s : σ) : exec (check x : Mut ε σ α) s = (x, s) := rfl

theorem exec_bind (m : Mut ε σ α) (f : α → Mut ε σ β) (s : σ) :
    exec (m >>= f) s =
      match exec m s with
      | (.ok a, s') => exec (f a) s'
      | (.error e, s') => (.error e, s') := by
  simp only [exec, ExceptT.run_bind, StateT.run_bind]
  show StateT.run (ExceptT.bindCont f (StateT.run (ExceptT.run m) s).1)
    (StateT.run (ExceptT.run m) s).2 = _
  obtain ⟨x, s'⟩ := StateT.run (ExceptT.run m) s
  cases x <;> rfl

/-- After `m` on `s`, the outcome and the object satisfy `P`, also when `m` raised. -/
def Post (m : Mut ε σ α) (s : σ) (P : Except ε α → σ → Prop) : Prop := P (exec m s).1 (exec m s).2

variable {s s' : σ} {P : Except ε α → σ → Prop} {Q : Except ε β → σ → Prop}

@[simp] theorem post_pure {a : α} : Post (pure a) s P ↔ P (.ok a) s := Iff.rfl

@[simp] theorem post_check {x : Except ε α} : Post (check x) s P ↔ P x s := Iff.rfl

@[simp] theorem post_get {P : Except ε σ → σ → Prop} : Post get s P ↔ P (.ok s) s := Iff.rfl

@[simp] theorem post_modify {f : σ → σ} {P : Except ε PUnit → σ → Prop} :
    Post (modify f) s P ↔ P (.ok ⟨⟩) (f s) := Iff.rfl

@[simp] theorem post_set {P : Except ε PUnit → σ → Prop} : Post (set s') s P ↔ P (.ok ⟨⟩) s' := Iff.rfl

theorem post_bind {m : Mut ε σ α} {f : α → Mut ε σ β} :
    Post (m >>= f) s Q ↔ Post m s fun r s' =>
      match r with
      | .ok a => Post (f a) s' Q
      | .error e => Q (.error e) s' := by
  rw [Post, exec_bind]
  show _ ↔ match (exec m s).1 with
    | .ok a => Post (f a) (exec m s).2 Q
    | .error e => Q (.error e) (exec m s).2
  cases exec m s with
  | mk r s' => cases r <;> rfl

@[simp] theorem post_get_bind {f : σ → Mut ε σ β} : Post (get >>= f) s Q ↔ Post (f s) s Q := by
  rw [post_bind]; rfl

@[simp] theorem post_modify_bind {g : σ → σ} {f : PUnit → Mut ε σ β} :
    Post (modify g >>= f) s Q ↔ Post (f ⟨⟩) (g s) Q := by
  rw [post_bind]; rfl

@[simp] theorem post_check_bind {x : Except ε α} {f : α → Mut ε σ β} :
    Post (check x >>= f) s Q ↔ (∀ e, x = .error e → Q (.error e) s) ∧ ∀ a, x = .ok a → Post (f a) s Q := by
  rw [post_bind, post_check]
  cases x <;> simp

@[simp] theorem post_ite {c : Prop} [Decidable c] {m m' : Mut ε σ α} :
    Post (if c then m else m') s P ↔ (c → Post m s P) ∧ (¬ c → Post m' s P) := by
  split <;> simp [*]

theorem Post.mono {m : Mut ε σ α} {P' : Except ε α → σ → Prop} (h : Post m s P)
    (hP : ∀ r s', P r s' → P' r s') : Post m s P' := hP _ _ h

theorem Post.of_forall {m : Mut ε σ α} (h : ∀ r s', P r s') : Post m s P := h _ _

theorem Post.elim {m : Mut ε σ α} {r : Except ε α} (h : Post m s P) (hr : exec m s = (r, s')) : P r s' := by
  have h' : P (exec m s).1 (exec m s).2 := h
  rwa [hr] at h'

/-- A program that assigns nothing before its checks: they raise on the untouched object, or `P` holds. -/
def Gated (checks : Except ε PUnit) (s : σ) (P : Except ε α → σ → Prop) (r : Except ε α) (s' : σ) : Prop :=
  (∃ e, checks = .error e ∧ r = .error e ∧ s' = s) ∨ checks = .ok ⟨⟩ ∧ P r s'

theorem gated_check_bind {x : Except ε α} {f : α → Mut ε σ β} {checks : α → Except ε PUnit}
    (h : ∀ a, x = .ok a → Post (f a) s (Gated (checks a) s Q)) : Post (check x >>= f) s (Gated (x >>= checks) s Q) := by
  rw [post_check_bind]
  cases x with
  | error e =>
    refine ⟨fun e' he => .inl ⟨e', ?_, rfl, rfl⟩, nofun⟩
    cases he
    rfl
  | ok a =>
    refine ⟨nofun, fun a' ha => ?_⟩
    cases ha
    exact h a rfl

end Mut

end SalonBooking.Lib
