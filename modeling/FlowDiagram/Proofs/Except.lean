/-! Chains of steps that may fail. -/

namespace FlowDiagram

variable {ε α β : Type}

theorem bind_eq_ok_iff {x : Except ε α} {f : α → Except ε β} {b : β} :
    x >>= f = .ok b ↔ ∃ a, x = .ok a ∧ f a = .ok b := by
  cases x with
  | error e => simp [bind, Except.bind]
  | ok a => simp [bind, Except.bind]

theorem map_eq_ok_iff {x : Except ε α} {f : α → β} {b : β} :
    x.map f = .ok b ↔ ∃ a, x = .ok a ∧ f a = b := by
  cases x <;> simp [Except.map]

theorem mapError_eq_ok_iff {δ : Type} {x : Except ε α} {f : ε → δ} {a : α} :
    x.mapError f = .ok a ↔ x = .ok a := by
  cases x with
  | error e => exact ⟨fun h => (by cases h), fun h => (by cases h)⟩
  | ok b => exact ⟨fun h => (by cases h; rfl), fun h => (by cases h; rfl)⟩

theorem mapError_eq_error_iff {δ : Type} {x : Except ε α} {f : ε → δ} {d : δ} :
    x.mapError f = .error d ↔ ∃ e, x = .error e ∧ f e = d := by
  cases x with
  | error e =>
    constructor
    · intro h
      cases h
      exact ⟨e, rfl, rfl⟩
    · rintro ⟨_, h, rfl⟩
      cases h
      rfl
  | ok b =>
    constructor
    · intro h
      cases h
    · rintro ⟨_, h, -⟩
      cases h

@[simp] theorem ok_bind (a : α) (f : α → Except ε β) : (Except.ok a : Except ε α) >>= f = f a := rfl

@[simp] theorem error_bind (e : ε) (f : α → Except ε β) :
    (Except.error e : Except ε α) >>= f = .error e := rfl

/-! Two chains that succeed together -/

/-- Both fail, each with an error of its own, or both succeed with related values. -/
inductive Agree (R : α → β → Prop) : Except ε α → Except ε β → Prop
  | ok {a : α} {b : β} (h : R a b) : Agree R (.ok a) (.ok b)
  | error (e d : ε) : Agree R (.error e) (.error d)

namespace Agree

variable {γ δ : Type} {R : α → β → Prop} {S : γ → δ → Prop} {x : Except ε α} {y : Except ε β}

theorem refl {R : α → α → Prop} (hR : ∀ a, R a a) (x : Except ε α) : Agree R x x := by
  cases x with
  | ok a => exact .ok (hR a)
  | error e => exact .error e e

theorem of_eq {R : α → α → Prop} {x y : Except ε α} (hR : ∀ a, R a a) (h : Agree Eq x y) :
    Agree R x y := by
  cases h with
  | ok h => exact .ok (h ▸ hR _)
  | error e d => exact .error e d

theorem of_error (hx : ∃ e, x = .error e) (hy : ∃ e, y = .error e) : Agree R x y := by
  obtain ⟨e, rfl⟩ := hx
  obtain ⟨d, rfl⟩ := hy
  exact .error e d

theorem bind {f : α → Except ε γ} {g : β → Except ε δ} (h : Agree R x y)
    (hfg : ∀ a b, x = .ok a → y = .ok b → R a b → Agree S (f a) (g b)) :
    Agree S (x >>= f) (y >>= g) := by
  cases h with
  | ok h => exact hfg _ _ rfl rfl h
  | error e d => exact .error e d

/-- What follows one and the same step. -/
theorem bind_same {f : α → Except ε γ} {g : α → Except ε δ} (x : Except ε α)
    (hfg : ∀ a, x = .ok a → Agree S (f a) (g a)) : Agree S (x >>= f) (x >>= g) := by
  cases x with
  | ok a => exact hfg a rfl
  | error e => exact .error e e

theorem map {f : α → γ} {g : β → δ} (h : Agree R x y) (hfg : ∀ a b, R a b → S (f a) (g b)) :
    Agree S (x.map f) (y.map g) := by
  cases h with
  | ok h => exact .ok (hfg _ _ h)
  | error e d => exact .error e d

theorem symm {x y : Except ε α} (h : Agree Eq x y) : Agree Eq y x := by
  cases h with
  | ok h => exact .ok h.symm
  | error e d => exact .error d e

theorem trans {x y z : Except ε α} (hxy : Agree Eq x y) (hyz : Agree Eq y z) : Agree Eq x z := by
  cases hxy with
  | ok h =>
    subst h
    exact hyz
  | error e d =>
    cases hyz with
    | error _ c => exact .error e c

/-- Two steps that do not need one another change places. -/
theorem swap (x : Except ε α) (y : Except ε β) {f : α → β → Except ε γ} {g : α → β → Except ε δ}
    (h : ∀ a b, x = .ok a → y = .ok b → Agree S (f a b) (g a b)) :
    Agree S (x >>= fun a => y >>= fun b => f a b) (y >>= fun b => x >>= fun a => g a b) := by
  cases x with
  | error e => cases y <;> exact .error _ _
  | ok a =>
    cases y with
    | error e => exact .error _ _
    | ok b => exact h a b rfl rfl

end Agree

end FlowDiagram
