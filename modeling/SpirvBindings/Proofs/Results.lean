/-! Computations that may fail. They are taken apart: when a computation made from others succeeds
or fails, and with what. And they are compared: computations correspond if both fail, or both
succeed with results that are related. -/

namespace SpirvBindings

variable {ε ε' α β γ δ : Type}

/-! ### Successful computations -/

theorem bind_eq_ok_iff {x : Except ε α} {f : α → Except ε β} {b : β} :
    (x >>= f) = .ok b ↔ ∃ a, x = .ok a ∧ f a = .ok b := by
  cases x with
  | error e => simp [bind, Except.bind]
  | ok a => simp [bind, Except.bind]

theorem map_eq_ok_iff {x : Except ε α} {f : α → β} {b : β} :
    f <$> x = .ok b ↔ ∃ a, x = .ok a ∧ f a = b := by
  cases x with
  | error e => simp [Functor.map, Except.map]
  | ok a => simp [Functor.map, Except.map]

theorem mapError_eq_ok_iff {x : Except ε α} {f : ε → ε'} {a : α} :
    x.mapError f = .ok a ↔ x = .ok a := by
  cases x with
  | error e => constructor <;> rintro ⟨⟩
  | ok b => constructor <;> rintro ⟨⟩ <;> rfl

/-! ### Failed computations -/

theorem bind_eq_error_iff {x : Except ε α} {f : α → Except ε β} {e : ε} :
    (x >>= f) = .error e ↔ x = .error e ∨ ∃ a, x = .ok a ∧ f a = .error e := by
  cases x with
  | error e => simp [bind, Except.bind]
  | ok a => simp [bind, Except.bind]

theorem mapError_eq_error_iff {x : Except ε α} {f : ε → ε'} {e' : ε'} :
    x.mapError f = .error e' ↔ ∃ e, x = .error e ∧ f e = e' := by
  cases x with
  | error e =>
    constructor
    · rintro ⟨⟩
      exact ⟨e, rfl, rfl⟩
    · rintro ⟨_, ⟨⟩, rfl⟩
      rfl
  | ok a =>
    constructor
    · rintro ⟨⟩
    · rintro ⟨_, ⟨⟩, -⟩

/-! ### Corresponding computations -/

/-- Both computations fail, or both succeed with related results. -/
inductive Corresponds (S : α → β → Prop) : Except ε α → Except ε' β → Prop
  | ok {a : α} {b : β} (h : S a b) : Corresponds S (.ok a) (.ok b)
  | error (e : ε) (e' : ε') : Corresponds S (.error e) (.error e')

namespace Corresponds

variable {S : α → β → Prop} {T : γ → δ → Prop} {x : Except ε α} {y : Except ε' β}

theorem same {S : α → α → Prop} (hS : ∀ a, S a a) (x : Except ε α) : Corresponds S x x := by
  cases x with
  | error e => exact .error e e
  | ok a => exact .ok (hS a)

theorem symm (h : Corresponds S x y) : Corresponds (flip S) y x := by
  cases h with
  | error e e' => exact .error e' e
  | ok h => exact .ok h

theorem imp {S' : α → β → Prop} (h : Corresponds S x y) (hS : ∀ a b, S a b → S' a b) :
    Corresponds S' x y := by
  cases h with
  | error e e' => exact .error e e'
  | ok h => exact .ok (hS _ _ h)

theorem bind (h : Corresponds S x y) {f : α → Except ε γ} {g : β → Except ε' δ}
    (hfg : ∀ a b, S a b → Corresponds T (f a) (g b)) : Corresponds T (x >>= f) (y >>= g) := by
  cases h with
  | error e e' => exact .error e e'
  | ok h => exact hfg _ _ h

theorem map (h : Corresponds S x y) {f : α → γ} {g : β → δ} (hfg : ∀ a b, S a b → T (f a) (g b)) :
    Corresponds T (f <$> x) (g <$> y) := by
  cases h with
  | error e e' => exact .error e e'
  | ok h => exact .ok (hfg _ _ h)

theorem mapError {ε'' ε''' : Type} (h : Corresponds S x y) (f : ε → ε'') (g : ε' → ε''') :
    Corresponds S (x.mapError f) (y.mapError g) := by
  cases h with
  | error e e' => exact .error (f e) (g e')
  | ok h => exact .ok h

theorem succeeds_iff (h : Corresponds S x y) : (∃ a, x = .ok a) ↔ ∃ b, y = .ok b := by
  cases h <;> simp

theorem related {a : α} {b : β} (h : Corresponds S x y) (hx : x = .ok a) (hy : y = .ok b) :
    S a b := by
  subst hx hy
  cases h with
  | ok h => exact h

/-- Computations correspond if each success of one of them is matched by the other. -/
theorem of_matched (hx : ∀ a, x = .ok a → ∃ b, y = .ok b ∧ S a b)
    (hy : ∀ b, y = .ok b → ∃ a, x = .ok a) : Corresponds S x y := by
  cases x with
  | ok a =>
    obtain ⟨b, rfl, h⟩ := hx a rfl
    exact .ok h
  | error e =>
    cases y with
    | error e' => exact .error e e'
    | ok b =>
      obtain ⟨a, ha⟩ := hy b rfl
      cases ha

end Corresponds

end SpirvBindings
