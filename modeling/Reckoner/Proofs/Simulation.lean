/-!
# Simulation of effectful computations

Two computations on the same state simulate each other if from every state they end alike: with
the same error, or with values that are related, and in the same state.  Simulation is kept by
sequencing, so it is proved of a program along its text; with equality of the values it is
equality of the computations.
-/

namespace Reckoner

variable {ε σ α β γ δ : Type} {V V' : α → β → Prop} {W : γ → δ → Prop}

/-- The same error, or values related by `V`, and the same state. -/
inductive Agree (V : α → β → Prop) :
    EStateM.Result ε σ α → EStateM.Result ε σ β → Prop
  | ok {a : α} {b : β} {s : σ} (hv : V a b) : Agree V (.ok a s) (.ok b s)
  | error {e : ε} {s : σ} : Agree V (.error e s) (.error e s)

def Simulates (V : α → β → Prop) (x : EStateM ε σ α) (y : EStateM ε σ β) : Prop :=
  ∀ s, Agree V (x s) (y s)

theorem agree_iff {r : EStateM.Result ε σ α} {r' : EStateM.Result ε σ β} :
    Agree V r r' ↔ (∃ a b s, r = .ok a s ∧ r' = .ok b s ∧ V a b) ∨
      ∃ e s, r = .error e s ∧ r' = .error e s := by
  constructor
  · intro h
    cases h with
    | ok hv => exact .inl ⟨_, _, _, rfl, rfl, hv⟩
    | error => exact .inr ⟨_, _, rfl, rfl⟩
  · rintro (⟨a, b, s, rfl, rfl, hv⟩ | ⟨e, s, rfl, rfl⟩)
    · exact .ok hv
    · exact .error

theorem simulates_pure {a : α} {b : β} (h : V a b) :
    Simulates V (pure a : EStateM ε σ α) (pure b : EStateM ε σ β) :=
  fun _ => .ok h

theorem simulates_refl (x : EStateM ε σ α) : Simulates Eq x x := by
  intro s
  cases x s with
  | ok a s' => exact .ok rfl
  | error e s' => exact .error

theorem Simulates.bind {x : EStateM ε σ α} {y : EStateM ε σ β} {f : α → EStateM ε σ γ}
    {g : β → EStateM ε σ δ} (h : Simulates V x y)
    (hf : ∀ a b, V a b → Simulates W (f a) (g b)) : Simulates W (x >>= f) (y >>= g) := by
  intro s
  change Agree W (EStateM.bind x f s) (EStateM.bind y g s)
  unfold EStateM.bind
  rcases agree_iff.1 (h s) with ⟨a, b, s', hx, hy, hv⟩ | ⟨e, s', hx, hy⟩
  · rw [hx, hy]
    exact hf a b hv s'
  · rw [hx, hy]
    exact .error

theorem Simulates.mono {x : EStateM ε σ α} {y : EStateM ε σ β} (h : Simulates V x y)
    (hv : ∀ a b, V a b → V' a b) : Simulates V' x y := by
  intro s
  rcases agree_iff.1 (h s) with ⟨a, b, s', hx, hy, hab⟩ | ⟨e, s', hx, hy⟩
  · rw [hx, hy]
    exact .ok (hv a b hab)
  · rw [hx, hy]
    exact .error

/-- Computations that simulate each other with equal values are equal. -/
theorem Simulates.eq {x y : EStateM ε σ α} (h : Simulates Eq x y) : x = y := by
  funext s
  rcases agree_iff.1 (h s) with ⟨a, b, s', hx, hy, hv⟩ | ⟨e, s', hx, hy⟩
  · rw [hx, hy, hv]
  · rw [hx, hy]

end Reckoner
