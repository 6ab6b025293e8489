/-!
# Computations that may fail

What the success of a sequence of steps says about each step, and what its failures can be. Main
statements: a sequence succeeds exactly when its first step does and the rest succeeds from there, and
it fails only in the ways of its steps.
-/
namespace SignedRelay.Outcome

instance decidableEq {ε α : Type} [DecidableEq ε] [DecidableEq α] : DecidableEq (Except ε α)
  | .ok a, .ok b => decidable_of_iff (a = b) (by rw [Except.ok.injEq])
  | .error a, .error b => decidable_of_iff (a = b) (by rw [Except.error.injEq])
  | .ok _, .error _ => .isFalse nofun
  | .error _, .ok _ => .isFalse nofun

theorem bind_eq_ok {ε α β : Type} {x : Except ε α} {f : α → Except ε β} {b : β} :
    (x >>= f) = .ok b ↔ ∃ a, x = .ok a ∧ f a = .ok b := by
  cases x <;> simp [bind, Except.bind]

theorem bind_of_eq_ok {ε α β : Type} {x : Except ε α} {a : α} (h : x = .ok a)
    (f : α → Except ε β) : (x >>= f) = f a := by
  rw [h]
  rfl

theorem bind_eq_error_iff {ε α β : Type} {x : Except ε α} {f : α → Except ε β} {error : ε}
    (hf : ∀ a, ∃ b, f a = .ok b) : (x >>= f) = .error error ↔ x = .error error := by
  cases x with
  | error found => simp [bind, Except.bind]
  | ok a =>
    obtain ⟨b, hb⟩ := hf a
    simp [bind, Except.bind, hb]

theorem pure_eq_ok {ε α : Type} {a b : α} : (pure a : Except ε α) = .ok b ↔ a = b := by
  simp [pure, Except.pure]

theorem map_eq_ok {ε α β : Type} {x : Except ε α} {f : α → β} {b : β} :
    x.map f = .ok b ↔ ∃ a, x = .ok a ∧ f a = b := by
  cases x <;> simp [Except.map]

theorem exists_map_eq_ok {ε α β : Type} {x : Except ε α} {f : α → β} :
    (∃ b, x.map f = .ok b) ↔ ∃ a, x = .ok a := by
  cases x <;> simp [Except.map]

theorem mapError_eq_ok {ε ε' α : Type} {x : Except ε α} {f : ε → ε'} {a : α} :
    x.mapError f = .ok a ↔ x = .ok a := by
  cases x with
  | error e =>
    constructor
    · intro h
      cases h
    · intro h
      cases h
  | ok found =>
    show (Except.ok found : Except ε' α) = .ok a ↔ _
    rw [Except.ok.injEq, Except.ok.injEq]

theorem throw_ne_ok {ε α : Type} {e : ε} {a : α} : (throw e : Except ε α) ≠ .ok a := by
  simp [throw, throwThe, MonadExceptOf.throw]

theorem exists_of_isOk {ε α : Type} {x : Except ε α} (h : x.isOk = true) : ∃ a, x = .ok a := by
  cases x with
  | error e => cases h
  | ok a => exact ⟨a, rfl⟩

theorem eq_ok_of_toOption {ε α : Type} {x : Except ε α} {a : α} (h : x.toOption = some a) :
    x = .ok a := by
  cases x with
  | error e => cases h
  | ok found => rw [Option.some.inj h]

/-- What is collected from a result, and nothing from a failure. -/
def collect {ε α β : Type} (x : Except ε α) (f : α → List β) : List β :=
  match x with
  | .ok a => f a
  | .error _ => []

theorem collect_of_eq_ok {ε α β : Type} {x : Except ε α} {a : α} (h : x = .ok a)
    (f : α → List β) : collect x f = f a := by
  rw [h, collect]

theorem map_collect {ε α β γ : Type} (x : Except ε α) (f : α → List β) (g : β → γ) :
    (collect x f).map g = collect x fun a => (f a).map g := by
  cases x with
  | error e => rfl
  | ok a => rfl

theorem forall_mem_collect {ε α β : Type} {P : β → Prop} {x : Except ε α} {f : α → List β}
    (h : ∀ a, x = .ok a → ∀ b ∈ f a, P b) : ∀ b ∈ collect x f, P b := by
  cases x with
  | error e => exact List.forall_mem_nil _
  | ok a => exact h a rfl

section Failures

/-- Every failure of the computation is of a kind. -/
def FailsOnly {ε α : Type} (P : ε → Prop) (x : Except ε α) : Prop :=
  ∀ error, x = .error error → P error

variable {ε ε' α β : Type} {P Q : ε → Prop}

theorem failsOnly_ok (a : α) : FailsOnly P (.ok a : Except ε α) := by
  intro error h
  cases h

theorem failsOnly_pure (a : α) : FailsOnly P (pure a : Except ε α) := failsOnly_ok a

theorem failsOnly_error {error : ε} (h : P error) : FailsOnly P (.error error : Except ε α) := by
  intro found hfound
  cases hfound
  exact h

theorem failsOnly_throw {error : ε} (h : P error) : FailsOnly P (throw error : Except ε α) :=
  failsOnly_error h

namespace FailsOnly

theorem mono {x : Except ε α} (h : FailsOnly P x) (himp : ∀ error, P error → Q error) :
    FailsOnly Q x :=
  fun error herror => himp error (h error herror)

theorem exists_error {x : Except ε α} (h : FailsOnly P x) (hx : ¬∃ a, x = .ok a) :
    ∃ error, P error ∧ x = .error error := by
  cases hcase : x with
  | error error => exact ⟨error, h error hcase, rfl⟩
  | ok a => exact absurd ⟨a, hcase⟩ hx

theorem bind {x : Except ε α} {f : α → Except ε β} (hx : FailsOnly P x)
    (hf : ∀ a, x = .ok a → FailsOnly P (f a)) : FailsOnly P (x >>= f) := by
  cases hcase : x with
  | error found =>
    subst hcase
    exact failsOnly_error (hx found rfl)
  | ok a => exact hf a hcase

theorem map {x : Except ε α} (hx : FailsOnly P x) (f : α → β) : FailsOnly P (x.map f) := by
  cases hcase : x with
  | error found => exact failsOnly_error (hx found hcase)
  | ok a => exact failsOnly_ok _

theorem mapError {x : Except ε α} {f : ε → ε'} {P : ε' → Prop}
    (hx : FailsOnly (fun error => P (f error)) x) : FailsOnly P (x.mapError f) := by
  cases hcase : x with
  | error found => exact failsOnly_error (hx found hcase)
  | ok a => exact failsOnly_ok a

end FailsOnly

end Failures

end SignedRelay.Outcome
