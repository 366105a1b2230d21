/-
# Runs of a step function

A system that takes one step after another: `run` is the state after a list of
steps, `Always C` says that each of them meets `C` in the state it is taken in.
What every step keeps, a run keeps (`Always.run`), and what the steps do while it
is kept, all steps of a run do (`Always.imp`).

Key definitions: `run`, `Always`.
Key theorems: `Always.run`, `Always.imp`.
-/
import Mathlib.Tactic.TypeStar

namespace Steps

variable {α σ : Type*}

/-- The state after the steps. -/
def run (step : α → σ → σ) : List α → σ → σ
  | [], s => s
  | x :: xs, s => run step xs (step x s)

/-- Each step of a run meets `C` in the state it is taken in. -/
def Always (step : α → σ → σ) (C : α → σ → Prop) : List α → σ → Prop
  | [], _ => True
  | x :: xs, s => C x s ∧ Always step C xs (step x s)

variable {step : α → σ → σ} {C D : α → σ → Prop} {I : σ → Prop}

instance decidableAlways [∀ x s, Decidable (C x s)] : ∀ (xs : List α) (s : σ), Decidable (Always step C xs s)
  | [], _ => .isTrue trivial
  | x :: xs, s =>
    have := decidableAlways xs (step x s)
    inferInstanceAs (Decidable (C x s ∧ Always step C xs (step x s)))

theorem run_append : ∀ (xs ys : List α) (s : σ), run step (xs ++ ys) s = run step ys (run step xs s)
  | [], _, _ => rfl
  | x :: xs, ys, s => run_append xs ys (step x s)

theorem always_append : ∀ (xs ys : List α) (s : σ),
    Always step C (xs ++ ys) s ↔ Always step C xs s ∧ Always step C ys (run step xs s)
  | [], _, _ => (true_and _).symm.to_iff
  | x :: xs, ys, s => by
    have hrest := always_append xs ys (step x s)
    exact (and_congr_right fun _ => hrest).trans and_assoc.symm

/-- What every step meets. -/
theorem Always.of_forall (h : ∀ x s, C x s) : ∀ {xs : List α} {s : σ}, Always step C xs s
  | [], _ => trivial
  | x :: _, s => ⟨h x s, Always.of_forall h⟩

/-- What every step keeps. -/
theorem Always.run (hI : ∀ x s, I s → C x s → I (step x s)) :
    ∀ {xs : List α} {s : σ}, I s → Always step C xs s → I (run step xs s)
  | [], _, hs, _ => hs
  | x :: xs, s, hs, ⟨hx, hxs⟩ => by
    have hnext : I (step x s) := hI x s hs hx
    have hrest : I (Steps.run step xs (step x s)) := Always.run hI hnext hxs
    exact hrest

/-- What the steps do where `I` holds, which every step keeps. -/
theorem Always.imp (hI : ∀ x s, I s → C x s → I (step x s)) (hD : ∀ x s, I s → C x s → D x s) :
    ∀ {xs : List α} {s : σ}, I s → Always step C xs s → Always step D xs s
  | [], _, _, _ => trivial
  | x :: _, s, hs, ⟨hx, hxs⟩ => ⟨hD x s hs hx, Always.imp hI hD (hI x s hs hx) hxs⟩

end Steps
