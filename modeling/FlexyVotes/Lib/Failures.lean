/-
# Loops that stop at the first failure

A loop that calls a fallible function on one element after the other and
collects what it returns ends well where every call does, and with the failure
of the first call that fails.

Key definitions: `FirstError`.
Key theorems: `foldlM_ok`, `foldlM_error`, `forall₂_ok_iff`.
-/
import Mathlib.Data.List.Forall2
import Mathlib.Tactic.Common

namespace Failures

variable {α β ε : Type} {f : α → Except ε β}

/-- `e` is the first failure of `f` along the list. -/
def FirstError (f : α → Except ε β) (l : List α) (e : ε) : Prop :=
  ∃ pre x post, l = pre ++ x :: post ∧ (∀ y ∈ pre, ∃ z, f y = .ok z) ∧ f x = .error e

theorem not_firstError_nil {e : ε} : ¬FirstError f [] e := by
  rintro ⟨pre, x, post, h, -⟩
  simp at h

theorem firstError_cons {x : α} {l : List α} {e : ε} :
    FirstError f (x :: l) e ↔ f x = .error e ∨ (∃ z, f x = .ok z) ∧ FirstError f l e := by
  constructor
  · rintro ⟨pre, y, post, h, hpre, hy⟩
    cases pre with
    | nil =>
      cases h
      exact .inl hy
    | cons z pre =>
      cases h
      rw [List.forall_mem_cons] at hpre
      exact .inr ⟨hpre.1, pre, y, post, rfl, hpre.2, hy⟩
  · rintro (h | ⟨h, pre, y, post, rfl, hpre, hy⟩)
    · exact ⟨[], x, l, rfl, by simp, h⟩
    · exact ⟨x :: pre, y, post, rfl, List.forall_mem_cons.mpr ⟨h, hpre⟩, hy⟩

theorem forall₂_ok_iff {l : List α} : (∃ l', List.Forall₂ (fun x z => f x = .ok z) l l') ↔ ∀ x ∈ l, ∃ z, f x = .ok z := by
  induction l with
  | nil => exact iff_of_true ⟨[], .nil⟩ (by simp)
  | cons x l ih =>
    rw [List.forall_mem_cons, ← ih]
    constructor
    · rintro ⟨_, hall⟩
      obtain ⟨z, l', h, hl, -⟩ := List.forall₂_cons_left_iff.mp hall
      exact ⟨⟨z, h⟩, l', hl⟩
    · rintro ⟨⟨z, h⟩, l', hl⟩
      exact ⟨z :: l', .cons h hl⟩

theorem forall₂_ok_unique : ∀ {l : List α} {l₁ l₂ : List β}, List.Forall₂ (fun x z => f x = .ok z) l l₁ →
    List.Forall₂ (fun x z => f x = .ok z) l l₂ → l₁ = l₂
  | [], l₁, l₂, h₁, h₂ => by rw [List.forall₂_nil_left_iff.mp h₁, List.forall₂_nil_left_iff.mp h₂]
  | x :: l, l₁, l₂, h₁, h₂ => by
    obtain ⟨z₁, t₁, hz₁, ht₁, rfl⟩ := List.forall₂_cons_left_iff.mp h₁
    obtain ⟨z₂, t₂, hz₂, ht₂, rfl⟩ := List.forall₂_cons_left_iff.mp h₂
    rw [hz₁, Except.ok.injEq] at hz₂
    rw [hz₂, forall₂_ok_unique ht₁ ht₂]

theorem foldlM_ok {γ : Type} {g : γ → β → γ} : ∀ {l : List α} {acc out : γ},
    l.foldlM (fun acc x => (f x).map (g acc)) acc = .ok out ↔
      ∃ l', List.Forall₂ (fun x z => f x = .ok z) l l' ∧ out = l'.foldl g acc
  | [], acc, out => by
    rw [List.foldlM_nil]
    constructor
    · intro h
      cases h
      exact ⟨[], .nil, rfl⟩
    · rintro ⟨l', hall, rfl⟩
      rw [List.forall₂_nil_left_iff.mp hall]
      rfl
  | x :: l, acc, out => by
    rw [List.foldlM_cons]
    cases hx : f x with
    | error e =>
      constructor
      · intro h
        cases h
      · rintro ⟨_, hall, -⟩
        obtain ⟨z, l', h, -, -⟩ := List.forall₂_cons_left_iff.mp hall
        rw [hx] at h
        cases h
    | ok z =>
      have ih : l.foldlM (fun acc x => (f x).map (g acc)) (g acc z) = .ok out ↔ _ := foldlM_ok
      refine ih.trans ⟨?_, ?_⟩
      · rintro ⟨l', hl, rfl⟩
        exact ⟨z :: l', .cons hx hl, rfl⟩
      · rintro ⟨_, hall, rfl⟩
        obtain ⟨z', l', h, hl, rfl⟩ := List.forall₂_cons_left_iff.mp hall
        rw [hx] at h
        cases h
        exact ⟨l', hl, rfl⟩

theorem foldlM_error {γ : Type} {g : γ → β → γ} {e : ε} : ∀ {l : List α} {acc : γ},
    l.foldlM (fun acc x => (f x).map (g acc)) acc = .error e ↔ FirstError f l e
  | [], acc => iff_of_false (fun h => nomatch h) not_firstError_nil
  | x :: l, acc => by
    rw [List.foldlM_cons, firstError_cons]
    cases hx : f x with
    | error e' =>
      constructor
      · intro h
        cases h
        exact .inl rfl
      · rintro (h | ⟨⟨z, h⟩, -⟩)
        · cases h
          rfl
        · cases h
    | ok z =>
      have ih : l.foldlM (fun acc x => (f x).map (g acc)) (g acc z) = .error e ↔ _ := foldlM_error
      refine ih.trans ⟨fun h => .inr ⟨⟨z, rfl⟩, h⟩, ?_⟩
      rintro (h | ⟨-, h⟩)
      · cases h
      · exact h

/-- What follows for the pairs of two lists from what holds of them. -/
theorem forall₂_of_mem {R S : α → β → Prop} {l : List α} {l' : List β} (h : List.Forall₂ R l l')
    (hS : ∀ a ∈ l, ∀ b ∈ l', R a b → S a b) : List.Forall₂ S l l' := by
  induction h with
  | nil => exact .nil
  | cons hab _ ih =>
    exact .cons (hS _ List.mem_cons_self _ List.mem_cons_self hab)
      (ih fun a ha b hb => hS a (List.mem_cons_of_mem _ ha) b (List.mem_cons_of_mem _ hb))

end Failures
