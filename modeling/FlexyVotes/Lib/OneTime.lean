/-
# Tokens that are good once

Tokens are issued in lots, each of which replaces the one before it. A token is
accepted only while its lot is the last one, and only if it was not accepted since
the lot was issued (`Once`); so it is accepted no more often than it was issued
(`Once.accepts_le`). A store of tokens is as it should be if it has only tokens
that could still be accepted (`Good`).

Histories are newest first.

Key definitions: `Event`, `Once`, `Good`.
Key theorems: `Once.accepted`, `Good.accepted`, `Once.accepts_le`.
-/
import Mathlib.Data.List.Basic
import Mathlib.Tactic.TypeStar

namespace OneTime

variable {α : Type*}

inductive Event (α : Type*)
  | issued (lot : List α)
  | accepted (a : α)
deriving DecidableEq

/-- The lot that was issued last. -/
def lot : List (Event α) → List α
  | [] => []
  | .issued l :: _ => l
  | .accepted _ :: es => lot es

/-- What was accepted since. -/
def spent : List (Event α) → List α
  | [] => []
  | .issued _ :: _ => []
  | .accepted a :: es => a :: spent es

/-- What is accepted is of the lot issued last, and was not accepted since. -/
def Once : List (Event α) → Prop
  | [] => True
  | .issued _ :: es => Once es
  | .accepted a :: es => (a ∈ lot es ∧ a ∉ spent es) ∧ Once es

instance decidableOnce [DecidableEq α] : ∀ es : List (Event α), Decidable (Once es)
  | [] => .isTrue trivial
  | .issued _ :: es => decidableOnce es
  | .accepted _ :: es =>
    have := decidableOnce es
    inferInstanceAs (Decidable (_ ∧ _))

/-- What is stored could still be accepted. -/
def Good (stored : List α) (es : List (Event α)) : Prop := ∀ a ∈ stored, a ∈ lot es ∧ a ∉ spent es

variable {stored : List α} {es : List (Event α)} {a : α}

theorem Good.issued : Good stored (.issued stored :: es) := fun _ ha => ⟨ha, List.not_mem_nil⟩

theorem Good.mono {l : List α} (h : Good stored es) (hl : l ⊆ stored) : Good l es := fun a ha => h a (hl ha)

theorem Good.accepted {l : List α} (h : Good stored es) (hl : l ⊆ stored) (ha : a ∉ l) :
    Good l (.accepted a :: es) := by
  intro b hb
  obtain ⟨hlot, hspent⟩ := h b (hl hb)
  refine ⟨hlot, fun hmem => ?_⟩
  rcases List.mem_cons.1 hmem with rfl | hmem
  · exact ha hb
  · exact hspent hmem

theorem Once.accepted (h : Once es) (hgood : Good stored es) (ha : a ∈ stored) : Once (.accepted a :: es) :=
  ⟨hgood a ha, h⟩

variable [DecidableEq α]

/-- How often the token was accepted. -/
def accepts (a : α) : List (Event α) → ℕ
  | [] => 0
  | .issued _ :: es => accepts a es
  | .accepted b :: es => (if b = a then 1 else 0) + accepts a es

/-- How often it was issued. -/
def issues (a : α) : List (Event α) → ℕ
  | [] => 0
  | .issued l :: es => (if a ∈ l then 1 else 0) + issues a es
  | .accepted _ :: es => issues a es

/-- An acceptance is paid for by the issue of the lot: the token that could still
be accepted was issued once more than it was accepted. -/
theorem Once.credit (a : α) : ∀ {es : List (Event α)}, Once es →
    accepts a es + (if a ∈ lot es ∧ a ∉ spent es then 1 else 0) ≤ issues a es
  | [], _ => by simp [accepts, issues, lot]
  | .issued l :: es, h => by
    have hlast : Once es := h
    have hrest := hlast.credit a
    simp only [accepts, issues, lot, spent, List.not_mem_nil, not_false_eq_true, and_true]
    omega
  | .accepted b :: es, ⟨hb, h⟩ => by
    have hrest := Once.credit a h
    simp only [accepts, issues, lot, spent, List.mem_cons, not_or]
    by_cases hba : b = a
    · subst hba
      rw [if_pos hb] at hrest
      rw [if_pos rfl, if_neg fun hno => hno.2.1 rfl]
      omega
    · have hab : ¬ a = b := Ne.symm hba
      simp only [hba, hab, if_false, not_false_eq_true, true_and, Nat.zero_add]
      exact hrest

/-- **At most once** for each time that it was issued. -/
theorem Once.accepts_le (h : Once es) (a : α) : accepts a es ≤ issues a es :=
  Nat.le_trans (Nat.le_add_right _ _) (h.credit a)

end OneTime
