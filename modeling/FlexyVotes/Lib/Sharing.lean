/-
# Threshold sharing

A secret is the constant term of a polynomial and a share is its value at a
point. As many distinct points as there are coefficients give the secret
(`recover`, by Lagrange's formula at zero); fewer say nothing about it
(`bijective_shares`, by Vandermonde's determinant).

Key definitions: `horner`, `poly`, `others`.
Key theorems: `recover`, `bijective_shares`.
-/
import Mathlib.LinearAlgebra.Lagrange
import Mathlib.LinearAlgebra.Vandermonde
import Mathlib.LinearAlgebra.Matrix.Nondegenerate
import Mathlib.LinearAlgebra.Matrix.ToLin
import Mathlib.Probability.Distributions.Uniform

namespace Sharing

open Polynomial

variable {F : Type} [Field F]

/-- The value at `x` by Horner's rule, the constant term first. -/
def horner (cs : List F) (x : F) : F := cs.foldr (fun c y => y * x + c) 0

@[simp] theorem horner_nil (x : F) : horner [] x = 0 := rfl

@[simp] theorem horner_cons (c : F) (cs : List F) (x : F) : horner (c :: cs) x = horner cs x * x + c := rfl

/-- The polynomial of a list of coefficients, the constant term first. -/
noncomputable def poly : List F → F[X]
  | [] => 0
  | c :: cs => poly cs * X + C c

theorem eval_poly (x : F) : ∀ cs : List F, (poly cs).eval x = horner cs x
  | [] => by simp [poly]
  | c :: cs => by simp [poly, eval_poly x cs]

theorem degree_poly : ∀ cs : List F, (poly cs).degree < cs.length
  | [] => by simp [poly]
  | c :: cs => by
    have ih := degree_poly cs
    unfold poly
    refine (degree_add_le _ _).trans_lt (max_lt ?_ ?_)
    · rw [degree_mul, degree_X, List.length_cons, Nat.cast_add, Nat.cast_one]
      exact WithBot.add_lt_add_right (by simp) ih
    · refine degree_C_le.trans_lt ?_
      rw [List.length_cons]
      exact_mod_cast Nat.succ_pos _

/-! ### Recovery -/

section Recovery

variable [DecidableEq F]

/-- The other points. -/
def others (xs : List F) (x : F) : List F := xs.filter (· ≠ x)

/-- **Enough distinct points of a polynomial give its value at zero.** -/
theorem recover {xs : List F} (hxs : xs.Nodup) {f : F[X]} (hf : f.degree < xs.length) :
    (xs.map fun x => f.eval x * ((others xs x).map fun z => -z).prod * ((others xs x).map fun z => x - z).prod⁻¹).sum =
      f.eval 0 := by
  have hcard : xs.toFinset.card = xs.length := List.toFinset_card_of_nodup hxs
  have hother : ∀ x, (others xs x).toFinset = xs.toFinset.erase x := fun x => by
    ext z
    simp [others, and_comm]
  have hprod : ∀ x (g : F → F), ((others xs x).map g).prod = ∏ z ∈ xs.toFinset.erase x, g z := fun x g => by
    have hnodup : (others xs x).Nodup := hxs.filter _
    rw [← hother, List.prod_toFinset g hnodup]
  have hinter := Lagrange.eq_interpolate (s := xs.toFinset) (v := id) (Set.injOn_id _) (f := f) (by rwa [hcard])
  conv_rhs => rw [hinter, Lagrange.interpolate_apply, eval_finsetSum]
  rw [List.sum_toFinset _ hxs]
  refine congrArg List.sum (List.map_congr_left fun x _ => ?_)
  rw [hprod, hprod, eval_mul, eval_C, Lagrange.basis, eval_prod, mul_assoc, ← Finset.prod_inv_distrib,
    ← Finset.prod_mul_distrib]
  refine congrArg _ (Finset.prod_congr rfl fun z _ => ?_)
  simp [Lagrange.basisDivisor, mul_comm]

end Recovery

/-! ### Secrecy -/

theorem horner_ofFn (x : F) : ∀ {m : ℕ} (c : Fin m → F), horner (List.ofFn c) x = ∑ j, c j * x ^ (j : ℕ)
  | 0, c => by simp
  | m + 1, c => by
    rw [List.ofFn_succ, horner_cons, horner_ofFn x, Fin.sum_univ_succ, Finset.sum_mul]
    simp [pow_succ, mul_assoc, add_comm]

/-- **Shares at fewer points than there are coefficients say nothing**: with the
constant term fixed, the other coefficients and the shares at as many distinct
points other than zero determine each other. -/
theorem bijective_shares {m : ℕ} {x : Fin m → F} (hx : Function.Injective x) (hzero : ∀ i, x i ≠ 0) (secret : F) :
    Function.Bijective fun (c : Fin m → F) (i : Fin m) => horner (secret :: List.ofFn c) (x i) := by
  have hdet : IsUnit (Matrix.vandermonde x) :=
    (Matrix.isUnit_iff_isUnit_det _).mpr (Matrix.det_vandermonde_ne_zero_iff.mpr hx).isUnit
  have hshare : (fun (c : Fin m → F) (i : Fin m) => horner (secret :: List.ofFn c) (x i)) =
      (fun (v : Fin m → F) i => v i * x i + secret) ∘ (Matrix.vandermonde x).mulVec := by
    funext c i
    simp only [Function.comp_apply, horner_cons, horner_ofFn, Matrix.mulVec, dotProduct, Matrix.vandermonde_apply]
    simp only [mul_comm (c _)]
  rw [hshare]
  refine Function.Bijective.comp ⟨fun v w h => ?_, fun w => ?_⟩ 
    ⟨Matrix.mulVec_injective_iff_isUnit.mpr hdet, Matrix.mulVec_surjective_iff_isUnit.mpr hdet⟩
  · funext i
    have hi := congrFun h i
    exact mul_right_cancel₀ (hzero i) (add_right_cancel hi)
  · refine ⟨fun i => (w i - secret) / x i, funext fun i => ?_⟩
    simp only [div_mul_cancel₀ _ (hzero i), sub_add_cancel]

/-- What is drawn uniformly and mapped one to one is uniform. -/
theorem map_uniform {α : Type} [Fintype α] [Nonempty α] {f : α → α} (hf : Function.Bijective f) :
    (PMF.uniformOfFintype α).map f = PMF.uniformOfFintype α := by
  ext b
  obtain ⟨a, rfl⟩ := hf.2 b
  rw [PMF.map_apply, tsum_eq_single a fun c hc => if_neg fun h => hc (hf.1 h).symm, if_pos rfl]
  simp

end Sharing
