/-
# Referendums

`referendum` rounds the percentage of YES to two decimals and compares what it
has rounded with the threshold. A majority that is above the threshold by less
than half of a hundredth of a percent is rounded down to it, and does not pass.

Key definitions: `excess`, `RoundedAway`.
Key theorems: `roundHalfEven_le`, `referendum_exact`.
-/
import FlexyVotes.Elections.Tally
import Mathlib.Data.Rat.Floor

namespace FlexyVotes
namespace Referendums

open Tally

/-! ### Rounding -/

/-- What is rounded to `t` at most: what is below the middle after `t`, and the
middle itself when `t` is even. -/
theorem roundHalfEven_le {x : ℚ} {t : ℤ} : roundHalfEven x ≤ t ↔ x < t + 1 / 2 ∨ x = t + 1 / 2 ∧ t % 2 = 0 := by
  have hfloor : (x.floor : ℚ) ≤ x := Int.floor_le x
  have hnext : x < x.floor + 1 := Int.lt_floor_add_one x
  have hmiddle : x < t + 1 / 2 ∨ x = t + 1 / 2 ∧ t % 2 = 0 → x ≤ t + 1 / 2 := by
    rintro (h | ⟨h, -⟩)
    · exact h.le
    · exact h.le
  unfold roundHalfEven
  split
  · -- before the middle
    constructor
    · intro hle
      have : (x.floor : ℚ) ≤ t := by exact_mod_cast hle
      exact Or.inl (by linarith)
    · intro h
      have hlt : (x.floor : ℚ) < t + 1 := by linarith [hmiddle h]
      exact Int.lt_add_one_iff.mp (by exact_mod_cast hlt)
  · split
    · -- after it
      constructor
      · intro hle
        have : (x.floor : ℚ) + 1 ≤ t := by exact_mod_cast hle
        exact Or.inl (by linarith)
      · intro h
        have hlt : (x.floor : ℚ) < t := by linarith [hmiddle h]
        exact Int.add_one_le_iff.mpr (by exact_mod_cast hlt)
    · have hhalf : x = x.floor + 1 / 2 := by linarith
      split
      · constructor
        · intro hle
          rcases hle.eq_or_lt with heq | hlt
          · exact Or.inr ⟨heq ▸ hhalf, heq ▸ by assumption⟩
          · have : (x.floor : ℚ) + 1 ≤ t := by exact_mod_cast hlt
            exact Or.inl (by linarith)
        · intro h
          have hle : (x.floor : ℚ) ≤ t := by linarith [hmiddle h]
          exact_mod_cast hle
      · rename_i hodd
        constructor
        · intro hle
          have : (x.floor : ℚ) + 1 ≤ t := by exact_mod_cast hle
          exact Or.inl (by linarith)
        · rintro (hlt | ⟨heq, heven⟩)
          · have hlt' : (x.floor : ℚ) < t := by linarith
            exact Int.add_one_le_iff.mpr (by exact_mod_cast hlt')
          · have hsame : (x.floor : ℚ) = t := by linarith
            have hsame' : x.floor = t := by exact_mod_cast hsame
            exact absurd (hsame' ▸ heven) hodd

/-! ### The decision -/

/-- How many selections are `answer`. -/
def answers (answer : String) (selections : List Json) : ℕ := (selections.filter fun s => s == .str answer).length

/-- By how much YES exceeds a threshold of `t` hundredths of a percent, in
ten-thousandths of a vote. -/
def excess (yes no t : ℕ) : ℤ := 10000 * yes - t * (yes + no)

/-- An excess that is lost when the percentage is rounded. -/
def RoundedAway (yes no t : ℕ) : Prop :=
  0 < excess yes no t ∧ (2 * excess yes no t < yes + no ∨ 2 * excess yes no t = yes + no ∧ t % 2 = 0)

instance (yes no t : ℕ) : Decidable (RoundedAway yes no t) := by unfold RoundedAway; infer_instance

variable {yes no t : ℕ}

/-- The percentage against the threshold, by the excess. -/
theorem pct_le (hvalid : 0 < yes + no) :
    pct yes (yes + no : ℕ) ≤ t / 100 ↔
      2 * excess yes no t < yes + no ∨ 2 * excess yes no t = yes + no ∧ t % 2 = 0 := by
  have hne : ((yes + no : ℕ) : ℤ) ≠ 0 := by exact_mod_cast hvalid.ne'
  have hpos : (0 : ℚ) < yes + no := by exact_mod_cast hvalid
  have hexcess : (excess yes no t : ℚ) = 10000 * yes - t * (yes + no) := by
    unfold excess
    push_cast
    ring
  have hscaled : (100 * ((yes : ℤ) : ℚ) / (((yes + no : ℕ) : ℤ) : ℚ)) * 10 ^ 2 = t + excess yes no t / (yes + no) := by
    rw [hexcess]
    push_cast
    field_simp
    ring
  have hround : pct yes (yes + no : ℕ) ≤ t / 100 ↔ roundHalfEven (t + excess yes no t / (yes + no)) ≤ (t : ℤ) := by
    unfold pct
    rw [if_neg hne, roundTo, hscaled]
    norm_num [div_le_div_iff_of_pos_right]
    exact_mod_cast Iff.rfl
  rw [hround, roundHalfEven_le]
  have hlt : ((t : ℚ) + excess yes no t / (yes + no) < ((t : ℤ) : ℚ) + 1 / 2) ↔ 2 * excess yes no t < yes + no := by
    rw [Int.cast_natCast, add_lt_add_iff_left, div_lt_div_iff₀ hpos two_pos, one_mul, mul_comm]
    exact_mod_cast Iff.rfl
  have heq : ((t : ℚ) + excess yes no t / (yes + no) = ((t : ℤ) : ℚ) + 1 / 2) ↔ 2 * excess yes no t = yes + no := by
    rw [Int.cast_natCast, add_right_inj, div_eq_div_iff hpos.ne' two_ne_zero, one_mul, mul_comm]
    exact_mod_cast Iff.rfl
  rw [hlt, heq]
  exact or_congr_right (and_congr_right fun _ => by omega)

/-- What the referendum reports. -/
theorem passed_iff (selections : List Json) (t : ℕ) :
    (referendum selections (t / 100)).passed = true ↔
      0 < answers "YES" selections + answers "NO" selections ∧
      t / 100 < pct (answers "YES" selections) (answers "YES" selections + answers "NO" selections : ℕ) :=
  decide_eq_true_iff

/-- **A referendum is decided exactly unless the rounding takes the excess
away.** -/
theorem referendum_exact (selections : List Json) (t : ℕ) :
    ((referendum selections (t / 100)).passed = true ↔
      (t / 100 : ℚ) * (answers "YES" selections + answers "NO" selections) < 100 * answers "YES" selections) ↔
    ¬ RoundedAway (answers "YES" selections) (answers "NO" selections) t := by
  rw [passed_iff]
  set yes := answers "YES" selections
  set no := answers "NO" selections
  have hmore : (t / 100 : ℚ) * (yes + no) < 100 * yes ↔ 0 < excess yes no t := by
    have hscaled : 100 * (100 * (yes : ℚ) - t / 100 * (yes + no)) = excess yes no t := by
      unfold excess
      push_cast
      ring
    rw [← sub_pos, ← mul_pos_iff_of_pos_left (show (0 : ℚ) < 100 by norm_num), hscaled, Int.cast_pos]
  rw [hmore]
  rcases Nat.eq_zero_or_pos (yes + no) with hnone | hvalid
  · have hzero : excess yes no t = 0 := by
      obtain ⟨hy, hn⟩ := Nat.add_eq_zero_iff.mp hnone
      simp [excess, hy, hn]
    exact iff_of_true (iff_of_false (fun h => absurd h.1 (by omega)) (by omega)) fun h => absurd h.1 (by omega)
  · have hless : (t / 100 : ℚ) < pct yes (yes + no : ℕ) ↔ ¬ _ := not_le.symm.trans (not_congr (pct_le hvalid))
    rw [hless]
    unfold RoundedAway
    constructor
    · intro h hlost
      exact (h.mpr hlost.1).2 hlost.2
    · intro h
      refine ⟨fun hpassed => ?_, fun hexcess => ⟨hvalid, fun hlost => h ⟨hexcess, hlost⟩⟩⟩
      by_contra hnot
      exact hpassed.2 (Or.inl (by omega))

/-- One YES of three is more than 33.33 per cent. -/
theorem not_referendum_exact :
    ¬ ∀ (selections : List Json) (t : ℕ), t ≤ 10000 → ((referendum selections (t / 100)).passed = true ↔
      (t / 100 : ℚ) * (answers "YES" selections + answers "NO" selections) < 100 * answers "YES" selections) := by
  intro h
  have hyes : answers "YES" [.str "YES", .str "NO", .str "NO"] = 1 := by decide
  have hno : answers "NO" [.str "YES", .str "NO", .str "NO"] = 2 := by decide
  have hpassed := (h [.str "YES", .str "NO", .str "NO"] 3333 (by decide)).mpr (by
    rw [hyes, hno]
    norm_num)
  rw [passed_iff, hyes, hno] at hpassed
  exact absurd hpassed.2 (by decide +kernel)

end Referendums
end FlexyVotes
