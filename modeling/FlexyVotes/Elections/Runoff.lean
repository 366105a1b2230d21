/-
# Who wins a runoff

With one seat `ranked` is an instant runoff. Whatever the lot decides, nobody
who would lose to each other candidate on the ballots as cast is elected, and
whoever is first on more than half of the valid ballots is.
-/
import FlexyVotes.Elections.Rounds

namespace FlexyVotes
namespace Runoff

open Tally Transfer Proportional

/-- The number of ballots that prefer `x` to `y`, where a candidate that is not
listed is below all that are. -/
def duel (selections : List (Option (List ℤ))) (x y : ℤ) : ℕ :=
  (selections.filter fun s => Prefers x y (s.getD [])).length

/-- A strict Condorcet loser. -/
def CondorcetLoser (selections : List (Option (List ℤ))) (candidates : List Candidate) (x : ℤ) : Prop :=
  ∀ y ∈ candidates.map (·.id), y ≠ x → duel selections x y < duel selections y x

instance (selections : List (Option (List ℤ))) (candidates : List Candidate) (x : ℤ) :
    Decidable (CondorcetLoser selections candidates x) := by unfold CondorcetLoser; infer_instance

/-! ### Duels on the valid ballots -/

variable {hopeful : List ℤ} {x y : ℤ}

/-- What is no candidate on a ballot has no part in a duel. -/
theorem prefers_prefsOf (hx : x ∈ hopeful) (hy : y ∈ hopeful) (s : Option (List ℤ)) :
    Prefers x y (prefsOf hopeful s) ↔ Prefers x y (s.getD []) := by
  have hsame : (prefsOf hopeful s).find? (fun c => c = x ∨ c = y) = (s.getD []).find? (fun c => c = x ∨ c = y) := by
    rw [prefsOf, List.find?_filter]
    congr 1
    funext c
    rw [decide_eq_decide, decide_eq_true_eq, decide_eq_true_eq]
    refine ⟨fun h => h.2, fun h => ⟨?_, h⟩⟩
    rcases h with rfl | rfl
    · exact hx
    · exact hy
  unfold Prefers
  rw [hsame]

/-- The weight at a duel's sides, at the start of the count. -/
theorem weightOf_duel (hx : x ∈ hopeful) (hy : y ∈ hopeful) (selections : List (Option (List ℤ))) :
    weightOf (Prefers x y) (Count.start (validPrefs selections hopeful) hopeful).ballots = duel selections x y := by
  rw [weightOf_start]
  congr 1
  unfold validPrefs duel
  rw [List.filter_filter, List.filter_map, List.length_map]
  congr 1
  refine List.filter_congr fun s _ => ?_
  have hlisted : Prefers x y (prefsOf hopeful s) → prefsOf hopeful s ≠ [] := fun h hnil => by
    rw [hnil] at h
    exact absurd h (by simp [Prefers])
  show (decide (Prefers x y (prefsOf hopeful s)) && decide (prefsOf hopeful s ≠ [])) = decide (Prefers x y (s.getD []))
  rw [Bool.eq_iff_iff, Bool.and_eq_true, decide_eq_true_eq, decide_eq_true_eq, decide_eq_true_eq,
    prefers_prefsOf hx hy]
  exact ⟨fun h => h.1, fun h => ⟨h, hlisted ((prefers_prefsOf hx hy s).mpr h)⟩⟩

/-! ### A runoff that does not elect `x` -/

/-- A runoff under way in which `x` is not elected: nobody is, and `x` does not
continue alone; or another is. -/
structure Passing (x : ℤ) (hopeful : List ℤ) (ballots : List (List ℤ × ℚ)) (c : Count) : Prop where
  ballots : c.ballots = ballots
  nodup : c.continuing.Nodup
  sub : ∀ y ∈ c.continuing, y ∈ hopeful
  out : c.elected = [] ∧ (x ∈ c.continuing → ∃ y ∈ c.continuing, y ≠ x) ∨ c.elected ≠ [] ∧ x ∉ c.elected

variable {R : Rules} {c : Count} {ballots : List (List ℤ × ℚ)}

theorem Passing.not_elected (h : Passing x hopeful ballots c) : x ∉ c.elected := by
  rcases h.out with ⟨hopen, -⟩ | ⟨-, hout⟩
  · rw [hopen]
    exact List.not_mem_nil
  · exact hout

theorem Passing.next (h0 : Nonneg ballots)
    (hloses : ∀ y ∈ hopeful, y ≠ x → weightOf (Prefers x y) ballots < weightOf (Prefers y x) ballots)
    (hseats : R.seats = 1) (hquota : R.quota = none) (h : Passing x hopeful ballots c) (hend : ¬ c.ended R) :
    Passing x hopeful ballots (c.next R) := by
  have hne : c.continuing ≠ [] := fun hnil => hend (Or.inl hnil)
  obtain ⟨hopen, hother⟩ : c.elected = [] ∧ (x ∈ c.continuing → ∃ y ∈ c.continuing, y ≠ x) := by
    rcases h.out with hout | ⟨hsome, -⟩
    · exact hout
    · exact absurd (Or.inr (hseats ▸ List.length_pos_iff.mpr hsome)) hend
  rcases Count.next_cases (R := R) hne with ⟨w, hw, -, hnext⟩ | ⟨-, z, hz, -, hnext⟩
  · obtain ⟨hwC, hmaj⟩ : w ∈ c.continuing ∧ c.activeTotal / 2 < c.tally w := by
      rw [Count.winnersNow, List.mem_filter, hquota, decide_eq_true_eq] at hw
      exact hw
    have hwx : x ≠ w := by
      rintro rfl
      -- a majority wins its duels, and `x` loses each
      obtain ⟨y, hy, hyx⟩ := hother hwC
      have hwins : weightOf (Prefers y x) c.ballots < weightOf (Prefers x y) c.ballots := by
        refine duel_of_majority (h.ballots ▸ h0) hwC hy hyx ?_
        rw [active_eq h.nodup] at hmaj
        unfold Count.tally active at hmaj
        linarith
      rw [h.ballots] at hwins
      exact absurd (hloses y (h.sub y hy) hyx) (not_lt.mpr hwins.le)
    rw [hnext]
    refine ⟨?_, h.nodup.erase w, fun y hy => h.sub y (List.mem_of_mem_erase hy), Or.inr ?_⟩
    · simp only [Count.elect, hquota]
      exact h.ballots
    · simp [Count.elect, hopen, hwx]
  · rw [hnext]
    refine ⟨h.ballots, h.nodup.erase z, fun y hy => h.sub y (List.mem_of_mem_erase hy), Or.inl ⟨hopen, fun hx => ?_⟩⟩
    obtain ⟨hxz, hxC⟩ := (h.nodup.mem_erase_iff).mp hx
    by_contra hnone
    -- `x` and `z` are the last two, and `z` has no more votes
    have hzC := Count.candidatesLowest_sub hz
    have hlast : ∀ y, y ∈ c.continuing ↔ y = x ∨ y = z := fun y => by
      constructor
      · intro hy
        by_contra hneither
        rw [not_or] at hneither
        exact hnone ⟨y, (h.nodup.mem_erase_iff).mpr ⟨hneither.2, hy⟩, hneither.1⟩
      · rintro (rfl | rfl)
        · exact hxC
        · exact hzC
    have hless : c.tally z ≤ c.tally x := of_decide_eq_true (List.mem_filter.mp hz).2 x hxC
    have hlosing := hloses z (h.sub z hzC) hxz.symm
    rw [← h.ballots, duel_of_last hlast, duel_of_last fun y => (hlast y).trans or_comm] at hlosing
    exact absurd hlosing (not_lt.mpr hless)

/-- Who loses each duel is not elected. -/
theorem loser_not_elected {valid : List (List ℤ)} (hnd : hopeful.Nodup) (htwo : 2 ≤ hopeful.length)
    (hloses : ∀ y ∈ hopeful, y ≠ x → weightOf (Prefers x y) (Count.start valid hopeful).ballots <
      weightOf (Prefers y x) (Count.start valid hopeful).ballots)
    (hseats : R.seats = 1) (hquota : R.quota = none) :
    x ∉ (Count.loop R hopeful.length (Count.start valid hopeful)).elected := by
  have hstart : Passing x hopeful (Count.start valid hopeful).ballots (Count.start valid hopeful) := by
    refine ⟨rfl, hnd, fun _ hy => hy, Or.inl ⟨rfl, fun _ => ?_⟩⟩
    have hcard : 1 < hopeful.toFinset.card := by rwa [List.toFinset_card_of_nodup hnd]
    obtain ⟨y, hy, hyx⟩ := Finset.exists_mem_ne hcard x
    exact ⟨y, List.mem_toFinset.mp hy, hyx⟩
  refine Count.loop_induct (P := Passing x hopeful (Count.start valid hopeful).ballots)
    (Q := fun c => x ∉ c.elected) (fun c h hend _ => ?_) (fun c h _ => h.not_elected) (fun c h hend hfill => ?_)
    hopeful.length _ le_rfl hstart
  · exact h.next (nonneg_start valid hopeful) hloses hseats hquota hend
  · rcases h.out with ⟨hopen, hother⟩ | ⟨hsome, -⟩
    · intro hx
      have hx' : x ∈ c.elected ++ c.byTally R c.continuing := hx
      rw [hopen, List.nil_append, Count.mem_byTally] at hx'
      obtain ⟨y, hy, hyx⟩ := hother hx'
      have hone : c.continuing.length ≤ 1 := by
        have hfew : c.continuing.length ≤ R.seats - c.elected.length := hfill
        omega
      obtain ⟨d, hd⟩ := List.length_eq_one_iff.mp (le_antisymm hone (List.length_pos_of_mem hy))
      rw [hd, List.mem_singleton] at hy hx'
      exact hyx (hy.trans hx'.symm)
    · exact absurd (Or.inr (hseats ▸ List.length_pos_iff.mpr hsome)) hend

/-! ### A majority -/

theorem solid_singleton {prefs : List ℤ} : Solid {x} prefs ↔ prefs.head? = some x := by
  unfold Solid
  rcases prefs with _ | ⟨y, prefs⟩
  · simp
  · by_cases hy : y = x
    · simp [hy]
    · simp [hy]

/-- The number of valid ballots that `x` is first on. -/
def firstOn (selections : List (Option (List ℤ))) (candidates : List Candidate) (x : ℤ) : ℕ :=
  ((validPrefs selections (distinctIds candidates)).filter fun prefs => prefs.head? = some x).length

theorem coalition_singleton (selections : List (Option (List ℤ))) (candidates : List Candidate) (x : ℤ) :
    coalition {x} (validPrefs selections (distinctIds candidates)) = firstOn selections candidates x := by
  unfold coalition firstOn
  simp only [solid_singleton]

/-- **The runoff.** A strict Condorcet loser is never elected, and who is first
on more than half of the valid ballots is. -/
theorem runoff_fair (selections : List (Option (List ℤ))) (candidates : List Candidate) (lotKey : ℤ → String)
    (hids : (candidates.map (·.id)).Nodup) (htwo : 2 ≤ candidates.length) :
    ∀ x ∈ candidates.map (·.id),
      (CondorcetLoser selections candidates x → x ∉ (ranked selections candidates 1 lotKey).winners) ∧
      ((ranked selections candidates 1 lotKey).validBallots < 2 * firstOn selections candidates x →
        x ∈ (ranked selections candidates 1 lotKey).winners) := by
  intro x hx
  have hnd : (distinctIds candidates).Nodup := List.nodup_dedup _
  have hmem : ∀ {y}, y ∈ distinctIds candidates ↔ y ∈ candidates.map (·.id) := List.mem_dedup
  have htwo' : 2 ≤ (distinctIds candidates).length := by
    rw [distinctIds, hids.dedup, List.length_map]
    exact htwo
  have hseats : (Rounds.rulesOf selections candidates 1 lotKey).seats = 1 := by
    show effectiveSeats 1 (distinctIds candidates) = 1
    rw [Rounds.effectiveSeats_eq]
    omega
  have hquota : (Rounds.rulesOf selections candidates 1 lotKey).quota = none := by
    show (if 1 < (Rounds.rulesOf selections candidates 1 lotKey).seats then _ else none) = none
    rw [hseats]
    rfl
  refine ⟨fun hloser => ?_, fun hmaj => ?_⟩
  · refine loser_not_elected (R := Rounds.rulesOf selections candidates 1 lotKey) hnd htwo' (fun y hy hyx => ?_)
      hseats hquota
    rw [weightOf_duel (hmem.mpr hx) hy, weightOf_duel hy (hmem.mpr hx)]
    exact_mod_cast hloser y (hmem.mp hy) hyx
  · have hmaj' : (validPrefs selections (distinctIds candidates)).length <
        2 * coalition {x} (validPrefs selections (distinctIds candidates)) := by
      rw [coalition_singleton]
      exact hmaj
    obtain ⟨y, hy, helected⟩ := runoff (R := Rounds.rulesOf selections candidates 1 lotKey) hnd
      (Finset.singleton_nonempty x) (fun y hy => Finset.mem_singleton.mp hy ▸ hmem.mpr hx) hmaj' hseats hquota
    rwa [Finset.mem_singleton.mp hy] at helected

/-- Four ballots: 3 is last on each but its own and is not elected; with two
more for 1, which is then first on most, 1 is. -/
theorem runoff_fair_three :
    (3 : ℤ) ∉ (ranked [some [1, 2], some [1, 2], some [2, 1], some [3]] [⟨1, "Ada"⟩, ⟨2, "Ben"⟩, ⟨3, "Cem"⟩] 1
      toString).winners ∧
    (1 : ℤ) ∈ (ranked [some [1], some [1, 2], some [2, 1]] [⟨1, "Ada"⟩, ⟨2, "Ben"⟩, ⟨3, "Cem"⟩] 1
      toString).winners :=
  ⟨(runoff_fair [some [1, 2], some [1, 2], some [2, 1], some [3]] [⟨1, "Ada"⟩, ⟨2, "Ben"⟩, ⟨3, "Cem"⟩] toString
      (by decide) (by decide) 3 (by decide)).1 (by decide +kernel),
    (runoff_fair [some [1], some [1, 2], some [2, 1]] [⟨1, "Ada"⟩, ⟨2, "Ben"⟩, ⟨3, "Cem"⟩] toString
      (by decide) (by decide) 1 (by decide)).2 (by decide +kernel)⟩

end Runoff
end FlexyVotes
