/-
# Coalitions get their share of the seats

The count of `ranked` is a count by quota, or a runoff, whatever the lot
decides: its passes are steps of `Transfer`. So a coalition of voters that
puts the same candidates first, with more than `k` quotas among the valid
ballots, elects `k` of them, or all.
-/
import FlexyVotes.Elections.Tally

namespace FlexyVotes
namespace Proportional

open Tally Transfer

/-- The count as `Transfer` sees it. -/
def stateOf (c : Count) : State ℤ ℚ := ⟨c.ballots, c.continuing, c.elected⟩

variable {c : Count} {R : Rules} {q : ℚ}

/-- A pass under a quota is a step of a count by that quota. -/
theorem next_step (hq : R.quota = some q) (hne : c.continuing ≠ []) :
    Step q (stateOf c) (stateOf (c.next R)) := by
  have hquota : ∀ x, x ∈ c.winnersNow R ↔ x ∈ c.continuing ∧ q ≤ c.tally x := fun x => by
    rw [Count.winnersNow, List.mem_filter, hq, decide_eq_true_eq]
  rcases Count.next_cases (R := R) hne with ⟨w, hw, -, hnext⟩ | ⟨hnone, x, hx, -, hnext⟩
  · have hw' := (hquota w).mp hw
    have hratio : (if q < c.tally w then (c.tally w - q) / c.tally w else 0) = surplus q (c.tally w) := by
      unfold surplus
      split
      · rfl
      · have hsame : c.tally w = q := le_antisymm (not_lt.mp (by assumption)) hw'.2
        rw [hsame, sub_self, zero_div]
    have hstate : stateOf (c.elect R w) =
        ⟨transfer c.continuing w (surplus q (c.tally w)) c.ballots, c.continuing.erase w, c.elected ++ [w]⟩ := by
      simp only [stateOf, Count.elect, hq, hratio]
    rw [hnext, hstate]
    exact Step.elect (s := stateOf c) hw'.1 hw'.2
  · rw [hnext]
    refine Step.eliminate (s := stateOf c) (Count.candidatesLowest_sub hx) fun d hd => ?_
    by_contra hle
    have hmem : d ∈ c.winnersNow R := (hquota d).mpr ⟨hd, not_lt.mp hle⟩
    rw [hnone] at hmem
    exact List.not_mem_nil hmem

/-! ### At the start -/

/-- The number of valid ballots that rank all of `S` before anybody else. -/
def coalition (S : Finset ℤ) (valid : List (List ℤ)) : ℕ := (valid.filter fun prefs => Solid S prefs).length

theorem weightOf_start (P : List ℤ → Prop) [DecidablePred P] (valid : List (List ℤ)) (hopeful : List ℤ) :
    weightOf P (Count.start valid hopeful).ballots = ((valid.filter fun prefs => P prefs).length : ℚ) := by
  change weightOf P (valid.map fun prefs => (prefs, (1 : ℚ))) = _
  induction valid with
  | nil => rfl
  | cons prefs valid ih =>
    rw [List.map_cons, weightOf_cons, ih]
    by_cases hp : P prefs
    · simp only [hp, if_true, decide_true, List.filter_cons_of_pos, List.length_cons]
      push_cast
      ring
    · simp [hp]

theorem nonneg_start (valid : List (List ℤ)) (hopeful : List ℤ) : Nonneg (Count.start valid hopeful).ballots := by
  intro b hb
  obtain ⟨prefs, -, rfl⟩ := List.mem_map.mp hb
  exact zero_le_one

theorem weight_start (valid : List (List ℤ)) (hopeful : List ℤ) :
    weightOf (fun _ => True) (Count.start valid hopeful).ballots = valid.length := by
  rw [weightOf_start]
  simp

variable {S : Finset ℤ} {k : ℕ}

theorem standing_start {valid : List (List ℤ)} {hopeful : List ℤ} (hS : ∀ x ∈ S, x ∈ hopeful) :
    standing S (stateOf (Count.start valid hopeful)) = S :=
  Finset.filter_true_of_mem hS

theorem seated_start {valid : List (List ℤ)} {hopeful : List ℤ} :
    seated S (stateOf (Count.start valid hopeful)) = ∅ := by
  simp [seated, stateOf, Count.start]

/-! ### Filling the seats -/

/-- Who fills the remaining seats counts as elected. -/
theorem seated_fill : (seated S (stateOf c)).card + (standing S (stateOf c)).card ≤
    (S.filter (· ∈ (c.fill R).elected)).card + (S.filter fun x => x ∈ c.elected ∧ x ∈ c.continuing).card := by
  have hunion : S.filter (· ∈ (c.fill R).elected) = seated S (stateOf c) ∪ standing S (stateOf c) := by
    rw [seated, standing, ← Finset.filter_or]
    refine Finset.filter_congr fun x _ => ?_
    change x ∈ c.elected ++ c.byTally R c.continuing ↔ x ∈ c.elected ∨ x ∈ c.continuing
    rw [List.mem_append, Count.mem_byTally]
  have hinter : S.filter (fun x => x ∈ c.elected ∧ x ∈ c.continuing) =
      seated S (stateOf c) ∩ standing S (stateOf c) := by
    rw [seated, standing, ← Finset.filter_and]
    rfl
  rw [hunion, hinter, Finset.card_union_add_card_inter]

/-! ### One seat -/

theorem active_eq (hnd : c.continuing.Nodup) : c.activeTotal = active c.continuing c.ballots := by
  unfold Count.activeTotal active
  rw [List.sum_toFinset _ hnd]
  rfl

/-- A runoff in progress: the ballots are as cast, and a member of the
coalition continues or has the seat. -/
structure Running (S : Finset ℤ) (ballots : List (List ℤ × ℚ)) (c : Count) : Prop where
  ballots : c.ballots = ballots
  nodup : c.continuing.Nodup
  member : (c.elected = [] ∧ ∃ x ∈ S, x ∈ c.continuing) ∨ ∃ x ∈ S, x ∈ c.elected

theorem Running.next {ballots : List (List ℤ × ℚ)} (hmaj : Majority S ballots) (h0 : Nonneg ballots)
    (hseats : R.seats = 1) (hquota : R.quota = none) (h : Running S ballots c) (hend : ¬ c.ended R) :
    Running S ballots (c.next R) := by
  have hne : c.continuing ≠ [] := fun hnil => hend (Or.inl hnil)
  have hopen : c.elected = [] := by
    by_contra hsome
    have := List.length_pos_iff.mpr hsome
    exact hend (Or.inr (by omega))
  have hmember : ∃ x ∈ S, x ∈ c.continuing := by
    rcases h.member with ⟨-, hm⟩ | ⟨x, -, hx⟩
    · exact hm
    · rw [hopen] at hx
      exact absurd hx List.not_mem_nil
  have hstanding : (standing S (stateOf c)).Nonempty := by
    obtain ⟨x, hx, hc⟩ := hmember
    exact ⟨x, Finset.mem_filter.mpr ⟨hx, hc⟩⟩
  have hnow : ∀ x, x ∈ c.winnersNow R ↔ x ∈ c.continuing ∧ c.activeTotal / 2 < c.tally x := fun x => by
    rw [Count.winnersNow, List.mem_filter, hquota, decide_eq_true_eq]
  have hballots := h.ballots
  rw [← hballots] at hmaj h0
  rcases Count.next_cases (R := R) hne with ⟨w, hw, -, hnext⟩ | ⟨hnone, x, hx, -, hnext⟩
  · have hw' := (hnow w).mp hw
    rw [active_eq h.nodup] at hw'
    have hwS : w ∈ S := hmaj.elects h0 hstanding hw'.1 (by
      have := hw'.2
      unfold Count.tally at this
      linarith)
    rw [hnext]
    refine ⟨?_, h.nodup.erase w, Or.inr ⟨w, hwS, ?_⟩⟩
    · simp only [Count.elect, hquota]
      exact hballots
    · simp [Count.elect]
  · have hhalf : ∀ d ∈ c.continuing, 2 * Transfer.tally c.continuing c.ballots d ≤ active c.continuing c.ballots := by
      intro d hd
      by_contra hless
      have hmem : d ∈ c.winnersNow R := (hnow d).mpr ⟨hd, by
        rw [active_eq h.nodup]
        unfold Count.tally
        linarith⟩
      rw [hnone] at hmem
      exact List.not_mem_nil hmem
    have htwo : 1 < (standing S (stateOf c)).card := hmaj.keeps h0 hstanding hhalf
    obtain ⟨y, hy, hyx⟩ := Finset.exists_mem_ne htwo x
    have hy' := Finset.mem_filter.mp hy
    rw [hnext]
    refine ⟨hballots, h.nodup.erase x, Or.inl ⟨hopen, y, hy'.1, ?_⟩⟩
    exact (h.nodup.mem_erase_iff).mpr ⟨hyx, hy'.2⟩

/-- A majority that agrees on its candidates elects one of them. -/
theorem runoff {valid : List (List ℤ)} {hopeful : List ℤ} (hnd : hopeful.Nodup) (hS : S.Nonempty)
    (hsub : ∀ x ∈ S, x ∈ hopeful) (hmaj : valid.length < 2 * coalition S valid) (hseats : R.seats = 1)
    (hquota : R.quota = none) :
    ∃ x ∈ S, x ∈ (Count.loop R hopeful.length (Count.start valid hopeful)).elected := by
  have hmaj' : Majority S (Count.start valid hopeful).ballots := by
    unfold Majority
    rw [weight_start, weightOf_start]
    exact_mod_cast hmaj
  have hstart : Running S (Count.start valid hopeful).ballots (Count.start valid hopeful) := by
    obtain ⟨x, hx⟩ := hS
    exact ⟨rfl, hnd, Or.inl ⟨rfl, x, hx, hsub x hx⟩⟩
  refine Count.loop_induct (P := Running S (Count.start valid hopeful).ballots)
    (Q := fun c => ∃ x ∈ S, x ∈ c.elected) (fun c h hend _ => ?_) (fun c h hend => ?_) (fun c h hend _ => ?_)
    hopeful.length _ le_rfl hstart
  · exact h.next hmaj' (nonneg_start valid hopeful) hseats hquota hend
  · rcases h.member with ⟨hopen, x, -, hx⟩ | hm
    · rcases hend with hnil | hfull
      · rw [hnil] at hx
        exact absurd hx List.not_mem_nil
      · rw [hopen, hseats] at hfull
        exact absurd hfull (by simp)
    · exact hm
  · rcases h.member with ⟨-, x, hxS, hx⟩ | ⟨x, hxS, hx⟩
    · exact ⟨x, hxS, List.mem_append_right _ (Count.mem_byTally.mpr hx)⟩
    · exact ⟨x, hxS, List.mem_append_left _ hx⟩

/-! ### Several seats -/

/-- A count by quota elects a coalition's share. -/
theorem byQuota {valid : List (List ℤ)} {hopeful : List ℤ} (hnd : hopeful.Nodup) (hsub : ∀ x ∈ S, x ∈ hopeful)
    (hseats : 0 < R.seats) (hquota : R.quota = some ((valid.length : ℚ) / (R.seats + 1)))
    (hk : (k * valid.length : ℚ) / (R.seats + 1) < coalition S valid) :
    min k S.card ≤ (S.filter (· ∈ (Count.loop R hopeful.length (Count.start valid hopeful)).elected)).card := by
  set q : ℚ := (valid.length : ℚ) / (R.seats + 1) with hqdef
  have hq0 : 0 ≤ q := by positivity
  have htotal : (valid.length : ℚ) = (R.seats + 1) * q := by
    rw [hqdef]
    field_simp
  have hstart : Held S k q valid.length (stateOf (Count.start valid hopeful)) := by
    refine ⟨hnd, fun _ _ => List.not_mem_nil, nonneg_start valid hopeful, ?_, fun _ => ?_, ?_⟩
    · change weightOf _ (Count.start valid hopeful).ballots + ((0 : ℕ) : ℚ) * q = _
      rw [weight_start]
      simp
    · rw [seated_start]
      change _ < weightOf _ (Count.start valid hopeful).ballots + _
      rw [weightOf_start, Finset.card_empty]
      have hkq : (k : ℚ) * q = k * valid.length / (R.seats + 1) := by rw [hqdef]; ring
      unfold coalition at hk
      rw [hkq]
      simpa using hk
    · rw [seated_start, standing_start hsub]
      simp
  refine Count.loop_induct
    (P := fun c => Held S k q valid.length (stateOf c) ∧ c.elected.length ≤ R.seats)
    (Q := fun c => min k S.card ≤ (S.filter (· ∈ c.elected)).card)
    (fun c h hend _ => ?_) (fun c h hend => ?_) (fun c h hend _ => ?_)
    hopeful.length _ le_rfl ⟨hstart, Nat.zero_le _⟩
  · have hne : c.continuing ≠ [] := fun hnil => hend (Or.inl hnil)
    have hmore : c.elected.length < R.seats := not_le.mp fun hle => hend (Or.inr hle)
    refine ⟨h.1.step hq0 (next_step hquota hne), ?_⟩
    rcases Count.next_cases (R := R) hne with ⟨w, -, -, hnext⟩ | ⟨-, x, -, -, hnext⟩
    · rw [hnext]
      change (c.elected ++ [w]).length ≤ R.seats
      rw [List.length_append, List.length_singleton]
      omega
    · rw [hnext]
      exact hmore.le
  · refine h.1.proportional htotal ?_
    rcases hend with hnil | hfull
    · exact Or.inl hnil
    · exact Or.inr (le_antisymm h.2 hfull)
  · have henough := h.1.enough
    have hfill := seated_fill (S := S) (c := c) (R := R)
    have hnone : (S.filter fun x => x ∈ c.elected ∧ x ∈ c.continuing) = ∅ :=
      Finset.filter_false_of_mem fun x _ hx => h.1.apart x hx.2 hx.1
    rw [hnone, Finset.card_empty] at hfill
    omega

/-! ### The guarantee -/

/-- With a seat for each candidate everybody is elected. -/
theorem seats_for_all {valid : List (List ℤ)} {hopeful : List ℤ} (hseats : hopeful.length = R.seats) {x : ℤ}
    (hx : x ∈ hopeful) : x ∈ (Count.loop R hopeful.length (Count.start valid hopeful)).elected := by
  have hpos := List.length_pos_of_mem hx
  obtain ⟨n, hn⟩ : ∃ n, hopeful.length = n + 1 := ⟨hopeful.length - 1, by omega⟩
  have hend : ¬ (Count.start valid hopeful).ended R := by
    rintro (hnil | hfull)
    · rw [show hopeful = [] from hnil] at hx
      exact List.not_mem_nil hx
    · exact absurd (show R.seats ≤ 0 from hfull) (by omega)
  have hfills : (Count.start valid hopeful).fills R := by
    change hopeful.length ≤ R.seats - 0
    omega
  rw [hn, Count.loop, if_neg hend, if_pos hfills]
  exact List.mem_append_right _ (Count.mem_byTally.mpr hx)

/-- **Proportionality for solid coalitions.** If more than `k` of `seats + 1`
parts of the valid ballots rank all of `S` before anybody else, at least `k`
members of `S` are elected, or all: for any seats, any lot, any candidates. -/
theorem solid_coalition (selections : List (Option (List ℤ))) (candidates : List Candidate) (seats : ℕ)
    (lotKey : ℤ → String) (S : Finset ℤ) (k : ℕ) (hseats : 1 ≤ seats)
    (hS : ∀ x ∈ S, x ∈ candidates.map (·.id))
    (hk : (k * (ranked selections candidates seats lotKey).validBallots : ℚ) / (seats + 1) <
      coalition S (validPrefs selections (distinctIds candidates))) :
    min k S.card ≤ (S.filter (· ∈ (ranked selections candidates seats lotKey).winners)).card := by
  set hopeful := distinctIds candidates with hhopeful
  set valid := validPrefs selections hopeful with hvalid
  have hnd : hopeful.Nodup := List.nodup_dedup _
  have hsub : ∀ x ∈ S, x ∈ hopeful := fun x hx => List.mem_dedup.mpr (hS x hx)
  change (k * valid.length : ℚ) / (seats + 1) < coalition S valid at hk
  change min k S.card ≤ (S.filter (· ∈ (Count.loop (rankedRules lotKey valid (effectiveSeats seats hopeful))
    hopeful.length (Count.start valid hopeful)).elected)).card
  rcases S.eq_empty_or_nonempty with hempty | hne
  · rw [hempty]
    simp
  have hcands : hopeful ≠ [] := by
    obtain ⟨x, hx⟩ := hne
    exact List.ne_nil_of_mem (hsub x hx)
  have hpos := List.length_pos_iff.mpr hcands
  have heff : effectiveSeats seats hopeful = min seats hopeful.length := by
    rw [effectiveSeats, if_neg hcands]
    omega
  rw [heff]
  by_cases hall : hopeful.length ≤ seats
  · have hevery : S.filter (· ∈ (Count.loop (rankedRules lotKey valid (min seats hopeful.length))
        hopeful.length (Count.start valid hopeful)).elected) = S :=
      Finset.filter_true_of_mem fun x hx => seats_for_all (Nat.min_eq_right hall).symm (hsub x hx)
    rw [hevery]
    exact Nat.min_le_right _ _
  have hfew : seats ≤ hopeful.length := by omega
  rw [Nat.min_eq_left hfew]
  by_cases hone : seats = 1
  · -- a majority: `k` can only be 0 or 1
    have hlen : coalition S valid ≤ valid.length := List.length_filter_le _ _
    have hk2 : k * valid.length < 2 * coalition S valid := by
      rw [div_lt_iff₀ (by positivity), hone] at hk
      have : (k * valid.length : ℚ) < 2 * coalition S valid := by
        norm_num at hk
        linarith
      exact_mod_cast this
    rcases k with _ | _ | k
    · simp
    · have hmaj : valid.length < 2 * coalition S valid := by omega
      obtain ⟨x, hxS, hx⟩ := runoff (R := rankedRules lotKey valid seats) hnd hne hsub hmaj hone
        (by simp [rankedRules, hone])
      have hcard : 0 < (S.filter (· ∈ (Count.loop (rankedRules lotKey valid seats) hopeful.length
          (Count.start valid hopeful)).elected)).card := Finset.card_pos.mpr ⟨x, Finset.mem_filter.mpr ⟨hxS, hx⟩⟩
      have hmin : min (0 + 1) S.card ≤ 1 := Nat.min_le_left _ _
      omega
    · have htwo : 2 * valid.length ≤ (k + 1 + 1) * valid.length := Nat.mul_le_mul_right _ (by omega)
      omega
  · refine byQuota hnd hsub (show 0 < seats by omega) ?_ hk
    simp [rankedRules, show 1 < seats by omega]

/-- Two of three ballots rank 1 and 2 before 3: with two seats one of 1 and 2
is elected. -/
theorem solid_coalition_pair :
    min 1 ({1, 2} : Finset ℤ).card ≤ (({1, 2} : Finset ℤ).filter (· ∈ (ranked [some [2, 1, 3], some [1, 2], some [3]]
      [⟨1, "Ada"⟩, ⟨2, "Ben"⟩, ⟨3, "Cem"⟩] 2 toString).winners)).card :=
  solid_coalition [some [2, 1, 3], some [1, 2], some [3]] [⟨1, "Ada"⟩, ⟨2, "Ben"⟩, ⟨3, "Cem"⟩] 2 toString {1, 2} 1
    (by decide) (by decide) (by decide +kernel)

end Proportional
end FlexyVotes
