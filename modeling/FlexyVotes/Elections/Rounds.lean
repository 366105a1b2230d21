/-
# The rounds of a ranked count

The loop of `ranked` as the source runs it, with the division of a surplus,
which can raise. On every profile it ends, at `countRanked`, with a candidate
in each seat there is one for; and at the start of each round all the weight of
the valid ballots is accounted for.

Key definitions: `pass`, `Runs`, `starts`.
Key theorems: `runs_loop`, `ranked_fills`, `ranked_conserves`.
-/
import FlexyVotes.Elections.Proportional
import FlexyVotes.Elections.Standings

namespace FlexyVotes
namespace Rounds

open Tally Transfer Proportional Standings

/-! ### The loop -/

/-- `a / b`. -/
def divide (a b : ℚ) : Except Failure ℚ :=
  if b = 0 then .error (.crash "ZeroDivisionError") else .ok (a / b)

/-- The part of their weight that a winner's ballots go on with. -/
def surplusRatio (quota votes : ℚ) : Except Failure ℚ :=
  if quota < votes then divide (votes - quota) votes else .ok 0

/-- A pass of the loop that does not fill the seats. -/
def pass (R : Rules) (c : Count) : Except Failure Count :=
  match c.byTally R (c.winnersNow R) with
  | winner :: _ =>
    match R.quota with
    | none => .ok (c.elect R winner)
    | some quota =>
      (surplusRatio quota (c.tally winner)).map fun ratio =>
        { c.elect R winner with ballots := Transfer.transfer c.continuing winner ratio c.ballots }
  | [] =>
    match c.loser R with
    | some loser => .ok (c.eliminate R loser)
    -- `min` of no candidates
    | none => .error (.crash "ValueError")

/-- The `while` loop: from `c` it ends at `d`, and nothing is raised. -/
inductive Runs (R : Rules) : Count → Count → Prop
  | ended {c : Count} (h : c.ended R) : Runs R c c
  | fill {c : Count} (hend : ¬ c.ended R) (h : c.fills R) : Runs R c (c.fill R)
  | pass {c d e : Count} (hend : ¬ c.ended R) (hfill : ¬ c.fills R) (h : pass R c = .ok d) (hrest : Runs R d e) :
    Runs R c e

variable {R : Rules} {c d e : Count}

/-- It ends in one way. -/
theorem Runs.unique (h : Runs R c d) : ∀ {d'}, Runs R c d' → d = d' := by
  induction h with
  | ended hend =>
    intro d' h'
    cases h' with
    | ended => rfl
    | fill hnot => exact absurd hend hnot
    | pass hnot => exact absurd hend hnot
  | fill hend hfill =>
    intro d' h'
    cases h' with
    | ended h => exact absurd h hend
    | fill => rfl
    | pass _ hnot => exact absurd hfill hnot
  | pass hend hfill hpass _ ih =>
    intro d' h'
    cases h' with
    | ended h => exact absurd h hend
    | fill _ h => exact absurd h hfill
    | pass _ _ hpass' hrest' =>
      obtain rfl := Except.ok.inj (hpass.symm.trans hpass')
      exact ih hrest'

/-- A surplus is divided only where there are votes to divide by. -/
theorem surplusRatio_ok {quota votes : ℚ} (hquota : 0 ≤ quota) :
    surplusRatio quota votes = .ok (if quota < votes then (votes - quota) / votes else 0) := by
  unfold surplusRatio divide
  split
  · rename_i hmore
    rw [if_neg (hquota.trans_lt hmore).ne']
  · rfl

/-- No pass raises: it is the pass `next`. -/
theorem pass_ok (hquota : ∀ q, R.quota = some q → 0 ≤ q) (hne : c.continuing ≠ []) : pass R c = .ok (c.next R) := by
  rcases hw : c.byTally R (c.winnersNow R) with _ | ⟨winner, rest⟩
  · obtain ⟨x, -, hloser⟩ := Count.exists_loser (R := R) hne
    unfold pass Count.next
    simp only [hw, hloser]
  · unfold pass Count.next
    simp only [hw]
    cases hq : R.quota with
    | none => rfl
    | some quota =>
      simp only [surplusRatio_ok (hquota quota hq)]
      unfold Count.elect
      simp only [hq]
      rfl

/-- As many passes as candidates continue are enough. -/
theorem runs_loop (hquota : ∀ q, R.quota = some q → 0 ≤ q) :
    ∀ (n : ℕ) (c : Count), c.continuing.length ≤ n → Runs R c (Count.loop R n c) := by
  intro n
  induction n with
  | zero =>
    intro c hn
    exact .ended (Or.inl (List.length_eq_zero_iff.mp (Nat.le_zero.mp hn)))
  | succ n ih =>
    intro c hn
    unfold Count.loop
    split
    · exact .ended (by assumption)
    · rename_i hend
      split
      · exact .fill hend (by assumption)
      · rename_i hfill
        have hne : c.continuing ≠ [] := fun hnil => hend (Or.inl hnil)
        have hlen := Count.next_continuing (R := R) hne
        exact .pass hend hfill (pass_ok hquota hne) (ih _ (by omega))

/-! ### Seats -/

/-- The candidates are listed, and the seats can be filled. -/
structure Seating (R : Rules) (hopeful : List ℤ) (c : Count) : Prop where
  listed : Listed hopeful c
  within : c.elected.length ≤ R.seats
  enough : R.seats ≤ c.elected.length + c.continuing.length

/-- All seats are filled. -/
structure Filled (R : Rules) (hopeful : List ℤ) (c : Count) : Prop where
  perm : ∃ rest, (c.elected ++ rest ++ c.eliminated).Perm hopeful
  full : c.elected.length = R.seats

variable {hopeful : List ℤ}

theorem Seating.next (h : Seating R hopeful c) (hend : ¬ c.ended R) (hfill : ¬ c.fills R) :
    Seating R hopeful (c.next R) := by
  have hne : c.continuing ≠ [] := fun hnil => hend (Or.inl hnil)
  have hmore : c.elected.length < R.seats := not_le.mp fun hle => hend (Or.inr hle)
  have hmany : R.seats - c.elected.length < c.continuing.length := not_le.mp hfill
  have hlen := Count.next_continuing (R := R) hne
  have hlisted := h.listed.next (R := R) hne
  rcases Count.next_cases (R := R) hne with ⟨w, -, -, hnext⟩ | ⟨-, x, -, -, hnext⟩
  · have helected : (c.elect R w).elected.length = c.elected.length + 1 := by simp [Count.elect]
    rw [hnext] at hlen hlisted ⊢
    exact ⟨hlisted, by omega, by omega⟩
  · have helected : (c.eliminate R x).elected.length = c.elected.length := rfl
    rw [hnext] at hlen hlisted ⊢
    exact ⟨hlisted, by omega, by omega⟩

theorem Seating.ended (h : Seating R hopeful c) (hend : c.ended R) : Filled R hopeful c := by
  refine ⟨⟨c.continuing, h.listed⟩, le_antisymm h.within ?_⟩
  rcases hend with hnil | hfull
  · have henough := h.enough
    rw [hnil] at henough
    exact henough
  · exact hfull

theorem Seating.fill (h : Seating R hopeful c) (hfill : c.fills R) : Filled R hopeful (c.fill R) := by
  have hnewly : (c.byTally R c.continuing).Perm c.continuing := List.perm_insertionSort _ _
  refine ⟨⟨[], ?_⟩, ?_⟩
  · show ((c.elected ++ c.byTally R c.continuing) ++ [] ++ c.eliminated).Perm hopeful
    rw [List.append_nil]
    exact ((hnewly.append_left _).append_right _).trans h.listed
  · show (c.elected ++ c.byTally R c.continuing).length = R.seats
    have hfew : c.continuing.length ≤ R.seats - c.elected.length := hfill
    have hwithin := h.within
    have henough := h.enough
    rw [List.length_append, hnewly.length_eq]
    omega

/-- The seats there are candidates for, counted the other way round. -/
theorem effectiveSeats_eq (seats : ℕ) (hopeful : List ℤ) :
    effectiveSeats seats hopeful = min (max 1 seats) hopeful.length := by
  unfold effectiveSeats
  split
  · rename_i hnil
    rw [hnil]
    exact (Nat.min_zero _).symm
  · rename_i hne
    have := List.length_pos_iff.mpr hne
    omega

theorem quota_nonneg {lotKey : ℤ → String} {valid : List (List ℤ)} {seats : ℕ} :
    ∀ q, (rankedRules lotKey valid seats).quota = some q → 0 ≤ q := by
  intro q hq
  simp only [rankedRules] at hq
  split at hq
  · obtain rfl := Option.some.inj hq
    positivity
  · cases hq

/-- The rules of a count, and where it starts. -/
def rulesOf (selections : List (Option (List ℤ))) (candidates : List Candidate) (seats : ℕ)
    (lotKey : ℤ → String) : Rules :=
  rankedRules lotKey (validPrefs selections (distinctIds candidates)) (effectiveSeats seats (distinctIds candidates))

def startOf (selections : List (Option (List ℤ))) (candidates : List Candidate) : Count :=
  Count.start (validPrefs selections (distinctIds candidates)) (distinctIds candidates)

theorem fractions_start (valid : List (List ℤ)) (hopeful : List ℤ) : Fractions (Count.start valid hopeful).ballots := by
  intro b hb
  obtain ⟨prefs, -, rfl⟩ := List.mem_map.mp hb
  exact ⟨zero_le_one, le_rfl⟩

/-- The count begins with all candidates. -/
theorem filled_ranked (selections : List (Option (List ℤ))) (candidates : List Candidate) (seats : ℕ)
    (lotKey : ℤ → String) :
    Filled (rulesOf selections candidates seats lotKey) (distinctIds candidates)
      (countRanked selections candidates seats lotKey) := by
  refine Count.loop_induct (P := Seating _ (distinctIds candidates)) (Q := Filled _ (distinctIds candidates))
    (fun c h hend hfill => h.next hend hfill) (fun c h hend => h.ended hend) (fun c h _ hfill => h.fill hfill)
    _ _ le_rfl ⟨?_, Nat.zero_le _, ?_⟩
  · show ([] ++ distinctIds candidates ++ []).Perm (distinctIds candidates)
    rw [List.nil_append, List.append_nil]
  · show effectiveSeats seats (distinctIds candidates) ≤ 0 + (distinctIds candidates).length
    rw [effectiveSeats_eq]
    omega

/-- **Every ranked count ends with its seats filled.** The loop ends, in one
way and with no division by zero; it elects as many candidates as there are
seats, or all, none of them twice and none that it eliminates. -/
theorem ranked_fills (selections : List (Option (List ℤ))) (candidates : List Candidate) (seats : ℕ)
    (lotKey : ℤ → String) (hids : (candidates.map (·.id)).Nodup) :
    (∀ c, Runs (rulesOf selections candidates seats lotKey) (startOf selections candidates) c ↔
      c = countRanked selections candidates seats lotKey) ∧
    (ranked selections candidates seats lotKey).winners.length = min (max 1 seats) candidates.length ∧
    (ranked selections candidates seats lotKey).winners.Nodup ∧
    (∀ x ∈ (ranked selections candidates seats lotKey).winners, x ∈ candidates.map (·.id)) ∧
    List.Disjoint (countRanked selections candidates seats lotKey).elected
      (countRanked selections candidates seats lotKey).eliminated := by
  have hfilled := filled_ranked selections candidates seats lotKey
  have hruns : Runs (rulesOf selections candidates seats lotKey) (startOf selections candidates)
      (countRanked selections candidates seats lotKey) :=
    runs_loop quota_nonneg (distinctIds candidates).length (startOf selections candidates) le_rfl
  obtain ⟨rest, hperm⟩ := hfilled.perm
  have hnodup := hperm.nodup_iff.mpr (List.nodup_dedup _)
  have hapart := List.disjoint_of_nodup_append hnodup
  refine ⟨fun c => ⟨fun h => h.unique hruns, fun h => h ▸ hruns⟩, ?_, hnodup.of_append_left.of_append_left,
    fun x hx => ?_, fun x hx => hapart (List.mem_append_left _ hx)⟩
  · have hlength : (distinctIds candidates).length = candidates.length := by
      rw [distinctIds, hids.dedup, List.length_map]
    exact hfilled.full.trans (by rw [← hlength]; exact effectiveSeats_eq _ _)
  · exact List.mem_dedup.mp (hperm.subset (List.mem_append_left _ (List.mem_append_left _ hx)))

/-- Nobody votes: two seats are filled all the same. -/
theorem ranked_fills_empty :
    (ranked [] [⟨1, "Ada"⟩, ⟨2, "Ben"⟩, ⟨3, "Cem"⟩] 2 toString).winners.length = 2 :=
  (ranked_fills [] [⟨1, "Ada"⟩, ⟨2, "Ben"⟩, ⟨3, "Cem"⟩] 2 toString (by decide)).2.1

/-! ### Weight -/

/-- The counts at the start of each round of the loop. -/
def starts (R : Rules) : ℕ → Count → List Count
  | 0, _ => []
  | n + 1, c =>
    if c.ended R then []
    else if c.fills R then [c]
    else c :: starts R n (c.next R)

/-- What the passes keep holds at the start of each round. -/
theorem starts_induct {P : Count → Prop} (hnext : ∀ c, P c → ¬ c.ended R → ¬ c.fills R → P (c.next R)) :
    ∀ (n : ℕ) (c : Count), P c → ∀ d ∈ starts R n c, P d := by
  intro n
  induction n with
  | zero => exact fun _ _ _ hd => absurd hd List.not_mem_nil
  | succ n ih =>
    intro c h d hd
    unfold starts at hd
    split at hd
    · exact absurd hd List.not_mem_nil
    · rename_i hend
      split at hd
      · rw [List.mem_singleton.mp hd]
        exact h
      · rename_i hfill
        rcases List.mem_cons.mp hd with rfl | hd
        · exact h
        · exact ih _ (hnext c h hend hfill) d hd

/-- What a round reports of its start. -/
def figures (r : Round) : ℕ × List (ℤ × ℚ) × ℚ := (r.round, r.tallies, r.exhausted)

theorem next_rounds (hne : c.continuing ≠ []) :
    (c.next R).rounds.map figures = c.rounds.map figures ++ [figures c.snapshot] := by
  rcases Count.next_cases (R := R) hne with ⟨w, -, -, hnext⟩ | ⟨-, x, -, -, hnext⟩
  · rw [hnext]
    exact List.map_append
  · rw [hnext]
    exact List.map_append

/-- The rounds that are reported are those of the loop. -/
theorem loop_rounds : ∀ (n : ℕ) (c : Count),
    (Count.loop R n c).rounds.map figures = c.rounds.map figures ++ (starts R n c).map fun d => figures d.snapshot := by
  intro n
  induction n with
  | zero => exact fun c => (List.append_nil _).symm
  | succ n ih =>
    intro c
    unfold Count.loop starts
    by_cases hend : c.ended R
    · rw [if_pos hend, if_pos hend]
      exact (List.append_nil _).symm
    · rw [if_neg hend, if_neg hend]
      by_cases hfill : c.fills R
      · rw [if_pos hfill, if_pos hfill]
        exact List.map_append
      · rw [if_neg hfill, if_neg hfill, ih, next_rounds fun hnil => hend (Or.inl hnil), List.append_assoc]
        rfl

/-- With a quota: each of the elected has spent it. -/
theorem conserves_quota {q : ℚ} {valid : List (List ℤ)} (hnd : hopeful.Nodup) (hquota : R.quota = some q)
    (hq : 0 ≤ q) : ∀ c ∈ starts R hopeful.length (Count.start valid hopeful),
      c.activeTotal + c.exhausted + q * c.elected.length = valid.length ∧ Fractions c.ballots := by
  have hstart : Held ∅ 0 q (valid.length : ℚ) (stateOf (Count.start valid hopeful)) := by
    refine ⟨hnd, fun _ _ => List.not_mem_nil, nonneg_start valid hopeful, ?_, fun hS => absurd hS (by simp [standing]),
      Nat.zero_le _⟩
    show weightOf _ (Count.start valid hopeful).ballots + ((0 : ℕ) : ℚ) * q = _
    rw [weight_start]
    simp
  intro c hc
  obtain ⟨hheld, hfractions⟩ := starts_induct (R := R)
    (P := fun c => Held ∅ 0 q (valid.length : ℚ) (stateOf c) ∧ Fractions c.ballots)
    (fun c h hend _ => by
      have hstep := next_step hquota fun hnil => hend (Or.inl hnil)
      exact ⟨h.1.step hq hstep, hstep.fractions hq h.2⟩)
    _ _ ⟨hstart, fractions_start valid hopeful⟩ c hc
  have htotal := hheld.total
  rw [← sum_tally_add_exhausted (C := (stateOf c).continuing)] at htotal
  refine ⟨?_, hfractions⟩
  rw [active_eq hheld.nodup, mul_comm q]
  exact htotal

/-- In a runoff the ballots keep their weight. -/
theorem conserves_runoff {valid : List (List ℤ)} (hnd : hopeful.Nodup) (hquota : R.quota = none) :
    ∀ c ∈ starts R hopeful.length (Count.start valid hopeful),
      c.activeTotal + c.exhausted = valid.length ∧ Fractions c.ballots := by
  intro c hc
  obtain ⟨hballots, hnodup⟩ := starts_induct (R := R)
    (P := fun c => c.ballots = (Count.start valid hopeful).ballots ∧ c.continuing.Nodup)
    (fun c h hend _ => by
      rcases Count.next_cases (R := R) fun hnil => hend (Or.inl hnil) with ⟨w, -, -, hnext⟩ | ⟨-, x, -, -, hnext⟩
      · rw [hnext]
        refine ⟨?_, h.2.erase w⟩
        simp only [Count.elect, hquota]
        exact h.1
      · rw [hnext]
        exact ⟨h.1, h.2.erase x⟩)
    _ _ ⟨rfl, hnd⟩ c hc
  refine ⟨?_, hballots ▸ fractions_start valid hopeful⟩
  rw [active_eq hnodup, ← weight_start valid hopeful, ← hballots]
  exact sum_tally_add_exhausted

/-- **Votes are conserved.** The reported rounds are those of the loop, and at
the start of each the tallies, the exhausted weight and a quota for each of the
elected make up the valid ballots; in a runoff the tallies and the exhausted. -/
theorem ranked_conserves (selections : List (Option (List ℤ))) (candidates : List Candidate) (seats : ℕ)
    (lotKey : ℤ → String) :
    (ranked selections candidates seats lotKey).rounds.map figures =
      (starts (rulesOf selections candidates seats lotKey) (distinctIds candidates).length
        (startOf selections candidates)).map (fun c => figures c.snapshot) ∧
    ∀ c ∈ starts (rulesOf selections candidates seats lotKey) (distinctIds candidates).length
        (startOf selections candidates),
      (∀ quota, (rulesOf selections candidates seats lotKey).quota = some quota →
        c.activeTotal + c.exhausted + quota * c.elected.length =
          (ranked selections candidates seats lotKey).validBallots) ∧
      ((rulesOf selections candidates seats lotKey).quota = none →
        c.activeTotal + c.exhausted = (ranked selections candidates seats lotKey).validBallots) ∧
      Fractions c.ballots := by
  have hnd : (distinctIds candidates).Nodup := List.nodup_dedup _
  refine ⟨loop_rounds _ _, fun c hc => ?_⟩
  cases hquota : (rulesOf selections candidates seats lotKey).quota with
  | none =>
    obtain ⟨hweight, hfractions⟩ := conserves_runoff hnd hquota c hc
    exact ⟨fun _ h => (nomatch h), fun _ => hweight, hfractions⟩
  | some q =>
    obtain ⟨hweight, hfractions⟩ := conserves_quota hnd hquota (quota_nonneg q hquota) c hc
    exact ⟨fun _ h => Option.some.inj h ▸ hweight, fun h => (nomatch h), hfractions⟩

end Rounds
end FlexyVotes
