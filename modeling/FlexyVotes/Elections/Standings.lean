/-
# The rows of a ranked count

`ranked` lists its candidates from three collections: the elected in the order
they were elected, those who still continue, and the eliminated, the last one
first. Each pass moves one candidate from the second to one of the others, so
together the three stay the candidates of the position (`Listed`). The exit
that fills the remaining seats elects all who continue and leaves them
continuing, and so they are listed twice.

Key definitions: `Count.Listed`, `fillsUp`, `RowsListed`.
Key theorems: `Listed.next`, `loop_fillsUp`, `rows_listed`.
-/
import FlexyVotes.Elections.Tally

namespace FlexyVotes
namespace Standings

open Tally

variable {R : Rules} {c : Count} {hopeful : List ℤ}

/-! ### The three collections -/

/-- Each candidate is in one of the three collections, once. -/
def Listed (hopeful : List ℤ) (c : Count) : Prop :=
  (c.elected ++ c.continuing ++ c.eliminated).Perm hopeful

theorem Listed.elect {w : ℤ} (h : Listed hopeful c) (hw : w ∈ c.continuing) : Listed hopeful (c.elect R w) := by
  unfold Listed at h ⊢
  refine List.Perm.trans ?_ h
  show ((c.elected ++ [w]) ++ c.continuing.erase w ++ c.eliminated).Perm _
  refine List.Perm.append_right _ ?_
  rw [List.append_assoc]
  exact List.Perm.append_left _ (List.perm_cons_erase hw).symm

theorem Listed.eliminate {x : ℤ} (h : Listed hopeful c) (hx : x ∈ c.continuing) :
    Listed hopeful (c.eliminate R x) := by
  unfold Listed at h ⊢
  refine List.Perm.trans ?_ h
  show (c.elected ++ c.continuing.erase x ++ (c.eliminated ++ [x])).Perm _
  rw [List.append_assoc, List.append_assoc]
  refine List.Perm.append_left _ ?_
  have hmoved : (c.continuing.erase x ++ (c.eliminated ++ [x])).Perm (x :: c.continuing.erase x ++ c.eliminated) := by
    rw [← List.append_assoc]
    exact List.perm_append_singleton _ _
  exact hmoved.trans (List.Perm.append_right _ (List.perm_cons_erase hx).symm)

/-- A pass moves one candidate from those who continue to the others. -/
theorem Listed.next (h : Listed hopeful c) (hne : c.continuing ≠ []) : Listed hopeful (c.next R) := by
  rcases Count.next_cases (R := R) hne with ⟨w, hw, -, hnext⟩ | ⟨-, x, hx, -, hnext⟩
  · rw [hnext]
    exact h.elect (Count.winnersNow_sub hw)
  · rw [hnext]
    exact h.eliminate (Count.candidatesLowest_sub hx)

theorem Listed.order (h : Listed hopeful c) : c.order.Perm hopeful := by
  unfold Count.order
  refine List.Perm.trans ?_ h
  exact List.Perm.append (List.Perm.append_left _ (List.perm_insertionSort _ _)) (List.reverse_perm _)

/-! ### The exit that fills the seats -/

/-- The loop comes to a pass with no more candidates than seats left. -/
def fillsUp (R : Rules) : ℕ → Count → Bool
  | 0, _ => false
  | n + 1, c => if c.ended R then false else if c.fills R then true else fillsUp R n (c.next R)

/-- The loop ends with each candidate in one collection unless it fills the
seats; then some are elected and continue. -/
theorem loop_fillsUp : ∀ (n : ℕ) (c : Count), Listed hopeful c →
    (fillsUp R n c = true → ∃ d, Listed hopeful d ∧ d.continuing ≠ [] ∧ Count.loop R n c = d.fill R) ∧
      (¬ fillsUp R n c = true → Listed hopeful (Count.loop R n c))
  | 0, c, h => ⟨fun hfills => absurd hfills Bool.false_ne_true, fun _ => h⟩
  | n + 1, c, h => by
    unfold fillsUp Count.loop
    by_cases hended : c.ended R
    · rw [if_pos hended, if_pos hended]
      exact ⟨fun hfills => absurd hfills Bool.false_ne_true, fun _ => h⟩
    rw [if_neg hended, if_neg hended]
    have hne : c.continuing ≠ [] := fun hnil => hended (Or.inl hnil)
    by_cases hfills : c.fills R
    · rw [if_pos hfills, if_pos hfills]
      exact ⟨fun _ => ⟨c, h, hne, rfl⟩, fun hnot => absurd rfl hnot⟩
    · rw [if_neg hfills, if_neg hfills]
      exact loop_fillsUp n _ (h.next hne)

/-- Those who fill the seats are listed once more. -/
theorem order_fill_length : (c.fill R).order.length =
    (c.elected ++ c.continuing ++ c.eliminated).length + c.continuing.length := by
  show ((c.elected ++ c.byTally R c.continuing) ++ c.continuing.insertionSort _ ++ c.eliminated.reverse).length = _
  simp only [List.length_append, List.length_insertionSort, List.length_reverse, Count.byTally]
  omega

/-! ### The rows -/

/-- The rows are the candidates, each once, ranked from 1 on, the elected first
in the order of their election and marked. -/
structure RowsListed (candidates : List Candidate) (r : Ranked) : Prop where
  once : (r.candidates.map (·.candidateId)).Perm (candidates.map (·.id))
  ranks : r.candidates.map (·.rank) = List.range' 1 candidates.length
  electedFirst : r.winners <+: r.candidates.map (·.candidateId)
  marked : ∀ row ∈ r.candidates, row.elected = true ↔ row.candidateId ∈ r.winners

section Rows

variable {selections : List (Option (List ℤ))} {candidates : List Candidate} {seats : ℕ} {lot : ℤ → String}

theorem rows_ids : (ranked selections candidates seats lot).candidates.map (·.candidateId) =
    (countRanked selections candidates seats lot).order := by
  refine List.ext_getElem? fun i => ?_
  unfold ranked
  rw [List.getElem?_map, List.getElem?_mapIdx, Option.map_map]
  exact congrFun Option.map_id _

theorem rows_ranks : (ranked selections candidates seats lot).candidates.map (·.rank) =
    List.range' 1 (countRanked selections candidates seats lot).order.length := by
  refine List.ext_getElem (by simp [ranked]) fun i h h' => ?_
  simp [ranked, Nat.add_comm]

theorem rows_marked {row : RankedRow} (hrow : row ∈ (ranked selections candidates seats lot).candidates) :
    row.elected = true ↔ row.candidateId ∈ (ranked selections candidates seats lot).winners := by
  unfold ranked at hrow ⊢
  obtain ⟨i, hi, rfl⟩ := List.mem_mapIdx.mp hrow
  exact decide_eq_true_iff

theorem winners_prefix : (ranked selections candidates seats lot).winners <+:
    (ranked selections candidates seats lot).candidates.map (·.candidateId) := by
  rw [rows_ids]
  unfold Count.order
  rw [List.append_assoc]
  exact List.prefix_append _ _

/-- The rules of a count. -/
def rulesOf (selections : List (Option (List ℤ))) (candidates : List Candidate) (seats : ℕ) (lot : ℤ → String) :
    Rules :=
  rankedRules lot (validPrefs selections (distinctIds candidates)) (effectiveSeats seats (distinctIds candidates))

/-- The count of the selections comes to a pass with no more candidates than
seats left, and elects them together. -/
def FillsSeats (selections : List (Option (List ℤ))) (candidates : List Candidate) (seats : ℕ) (lot : ℤ → String) :
    Prop :=
  fillsUp (rulesOf selections candidates seats lot) (distinctIds candidates).length
    (Count.start (validPrefs selections (distinctIds candidates)) (distinctIds candidates)) = true

instance : Decidable (FillsSeats selections candidates seats lot) := by
  unfold FillsSeats
  infer_instance

/-- **Each candidate has one row unless the remaining seats are filled**: those
who fill them have two, one with the elected and one with those who continue. -/
theorem rows_listed (hids : (candidates.map (·.id)).Nodup) :
    RowsListed candidates (ranked selections candidates seats lot) ↔ ¬ FillsSeats selections candidates seats lot := by
  have hdistinct : distinctIds candidates = candidates.map (·.id) := hids.dedup
  have hstart : Listed (distinctIds candidates)
      (Count.start (validPrefs selections (distinctIds candidates)) (distinctIds candidates)) := by
    show ([] ++ distinctIds candidates ++ []).Perm _
    rw [List.nil_append, List.append_nil]
  have hloop := loop_fillsUp (R := rulesOf selections candidates seats lot) (distinctIds candidates).length _ hstart
  constructor
  · intro hlisted hfills
    obtain ⟨d, hd, hne, hend⟩ := hloop.1 hfills
    have hcount : (countRanked selections candidates seats lot).order.length =
        (d.elected ++ d.continuing ++ d.eliminated).length + d.continuing.length := by
      rw [← order_fill_length (R := rulesOf selections candidates seats lot), ← hend]
      rfl
    have honce := hlisted.once.length_eq
    rw [rows_ids, hcount, hd.length_eq, hdistinct] at honce
    have hpos := List.length_pos_of_ne_nil hne
    omega
  · intro hfills
    have horder : (countRanked selections candidates seats lot).order.Perm (candidates.map (·.id)) := by
      rw [← hdistinct]
      exact (hloop.2 hfills).order
    refine ⟨?_, ?_, winners_prefix, fun row hrow => rows_marked hrow⟩
    · rw [rows_ids]
      exact horder
    · rw [rows_ranks, horder.length_eq, List.length_map]

/-- With a seat for each candidate, the first pass fills them. -/
theorem fillsSeats_of_le (hne : candidates ≠ []) (hseats : (distinctIds candidates).length ≤ seats) :
    FillsSeats selections candidates seats lot := by
  have hdistinct : distinctIds candidates ≠ [] := by
    unfold distinctIds
    rw [Ne, List.dedup_eq_nil, List.map_eq_nil_iff]
    exact hne
  obtain ⟨n, hn⟩ := Nat.exists_eq_succ_of_ne_zero (List.length_pos_of_ne_nil hdistinct).ne'
  have hR : (rulesOf selections candidates seats lot).seats = (distinctIds candidates).length := by
    show effectiveSeats seats (distinctIds candidates) = _
    unfold effectiveSeats
    rw [if_neg hdistinct]
    omega
  unfold FillsSeats
  rw [hn]
  unfold fillsUp
  have hended : ¬ (Count.start (validPrefs selections (distinctIds candidates)) (distinctIds candidates)).ended
      (rulesOf selections candidates seats lot) := by
    rintro (hnil | hseated)
    · exact hdistinct hnil
    · rw [hR, hn] at hseated
      exact absurd hseated (Nat.not_succ_le_zero n)
  have hfills : (Count.start (validPrefs selections (distinctIds candidates)) (distinctIds candidates)).fills
      (rulesOf selections candidates seats lot) := by
    show (distinctIds candidates).length ≤ (rulesOf selections candidates seats lot).seats - 0
    rw [hR]
    exact Nat.le_refl _
  rw [if_neg hended, if_pos hfills]

end Rows

/-! ### A tie for two seats -/

/-- Three candidates for two seats; the first two have the quota. -/
def threeForTwo : List Candidate := [⟨1, "Ama"⟩, ⟨2, "Kofi"⟩, ⟨3, "Esi"⟩]

theorem rows_listed_quota :
    RowsListed threeForTwo (ranked [some [1], some [1], some [2], some [2]] threeForTwo 2 toString) :=
  (rows_listed (by decide)).mpr (by decide +kernel)

theorem not_rows_listed :
    ¬ ∀ (selections : List (Option (List ℤ))) (candidates : List Candidate) (seats : ℕ) (lot : ℤ → String),
      (candidates.map (·.id)).Nodup → RowsListed candidates (ranked selections candidates seats lot) := by
  intro h
  have hlisted := h [some [1], some [2]] [⟨1, "Ama"⟩, ⟨2, "Kofi"⟩] 2 toString (by decide)
  have hlen : (ranked [some [1], some [2]] [⟨1, "Ama"⟩, ⟨2, "Kofi"⟩] 2 toString).candidates.length = 4 := by
    decide +kernel
  have honce := hlisted.once.length_eq
  rw [List.length_map, hlen] at honce
  exact absurd honce (by decide)

end Standings
end FlexyVotes
