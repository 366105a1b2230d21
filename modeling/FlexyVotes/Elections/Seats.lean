/-
# Who gets a seat

`plurality` and `score` order the candidates by what they got, and cut the
order at the seats. Equal totals may be ordered either way: a candidate is a
winner when every order gives it a seat, and is tied when some do and some do
not.

Key definitions: `Cut`, `marks`, `points`.
Key theorems: `cut_winnersWithTies`, `seats_cut`.
-/
import FlexyVotes.Elections.Rearranged
import FlexyVotes.Lib.Places

namespace FlexyVotes
namespace Seats

open Tally Places Rearranged

/-! ### The cut -/

/-- The winners have a seat in every order of the totals, the tied in some but
not in all. -/
structure Cut (candidates : List Candidate) (seats : ℕ) (total : ℤ → ℤ) (winners ties : List ℤ) : Prop where
  winners : ∀ x, x ∈ winners ↔ ∃ c ∈ candidates, c.id = x ∧
    ∀ l, Ordered (fun c => total c.id) candidates l → c ∈ l.take seats
  ties : ∀ x, x ∈ ties ↔ ∃ c ∈ candidates, c.id = x ∧
    (∃ l, Ordered (fun c => total c.id) candidates l ∧ c ∈ l.take seats) ∧
    ∃ l, Ordered (fun c => total c.id) candidates l ∧ c ∉ l.take seats

section Cutting

variable {counts : ℤ → ℤ} {ordered : List Candidate} {seats : ℕ} {c last : Candidate}

/-- The last winner: everybody before the cut has as many votes, and everybody
after it no more. -/
theorem last_le (h : ordered.Pairwise fun a b => counts b.id ≤ counts a.id)
    (hlast : (ordered.take seats).getLast? = some last) (hc : c ∈ ordered.take seats) :
    counts last.id ≤ counts c.id := by
  obtain ⟨init, hinit⟩ := List.getLast?_eq_some_iff.mp hlast
  have hsorted := h.sublist (List.take_sublist seats ordered)
  rw [hinit] at hsorted hc
  rcases List.mem_append.mp hc with hc | hc
  · exact (List.pairwise_append.mp hsorted).2.2 c hc last (List.mem_singleton_self last)
  · rw [List.mem_singleton.mp hc]

/-- Somebody after the cut has as many votes as the last winner. -/
def TiedBeyond (counts : ℤ → ℤ) (ordered : List Candidate) (seats : ℕ) (last : Candidate) : Prop :=
  ∃ c ∈ ordered.filter fun c => counts c.id = counts last.id, c ∉ ordered.take seats

theorem winnersWithTies_tied (hlast : (ordered.take seats).getLast? = some last)
    (htied : TiedBeyond counts ordered seats last) :
    winnersWithTies ordered counts seats =
      ((ordered.take seats).filter fun c => counts last.id < counts c.id,
        (ordered.filter fun c => counts c.id = counts last.id).map (·.id)) := by
  have hin : last ∈ ordered.take seats := List.mem_of_getLast? hlast
  have htwo : 1 < (ordered.filter fun c => counts c.id = counts last.id).length := by
    obtain ⟨d, hd, hout⟩ := htied
    by_contra hone
    obtain ⟨x, hx⟩ := List.length_eq_one_iff.mp (le_antisymm (not_lt.mp hone) (List.length_pos_of_mem hd))
    have hself : last ∈ ordered.filter fun c => counts c.id = counts last.id :=
      List.mem_filter.mpr ⟨List.mem_of_mem_take hin, decide_eq_true rfl⟩
    rw [hx, List.mem_singleton] at hd hself
    exact hout (hd ▸ hself ▸ hin)
  unfold winnersWithTies
  simp only [hlast]
  exact if_pos ⟨htwo, htied⟩

theorem winnersWithTies_clear (hlast : (ordered.take seats).getLast? = some last)
    (htied : ¬ TiedBeyond counts ordered seats last) :
    winnersWithTies ordered counts seats = (ordered.take seats, []) := by
  unfold winnersWithTies
  simp only [hlast]
  exact if_neg fun h => htied h.2

variable (h : ordered.Pairwise fun a b => counts b.id ≤ counts a.id)
  (hlast : (ordered.take seats).getLast? = some last)

include h hlast

/-- After the cut there are only fewer votes than `c` has: `c` is before it in
every order. -/
theorem atLeast_of_last_lt (hc : counts last.id < counts c.id) :
    atLeast (fun c => counts c.id) ordered c ≤ seats :=
  atLeast_le fun _ hd => (le_of_take_drop h (List.mem_of_getLast? hlast) hd).trans_lt hc

theorem mem_take_of_last_lt (hin : c ∈ ordered) (hc : counts last.id < counts c.id) : c ∈ ordered.take seats :=
  (mem_take_or_drop hin).resolve_right fun hout =>
    absurd (le_of_take_drop h (List.mem_of_getLast? hlast) hout) (not_le.mpr hc)

/-- Before the cut there are only more: `c` is after it in every order. -/
theorem above_of_lt_last (hin : c ∈ ordered) (hc : counts c.id < counts last.id) :
    seats ≤ above (fun c => counts c.id) ordered c := by
  have hout : c ∈ ordered.drop seats :=
    (mem_take_or_drop hin).resolve_left fun hin => absurd (last_le h hlast hin) (not_le.mpr hc)
  exact le_above (fun a ha => hc.trans_le (last_le h hlast ha)) (length_take_of_drop hout)

/-- As many votes as the last winner, and somebody beyond the cut has as many. -/
theorem tied_places (hc : counts c.id = counts last.id) (htied : TiedBeyond counts ordered seats last) :
    above (fun c => counts c.id) ordered c < seats ∧ seats < atLeast (fun c => counts c.id) ordered c := by
  have hlast' := List.mem_of_getLast? hlast
  obtain ⟨d, hd, hout⟩ := htied
  obtain ⟨hd, heq⟩ := List.mem_filter.mp hd
  have hd' := (mem_take_or_drop (k := seats) hd).resolve_left hout
  refine ⟨above_lt (fun d hd => hc ▸ le_of_take_drop h hlast' hd) hlast' hc.ge,
    lt_atLeast (fun a ha => hc ▸ last_le h hlast ha) hd' (hc.trans (of_decide_eq_true heq).symm).le⟩

/-- Nobody beyond the cut has as many votes as the last winner. -/
theorem clear_places (hnd : ordered.Nodup) (hin : c ∈ ordered) (hc : counts c.id = counts last.id)
    (htied : ¬ TiedBeyond counts ordered seats last) :
    atLeast (fun c => counts c.id) ordered c ≤ seats ∧ c ∈ ordered.take seats := by
  have hless : ∀ d ∈ ordered.drop seats, counts d.id < counts c.id := fun d hd => by
    refine lt_of_le_of_ne (hc ▸ le_of_take_drop h (List.mem_of_getLast? hlast) hd) fun heq => htied ?_
    exact ⟨d, List.mem_filter.mpr ⟨List.mem_of_mem_drop hd, decide_eq_true (heq.trans hc)⟩,
      fun htake => List.disjoint_take_drop hnd le_rfl htake hd⟩
  exact ⟨atLeast_le hless, (mem_take_or_drop hin).resolve_right fun hout => (hless c hout).false⟩

omit h in
theorem winners_sub (hc : c ∈ (winnersWithTies ordered counts seats).1) : c ∈ ordered.take seats := by
  by_cases htied : TiedBeyond counts ordered seats last
  · rw [winnersWithTies_tied hlast htied] at hc
    exact (List.mem_filter.mp hc).1
  · rw [winnersWithTies_clear hlast htied] at hc
    exact hc

theorem winners_places (hnd : ordered.Nodup) (hin : c ∈ ordered) :
    c ∈ (winnersWithTies ordered counts seats).1 ↔ atLeast (fun c => counts c.id) ordered c ≤ seats := by
  have hself := above_lt_atLeast (f := fun c : Candidate => counts c.id) hin
  rcases lt_trichotomy (counts last.id) (counts c.id) with hmore | heq | hless
  · refine iff_of_true ?_ (atLeast_of_last_lt h hlast hmore)
    have htake := mem_take_of_last_lt h hlast hin hmore
    by_cases htied : TiedBeyond counts ordered seats last
    · rw [winnersWithTies_tied hlast htied]
      exact List.mem_filter.mpr ⟨htake, decide_eq_true hmore⟩
    · rw [winnersWithTies_clear hlast htied]
      exact htake
  · by_cases htied : TiedBeyond counts ordered seats last
    · have hplaces := tied_places h hlast heq.symm htied
      rw [winnersWithTies_tied hlast htied]
      refine iff_of_false (fun hmem => ?_) (not_le.mpr hplaces.2)
      exact absurd (of_decide_eq_true (List.mem_filter.mp hmem).2) (not_lt.mpr heq.ge)
    · obtain ⟨hplaces, htake⟩ := clear_places h hlast hnd hin heq.symm htied
      rw [winnersWithTies_clear hlast htied]
      exact iff_of_true htake hplaces
  · have habove := above_of_lt_last h hlast hin hless
    refine iff_of_false (fun hmem => ?_) (not_le.mpr (habove.trans_lt hself))
    exact absurd (last_le h hlast (winners_sub hlast hmem)) (not_le.mpr hless)

theorem ties_places (hnd : ordered.Nodup) {x : ℤ} :
    x ∈ (winnersWithTies ordered counts seats).2 ↔ ∃ c ∈ ordered, c.id = x ∧
      above (fun c => counts c.id) ordered c < seats ∧ seats < atLeast (fun c => counts c.id) ordered c := by
  by_cases htied : TiedBeyond counts ordered seats last
  · rw [winnersWithTies_tied hlast htied, List.mem_map]
    constructor
    · rintro ⟨c, hc, rfl⟩
      obtain ⟨hin, heq⟩ := List.mem_filter.mp hc
      exact ⟨c, hin, rfl, tied_places h hlast (of_decide_eq_true heq) htied⟩
    · rintro ⟨c, hin, rfl, habove, hatLeast⟩
      refine ⟨c, List.mem_filter.mpr ⟨hin, decide_eq_true ?_⟩, rfl⟩
      rcases lt_trichotomy (counts last.id) (counts c.id) with hmore | heq | hless
      · exact absurd hatLeast (not_lt.mpr (atLeast_of_last_lt h hlast hmore))
      · exact heq.symm
      · exact absurd habove (not_lt.mpr (above_of_lt_last h hlast hin hless))
  · rw [winnersWithTies_clear hlast htied]
    refine iff_of_false List.not_mem_nil ?_
    rintro ⟨c, hin, rfl, habove, hatLeast⟩
    rcases lt_trichotomy (counts last.id) (counts c.id) with hmore | heq | hless
    · exact absurd hatLeast (not_lt.mpr (atLeast_of_last_lt h hlast hmore))
    · exact absurd hatLeast (not_lt.mpr (clear_places h hlast hnd hin heq.symm htied).1)
    · exact absurd habove (not_lt.mpr (above_of_lt_last h hlast hin hless))

end Cutting

/-- **The cut of the source** is the cut of every order. -/
theorem cut_winnersWithTies {candidates ordered : List Candidate} {counts : ℤ → ℤ} {seats : ℕ}
    (hnd : candidates.Nodup) (hordered : Ordered (fun c => counts c.id) candidates ordered) (hseats : 1 ≤ seats) :
    Cut candidates seats counts ((winnersWithTies ordered counts seats).1.map (·.id))
      (winnersWithTies ordered counts seats).2 := by
  obtain ⟨hperm, hsorted⟩ := hordered
  have hnd' := hperm.nodup_iff.mpr hnd
  have hatLeast : ∀ c, atLeast (fun c : Candidate => counts c.id) ordered c =
      atLeast (fun c : Candidate => counts c.id) candidates c := fun _ => atLeast_perm hperm
  rcases hlast : (ordered.take seats).getLast? with _ | last
  · have hnil : ordered = [] := by
      have htake := List.getLast?_eq_none_iff.mp hlast
      rw [List.take_eq_nil_iff] at htake
      exact htake.resolve_left (by omega)
    have hnone : winnersWithTies ordered counts seats = ([], []) := by
      unfold winnersWithTies
      simp only [hlast]
    have hcandidates : candidates = [] := List.perm_nil.mp (hnil ▸ hperm).symm
    rw [hnone, hcandidates]
    exact ⟨fun x => by simp, fun x => by simp⟩
  · refine ⟨fun x => ?_, fun x => ?_⟩
    · rw [List.mem_map]
      constructor
      · rintro ⟨c, hc, rfl⟩
        have hin : c ∈ ordered := List.mem_of_mem_take (winners_sub hlast hc)
        exact ⟨c, hperm.mem_iff.mp hin, rfl, (always_iff hnd (hperm.mem_iff.mp hin)).mpr
          ((hatLeast c).ge.trans ((winners_places hsorted hlast hnd' hin).mp hc))⟩
      · rintro ⟨c, hc, rfl, halways⟩
        exact ⟨c, (winners_places hsorted hlast hnd' (hperm.mem_iff.mpr hc)).mpr
          ((hatLeast c).le.trans ((always_iff hnd hc).mp halways)), rfl⟩
    · rw [ties_places hsorted hlast hnd']
      refine exists_congr fun c => ?_
      rw [hperm.mem_iff, above_perm hperm, hatLeast]
      refine and_congr_right fun hc => and_congr_right fun _ => ?_
      rw [sometimes_iff hnd hc, sometimes_not_iff hnd hc]

/-! ### The totals -/

/-- The marks given to `cid`, and the scores. -/
def marks (selections : List (Option (List ℤ))) (cid : ℤ) : ℤ :=
  (selections.map fun s => ((s.getD []).count cid : ℤ)).sum

def points (selections : List (Option (List (ℤ × ℤ)))) (cid : ℤ) : ℤ :=
  (selections.map fun s => (((s.getD []).filter fun p => p.1 = cid).map (·.2)).sum).sum

theorem count_flatten (selections : List (Option (List ℤ))) (cid : ℤ) :
    (((selections.filterMap id).flatten.count cid : ℕ) : ℤ) = marks selections cid := by
  unfold marks
  induction selections with
  | nil => rfl
  | cons s selections ih =>
    cases s with
    | none => simpa using ih
    | some ids => simp [← ih]

theorem sum_flatten (selections : List (Option (List (ℤ × ℤ)))) (cid : ℤ) :
    (((selections.filterMap id).flatten.filter fun p => p.1 = cid).map (·.2)).sum = points selections cid := by
  unfold points
  induction selections with
  | nil => rfl
  | cons s selections ih =>
    cases s with
    | none => simpa using ih
    | some pairs => simp [← ih]

/-- The cut looks at the totals of the candidates only. -/
theorem Cut.congr {candidates : List Candidate} {seats : ℕ} {total total' : ℤ → ℤ} {winners ties : List ℤ}
    (h : Cut candidates seats total winners ties) (htotal : ∀ c ∈ candidates, total c.id = total' c.id) :
    Cut candidates seats total' winners ties := by
  have hsame : ∀ l, Ordered (fun c : Candidate => total c.id) candidates l ↔
      Ordered (fun c : Candidate => total' c.id) candidates l := fun l => by
    refine and_congr_right fun hperm => List.Pairwise.iff_of_mem fun ha hb => ?_
    dsimp only
    rw [htotal _ (hperm.mem_iff.mp ha), htotal _ (hperm.mem_iff.mp hb)]
  exact ⟨fun x => by simp only [h.winners, hsame], fun x => by simp only [h.ties, hsame]⟩

theorem rank_ordered (E : Env) (counts : ℤ → ℤ) (candidates : List Candidate) :
    Ordered (fun c => counts c.id) candidates (rank E counts candidates) := by
  refine ⟨List.perm_insertionSort _ _, (rank_sorted E counts candidates).imp fun h => ?_⟩
  rcases Prod.Lex.toLex_le_toLex.mp h with hlt | ⟨heq, -⟩
  · exact (neg_lt_neg_iff.mp hlt).le
  · exact (neg_inj.mp heq).ge

/-- The rows have the candidates, each with its total. -/
theorem rows_perm {α : Type} {candidates ordered : List Candidate} {counts total : ℤ → ℤ} {row : ℕ → Candidate → α}
    {votes : α → ℤ × ℤ} (hrow : ∀ i c, votes (row i c) = (c.id, counts c.id)) (hperm : ordered.Perm candidates)
    (htotal : ∀ c ∈ candidates, counts c.id = total c.id) :
    ((ordered.mapIdx row).map votes).Perm (candidates.map fun c => (c.id, total c.id)) := by
  have hrows : (ordered.mapIdx row).map votes = ordered.map fun c => (c.id, counts c.id) := by
    refine List.ext_getElem? fun i => ?_
    rw [List.getElem?_map, List.getElem?_mapIdx, List.getElem?_map, Option.map_map]
    exact congrArg (ordered[i]?.map ·) (funext fun c => hrow i c)
  rw [hrows, ← List.map_congr_left fun c hc => congrArg (Prod.mk c.id) (htotal c hc)]
  exact hperm.map _

/-- Each selection is a valid ballot or an abstention. -/
theorem length_valid {α : Type} (selections : List (Option α)) :
    (selections.filterMap id).length + (selections.filter (·.isNone)).length = selections.length := by
  induction selections with
  | nil => rfl
  | cons s selections ih =>
    cases s with
    | none => simp [← ih, Nat.add_assoc]
    | some a =>
      simp [← ih]
      omega

/-- The totals of `score`. -/
def totals (selections : List (Option (List (ℤ × ℤ)))) (candidates : List Candidate) (cid : ℤ) : ℤ :=
  (if cid ∈ candidates.map (·.id) then
    ((selections.filterMap id).flatten.filter fun p => p.1 = cid).map (·.2) else []).sum

theorem totals_eq (selections : List (Option (List (ℤ × ℤ)))) {candidates : List Candidate} :
    ∀ c ∈ candidates, totals selections candidates c.id = points selections c.id := by
  intro c hc
  rw [totals, ← sum_flatten, if_pos (List.mem_map_of_mem hc)]

theorem score_rows (E : Env) (selections : List (Option (List (ℤ × ℤ)))) (candidates : List Candidate)
    (seats maxScore : ℕ) :
    ((score E selections candidates seats maxScore).candidates.map fun r => (r.candidateId, r.votes)).Perm
      (candidates.map fun c => (c.id, points selections c.id)) :=
  rows_perm (fun _ _ => rfl) (List.perm_insertionSort _ _) (totals_eq selections)

/-- **Seats.** By `plurality` and by `score` the winners are the candidates with
a seat in every order of equal totals, and the tied those with one in some
order only; a row's votes are the marks, or scores, given to its candidate, and
each selection is a valid ballot or an abstention. -/
theorem seats_cut (E : Env) (candidates : List Candidate) (seats : ℕ) (hids : (candidates.map (·.id)).Nodup)
    (hseats : 1 ≤ seats) :
    (∀ selections : List (Option (List ℤ)),
      Cut candidates seats (marks selections) (plurality E selections candidates seats).winners
        (plurality E selections candidates seats).ties ∧
      ((plurality E selections candidates seats).candidates.map fun r => (r.1.candidateId, r.1.votes)).Perm
        (candidates.map fun c => (c.id, marks selections c.id)) ∧
      (plurality E selections candidates seats).abstentions = (selections.filter (·.isNone)).length ∧
      (plurality E selections candidates seats).validBallots + (plurality E selections candidates seats).abstentions =
        selections.length) ∧
    ∀ (selections : List (Option (List (ℤ × ℤ)))) (maxScore : ℕ),
      Cut candidates seats (points selections) (score E selections candidates seats maxScore).winners
        (score E selections candidates seats maxScore).ties ∧
      ((score E selections candidates seats maxScore).candidates.map fun r => (r.candidateId, r.votes)).Perm
        (candidates.map fun c => (c.id, points selections c.id)) ∧
      (score E selections candidates seats maxScore).abstentions = (selections.filter (·.isNone)).length ∧
      (score E selections candidates seats maxScore).validBallots +
        (score E selections candidates seats maxScore).abstentions = selections.length := by
  have hnd : candidates.Nodup := hids.of_map
  refine ⟨fun selections => ?_, fun selections maxScore => ?_⟩
  · set counts : ℤ → ℤ := fun cid =>
      if cid ∈ candidates.map (·.id) then ((selections.filterMap id).flatten.count cid : ℤ) else 0 with hcounts
    have hmarks : ∀ c ∈ candidates, counts c.id = marks selections c.id := fun c hc => by
      rw [hcounts, ← count_flatten]
      exact if_pos (List.mem_map_of_mem hc)
    have hordered := rank_ordered E counts candidates
    have hvalid := length_valid selections
    have habstentions : (plurality E selections candidates seats).abstentions = (selections.filter (·.isNone)).length := by
      show selections.length - (selections.filterMap id).length = _
      omega
    refine ⟨(cut_winnersWithTies hnd hordered hseats).congr hmarks, ?_, habstentions, habstentions ▸ hvalid⟩
    show (((candidateRows _ _ _).map _).map _).Perm _
    rw [List.map_map]
    exact rows_perm (fun _ _ => rfl) hordered.1 hmarks
  · have hordered := rank_ordered E (totals selections candidates) candidates
    have hvalid := length_valid selections
    have habstentions : (score E selections candidates seats maxScore).abstentions =
        (selections.filter (·.isNone)).length := by
      show selections.length - (selections.filterMap id).length = _
      omega
    exact ⟨(cut_winnersWithTies hnd hordered hseats).congr (totals_eq selections),
      score_rows E selections candidates seats maxScore, habstentions, habstentions ▸ hvalid⟩

/-- Two marks each for 1 and 2 and one for 3, for one seat: 1 and 2 are tied. -/
theorem seats_cut_three :
    Cut [⟨1, "Ada"⟩, ⟨2, "Ben"⟩, ⟨3, "Cem"⟩] 1
      (marks [some [1], some [2], some [2], none, some [1, 3]])
      (plurality Env.plain [some [1], some [2], some [2], none, some [1, 3]] [⟨1, "Ada"⟩, ⟨2, "Ben"⟩, ⟨3, "Cem"⟩]
        1).winners
      (plurality Env.plain [some [1], some [2], some [2], none, some [1, 3]] [⟨1, "Ada"⟩, ⟨2, "Ben"⟩, ⟨3, "Cem"⟩]
        1).ties :=
  ((seats_cut Env.plain [⟨1, "Ada"⟩, ⟨2, "Ben"⟩, ⟨3, "Cem"⟩] 1 (by decide) le_rfl).1
    [some [1], some [2], some [2], none, some [1, 3]]).1

end Seats
end FlexyVotes
