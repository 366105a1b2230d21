/-
# What the lot decides

The lot is consulted for the order of those who fill the last seats, for
which of the candidates level at the quota is elected first, and for which of
the lowest candidates is eliminated. Only the last is recorded. Until a lot
is needed all lots lead through the same rounds; `lotRound` is the first round
in which one elects, if a recorded tie does not come before it.
-/
import FlexyVotes.Elections.Tally

namespace FlexyVotes
namespace Lots

open Tally Transfer

/-- Those with the most votes among the candidates that can be elected. -/
def leaders (R : Rules) (c : Count) : List ℤ :=
  (c.winnersNow R).filter fun a => ∀ d ∈ c.winnersNow R, c.tally d ≤ c.tally a

/-- The first round from `c` on in which the lot elects one of several leaders,
unless a tie for elimination is recorded before. -/
def lotRound (R : Rules) : ℕ → Count → Option Count
  | 0, _ => none
  | n + 1, c =>
    if c.ended R ∨ c.fills R then none
    else
      match leaders R c with
      | [] =>
        match c.candidatesLowest with
        | [x] => lotRound R n (c.eliminate R x)
        | _ => none
      | [w] => lotRound R n (c.elect R w)
      | _ => some c

/-- The rules with another lot. -/
def withLot (R : Rules) (lot : ℤ → String) : Rules := { R with lotKey := lot }

variable {R : Rules} {c : Count} {lot : ℤ → String}

/-! ### Rounds without a lot -/

theorem mem_leaders {w : ℤ} (hw : (c.byTally R (c.winnersNow R)).head? = some w) : w ∈ leaders R c := by
  have hmem : w ∈ c.winnersNow R := Count.mem_byTally.mp (List.mem_of_head? hw)
  rw [leaders, List.mem_filter, decide_eq_true_eq]
  refine ⟨hmem, fun d hd => ?_⟩
  rcases Count.head_ahead hw hd with rfl | hlt | ⟨heq, -⟩
  · exact le_rfl
  · exact hlt.le
  · exact heq.ge

theorem leaders_eq_nil : leaders R c = [] ↔ c.winnersNow R = [] := by
  constructor
  · intro h
    by_contra hne
    rcases hb : c.byTally R (c.winnersNow R) with _ | ⟨w, rest⟩
    · exact hne (Count.byTally_eq_nil.mp hb)
    · have hw : w ∈ leaders R c := mem_leaders (by rw [hb]; rfl)
      rw [h] at hw
      exact List.not_mem_nil hw
  · intro h
    rw [leaders, h]
    rfl

/-- A single leader is elected, whatever the lot. -/
theorem next_leader {w : ℤ} (hne : c.continuing ≠ []) (h : leaders R c = [w]) : c.next R = c.elect R w := by
  rcases Count.next_cases (R := R) hne with ⟨w', -, hhead, hnext⟩ | ⟨hnone, -⟩
  · have hw' := mem_leaders hhead
    rw [h, List.mem_singleton] at hw'
    rw [hnext, hw']
  · rw [leaders_eq_nil.mpr hnone] at h
    exact absurd h (by simp)

/-- One candidate with the fewest votes is eliminated, whatever the lot. -/
theorem next_lowest {x : ℤ} (hne : c.continuing ≠ []) (h : leaders R c = []) (hx : c.candidatesLowest = [x]) :
    c.next R = c.eliminate R x := by
  rcases Count.next_cases (R := R) hne with ⟨w, hw, -⟩ | ⟨-, x', hx', -, hnext⟩
  · rw [leaders_eq_nil.mp h] at hw
    exact absurd hw List.not_mem_nil
  · rw [hx, List.mem_singleton] at hx'
    rw [hnext, hx']

theorem loop_pass {n : ℕ} (hend : ¬ c.ended R) (hfill : ¬ c.fills R) :
    Count.loop R (n + 1) c = Count.loop R n (c.next R) := by
  rw [Count.loop, if_neg hend, if_neg hfill]

theorem continuing_ne_nil (hend : ¬ c.ended R) : c.continuing ≠ [] := fun hnil => hend (Or.inl hnil)

/-! ### What is recorded stays recorded -/

theorem next_tieBreaks (hne : c.continuing ≠ []) : c.tieBreaks <+: (c.next R).tieBreaks := by
  rcases Count.next_cases (R := R) hne with ⟨w, -, -, hnext⟩ | ⟨-, x, -, -, hnext⟩
  · rw [hnext]
    exact List.prefix_rfl
  · rw [hnext, Count.eliminate]
    dsimp only
    split
    · exact List.prefix_append _ _
    · exact List.prefix_rfl

theorem loop_tieBreaks (n : ℕ) (hn : c.continuing.length ≤ n) : c.tieBreaks <+: (Count.loop R n c).tieBreaks :=
  Count.loop_induct (P := fun d => c.tieBreaks <+: d.tieBreaks) (Q := fun d => c.tieBreaks <+: d.tieBreaks)
    (fun _ h hend _ => h.trans (next_tieBreaks (continuing_ne_nil hend))) (fun _ h _ => h) (fun _ h _ _ => h)
    n c hn List.prefix_rfl

theorem next_elected (hne : c.continuing ≠ []) : c.elected <+: (c.next R).elected := by
  rcases Count.next_cases (R := R) hne with ⟨w, -, -, hnext⟩ | ⟨-, x, -, -, hnext⟩
  · rw [hnext]
    exact List.prefix_append _ _
  · rw [hnext]
    exact List.prefix_rfl

theorem loop_elected (n : ℕ) (hn : c.continuing.length ≤ n) : c.elected <+: (Count.loop R n c).elected :=
  Count.loop_induct (P := fun d => c.elected <+: d.elected) (Q := fun d => c.elected <+: d.elected)
    (fun _ h hend _ => h.trans (next_elected (continuing_ne_nil hend))) (fun _ h _ => h)
    (fun _ h _ _ => h.trans (List.prefix_append _ _)) n c hn List.prefix_rfl

/-- A tie for elimination is recorded. -/
theorem next_tied (hne : c.continuing ≠ []) (h : leaders R c = []) (hx : ∀ x, c.candidatesLowest ≠ [x]) :
    (c.next R).tieBreaks ≠ [] := by
  have hmany : 1 < c.candidatesLowest.length := by
    rcases hl : c.candidatesLowest with _ | ⟨x, _ | ⟨y, rest⟩⟩
    · exact absurd hl (Count.candidatesLowest_ne_nil hne)
    · exact absurd hl (hx x)
    · simp
  rcases Count.next_cases (R := R) hne with ⟨w, hw, -⟩ | ⟨-, x', -, -, hnext⟩
  · rw [leaders_eq_nil.mp h] at hw
    exact absurd hw List.not_mem_nil
  · rw [hnext, Count.eliminate]
    dsimp only
    rw [if_pos hmany]
    simp

/-! ### All lots agree -/

/-- Without a round in which the lot elects, a count records a tie for
elimination or seats the same candidates under every lot. -/
theorem loop_agrees (lot lot' : ℤ → String) : ∀ (n : ℕ) (c : Count), c.continuing.length ≤ n →
    lotRound R n c = none →
    (∀ x, x ∈ (Count.loop (withLot R lot) n c).elected ↔ x ∈ (Count.loop (withLot R lot') n c).elected) ∨
      ((Count.loop (withLot R lot) n c).tieBreaks ≠ [] ∧ (Count.loop (withLot R lot') n c).tieBreaks ≠ []) := by
  intro n
  induction n with
  | zero => exact fun c _ _ => Or.inl fun x => Iff.rfl
  | succ n ih =>
    intro c hn hround
    by_cases hend : c.ended R
    · left
      intro x
      rw [Count.loop, if_pos (show c.ended (withLot R lot) from hend), Count.loop,
        if_pos (show c.ended (withLot R lot') from hend)]
    by_cases hfill : c.fills R
    · left
      intro x
      rw [Count.loop, if_neg (show ¬ c.ended (withLot R lot) from hend),
        if_pos (show c.fills (withLot R lot) from hfill), Count.loop,
        if_neg (show ¬ c.ended (withLot R lot') from hend), if_pos (show c.fills (withLot R lot') from hfill)]
      simp only [Count.fill, List.mem_append, Count.mem_byTally]
    have hne := continuing_ne_nil hend
    have hlen : ∀ l, (c.next (withLot R l)).continuing.length ≤ n := fun l => by
      have := Count.next_continuing (R := withLot R l) hne
      omega
    have hpass : ∀ l, Count.loop (withLot R l) (n + 1) c = Count.loop (withLot R l) n (c.next (withLot R l)) :=
      fun l => loop_pass (R := withLot R l) hend hfill
    rw [hpass lot, hpass lot']
    have hnot : ¬ (c.ended R ∨ c.fills R) := by
      rintro (h | h)
      · exact hend h
      · exact hfill h
    rw [lotRound, if_neg hnot] at hround
    rcases hl : leaders R c with _ | ⟨w, _ | ⟨w', rest⟩⟩
    · by_cases hone : ∃ x, c.candidatesLowest = [x]
      · obtain ⟨x, hx⟩ := hone
        simp only [hl, hx] at hround
        have hnext : ∀ l, c.next (withLot R l) = c.eliminate R x := fun l =>
          next_lowest (R := withLot R l) hne hl hx
        have hn' := hlen lot
        rw [hnext] at hn'
        rw [hnext, hnext]
        exact ih _ hn' hround
      · right
        have htied : ∀ l, (Count.loop (withLot R l) n (c.next (withLot R l))).tieBreaks ≠ [] := fun l hnil => by
          have hpre := loop_tieBreaks (R := withLot R l) n (hlen l)
          rw [hnil, List.prefix_nil] at hpre
          exact next_tied (R := withLot R l) hne hl (fun x hx => hone ⟨x, hx⟩) hpre
        exact ⟨htied lot, htied lot'⟩
    · simp only [hl] at hround
      have hnext : ∀ l, c.next (withLot R l) = c.elect R w := fun l => next_leader (R := withLot R l) hne hl
      have hn' := hlen lot
      rw [hnext] at hn'
      rw [hnext, hnext]
      exact ih _ hn' hround
    · simp only [hl] at hround
      exact absurd hround (by simp)

/-! ### More leaders than seats -/

/-- What every count keeps. -/
structure Proper (R : Rules) (c : Count) : Prop where
  nodup : c.continuing.Nodup
  elected : c.elected.Nodup
  apart : ∀ x ∈ c.continuing, x ∉ c.elected
  nonneg : Nonneg c.ballots
  room : c.elected.length ≤ R.seats

theorem ratio_nonneg {q t : ℚ} (hq : 0 ≤ q) : 0 ≤ if q < t then (t - q) / t else 0 := by
  split
  · rename_i hlt
    exact div_nonneg (sub_nonneg.mpr hlt.le) (hq.trans hlt.le)
  · exact le_rfl

theorem Proper.elect {w : ℤ} (h : Proper R c) (hq : ∀ q ∈ R.quota, 0 ≤ q) (hw : w ∈ c.continuing)
    (hend : ¬ c.ended R) : Proper R (c.elect R w) := by
  have hroom : c.elected.length < R.seats := not_le.mp fun hle => hend (Or.inr hle)
  refine ⟨h.nodup.erase w, ?_, fun x hx => ?_, ?_, ?_⟩
  · change (c.elected ++ [w]).Nodup
    rw [List.nodup_append]
    refine ⟨h.elected, List.nodup_singleton w, fun a ha b hb => ?_⟩
    rw [List.mem_singleton] at hb
    rintro rfl
    exact h.apart w hw (hb ▸ ha)
  · have hx' := h.nodup.mem_erase_iff.mp hx
    change x ∉ c.elected ++ [w]
    rw [List.mem_append, List.mem_singleton]
    rintro (he | rfl)
    · exact h.apart x hx'.2 he
    · exact hx'.1 rfl
  · unfold Count.elect
    dsimp only
    split
    · rename_i q hquota
      exact h.nonneg.transfer (ratio_nonneg (hq q hquota))
    · exact h.nonneg
  · change (c.elected ++ [w]).length ≤ R.seats
    rw [List.length_append, List.length_singleton]
    omega

theorem Proper.eliminate {x : ℤ} (h : Proper R c) : Proper R (c.eliminate R x) :=
  ⟨h.nodup.erase x, h.elected, fun y hy => h.apart y (List.mem_of_mem_erase hy), h.nonneg, h.room⟩

theorem Proper.next (h : Proper R c) (hq : ∀ q ∈ R.quota, 0 ≤ q) (hend : ¬ c.ended R) : Proper R (c.next R) := by
  rcases Count.next_cases (R := R) (continuing_ne_nil hend) with ⟨w, hw, -, hnext⟩ | ⟨-, x, -, -, hnext⟩
  · rw [hnext]
    exact h.elect hq (Count.winnersNow_sub hw) hend
  · rw [hnext]
    exact h.eliminate

/-- No more are elected than there are seats. -/
theorem loop_room {n : ℕ} (hn : c.continuing.length ≤ n) (h : Proper R c) (hq : ∀ q ∈ R.quota, 0 ≤ q) :
    (Count.loop R n c).elected.length ≤ R.seats := by
  refine Count.loop_induct (P := Proper R) (Q := fun d => d.elected.length ≤ R.seats)
    (fun d hd hend _ => hd.next hq hend) (fun d hd _ => hd.room) (fun d hd _ hfill => ?_) n c hn h
  change (d.elected ++ d.byTally R d.continuing).length ≤ R.seats
  have hroom := hd.room
  have hlen : (d.byTally R d.continuing).length = d.continuing.length := List.length_insertionSort _ _
  unfold Count.fills at hfill
  rw [List.length_append, hlen]
  omega

/-- More candidates can be elected than there are seats left. -/
def Crowded (R : Rules) (c : Count) : Prop := R.seats - c.elected.length < (c.winnersNow R).length

theorem Crowded.next (h : Proper R c) (hq : ∀ q ∈ R.quota, 0 ≤ q) (hone : R.quota = none → R.seats = 1)
    (hcrowd : Crowded R c) (hend : ¬ c.ended R) :
    (c.next R).tieBreaks = c.tieBreaks ∧ ((c.next R).ended R ∨ Crowded R (c.next R)) := by
  have hroom : c.elected.length < R.seats := not_le.mp fun hle => hend (Or.inr hle)
  unfold Crowded at hcrowd
  rcases Count.next_cases (R := R) (continuing_ne_nil hend) with ⟨w, hw, -, hnext⟩ | ⟨hnone, -⟩
  · rw [hnext]
    refine ⟨rfl, ?_⟩
    rcases hquota : R.quota with _ | q
    · left
      right
      change R.seats ≤ (c.elected ++ [w]).length
      rw [hone hquota, List.length_append, List.length_singleton]
      omega
    · right
      have hin : ∀ {d : Count} {x : ℤ}, x ∈ d.winnersNow R ↔ x ∈ d.continuing ∧ q ≤ d.tally x := fun {d x} => by
        rw [Count.winnersNow, List.mem_filter, hquota, decide_eq_true_eq]
      -- who else could be elected still can
      have hsub : (c.winnersNow R).erase w ⊆ (c.elect R w).winnersNow R := fun x hx => by
        have hx' := (h.nodup.filter _).mem_erase_iff.mp hx
        have hold := hin.mp hx'.2
        refine hin.mpr ⟨(List.mem_erase_of_ne hx'.1).mpr hold.1, hold.2.trans ?_⟩
        unfold Count.tally Count.elect
        simp only [hquota]
        exact tally_transfer h.nonneg (ratio_nonneg (hq q hquota)) hx'.1
      have hnd : ((c.winnersNow R).erase w).Nodup := (h.nodup.filter _).erase w
      have hlen := (List.subperm_of_subset hnd hsub).length_le
      rw [List.length_erase_of_mem hw] at hlen
      change R.seats - (c.elected ++ [w]).length < _
      rw [List.length_append, List.length_singleton]
      omega
  · rw [hnone] at hcrowd
    exact absurd hcrowd (by simp)

/-- A crowded count only elects: no tie is recorded any more. -/
theorem loop_crowded {n : ℕ} (hn : c.continuing.length ≤ n) (h : Proper R c) (hq : ∀ q ∈ R.quota, 0 ≤ q)
    (hone : R.quota = none → R.seats = 1) (hcrowd : c.ended R ∨ Crowded R c) :
    (Count.loop R n c).tieBreaks = c.tieBreaks := by
  refine Count.loop_induct
    (P := fun d => Proper R d ∧ (d.ended R ∨ Crowded R d) ∧ d.tieBreaks = c.tieBreaks)
    (Q := fun d => d.tieBreaks = c.tieBreaks) (fun d hd hend _ => ?_) (fun d hd _ => hd.2.2)
    (fun d hd _ _ => hd.2.2) n c hn ⟨h, hcrowd, rfl⟩
  have hstep := (hd.2.1.resolve_left hend).next hd.1 hq hone hend
  exact ⟨hd.1.next hq hend, hstep.2, hstep.1.trans hd.2.2⟩

/-- The lot that draws `x` first. -/
def favour (x : ℤ) (y : ℤ) : String := if y = x then "" else "1"

/-- Each of the leaders is elected first by some lot. -/
theorem next_favour {x : ℤ} (hx : x ∈ leaders R c) : c.next (withLot R (favour x)) = c.elect R x := by
  have hx' := List.mem_filter.mp hx
  rw [decide_eq_true_eq] at hx'
  have hne : c.continuing ≠ [] := List.ne_nil_of_mem (Count.winnersNow_sub hx'.1)
  rcases Count.next_cases (R := withLot R (favour x)) hne with ⟨w, hw, hhead, hnext⟩ | ⟨hnone, -⟩
  · have hlead : w ∈ leaders R c := mem_leaders (R := withLot R (favour x)) hhead
    have hsame : w = x := by
      rcases Count.head_ahead hhead hx'.1 with heq | hlt | ⟨-, hlot⟩
      · exact heq.symm
      · exact absurd hlt (not_lt.mpr (hx'.2 w hw))
      · by_contra hwx
        change favour x w ≤ favour x x at hlot
        unfold favour at hlot
        rw [if_neg hwx, if_pos rfl] at hlot
        exact absurd hlot (by decide)
    rw [hnext, hsame]
    rfl
  · have hnone' : c.winnersNow R = [] := hnone
    rw [hnone'] at hx'
    exact absurd hx'.1 List.not_mem_nil

/-- Up to the round in which it elects, the lot has no part in the count. -/
theorem lotRound_some {d : Count} (hq : ∀ q ∈ R.quota, 0 ≤ q) : ∀ (n : ℕ) (c : Count), c.continuing.length ≤ n →
    Proper R c → lotRound R n c = some d →
    Proper R d ∧ ¬ d.ended R ∧ ¬ d.fills R ∧ d.tieBreaks = c.tieBreaks ∧
      ∃ m, d.continuing.length ≤ m + 1 ∧
        ∀ lot, Count.loop (withLot R lot) n c = Count.loop (withLot R lot) (m + 1) d := by
  intro n
  induction n with
  | zero =>
    intro c _ _ hround
    exact absurd hround (by simp [lotRound])
  | succ n ih =>
    intro c hn h hround
    rw [lotRound] at hround
    by_cases hstop : c.ended R ∨ c.fills R
    · rw [if_pos hstop] at hround
      exact absurd hround (by simp)
    rw [if_neg hstop] at hround
    have hend : ¬ c.ended R := fun he => hstop (Or.inl he)
    have hfill : ¬ c.fills R := fun hf => hstop (Or.inr hf)
    have hne := continuing_ne_nil hend
    have hlen := Count.next_continuing (R := R) hne
    have hproper := h.next hq hend
    have hpass : ∀ l, Count.loop (withLot R l) (n + 1) c = Count.loop (withLot R l) n (c.next (withLot R l)) :=
      fun l => loop_pass (R := withLot R l) hend hfill
    rcases hl : leaders R c with _ | ⟨w, _ | ⟨w', rest⟩⟩
    · by_cases hone : ∃ x, c.candidatesLowest = [x]
      · obtain ⟨x, hx⟩ := hone
        simp only [hl, hx] at hround
        have hnext : ∀ l, c.next (withLot R l) = c.eliminate R x := fun l =>
          next_lowest (R := withLot R l) hne hl hx
        rw [next_lowest hne hl hx] at hlen hproper
        obtain ⟨hd, hend', hfill', htie, m, hm, hsame⟩ := ih _ (by omega) hproper hround
        refine ⟨hd, hend', hfill', htie.trans ?_, m, hm, fun l => by rw [hpass, hnext, hsame]⟩
        simp [Count.eliminate, hx]
      · have hnone : lotRound R (n + 1) c = none := by
          rw [lotRound, if_neg hstop, hl]
          dsimp only
          split
          · rename_i x hx
            exact absurd ⟨x, hx⟩ hone
          · rfl
        rw [lotRound, if_neg hstop] at hnone
        rw [hnone] at hround
        exact absurd hround (by simp)
    · simp only [hl] at hround
      have hnext : ∀ l, c.next (withLot R l) = c.elect R w := fun l => next_leader (R := withLot R l) hne hl
      rw [next_leader hne hl] at hlen hproper
      obtain ⟨hd, hend', hfill', htie, m, hm, hsame⟩ := ih _ (by omega) hproper hround
      exact ⟨hd, hend', hfill', htie, m, hm, fun l => by rw [hpass, hnext, hsame]⟩
    · simp only [hl] at hround
      rw [Option.some_inj] at hround
      rw [← hround]
      exact ⟨h, hend, hfill, rfl, n, hn, fun _ => rfl⟩

/-! ### No silent ties -/

/-- The result says that there was a tie. -/
def Reports (r : Ranked) : Prop := r.ties ≠ [] ∨ r.tieBreaks ≠ []

/-- If two lots seat different candidates, both results report a tie. -/
def NoSilentTie (selections : List (Option (List ℤ))) (candidates : List Candidate) (seats : ℕ) : Prop :=
  ∀ lot lot' : ℤ → String,
    (∃ x, ¬ (x ∈ (ranked selections candidates seats lot).winners ↔
      x ∈ (ranked selections candidates seats lot').winners)) →
    Reports (ranked selections candidates seats lot) ∧ Reports (ranked selections candidates seats lot')

/-- The rules of a count, before the lot. -/
def rulesFor (selections : List (Option (List ℤ))) (candidates : List Candidate) (seats : ℕ) : Rules :=
  let hopeful := distinctIds candidates
  rankedRules (fun _ => "") (validPrefs selections hopeful) (effectiveSeats seats hopeful)

/-- The round of a count in which the lot first elects, no recorded tie before it. -/
def firstLot (selections : List (Option (List ℤ))) (candidates : List Candidate) (seats : ℕ) : Option Count :=
  let hopeful := distinctIds candidates
  lotRound (rulesFor selections candidates seats) hopeful.length
    (Count.start (validPrefs selections hopeful) hopeful)

section Count

variable (selections : List (Option (List ℤ))) (candidates : List Candidate) (seats : ℕ)

theorem countRanked_eq (lot : ℤ → String) : countRanked selections candidates seats lot =
    Count.loop (withLot (rulesFor selections candidates seats) lot) (distinctIds candidates).length
      (Count.start (validPrefs selections (distinctIds candidates)) (distinctIds candidates)) := rfl

theorem quota_nonneg : ∀ q ∈ (rulesFor selections candidates seats).quota, 0 ≤ q := by
  intro q hq
  unfold rulesFor rankedRules at hq
  dsimp only at hq
  split at hq
  · rw [Option.mem_some_iff] at hq
    rw [← hq]
    positivity
  · exact absurd hq (by simp)

theorem quota_none (hne : distinctIds candidates ≠ []) (hnone : (rulesFor selections candidates seats).quota = none) :
    (rulesFor selections candidates seats).seats = 1 := by
  unfold rulesFor rankedRules at *
  dsimp only at *
  have hpos : 1 ≤ effectiveSeats seats (distinctIds candidates) := by
    rw [effectiveSeats, if_neg hne]
    exact Nat.le_max_left _ _
  split at hnone
  · exact absurd hnone (by simp)
  · omega

theorem start_proper : Proper (rulesFor selections candidates seats)
    (Count.start (validPrefs selections (distinctIds candidates)) (distinctIds candidates)) := by
  refine ⟨List.nodup_dedup _, List.nodup_nil, fun _ _ => List.not_mem_nil, fun b hb => ?_, Nat.zero_le _⟩
  obtain ⟨prefs, -, rfl⟩ := List.mem_map.mp hb
  exact zero_le_one

variable {selections candidates seats} {d : Count}

/-- Every lot leads to the round in which it first elects. -/
theorem firstLot_some (hfirst : firstLot selections candidates seats = some d) :
    Proper (rulesFor selections candidates seats) d ∧ ¬ d.ended (rulesFor selections candidates seats) ∧
      ¬ d.fills (rulesFor selections candidates seats) ∧ d.tieBreaks = [] ∧
      ∃ m, d.continuing.length ≤ m + 1 ∧ ∀ lot, countRanked selections candidates seats lot =
        Count.loop (withLot (rulesFor selections candidates seats) lot) (m + 1) d :=
  lotRound_some (quota_nonneg selections candidates seats) _ _ le_rfl
    (start_proper selections candidates seats) hfirst

theorem firstLot_quota (hfirst : firstLot selections candidates seats = some d)
    (hnone : (rulesFor selections candidates seats).quota = none) :
    (rulesFor selections candidates seats).seats = 1 := by
  refine quota_none selections candidates seats (fun hnil => ?_) hnone
  rw [firstLot, hnil] at hfirst
  exact absurd hfirst (by simp [lotRound])

/-- From a crowded round on no tie is reported, whatever the lot. -/
theorem lot_quiet (hfirst : firstLot selections candidates seats = some d)
    (hcrowd : Crowded (rulesFor selections candidates seats) d) (lot : ℤ → String) :
    ¬ Reports (ranked selections candidates seats lot) := by
  obtain ⟨hd, -, -, htie, m, hm, hsame⟩ := firstLot_some hfirst
  have hkept := loop_crowded (R := withLot (rulesFor selections candidates seats) lot) hm
    ⟨hd.nodup, hd.elected, hd.apart, hd.nonneg, hd.room⟩ (quota_nonneg selections candidates seats)
    (firstLot_quota hfirst) (Or.inr hcrowd)
  rw [← hsame, htie] at hkept
  rintro (hrep | hrep)
  · exact hrep rfl
  · exact hrep hkept

/-- The lot that favours a leader seats it, besides those elected before. -/
theorem lot_seats (hfirst : firstLot selections candidates seats = some d) {x : ℤ}
    (hx : x ∈ leaders (rulesFor selections candidates seats) d) :
    d.elected ++ [x] ⊆ (ranked selections candidates seats (favour x)).winners := by
  obtain ⟨-, hend, hfill, -, m, hm, hsame⟩ := firstLot_some hfirst
  have hlen := Count.next_continuing (R := withLot (rulesFor selections candidates seats) (favour x))
    (continuing_ne_nil hend)
  have hpre := loop_elected (R := withLot (rulesFor selections candidates seats) (favour x))
    (c := d.next (withLot (rulesFor selections candidates seats) (favour x))) m (by omega)
  have hpass := loop_pass (R := withLot (rulesFor selections candidates seats) (favour x)) (n := m) hend hfill
  rw [← hpass, ← hsame, next_favour hx] at hpre
  exact hpre.subset

theorem winners_room (lot : ℤ → String) : (ranked selections candidates seats lot).winners.length ≤
    (rulesFor selections candidates seats).seats := by
  have hstart := start_proper selections candidates seats
  exact loop_room (R := withLot (rulesFor selections candidates seats) lot) le_rfl
    ⟨hstart.nodup, hstart.elected, hstart.apart, hstart.nonneg, hstart.room⟩
    (quota_nonneg selections candidates seats)

/-- A lot between more leaders than seats left is silent, and decides. -/
theorem crowded_silent (hfirst : firstLot selections candidates seats = some d)
    (hmany : (rulesFor selections candidates seats).seats - d.elected.length <
      (leaders (rulesFor selections candidates seats) d).length) :
    ¬ NoSilentTie selections candidates seats := by
  intro hsilent
  obtain ⟨hd, -⟩ := firstLot_some hfirst
  have hquiet := lot_quiet hfirst (hmany.trans_le (List.length_filter_le _ _))
  obtain ⟨x₀, hx₀⟩ := List.exists_mem_of_ne_nil (leaders (rulesFor selections candidates seats) d) (fun hnil => by
    rw [hnil] at hmany
    exact absurd hmany (by simp))
  -- were the winners the same under every lot, all the leaders would be among them
  have hall : leaders (rulesFor selections candidates seats) d ++ d.elected ⊆
      (ranked selections candidates seats (favour x₀)).winners := by
    intro y hy
    rcases List.mem_append.mp hy with hy | hy
    · by_contra hout
      have hin : y ∈ (ranked selections candidates seats (favour y)).winners :=
        lot_seats hfirst hy (List.mem_append_right _ List.mem_cons_self)
      exact hquiet (favour x₀) (hsilent (favour x₀) (favour y) ⟨y, fun hiff => hout (hiff.mpr hin)⟩).1
    · exact lot_seats hfirst hx₀ (List.mem_append_left _ hy)
  have hnd : (leaders (rulesFor selections candidates seats) d ++ d.elected).Nodup := by
    rw [List.nodup_append]
    refine ⟨(hd.nodup.filter _).filter _, hd.elected, fun a ha b hb => ?_⟩
    rintro rfl
    exact hd.apart a (Count.winnersNow_sub (List.mem_filter.mp ha).1) hb
  have hroom : (ranked selections candidates seats (favour x₀)).winners.length ≤
      (rulesFor selections candidates seats).seats := winners_room (favour x₀)
  have hlen := (List.subperm_of_subset hnd hall).length_le
  rw [List.length_append] at hlen
  omega

/-- Until the lot elects no tie is silent; and a lot between more leaders than
there are seats left is. -/
theorem no_silent_tie (selections : List (Option (List ℤ))) (candidates : List Candidate) (seats : ℕ) :
    (firstLot selections candidates seats = none → NoSilentTie selections candidates seats) ∧
    (∀ d, firstLot selections candidates seats = some d →
      (rulesFor selections candidates seats).seats - d.elected.length <
        (leaders (rulesFor selections candidates seats) d).length →
      ¬ NoSilentTie selections candidates seats) := by
  refine ⟨fun hfirst lot lot' ⟨x, hx⟩ => ?_, fun d hfirst hmany => crowded_silent hfirst hmany⟩
  rcases loop_agrees lot lot' (distinctIds candidates).length
    (Count.start (validPrefs selections (distinctIds candidates)) (distinctIds candidates)) le_rfl hfirst with
    hsame | ⟨htie, htie'⟩
  · exact absurd (hsame x) hx
  · exact ⟨Or.inr htie, Or.inr htie'⟩

end Count

/-- Three candidates with a third of the votes each, at the quota of two seats:
the lot seats two of them, and no tie is reported. -/
theorem not_no_silent_tie : ¬ ∀ selections candidates seats, NoSilentTie selections candidates seats := by
  intro h
  have hrep := h [some [1], some [2], some [3]] [⟨1, "Ada"⟩, ⟨2, "Ben"⟩, ⟨3, "Cem"⟩] 2 (favour 1) (favour 3)
    ⟨3, by decide +kernel⟩
  rcases hrep.1 with hties | hbreaks
  · exact hties rfl
  · exact hbreaks (by decide +kernel)

end Lots
end FlexyVotes
