/-
# The order of the ballots and the candidates

Each algorithm counts the same whatever order the selections come in and
whatever order the candidates are listed in. Where an order is made, it is by
sorting, and only candidates with one id or one lot could be level. For the
ranked count two runs are followed side by side: their ballots and their
continuing candidates stay rearrangements of each other, and all that they
report stays equal (`Alike`). Only the rows of the candidates that are still
continuing at the end are listed by the order they are in.

Key definitions: `Alike`, `Outcome.SameCount`, `SameResult`.
Key theorems: `plurality_perm`, `score_perm`, `Alike.next`, `Alike.loop`,
`tally_rearranged`.
-/
import FlexyVotes.Elections.Tally
import Mathlib.Data.Prod.Lex
import Mathlib.Data.String.Basic

namespace FlexyVotes
namespace Rearranged

open Tally

/-! ### Votes by candidate -/

section Marks

variable {E : Env} {candidates candidates' : List Candidate} {counts : ℤ → ℤ}

/-- What `_rank` sorts by. -/
def rankKey (E : Env) (counts : ℤ → ℤ) (c : Candidate) : Lex (ℤ × Lex (String × ℤ)) :=
  toLex (-counts c.id, toLex (E.lower c.name, c.id))

theorem ranked_iff {a b : Candidate} :
    (counts b.id < counts a.id ∨ (counts a.id = counts b.id ∧
      (E.lower a.name < E.lower b.name ∨ (E.lower a.name = E.lower b.name ∧ a.id ≤ b.id)))) ↔
    rankKey E counts a ≤ rankKey E counts b := by
  unfold rankKey
  rw [Prod.Lex.toLex_le_toLex, Prod.Lex.toLex_le_toLex, neg_lt_neg_iff, neg_inj]

theorem rank_sorted (E : Env) (counts : ℤ → ℤ) (candidates : List Candidate) :
    (rank E counts candidates).Pairwise fun a b => rankKey E counts a ≤ rankKey E counts b := by
  unfold rank
  have : Std.Total fun a b : Candidate => counts b.id < counts a.id ∨ (counts a.id = counts b.id ∧
      (E.lower a.name < E.lower b.name ∨ (E.lower a.name = E.lower b.name ∧ a.id ≤ b.id))) :=
    ⟨fun a b => by
      rw [ranked_iff, ranked_iff]
      exact le_total _ _⟩
  have : IsTrans Candidate fun a b => counts b.id < counts a.id ∨ (counts a.id = counts b.id ∧
      (E.lower a.name < E.lower b.name ∨ (E.lower a.name = E.lower b.name ∧ a.id ≤ b.id))) :=
    ⟨fun a b c hab hbc => by
      rw [ranked_iff] at hab hbc ⊢
      exact hab.trans hbc⟩
  exact (List.pairwise_insertionSort _ candidates).imp ranked_iff.mp

theorem rank_perm (hids : (candidates.map (·.id)).Nodup) (h : candidates.Perm candidates') :
    rank E counts candidates = rank E counts candidates' := by
  have hperm : (rank E counts candidates).Perm candidates := List.perm_insertionSort _ _
  have hperm' : (rank E counts candidates').Perm candidates' := List.perm_insertionSort _ _
  refine List.Perm.eq_of_pairwise (fun a b ha hb hab hba => ?_) (rank_sorted E counts candidates)
    (rank_sorted E counts candidates') (hperm.trans (h.trans hperm'.symm))
  have hkey : rankKey E counts a = rankKey E counts b := le_antisymm hab hba
  have hid : a.id = b.id := congrArg (fun k => (ofLex (ofLex k).2).2) hkey
  exact List.inj_on_of_nodup_map hids (hperm.subset ha) ((h.trans hperm'.symm).symm.subset hb) hid

theorem distinctIds_perm (h : candidates.Perm candidates') : (distinctIds candidates).Perm (distinctIds candidates') :=
  (h.map _).dedup

theorem mem_ids_perm (h : candidates.Perm candidates') (cid : ℤ) :
    cid ∈ candidates.map (·.id) ↔ cid ∈ candidates'.map (·.id) :=
  (h.map _).mem_iff

/-- `plurality` counts the same. -/
theorem plurality_perm {selections selections' : List (Option (List ℤ))} {seats : ℕ}
    (hids : (candidates.map (·.id)).Nodup) (hs : selections.Perm selections') (hc : candidates.Perm candidates') :
    plurality E selections candidates seats = plurality E selections' candidates' seats := by
  have hballots : (selections.filterMap id).Perm (selections'.filterMap id) := hs.filterMap _
  have hcounts : (fun cid => if cid ∈ candidates.map (·.id) then
        ((selections.filterMap id).flatten.count cid : ℤ) else 0) =
      fun cid => if cid ∈ candidates'.map (·.id) then ((selections'.filterMap id).flatten.count cid : ℤ) else 0 := by
    funext cid
    rw [hballots.flatten.count_eq cid]
    simp only [mem_ids_perm hc]
  have hsum : ∀ counts : ℤ → ℤ, ((distinctIds candidates).map counts).sum = ((distinctIds candidates').map counts).sum :=
    fun counts => ((distinctIds_perm hc).map counts).sum_eq
  unfold plurality
  dsimp only
  rw [hcounts, hsum, rank_perm hids hc, hballots.length_eq, hs.length_eq]

/-- `score` counts the same. -/
theorem score_perm {selections selections' : List (Option (List (ℤ × ℤ)))} {seats maxScore : ℕ}
    (hids : (candidates.map (·.id)).Nodup) (hs : selections.Perm selections') (hc : candidates.Perm candidates') :
    score E selections candidates seats maxScore = score E selections' candidates' seats maxScore := by
  have hballots : (selections.filterMap id).Perm (selections'.filterMap id) := hs.filterMap _
  have hgiven : ∀ cid,
      (if cid ∈ candidates.map (·.id) then ((selections.filterMap id).flatten.filter fun p => p.1 = cid).map (·.2)
        else []).Perm
      (if cid ∈ candidates'.map (·.id) then ((selections'.filterMap id).flatten.filter fun p => p.1 = cid).map (·.2)
        else []) := by
    intro cid
    simp only [mem_ids_perm hc]
    split
    · exact (hballots.flatten.filter _).map _
    · exact List.Perm.refl _
  have htotals := fun cid => (hgiven cid).sum_eq
  have hlengths := fun cid => (hgiven cid).length_eq
  have hsum : ∀ counts : ℤ → ℤ, ((distinctIds candidates).map counts).sum = ((distinctIds candidates').map counts).sum :=
    fun counts => ((distinctIds_perm hc).map counts).sum_eq
  unfold score
  simp only [htotals, hlengths, hsum, hballots.length_eq, hs.length_eq, rank_perm hids hc]

end Marks

/-- `referendum` counts the same. -/
theorem referendum_perm {selections selections' : List Json} {threshold : ℚ} (hs : selections.Perm selections') :
    referendum selections threshold = referendum selections' threshold := by
  unfold referendum
  simp only [(hs.filter _).length_eq]

/-! ### Two ranked counts side by side -/

section Rounds

variable {R : Rules} {c d : Count} {cids cids' : List ℤ}

/-- No two candidates have one lot. -/
def LotsDiffer (lot : ℤ → String) (cids : List ℤ) : Prop := ∀ a ∈ cids, ∀ b ∈ cids, lot a = lot b → a = b

theorem LotsDiffer.mono {lot : ℤ → String} (h : LotsDiffer lot cids) (hsub : ∀ x ∈ cids', x ∈ cids) :
    LotsDiffer lot cids' :=
  fun a ha b hb => h a (hsub a ha) b (hsub b hb)

/-- The two counts differ in the order of their lists only. -/
structure Alike (R : Rules) (c d : Count) : Prop where
  ballots : c.ballots.Perm d.ballots
  continuing : c.continuing.Perm d.continuing
  elected : c.elected = d.elected
  eliminated : c.eliminated = d.eliminated
  rounds : c.rounds = d.rounds
  tieBreaks : c.tieBreaks = d.tieBreaks
  lots : LotsDiffer R.lotKey c.continuing

theorem Alike.tally (h : Alike R c d) : c.tally = d.tally :=
  funext fun _ => Transfer.tally_perm h.continuing h.ballots

theorem Alike.activeTotal (h : Alike R c d) : c.activeTotal = d.activeTotal := by
  unfold Count.activeTotal
  rw [h.tally]
  exact (h.continuing.map _).sum_eq

theorem sorted_perm (h : cids.Perm cids') : cids.insertionSort (· ≤ ·) = cids'.insertionSort (· ≤ ·) :=
  Transactions.insertionSort_congr h fun _ _ _ _ => le_antisymm

theorem Alike.snapshot (h : Alike R c d) : c.snapshot = d.snapshot := by
  have hexhausted : c.exhausted = d.exhausted := by
    unfold Count.exhausted
    simp only [Transfer.top_perm h.continuing]
    exact Transfer.weightOf_perm h.ballots
  unfold Count.snapshot
  rw [h.rounds, h.tally, sorted_perm h.continuing, hexhausted]

theorem Alike.byTally (h : Alike R c d) (hlots : LotsDiffer R.lotKey cids) (hcids : cids.Perm cids') :
    c.byTally R cids = d.byTally R cids' := by
  have hahead : c.ahead R = d.ahead R := by
    unfold Count.ahead
    rw [h.tally]
  unfold Count.byTally
  rw [Transactions.insertionSort_congr hcids fun a ha b hb hab hba => ?_]
  · simp only [hahead]
  · rcases hab with hab | ⟨heq, hab⟩
    · rcases hba with hba | ⟨hba, -⟩
      · exact absurd hba (not_lt_of_gt hab)
      · exact absurd hba hab.ne
    · rcases hba with hba | ⟨-, hba⟩
      · exact absurd heq hba.ne
      · exact hlots a ha b hb (String.le_antisymm hab hba)

theorem Alike.winnersNow (h : Alike R c d) : (c.winnersNow R).Perm (d.winnersNow R) := by
  unfold Count.winnersNow
  rw [h.tally, h.activeTotal]
  exact h.continuing.filter _

theorem Alike.candidatesLowest (h : Alike R c d) : c.candidatesLowest.Perm d.candidatesLowest := by
  unfold Count.candidatesLowest
  rw [h.tally]
  simp only [h.continuing.mem_iff]
  exact h.continuing.filter _

theorem Alike.narrowed (h : Alike R c d) : (c.narrowed R).Perm (d.narrowed R) := by
  unfold Count.narrowed
  simp only [h.candidatesLowest.mem_iff]
  exact h.candidatesLowest.filter _

theorem lotOrder_perm (hlots : LotsDiffer R.lotKey cids) (hcids : cids.Perm cids') :
    Count.lotOrder R cids = Count.lotOrder R cids' := by
  unfold Count.lotOrder
  have : Std.Total fun a b => R.lotKey a ≤ R.lotKey b := ⟨fun a b => String.le_total _ _⟩
  have : IsTrans ℤ fun a b => R.lotKey a ≤ R.lotKey b := ⟨fun a b c hab hbc => String.le_trans hab hbc⟩
  exact Transactions.insertionSort_congr hcids fun a ha b hb hab hba => hlots a ha b hb (String.le_antisymm hab hba)

/-- The lot picks the same candidate, and a lone one needs no lot. -/
theorem Alike.loser (h : Alike R c d) : c.loser R = d.loser R := by
  unfold Count.loser
  rw [h.candidatesLowest.length_eq]
  split
  · have hlots : LotsDiffer R.lotKey (c.narrowed R) := h.lots.mono fun x hx =>
      Count.candidatesLowest_sub (List.mem_filter.mp hx).1
    rw [lotOrder_perm hlots h.narrowed]
  · rename_i hone
    have hlen : c.candidatesLowest.length ≤ 1 := by
      rw [h.candidatesLowest.length_eq]
      omega
    have hperm := h.candidatesLowest.symm
    rcases hl : c.candidatesLowest with _ | ⟨x, rest⟩
    · rw [hl] at hperm
      rw [hperm.eq_nil]
    · rw [hl, List.length_cons] at hlen
      have hrest : rest = [] := List.length_eq_zero_iff.mp (by omega)
      rw [hl, hrest] at hperm
      rw [hrest, List.perm_singleton.mp hperm]

theorem Alike.elect (h : Alike R c d) (w : ℤ) : Alike R (c.elect R w) (d.elect R w) where
  ballots := by
    unfold Count.elect
    rw [h.tally]
    dsimp only
    split
    · exact Transfer.transfer_perm h.continuing h.ballots
    · exact h.ballots
  continuing := h.continuing.erase w
  elected := by
    unfold Count.elect
    rw [h.elected]
  eliminated := h.eliminated
  rounds := by
    unfold Count.elect
    rw [h.rounds, h.snapshot, h.tally]
  tieBreaks := h.tieBreaks
  lots := h.lots.mono fun _ => List.mem_of_mem_erase

theorem Alike.eliminate (h : Alike R c d) (x : ℤ) : Alike R (c.eliminate R x) (d.eliminate R x) where
  ballots := h.ballots
  continuing := h.continuing.erase x
  elected := h.elected
  eliminated := by
    unfold Count.eliminate
    rw [h.eliminated]
  rounds := by
    unfold Count.eliminate
    rw [h.rounds, h.snapshot]
  tieBreaks := by
    unfold Count.eliminate
    rw [h.tieBreaks, h.snapshot, h.candidatesLowest.length_eq, h.narrowed.length_eq, sorted_perm h.candidatesLowest]
  lots := h.lots.mono fun _ => List.mem_of_mem_erase

/-- **One pass**: both counts elect or eliminate the same candidate. -/
theorem Alike.next (h : Alike R c d) : Alike R (c.next R) (d.next R) := by
  have hlots : LotsDiffer R.lotKey (c.winnersNow R) := h.lots.mono fun _ => Count.winnersNow_sub
  unfold Count.next
  rw [h.byTally hlots h.winnersNow, h.loser]
  split
  · exact h.elect _
  · split
    · exact h.eliminate _
    · exact h

theorem Alike.fill (h : Alike R c d) : (c.fill R).elected = (d.fill R).elected ∧ (c.fill R).rounds = (d.fill R).rounds := by
  unfold Count.fill
  rw [h.byTally h.lots h.continuing, h.elected, h.rounds, h.snapshot]
  exact ⟨rfl, rfl⟩

/-- **All passes.** -/
theorem Alike.loop : ∀ (n : ℕ) {c d : Count}, Alike R c d →
    (Count.loop R n c).elected = (Count.loop R n d).elected ∧ (Count.loop R n c).rounds = (Count.loop R n d).rounds ∧
      (Count.loop R n c).tieBreaks = (Count.loop R n d).tieBreaks
  | 0, _, _, h => ⟨h.elected, h.rounds, h.tieBreaks⟩
  | n + 1, c, d, h => by
    have hended : c.ended R ↔ d.ended R := by
      unfold Count.ended
      rw [h.elected, ← List.length_eq_zero_iff, ← List.length_eq_zero_iff, h.continuing.length_eq]
    have hfills : c.fills R ↔ d.fills R := by
      unfold Count.fills
      rw [h.elected, h.continuing.length_eq]
    unfold Count.loop
    by_cases hc : c.ended R
    · rw [if_pos hc, if_pos (hended.mp hc)]
      exact ⟨h.elected, h.rounds, h.tieBreaks⟩
    rw [if_neg hc, if_neg fun hd => hc (hended.mpr hd)]
    by_cases hf : c.fills R
    · rw [if_pos hf, if_pos (hfills.mp hf)]
      exact ⟨h.fill.1, h.fill.2, h.tieBreaks⟩
    · rw [if_neg hf, if_neg fun hd => hf (hfills.mpr hd)]
      exact Alike.loop n h.next

end Rounds

/-! ### The result of a position -/

/-- The results report the same count: all but the rows of the candidates. -/
def SameRanked (r r' : Ranked) : Prop := { r with candidates := [] } = { r' with candidates := [] }

/-- `ranked` counts the same. -/
theorem ranked_perm {selections selections' : List (Option (List ℤ))} {candidates candidates' : List Candidate}
    {seats : ℕ} {lot : ℤ → String} (hlots : LotsDiffer lot (candidates.map (·.id)))
    (hs : selections.Perm selections') (hc : candidates.Perm candidates') :
    SameRanked (ranked selections candidates seats lot) (ranked selections' candidates' seats lot) := by
  have hhopeful := distinctIds_perm hc
  have hvalid : (validPrefs selections (distinctIds candidates)).Perm
      (validPrefs selections' (distinctIds candidates')) := by
    have hprefs : prefsOf (distinctIds candidates) = prefsOf (distinctIds candidates') := by
      unfold prefsOf
      simp only [hhopeful.mem_iff]
    unfold validPrefs
    rw [hprefs]
    exact (hs.map _).filter _
  have hseats : effectiveSeats seats (distinctIds candidates) = effectiveSeats seats (distinctIds candidates') := by
    unfold effectiveSeats
    rw [hhopeful.length_eq]
    simp only [← List.length_eq_zero_iff, hhopeful.length_eq]
  have hrules : rankedRules lot (validPrefs selections (distinctIds candidates))
      (effectiveSeats seats (distinctIds candidates)) =
      rankedRules lot (validPrefs selections' (distinctIds candidates'))
        (effectiveSeats seats (distinctIds candidates')) := by
    unfold rankedRules
    rw [hseats, hvalid.length_eq]
    simp only [(hvalid.filter _).length_eq]
  have hstart : Alike (rankedRules lot (validPrefs selections' (distinctIds candidates'))
      (effectiveSeats seats (distinctIds candidates')))
      (Count.start (validPrefs selections (distinctIds candidates)) (distinctIds candidates))
      (Count.start (validPrefs selections' (distinctIds candidates')) (distinctIds candidates')) :=
    { ballots := hvalid.map _
      continuing := hhopeful
      elected := rfl
      eliminated := rfl
      rounds := rfl
      tieBreaks := rfl
      lots := hlots.mono fun x hx => List.mem_dedup.mp hx }
  obtain ⟨helected, hrounds, htieBreaks⟩ := hstart.loop (distinctIds candidates').length
  unfold SameRanked ranked countRanked
  simp only [hrules, hhopeful.length_eq, helected, hrounds, htieBreaks, hvalid.length_eq, hs.length_eq,
    sorted_perm hhopeful]

theorem readAll_cons {α : Type} {f : Json → Except Failure α} {x : Json} {xs : List Json} {ys : List α} :
    readAll f (x :: xs) = .ok ys ↔ ∃ z zs, f x = .ok z ∧ readAll f xs = .ok zs ∧ ys = z :: zs := by
  rw [readAll]
  constructor
  · intro h
    cases hx : f x with
    | error failure =>
      rw [hx] at h
      cases h
    | ok z =>
      cases hxs : readAll f xs with
      | error failure =>
        rw [hx, hxs] at h
        cases h
      | ok zs =>
        rw [hx, hxs] at h
        exact ⟨z, zs, rfl, rfl, (Except.ok.inj h).symm⟩
  · rintro ⟨z, zs, hx, hxs, rfl⟩
    rw [hx, hxs]

/-- The selections can be read in one order when they can in another. -/
theorem readAll_perm {α : Type} {f : Json → Except Failure α} {xs xs' : List Json} (h : xs.Perm xs') :
    ∀ {ys : List α}, readAll f xs = .ok ys → ∃ ys', readAll f xs' = .ok ys' ∧ ys.Perm ys' := by
  induction h with
  | nil => exact fun {ys} hys => ⟨ys, hys, List.Perm.refl _⟩
  | cons x _ ih =>
    intro ys hys
    obtain ⟨z, zs, hz, hzs, rfl⟩ := readAll_cons.mp hys
    obtain ⟨zs', hzs', hperm⟩ := ih hzs
    exact ⟨z :: zs', readAll_cons.mpr ⟨z, zs', hz, hzs', rfl⟩, hperm.cons z⟩
  | swap x y l =>
    intro ys hys
    obtain ⟨z, zs, hz, hzs, rfl⟩ := readAll_cons.mp hys
    obtain ⟨w, ws, hw, hws, rfl⟩ := readAll_cons.mp hzs
    exact ⟨w :: z :: ws, readAll_cons.mpr ⟨w, z :: ws, hw, readAll_cons.mpr ⟨z, ws, hz, hws, rfl⟩, rfl⟩,
      List.Perm.swap w z ws⟩
  | trans _ _ ih ih' =>
    intro ys hys
    obtain ⟨zs, hzs, hperm⟩ := ih hys
    obtain ⟨ws, hws, hperm'⟩ := ih' hzs
    exact ⟨ws, hws, hperm.trans hperm'⟩

/-- The outcomes report the same counts, winners, ties, rounds and tie breaks;
all but those of a ranked count have the same rows too. -/
def SameOutcome : Outcome → Outcome → Prop
  | .ranked r, .ranked r' => SameRanked r r'
  | o, o' => o = o'

/-- Both positions are counted the same, or neither is. -/
def SameResult : Except Failure PositionTally → Except Failure PositionTally → Prop
  | .ok t, .ok t' =>
    t.positionId = t'.positionId ∧ t.position = t'.position ∧ t.ballotType = t'.ballotType ∧
      SameOutcome t.outcome t'.outcome
  | .error _, .error _ => True
  | _, _ => False

/-- What is made of the selections that were read is compared where both were. -/
theorem sameResult_readAll {α : Type} {f : Json → Except Failure α} {xs xs' : List Json} (h : xs.Perm xs')
    {id : ℕ} {name : String} {ballotType : BallotType} {o o' : List α → Outcome}
    (ho : ∀ ys ys', ys.Perm ys' → SameOutcome (o ys) (o' ys')) :
    SameResult (((readAll f xs).map o).map fun outcome => ⟨id, name, ballotType, outcome⟩)
      (((readAll f xs').map o').map fun outcome => ⟨id, name, ballotType, outcome⟩) := by
  cases hxs : readAll f xs with
  | ok ys =>
    obtain ⟨ys', hxs', hperm⟩ := readAll_perm h hxs
    rw [hxs']
    exact ⟨rfl, rfl, rfl, ho ys ys' hperm⟩
  | error failure =>
    cases hxs' : readAll f xs' with
    | error failure' => trivial
    | ok ys' =>
      obtain ⟨ys, hys, -⟩ := readAll_perm h.symm hxs'
      rw [hxs] at hys
      cases hys

/-- Scores are read for the candidates there are, whatever their order. -/
theorem scoreItems_perm {E : Env} {ids ids' : List ℤ} (h : ids.Perm ids') :
    ∀ kvs, scoreItems E ids kvs = scoreItems E ids' kvs
  | [] => rfl
  | (key, value) :: rest => by
    unfold scoreItems
    rw [scoreItems_perm h rest]
    simp only [h.mem_iff]

/-- **The count does not depend on order**: neither that of the selections nor
that of the candidates. -/
theorem tally_rearranged (E : Env) (seed : String) (spec : PositionSpec) {candidates : List Candidate}
    {selections selections' : List Json} (hids : (spec.candidates.map (·.id)).Nodup)
    (hlots : LotsDiffer (lotKey E seed) (spec.candidates.map (·.id))) (hs : selections.Perm selections')
    (hc : spec.candidates.Perm candidates) :
    SameResult (tallyPosition E spec selections seed)
      (tallyPosition E { spec with candidates := candidates } selections' seed) := by
  have hread : scoresOf E (spec.candidates.map (·.id)) = scoresOf E (candidates.map (·.id)) := by
    funext selection
    unfold scoresOf
    simp only [scoreItems_perm (hc.map _)]
  have hplurality : ∀ seats, ∀ ys ys' : List (Option (List ℤ)), ys.Perm ys' →
      SameOutcome (.plurality (plurality E ys spec.candidates seats)) (.plurality (plurality E ys' candidates seats)) :=
    fun seats ys ys' hys => congrArg Outcome.plurality (plurality_perm hids hys hc)
  unfold tallyPosition tallyOutcome
  dsimp only
  cases htype : spec.ballotType with
  | REFERENDUM =>
    rw [referendum_perm hs]
    exact ⟨rfl, rfl, rfl, rfl⟩
  | RANKED => exact sameResult_readAll hs fun ys ys' hys => ranked_perm hlots hys hc
  | SCORE =>
    rw [hread]
    exact sameResult_readAll hs fun ys ys' hys => congrArg Outcome.score (score_perm hids hys hc)
  | SINGLE => exact sameResult_readAll hs (hplurality 1)
  | FPTP => exact sameResult_readAll hs (hplurality _)
  | MULTIPLE => exact sameResult_readAll hs (hplurality _)
  | APPROVAL => exact sameResult_readAll hs (hplurality _)

/-- The lots of the clear hash differ, so four ballots count the same backwards. -/
theorem tally_rearranged_reversed :
    SameResult
      (tallyPosition Env.plain ⟨1, "Chair", .RANKED, 1, 10, 50, [⟨1, "Ama"⟩, ⟨2, "Kofi"⟩], none⟩
        [.arr [.int 1], .arr [.int 2]] "42")
      (tallyPosition Env.plain ⟨1, "Chair", .RANKED, 1, 10, 50, [⟨2, "Kofi"⟩, ⟨1, "Ama"⟩], none⟩
        [.arr [.int 2], .arr [.int 1]] "42") :=
  tally_rearranged Env.plain "42" ⟨1, "Chair", .RANKED, 1, 10, 50, [⟨1, "Ama"⟩, ⟨2, "Kofi"⟩], none⟩ (by decide)
    (by
      unfold LotsDiffer
      decide +kernel)
    (List.Perm.swap _ _ []) (List.Perm.swap _ _ [])

end Rearranged
end FlexyVotes
