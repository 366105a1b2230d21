/-
# The tally algorithms

`plurality`, `score`, `referendum` and `ranked`, each from the selections
cast for one position, and `tallyPosition`, which picks one by ballot type. A
result is a record with the fields of the source's; a float in it is kept as
the fraction it stands for, rounded as `round` does.

A set of candidate ids is kept as a list in the order of the candidates. The
order Python gives the elements of a set is of no consequence where the list
made of it is sorted; the unelected candidates of one tally, in the rows of
`ranked`, are shown in the order of the list.
-/
import FlexyVotes.Elections.Ballot
import FlexyVotes.Lib.Transfer
import Mathlib.Data.Finset.Max

namespace FlexyVotes
namespace Tally

/-! ### Rounding -/

/-- `round` of a fraction: a half goes to the even neighbour. -/
def roundHalfEven (x : ℚ) : ℤ :=
  if x - x.floor < 1 / 2 then x.floor
  else if 1 / 2 < x - x.floor then x.floor + 1
  else if x.floor % 2 = 0 then x.floor
  else x.floor + 1

def roundTo (digits : ℕ) (x : ℚ) : ℚ := roundHalfEven (x * 10 ^ digits) / 10 ^ digits

/-- `_pct`. -/
def pct (part whole : ℤ) : ℚ := if whole = 0 then 0 else roundTo 2 (100 * part / whole)

/-! ### Candidates -/

/-- A candidate of a position specification. -/
structure Candidate where
  id : ℤ
  name : String
  deriving DecidableEq, Repr

/-- `_rank`: by votes, then by name and id. -/
def rank (E : Env) (counts : ℤ → ℤ) (candidates : List Candidate) : List Candidate :=
  candidates.insertionSort fun a b =>
    counts b.id < counts a.id ∨ (counts a.id = counts b.id ∧
      (E.lower a.name < E.lower b.name ∨ (E.lower a.name = E.lower b.name ∧ a.id ≤ b.id)))

/-- `_winners_with_ties`: the winners, and the ids tied for the last seat. -/
def winnersWithTies (ordered : List Candidate) (counts : ℤ → ℤ) (seats : ℕ) : List Candidate × List ℤ :=
  let winners := ordered.take seats
  match winners.getLast? with
  | none => ([], [])
  | some last =>
    let tied := ordered.filter fun c => counts c.id = counts last.id
    if 1 < tied.length ∧ ∃ c ∈ tied, c ∉ winners then
      (winners.filter fun c => counts last.id < counts c.id, tied.map (·.id))
    else (winners, [])

structure CandidateRow where
  candidateId : ℤ
  name : String
  votes : ℤ
  percentage : ℚ
  rank : ℕ
  deriving DecidableEq, Repr

/-- `_candidate_rows`. -/
def candidateRows (ordered : List Candidate) (counts : ℤ → ℤ) (validVotes : ℤ) : List CandidateRow :=
  ordered.mapIdx fun i c => ⟨c.id, c.name, counts c.id, pct (counts c.id) validVotes, i + 1⟩

/-! ### Plurality -/

structure Plurality where
  seats : ℕ
  validBallots : ℕ
  abstentions : ℕ
  totalVotes : ℤ
  /-- The rows, each with its `percentage_of_ballots`. -/
  candidates : List (CandidateRow × ℚ)
  winners : List ℤ
  ties : List ℤ
  deriving DecidableEq, Repr

def distinctIds (candidates : List Candidate) : List ℤ := (candidates.map (·.id)).dedup

/-- `plurality`: single choice, block plurality, multiple choice and approval;
a selection is the ids it marks, or nothing. -/
def plurality (E : Env) (selections : List (Option (List ℤ))) (candidates : List Candidate) (seats : ℕ) :
    Plurality :=
  let ballots := selections.filterMap id
  let counts : ℤ → ℤ := fun cid => if cid ∈ candidates.map (·.id) then (ballots.flatten.count cid : ℤ) else 0
  let totalMarks := ((distinctIds candidates).map counts).sum
  let ordered := rank E counts candidates
  let result := winnersWithTies ordered counts seats
  { seats := seats
    validBallots := ballots.length
    abstentions := selections.length - ballots.length
    totalVotes := totalMarks
    candidates := (candidateRows ordered counts totalMarks).map fun r => (r, pct r.votes ballots.length)
    winners := result.1.map (·.id)
    ties := result.2 }

/-! ### Scores -/

structure ScoreRow where
  candidateId : ℤ
  name : String
  votes : ℤ
  average : ℚ
  percentage : ℚ
  rank : ℕ
  ballotsScoring : ℕ
  deriving DecidableEq, Repr

structure Score where
  seats : ℕ
  maxScore : ℕ
  validBallots : ℕ
  abstentions : ℕ
  totalVotes : ℤ
  candidates : List ScoreRow
  winners : List ℤ
  ties : List ℤ
  deriving DecidableEq, Repr

/-- `score`; a selection is its scores by candidate, or nothing. -/
def score (E : Env) (selections : List (Option (List (ℤ × ℤ)))) (candidates : List Candidate) (seats maxScore : ℕ) :
    Score :=
  let ballots := selections.filterMap id
  let given (cid : ℤ) : List ℤ :=
    if cid ∈ candidates.map (·.id) then (ballots.flatten.filter fun p => p.1 = cid).map (·.2) else []
  let totals : ℤ → ℤ := fun cid => (given cid).sum
  let ordered := rank E totals candidates
  let result := winnersWithTies ordered totals seats
  let valid : ℕ := ballots.length
  { seats := seats
    maxScore := maxScore
    validBallots := valid
    abstentions := selections.length - valid
    totalVotes := ((distinctIds candidates).map totals).sum
    candidates := ordered.mapIdx fun i c =>
      ⟨c.id, c.name, totals c.id, if valid = 0 then 0 else roundTo 3 ((totals c.id : ℚ) / valid),
        pct (totals c.id) (maxScore * valid), i + 1, (given c.id).length⟩
    winners := result.1.map (·.id)
    ties := result.2 }

/-! ### Referendums -/

structure Referendum where
  validBallots : ℕ
  abstentions : ℕ
  yes : ℕ
  no : ℕ
  yesPercentage : ℚ
  noPercentage : ℚ
  threshold : ℚ
  passed : Bool
  yesRank : ℕ
  noRank : ℕ
  winners : List String
  ties : List String
  deriving DecidableEq, Repr

/-- `referendum`. -/
def referendum (selections : List Json) (threshold : ℚ) : Referendum :=
  let yes := (selections.filter fun s => s == .str "YES").length
  let no := (selections.filter fun s => s == .str "NO").length
  let valid := yes + no
  let passed : Bool := 0 < valid ∧ threshold < pct yes valid
  { validBallots := valid
    abstentions := (selections.filter Json.falsy).length
    yes := yes
    no := no
    yesPercentage := pct yes valid
    noPercentage := pct no valid
    threshold := threshold
    passed := passed
    yesRank := if no ≤ yes then 1 else 2
    noRank := if yes < no then 1 else 2
    winners := if passed then ["YES"] else ["NO"]
    ties := if valid ≠ 0 ∧ yes = no then ["YES", "NO"] else [] }

/-! ### Ranked ballots -/

/-- `_lot_key`. -/
def lotKey (E : Env) (seed : String) (cid : ℤ) : String := E.sha256 (seed ++ ":" ++ toString cid)

/-- What a round of the count reports. -/
structure Round where
  round : ℕ
  tallies : List (ℤ × ℚ)
  exhausted : ℚ
  elected : List ℤ := []
  note : Option String := none
  surplusTransferred : Option ℚ := none
  eliminated : List ℤ := []
  deriving DecidableEq, Repr

structure TieBreak where
  round : ℕ
  tied : List ℤ
  eliminated : ℤ
  method : String
  deriving DecidableEq, Repr

/-- The variables of the loop of `ranked`. -/
structure Count where
  ballots : List (List ℤ × ℚ)
  continuing : List ℤ
  elected : List ℤ := []
  eliminated : List ℤ := []
  rounds : List Round := []
  tieBreaks : List TieBreak := []
  deriving DecidableEq, Repr

/-- What stays the same through the loop: the seats, the quota (there is none
for one seat), the first preferences and the lot. -/
structure Rules where
  seats : ℕ
  quota : Option ℚ
  firstPrefs : ℤ → ℕ
  lotKey : ℤ → String

namespace Count

variable (c : Count)

/-- `current_tallies`. -/
def tally (cid : ℤ) : ℚ := Transfer.tally c.continuing c.ballots cid

def exhausted : ℚ := Transfer.weightOf (fun prefs => Transfer.top c.continuing prefs = none) c.ballots

def activeTotal : ℚ := (c.continuing.map c.tally).sum

def snapshot : Round where
  round := c.rounds.length + 1
  tallies := (c.continuing.insertionSort (· ≤ ·)).map fun cid => (cid, roundTo 4 (c.tally cid))
  exhausted := roundTo 4 c.exhausted

/-- `a` comes before `b`: by tally, the greatest first, then by lot. -/
def ahead (R : Rules) (a b : ℤ) : Prop :=
  c.tally b < c.tally a ∨ (c.tally a = c.tally b ∧ R.lotKey a ≤ R.lotKey b)

instance (R : Rules) : DecidableRel (c.ahead R) := fun a b => by unfold ahead; infer_instance

def byTally (R : Rules) (cids : List ℤ) : List ℤ := cids.insertionSort (c.ahead R)

/-- The remaining candidates fill the remaining seats. -/
def fill (R : Rules) : Count :=
  let newly := c.byTally R c.continuing
  { c with
    elected := c.elected ++ newly
    rounds := c.rounds ++
      [{ c.snapshot with
          elected := newly
          note := some "Remaining candidates fill the remaining seats." }] }

/-- The candidates that can be elected: at the quota, or with a majority. -/
def winnersNow (R : Rules) : List ℤ :=
  c.continuing.filter fun cid =>
    match R.quota with
    | some quota => quota ≤ c.tally cid
    | none => c.activeTotal / 2 < c.tally cid

/-- `winner` is elected; its ballots go on with the surplus. -/
def elect (R : Rules) (winner : ℤ) : Count :=
  { c with
    ballots :=
      match R.quota with
      | some quota =>
        Transfer.transfer c.continuing winner
          (if quota < c.tally winner then (c.tally winner - quota) / c.tally winner else 0) c.ballots
      | none => c.ballots
    continuing := c.continuing.erase winner
    elected := c.elected ++ [winner]
    rounds := c.rounds ++
      [{ c.snapshot with
          elected := [winner]
          surplusTransferred :=
            match R.quota with
            | some quota =>
              if quota < c.tally winner then some (roundTo 4 (c.tally winner - quota)) else none
            | none => none }] }

/-- The candidates with the fewest votes. -/
def candidatesLowest : List ℤ :=
  c.continuing.filter fun cid => ∀ d ∈ c.continuing, c.tally cid ≤ c.tally d

/-- Those of them with the fewest first preferences. -/
def narrowed (R : Rules) : List ℤ :=
  c.candidatesLowest.filter fun cid => ∀ d ∈ c.candidatesLowest, R.firstPrefs cid ≤ R.firstPrefs d

/-- `lot_order`. -/
def lotOrder (R : Rules) (cids : List ℤ) : List ℤ := cids.insertionSort fun a b => R.lotKey a ≤ R.lotKey b

/-- `loser` is eliminated; a tie broken for it is recorded. -/
def eliminate (R : Rules) (loser : ℤ) : Count :=
  { c with
    continuing := c.continuing.erase loser
    eliminated := c.eliminated ++ [loser]
    rounds := c.rounds ++ [{ c.snapshot with eliminated := [loser] }]
    tieBreaks :=
      if 1 < c.candidatesLowest.length then
        c.tieBreaks ++
          [{ round := c.snapshot.round
             tied := c.candidatesLowest.insertionSort (· ≤ ·)
             eliminated := loser
             method :=
               if 1 < (c.narrowed R).length then "fewest first preferences, then lot"
               else "fewest first preferences" }]
      else c.tieBreaks }

/-- The candidate a round eliminates. -/
def loser (R : Rules) : Option ℤ :=
  if 1 < c.candidatesLowest.length then (lotOrder R (c.narrowed R)).head? else c.candidatesLowest.head?

/-- A pass of the loop that does not fill the seats. -/
def next (R : Rules) : Count :=
  match c.byTally R (c.winnersNow R) with
  | winner :: _ => c.elect R winner
  | [] =>
    match c.loser R with
    | some loser => c.eliminate R loser
    -- `min` of no candidates: the loop has ended before
    | none => c

/-- The loop has nothing more to do. -/
def ended (R : Rules) : Prop := c.continuing = [] ∨ R.seats ≤ c.elected.length

instance (R : Rules) : Decidable (c.ended R) := by unfold ended; infer_instance

/-- No more candidates continue than there are seats left. -/
def fills (R : Rules) : Prop := c.continuing.length ≤ R.seats - c.elected.length

instance (R : Rules) : Decidable (c.fills R) := by unfold fills; infer_instance

/-- The loop: each pass elects or eliminates one candidate, so as many passes
as candidates continue are enough. -/
def loop (R : Rules) : ℕ → Count → Count
  | 0, c => c
  | n + 1, c =>
    if c.ended R then c
    else if c.fills R then c.fill R
    else loop R n (c.next R)

/-! ### What a pass does -/

/-- The keys of a list that is not empty have a least one. -/
theorem exists_least {α : Type} [LinearOrder α] (f : ℤ → α) {l : List ℤ} (h : l ≠ []) :
    l.filter (fun a => ∀ d ∈ l, f a ≤ f d) ≠ [] := by
  have hne : l.toFinset.Nonempty := List.toFinset_nonempty_iff l |>.mpr h
  obtain ⟨a, ha, hmin⟩ := Finset.exists_min_image l.toFinset f hne
  have hmem : a ∈ l.filter (fun a => ∀ d ∈ l, f a ≤ f d) := by
    rw [List.mem_filter, decide_eq_true_eq]
    exact ⟨List.mem_toFinset.mp ha, fun d hd => hmin d (List.mem_toFinset.mpr hd)⟩
  exact List.ne_nil_of_mem hmem

variable {c} {R : Rules}

theorem mem_byTally {cids : List ℤ} {x : ℤ} : x ∈ c.byTally R cids ↔ x ∈ cids :=
  List.mem_insertionSort _

theorem byTally_eq_nil {cids : List ℤ} : c.byTally R cids = [] ↔ cids = [] := by
  rw [← List.length_eq_zero_iff, ← List.length_eq_zero_iff, byTally, List.length_insertionSort]

instance : Std.Total (c.ahead R) where
  total a b := by
    unfold ahead
    rcases lt_trichotomy (c.tally a) (c.tally b) with h | h | h
    · exact Or.inr (Or.inl h)
    · rcases String.le_total (R.lotKey a) (R.lotKey b) with hl | hl
      · exact Or.inl (Or.inr ⟨h, hl⟩)
      · exact Or.inr (Or.inr ⟨h.symm, hl⟩)
    · exact Or.inl (Or.inl h)

instance : IsTrans ℤ (c.ahead R) where
  trans a b d hab hbd := by
    unfold ahead at *
    rcases hab with hab | ⟨hab, hl⟩
    · rcases hbd with hbd | ⟨hbd, -⟩
      · exact Or.inl (hbd.trans hab)
      · exact Or.inl (hbd ▸ hab)
    · rcases hbd with hbd | ⟨hbd, hl'⟩
      · exact Or.inl (hab ▸ hbd)
      · exact Or.inr ⟨hab.trans hbd, String.le_trans hl hl'⟩

/-- The first by tally is ahead of the others. -/
theorem head_ahead {cids : List ℤ} {w x : ℤ} (hw : (c.byTally R cids).head? = some w) (hx : x ∈ cids) :
    x = w ∨ c.ahead R w x := by
  have hsorted := List.pairwise_insertionSort (c.ahead R) cids
  have hmem : x ∈ c.byTally R cids := mem_byTally.mpr hx
  change (c.byTally R cids).Pairwise _ at hsorted
  obtain ⟨rest, hrest⟩ := List.head?_eq_some_iff.mp hw
  rw [hrest] at hsorted hmem
  rcases List.mem_cons.mp hmem with heq | hmem
  · exact Or.inl heq
  · exact Or.inr (List.rel_of_pairwise_cons hsorted hmem)

theorem winnersNow_sub {x : ℤ} (h : x ∈ c.winnersNow R) : x ∈ c.continuing := (List.mem_filter.mp h).1

theorem candidatesLowest_sub {x : ℤ} (h : x ∈ c.candidatesLowest) : x ∈ c.continuing := (List.mem_filter.mp h).1

theorem candidatesLowest_ne_nil (h : c.continuing ≠ []) : c.candidatesLowest ≠ [] := exists_least c.tally h

theorem narrowed_ne_nil (h : c.continuing ≠ []) : c.narrowed R ≠ [] :=
  exists_least R.firstPrefs (candidatesLowest_ne_nil h)

/-- While candidates continue, one of the lowest can be eliminated. -/
theorem exists_loser (h : c.continuing ≠ []) : ∃ x ∈ c.candidatesLowest, c.loser R = some x := by
  unfold loser
  split
  · rcases hl : lotOrder R (c.narrowed R) with _ | ⟨x, rest⟩
    · have hlen := congrArg List.length hl
      rw [lotOrder, List.length_insertionSort] at hlen
      exact absurd (List.length_eq_zero_iff.mp hlen) (narrowed_ne_nil h)
    · have hx : x ∈ c.narrowed R := by
        rw [← List.mem_insertionSort (fun a b => R.lotKey a ≤ R.lotKey b), ← lotOrder, hl]
        exact List.mem_cons_self
      exact ⟨x, (List.mem_filter.mp hx).1, rfl⟩
  · rcases hl : c.candidatesLowest with _ | ⟨x, rest⟩
    · exact absurd hl (candidatesLowest_ne_nil h)
    · exact ⟨x, List.mem_cons_self, rfl⟩

/-- **What a pass does**: it elects one of those who can be elected, or, if
there is none, eliminates one of the lowest. -/
theorem next_cases (h : c.continuing ≠ []) :
    (∃ w ∈ c.winnersNow R, (c.byTally R (c.winnersNow R)).head? = some w ∧ c.next R = c.elect R w) ∨
    (c.winnersNow R = [] ∧ ∃ x ∈ c.candidatesLowest, c.loser R = some x ∧ c.next R = c.eliminate R x) := by
  rcases hw : c.byTally R (c.winnersNow R) with _ | ⟨w, rest⟩
  · obtain ⟨x, hx, hloser⟩ := exists_loser (R := R) h
    refine Or.inr ⟨byTally_eq_nil.mp hw, x, hx, hloser, ?_⟩
    unfold next
    rw [hw, hloser]
  · have hmem : w ∈ c.winnersNow R := by
      rw [← mem_byTally (R := R) (c := c), hw]
      exact List.mem_cons_self
    refine Or.inl ⟨w, hmem, rfl, ?_⟩
    unfold next
    rw [hw]

theorem next_continuing (h : c.continuing ≠ []) :
    (c.next R).continuing.length + 1 = c.continuing.length := by
  have herase : ∀ x ∈ c.continuing, (c.continuing.erase x).length + 1 = c.continuing.length := fun x hx => by
    have hpos := List.length_pos_of_mem hx
    rw [List.length_erase_of_mem hx]
    omega
  rcases next_cases (R := R) h with ⟨w, hw, -, hnext⟩ | ⟨-, x, hx, -, hnext⟩
  · rw [hnext]
    exact herase w (winnersNow_sub hw)
  · rw [hnext]
    exact herase x (candidatesLowest_sub hx)

/-- What the passes keep holds when the loop ends, or is filled up. -/
theorem loop_induct {P Q : Count → Prop} (hnext : ∀ c, P c → ¬ c.ended R → ¬ c.fills R → P (c.next R))
    (hended : ∀ c, P c → c.ended R → Q c) (hfill : ∀ c, P c → ¬ c.ended R → c.fills R → Q (c.fill R)) :
    ∀ (n : ℕ) (c : Count), c.continuing.length ≤ n → P c → Q (loop R n c) := by
  intro n
  induction n with
  | zero =>
    intro c hn h
    exact hended c h (Or.inl (List.length_eq_zero_iff.mp (Nat.le_zero.mp hn)))
  | succ n ih =>
    intro c hn h
    unfold loop
    by_cases he : c.ended R
    · rw [if_pos he]
      exact hended c h he
    · rw [if_neg he]
      by_cases hf : c.fills R
      · rw [if_pos hf]
        exact hfill c h he hf
      · rw [if_neg hf]
        have hne : c.continuing ≠ [] := fun hnil => he (Or.inl hnil)
        have hlen := next_continuing (R := R) hne
        exact ih _ (by omega) (hnext c h he hf)

end Count

structure RankedRow where
  candidateId : ℤ
  name : String
  votes : ℕ
  percentage : ℚ
  rank : ℕ
  elected : Bool
  deriving DecidableEq, Repr

structure Ranked where
  method : String
  seats : ℕ
  validBallots : ℕ
  abstentions : ℕ
  totalVotes : ℕ
  quota : Option ℚ
  firstPreferences : List (ℤ × ℕ)
  rounds : List Round
  candidates : List RankedRow
  winners : List ℤ
  ties : List ℤ
  tieBreaks : List TieBreak
  deriving DecidableEq, Repr

/-- The preferences of a selection among the candidates. -/
def prefsOf (hopeful : List ℤ) (selection : Option (List ℤ)) : List ℤ :=
  (selection.getD []).filter fun cid => cid ∈ hopeful

/-- The ballots that count: those with a preference. -/
def validPrefs (selections : List (Option (List ℤ))) (hopeful : List ℤ) : List (List ℤ) :=
  (selections.map (prefsOf hopeful)).filter fun prefs => prefs ≠ []

/-- The seats there are candidates for. -/
def effectiveSeats (seats : ℕ) (hopeful : List ℤ) : ℕ :=
  if hopeful = [] then 0 else max 1 (min seats hopeful.length)

def rankedRules (lotKey : ℤ → String) (valid : List (List ℤ)) (seats : ℕ) : Rules where
  seats := seats
  quota := if 1 < seats then some (valid.length / (seats + 1)) else none
  firstPrefs := fun cid => (valid.filter fun prefs => prefs.head? = some cid).length
  lotKey := lotKey

def Count.start (valid : List (List ℤ)) (hopeful : List ℤ) : Count where
  ballots := valid.map fun prefs => (prefs, 1)
  continuing := hopeful

/-- The name of a candidate; of two with one id, the later. -/
def nameOf (candidates : List Candidate) (cid : ℤ) : String :=
  ((candidates.reverse.find? fun c => c.id = cid).map (·.name)).getD ""

/-- The order of the rows: elected, continuing by tally, eliminated. -/
def Count.order (c : Count) : List ℤ :=
  c.elected ++ c.continuing.insertionSort (fun a b => c.tally b ≤ c.tally a) ++ c.eliminated.reverse

/-- The count of `ranked`. -/
def countRanked (selections : List (Option (List ℤ))) (candidates : List Candidate) (seats : ℕ)
    (lotKey : ℤ → String) : Count :=
  let hopeful := distinctIds candidates
  let valid := validPrefs selections hopeful
  Count.loop (rankedRules lotKey valid (effectiveSeats seats hopeful)) hopeful.length (Count.start valid hopeful)

/-- `ranked`: instant runoff for one seat, single transferable vote for more;
the lot is given by the key of each candidate. -/
def ranked (selections : List (Option (List ℤ))) (candidates : List Candidate) (seats : ℕ)
    (lotKey : ℤ → String) : Ranked :=
  let hopeful := distinctIds candidates
  let valid := validPrefs selections hopeful
  let R := rankedRules lotKey valid (effectiveSeats seats hopeful)
  let c := countRanked selections candidates seats lotKey
  { method := if 1 < R.seats then "stv" else "irv"
    seats := R.seats
    validBallots := valid.length
    abstentions := selections.length - valid.length
    totalVotes := valid.length
    quota := R.quota.map (roundTo 4)
    firstPreferences := (hopeful.insertionSort (· ≤ ·)).map fun cid => (cid, R.firstPrefs cid)
    rounds := c.rounds
    candidates := c.order.mapIdx fun i cid =>
      ⟨cid, nameOf candidates cid, R.firstPrefs cid, pct (R.firstPrefs cid) valid.length, i + 1, cid ∈ c.elected⟩
    winners := c.elected
    ties := []
    tieBreaks := c.tieBreaks }

/-! ### One position -/

/-- A position specification. -/
structure PositionSpec where
  id : ℕ
  name : String
  ballotType : BallotType
  seats : ℕ
  maxScore : ℕ
  referendumThreshold : ℚ
  candidates : List Candidate
  constituencyId : Option ℕ

/-- `for x in value`. -/
def iterate : Json → Except Failure (List Json)
  | .arr xs => .ok xs
  | .obj kvs => .ok (kvs.map fun kv => .str kv.1)
  | .str s => .ok (s.toList.map fun c => .str (String.ofList [c]))
  | _ => .error (.crash "TypeError")

/-- `cid in counts`: the candidate id a value is, if it can be looked up. -/
def lookUp : Json → Except Failure (Option ℤ)
  | .arr _ | .obj _ => .error (.crash "TypeError")
  | j => .ok j.number?

def lookUpAll : List Json → Except Failure (List ℤ)
  | [] => .ok []
  | x :: xs =>
    match lookUp x, lookUpAll xs with
    | .ok i, .ok is => .ok (i.toList ++ is)
    | .error e, _ => .error e
    | .ok _, .error e => .error e

/-- The candidate ids a selection names, in its order; nothing for an abstention. -/
def choicesOf (selection : Json) : Except Failure (Option (List ℤ)) :=
  if selection.falsy then .ok none
  else
    match iterate selection with
    | .ok xs => (lookUpAll xs).map some
    | .error e => .error e

def scoreItems (E : Env) (ids : List ℤ) : List (String × Json) → Except Failure (List (ℤ × ℤ))
  | [] => .ok []
  | (key, value) :: rest =>
    match Ballot.pyInt E (.str key) with
    | .error _ => .error (.crash "ValueError")
    | .ok cid =>
      if cid ∈ ids then
        match Ballot.pyInt E value, scoreItems E ids rest with
        | .ok n, .ok ns => .ok ((cid, n) :: ns)
        | .error _, _ => .error (.crash "TypeError")
        | .ok _, .error e => .error e
      else scoreItems E ids rest

/-- The scores of a selection. -/
def scoresOf (E : Env) (ids : List ℤ) (selection : Json) : Except Failure (Option (List (ℤ × ℤ))) :=
  if selection.falsy then .ok none
  else
    match selection with
    | .obj kvs => (scoreItems E ids kvs).map some
    | _ => .error (.crash "AttributeError")

def readAll {α : Type} (f : Json → Except Failure α) : List Json → Except Failure (List α)
  | [] => .ok []
  | x :: xs =>
    match f x, readAll f xs with
    | .ok y, .ok ys => .ok (y :: ys)
    | .error e, _ => .error e
    | .ok _, .error e => .error e

inductive Outcome
  | plurality (r : Plurality)
  | score (r : Score)
  | referendum (r : Referendum)
  | ranked (r : Ranked)
  deriving DecidableEq, Repr

/-- The result of one position. -/
structure PositionTally where
  positionId : ℕ
  position : String
  ballotType : BallotType
  outcome : Outcome
  deriving DecidableEq, Repr

def tallyOutcome (E : Env) (spec : PositionSpec) (selections : List Json) (seed : String) :
    Except Failure Outcome :=
  let seats := if spec.seats = 0 then 1 else spec.seats
  match spec.ballotType with
  | .REFERENDUM => .ok (.referendum (referendum selections spec.referendumThreshold))
  | .RANKED =>
    (readAll choicesOf selections).map fun s => .ranked (ranked s spec.candidates seats (lotKey E seed))
  | .SCORE =>
    (readAll (scoresOf E (spec.candidates.map (·.id))) selections).map fun s =>
      .score (score E s spec.candidates seats spec.maxScore)
  | .SINGLE => (readAll choicesOf selections).map fun s => .plurality (plurality E s spec.candidates 1)
  | _ => (readAll choicesOf selections).map fun s => .plurality (plurality E s spec.candidates seats)

/-- `tally_position`. -/
def tallyPosition (E : Env) (spec : PositionSpec) (selections : List Json) (seed : String) :
    Except Failure PositionTally :=
  (tallyOutcome E spec selections seed).map fun outcome => ⟨spec.id, spec.name, spec.ballotType, outcome⟩

end Tally
end FlexyVotes
