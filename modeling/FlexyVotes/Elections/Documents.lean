/-
# The document of a result

What `compute_institutional_tally` returns is kept and hashed as a JSON
document. `document` is that document, `resultHash` leaves the time it was
made out of it (`hash_document`), and `_differences` finds in it the positions
of `documentOf` (`readDocument_document`).

`F` is how a float shows.

Key definitions: `document`, `readDocument`, `reported`, `counting`.
Key theorems: `hash_document`, `readDocument_document`, `reported_documents`.
-/
import FlexyVotes.Elections.Differences

namespace FlexyVotes
namespace Documents

open Transactions Tally Counting Differences Configuration

/-! ### The document -/

section Document

variable (E : Env) (F : ℚ → PyFloat)

def decimal (x : ℚ) : Json := .float (F x)

def ints (ids : List ℤ) : Json := .arr (ids.map .int)

def strs (texts : List String) : Json := .arr (texts.map .str)

def candidateJson (r : Tally.CandidateRow × ℚ) : Json :=
  .obj [("candidate_id", .int r.1.candidateId), ("name", .str r.1.name), ("votes", .int r.1.votes),
    ("percentage", decimal F r.1.percentage), ("rank", .nat r.1.rank), ("percentage_of_ballots", decimal F r.2)]

def scoreJson (r : ScoreRow) : Json :=
  .obj [("candidate_id", .int r.candidateId), ("name", .str r.name), ("votes", .int r.votes),
    ("average", decimal F r.average), ("percentage", decimal F r.percentage), ("rank", .nat r.rank),
    ("ballots_scoring", .nat r.ballotsScoring)]

def rankedJson (r : RankedRow) : Json :=
  .obj [("candidate_id", .int r.candidateId), ("name", .str r.name), ("votes", .int r.votes),
    ("percentage", decimal F r.percentage), ("rank", .nat r.rank), ("elected", .bool r.elected)]

def choiceJson (id name : String) (votes : ℕ) (percentage : ℚ) (rank : ℕ) : Json :=
  .obj [("candidate_id", .str id), ("name", .str name), ("votes", .int votes), ("percentage", decimal F percentage),
    ("rank", .nat rank)]

/-- A round of a ranked count; the keys a round may lack come last. -/
def roundJson (r : Round) : Json :=
  .obj ([("round", .nat r.round), ("tallies", .obj (r.tallies.map fun p => (toString p.1, decimal F p.2))),
    ("exhausted", decimal F r.exhausted)] ++
    (if r.elected = [] then [] else [("elected", ints r.elected)]) ++
    (r.note.toList.map fun note => ("note", .str note)) ++
    (r.surplusTransferred.toList.map fun x => ("surplus_transferred", decimal F x)) ++
    (if r.eliminated = [] then [] else [("eliminated", ints r.eliminated)]))

def tieBreakJson (t : TieBreak) : Json :=
  .obj [("round", .nat t.round), ("tied", ints t.tied), ("eliminated", .int t.eliminated), ("method", .str t.method)]

/-- What the counting algorithms return. -/
def outcomeFields : Outcome → List (String × Json)
  | .plurality r =>
    [("method", .str "plurality"), ("seats", .nat r.seats), ("valid_ballots", .nat r.validBallots),
      ("abstentions", .nat r.abstentions), ("total_votes", .int r.totalVotes),
      ("candidates", .arr (r.candidates.map (candidateJson F))), ("winners", ints r.winners), ("ties", ints r.ties)]
  | .score r =>
    [("method", .str "score"), ("seats", .nat r.seats), ("max_score", .nat r.maxScore),
      ("valid_ballots", .nat r.validBallots), ("abstentions", .nat r.abstentions), ("total_votes", .int r.totalVotes),
      ("candidates", .arr (r.candidates.map (scoreJson F))), ("winners", ints r.winners), ("ties", ints r.ties)]
  | .referendum r =>
    [("method", .str "referendum"), ("valid_ballots", .nat r.validBallots), ("abstentions", .nat r.abstentions),
      ("total_votes", .nat r.validBallots), ("yes", .nat r.yes), ("no", .nat r.no),
      ("yes_percentage", decimal F r.yesPercentage), ("no_percentage", decimal F r.noPercentage),
      ("threshold", decimal F r.threshold), ("passed", .bool r.passed),
      ("candidates", .arr [choiceJson F "YES" "Yes" r.yes r.yesPercentage r.yesRank,
        choiceJson F "NO" "No" r.no r.noPercentage r.noRank]),
      ("winners", strs r.winners), ("ties", strs r.ties)]
  | .ranked r =>
    [("method", .str r.method), ("seats", .nat r.seats), ("valid_ballots", .nat r.validBallots),
      ("abstentions", .nat r.abstentions), ("total_votes", .nat r.totalVotes),
      ("quota", Json.opt (decimal F) r.quota),
      ("first_preferences", .obj (r.firstPreferences.map fun p => (toString p.1, .nat p.2))),
      ("rounds", .arr (r.rounds.map (roundJson F))), ("candidates", .arr (r.candidates.map (rankedJson F))),
      ("winners", ints r.winners), ("ties", ints r.ties), ("tie_breaks", .arr (r.tieBreaks.map tieBreakJson))]

/-- What `tally_position` returns. -/
def positionFields (r : PositionTally) : List (String × Json) :=
  outcomeFields F r.outcome ++
    [("position_id", .nat r.positionId), ("position", .str r.position), ("ballot_type", .str r.ballotType.value)]

def constituencyJson (c : ConstituencyTally) : Json :=
  .obj ([("constituency_id", .nat c.constituencyId), ("name", .str c.name), ("ballots", .nat c.ballots)] ++
    match c.positions with
    | none => [("suppressed", .bool true)]
    | some positions => [("positions", .arr (positions.map fun r => .obj (positionFields F r)))])

/-- What `compute_institutional_tally` returns, as it is kept. -/
def document (t : InstitutionalTally) : List (String × Json) :=
  [("election", .obj [("id", .nat t.id), ("title", .str t.title), ("mode", .str "institutional"),
      ("organization", .str t.organization)]),
    ("positions", .arr (t.positions.map fun p => .obj (positionFields F p.1 ++ [("invalid_ballots", .nat p.2)]))),
    ("constituencies", .arr (t.constituencies.map (constituencyJson F))),
    ("turnout", .obj [("eligible_voters", .nat t.turnout.eligibleVoters), ("votes_cast", .nat t.turnout.votesCast),
      ("turnout_percentage", decimal F t.turnout.turnoutPercentage), ("ballots_counted", .nat t.turnout.ballotsCounted),
      ("invalid_ballots", .nat t.turnout.invalidBallots), ("legacy_votes", .nat t.turnout.legacyVotes)]),
    ("bulletin", .obj [("ballots", .nat t.bulletinBallots), ("root", .str t.bulletinRoot)]),
    ("generated_at", .str (E.isoformat t.generatedAt))]

/-- **The hash leaves the time out.** -/
theorem hash_document (t : InstitutionalTally) (now : Time) :
    Results.resultHash E (document E F { t with generatedAt := now }) = Results.resultHash E (document E F t) := by
  unfold Results.resultHash document
  rfl

end Document

/-! ### What is compared of it -/

def readId : Json → Option DocId
  | .null => some .none
  | .int n => some (.int n)
  | .str s => some (.str s)
  | _ => none

def readText : Json → Option String
  | .str s => some s
  | _ => none

def readInt : Json → Option ℤ
  | .int n => some n
  | _ => none

def readList {α : Type} (f : Json → Option α) : Json → Option (List α)
  | .arr xs => xs.mapM f
  | _ => none

def readCandidate : Json → Option CandidateDoc
  | .obj kvs => do
    let id ← (Json.get? kvs "candidate_id").bind readId
    let name ← (Json.get? kvs "name").bind readText
    let votes ← (Json.get? kvs "votes").bind readInt
    some ⟨id, name, votes⟩
  | _ => none

def readPosition : Json → Option PositionDoc
  | .obj kvs => do
    let id ← (Json.get? kvs "position_id").bind readId
    let position ← (Json.get? kvs "position").bind readText
    let candidates ← (Json.get? kvs "candidates").bind (readList readCandidate)
    let winners ← (Json.get? kvs "winners").bind (readList readId)
    some ⟨id, position, candidates, winners⟩
  | _ => none

/-- The positions of a document, as `_differences` goes through them. -/
def readDocument : Json → Option ResultDocument
  | .obj kvs => (Json.get? kvs "positions").bind (readList readPosition)
  | _ => none

/-- An entry of the report. -/
def differenceJson : Difference → Json
  | .missing position => .obj [("position", .str position), ("issue", .str "missing in official result")]
  | .votes position candidate official recount =>
    .obj [("position", .str position), ("candidate", .str candidate), ("official", Json.opt .int official),
      ("recount", .int recount)]
  | .winners position => .obj [("position", .str position), ("issue", .str "different winners")]

/-- `_differences` of two documents, if they are documents of results. -/
def reported (official recount : Json) : Option (List Json) :=
  match readDocument official, readDocument recount with
  | some o, some r => some ((differences o r).map differenceJson)
  | _, _ => none

section Read

variable {E : Env} {F : ℚ → PyFloat}

theorem mapM_map {α β γ : Type} {f : α → β} {g : β → Option γ} {h : α → γ} {xs : List α}
    (hg : ∀ x ∈ xs, g (f x) = some (h x)) : (xs.map f).mapM g = some (xs.map h) := by
  induction xs with
  | nil => rfl
  | cons x xs ih =>
    have hrest := ih fun y hy => hg y (List.mem_cons_of_mem _ hy)
    rw [List.map_cons, List.mapM_cons, hg x List.mem_cons_self, hrest]
    rfl

theorem readList_map {α γ : Type} {f : α → Json} {g : Json → Option γ} {h : α → γ} {xs : List α}
    (hg : ∀ x ∈ xs, g (f x) = some (h x)) : readList g (.arr (xs.map f)) = some (xs.map h) := mapM_map hg

theorem readList_ints (ids : List ℤ) : readList readId (ints ids) = some (ids.map .int) :=
  readList_map fun _ _ => rfl

theorem readList_strs (texts : List String) : readList readId (strs texts) = some (texts.map .str) :=
  readList_map fun _ _ => rfl

/-- The candidates and the winners of an outcome are found in its fields. -/
theorem outcome_read (o : Outcome) (rest : List (String × Json)) :
    ((Json.get? (outcomeFields F o ++ rest) "candidates").bind (readList readCandidate) = some (candidateDocs o) ∧
      (Json.get? (outcomeFields F o ++ rest) "winners").bind (readList readId) = some (winnerDocs o)) ∧
    Json.get? (outcomeFields F o ++ rest) "position_id" = Json.get? rest "position_id" ∧
    Json.get? (outcomeFields F o ++ rest) "position" = Json.get? rest "position" := by
  cases o with
  | plurality r =>
    have hcandidates : readList readCandidate (.arr (r.candidates.map (candidateJson F))) =
        some (candidateDocs (.plurality r)) := readList_map fun _ _ => rfl
    exact ⟨⟨hcandidates, readList_ints _⟩, rfl, rfl⟩
  | score r =>
    have hcandidates : readList readCandidate (.arr (r.candidates.map (scoreJson F))) =
        some (candidateDocs (.score r)) := readList_map fun _ _ => rfl
    exact ⟨⟨hcandidates, readList_ints _⟩, rfl, rfl⟩
  | referendum r => exact ⟨⟨rfl, readList_strs _⟩, rfl, rfl⟩
  | ranked r =>
    have hcandidates : readList readCandidate (.arr (r.candidates.map (rankedJson F))) =
        some (candidateDocs (.ranked r)) := readList_map fun _ _ => rfl
    exact ⟨⟨hcandidates, readList_ints _⟩, rfl, rfl⟩

theorem readPosition_position (r : PositionTally) (invalid : ℕ) :
    readPosition (.obj (positionFields F r ++ [("invalid_ballots", .nat invalid)])) = some (positionDoc r) := by
  obtain ⟨⟨hcandidates, hwinners⟩, hid, hposition⟩ := outcome_read (F := F) r.outcome
    ([("position_id", .nat r.positionId), ("position", .str r.position), ("ballot_type", .str r.ballotType.value)] ++
      [("invalid_ballots", .nat invalid)])
  unfold readPosition positionFields
  rw [List.append_assoc]
  dsimp only
  rw [hcandidates, hwinners, hid, hposition]
  rfl

/-- **What is compared of a count's document** are the positions of the count. -/
theorem readDocument_document (t : InstitutionalTally) :
    readDocument (.obj (document E F t)) = some (documentOf t) :=
  readList_map fun p _ => readPosition_position p.1 p.2

/-- Documents of counts are compared by their positions. -/
theorem reported_documents (official recount : InstitutionalTally) :
    reported (.obj (document E F official)) (.obj (document E F recount)) =
      some ((differences (documentOf official) (documentOf recount)).map differenceJson) := by
  unfold reported
  rw [readDocument_document, readDocument_document]

end Read

/-! ### The counts of a tally -/

/-- The fields a result keeps of a count. -/
def kept (E : Env) (F : ℚ → PyFloat) (t : InstitutionalTally) : Results.Tally where
  data := document E F t
  bulletinRoot := t.bulletinRoot
  ballotsCounted := t.turnout.ballotsCounted
  eligibleVoters := t.turnout.eligibleVoters
  votesCast := t.turnout.votesCast

/-- The counts that `run_tally` makes at `now`, where the ballots can be
counted; `paid` counts the elections with paid votes. -/
def counting (E : Env) (F : ℚ → PyFloat) (paid : Database → ℕ → Results.Tally) (now : Time) : Results.Counting where
  institutional := fun db e key ballots =>
    match db.row (.event e) with
    | none => paid db e
    | some ev =>
      match computeInstitutionalTally E db e ev key ballots now with
      | .error _ => paid db e
      | .ok t => kept E F t
  paid := paid
  differences := reported

end Documents
end FlexyVotes
