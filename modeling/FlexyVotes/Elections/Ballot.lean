/-
# The ballot

A submitted ballot is an object from position ids to selections; what a
selection may be depends on the position's ballot type. `validateBallot`
accepts the whole ballot, in its normal form, or refuses it: it never keeps a
part of it.
-/
import FlexyVotes.Models

namespace FlexyVotes

namespace Ballot

/-- `str` of a JSON value. -/
def pyStr (E : Env) : Json → String
  | .null => "None"
  | .bool true => "True"
  | .bool false => "False"
  | .int n => toString n
  | .float (.finite _ r) => r
  | .float .nan => "nan"
  | .float (.inf false) => "inf"
  | .float (.inf true) => "-inf"
  | .str s => s
  | j => E.repr j

/-- What `int` makes of a value that is no number it can take. -/
inductive IntError
  /-- `TypeError` or `ValueError`. -/
  | invalid
  /-- `OverflowError`. -/
  | overflow

/-- `int` of a JSON value. -/
def pyInt (E : Env) : Json → Except IntError ℤ
  | .bool b => .ok (if b then 1 else 0)
  | .int n => .ok n
  | .float (.finite n _) => .ok n
  | .float .nan => .error .invalid
  | .float (.inf _) => .error .overflow
  | .str s => match E.parseInt s with
    | some n => .ok n
    | none => .error .invalid
  | .null | .arr _ | .obj _ => .error .invalid

def REFERENDUM_OPTIONS : List String := ["YES", "NO"]

/-- A position with its candidates. -/
structure Position where
  pk : ℕ
  row : CategoryRow
  candidates : List (ℕ × CandidateRow)

/-- `positions_for`: the categories of one read, the candidates of the next. -/
def positionsFor (categories : List (ℕ × CategoryRow)) (db : Database) : List Position :=
  categories.map fun c => ⟨c.1, c.2, candidatesOf db c.1⟩

def activeCandidates (p : Position) : List (ℕ × CandidateRow) :=
  p.candidates.filter fun c => c.2.status = .ACTIVE

/-- `effective_limits`: the least and the greatest number of selections. -/
def effectiveLimits (p : Position) : ℕ × ℕ :=
  let candidates := (activeCandidates p).length
  match p.row.ballotType with
  | .SINGLE => (min p.row.minSelect 1, 1)
  | .APPROVAL => (min p.row.minSelect (max candidates 1), max candidates 1)
  | .REFERENDUM => (1, 1)
  | .SCORE => (p.row.minSelect, max candidates 1)
  | .FPTP =>
    let maximum := max p.row.maxSelect p.row.seats
    (min p.row.minSelect maximum, maximum)
  | .MULTIPLE | .RANKED => (p.row.minSelect, max p.row.maxSelect p.row.minSelect)

/-- `None` or the empty string. -/
def isBlank : Json → Bool
  | .null => true
  | .str s => s = ""
  | _ => false

def asList : Json → List Json
  | .arr xs => xs.filter fun x => !isBlank x
  | j => if isBlank j then [] else [j]

def quoted (p : Position) : String := "\"" ++ p.row.name ++ "\""

/-- A failure of `int`, reported as `message` where the code catches it. -/
def intFailure (message : String) : IntError → Failure
  | .invalid => .ballot message
  | .overflow => .crash "OverflowError"

def toInts (E : Env) (message : String) : List Json → Except Failure (List ℤ)
  | [] => .ok []
  | v :: vs =>
    match pyInt E v with
    | .error e => .error (intFailure message e)
    | .ok n => (toInts E message vs).map (n :: ·)

def validIds (p : Position) : List ℤ := (activeCandidates p).map fun c => (c.1 : ℤ)

/-- `_to_ids`: distinct ids of active candidates. -/
def toIds (E : Env) (p : Position) (values : List Json) : Except Failure (List ℤ) :=
  match toInts E ("Invalid selection for " ++ quoted p ++ ".") values with
  | .error e => .error e
  | .ok ids =>
    if ¬ ids.Nodup then
      .error (.ballot ("The same candidate was selected more than once for " ++ quoted p ++ "."))
    else if ¬ ∀ i ∈ ids, i ∈ validIds p then
      .error (.ballot ("Invalid candidate selected for " ++ quoted p ++ "."))
    else .ok ids

/-- `scores[str(cid)] = score`: a second score of a candidate replaces the first. -/
def setScore (cid score : ℤ) : List (ℤ × ℤ) → List (ℤ × ℤ)
  | [] => [(cid, score)]
  | (c, s) :: rest => if c = cid then (c, score) :: rest else (c, s) :: setScore cid score rest

/-- The scores of a SCORE selection, checked one after the other. -/
def readScores (E : Env) (p : Position) : List (String × Json) → List (ℤ × ℤ) →
    Except Failure (List (ℤ × ℤ))
  | [], scores => .ok scores
  | (key, value) :: rest, scores =>
    if isBlank value then readScores E p rest scores
    else
      match pyInt E (.str key), pyInt E value with
      | .ok cid, .ok score =>
        if cid ∉ validIds p then
          .error (.ballot ("Invalid candidate scored for " ++ quoted p ++ "."))
        else if ¬ (0 ≤ score ∧ score ≤ p.row.maxScore) then
          .error (.ballot ("Scores for " ++ quoted p ++ " must be between 0 and " ++
            toString p.row.maxScore ++ "."))
        else readScores E p rest (setScore cid score scores)
      | .error e, _ => .error (intFailure ("Invalid score for " ++ quoted p ++ ".") e)
      | .ok _, .error e => .error (intFailure ("Invalid score for " ++ quoted p ++ ".") e)

/-- The normal form of scores: by candidate id. -/
def scoresJson (scores : List (ℤ × ℤ)) : Json :=
  .obj ((scores.insertionSort fun a b => a.1 ≤ b.1).map fun s => (toString s.1, .int s.2))

/-- An abstention, where the position allows it. -/
def abstain (p : Position) (message : String) : Except Failure Json :=
  if p.row.allowAbstain then .ok .null else .error (.ballot message)

/-- `normalize_selection` of a REFERENDUM position. -/
def normalizeReferendum (E : Env) (p : Position) (raw : Json) : Except Failure Json :=
  match asList raw with
  | [] => abstain p ("Please vote YES or NO on " ++ quoted p ++ ".")
  | [v] =>
    if E.upper (pyStr E v) ∈ REFERENDUM_OPTIONS then .ok (.str (E.upper (pyStr E v)))
    else .error (.ballot ("Invalid answer for " ++ quoted p ++ "."))
  | _ => .error (.ballot ("Invalid answer for " ++ quoted p ++ "."))

/-- `normalize_selection` of a SCORE position. -/
def normalizeScore (E : Env) (p : Position) (raw : Json) : Except Failure Json :=
  let nothing := "Please score the candidates for " ++ quoted p ++ "."
  if isBlank raw then abstain p nothing
  else
    match raw with
    | .obj [] => abstain p nothing
    | .obj items =>
      match readScores E p items [] with
      | .error e => .error e
      | .ok [] => abstain p nothing
      | .ok scores =>
        if scores.length < (effectiveLimits p).1 then
          .error (.ballot ("Score at least " ++ toString (effectiveLimits p).1 ++ " candidate(s) for " ++
            quoted p ++ "."))
        else .ok (scoresJson scores)
    | _ => .error (.ballot ("Invalid scores for " ++ quoted p ++ "."))

/-- `normalize_selection` of a position whose selection is a list of candidates. -/
def normalizeChoices (E : Env) (p : Position) (raw : Json) : Except Failure Json :=
  match asList raw with
  | [] => abstain p ("You must make a selection for " ++ quoted p ++ ".")
  | values =>
    match toIds E p values with
    | .error e => .error e
    | .ok ids =>
      if (effectiveLimits p).2 < ids.length then
        .error (.ballot (quoted p ++ " allows at most " ++ toString (effectiveLimits p).2 ++
          " selection(s)."))
      else if ids.length < (effectiveLimits p).1 then
        .error (.ballot (quoted p ++ " requires at least " ++ toString (effectiveLimits p).1 ++
          " selection(s)."))
      else if p.row.ballotType = .RANKED then .ok (.arr (ids.map .int))
      else .ok (.arr ((ids.insertionSort (· ≤ ·)).map .int))

/-- `normalize_selection`: the normal form of one selection, `null` for an
abstention. -/
def normalizeSelection (E : Env) (p : Position) (raw : Json) : Except Failure Json :=
  match p.row.ballotType with
  | .REFERENDUM => normalizeReferendum E p raw
  | .SCORE => normalizeScore E p raw
  | _ => normalizeChoices E p raw

/-- The selections of the positions of the style, in ballot order. -/
def selectionsOf (E : Env) (style : List ℕ) (payload : List (String × Json)) :
    List Position → Except Failure (List (String × Json))
  | [] => .ok []
  | p :: ps =>
    if p.pk ∉ style then selectionsOf E style payload ps
    else
      match normalizeSelection E p ((Json.get? payload (toString p.pk)).getD .null) with
      | .error e => .error e
      | .ok s => (selectionsOf E style payload ps).map ((toString p.pk, s) :: ·)

/-- The payload as an object that names positions of the style only. -/
def ballotItems (style : List ℕ) : Json → Except Failure (List (String × Json))
  | .obj items =>
    if ∀ item ∈ items, item.1 ∈ style.map (fun p => toString p) then .ok items
    else .error (.ballot "The ballot contains positions you are not eligible to vote on.")
  | _ => .error (.ballot "Malformed ballot.")

/-- `validate_ballot`, once the positions of the election are read. -/
def validateBallot (E : Env) (positions : List Position) (style : List ℕ) (payload : Json) :
    Except Failure (List (String × Json)) :=
  match ballotItems style payload with
  | .error e => .error e
  | .ok items => selectionsOf E style items positions

end Ballot

end FlexyVotes
