/-
# Eligibility

Who may vote in an election, and for which of its positions: the status of
the roll entry, the rules of the election and of each position, and the
constituency a position is for.
-/
import FlexyVotes.Elections.Ballot

namespace FlexyVotes
namespace Eligibility

/-- The materialized path of a constituency. -/
def pathOf (db : Database) (c : Option ℕ) : Option String :=
  c.bind fun pk => (db.row (.constituency pk)).map (·.path)

/-- `Constituency.is_within`, by the paths. -/
def isWithin (own ancestor : Option String) : Bool :=
  match own, ancestor with
  | some p, some a => a.toList.isPrefixOf p.toList
  | _, _ => false

/-- `_attribute`: an attribute as it is compared, the empty text when it is not
there. -/
def attributeOf (E : Env) (v : VoterRow) (name : String) : String :=
  match Json.get? v.attributes name with
  | none | some .null => ""
  | some j => E.lower (E.strip (Ballot.pyStr E j))

/-- `email.rsplit('@', 1)[-1]`. -/
def domainOf (email : String) : String :=
  String.ofList (email.toList.reverse.takeWhile (· ≠ '@')).reverse

def lstripAt (s : String) : String := String.ofList (s.toList.dropWhile (· = '@'))

def rulePasses (E : Env) (db : Database) (r : RuleRow) (v : VoterRow) : Bool :=
  let values := r.values.map fun j => E.lower (E.strip (Ballot.pyStr E j))
  match r.kind with
  | .CONSTITUENCY => isWithin (pathOf db v.constituency) (pathOf db r.constituency)
  | .ATTRIBUTE_EQUALS => attributeOf E v r.attributeName = values.headD ""
  | .ATTRIBUTE_IN => values.contains (attributeOf E v r.attributeName)
  | .ATTRIBUTE_NOT_IN => !values.contains (attributeOf E v r.attributeName)
  | .EMAIL_DOMAIN =>
    let email := E.lower (v.email.getD "")
    email ≠ "" && (values.map lstripAt).contains (domainOf email)
  | .VERIFIED_EMAIL => v.emailVerifiedAt.isSome
  | .VERIFIED_PHONE => v.phoneVerifiedAt.isSome

def kindDisplay : RuleKind → String
  | .CONSTITUENCY => "Belongs to constituency (or its sub-units)"
  | .ATTRIBUTE_EQUALS => "Attribute equals value"
  | .ATTRIBUTE_IN => "Attribute is one of values"
  | .ATTRIBUTE_NOT_IN => "Attribute is not one of values"
  | .EMAIL_DOMAIN => "Email address domain is one of values"
  | .VERIFIED_EMAIL => "Email address verified"
  | .VERIFIED_PHONE => "Phone number verified"

/-- `election_eligibility`: the reasons against, none when the voter is
eligible. -/
def reasonsAgainst (E : Env) (db : Database) (rules : List RuleRow) (v : VoterRow) : List String :=
  (match v.status with
    | .SUSPENDED => ["Your voter record is suspended. Contact the election officials."]
    | .INELIGIBLE => ["You are not eligible to vote in this election."]
    | _ => []) ++
  (rules.filter fun r => r.position = none ∧ ¬ rulePasses E db r v).map fun r =>
    if r.description ≠ "" then r.description
    else "Eligibility requirement not met: " ++ kindDisplay r.kind ++ "."

/-- `position_eligible`: the rules and the voter's constituency are those of
`db`, the position's constituency that of the later read `db'`. -/
def positionEligible (E : Env) (db db' : Database) (rules : List RuleRow) (v : VoterRow) (pk : ℕ)
    (p : CategoryRow) : Bool :=
  (p.constituency.isNone || isWithin (pathOf db v.constituency) (pathOf db' p.constituency)) &&
    (rules.filter fun r => r.position = some pk).all fun r => rulePasses E db r v

/-- `ballot_style`: the sorted ids of the positions the voter may vote on. -/
def ballotStyle (E : Env) (db db' : Database) (rules : List RuleRow) (v : VoterRow) (e : ℕ) : List ℕ :=
  if reasonsAgainst E db rules v ≠ [] then []
  else (((categoriesOf db' e).filter fun c => positionEligible E db db' rules v c.1 c.2).map
    (·.1)).insertionSort (· ≤ ·)

end Eligibility
end FlexyVotes
