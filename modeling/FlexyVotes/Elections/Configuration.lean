/-
# The configuration of an election

`configurationProblems` is what has to be fixed before an election can be
submitted or scheduled, `snapshotConfiguration` the signed record of the
configuration an approval makes, and `ensureElectionKey` the ballot key a
schedule makes. The last two run inside a transition's transaction: they go
on with the rest of it, or fail it.
-/
import FlexyVotes.Core.Audit
import FlexyVotes.Elections.Ballot

namespace FlexyVotes

/-! ### Stored values and labels -/

def EventStatus.value : EventStatus → String
  | .DRAFT => "DRAFT"
  | .REVIEW => "REVIEW"
  | .APPROVED => "APPROVED"
  | .SCHEDULED => "SCHEDULED"
  | .OPEN => "OPEN"
  | .PAUSED => "PAUSED"
  | .CLOSED => "CLOSED"
  | .TALLYING => "TALLYING"
  | .CERTIFIED => "CERTIFIED"
  | .PUBLISHED => "PUBLISHED"
  | .ARCHIVED => "ARCHIVED"

/-- `get_status_display`, in lower case. -/
def EventStatus.lowerDisplay : EventStatus → String
  | .DRAFT => "draft"
  | .REVIEW => "in review"
  | .APPROVED => "approved"
  | .SCHEDULED => "scheduled"
  | .OPEN => "open"
  | .PAUSED => "paused"
  | .CLOSED => "closed"
  | .TALLYING => "tallying"
  | .CERTIFIED => "certified"
  | .PUBLISHED => "results published"
  | .ARCHIVED => "archived"

def VotingMode.value : VotingMode → String
  | .PAY_TO_VOTE => "Pay to Vote"
  | .CODE_VOTING => "Code Voting"

def CodeVotingMode.value : CodeVotingMode → String
  | .STANDARD => "Standard"
  | .STUDENT_ID => "Student ID"

def ResultsVisibility.value : ResultsVisibility → String
  | .LIVE => "LIVE"
  | .AFTER_CLOSE => "AFTER_CLOSE"
  | .AFTER_PUBLISH => "AFTER_PUBLISH"

def KeyCustody.value : KeyCustody → String
  | .SYSTEM => "SYSTEM"
  | .TRUSTEES => "TRUSTEES"

def BallotType.value : BallotType → String
  | .SINGLE => "SINGLE"
  | .FPTP => "FPTP"
  | .MULTIPLE => "MULTIPLE"
  | .APPROVAL => "APPROVAL"
  | .RANKED => "RANKED"
  | .SCORE => "SCORE"
  | .REFERENDUM => "REFERENDUM"

def CandidateStatus.value : CandidateStatus → String
  | .ACTIVE => "ACTIVE"
  | .WITHDRAWN => "WITHDRAWN"
  | .DISQUALIFIED => "DISQUALIFIED"
  | .ELIMINATED => "ELIMINATED"

def RuleKind.value : RuleKind → String
  | .CONSTITUENCY => "CONSTITUENCY"
  | .ATTRIBUTE_EQUALS => "ATTRIBUTE_EQUALS"
  | .ATTRIBUTE_IN => "ATTRIBUTE_IN"
  | .ATTRIBUTE_NOT_IN => "ATTRIBUTE_NOT_IN"
  | .EMAIL_DOMAIN => "EMAIL_DOMAIN"
  | .VERIFIED_EMAIL => "VERIFIED_EMAIL"
  | .VERIFIED_PHONE => "VERIFIED_PHONE"

def VoterStatus.value : VoterStatus → String
  | .ELIGIBLE => "ELIGIBLE"
  | .VERIFIED => "VERIFIED"
  | .VOTED => "VOTED"
  | .SUSPENDED => "SUSPENDED"
  | .INELIGIBLE => "INELIGIBLE"

def VoterStatus.values : List (VoterStatus × String) :=
  [VoterStatus.ELIGIBLE, .VERIFIED, .VOTED, .SUSPENDED, .INELIGIBLE].map fun s => (s, s.value)

/-- `str` of a decimal with two places, kept in hundredths. -/
def decimal2 (n : ℕ) : String :=
  toString (n / 100) ++ "." ++ (if n % 100 < 10 then "0" else "") ++ toString (n % 100)

namespace Configuration

open Transactions Audit Ballot

/-! ### What has to be fixed -/

/-- A voter of the election. -/
def voterOf (e : ℕ) : (k : Key) → Row k → Bool
  | .voter _ => fun v => v.election = e
  | _ => fun _ => false

def candidateOf (e : ℕ) : (k : Key) → Row k → Bool
  | .candidate _ => fun c => c.event = e
  | _ => fun _ => false

/-- A candidate of the election without a position. -/
def uncategorized (e : ℕ) : (k : Key) → Row k → Bool
  | .candidate _ => fun c => c.event = e && c.category.isNone
  | _ => fun _ => false

def packageOf (e : ℕ) : (k : Key) → Row k → Bool
  | .votePackage _ => fun p => p.event = e && p.isActive
  | _ => fun _ => false

/-- The trustees of the election, by their index. -/
def trusteesOf (db : Database) (e : ℕ) : List (ℕ × TrusteeShareRow) :=
  (db.collect fun
    | .trusteeShare pk => fun t => if t.election = e then some (pk, t) else none
    | _ => fun _ => none).insertionSort fun a b => a.2.index ≤ b.2.index

/-- At least two trustees, and a threshold between one and their number. -/
def trusteesSet (ev : EventRow) (trustees : ℕ) : Bool :=
  2 ≤ trustees && 1 ≤ ev.trusteeThreshold && ev.trusteeThreshold ≤ trustees

/-- The ballot types with a least number of selections of their own. -/
def countsSelections : BallotType → Bool
  | .MULTIPLE | .RANKED | .FPTP => true
  | _ => false

def positionProblems (p : Position) : List String :=
  if p.row.ballotType = .REFERENDUM then []
  else
    let count := (activeCandidates p).length
    (if count = 0 then [quoted p ++ " has no candidates."]
      else if countsSelections p.row.ballotType ∧ count < (effectiveLimits p).1 then
        [quoted p ++ " requires " ++ toString (effectiveLimits p).1 ++ " selections but has only " ++
          toString count ++ " candidate(s)."]
      else []) ++
    (if max count 1 < p.row.seats then [quoted p ++ " has more seats than candidates."] else []) ++
    (if p.row.maxSelect < p.row.minSelect ∧ countsSelections p.row.ballotType then
      [quoted p ++ ": minimum selections exceed the maximum."] else [])

/-- `configuration_problems`. -/
def configurationProblems (db : Database) (e : ℕ) (ev : EventRow) : List String :=
  let positions := positionsFor (categoriesOf db e) db
  (if ev.endDate ≤ ev.startDate then ["The end date must be after the start date."] else []) ++
  (if positions.isEmpty ∧ db.count (candidateOf e) = 0 then
    ["Add at least one position or contestant."] else []) ++
  (if ev.isInstitutional then
    (if positions.isEmpty then ["Institutional elections need at least one position."] else []) ++
    (if db.count (uncategorized e) ≠ 0 then ["Assign every candidate to a position."] else []) ++
    positions.flatMap positionProblems ++
    (if ev.authMethods = [] then ["Choose at least one voter authentication method."] else []) ++
    (if db.count (voterOf e) = 0 ∧ ¬ ev.allowSelfRegistration then
      ["Import the voter roll (or enable self-registration)."] else []) ++
    (if ev.keyCustody = .TRUSTEES ∧ ¬ trusteesSet ev (trusteesOf db e).length then
      ["Trustee key custody needs at least 2 trustees and a threshold between 1 and the number of trustees."]
      else [])
  else if ev.votePrice = 0 ∧ db.count (packageOf e) = 0 then
    ["Set a vote price or create at least one vote package."] else [])

/-! ### The signed configuration -/

def sortStrings (xs : List String) : List String := xs.insertionSort (· ≤ ·)

def candidateJson (c : ℕ × CandidateRow) : Json :=
  .obj [("id", .nat c.1), ("name", .str c.2.name), ("status", .str c.2.status.value)]

def positionJson (db : Database) (p : ℕ × CategoryRow) : Json :=
  .obj [("id", .nat p.1), ("name", .str p.2.name), ("type", .str p.2.ballotType.value),
    ("min", .nat p.2.minSelect), ("max", .nat p.2.maxSelect), ("seats", .nat p.2.seats),
    ("max_score", .nat p.2.maxScore), ("abstain", .bool p.2.allowAbstain),
    ("threshold", .str (decimal2 p.2.referendumThreshold)), ("constituency", Json.opt .nat p.2.constituency),
    ("candidates", .arr (((candidatesOf db p.1).insertionSort fun a b => a.1 ≤ b.1).map candidateJson))]

def ruleJson (r : ℕ × RuleRow) : Json :=
  .obj [("id", .nat r.1), ("kind", .str r.2.kind.value), ("position", Json.opt .nat r.2.position),
    ("attribute", .str r.2.attributeName), ("values", .arr r.2.values),
    ("constituency", Json.opt .nat r.2.constituency), ("active", .bool r.2.isActive)]

/-- The access code hashes of the roll. -/
def rollOf (db : Database) (e : ℕ) : List String :=
  db.collect fun
    | .voter _ => fun v => if v.election = e then v.credentialHash else none
    | _ => fun _ => none

def statusOf (e : ℕ) (s : VoterStatus) : (k : Key) → Row k → Bool
  | .voter _ => fun v => v.election = e && v.status = s
  | _ => fun _ => false

/-- `configuration_document`. -/
def configurationDocument (E : Env) (db : Database) (e : ℕ) (ev : EventRow) : Json :=
  .obj [
    ("election", .obj [
      ("id", .nat e), ("title", .str ev.title), ("mode", .str ev.votingMode.value),
      ("code_mode", .str ev.codeVotingMode.value), ("start", .str (E.isoformat ev.startDate)),
      ("end", .str (E.isoformat ev.endDate)), ("timezone", .str ev.timezone),
      ("currency", .str ev.currency), ("results_visibility", .str ev.resultsVisibility.value),
      ("auth_methods", .arr ((sortStrings ev.authMethods).map .str)),
      ("require_second_factor", .bool ev.requireSecondFactor),
      ("self_registration", .bool ev.allowSelfRegistration),
      ("dual_approval", .bool ev.dualApprovalRequired), ("key_custody", .str ev.keyCustody.value),
      ("trustee_threshold", .nat ev.trusteeThreshold), ("vote_price", .str (decimal2 ev.votePrice)),
      ("max_votes_per_voter", Json.opt .nat ev.maxVotesPerVoter),
      ("record_constituency_on_ballot", .bool ev.recordConstituencyOnBallot),
      ("min_anonymity_set", .nat ev.minAnonymitySet)]),
    ("positions", .arr (((categoriesOf db e).insertionSort fun a b => a.1 ≤ b.1).map (positionJson db))),
    ("uncategorized_candidates", .arr ((((db.collect fun
      | .candidate pk => fun c => if c.event = e ∧ c.category = none then some (pk, c) else none
      | _ => fun _ => none).insertionSort fun a b => a.1 ≤ b.1)).map fun c =>
        .obj [("id", .nat c.1), ("name", .str c.2.name)])),
    ("eligibility_rules", .arr (((db.collect fun
      | .rule pk => fun r => if r.election = e then some (pk, r) else none
      | _ => fun _ => none).insertionSort fun a b => a.1 ≤ b.1).map ruleJson)),
    ("voter_roll", .obj [
      ("count", .nat (db.count (voterOf e))),
      ("credentials_digest", .str (E.sha256 ("|".intercalate (sortStrings (rollOf db e))))),
      ("statuses", .obj (VoterStatus.values.map fun s => (s.2, .nat (db.count (statusOf e s.1)))))])]

/-- The latest version of the election's snapshots, 0 when there is none. -/
def latestVersion (db : Database) (e : ℕ) : ℕ :=
  (db.collect fun
    | .configSnapshot el version => fun _ => if el = e then some version else none
    | _ => fun _ => none).foldl max 0

/-- `snapshot_configuration`. -/
def snapshotConfiguration (E : Env) (e : ℕ) (ev : EventRow) (actor : Option User) (reason : String)
    (now : Time) (fail : Failure → Program) (k : Program) : Program :=
  .read fun db =>
    let document := configurationDocument E db e ev
    let encoded := document.canonicalJson
    .read fun db' =>
      let version := latestVersion db' e + 1
      .insertOr (.configSnapshot e version)
        { reason := reason, config := document, configHash := E.sha256 encoded, signature := E.sign encoded,
          publicKey := E.signingKey, keyId := E.keyFingerprint E.signingKey,
          createdBy := actor.map (·.pk) } (fail (.crash "IntegrityError")) <|
      record E
        { eventType := "ELECTION_CONFIG_SIGNED", actor := actor, event := some (e, ev.organization),
          targetType := "elections.ElectionConfigSnapshot",
          summary := "Configuration v" ++ toString version ++ " signed (" ++ reason ++ ")",
          metadata := .obj [("config_hash", .str (E.sha256 encoded))], createdAt := now }
        (fail (.crash "DatabaseError")) k

/-! ### The ballot key -/

/-- The random values of a new ballot key: the raw private key and the share of
each trustee. -/
structure KeyMaterial where
  privateRaw : String := ""
  share : ℕ → String := fun _ => ""

/-- The new shares of the trustees, saved one after the other. -/
def saveShares (E : Env) (m : KeyMaterial) : List (ℕ × TrusteeShareRow) → ℕ → Program → Program
  | [], _, k => k
  | (pk, _) :: rest, i, k =>
    .update (.trusteeShare pk) (fun _ => true)
      (fun t => { t with shareHash := E.sha256 (m.share i), pendingShare := some (m.share i) })
      fun _ => saveShares E m rest (i + 1) k

/-- `ensure_election_key`. -/
def ensureElectionKey (E : Env) (e : ℕ) (ev : EventRow) (actor : Option User) (m : KeyMaterial)
    (now : Time) (fail : Failure → Program) (k : Program) : Program :=
  .read fun db =>
    if (db.row (.ballotKey e)).isSome then k
    else
      let publicKey := E.publicOf m.privateRaw
      let create (row : BallotKeyRow) : Program :=
        .insertOr (.ballotKey e) row (fail (.crash "IntegrityError")) <|
        record E
          { eventType := "BALLOT_KEY_GENERATED", actor := actor, event := some (e, ev.organization),
            targetType := "elections.ElectionKey",
            summary := "Ballot encryption key generated (" ++ row.custody.value ++ ")",
            metadata := .obj [("fingerprint", .str row.fingerprint), ("threshold", .nat row.threshold),
              ("shares", .nat row.shares)], createdAt := now }
          (fail (.crash "DatabaseError")) k
      let key : BallotKeyRow :=
        { publicKey := publicKey, fingerprint := E.keyFingerprint publicKey, custody := ev.keyCustody }
      if ev.keyCustody = .TRUSTEES then
        .read fun db' =>
          let trustees := trusteesOf db' e
          if ¬ trusteesSet ev trustees.length then
            fail (.keyCustody "Configure at least two trustees and a valid threshold first.")
          else
            saveShares E m trustees 0
              (create { key with threshold := ev.trusteeThreshold, shares := trustees.length })
      else create { key with wrappedPrivateKey := some m.privateRaw }

/-! ### What these write -/

/-- A row of the audit log, the ballot keys, the trustees' shares or the
configuration snapshots. -/
def isSetup : Key → Bool
  | .ballotKey _ => true
  | .trusteeShare _ => true
  | .configSnapshot _ _ => true
  | k => isAudit k

theorem isSetup_of_isAudit (k : Key) (h : isAudit k = true) : isSetup k = true := by
  cases k <;> simp_all [isSetup, isAudit]

section Ok

variable {S : Spec Row Note} (hS : S.Sound) {E : Env} {e : ℕ} {ev : EventRow} {actor : Option User}
  {now : Time} {fail : Failure → Program} {k : Program} {log : List Note}

include hS in
theorem recordSetup_goesOn {a : Entry} {x : Failure} {db : Database} {own : List Key} {w : Writes Row}
    (hf : FailsFrom S fail db own log) (hk : GoesOn S isSetup k db own w log) :
    GoesOn S isSetup (record E a (fail x) k) db own w log :=
  GoesOn.through hS hf hk fun _ _ _ hf hk => record_ok hS (hf.to _) (hk.weaken isSetup_of_isAudit)

include hS in
theorem snapshotConfiguration_goesOn {reason : String} {db : Database} {own : List Key} {w : Writes Row}
    (hf : FailsFrom S fail db own log) (hk : GoesOn S isSetup k db own w log) :
    GoesOn S isSetup (snapshotConfiguration E e ev actor reason now fail k) db own w log := by
  refine GoesOn.through hS hf hk fun db own w hf hk db₁ h₁ db₂ h₂ => ?_
  have hst := h₁.trans hS h₂
  have hf' := hf.mono hS hst fun _ h => h
  have hk' : GoesOn S isSetup k db₂ own w log := hk.mono hS hst (fun _ h => h) .nil
  exact GoesOn.insertOr (p := isSetup) rfl (hf'.to _) (recordSetup_goesOn hS hf' hk')

include hS in
theorem saveShares_goesOn {m : KeyMaterial} : ∀ (trustees : List (ℕ × TrusteeShareRow)) (i : ℕ)
    {db : Database} {own : List Key} {w : Writes Row}, GoesOn S isSetup k db own w log →
    GoesOn S isSetup (saveShares E m trustees i k) db own w log
  | [], _, _, _, _, hk => hk
  | _ :: rest, i, _, _, _, hk => fun _ _ _ hst hsub hw =>
    GoesOn.update hS rfl ((saveShares_goesOn rest (i + 1) hk).mono hS hst hsub hw)

include hS in
theorem ensureElectionKey_goesOn {m : KeyMaterial} {db : Database} {own : List Key} {w : Writes Row}
    (hf : FailsFrom S fail db own log) (hk : GoesOn S isSetup k db own w log) :
    GoesOn S isSetup (ensureElectionKey E e ev actor m now fail k) db own w log := by
  refine GoesOn.through hS hf hk fun db own w hf hk db₁ h₁ => ?_
  dsimp only
  split
  · exact hk.at h₁
  · have hf₁ := hf.mono hS h₁ fun _ h => h
    have hk₁ : GoesOn S isSetup k db₁ own w log := hk.mono hS h₁ (fun _ h => h) .nil
    split
    · intro db₂ h₂
      have hf₂ := hf₁.mono hS h₂ fun _ h => h
      have hk₂ : GoesOn S isSetup k db₂ own w log := hk₁.mono hS h₂ (fun _ h => h) .nil
      dsimp only
      split
      · exact hf₂ _ _ _ _ (.refl hS h₂.inv) fun _ h => h
      · refine (saveShares_goesOn hS _ 0 ?_).at (.refl hS h₂.inv)
        exact GoesOn.through hS hf₂ hk₂ fun _ _ _ hf hk =>
          GoesOn.insertOr (p := isSetup) rfl (hf.to _) (recordSetup_goesOn hS hf hk)
    · exact GoesOn.insertOr (p := isSetup) rfl (hf₁.to _) (recordSetup_goesOn hS hf₁ hk₁)

end Ok

end Configuration

end FlexyVotes
