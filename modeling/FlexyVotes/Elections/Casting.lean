/-
# Secret-ballot casting

    voter --(eligibility)--> authorization (token hash)
    --(anonymous token)--> encrypted ballot --> tally

`issueAuthorization` and `castBallot` as transaction programs, statement by
statement. Each ends in its continuation `k`, with what it returns or how it
fails. The clock is read more than once: `now i` is the `i`-th reading.

`CastDone` and `IssueDone` say once what the commit of each does, to the rows
it holds, `Made` what the ballot of a cast is, and `castBallot_ok` and `issueAuthorization_ok` that nothing else
ever comes of them; every theorem about casting starts from these.
-/
import FlexyVotes.Core.Audit
import FlexyVotes.Elections.Eligibility

namespace FlexyVotes
namespace Casting

open Transactions Audit

/-- 30 minutes. -/
def AUTHORIZATION_TTL : Time := 30 * 60 * 1000000

def alreadyVoted : Failure :=
  .cast "A ballot has already been recorded for this voter." "already_voted"

def tokenHash (E : Env) (token : String) : String := E.keyedHash "ballot-token" token

def styleHash (E : Env) (event : ℕ) (style : List ℕ) : String :=
  E.sha256 (Json.obj [("election", .nat event),
    ("positions", .ofNats (style.insertionSort (· ≤ ·)))]).canonicalJson

/-- `Event.accepting_votes`. -/
def acceptingVotes (ev : EventRow) (now : Time) : Bool :=
  ev.status = .OPEN && ev.startDate ≤ now && now < ev.endDate

/-- `ensure_accepting`: why the election takes no ballot now, if it takes none. -/
def ensureAccepting (ev : EventRow) (now now' : Time) : Option Failure :=
  if acceptingVotes ev now then none
  else if ev.status = .PAUSED then
    some (.cast "Voting is temporarily paused. Please try again later." "paused")
  else if ev.status = .SCHEDULED ∨ ev.status = .APPROVED ∨ now' < ev.startDate then
    some (.cast "Voting has not opened yet." "not_open")
  else some (.cast "Voting for this election has closed." "closed")

/-- A ballot is taken exactly when the election accepts votes. -/
theorem ensureAccepting_eq_none {ev : EventRow} {now now' : Time} :
    ensureAccepting ev now now' = none ↔ acceptingVotes ev now = true := by
  unfold ensureAccepting
  split_ifs with h <;> simp [h]

theorem acceptingVotes_open {ev : EventRow} {now : Time} (h : acceptingVotes ev now = true) :
    ev.status = .OPEN := by
  simp only [acceptingVotes, Bool.and_eq_true, decide_eq_true_eq] at h
  exact h.1.1

/-- `voter.identifier or voter.pk`. -/
def voterLabel (pk : ℕ) (v : VoterRow) : String :=
  match v.identifier with
  | none | some "" => toString pk
  | some i => i

/-! ### Issuing -/

/-- One call of `issue_authorization`. -/
structure IssueRequest where
  event : ℕ
  voter : ℕ
  method : String
  /-- The random token. -/
  token : String
  /-- The random UUID of the authorization. -/
  id : String
  request : Option Request := none
  now : ℕ → Time

/-- An authorization issued to the voter and not used. -/
def issuedTo (voter : ℕ) : (k : Key) → Row k → Bool
  | .authorization _ => fun a => a.voter = voter && a.status = .ISSUED
  | _ => fun _ => false

def revoke : (k : Key) → Row k → Row k
  | .authorization _ => fun a => { a with status := .REVOKED }
  | _ => id

/-- The new authorization. -/
def IssueRequest.row (q : IssueRequest) (ev : EventRow) (style : List ℕ) : AuthorizationRow where
  id := q.id
  election := q.event
  voter := q.voter
  authMethod := q.method
  ballotStyle := style
  issuedAt := q.now 2
  expiresAt := min (q.now 2 + AUTHORIZATION_TTL) ev.endDate

def IssueRequest.entry (q : IssueRequest) (ev : EventRow) (v : VoterRow) (style : List ℕ) : Entry where
  eventType := "VOTER_BALLOT_ISSUED"
  request := q.request
  event := some (q.event, ev.organization)
  targetType := "elections.Voter"
  targetId := toString q.voter
  summary := "Ballot issued to voter " ++ voterLabel q.voter v
  metadata := .obj [("method", .str q.method), ("positions", .nat style.length)]
  createdAt := q.now 3

/-- The rows of the new authorization and of the earlier unused ones. -/
def issueRows (E : Env) (q : IssueRequest) (ev : EventRow) (v : VoterRow) (style : List ℕ)
    (k : Except Failure String → Program) : Program :=
  .updateWhere (issuedTo q.voter) revoke <|
  .insertOr (.authorization (tokenHash E q.token)) (q.row ev style)
    (.rollback (k (.error (.crash "IntegrityError")))) <|
  record E (q.entry ev v style) (.rollback (k (.error (.crash "DatabaseError")))) <|
  .commit <| .note (.issued (tokenHash E q.token) q.voter) <|
  k (.ok q.token)

/-- `issue_authorization`. -/
def issueAuthorization (E : Env) (q : IssueRequest) (k : Except Failure String → Program) : Program :=
  .read fun db =>
    match db.row (.event q.event) with
    | none => k (.error (.crash "Event.DoesNotExist"))
    | some ev =>
      match ensureAccepting ev (q.now 0) (q.now 1) with
      | some failure => k (.error failure)
      | none =>
        .lockRow (.voter q.voter) fun
          | none => .rollback (k (.error (.crash "Voter.DoesNotExist")))
          | some v =>
            if v.status = .VOTED then .rollback (k (.error alreadyVoted))
            else
              .read fun db₁ =>
                let rules := rulesOf db₁ q.event
                let reasons := Eligibility.reasonsAgainst E db₁ rules v
                if reasons ≠ [] then
                  .rollback (k (.error (.cast (" ".intercalate reasons) "ineligible")))
                else
                  .read fun db₂ =>
                    let style := Eligibility.ballotStyle E db₁ db₂ rules v q.event
                    if style = [] then
                      .rollback (k (.error (.cast ("There are no positions on this ballot that " ++
                        "you are eligible to vote for.") "no_positions")))
                    else issueRows E q ev v style k

/-! ### Casting -/

/-- One call of `cast_ballot`. -/
structure CastRequest where
  event : ℕ
  token : String
  payload : Json
  /-- The random UUID of the ballot. -/
  uuid : String
  /-- The random padding inside the ballot. -/
  nonce : String
  /-- The ephemeral key and nonce the sealing draws. -/
  ephemeral : String
  request : Option Request := none
  now : ℕ → Time

structure Receipt where
  tracker : String
  castAt : Time
  election : String
  positions : ℕ
  deriving DecidableEq, Repr

def CastRequest.plaintext (q : CastRequest) (style : List ℕ) (selections : List (String × Json)) : String :=
  (Json.obj [("v", .int 1), ("election", .nat q.event),
    ("style", .ofNats (style.insertionSort (· ≤ ·))), ("selections", .obj selections),
    ("nonce", .str q.nonce)]).canonicalJson

def CastRequest.ciphertext (E : Env) (q : CastRequest) (key : BallotKeyRow) (style : List ℕ)
    (selections : List (String × Json)) : String :=
  E.sealTo key.publicKey (q.plaintext style selections)
    (toString q.event ++ ":" ++ styleHash E q.event style) q.ephemeral

/-- The ballot as it is recorded: no voter, no token, no time. -/
def CastRequest.ballot (E : Env) (q : CastRequest) (ev : EventRow) (v : VoterRow) (key : BallotKeyRow)
    (style : List ℕ) (selections : List (String × Json)) : BallotRow where
  election := q.event
  ciphertext := q.ciphertext E key style selections
  tracker := E.sha256 (q.ciphertext E key style selections)
  styleHash := styleHash E q.event style
  constituencyId := if ev.recordConstituencyOnBallot then v.constituency else none

def CastRequest.entry (q : CastRequest) (ev : EventRow) (pk : ℕ) (v : VoterRow) : Entry where
  eventType := "VOTER_VOTED"
  request := q.request
  event := some (q.event, ev.organization)
  targetType := "elections.Voter"
  targetId := toString pk
  summary := "Voter " ++ voterLabel pk v ++ " cast a ballot"
  createdAt := q.now 4

/-- The authorization, used. -/
def consume (a : AuthorizationRow) (now : Time) : AuthorizationRow :=
  { a with status := .CONSUMED, consumedAt := some now }

@[simp] theorem consume_status (a : AuthorizationRow) (now : Time) :
    (consume a now).status = .CONSUMED := rfl

@[simp] theorem consume_election (a : AuthorizationRow) (now : Time) :
    (consume a now).election = a.election := rfl

@[simp] theorem consume_voter (a : AuthorizationRow) (now : Time) :
    (consume a now).voter = a.voter := rfl

/-- The voter, marked as having voted; the access code is wiped. -/
def markVoted (v : VoterRow) (now : Time) : VoterRow :=
  { v with status := .VOTED, votedAt := some now, credentialCiphertext := none, updatedAt := now }

@[simp] theorem markVoted_status (v : VoterRow) (now : Time) : (markVoted v now).status = .VOTED := rfl

@[simp] theorem markVoted_election (v : VoterRow) (now : Time) :
    (markVoted v now).election = v.election := rfl

/-- The rows of the ballot `b`, the authorization and the voter. -/
def castRows (E : Env) (q : CastRequest) (a : AuthorizationRow) (ev : EventRow) (v : VoterRow)
    (b : BallotRow) (k : Except Failure Receipt → Program) : Program :=
  let failure := .rollback (k (.error (.crash "IntegrityError")))
  .insertOr (.ballot q.uuid) b failure <|
  .insertOr (.tracker b.tracker) q.uuid failure <|
  .insertOr (.consumed a.voter) (tokenHash E q.token) failure <|
  .put (.authorization (tokenHash E q.token)) (some (consume a (q.now 3))) <|
  .put (.voter a.voter) (some (markVoted v (q.now 3))) <|
  -- participation only: the tracker is not logged
  record E (q.entry ev a.voter v) (.rollback (k (.error (.crash "DatabaseError")))) <|
  .commit <| .note (.recorded (tokenHash E q.token) q.uuid) <|
  k (.ok ⟨b.tracker, q.now 3, ev.title, a.ballotStyle.length⟩)

/-- `_cast` once the voter is locked: the ballot is validated, sealed and
recorded. -/
def castChecked (E : Env) (q : CastRequest) (a : AuthorizationRow) (ev : EventRow) (v : VoterRow)
    (k : Except Failure Receipt → Program) : Program :=
  .read fun db₁ =>
    .read fun db₂ =>
      match Ballot.validateBallot E (Ballot.positionsFor (categoriesOf db₁ q.event) db₂) a.ballotStyle
          q.payload with
      | .error failure => .rollback (k (.error failure))
      | .ok selections =>
        .read fun db₃ =>
          match db₃.row (.ballotKey q.event) with
          | none => .rollback (k (.error (.crash "RelatedObjectDoesNotExist")))
          | some key => castRows E q a ev v (q.ballot E ev v key a.ballotStyle selections) k

/-- `cast_ballot`: `_cast`, whose outcome the wrapper only counts. -/
def castBallot (E : Env) (q : CastRequest) (k : Except Failure Receipt → Program) : Program :=
  -- the authorization first: casts of the same token wait here
  .lock (.authorization (tokenHash E q.token)) (fun a => a.election = q.event) fun
    | none => .rollback (k (.error
        (.cast "Your ballot session is invalid. Please sign in again." "invalid_token")))
    | some a =>
      if a.status = .CONSUMED then .rollback (k (.error alreadyVoted))
      else if a.status ≠ .ISSUED ∨ a.expiresAt ≤ q.now 0 then
        .rollback (k (.error (.cast "Your ballot session has expired. Please sign in again." "expired")))
      else
        .read fun db =>
          match db.row (.event q.event) with
          | none => .rollback (k (.error (.crash "Event.DoesNotExist")))
          | some ev =>
            match ensureAccepting ev (q.now 1) (q.now 2) with
            | some failure => .rollback (k (.error failure))
            | none =>
              .note (.accepted q.event) <|
              .lockRow (.voter a.voter) fun
                | none => .rollback (k (.error (.crash "Voter.DoesNotExist")))
                | some v =>
                  if v.status = .VOTED then .rollback (k (.error alreadyVoted))
                  else if ¬ v.canVote then
                    .rollback (k (.error (.cast
                      "Your voter record cannot vote. Contact the election officials." "ineligible")))
                  else castChecked E q a ev v k

/-! ### What a cast commits -/

/-- The rows a cast writes beside the audit log, newest first. -/
def castWrites (E : Env) (q : CastRequest) (a : AuthorizationRow) (v : VoterRow) (b : BallotRow) :
    Writes Row :=
  [⟨.voter a.voter, some (markVoted v (q.now 3))⟩,
   ⟨.authorization (tokenHash E q.token), some (consume a (q.now 3))⟩,
   ⟨.consumed a.voter, some (tokenHash E q.token)⟩,
   ⟨.tracker b.tracker, some q.uuid⟩,
   ⟨.ballot q.uuid, some b⟩]

/-- **What the commit of a cast does**: an issued authorization of the election
is consumed, its voter, who could vote, has voted, and one new ballot of the
election is there. -/
structure CastDone (E : Env) (q : CastRequest) (a : AuthorizationRow) (v : VoterRow) (b : BallotRow)
    (db db' : Database) : Prop where
  authorization : db.row (.authorization (tokenHash E q.token)) = some a
  election : a.election = q.event
  issued : a.status = .ISSUED
  voter : db.row (.voter a.voter) = some v
  canVote : v.canVote = true
  ballot : b.election = q.event
  newBallot : db.row (.ballot q.uuid) = none
  newTracker : db.row (.tracker b.tracker) = none
  unused : db.row (.consumed a.voter) = none
  writes : ∃ w, AuditOnly w ∧ db' = db.apply (w ++ castWrites E q a v b)

section Ok

variable {S : Spec Row Note} (hS : S.Sound) {E : Env} {log : List Note}

variable {q : CastRequest} {k : Except Failure Receipt → Program}

/-- What a cast has to show of its commit, from a database of which `Q` holds
since the election was seen to accept votes. -/
def CastCommits (S : Spec Row Note) (E : Env) (q : CastRequest) (k : Except Failure Receipt → Program)
    (Q : Database → Prop) (log : List Note) : Prop :=
  ∀ own a v b db db' r, S.inv db → Q db → .voter a.voter ∈ own →
    .authorization (tokenHash E q.token) ∈ own → CastDone E q a v b db db' →
    S.inv db' ∧
      S.guar own ((k (.ok r)).settle (.recorded (tokenHash E q.token) q.uuid :: log)).2 db db' ∧
      S.fact (.recorded (tokenHash E q.token) q.uuid) db' ∧
      Ok S (k (.ok r)) db' [] [] (.recorded (tokenHash E q.token) q.uuid :: log)

/-- The ballot is the payload, validated against the positions of the election
and sealed for its key, all read while the invariant held. -/
def Made (S : Spec Row Note) (E : Env) (q : CastRequest) (a : AuthorizationRow) (v : VoterRow) (b : BallotRow) :
    Prop :=
  ∃ ev db₁ db₂ db₃ key selections, S.inv db₁ ∧ S.inv db₂ ∧ S.inv db₃ ∧
    Ballot.validateBallot E (Ballot.positionsFor (categoriesOf db₁ q.event) db₂) a.ballotStyle q.payload =
      .ok selections ∧
    db₃.row (.ballotKey q.event) = some key ∧ b = q.ballot E ev v key a.ballotStyle selections

/-- `CastCommits`, with what is known of how the ballot was made. -/
def CastMakes (S : Spec Row Note) (E : Env) (q : CastRequest) (k : Except Failure Receipt → Program)
    (Q : Database → Prop) (log : List Note) : Prop :=
  ∀ own a v b db db' r, S.inv db → Q db → .voter a.voter ∈ own →
    .authorization (tokenHash E q.token) ∈ own → CastDone E q a v b db db' → Made S E q a v b →
    S.inv db' ∧
      S.guar own ((k (.ok r)).settle (.recorded (tokenHash E q.token) q.uuid :: log)).2 db db' ∧
      S.fact (.recorded (tokenHash E q.token) q.uuid) db' ∧
      Ok S (k (.ok r)) db' [] [] (.recorded (tokenHash E q.token) q.uuid :: log)

theorem CastCommits.makes {Q : Database → Prop} (h : CastCommits S E q k Q log) : CastMakes S E q k Q log :=
  fun own a v b db db' r hi hq hv ha hd _ => h own a v b db db' r hi hq hv ha hd

variable {Q : Database → Prop} (hk : FailsOk S k log) (hdone : CastMakes S E q k Q log)
  (hQ : ∀ own db db', Stable S own log db db' → Q db → Q db')

include hS hk hdone hQ in
theorem castRows_ok {a : AuthorizationRow} {ev : EventRow} {v : VoterRow} {b : BallotRow}
    {db : Database} {own : List Key} (hq : Q db) (hb : b.election = q.event) (hmade : Made S E q a v b)
    (ha : db.row (.authorization (tokenHash E q.token)) = some a) (he : a.election = q.event)
    (hi : a.status = .ISSUED) (hv : db.row (.voter a.voter) = some v) (hc : v.canVote = true)
    (hao : .authorization (tokenHash E q.token) ∈ own) (hvo : .voter a.voter ∈ own) :
    Ok S (castRows E q a ev v b k) db own [] log := by
  refine Ok.insertOr (fun db₁ h₁ hnb => ?_) fun _ _ => hk.rollback
  refine Ok.insertOr (fun db₂ h₂ hnt => ?_) fun _ _ => hk.rollback
  refine Ok.insertOr (fun db₃ h₃ hnc => ?_) fun _ _ => hk.rollback
  refine Ok.put hS (by simp [hao]) trivial <| Ok.put hS (by simp [hvo]) trivial ?_
  refine record_ok hS (hk.exits.to _) fun db₄ own' w h₄ hsub hw db₅ h₅ => ?_
  have hst := h₄.trans hS (h₅.sub hS hsub)
  have hrow : ∀ x ∈ own, db₅.row x = db.row x := fun x hx => by
    rw [hst.held x (by simp [hx]), h₃.held x (by simp [hx]), h₂.held x (by simp [hx]), h₁.held x hx]
  have hnb' : db₅.row (.ballot q.uuid) = none := by
    rw [hst.held _ (by simp), h₃.held _ (by simp), h₂.held _ (by simp)]
    simpa using hnb
  have hnt' : db₅.row (.tracker b.tracker) = none := by
    rw [hst.held _ (by simp), h₃.held _ (by simp)]
    simpa using hnt
  have hnc' : db₅.row (.consumed a.voter) = none := by
    rw [hst.held _ (by simp)]
    simpa using hnc
  have hq' : Q db₅ := hQ _ _ _ hst <| hQ _ _ _ h₃ <| hQ _ _ _ h₂ <| hQ _ _ _ h₁ hq
  have hd : CastDone E q a v b db₅ (db₅.apply (w ++ castWrites E q a v b)) :=
    ⟨(hrow _ hao).trans ha, he, hi, (hrow _ hvo).trans hv, hc, hb, hnb', hnt', hnc', w, hw, rfl⟩
  obtain ⟨h1, h2, h3, h4⟩ := hdone own' a v b db₅ _ _ h₅.inv hq' (hsub _ (by simp [hvo]))
    (hsub _ (by simp [hao])) hd hmade
  exact ⟨h1, h2, h3, h4⟩

include hS hk hdone hQ in
theorem castChecked_ok {a : AuthorizationRow} {ev : EventRow} {v : VoterRow}
    {db : Database} {own : List Key} (hq : Q db)
    (ha : db.row (.authorization (tokenHash E q.token)) = some a) (he : a.election = q.event)
    (hi : a.status = .ISSUED) (hv : db.row (.voter a.voter) = some v) (hc : v.canVote = true)
    (hao : .authorization (tokenHash E q.token) ∈ own) (hvo : .voter a.voter ∈ own) :
    Ok S (castChecked E q a ev v k) db own [] log := by
  intro db₁ h₁ db₂ h₂
  dsimp only
  split
  · exact hk.rollback
  · rename_i selections hvalid
    intro db₃ h₃
    dsimp only
    split
    · exact hk.rollback
    · rename_i key hkey
      have hst := (h₁.trans hS h₂).trans hS h₃
      have hmade : Made S E q a v (q.ballot E ev v key a.ballotStyle selections) :=
        ⟨ev, db₁, db₂, db₃, key, selections, h₁.inv, h₂.inv, h₃.inv, hvalid, hkey, rfl⟩
      exact castRows_ok hS hk hdone hQ (hQ _ _ _ hst hq) rfl hmade ((hst.held _ hao).trans ha) he hi
        ((hst.held _ hvo).trans hv) hc hao hvo

end Ok

section Ok

variable {S : Spec Row Note} (hS : S.Sound) {E : Env} {log : List Note}

section

variable {q : CastRequest} {k : Except Failure Receipt → Program} {Q : Database → Prop}

include hS in
/-- **Nothing comes of a cast but its commit.** It commits at most once, what
`CastDone` says, from a database of which all holds that has held since it
saw the election accept votes. -/
theorem castBallot_makes (hk : FailsOk S k log) (hk' : FailsOk S k (.accepted q.event :: log))
    (hdone : CastMakes S E q k Q (.accepted q.event :: log))
    (haccept : ∀ db ev, S.inv db → db.row (.event q.event) = some ev →
      acceptingVotes ev (q.now 1) = true → Q db ∧ S.fact (.accepted q.event) db)
    (hQ : ∀ own db db', Stable S own (.accepted q.event :: log) db db' → Q db → Q db')
    {db : Database} : Ok S (castBallot E q k) db [] [] log := by
  intro db₁ h₁
  refine ⟨fun a ha he => ?_, fun _ => hk.rollback⟩
  dsimp only
  split
  · exact hk.rollback
  · split
    · exact hk.rollback
    · rename_i hi
      simp only [not_or, not_not] at hi
      intro db₂ h₂
      dsimp only
      split
      · exact hk.rollback
      · rename_i ev hev
        split
        · exact hk.rollback
        · rename_i hacc
          have hacc' := ensureAccepting_eq_none.mp hacc
          obtain ⟨hq, hf⟩ := haccept db₂ ev h₂.inv hev hacc'
          refine ⟨hf, Ok.lockRow (fun db₃ v h₃ hv => ?_) fun _ _ => hk'.rollback⟩
          dsimp only
          split
          · exact hk'.rollback
          · split
            · exact hk'.rollback
            · rename_i hc
              have ha₃ : db₃.row (.authorization (tokenHash E q.token)) = some a := by
                rw [h₃.held _ (by simp), h₂.held _ (by simp)]
                exact ha
              exact castChecked_ok hS hk' hdone hQ (hQ _ _ _ h₃ hq) ha₃ (by simpa using he) hi.1 hv
                (by simpa using hc) (by simp) (by simp)

include hS in
/-- `castBallot_makes`, where it does not matter how the ballot was made. -/
theorem castBallot_ok (hk : FailsOk S k log) (hk' : FailsOk S k (.accepted q.event :: log))
    (hdone : CastCommits S E q k Q (.accepted q.event :: log))
    (haccept : ∀ db ev, S.inv db → db.row (.event q.event) = some ev →
      acceptingVotes ev (q.now 1) = true → Q db ∧ S.fact (.accepted q.event) db)
    (hQ : ∀ own db db', Stable S own (.accepted q.event :: log) db db' → Q db → Q db')
    {db : Database} : Ok S (castBallot E q k) db [] [] log :=
  castBallot_makes hS hk hk' hdone.makes haccept hQ

end

/-! ### What issuing commits -/

theorem revoke_not_issued (v : ℕ) (k : Key) (r : Row k) (h : issuedTo v k r = true) :
    issuedTo v k (revoke k r) = false := by
  cases k <;> simp_all [issuedTo, revoke]

/-- **What the commit of an issue does**: there is a new issued authorization
for a voter who has not voted, and every other issued one of the voter is
revoked. -/
structure IssueDone (E : Env) (q : IssueRequest) (a : AuthorizationRow) (v : VoterRow)
    (db db' : Database) : Prop where
  voter : db.row (.voter q.voter) = some v
  notVoted : v.status ≠ .VOTED
  new : db.row (.authorization (tokenHash E q.token)) = none
  own : a.voter = q.voter
  election : a.election = q.event
  issued : a.status = .ISSUED
  writes : ∃ w u own, AuditOnly w ∧ Updated (issuedTo q.voter) revoke own u db ∧
    db' = db.apply (w ++ ⟨.authorization (tokenHash E q.token), some a⟩ :: u)

/-- What an issue has to show of its commit. -/
def IssueCommits (S : Spec Row Note) (E : Env) (q : IssueRequest) (k : Except Failure String → Program)
    (log : List Note) : Prop :=
  ∀ own a v db db', S.inv db → .voter q.voter ∈ own → IssueDone E q a v db db' →
    S.inv db' ∧
      S.guar own ((k (.ok q.token)).settle (.issued (tokenHash E q.token) q.voter :: log)).2 db db' ∧
      S.fact (.issued (tokenHash E q.token) q.voter) db' ∧ Ok S (k (.ok q.token)) db' [] [] (.issued (tokenHash E q.token) q.voter :: log)

include hS in
/-- **Nothing comes of an issue but its commit**, where a thread that holds the
voter sees no authorization of the voter begin to be issued. -/
theorem issueAuthorization_ok {q : IssueRequest} {k : Except Failure String → Program}
    (hk : FailsOk S k log) (hdone : IssueCommits S E q k log)
    (hnew : ∀ own, .voter q.voter ∈ own → NoneBegins S (issuedTo q.voter) own log)
    {db : Database} : Ok S (issueAuthorization E q k) db [] [] log := by
  intro db₁ h₁
  dsimp only
  split
  · exact hk db₁ _
  · rename_i ev _
    split
    · exact hk db₁ _
    · refine Ok.lockRow (fun db₂ v h₂ hv => ?_) fun _ _ => hk.rollback
      dsimp only
      split
      · exact hk.rollback
      · rename_i hvoted
        intro db₃ h₃
        dsimp only
        split
        · exact hk.rollback
        · intro db₄ h₄
          dsimp only
          split
          · exact hk.rollback
          · have hq := hnew [.voter q.voter] (by simp)
            refine Ok.updateWhere hS hq (revoke_not_issued q.voter) fun db₅ own₅ u h₅ hsub hu => ?_
            have hvo : .voter q.voter ∈ own₅ := hsub _ (by simp)
            refine Ok.insertOr (fun db₆ h₆ hnone => ?_) fun _ _ => hk.rollback
            have hu₆ := hu.stable hq hsub h₆
            have hnone₆ : db₆.row (.authorization (tokenHash E q.token)) = none := by
              rw [hu₆.rows] at hnone
              simpa using hnone
            refine record_ok hS (hk.exits.to _) fun db₇ own' w h₇ hsub' hw db₈ h₈ => ?_
            have hst := h₇.trans hS (h₈.sub hS hsub')
            have hu₈ := hu₆.stable hq hsub (hst.sub hS fun x hx => List.mem_cons_of_mem _ hx)
            have hv₈ : db₈.row (.voter q.voter) = some v := by
              rw [hst.held _ (by simp [hvo]), h₆.held _ hvo, h₅.held _ (by simp), h₄.held _ (by simp),
                h₃.held _ (by simp)]
              exact hv
            have hn₈ : db₈.row (.authorization (tokenHash E q.token)) = none := by
              rw [hst.held _ (by simp)]
              exact hnone₆
            exact hdone own' (q.row ev _) v db₈ _ h₈.inv (hsub' _ (by simp [hvo]))
              ⟨hv₈, hvoted, hn₈, rfl, rfl, rfl, w, u, own₅, hw, hu₈, rfl⟩

end Ok

end Casting
end FlexyVotes
