/-
# Editing an election

`requireEditable` lets an edit go on, or fails; what it is asked for an approved
election returns it to draft first. `settingsView` is the settings form: the
row is read, changed and saved whole, and the key custody stays as it is once
the ballot key exists.

Key definitions: `requireEditable`, `SettingsPost`, `edited`, `settingsView`.
-/
import FlexyVotes.Elections.Lifecycle

namespace FlexyVotes
namespace Editing

open Transactions Audit Configuration Lifecycle

/-! ### What changed -/

/-- `audit.diff`: the fields whose value changed, old and new. -/
def diff (before after : List (String × Json)) : Json :=
  .obj ((before.zip after).filterMap fun (old, new) =>
    if old.2 == new.2 then none else some (old.1, .obj [("old", old.2), ("new", new.2)]))

/-- `audit.snapshot` of the fields of the settings, by name. -/
def snapshot (ev : EventRow) : List (String × Json) :=
  [("allow_self_registration", .bool ev.allowSelfRegistration),
    ("auth_methods", .arr (ev.authMethods.map .str)),
    ("dual_approval_required", .bool ev.dualApprovalRequired),
    ("is_active", .bool ev.isActive),
    ("key_custody", .str ev.keyCustody.value),
    ("max_spend_per_voter", Json.opt (fun n => .str (decimal2 n)) ev.maxSpendPerVoter),
    ("max_votes_per_transaction", Json.opt .nat ev.maxVotesPerTransaction),
    ("max_votes_per_voter", Json.opt .nat ev.maxVotesPerVoter),
    ("min_anonymity_set", .nat ev.minAnonymitySet),
    ("min_votes_per_transaction", .nat ev.minVotesPerTransaction),
    ("record_constituency_on_ballot", .bool ev.recordConstituencyOnBallot),
    ("registration_email_domains", .str ev.registrationEmailDomains),
    ("require_second_factor", .bool ev.requireSecondFactor),
    ("results_visibility", .str ev.resultsVisibility.value),
    ("trustee_threshold", .nat ev.trusteeThreshold)]

/-! ### Whether an edit may go on -/

/-- The entry of an approval that an edit resets. -/
def resetEntry (e : ℕ) (ev : EventRow) (actor : Option User) (request : Option Request) (now : Time) : Entry where
  eventType := "ELECTION_APPROVAL_RESET"
  request := request
  actor := actor
  event := some (e, ev.organization)
  summary := "Configuration change returned election from " ++ ev.status.value ++ " to DRAFT"
  changes := .obj [("status", .obj [("old", .str ev.status.value), ("new", .str EventStatus.DRAFT.value)])]
  createdAt := now

/-- `require_editable`, with the row the caller has read: a reset is written at
once, and the caller goes on with its row in draft. -/
def requireEditable (E : Env) (e : ℕ) (ev : EventRow) (scope : Scope) (actor : Option User)
    (request : Option Request) (now : Time) (fail : Failure → Program) (k : EventRow → Program) : Program :=
  match editPolicy ev scope with
  | (false, _, reason) => fail (.lifecycle reason)
  | (true, false, _) => k ev
  | (true, true, _) =>
    .update (.event e) (fun _ => true) (fun r => { r with status := .DRAFT, reviewedBy := none }) fun _ =>
    .commit <|
    recordNow E (resetEntry e ev actor request now) (fail (.crash "DatabaseError")) (k { ev with status := .DRAFT })

/-! ### The settings -/

/-- One post of the settings form. -/
structure SettingsPost where
  event : ℕ
  user : User
  request : Option Request := none
  /-- `request.POST`. -/
  post : String → Option String
  /-- `request.POST.getlist('auth_methods')`. -/
  authMethods : List String
  /-- `max_spend_per_voter` as `parse_non_negative_decimal` reads it, in hundredths. -/
  maxSpend : Option ℕ := none
  /-- `feature_enabled` of the organization. -/
  feature : String → Bool := fun _ => true
  now : ℕ → Time

/-- `AUTH_METHOD_CHOICES`. -/
def AUTH_METHODS : List String := ["CODE", "EMAIL_OTP", "SMS_OTP", "SSO", "LDAP", "ACCOUNT"]

/-- `SETTINGS_FEATURES`. -/
def SETTINGS_FEATURES : List (String × String) := [("SSO", "sso"), ("LDAP", "ldap")]

/-- A box is ticked. -/
def SettingsPost.ticked (q : SettingsPost) (name : String) : Bool := q.post name = some "on"

/-- `_int` of the form, where `default` stands for no number. -/
def SettingsPost.int (E : Env) (q : SettingsPost) (name : String) (default : Option ℕ) (minimum : ℕ) : Option ℕ :=
  let value := E.strip ((q.post name).getD "")
  if value = "" then default
  else
    match E.parseInt value with
    | some n => some (max (minimum : ℤ) n).toNat
    | none => default

/-- The methods of the form, less those the plan does not have. -/
def SettingsPost.methods (q : SettingsPost) (ev : EventRow) : List String :=
  let chosen := SETTINGS_FEATURES.foldl (fun methods m =>
      if m.1 ∈ methods ∧ ev.organization.isSome ∧ q.feature m.2 = false then methods.erase m.1 else methods)
    (q.authMethods.filter (· ∈ AUTH_METHODS))
  if ev.isInstitutional ∧ chosen = [] then ["CODE"] else chosen

/-- The custody of the form. One that is no choice is kept like `SYSTEM`
everywhere. -/
def SettingsPost.keyCustody (q : SettingsPost) (ev : EventRow) : KeyCustody :=
  match q.post "key_custody" with
  | none => ev.keyCustody
  | some custody => if custody = KeyCustody.TRUSTEES.value then .TRUSTEES else .SYSTEM

/-- The custody that is saved: `hasKey` says that the ballot key exists. -/
def SettingsPost.custody (q : SettingsPost) (hasKey : Bool) (ev : EventRow) : KeyCustody :=
  let custody := q.keyCustody ev
  let custody :=
    if custody = .TRUSTEES ∧ ev.organization.isSome ∧ q.feature "trustee_keys" = false then .SYSTEM else custody
  if hasKey ∧ custody ≠ ev.keyCustody then ev.keyCustody else custody

/-- `results_visibility`, where the form names one. -/
def SettingsPost.visibility (q : SettingsPost) (ev : EventRow) : ResultsVisibility :=
  let visibility := ([.LIVE, .AFTER_CLOSE, .AFTER_PUBLISH].find? fun v : ResultsVisibility =>
    q.post "results_visibility" = some v.value).getD ev.resultsVisibility
  if ev.isInstitutional then .AFTER_PUBLISH else visibility

/-- The threshold of the form. -/
def SettingsPost.threshold (E : Env) (q : SettingsPost) (ev : EventRow) : ℕ :=
  (q.int E "trustee_threshold" (some ev.trusteeThreshold) 0).getD ev.trusteeThreshold

/-- The row with the settings of the form. -/
def SettingsPost.edited (E : Env) (q : SettingsPost) (hasKey : Bool) (ev : EventRow) : EventRow :=
  { ev with
    authMethods := q.methods ev
    requireSecondFactor := q.ticked "require_second_factor"
    allowSelfRegistration := q.ticked "allow_self_registration"
    registrationEmailDomains := truncate 300 ((q.post "registration_email_domains").getD "")
    resultsVisibility := q.visibility ev
    dualApprovalRequired := q.ticked "dual_approval_required"
    keyCustody := q.custody hasKey ev
    trusteeThreshold := q.threshold E ev
    recordConstituencyOnBallot := q.ticked "record_constituency_on_ballot"
    minAnonymitySet := max ((q.int E "min_anonymity_set" (some 5) 1).getD 5) 1
    maxVotesPerVoter := q.int E "max_votes_per_voter" none 0
    minVotesPerTransaction := max ((q.int E "min_votes_per_transaction" (some 1) 1).getD 1) 1
    maxVotesPerTransaction := q.int E "max_votes_per_transaction" none 0
    maxSpendPerVoter := q.maxSpend
    isActive := q.ticked "is_active" }

/-- The entry of a request without the permission. -/
def deniedEntry (perm : String) (e : ℕ) (ev : EventRow) (request : Option Request) (now : Time) : Entry where
  eventType := "ACCESS_DENIED"
  request := request
  event := some (e, ev.organization)
  result := .DENIED
  summary := "Missing " ++ perm ++ " on election " ++ toString e
  metadata := .obj [("permission", .str perm)]
  createdAt := now

def SettingsPost.entry (q : SettingsPost) (before after : EventRow) : Entry where
  eventType := "ELECTION_CONFIG_UPDATED"
  request := q.request
  event := some (q.event, after.organization)
  summary := "Election settings updated"
  changes := diff (snapshot before) (snapshot after)
  createdAt := q.now 1

/-- `settings_view` of a post. -/
def settingsView (E : Env) (q : SettingsPost) (k : Except Failure Unit → Program) : Program :=
  .read fun db =>
    match db.row (.event q.event) with
    | none => k (.error (.crash "Http404"))
    | some ev =>
      if ¬ permitted (some q.user) "election.edit" q.event then
        recordNow E (deniedEntry "election.edit" q.event ev q.request (q.now 0))
          (k (.error (.crash "DatabaseError"))) (k (.error .permission))
      else
        match editPolicy ev .config with
        | (false, _, reason) => k (.error (.lifecycle reason))
        | (true, _, _) =>
          .read fun db' =>
            let changed := q.edited E (db'.row (.ballotKey q.event)).isSome ev
            requireEditable E q.event changed .config (some q.user) q.request (q.now 0) (fun x => k (.error x))
              fun saved =>
                .put (.event q.event) (some saved) <|
                .commit <|
                recordNow E (q.entry ev saved) (k (.error (.crash "DatabaseError"))) (k (.ok ()))

end Editing
end FlexyVotes
