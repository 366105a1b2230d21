/-
# Single sign-on

`_sso_options` offers an election's voters the platform's providers and the one
of its organization, where the election takes single sign-on. `sso_start` takes
any provider for any election, and the callback asks no more: so a voter session
comes from a provider of the election exactly of what was offered at the start
(`sso_trusted`), and otherwise an organization's provider signs its own
identities into the elections of another.

What the providers answer, with the check of the token's signature, is a parameter
of the callback.

Key definitions: `Flow`, `ssoStart`, `ssoCallback`, `Trusted`, `Offered`.
Key theorems: `voterFromSso_apart`, `Tied.step`, `sso_trusted`.
-/
import FlexyVotes.Lib.Conduct
import FlexyVotes.Lib.Steps
import FlexyVotes.Elections.VoterAuth

namespace FlexyVotes
namespace Sso

open Transactions Audit Voters VoterAuth

/-! ### Providers -/

/-- An entry of `SSO_PROVIDERS`. -/
structure Provider where
  name : String
  issuer : String
  clientId : Option String := none
  clientSecret : Option String := none

/-- `Organization.sso_config`. -/
structure SsoConfig where
  issuer : String := ""
  clientId : String := ""
  clientSecret : String := ""
  name : String := ""
  allowedDomains : List String := []

/-- The settings of the platform and of the organizations. -/
structure Settings where
  providers : List (String × Provider)
  ssoConfig : ℕ → Option SsoConfig
  /-- `urlparse(…).hostname`. -/
  hostname : String → Option String

/-- What `provider_config` returns. -/
structure Config where
  key : String
  name : String
  issuer : String
  clientId : String
  clientSecret : String := ""
  allowedDomains : List String := []
  extraHosts : List String := []

/-- `rstrip('/')`. -/
def rstripSlash (s : String) : String := String.ofList (s.toList.rdropWhile (· = '/'))

/-- `provider_config`; an error is an `SSOError`. -/
def providerConfig (S : Settings) (key : String) (organization : Option (ℕ × OrganizationRow)) : Except String Config :=
  match (S.providers.find? fun p => p.1 = key).map (·.2) with
  | some p =>
    if p.clientId.getD "" = "" then .error (p.name ++ " sign-in is not configured.")
    else .ok { key := key, name := p.name, issuer := p.issuer, clientId := p.clientId.getD "",
               clientSecret := p.clientSecret.getD "" }
  | none =>
    match organization with
    | some (pk, o) =>
      if "org-".toList.isPrefixOf key.toList then
        let sso := (S.ssoConfig pk).getD {}
        if sso.issuer = "" ∨ sso.clientId = "" then .error "Single sign-on is not configured for this organization."
        else .ok { key := key, name := if sso.name = "" then o.name else sso.name, issuer := rstripSlash sso.issuer,
                   clientId := sso.clientId, clientSecret := sso.clientSecret, allowedDomains := sso.allowedDomains,
                   extraHosts := (S.hostname sso.issuer).toList }
      else .error "Unknown sign-in provider."
    | none => .error "Unknown sign-in provider."

/-! ### Flows -/

/-- A login under way, in the session of a browser. -/
structure Flow where
  provider : String
  nonce : String
  verifier : String
  purpose : String
  next : String
  organization : Option ℕ
  event : Option ℕ
  /-- In seconds. -/
  started : ℕ

/-- The tables, and the flows in the session of each browser, the oldest first. -/
structure World where
  db : Database
  flows : ℕ → List (String × Flow) := fun _ => []

def World.setFlows (w : World) (browser : ℕ) (flows : List (String × Flow)) : World :=
  { w with flows := fun b => if b = browser then flows else w.flows b }

/-- One request of `sso_start`, with what it draws. -/
structure StartRequest where
  browser : ℕ
  provider : String
  /-- `?event`. -/
  event : Option String := none
  next : String := "/"
  /-- Whether the provider answers to `discovery`. -/
  discovers : Config → Bool
  state : String
  nonce : String
  verifier : String
  now : ℕ

/-- `str.isdigit`. -/
def isDigits (E : Env) (s : String) : Bool := s ≠ "" && s.toList.all E.isDigit

/-- The organization of an `org-` provider. -/
def organizationOf (E : Env) (db : Database) (provider : String) : Option (ℕ × OrganizationRow) := do
  guard ("org-".toList.isPrefixOf provider.toList)
  let digits := String.ofList (provider.toList.drop 4)
  let pk ← if isDigits E digits then (E.parseInt digits).map Int.toNat else some 0
  let o ← db.row (.organization pk)
  return (pk, o)

/-- `int(event_id) if event_id and event_id.isdigit() else None`; nothing where
`int` raises. -/
def eventId (E : Env) : Option String → Option (Option ℕ)
  | none => some none
  | some s => if isDigits E s then (E.parseInt s).map fun n => some n.toNat else some none

/-- The flow `build_authorize_url` keeps. -/
def StartRequest.flow (q : StartRequest) (organization : Option (ℕ × OrganizationRow)) (event : Option ℕ) : Flow where
  provider := q.provider
  nonce := q.nonce
  verifier := q.verifier
  purpose := if q.event.getD "" = "" then "staff" else "voter"
  next := q.next
  organization := organization.map (·.1)
  event := event
  started := q.now

/-- `sso_start`: the last four flows stay beside the new one. -/
def ssoStart (E : Env) (S : Settings) (q : StartRequest) (w : World) : World :=
  let organization := organizationOf E w.db q.provider
  match eventId E q.event, providerConfig S q.provider organization with
  | some event, .ok config =>
    if q.discovers config then
      let flows := (w.flows q.browser).drop ((w.flows q.browser).length - 4)
      w.setFlows q.browser (flows.filter (·.1 ≠ q.state) ++ [(q.state, q.flow organization event)])
    else w
  | _, _ => w

/-- One request of `sso_callback`. -/
structure CallbackRequest where
  browser : ℕ
  provider : String
  /-- Whether the provider reports an error. -/
  error : Bool := false
  state : String
  /-- The claims of the ID token the provider gives for the code and that was
  verified, or why there are none. -/
  answer : Config → Flow → Except String Claims
  request : Option Request := none
  planLimit : Option ℕ := none
  draw : Draw
  seconds : ℕ
  now : ℕ → Time

/-- `email.rsplit('@', 1)[-1]`. -/
def domainOf (email : String) : String := String.ofList (email.toList.reverse.takeWhile (· ≠ '@')).reverse

/-- `handle_callback`, with the flows it leaves. -/
def handleCallback (E : Env) (S : Settings) (q : CallbackRequest) (w : World) :
    Except String (Claims × Flow) × List (String × Flow) :=
  let flows := w.flows q.browser
  if q.error then (.error "Sign-in was cancelled or refused by the identity provider.", flows)
  else
    let rest := flows.filter (·.1 ≠ q.state)
    match (flows.find? fun f => f.1 = q.state).map (·.2) with
    | none => (.error "This sign-in link has expired. Please try again.", rest)
    | some flow =>
      if flow.provider ≠ q.provider ∨ flow.started + 600 < q.seconds then
        (.error "This sign-in link has expired. Please try again.", rest)
      else
        let organization := flow.organization.bind fun pk => (w.db.row (.organization pk)).map fun o => (pk, o)
        match providerConfig S q.provider organization with
        | .error e => (.error e, rest)
        | .ok config =>
          match q.answer config flow with
          | .error e => (.error e, rest)
          | .ok claims =>
            let domains := (config.allowedDomains.filter (· ≠ "")).map E.lower
            if domains ≠ [] ∧ domainOf (E.lower claims.email) ∉ domains then
              (.error "Use your institutional account to sign in.", rest)
            else (.ok (claims, flow), rest)

/-- The election a flow is for. -/
def Flow.voterEvent (f : Flow) : Option ℕ := if f.purpose = "voter" then f.event.filter (· ≠ 0) else none

/-- The call of `voter_from_sso`. -/
def CallbackRequest.sso (q : CallbackRequest) (event : ℕ) (claims : Claims) : SsoRequest where
  event := event
  claims := claims
  request := q.request
  planLimit := q.planLimit
  draw := q.draw
  now := q.now

/-- What `sso_callback` does with a voter's flow. -/
def callbackProgram (E : Env) (q : CallbackRequest) (event : ℕ) (claims : Claims) : Program :=
  .read fun db =>
    match db.row (.event event) with
    | none => .halt
    | some ev => voterFromSso E (q.sso event claims) ev afterAuth

/-- `sso_callback`; an organizer's login is no part of it here. -/
def ssoCallback (E : Env) (S : Settings) (q : CallbackRequest) (w : World) : World :=
  let (result, flows) := handleCallback E S q w
  let w := w.setFlows q.browser flows
  match result with
  | .error _ => w
  | .ok (claims, flow) =>
    match flow.voterEvent with
    | none => w
    | some event => { w with db := (callbackProgram E q event claims).after w.db }

/-! ### Runs -/

inductive Call
  | start (q : StartRequest)
  | callback (q : CallbackRequest)

def step (E : Env) (S : Settings) (c : Call) (w : World) : World :=
  match c with
  | .start q => ssoStart E S q w
  | .callback q => ssoCallback E S q w

/-- The voter session a request opens: the flow, the election and the voter. -/
def opened (E : Env) (S : Settings) (c : Call) (w : World) : Option (Flow × ℕ × ℕ) :=
  match c with
  | .start _ => none
  | .callback q =>
    match (handleCallback E S q w).1 with
    | .error _ => none
    | .ok (claims, flow) =>
      flow.voterEvent.bind fun event =>
        (((callbackProgram E q event claims).exec w.db [] []).log.findSome? fun
          | .signedIn pk => some pk
          | _ => none).map fun pk => (flow, event, pk)

/-- A provider of the platform, or the one of the election's organization. -/
def Ties (S : Settings) (provider : String) (organization : Option ℕ) (ev : EventRow) : Prop :=
  (∃ p, (provider, p) ∈ S.providers) ∨ (organization.isSome ∧ organization = ev.organization)

/-- **A voter session comes from a provider of the election**, where it takes
single sign-on. -/
def Trusted (E : Env) (S : Settings) (c : Call) (w : World) : Prop :=
  ∀ flow event pk, opened E S c w = some (flow, event, pk) → ∃ ev, w.db.row (.event event) = some ev ∧
    "SSO" ∈ ev.authMethods ∧ Ties S flow.provider flow.organization ev

/-- A voter's login begins as `_sso_options` offers it. -/
def Offered (E : Env) (S : Settings) : Call → World → Prop
  | .start q, w => ∀ event ev, eventId E q.event = some (some event) → w.db.row (.event event) = some ev →
      "SSO" ∈ ev.authMethods ∧ Ties S q.provider ((organizationOf E w.db q.provider).map (·.1)) ev
  | .callback _, _ => True

/-! ### What a sign-in writes -/

/-- The rows of the voter roll, and the audit log. -/
def isRoll : Key → Bool
  | .voter _ | .identifier _ _ | .credential _ _ => true
  | k => isAudit k

section Writes

variable {E : Env} {n : Note → Bool} {out : Program → Prop}

theorem recordNow_apart {a : Entry} {fail k : Program} (hfail : fail.Apart isRoll n out) (hk : k.Apart isRoll n out) :
    (recordNow E a fail k).Apart isRoll n out :=
  record_apart (fun x hx => by cases x <;> first | rfl | cases hx) (.rollback hfail) (.commit hk)

theorem saveFields_apart {pk : ℕ} {f : VoterRow → VoterRow} {gone p : Program} (hgone : gone.Apart isRoll n out)
    (hp : p.Apart isRoll n out) : (saveFields pk f gone p).Apart isRoll n out :=
  .lockRow (.rollback hgone) fun _ => .put rfl (.commit hp)

/-- The code is inserted, if the voter has one. -/
theorem insertCredential_apart {pk : ℕ} {v : VoterRow} {undo p : Program} (hundo : undo.Apart isRoll n out)
    (hp : p.Apart isRoll n out) : (match v.credentialHash with
      | none => p
      | some h => .insert (.credential v.election h) pk fun
        | true => p
        | false => undo).Apart isRoll n out := by
  split
  · exact hp
  · refine .insert rfl fun b => ?_
    cases b
    · exact hundo
    · exact hp

theorem insertVoter_apart {pk : ℕ} {v : VoterRow} {taken p : Program} (htaken : taken.Apart isRoll n out)
    (hp : p.Apart isRoll n out) : (insertVoter pk v taken p).Apart isRoll n out := by
  have hundo : (Prog.put (.voter pk) none taken : Program).Apart isRoll n out := .put rfl htaken
  refine .insert rfl fun b => ?_
  cases b with
  | false => exact htaken
  | true =>
    dsimp only
    split
    · exact insertCredential_apart hundo hp
    · refine .insert rfl fun b => ?_
      cases b with
      | false => exact hundo
      | true => exact insertCredential_apart (.put rfl hundo) hp

theorem selfRegister_apart {q : RegisterRequest} {ev : EventRow} {k : Except Failure (ℕ × VoterRow) → Program}
    (hn : ∀ x, n x = true) (hk : ∀ r, (k r).Apart isRoll n out) : (selfRegister E q ev k).Apart isRoll n out := by
  have hsave : (saveRegistration E q ev k).Apart isRoll n out :=
    insertVoter_apart (.rollback (hk _)) (.commit (.note (hn _) (recordNow_apart (hk _) (hk _))))
  have hlimit : (checkPlanLimit q.event ev q.planLimit 1 (k (.error .billingLimit)) (saveRegistration E q ev k)).Apart
      isRoll n out := by
    unfold checkPlanLimit
    split
    · exact hsave
    · refine .read fun db => ?_
      split
      · exact hk _
      · exact hsave
  unfold selfRegister
  split
  · exact hk _
  split
  · exact hk _
  split
  · exact hk _
  dsimp only
  split
  · exact hk _
  refine .read fun db => ?_
  split
  · exact hk _
  refine .note (hn _) ?_
  split
  · exact hlimit
  · refine .read fun db => ?_
    split
    · exact hk _
    · exact hlimit

/-- Who is not on the roll registers, where that is allowed. -/
theorem ssoRegister_apart {q : SsoRequest} {ev : EventRow} {k : Except Failure (ℕ × VoterRow) → Program}
    (hn : ∀ x, n x = true) (hk : ∀ r, (k r).Apart isRoll n out) : (if E.strip q.claims.email ≠ "" ∧ q.claims.emailVerified ∧ ev.allowSelfRegistration then
      selfRegister E (q.register E) ev fun
        | .error (.voterImport message) => k (.error (.voterAuth message "registration"))
        | .error failure => k (.error failure)
        | .ok (pk, v) =>
          saveFields pk (fun r => { r with ssoSubjectIndex := q.subject E, source := .SSO })
            (k (.error (.crash "DatabaseError")))
            (k (checkStatus pk { v with ssoSubjectIndex := q.subject E, source := .SSO }))
      else authFail E (failedEntry q.event ev q.request "SSO" "not on roll" (q.now 5)) k).Apart isRoll n out := by
  split
  · refine selfRegister_apart hn fun r => ?_
    split
    · exact hk _
    · exact hk _
    · exact saveFields_apart (hk _) (hk _)
  · exact recordNow_apart (hk _) (hk _)

/-- **`voter_from_sso`** writes to the roll only. -/
theorem voterFromSso_apart {q : SsoRequest} {ev : EventRow} {k : Except Failure (ℕ × VoterRow) → Program}
    (hn : ∀ x, n x = true) (hk : ∀ r, (k r).Apart isRoll n out) : (voterFromSso E q ev k).Apart isRoll n out := by
  unfold voterFromSso
  refine .read fun db => ?_
  split
  · exact hk _
  split
  · refine .read fun db => ?_
    split
    · exact saveFields_apart (hk _) (hk _)
    · exact ssoRegister_apart hn hk
  · exact ssoRegister_apart hn hk

end Writes

/-! ### Runs of sign-ins -/

section Runs

variable {E : Env} {S : Settings} {w : World}

/-- The elections stay as they are. -/
def SameEvents (db db' : Database) : Prop := ∀ e, db'.row (.event e) = db.row (.event e)

/-- **A callback** leaves the elections. -/
theorem callback_events (q : CallbackRequest) (event : ℕ) (claims : Claims) (db : Database) :
    SameEvents db ((callbackProgram E q event claims).after db) := by
  have hrefl : ∀ v, SameEvents v v := fun _ _ => rfl
  have hignores : Ignores SameEvents isRoll := fun v k r hk e =>
    Db.set_row_ne _ _ fun heq => by rw [← heq] at hk; cases hk
  have hauth : ∀ r, (afterAuth r).Apart isRoll (fun _ => true) fun _ => False := fun r => by
    cases r with
    | error _ => exact .halt
    | ok _ => exact .note rfl .halt
  have hapart : (callbackProgram E q event claims).Apart isRoll (fun _ => true) fun _ => False := by
    refine .read fun db => ?_
    split
    · exact .halt
    · exact voterFromSso_apart (fun _ => rfl) hauth
  have hkeeps := hapart.keepsAll hrefl (fun _ _ _ h h' e => (h' e).trans (h e)) hignores fun _ h => h.elim
  exact (hkeeps db).after hrefl

/-- The flows of voters' logins are of providers of their elections. -/
def Tied (S : Settings) (w : World) : Prop :=
  ∀ browser, ∀ x ∈ w.flows browser, ∀ event ev, x.2.voterEvent = some event → w.db.row (.event event) = some ev →
    "SSO" ∈ ev.authMethods ∧ Ties S x.2.provider x.2.organization ev

theorem Flow.voterEvent_eq {f : Flow} {event : ℕ} (h : f.voterEvent = some event) : f.event = some event := by
  unfold Flow.voterEvent at h
  split at h
  · exact (Option.filter_eq_some_iff.mp h).1
  · cases h

/-- Fewer flows are tied as they were. -/
theorem Tied.setFlows (h : Tied S w) {browser : ℕ} {flows : List (String × Flow)}
    (hflows : ∀ x ∈ flows, x ∈ w.flows browser ∨ ∀ event ev, x.2.voterEvent = some event →
      w.db.row (.event event) = some ev → "SSO" ∈ ev.authMethods ∧ Ties S x.2.provider x.2.organization ev) :
    Tied S (w.setFlows browser flows) := by
  intro b x hx event ev hevent hev
  unfold World.setFlows at hx
  dsimp only at hx
  split at hx
  · rename_i hb
    subst hb
    rcases hflows x hx with hold | hnew
    · exact h b x hold event ev hevent hev
    · exact hnew event ev hevent hev
  · exact h b x hx event ev hevent hev

/-- What `handle_callback` leaves was there. -/
theorem handleCallback_flows (q : CallbackRequest) {x : String × Flow} (hx : x ∈ (handleCallback E S q w).2) :
    x ∈ w.flows q.browser := by
  unfold handleCallback at hx
  dsimp only at hx
  split at hx
  · exact hx
  split at hx
  · exact List.mem_of_mem_filter hx
  split at hx
  · exact List.mem_of_mem_filter hx
  split at hx
  · exact List.mem_of_mem_filter hx
  split at hx
  · exact List.mem_of_mem_filter hx
  split at hx
  · exact List.mem_of_mem_filter hx
  · exact List.mem_of_mem_filter hx

/-- **What it returns** is a flow of the browser. -/
theorem handleCallback_flow {q : CallbackRequest} {claims : Claims} {flow : Flow}
    (h : (handleCallback E S q w).1 = .ok (claims, flow)) : (q.state, flow) ∈ w.flows q.browser := by
  unfold handleCallback at h
  dsimp only at h
  split at h
  · cases h
  split at h
  · cases h
  rename_i found hfound
  obtain ⟨x, hx, rfl⟩ := Option.map_eq_some_iff.mp hfound
  have hstate : x.1 = q.state := by simpa using List.find?_some hx
  split at h
  · cases h
  split at h
  · cases h
  split at h
  · cases h
  split at h
  · cases h
  · cases h
    exact hstate ▸ List.mem_of_find?_eq_some hx

/-- **One request** keeps the flows tied. -/
theorem Tied.step (c : Call) (h : Tied S w) (hoffered : Offered E S c w) : Tied S (step E S c w) := by
  cases c with
  | start q =>
    unfold Sso.step ssoStart
    dsimp only
    split
    · rename_i event config hevent _
      split
      · refine h.setFlows fun x hx => ?_
        rcases List.mem_append.mp hx with hold | hnew
        · exact .inl (List.mem_of_mem_drop (List.mem_of_mem_filter hold))
        · rw [List.mem_singleton] at hnew
          subst hnew
          refine .inr fun e ev he hev => hoffered e ev ?_ hev
          rw [hevent]
          exact congrArg some (Flow.voterEvent_eq he)
      · exact h
    · exact h
  | callback q =>
    have hrest : Tied S (w.setFlows q.browser (handleCallback E S q w).2) :=
      h.setFlows fun x hx => .inl (handleCallback_flows q hx)
    unfold Sso.step ssoCallback
    dsimp only
    split
    · exact hrest
    split
    · exact hrest
    · rename_i claims flow _ _ event _
      intro b x hx e ev he hev
      rw [callback_events] at hev
      exact hrest b x hx e ev he hev

/-- **Where the flows are tied,** a session comes from a provider of the election. -/
theorem Tied.trusted (c : Call) (h : Tied S w) : Trusted E S c w := by
  intro flow event pk hopened
  cases c with
  | start q => cases hopened
  | callback q =>
    unfold opened at hopened
    dsimp only at hopened
    split at hopened
    · cases hopened
    rename_i claims flow' hresult
    obtain ⟨event', hevent, hopened⟩ := Option.bind_eq_some_iff.mp hopened
    obtain ⟨pk', hpk, hopened⟩ := Option.map_eq_some_iff.mp hopened
    cases hopened
    cases hev : w.db.row (.event event) with
    | none =>
      unfold callbackProgram at hpk
      rw [Prog.exec_read, Db.apply_nil, hev] at hpk
      cases hpk
    | some ev =>
      exact ⟨ev, rfl, h q.browser _ (handleCallback_flow hresult) event ev hevent hev⟩

/-- **Voter sessions come from providers of the election**, in every run whose
logins begin as they are offered. -/
theorem sso_trusted (E : Env) (S : Settings) (calls : List Call) (db : Database)
    (h : Steps.Always (step E S) (Offered E S) calls { db := db }) :
    Steps.Always (step E S) (Trusted E S) calls { db := db } := by
  have hbegin : Tied S { db := db } := fun _ x hx => by cases hx
  exact Steps.Always.imp (I := Tied S) (fun c _ htied hc => htied.step c hc) (fun c _ htied _ => htied.trusted c) hbegin h

/-! ### Another organization's provider -/

/-- The election of an organization that takes single sign-on, with one voter on the
roll. -/
def campus (organization : ℕ) : Database :=
  Db.empty.apply [⟨.organization 1, some ⟨"Guild"⟩⟩, ⟨.organization 2, some ⟨"Campus"⟩⟩,
    ⟨.event 1, some { startDate := 0, endDate := 10, organization := some organization, authMethods := ["SSO"] }⟩,
    ⟨.voter 1, some { election := 1, email := some "ama@uni.edu", emailIndex := "email:ama@uni.edu" }⟩]

/-- Both organizations have a provider. -/
def tenants : Settings where
  providers := []
  ssoConfig := fun pk => some { issuer := "https://idp" ++ toString pk, clientId := "c" }
  hostname := some

def reading : Env := { Env.plain with parseInt := fun s => if s = "1" then some 1 else none }

/-- A login with the provider of the first organization. -/
def startOther : StartRequest where
  browser := 0
  provider := "org-1"
  event := some "1"
  discovers := fun _ => true
  state := "s"
  nonce := "n"
  verifier := "v"
  now := 0

/-- The provider asserts the e-mail of the voter. -/
def assertOther : CallbackRequest where
  browser := 0
  provider := "org-1"
  state := "s"
  answer := fun c _ => .ok { iss := c.issuer, sub := "1", email := "ama@uni.edu", emailVerified := true }
  draw := ⟨9, "C"⟩
  seconds := 5
  now := fun _ => 5

/-- In the election of its own organization. -/
theorem sso_trusted_own : Steps.Always (step reading tenants) (Trusted reading tenants)
    [.start startOther, .callback assertOther] { db := campus 1 } := by
  refine sso_trusted reading tenants _ _ ⟨fun event ev hevent hev => ?_, trivial, trivial⟩
  have hone : eventId reading startOther.event = some (some 1) := by decide
  rw [hone] at hevent
  cases hevent
  have hcampus : ((campus 1).row (.event 1)).map (fun ev => (ev.organization, ev.authMethods)) = some (some 1, ["SSO"]) := by
    decide +kernel
  rw [hev, Option.map_some, Option.some.injEq, Prod.mk.injEq] at hcampus
  refine ⟨by rw [hcampus.2]; decide, .inr ⟨by decide +kernel, ?_⟩⟩
  rw [hcampus.1]
  decide +kernel

/-- In the election of another organization, the voter is signed in. -/
theorem not_sso_trusted : ¬ ∀ (E : Env) (S : Settings) (calls : List Call) (db : Database),
    Steps.Always (step E S) (Trusted E S) calls { db := db } := by
  intro h
  have htrusted : Trusted reading tenants (.callback assertOther) (step reading tenants (.start startOther)
    { db := campus 2 }) := (h reading tenants [.start startOther, .callback assertOther] (campus 2)).2.1
  have hopened : (opened reading tenants (.callback assertOther) (step reading tenants (.start startOther)
      { db := campus 2 })).map (fun x => (x.1.organization, x.2.1)) = some (some 1, 1) := by decide +kernel
  obtain ⟨⟨flow, event, pk⟩, hsome, hx⟩ := Option.map_eq_some_iff.mp hopened
  obtain ⟨hflow, hevent⟩ : flow.organization = some 1 ∧ event = 1 := Prod.mk.inj hx
  obtain ⟨ev, hev, -, hties⟩ := htrusted flow event pk hsome
  rw [hevent] at hev
  have hcampus : ((step reading tenants (.start startOther) { db := campus 2 }).db.row (.event 1)).map (·.organization) =
    some (some 2) := by decide +kernel
  rw [hev, Option.map_some] at hcampus
  rcases hties with ⟨p, hp⟩ | ⟨-, horganization⟩
  · cases hp
  · rw [hflow, Option.some.inj hcampus] at horganization
    cases horganization

end Runs

end Sso
end FlexyVotes
