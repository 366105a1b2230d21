/-
# Signing in with an account

`register_view` asks anyone for an e-mail, and nothing checks whose it is. An
account that is linked to no voter of an election is signed in as the voter of
its e-mail: linked to that voter if nobody is, and signed in all the same if
another account is. So a voter session is the linked account's exactly where no
sign-in finds a voter by the e-mail (`account_sessions`).

Key definitions: `World`, `step`, `opened`, `Owned`, `ByLink`.
Key theorems: `opened_iff`, `owned_iff`, `linked_stays`, `account_sessions`.
-/
import FlexyVotes.Lib.Steps
import FlexyVotes.Core.AuditChain
import FlexyVotes.Core.Login
import FlexyVotes.Elections.VoterAuth

namespace FlexyVotes
namespace Accounts

open Transactions Audit Voters VoterAuth

/-! ### Registering -/

/-- What others compute for a registration. -/
structure Checks where
  /-- `captcha.verify_human`. -/
  human : Bool
  /-- `str.isalnum` of a character. -/
  isAlnum : Char → Bool
  /-- The messages of `validate_password`. -/
  passwordErrors : String → List String
  /-- `normalize_username`. -/
  normalizeUsername : String → String
  /-- `make_password`. -/
  makePassword : String → String

/-- One post of `register_view`, with the primary key the user will get. -/
structure RegisterPost where
  username : String
  email : String
  password : String
  checks : Checks
  user : ℕ

/-- `(request.POST.get('username') or '').strip()[:150]`. -/
def RegisterPost.name (E : Env) (q : RegisterPost) : String := truncate 150 (E.strip q.username)

/-- `username.replace('_', '').replace('.', '').replace('-', '').isalnum()`. -/
def validUsername (c : Checks) (username : String) : Bool :=
  let letters := username.toList.filter fun x => x ≠ '_' && x ≠ '.' && x ≠ '-'
  !letters.isEmpty && letters.all c.isAlnum

/-- The errors of `register_view`, in order. -/
def registerErrors (E : Env) (accounts : List (ℕ × Login.AccountRow)) (q : RegisterPost) : List String :=
  let username := q.name E
  (if q.checks.human then [] else ["Please complete the verification and try again."]) ++
  (if username = "" ∨ validUsername q.checks username = false then
      ["Choose a username using letters, numbers, dots, dashes or underscores."]
    else if accounts.any fun a => E.lower a.2.username = E.lower username then ["Username already taken."]
    else []) ++
  (if E.validEmail (E.strip q.email) then [] else ["Enter a valid email address."]) ++
  (if q.password = "" then ["Password is required."] else q.checks.passwordErrors q.password)

/-- `normalize_email`: the domain in lower case. -/
def normalizeEmail (E : Env) (email : String) : String :=
  let cs := (E.strip email).toList
  match cs.reverse.findIdx? (· = '@') with
  | none => email
  | some i =>
    String.ofList (cs.take (cs.length - i)) ++ E.lower (String.ofList (cs.drop (cs.length - i)))

/-- The account of `create_user`. -/
def RegisterPost.account (E : Env) (q : RegisterPost) : Login.AccountRow where
  username := q.checks.normalizeUsername (q.name E)
  password := q.checks.makePassword q.password
  email := normalizeEmail E (E.strip q.email)

/-! ### Runs -/

/-- The tables, the accounts, and the account each browser is signed in with. -/
structure World where
  db : Database
  accounts : List (ℕ × Login.AccountRow) := []
  user : ℕ → Option ℕ := fun _ => none

def World.account (w : World) (u : ℕ) : Option Login.AccountRow := (w.accounts.find? fun a => a.1 = u).map (·.2)

/-- `request.user`, with the e-mail of the account. -/
def World.requestUser (w : World) (browser : ℕ) : Option (ℕ × String) := do
  let u ← w.user browser
  let a ← w.account u
  return (u, a.email)

/-- One request of a browser. -/
inductive Call
  | register (browser : ℕ) (q : RegisterPost)
  /-- A login that ended in this account. -/
  | login (browser user : ℕ)
  /-- `vote_start` with the action `account`. -/
  | signIn (browser event : ℕ) (request : Option Request) (now : ℕ → Time)

/-- `event.auth_methods or ['CODE']`. -/
def methodsOf (ev : EventRow) : List String := if ev.authMethods = [] then ["CODE"] else ev.authMethods

/-- The call of `voter_for_account` in a world. -/
def accountRequest (w : World) (browser event : ℕ) (request : Option Request) (now : ℕ → Time) : AccountRequest where
  event := event
  user := w.requestUser browser
  request := request
  now := now

/-- The action `account` of `vote_start`. -/
def signInProgram (E : Env) (w : World) (browser event : ℕ) (request : Option Request) (now : ℕ → Time) : Program :=
  .read fun db =>
    match db.row (.event event) with
    | none => .halt
    | some ev =>
      if "ACCOUNT" ∈ methodsOf ev then voterForAccount E (accountRequest w browser event request now) ev afterAuth
      else .halt

def step (E : Env) (c : Call) (w : World) : World :=
  match c with
  | .register browser q =>
    if registerErrors E w.accounts q = [] ∧ w.account q.user = none then
      { w with accounts := w.accounts ++ [(q.user, q.account E)]
               user := fun b => if b = browser then some q.user else w.user b }
    else w
  | .login browser user =>
    if (w.account user).any (·.isActive) then { w with user := fun b => if b = browser then some user else w.user b }
    else w
  | .signIn browser event request now => { w with db := (signInProgram E w browser event request now).after w.db }

/-- The voter session a request opens, with the account it is opened for. -/
def opened (E : Env) (c : Call) (w : World) : Option (ℕ × ℕ) :=
  match c with
  | .signIn browser event request now =>
    match ((signInProgram E w browser event request now).exec w.db [] []).log, w.requestUser browser with
    | [.signedIn pk], some (u, _) => some (pk, u)
    | _, _ => none
  | _ => none

/-- The sessions a run opens. -/
def sessions (E : Env) : List Call → World → List (ℕ × ℕ)
  | [], _ => []
  | c :: cs, w => (opened E c w).toList ++ sessions E cs (step E c w)

def userOf (db : Database) (pk : ℕ) : Option ℕ := (db.row (.voter pk)).bind (·.user)

/-- A session is opened for the account the voter is linked to. The e-mail of no
account is verified, so there is no other one it may be opened for. -/
def Owned (E : Env) (c : Call) (w : World) : Prop := ∀ pk u, opened E c w = some (pk, u) → userOf w.db pk = some u

/-- No two accounts have a session for one voter. -/
def OneAccount (sessions : List (ℕ × ℕ)) : Prop := ∀ pk u u', (pk, u) ∈ sessions → (pk, u') ∈ sessions → u = u'

/-- The voter of the e-mail, who may be signed in as. -/
structure Found (E : Env) (db : Database) (event u : ℕ) (email : String) (pk : ℕ) (v : VoterRow) : Prop where
  unlinked : firstVoter db (isLinked event u) = none
  named : email ≠ ""
  found : firstVoter db (hasEmail event (E.blindIndex email "email")) = some (pk, v)
  eligible : v.canVote = true

/-- No sign-in finds the voter by the e-mail of the account. -/
def ByLink (E : Env) : Call → World → Prop
  | .signIn browser event _ _, w => ∀ ev u email pk v, w.db.row (.event event) = some ev → "ACCOUNT" ∈ methodsOf ev →
      w.requestUser browser = some (u, email) → ¬ Found E w.db event u email pk v
  | _, _ => True

/-! ### Who is signed in -/

section Sessions

variable {E : Env} {db : Database} {ev : EventRow} {q : AccountRequest} {u : ℕ} {email : String}

/-- The voter an account is signed in as, whatever the status. -/
def accountVoter (E : Env) (db : Database) (event u : ℕ) (email : String) : Option (ℕ × VoterRow) :=
  match firstVoter db (isLinked event u) with
  | some x => some x
  | none => if email = "" then none else firstVoter db (hasEmail event (E.blindIndex email "email"))

theorem checkStatus_log (pk : ℕ) (v : VoterRow) :
    ((afterAuth (checkStatus pk v)).exec db [] []).log = if v.canVote then [.signedIn pk] else [] := by
  unfold checkStatus VoterRow.canVote
  cases v.status <;> rfl

/-- A failed sign-in opens no session. -/
theorem authFail_log (a : Entry) : ((authFail E a afterAuth).exec db [] []).log = [] := by
  unfold authFail recordNow
  by_cases hfree : (db.apply []).row (.auditEvent (chainFor a.organizationId)
      ((headOf (db.apply []) (chainFor a.organizationId)).seq + 1)) = none
  · obtain ⟨w, -, hexec⟩ : ∃ w, Db.Only isAudit w ∧ (record E a (.rollback (afterAuth (.error (.crash "DatabaseError"))))
        (.commit (afterAuth (.error (.voterAuth GENERIC_FAILURE "invalid")))) : Program).exec db [] [] =
        (.commit (afterAuth (.error (.voterAuth GENERIC_FAILURE "invalid"))) : Program).exec db (w ++ []) [] :=
      record_exec hfree
    rw [hexec]
    rfl
  · obtain ⟨w, hexec⟩ : ∃ w, (record E a (.rollback (afterAuth (.error (.crash "DatabaseError"))))
        (.commit (afterAuth (.error (.voterAuth GENERIC_FAILURE "invalid")))) : Program).exec db [] [] =
        (.rollback (afterAuth (.error (.crash "DatabaseError"))) : Program).exec db w [] := record_taken hfree
    rw [hexec]
    rfl

theorem saveFields_exec {pk : ℕ} {v : VoterRow} {f : VoterRow → VoterRow} {gone p : Program}
    (h : db.row (.voter pk) = some v) :
    (saveFields pk f gone p).exec db [] [] = p.exec (db.apply [⟨.voter pk, some (f v)⟩]) [] [] := by
  have hrow : (db.apply []).row (.voter pk) = some v := h
  unfold saveFields
  rw [Prog.exec_lockRow hrow]
  rfl

/-- **`voter_for_account`** signs in as the voter it finds, who may vote. -/
theorem voterForAccount_log (huser : q.user = some (u, email)) :
    ((voterForAccount E q ev afterAuth).exec db [] []).log =
      match accountVoter E db q.event u email with
      | some (pk, v) => if v.canVote then [.signedIn pk] else []
      | none => [] := by
  unfold voterForAccount accountVoter
  rw [huser]
  dsimp only
  rw [Prog.exec_read, Db.apply_nil]
  cases hlinked : firstVoter db (isLinked q.event u) with
  | some x => exact checkStatus_log x.1 x.2
  | none =>
    dsimp only
    by_cases hemail : email = ""
    · rw [if_pos hemail, if_pos hemail]
      exact authFail_log _
    rw [if_neg hemail, if_neg hemail, Prog.exec_read, Db.apply_nil]
    cases hfound : firstVoter db (hasEmail q.event (E.blindIndex email "email")) with
    | none => exact authFail_log _
    | some x =>
      obtain ⟨pk, v⟩ := x
      dsimp only
      by_cases hnone : v.user = none
      · rw [if_pos hnone, saveFields_exec (firstVoter_row hfound).1]
        exact checkStatus_log pk (q.link u v)
      · rw [if_neg hnone]
        exact checkStatus_log pk v

end Sessions

section Runs

variable {E : Env} {w : World}

/-- **A session is opened** for the account of the browser, as the voter that is
found. -/
theorem opened_iff {browser event : ℕ} {request : Option Request} {now : ℕ → Time} {pk u : ℕ} :
    opened E (.signIn browser event request now) w = some (pk, u) ↔
      ∃ ev email v, w.db.row (.event event) = some ev ∧ "ACCOUNT" ∈ methodsOf ev ∧
        w.requestUser browser = some (u, email) ∧ accountVoter E w.db event u email = some (pk, v) ∧ v.canVote = true := by
  unfold opened signInProgram
  dsimp only
  rw [Prog.exec_read, Db.apply_nil]
  cases hev : w.db.row (.event event) with
  | none => simp [Prog.exec]
  | some ev =>
    dsimp only
    by_cases hmethod : "ACCOUNT" ∈ methodsOf ev
    swap
    · rw [if_neg hmethod]
      simp [Prog.exec, hmethod]
    rw [if_pos hmethod]
    cases huser : w.requestUser browser with
    | none => simp
    | some x =>
      obtain ⟨u', email⟩ := x
      have hlog : ((voterForAccount E (accountRequest w browser event request now) ev afterAuth).exec w.db [] []).log =
          match accountVoter E w.db event u' email with
          | some (pk, v) => if v.canVote then [.signedIn pk] else []
          | none => [] := voterForAccount_log huser
      rw [hlog]
      cases hvoter : accountVoter E w.db event u' email with
      | none =>
        simp only [Option.some.injEq, Prod.mk.injEq, reduceCtorEq, false_iff]
        rintro ⟨_, _, v, rfl, -, ⟨rfl, rfl⟩, hsome, -⟩
        rw [hvoter] at hsome
        cases hsome
      | some y =>
        obtain ⟨pk', v⟩ := y
        by_cases hvote : v.canVote = true
        · simp only [hvote, if_true, Option.some.injEq, Prod.mk.injEq]
          constructor
          · rintro ⟨rfl, rfl⟩
            exact ⟨ev, email, v, rfl, hmethod, ⟨rfl, rfl⟩, hvoter, hvote⟩
          · rintro ⟨_, _, v', rfl, -, ⟨rfl, rfl⟩, hsome, -⟩
            rw [hvoter] at hsome
            cases hsome
            exact ⟨rfl, rfl⟩
        · simp only [hvote, Bool.false_eq_true, if_false, Option.some.injEq, Prod.mk.injEq, reduceCtorEq, false_iff]
          rintro ⟨_, _, v', rfl, -, ⟨rfl, rfl⟩, hsome, hvote'⟩
          rw [hvoter] at hsome
          cases hsome
          exact hvote hvote'

/-- **One request** opens the linked account's session, or finds the voter by the
e-mail. -/
theorem owned_iff (c : Call) : Owned E c w ↔ ByLink E c w := by
  cases c with
  | register browser q => exact iff_of_true (fun pk u h => by cases h) trivial
  | login browser user => exact iff_of_true (fun pk u h => by cases h) trivial
  | signIn browser event request now =>
    constructor
    · intro howned ev u email pk v hev hmethod huser hfound
      have hvoter : accountVoter E w.db event u email = some (pk, v) := by
        unfold accountVoter
        rw [hfound.unlinked]
        dsimp only
        rw [if_neg hfound.named, hfound.found]
      have hlinked : userOf w.db pk = some u :=
        howned pk u (opened_iff.mpr ⟨ev, email, v, hev, hmethod, huser, hvoter, hfound.eligible⟩)
      obtain ⟨hrow, hemail⟩ := firstVoter_row hfound.found
      have hnot := firstVoter_none hfound.unlinked hrow
      have hevent : v.election = event := by
        unfold hasEmail at hemail
        simp only [Bool.and_eq_true, decide_eq_true_eq] at hemail
        exact hemail.1
      have huser : v.user = some u := by
        unfold userOf at hlinked
        rwa [hrow, Option.bind_some] at hlinked
      simp [isLinked, hevent, huser] at hnot
    · intro hlink pk u hopened
      obtain ⟨ev, email, v, hev, hmethod, huser, hvoter, hvote⟩ := opened_iff.mp hopened
      unfold accountVoter at hvoter
      cases hlinked : firstVoter w.db (isLinked event u) with
      | some x =>
        rw [hlinked] at hvoter
        cases hvoter
        obtain ⟨hrow, hlinked⟩ := firstVoter_row hlinked
        unfold isLinked at hlinked
        simp only [Bool.and_eq_true, decide_eq_true_eq] at hlinked
        unfold userOf
        rw [hrow, Option.bind_some, hlinked.2]
      | none =>
        rw [hlinked] at hvoter
        dsimp only at hvoter
        by_cases hemail : email = ""
        · rw [if_pos hemail] at hvoter
          cases hvoter
        · rw [if_neg hemail] at hvoter
          exact absurd ⟨hlinked, hemail, hvoter, hvote⟩ (hlink ev u email pk v hev hmethod huser)

/-! ### Links -/

/-- The links of voters to accounts stay. -/
def Links (db db' : Database) : Prop := ∀ pk u, userOf db pk = some u → userOf db' pk = some u

theorem Links.refl (db : Database) : Links db db := fun _ _ h => h

theorem Links.trans (db db' db'' : Database) (h : Links db db') (h' : Links db' db'') : Links db db'' :=
  fun pk u hu => h' pk u (h pk u hu)

def isVoter : Key → Bool
  | .voter _ => true
  | _ => false

theorem ignores_rest {p : Key → Bool} (hp : ∀ pk, p (.voter pk) = false) : Ignores Links p := fun v k r hk pk u hu => by
  unfold userOf at hu ⊢
  rwa [Db.set_row_ne _ _ fun heq => by rw [← heq, hp] at hk; cases hk]

theorem authFail_links {a : Entry} (v : Database) : (authFail E a afterAuth).Keeps Links v :=
  record_keeps Links.trans (ignores_rest fun _ => rfl) (fun _ _ => .rollback Links.refl fun _ => .halt Links.refl)
    fun _ _ => .commit Links.trans Links.refl (.halt Links.refl)

/-- A voter without an account is linked to one. -/
theorem Links.link {v : Database} {pk : ℕ} {r : VoterRow} (hr : v.row (.voter pk) = some r) (hnone : r.user = none)
    (f : VoterRow → VoterRow) : Links v (v.set (.voter pk) (some (f r))) := fun pk' u hu => by
  by_cases hpk : pk' = pk
  · subst hpk
    unfold userOf at hu
    rw [hr, Option.bind_some, hnone] at hu
    cases hu
  · unfold userOf at hu ⊢
    rwa [Db.set_row_ne _ _ (by simpa using hpk)]

theorem afterAuth_links (v : Database) (r : Except Failure (ℕ × VoterRow)) : (afterAuth r).Keeps Links v := by
  cases r with
  | error _ => exact .halt Links.refl
  | ok _ => exact .note (.halt Links.refl)

/-- **`voter_for_account`** links only voters who have no account. -/
theorem voterForAccount_links {q : AccountRequest} {ev : EventRow} (v : Database) :
    (voterForAccount E q ev afterAuth).Keeps Links v := by
  unfold voterForAccount
  split
  · exact afterAuth_links v _
  refine .read ?_
  split
  · exact afterAuth_links v _
  split
  · exact authFail_links v
  refine .read ?_
  split
  · exact authFail_links v
  rename_i pk r hfound
  split
  · rename_i hnone
    refine .lockRow (fun _ => .rollback Links.refl fun _ => afterAuth_links _ _) fun r' hr' => ?_
    have hsame : r' = r := Option.some.inj (hr'.symm.trans (firstVoter_row hfound).1)
    refine .put Links.trans (hsame ▸ .link (firstVoter_row hfound).1 hnone _) ?_
    exact .commit Links.trans Links.refl (afterAuth_links _ _)
  · exact afterAuth_links v _

/-- **A link stays** in every run. -/
theorem linked_stays (c : Call) : Links w.db (step E c w).db := by
  cases c with
  | register browser q =>
    unfold step
    dsimp only
    split
    · exact .refl _
    · exact .refl _
  | login browser user =>
    unfold step
    dsimp only
    split
    · exact .refl _
    · exact .refl _
  | signIn browser event request now =>
    have hkeeps : (signInProgram E w browser event request now).Keeps Links w.db := by
      refine .read ?_
      split
      · exact .halt Links.refl
      split
      · exact voterForAccount_links _
      · exact .halt Links.refl
    exact hkeeps.after Links.refl

/-- Once a voter is linked, every session of the voter is the linked account's. -/
theorem sessions_linked {pk u : ℕ} : ∀ {calls : List Call} {w : World}, userOf w.db pk = some u →
    Steps.Always (step E) (Owned E) calls w → ∀ u', (pk, u') ∈ sessions E calls w → u' = u
  | [], _, _, _, _, h => by cases h
  | c :: cs, w, hlinked, ⟨howned, hrest⟩, u', h => by
    rcases List.mem_append.mp h with hnow | hlater
    · have hu' := howned pk u' (Option.mem_toList.mp hnow)
      exact Option.some.inj (hu'.symm.trans hlinked)
    · exact sessions_linked (linked_stays c pk u hlinked) hrest u' hlater

/-- **Where each session is the linked account's,** no two accounts have one for
one voter. -/
theorem oneAccount_of_owned : ∀ {calls : List Call} {w : World}, Steps.Always (step E) (Owned E) calls w →
    OneAccount (sessions E calls w)
  | [], _, _ => fun _ _ _ h => by cases h
  | c :: cs, w, ⟨howned, hrest⟩ => fun pk u u' h h' => by
    have hfirst : ∀ {u u' : ℕ}, (pk, u) ∈ (opened E c w).toList → (pk, u') ∈ sessions E cs (step E c w) → u' = u :=
      fun hnow hlater => sessions_linked (linked_stays c _ _ (howned _ _ (Option.mem_toList.mp hnow))) hrest _ hlater
    rcases List.mem_append.mp h with hnow | hlater <;> rcases List.mem_append.mp h' with hnow' | hlater'
    · have heq := (Option.mem_toList.mp hnow).symm.trans (Option.mem_toList.mp hnow')
      exact (Prod.mk.inj (Option.some.inj heq)).2
    · exact (hfirst hnow hlater').symm
    · exact hfirst hnow' hlater
    · exact oneAccount_of_owned hrest pk u u' hlater hlater'

/-- **The sessions by account** are the linked accounts', and no two accounts'
for one voter, in exactly the runs whose sign-ins find no voter by the e-mail. -/
theorem account_sessions (E : Env) (calls : List Call) (w : World) :
    (Steps.Always (step E) (Owned E) calls w ∧ OneAccount (sessions E calls w)) ↔
      Steps.Always (step E) (ByLink E) calls w := by
  constructor
  · rintro ⟨howned, -⟩
    exact Steps.Always.imp (I := fun _ => True) (fun _ _ _ _ => trivial) (fun c _ _ => (owned_iff c).mp) trivial howned
  · intro hlink
    have howned : Steps.Always (step E) (Owned E) calls w :=
      Steps.Always.imp (I := fun _ => True) (fun _ _ _ _ => trivial) (fun c _ _ => (owned_iff c).mpr) trivial hlink
    exact ⟨howned, oneAccount_of_owned howned⟩

end Runs

/-! ### Two accounts of one e-mail -/

/-- An election that is signed in to with accounts, and one voter on the roll. -/
def enrolled : World where
  db := (Db.empty.set (.event 1) (some { startDate := 0, endDate := 10, authMethods := ["ACCOUNT"] })).set (.voter 1)
    (some { election := 1, identifier := some "A1", email := some "ama@uni.edu", emailIndex := "email:ama@uni.edu" })

def allPass : Checks where
  human := true
  isAlnum := Char.isAlphanum
  passwordErrors := fun _ => []
  normalizeUsername := id
  makePassword := id

/-- A registration with the e-mail of the voter. -/
def claiming (user : ℕ) (username : String) : RegisterPost where
  username := username
  email := "ama@uni.edu"
  password := "secret"
  checks := allPass
  user := user

/-- Two browsers register, and sign in. -/
def bothClaim : List Call :=
  [.register 0 (claiming 1 "kofi"), .register 1 (claiming 2 "esi"), .signIn 0 1 none fun _ => 5, .signIn 1 1 none fun _ => 6]

/-- Both are signed in as the voter. -/
theorem not_account_sessions : ¬ ∀ (E : Env) (calls : List Call) (w : World),
    Steps.Always (step E) (Owned E) calls w ∧ OneAccount (sessions E calls w) := by
  intro h
  have hsessions : sessions .plain bothClaim enrolled = [(1, 1), (1, 2)] := by decide +kernel
  have hone := (h .plain bothClaim enrolled).2
  rw [hsessions] at hone
  exact absurd (hone 1 1 2 (by decide) (by decide)) (by decide)

end Accounts
end FlexyVotes
