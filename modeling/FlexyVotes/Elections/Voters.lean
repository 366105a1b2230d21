/-
# The voter roll

`importVoters`, `setStatus` and `removeVoter` as transaction programs, and the
saves of a voter they are made of. A request works on the copy of the voter
its caller has read, without a lock: `noteSeen` marks the read of a voter who
had not voted, `saved` the commit of the save.

`voterAction` is the console's read of the election and the voter before one
of these.
-/
import FlexyVotes.Core.Otp
import FlexyVotes.Elections.Casting
import FlexyVotes.Elections.Lifecycle

namespace FlexyVotes
namespace Voters

open Transactions Audit Configuration Lifecycle Casting

/-! ### A voter's columns -/

/-- `IDENTIFIER_RE`: one to a hundred of the allowed characters; `$` lets a final
newline pass. -/
def validIdentifier (s : String) : Bool :=
  let cs := s.toList
  let cs := if cs.getLast? = some '\n' then cs.dropLast else cs
  1 ≤ cs.length && cs.length ≤ 100 &&
    cs.all fun c => ('A' ≤ c && c ≤ 'Z') || ('a' ≤ c && c ≤ 'z') || ('0' ≤ c && c ≤ '9') ||
      "._/@-".toList.contains c

/-- `Voter.set_email`. -/
def setEmail (E : Env) (v : VoterRow) (email : String) : VoterRow :=
  let email := E.strip email
  { v with email := if email = "" then none else some email
           emailIndex := if email = "" then "" else E.blindIndex email "email" }

/-- `normalize_phone`. -/
def normalizePhone (E : Env) (phone : String) : String :=
  let raw := phone.toList.filter fun c => E.isDigit c || c = '+'
  String.ofList <|
    if raw.head? = some '+' then raw
    else if raw.take 2 = ['0', '0'] then '+' :: raw.drop 2
    else if raw.head? = some '0' ∧ 10 ≤ raw.length then "+233".toList ++ raw.drop 1
    else if 11 ≤ raw.length then '+' :: raw
    else raw

/-- `Voter.set_phone`. -/
def setPhone (E : Env) (v : VoterRow) (phone : String) : VoterRow :=
  let phone := normalizePhone E phone
  { v with phone := if phone = "" then none else some phone
           phoneIndex := if phone = "" then "" else E.blindIndex phone "phone" }

/-- `Voter.issue_credential`, which draws `code`. -/
def issueCredential (E : Env) (v : VoterRow) (code : String) (now : Time) : VoterRow :=
  { v with credentialHash := some (E.hashVotingCode v.election code)
           credentialCiphertext := some (E.upper (E.strip code))
           credentialIssuedAt := some now
           credentialVersion := v.credentialVersion + 1 }

/-- `{**old, **new}`. -/
def mergeAttributes (old new : List (String × Json)) : List (String × Json) :=
  (old.map fun kv => (kv.1, (Json.get? new kv.1).getD kv.2)) ++
    new.filter fun kv => (Json.get? old kv.1).isNone

/-! ### Saving a voter -/

/-- The rows of a voter: the entry, and what the unique constraints keep of it. -/
def rowsOf (pk : ℕ) (v : VoterRow) : List Key :=
  .voter pk :: ((v.identifier.map (Key.identifier v.election)).toList ++
    (v.credentialHash.map (Key.credential v.election)).toList)

/-- `INSERT` of a voter: all of it, or nothing when a key is taken. -/
def insertVoter (pk : ℕ) (v : VoterRow) (taken p : Program) : Program :=
  let undoVoter : Program := .put (.voter pk) none taken
  let credential (undo : Program) : Program :=
    match v.credentialHash with
    | none => p
    | some h => .insert (.credential v.election h) pk fun
      | true => p
      | false => undo
  .insert (.voter pk) v fun
    | false => taken
    | true =>
      match v.identifier with
      | none => credential undoVoter
      | some i => .insert (.identifier v.election i) pk fun
        | false => undoVoter
        | true => credential (.put (.identifier v.election i) none undoVoter)

/-- `voter.save()`: the whole row as it is in memory; `INSERT` when it is gone.
No caller changes the identifier or the credential of a stored voter. -/
def saveVoter (pk : ℕ) (v : VoterRow) (taken p : Program) : Program :=
  .lockRow (.voter pk) fun
    | some _ => .put (.voter pk) (some v) p
    | none => insertVoter pk v taken p

/-- `voter.save(update_fields=…)`, outside a transaction. -/
def saveFields (pk : ℕ) (f : VoterRow → VoterRow) (gone p : Program) : Program :=
  .lockRow (.voter pk) fun
    | none => .rollback gone
    | some v => .put (.voter pk) (some (f v)) (.commit p)

/-- The read of a voter to be saved later. -/
def noteSeen (pk : ℕ) (v : VoterRow) (p : Program) : Program :=
  if v.status = .VOTED then p else .note (.seen pk) p

/-- The console's read of the election and of one of its voters. -/
def voterAction (event voter : ℕ) (gone : Program) (f : EventRow → VoterRow → Program) : Program :=
  .read fun db =>
    match db.row (.event event) with
    | none => gone
    | some ev =>
      .read fun db =>
        match db.row (.voter voter) with
        | none => gone
        | some v => if v.election = event then noteSeen voter v (f ev v) else gone

/-- `Voter.objects.filter(…).first()`. -/
def firstVoter (db : Database) (p : VoterRow → Bool) : Option (ℕ × VoterRow) :=
  ((db.collect fun
    | .voter pk => fun v => if p v then some (pk, v) else none
    | _ => fun _ => none).insertionSort fun a b => a.1 ≤ b.1).head?

theorem firstVoter_row {db : Database} {p : VoterRow → Bool} {pk : ℕ} {v : VoterRow}
    (h : firstVoter db p = some (pk, v)) : db.row (.voter pk) = some v ∧ p v = true := by
  have hmem := List.mem_of_mem_head? h
  rw [List.mem_insertionSort, Db.mem_collect] at hmem
  obtain ⟨k, r, hr, hx⟩ := hmem
  cases k with
  | voter n =>
    simp only [Option.ite_none_right_eq_some, Option.some.injEq, Prod.mk.injEq] at hx
    obtain ⟨hp, rfl, rfl⟩ := hx
    exact ⟨hr, hp⟩
  | _ => simp at hx

theorem firstVoter_none {db : Database} {p : VoterRow → Bool} (h : firstVoter db p = none) {pk : ℕ}
    {v : VoterRow} (hv : db.row (.voter pk) = some v) : p v = false := by
  rw [firstVoter, List.head?_eq_none_iff, List.eq_nil_iff_forall_not_mem] at h
  by_contra hp
  refine h (pk, v) ?_
  rw [List.mem_insertionSort, Db.mem_collect]
  exact ⟨.voter pk, v, hv, by simp [hp]⟩

/-- The voter of the election with the e-mail under its blind index. -/
def hasEmail (e : ℕ) (index : String) (v : VoterRow) : Bool := v.election = e && v.emailIndex = index

/-! ### The status -/

/-- One call of `set_status`. -/
structure StatusRequest where
  event : ℕ
  voter : ℕ
  status : VoterStatus
  actor : Option User := none
  reason : String := ""
  request : Option Request := none
  now : ℕ → Time

def StatusRequest.entry (q : StatusRequest) (ev : EventRow) (v : VoterRow) : Entry where
  eventType := "VOTER_STATUS_CHANGED"
  request := q.request
  actor := q.actor
  event := some (q.event, ev.organization)
  targetType := "elections.Voter"
  targetId := toString q.voter
  reason := q.reason
  changes := .obj [("status", .obj [("old", .str v.status.value), ("new", .str q.status.value)])]
  createdAt := q.now 2

/-- The columns `set_status` saves, from the copy `v`. -/
def StatusRequest.save (q : StatusRequest) (v r : VoterRow) : VoterRow :=
  { r with status := q.status
           statusReason := truncate 255 q.reason
           verifiedAt := if q.status = .VERIFIED then v.verifiedAt.or (some (q.now 0)) else v.verifiedAt
           updatedAt := q.now 1 }

/-- `set_status` of the copy `v`. -/
def setStatus (E : Env) (q : StatusRequest) (ev : EventRow) (v : VoterRow)
    (k : Except Failure Unit → Program) : Program :=
  if ¬ permitted q.actor "voter.edit" q.event then k (.error .permission)
  else if v.status = .VOTED then
    k (.error (.voterImport "A voter who has already voted cannot change status."))
  else if q.status = .VOTED then k (.error (.voterImport "Invalid status."))
  else
    saveFields q.voter (q.save v) (k (.error (.crash "DatabaseError"))) <|
    .note (.saved q.voter) <|
    let recorded := recordNow E (q.entry ev v) (k (.error (.crash "DatabaseError"))) (k (.ok ()))
    if q.status = .SUSPENDED ∨ q.status = .INELIGIBLE then
      .updateWhere (issuedTo q.voter) revoke (.commit recorded)
    else recorded

/-! ### Removal -/

/-- One call of `remove_voter`. -/
structure RemoveRequest where
  event : ℕ
  voter : ℕ
  actor : Option User := none
  request : Option Request := none
  now : ℕ → Time

/-- An authorization of the voter. -/
def authorizationOf (voter : ℕ) : (k : Key) → Row k → Bool
  | .authorization _ => fun a => a.voter = voter
  | _ => fun _ => false

def consumedBy (voter : ℕ) : (k : Key) → Row k → Bool
  | .authorization _ => fun a => a.voter = voter && a.status = .CONSUMED
  | _ => fun _ => false

def RemoveRequest.entry (q : RemoveRequest) (ev : EventRow) (v : VoterRow) : Entry where
  eventType := "VOTER_REMOVED"
  request := q.request
  actor := q.actor
  event := some (q.event, ev.organization)
  targetType := "elections.Voter"
  targetId := toString q.voter
  summary := "Voter " ++ voterLabel q.voter v ++ " removed from roll"
  createdAt := q.now 0

/-- `remove_voter` of the copy `v`. -/
def removeVoter (E : Env) (q : RemoveRequest) (ev : EventRow) (v : VoterRow)
    (k : Except Failure Unit → Program) : Program :=
  let voted := k (.error (.voterImport "Voters who have voted cannot be removed."))
  if ¬ permitted q.actor "voter.edit" q.event then k (.error .permission)
  else
    match rollLocked ev with
    | some failure => k (.error failure)
    | none =>
      if v.status = .VOTED then voted
      else
        .read fun db =>
          if db.count (consumedBy q.voter) ≠ 0 then voted
          else
            recordNow E (q.entry ev v) (k (.error (.crash "DatabaseError"))) <|
            .deleteWhere (authorizationOf q.voter) <| .commit <|
            -- `on_delete=PROTECT`
            .read fun db =>
              if db.count (authorizationOf q.voter) ≠ 0 then k (.error (.crash "ProtectedError"))
              else
                .deleteEach (fun _ _ => true) (rowsOf q.voter v) <| .commit <|
                .note (.saved q.voter) <| k (.ok ())

/-! ### What an insert writes -/

/-- A row of a unique constraint of the roll. -/
def isUnique : Key → Bool
  | .identifier _ _ => true
  | .credential _ _ => true
  | _ => false

/-- A new voter is written, and what the unique constraints keep of it. -/
structure Inserted (pk : ℕ) (v : VoterRow) (own : List Key) (w : Writes Row) (db : Database) : Prop where
  held : .voter pk ∈ own
  new : db.row (.voter pk) = none
  writes : ∃ u, Db.Only isUnique u ∧ w = u ++ [⟨.voter pk, some v⟩]

/-- **An insert** goes on with the new voter written, or as if nothing was. -/
theorem insertVoter_ok {S : Spec Row Note} (hS : S.Sound) {pk : ℕ} {v : VoterRow} {taken p : Program}
    {db : Database} {log : List Note}
    (hp : ∀ db' own w, Stable S [] log db db' → Inserted pk v own w db' → Ok S p db' own w log)
    (htaken : ∀ db' own w, Ok S taken db' own w log) :
    Ok S (insertVoter pk v taken p) db [] [] log := by
  have hstep : ∀ {db₁ db₂ own w}, Stable S own log db₁ db₂ → Inserted pk v own w db₁ → Inserted pk v own w db₂ :=
    fun hst h => ⟨h.held, (hst.held _ h.held).trans h.new, h.writes⟩
  have hmore : ∀ {db₁ own w k r}, isUnique k = true → Inserted pk v own w db₁ →
      Inserted pk v (k :: own) (⟨k, r⟩ :: w) db₁ := fun hk h => by
    obtain ⟨u, hu, rfl⟩ := h.writes
    exact ⟨List.mem_cons_of_mem _ h.held, h.new, ⟨_, _⟩ :: u, .cons hk hu, rfl⟩
  have hundo : ∀ {db₁ own w}, .voter pk ∈ own → Ok S (.put (.voter pk) none taken) db₁ own w log :=
    fun hk => ⟨hk, fun _ _ => htaken _ _ _⟩
  -- the credential, with what is undone when it is taken
  have hcredential : ∀ undo db₁ own w, Stable S [] log db db₁ → Inserted pk v own w db₁ →
      (∀ db', Ok S undo db' own w log) →
      Ok S (match v.credentialHash with
        | none => p
        | some c => .insert (.credential v.election c) pk fun
          | true => p
          | false => undo) db₁ own w log := by
    intro undo db₁ own w h₁ hi hu
    split
    · exact hp db₁ own w h₁ hi
    · intro db₂ h₂
      have hst := h₁.trans hS (h₂.sub hS (by simp))
      exact ⟨fun _ => hp _ _ _ hst (hmore rfl (hstep h₂ hi)), fun _ => hu db₂⟩
  intro db₁ h₁
  refine ⟨fun hnone => ?_, fun _ => htaken _ _ _⟩
  have hi : Inserted pk v [.voter pk] [⟨.voter pk, some v⟩] db₁ := ⟨by simp, hnone, [], .nil, rfl⟩
  dsimp only
  split
  · exact hcredential _ _ _ _ h₁ hi fun _ => hundo (by simp)
  · intro db₂ h₂
    have hst := h₁.trans hS (h₂.sub hS (by simp))
    refine ⟨fun _ => ?_, fun _ => hundo (by simp)⟩
    exact hcredential _ _ _ _ hst (hmore rfl (hstep h₂ hi)) fun _ =>
      ⟨by simp, fun _ _ => hundo (by simp)⟩

/-! ### Import -/

/-- A row of an import; a missing column is empty. -/
structure ImportRow where
  identifier : String := ""
  fullName : String := ""
  email : String := ""
  phone : String := ""
  constituency : String := ""
  attributes : List (String × Json) := []

/-- The primary key and the access code a new voter gets. -/
structure Draw where
  pk : ℕ
  code : String

/-- One call of `import_voters`. -/
structure ImportRequest where
  event : ℕ
  rows : List ImportRow
  actor : Option User := none
  source : VoterSource := .CSV
  issueCodes : Bool := true
  request : Option Request := none
  /-- What `limit_value` answers for the organization's plan. -/
  planLimit : Option ℕ := none
  /-- By the number of the row. -/
  draw : ℕ → Draw
  now : ℕ → Time

structure ImportReport where
  created : ℕ := 0
  updated : ℕ := 0
  skipped : ℕ := 0
  errors : List (ℕ × String) := []
  codesIssued : ℕ := 0
  deriving DecidableEq, Repr

def ImportReport.error (r : ImportReport) (number : ℕ) (message : String) : ImportReport :=
  { r with errors := r.errors ++ [(number, message)] }

def ImportRequest.entry (q : ImportRequest) (ev : EventRow) (r : ImportReport) : Entry where
  eventType := "VOTERS_IMPORTED"
  request := q.request
  actor := q.actor
  event := some (q.event, ev.organization)
  summary := "Voter import: " ++ toString r.created ++ " created, " ++ toString r.updated ++ " updated, " ++
    toString r.skipped ++ " skipped, " ++ toString r.errors.length ++ " errors"
  metadata := .obj [("created", .nat r.created), ("updated", .nat r.updated), ("skipped", .nat r.skipped),
    ("codes_issued", .nat r.codesIssued), ("error_count", .nat r.errors.length)]
  createdAt := q.now 1

/-- `_check_plan_limit`. -/
def checkPlanLimit (event : ℕ) (ev : EventRow) (limit : Option ℕ) (additional : ℕ) (exceeded p : Program) :
    Program :=
  if ev.organization.isNone then p
  else .read fun db =>
    if limit.any fun n => n < db.count (voterOf event) + additional then exceeded else p

/-- `_constituency_lookup`, the latest entry first. -/
def constituencyLookup (E : Env) (db : Database) (ev : EventRow) : List (String × ℕ) :=
  if ev.organization.isNone then []
  else (db.collect fun
    | .constituency pk => fun c =>
      if c.organization = ev.organization then some [(E.lower c.code, pk), (E.lower c.name, pk)] else none
    | _ => fun _ => none).flatten.reverse

/-- The constituency a row names: none, or one there is. -/
def placeOf (E : Env) (places : List (String × ℕ)) (name : String) : Except Unit (Option ℕ) :=
  if name = "" then .ok none
  else match places.lookup (E.lower (E.strip name)) with
    | some pk => .ok (some pk)
    | none => .error ()

/-- The voters in memory, under their identifiers, the latest version first. -/
abbrev Existing := List (String × ℕ × VoterRow)

/-- `{v.identifier: v for v in event.voters …}`. -/
def existingOf (db : Database) (e : ℕ) : Existing :=
  db.collect fun
    | .voter pk => fun v =>
      if v.election = e then v.identifier.map fun i => (i, pk, v) else none
    | _ => fun _ => none

/-- A stored voter with the columns a row brings. -/
def ImportRow.onto (E : Env) (row : ImportRow) (place : Option ℕ) (v : VoterRow) (now : Time) : VoterRow :=
  let v := { v with fullName := if row.fullName = "" then v.fullName else row.fullName }
  let v := if E.strip row.email = "" then v else setEmail E v (E.strip row.email)
  let v := if row.phone = "" then v else setPhone E v row.phone
  { v with constituency := place.or v.constituency
           attributes := mergeAttributes v.attributes row.attributes, updatedAt := now }

/-- A new voter of a row, without an access code. -/
def ImportRow.fresh (E : Env) (row : ImportRow) (q : ImportRequest) (identifier : String)
    (place : Option ℕ) : VoterRow :=
  let v : VoterRow :=
    { election := q.event, identifier := if identifier = "" then none else some identifier,
      fullName := row.fullName, constituency := place, attributes := row.attributes, source := q.source,
      updatedAt := q.now 0 }
  let v := setEmail E v (E.strip row.email)
  if row.phone = "" then v else setPhone E v row.phone

/-- `identifier`, as a row is looked up. -/
def ImportRow.key (E : Env) (row : ImportRow) : String := E.upper (E.strip row.identifier)

/-- Why a row is not looked up at all. -/
def ImportRow.invalid (E : Env) (row : ImportRow) : Option String :=
  let identifier := row.key E
  let email := E.strip row.email
  if identifier ≠ "" ∧ ¬ validIdentifier identifier then some "Invalid voter ID characters."
  else if email ≠ "" ∧ ¬ E.validEmail email then some ("Invalid email \"" ++ truncate 60 email ++ "\".")
  else if identifier = "" ∧ email = "" then some "A voter ID or email is required."
  else none

/-- The new voter of row `number`, with an access code if the import issues
them. -/
def ImportRow.created (E : Env) (row : ImportRow) (q : ImportRequest) (ev : EventRow) (number : ℕ)
    (place : Option ℕ) : VoterRow :=
  let v := row.fresh E q (row.key E) place
  if q.issueCodes && ev.authMethods.contains "CODE" then
    issueCredential E v (q.draw number).code (q.now 0)
  else v

/-- The rows `rows`, numbered from `number`, against the voters in memory. -/
def importRows (E : Env) (q : ImportRequest) (ev : EventRow) (places : List (String × ℕ)) (fail : Program)
    (k : ImportReport → Program) : List ImportRow → ℕ → Existing → ImportReport → Program
  | [], _, _, report => k report
  | row :: rows, number, existing, report =>
    let next := importRows E q ev places fail k rows (number + 1)
    match row.invalid E with
    | some message => next existing (report.error number message)
    | none =>
      match placeOf E places row.constituency with
      | .error _ => next existing (report.error number
          ("Unknown constituency \"" ++ truncate 60 row.constituency ++ "\"."))
      | .ok place =>
        let update (pk : ℕ) (v : VoterRow) : Program :=
          if v.status = .VOTED then next existing { report with skipped := report.skipped + 1 }
          else
            let v' := row.onto E place v (q.now 0)
            saveVoter pk v' fail <|
            next (if row.key E = "" then existing else (row.key E, pk, v') :: existing)
              { report with updated := report.updated + 1 }
        let create : Program :=
          let pk := (q.draw number).pk
          let v := row.created E q ev number place
          -- the code counts as issued even when the voter cannot be saved
          let report' := { report with codesIssued := report.codesIssued + if v.credentialHash.isSome then 1 else 0 }
          insertVoter pk v
            (next existing (report'.error number "Duplicate voter ID or credential collision."))
            (next (if row.key E = "" then existing else (row.key E, pk, v) :: existing)
              { report' with created := report'.created + 1 })
        if row.key E = "" then
          .read fun db =>
            match firstVoter db (hasEmail q.event (E.blindIndex (E.strip row.email) "email")) with
            | some (pk, v) => noteSeen pk v (update pk v)
            | none => create
        else
          match existing.lookup (row.key E) with
          | some (pk, v) => update pk v
          | none => create

/-- The voters in memory who have not voted and whom a row names. -/
def named (E : Env) (rows : List ImportRow) (existing : Existing) : List ℕ :=
  existing.filterMap fun x =>
    if x.2.2.status ≠ .VOTED ∧ rows.any (fun row => row.key E = x.1) then some x.2.1 else none

/-- `import_voters`. -/
def importVoters (E : Env) (q : ImportRequest) (ev : EventRow) (k : Except Failure ImportReport → Program) :
    Program :=
  if ¬ permitted q.actor "voter.import" q.event then k (.error .permission)
  else
    match rollLocked ev with
    | some failure => k (.error failure)
    | none =>
      checkPlanLimit q.event ev q.planLimit q.rows.length (k (.error .billingLimit)) <|
      .read fun db =>
        let places := constituencyLookup E db ev
        .read fun db =>
          let existing := existingOf db q.event
          .noteAll ((named E q.rows existing).map .seen) <|
          importRows E q ev places (.rollback (k (.error (.crash "IntegrityError")))) (fun report =>
            record E (q.entry ev report) (.rollback (k (.error (.crash "DatabaseError")))) <|
            .commit (k (.ok report))) q.rows 2 existing {}

theorem onto_status {E : Env} (row : ImportRow) (place : Option ℕ) (v : VoterRow) (now : Time) :
    (row.onto E place v now).status = v.status ∧ (row.onto E place v now).election = v.election := by
  unfold ImportRow.onto setEmail setPhone
  dsimp only
  split_ifs <;> exact ⟨rfl, rfl⟩

theorem created_status {E : Env} (row : ImportRow) (q : ImportRequest) (ev : EventRow) (n : ℕ) (place : Option ℕ) :
    (row.created E q ev n place).status = .ELIGIBLE ∧ (row.created E q ev n place).election = q.event := by
  unfold ImportRow.created ImportRow.fresh setEmail setPhone issueCredential
  dsimp only
  split_ifs <;> exact ⟨rfl, rfl⟩

theorem mem_of_lookup {existing : Existing} {i : String} {x : ℕ × VoterRow}
    (h : existing.lookup i = some x) : (i, x) ∈ existing := by
  induction existing with
  | nil => cases h
  | cons y ys ih =>
    obtain ⟨j, y⟩ := y
    rw [List.lookup_cons] at h
    split at h
    · rename_i hij
      cases h
      rw [beq_iff_eq.mp hij]
      exact List.mem_cons_self
    · exact List.mem_cons_of_mem _ (ih h)

/-! ### Self-registration -/

/-- `Event.email_domain_list`. -/
def emailDomains (E : Env) (ev : EventRow) : List String :=
  (((ev.registrationEmailDomains.toList.splitOn ',').map String.ofList).filter fun d => E.strip d ≠ "").map
    fun d => Eligibility.lstripAt (E.lower (E.strip d))

/-- One call of `self_register`. -/
structure RegisterRequest where
  event : ℕ
  identifier : String := ""
  email : String
  fullName : String := ""
  phone : String := ""
  request : Option Request := none
  /-- What `limit_value` answers for the organization's plan. -/
  planLimit : Option ℕ := none
  draw : Draw
  now : ℕ → Time

/-- A roll entry of the e-mail. -/
def rollEntry (e : ℕ) (index : String) : (k : Key) → Row k → Bool
  | .voter _ => hasEmail e index
  | _ => fun _ => false

/-- A roll entry with the identifier. -/
def hasIdentifier (e : ℕ) (identifier : String) : (k : Key) → Row k → Bool
  | .voter _ => fun v => v.election = e && v.identifier = some identifier
  | _ => fun _ => false

/-- The new voter. -/
def RegisterRequest.voter (E : Env) (q : RegisterRequest) (ev : EventRow) : VoterRow :=
  let identifier := E.upper (E.strip q.identifier)
  let v : VoterRow :=
    { election := q.event, identifier := if identifier = "" then none else some identifier,
      fullName := q.fullName, source := .SELF_REGISTRATION, status := .VERIFIED,
      emailVerifiedAt := some (q.now 0), verifiedAt := some (q.now 0), updatedAt := q.now 1 }
  let v := setEmail E v q.email
  let v := if q.phone = "" then v else setPhone E v q.phone
  if ev.authMethods.contains "CODE" then issueCredential E v q.draw.code (q.now 1) else v

def RegisterRequest.entry (q : RegisterRequest) (ev : EventRow) (v : VoterRow) : Entry where
  eventType := "VOTER_SELF_REGISTERED"
  request := q.request
  event := some (q.event, ev.organization)
  targetType := "elections.Voter"
  targetId := toString q.draw.pk
  summary := "Voter " ++ voterLabel q.draw.pk v ++ " self-registered (email verified)"
  createdAt := q.now 2

/-- The row of a new voter, in an autocommitted statement, and its record. -/
def saveRegistration (E : Env) (q : RegisterRequest) (ev : EventRow)
    (k : Except Failure (ℕ × VoterRow) → Program) : Program :=
  let v := q.voter E ev
  insertVoter q.draw.pk v (.rollback (k (.error (.crash "IntegrityError")))) <|
  .commit <| .note (.registered q.event v.emailIndex q.draw.pk) <|
  recordNow E (q.entry ev v) (k (.error (.crash "DatabaseError"))) (k (.ok (q.draw.pk, v)))

/-- `self_register`. -/
def selfRegister (E : Env) (q : RegisterRequest) (ev : EventRow)
    (k : Except Failure (ℕ × VoterRow) → Program) : Program :=
  if ¬ ev.allowSelfRegistration then
    k (.error (.voterImport "Self-registration is not enabled for this election."))
  else if ev.voterListFrozen ∨ ev.status ∈ LOCKED_STATES then
    k (.error (.voterImport "Registration for this election is closed."))
  else if emailDomains E ev ≠ [] ∧ E.lower (Eligibility.domainOf q.email) ∉ emailDomains E ev then
    k (.error (.voterImport "Use your institutional email address to register."))
  else
    let identifier := E.upper (E.strip q.identifier)
    if identifier ≠ "" ∧ ¬ validIdentifier identifier then k (.error (.voterImport "Invalid ID."))
    else
      let already := k (.error (.voterImport "You are already registered for this election."))
      .read fun db =>
        if db.count (rollEntry q.event (E.blindIndex q.email "email")) ≠ 0 then already
        else
          .note (.registering q.event (E.blindIndex q.email "email")) <|
          let save := checkPlanLimit q.event ev q.planLimit 1 (k (.error .billingLimit))
            (saveRegistration E q ev k)
          if identifier = "" then save
          else .read fun db =>
            if db.count (hasIdentifier q.event identifier) ≠ 0 then already else save

end Voters
end FlexyVotes
