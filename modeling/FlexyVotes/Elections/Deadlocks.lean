/-
# Transactions that wait for each other

A cast locks the authorization first and then its voter. Who issues an
authorization or a new access code locks the voter first and then the
authorizations to be revoked. So each can wait for the other
(`not_no_deadlock`), and two bulk resets can where they meet voters in different
orders.

Beside the audit log, whose rows come last, a transaction locks the rows of one
voter only, a bulk reset those of one voter after the other (`order`). No two
wait for each other as long as none comes to hold a row of a voter of whom
another holds one, and no two bulk resets hold rows at the same time (`Clear`,
`no_deadlock`).

Key definitions: `resetCredential`, `resendCredentialPublic`, `order`, `Clear`.
Key theorems: `Call.climbs`, `no_deadlock`.
-/
import FlexyVotes.Lib.Locks
import FlexyVotes.Elections.Authorizations
import FlexyVotes.Elections.Manual

namespace FlexyVotes
namespace Deadlocks

open Transactions Transactions.Locks Audit Configuration Lifecycle Casting Voters
open Manual (Execution moveCredential resetEach resetEntry execBulkReset eventOf unusedOf)

/-! ### New access codes -/

/-- One call of `reset_credential`. -/
structure ResetRequest where
  event : ℕ
  voter : ℕ
  actor : Option User := none
  /-- The code that is drawn. -/
  code : String
  notifyVoter : Bool := false
  request : Option Request := none
  now : ℕ → Time

def ResetRequest.entry (q : ResetRequest) (ev : EventRow) (v : VoterRow) : Entry where
  eventType := "VOTER_CREDENTIAL_RESET"
  request := q.request
  actor := q.actor
  event := some (q.event, ev.organization)
  targetType := "elections.Voter"
  targetId := toString q.voter
  summary := "Access code reset for voter " ++ voterLabel q.voter v
  createdAt := q.now 1

/-- An invitation goes to the voter's e-mail or phone. -/
def reachable (v : VoterRow) : Bool := v.email.getD "" ≠ "" || v.phone.getD "" ≠ ""

def ResetRequest.invitation (q : ResetRequest) (ev : EventRow) (sent : ℕ) : Entry where
  eventType := "VOTER_INVITATIONS_SENT"
  actor := q.actor
  event := some (q.event, ev.organization)
  summary := toString sent ++ " invitations queued"
  createdAt := q.now 3

/-- `send_invitations` of the one voter; `invited_at` is no column of the model. -/
def sendInvitation (E : Env) (q : ResetRequest) (ev : EventRow) (k : Except Failure String → Program) : Program :=
  .read fun db =>
    let sent := if (db.row (.voter q.voter)).any reachable then 1 else 0
    .update (.voter q.voter) (fun _ => true) id fun _ => .commit <|
    recordNow E (q.invitation ev sent) (k (.error (.crash "DatabaseError"))) (k (.ok q.code))

/-- `reset_credential` of the copy `v`. -/
def resetCredential (E : Env) (q : ResetRequest) (ev : EventRow) (v : VoterRow) (k : Except Failure String → Program) :
    Program :=
  if ¬ permitted q.actor "voter.credentials" q.event then k (.error .permission)
  else if v.status = .VOTED then
    k (.error (.voterImport "This voter has already voted; their credential cannot be reset."))
  else
    .lockRow (.voter q.voter) fun
      | none => .rollback (k (.error (.crash "Voter.DoesNotExist")))
      | some v =>
        .updateWhere (issuedTo q.voter) revoke <|
        moveCredential q.voter v (issueCredential E v q.code (q.now 0)) (fun e => .rollback (k (.error e))) <|
        record E (q.entry ev v) (.rollback (k (.error (.crash "DatabaseError")))) <| .commit <|
        if q.notifyVoter then sendInvitation E q ev k else k (.ok q.code)

/-- One call of `resend_credential_public`. -/
structure ResendRequest where
  event : ℕ
  identifier : String
  /-- The code that is drawn. -/
  code : String
  request : Option Request := none
  now : ℕ → Time

def ResendRequest.entry (q : ResendRequest) (ev : EventRow) (eventType summary : String) (target : Option ℕ)
    (result : AuditResult) : Entry where
  eventType := eventType
  request := q.request
  event := some (q.event, ev.organization)
  targetType := if target.isSome then "elections.Voter" else ""
  targetId := (target.map toString).getD ""
  summary := summary
  result := result
  createdAt := q.now 1

/-- The voter of the election with the identifier. -/
def identified (e : ℕ) (identifier : String) (v : VoterRow) : Bool := v.election = e && v.identifier = some identifier

/-- `resend_credential_public`; what it says does not depend on the voter. -/
def resendCredentialPublic (E : Env) (q : ResendRequest) (ev : EventRow) (k : Except Failure Unit → Program) : Program :=
  let identifier := E.upper (E.strip q.identifier)
  let recorded (a : Entry) : Program :=
    record E a (.rollback (k (.error (.crash "DatabaseError")))) (.commit (k (.ok ())))
  let unknown := recorded (q.entry ev "VOTER_CODE_RESEND_REQUESTED"
    "Code resend requested for unknown/ineligible voter ID" none .FAILURE)
  if identifier = "" then k (.ok ())
  else
    .read fun db =>
      match firstVoter db (identified q.event identifier) with
      | none => unknown
      | some (pk, _) =>
        .lock (.voter pk) (identified q.event identifier) fun
          | none => unknown
          | some v =>
            if ¬ v.canVote then unknown
            else if v.email.getD "" = "" ∨ ¬ ev.authMethods.contains "CODE" then
              recorded (q.entry ev "VOTER_CODE_RESEND_REQUESTED" "Code resend requested but no email on file" (some pk)
                .FAILURE)
            else
              .updateWhere (issuedTo pk) revoke <|
              moveCredential pk v (issueCredential E v q.code (q.now 0)) (fun e => .rollback (k (.error e))) <|
              recorded (q.entry ev "VOTER_CODE_RESENT"
                ("Access code reset and emailed to roll address for " ++ v.identifier.getD "None") (some pk) .SUCCESS)

/-! ### The transactions -/

/-- One request of a run. -/
inductive Call
  | issue (q : IssueRequest)
  | cast (q : CastRequest)
  | reset (q : ResetRequest)
  /-- `reset_all_unused_credentials`, in the transaction of the approved request. -/
  | resetAll (x : Execution) (row : ApprovalRow) (approver : User)
  | resend (q : ResendRequest)
  | setStatus (q : StatusRequest)

def Call.program (E : Env) : Call → Program
  | .issue q => issueAuthorization E q fun _ => .halt
  | .cast q => castBallot E q fun _ => .halt
  | .reset q => voterAction q.event q.voter .halt fun ev v => resetCredential E q ev v fun _ => .halt
  | .resetAll x row approver => execBulkReset E x row approver (fun _ => .rollback .halt) fun _ => .commit .halt
  | .resend q => .read fun db =>
    match db.row (.event q.event) with
    | none => .halt
    | some ev => resendCredentialPublic E q ev fun _ => .halt
  | .setStatus q => voterAction q.event q.voter .halt fun ev v => Voters.setStatus E q ev v fun _ => .halt

/-- How a call locks: a cast the authorization first, a bulk reset the rows of
many voters. -/
inductive Kind
  | cast | bulk | single
  deriving DecidableEq

def Call.kind : Call → Kind
  | .cast _ => .cast
  | .resetAll _ _ _ => .bulk
  | _ => .single

/-! ### The order of the locks -/

/-- The voter a row belongs to. -/
def voterOf : (k : Key) → Option (Row k) → Option ℕ
  | .voter pk => fun o => o.map fun _ => pk
  | .authorization _ => fun o => o.map (·.voter)
  | _ => fun _ => none

/-- No row of the audit log is held. -/
def NoAudit (own : Taken Row) : Prop := ∀ e ∈ own, isAudit e.1 = false

/-- An authorization that can be revoked. -/
def issued : (k : Key) → Row k → Bool
  | .authorization _ => fun a => a.status = .ISSUED
  | _ => fun _ => false

/-- The rows held are of no other voter. -/
def OnlyOf (v : ℕ) (own : Taken Row) : Prop := ∀ e ∈ own, ∀ u, voterOf e.1 e.2 = some u → u = v

/-- No row held is of the voter. -/
def NoneOf (v : ℕ) (own : Taken Row) : Prop := ∀ e ∈ own, voterOf e.1 e.2 ≠ some v

/-- The audit log comes last. Before it, a bulk reset apart, the rows are of one
voter; and a cast apart, a row that is no issued authorization is the first of its
voter. -/
def order (c : Kind) : Order Row := fun own k r =>
  NoAudit own ∧ (isAudit k = true ∨ ∃ v, voterOf k (some r) = some v ∧ (c = .bulk ∨ OnlyOf v own) ∧
    (c = .cast ∨ issued k r = true ∨ NoneOf v own))

/-- No row of the log is held, and no other voter's. -/
def OfVoter (v : ℕ) (own : Taken Row) : Prop := NoAudit own ∧ OnlyOf v own

/-- With a row of a voter the voter is held. -/
def Led (own : Taken Row) : Prop := NoAudit own ∧ ∀ e ∈ own, ∀ v, voterOf e.1 e.2 = some v → own.has (.voter v)

/-- A row that is no voter's. -/
def Free (k : Key) (o : Option (Row k)) : Prop := isAudit k = false ∧ voterOf k o = none

theorem voterOf_audit {k : Key} {o : Option (Row k)} {v : ℕ} (h : voterOf k o = some v) : isAudit k = false := by
  cases k <;> first
    | rfl
    | cases h

theorem NoAudit.cons {own : Taken Row} {k : Key} {o : Option (Row k)} (h : NoAudit own) (hk : isAudit k = false) :
    NoAudit (⟨k, o⟩ :: own) := by
  intro e he
  rcases List.mem_cons.mp he with rfl | he
  · exact hk
  · exact h e he

theorem noAudit_nil : NoAudit [] := fun _ he => absurd he List.not_mem_nil

theorem ofVoter_nil (v : ℕ) : OfVoter v [] := ⟨noAudit_nil, fun _ he => absurd he List.not_mem_nil⟩

theorem OfVoter.cons {v : ℕ} {own : Taken Row} {k : Key} {o : Option (Row k)} (h : OfVoter v own)
    (hk : isAudit k = false) (ho : ∀ u, voterOf k o = some u → u = v) : OfVoter v (⟨k, o⟩ :: own) := by
  refine ⟨h.1.cons hk, fun e he => ?_⟩
  rcases List.mem_cons.mp he with rfl | he
  · exact ho
  · exact h.2 e he

theorem Led.cons {own : Taken Row} {k : Key} {o : Option (Row k)} (h : Led own) (hk : isAudit k = false)
    (ho : ∀ v, voterOf k o = some v → Taken.has (⟨k, o⟩ :: own) (.voter v)) : Led (⟨k, o⟩ :: own) := by
  refine ⟨h.1.cons hk, fun e he v hv => ?_⟩
  rcases List.mem_cons.mp he with rfl | he
  · exact ho v hv
  · exact Taken.has_cons.mpr (Or.inr (h.2 e he v hv))

theorem led_nil : Led [] := ⟨noAudit_nil, fun _ he => absurd he List.not_mem_nil⟩

section Rules

variable {E : Env} {c : Kind} {v : ℕ}

theorem Free.none {k : Key} {o : Option (Row k)} (h : Free k o) {P : ℕ → Prop} : ∀ u, voterOf k o = some u → P u :=
  fun u hu => by
    rw [h.2] at hu
    cases hu

/-- A cast locks rows of its voter. -/
theorem allows_cast (v : ℕ) : Allows (order .cast) (OfVoter v) (fun k r => voterOf k (some r) = some v) Free where
  next := fun _ _ _ ho _ hr => ⟨ho.1, Or.inr ⟨v, hr, Or.inr ho.2, Or.inl rfl⟩⟩
  lock := fun _ _ _ ho hr => ho.cons (voterOf_audit hr) fun _ hu => Option.some.inj (hu.symm.trans hr)
  write := fun _ _ _ ho hk => ho.cons hk.1 hk.none

/-- Issued authorizations of the one voter may be locked. -/
theorem allows_voter (c : Kind) (v : ℕ) :
    Allows (order c) (OfVoter v) (fun k r => voterOf k (some r) = some v ∧ issued k r = true) Free where
  next := fun _ _ _ ho _ hr => ⟨ho.1, Or.inr ⟨v, hr.1, Or.inr ho.2, Or.inr (Or.inl hr.2)⟩⟩
  lock := fun _ _ _ ho hr => ho.cons (voterOf_audit hr.1) fun _ hu => Option.some.inj (hu.symm.trans hr.1)
  write := fun _ _ _ ho hk => ho.cons hk.1 hk.none

/-- A bulk reset locks the next voter. -/
theorem allows_bulk (v : ℕ) : Allows (order .bulk) Led (fun k _ => k = .voter v) Free where
  next := fun own k r ho hnot hk => by
    subst hk
    exact ⟨ho.1, Or.inr ⟨v, rfl, Or.inl rfl, Or.inr (Or.inr fun e he hv => hnot (ho.2 e he v hv))⟩⟩
  lock := fun own k r ho hk => by
    subst hk
    exact ho.cons rfl fun u hu => Taken.has_cons.mpr (Or.inl (congrArg Key.voter (Option.some.inj hu)))
  write := fun _ _ _ ho hk => ho.cons hk.1 hk.none

/-- And then the voter's authorizations. -/
theorem allows_bulk_voter (v : ℕ) : Allows (order .bulk) (fun own => Led own ∧ own.has (.voter v))
    (fun k r => voterOf k (some r) = some v ∧ issued k r = true) Free where
  next := fun _ _ _ ho _ hr => ⟨ho.1.1, Or.inr ⟨v, hr.1, Or.inl rfl, Or.inr (Or.inl hr.2)⟩⟩
  lock := fun own k r ho hr => by
    refine ⟨ho.1.cons (voterOf_audit hr.1) fun u hu => ?_, Taken.has_cons.mpr (Or.inr ho.2)⟩
    obtain rfl := Option.some.inj (hu.symm.trans hr.1)
    exact Taken.has_cons.mpr (Or.inr ho.2)
  write := fun _ _ _ ho hk => ⟨ho.1.cons hk.1 hk.none, Taken.has_cons.mpr (Or.inr ho.2)⟩

/-- The voter is locked before anything else. -/
theorem lockVoter_climbs {q : VoterRow → Bool} {f : Option VoterRow → Program} (hnone : Climbs (order c) (f none) [])
    (hsome : ∀ r, Goes (order c) (fun own => OfVoter v own ∧ own.has (.voter v)) (f (some r))) :
    Climbs (order c) (.lock (.voter v) q f) [] := by
  refine ⟨fun r _ => ⟨fun hhas => ?_, fun _ => ⟨⟨noAudit_nil, Or.inr ⟨v, rfl, Or.inr ?_, Or.inr (Or.inr ?_)⟩⟩, ?_⟩⟩, hnone⟩
  · obtain ⟨e, he, -⟩ := hhas
    exact absurd he List.not_mem_nil
  · exact fun _ he => absurd he List.not_mem_nil
  · exact fun _ he => absurd he List.not_mem_nil
  · exact hsome r _ ⟨(ofVoter_nil v).cons rfl fun u hu => (Option.some.inj hu).symm, Taken.has_cons.mpr (Or.inl rfl)⟩

variable {P : Taken Row → Prop}

/-- The head is locked, by one who has it or has none. -/
theorem lockHead_climbs {chain : String} {fail : Program} {f : AuditHeadRow → Program}
    (hfail : ∀ own, Climbs (order c) fail own)
    (hf : ∀ head (own : Taken Row), own.has (.auditHead chain) → Climbs (order c) (f head) own) {own : Taken Row}
    (hor : NoAudit own ∨ own.has (.auditHead chain)) : Climbs (order c) (.lockRow (.auditHead chain) fun
      | none => fail
      | some head => f head) own :=
  ⟨fun head _ => ⟨fun hhas => hf head own hhas, fun hnot => ⟨⟨hor.resolve_right hnot, Or.inl rfl⟩,
    hf head _ (Taken.has_cons.mpr (Or.inl rfl))⟩⟩, hfail own⟩

/-- The head of the chain is locked after all others. -/
theorem headForUpdate_goes {chain : String} {fail : Program} {f : AuditHeadRow → Program}
    (hP : ∀ own, P own → NoAudit own) (hfail : ∀ own, Climbs (order c) fail own)
    (hf : ∀ head (own : Taken Row), own.has (.auditHead chain) → Climbs (order c) (f head) own) :
    Goes (order c) P (headForUpdate chain fail f) := by
  intro own ho
  refine fun db => ?_
  dsimp only
  rcases db.row (.auditHead chain) with _ | _
  · exact ⟨fun hhas => lockHead_climbs hfail hf (Or.inr hhas),
      fun _ => lockHead_climbs hfail hf (Or.inr (Taken.has_cons.mpr (Or.inl rfl))),
      lockHead_climbs hfail hf (Or.inl (hP own ho))⟩
  · exact lockHead_climbs hfail hf (Or.inl (hP own ho))

/-- **Recording** comes after all other locks. -/
theorem record_goes {a : Entry} {fail k : Program} (hP : ∀ own, P own → NoAudit own)
    (hfail : ∀ own, Climbs (order c) fail own) (hk : ∀ own, Climbs (order c) k own) :
    Goes (order c) P (record E a fail k) := by
  refine headForUpdate_goes hP hfail fun head own hhas => ?_
  have hput : ∀ (r : AuditHeadRow) (own : Taken Row), own.has (.auditHead (chainFor a.organizationId)) →
      Climbs (order c) (.put (.auditHead (chainFor a.organizationId)) (some r) k) own :=
    fun r own hhas => ⟨fun _ => hk own, fun hnot => absurd hhas hnot⟩
  exact ⟨fun _ => hput _ own hhas, fun _ => hput _ _ (Taken.has_cons.mpr (Or.inr hhas)), hfail own⟩

theorem recordNow_climbs {a : Entry} : Climbs (order c) (recordNow E a .halt .halt) [] := by
  have hgoes : Goes (order c) NoAudit (record E a (.rollback .halt) (.commit .halt)) :=
    record_goes (fun _ ho => ho) (fun _ => trivial) fun _ => trivial
  exact hgoes [] noAudit_nil

/-- The authorizations of a voter that are revoked. -/
theorem issuedTo_voter {pk : ℕ} {k : Key} {r : Row k} (h : issuedTo pk k r = true) :
    voterOf k (some r) = some pk ∧ issued k r = true := by
  cases k <;> first
    | cases h
    | skip
  unfold issuedTo at h
  simp only [Bool.and_eq_true, decide_eq_true_eq] at h
  exact ⟨congrArg some h.1, decide_eq_true h.2⟩

/-- The voter's new code is inserted, if there is one. -/
theorem insertCredential_goes {J : Order Row} {A : (k : Key) → Row k → Prop} {pk : ℕ} {v : VoterRow}
    {fail : Failure → Program} {k : Program} (hP : Allows J P A Free) (hheld : ∀ own, P own → own.has (.voter pk))
    (hfail : ∀ e, Goes J P (fail e)) (hk : Goes J P k) : Goes J P (match v.credentialHash with
      | none => .put (.voter pk) (some v) k
      | some h => .insertOr (.credential v.election h) pk (fail (.crash "IntegrityError")) (.put (.voter pk) (some v) k)) := by
  have hsave : Goes J P (.put (.voter pk) (some v) k) := .put hheld hk
  split
  · exact hsave
  · exact .insertOr hP ⟨rfl, rfl⟩ (hfail _) hsave

/-- The rows of a credential are no voter's. -/
theorem moveCredential_goes {J : Order Row} {A : (k : Key) → Row k → Prop} {pk : ℕ} {v₁ v₂ : VoterRow}
    {fail : Failure → Program} {k : Program} (hP : Allows J P A Free) (hheld : ∀ own, P own → own.has (.voter pk))
    (hfail : ∀ e, Goes J P (fail e)) (hk : Goes J P k) : Goes J P (moveCredential pk v₁ v₂ fail k) := by
  unfold moveCredential
  dsimp only
  split
  · exact insertCredential_goes hP hheld hfail hk
  · exact .write hP (fun _ => ⟨rfl, rfl⟩) (insertCredential_goes hP hheld hfail hk)

end Rules

/-! ### The calls -/

section Calls

variable {E : Env} {c : Kind}

theorem rolledBack {J : Order Row} {P : Taken Row → Prop} : Goes J P (.rollback .halt : Program) := fun _ _ => trivial

theorem issueAuthorization_climbs {q : IssueRequest} :
    Climbs (order c) (issueAuthorization E q fun _ => .halt) [] := by
  have hP := allows_voter c q.voter
  refine fun db => ?_
  dsimp only
  split
  · trivial
  split
  · trivial
  refine lockVoter_climbs trivial fun v => ?_
  dsimp only
  split
  · exact rolledBack
  refine .read fun db₁ => ?_
  split
  · exact rolledBack
  refine .read fun db₂ => ?_
  split
  · exact rolledBack
  refine .updateWhere (hP.has _) (fun _ _ h => issuedTo_voter h) (.insertOr (hP.has _) ⟨rfl, rfl⟩ rolledBack ?_)
  exact record_goes (fun _ ho => ho.1.1) (fun _ => trivial) fun _ => trivial

/-- The authorization is of the voter that is locked after it. -/
theorem castBallot_climbs {q : CastRequest} : Climbs (order .cast) (castBallot E q fun _ => .halt) [] := by
  refine ⟨fun a ha => ⟨fun hhas => ?_, fun _ => ⟨⟨noAudit_nil, Or.inr ⟨a.voter, rfl, Or.inr ?_, Or.inl rfl⟩⟩, ?_⟩⟩, trivial⟩
  · obtain ⟨e, he, -⟩ := hhas
    exact absurd he List.not_mem_nil
  · exact fun e he => absurd he List.not_mem_nil
  have hP := (allows_cast a.voter).has (.authorization (tokenHash E q.token))
  have hown : OfVoter a.voter [⟨.authorization (tokenHash E q.token), some a⟩] :=
    (ofVoter_nil _).cons rfl fun u hu => (Option.some.inj hu).symm
  dsimp only
  split
  · trivial
  split
  · trivial
  refine fun db => ?_
  dsimp only
  split
  · trivial
  split
  · trivial
  refine Goes.note (.lockRow hP (fun _ => rfl) rolledBack fun v => ?_) _ ⟨hown, Taken.has_cons.mpr (Or.inl rfl)⟩
  dsimp only
  split
  · exact rolledBack
  split
  · exact rolledBack
  refine .read fun db₁ => .read fun db₂ => ?_
  dsimp only
  split
  · exact rolledBack
  refine .read fun db₃ => ?_
  split
  · exact rolledBack
  have hP := hP.has (.voter a.voter)
  refine .insertOr hP ⟨rfl, rfl⟩ rolledBack (.insertOr hP ⟨rfl, rfl⟩ rolledBack (.insertOr hP ⟨rfl, rfl⟩ rolledBack ?_))
  refine .put (fun _ ho => ho.1.2) (.put (fun _ ho => ho.2) ?_)
  exact record_goes (fun _ ho => ho.1.1.1) (fun _ => trivial) fun _ => trivial

theorem voterAction_climbs {event voter : ℕ} {f : EventRow → VoterRow → Program}
    (h : ∀ ev v, Climbs (order c) (f ev v) []) : Climbs (order c) (voterAction event voter .halt f) [] := by
  refine fun db => ?_
  dsimp only
  split
  · trivial
  refine fun db => ?_
  dsimp only
  split
  · trivial
  split
  · unfold noteSeen
    split
    · exact h _ _
    · exact h _ _
  · trivial

theorem resetCredential_climbs {q : ResetRequest} {ev : EventRow} {v : VoterRow} :
    Climbs (order c) (resetCredential E q ev v fun _ => .halt) [] := by
  have hP := allows_voter c q.voter
  unfold resetCredential
  split
  · trivial
  split
  · trivial
  refine lockVoter_climbs trivial fun v => ?_
  refine .updateWhere (hP.has _) (fun _ _ h => issuedTo_voter h) ?_
  refine moveCredential_goes (hP.has _) (fun _ ho => ho.2) (fun _ => rolledBack) ?_
  refine record_goes (fun _ ho => ho.1.1) (fun _ => trivial) fun _ => ?_
  show Climbs (order c) (if q.notifyVoter then _ else _) []
  split
  · refine fun db => ?_
    exact lockVoter_climbs recordNow_climbs fun _ => .put (fun _ ho => ho.2) (.commit recordNow_climbs)
  · trivial

theorem resendCredentialPublic_climbs {q : ResendRequest} {ev : EventRow} :
    Climbs (order c) (resendCredentialPublic E q ev fun _ => .halt) [] := by
  have hrecorded : ∀ {P : Taken Row → Prop}, (∀ own, P own → NoAudit own) → ∀ a : Entry,
      Goes (order c) P (record E a (.rollback .halt) (.commit .halt)) := fun hP a =>
    record_goes hP (fun _ => trivial) fun _ => trivial
  unfold resendCredentialPublic
  dsimp only
  split
  · trivial
  refine fun db => ?_
  dsimp only
  split
  · exact hrecorded (fun _ ho => ho) _ [] noAudit_nil
  rename_i pk v₀ hv₀
  have hP := allows_voter c pk
  refine lockVoter_climbs (hrecorded (fun _ ho => ho) _ [] noAudit_nil) fun v => ?_
  dsimp only
  split
  · exact hrecorded (fun _ ho => ho.1.1) _
  split
  · exact hrecorded (fun _ ho => ho.1.1) _
  refine .updateWhere (hP.has _) (fun _ _ h => issuedTo_voter h) ?_
  exact moveCredential_goes (hP.has _) (fun _ ho => ho.2) (fun _ => rolledBack) (hrecorded (fun _ ho => ho.1.1) _)

/-- The status and the authorizations are saved in transactions of their own. -/
theorem setStatus_climbs {q : StatusRequest} {ev : EventRow} {v : VoterRow} :
    Climbs (order c) (Voters.setStatus E q ev v fun _ => .halt) [] := by
  have hP := allows_voter c q.voter
  unfold Voters.setStatus
  split
  · trivial
  split
  · trivial
  split
  · trivial
  refine lockVoter_climbs trivial fun v => .put (fun _ ho => ho.2) (.commit ?_)
  dsimp only
  show Climbs (order c) (if q.status = .SUSPENDED ∨ q.status = .INELIGIBLE then _ else _) []
  split
  · exact Goes.updateWhere hP (fun _ _ h => issuedTo_voter h) (.commit recordNow_climbs) [] (ofVoter_nil _)
  · exact recordNow_climbs

/-- The voters of a bulk reset, one after the other. -/
theorem resetEach_goes {x : Execution} {k : Program} (hk : Goes (order .bulk) Led k) :
    ∀ pks : List ℕ, Goes (order .bulk) Led (resetEach E x (fun _ => .rollback .halt) k pks)
  | [] => hk
  | pk :: pks => by
    have hP := allows_bulk_voter pk
    refine .lockRow (allows_bulk pk) (fun _ => rfl) rolledBack fun v => ?_
    refine .updateWhere hP (fun _ _ h => issuedTo_voter h) ?_
    refine moveCredential_goes hP (fun _ ho => ho.2) (fun _ => rolledBack) ?_
    exact (resetEach_goes hk pks).mono fun _ ho => ho.1

theorem execBulkReset_climbs {x : Execution} {row : ApprovalRow} {approver : User} :
    Climbs (order .bulk) (execBulkReset E x row approver (fun _ => .rollback .halt) fun _ => .commit .halt) [] := by
  refine fun db => ?_
  dsimp only
  split
  · trivial
  split
  · trivial
  refine fun db => ?_
  refine resetEach_goes ?_ _ [] led_nil
  exact record_goes (fun _ ho => ho.1) (fun _ => trivial) fun _ => trivial

/-- **Every call** locks in its order. -/
theorem Call.climbs (c : Call) : Climbs (order c.kind) (c.program E) [] := by
  rcases c with q | q | q | ⟨x, row, approver⟩ | q | q
  · exact issueAuthorization_climbs
  · exact castBallot_climbs
  · exact voterAction_climbs fun _ _ => resetCredential_climbs
  · exact execBulkReset_climbs
  · refine fun db => ?_
    dsimp only
    split
    · trivial
    · exact resendCredentialPublic_climbs
  · exact voterAction_climbs fun _ _ => setStatus_climbs

end Calls

/-! ### Runs -/

/-- Thread `t` holds a row of the voter. -/
def Has (s : State Row Note) (t v : ℕ) : Prop :=
  ∃ k r, s.owner k = some t ∧ s.db.row k = some r ∧ voterOf k (some r) = some v

/-- No voter has two issued authorizations. -/
def OneIssued (db : Database) : Prop := ∀ k k' r r' v, db.row k = some r → db.row k' = some r' →
  issued k r = true → issued k' r' = true → voterOf k (some r) = some v → voterOf k' (some r') = some v → k = k'

/-- Calls that hold rows of the voters `v` and `v'` can come to wait for each
other: a cast and another of the same voter, and two bulk resets. -/
def Meet (c c' : Kind) (v v' : ℕ) : Prop := v = v' ∧ (c = .cast ∨ c' = .cast) ∨ c = .bulk ∧ c' = .bulk

theorem Meet.symm {c c' : Kind} {v v' : ℕ} (h : Meet c c' v v') : Meet c' c v' v :=
  h.imp (fun h => ⟨h.1.symm, h.2.symm⟩) And.symm

section Runs

variable {E : Env} {calls : ℕ → Call} {db₀ : Database} {s s' : State Row Note} {t u v : ℕ}

/-- The rows that a thread holds after its statement do not meet those of another,
and no voter has two issued authorizations. -/
def Clear (calls : ℕ → Call) (s : State Row Note) (t : ℕ) (s' : State Row Note) : Prop :=
  (∀ u v v', u ≠ t → Has s' t v → Has s u v' → ¬ Meet (calls t).kind (calls u).kind v v') ∧ OneIssued s'.db

/-- No two threads hold rows that meet. -/
def Separate (calls : ℕ → Call) (s : State Row Note) : Prop :=
  ∀ t u v v', u ≠ t → Has s t v → Has s u v' → ¬ Meet (calls t).kind (calls u).kind v v'

/-- A statement of another thread takes nothing from this one. -/
theorem Has.of_leaves (hl : Leaves s s' u) (h : Has s' u v) : Has s u v := by
  obtain ⟨k, r, howner, hrow, hv⟩ := h
  have hbefore := (hl.owner k).mp howner
  exact ⟨k, r, hbefore, (hl.row k hbefore).symm.trans hrow, hv⟩

/-- **A step** keeps the threads apart. -/
theorem Separate.step {J : ℕ → Order Row} (h : Separate calls s) (hholds : Holds J s) (hs : Step s t s')
    (hclear : Clear calls s t s') : Separate calls s' := by
  intro u w v v' hne hu hw
  by_cases hut : u = t
  · subst hut
    exact hclear.1 w v v' hne hu (hw.of_leaves (hholds.leaves hs hne))
  by_cases hwt : w = t
  · subst hwt
    exact fun hmeet => hclear.1 u v' v hut hw (hu.of_leaves (hholds.leaves hs hut)) hmeet.symm
  · exact h u w v v' hne (hu.of_leaves (hholds.leaves hs hut)) (hw.of_leaves (hholds.leaves hs hwt))

/-- A row that is noted as held is held. -/
theorem Holding.has {J : Order Row} {own : Taken Row} (h : Holding J s t own) {e : Σ k : Key, Option (Row k)}
    (he : e ∈ own) (hv : voterOf e.1 e.2 = some v) : Has s t v := by
  obtain ⟨k, o⟩ := e
  rcases o with _ | r
  · cases k <;> cases hv
  · exact ⟨k, r, (h.owner k).mpr ⟨_, he, rfl⟩, h.row _ he, hv⟩

/-- What a thread waits for that another holds is no row of the log. -/
theorem voter_of_next {c : Kind} {own own' : Taken Row} {k : Key} {r : Row k} (hnext : order c own k r)
    (hmem : ⟨k, some r⟩ ∈ own') (hno : NoAudit own') : ∃ g, voterOf k (some r) = some g ∧ (c = .bulk ∨ OnlyOf g own) ∧
      (c = .cast ∨ issued k r = true ∨ NoneOf g own) := by
  obtain ⟨-, haudit | hvoter⟩ := hnext
  · have hfree := hno _ hmem
    rw [haudit] at hfree
    cases hfree
  · exact hvoter

/-- **No two transactions wait for each other** in a run that is clear. -/
theorem no_deadlock (hdb : OneIssued db₀) (h : Run (Clear calls) (.init db₀ fun t => (calls t).program E) s) :
    ∀ t u, ¬ (Waits s t u ∧ Waits s u t) := by
  have hall : Holds (fun t => order (calls t).kind) s ∧ Separate calls s ∧ OneIssued s.db := by
    induction h with
    | refl =>
      refine ⟨.init fun t => (calls t).climbs, fun t u v v' _ ht => ?_, hdb⟩
      obtain ⟨k, r, howner, -⟩ := ht
      cases howner
    | step _ hs hclear ih => exact ⟨ih.1.step hs, ih.2.1.step ih.1 hs hclear, hclear.2⟩
  obtain ⟨hholds, hsep, hone⟩ := hall
  rintro t u ⟨htu, hut⟩
  have hne : u ≠ t := by
    obtain ⟨_, _, hw⟩ := htu
    exact hw.other
  obtain ⟨own, own', k, k', r, r', hw, hw', hmem', hmem, hdisj⟩ := crossed hholds htu hut
  obtain ⟨g, hg, honly, hlast⟩ := voter_of_next hw.next hmem' hw'.next.1
  obtain ⟨g', hg', honly', hlast'⟩ := voter_of_next hw'.next hmem hw.next.1
  have ht : Has s t g' := Holding.has hw.holding hmem hg'
  have hu : Has s u g := Holding.has hw'.holding hmem' hg
  have hapart := hsep t u g' g hne ht hu
  -- both rows are of one voter, unless both calls are bulk resets
  obtain rfl : g' = g := by
    rcases honly with hbulk | honly
    · rcases honly' with hbulk' | honly'
      · exact absurd (Or.inr ⟨hbulk, hbulk'⟩) hapart
      · exact (honly' _ hmem' g hg).symm
    · exact honly _ hmem g' hg'
  -- neither is a cast, so both wait for an issued authorization of the voter
  have hissued : issued k r = true := by
    rcases hlast with hcast | hissued | hnone
    · exact absurd (Or.inl ⟨rfl, Or.inl hcast⟩) hapart
    · exact hissued
    · exact absurd hg' (hnone _ hmem)
  have hissued' : issued k' r' = true := by
    rcases hlast' with hcast | hissued' | hnone
    · exact absurd (Or.inl ⟨rfl, Or.inr hcast⟩) hapart
    · exact hissued'
    · exact absurd hg (hnone _ hmem')
  obtain rfl := hone k k' r r' g' hw.row hw'.row hissued hissued' hg hg'
  exact hdisj k ⟨_, hmem, rfl⟩ ⟨_, hmem', rfl⟩

end Runs

/-! ### A vote and a second sign-in -/

/-- `OneIssued`, to be computed. -/
def oneIssued (db : Database) : Bool :=
  db.keys.all fun k => db.keys.all fun k' =>
    match db.row k, db.row k' with
    | some r, some r' => k = k' || !issued k r || !issued k' r' || voterOf k (some r) ≠ voterOf k' (some r')
    | _, _ => true

theorem oneIssued_sound {db : Database} (h : oneIssued db = true) : OneIssued db := by
  intro k k' r r' v hr hr' hi hi' hv hv'
  have hrow := List.all_eq_true.mp (List.all_eq_true.mp h k (db.cover k (by rw [hr]; rfl))) k'
    (db.cover k' (by rw [hr']; rfl))
  rw [hr, hr'] at hrow
  simpa [hi, hi', hv, hv'] using hrow

/-- The voter casts, and signs in again meanwhile. -/
def voteAndSignIn : ℕ → Call
  | 0 => .cast { event := 1, token := "T", payload := .obj [], uuid := "u", nonce := "n", ephemeral := "c",
                 now := fun _ => 2 }
  | _ => .issue { event := 1, voter := 7, method := "CODE", token := "T2", id := "b", now := fun _ => 2 }

/-- The cast locks the authorization, and the sign-in the voter. -/
def crossing : List ℕ := List.replicate 2 0 ++ List.replicate 5 1

/-- Both wait, each for the other. -/
theorem not_no_deadlock :
    ¬ ∀ (E : Env) (calls : ℕ → Call) (db₀ : Database) (s : State Row Note), OneIssued db₀ →
      Run Any (.init db₀ fun t => (calls t).program E) s → ∀ t u, ¬ (Waits s t u ∧ Waits s u t) := by
  intro h
  have hwaits : (replay (.init Authorizations.signedIn fun t => (voteAndSignIn t).program .plain) crossing).map
      (fun s => (waitsFor s 0, waitsFor s 1)) = some (some 1, some 0) := by decide +kernel
  obtain ⟨s, hs, hwaits⟩ := Option.map_eq_some_iff.mp hwaits
  obtain ⟨h₀, h₁⟩ := Prod.mk.inj hwaits
  exact h .plain voteAndSignIn _ s (oneIssued_sound (by decide +kernel)) (Run.of_replay _ .refl hs) 0 1
    ⟨waits_of_waitsFor h₀, waits_of_waitsFor h₁⟩

/-- `Clear`, to be computed. -/
def clear (calls : ℕ → Call) (s : State Row Note) (t : ℕ) (s' : State Row Note) : Bool :=
  oneIssued s'.db && s'.db.keys.all fun k => s.db.keys.all fun k' =>
    match s.owner k', voterOf k (s'.db.row k), voterOf k' (s.db.row k') with
    | some u, some v, some v' => u = t || s'.owner k ≠ some t ||
      !((v = v' && ((calls t).kind = .cast || (calls u).kind = .cast)) || ((calls t).kind = .bulk && (calls u).kind = .bulk))
    | _, _, _ => true

theorem clear_sound {calls : ℕ → Call} {s s' : State Row Note} {t : ℕ} (h : clear calls s t s' = true) :
    Clear calls s t s' := by
  unfold clear at h
  rw [Bool.and_eq_true] at h
  refine ⟨fun u v v' hne ht hu hmeet => ?_, oneIssued_sound h.1⟩
  obtain ⟨k, r, howner, hr, hv⟩ := ht
  obtain ⟨k', r', howner', hr', hv'⟩ := hu
  have hrow := List.all_eq_true.mp (List.all_eq_true.mp h.2 k (s'.db.cover k (by rw [hr]; rfl))) k'
    (s.db.cover k' (by rw [hr']; rfl))
  rw [howner', hr, hr', hv, hv'] at hrow
  unfold Meet at hmeet
  simp [hne, howner] at hrow
  grind

/-- The voter casts, and signs in again afterwards. -/
theorem no_deadlock_inTurn :
    ∃ s, replayIf 2 (clear voteAndSignIn) (.init Authorizations.signedIn fun t => (voteAndSignIn t).program .plain)
        (List.replicate 17 0 ++ List.replicate 3 1) = some s ∧ s.db.count (Authorizations.ballotOf 1) = 1 ∧
      ∀ t u, ¬ (Waits s t u ∧ Waits s u t) := by
  have hcount : (replayIf 2 (clear voteAndSignIn)
      (.init Authorizations.signedIn fun t => (voteAndSignIn t).program .plain)
      (List.replicate 17 0 ++ List.replicate 3 1)).map (fun s => s.db.count (Authorizations.ballotOf 1)) = some 1 := by
    decide +kernel
  obtain ⟨s, hs, hcount⟩ := Option.map_eq_some_iff.mp hcount
  have hsilent : Silent 2 (.init Authorizations.signedIn fun t => (voteAndSignIn t).program .plain) := by
    intro u hu
    obtain ⟨n, rfl⟩ : ∃ n, u = n + 2 := ⟨u - 2, by omega⟩
    rfl
  exact ⟨s, hs, hcount, no_deadlock (oneIssued_sound (by decide +kernel))
    (Run.of_replayIf (fun _ _ _ _ h => clear_sound h) _ hsilent .refl hs)⟩

end Deadlocks
end FlexyVotes
