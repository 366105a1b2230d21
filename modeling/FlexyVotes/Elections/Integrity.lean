/-
# Dual approval

A sensitive action is asked for by one person and approved by another before it
runs (`requestApproval`, `decideApproval`); where the election does not ask for
two, it runs at once. The action itself (an entry of `EXECUTORS`) runs in a
transaction of its own: what it raises takes it back, and is noted on the
request.

Key definitions: `Executor`, `requestApproval`, `decideApproval`, `execute`, `Executes`.
Key theorems: `requestApproval_ok`, `decideApproval_ok`.
-/
import FlexyVotes.Core.Audit

namespace FlexyVotes

open Transactions Audit

/-- `str` of an exception; the name of one that nothing on the path expects. -/
def Failure.text : Failure → String
  | .cast message _ | .ballot message | .lifecycle message | .keyCustody message | .results message
  | .integrity message | .voterImport message | .voterAuth message _ | .otp message | .payment message _ => message
  | .permission => "PermissionDenied"
  | .billingLimit => "BillingLimitError"
  | .crash exception => exception

def ApprovalAction.value : ApprovalAction → String
  | .UNFREEZE => "UNFREEZE"
  | .EXTEND_VOTING => "EXTEND_VOTING"
  | .REOPEN_VOTING => "REOPEN_VOTING"
  | .BULK_CREDENTIAL_RESET => "BULK_CREDENTIAL_RESET"
  | .DECERTIFY => "DECERTIFY"
  | .RELEASE_LEGAL_HOLD => "RELEASE_LEGAL_HOLD"
  | .REFUND => "REFUND"

/-- `get_action_display`. -/
def ApprovalAction.label : ApprovalAction → String
  | .UNFREEZE => "Lift a freeze"
  | .EXTEND_VOTING => "Extend the voting period"
  | .REOPEN_VOTING => "Re-open closed voting"
  | .BULK_CREDENTIAL_RESET => "Reset all unused voter credentials"
  | .DECERTIFY => "Revoke result certification"
  | .RELEASE_LEGAL_HOLD => "Release a legal hold"
  | .REFUND => "Approve a large refund"

namespace Integrity

def ACTION_PERMS : ApprovalAction → String
  | .UNFREEZE => "election.freeze"
  | .EXTEND_VOTING => "election.close"
  | .REOPEN_VOTING => "election.close"
  | .BULK_CREDENTIAL_RESET => "voter.credentials"
  | .DECERTIFY => "results.certify"
  | .RELEASE_LEGAL_HOLD => "dispute.manage"
  | .REFUND => "refund.create"

/-- An entry of `EXECUTORS`, for a request and its approver: what is raised, and
the result. -/
abbrev Executor := ApprovalRow → User → (Failure → Program) → (Json → Program) → Program

/-- The log entry about a request. -/
def approvalEntry (pk : ℕ) (row : ApprovalRow) (what summary : String) (actor : User) (request : Option Request)
    (reason : String) (metadata : Json) (result : AuditResult) (now : Time) : Entry where
  eventType := "APPROVAL_" ++ row.action.value ++ "_" ++ what
  request := request
  actor := some actor
  event := row.election.map fun e => (e, row.organization)
  organization := row.organization
  targetType := "elections.ApprovalRequest"
  targetId := toString pk
  summary := row.action.label ++ " " ++ summary
  metadata := metadata
  result := result
  reason := reason
  createdAt := now

/-- `_execute`: the action in a transaction, then what came of it. -/
def execute (E : Env) (exec : Executor) (pk : ℕ) (row : ApprovalRow) (approver : User) (request : Option Request)
    (now : Time) (k : Except Failure Unit → Program) : Program :=
  let finish (row : ApprovalRow) (summary : String) (result : AuditResult) : Program :=
    .update (.approval pk) (fun _ => true) (fun _ => row) fun _ => .commit <| .note (.decision pk .executed) <|
    recordNow E (approvalEntry pk row "EXECUTED" summary approver request row.reason
      (.obj [("payload", row.payload), ("result", row.result)]) result now)
      (k (.error (.crash "DatabaseError"))) (k (.ok ()))
  .note (.decision pk .executing) <|
  exec row approver
    (fun e => .rollback <|
      finish { row with status := .FAILED, result := .obj [("error", .str e.text)] } "failed" .FAILURE)
    fun result => .commit <|
      finish { row with status := .EXECUTED, result := result, executedAt := some now } "executed" .SUCCESS

/-- One call of `request_approval`. -/
structure ApprovalCall where
  event : Option (ℕ × EventRow)
  action : ApprovalAction
  payload : Json
  reason : String
  requester : User
  request : Option Request := none
  /-- The primary key the request will get. -/
  approval : ℕ
  now : Time

/-- Three days. -/
def expiry : Time := 3 * 24 * 3600 * 1000000

def ApprovalCall.row (E : Env) (q : ApprovalCall) : ApprovalRow where
  election := q.event.map (·.1)
  organization := q.event.bind (·.2.organization)
  action := q.action
  payload := q.payload
  reason := E.strip q.reason
  requestedBy := q.requester.pk
  expiresAt := q.now + expiry

/-- `request_approval`. -/
def requestApproval (E : Env) (exec : Executor) (q : ApprovalCall) (k : Except Failure Unit → Program) : Program :=
  if !q.requester.may (ACTION_PERMS q.action) (q.event.map (·.1)) then k (.error .permission)
  else if E.strip q.reason = "" then k (.error (.integrity "A reason is required for this action."))
  else
    let row := q.row E
    .insertOr (.approval q.approval) row (.rollback (k (.error (.crash "IntegrityError")))) <| .commit <|
    recordNow E (approvalEntry q.approval row "REQUESTED" "requested" q.requester q.request q.reason
      (.obj [("payload", q.payload)]) .SUCCESS q.now) (k (.error (.crash "DatabaseError"))) <|
    if q.event.all (·.2.dualApprovalRequired) then k (.ok ())
    else
      let row := { row with
        decidedBy := some q.requester.pk
        decidedAt := some q.now
        decisionNote := "Dual approval not required for this election."
        status := .APPROVED }
      .update (.approval q.approval) (fun _ => true) (fun _ => row) fun _ => .commit <|
      execute E exec q.approval row q.requester q.request q.now k

/-- One call of `decide`. -/
structure DecideCall where
  approval : ℕ
  approver : User
  approve : Bool
  note : String := ""
  request : Option Request := none
  now : Time

/-- The request, decided. -/
def DecideCall.row (q : DecideCall) (row : ApprovalRow) : ApprovalRow :=
  { row with
    decidedBy := some q.approver.pk
    decidedAt := some q.now
    decisionNote := q.note
    status := if q.approve then .APPROVED else .REJECTED }

/-- `decide`, of the request as the view has read it. -/
def decideRead (E : Env) (exec : Executor) (q : DecideCall) (row : ApprovalRow) (k : Except Failure Unit → Program) :
    Program :=
  if row.status ≠ .PENDING then k (.error (.integrity "This request has already been decided."))
  else if row.expiresAt ≤ q.now then
    .note (.decision q.approval (.deciding .EXPIRED)) <|
    .update (.approval q.approval) (fun _ => true) (fun r => { r with status := .EXPIRED }) fun _ => .commit <|
    .note (.decision q.approval .closed) <|
    k (.error (.integrity "This request has expired."))
  else if !q.approver.may "approval.decide" row.election then k (.error .permission)
  else if q.approver.pk = row.requestedBy then
    k (.error (.integrity "Separation of duties: you cannot approve your own request."))
  else
    .note (.decision q.approval (.deciding (q.row row).status)) <|
    .update (.approval q.approval) (fun _ => true) (fun _ => q.row row) fun _ => .commit <|
    .note (.decision q.approval (if q.approve then .approved else .closed)) <|
    recordNow E (approvalEntry q.approval (q.row row) (if q.approve then "APPROVED" else "REJECTED")
      (if q.approve then "approved" else "rejected") q.approver q.request q.note (.obj []) .SUCCESS q.now)
      (k (.error (.crash "DatabaseError"))) <|
    if q.approve then execute E exec q.approval (q.row row) q.approver q.request q.now k else k (.ok ())

/-- `decide`, with the read of the view. -/
def decideApproval (E : Env) (exec : Executor) (q : DecideCall) (k : Except Failure Unit → Program) : Program :=
  .read fun db =>
    match db.row (.approval q.approval) with
    | none => k (.error (.crash "Http404"))
    | some row => decideRead E exec q row k

/-! ### Around the executor -/

/-- A row of a request or of the audit log. -/
def isApproval : Key → Bool
  | .approval _ => true
  | .auditHead _ => true
  | .auditEvent _ _ => true
  | _ => false

/-- The action in its transaction, taken back or committed, is `Ok`. -/
def Executes (S : Spec Row Note) (exec : Executor) : Prop :=
  ∀ row u (fail : Failure → Program) (k : Json → Program), (∀ e, Rest S (fail e)) → (∀ r, Rest S (k r)) →
    Rest S (exec row u (fun e => .rollback (fail e)) fun r => .commit (k r))

section Ok

variable {S : Spec Row Note} (hS : S.Sound) {E : Env} {exec : Executor}

theorem quiet_audit (hq : Quiet S isApproval) : Quiet S isAudit :=
  hq.mono fun k hk => by
    cases k <;> first
      | rfl
      | cases hk

/-- Notes about decisions can be made at any time. -/
def Noted (S : Spec Row Note) : Prop := ∀ pk phase db, S.fact (.decision pk phase) db

theorem Noted.rest (hn : Noted S) {pk : ℕ} {phase : DecisionPhase} {k : Program} (hk : Rest S k) :
    Rest S (.note (.decision pk phase) k) := fun db _ => ⟨hn pk phase db, hk db _⟩

include hS in
theorem execute_ok {pk : ℕ} {row : ApprovalRow} {approver : User} {request : Option Request} {now : Time}
    {k : Except Failure Unit → Program} (hq : Quiet S isApproval) (hn : Noted S) (hexec : Executes S exec)
    (hk : ∀ r, Rest S (k r)) : Rest S (execute E exec pk row approver request now k) := by
  have hfinish : ∀ (row : ApprovalRow) (a : Entry),
      Rest S (.update (.approval pk) (fun _ => true) (fun _ => row) fun _ => .commit <| .note (.decision pk .executed) <|
        recordNow E a (k (.error (.crash "DatabaseError"))) (k (.ok ()))) := fun row a =>
    Rest.update hS (hn.rest (Rest.recordNow hS (quiet_audit hq) (hk _) (hk _))) hq rfl
  exact hn.rest (hexec row approver _ _ (fun e => hfinish _ _) fun r => hfinish _ _)

include hS in
/-- **Asking for an approval** is `Ok` where the executor is. -/
theorem requestApproval_ok {q : ApprovalCall} {k : Except Failure Unit → Program} (hq : Quiet S isApproval)
    (hn : Noted S) (hexec : Executes S exec) (hk : ∀ r, Rest S (k r)) : Rest S (requestApproval E exec q k) := by
  unfold requestApproval
  split_ifs
  · exact hk _
  · exact hk _
  · exact Rest.insertOr (Rest.recordNow hS (quiet_audit hq) (hk _) (hk _)) (hk _) hq rfl
  · exact Rest.insertOr (Rest.recordNow hS (quiet_audit hq) (hk _)
      (Rest.update hS (execute_ok hS hq hn hexec hk) hq rfl)) (hk _) hq rfl

include hS in
theorem decideRead_ok {q : DecideCall} {row : ApprovalRow} {k : Except Failure Unit → Program} (hq : Quiet S isApproval)
    (hn : Noted S) (hexec : Executes S exec) (hk : ∀ r, Rest S (k r)) : Rest S (decideRead E exec q row k) := by
  unfold decideRead
  split_ifs
  · exact hk _
  · exact hn.rest (Rest.update hS (hn.rest (hk _)) hq rfl)
  · exact hk _
  · exact hk _
  · exact hn.rest (Rest.update hS (hn.rest (Rest.recordNow hS (quiet_audit hq) (hk _)
      (execute_ok hS hq hn hexec hk))) hq rfl)
  · exact hn.rest (Rest.update hS (hn.rest (Rest.recordNow hS (quiet_audit hq) (hk _) (hk _))) hq rfl)

include hS in
/-- **A decision** is `Ok` where the executor is. -/
theorem decideApproval_ok {q : DecideCall} {k : Except Failure Unit → Program} (hq : Quiet S isApproval)
    (hn : Noted S) (hexec : Executes S exec) (hk : ∀ r, Rest S (k r)) : Rest S (decideApproval E exec q k) := by
  refine Rest.read fun db _ => ?_
  rcases db.row (.approval q.approval) with _ | row
  · exact hk _
  · exact decideRead_ok hS hq hn hexec hk

end Ok

end Integrity
end FlexyVotes
