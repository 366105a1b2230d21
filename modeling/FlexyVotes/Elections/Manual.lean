/-
# The actions that are not manual

`certify`, `decertify` and `reopen_voting` are marked `manual=False`, and
`available_actions` leaves them out. `transition` does not look at the mark: the
console's `do_transition` and the API hand it whatever action is posted. So
they are taken in `approve_and_certify` and in the execution of an approval only
where no posted one goes through (`dual_controlled`).

`executors` are the actions of an approved request, inside the caller's
transaction.

Key definitions: `executors`, `Call`, `GoesThrough`, `DualControlled`.
Key theorems: `transition_along`, `goesThrough_moves`, `stays_of_stopped`, `dual_controlled`.
-/
import FlexyVotes.Lib.Steps
import FlexyVotes.Core.AuditChain
import FlexyVotes.Elections.Approvals
import FlexyVotes.Elections.Certified
import FlexyVotes.Elections.Disclosure
import FlexyVotes.Elections.Voters

namespace FlexyVotes
namespace Manual

open Transactions Audit Configuration Lifecycle Results Casting Voters Integrity

/-! ### The executors -/

/-- What an execution reads and draws beside the request. -/
structure Execution where
  /-- `_parse_dt`; nothing where it raises. -/
  parseDt : Json → Option Time
  /-- The new code of a voter. -/
  codes : ℕ → String
  /-- The answer of the payment gateway to a refund. -/
  answer : Except String String
  fake : Bool := false
  now : ℕ → Time

/-- `req.payload[name]`. -/
def payloadAt (row : ApprovalRow) (name : String) : Option Json :=
  match row.payload with
  | .obj kvs => Json.get? kvs name
  | _ => none

/-- `FREEZE_FLAGS`: the flag of a scope, and the row without it. -/
def unfrozen : String → Option (String × (EventRow → EventRow))
  | "config" => some ("config_frozen", fun ev => { ev with configFrozen := false })
  | "ballot" => some ("ballot_frozen", fun ev => { ev with ballotFrozen := false })
  | "candidates" => some ("candidates_frozen", fun ev => { ev with candidatesFrozen := false })
  | "voters" => some ("voter_list_frozen", fun ev => { ev with voterListFrozen := false })
  | _ => none

/-- `Event.objects.filter(pk=…).update(…)`. -/
def updateEvent (row : ApprovalRow) (g : EventRow → EventRow) (k : Program) : Program :=
  match row.election with
  | none => k
  | some e => .update (.event e) (fun _ => true) g fun _ => k

/-- `Event.objects.get(pk=req.election_id)`. -/
def eventOf (row : ApprovalRow) (fail : Failure → Program) (k : ℕ → EventRow → Program) : Program :=
  .read fun db =>
    match row.election with
    | none => fail (.crash "Event.DoesNotExist")
    | some e =>
      match db.row (.event e) with
      | none => fail (.crash "Event.DoesNotExist")
      | some ev => k e ev

def execUnfreeze : Executor := fun row _ fail k =>
  match payloadAt row "scope" with
  | some (.str scope) =>
    match unfrozen scope with
    | none => fail (.crash "KeyError")
    | some (flag, g) => updateEvent row g (k (.obj [("unfrozen", .str flag)]))
  | _ => fail (.crash "KeyError")

def execExtend (E : Env) (x : Execution) : Executor := fun row _ fail k =>
  eventOf row fail fun _ ev =>
    match payloadAt row "new_end" with
    | none => fail (.crash "KeyError")
    | some value =>
      match x.parseDt value with
      | none => fail (.integrity "Invalid date/time.")
      | some newEnd =>
        if newEnd ≤ x.now 0 ∨ newEnd ≤ ev.endDate then
          fail (.integrity "The new end time must be later than both now and the current end time.")
        else if ev.status ∉ [EventStatus.OPEN, .PAUSED, .SCHEDULED] then
          fail (.integrity "Voting can only be extended while scheduled, open or paused.")
        else
          updateEvent row (fun ev => { ev with endDate := newEnd }) <|
            k (.obj [("old_end", .str (E.isoformat ev.endDate)), ("new_end", .str (E.isoformat newEnd))])

/-- `lifecycle.transition(event, 'reopen_voting', …)`. -/
def reopening (x : Execution) (e : ℕ) (row : ApprovalRow) (approver : User) (newEnd : Time) : TransitionRequest where
  event := e
  action := "reopen_voting"
  actor := some approver
  system := true
  reason := row.reason
  extraEffect := fun ev => { ev with endDate := newEnd, closedAt := none }
  now := x.now

def execReopen (E : Env) (x : Execution) : Executor := fun row approver fail k =>
  eventOf row fail fun e _ =>
    match payloadAt row "new_end" with
    | none => fail (.crash "KeyError")
    | some value =>
      match x.parseDt value with
      | none => fail (.integrity "Invalid date/time.")
      | some newEnd =>
        if newEnd ≤ x.now 0 then fail (.integrity "The new end time must be in the future.")
        else
          .read fun db =>
            if db.select (Disclosure.approvedOf e) ≠ [] then
              fail (.integrity "Results were already certified; voting cannot be re-opened.")
            else
              transitionBody E (reopening x e row approver newEnd) fail fun _ =>
                k (.obj [("new_end", .str (E.isoformat newEnd))])

/-- The voters who have a code and have not voted. -/
def unusedOf (db : Database) (e : ℕ) : List ℕ :=
  db.collect fun
    | .voter pk => fun v => if v.election = e ∧ v.status ≠ .VOTED ∧ v.credentialHash.isSome then some pk else none
    | _ => fun _ => none

/-- The credential under its unique constraint. -/
def moveCredential (pk : ℕ) (v v' : VoterRow) (fail : Failure → Program) (k : Program) : Program :=
  let save : Program := .put (.voter pk) (some v') k
  let insert : Program :=
    match v'.credentialHash with
    | none => save
    | some h => .insertOr (.credential v'.election h) pk (fail (.crash "IntegrityError")) save
  match v.credentialHash with
  | none => insert
  | some h => .put (.credential v.election h) none insert

/-- The loop of `reset_all_unused_credentials`. -/
def resetEach (E : Env) (x : Execution) (fail : Failure → Program) (k : Program) : List ℕ → Program
  | [] => k
  | pk :: pks =>
    .lockRow (.voter pk) fun
      | none => fail (.crash "Voter.DoesNotExist")
      | some v =>
        .updateWhere (issuedTo pk) revoke <|
        moveCredential pk v (issueCredential E v (x.codes pk) (x.now 1)) fail (resetEach E x fail k pks)

def resetEntry (e : ℕ) (ev : EventRow) (actor : User) (count : ℕ) (now : Time) : Entry where
  eventType := "VOTER_CREDENTIALS_BULK_RESET"
  actor := some actor
  event := some (e, ev.organization)
  summary := toString count ++ " unused credentials reset"
  createdAt := now

/-- `reset_all_unused_credentials`. -/
def execBulkReset (E : Env) (x : Execution) : Executor := fun row approver fail k =>
  eventOf row fail fun e ev =>
    .read fun db =>
      let voters := unusedOf db e
      resetEach E x fail
        (record E (resetEntry e ev approver voters.length (x.now 2)) (fail (.crash "DatabaseError"))
          (k (.obj [("reset", .nat voters.length)]))) voters

def execDecertify (E : Env) (x : Execution) : Executor := fun row approver fail k =>
  eventOf row fail fun e ev =>
    revokeBody E { event := e, actor := some approver, reason := row.reason, now := x.now } ev fail
      (k (.obj [("decertified", .bool true)]))

def execReleaseHold : Executor := fun row _ _ k =>
  updateEvent row (fun ev => { ev with legalHold := false }) (k (.obj [("legal_hold", .bool false)]))

/-- `EXECUTORS`. -/
def executors (E : Env) (x : Execution) : Executor := fun row =>
  match row.action with
  | .UNFREEZE => execUnfreeze row
  | .EXTEND_VOTING => execExtend E x row
  | .REOPEN_VOTING => execReopen E x row
  | .BULK_CREDENTIAL_RESET => execBulkReset E x row
  | .DECERTIFY => execDecertify E x row
  | .RELEASE_LEGAL_HOLD => execReleaseHold row
  | .REFUND => Payments.refundExecutor E x.answer x.fake x.now row

/-! ### The operations -/

/-- One request of a run. -/
inductive Call
  /-- `do_transition`, or the same of the API, with any action posted. -/
  | post (t : TransitionRequest)
  | certify (q : CertifyRequest)
  | request (x : Execution) (q : ApprovalCall)
  | decide (x : Execution) (q : DecideCall)

/-- What the views give `transition`. -/
def posted (t : TransitionRequest) : TransitionRequest := { t with system := false, skipGuard := false, extraEffect := id }

def Call.program (E : Env) : Call → Program
  | .post t => transition E (posted t) fun _ => .halt
  | .certify q => Certified.withResult q.result fun r => approveAndCertify E q r fun _ => .halt
  | .request x q => requestApproval E (executors E x) q fun _ => .halt
  | .decide x q => decideApproval E (executors E x) q fun _ => .halt

def step (E : Env) (c : Call) (db : Database) : Database := (c.program E).after db

/-- The committed status. -/
def statusAt (db : Database) (e : ℕ) : Option EventStatus := (db.row (.event e)).map (·.status)

/-- The election goes along an edge of the action. -/
def Takes (a : Action) (db db' : Database) (e : ℕ) : Prop :=
  ∃ s ∈ a.spec.sources, statusAt db e = some s ∧ statusAt db' e = some a.spec.target

/-- The dual-controlled path of an action. -/
def Call.mayTake : Call → Action → Prop
  | .certify _, a => a = .certify
  | .request _ _, a => a = .decertify ∨ a = .reopen_voting
  | .decide _ _, a => a = .decertify ∨ a = .reopen_voting
  | .post _, _ => False

/-- **The actions that are not manual** are taken in their dual-controlled
paths. -/
def DualControlled (c : Call) (db db' : Database) : Prop :=
  ∀ e a, a.spec.manual = false → Takes a db db' e → c.mayTake a

/-! ### Along the edges -/

/-- Each election keeps its status, or goes along an edge of one of the actions. -/
def Along (actions : Action → Prop) (db db' : Database) : Prop :=
  ∀ e, statusAt db' e = statusAt db e ∨ ∃ a, actions a ∧ Takes a db db' e

/-- No two of the actions follow one another. -/
def Apart (actions : Action → Prop) : Prop := ∀ a b, actions a → actions b → a.spec.target ∉ b.spec.sources

section Along

variable {actions : Action → Prop} {db db' v : Database} {E : Env}

theorem Along.refl (db : Database) : Along actions db db := fun _ => .inl rfl

theorem Along.trans (hapart : Apart actions) (db db' db'' : Database) (h : Along actions db db')
    (h' : Along actions db' db'') : Along actions db db'' := fun e => by
  rcases h e with heq | ⟨a, ha, s, hs, hfrom, hto⟩
  · rcases h' e with heq' | ⟨b, hb, s, hs, hfrom, hto⟩
    · exact .inl (heq'.trans heq)
    · exact .inr ⟨b, hb, s, hs, heq ▸ hfrom, hto⟩
  · rcases h' e with heq' | ⟨b, hb, s', hs', hfrom', -⟩
    · exact .inr ⟨a, ha, s, hs, hfrom, heq'.trans hto⟩
    · rw [hto] at hfrom'
      exact absurd (Option.some.inj hfrom' ▸ hs') (hapart a b ha hb)

def isEvent : Key → Bool
  | .event _ => true
  | _ => false

/-- Rows of the other tables. -/
theorem Along.of_rows (h : ∀ e, db'.row (.event e) = db.row (.event e)) : Along actions db db' := fun e => .inl (by
  unfold statusAt
  rw [h])

theorem ignores_rest {p : Key → Bool} (hp : ∀ e, p (.event e) = false) : Ignores (Along actions) p := fun v k r hk =>
  .of_rows fun e => Db.set_row_ne _ _ fun heq => by rw [← heq, hp] at hk; cases hk

theorem Along.other {k : Key} {r : Option (Row k)} (hk : isEvent k = false) : Along actions v (v.set k r) :=
  .of_rows fun e => Db.set_row_ne _ _ fun heq => by rw [← heq] at hk; cases hk

/-- The row of an election, with its status as it was or moved along an edge. -/
theorem Along.event {e : ℕ} {ev ev' : EventRow} (hev : v.row (.event e) = some ev)
    (h : ev'.status = ev.status ∨ ∃ a, actions a ∧ ev.status ∈ a.spec.sources ∧ ev'.status = a.spec.target) :
    Along actions v (v.set (.event e) (some ev')) := fun e' => by
  by_cases he : e' = e
  · subst he
    have hbefore : statusAt v e' = some ev.status := by
      unfold statusAt
      rw [hev]
      rfl
    have hafter : statusAt (v.set (.event e') (some ev')) e' = some ev'.status := by
      unfold statusAt
      rw [Db.set_row_self]
      rfl
    rcases h with hsame | ⟨a, ha, hsource, htarget⟩
    · exact .inl (by rw [hafter, hbefore, hsame])
    · exact .inr ⟨a, ha, ev.status, hsource, hbefore, by rw [hafter, htarget]⟩
  · refine .inl ?_
    unfold statusAt
    rw [Db.set_row_ne _ _ (by simpa using he)]

/-- **A transition** goes along an edge of the action it names. -/
theorem transition_along {t : TransitionRequest} {a : Action} (hname : actionNamed t.action = some a)
    (hextra : ∀ ev, (t.extraEffect ev).status = ev.status) (db : Database) :
    Along (· = a) db ((transition E t fun _ => .halt).after db) := by
  have hapart : Apart (· = a) := by
    intro b c hb hc
    rw [hb, hc]
    cases a <;> decide
  have hok : Ok (Spec.serial (fun _ => True) (Along (· = a)) : Spec Row Note) (transition E t fun _ => .halt) db [] [] [] := by
    refine transition_ok (k := fun _ => .halt) (Spec.serial_sound _ _) (fun _ _ => trivial)
      (fun own b ev ev' db₁ db₂ _ _ hd => ⟨trivial, fun e => ?_, trivial⟩) trivial
    have hb : b = a := Option.some.inj (hd.moved.named.symm.trans hname)
    subst hb
    by_cases he : e = t.event
    · subst he
      have hstatus : ev'.status = b.spec.target := by
        rw [hd.moved.row, hextra, Action.after_status]
      refine .inr ⟨b, rfl, ev.status, hd.moved.source, ?_, ?_⟩
      · unfold statusAt
        rw [hd.event]
        rfl
      · unfold statusAt
        rw [hd.after, Option.map_some, hstatus]
    · refine .inl ?_
      unfold statusAt
      rw [hd.row rfl (by simpa using he)]
  exact (hok.exec (Spec.serial_sound _ _) Along.refl (Along.trans hapart) (fun _ _ _ _ _ h => h) _ trivial).2

end Along

/-! ### The dual-controlled paths -/

section Keeps

variable {actions : Action → Prop} {v : Database} {E : Env}

/-- A program that keeps to the edges. -/
abbrev Within (actions : Action → Prop) (v : Database) (p : Program) : Prop := p.Keeps (Along actions) v

theorem halts (v : Database) : Within actions v .halt := .halt Along.refl

variable (hapart : Apart actions)

include hapart

/-- **An action without a guard**, inside the caller's transaction. -/
theorem transitionBody_within {t : TransitionRequest} {a : Action} {fail : Failure → Program} {k : EventRow → Program}
    (hmanual : a.spec.manual = false) (ha : actions a) (hname : actionNamed t.action = some a)
    (hextra : ∀ ev, (t.extraEffect ev).status = ev.status) (hfail : ∀ x v, Within actions v (fail x))
    (hk : ∀ ev v, Within actions v (k ev)) : Within actions v (transitionBody E t fail k) := by
  unfold transitionBody
  rw [hname]
  refine .lockRow (fun _ => hfail _ v) fun locked hlocked => ?_
  dsimp only
  split
  · exact hfail _ v
  rename_i hsource
  split
  · exact hfail _ v
  have hput : ∀ ev, ev.status = a.spec.target → Within actions v (.put (.event t.event) (some (t.extraEffect ev)) <|
      record E (t.entry E a locked.status (t.extraEffect ev)) (fail (.crash "DatabaseError")) <| k (t.extraEffect ev)) :=
    fun ev hev => by
      refine .put (Along.trans hapart) (.event hlocked (.inr ⟨a, ha, not_not.mp hsource, (hextra ev).trans hev⟩)) ?_
      exact record_keeps (Along.trans hapart) (ignores_rest fun _ => rfl) (fun v' _ => hfail _ v') fun v' _ => hk _ v'
  cases a with
  | certify => split <;> exact hput _ rfl
  | decertify => split <;> exact hput _ rfl
  | reopen_voting => split <;> exact hput _ rfl
  | _ => cases hmanual

theorem recordNow_within {a : Entry} {fail k : Program} (hfail : ∀ v, Within actions v fail)
    (hk : ∀ v, Within actions v k) (v : Database) : Within actions v (recordNow E a fail k) :=
  record_keeps (Along.trans hapart) (ignores_rest fun _ => rfl) (fun _ _ => .rollback Along.refl hfail) fun v' _ =>
    .commit (Along.trans hapart) Along.refl (hk v')

/-- A row of another table updated. -/
theorem update_within {x : Key} {g : Row x → Row x} {k : Bool → Program} (hx : isEvent x = false)
    (hk : ∀ b v, Within actions v (k b)) (v : Database) : Within actions v (.update x (fun _ => true) g k) :=
  .update (Along.trans hapart) (fun _ _ _ => .other hx) (fun _ _ _ => hk _ _) (hk _ v)

/-- **`approve_and_certify`** certifies, or leaves the statuses. -/
theorem certify_within {q : CertifyRequest} (hcertify : actions .certify) (v : Database) :
    Within actions v (Certified.withResult q.result fun r => approveAndCertify E q r fun _ => .halt) := by
  have hroll : ∀ v, Within actions v (.rollback .halt) := fun _ => .rollback Along.refl halts
  refine .read ?_
  split
  · exact halts v
  rename_i r _
  refine .read ?_
  split
  · exact halts v
  dsimp only
  split
  · exact halts v
  split
  · exact halts v
  split
  · exact halts v
  split
  · exact halts v
  split
  · exact halts v
  refine .read (.read (.read ?_))
  refine update_within hapart rfl (fun b v' => ?_) v
  cases b with
  | false => exact hroll v'
  | true =>
    refine .insertOr (Along.trans hapart) (fun _ => .other rfl) (fun _ => ?_) (hroll v')
    refine transitionBody_within hapart rfl hcertify rfl (fun _ => rfl) (fun _ => hroll) fun ev v₁ => ?_
    exact record_keeps (Along.trans hapart) (ignores_rest fun _ => rfl) (fun v₂ _ => hroll v₂) fun v₂ _ =>
      .commit (Along.trans hapart) Along.refl (halts v₂)

section Executors

variable {x : Execution} {row : ApprovalRow} {approver : User} {fail : Failure → Program} {k : Json → Program}
  (hfail : ∀ e v, Within actions v (fail e)) (hk : ∀ r v, Within actions v (k r))

include hfail

omit hapart in
theorem eventOf_within {k : ℕ → EventRow → Program} (hk : ∀ e ev v, Within actions v (k e ev)) (v : Database) :
    Within actions v (eventOf row fail k) := by
  refine .read ?_
  split
  · exact hfail _ v
  split
  · exact hfail _ v
  · exact hk _ _ v

omit hfail in
theorem updateEvent_within {g : EventRow → EventRow} {k : Program} (hg : ∀ ev, (g ev).status = ev.status)
    (hk : ∀ v, Within actions v k) (v : Database) : Within actions v (updateEvent row g k) := by
  unfold updateEvent
  split
  · exact hk v
  · exact .update (Along.trans hapart) (fun ev hev _ => .event hev (.inl (hg ev))) (fun _ _ _ => hk _) (hk v)

include hk

theorem execUnfreeze_within (v : Database) : Within actions v (execUnfreeze row approver fail k) := by
  unfold execUnfreeze
  split
  · rename_i scope _
    split
    · exact hfail _ v
    · rename_i flag g hflag
      refine updateEvent_within hapart (fun ev => ?_) (hk _) v
      unfold unfrozen at hflag
      split at hflag <;> cases hflag <;> rfl
  · exact hfail _ v

theorem execExtend_within (v : Database) : Within actions v (execExtend E x row approver fail k) := by
  refine eventOf_within hfail (fun e ev v' => ?_) v
  split
  · exact hfail _ v'
  split
  · exact hfail _ v'
  split
  · exact hfail _ v'
  split
  · exact hfail _ v'
  · refine updateEvent_within hapart (fun ev => ?_) (hk _) v'
    rfl

theorem execReopen_within (hreopen : actions .reopen_voting) (v : Database) :
    Within actions v (execReopen E x row approver fail k) := by
  refine eventOf_within hfail (fun e ev v' => ?_) v
  split
  · exact hfail _ v'
  split
  · exact hfail _ v'
  split
  · exact hfail _ v'
  refine .read ?_
  split
  · exact hfail _ v'
  · exact transitionBody_within hapart rfl hreopen rfl (fun _ => rfl) hfail fun _ => hk _

omit hk in
theorem resetEach_within {next : Program} (hnext : ∀ v, Within actions v next) : ∀ (pks : List ℕ) (v : Database),
    Within actions v (resetEach E x fail next pks)
  | [], v => hnext v
  | pk :: pks, v => by
    have hrest := resetEach_within hnext pks
    refine .lockRow (fun _ => hfail _ v) fun r _ => ?_
    refine .updateWhere (Along.trans hapart) (p := fun y => !isEvent y) (ignores_rest fun _ => rfl) (fun y a ha => ?_) ?_
    · cases y <;> first | rfl | cases ha
    have hsave : ∀ v', Within actions v' (.put (.voter pk) (some (issueCredential E r (x.codes pk) (x.now 1)))
        (resetEach E x fail next pks)) := fun v' => .put (Along.trans hapart) (.other rfl) (hrest _)
    have hinsert : ∀ v', Within actions v' (.insertOr (.credential r.election (E.hashVotingCode r.election (x.codes pk))) pk
        (fail (.crash "IntegrityError")) (.put (.voter pk) (some (issueCredential E r (x.codes pk) (x.now 1)))
        (resetEach E x fail next pks))) := fun v' =>
      .insertOr (Along.trans hapart) (fun _ => .other rfl) (fun _ => hsave _) (hfail _ v')
    intro v'
    unfold moveCredential
    dsimp only
    split
    · exact hinsert v'
    · exact .put (Along.trans hapart) (.other rfl) (hinsert _)

theorem execBulkReset_within (v : Database) : Within actions v (execBulkReset E x row approver fail k) := by
  refine eventOf_within hfail (fun e ev v' => .read ?_) v
  refine resetEach_within hapart hfail (fun v₁ => ?_) _ v'
  exact record_keeps (Along.trans hapart) (ignores_rest fun _ => rfl) (fun v₂ _ => hfail _ v₂) fun v₂ _ => hk _ v₂

theorem execDecertify_within (hdecertify : actions .decertify) (v : Database) :
    Within actions v (execDecertify E x row approver fail k) := by
  refine eventOf_within hfail (fun e ev v' => .read ?_) v
  split
  · exact hfail _ v'
  refine update_within hapart rfl (fun _ v₁ => update_within hapart rfl (fun _ v₂ => ?_) v₁) v'
  refine transitionBody_within hapart rfl hdecertify rfl (fun _ => rfl) hfail fun _ v₃ => ?_
  exact record_keeps (Along.trans hapart) (ignores_rest fun _ => rfl) (fun v₄ _ => hfail _ v₄) fun v₄ _ => hk _ v₄

omit hfail in
theorem execReleaseHold_within (v : Database) : Within actions v (execReleaseHold row approver fail k) := by
  refine updateEvent_within hapart (fun ev => ?_) (hk _) v
  rfl

theorem execRefund_within (v : Database) :
    Within actions v (Payments.refundExecutor E x.answer x.fake x.now row approver fail k) := by
  have hrefund : (Payments.refundExecutor E x.answer x.fake x.now row approver fail k).Apart isOfRefund isOther
      fun q => (∃ e, q = fail e) ∨ ∃ r, q = k r :=
    refundExecutor_apart x.answer x.fake x.now (fun e => .out (Or.inl ⟨e, rfl⟩)) fun r => .out (Or.inr ⟨r, rfl⟩)
  refine hrefund.keepsAll Along.refl (Along.trans hapart) (ignores_rest fun _ => rfl) (fun q hq v => ?_) v
  rcases hq with ⟨e, rfl⟩ | ⟨r, rfl⟩
  · exact hfail e v
  · exact hk r v

end Executors

end Keeps

/-! ### Every call -/

section Calls

variable {v : Database} {E : Env}

/-- What the execution of an approval may do. -/
def dual (a : Action) : Prop := a = .decertify ∨ a = .reopen_voting

theorem dual_apart : Apart dual := by
  rintro a b (rfl | rfl) (rfl | rfl) <;> decide

theorem executors_within {x : Execution} {row : ApprovalRow} {approver : User} {fail : Failure → Program}
    {k : Json → Program} (hfail : ∀ e v, Within dual v (fail e)) (hk : ∀ r v, Within dual v (k r)) (v : Database) :
    Within dual v (executors E x row approver fail k) := by
  unfold executors
  cases row.action with
  | UNFREEZE => exact execUnfreeze_within dual_apart hfail hk v
  | EXTEND_VOTING => exact execExtend_within dual_apart hfail hk v
  | REOPEN_VOTING => exact execReopen_within dual_apart hfail hk (.inr rfl) v
  | BULK_CREDENTIAL_RESET => exact execBulkReset_within dual_apart hfail hk v
  | DECERTIFY => exact execDecertify_within dual_apart hfail hk (.inl rfl) v
  | RELEASE_LEGAL_HOLD => exact execReleaseHold_within dual_apart hk v
  | REFUND => exact execRefund_within dual_apart hfail hk v

/-- **The execution of a request.** -/
theorem execute_within {x : Execution} {pk : ℕ} {row : ApprovalRow} {approver : User} {request : Option Request}
    {now : Time} (v : Database) :
    Within dual v (execute E (executors E x) pk row approver request now fun _ => .halt) := by
  have htrans := Along.trans dual_apart
  have hfinish : ∀ (row : ApprovalRow) (a : Entry) v, Within dual v (.update (.approval pk) (fun _ => true) (fun _ => row)
      fun _ => .commit <| .note (.decision pk .executed) <| recordNow E a .halt .halt) := fun row a v =>
    update_within dual_apart rfl (fun _ _ => .commit htrans Along.refl (.note (recordNow_within dual_apart halts halts _))) v
  exact .note (executors_within (fun e _ => .rollback Along.refl (hfinish _ _)) (fun r _ =>
    .commit htrans Along.refl (hfinish _ _ _)) v)

theorem requestApproval_within {x : Execution} {q : ApprovalCall} (v : Database) :
    Within dual v (requestApproval E (executors E x) q fun _ => .halt) := by
  have htrans := Along.trans dual_apart
  unfold requestApproval
  split
  · exact halts v
  split
  · exact halts v
  dsimp only
  refine .insertOr htrans (fun _ => .other rfl) (fun _ => ?_) (.rollback Along.refl halts)
  refine .commit htrans Along.refl (recordNow_within dual_apart halts (fun v' => ?_) _)
  split
  · exact halts v'
  · exact update_within dual_apart rfl (fun _ _ => .commit htrans Along.refl (execute_within _)) v'

theorem decideApproval_within {x : Execution} {q : DecideCall} (v : Database) :
    Within dual v (decideApproval E (executors E x) q fun _ => .halt) := by
  have htrans := Along.trans dual_apart
  refine .read ?_
  split
  · exact halts v
  unfold decideRead
  split
  · exact halts v
  split
  · exact .note (update_within dual_apart rfl (fun _ _ => .commit htrans Along.refl (.note (halts _))) v)
  split
  · exact halts v
  split
  · exact halts v
  refine .note (update_within dual_apart rfl (fun _ v₁ => .commit htrans Along.refl (.note ?_)) v)
  refine recordNow_within dual_apart halts (fun v₂ => ?_) v₁
  split
  · exact execute_within v₂
  · exact halts v₂

/-- A posted transition of an action that is not manual, which nothing stops. -/
structure GoesThrough (t : TransitionRequest) (db : Database) (a : Action) (ev : EventRow) : Prop where
  named : actionNamed t.action = some a
  notManual : a.spec.manual = false
  event : db.row (.event t.event) = some ev
  source : ev.status ∈ a.spec.sources
  allowed : permitted t.actor a.spec.perm t.event = true
  recorded : db.row (.auditEvent (chainFor ev.organization) ((headOf db (chainFor ev.organization)).seq + 1)) = none

/-- No posted transition of an action that is not manual goes through. -/
def Unforced : Call → Database → Prop
  | .post t, db => ∀ a ev, ¬ GoesThrough t db a ev
  | _, _ => True

/-- A posted action without a guard, up to what is recorded. -/
theorem step_post {t : TransitionRequest} {db : Database} {a : Action} {ev : EventRow} (hname : actionNamed t.action = some a)
    (hmanual : a.spec.manual = false) (hev : db.row (.event t.event) = some ev) (hsource : ev.status ∈ a.spec.sources)
    (hallowed : permitted t.actor a.spec.perm t.event = true) : ∃ ev' : EventRow, ev'.organization = ev.organization ∧
      ev'.status = a.spec.target ∧ step E (.post t) db = ((Prog.put (.event t.event) (some ev') <|
        record E ((posted t).entry E a ev.status ev') (.rollback .halt) <| .commit .halt : Program).exec db [] []).db := by
  have hperm : (!(posted t).system && !permitted (posted t).actor a.spec.perm (posted t).event) = false := by
    have hposted : permitted (posted t).actor a.spec.perm (posted t).event = true := hallowed
    rw [hposted]
    rfl
  have hstart : (db.apply []).row (.event (posted t).event) = some ev := hev
  have hposted : actionNamed (posted t).action = some a := hname
  unfold step Call.program Prog.after transition transitionBody
  dsimp only
  rw [hposted]
  dsimp only
  rw [Prog.exec_lockRow hstart]
  dsimp only
  rw [if_neg (not_not.mpr hsource), hperm, if_neg Bool.false_ne_true]
  cases a with
  | certify => refine ⟨_, ?_, ?_, rfl⟩ <;> rfl
  | decertify => refine ⟨_, ?_, ?_, rfl⟩ <;> rfl
  | reopen_voting => refine ⟨_, ?_, ?_, rfl⟩ <;> rfl
  | _ => cases hmanual

/-- The head of a chain does not depend on the row of an election. -/
theorem head_after_put {db : Database} {e : ℕ} {ev' : EventRow} {chain : String} (seq : ℕ) :
    (db.apply [⟨.event e, some ev'⟩]).row (.auditEvent chain seq) = db.row (.auditEvent chain seq) ∧
      headOf (db.apply [⟨.event e, some ev'⟩]) chain = headOf db chain := by
  unfold headOf
  rw [Db.apply_cons, Db.apply_nil, Db.set_row_ne _ _ (by simp), Db.set_row_ne _ _ (by simp)]
  exact ⟨rfl, rfl⟩

/-- **What goes through moves the election.** -/
theorem goesThrough_moves {t : TransitionRequest} {db : Database} {a : Action} {ev : EventRow} (h : GoesThrough t db a ev) :
    Takes a db (step E (.post t) db) t.event := by
  obtain ⟨ev', horganization, hstatus, hstep⟩ := step_post (E := E) h.named h.notManual h.event h.source h.allowed
  have hchain : ((posted t).entry E a ev.status ev').organizationId = ev.organization := horganization
  have hfree := h.recorded
  rw [← hchain, ← (head_after_put 0).2, ← (head_after_put _).1] at hfree
  obtain ⟨u, hu, hexec⟩ : ∃ u, Db.Only isAudit u ∧ (record E ((posted t).entry E a ev.status ev') (.rollback .halt)
      (.commit .halt) : Program).exec db [⟨.event t.event, some ev'⟩] [] =
        (.commit .halt : Program).exec db (u ++ [⟨.event t.event, some ev'⟩]) [] := record_exec hfree
  refine ⟨ev.status, h.source, ?_, ?_⟩
  · unfold statusAt
    rw [h.event]
    rfl
  · rw [hstep, Prog.exec_put, hexec, Prog.exec_commit, Db.apply_append]
    show ((((db.apply [⟨.event t.event, some ev'⟩]).apply u).row (.event t.event)).map _) = _
    rw [hu.apply_row _ rfl, Db.apply_cons, Db.set_row_self, Option.map_some, hstatus]

/-- **What does not go through** leaves the database. -/
theorem stays_of_stopped {t : TransitionRequest} {db : Database} {a : Action} (hname : actionNamed t.action = some a)
    (hmanual : a.spec.manual = false) (h : ∀ ev, ¬ GoesThrough t db a ev) : step E (.post t) db = db := by
  cases hev : db.row (.event t.event) with
  | none =>
    have hstart : (db.apply []).row (.event (posted t).event) = none := hev
    have hposted : actionNamed (posted t).action = some a := hname
    unfold step Call.program Prog.after transition transitionBody
    dsimp only
    rw [hposted]
    dsimp only
    rw [Prog.exec_lockRow_none hstart]
    rfl
  | some ev =>
    have hstart : (db.apply []).row (.event (posted t).event) = some ev := hev
    have hposted : actionNamed (posted t).action = some a := hname
    by_cases hsource : ev.status ∈ a.spec.sources
    · by_cases hallowed : permitted t.actor a.spec.perm t.event = true
      · obtain ⟨ev', horganization, -, hstep⟩ := step_post (E := E) hname hmanual hev hsource hallowed
        have hchain : ((posted t).entry E a ev.status ev').organizationId = ev.organization := horganization
        have htaken := fun hfree => h ev ⟨hname, hmanual, hev, hsource, hallowed, hfree⟩
        rw [← hchain, ← (head_after_put 0).2, ← (head_after_put _).1] at htaken
        obtain ⟨u, hexec⟩ : ∃ u, (record E ((posted t).entry E a ev.status ev') (.rollback .halt)
            (.commit .halt) : Program).exec db [⟨.event t.event, some ev'⟩] [] =
              (.rollback .halt : Program).exec db u [] := record_taken htaken
        rw [hstep, Prog.exec_put, hexec]
        rfl
      · have hperm : permitted (posted t).actor a.spec.perm (posted t).event = false :=
          Bool.eq_false_iff.mpr hallowed
        unfold step Call.program Prog.after transition transitionBody
        dsimp only
        rw [hposted]
        dsimp only
        rw [Prog.exec_lockRow hstart]
        dsimp only
        rw [if_neg (not_not.mpr hsource), hperm]
        rfl
    · unfold step Call.program Prog.after transition transitionBody
      dsimp only
      rw [hposted]
      dsimp only
      rw [Prog.exec_lockRow hstart]
      dsimp only
      rw [if_pos hsource]
      rfl

/-- Of two actions on one edge, of which one is not manual, the other is the same. -/
theorem edge_unique {a b : Action} (hmanual : a.spec.manual = false) {s : EventStatus} (ha : s ∈ a.spec.sources)
    (hb : s ∈ b.spec.sources) (htarget : a.spec.target = b.spec.target) : a = b := by
  cases a <;> cases hmanual <;> cases b <;> cases htarget <;> first
    | rfl
    | cases s <;> simp_all [Action.spec]

theorem target_not_source {a : Action} (hmanual : a.spec.manual = false) : a.spec.target ∉ a.spec.sources := by
  cases a <;> cases hmanual <;> decide

/-- **A transition that moves the election** along such an edge went through. -/
theorem goesThrough_of_takes {t : TransitionRequest} {db : Database} {a : Action} {e : ℕ} (hmanual : a.spec.manual = false)
    (h : Takes a db (step E (.post t) db) e) : ∃ ev, GoesThrough t db a ev := by
  obtain ⟨s, hs, hbefore, hafter⟩ := h
  have hmoved : statusAt (step E (.post t) db) e ≠ statusAt db e := by
    rw [hbefore, hafter]
    rintro heq
    rw [← Option.some.inj heq] at hs
    exact target_not_source hmanual hs
  cases hname : actionNamed t.action with
  | none =>
    refine absurd ?_ hmoved
    have hposted : actionNamed (posted t).action = none := hname
    unfold step Call.program Prog.after transition transitionBody
    dsimp only
    rw [hposted]
    rfl
  | some b =>
    obtain heq | ⟨b', rfl, s', hs', hbefore', hafter'⟩ := transition_along (E := E) (t := posted t) hname (fun _ => rfl) db e
    · exact absurd heq hmoved
    have hsame : s' = s := Option.some.inj (hbefore'.symm.trans hbefore)
    have htarget : a.spec.target = b'.spec.target := Option.some.inj (hafter.symm.trans hafter')
    obtain rfl := edge_unique hmanual hs (hsame ▸ hs') htarget
    by_contra hnone
    push Not at hnone
    exact hmoved (by rw [stays_of_stopped hname hmanual hnone])

/-- Where the statuses keep to some edges, an action that is not manual is one of theirs. -/
theorem Along.takes {actions : Action → Prop} {db db' : Database} (h : Along actions db db') {a : Action} {e : ℕ}
    (hmanual : a.spec.manual = false) (ha : Takes a db db' e) : actions a := by
  obtain ⟨s, hs, hbefore, hafter⟩ := ha
  rcases h e with heq | ⟨b, hb, s', hs', hbefore', hafter'⟩
  · rw [hbefore, hafter] at heq
    rw [← Option.some.inj heq] at hs
    exact absurd hs (target_not_source hmanual)
  · have hsame : s' = s := Option.some.inj (hbefore'.symm.trans hbefore)
    have htarget : a.spec.target = b.spec.target := Option.some.inj (hafter.symm.trans hafter')
    rwa [edge_unique hmanual hs (hsame ▸ hs') htarget]

/-- **One call** takes the actions in their paths exactly if it is not a posted
one that goes through. -/
theorem controlled_iff (E : Env) (c : Call) (db : Database) : DualControlled c db (step E c db) ↔ Unforced c db := by
  cases c with
  | post t =>
    constructor
    · intro h a ev hthrough
      exact h t.event a hthrough.notManual (goesThrough_moves hthrough)
    · intro h e a hmanual htakes
      obtain ⟨ev, hthrough⟩ := goesThrough_of_takes hmanual htakes
      exact h a ev hthrough
  | certify q =>
    have hapart : Apart (· = Action.certify) := by
      rintro a b rfl rfl
      decide
    have halong : Along (· = Action.certify) db (step E (.certify q) db) := (certify_within hapart rfl db).after Along.refl
    exact iff_of_true (fun e a hmanual htakes => halong.takes hmanual htakes) trivial
  | request x q =>
    have halong : Along dual db (step E (.request x q) db) := (requestApproval_within db).after Along.refl
    exact iff_of_true (fun e a hmanual htakes => halong.takes hmanual htakes) trivial
  | decide x q =>
    have halong : Along dual db (step E (.decide x q) db) := (decideApproval_within db).after Along.refl
    exact iff_of_true (fun e a hmanual htakes => halong.takes hmanual htakes) trivial

/-- **The actions that are not manual are dual-controlled** in exactly the runs in
which no posted one goes through. -/
theorem dual_controlled (E : Env) (calls : List Call) (db : Database) :
    Steps.Always (step E) (fun c v => DualControlled c v (step E c v)) calls db ↔ Steps.Always (step E) Unforced calls db :=
  ⟨Steps.Always.imp (I := fun _ => True) (fun _ _ _ _ => trivial) (fun c v _ => (controlled_iff E c v).mp) trivial,
    Steps.Always.imp (I := fun _ => True) (fun _ _ _ _ => trivial) (fun c v _ => (controlled_iff E c v).mpr) trivial⟩

end Calls

/-- An election whose count is not certified. -/
def uncertified : Database :=
  Db.empty.set (.event 1) (some { startDate := 0, endDate := 10, votingMode := .CODE_VOTING, status := .TALLYING })

/-- The transition that is posted, by one who may certify. -/
def certifyPosted : TransitionRequest where
  event := 1
  action := "certify"
  actor := some { pk := 5, username := "officer", hasPerm := fun _ _ => true }
  now := fun _ => 20

/-- Nothing was counted or approved, and the election is certified. -/
theorem not_dual_controlled : ¬ ∀ (E : Env) (calls : List Call) (db : Database),
    Steps.Always (step E) (fun c v => DualControlled c v (step E c v)) calls db := by
  intro h
  have hfirst : DualControlled (.post certifyPosted) uncertified (step .plain (.post certifyPosted) uncertified) :=
    (h .plain [.post certifyPosted] uncertified).1
  have htakes : Takes .certify uncertified (step .plain (.post certifyPosted) uncertified) 1 :=
    ⟨.TALLYING, by decide, by decide +kernel, by decide +kernel⟩
  exact hfirst 1 .certify rfl htakes

end Manual
end FlexyVotes
