/-
# The election state machine

    DRAFT -> REVIEW -> APPROVED -> SCHEDULED -> OPEN <-> PAUSED -> CLOSED
          -> TALLYING -> CERTIFIED -> PUBLISHED -> ARCHIVED

`Action.spec` is the table of actions; `transitionBody` applies one under the
row lock of the election, inside the transaction of its caller, and
`transition` is that transaction alone.

`Moved` says once what a transition leaves: the election's row, moved along
an edge of the table, and rows of the audit log, of the ballot key and of the
configuration snapshots; `transitionBody_ok` that nothing else comes of it.
-/
import FlexyVotes.Elections.Configuration

namespace FlexyVotes
namespace Lifecycle

open Transactions Audit Configuration

/-- The actions of the state machine. -/
inductive Action
  | submit | withdraw | approve | reject | schedule | unschedule | «open» | pause | resume | close
  | start_tally | certify | publish | archive | decertify | reopen_voting
  deriving DecidableEq, Repr

/-- One call of `transition`. -/
structure TransitionRequest where
  event : ℕ
  action : String
  actor : Option User := none
  request : Option Request := none
  reason : String := ""
  system : Bool := false
  skipGuard : Bool := false
  /-- `extra_effect`. -/
  extraEffect : EventRow → EventRow := id
  key : KeyMaterial := {}
  now : ℕ → Time

/-- What a guard may do: fail the transition, or let it go on. -/
abbrev Guard := Env → TransitionRequest → EventRow → (Failure → Program) → Program → Program

/-- What an effect may do: fail the transition, or go on with the row changed. -/
abbrev Effect := Env → TransitionRequest → EventRow → (Failure → Program) → (EventRow → Program) → Program

/-! ### Guards -/

def noGuard : Guard := fun _ _ _ _ k => k

/-- A guard that only looks at the row. -/
def check (p : TransitionRequest → EventRow → Prop) [∀ t ev, Decidable (p t ev)] (message : String) : Guard :=
  fun _ t ev fail k => if p t ev then fail (.lifecycle message) else k

def guardSubmit : Guard := fun _ t ev fail k =>
  .read fun db =>
    let problems := configurationProblems db t.event ev
    if problems ≠ [] then
      fail (.lifecycle ("Fix these before submitting: " ++ "; ".intercalate problems))
    else k

def guardApprove : Guard :=
  check (fun t ev => ev.dualApprovalRequired = true ∧ t.actor.isSome = true ∧ ev.submittedBy = t.actor.map (·.pk))
    "Separation of duties: the person who submitted the election cannot approve it."

def guardSchedule : Guard := fun E t ev fail k =>
  .read fun db =>
    let problems := configurationProblems db t.event ev
    if problems ≠ [] then fail (.lifecycle ("; ".intercalate problems))
    else check (fun t ev => ev.endDate ≤ t.now 0) "The voting end date is in the past." E t ev fail k

def guardOpen : Guard := fun E t ev fail k =>
  check (fun t ev => ev.endDate ≤ t.now 0) "The voting end date has already passed." E t ev fail <|
    if ev.isInstitutional then
      .read fun db =>
        if (db.row (.ballotKey t.event)).isSome then k
        else ensureElectionKey E t.event ev t.actor t.key (t.now 1) fail k
    else k

def guardResume : Guard :=
  check (fun t ev => ev.endDate ≤ t.now 0) "Voting period has ended; it cannot be resumed."

def openDispute (e : ℕ) : (k : Key) → Row k → Bool
  | .dispute _ => fun d => d.election = e && (d.status = .OPEN || d.status = .UNDER_REVIEW)
  | _ => fun _ => false

def guardArchive : Guard := fun _ t ev fail k =>
  if ev.legalHold then
    fail (.lifecycle "This election is under legal hold and cannot be archived.")
  else
    .read fun db =>
      if db.count (openDispute t.event) ≠ 0 then
        fail (.lifecycle "Resolve open disputes before archiving.")
      else k

/-! ### Effects -/

/-- An effect that only changes the row. -/
def change (f : TransitionRequest → EventRow → EventRow) : Effect := fun _ t ev _ k => k (f t ev)

def noEffect : Effect := change fun _ ev => ev

def effectSubmit : Effect := change fun t ev => { ev with submittedBy := t.actor.map (·.pk) }

def effectWithdraw : Effect := change fun _ ev => { ev with submittedBy := none }

def effectApprove : Effect := fun E t ev fail k =>
  let ev' := { ev with reviewedBy := t.actor.map (·.pk) }
  snapshotConfiguration E t.event ev' t.actor "APPROVED" (t.now 2) fail (k ev')

def effectSchedule : Effect := fun E t ev fail k =>
  if ev.isInstitutional then ensureElectionKey E t.event ev t.actor t.key (t.now 2) fail (k ev)
  else k ev

/-- The row of an election that opens at `now`; an institutional one is frozen. -/
def opened (now : Time) (ev : EventRow) : EventRow :=
  { ev with
    startDate := if now < ev.startDate then now else ev.startDate
    openedAt := ev.openedAt.or (some now)
    configFrozen := ev.isInstitutional || ev.configFrozen
    ballotFrozen := ev.isInstitutional || ev.ballotFrozen
    candidatesFrozen := ev.isInstitutional || ev.candidatesFrozen
    voterListFrozen := (ev.isInstitutional && !ev.allowSelfRegistration) || ev.voterListFrozen }

def effectOpen : Effect := change fun t ev => opened (t.now 2) ev

/-- The row of an election that closes at `now`. -/
def closed (now : Time) (ev : EventRow) : EventRow :=
  { ev with closedAt := some now, endDate := if now < ev.endDate then now else ev.endDate,
            configFrozen := true, ballotFrozen := true, candidatesFrozen := true, voterListFrozen := true }

def effectClose : Effect := change fun t ev => closed (t.now 2) ev

def effectArchive : Effect := change fun t ev => { ev with archivedAt := some (t.now 2), isActive := false }

def effectPublish : Effect := change fun t ev => { ev with publishedAt := some (t.now 2) }

/-! ### The table -/

/-- A row of `ACTIONS`. -/
structure ActionSpec where
  name : String
  sources : List EventStatus
  target : EventStatus
  perm : String
  label : String
  /-- The label in lower case, as an error shows it. -/
  lowerLabel : String
  guard : Guard := noGuard
  effect : Effect := noEffect
  manual : Bool := true

/-- `ACTIONS`. -/
def Action.spec : Action → ActionSpec
  | .submit => { name := "submit", sources := [.DRAFT], target := .REVIEW, perm := "election.submit",
                 label := "Submit for review", lowerLabel := "submit for review",
                 guard := guardSubmit, effect := effectSubmit }
  | .withdraw => { name := "withdraw", sources := [.REVIEW], target := .DRAFT, perm := "election.submit",
                   label := "Withdraw from review", lowerLabel := "withdraw from review",
                   effect := effectWithdraw }
  | .approve => { name := "approve", sources := [.REVIEW], target := .APPROVED, perm := "election.review",
                  label := "Approve configuration", lowerLabel := "approve configuration",
                  guard := guardApprove, effect := effectApprove }
  | .reject => { name := "reject", sources := [.REVIEW], target := .DRAFT, perm := "election.review",
                 label := "Return to draft", lowerLabel := "return to draft" }
  | .schedule => { name := "schedule", sources := [.APPROVED], target := .SCHEDULED,
                   perm := "election.publish", label := "Publish & schedule",
                   lowerLabel := "publish & schedule", guard := guardSchedule, effect := effectSchedule }
  | .unschedule => { name := "unschedule", sources := [.SCHEDULED], target := .APPROVED,
                     perm := "election.publish", label := "Unschedule", lowerLabel := "unschedule" }
  | .open => { name := "open", sources := [.SCHEDULED], target := .OPEN, perm := "election.publish",
               label := "Open voting now", lowerLabel := "open voting now",
               guard := guardOpen, effect := effectOpen }
  | .pause => { name := "pause", sources := [.OPEN], target := .PAUSED, perm := "election.pause",
                label := "Pause voting", lowerLabel := "pause voting" }
  | .resume => { name := "resume", sources := [.PAUSED], target := .OPEN, perm := "election.pause",
                 label := "Resume voting", lowerLabel := "resume voting", guard := guardResume }
  | .close => { name := "close", sources := [.OPEN, .PAUSED], target := .CLOSED, perm := "election.close",
                label := "Close voting", lowerLabel := "close voting", effect := effectClose }
  | .start_tally => { name := "start_tally", sources := [.CLOSED], target := .TALLYING,
                      perm := "results.tally", label := "Start tally", lowerLabel := "start tally" }
  | .certify => { name := "certify", sources := [.TALLYING], target := .CERTIFIED,
                  perm := "results.certify", label := "Certify", lowerLabel := "certify", manual := false }
  | .publish => { name := "publish", sources := [.CERTIFIED], target := .PUBLISHED,
                  perm := "results.publish", label := "Publish results", lowerLabel := "publish results",
                  effect := effectPublish }
  | .archive => { name := "archive", sources := [.PUBLISHED, .CLOSED, .DRAFT], target := .ARCHIVED,
                  perm := "election.archive", label := "Archive", lowerLabel := "archive",
                  guard := guardArchive, effect := effectArchive }
  | .decertify => { name := "decertify", sources := [.CERTIFIED, .PUBLISHED], target := .TALLYING,
                    perm := "results.certify", label := "Decertify", lowerLabel := "decertify",
                    manual := false }
  | .reopen_voting => { name := "reopen_voting", sources := [.CLOSED], target := .OPEN,
                        perm := "election.close", label := "Re-open voting",
                        lowerLabel := "re-open voting", effect := effectOpen, manual := false }

def Action.all : List Action :=
  [.submit, .withdraw, .approve, .reject, .schedule, .unschedule, .open, .pause, .resume, .close,
   .start_tally, .certify, .publish, .archive, .decertify, .reopen_voting]

/-- `ACTIONS.get`. -/
def actionNamed (name : String) : Option Action := Action.all.find? fun a => a.spec.name = name

/-- `check_perm`: there is an actor, and the actor has the permission. -/
def permitted (actor : Option User) (perm : String) (event : ℕ) : Bool :=
  actor.any fun u => u.hasPerm perm event

/-! ### Transitions -/

/-- `f'ELECTION_{action_name.upper()}'`. -/
def Action.eventType (E : Env) (a : Action) : String := "ELECTION_" ++ E.upper a.spec.name

def TransitionRequest.entry (E : Env) (t : TransitionRequest) (a : Action) (previous : EventStatus)
    (ev : EventRow) : Entry where
  eventType := a.eventType E
  request := t.request
  actor := t.actor
  event := some (t.event, ev.organization)
  summary := a.spec.label ++ ": " ++ previous.value ++ " -> " ++ ev.status.value
  changes := .obj [("status", .obj [("old", .str previous.value), ("new", .str ev.status.value)])]
  reason := t.reason
  metadata := .obj [("system", .bool t.system)]
  createdAt := t.now 3

/-- `transition`, inside the caller's transaction. -/
def transitionBody (E : Env) (t : TransitionRequest) (fail : Failure → Program) (k : EventRow → Program) :
    Program :=
  match actionNamed t.action with
  | none => fail (.lifecycle ("Unknown action " ++ t.action ++ "."))
  | some a =>
    .lockRow (.event t.event) fun
      | none => fail (.crash "Event.DoesNotExist")
      | some locked =>
        if locked.status ∉ a.spec.sources then
          fail (.lifecycle ("Cannot " ++ a.spec.lowerLabel ++ " while the election is " ++
            locked.status.lowerDisplay ++ "."))
        else if !t.system && !permitted t.actor a.spec.perm t.event then fail .permission
        else
          (if t.skipGuard then noGuard else a.spec.guard) E t locked fail <|
            a.spec.effect E t { locked with status := a.spec.target } fail fun ev =>
              .put (.event t.event) (some (t.extraEffect ev)) <|
              record E (t.entry E a locked.status (t.extraEffect ev)) (fail (.crash "DatabaseError")) <|
              k (t.extraEffect ev)

/-- `transition`. -/
def transition (E : Env) (t : TransitionRequest) (k : Except Failure EventRow → Program) : Program :=
  transitionBody E t (fun failure => .rollback (k (.error failure))) fun ev => .commit (k (.ok ev))

/-! ### Editing -/

/-- What an edit is of. -/
inductive Scope
  | config | ballot | candidates | voters | candidate_profile
  deriving DecidableEq

/-- `scope.replace("_", " ")`. -/
def Scope.label : Scope → String
  | .config => "config"
  | .ballot => "ballot"
  | .candidates => "candidates"
  | .voters => "voters"
  | .candidate_profile => "candidate profile"

def frozenFlag (ev : EventRow) : Scope → Bool
  | .config => ev.configFrozen
  | .ballot => ev.ballotFrozen
  | .candidates | .candidate_profile => ev.candidatesFrozen
  | .voters => ev.voterListFrozen

def LOCKED_STATES : List EventStatus := [.CLOSED, .TALLYING, .CERTIFIED, .PUBLISHED, .ARCHIVED]

/-- `edit_policy`: whether the scope may be changed now, whether that resets an
approval, and why not. -/
def editPolicy (ev : EventRow) (scope : Scope) : Bool × Bool × String :=
  if ev.status ∈ LOCKED_STATES then
    (false, false, "The election is " ++ ev.status.lowerDisplay ++ "; it can no longer be changed.")
  else if ev.status = .REVIEW then
    (false, false, "The election is in review. Withdraw it (or have it returned) before editing.")
  else if frozenFlag ev scope then
    (false, false, "The " ++ scope.label ++
      " is frozen. Request an unfreeze (dual approval) to change it.")
  else if ev.status = .DRAFT then (true, false, "")
  else if ev.status = .APPROVED ∨ ev.status = .SCHEDULED then
    if scope = .voters ∨ scope = .candidate_profile then (true, false, "")
    else (true, true, "Changing an approved election returns it to draft for re-approval.")
  -- it is open or paused
  else if scope = .voters ∨ scope = .candidate_profile then (true, false, "")
  else if ev.votingMode = .PAY_TO_VOTE ∧ (scope = .candidates ∨ scope = .ballot) then (true, false, "")
  else (false, false, "Voting is in progress: the configuration cannot change.")

/-- `require_editable(event, 'voters')`: why the roll cannot be edited. -/
def rollLocked (ev : EventRow) : Option Failure :=
  match editPolicy ev .voters with
  | (true, _, _) => none
  | (false, _, reason) => some (.lifecycle reason)

/-- An edit of the roll never resets an approval, so `require_editable` only
looks at the election. -/
theorem editPolicy_voters (ev : EventRow) : (editPolicy ev .voters).2.1 = false := by
  unfold editPolicy
  split_ifs <;> simp_all

/-! ### What a transition commits -/

/-- The row an effect leaves of the row it is given. -/
def Action.after (a : Action) (t : TransitionRequest) (ev : EventRow) : EventRow :=
  match a with
  | .submit => { ev with submittedBy := t.actor.map (·.pk) }
  | .withdraw => { ev with submittedBy := none }
  | .approve => { ev with reviewedBy := t.actor.map (·.pk) }
  | .open | .reopen_voting => opened (t.now 2) ev
  | .close => closed (t.now 2) ev
  | .publish => { ev with publishedAt := some (t.now 2) }
  | .archive => { ev with archivedAt := some (t.now 2), isActive := false }
  | _ => ev

/-- No effect touches the status. -/
theorem Action.after_status (a : Action) (t : TransitionRequest) (ev : EventRow) :
    (a.after t ev).status = ev.status := by
  cases a <;> rfl

/-- **A move of the election's row along an edge of the table**: the action is
the one the request names, the row was in one of its sources, and the actor
has its permission unless the platform itself asks. -/
structure Moved (t : TransitionRequest) (a : Action) (ev ev' : EventRow) : Prop where
  named : actionNamed t.action = some a
  source : ev.status ∈ a.spec.sources
  allowed : t.system = true ∨ permitted t.actor a.spec.perm t.event = true
  row : ev' = t.extraEffect (a.after t { ev with status := a.spec.target })

/-- The names of the actions are distinct. -/
theorem actionNamed_name (a : Action) : actionNamed a.spec.name = some a := by
  cases a <;> decide

theorem Moved.action {t : TransitionRequest} {a b : Action} {ev ev' : EventRow} (h : Moved t a ev ev')
    (ht : t.action = b.spec.name) : a = b := by
  have hn := h.named
  rw [ht, actionNamed_name] at hn
  exact (Option.some.inj hn).symm

/-- What the commit of a transition does. -/
structure TransitionDone (t : TransitionRequest) (a : Action) (ev ev' : EventRow) (db db' : Database) :
    Prop where
  event : db.row (.event t.event) = some ev
  moved : Moved t a ev ev'
  writes : ∃ w w', AuditOnly w ∧ Db.Only isSetup w' ∧
    db' = db.apply (w ++ ⟨.event t.event, some ev'⟩ :: w')

/-- The election's row after a transition. -/
theorem TransitionDone.after {t : TransitionRequest} {a : Action} {ev ev' : EventRow} {db db' : Database}
    (hd : TransitionDone t a ev ev' db db') : db'.row (.event t.event) = some ev' := by
  obtain ⟨w, w', hw, -, rfl⟩ := hd.writes
  rw [Db.apply_append, hw.apply_row _ rfl, Db.apply_cons, Db.set_row_self]

/-- A transition leaves all other rows but those of the set-up. -/
theorem TransitionDone.row {t : TransitionRequest} {a : Action} {ev ev' : EventRow} {db db' : Database}
    (hd : TransitionDone t a ev ev' db db') {k : Key} (hk : isSetup k = false) (hne : k ≠ .event t.event) :
    db'.row k = db.row k := by
  obtain ⟨w, w', hw, hw', rfl⟩ := hd.writes
  have haudit : isAudit k = false := by
    cases hka : isAudit k
    · rfl
    · rw [isSetup_of_isAudit k hka] at hk
      cases hk
  rw [Db.apply_append, hw.apply_row _ haudit, Db.apply_cons, Db.set_row_ne _ _ hne, hw'.apply_row _ hk]

section Ok

variable {S : Spec Row Note} (hS : S.Sound) {E : Env} {t : TransitionRequest}
  {fail : Failure → Program} {log : List Note} {db : Database} {own : List Key} {w : Writes Row}

theorem check_goesOn {p : TransitionRequest → EventRow → Prop} [∀ t ev, Decidable (p t ev)]
    {message : String} {ev : EventRow} {k : Program} (hf : FailsFrom S fail db own log)
    (hk : GoesOn S isSetup k db own w log) :
    GoesOn S isSetup (check p message E t ev fail k) db own w log := by
  unfold check
  split
  · exact fun _ _ _ hst hsub _ => hf _ _ _ _ hst hsub
  · exact hk

include hS in
/-- A read, then the rest or a failure. -/
theorem readElse_goesOn {c : Database → Prop} [∀ db, Decidable (c db)] {failure : Database → Failure}
    {k : Program} (hf : FailsFrom S fail db own log) (hk : GoesOn S isSetup k db own w log) :
    GoesOn S isSetup (.read fun db => if c db then fail (failure db) else k) db own w log := by
  intro db₁ own₁ w₁ h₁ hsub hw db₂ h₂
  have hst := h₁.trans hS (h₂.sub hS hsub)
  dsimp only
  split
  · exact hf _ _ _ _ hst hsub
  · exact hk _ _ _ hst hsub hw

include hS in
theorem guardSchedule_goesOn {ev : EventRow} {k : Program} (hf : FailsFrom S fail db own log)
    (hk : GoesOn S isSetup k db own w log) :
    GoesOn S isSetup (guardSchedule E t ev fail k) db own w log := by
  intro db₁ own₁ w₁ h₁ hsub hw db₂ h₂
  have hst := h₁.trans hS (h₂.sub hS hsub)
  dsimp only
  split
  · exact hf _ _ _ _ hst hsub
  · exact check_goesOn hf hk _ _ _ hst hsub hw

include hS in
theorem guardOpen_goesOn {ev : EventRow} {k : Program} (hf : FailsFrom S fail db own log)
    (hk : GoesOn S isSetup k db own w log) :
    GoesOn S isSetup (guardOpen E t ev fail k) db own w log := by
  refine check_goesOn hf ?_
  split
  · intro db₁ own₁ w₁ h₁ hsub hw db₂ h₂
    have hst := h₁.trans hS (h₂.sub hS hsub)
    dsimp only
    split
    · exact hk _ _ _ hst hsub hw
    · exact ensureElectionKey_goesOn hS hf hk _ _ _ hst hsub hw
  · exact hk

include hS in
theorem guardArchive_goesOn {ev : EventRow} {k : Program} (hf : FailsFrom S fail db own log)
    (hk : GoesOn S isSetup k db own w log) :
    GoesOn S isSetup (guardArchive E t ev fail k) db own w log := by
  unfold guardArchive
  split
  · exact fun _ _ _ hst hsub _ => hf _ _ _ _ hst hsub
  · exact readElse_goesOn hS hf hk

include hS in
theorem guardSubmit_goesOn {ev : EventRow} {k : Program} (hf : FailsFrom S fail db own log)
    (hk : GoesOn S isSetup k db own w log) :
    GoesOn S isSetup (guardSubmit E t ev fail k) db own w log :=
  readElse_goesOn hS hf hk

include hS in
theorem guard_goesOn (E : Env) (a : Action) {ev : EventRow} {k : Program} (hf : FailsFrom S fail db own log)
    (hk : GoesOn S isSetup k db own w log) :
    GoesOn S isSetup (a.spec.guard E t ev fail k) db own w log := by
  cases a with
  | submit => exact guardSubmit_goesOn (E := E) hS hf hk
  | approve =>
    simp only [Action.spec, guardApprove]
    exact check_goesOn hf hk
  | schedule => exact guardSchedule_goesOn hS hf hk
  | «open» => exact guardOpen_goesOn hS hf hk
  | resume =>
    simp only [Action.spec, guardResume]
    exact check_goesOn hf hk
  | archive => exact guardArchive_goesOn (E := E) hS hf hk
  | _ => exact hk

include hS in
theorem effect_goesOn (E : Env) (a : Action) {ev : EventRow} {k : EventRow → Program}
    (hf : FailsFrom S fail db own log) (hk : GoesOn S isSetup (k (a.after t ev)) db own w log) :
    GoesOn S isSetup (a.spec.effect E t ev fail k) db own w log := by
  cases a with
  | approve => exact snapshotConfiguration_goesOn hS hf hk
  | schedule =>
    simp only [Action.spec, effectSchedule]
    split
    · exact ensureElectionKey_goesOn hS hf hk
    · exact hk
  | _ => exact hk

include hS in
/-- **Nothing comes of a transition but its move**, with audit, key and
snapshot rows beside it; the rest of the transaction holds the election. -/
theorem transitionBody_ok {k : EventRow → Program} (hf : FailsFrom S fail db own log)
    (hk : ∀ db' own' w₁ w₂ a ev ev', Stable S own log db db' → (∀ x ∈ own, x ∈ own') →
      .event t.event ∈ own' → (db'.apply w).row (.event t.event) = some ev → Moved t a ev ev' →
      Db.Only isSetup w₁ → AuditOnly w₂ →
      Ok S (k ev') db' own' (w₂ ++ ⟨.event t.event, some ev'⟩ :: (w₁ ++ w)) log)
    (hinv : S.inv db) : Ok S (transitionBody E t fail k) db own w log := by
  unfold transitionBody
  split
  · exact hf _ _ _ _ (.refl hS hinv) fun _ h => h
  · rename_i a ha
    refine Ok.lockRow (fun db₁ ev h₁ hev => ?_) fun db₁ h₁ => hf _ _ _ _ h₁ fun _ h => h
    have hsub : ∀ x ∈ own, x ∈ Key.event t.event :: own := fun x hx => List.mem_cons_of_mem _ hx
    have hf₁ : FailsFrom S fail db₁ (.event t.event :: own) log := hf.mono hS h₁ hsub
    have hrefl : Stable S (.event t.event :: own) log db₁ db₁ := .refl hS h₁.inv
    dsimp only
    split
    · exact hf₁ _ _ _ _ hrefl fun _ h => h
    · rename_i hsrc
      split
      · exact hf₁ _ _ _ _ hrefl fun _ h => h
      · rename_i hperm
        have hmoved : Moved t a ev (t.extraEffect (a.after t { ev with status := a.spec.target })) :=
          ⟨ha, not_not.mp hsrc, by simpa [Decidable.or_iff_not_imp_left] using hperm, rfl⟩
        have hput : GoesOn S isSetup
            (.put (.event t.event) (some (t.extraEffect (a.after t { ev with status := a.spec.target }))) <|
              record E (t.entry E a ev.status (t.extraEffect (a.after t { ev with status := a.spec.target })))
                (fail (.crash "DatabaseError")) <|
              k (t.extraEffect (a.after t { ev with status := a.spec.target })))
            db₁ (.event t.event :: own) w log := by
          intro db₂ own₂ w₂ h₂ hsub₂ hw₂
          refine Ok.put hS (hsub₂ _ (by simp)) trivial ?_
          refine record_ok hS ((hf₁.mono hS h₂ hsub₂).to _) fun db₃ own₃ w₃ h₃ hsub₃ hw₃ => ?_
          have h₁₃ := h₂.trans hS (h₃.sub hS hsub₂)
          refine hk db₃ own₃ w₂ w₃ a ev _ (h₁.trans hS (h₁₃.sub hS hsub)) (fun x hx => ?_) ?_ ?_ hmoved hw₂ hw₃
          · exact hsub₃ _ (hsub₂ _ (hsub x hx))
          · exact hsub₃ _ (hsub₂ _ (by simp))
          · rw [Db.apply_row_congr (h₁₃.held _ (by simp)) w]
            exact hev
        have heffect := effect_goesOn hS E a (k := fun ev' =>
          .put (.event t.event) (some (t.extraEffect ev')) <|
            record E (t.entry E a ev.status (t.extraEffect ev')) (fail (.crash "DatabaseError")) <|
            k (t.extraEffect ev')) hf₁ hput
        split
        · exact heffect.at hrefl
        · exact (guard_goesOn hS E a hf₁ heffect).at hrefl

include hS in
/-- **Nothing comes of `transition` but its commit.** -/
theorem transition_ok {k : Except Failure EventRow → Program}
    (hfail : ∀ db e, Ok S (k (.error e)) db [] [] log)
    (hdone : ∀ own a ev ev' db db', S.inv db → .event t.event ∈ own → TransitionDone t a ev ev' db db' →
      S.inv db' ∧ S.guar own ((k (.ok ev')).settle log).2 db db' ∧ Ok S (k (.ok ev')) db' [] [] log)
    (hinv : S.inv db) : Ok S (transition E t k) db [] [] log := by
  refine transitionBody_ok hS (fun e _ _ _ _ _ db'' _ => hfail db'' e) ?_ hinv
  intro db₁ own₁ w₁ w₂ a ev ev' h₁ _ hown hev hmoved hw₁ hw₂ db₂ h₂
  refine hdone own₁ a ev ev' db₂ _ h₂.inv hown ⟨?_, hmoved, w₂, w₁, hw₂, hw₁, by simp⟩
  rw [h₂.held _ hown]
  simpa using hev

end Ok

end Lifecycle
end FlexyVotes
