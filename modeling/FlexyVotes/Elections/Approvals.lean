/-
# A request for an approval is decided once

The console reads a request, checks that nobody has decided it, and saves the
decision (`approvals`); an approved request runs its action and is saved again.
Nothing is locked in between, so a second decision can be saved over the first.
Where no call saves a request that another is about to save otherwise
(`OneDecision`), the action runs at most once, never beside a rejection, a
cancellation or an expiry, and a decision stays.

The proof does not look at the programs: it is about the phases a call goes
through (`Move`), and a call is shown to go through them (`approvals_conducts`).

Key definitions: `approvals`, `Move`, `OneDecision`, `Decided`.
Key theorems: `Decided.step`, `approvals_conducts`, `decided_once`.
-/
import FlexyVotes.Lib.Conduct
import FlexyVotes.Payments.RefundLimits

namespace FlexyVotes
namespace Integrity

open Transactions Audit Payments

/-! ### The console -/

/-- One post of the console's page of approvals. -/
structure ApprovalsPost where
  approval : ℕ
  user : User
  decision : String
  note : String := ""
  request : Option Request := none
  now : Time

def ApprovalsPost.call (q : ApprovalsPost) : DecideCall where
  approval := q.approval
  approver := q.user
  approve := q.decision = "approve"
  note := q.note
  request := q.request
  now := q.now

def ApprovalsPost.entry (q : ApprovalsPost) (row : ApprovalRow) (organization : Option ℕ) : Entry where
  eventType := "APPROVAL_" ++ row.action.value ++ "_CANCELLED"
  request := q.request
  event := row.election.map fun e => (e, organization)
  targetType := "elections.ApprovalRequest"
  targetId := toString q.approval
  createdAt := q.now

/-- `approvals`, of a request the user may see. -/
def approvals (E : Env) (exec : Executor) (q : ApprovalsPost) (k : Except Failure Unit → Program) : Program :=
  .read fun db =>
    match db.row (.approval q.approval) with
    | none => k (.error (.crash "Http404"))
    | some row =>
      if q.decision = "cancel" ∧ row.requestedBy = q.user.pk ∧ row.status = .PENDING then
        .note (.decision q.approval (.deciding .CANCELLED)) <|
        .update (.approval q.approval) (fun _ => true) (fun r => { r with status := .CANCELLED }) fun _ => .commit <|
        .note (.decision q.approval .closed) <|
        recordNow E (q.entry row (organizationOf db row.election)) (k (.error (.crash "DatabaseError"))) (k (.ok ()))
      else decideRead E exec q.call row k

/-! ### The phases of a call -/

/-- The last phase a thread came to with the request. -/
def phaseOf (pk : ℕ) (log : List Note) : Option DecisionPhase :=
  log.findSome? fun
    | .decision approval phase => if approval = pk then some phase else none
    | _ => none

/-- How often a thread ran the action of the request. -/
def runsOf (pk : ℕ) (log : List Note) : ℕ := log.count (.decision pk .executing)

/-- The status a thread has written and not committed. -/
def writtenOf (pk : ℕ) (w : Writes Row) : Option ApprovalStatus :=
  w.findSome? fun
    | ⟨.approval approval, r⟩ => if approval = pk then r.map (·.status) else none
    | _ => none

def statusOf (pk : ℕ) (db : Database) : Option ApprovalStatus := (db.row (.approval pk)).map (·.status)

/-- What is seen of a call. -/
structure Progress where
  phase : Option DecisionPhase
  written : Option ApprovalStatus
  runs : ℕ

/-- The statuses that close a request. -/
def closes (x : ApprovalStatus) : Bool := x = .REJECTED || x = .CANCELLED || x = .EXPIRED

/-- What a call does next to the status of the request. -/
inductive Move : Option ApprovalStatus → Progress → Option ApprovalStatus → Progress → Prop
  | stay (d : Option ApprovalStatus) (l : Progress) : Move d l d l
  | begins (x : ApprovalStatus) (n : ℕ) : x = .APPROVED ∨ closes x = true →
    Move (some .PENDING) ⟨none, none, n⟩ (some .PENDING) ⟨some (.deciding x), none, n⟩
  | writes (d : Option ApprovalStatus) (x : ApprovalStatus) (n : ℕ) :
    Move d ⟨some (.deciding x), none, n⟩ d ⟨some (.deciding x), some x, n⟩
  | close (d : Option ApprovalStatus) (x : ApprovalStatus) (n : ℕ) : closes x = true →
    Move d ⟨some (.deciding x), some x, n⟩ (some x) ⟨some .closed, none, n⟩
  | approve (d : Option ApprovalStatus) (n : ℕ) :
    Move d ⟨some (.deciding .APPROVED), some .APPROVED, n⟩ (some .APPROVED) ⟨some .approved, none, n⟩
  | execute (d : Option ApprovalStatus) (n : ℕ) : Move d ⟨some .approved, none, n⟩ d ⟨some .executing, none, n + 1⟩
  | ends (d : Option ApprovalStatus) (x : ApprovalStatus) (n : ℕ) : x = .EXECUTED ∨ x = .FAILED →
    Move d ⟨some .executing, none, n⟩ d ⟨some .executing, some x, n⟩
  | finish (d : Option ApprovalStatus) (x : ApprovalStatus) (n : ℕ) : x = .EXECUTED ∨ x = .FAILED →
    Move d ⟨some .executing, some x, n⟩ (some x) ⟨some .executed, none, n⟩

/-- The conduct of calls on requests, seen at the request `pk`. -/
def conduct (pk : ℕ) : Conduct Row Note (Option ApprovalStatus) Progress where
  see := statusOf pk
  here := fun w log => ⟨phaseOf pk log, writtenOf pk w, runsOf pk log⟩
  holds := fun d => d.isSome = true
  move := Move

theorem Move.holds {d d' : Option ApprovalStatus} {l l' : Progress} (hd : d.isSome = true) (h : Move d l d' l') :
    d'.isSome = true := by
  cases h <;> first
    | exact hd
    | rfl

/-! ### Runs of the phases -/

/-- No call changes the status of a request that another is about to save, unless
both close it in the same way. -/
def OneDecision (pk : ℕ) (s : State Row Note) (t : ℕ) (s' : State Row Note) : Prop :=
  ∀ u x, u ≠ t → (s.thr u).prog ≠ .halt → phaseOf pk (s.thr u).log = some (.deciding x) →
    statusOf pk s'.db ≠ statusOf pk s.db → x ≠ .APPROVED ∧ statusOf pk s'.db = some x

/-- The call has approved the request. -/
def hasApproved : Option DecisionPhase → Bool
  | some .approved => true
  | some .executing => true
  | some .executed => true
  | _ => false

/-- What the calls have done fits the status of the request. -/
structure Decided (d : Option ApprovalStatus) (live : ℕ → Prop) (l : ℕ → Progress) : Prop where
  deciding : ∀ u x, live u → (l u).phase = some (.deciding x) → d = some .PENDING ∨ x ≠ .APPROVED ∧ d = some x
  underway : ∀ u, (l u).phase = some .approved ∨ (l u).phase = some .executing → d = some .APPROVED
  approved : ∀ u, hasApproved (l u).phase = true → d = some .APPROVED ∨ d = some .EXECUTED ∨ d = some .FAILED
  one : ∀ u v, hasApproved (l u).phase = true → hasApproved (l v).phase = true → u = v
  runs : ∀ u, (l u).runs = if (l u).phase = some .executing ∨ (l u).phase = some .executed then 1 else 0

/-- The statuses a request keeps. -/
def isFinal (x : ApprovalStatus) : Bool := x = .EXECUTED || closes x

section Moves

variable {d d' : Option ApprovalStatus} {live : ℕ → Prop} {l : ℕ → Progress} {t : ℕ} {m : Progress}

/-- While the request is open, or closed, nobody has approved it. -/
theorem Decided.unapproved (h : Decided d live l) {x : ApprovalStatus} (hx : x = .PENDING ∨ closes x = true)
    (hd : d = some x) (u : ℕ) : hasApproved (l u).phase = false := by
  by_contra hne
  have happroved := h.approved u (by simpa using hne)
  rw [hd] at happroved
  cases x <;> simp [closes] at hx happroved

/-- **A move** that does not cross another decision fits, and keeps a final status. -/
theorem Decided.move (h : Decided d live l) (ht : live t) (hmove : Move d (l t) d' m)
    (hone : ∀ u x, u ≠ t → live u → (l u).phase = some (.deciding x) → d' ≠ d → x ≠ .APPROVED ∧ d' = some x) :
    Decided d' live (Function.update l t m) ∧ ∀ x, isFinal x = true → d = some x → d' = some x := by
  have hother : ∀ u, u ≠ t → Function.update l t m u = l u := fun u hu => Function.update_of_ne hu m l
  have hthis : Function.update l t m t = m := Function.update_self t m l
  have hruns := h.runs t
  generalize hl : l t = lt at hmove
  rw [hl] at hruns
  cases hmove with
  | stay =>
    have hsame : Function.update l t m = l := by rw [← hl, Function.update_eq_self]
    rw [hsame]
    exact ⟨h, fun _ _ hx => hx⟩
  | begins x n hx =>
    have hnone := h.unapproved (Or.inl rfl) rfl
    refine ⟨⟨fun _ _ _ _ => Or.inl rfl, ?_, ?_, ?_, ?_⟩, fun _ _ hd => hd⟩ <;>
      grind [hasApproved, Decided]
  | writes _ x n =>
    refine ⟨⟨?_, ?_, ?_, ?_, ?_⟩, fun _ _ hd => hd⟩ <;>
      grind [Decided]
  | close _ x n hx =>
    -- the request is open, or another call has closed it in the same way
    have hd : d = some .PENDING ∨ d = some x := by
      rcases h.deciding t x ht (by rw [hl]) with hd | ⟨-, hd⟩
      · exact Or.inl hd
      · exact Or.inr hd
    have hnone : ∀ u, hasApproved (l u).phase = false := fun u => by
      rcases hd with hd | hd
      · exact h.unapproved (Or.inl rfl) hd u
      · exact h.unapproved (Or.inr hx) hd u
    refine ⟨⟨?_, ?_, ?_, ?_, ?_⟩, ?_⟩ <;>
      grind [hasApproved, isFinal, closes, Decided]
  | approve _ n =>
    -- the request is open, and no other call is about to save it
    have hd : d = some .PENDING := by
      rcases h.deciding t .APPROVED ht (by rw [hl]) with hd | ⟨hne, -⟩
      · exact hd
      · exact absurd rfl hne
    have hnone := h.unapproved (Or.inl rfl) hd
    have halone : ∀ u x, u ≠ t → live u → (l u).phase ≠ some (.deciding x) := fun u x hu hlive hphase => by
      obtain ⟨hne, heq⟩ := hone u x hu hlive hphase (by rw [hd]; decide)
      exact hne (Option.some.inj heq).symm
    refine ⟨⟨?_, ?_, ?_, ?_, ?_⟩, ?_⟩ <;>
      grind [hasApproved, isFinal, closes, Decided]
  | execute _ n =>
    have hd := h.underway t (Or.inl (by rw [hl]))
    refine ⟨⟨?_, ?_, ?_, ?_, ?_⟩, fun _ _ hd => hd⟩ <;>
      grind [hasApproved, Decided]
  | ends _ x n hx =>
    refine ⟨⟨?_, ?_, ?_, ?_, ?_⟩, fun _ _ hd => hd⟩ <;>
      grind [hasApproved, Decided]
  | finish _ x n hx =>
    -- the request is approved, by this call alone
    have hd := h.underway t (Or.inr (by rw [hl]))
    have hmine : ∀ u, hasApproved (l u).phase = true → u = t := fun u hu =>
      h.one u t hu (by rw [hl]; rfl)
    refine ⟨⟨?_, ?_, ?_, ?_, ?_⟩, ?_⟩ <;>
      grind [hasApproved, isFinal, closes, Decided]

theorem Decided.mono {live' : ℕ → Prop} (h : Decided d live l) (hlive : ∀ u, live' u → live u) : Decided d live' l :=
  ⟨fun u x hu => h.deciding u x (hlive u hu), h.underway, h.approved, h.one, h.runs⟩

/-- What is written and not committed does not matter. -/
theorem Decided.congr {l' : ℕ → Progress} (h : Decided d live l) (hphase : ∀ u, (l' u).phase = (l u).phase)
    (hruns : ∀ u, (l' u).runs = (l u).runs) : Decided d live l' := by
  refine ⟨fun u x hu => ?_, fun u => ?_, fun u => ?_, fun u v => ?_, fun u => ?_⟩
  · rw [hphase]
    exact h.deciding u x hu
  · rw [hphase]
    exact h.underway u
  · rw [hphase]
    exact h.approved u
  · rw [hphase, hphase]
    exact h.one u v
  · rw [hphase, hruns]
    exact h.runs u

end Moves

/-! ### The programs -/

/-- Not the row of a request. -/
def isElsewhere : Key → Bool
  | .approval _ => false
  | _ => true

/-- Not about a decision. -/
def isOther : Note → Bool
  | .decision _ _ => false
  | _ => true

/-- The action leaves the requests alone, up to where it raises or returns. -/
def Leaves (exec : Executor) : Prop :=
  ∀ row u (fail : Failure → Program) (k : Json → Program),
    Prog.Apart isElsewhere isOther (fun q => (∃ e, q = fail e) ∨ ∃ r, q = k r) (exec row u fail k)

section Conducts

variable {pk : ℕ} {E : Env} {exec : Executor} {log : List Note}

theorem unseen {p : Key → Bool} {n : Note → Bool} (hp : p (.approval pk) = false)
    (hn : ∀ phase, n (.decision pk phase) = false) : (conduct pk).Unseen p n where
  stay := .stay
  writes := fun w log hw => by
    have hnone : writtenOf pk w = none := by
      refine List.findSome?_eq_none_iff.mpr fun e he => ?_
      obtain ⟨k, r⟩ := e
      cases k <;> first
        | rfl
        | skip
      have hkey := hw _ he
      simp only [ite_eq_right_iff]
      rintro rfl
      rw [hp] at hkey
      cases hkey
    show (⟨_, writtenOf pk w, _⟩ : Progress) = ⟨_, none, _⟩
    rw [hnone]
  rows := fun db w hw => by
    show Option.map _ _ = Option.map _ _
    rw [hw.apply_row db hp]
  notes := fun w x log hx => by
    have hphase : phaseOf pk (x :: log) = phaseOf pk log := by
      cases x <;> first
        | rfl
        | skip
      rename_i approval phase
      have hne : approval ≠ pk := by
        rintro rfl
        rw [hn] at hx
        cases hx
      simp [phaseOf, hne]
    have hruns : runsOf pk (x :: log) = runsOf pk log := by
      refine List.count_cons_of_ne fun heq => ?_
      rw [heq, hn] at hx
      cases hx
    show (⟨phaseOf pk (x :: log), _, runsOf pk (x :: log)⟩ : Progress) = _
    rw [hphase, hruns]
    rfl

theorem unseen_elsewhere : (conduct pk).Unseen isElsewhere isOther := unseen rfl fun _ => rfl

/-- What is seen of a thread that has written nothing. -/
abbrev seen (pk : ℕ) (log : List Note) : Progress := (conduct pk).here [] log

/-- **A save** of the request. -/
theorem save_conducts (log : List Note) {x : ApprovalStatus} {g : ApprovalRow → ApprovalRow} {next : Program} (hg : ∀ r, (g r).status = x)
    (hwrite : ∀ d, Move d (seen pk log) d { seen pk log with written := some x })
    (hsave : ∀ d, Move d { seen pk log with written := some x } (some x) (seen pk (next.settle log).2))
    (hnext : next.Conducts (conduct pk) [] log) :
    (Prog.update (.approval pk) (fun _ => true) g fun _ => .commit next : Program).Conducts (conduct pk) [] log := by
  intro db hdb
  refine ⟨fun r _ _ => ⟨.stay _ _, fun db' _ => ⟨?_, fun db' _ => ⟨?_, hnext⟩⟩⟩, fun hnone => ?_⟩
  · have hwritten : writtenOf pk [⟨.approval pk, some (g r)⟩] = some x := by simp [writtenOf, hg]
    show Move _ _ _ ⟨_, writtenOf pk [⟨.approval pk, some (g r)⟩], _⟩
    rw [hwritten]
    exact hwrite _
  · have hwritten : writtenOf pk [⟨.approval pk, some (g r)⟩] = some x := by simp [writtenOf, hg]
    have hstatus : statusOf pk (db'.apply [⟨.approval pk, some (g r)⟩]) = some x := by
      unfold statusOf
      rw [Db.apply_cons, Db.apply_nil, Db.set_row_self, Option.map_some, hg]
    show Move _ ⟨_, writtenOf pk [⟨.approval pk, some (g r)⟩], _⟩ (statusOf pk (db'.apply [⟨.approval pk, some (g r)⟩])) _
    rw [hwritten, hstatus]
    exact hsave _
  · -- the request is there
    obtain ⟨st, hst⟩ := Option.isSome_iff_exists.mp hdb
    obtain ⟨r, hr, -⟩ := Option.map_eq_some_iff.mp hst
    cases hnone r hr

/-- **An entry of the log**, and what comes after it. -/
theorem recordNow_conducts {a : Entry} {next : Program} (hnext : ∀ log', seen pk log' = seen pk log →
      (∀ d, Move d (seen pk log') d (seen pk (next.settle log').2)) ∧ next.Conducts (conduct pk) [] log') :
    (recordNow E a .halt next).Conducts (conduct pk) [] log := by
  have hapart : (recordNow E a .halt next).Apart isElsewhere isOther (fun q => q = .rollback .halt ∨ q = .commit next) := by
    refine record_apart (fun x hx => ?_) (.out (Or.inl rfl)) (.out (Or.inr rfl))
    cases x <;> first
      | rfl
      | cases hx
  have hends : ∀ q : Program, q = .rollback .halt ∨ q = .commit next → q.AtStatement := by
    rintro q (rfl | rfl) <;> trivial
  refine Conducts.of_apart unseen_elsewhere hends hapart .nil fun q w log' hq hw hlog => ?_
  rcases hq with rfl | rfl <;> intro db _
  · rw [unseen_elsewhere.writes w log' hw]
    exact ⟨.stay _ _, trivial⟩
  · rw [unseen_elsewhere.writes w log' hw, unseen_elsewhere.rows db w hw]
    exact ⟨(hnext log' hlog).1 _, (hnext log' hlog).2⟩

theorem seen_decision (phase : DecisionPhase) (log : List Note) : seen pk (.decision pk phase :: log) =
    ⟨some phase, none, runsOf pk (.decision pk phase :: log)⟩ := by
  have hphase : phaseOf pk (.decision pk phase :: log) = some phase := by simp [phaseOf]
  show (⟨phaseOf pk (.decision pk phase :: log), none, _⟩ : Progress) = _
  rw [hphase]

theorem seen_phase {phase : DecisionPhase} (hphase : phase ≠ .executing) (log : List Note) :
    seen pk (.decision pk phase :: log) = ⟨some phase, none, runsOf pk log⟩ := by
  have hruns : runsOf pk (.decision pk phase :: log) = runsOf pk log :=
    List.count_cons_of_ne fun heq => hphase (by injection heq)
  rw [seen_decision, hruns]

theorem seen_executing (log : List Note) :
    seen pk (.decision pk .executing :: log) = ⟨some .executing, none, runsOf pk log + 1⟩ := by
  have hruns : runsOf pk (.decision pk .executing :: log) = runsOf pk log + 1 := List.count_cons_self
  rw [seen_decision, hruns]

/-- **The action** in its transaction, taken back or committed. -/
theorem action_conducts {row : ApprovalRow} {approver : User} {fail : Failure → Program} {next : Json → Program}
    (hexec : Leaves exec) (hfail : ∀ e log', seen pk log' = seen pk log → (fail e).AtStatement ∧
      (fail e).Conducts (conduct pk) [] log')
    (hnext : ∀ r log', seen pk log' = seen pk log → (next r).AtStatement ∧ (next r).Conducts (conduct pk) [] log') :
    seen pk ((exec row approver (fun e => .rollback (fail e)) fun r => .commit (next r)).settle log).2 = seen pk log ∧
    (exec row approver (fun e => .rollback (fail e)) fun r => .commit (next r)).Conducts (conduct pk) [] log := by
  have hends : ∀ q : Program, ((∃ e, q = .rollback (fail e)) ∨ ∃ r, q = .commit (next r)) → q.AtStatement := by
    rintro q (⟨e, rfl⟩ | ⟨r, rfl⟩) <;> trivial
  have hapart := hexec row approver (fun e => .rollback (fail e)) fun r => .commit (next r)
  refine ⟨unseen_elsewhere.settle hends hapart [] log, ?_⟩
  refine Conducts.of_apart unseen_elsewhere hends hapart .nil fun q w log' hq hw hlog => ?_
  rcases hq with ⟨e, rfl⟩ | ⟨r, rfl⟩ <;> intro db _
  · obtain ⟨hstatement, hconducts⟩ := hfail e log' hlog
    rw [unseen_elsewhere.writes w log' hw, hstatement.settle]
    exact ⟨.stay _ _, hconducts⟩
  · obtain ⟨hstatement, hconducts⟩ := hnext r log' hlog
    rw [unseen_elsewhere.writes w log' hw, unseen_elsewhere.rows db w hw, hstatement.settle]
    exact ⟨.stay _ _, hconducts⟩

/-- The action, and how it is noted on the request. -/
theorem execute_conducts {row : ApprovalRow} {approver : User} {request : Option Request} {now : Time} (hexec : Leaves exec)
    {runs : ℕ} (hlog : seen pk log = ⟨some .approved, none, runs⟩) :
    (∀ d, Move d (seen pk log) d (seen pk ((execute E exec pk row approver request now fun _ => .halt).settle log).2)) ∧
      (execute E exec pk row approver request now fun _ => .halt).Conducts (conduct pk) [] log := by
  have hruns : runsOf pk log = runs := congrArg Progress.runs hlog
  have hseen : seen pk (.decision pk .executing :: log) = ⟨some .executing, none, runs + 1⟩ := by
    rw [seen_executing, hruns]
  have hfinish : ∀ (row : ApprovalRow) (a : Entry) (log' : List Note), row.status = .EXECUTED ∨ row.status = .FAILED →
      seen pk log' = seen pk (.decision pk .executing :: log) →
      (Prog.update (.approval pk) (fun _ => true) (fun _ => row) fun _ => .commit <| .note (.decision pk .executed) <|
        recordNow E a .halt .halt : Program).Conducts (conduct pk) [] log' := by
    intro row a log' hstatus hlog'
    rw [hseen] at hlog'
    have hruns' : runsOf pk log' = runs + 1 := congrArg Progress.runs hlog'
    refine save_conducts log' (fun _ => rfl) (fun d => ?_) (fun d => ?_) ?_
    · rw [hlog']
      exact .ends _ _ _ hstatus
    · rw [hlog']
      show Move _ _ _ (seen pk (.decision pk .executed :: log'))
      rw [seen_phase (by decide), hruns']
      exact .finish _ _ _ hstatus
    · exact recordNow_conducts fun _ _ => ⟨fun _ => .stay _ _, trivial⟩
  have haction : seen pk ((execute E exec pk row approver request now fun _ => .halt).settle log).2 =
      seen pk (.decision pk .executing :: log) ∧
      (execute E exec pk row approver request now fun _ => .halt).Conducts (conduct pk) [] log :=
    action_conducts hexec (fun e log' h => ⟨trivial, hfinish _ _ log' (Or.inr rfl) h⟩)
      fun r log' h => ⟨trivial, hfinish _ _ log' (Or.inl rfl) h⟩
  refine ⟨fun d => ?_, haction.2⟩
  rw [haction.1, hlog, hseen]
  exact .execute d runs

/-- What the first step of a call on the request does, and that the rest goes on. -/
def Begins (pk : ℕ) (d : Option ApprovalStatus) (p : Program) : Prop :=
  Move d (seen pk []) d (seen pk (p.settle []).2) ∧ p.Conducts (conduct pk) [] []

/-- **A first save** of the request, with the status `x`. -/
theorem begins_save {x : ApprovalStatus} {g : ApprovalRow → ApprovalRow} {phase : DecisionPhase} {next : Program}
    (hx : x = .APPROVED ∨ closes x = true) (hg : ∀ r, (g r).status = x) (hphase : phase ≠ .executing)
    (hsave : ∀ d, Move d ⟨some (.deciding x), some x, 0⟩ (some x) ⟨some phase, none, 0⟩) (hstatement : next.AtStatement)
    (hnext : next.Conducts (conduct pk) [] [.decision pk phase, .decision pk (.deciding x)]) :
    Begins pk (some .PENDING) (.note (.decision pk (.deciding x)) <|
      .update (.approval pk) (fun _ => true) g fun _ => .commit <| .note (.decision pk phase) next) := by
  have hseen : seen pk [.decision pk (.deciding x)] = ⟨some (.deciding x), none, 0⟩ := seen_phase (by simp) []
  have hruns : runsOf pk [.decision pk (.deciding x)] = 0 := congrArg Progress.runs hseen
  refine ⟨?_, save_conducts [.decision pk (.deciding x)] hg (fun d => ?_) (fun d => ?_) hnext⟩
  · show Move _ ⟨none, none, 0⟩ _ (seen pk [.decision pk (.deciding x)])
    rw [hseen]
    exact .begins x 0 hx
  · rw [hseen]
    exact .writes d x 0
  · have hsettle : ((Prog.note (.decision pk phase) next : Program).settle [.decision pk (.deciding x)]).2 =
        [.decision pk phase, .decision pk (.deciding x)] := hstatement.settle _
    rw [hseen, hsettle, seen_phase hphase, hruns]
    exact hsave d

theorem begins_halt (d : Option ApprovalStatus) : Begins pk d .halt := ⟨.stay _ _, trivial⟩

/-- **A decision** on the request. -/
theorem decideRead_begins {q : DecideCall} {row : ApprovalRow} (hexec : Leaves exec) :
    Begins q.approval (some row.status) (decideRead E exec q row fun _ => .halt) := by
  unfold decideRead
  split
  · exact begins_halt _
  rename_i hpending
  rw [not_ne_iff.mp hpending]
  split
  · exact begins_save (Or.inr rfl) (fun _ => rfl) (by decide) (fun d => .close d _ 0 rfl) trivial trivial
  split
  · exact begins_halt _
  split
  · exact begins_halt _
  rcases happrove : q.approve with _ | _
  · have hstatus : (q.row row).status = .REJECTED := by simp [DecideCall.row, happrove]
    rw [hstatus]
    refine begins_save (Or.inr rfl) (fun _ => hstatus) (by decide) (fun d => .close d _ 0 rfl) trivial ?_
    exact recordNow_conducts fun _ _ => ⟨fun _ => .stay _ _, trivial⟩
  · have hstatus : (q.row row).status = .APPROVED := by simp [DecideCall.row, happrove]
    rw [hstatus]
    refine begins_save (Or.inl rfl) (fun _ => hstatus) (by decide) (fun d => .approve d 0) trivial ?_
    refine recordNow_conducts fun log' hlog' => ?_
    have hlog : seen q.approval log' = ⟨some .approved, none, 0⟩ := by
      have hruns : runsOf q.approval [.decision q.approval (.deciding .APPROVED)] = 0 := by simp [runsOf]
      rw [hlog', if_pos rfl, seen_phase (by decide), hruns]
    exact execute_conducts hexec hlog

/-- Not the row of this request. -/
def isNotRow (pk : ℕ) : Key → Bool
  | .approval approval => approval ≠ pk
  | _ => true

/-- Not about a decision on this request. -/
def isNotNote (pk : ℕ) : Note → Bool
  | .decision approval _ => approval ≠ pk
  | _ => true

section Apart

variable {approval : ℕ} (hne : approval ≠ pk) {out : Program → Prop}

theorem recordNow_apart {a : Entry} {next : Program} (hnext : next.Apart (isNotRow pk) (isNotNote pk) out) :
    (recordNow E a .halt next).Apart (isNotRow pk) (isNotNote pk) out := by
  refine record_apart (fun x hx => ?_) (.rollback .halt) (.commit hnext)
  cases x <;> first
    | rfl
    | cases hx

include hne in
/-- A save of another request. -/
theorem save_apart {g : ApprovalRow → ApprovalRow} {phase : DecisionPhase} {next : Program}
    (hnext : next.Apart (isNotRow pk) (isNotNote pk) out) :
    (Prog.update (.approval approval) (fun _ => true) g fun _ => .commit <| .note (.decision approval phase) next :
      Program).Apart (isNotRow pk) (isNotNote pk) out :=
  .update (by simpa [isNotRow] using hne) fun _ => .commit (.note (by simpa [isNotNote] using hne) hnext)

include hne in
theorem execute_apart {row : ApprovalRow} {approver : User} {request : Option Request} {now : Time} (hexec : Leaves exec) :
    (execute E exec approval row approver request now fun _ => .halt).Apart (isNotRow pk) (isNotNote pk) out := by
  refine .note (by simpa [isNotNote] using hne) ((hexec row approver _ _).mono (fun k hk => ?_) (fun x hx => ?_) ?_)
  · cases k <;> first
      | rfl
      | cases hk
  · cases x <;> first
      | rfl
      | cases hx
  · rintro q (⟨e, rfl⟩ | ⟨r, rfl⟩)
    · exact .rollback (save_apart hne (recordNow_apart .halt))
    · exact .commit (save_apart hne (recordNow_apart .halt))

/-- **A post** about another request is not seen. -/
theorem approvals_apart {q : ApprovalsPost} (hne : q.approval ≠ pk) (hexec : Leaves exec) :
    (approvals E exec q fun _ => .halt).Apart (isNotRow pk) (isNotNote pk) out := by
  have hnote : ∀ phase, isNotNote pk (.decision q.approval phase) = true := fun _ => by simpa [isNotNote] using hne
  refine .read fun db => ?_
  rcases db.row (.approval q.approval) with _ | row
  · exact .halt
  dsimp only
  split
  · exact .note (hnote _) (save_apart hne (recordNow_apart .halt))
  unfold decideRead
  split
  · exact .halt
  split
  · exact .note (hnote _) (save_apart hne .halt)
  split
  · exact .halt
  split
  · exact .halt
  refine .note (hnote _) (save_apart hne (recordNow_apart ?_))
  split
  · exact execute_apart hne hexec
  · exact .halt

end Apart

/-- **Every post** goes through the phases of a call. -/
theorem approvals_conducts {q : ApprovalsPost} (hexec : Leaves exec) :
    (approvals E exec q fun _ => .halt).Conducts (conduct pk) [] [] := by
  by_cases hq : q.approval = pk
  swap
  · have hapart : (approvals E exec q fun _ => .halt).Apart (isNotRow pk) (isNotNote pk) fun _ => False :=
      approvals_apart hq hexec
    exact Conducts.of_apart (unseen (by simp [isNotRow]) fun _ => by simp [isNotNote]) (fun _ h => h.elim) hapart .nil
      fun _ _ _ h => h.elim
  subst hq
  intro db hdb
  have hbegins : Begins q.approval (statusOf q.approval db) (match db.row (.approval q.approval) with
      | none => .halt
      | some row =>
        if q.decision = "cancel" ∧ row.requestedBy = q.user.pk ∧ row.status = .PENDING then
          .note (.decision q.approval (.deciding .CANCELLED)) <|
          .update (.approval q.approval) (fun _ => true) (fun r => { r with status := .CANCELLED }) fun _ => .commit <|
          .note (.decision q.approval .closed) <|
          recordNow E (q.entry row (organizationOf db row.election)) .halt .halt
        else decideRead E exec q.call row fun _ => .halt : Program) := by
    unfold statusOf
    rcases db.row (.approval q.approval) with _ | row
    · exact begins_halt _
    rw [Option.map_some]
    dsimp only
    split
    · rename_i hcancel
      rw [hcancel.2.2]
      refine begins_save (Or.inr rfl) (fun _ => rfl) (by decide) (fun d => .close d _ 0 rfl) trivial ?_
      exact recordNow_conducts fun _ _ => ⟨fun _ => .stay _ _, trivial⟩
    · exact decideRead_begins (q := q.call) hexec
  exact hbegins

end Conducts

/-! ### Runs of posts -/

section Runs

variable {pk : ℕ} {E : Env} {posts : ℕ → ApprovalsPost} {execs : ℕ → Executor} {db₀ : Database} {s s' : State Row Note}

/-- The calls that are not at their end. -/
def live (s : State Row Note) (u : ℕ) : Prop := (s.thr u).prog ≠ .halt

/-- What the calls have done fits the status of the request. -/
def Fits (pk : ℕ) (s : State Row Note) : Prop :=
  Decided (statusOf pk s.db) (live s) fun u => (conduct pk).at (s.thr u)

/-- **A step** that does not cross another decision. -/
theorem Fits.step {t : ℕ} (h : Fits pk s) (hs : Step s t s') (hone : OneDecision pk s t s')
    (hmoved : Moved (conduct pk) s t s') :
    Fits pk s' ∧ ∀ x, isFinal x = true → statusOf pk s.db = some x → statusOf pk s'.db = some x := by
  rcases hmoved with ⟨hlive, hmove⟩ | ⟨hdb, hthr⟩
  · obtain ⟨hdecided, hfinal⟩ := Decided.move h hlive hmove hone
    have hupdate : Function.update (fun u => (conduct pk).at (s.thr u)) t ((conduct pk).at (s'.thr t)) =
        fun u => (conduct pk).at (s'.thr u) := funext fun u => by
      by_cases hu : u = t
      · rw [hu, Function.update_self]
      · rw [Function.update_of_ne hu, hs.thr_ne hu]
    rw [hupdate] at hdecided
    refine ⟨hdecided.mono fun u hu => ?_, hfinal⟩
    by_cases hut : u = t
    · rw [hut]
      exact hlive
    · unfold live at hu ⊢
      rwa [hs.thr_ne hut] at hu
  · have hlog : ∀ u, (s'.thr u).log = (s.thr u).log := fun u => by
      by_cases hu : u = t
      · rw [hu, hthr]
      · rw [hs.thr_ne hu]
    have hdecided : Decided (statusOf pk s.db) (live s') fun u => (conduct pk).at (s'.thr u) := by
      refine Decided.congr (l := fun u => (conduct pk).at (s.thr u)) (h.mono fun u hu => ?_) (fun u => ?_) fun u => ?_
      · by_cases hut : u = t
        · unfold live at hu
          rw [hut, hthr] at hu
          exact absurd rfl hu
        · unfold live at hu ⊢
          rwa [hs.thr_ne hut] at hu
      · show phaseOf pk (s'.thr u).log = phaseOf pk (s.thr u).log
        rw [hlog]
      · show runsOf pk (s'.thr u).log = runsOf pk (s.thr u).log
        rw [hlog]
    unfold Fits
    rw [hdb]
    exact ⟨hdecided, fun _ _ hx => hx⟩

theorem Fits.init (db : Database) : Fits pk (State.init db fun t => approvals E (execs t) (posts t) fun _ => .halt) :=
  ⟨fun _ _ _ h => (nomatch h), fun _ h => h.elim (nomatch ·) (nomatch ·), fun _ h => (nomatch h), fun _ _ h => (nomatch h),
    fun _ => rfl⟩

/-- The action runs at most once, if the calls fit. -/
theorem Fits.sum_le (h : Fits pk s) (T : Finset ℕ) : ∑ t ∈ T, runsOf pk (s.thr t).log ≤ 1 := by
  have hruns : ∀ u, runsOf pk (s.thr u).log ≤ 1 := fun u => by
    have hruns : runsOf pk (s.thr u).log = _ := h.runs u
    rw [hruns]
    split <;> omega
  have happroved : ∀ u, runsOf pk (s.thr u).log ≠ 0 → hasApproved (phaseOf pk (s.thr u).log) = true := fun u hu => by
    have hruns : runsOf pk (s.thr u).log = _ := h.runs u
    rw [hruns] at hu
    have hphase : phaseOf pk (s.thr u).log = some .executing ∨ phaseOf pk (s.thr u).log = some .executed := by
      by_contra hne
      exact hu (if_neg hne)
    rcases hphase with hphase | hphase <;> rw [hphase] <;> rfl
  by_cases hall : ∀ t ∈ T, runsOf pk (s.thr t).log = 0
  · rw [Finset.sum_eq_zero hall]
    exact Nat.zero_le _
  push Not at hall
  obtain ⟨t, ht, hne⟩ := hall
  rw [Finset.sum_eq_single_of_mem t ht fun u _ hu => ?_]
  · exact hruns t
  · by_contra hu'
    exact hu (h.one u t (happroved u hu') (happroved t hne))

/-- Between the states `s` and `s'` the request `pk` is decided once. -/
structure DecidedOnce (pk : ℕ) (s s' : State Row Note) : Prop where
  /-- The action ran at most once. -/
  once : ∀ T : Finset ℕ, ∑ t ∈ T, runsOf pk (s'.thr t).log ≤ 1
  /-- It did not run if the request was rejected, cancelled or expired. -/
  unopposed : ∀ x, closes x = true → statusOf pk s.db = some x → ∀ t, runsOf pk (s'.thr t).log = 0
  /-- A final status stays. -/
  final : ∀ x, isFinal x = true → statusOf pk s.db = some x → statusOf pk s'.db = some x

/-- **A request is decided once**, however the posts about it interleave. -/
theorem decided_once (hexec : ∀ t, Leaves (execs t)) (hrow : ∃ row, db₀.row (.approval pk) = some row)
    (h : Run (OneDecision pk) (.init db₀ fun t => approvals E (execs t) (posts t) fun _ => .halt) s)
    (h' : Run (OneDecision pk) s s') : DecidedOnce pk s s' := by
  have hkeep : ∀ d l d' l', (conduct pk).holds d → (conduct pk).move d l d' l' → (conduct pk).holds d' :=
    fun _ _ _ _ => Move.holds
  have hstart : Conducting (conduct pk) (State.init db₀ fun t => approvals E (execs t) (posts t) fun _ => .halt) := by
    refine .init ?_ fun t => approvals_conducts (hexec t)
    obtain ⟨row, hrow⟩ := hrow
    show (statusOf pk db₀).isSome = true
    rw [statusOf, hrow]
    rfl
  obtain ⟨hconducting, hfits⟩ := hstart.run hkeep (fun _ _ _ hs hA hm hfits => (Fits.step hfits hs hA hm).1) h (.init db₀)
  have hstays : ∀ x, isFinal x = true → statusOf pk s.db = some x → Fits pk s' ∧ statusOf pk s'.db = some x := fun x hx hst =>
    (hconducting.run (I := fun s => Fits pk s ∧ statusOf pk s.db = some x) hkeep (fun _ _ _ hs hA hm hI => by
      obtain ⟨hfits, hfinal⟩ := Fits.step hI.1 hs hA hm
      exact ⟨hfits, hfinal x hx hI.2⟩) h' ⟨hfits, hst⟩).2
  have hfits' := (hconducting.run hkeep (fun _ _ _ hs hA hm hfits => (Fits.step hfits hs hA hm).1) h' hfits).2
  refine ⟨fun T => hfits'.sum_le T, fun x hx hst t => ?_, fun x hx hst => (hstays x hx hst).2⟩
  have hstatus := (hstays x (by simp [isFinal, hx]) hst).2
  have hunapproved := hfits'.unapproved (Or.inr hx) hstatus t
  have hruns : runsOf pk (s'.thr t).log = _ := hfits'.runs t
  rw [hruns, if_neg]
  rintro (hphase | hphase) <;> rw [hphase] at hunapproved <;> cases hunapproved

end Runs

/-! ### The action on a refund -/

section Refunds

variable {out : Program → Prop} {E : Env}

/-- The rows of a refund: its payment, what was paid for, and the log. -/
def isOfRefund : Key → Bool
  | .refund _ | .payment _ | .voteTransaction _ => true
  | k => isAudit k

theorem recordHere_apart {a : Entry} {fail k : Program} (hfail : fail.Apart isOfRefund isOther out)
    (hk : k.Apart isOfRefund isOther out) : (record E a fail k).Apart isOfRefund isOther out := by
  refine record_apart (fun x hx => ?_) hfail hk
  cases x <;> first
    | rfl
    | cases hx

theorem saveRefund_apart {fail : Failure → Program} {id : String} {g : RefundRow → RefundRow} {k : Program}
    (hfail : ∀ e, (fail e).Apart isOfRefund isOther out) (hk : k.Apart isOfRefund isOther out) :
    (saveRefund id g fail k).Apart isOfRefund isOther out :=
  .update rfl fun
    | true => hk
    | false => hfail _

theorem completeRefund_apart {fail : Failure → Program} {id : String} {now : ℕ → Time} {k : Program}
    (hfail : ∀ e, (fail e).Apart isOfRefund isOther out) (hk : k.Apart isOfRefund isOther out) :
    (completeRefund (fun p => p) fail E id now k).Apart isOfRefund isOther out := by
  refine .lockRow (hfail _) fun r => ?_
  dsimp only
  split
  · exact hk
  refine .lockRow (hfail _) fun p => .put rfl (.put rfl ?_)
  have hdone : ∀ a : Option ℕ → Entry, (recordRefund E a p.event (fail (.crash "DatabaseError")) k).Apart
      isOfRefund isOther out := fun a => .read fun _ => recordHere_apart (hfail _) hk
  have hreversed : ∀ a : Option ℕ → Entry, (if r.reverseVotes then
      reverseVotes r.payment (recordRefund E a p.event (fail (.crash "DatabaseError")) k)
      else recordRefund E a p.event (fail (.crash "DatabaseError")) k).Apart isOfRefund isOther out := fun a => by
    split
    · refine .updateWhere (hdone a) fun x v hv => ?_
      cases x <;> first
        | rfl
        | cases hv
    · exact hdone a
  unfold saveTransition
  split
  · exact .put rfl (hreversed _)
  · exact hreversed _

/-- **The action on a refund** writes its rows only. -/
theorem refundExecutor_apart (answer : Except String String) (fake : Bool) (now : ℕ → Time) {row : ApprovalRow} {u : User}
    {fail : Failure → Program} {k : Json → Program} (hfail : ∀ e, (fail e).Apart isOfRefund isOther out)
    (hk : ∀ r, (k r).Apart isOfRefund isOther out) :
    (refundExecutor E answer fake now row u fail k).Apart isOfRefund isOther out := by
  unfold refundExecutor
  split
  swap
  · exact hfail _
  split
  swap
  · exact hfail _
  refine .read fun db => ?_
  split
  · exact hfail _
  dsimp only
  split
  · exact hfail _
  split
  · exact hfail _
  split
  · exact hk _
  refine .note rfl (saveRefund_apart hfail ?_)
  split
  · exact saveRefund_apart hfail (.note rfl (hk _))
  · refine saveRefund_apart hfail (.note rfl (.read fun _ => recordHere_apart (hfail _) ?_))
    split
    · exact completeRefund_apart hfail (hk _)
    · exact hk _

/-- It leaves the requests alone. -/
theorem refundExecutor_leaves (answer : Except String String) (fake : Bool) (now : ℕ → Time) :
    Leaves (refundExecutor E answer fake now) := by
  intro row u fail k
  refine (refundExecutor_apart answer fake now (fun e => .out (Or.inl ⟨e, rfl⟩)) fun r => .out (Or.inr ⟨r, rfl⟩)).mono
    (fun x hx => ?_) (fun _ h => h) fun _ => .out
  cases x <;> first
    | rfl
    | cases hx

end Refunds

/-! ### A rejection over an approval -/

open RefundLimits Reversals

/-- A request for the approval of a refund of 150. -/
def refundAsked : Database :=
  (counted.set (.refund "a") (some (ask "a" 150).row)).set (.approval 1)
    (some { election := some 1, organization := none, action := .REFUND, payload := .obj [("refund_id", .str "a")],
            reason := "duplicate", requestedBy := 5, expiresAt := 100 })

/-- Who may decide requests. -/
def approver (pk : ℕ) : User := ⟨pk, "approver", fun _ _ => true, fun _ => false⟩

/-- An approval and a rejection. -/
def bothDecide : ℕ → ApprovalsPost
  | 0 => { approval := 1, user := approver 6, decision := "approve", now := 5 }
  | _ => { approval := 1, user := approver 7, decision := "reject", now := 5 }

def refunds (_ : ℕ) : Executor := refundExecutor .plain (.ok "g") false fun _ => 5

/-- The refund is executed, and the request rejected afterwards. -/
theorem not_decided_once : ¬ ∀ (E : Env) (posts : ℕ → ApprovalsPost) (execs : ℕ → Executor) (db₀ : Database) (pk : ℕ)
    (s s' : State Row Note), (∀ t, Leaves (execs t)) → (∃ row, db₀.row (.approval pk) = some row) →
    Run Any (.init db₀ fun t => approvals E (execs t) (posts t) fun _ => .halt) s → Run Any s s' → DecidedOnce pk s s' := by
  intro h
  have hend : (replay (.init refundAsked fun t => approvals .plain (refunds t) (bothDecide t) fun _ => .halt)
      ([1] ++ List.replicate 25 0)).bind (fun s => (replay s (List.replicate 3 1)).map fun s' =>
        (statusOf 1 s.db, statusOf 1 s'.db)) = some (some .EXECUTED, some .REJECTED) := by
    decide +kernel
  obtain ⟨s, hs, hend⟩ := Option.bind_eq_some_iff.mp hend
  obtain ⟨s', hs', hend⟩ := Option.map_eq_some_iff.mp hend
  rw [Prod.mk.injEq] at hend
  have hdecided := h .plain bothDecide refunds refundAsked 1 s s' (fun _ => refundExecutor_leaves _ _ _) ⟨_, rfl⟩
    (.of_replay _ .refl hs) (.of_replay _ .refl hs')
  have hstays := hdecided.final .EXECUTED rfl hend.1
  rw [hend.2] at hstays
  cases hstays

/-- `OneDecision`, to be computed for the first `n` threads. -/
def oneDecision (n pk : ℕ) (s : State Row Note) (t : ℕ) (s' : State Row Note) : Bool :=
  statusOf pk s'.db = statusOf pk s.db ||
    (List.range n).all fun u => u = t || (phaseOf pk (s.thr u).log).all fun
      | .deciding x => x ≠ .APPROVED && statusOf pk s'.db = some x
      | _ => true

theorem oneDecision_sound {n pk : ℕ} (s : State Row Note) (t : ℕ) (s' : State Row Note) (hn : Silent n s)
    (h : oneDecision n pk s t s' = true) : OneDecision pk s t s' := by
  intro u x hu _ hphase hchanged
  unfold oneDecision at h
  rw [Bool.or_eq_true, decide_eq_true_eq, List.all_eq_true] at h
  rcases h with h | h
  · exact absurd h hchanged
  by_cases hlt : u < n
  · have hcheck := h u (List.mem_range.mpr hlt)
    rw [hphase, Option.all_some] at hcheck
    simpa [hu] using hcheck
  · rw [hn u (by omega)] at hphase
    cases hphase

theorem decided_once_inTurn : ∃ s s',
    replayIf 2 (oneDecision 2 1) (.init refundAsked fun t => approvals .plain (refunds t) (bothDecide t) fun _ => .halt)
      (List.replicate 25 0) = some s ∧ replayIf 2 (oneDecision 2 1) s (List.replicate 4 0 ++ [1]) = some s' ∧
      statusOf 1 s.db = some .EXECUTED ∧ (s'.thr 0).prog = .halt ∧ (s'.thr 1).prog = .halt ∧ DecidedOnce 1 s s' := by
  have hend : (replayIf 2 (oneDecision 2 1)
      (.init refundAsked fun t => approvals .plain (refunds t) (bothDecide t) fun _ => .halt) (List.replicate 25 0)).bind
      (fun s => (replayIf 2 (oneDecision 2 1) s (List.replicate 4 0 ++ [1])).map fun s' =>
        (statusOf 1 s.db, (s'.thr 0).prog.ended, (s'.thr 1).prog.ended)) = some (some .EXECUTED, true, true) := by
    decide +kernel
  obtain ⟨s, hs, hend⟩ := Option.bind_eq_some_iff.mp hend
  obtain ⟨s', hs', hend⟩ := Option.map_eq_some_iff.mp hend
  rw [Prod.mk.injEq, Prod.mk.injEq] at hend
  have hsilent : Silent 2 (State.init refundAsked fun t => approvals .plain (refunds t) (bothDecide t) fun _ => .halt) :=
    fun _ _ => rfl
  exact ⟨s, s', hs, hs', hend.1, Prog.ended_iff.mp hend.2.1, Prog.ended_iff.mp hend.2.2,
    decided_once (fun _ => refundExecutor_leaves _ _ _) ⟨_, rfl⟩ (Run.of_replayIf oneDecision_sound _ hsilent .refl hs)
      (Run.of_replayIf oneDecision_sound _ (hsilent.replayIf _ hs) .refl hs')⟩

end Integrity
end FlexyVotes
