/-
# Tallying

`run_tally` as a transaction program. What the count itself makes of the
ballots is a parameter, `Counting`; the program is about which ballots are
read, which rows are written and when.
-/
import FlexyVotes.Elections.Lifecycle

namespace FlexyVotes
namespace Results

open Transactions Audit Configuration Lifecycle

/-- What `compute_tally` returns, and the fields of it a result keeps. -/
structure Tally where
  data : List (String × Json)
  bulletinRoot : String
  ballotsCounted : ℕ
  eligibleVoters : ℕ
  votesCast : ℕ

/-- The counts: of the ballots of an institutional election under its private
key, and of the paid votes of another; and how a recount differs from the
official result, or nothing where comparing them raises. -/
structure Counting where
  institutional : Database → ℕ → String → List (String × BallotRow) → Tally
  paid : Database → ℕ → Tally
  differences : Json → Json → Option (List Json)

def VOLATILE_KEYS : List String := ["generated_at"]

/-- `result_hash`. -/
def resultHash (E : Env) (data : List (String × Json)) : String :=
  E.sha256 (Json.obj (data.filter fun kv => kv.1 ∉ VOLATILE_KEYS)).canonicalJson

/-! ### The private key -/

/-- The first `n` submitted shares; `None` among them is no share. -/
def sharesForTally (n : ℕ) (shares : List (Option String)) : Option (List String) :=
  (shares.take n).mapM id

/-- `private_key_for_tally`. -/
def privateKeyForTally (E : Env) (db : Database) (e : ℕ) : Except Failure String :=
  match db.row (.ballotKey e) with
  | none => .error (.keyCustody "This election has no ballot key.")
  | some key =>
    let checked (privateRaw : String) : Except Failure String :=
      if E.publicOf privateRaw = key.publicKey then .ok privateRaw
      else .error (.keyCustody "Reconstructed key does not match the election public key.")
    match key.custody with
    | .SYSTEM => checked (key.wrappedPrivateKey.getD "")
    | .TRUSTEES =>
      let shares := ((trusteesOf db e).filter fun t => t.2.submittedAt.isSome).map (·.2.submittedShare)
      if shares.length < key.threshold then
        .error (.keyCustody (toString key.threshold ++ " trustee key shares are required; " ++
          toString shares.length ++ " submitted."))
      else
        match sharesForTally key.threshold shares with
        | none => .error (.crash "AttributeError")
        | some shares => checked (E.combineShares shares)

/-- The ballots of an election, by tracker. -/
def ballotsOf (db : Database) (e : ℕ) : List (String × BallotRow) :=
  (db.collect fun
    | .ballot u => fun b => if b.election = e then some (u, b) else none
    | _ => fun _ => none).insertionSort fun a b => a.2.tracker ≤ b.2.tracker

/-! ### Tallying -/

/-- One call of `run_tally`. -/
structure TallyRequest where
  event : ℕ
  actor : Option User := none
  request : Option Request := none
  kind : ResultKind := .OFFICIAL
  system : Bool := false
  /-- The primary key the result will get. -/
  resultId : ℕ
  now : ℕ → Time

def TallyRequest.start (q : TallyRequest) : TransitionRequest where
  event := q.event
  action := "start_tally"
  actor := q.actor
  request := q.request
  system := q.system
  reason := "Tally started"
  now := q.now

/-- A result of the kind that awaits review. -/
def pendingOf (e : ℕ) (kind : ResultKind) : (k : Key) → Row k → Bool
  | .result _ => fun r => r.election = e && r.kind = kind && r.status = .PENDING_REVIEW
  | _ => fun _ => false

def supersede : (k : Key) → Row k → Row k
  | .result _ => fun r => { r with status := .SUPERSEDED }
  | _ => id

/-- The result as it is recorded. -/
def TallyRequest.row (E : Env) (q : TallyRequest) (tally : Tally) : ResultRow where
  election := q.event
  kind := q.kind
  status := if q.kind = .OFFICIAL then .PENDING_REVIEW else .INFORMATIONAL
  data := .obj tally.data
  resultHash := resultHash E tally.data
  bulletinRoot := tally.bulletinRoot
  ballotsCounted := tally.ballotsCounted
  eligibleVoters := tally.eligibleVoters
  votesCast := tally.votesCast
  talliedBy := q.actor.map (·.pk)
  talliedAt := q.now 4

def ResultKind.display : ResultKind → String
  | .OFFICIAL => "Official tally"
  | .RECOUNT => "Recount"
  | .INDEPENDENT => "Independent (auditor) recount"

def TallyRequest.entry (E : Env) (q : TallyRequest) (ev : EventRow) (tally : Tally) : Entry where
  eventType := "RESULTS_TALLIED"
  request := q.request
  actor := q.actor
  event := some (q.event, ev.organization)
  targetType := "elections.ElectionResult"
  targetId := toString q.resultId
  summary := ResultKind.display q.kind ++ " computed"
  metadata := .obj [("result_hash", .str (resultHash E tally.data)), ("ballots", .nat tally.ballotsCounted)]
  createdAt := q.now 5

/-- A trustee's share of the election. -/
def shareOf (e : ℕ) : (k : Key) → Row k → Bool
  | .trusteeShare _ => fun t => t.election = e && t.submittedShare.isSome
  | _ => fun _ => false

def wipe : (k : Key) → Row k → Row k
  | .trusteeShare _ => fun t => { t with submittedShare := none }
  | _ => id

/-- `wipe_submitted_shares`. -/
def wipeSubmittedShares (e : ℕ) (k : Program) : Program := .updateWhere (shareOf e) wipe (.commit k)

/-- The result is recorded, and an official one supersedes the pending one. -/
def recordResult (E : Env) (q : TallyRequest) (ev : EventRow) (tally : Tally)
    (ballots : List (String × BallotRow)) (k : Except Failure ResultRow → Program) : Program :=
  let write : Program :=
    .insertOr (.result q.resultId) (q.row E tally) (.rollback (k (.error (.crash "IntegrityError")))) <|
    record E (q.entry E ev tally) (.rollback (k (.error (.crash "DatabaseError")))) <|
    .commit <|
    .note (.tallied q.event q.resultId (ballots.map (·.1))) <|
    if ev.isInstitutional ∧ q.kind = .OFFICIAL then wipeSubmittedShares q.event (k (.ok (q.row E tally)))
    else k (.ok (q.row E tally))
  if q.kind = .OFFICIAL then .updateWhere (pendingOf q.event .OFFICIAL) supersede write else write

/-- `compute_tally`, then the result. -/
def tallyNow (E : Env) (T : Counting) (q : TallyRequest) (ev : EventRow) (k : Except Failure ResultRow → Program) :
    Program :=
  if ev.isInstitutional then
    .read fun db =>
      match privateKeyForTally E db q.event with
      | .error failure => k (.error failure)
      | .ok key =>
        .read fun db =>
          let ballots := ballotsOf db q.event
          .read fun db => recordResult E q ev (T.institutional db q.event key ballots) ballots k
  else .read fun db => recordResult E q ev (T.paid db q.event) [] k

/-- The election, read again after a transition of it. -/
def refreshed (e : ℕ) (gone : Program) (k : EventRow → Program) : Program :=
  .read fun db =>
    match db.row (.event e) with
    | none => gone
    | some ev => k ev

def notClosed : Failure := .results "Results can only be tallied after voting has closed."

/-- `run_tally` of an event as its caller has read it. -/
def runTally (E : Env) (T : Counting) (q : TallyRequest) (ev : EventRow) (k : Except Failure ResultRow → Program) :
    Program :=
  if q.kind ≠ .OFFICIAL then tallyNow E T q ev k
  else if !q.system && !permitted q.actor "results.tally" q.event then k (.error .permission)
  else if ev.status = .CLOSED then
    transition E q.start fun
      | .error failure => k (.error failure)
      | .ok _ =>
        refreshed q.event (k (.error (.crash "Event.DoesNotExist"))) fun ev =>
          if ev.status ≠ .TALLYING then k (.error notClosed) else tallyNow E T q ev k
  else if ev.status ≠ .TALLYING then k (.error notClosed)
  else tallyNow E T q ev k

/-- The `tally` of `results_action`: the event, then `run_tally`. -/
def resultsTally (E : Env) (T : Counting) (q : TallyRequest) : Program :=
  refreshed q.event .halt fun ev =>
    runTally E T { q with system := false, kind := .OFFICIAL } ev fun _ => .halt

/-- `tasks.auto_tally`; trustees have to submit their shares first. -/
def autoTally (E : Env) (T : Counting) (q : TallyRequest) : Program :=
  refreshed q.event .halt fun ev =>
    if ev.status ≠ .CLOSED then .halt
    else if ev.isInstitutional ∧ ev.keyCustody = .TRUSTEES then .halt
    else runTally E T { q with system := true, kind := .OFFICIAL, actor := none } ev fun _ => .halt

/-! ### What a tally commits -/

def isResult : Key → Bool
  | .result _ => true
  | _ => false

def isShare : Key → Bool
  | .trusteeShare _ => true
  | _ => false

/-- The results a tally supersedes. -/
def TallyRequest.supersedes (q : TallyRequest) : (k : Key) → Row k → Bool :=
  fun k r => q.kind = .OFFICIAL && pendingOf q.event .OFFICIAL k r

theorem supersede_not_pending (q : TallyRequest) (k : Key) (r : Row k) (h : q.supersedes k r = true) :
    q.supersedes k (supersede k r) = false := by
  cases k <;> simp_all [TallyRequest.supersedes, pendingOf, supersede]

theorem isResult_of_supersedes (q : TallyRequest) (k : Key) (r : Row k) (h : q.supersedes k r = true) :
    isResult k = true := by
  cases k <;> simp_all [TallyRequest.supersedes, pendingOf, isResult]

/-- **What the commit of a tally does**: there is one new result, none goes, and
where nobody else records results (`alone`), every pending one is superseded. -/
structure TallyDone (E : Env) (q : TallyRequest) (tally : Tally) (alone : Prop) (db db' : Database) :
    Prop where
  writes : ∃ w u own, AuditOnly w ∧ Db.Only isResult u ∧
    (db.apply u).row (.result q.resultId) = none ∧
    (alone → Updated q.supersedes supersede own u db) ∧
    db' = db.apply (w ++ ⟨.result q.resultId, some (q.row E tally)⟩ :: u)
  kept : ∀ pk, (db.row (.result pk)).isSome = true → (db'.row (.result pk)).isSome = true

/-- A tally leaves all rows but results and the audit log. -/
theorem TallyDone.row {E : Env} {q : TallyRequest} {tally : Tally} {alone : Prop} {db db' : Database}
    (hd : TallyDone E q tally alone db db') {k : Key} (hk : isAudit k = false) (hr : isResult k = false) :
    db'.row k = db.row k := by
  obtain ⟨w, u, own, hw, hu, -, -, rfl⟩ := hd.writes
  have hne : k ≠ .result q.resultId := fun he => by
    rw [he] at hr
    cases hr
  rw [Db.apply_append, hw.apply_row _ hk, Db.apply_cons, Db.set_row_ne _ _ hne, hu.apply_row _ hr]

section Ok

variable {S : Spec Row Note} (hS : S.Sound) {E : Env} {T : Counting} {q : TallyRequest}
  {k : Except Failure ResultRow → Program} {log : List Note}

/-- What a tally has to show of its commits: of the result, and of the
trustees' shares it wipes after that. `R` says what it knows of the event and
the ballots it counted. -/
structure TallyCommits (S : Spec Row Note) (E : Env) (q : TallyRequest)
    (k : Except Failure ResultRow → Program) (R : EventRow → List String → Database → Prop) (log : List Note) :
    Prop where
  done : ∀ own log' ev ballots tally db db', S.inv db → R ev ballots db →
    TallyDone E q tally (NoneBegins S q.supersedes [] log) db db' →
    .tallied q.event q.resultId ballots :: log <:+ log' →
    S.inv db' ∧ S.guar own log' db db' ∧ S.fact (.tallied q.event q.resultId ballots) db'
  wiped : Quiet S isShare
  after : ∀ ballots tally db, S.inv db →
    Ok S (k (.ok (q.row E tally))) db [] [] (.tallied q.event q.resultId ballots :: log)

variable {Q : EventRow → Database → Prop} {R : EventRow → List String → Database → Prop}
  (hk : FailsOk S k log) (hc : TallyCommits S E q k R log)
  (hQ : ∀ own ev db db', Stable S own log db db' → Q ev db → Q ev db')
  (hR : ∀ own ev bs db db', Stable S own log db db' → R ev bs db → R ev bs db')
  (hcount : ∀ ev db, S.inv db → Q ev db → R ev ((ballotsOf db q.event).map (·.1)) db)
  (hpaid : ∀ ev db, ev.isInstitutional = false → Q ev db → R ev [] db)

include hS hc in
theorem wipe_ok {ballots : List String} {tally : Tally} {db : Database} :
    Ok S (wipeSubmittedShares q.event (k (.ok (q.row E tally)))) db [] []
      (.tallied q.event q.resultId ballots :: log) := by
  refine GoesOn.updateWhere (p := isShare) hS (fun k r h => by cases k <;> simp_all [shareOf, isShare]) ?_
  intro db₁ own w _ _ hw
  rw [List.append_nil]
  exact hc.wiped.commit .trivial hw trivial fun db hinv _ => hc.after ballots tally db hinv

include hS hk hc hR in
theorem recordResult_ok {ev : EventRow} {tally : Tally} {ballots : List (String × BallotRow)}
    {db : Database} (hr : R ev (ballots.map (·.1)) db) (hinv : S.inv db) :
    Ok S (recordResult E q ev tally ballots k) db [] [] log := by
  -- the result beside the updates `u`, and what is left after its commit
  have hwrite : ∀ db₁ own u, Stable S [] log db db₁ → Db.Only isResult u →
      PartlyUpdated q.supersedes supersede own u db₁ →
      (NoneBegins S q.supersedes [] log → Updated q.supersedes supersede own u db₁) →
      Ok S (.insertOr (.result q.resultId) (q.row E tally) (.rollback (k (.error (.crash "IntegrityError")))) <|
        record E (q.entry E ev tally) (.rollback (k (.error (.crash "DatabaseError")))) <|
        .commit <| .note (.tallied q.event q.resultId (ballots.map (·.1))) <|
        if ev.isInstitutional ∧ q.kind = .OFFICIAL then wipeSubmittedShares q.event (k (.ok (q.row E tally)))
        else k (.ok (q.row E tally))) db₁ own u log := by
    intro db₁ own u h₁ hu hpart hup
    refine Ok.insertOr (fun db₂ h₂ hnew => ?_) fun _ _ => hk.rollback
    refine record_ok hS (hk.exits.to _) fun db₃ own₃ w h₃ hsub hw db₄ h₄ => ?_
    have hst := h₃.trans hS (h₄.sub hS hsub)
    have hout : ∀ k ∈ own, k ∈ Key.result q.resultId :: own := fun k hk => List.mem_cons_of_mem _ hk
    have hnew' : (db₄.apply u).row (.result q.resultId) = none := by
      rw [Db.apply_row_congr (hst.held _ (by simp)) u]
      exact hnew
    have hkept : ∀ pk, (db₄.row (.result pk)).isSome = true →
        ((db₄.apply (w ++ ⟨.result q.resultId, some (q.row E tally)⟩ :: u)).row (.result pk)).isSome = true := by
      intro pk hpk
      rw [Db.apply_append, hw.apply_row _ rfl, Db.apply_cons]
      by_cases hsame : pk = q.resultId
      · subst hsame
        rw [Db.set_row_self]
        rfl
      · rw [Db.set_row_ne _ _ (by simpa using hsame)]
        exact (hpart.stable (fun _ h => h) (h₂.trans hS (hst.sub hS hout))).isSome hpk
    have hd : TallyDone E q tally (NoneBegins S q.supersedes [] log) db₄
        (db₄.apply (w ++ ⟨.result q.resultId, some (q.row E tally)⟩ :: u)) :=
      ⟨⟨w, u, own, hw, hu, hnew', fun hno =>
        (hup hno).stable hno (by simp) (h₂.trans hS (hst.sub hS hout)), rfl⟩, hkept⟩
    have hr' := hR _ _ _ _ _ (h₁.trans hS ((h₂.trans hS (hst.sub hS hout)).sub hS (by simp))) hr
    have hlog : .tallied q.event q.resultId (ballots.map (·.1)) :: log <:+
        ((if ev.isInstitutional ∧ q.kind = .OFFICIAL then wipeSubmittedShares q.event (k (.ok (q.row E tally)))
          else k (.ok (q.row E tally))).settle (.tallied q.event q.resultId (ballots.map (·.1)) :: log)).2 :=
      Prog.settle_suffix _ _
    obtain ⟨h1, h2, h3⟩ := hc.done own₃ _ ev _ tally db₄ _ h₄.inv hr' hd hlog
    refine ⟨h1, h2, h3, ?_⟩
    split
    · exact wipe_ok hS hc
    · exact hc.after _ _ _ h1
  unfold recordResult
  dsimp only
  by_cases hkind : q.kind = .OFFICIAL
  · have hq : q.supersedes = pendingOf q.event .OFFICIAL := by
      funext k r
      simp [TallyRequest.supersedes, hkind]
    rw [if_pos hkind, ← hq]
    refine Ok.updateWhere_if hS (supersede_not_pending q) fun db₁ own u h₁ _ hu hup =>
      hwrite db₁ own u h₁ (fun e he => ?_) hu hup
    obtain ⟨r, -, hr⟩ := hu.meets e he
    exact isResult_of_supersedes q e.1 r hr
  · rw [if_neg hkind]
    refine hwrite db [] [] (.refl hS hinv) .nil ⟨by simp, by simp, fun _ => Or.inl rfl⟩ fun _ =>
      ⟨by simp, by simp, fun k => ?_⟩
    rw [Db.apply_nil]
    cases hrow : db.row k <;> simp [updated, TallyRequest.supersedes, hkind]

include hS hk hc hQ hR hcount hpaid in
theorem tallyNow_ok {ev : EventRow} {db : Database} (hq : Q ev db) :
    Ok S (tallyNow E T q ev k) db [] [] log := by
  unfold tallyNow
  split
  · intro db₁ h₁
    dsimp only
    split
    · exact hk _ _
    · intro db₂ h₂ db₃ h₃
      refine recordResult_ok hS hk hc hR (hR _ _ _ _ _ h₃ (hcount ev db₂ h₂.inv ?_)) h₃.inv
      exact hQ _ _ _ _ h₂ (hQ _ _ _ _ h₁ hq)
  · rename_i hinst
    intro db₁ h₁
    exact recordResult_ok hS hk hc hR (hpaid ev db₁ (by simpa using hinst) (hQ _ _ _ _ h₁ hq)) h₁.inv

/-- The event as it is read again. -/
theorem refreshed_ok {e : ℕ} {gone : Program} {k : EventRow → Program} {db : Database}
    (hgone : ∀ db', Ok S gone db' [] [] log)
    (hev : ∀ db' ev, Stable S [] log db db' → db'.row (.event e) = some ev → Ok S (k ev) db' [] [] log) :
    Ok S (refreshed e gone k) db [] [] log := by
  intro db₁ h₁
  dsimp only
  rw [Db.apply_nil]
  split
  · exact hgone db₁
  · rename_i ev hrow
    exact hev db₁ ev h₁ hrow

include hS hk hc hQ hR hcount hpaid in
/-- **Nothing comes of a tally but its commits**: the start of the tally, the
result, and the shares wiped. `Q` holds of an event that is tallied; a recount
does not ask for its status. -/
theorem runTally_ok
    (hstart : ∀ own log' a ev ev' db db', S.inv db → .event q.event ∈ own → log <:+ log' →
      TransitionDone q.start a ev ev' db db' → S.inv db' ∧ S.guar own log' db db')
    (hev : ∀ ev db, S.inv db → db.row (.event q.event) = some ev → ev.status = .TALLYING → Q ev db)
    {ev : EventRow} {db : Database} (hinv : S.inv db)
    (hfirst : q.kind ≠ .OFFICIAL ∨ ev.status = .TALLYING → Q ev db) :
    Ok S (runTally E T q ev k) db [] [] log := by
  unfold runTally
  split
  · rename_i hkind
    exact tallyNow_ok hS hk hc hQ hR hcount hpaid (hfirst (Or.inl hkind))
  · split
    · exact hk _ _
    · split
      · refine transition_ok hS (fun db e => hk db e) (fun own a ev ev' db db' hinv hown hd => ?_) hinv
        have hlog : log <:+ ((refreshed q.event (k (.error (.crash "Event.DoesNotExist"))) fun ev =>
            if ev.status ≠ .TALLYING then k (.error notClosed) else tallyNow E T q ev k).settle log).2 :=
          Prog.settle_suffix _ _
        obtain ⟨h1, h2⟩ := hstart own _ a ev ev' db db' hinv hown hlog hd
        refine ⟨h1, h2, refreshed_ok (fun db' => hk db' _) fun db₁ ev₁ h₁ hrow => ?_⟩
        split
        · exact hk _ _
        · rename_i hst
          exact tallyNow_ok hS hk hc hQ hR hcount hpaid (hev ev₁ db₁ h₁.inv hrow (not_not.mp hst))
      · split
        · exact hk _ _
        · rename_i hst
          exact tallyNow_ok hS hk hc hQ hR hcount hpaid (hfirst (Or.inr (not_not.mp hst)))

end Ok

end Results
end FlexyVotes
