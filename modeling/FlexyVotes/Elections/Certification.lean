/-
# Review and certification

What happens to a result after the count: `approve_and_certify` signs and
certifies it, `reject_result` sends it back, `revoke_certification` takes a
certification away again, and `recount` counts once more beside it.

`CertifyDone`, `RejectDone` and `RevokeDone` say once what the commit of each
does; a recount commits what a tally does (`Results.TallyDone`) and a row of
its own.

Key definitions: `approveAndCertify`, `rejectResult`, `revokeBody`, `recount`.
Key theorems: `approveAndCertify_ok`, `rejectResult_ok`, `revokeBody_ok`, `recount_ok`.
-/
import FlexyVotes.Elections.Results

namespace FlexyVotes
namespace Results

open Transactions Audit Configuration Lifecycle

/-! ### Certifying -/

/-- One call of `approve_and_certify` for the result `result`. -/
structure CertifyRequest where
  result : ℕ
  reviewer : User
  notes : String := ""
  request : Option Request := none
  /-- The primary key the certification will get. -/
  certificationId : ℕ
  now : ℕ → Time

/-- `lifecycle.transition(event, 'certify', …)`. -/
def CertifyRequest.transition (q : CertifyRequest) (r : ResultRow) : TransitionRequest where
  event := r.election
  action := "certify"
  actor := some q.reviewer
  request := q.request
  reason := if q.notes = "" then "Results certified" else q.notes
  extraEffect := fun ev => { ev with certifiedAt := some (q.now 4) }
  now := q.now

/-- `_latest_snapshot_hash`. -/
def latestSnapshotHash (db : Database) (e : ℕ) : String :=
  ((db.row (.configSnapshot e (latestVersion db e))).map (·.configHash)).getD ""

/-- `event.organization.name`, if there is an organization. -/
def organizationName (db : Database) (ev : EventRow) : String :=
  ((ev.organization.bind fun o => db.row (.organization o)).map (·.name)).getD ""

/-- The fingerprint of `event.ballot_key`, if there is one. -/
def ballotKeyFingerprint (db : Database) (e : ℕ) : String :=
  ((db.row (.ballotKey e)).map (·.fingerprint)).getD ""

/-- The document that is signed. -/
def CertifyRequest.payload (E : Env) (q : CertifyRequest) (r : ResultRow) (ev : EventRow)
    (organization configHash fingerprint : String) : List (String × Json) :=
  [("platform", .str "FlexyVotes"), ("election_id", .nat r.election), ("election_title", .str ev.title),
   ("organization", .str organization), ("result_hash", .str r.resultHash),
   ("bulletin_root", .str r.bulletinRoot), ("ballots_counted", .nat r.ballotsCounted),
   ("votes_cast", .nat r.votesCast), ("eligible_voters", .nat r.eligibleVoters),
   ("config_hash", .str configHash), ("ballot_key_fingerprint", .str fingerprint),
   ("certified_at", .str (E.isoformat (q.now 4)))]

/-- The result as it is saved. -/
def CertifyRequest.approve (q : CertifyRequest) (r : ResultRow) : ResultRow :=
  { r with status := .APPROVED, reviewedBy := some q.reviewer.pk, reviewedAt := some (q.now 4),
           reviewNotes := q.notes }

/-- The certification as it is created. -/
def CertifyRequest.row (E : Env) (q : CertifyRequest) (r : ResultRow) (payload : List (String × Json)) :
    CertificationRow :=
  let encoded := (Json.obj payload).canonicalJson
  { election := r.election, result := q.result, payload := .obj payload, payloadHash := E.sha256 encoded,
    signature := E.sign encoded, publicKey := E.signingKey, keyId := E.keyFingerprint E.signingKey,
    talliedBy := r.talliedBy, certifiedBy := some q.reviewer.pk, certifiedAt := q.now 4 }

def CertifyRequest.entry (E : Env) (q : CertifyRequest) (r : ResultRow) (ev : EventRow)
    (payload : List (String × Json)) : Entry where
  eventType := "RESULTS_CERTIFIED"
  request := q.request
  actor := some q.reviewer
  event := some (r.election, ev.organization)
  targetType := "elections.ResultCertification"
  targetId := toString q.certificationId
  summary := "Results approved and certified"
  metadata := .obj [("result_hash", .str r.resultHash),
    ("signature", .str (E.sign (Json.obj payload).canonicalJson))]
  createdAt := q.now 5

/-- The transaction of `approve_and_certify`. -/
def certifyNow (E : Env) (q : CertifyRequest) (r : ResultRow) (ev : EventRow) (payload : List (String × Json))
    (k : Except Failure ℕ → Program) : Program :=
  .update (.result q.result) (fun _ => true) q.approve fun
    | false => .rollback (k (.error (.crash "DatabaseError")))
    | true =>
      .insertOr (.certification q.certificationId) (q.row E r payload)
        (.rollback (k (.error (.crash "IntegrityError")))) <|
      transitionBody E (q.transition r) (fun failure => .rollback (k (.error failure))) fun _ =>
      record E (q.entry E r ev payload) (.rollback (k (.error (.crash "DatabaseError")))) <|
      .commit (k (.ok q.certificationId))

/-- `approve_and_certify` of a result as its caller has read it. -/
def approveAndCertify (E : Env) (q : CertifyRequest) (r : ResultRow) (k : Except Failure ℕ → Program) :
    Program :=
  refreshed r.election (k (.error (.crash "Event.DoesNotExist"))) fun ev =>
    if !permitted (some q.reviewer) "results.approve" r.election then k (.error .permission)
    else if !permitted (some q.reviewer) "results.certify" r.election then k (.error .permission)
    else if r.kind ≠ .OFFICIAL ∨ r.status ≠ .PENDING_REVIEW then
      k (.error (.results "Only a pending official result can be certified."))
    else if ev.status ≠ .TALLYING then
      k (.error (.results "The election is not awaiting certification."))
    else if ev.dualApprovalRequired = true ∧ r.talliedBy = some q.reviewer.pk then
      k (.error (.results ("Separation of duties: results must be certified by someone other than the " ++
        "person who tallied them.")))
    else
      .read fun db₁ => .read fun db₂ => .read fun db₃ =>
        let payload := q.payload E r ev (organizationName db₁ ev) (latestSnapshotHash db₂ r.election)
          (ballotKeyFingerprint db₃ r.election)
        certifyNow E q r ev payload k

/-! ### Rejecting -/

/-- One call of `reject_result` for the result `result`. -/
structure RejectRequest where
  result : ℕ
  reviewer : User
  notes : String
  request : Option Request := none
  now : ℕ → Time

/-- The result as it is saved. -/
def RejectRequest.reject (q : RejectRequest) (r : ResultRow) : ResultRow :=
  { r with status := .REJECTED, reviewedBy := some q.reviewer.pk, reviewedAt := some (q.now 0),
           reviewNotes := q.notes }

def RejectRequest.entry (q : RejectRequest) (r : ResultRow) (ev : EventRow) : Entry where
  eventType := "RESULTS_REJECTED"
  request := q.request
  actor := some q.reviewer
  event := some (r.election, ev.organization)
  targetType := "elections.ElectionResult"
  targetId := toString q.result
  summary := "Tallied results rejected"
  reason := q.notes
  createdAt := q.now 1

/-- `reject_result` of a result as its caller has read it. -/
def rejectResult (E : Env) (q : RejectRequest) (r : ResultRow) (k : Except Failure Unit → Program) : Program :=
  refreshed r.election (k (.error (.crash "Event.DoesNotExist"))) fun ev =>
    if !permitted (some q.reviewer) "results.approve" r.election then k (.error .permission)
    else if r.status ≠ .PENDING_REVIEW then
      k (.error (.results "Only pending results can be rejected."))
    else
      .update (.result q.result) (fun _ => true) q.reject fun
        | false => .rollback (k (.error (.crash "DatabaseError")))
        | true =>
          .commit <|
          recordNow E (q.entry r ev) (k (.error (.crash "DatabaseError"))) (k (.ok ()))

/-! ### Revoking -/

/-- `current_certification`: the latest that is not revoked. -/
def currentCertification (db : Database) (e : ℕ) : Option (ℕ × CertificationRow) :=
  ((db.collect fun
    | .certification pk => fun c => if c.election = e ∧ c.revokedAt = none then some (pk, c) else none
    | _ => fun _ => none).insertionSort fun a b => b.2.certifiedAt ≤ a.2.certifiedAt).head?

/-- One call of `revoke_certification`. -/
structure RevokeRequest where
  event : ℕ
  actor : Option User
  reason : String
  now : ℕ → Time

/-- `lifecycle.transition(event, 'decertify', …)`. -/
def RevokeRequest.transition (q : RevokeRequest) : TransitionRequest where
  event := q.event
  action := "decertify"
  actor := q.actor
  system := true
  reason := q.reason
  now := q.now

def RevokeRequest.revoke (q : RevokeRequest) (c : CertificationRow) : CertificationRow :=
  { c with revokedAt := some (q.now 4), revokedReason := q.reason }

def RevokeRequest.entry (q : RevokeRequest) (ev : EventRow) (pk : ℕ) : Entry where
  eventType := "RESULTS_DECERTIFIED"
  actor := q.actor
  event := some (q.event, ev.organization)
  targetType := "elections.ResultCertification"
  targetId := toString pk
  summary := "Result certification revoked"
  reason := q.reason
  createdAt := q.now 5

/-- `revoke_certification` of an event as its caller has read it, inside the
caller's transaction. -/
def revokeBody (E : Env) (q : RevokeRequest) (ev : EventRow) (fail : Failure → Program) (k : Program) :
    Program :=
  .read fun db =>
    match currentCertification db q.event with
    | none => fail (.results "There is no current certification to revoke.")
    | some (pk, c) =>
      .update (.certification pk) (fun _ => true) q.revoke fun _ =>
      .update (.result c.result) (fun _ => true) (fun r => { r with status := .SUPERSEDED }) fun _ =>
      transitionBody E q.transition fail fun _ =>
      record E (q.entry ev pk) (fail (.crash "DatabaseError")) k

/-- `revoke_certification`. -/
def revokeCertification (E : Env) (q : RevokeRequest) (ev : EventRow) (k : Except Failure Unit → Program) :
    Program :=
  revokeBody E q ev (fun failure => .rollback (k (.error failure))) (.commit (k (.ok ())))

/-! ### Recounting -/

/-- One call of `recount`. -/
structure RecountRequest where
  event : ℕ
  actor : Option User
  independent : Bool := false
  reason : String := ""
  request : Option Request := none
  /-- The primary keys the result and the recount will get. -/
  resultId : ℕ
  recountId : ℕ
  now : ℕ → Time

/-- The `run_tally` of a recount. -/
def RecountRequest.tally (q : RecountRequest) : TallyRequest where
  event := q.event
  actor := q.actor
  request := q.request
  kind := if q.independent then .INDEPENDENT else .RECOUNT
  resultId := q.resultId
  now := q.now

def RecountRequest.display (q : RecountRequest) : String :=
  if q.independent then "Independent recount" else "Manual recount"

/-- The official result that stands, by the latest of those not superseded. -/
def lastOfficial (db : Database) (e : ℕ) : Option (ℕ × ResultRow) :=
  ((db.collect fun
    | .result pk => fun r =>
      if r.election = e ∧ r.kind = .OFFICIAL ∧ r.status ≠ .SUPERSEDED then some (pk, r) else none
    | _ => fun _ => none).insertionSort fun a b => b.2.talliedAt ≤ a.2.talliedAt).head?

/-- `matches`. -/
def sameHash (reference : Option (ℕ × ResultRow)) (r : ResultRow) : Bool :=
  reference.any fun o => o.2.resultHash = r.resultHash

/-- `_differences`, if there is a result to compare with. -/
def differencesTo (T : Counting) (reference : Option (ℕ × ResultRow)) (r : ResultRow) : Option (List Json) :=
  match reference with
  | none => some []
  | some o => T.differences o.2.data r.data

def RecountRequest.row (q : RecountRequest) (reference : Option (ℕ × ResultRow)) (r : ResultRow)
    (diffs : List Json) : RecountRow where
  election := q.event
  independent := q.independent
  reason := q.reason
  requestedBy := q.actor.map (·.pk)
  result := q.resultId
  comparedTo := reference.map (·.1)
  isMatch := reference.map fun _ => sameHash reference r
  differences := .arr diffs

def RecountRequest.entry (q : RecountRequest) (ev : EventRow) (reference : Option (ℕ × ResultRow))
    (r : ResultRow) (diffs : List Json) : Entry where
  eventType := "RESULTS_RECOUNT"
  request := q.request
  actor := q.actor
  event := some (q.event, ev.organization)
  targetType := "elections.Recount"
  targetId := toString q.recountId
  summary := q.display ++ ": " ++ (if sameHash reference r then "matches" else "DIFFERS FROM") ++
    " official result"
  metadata := .obj [("matches", .bool (sameHash reference r)), ("differences", .nat diffs.length),
    ("result_hash", .str r.resultHash)]
  reason := q.reason
  createdAt := q.now 6

/-- The count of a recount, and what comes of comparing it. -/
def recountAgainst (E : Env) (T : Counting) (q : RecountRequest) (ev : EventRow)
    (reference : Option (ℕ × ResultRow)) (k : Except Failure RecountRow → Program) : Program :=
  runTally E T q.tally ev fun
    | .error failure => k (.error failure)
    | .ok r =>
      match differencesTo T reference r with
      | none => k (.error (.crash "KeyError"))
      | some diffs =>
        .insertOr (.recount q.recountId) (q.row reference r diffs)
          (.rollback (k (.error (.crash "IntegrityError")))) <|
        .commit <|
        recordNow E (q.entry ev reference r diffs) (k (.error (.crash "DatabaseError")))
          (k (.ok (q.row reference r diffs)))

/-- `recount` of an event as its caller has read it. -/
def recount (E : Env) (T : Counting) (q : RecountRequest) (ev : EventRow)
    (k : Except Failure RecountRow → Program) : Program :=
  if !permitted q.actor "results.recount" q.event then k (.error .permission)
  else if ev.status ∉ [EventStatus.TALLYING, .CERTIFIED, .PUBLISHED, .ARCHIVED] then
    k (.error (.results "Recounts are available once tallying has started."))
  else
    .read fun db =>
      match currentCertification db q.event with
      | some (_, c) =>
        recountAgainst E T q ev ((db.row (.result c.result)).map fun r => (c.result, r)) k
      | none => .read fun db => recountAgainst E T q ev (lastOfficial db q.event) k

/-! ### What certifying commits -/

/-- **What the commit of `approve_and_certify` does**, of a result read as `r`
and an event read as `ev`. -/
structure CertifyDone (E : Env) (q : CertifyRequest) (r : ResultRow) (ev : EventRow) (db db' : Database) :
    Prop where
  pending : r.kind = .OFFICIAL ∧ r.status = .PENDING_REVIEW
  tallying : ev.status = .TALLYING
  separated : ¬(ev.dualApprovalRequired = true ∧ r.talliedBy = some q.reviewer.pk)
  new : db.row (.certification q.certificationId) = none
  writes : ∃ r₁ ev₁ ev' organization configHash fingerprint w w',
    db.row (.result q.result) = some r₁ ∧ db.row (.event r.election) = some ev₁ ∧
    Moved (q.transition r) .certify ev₁ ev' ∧ AuditOnly w ∧ Db.Only isSetup w' ∧
    db' = db.apply (w ++ ⟨.event r.election, some ev'⟩ :: (w' ++
      [⟨.certification q.certificationId,
        some (q.row E r (q.payload E r ev organization configHash fingerprint))⟩,
       ⟨.result q.result, some (q.approve r₁)⟩]))

/-- **What the commit of `reject_result` does**, of a result read as `r`. -/
structure RejectDone (q : RejectRequest) (r : ResultRow) (db db' : Database) : Prop where
  pending : r.status = .PENDING_REVIEW
  writes : ∃ r₁, db.row (.result q.result) = some r₁ ∧
    db' = db.apply [⟨.result q.result, some (q.reject r₁)⟩]

/-- A row of the results or of the certifications. -/
def isReview : Key → Bool
  | .result _ => true
  | .certification _ => true
  | _ => false

/-- A row of the recounts. -/
def isRecount : Key → Bool
  | .recount _ => true
  | _ => false

/-- What `revoke_certification` makes of the certification `pk` and of its
result. -/
structure Revoked (q : RevokeRequest) (pk pk' : ℕ) (db : Database) (u : Writes Row) : Prop where
  certification : (db.apply u).row (.certification pk) = (db.row (.certification pk)).map q.revoke
  result : (db.apply u).row (.result pk') =
    (db.row (.result pk')).map fun r => { r with status := .SUPERSEDED }
  others : ∀ k, k ≠ .certification pk → k ≠ .result pk' → (db.apply u).row k = db.row k

/-- **What `revoke_certification` does** to the database, with the rest of its
transaction still to come: it had read the certification `pk` as `c`, and both
rows are written if they are still there (`kept`). -/
structure RevokeDone (q : RevokeRequest) (pk : ℕ) (c : CertificationRow) (kept : Prop) (db : Database)
    (w : Writes Row) : Prop where
  writes : ∃ ev₁ ev' u w₁ w₂, db.row (.event q.event) = some ev₁ ∧ Moved q.transition .decertify ev₁ ev' ∧
    Db.Only isReview u ∧ (kept → Revoked q pk c.result db u) ∧ AuditOnly w₂ ∧ Db.Only isSetup w₁ ∧
    w = w₂ ++ ⟨.event q.event, some ev'⟩ :: (w₁ ++ u)

section Ok

variable {S : Spec Row Note} (hS : S.Sound) {E : Env} {log : List Note} {db : Database}

section Certify

variable {q : CertifyRequest} {r : ResultRow} {k : Except Failure ℕ → Program}
  {P : EventRow → Database → Prop} (hk : FailsOk S k log)
  (hP : ∀ own ev db db', Stable S own log db db' → P ev db → P ev db')
  (hdone : ∀ own log' ev db db', S.inv db → P ev db → .event r.election ∈ own → log <:+ log' →
    CertifyDone E q r ev db db' → S.inv db' ∧ S.guar own log' db db')
  (hafter : ∀ db, S.inv db → Ok S (k (.ok q.certificationId)) db [] [] log)

include hS hk hP hdone hafter in
theorem certifyNow_ok {ev : EventRow} {organization configHash fingerprint : String}
    (hpend : r.kind = .OFFICIAL ∧ r.status = .PENDING_REVIEW) (htally : ev.status = .TALLYING)
    (hsep : ¬(ev.dualApprovalRequired = true ∧ r.talliedBy = some q.reviewer.pk)) (hp : P ev db) :
    Ok S (certifyNow E q r ev (q.payload E r ev organization configHash fingerprint) k) db [] [] log := by
  refine Ok.update hS (fun db₁ r₁ h₁ hr₁ _ => ?_) fun _ _ _ => hk.rollback
  refine Ok.insertOr (fun db₂ h₂ hnew => ?_) fun _ _ => hk.rollback
  refine transitionBody_ok hS hk.exits ?_ h₂.inv
  intro db₃ own₃ w₁ w₂ a ev₁ ev' h₃ hsub₃ hown₃ hev hmoved hw₁ hw₂
  refine record_ok hS (hk.exits.to _) fun db₄ own₄ w₃ h₄ hsub₄ hw₃ db₅ h₅ => ?_
  have h₃₅ := h₄.trans hS (h₅.sub hS hsub₄)
  have h₂₅ := h₃.trans hS (h₃₅.sub hS hsub₃)
  have h₁₅ := h₂.trans hS (h₂₅.sub hS fun x hx => List.mem_cons_of_mem _ hx)
  have hrow : db₅.row (.result q.result) = some r₁ := by
    rw [h₁₅.held _ (by simp)]
    exact hr₁
  have hcert : db₅.row (.certification q.certificationId) = none := by
    rw [h₂₅.held _ (by simp)]
    simpa using hnew
  have hown : .event r.election ∈ own₃ := hown₃
  have hevent : db₅.row (.event r.election) = some ev₁ := by
    change (db₃.apply _).row (.event r.election) = some ev₁ at hev
    rw [h₃₅.held _ hown]
    simpa using hev
  have ha : a = .certify := hmoved.action rfl
  subst ha
  have hd : CertifyDone E q r ev db₅ (db₅.apply (w₃ ++ (w₂ ++ ⟨.event r.election, some ev'⟩ :: (w₁ ++
      [⟨.certification q.certificationId,
        some (q.row E r (q.payload E r ev organization configHash fingerprint))⟩,
       ⟨.result q.result, some (q.approve r₁)⟩])))) :=
    ⟨hpend, htally, hsep, hcert, r₁, ev₁, ev', organization, configHash, fingerprint, w₃ ++ w₂, w₁, hrow,
      hevent, hmoved, hw₃.append hw₂, hw₁, by rw [List.append_assoc]⟩
  have h₀₅ : Stable S [] log db₁ db₅ := h₁₅.sub hS (by simp)
  have hp₅ : P ev db₅ := hP _ _ _ _ (h₁.trans hS h₀₅) hp
  have hlog : log <:+ ((k (.ok q.certificationId)).settle log).2 := Prog.settle_suffix _ _
  obtain ⟨hinv, hguar⟩ := hdone own₄ _ ev db₅ _ h₅.inv hp₅ (hsub₄ _ hown) hlog hd
  exact ⟨hinv, hguar, hafter _ hinv⟩

include hS hk hP hdone hafter in
/-- **Nothing comes of `approve_and_certify` but its commit.** -/
theorem approveAndCertify_ok
    (hread : ∀ ev db', Stable S [] log db db' → db'.row (.event r.election) = some ev → P ev db') :
    Ok S (approveAndCertify E q r k) db [] [] log := by
  refine refreshed_ok (fun db' => hk db' _) fun db₁ ev h₁ hrow => ?_
  have hp := hread ev db₁ h₁ hrow
  split
  · exact hk _ _
  split
  · exact hk _ _
  split
  · exact hk _ _
  rename_i hpend
  split
  · exact hk _ _
  rename_i htally
  split
  · exact hk _ _
  rename_i hsep
  intro db₂ h₂ db₃ h₃ db₄ h₄
  have hst := h₂.trans hS (h₃.trans hS h₄)
  refine certifyNow_ok hS hk hP hdone hafter ?_ (not_not.mp htally) hsep (hP _ _ _ _ hst hp)
  simpa only [not_or, not_not] using hpend

end Certify

include hS in
/-- **Nothing comes of `reject_result` but its commit**, and an audit entry. -/
theorem rejectResult_ok {q : RejectRequest} {r : ResultRow} {k : Except Failure Unit → Program}
    (hk : FailsOk S k log) {P : Database → Prop} (hP : ∀ own db db', Stable S own log db db' → P db → P db')
    (hp : P db) (hquiet : Quiet S isAudit)
    (hdone : ∀ own log' db db', S.inv db → P db → log <:+ log' → RejectDone q r db db' →
      S.inv db' ∧ S.guar own log' db db')
    (hafter : ∀ db, S.inv db → Ok S (k (.ok ())) db [] [] log) :
    Ok S (rejectResult E q r k) db [] [] log := by
  refine refreshed_ok (fun db' => hk db' _) fun db₁ ev h₁ _ => ?_
  split
  · exact hk _ _
  split
  · exact hk _ _
  rename_i hpend
  refine Ok.update hS (fun db₂ r₂ h₂ hr₂ _ => ?_) fun _ _ _ => hk.rollback
  intro db₃ h₃
  have hrow : db₃.row (.result q.result) = some r₂ := by
    rw [h₃.held _ (by simp)]
    exact hr₂
  have h₂₃ : Stable S [] log db₂ db₃ := h₃.sub hS (by simp)
  have hp₃ : P db₃ := hP _ _ _ (h₁.trans hS (h₂.trans hS h₂₃)) hp
  have hlog : log <:+ ((recordNow E (q.entry r ev) (k (.error (.crash "DatabaseError"))) (k (.ok ()))).settle
      log).2 := Prog.settle_suffix _ _
  obtain ⟨hinv, hguar⟩ := hdone _ _ db₃ _ h₃.inv hp₃ hlog ⟨not_not.mp hpend, r₂, hrow, rfl⟩
  refine ⟨hinv, hguar, recordNow_ok (P := fun _ => True) hS hquiet .trivial trivial (fun _ => hk _ _)
    fun db hinv _ => hafter db hinv⟩

include hS in
/-- **Nothing comes of `revoke_certification` but what it writes.** `P` is what
is known of the certification it reads. -/
theorem revokeBody_ok {q : RevokeRequest} {ev : EventRow} {fail : Failure → Program} {k : Program}
    {own : List Key} {P : ℕ → CertificationRow → Database → Prop} (hf : FailsFrom S fail db own log)
    (hP : ∀ own pk c db db', Stable S own log db db' → P pk c db → P pk c db')
    (hread : ∀ pk c db', Stable S own log db db' → currentCertification db' q.event = some (pk, c) → P pk c db')
    (hk : ∀ pk c db' own' w, Stable S own log db db' → (∀ x ∈ own, x ∈ own') → .event q.event ∈ own' →
      (∀ db'', Stable S own' log db' db'' → P pk c db'' ∧ RevokeDone q pk c
        (∀ db, P pk c db → (db.row (.certification pk)).isSome ∧ (db.row (.result c.result)).isSome) db'' w) →
      Ok S k db' own' w log) :
    Ok S (revokeBody E q ev fail k) db own [] log := by
  intro db₁ h₁
  dsimp only
  rw [Db.apply_nil]
  split
  · exact hf _ _ _ _ h₁ fun _ h => h
  rename_i pk c hcur
  have hp := hread pk c db₁ h₁ hcur
  -- the transition after the two updates `u`, whatever they found
  have hrest : ∀ db₂ own₂ u, Stable S own log db₁ db₂ → (∀ x ∈ own, x ∈ own₂) → Db.Only isReview u →
      (∀ db', Stable S own₂ log db₂ db' →
        (∀ db, P pk c db → (db.row (.certification pk)).isSome ∧ (db.row (.result c.result)).isSome) →
        Revoked q pk c.result db' u) →
      Ok S (transitionBody E q.transition fail fun _ =>
        record E (q.entry ev pk) (fail (.crash "DatabaseError")) k) db₂ own₂ u log := by
    intro db₂ own₂ u h₂ hsub₂ hu hrev
    have h₀₂ := h₁.trans hS h₂
    have hf₂ := hf.mono hS h₀₂ hsub₂
    refine transitionBody_ok hS hf₂ ?_ h₂.inv
    intro db₃ own₃ w₁ w₂ a ev₁ ev' h₃ hsub₃ hown₃ hev hmoved hw₁ hw₂
    have hown : .event q.event ∈ own₃ := hown₃
    refine record_ok hS ((hf₂.mono hS h₃ hsub₃).to _) fun db₄ own₄ w₃ h₄ hsub₄ hw₃ => ?_
    have h₂₄ := h₃.trans hS (h₄.sub hS hsub₃)
    refine hk pk c db₄ own₄ _ (h₀₂.trans hS (h₂₄.sub hS hsub₂)) (fun x hx => hsub₄ _ (hsub₃ _ (hsub₂ _ hx)))
      (hsub₄ _ hown) fun db₅ h₅ => ?_
    have h₃₅ := h₄.trans hS (h₅.sub hS hsub₄)
    have h₂₅ := h₃.trans hS (h₃₅.sub hS hsub₃)
    have ha : a = .decertify := hmoved.action rfl
    subst ha
    refine ⟨hP _ _ _ _ _ (h₂.trans hS (h₂₅.sub hS hsub₂)) hp, ev₁, ev', u, w₁, w₃ ++ w₂, ?_, hmoved, hu,
      hrev db₅ h₂₅, hw₃.append hw₂, hw₁, by rw [List.append_assoc]; rfl⟩
    rw [h₃₅.held _ hown]
    rwa [hu.apply_row _ rfl] at hev
  have hcons : ∀ k : Key, ∀ x ∈ own, x ∈ k :: own := fun k x hx => List.mem_cons_of_mem _ hx
  refine Ok.update hS (fun db₂ c₂ h₂ hc₂ _ => ?_) fun db₂ h₂ hno => ?_
  · rw [Db.apply_nil] at hc₂
    refine Ok.update hS (fun db₃ r₃ h₃ hr₃ _ => ?_) fun db₃ h₃ hno => ?_
    · rw [Db.apply_cons, Db.set_row_ne _ _ (by simp), Db.apply_nil] at hr₃
      refine hrest db₃ _ _ (h₂.trans hS (h₃.sub hS (hcons _)))
        (fun x hx => by simp [hx]) (.cons rfl (.cons rfl .nil)) fun db' h' _ => ⟨?_, ?_, fun k h1 h2 => ?_⟩
      · rw [h'.held _ (by simp), h₃.held _ (by simp), hc₂]
        simp
      · rw [h'.held _ (by simp), hr₃]
        simp
      · simp [h1, h2]
    · refine hrest db₃ _ _ (h₂.trans hS (h₃.sub hS (hcons _))) (hcons _) (.cons rfl .nil)
        fun db' h' hkept => ?_
      -- the result is gone
      obtain ⟨-, hr⟩ := hkept db₃ (hP _ _ _ _ _ (h₂.trans hS (h₃.sub hS (hcons _))) hp)
      obtain ⟨r, hr⟩ := Option.isSome_iff_exists.mp hr
      have := hno r (by rw [Db.apply_cons, Db.set_row_ne _ _ (by simp), Db.apply_nil, hr])
      cases this
  · -- the certification is gone
    have hgone : ¬∀ db, P pk c db → (db.row (.certification pk)).isSome ∧ (db.row (.result c.result)).isSome := by
      intro hkept
      obtain ⟨c₂, hc₂⟩ := Option.isSome_iff_exists.mp (hkept db₂ (hP _ _ _ _ _ h₂ hp)).1
      have := hno c₂ hc₂
      cases this
    refine Ok.update hS (fun db₃ r₃ h₃ _ _ => ?_) fun db₃ h₃ _ => ?_
    · exact hrest db₃ _ _ (h₂.trans hS h₃) (hcons _) (.cons rfl .nil) fun _ _ hkept => absurd hkept hgone
    · exact hrest db₃ _ _ (h₂.trans hS h₃) (fun _ h => h) .nil fun _ _ hkept => absurd hkept hgone

section Recount

variable {T : Counting} {q : RecountRequest} {k : Except Failure RecountRow → Program}
  (hk : ∀ log', log <:+ log' → FailsOk S k log') (haudit : Quiet S isAudit) (hrecount : Quiet S isRecount)
  (hshare : Quiet S isShare)
  (hdone : ∀ own log' ballots tally db db', S.inv db →
    TallyDone E q.tally tally (NoneBegins S q.tally.supersedes [] log) db db' →
    .tallied q.event q.resultId ballots :: log <:+ log' →
    S.inv db' ∧ S.guar own log' db db' ∧ S.fact (.tallied q.event q.resultId ballots) db')
  (hafter : ∀ log' r db, S.inv db → Ok S (k (.ok r)) db [] [] log')

include hS hk haudit hrecount hshare hdone hafter in
theorem recountAgainst_ok {ev : EventRow} {reference : Option (ℕ × ResultRow)} :
    Ok S (recountAgainst E T q ev reference k) db [] [] log := by
  have hkind : q.tally.kind ≠ .OFFICIAL := by
    unfold RecountRequest.tally
    dsimp only
    split <;> decide
  unfold recountAgainst runTally
  rw [if_pos hkind]
  refine tallyNow_ok (Q := fun _ _ => True) (R := fun _ _ _ => True) hS (fun db e => hk log List.suffix_rfl db e)
    ⟨fun own log' ev ballots tally db db' hi _ hd hl => hdone own log' ballots tally db db' hi hd hl, hshare, ?_⟩
    (fun _ _ _ _ _ _ => trivial) (fun _ _ _ _ _ _ _ => trivial) (fun _ _ _ _ => trivial)
    (fun _ _ _ _ => trivial) trivial
  intro ballots tally db hinv
  have hk' : FailsOk S k (.tallied q.event q.resultId ballots :: log) := hk _ (List.suffix_cons _ _)
  dsimp only
  split
  · exact hk' _ _
  · refine Ok.insertOr (fun db₁ h₁ _ => ?_) fun _ _ => hk'.rollback
    refine hrecount.commit (P := fun _ => True) .trivial (.cons rfl .nil) trivial fun db₂ hinv₂ _ => ?_
    exact recordNow_ok (P := fun _ => True) hS haudit .trivial trivial (fun _ => hk' _ _)
      fun db hinv _ => hafter _ _ db hinv

include hS hk haudit hrecount hshare hdone hafter in
/-- **Nothing comes of `recount` but the commit of its tally**, its own row and
an audit entry. -/
theorem recount_ok {ev : EventRow} : Ok S (recount E T q ev k) db [] [] log := by
  have hk₀ := hk log List.suffix_rfl
  unfold recount
  split
  · exact hk₀ _ _
  split
  · exact hk₀ _ _
  intro db₁ h₁
  dsimp only
  split
  · exact recountAgainst_ok hS hk haudit hrecount hshare hdone hafter
  · exact fun db₂ h₂ => recountAgainst_ok hS hk haudit hrecount hshare hdone hafter

end Recount

end Ok

end Results
end FlexyVotes
