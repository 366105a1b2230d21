/-
# One standing certification

Tallies, certifications, rejections, recounts, revocations and the manual
actions of the lifecycle, one after the other, move three tables: the status
of the election, its results and its certifications. `Standing` ties them
together: an election is certified or published only under one certification
that is not revoked, and that certification's result is its one approved
official result. Every operation keeps it, whatever it is given and wherever
it fails.

Key definitions: `Call`, `Standing`, `Trail`.
Key theorem: `one_standing_certification`.
-/
import FlexyVotes.Elections.Certification
import FlexyVotes.Lib.Serial

namespace FlexyVotes
namespace Certified

open Transactions Audit Configuration Lifecycle Results

/-! ### The operations -/

/-- One operation, with all it is given. -/
inductive Call
  | tally (q : TallyRequest)
  | certify (q : CertifyRequest)
  | reject (q : RejectRequest)
  | recount (q : RecountRequest)
  | revoke (q : RevokeRequest)
  | lifecycle (a : { a : Action // a.spec.manual = true }) (t : TransitionRequest)

/-- A result as the caller of an operation reads it. -/
def withResult (pk : ℕ) (k : ResultRow → Program) : Program :=
  .read fun db =>
    match db.row (.result pk) with
    | none => .halt
    | some r => k r

/-- The transition that a manual action is. -/
def manually (a : { a : Action // a.spec.manual = true }) (t : TransitionRequest) : TransitionRequest :=
  { t with action := a.1.spec.name, extraEffect := id }

def Call.program (E : Env) (T : Counting) : Call → Program
  | .tally q => refreshed q.event .halt fun ev => runTally E T q ev fun _ => .halt
  | .certify q => withResult q.result fun r => approveAndCertify E q r fun _ => .halt
  | .reject q => withResult q.result fun r => rejectResult E q r fun _ => .halt
  | .recount q => refreshed q.event .halt fun ev => Results.recount E T q ev fun _ => .halt
  | .revoke q => refreshed q.event .halt fun ev => revokeCertification E q ev fun _ => .halt
  | .lifecycle a t => transition E (manually a t) fun _ => .halt

/-- The database after the operations, each completed before the next starts. -/
def reach (E : Env) (T : Counting) (db : Database) (calls : List Call) : Database :=
  execAll db (calls.map (·.program E T))

/-! ### The invariant -/

/-- A certification that is not revoked. -/
structure Current (db : Database) (pk : ℕ) (c : CertificationRow) : Prop where
  row : db.row (.certification pk) = some c
  unrevoked : c.revokedAt = none

/-- An approved official result. -/
structure Approved (r : ResultRow) : Prop where
  official : r.kind = .OFFICIAL
  approved : r.status = .APPROVED

/-- The signed document names the result by its hash, root and counts. -/
structure Carries (document : List (String × Json)) (r : ResultRow) : Prop where
  hash : Json.get? document "result_hash" = some (.str r.resultHash)
  root : Json.get? document "bulletin_root" = some (.str r.bulletinRoot)
  ballots : Json.get? document "ballots_counted" = some (.nat r.ballotsCounted)
  votes : Json.get? document "votes_cast" = some (.nat r.votesCast)
  eligible : Json.get? document "eligible_voters" = some (.nat r.eligibleVoters)

/-- The statuses that need a certification. -/
def Shown (s : EventStatus) : Prop := s = .CERTIFIED ∨ s = .PUBLISHED

/-- The statuses that may have one. -/
def MayStand (s : EventStatus) : Prop := Shown s ∨ s = .ARCHIVED

structure Standing (db : Database) : Prop where
  one : ∀ pk pk' c c', Current db pk c → Current db pk' c' → c.election = c'.election → pk = pk'
  stands : ∀ pk c, Current db pk c → ∃ ev, db.row (.event c.election) = some ev ∧ MayStand ev.status
  shown : ∀ e ev, db.row (.event e) = some ev → Shown ev.status → ∃ pk c, Current db pk c ∧ c.election = e
  result : ∀ pk c, Current db pk c → ∃ r document, db.row (.result c.result) = some r ∧
    r.election = c.election ∧ Approved r ∧ c.payload = .obj document ∧ Carries document r
  official : ∀ pk r, db.row (.result pk) = some r → Approved r →
    ∃ pk' c, Current db pk' c ∧ c.result = pk

/-- What operations do to certifications: they stay, with who made them; a new
one is made by another than the tallier where that is required; and whether it
is required does not change. -/
structure Trail (db db' : Database) : Prop where
  stays : ∀ pk c, db.row (.certification pk) = some c → ∃ c', db'.row (.certification pk) = some c' ∧
    c'.election = c.election ∧ c'.talliedBy = c.talliedBy ∧ c'.certifiedBy = c.certifiedBy
  dual : ∀ e ev, db.row (.event e) = some ev → ∃ ev', db'.row (.event e) = some ev' ∧
    ev'.dualApprovalRequired = ev.dualApprovalRequired
  separated : ∀ pk c ev, db.row (.certification pk) = none → db'.row (.certification pk) = some c →
    db.row (.event c.election) = some ev → ev.dualApprovalRequired = true →
    c.talliedBy = none ∨ c.certifiedBy ≠ c.talliedBy

theorem Trail.refl (db : Database) : Trail db db where
  stays := fun _ c h => ⟨c, h, rfl, rfl, rfl⟩
  dual := fun _ ev h => ⟨ev, h, rfl⟩
  separated := fun _ _ _ h h' => by
    rw [h] at h'
    cases h'

theorem Trail.trans {db db' db'' : Database} (h : Trail db db') (h' : Trail db' db'') : Trail db db'' where
  stays := fun pk c hc => by
    obtain ⟨c', hc', h1, h2, h3⟩ := h.stays pk c hc
    obtain ⟨c'', hc'', h1', h2', h3'⟩ := h'.stays pk c' hc'
    exact ⟨c'', hc'', h1'.trans h1, h2'.trans h2, h3'.trans h3⟩
  dual := fun e ev he => by
    obtain ⟨ev', he', h1⟩ := h.dual e ev he
    obtain ⟨ev'', he'', h2⟩ := h'.dual e ev' he'
    exact ⟨ev'', he'', h2.trans h1⟩
  separated := fun pk c ev hnew hc he hdual => by
    cases hmid : db'.row (.certification pk) with
    | none =>
      obtain ⟨ev', he', hev⟩ := h.dual _ ev he
      exact h'.separated pk c ev' hmid hc he' (hev.trans hdual)
    | some c' =>
      obtain ⟨c'', hc'', h1, h2, h3⟩ := h'.stays pk c' hmid
      rw [hc] at hc''
      cases hc''
      rw [h2, h3]
      exact h.separated pk c' ev hnew hmid (h1 ▸ he) hdual

/-- Where no certification is touched, only the flags of the events count. -/
theorem Trail.of_certifications {db db' : Database}
    (hcert : ∀ pk, db'.row (.certification pk) = db.row (.certification pk))
    (hdual : ∀ e ev, db.row (.event e) = some ev → ∃ ev', db'.row (.event e) = some ev' ∧
      ev'.dualApprovalRequired = ev.dualApprovalRequired) : Trail db db' where
  stays := fun pk c h => ⟨c, (hcert pk).trans h, rfl, rfl, rfl⟩
  dual := hdual
  separated := fun pk c ev h h' => by
    rw [hcert pk, h] at h'
    cases h'

/-- **What touches no certification and no approved result** keeps the
invariant, if no event becomes certified and none leaves its certification. -/
theorem Standing.frame {db db' : Database} (h : Standing db)
    (hcert : ∀ pk, db'.row (.certification pk) = db.row (.certification pk))
    (happ : ∀ pk r, Approved r → (db'.row (.result pk) = some r ↔ db.row (.result pk) = some r))
    (hstands : ∀ e ev, db.row (.event e) = some ev → MayStand ev.status →
      ∃ ev', db'.row (.event e) = some ev' ∧ MayStand ev'.status)
    (hshown : ∀ e ev', db'.row (.event e) = some ev' → Shown ev'.status →
      ∃ ev, db.row (.event e) = some ev ∧ Shown ev.status) : Standing db' := by
  have hcur : ∀ pk c, Current db' pk c ↔ Current db pk c := fun pk c =>
    ⟨fun ⟨hr, hu⟩ => ⟨(hcert pk).symm.trans hr, hu⟩, fun ⟨hr, hu⟩ => ⟨(hcert pk).trans hr, hu⟩⟩
  refine ⟨?_, ?_, ?_, ?_, ?_⟩
  · intro pk pk' c c' hc hc'
    exact h.one pk pk' c c' ((hcur _ _).mp hc) ((hcur _ _).mp hc')
  · intro pk c hc
    obtain ⟨ev, hev, hst⟩ := h.stands pk c ((hcur _ _).mp hc)
    exact hstands _ ev hev hst
  · intro e ev' hev' hst'
    obtain ⟨ev, hev, hst⟩ := hshown e ev' hev' hst'
    obtain ⟨pk, c, hc, he⟩ := h.shown e ev hev hst
    exact ⟨pk, c, (hcur _ _).mpr hc, he⟩
  · intro pk c hc
    obtain ⟨r, document, hr, he, ha, hp⟩ := h.result pk c ((hcur _ _).mp hc)
    exact ⟨r, document, (happ _ r ha).mpr hr, he, ha, hp⟩
  · intro pk r hr ha
    obtain ⟨pk', c, hc, he⟩ := h.official pk r ((happ _ r ha).mp hr) ha
    exact ⟨pk', c, (hcur _ _).mpr hc, he⟩

/-- Nor does what touches no event, no result and no certification. -/
theorem Standing.of_rows {db db' : Database} (h : Standing db)
    (hcert : ∀ pk, db'.row (.certification pk) = db.row (.certification pk))
    (hres : ∀ pk, db'.row (.result pk) = db.row (.result pk))
    (hev : ∀ e, db'.row (.event e) = db.row (.event e)) : Standing db' :=
  h.frame hcert (fun pk r _ => by rw [hres]) (fun e ev he hst => ⟨ev, (hev e).trans he, hst⟩)
    fun e ev' he hst => ⟨ev', (hev e).symm.trans he, hst⟩

theorem Trail.of_rows {db db' : Database}
    (hcert : ∀ pk, db'.row (.certification pk) = db.row (.certification pk))
    (hev : ∀ e, db'.row (.event e) = db.row (.event e)) : Trail db db' :=
  .of_certifications hcert fun e ev he => ⟨ev, (hev e).trans he, rfl⟩

/-! ### What each operation does to it -/

/-- A manual action leaves a certification only where it may stand, and shows
nothing new. -/
theorem manual_edges (a : Action) (ha : a.spec.manual = true) {s : EventStatus} (hs : s ∈ a.spec.sources) :
    (MayStand s → MayStand a.spec.target) ∧ (Shown a.spec.target → Shown s) := by
  cases a <;> simp_all [Action.spec, MayStand, Shown]
  rcases hs with rfl | rfl <;> simp

/-- No effect changes whether two people are needed. -/
theorem after_dual (a : Action) (t : TransitionRequest) (ev : EventRow) :
    (a.after t ev).dualApprovalRequired = ev.dualApprovalRequired := by
  cases a <;> rfl

theorem transition_standing {t : TransitionRequest} {a : Action} {ev ev' : EventRow} {db db' : Database}
    (ha : a.spec.manual = true) (ht : t.extraEffect = id) (hd : TransitionDone t a ev ev' db db')
    (h : Standing db) : Standing db' ∧ Trail db db' := by
  have hrow : ev' = a.after t { ev with status := a.spec.target } := by
    rw [hd.moved.row, ht]
    rfl
  have hstatus : ev'.status = a.spec.target := by rw [hrow, Action.after_status]
  have hdual : ev'.dualApprovalRequired = ev.dualApprovalRequired := by rw [hrow, after_dual]
  obtain ⟨hstand, hshown⟩ := manual_edges a ha hd.moved.source
  have hcert : ∀ pk, db'.row (.certification pk) = db.row (.certification pk) := fun pk => hd.row rfl (by simp)
  have hother : ∀ e, e ≠ t.event → db'.row (.event e) = db.row (.event e) := fun e he =>
    hd.row rfl (by simpa using he)
  refine ⟨h.frame hcert (fun pk r _ => by rw [hd.row rfl (by simp)]) ?_ ?_, .of_certifications hcert ?_⟩
  · intro e ev₀ he hst
    by_cases hne : e = t.event
    · subst hne
      rw [hd.event] at he
      cases he
      exact ⟨ev', hd.after, hstatus ▸ hstand hst⟩
    · exact ⟨ev₀, (hother e hne).trans he, hst⟩
  · intro e ev₀ he hst
    by_cases hne : e = t.event
    · subst hne
      rw [hd.after] at he
      cases he
      exact ⟨ev, hd.event, hshown (hstatus ▸ hst)⟩
    · exact ⟨ev₀, (hother e hne).symm.trans he, hst⟩
  · intro e ev₀ he
    by_cases hne : e = t.event
    · subst hne
      rw [hd.event] at he
      cases he
      exact ⟨ev', hd.after, hdual⟩
    · exact ⟨ev₀, (hother e hne).trans he, rfl⟩

/-- A new result is not approved. -/
theorem not_approved_row (E : Env) (q : TallyRequest) (tally : Tally) : ¬Approved (q.row E tally) := by
  rintro ⟨-, hstatus⟩
  unfold TallyRequest.row at hstatus
  dsimp only at hstatus
  split at hstatus <;> cases hstatus

/-- A tally where nobody else records results touches no approved one. -/
theorem tally_approved {E : Env} {q : TallyRequest} {tally : Tally} {alone : Prop} {db db' : Database}
    (halone : alone) (hd : TallyDone E q tally alone db db') (pk : ℕ) (r : ResultRow) (ha : Approved r) :
    db'.row (.result pk) = some r ↔ db.row (.result pk) = some r := by
  obtain ⟨w, u, own, hw, -, hnew, hup, rfl⟩ := hd.writes
  have hrows := (hup halone).rows (.result pk)
  rw [Db.apply_append, hw.apply_row _ rfl, Db.apply_cons]
  by_cases hpk : pk = q.resultId
  · subst hpk
    rw [hnew] at hrows
    have hnone : db.row (.result q.resultId) = none := Option.map_eq_none_iff.mp hrows.symm
    rw [Db.set_row_self, hnone]
    refine ⟨fun h => ?_, fun h => by cases h⟩
    exact absurd (Option.some.inj h ▸ ha) (not_approved_row E q tally)
  · rw [Db.set_row_ne _ _ (by simpa using hpk), hrows]
    cases hr : db.row (.result pk) with
    | none => simp
    | some r₀ =>
      rw [Option.map_some, Option.some.injEq, Option.some.injEq]
      unfold updated
      split
      · rename_i hs
        -- a pending result is superseded, and approved neither before nor after
        simp only [TallyRequest.supersedes, pendingOf, Bool.and_eq_true, decide_eq_true_eq] at hs
        refine ⟨fun h => ?_, fun h => ?_⟩
        · have := ha.approved
          rw [← h] at this
          cases this
        · have := ha.approved
          rw [← h, hs.2.2] at this
          cases this
      · rfl

theorem tally_standing {E : Env} {q : TallyRequest} {tally : Tally} {alone : Prop} {db db' : Database}
    (halone : alone) (hd : TallyDone E q tally alone db db') (h : Standing db) :
    Standing db' ∧ Trail db db' := by
  have hcert : ∀ pk, db'.row (.certification pk) = db.row (.certification pk) := fun pk => hd.row rfl rfl
  have hev : ∀ e, db'.row (.event e) = db.row (.event e) := fun e => hd.row rfl rfl
  exact ⟨h.frame hcert (tally_approved halone hd) (fun e ev he hst => ⟨ev, (hev e).trans he, hst⟩)
    fun e ev' he hst => ⟨ev', (hev e).symm.trans he, hst⟩, .of_rows hcert hev⟩

/-- A pending result is rejected: it was not approved and is not. -/
theorem reject_standing {q : RejectRequest} {r : ResultRow} {db db' : Database} (hd : RejectDone q r db db')
    (hr : db.row (.result q.result) = some r) (h : Standing db) : Standing db' ∧ Trail db db' := by
  obtain ⟨r₁, hr₁, rfl⟩ := hd.writes
  rw [hr] at hr₁
  cases hr₁
  refine ⟨h.frame (fun pk => by simp) (fun pk r' ha => ?_) (fun e ev he hst => ⟨ev, by simpa using he, hst⟩)
    fun e ev' he hst => ⟨ev', by simpa using he, hst⟩, .of_rows (fun pk => by simp) fun e => by simp⟩
  by_cases hpk : pk = q.result
  · subst hpk
    rw [Db.apply_cons, Db.set_row_self, hr]
    refine ⟨fun h => ?_, fun h => ?_⟩
    · have := ha.approved
      rw [← Option.some.inj h] at this
      cases this
    · have := ha.approved
      rw [← Option.some.inj h, hd.pending] at this
      cases this
  · rw [Db.apply_cons, Db.set_row_ne _ _ (by simpa using hpk), Db.apply_nil]

/-- The signed document is of the result that is certified. -/
theorem carries_payload (E : Env) (q : CertifyRequest) (r : ResultRow) (ev : EventRow)
    (organization configHash fingerprint : String) :
    Carries (q.payload E r ev organization configHash fingerprint) (q.approve r) := by
  constructor <;> simp [CertifyRequest.payload, CertifyRequest.approve, Json.get?]

/-- What the database holds after a certification, row by row, whatever has
changed since the result and the event were read. -/
structure CertifyRows (E : Env) (q : CertifyRequest) (r r₁ : ResultRow) (ev ev₁ ev' : EventRow) (db db' : Database) :
    Prop where
  result : db.row (.result q.result) = some r₁
  event : db.row (.event r.election) = some ev₁
  moved : Moved (q.transition r) .certify ev₁ ev'
  certified : ∃ organization configHash fingerprint, db'.row (.certification q.certificationId) =
    some (q.row E r (q.payload E r ev organization configHash fingerprint))
  certifications : ∀ pk, pk ≠ q.certificationId → db'.row (.certification pk) = db.row (.certification pk)
  approved : db'.row (.result q.result) = some (q.approve r₁)
  results : ∀ pk, pk ≠ q.result → db'.row (.result pk) = db.row (.result pk)
  turned : db'.row (.event r.election) = some ev'
  events : ∀ e, e ≠ r.election → db'.row (.event e) = db.row (.event e)

theorem certifyDone_rows {E : Env} {q : CertifyRequest} {r : ResultRow} {ev : EventRow} {db db' : Database}
    (hd : CertifyDone E q r ev db db') : ∃ r₁ ev₁ ev', CertifyRows E q r r₁ ev ev₁ ev' db db' := by
  obtain ⟨r₁, ev₁, ev', organization, configHash, fingerprint, w, w', hr₁, hev₁, hmoved, hw, hw', rfl⟩ := hd.writes
  have hrow : ∀ k, isAudit k = false → isSetup k = false → k ≠ .event r.election →
      (db.apply (w ++ ⟨.event r.election, some ev'⟩ :: (w' ++
        [⟨.certification q.certificationId,
          some (q.row E r (q.payload E r ev organization configHash fingerprint))⟩,
         ⟨.result q.result, some (q.approve r₁)⟩]))).row k =
      (db.apply [⟨.certification q.certificationId,
          some (q.row E r (q.payload E r ev organization configHash fingerprint))⟩,
         ⟨.result q.result, some (q.approve r₁)⟩]).row k := fun k ha hs hk => by
    rw [Db.apply_append, hw.apply_row _ ha, Db.apply_cons, Db.set_row_ne _ _ hk, Db.apply_append,
      hw'.apply_row _ hs]
  refine ⟨r₁, ev₁, ev', hr₁, hev₁, hmoved, ⟨organization, configHash, fingerprint, ?_⟩, fun pk hpk => ?_, ?_,
    fun pk hpk => ?_, ?_, fun e he => ?_⟩
  · rw [hrow _ rfl rfl (by simp)]
    simp
  · rw [hrow _ rfl rfl (by simp)]
    simp [hpk]
  · rw [hrow _ rfl rfl (by simp)]
    simp
  · rw [hrow _ rfl rfl (by simp)]
    simp [hpk]
  · rw [Db.apply_append, hw.apply_row _ rfl, Db.apply_cons, Db.set_row_self]
  · rw [hrow _ rfl rfl (by simpa using he)]
    simp

/-- The same, where the result and the event are still as they were read. -/
theorem certify_rows {E : Env} {q : CertifyRequest} {r : ResultRow} {ev : EventRow} {db db' : Database}
    (hd : CertifyDone E q r ev db db') (hr : db.row (.result q.result) = some r)
    (hev : db.row (.event r.election) = some ev) :
    (∃ document, db'.row (.certification q.certificationId) = some (q.row E r document) ∧
      Carries document (q.approve r)) ∧
    (∀ pk, pk ≠ q.certificationId → db'.row (.certification pk) = db.row (.certification pk)) ∧
    db'.row (.result q.result) = some (q.approve r) ∧
    (∀ pk, pk ≠ q.result → db'.row (.result pk) = db.row (.result pk)) ∧
    (∃ ev', db'.row (.event r.election) = some ev' ∧ ev'.status = .CERTIFIED ∧
      ev'.dualApprovalRequired = ev.dualApprovalRequired) ∧
    ∀ e, e ≠ r.election → db'.row (.event e) = db.row (.event e) := by
  obtain ⟨r₁, ev₁, ev', h⟩ := certifyDone_rows hd
  obtain rfl := Option.some.inj (hr.symm.trans h.result)
  obtain rfl := Option.some.inj (hev.symm.trans h.event)
  obtain ⟨organization, configHash, fingerprint, hcertified⟩ := h.certified
  refine ⟨⟨_, hcertified, carries_payload E q r ev organization configHash fingerprint⟩, h.certifications, h.approved,
    h.results, ⟨ev', h.turned, ?_, ?_⟩, h.events⟩
  · rw [h.moved.row]
    exact Action.after_status _ _ _
  · rw [h.moved.row]
    exact after_dual _ _ _

theorem certify_standing {E : Env} {q : CertifyRequest} {r : ResultRow} {ev : EventRow} {db db' : Database}
    (hd : CertifyDone E q r ev db db') (hr : db.row (.result q.result) = some r)
    (hev : db.row (.event r.election) = some ev) (h : Standing db) : Standing db' ∧ Trail db db' := by
  obtain ⟨⟨document, hnew, hcarries⟩, hcerts, hres, hresults, ⟨ev', hev', hstatus, hdual⟩, hevents⟩ :=
    certify_rows hd hr hev
  -- the election had no certification before
  have hnone : ∀ pk c, Current db pk c → c.election ≠ r.election := fun pk c hc he => by
    obtain ⟨ev₁, hev₁, hst⟩ := h.stands pk c hc
    rw [he, hev] at hev₁
    cases hev₁
    simp [MayStand, Shown, hd.tallying] at hst
  have hold : ∀ pk c, Current db' pk c → (pk = q.certificationId ∧ c = q.row E r document) ∨
      (Current db pk c ∧ c.election ≠ r.election) := fun pk c hc => by
    by_cases hpk : pk = q.certificationId
    · subst hpk
      exact Or.inl ⟨rfl, Option.some.inj (hc.row.symm.trans hnew)⟩
    · have hc' : Current db pk c := ⟨(hcerts pk hpk).symm.trans hc.row, hc.unrevoked⟩
      exact Or.inr ⟨hc', hnone pk c hc'⟩
  have hkept : ∀ pk c, Current db pk c → Current db' pk c := fun pk c hc => by
    refine ⟨(hcerts pk fun hpk => ?_).trans hc.row, hc.unrevoked⟩
    have := hc.row
    rw [hpk, hd.new] at this
    cases this
  have hpending : ¬Approved r := fun ha => by
    have := hd.pending.2
    rw [ha.approved] at this
    cases this
  refine ⟨⟨?_, ?_, ?_, ?_, ?_⟩, ?_, ?_, ?_⟩
  · intro pk pk' c c' hc hc' he
    rcases hold pk c hc with ⟨rfl, rfl⟩ | ⟨h1, hne⟩ <;> rcases hold pk' c' hc' with ⟨rfl, rfl⟩ | ⟨h2, hne'⟩
    · rfl
    · exact absurd he.symm hne'
    · exact absurd he hne
    · exact h.one pk pk' c c' h1 h2 he
  · intro pk c hc
    rcases hold pk c hc with ⟨rfl, rfl⟩ | ⟨h1, hne⟩
    · exact ⟨ev', hev', Or.inl (Or.inl hstatus)⟩
    · obtain ⟨ev₁, hev₁, hst⟩ := h.stands pk c h1
      exact ⟨ev₁, (hevents _ hne).trans hev₁, hst⟩
  · intro e ev₁ hev₁ hst
    by_cases he : e = r.election
    · exact ⟨_, _, ⟨hnew, rfl⟩, he.symm⟩
    · rw [hevents e he] at hev₁
      obtain ⟨pk, c, hc, hce⟩ := h.shown e ev₁ hev₁ hst
      exact ⟨pk, c, hkept pk c hc, hce⟩
  · intro pk c hc
    rcases hold pk c hc with ⟨rfl, rfl⟩ | ⟨h1, hne⟩
    · exact ⟨_, document, hres, rfl, ⟨hd.pending.1, rfl⟩, rfl, hcarries⟩
    · obtain ⟨r₁, document₁, hr₁, he, ha, hp⟩ := h.result pk c h1
      refine ⟨r₁, document₁, (hresults _ fun hpk => hpending ?_).trans hr₁, he, ha, hp⟩
      rw [hpk, hr] at hr₁
      exact Option.some.inj hr₁ ▸ ha
  · intro pk r₁ hr₁ ha
    by_cases hpk : pk = q.result
    · exact ⟨_, _, ⟨hnew, rfl⟩, hpk.symm⟩
    · rw [hresults pk hpk] at hr₁
      obtain ⟨pk', c, hc, he⟩ := h.official pk r₁ hr₁ ha
      exact ⟨pk', c, hkept pk' c hc, he⟩
  · intro pk c hc
    have hpk : pk ≠ q.certificationId := fun hpk => by
      rw [hpk, hd.new] at hc
      cases hc
    exact ⟨c, (hcerts pk hpk).trans hc, rfl, rfl, rfl⟩
  · intro e ev₁ hev₁
    by_cases he : e = r.election
    · subst he
      rw [hev] at hev₁
      cases hev₁
      exact ⟨ev', hev', hdual⟩
    · exact ⟨ev₁, (hevents e he).trans hev₁, rfl⟩
  · intro pk c ev₁ hpk hc hev₁ hreq
    have hid : pk = q.certificationId := by
      by_contra hne
      rw [hcerts pk hne, hpk] at hc
      cases hc
    subst hid
    rw [hnew] at hc
    cases hc
    cases hev.symm.trans hev₁
    refine Or.inr fun he => hd.separated ⟨hreq, ?_⟩
    exact he.symm

theorem current_of_read {db : Database} {e pk : ℕ} {c : CertificationRow}
    (h : currentCertification db e = some (pk, c)) : Current db pk c ∧ c.election = e := by
  have hmem := List.mem_of_mem_head? (Option.mem_def.mpr h)
  rw [List.mem_insertionSort, Db.mem_collect] at hmem
  obtain ⟨k, r, hrow, hf⟩ := hmem
  cases k <;> simp only [reduceCtorEq, Option.ite_none_right_eq_some, Option.some.injEq, Prod.mk.injEq] at hf
  obtain ⟨⟨he, hu⟩, rfl, rfl⟩ := hf
  exact ⟨⟨hrow, hu⟩, he⟩

theorem revoke_standing {q : RevokeRequest} {pk : ℕ} {c : CertificationRow} {kept : Prop} {db : Database}
    {w : Writes Row} (hkept : kept) (hd : RevokeDone q pk c kept db w) (hc : Current db pk c)
    (he : c.election = q.event) (h : Standing db) : Standing (db.apply w) ∧ Trail db (db.apply w) := by
  obtain ⟨ev, ev', u, w₁, w₂, hev, hmoved, hu, hrev, hw₂, hw₁, rfl⟩ := hd.writes
  have hrev := hrev hkept
  obtain ⟨r, document, hr, hre, ha, -, -⟩ := h.result pk c hc
  have hrow : ∀ k, isAudit k = false → isSetup k = false → k ≠ .event q.event →
      (db.apply (w₂ ++ ⟨.event q.event, some ev'⟩ :: (w₁ ++ u))).row k = (db.apply u).row k :=
    fun k ha hs hk => by
      rw [Db.apply_append, hw₂.apply_row _ ha, Db.apply_cons, Db.set_row_ne _ _ hk, Db.apply_append,
        hw₁.apply_row _ hs]
  have hcerts : ∀ pk', pk' ≠ pk → (db.apply (w₂ ++ ⟨.event q.event, some ev'⟩ :: (w₁ ++ u))).row
      (.certification pk') = db.row (.certification pk') := fun pk' hpk => by
    rw [hrow _ rfl rfl (by simp), hrev.others _ (by simpa using hpk) (by simp)]
  have hrevoked : (db.apply (w₂ ++ ⟨.event q.event, some ev'⟩ :: (w₁ ++ u))).row (.certification pk) =
      some (q.revoke c) := by
    rw [hrow _ rfl rfl (by simp), hrev.certification, hc.row]
    rfl
  have hresults : ∀ pk', pk' ≠ c.result → (db.apply (w₂ ++ ⟨.event q.event, some ev'⟩ :: (w₁ ++ u))).row
      (.result pk') = db.row (.result pk') := fun pk' hpk => by
    rw [hrow _ rfl rfl (by simp), hrev.others _ (by simp) (by simpa using hpk)]
  have hsuperseded : (db.apply (w₂ ++ ⟨.event q.event, some ev'⟩ :: (w₁ ++ u))).row (.result c.result) =
      some { r with status := .SUPERSEDED } := by
    rw [hrow _ rfl rfl (by simp), hrev.result, hr]
    rfl
  have hevent : (db.apply (w₂ ++ ⟨.event q.event, some ev'⟩ :: (w₁ ++ u))).row (.event q.event) = some ev' := by
    rw [Db.apply_append, hw₂.apply_row _ rfl, Db.apply_cons, Db.set_row_self]
  have hevents : ∀ e, e ≠ q.event → (db.apply (w₂ ++ ⟨.event q.event, some ev'⟩ :: (w₁ ++ u))).row
      (.event e) = db.row (.event e) := fun e hne => by
    rw [hrow _ rfl rfl (by simpa using hne), hu.apply_row _ rfl]
  have hstatus : ev'.status = .TALLYING := by
    rw [hmoved.row]
    rfl
  have hdual : ev'.dualApprovalRequired = ev.dualApprovalRequired := by
    rw [hmoved.row]
    rfl
  generalize db.apply (w₂ ++ ⟨.event q.event, some ev'⟩ :: (w₁ ++ u)) = db' at *
  -- the certifications that are left are of other elections
  have hold : ∀ pk' c', Current db' pk' c' → Current db pk' c' ∧ pk' ≠ pk := fun pk' c' hc' => by
    have hne : pk' ≠ pk := fun hpk => by
      have hcur := hc'.row
      rw [hpk, hrevoked] at hcur
      have hu := hc'.unrevoked
      rw [← Option.some.inj hcur] at hu
      cases hu
    exact ⟨⟨(hcerts pk' hne).symm.trans hc'.row, hc'.unrevoked⟩, hne⟩
  have hother : ∀ pk' c', Current db pk' c' → pk' ≠ pk → c'.election ≠ q.event := fun pk' c' hc' hne he' =>
    hne (h.one pk' pk c' c hc' hc (he'.trans he.symm))
  have hstay : ∀ pk' c', Current db pk' c' → pk' ≠ pk → Current db' pk' c' := fun pk' c' hc' hne =>
    ⟨(hcerts pk' hne).trans hc'.row, hc'.unrevoked⟩
  refine ⟨⟨?_, ?_, ?_, ?_, ?_⟩, ?_, ?_, ?_⟩
  · intro pk₁ pk₂ c₁ c₂ h₁ h₂ he
    exact h.one pk₁ pk₂ c₁ c₂ (hold _ _ h₁).1 (hold _ _ h₂).1 he
  · intro pk' c' hc'
    obtain ⟨h₁, hne⟩ := hold pk' c' hc'
    obtain ⟨ev₁, hev₁, hst⟩ := h.stands pk' c' h₁
    exact ⟨ev₁, (hevents _ (hother _ _ h₁ hne)).trans hev₁, hst⟩
  · intro e ev₁ hev₁ hst
    by_cases hne : e = q.event
    · subst hne
      rw [hevent] at hev₁
      rw [← Option.some.inj hev₁] at hst
      simp [Shown, hstatus] at hst
    · rw [hevents e hne] at hev₁
      obtain ⟨pk', c', hc', rfl⟩ := h.shown e ev₁ hev₁ hst
      refine ⟨pk', c', hstay pk' c' hc' fun hpk => hne ?_, rfl⟩
      have := hc'.row
      rw [hpk, hc.row] at this
      rw [← Option.some.inj this, he]
  · intro pk' c' hc'
    obtain ⟨h₁, hne⟩ := hold pk' c' hc'
    obtain ⟨r₁, document₁, hr₁, hre₁, h₂⟩ := h.result pk' c' h₁
    refine ⟨r₁, document₁, (hresults _ fun hpk => hother _ _ h₁ hne ?_).trans hr₁, hre₁, h₂⟩
    rw [hpk, hr] at hr₁
    rw [← hre₁, ← Option.some.inj hr₁, hre, he]
  · intro pk₁ r₁ hr₁ ha₁
    have hne : pk₁ ≠ c.result := fun hpk => by
      rw [hpk, hsuperseded] at hr₁
      have := ha₁.approved
      rw [← Option.some.inj hr₁] at this
      cases this
    rw [hresults pk₁ hne] at hr₁
    obtain ⟨pk', c', hc', hcr⟩ := h.official pk₁ r₁ hr₁ ha₁
    refine ⟨pk', c', hstay pk' c' hc' fun hpk => hne ?_, hcr⟩
    have := hc'.row
    rw [hpk, hc.row] at this
    rw [← hcr, ← Option.some.inj this]
  · intro pk' c' hc'
    by_cases hpk : pk' = pk
    · subst hpk
      rw [hc.row] at hc'
      cases hc'
      exact ⟨_, hrevoked, rfl, rfl, rfl⟩
    · exact ⟨c', (hcerts pk' hpk).trans hc', rfl, rfl, rfl⟩
  · intro e ev₁ hev₁
    by_cases hne : e = q.event
    · subst hne
      cases hev.symm.trans hev₁
      exact ⟨ev', hevent, hdual⟩
    · exact ⟨ev₁, (hevents e hne).trans hev₁, rfl⟩
  · intro pk' c' ev₁ hnone hc'
    have hpk : pk' ≠ pk := fun hpk => by
      rw [hpk, hc.row] at hnone
      cases hnone
    rw [hcerts pk' hpk, hnone] at hc'
    cases hc'

/-! ### Every operation -/

/-- Nobody else moves the database; what is certified stands, and stays. -/
def spec : Spec Row Note := .serial Standing Trail

theorem spec_sound : spec.Sound := Spec.serial_sound _ _

/-- Rows beside the events, the results and the certifications. -/
theorem spec_quiet {p : Key → Bool} (hc : ∀ pk, p (.certification pk) = false)
    (hr : ∀ pk, p (.result pk) = false) (he : ∀ e, p (.event e) = false) : Quiet spec p :=
  fun _ _ db _ (hi : Standing db) hw =>
    ⟨hi.of_rows (fun pk => hw.apply_row db (hc pk)) (fun pk => hw.apply_row db (hr pk))
      fun e => hw.apply_row db (he e),
     Trail.of_rows (fun pk => hw.apply_row db (hc pk)) fun e => hw.apply_row db (he e)⟩

theorem withResult_ok {pk : ℕ} {k : ResultRow → Program} {db : Database}
    (h : ∀ db r, db.row (.result pk) = some r → Ok spec (k r) db [] [] []) :
    Ok spec (withResult pk k) db [] [] [] := by
  intro db₁ h₁
  dsimp only
  rw [Db.apply_nil]
  split
  · trivial
  · rename_i r hr
    exact h db₁ r hr

theorem tally_ok {E : Env} {T : Counting} (q : TallyRequest) {ev : EventRow} {db : Database}
    (hinv : Standing db) : Ok spec (runTally E T q ev fun _ => .halt) db [] [] [] := by
  refine runTally_ok (Q := fun _ _ => True) (R := fun _ _ _ => True) spec_sound .halt
    ⟨fun _ _ _ _ _ db db' (hi : Standing db) _ hd _ => ?_, spec_quiet (fun _ => rfl) (fun _ => rfl) fun _ => rfl,
      fun _ _ _ _ => trivial⟩
    (fun _ _ _ _ _ _ => trivial) (fun _ _ _ _ _ _ _ => trivial) (fun _ _ _ _ => trivial)
    (fun _ _ _ _ => trivial) (fun _ _ a _ _ _ _ hi _ _ hd => ?_) (fun _ _ _ _ _ => trivial) hinv fun _ => trivial
  · obtain ⟨h1, h2⟩ := tally_standing (NoneBegins.serial _ _ _) hd hi
    exact ⟨h1, h2, trivial⟩
  · have ha : a = .start_tally := hd.moved.action rfl
    subst ha
    exact transition_standing rfl rfl hd hi

theorem certify_ok {E : Env} (q : CertifyRequest) {r : ResultRow} {db : Database}
    (hr : db.row (.result q.result) = some r) :
    Ok spec (approveAndCertify E q r fun _ => .halt) db [] [] [] := by
  refine approveAndCertify_ok (P := fun ev db => db.row (.result q.result) = some r ∧
    db.row (.event r.election) = some ev) spec_sound .halt (fun own ev db db' hst hp => ?_)
    (fun _ _ ev db db' hi hp _ _ hd => certify_standing hd hp.1 hp.2 hi) (fun _ _ => trivial)
    fun ev db' hst hrow => ⟨?_, hrow⟩
  · rwa [hst.serial]
  · rwa [hst.serial]

theorem reject_ok {E : Env} (q : RejectRequest) {r : ResultRow} {db : Database}
    (hr : db.row (.result q.result) = some r) : Ok spec (rejectResult E q r fun _ => .halt) db [] [] [] := by
  refine rejectResult_ok (P := fun db => db.row (.result q.result) = some r) spec_sound .halt
    (fun own db db' hst hp => ?_) hr (spec_quiet (fun _ => rfl) (fun _ => rfl) fun _ => rfl)
    (fun _ _ db db' hi hp _ hd => reject_standing hd hp hi) fun _ _ => trivial
  rwa [hst.serial]

theorem recount_standing {E : Env} {T : Counting} (q : RecountRequest) {ev : EventRow} {db : Database} :
    Ok spec (Results.recount E T q ev fun _ => .halt) db [] [] [] := by
  have hquiet : ∀ {p : Key → Bool}, (∀ pk, p (.certification pk) = false) → (∀ pk, p (.result pk) = false) →
      (∀ e, p (.event e) = false) → Quiet spec p := spec_quiet
  refine recount_ok spec_sound (fun _ _ => .halt) (hquiet (fun _ => rfl) (fun _ => rfl) fun _ => rfl)
    (hquiet (fun _ => rfl) (fun _ => rfl) fun _ => rfl) (hquiet (fun _ => rfl) (fun _ => rfl) fun _ => rfl)
    (fun _ _ _ _ db db' hi hd _ => ?_) fun _ _ _ _ => trivial
  obtain ⟨h1, h2⟩ := tally_standing (NoneBegins.serial _ _ _) hd hi
  exact ⟨h1, h2, trivial⟩

theorem revoke_ok {E : Env} (q : RevokeRequest) {ev : EventRow} {db : Database} :
    Ok spec (revokeCertification E q ev fun _ => .halt) db [] [] [] := by
  refine revokeBody_ok (P := fun pk c db => currentCertification db q.event = some (pk, c) ∧
    (db.row (.result c.result)).isSome) spec_sound
    (fun _ _ _ _ _ _ _ _ => trivial) (fun own pk c db db' hst hp => ?_)
    (fun pk c db' hst hcur => ⟨hcur, ?_⟩) ?_
  · rwa [hst.serial]
  · have hi : Standing db' := hst.inv
    obtain ⟨r, -, hr, -⟩ := hi.result pk c (current_of_read hcur).1
    rw [hr]
    rfl
  · intro pk c db₁ own w _ _ _ hdone db₂ h₂
    obtain ⟨hp, hd⟩ := hdone db₂ h₂
    obtain ⟨hc, he⟩ := current_of_read hp.1
    obtain ⟨h1, h2⟩ := revoke_standing (fun db hp => ⟨by rw [(current_of_read hp.1).1.row]; rfl, hp.2⟩) hd hc he
      h₂.inv
    exact ⟨h1, h2, trivial⟩

theorem call_ok (E : Env) (T : Counting) (c : Call) {db : Database} (hinv : Standing db) :
    Ok spec (c.program E T) db [] [] [] := by
  cases c with
  | tally q => exact refreshed_ok (fun _ => trivial) fun db' ev hst _ => tally_ok q hst.inv
  | certify q => exact withResult_ok fun db r hr => certify_ok q hr
  | reject q => exact withResult_ok fun db r hr => reject_ok q hr
  | recount q => exact refreshed_ok (fun _ => trivial) fun _ _ _ _ => recount_standing q
  | revoke q => exact refreshed_ok (fun _ => trivial) fun _ _ _ _ => revoke_ok q
  | lifecycle a t =>
    refine transition_ok (k := fun _ => .halt) spec_sound (fun _ _ => trivial) (fun _ b ev ev' db db' hi _ hd => ?_) hinv
    have hb : b = a.1 := hd.moved.action rfl
    subst hb
    obtain ⟨h1, h2⟩ := transition_standing a.2 rfl hd hi
    exact ⟨h1, h2, trivial⟩

/-- **Every run of the operations keeps the invariant.** -/
theorem reach_standing (E : Env) (T : Counting) {db : Database} (h : Standing db) (calls : List Call) :
    Standing (reach E T db calls) ∧ Trail db (reach E T db calls) := by
  refine execAll_induct Trail.refl (fun _ _ _ => Trail.trans) (fun p hp db hi => ?_) h
  obtain ⟨c, -, rfl⟩ := List.mem_map.mp hp
  exact Ok.exec spec_sound Trail.refl (fun _ _ _ => Trail.trans) (fun _ _ _ _ _ h => h) _
    (call_ok E T c hi) hi

/-! ### What the invariant says -/

/-- No result and no certification yet, and no election certified or published. -/
structure Fresh (db : Database) : Prop where
  results : ∀ pk, db.row (.result pk) = none
  certifications : ∀ pk, db.row (.certification pk) = none
  events : ∀ e ev, db.row (.event e) = some ev → ¬Shown ev.status

theorem Fresh.standing {db : Database} (h : Fresh db) : Standing db := by
  have hnone : ∀ pk c, ¬Current db pk c := fun pk c hc => by
    have := hc.row
    rw [h.certifications] at this
    cases this
  refine ⟨fun pk pk' c c' hc => absurd hc (hnone pk c), fun pk c hc => absurd hc (hnone pk c), ?_,
    fun pk c hc => absurd hc (hnone pk c), ?_⟩
  · exact fun e ev he hst => absurd hst (h.events e ev he)
  · intro pk r hr
    rw [h.results] at hr
    cases hr

/-- The certifications of an election with `revoked_at` null. -/
def unrevoked (e : ℕ) : (k : Key) → Row k → Bool
  | .certification _ => fun c => c.election = e && c.revokedAt.isNone
  | _ => fun _ => false

theorem holds_unrevoked {db : Database} {e : ℕ} {k : Key} :
    db.holds (unrevoked e) k = true ↔ ∃ pk c, k = .certification pk ∧ Current db pk c ∧ c.election = e := by
  rw [Db.holds_iff]
  constructor
  · rintro ⟨r, hr, hu⟩
    cases k <;> simp only [unrevoked, Bool.and_eq_true, decide_eq_true_eq, Option.isNone_iff_eq_none,
      Bool.false_eq_true] at hu
    exact ⟨_, r, rfl, ⟨hr, hu.2⟩, hu.1⟩
  · rintro ⟨pk, c, rfl, ⟨hr, hu⟩, he⟩
    exact ⟨c, hr, by simp [unrevoked, he, hu]⟩

/-- What is promised of the elections, the results and the certifications of a
database. -/
structure Lawful (db : Database) : Prop where
  certified : ∀ e ev, db.row (.event e) = some ev → ev.status = .CERTIFIED ∨ ev.status = .PUBLISHED →
    db.count (unrevoked e) = 1
  earlier : ∀ e ev, db.row (.event e) = some ev →
    ev.status ∈ [.DRAFT, .REVIEW, .APPROVED, .SCHEDULED, .OPEN, .PAUSED, .CLOSED, .TALLYING] →
    db.count (unrevoked e) = 0
  archived : ∀ e ev, db.row (.event e) = some ev → ev.status = .ARCHIVED → db.count (unrevoked e) ≤ 1
  result : ∀ pk c, db.row (.certification pk) = some c → c.revokedAt = none →
    ∃ r document, db.row (.result c.result) = some r ∧ r.election = c.election ∧
      r.kind = .OFFICIAL ∧ r.status = .APPROVED ∧ c.payload = .obj document ∧ Carries document r ∧
      ∀ pk' r', db.row (.result pk') = some r' → r'.election = c.election → r'.kind = .OFFICIAL →
        r'.status = .APPROVED → pk' = c.result

theorem Standing.at_most_one {db : Database} (h : Standing db) (e : ℕ) : db.count (unrevoked e) ≤ 1 := by
  refine Db.count_le_one fun k k' hk hk' => ?_
  obtain ⟨pk, c, rfl, hc, he⟩ := holds_unrevoked.mp hk
  obtain ⟨pk', c', rfl, hc', he'⟩ := holds_unrevoked.mp hk'
  rw [h.one pk pk' c c' hc hc' (he.trans he'.symm)]

theorem Standing.lawful {db : Database} (h : Standing db) : Lawful db where
  certified := fun e ev he hst => by
    obtain ⟨pk, c, hc, hce⟩ := h.shown e ev he hst
    refine Nat.le_antisymm (h.at_most_one e) (List.length_pos_of_mem (a := Key.certification pk) ?_)
    rw [Db.mem_select, ← Db.holds_iff]
    exact holds_unrevoked.mpr ⟨pk, c, rfl, hc, hce⟩
  earlier := fun e ev he hst => by
    refine Db.count_eq_zero fun k r hr => ?_
    rw [← Bool.not_eq_true]
    intro hu
    obtain ⟨pk, c, rfl, hc, hce⟩ := holds_unrevoked.mp ((Db.holds_iff db _ k).mpr ⟨r, hr, hu⟩)
    obtain ⟨ev', he', hmay⟩ := h.stands pk c hc
    rw [hce, he] at he'
    cases he'
    rcases hmay with (h' | h') | h' <;> simp [h'] at hst
  archived := fun e _ _ _ => h.at_most_one e
  result := fun pk c hrow hu => by
    have hc : Current db pk c := ⟨hrow, hu⟩
    obtain ⟨r, document, hr, he, ha, hp, hcarries⟩ := h.result pk c hc
    refine ⟨r, document, hr, he, ha.official, ha.approved, hp, hcarries, fun pk' r' hr' he' hk' hs' => ?_⟩
    obtain ⟨pk₁, c₁, hc₁, hres⟩ := h.official pk' r' hr' ⟨hk', hs'⟩
    obtain ⟨r₁, -, hr₁, he₁, -⟩ := h.result pk₁ c₁ hc₁
    rw [hres, hr'] at hr₁
    cases hr₁
    have hsame := h.one pk₁ pk c₁ c hc₁ hc (he₁.symm.trans he')
    subst hsame
    rw [← hres, Option.some.inj (hc₁.row.symm.trans hrow)]

/-- **An election stands under one certification.** After any operations, one
after the other: a certified or published election has exactly one that is
not revoked, an earlier one none and an archived one at most one; its result
is the only approved official one, and the signed document is of that result;
and where two people were needed when it was made, its maker is not the one
who tallied. -/
theorem one_standing_certification (E : Env) (T : Counting) {db : Database} (h : Fresh db)
    (calls : List Call) :
    Lawful (reach E T db calls) ∧
    ∀ before c after, calls = before ++ c :: after → ∀ pk row ev,
      (reach E T db before).row (.certification pk) = none →
      (reach E T db (before ++ [c])).row (.certification pk) = some row →
      (reach E T db before).row (.event row.election) = some ev → ev.dualApprovalRequired = true →
      ∀ row', (reach E T db calls).row (.certification pk) = some row' →
        row'.talliedBy = none ∨ row'.certifiedBy ≠ row'.talliedBy := by
  refine ⟨(reach_standing E T h.standing calls).1.lawful, ?_⟩
  rintro before c after rfl pk row ev hnew hrow hev hdual row' hrow'
  have hsplit : ∀ l l', reach E T db (l ++ l') = reach E T (reach E T db l) l' := fun l l' => by
    rw [reach, List.map_append, execAll_append]
    rfl
  have hbefore := (reach_standing E T h.standing before).1
  have hone := reach_standing E T hbefore [c]
  have hafter := reach_standing E T hone.1 after
  rw [hsplit] at hrow
  rw [List.append_cons, hsplit, hsplit] at hrow'
  obtain ⟨row'', hrow'', -, h1, h2⟩ := hafter.2.stays pk row hrow
  rw [hrow'] at hrow''
  cases hrow''
  rw [h1, h2]
  exact hone.2.separated pk row ev hnew hrow hev hdual

/-! ### Four eyes -/

/-- A closed election that needs two people. -/
def closedElection : Database :=
  Db.empty.set (.event 1)
    (some { startDate := 0, endDate := 1, status := .CLOSED, dualApprovalRequired := true })

theorem closedElection_fresh : Fresh closedElection where
  results := fun pk => by simp [closedElection]
  certifications := fun pk => by simp [closedElection]
  events := fun e ev he => by
    by_cases h1 : e = 1
    · subst h1
      simp only [closedElection, Db.set_row_self, Option.some.injEq] at he
      rw [← he]
      simp [Shown]
    · rw [closedElection, Db.set_row_ne _ _ (by simpa using h1)] at he
      cases he

def threeVotes : Counting where
  institutional := fun _ _ _ _ => ⟨[], "", 3, 0, 3⟩
  paid := fun _ _ => ⟨[], "", 3, 0, 3⟩
  differences := fun _ _ => some []

def officer (pk : ℕ) : User := { pk := pk, username := "", hasPerm := fun _ _ => true }

/-- One officer tallies, another certifies. -/
def fourEyes : List Call :=
  [.tally { event := 1, actor := some (officer 7), resultId := 1, now := fun _ => 2 },
   .certify { result := 1, reviewer := officer 8, certificationId := 1, now := fun _ => 3 }]

theorem one_standing_certification_fourEyes :
    (reach Env.plain threeVotes closedElection fourEyes).count (unrevoked 1) = 1 := by
  have hstatus : ((reach Env.plain threeVotes closedElection fourEyes).row (.event 1)).map (·.status) =
      some .CERTIFIED := by decide +kernel
  obtain ⟨ev, hev, hst⟩ := Option.map_eq_some_iff.mp hstatus
  exact (one_standing_certification Env.plain threeVotes closedElection_fresh fourEyes).1.certified 1 ev hev
    (Or.inl hst)

end Certified
end FlexyVotes
