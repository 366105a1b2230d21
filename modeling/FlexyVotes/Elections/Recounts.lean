/-
# Recounts

A recount is compared with the official result by the hash of its document,
which leaves out the time only. The hash covers the title, the name of the
organization and the turnout, which an election keeps on moving after it is
certified: `set_status` has no guard of the lifecycle, and an organization may
be renamed. So a recount of the same ballots matches while these stay
(`recount_matches`), and one voter who did not vote and is suspended is enough
for it to differ.

`Unmoved` says what a count reads of the tables; `Call` are the operations of a
certified election one after the other.

Key definitions: `Unmoved`, `Counted`, `organizationSettings`, `Call`, `Steady`.
Key theorems: `tally_congr`, `Counted.unmoved`, `Call.keeps`, `recount_recorded`,
`recount_matches`.
-/
import FlexyVotes.Lib.Steps
import FlexyVotes.Core.AuditChain
import FlexyVotes.Elections.Certification
import FlexyVotes.Elections.Documents
import FlexyVotes.Elections.Editing
import FlexyVotes.Elections.Voters

namespace FlexyVotes
namespace Recounts

open Transactions Audit Configuration Lifecycle Ballot Counting Documents Results Casting Voters

/-! ### What a count reads -/

/-- The columns of an election that a count reads. -/
structure Alike (ev ev' : EventRow) : Prop where
  mode : ev'.votingMode = ev.votingMode
  title : ev'.title = ev.title
  organization : ev'.organization = ev.organization
  constituencies : ev'.recordConstituencyOnBallot = ev.recordConstituencyOnBallot
  minimum : ev'.minAnonymitySet = ev.minAnonymitySet

/-- `organization.name`. -/
def nameOf (db : Database) (organization : ℕ) : Option String := (db.row (.organization organization)).map (·.name)

def constituencyName (db : Database) (c : ℕ) : Option String := (db.row (.constituency c)).map (·.name)

/-- The tables with the ballots of an election, what they choose from, its key
and its certification. -/
def isCounted : Key → Bool
  | .constituency _ | .category _ | .candidate _ | .ballotKey _ | .ballot _ | .trusteeShare _ | .certification _
  | .voteTransaction _ => true
  | _ => false

/-- The same is read of these tables. -/
structure SameBallots (E : Env) (e : ℕ) (v v' : Database) : Prop where
  positions : positionsFor (categoriesOf v' e) v' = positionsFor (categoriesOf v e) v
  ballots : ballotsOf v' e = ballotsOf v e
  legacy : legacyVotes v' e = legacyVotes v e
  constituency : constituencyName v' = constituencyName v
  key : privateKeyForTally E v' e = privateKeyForTally E v e
  certification : currentCertification v' e = currentCertification v e

/-- An election that can be recounted. -/
def Recountable (ev : EventRow) : Prop := ev.status ∈ [EventStatus.TALLYING, .CERTIFIED, .PUBLISHED, .ARCHIVED]

instance (ev : EventRow) : Decidable (Recountable ev) := inferInstanceAs (Decidable (_ ∈ _))

/-- **Nothing moved that a recount reads**: the ballots, and of what the hash
covers beside them the title, the name of the organization and the turnout. No
result goes. -/
structure Unmoved (E : Env) (e : ℕ) (v v' : Database) : Prop extends SameBallots E e v v' where
  event : ∀ ev, v.row (.event e) = some ev → Recountable ev →
    ∃ ev', v'.row (.event e) = some ev' ∧ Recountable ev' ∧ Alike ev ev'
  organization : ∀ ev o, v.row (.event e) = some ev → ev.organization = some o → nameOf v' o = nameOf v o
  eligible : v'.count (eligibleOf e) = v.count (eligibleOf e)
  voted : v'.count (votedIn e) = v.count (votedIn e)
  result : ∀ pk r, v.row (.result pk) = some r → v'.row (.result pk) = some r

section Reads

variable {E : Env} {e : ℕ} {v v' : Database} {ev ev' : EventRow}

theorem constituencyTally_congr (hname : constituencyName v' = constituencyName v)
    (hmin : ev'.minAnonymitySet = ev.minAnonymitySet) (seed : String)
    (rows : List (Tally.PositionSpec × List Json)) (c : ℕ) :
    constituencyTally E v' ev' seed rows c = constituencyTally E v ev seed rows c := by
  have hc : (v'.row (.constituency c)).map (·.name) = (v.row (.constituency c)).map (·.name) := congrFun hname c
  unfold constituencyTally
  rw [hc, hmin]

theorem constituencyTallies_congr (hname : constituencyName v' = constituencyName v)
    (hmin : ev'.minAnonymitySet = ev.minAnonymitySet) (seed : String) (specs : List Tally.PositionSpec)
    (valid : List Opened) : ∀ cs, constituencyTallies E v' ev' seed specs valid cs =
      constituencyTallies E v ev seed specs valid cs
  | [] => rfl
  | c :: cs => by
    unfold constituencyTallies
    rw [constituencyTally_congr hname hmin, constituencyTallies_congr hname hmin seed specs valid cs]

/-- **A count depends on what it reads.** -/
theorem tally_congr (h : Unmoved E e v v') (hev : v.row (.event e) = some ev) (halike : Alike ev ev')
    (key : String) (ballots : List (String × BallotRow)) (now : Time) :
    computeInstitutionalTally E v' e ev' key ballots now = computeInstitutionalTally E v e ev key ballots now := by
  have hspecs : positionSpecs (categoriesOf v' e) v' = positionSpecs (categoriesOf v e) v := by
    unfold positionSpecs
    rw [h.positions]
  have horganization : ((ev.organization.bind fun o => v'.row (.organization o)).map (·.name)) =
      (ev.organization.bind fun o => v.row (.organization o)).map (·.name) := by
    cases ho : ev.organization with
    | none => rfl
    | some o => exact h.organization ev o hev ho
  unfold computeInstitutionalTally
  rw [hspecs, h.legacy, h.eligible, h.voted, halike.title, halike.organization, halike.constituencies, horganization]
  simp only [constituencyTallies_congr h.constituency halike.minimum]

/-- The clock shows in the time only. -/
theorem tally_clock {key : String} {ballots : List (String × BallotRow)} {now : Time} {t : InstitutionalTally}
    (h : computeInstitutionalTally E v e ev key ballots now = .ok t) (now' : Time) :
    computeInstitutionalTally E v e ev key ballots now' = .ok { t with generatedAt := now' } := by
  unfold computeInstitutionalTally at h ⊢
  dsimp only at h ⊢
  split at h
  · cases h
  split at h
  · cases h
  split at h
  · cases h
  obtain rfl := Except.ok.inj h
  rfl

end Reads

/-! ### Writes beside the count -/

section Writes

variable {E : Env} {e : ℕ} {v v' : Database} {k : Key}

theorem SameBallots.refl (v : Database) : SameBallots E e v v := ⟨rfl, rfl, rfl, rfl, rfl, rfl⟩

/-- Writes to the other tables. -/
theorem SameBallots.set (hk : isCounted k = false) (r : Option (Row k)) : SameBallots E e v (v.set k r) := by
  have hrow : ∀ x, isCounted x = true → (v.set k r).row x = v.row x := fun x hx =>
    Db.set_row_ne _ _ fun heq => by rw [heq, hk] at hx; cases hx
  have hcategories : categoriesOf (v.set k r) e = categoriesOf v e := categoriesOf_congr (fun _ => hrow _ rfl) e
  have hcandidates : candidatesOf (v.set k r) = candidatesOf v := funext (candidatesOf_congr fun _ => hrow _ rfl)
  have htrustees : trusteesOf (v.set k r) e = trusteesOf v e := by
    unfold trusteesOf
    rw [Db.collect_set (fun r => by cases k <;> first | rfl | cases hk)]
  refine ⟨?_, ?_, ?_, ?_, ?_, ?_⟩
  · unfold positionsFor
    rw [hcategories, hcandidates]
  · unfold ballotsOf
    rw [Db.collect_set fun r => by cases k <;> first | rfl | cases hk]
  · unfold legacyVotes
    simp only [hrow (.candidate _) rfl]
    rw [Db.collect_set fun r => by cases k <;> first | rfl | cases hk]
  · funext c
    unfold constituencyName
    rw [hrow _ rfl]
  · unfold privateKeyForTally
    rw [hrow _ rfl, htrustees]
  · unfold currentCertification
    rw [Db.collect_set fun r => by cases k <;> first | rfl | cases hk]

/-- The tables a count reads, the election and what the turnout is made of. -/
def isRead (k : Key) : Bool :=
  isCounted k || match k with
    | .organization _ | .event _ | .voter _ | .result _ => true
    | _ => false

/-- **Writes to the tables beside the count.** -/
theorem Unmoved.aside (hk : isRead k = false) (r : Option (Row k)) : Unmoved E e v (v.set k r) := by
  have hcounted : isCounted k = false := by
    cases h : isCounted k with
    | false => rfl
    | true => simp [isRead, h] at hk
  have hrow : ∀ x, isRead x = true → (v.set k r).row x = v.row x := fun x hx =>
    Db.set_row_ne _ _ fun heq => by rw [heq, hk] at hx; cases hx
  refine ⟨.set hcounted r, fun ev hev hin => ⟨ev, (hrow _ rfl).trans hev, hin, rfl, rfl, rfl, rfl, rfl⟩,
    fun _ o _ _ => ?_, ?_, ?_, fun _ r' hr' => (hrow _ rfl).trans hr'⟩
  · unfold nameOf
    rw [hrow _ rfl]
  · exact Db.count_set_of_false _ _ _ _ fun r => by cases k <;> first | rfl | cases hk
  · exact Db.count_set_of_false _ _ _ _ fun r => by cases k <;> first | rfl | cases hk

/-- Another result. -/
theorem Unmoved.newResult {pk : ℕ} (hnew : v.row (.result pk) = none) (r : ResultRow) :
    Unmoved E e v (v.set (.result pk) (some r)) := by
  refine ⟨.set rfl _, fun ev hev hin => ⟨ev, (Db.set_row_ne _ _ (by simp)).trans hev, hin, rfl, rfl, rfl, rfl, rfl⟩,
    fun _ o _ _ => ?_, Db.count_set_of_false _ _ _ _ fun _ => rfl, Db.count_set_of_false _ _ _ _ fun _ => rfl,
    fun pk' r' hr' => ?_⟩
  · unfold nameOf
    rw [Db.set_row_ne _ _ (by simp)]
  · rw [Db.set_row_ne _ _ ?_, hr']
    rintro ⟨rfl⟩
    rw [hnew] at hr'
    cases hr'

/-- Another row of the election, of another status. -/
theorem Unmoved.newEvent {ev : EventRow} {ev' : EventRow} (hev : v.row (.event e) = some ev)
    (hin : Recountable ev') (halike : Alike ev ev') : Unmoved E e v (v.set (.event e) (some ev')) := by
  refine ⟨.set rfl _, fun ev₀ hev₀ _ => ⟨ev', Db.set_row_self _ _ _, hin, ?_⟩, fun _ o _ _ => ?_,
    Db.count_set_of_false _ _ _ _ fun _ => rfl, Db.count_set_of_false _ _ _ _ fun _ => rfl, fun _ r' hr' => ?_⟩
  · rw [hev] at hev₀
    exact Option.some.inj hev₀ ▸ halike
  · unfold nameOf
    rw [Db.set_row_ne _ _ (by simp)]
  · rw [Db.set_row_ne _ _ (by simp), hr']

/-- An organization saved; the election's own keeps its name. -/
theorem Unmoved.saveOrganization {pk : ℕ} {o : OrganizationRow}
    (hname : ∀ ev, v.row (.event e) = some ev → ev.organization = some pk → some o.name = nameOf v pk) :
    Unmoved E e v (v.set (.organization pk) (some o)) := by
  refine ⟨.set rfl _, fun ev hev hin => ⟨ev, (Db.set_row_ne _ _ (by simp)).trans hev, hin, rfl, rfl, rfl, rfl, rfl⟩,
    fun ev o' hev ho' => ?_, Db.count_set_of_false _ _ _ _ fun _ => rfl, Db.count_set_of_false _ _ _ _ fun _ => rfl,
    fun _ r' hr' => (Db.set_row_ne _ _ (by simp)).trans hr'⟩
  by_cases hpk : o' = pk
  · subst hpk
    rw [← hname ev hev ho', nameOf, Db.set_row_self]
    rfl
  · unfold nameOf
    rw [Db.set_row_ne _ _ (by simpa using hpk)]

/-- **A voter saved** who is counted as before. -/
theorem Unmoved.saveVoter {pk : ℕ} {x y : VoterRow} (hx : v.row (.voter pk) = some x)
    (heligible : eligibleOf e (.voter pk) y = eligibleOf e (.voter pk) x)
    (hvoted : votedIn e (.voter pk) y = votedIn e (.voter pk) x) : Unmoved E e v (v.set (.voter pk) (some y)) := by
  have hcount : ∀ p : (k : Key) → Row k → Bool, p (.voter pk) y = p (.voter pk) x →
      (v.set (.voter pk) (some y)).count p = v.count p := fun p hp => by
    have h := v.count_set p (.voter pk) (some y)
    rw [hx, Option.any_some, Option.any_some, hp] at h
    omega
  refine ⟨.set rfl _, fun ev hev hin => ⟨ev, (Db.set_row_ne _ _ (by simp)).trans hev, hin, rfl, rfl, rfl, rfl, rfl⟩,
    fun _ o _ _ => ?_, hcount _ heligible, hcount _ hvoted, fun _ r' hr' => (Db.set_row_ne _ _ (by simp)).trans hr'⟩
  unfold nameOf
  rw [Db.set_row_ne _ _ (by simp)]

end Writes

/-! ### A certified count -/

/-- The election is certified, and its count as it stands is the certified one,
but for the time. -/
structure Certifies (E : Env) (F : ℚ → PyFloat) (e : ℕ) (db : Database) (ev : EventRow) (c : ℕ × CertificationRow)
    (r : ResultRow) (key : String) (t : InstitutionalTally) : Prop where
  event : db.row (.event e) = some ev
  institutional : ev.isInstitutional = true
  recountable : Recountable ev
  certification : currentCertification db e = some c
  result : db.row (.result c.2.result) = some r
  data : r.data = .obj (document E F t)
  hash : r.resultHash = resultHash E (document E F t)
  unlocked : privateKeyForTally E db e = .ok key
  count : computeInstitutionalTally E db e ev key (ballotsOf db e) t.generatedAt = .ok t

def Counted (E : Env) (F : ℚ → PyFloat) (e : ℕ) (db : Database) : Prop :=
  ∃ ev c r key t, Certifies E F e db ev c r key t

/-- **The count stands** while nothing moves that it reads. -/
theorem Counted.unmoved {E : Env} {F : ℚ → PyFloat} {e : ℕ} {v v' : Database} (h : Counted E F e v)
    (hm : Unmoved E e v v') : Counted E F e v' := by
  obtain ⟨ev, c, r, key, t, hc⟩ := h
  obtain ⟨ev', hev', hin, halike⟩ := hm.event ev hc.event hc.recountable
  refine ⟨ev', c, r, key, t, hev', ?_, hin, hm.certification.trans hc.certification, hm.result _ _ hc.result, hc.data,
    hc.hash, hm.key.trans hc.unlocked, ?_⟩
  · rw [EventRow.isInstitutional, halike.mode]
    exact hc.institutional
  · rw [hm.ballots, tally_congr hm hc.event halike]
    exact hc.count

/-! ### Operations on a certified election -/

/-- One post of `organization_settings`. -/
structure OrganizationPost where
  organization : ℕ
  /-- `has_perm(request.user, 'org.manage', organization)`. -/
  allowed : Bool
  name : Option String := none
  /-- An SSO issuer is posted that is no `https` URL. -/
  refused : Bool := false
  /-- What the organization has configured afterwards. -/
  sso : Bool := false
  ldap : Bool := false
  request : Option Request := none
  now : Time

/-- `(request.POST.get('name') or organization.name).strip()[:200]`. -/
def OrganizationPost.renamed (E : Env) (q : OrganizationPost) (o : OrganizationRow) : String :=
  truncate 200 (E.strip ((q.name.filter (· ≠ "")).getD o.name))

def OrganizationPost.entry (E : Env) (q : OrganizationPost) (o : OrganizationRow) : Entry where
  eventType := "ORGANIZATION_UPDATED"
  request := q.request
  organization := some q.organization
  targetType := "core.Organization"
  targetId := toString q.organization
  summary := "Organization settings updated"
  changes := Editing.diff [("name", .str o.name)] [("name", .str (q.renamed E o))]
  metadata := .obj [("sso_configured", .bool q.sso), ("ldap_configured", .bool q.ldap)]
  createdAt := q.now

/-- `organization_settings`. -/
def organizationSettings (E : Env) (q : OrganizationPost) : Program :=
  .read fun db =>
    match db.row (.organization q.organization) with
    | none => .halt
    | some o =>
      if !q.allowed then .halt
      else if q.refused then .halt
      else
        .put (.organization q.organization) (some { o with name := q.renamed E o }) <|
        .commit <|
        recordNow E (q.entry E o) .halt .halt

/-- A call on the platform. -/
inductive Call
  | setStatus (q : StatusRequest)
  | organization (q : OrganizationPost)
  /-- `transition` of the election. -/
  | transition (t : TransitionRequest)
  /-- `recount`, with what the clock shows at the count. -/
  | recount (q : RecountRequest) (clock : Time)
  /-- Anything else. -/
  | other (p : Program)

/-- `recount` of the event as its view reads it. -/
def recountAction (E : Env) (F : ℚ → PyFloat) (paid : Database → ℕ → Results.Tally) (q : RecountRequest) (clock : Time) :
    Program :=
  refreshed q.event .halt fun ev => Results.recount E (counting E F paid clock) q ev fun _ => .halt

/-- What a call runs. -/
def Call.program (E : Env) (F : ℚ → PyFloat) (paid : Database → ℕ → Results.Tally) : Call → Program
  | .setStatus q => voterAction q.event q.voter .halt fun ev v => Voters.setStatus E q ev v fun _ => .halt
  | .organization q => organizationSettings E q
  | .transition t => Lifecycle.transition E t fun _ => .halt
  | .recount q clock => recountAction E F paid q clock
  | .other p => p

/-- One call after the other. -/
def step (E : Env) (F : ℚ → PyFloat) (paid : Database → ℕ → Results.Tally) (c : Call) (db : Database) : Database :=
  (c.program E F paid).after db

/-- Excluded from the eligible voters. -/
def isExcluded (s : VoterStatus) : Bool := s = .SUSPENDED || s = .INELIGIBLE

/-- **Calls that leave what the hash covers**: a voter of the election who has
not voted is not moved across the line of the excluded, and its organization
keeps its name. -/
def Steady (E : Env) (e : ℕ) : Call → Database → Prop
  | .setStatus q, db => ∀ v, db.row (.voter q.voter) = some v → v.election = e → q.event = e →
      permitted q.actor "voter.edit" e = true → v.status ≠ .VOTED → q.status ≠ .VOTED →
      isExcluded q.status = isExcluded v.status
  | .organization q, db => ∀ ev o, db.row (.event e) = some ev → ev.organization = some q.organization →
      db.row (.organization q.organization) = some o → q.allowed = true → q.refused = false → q.renamed E o = o.name
  | .transition t, _ => t.event = e ∧ t.extraEffect = id
  | .recount _ _, _ => True
  | .other p, db => Unmoved E e db (p.after db)

section Keeps

variable {E : Env} {F : ℚ → PyFloat} {e : ℕ} {v : Database} {k : Program}

/-- A write that leaves what a count reads. -/
theorem moves {v v' : Database} (hm : Unmoved E e v v') : Preserves (Counted E F e) v v' := fun h => h.unmoved hm

theorem ignores_aside {p : Key → Bool} (hp : ∀ x, p x = true → isRead x = false) :
    Ignores (Preserves (Counted E F e)) p := fun _ _ r hk => moves (.aside (hp _ hk) r)

theorem isRead_of_isAudit (x : Key) (h : isAudit x = true) : isRead x = false := by
  cases x <;> first | rfl | cases h

theorem halts : (Prog.halt : Program).KeepsAll (Preserves (Counted E F e)) := fun _ => .halt Preserves.refl

theorem rolls : (Prog.rollback .halt : Program).KeepsAll (Preserves (Counted E F e)) := fun _ =>
  .rollback Preserves.refl halts

/-- Recording, whatever comes after it. -/
theorem records {a : Entry} {fail : Program} (hfail : fail.KeepsAll (Preserves (Counted E F e)))
    (hk : k.KeepsAll (Preserves (Counted E F e))) : (record E a fail k).Keeps (Preserves (Counted E F e)) v :=
  record_keeps Preserves.trans (ignores_aside isRead_of_isAudit) (fun _ _ => hfail _) fun _ _ => hk _

theorem commits (hk : k.KeepsAll (Preserves (Counted E F e))) :
    (Prog.commit k).KeepsAll (Preserves (Counted E F e)) := fun _ => .commit Preserves.trans Preserves.refl (hk _)

/-- A record of its own at the end. -/
theorem records_now {a : Entry} : (recordNow E a .halt .halt).KeepsAll (Preserves (Counted E F e)) := fun _ =>
  records rolls (commits halts)

/-- **A status** that leaves the turnout. -/
theorem setStatus_keeps {q : StatusRequest} (hsteady : Steady E e (.setStatus q) v) :
    (voterAction q.event q.voter .halt fun ev x => Voters.setStatus E q ev x fun _ => .halt).Keeps
      (Preserves (Counted E F e)) v := by
  refine .read ?_
  cases hev : v.row (.event q.event) with
  | none => exact halts v
  | some ev =>
    refine .read ?_
    cases hx : v.row (.voter q.voter) with
    | none => exact halts v
    | some x =>
      dsimp only
      split
      swap
      · exact halts v
      rename_i helection
      have hcall : (Voters.setStatus E q ev x fun _ => .halt).Keeps (Preserves (Counted E F e)) v := by
        unfold Voters.setStatus
        split
        · exact halts v
        rename_i hperm
        split
        · exact halts v
        rename_i hunvoted
        split
        · exact halts v
        rename_i hstatus
        have hunmoved : Unmoved E e v (v.set (.voter q.voter) (some (q.save x x))) := by
          by_cases he : x.election = e
          · have hperm' : permitted q.actor "voter.edit" e = true := by
              rw [← he, helection]
              exact not_not.mp hperm
            have hexcluded := hsteady x hx he (helection ▸ he) hperm' hunvoted hstatus
            refine .saveVoter hx ?_ ?_
            · simp only [isExcluded] at hexcluded
              unfold eligibleOf StatusRequest.save
              cases hq : q.status <;> cases hs : x.status <;> simp_all
            · unfold votedIn StatusRequest.save
              simp [hunvoted, hstatus]
          · refine .saveVoter hx ?_ ?_ <;> simp [eligibleOf, votedIn, StatusRequest.save, he]
        have hrest : (Prog.note (.saved q.voter) (if q.status = .SUSPENDED ∨ q.status = .INELIGIBLE then
            .updateWhere (issuedTo q.voter) revoke (.commit (recordNow E (q.entry ev x) .halt .halt))
            else recordNow E (q.entry ev x) .halt .halt) : Program).KeepsAll (Preserves (Counted E F e)) := by
          intro v'
          refine .note ?_
          split
          · refine .updateWhere Preserves.trans (p := fun x => !isRead x) (ignores_aside fun x hx => by simpa using hx)
              (fun x r hr => ?_) (commits records_now)
            cases x <;> first | rfl | cases hr
          · exact records_now v'
        refine .lockRow (fun _ => rolls v) fun y hy => ?_
        rw [hx] at hy
        cases hy
        exact .put Preserves.trans (moves hunmoved) (commits hrest _)
      unfold noteSeen
      split
      · exact hcall
      · exact .note hcall

/-- **An organization's settings** that leave its name. -/
theorem organizationSettings_keeps {q : OrganizationPost} (hsteady : Steady E e (.organization q) v) :
    (organizationSettings E q).Keeps (Preserves (Counted E F e)) v := by
  refine .read ?_
  cases ho : v.row (.organization q.organization) with
  | none => exact halts v
  | some o =>
    dsimp only
    split
    · exact halts v
    rename_i hallowed
    split
    · exact halts v
    rename_i hrefused
    refine .put Preserves.trans (moves (.saveOrganization fun ev hev horg => ?_)) (commits records_now _)
    have hname := hsteady ev o hev horg ho (by simpa using hallowed) (by simpa using hrefused)
    unfold nameOf
    rw [ho, hname]
    rfl

/-- What may be done from the statuses in which there are recounts. -/
theorem sources_recountable {a : Action} {ev : EventRow} (hin : Recountable ev) (hsource : ev.status ∈ a.spec.sources) :
    a = .certify ∨ a = .publish ∨ a = .archive ∨ a = .decertify := by
  unfold Recountable at hin
  cases a <;> rcases hs : ev.status <;> simp_all [Action.spec]

/-- **A transition** of the election leaves it to recounts. -/
theorem transition_keeps {t : TransitionRequest} (ht : t.event = e) (hextra : t.extraEffect = id) :
    (Lifecycle.transition E t fun _ => .halt).Keeps (Preserves (Counted E F e)) v := by
  unfold Lifecycle.transition transitionBody
  split
  · exact rolls v
  rename_i a _
  refine .lockRow (fun _ => rolls v) fun locked hlocked => ?_
  dsimp only
  split
  · exact rolls v
  rename_i hsource
  split
  · exact rolls v
  refine .given fun hcounted => ?_
  obtain ⟨ev, c, r, key, x, hc⟩ := hcounted
  have hsame : ev = locked := by
    have hev := hc.event
    rw [← ht, hlocked] at hev
    exact (Option.some.inj hev).symm
  have hin : Recountable locked := hsame ▸ hc.recountable
  have hput : ∀ ev', Recountable ev' → Alike locked ev' →
      (Prog.put (.event t.event) (some (t.extraEffect ev')) <|
        record E (t.entry E a locked.status (t.extraEffect ev')) (.rollback .halt) <|
        .commit .halt : Program).Keeps (Preserves (Counted E F e)) v := fun ev' hin' halike => by
    refine .put Preserves.trans (moves ?_) (records rolls (commits halts))
    rw [hextra, ht]
    exact .newEvent (ht ▸ hlocked) hin' halike
  obtain rfl | rfl | rfl | rfl := sources_recountable hin (not_not.mp hsource)
  · split <;> exact hput _ (of_decide_eq_true rfl) ⟨rfl, rfl, rfl, rfl, rfl⟩
  · split <;> exact hput _ (of_decide_eq_true rfl) ⟨rfl, rfl, rfl, rfl, rfl⟩
  · have harchived := hput { locked with status := .ARCHIVED, archivedAt := some (t.now 2), isActive := false }
      (of_decide_eq_true rfl) ⟨rfl, rfl, rfl, rfl, rfl⟩
    split
    · exact harchived
    · simp only [Action.spec, guardArchive]
      split
      · exact rolls v
      · refine .read ?_
        split
        · exact rolls v
        · exact harchived
  · split <;> exact hput _ (of_decide_eq_true rfl) ⟨rfl, rfl, rfl, rfl, rfl⟩

/-- What a recount's tally is of is no official result. -/
theorem not_official (q : RecountRequest) : q.tally.kind ≠ .OFFICIAL := by
  unfold RecountRequest.tally
  dsimp only
  split <;> nofun

/-- The count of a recount adds a result. -/
theorem runTally_keeps {T : Counting} {q : TallyRequest} {ev : EventRow} {k : Except Failure ResultRow → Program}
    (hkind : q.kind ≠ .OFFICIAL) (hk : ∀ x, (k x).KeepsAll (Preserves (Counted E F e))) :
    (runTally E T q ev k).KeepsAll (Preserves (Counted E F e)) := by
  have hfail : ∀ x, (Prog.rollback (k x)).KeepsAll (Preserves (Counted E F e)) := fun x _ =>
    .rollback Preserves.refl (hk x)
  have hrecord : ∀ tally ballots, (recordResult E q ev tally ballots k).KeepsAll (Preserves (Counted E F e)) := by
    intro tally ballots v
    unfold recordResult
    dsimp only
    rw [if_neg hkind, if_neg fun h => hkind h.2]
    refine .insertOr Preserves.trans (fun hnew => moves (.newResult hnew _)) (fun _ => ?_) (hfail _ v)
    exact records (hfail _) (commits fun v' => .note (hk _ v'))
  intro v
  unfold runTally tallyNow
  rw [if_pos hkind]
  split
  · refine .read ?_
    split
    · exact hk _ v
    · exact .read (.read (hrecord _ _ v))
  · exact .read (hrecord _ _ v)

/-- **A recount** adds a result and a row of its own. -/
theorem recountAction_keeps {paid : Database → ℕ → Results.Tally} {q : RecountRequest} {clock : Time} :
    (recountAction E F paid q clock).KeepsAll (Preserves (Counted E F e)) := by
  have hagainst : ∀ ev reference, (recountAgainst E (counting E F paid clock) q ev reference fun _ => .halt).KeepsAll
      (Preserves (Counted E F e)) := fun ev reference => by
    refine runTally_keeps (not_official q) fun x => ?_
    cases x with
    | error failure => exact halts
    | ok r =>
      intro v
      dsimp only
      split
      · exact halts v
      · refine .insertOr Preserves.trans (fun _ => moves (.aside rfl _)) (fun _ => ?_) (rolls v)
        exact commits records_now _
  intro v
  refine .read ?_
  split
  · exact halts v
  · rename_i ev _
    unfold Results.recount
    split
    · exact halts v
    dsimp only
    split
    · exact halts v
    refine .read ?_
    split
    · exact hagainst ev _ v
    · exact .read (hagainst ev _ v)

/-- **Every steady call** leaves the count. -/
theorem Call.keeps {paid : Database → ℕ → Results.Tally} {c : Call} (hsteady : Steady E e c v)
    (h : Counted E F e v) : Counted E F e (step E F paid c v) := by
  cases c with
  | setStatus q => exact (setStatus_keeps hsteady).after Preserves.refl h
  | organization q => exact (organizationSettings_keeps hsteady).after Preserves.refl h
  | transition t => exact (transition_keeps hsteady.1 hsteady.2).after Preserves.refl h
  | recount q clock => exact (recountAction_keeps v).after Preserves.refl h
  | other p => exact h.unmoved hsteady

end Keeps

/-! ### What a recount records -/

section Recount

variable {E : Env} {F : ℚ → PyFloat} {e : ℕ} {db : Database}

/-- A recount of `e` that may be asked for, and the rows it is going to insert
are free. -/
structure Ready (e : ℕ) (q : RecountRequest) (db : Database) : Prop where
  event : q.event = e
  allowed : permitted q.actor "results.recount" e = true
  result : db.row (.result q.resultId) = none
  recount : db.row (.recount q.recountId) = none
  chain : ∀ ev, db.row (.event e) = some ev →
    db.row (.auditEvent (chainFor ev.organization) ((headOf db (chainFor ev.organization)).seq + 1)) = none

/-- **The count of a recount**, of a count that stands. -/
theorem runTally_exec (paid : Database → ℕ → Results.Tally) (clock : Time) {q : RecountRequest} {ev : EventRow}
    {c : ℕ × CertificationRow} {r : ResultRow} {key : String} {t : InstitutionalTally}
    (h : Certifies E F e db ev c r key t) (hq : Ready e q db) (k : Except Failure ResultRow → Program) :
    ∃ u log, Db.Only (fun x => isAudit x || isResult x) u ∧
      (runTally E (counting E F paid clock) q.tally ev k).exec db [] [] =
        (k (.ok (q.tally.row E (kept E F { t with generatedAt := clock })))).exec (db.apply u) [] log := by
  have hevent : q.tally.event = e := hq.event
  have htally : (counting E F paid clock).institutional db e key (ballotsOf db e) =
      kept E F { t with generatedAt := clock } := by
    unfold counting
    dsimp only
    rw [h.event]
    dsimp only
    rw [tally_clock h.count clock]
  have hfree : ∀ (tally : Results.Tally), (db.apply [⟨.result q.tally.resultId, some (q.tally.row E tally)⟩]).row
      (.auditEvent (chainFor (q.tally.entry E ev tally).organizationId)
        ((headOf (db.apply [⟨.result q.tally.resultId, some (q.tally.row E tally)⟩])
          (chainFor (q.tally.entry E ev tally).organizationId)).seq + 1)) = none := fun tally => by
    unfold headOf
    rw [Db.apply_cons, Db.apply_nil, Db.set_row_ne _ _ (by simp), Db.set_row_ne _ _ (by simp)]
    exact hq.chain ev h.event
  have hnew : (db.apply []).row (.result q.tally.resultId) = none := hq.result
  unfold runTally tallyNow
  rw [if_pos (not_official q), if_pos h.institutional, Prog.exec_read, Db.apply_nil, hevent, h.unlocked]
  dsimp only
  rw [Prog.exec_read, Prog.exec_read, Db.apply_nil, htally]
  unfold recordResult
  dsimp only
  rw [if_neg (not_official q), if_neg fun hand => not_official q hand.2, Prog.exec_insertOr hnew]
  obtain ⟨u, hu, hexec⟩ := record_exec (hfree _)
  rw [hexec, Prog.exec_commit, Prog.exec_note]
  exact ⟨_, _, (hu.mono fun x hx => by simp [hx]).append (.cons rfl .nil), rfl⟩

/-- What follows the count of a recount that is not answered. -/
def recounted (E : Env) (T : Counting) (q : RecountRequest) (ev : EventRow) (reference : Option (ℕ × ResultRow)) :
    Except Failure ResultRow → Program
  | .error _ => .halt
  | .ok r =>
    match differencesTo T reference r with
    | none => .halt
    | some diffs =>
      .insertOr (.recount q.recountId) (q.row reference r diffs) (.rollback .halt) <|
      .commit <|
      recordNow E (q.entry ev reference r diffs) .halt .halt

/-- **A recount of a count that stands matches.** -/
theorem recount_recorded {paid : Database → ℕ → Results.Tally} {clock : Time} {q : RecountRequest}
    (h : Counted E F e db) (hq : Ready e q db) :
    ∃ row, ((recountAction E F paid q clock).after db).row (.recount q.recountId) = some row ∧
      row.isMatch = some true := by
  obtain ⟨ev, c, r, key, t, hc⟩ := h
  set now : InstitutionalTally := { t with generatedAt := clock }
  set diffs := (Differences.differences (Differences.documentOf t) (Differences.documentOf now)).map differenceJson
  have hdiffs : differencesTo (counting E F paid clock) (some (c.2.result, r)) (q.tally.row E (kept E F now)) =
      some diffs := by
    have hreported : reported r.data (.obj (document E F now)) = some diffs := by
      rw [hc.data, reported_documents]
    exact hreported
  have hmatch : (q.row (some (c.2.result, r)) (q.tally.row E (kept E F now)) diffs).isMatch = some true := by
    have hhash : r.resultHash = resultHash E (document E F now) :=
      hc.hash.trans (hash_document E F t clock).symm
    have hsame : sameHash (some (c.2.result, r)) (q.tally.row E (kept E F now)) = true := decide_eq_true hhash
    unfold RecountRequest.row
    rw [hsame]
    rfl
  let after := recounted E (counting E F paid clock) q ev (some (c.2.result, r))
  obtain ⟨u, log, hu, hexec⟩ := runTally_exec paid clock hc hq after
  have hfree : ((db.apply u).apply []).row (.recount q.recountId) = none := (hu.apply_row db rfl).trans hq.recount
  have hstart : (recountAction E F paid q clock).after db = ((runTally E (counting E F paid clock) q.tally ev after).exec
      db [] []).db := by
    unfold Prog.after recountAction refreshed
    rw [Prog.exec_read, Db.apply_nil, hq.event, hc.event]
    dsimp only
    unfold Results.recount
    rw [hq.event, hq.allowed]
    dsimp only
    rw [if_neg (by simp), if_neg (show ¬ ev.status ∉ _ from not_not.mpr hc.recountable), Prog.exec_read, Db.apply_nil, hc.certification]
    dsimp only
    rw [hc.result]
    rfl
  have hrecorded : ∀ a : Entry, (recordNow E a .halt .halt).Only isAudit := fun _ => recordNow_only trivial trivial
  refine ⟨_, ?_, hmatch⟩
  rw [hstart, hexec]
  dsimp only [after, recounted]
  rw [hdiffs]
  dsimp only
  rw [Prog.exec_insertOr hfree, Prog.exec_commit, (hrecorded _).exec_row .nil rfl, Db.apply_cons, Db.set_row_self]

end Recount

/-- **After any run of calls that leave what the hash covers, a recount matches.** -/
theorem recount_matches (E : Env) (F : ℚ → PyFloat) (paid : Database → ℕ → Results.Tally) (e : ℕ) (calls : List Call)
    (db : Database) (h : Counted E F e db) (hsteady : Steps.Always (step E F paid) (Steady E e) calls db)
    (q : RecountRequest) (clock : Time) (hq : Ready e q (Steps.run (step E F paid) calls db)) :
    ∃ row, ((recountAction E F paid q clock).after (Steps.run (step E F paid) calls db)).row (.recount q.recountId) =
      some row ∧ row.isMatch = some true := by
  have hstands : Counted E F e (Steps.run (step E F paid) calls db) :=
    hsteady.run (fun c v hv hc => Call.keeps hc hv) h
  exact recount_recorded hstands hq

/-! ### A voter suspended after the certification -/

section Suspended

/-- Decimals that show their numerator. -/
def shown (x : ℚ) : PyFloat := .finite 0 (toString x.num)

def readable : Env := { clear with sha256 := id }

def guild : EventRow :=
  { organization := some 1, votingMode := .CODE_VOTING, title := "Guild", status := .CERTIFIED, startDate := 0, endDate := 9 }

def certificate : CertificationRow :=
  { election := 1, result := 1, payload := .null, payloadHash := "", signature := "", publicKey := "", keyId := "",
    talliedBy := none, certifiedBy := none, certifiedAt := 6 }

/-- One ballot of two voters. -/
def voted : Database :=
  Db.empty.apply [⟨.organization 1, some ⟨"Campus"⟩⟩, ⟨.event 1, some guild⟩,
    ⟨.category 1, some { event := 1, name := "Chair" }⟩, ⟨.candidate 7, some { category := some 1, event := 1, name := "Ama" }⟩,
    ⟨.ballotKey 1, some { publicKey := "", wrappedPrivateKey := some "" }⟩,
    ⟨.ballot "u", some ⟨1, readable.sealTo "" "\x7b\"election\":1,\"selections\":\x7b\"1\":[7]\x7d\x7d" "1:00" "", "aa", "00",
      none⟩⟩,
    ⟨.voter 1, some { election := 1, status := .VOTED }⟩, ⟨.voter 2, some { election := 1 }⟩,
    ⟨.certification 1, some certificate⟩]

def official : Option InstitutionalTally :=
  (computeInstitutionalTally readable voted 1 guild "" (ballotsOf voted 1) 5).toOption

def officialRow (t : InstitutionalTally) : ResultRow where
  election := 1
  kind := .OFFICIAL
  status := .APPROVED
  data := .obj (document readable shown t)
  resultHash := resultHash readable (document readable shown t)
  bulletinRoot := t.bulletinRoot
  ballotsCounted := t.turnout.ballotsCounted
  eligibleVoters := t.turnout.eligibleVoters
  votesCast := t.turnout.votesCast
  talliedBy := none
  talliedAt := 5

/-- The election certified on its count. -/
def certified : Database := voted.set (.result 1) (official.map officialRow)

theorem certified_counted : Counted readable shown 1 certified := by
  have hok : official.isSome = true := by decide +kernel
  obtain ⟨t, ht⟩ := Option.isSome_iff_exists.mp hok
  have hcount : computeInstitutionalTally readable voted 1 guild "" (ballotsOf voted 1) 5 = .ok t := by
    unfold official at ht
    cases h : computeInstitutionalTally readable voted 1 guild "" (ballotsOf voted 1) 5 with
    | error failure => rw [h] at ht; cases ht
    | ok x => rw [h] at ht; cases ht; rfl
  have hmoved : Unmoved readable 1 voted certified := by
    unfold certified
    rw [ht]
    exact .newResult rfl _
  have hrow : certified.row (.result 1) = some (officialRow t) := by
    unfold certified
    rw [ht, Db.set_row_self]
    rfl
  have htime : t.generatedAt = 5 := by
    have h := tally_clock hcount 5
    rw [hcount] at h
    exact congrArg InstitutionalTally.generatedAt (Except.ok.inj h)
  refine ⟨guild, (1, certificate), officialRow t, "", t, rfl, rfl, by decide, ?_, hrow, rfl, rfl, ?_, ?_⟩
  · rw [hmoved.certification]
    rfl
  · rw [hmoved.key]
    rfl
  · rw [hmoved.ballots, tally_congr hmoved rfl ⟨rfl, rfl, rfl, rfl, rfl⟩, htime]
    exact hcount

/-- The officer moves the voter who did not vote. -/
def moved (status : VoterStatus) : StatusRequest where
  event := 1
  voter := 2
  status := status
  actor := some { pk := 5, username := "officer", hasPerm := fun _ _ => true }
  now := fun _ => 7

def again : RecountRequest where
  event := 1
  actor := some { pk := 5, username := "officer", hasPerm := fun _ _ => true }
  resultId := 2
  recountId := 1
  now := fun _ => 8

/-- Nobody's count, for the elections with paid votes. -/
def noTally : Database → ℕ → Results.Tally := fun _ _ => ⟨[], "", 0, 0, 0⟩

theorem ready_of {db : Database}
    (h : (db.row (.result 2)).isNone ∧ (db.row (.recount 1)).isNone ∧ (db.row (.event 1)).all fun ev =>
      (db.row (.auditEvent (chainFor ev.organization) ((headOf db (chainFor ev.organization)).seq + 1))).isNone) :
    Ready 1 again db := by
  obtain ⟨hresult, hrecount, hchain⟩ := h
  refine ⟨rfl, rfl, Option.isNone_iff_eq_none.mp hresult, Option.isNone_iff_eq_none.mp hrecount, fun ev hev => ?_⟩
  rw [hev] at hchain
  exact Option.isNone_iff_eq_none.mp hchain

deriving instance DecidableEq for CategoryRow
deriving instance DecidableEq for FlexyVotes.CandidateRow
deriving instance DecidableEq for Position

/-- The ballots, the positions and the candidates stay. -/
def Leaves (e : ℕ) (v v' : Database) : Prop :=
  ballotsOf v' e = ballotsOf v e ∧ positionsFor (categoriesOf v' e) v' = positionsFor (categoriesOf v e) v

/-- One eligible voter less, and the same ballot does not match. -/
theorem not_recount_matches :
    ¬ ∀ (E : Env) (F : ℚ → PyFloat) (paid : Database → ℕ → Results.Tally) (e : ℕ) (calls : List Call) (db : Database),
      Counted E F e db → Steps.Always (step E F paid) (fun c v => Leaves e v (step E F paid c v)) calls db →
      ∀ (q : RecountRequest) (clock : Time), Ready e q (Steps.run (step E F paid) calls db) →
      ∃ row, ((recountAction E F paid q clock).after (Steps.run (step E F paid) calls db)).row (.recount q.recountId) =
        some row ∧ row.isMatch = some true := by
  intro h
  have hleaves : Leaves 1 certified (step readable shown noTally (.setStatus (moved .SUSPENDED)) certified) :=
    ⟨by decide +kernel, by decide +kernel⟩
  have hready : Ready 1 again (Steps.run (step readable shown noTally) [.setStatus (moved .SUSPENDED)] certified) :=
    ready_of (by decide +kernel)
  have hdiffers : (((recountAction readable shown noTally again 8).after
      (Steps.run (step readable shown noTally) [.setStatus (moved .SUSPENDED)] certified)).row
      (.recount again.recountId)).map (·.isMatch) = some (some false) := by decide +kernel
  obtain ⟨row, hrow, hmatch⟩ := h readable shown noTally 1 [.setStatus (moved .SUSPENDED)] certified certified_counted
    ⟨hleaves, trivial⟩ again 8 hready
  rw [hrow, Option.map_some, hmatch] at hdiffers
  cases hdiffers

/-- The same recount after the voter is only marked as verified. -/
theorem recount_matches_verified :
    ∃ row, ((recountAction readable shown noTally again 8).after
      (Steps.run (step readable shown noTally) [.setStatus (moved .VERIFIED)] certified)).row (.recount again.recountId) =
        some row ∧ row.isMatch = some true := by
  have hsteady : Steady readable 1 (.setStatus (moved .VERIFIED)) certified := by
    intro v hv _ _ _ _ _
    have hvoter : certified.row (.voter 2) = some { election := 1 } := rfl
    obtain rfl := Option.some.inj (hv.symm.trans hvoter)
    rfl
  have hready : Ready 1 again (Steps.run (step readable shown noTally) [.setStatus (moved .VERIFIED)] certified) :=
    ready_of (by decide +kernel)
  exact recount_matches readable shown noTally 1 [.setStatus (moved .VERIFIED)] certified certified_counted
    ⟨hsteady, trivial⟩ again 8 hready

end Suspended

end Recounts
end FlexyVotes
