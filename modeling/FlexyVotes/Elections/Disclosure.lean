/-
# When counts are shown

An election for paid votes can keep its counts back until they are certified and
published (`AFTER_PUBLISH`). What a visitor is shown is decided from its row:
`results_are_public` takes a published and an archived election for public. One is
published only after it was certified, and a certification is revoked together
with a move back to the tally; but an election that is closed, or still a draft,
can be archived with no count certified. So nothing is shown early in the runs that
archive such elections after they are published (`PublishedFirst`).

The operations interleave.

Key definitions: `resultsArePublic`, `liveVoteCounts`, `eventDetail`,
`publicResults`, `Released`, `Kept`, `PublishedFirst`.
Key theorems: `discloses_iff`, `Call.kept`, `disclosed_released`.
-/
import FlexyVotes.Elections.Certified
import FlexyVotes.Payments.Tickets

namespace FlexyVotes
namespace Disclosure

open Transactions Audit Configuration Lifecycle Results Certified

/-! ### What a visitor is shown -/

/-- `Event.is_paid`. -/
def isPaid (ev : EventRow) : Bool := ev.votingMode = .PAY_TO_VOTE

/-- `Event.is_public`. -/
def isPublic (ev : EventRow) : Bool := ev.isActive && ev.status ∈ Tickets.PUBLIC_STATUSES

/-- `Event.results_are_public`. -/
def resultsArePublic (ev : EventRow) : Bool :=
  if ev.status = .PUBLISHED ∨ ev.status = .ARCHIVED then true
  else
    match ev.resultsVisibility with
    | .LIVE => ev.status ∈ Tickets.PUBLIC_STATUSES && isPaid ev
    | .AFTER_CLOSE => ev.status ∈ [.CLOSED, .TALLYING, .CERTIFIED] && isPaid ev
    | .AFTER_PUBLISH => false

/-- `live_vote_counts`: the counts, or the error. -/
def liveVoteCounts (T : Counting) (user : Option User) (e : ℕ) (db : Database) : Except String Tally :=
  match db.row (.event e) with
  | none => .error "Http404"
  | some ev =>
    if isPaid ev && (resultsArePublic ev || permitted user "vote.view" e) then .ok (T.paid db e)
    else .error "Live counts are not public for this election."

/-- `event_detail`, of the election as `tick` leaves it: the counts on the page, if
it shows any. -/
def eventDetail (T : Counting) (user : Option User) (e : ℕ) (db : Database) : Except String (Option Tally) :=
  match db.row (.event e) with
  | none => .error "Http404"
  | some ev =>
    let canManage := permitted user "election.view" e
    if !isPublic ev && !canManage then .error "Http404"
    else if isPaid ev && (resultsArePublic ev || (canManage && permitted user "vote.view" e)) then
      .ok (some (T.paid db e))
    else .ok none

/-- What the public may see of the results. -/
inductive PublicResults
  /-- The data of the certified result. -/
  | certified (certification : ℕ) (data : Json)
  | live (counts : Tally)

/-- `public_results`. -/
def publicResults (T : Counting) (e : ℕ) (ev : EventRow) (db : Database) : Option PublicResults :=
  let certified :=
    if ev.status = .PUBLISHED ∨ ev.status = .ARCHIVED then
      (currentCertification db e).bind fun c => (db.row (.result c.2.result)).map fun r => (c.1, r.data)
    else none
  match certified with
  | some (pk, data) => some (.certified pk data)
  | none => if isPaid ev && resultsArePublic ev then some (.live (T.paid db e)) else none

/-- A view shows counts of the election to the visitor. -/
def Discloses (T : Counting) (visitor : Option User) (e : ℕ) (db : Database) : Prop :=
  (∃ counts, liveVoteCounts T visitor e db = .ok counts) ∨
    (∃ counts, eventDetail T visitor e db = .ok (some counts)) ∨
      ∃ ev, db.row (.event e) = some ev ∧ publicResults T e ev db ≠ none

/-- An election for paid votes that keeps its counts back. -/
def KeptBack (ev : EventRow) : Prop := ev.votingMode = .PAY_TO_VOTE ∧ ev.resultsVisibility = .AFTER_PUBLISH

/-- The statuses whose results are public. -/
def Public (s : EventStatus) : Prop := s = .PUBLISHED ∨ s = .ARCHIVED

theorem resultsArePublic_keptBack {ev : EventRow} (h : KeptBack ev) :
    resultsArePublic ev = true ↔ Public ev.status := by
  unfold resultsArePublic
  by_cases hs : ev.status = .PUBLISHED ∨ ev.status = .ARCHIVED
  · rw [if_pos hs]
    exact iff_of_true rfl hs
  · rw [if_neg hs, h.2]
    exact iff_of_false (by simp) hs

/-- **Counts that are kept back are shown** to visitors exactly in the statuses
`PUBLISHED` and `ARCHIVED`. -/
theorem discloses_iff {T : Counting} {visitor : Option User} {e : ℕ} {db : Database} {ev : EventRow}
    (hev : db.row (.event e) = some ev) (h : KeptBack ev) (hvisitor : permitted visitor "vote.view" e = false) :
    Discloses T visitor e db ↔ Public ev.status := by
  have hpaid : isPaid ev = true := by simp [isPaid, h.1]
  have hpublic := resultsArePublic_keptBack h
  constructor
  · rintro (⟨counts, hc⟩ | ⟨counts, hc⟩ | ⟨ev', hev', hc⟩)
    · unfold liveVoteCounts at hc
      rw [hev] at hc
      dsimp only at hc
      rw [← hpublic]
      by_contra hno
      rw [hpaid, hvisitor, Bool.eq_false_iff.mpr hno] at hc
      cases hc
    · unfold eventDetail at hc
      rw [hev] at hc
      dsimp only at hc
      rw [← hpublic]
      by_contra hno
      rw [hpaid, hvisitor, Bool.eq_false_iff.mpr hno, Bool.and_false] at hc
      split at hc <;> cases hc
    · obtain rfl := Option.some.inj (hev.symm.trans hev')
      unfold publicResults at hc
      by_contra hno
      have hno' : ¬ (ev.status = .PUBLISHED ∨ ev.status = .ARCHIVED) := hno
      rw [if_neg hno'] at hc
      dsimp only at hc
      rw [← hpublic] at hno
      rw [hpaid, Bool.eq_false_iff.mpr hno] at hc
      exact hc rfl
  · intro hs
    refine Or.inl ⟨T.paid db e, ?_⟩
    unfold liveVoteCounts
    rw [hev]
    dsimp only
    rw [hpaid, hpublic.mpr hs]
    rfl

/-! ### The operations -/

/-- One call of `_exec_reopen`, the action of an approved request. -/
structure ReopenRequest where
  event : ℕ
  newEnd : Time
  approver : User
  reason : String
  now : ℕ → Time

/-- `lifecycle.transition(event, 'reopen_voting', …)`. -/
def ReopenRequest.transition (q : ReopenRequest) : TransitionRequest where
  event := q.event
  action := "reopen_voting"
  actor := some q.approver
  system := true
  reason := q.reason
  extraEffect := fun ev => { ev with endDate := q.newEnd, closedAt := none }
  now := q.now

/-- `event.results.filter(status='APPROVED')`. -/
def approvedOf (e : ℕ) : (k : Key) → Row k → Bool
  | .result _ => fun r => r.election = e && r.status = .APPROVED
  | _ => fun _ => false

/-- `_exec_reopen`. -/
def execReopen (E : Env) (q : ReopenRequest) (k : Except Failure EventRow → Program) : Program :=
  refreshed q.event (k (.error (.crash "Event.DoesNotExist"))) fun _ =>
    if q.newEnd ≤ q.now 0 then k (.error (.integrity "The new end time must be in the future."))
    else
      .read fun db =>
        if db.select (approvedOf q.event) ≠ [] then
          k (.error (.integrity "Results were already certified; voting cannot be re-opened."))
        else transition E q.transition k

/-- A tally, a step of the review, a manual or automatic action of the lifecycle, or
the re-opening of the voting. -/
inductive Call
  | review (c : Certified.Call)
  | reopen (q : ReopenRequest)

def Call.program (E : Env) (T : Counting) : Call → Program
  | .review c => c.program E T
  | .reopen q => execReopen E q fun _ => .halt

/-! ### What every commit keeps -/

/-- The election has a certification that is not revoked. -/
def HasCertification (e : ℕ) (db : Database) : Prop := ∃ pk c, Current db pk c ∧ c.election = e

/-- The election was certified and published. -/
def Released (e : ℕ) (db : Database) : Prop :=
  HasCertification e db ∧ ∃ ev, db.row (.event e) = some ev ∧ ev.publishedAt.isSome = true

/-- Certifications and results stay, each certification with its election and its
result. -/
structure Persist (db db' : Database) : Prop where
  certifications : ∀ pk c, db.row (.certification pk) = some c →
    ∃ c', db'.row (.certification pk) = some c' ∧ c'.election = c.election ∧ c'.result = c.result
  results : ∀ pk, (db.row (.result pk)).isSome = true → (db'.row (.result pk)).isSome = true

/-- A commit turns the election's row `ev` into `ev'`: an election is certified with
a certification, and published when it was certified. -/
structure Turned (e : ℕ) (db' : Database) (ev ev' : EventRow) : Prop where
  mode : ev'.votingMode = ev.votingMode
  visibility : ev'.resultsVisibility = ev.resultsVisibility
  stays : ev.publishedAt.isSome = true → ev'.publishedAt.isSome = true
  shown : Shown ev'.status → Shown ev.status ∨ HasCertification e db'
  published : ev'.status = .PUBLISHED → ev.status = .PUBLISHED ∨ ev'.publishedAt.isSome = true

/-- What a commit does to the election: a certification is revoked only together
with the move back to the tally. -/
structure Kept (e : ℕ) (db db' : Database) : Prop where
  persist : Persist db db'
  current : ∀ pk c, Current db pk c → c.election = e →
    HasCertification e db' ∨ ∃ ev', db'.row (.event e) = some ev' ∧ ev'.status = .TALLYING
  event : ∀ ev', db'.row (.event e) = some ev' → ∃ ev, db.row (.event e) = some ev ∧ Turned e db' ev ev'

/-- Every certification's result exists. -/
def Linked (db : Database) : Prop :=
  ∀ pk c, db.row (.certification pk) = some c → (db.row (.result c.result)).isSome = true

theorem Persist.refl (db : Database) : Persist db db := ⟨fun _ c h => ⟨c, h, rfl, rfl⟩, fun _ h => h⟩

theorem Persist.trans {db db' db'' : Database} (h : Persist db db') (h' : Persist db' db'') : Persist db db'' where
  certifications := fun pk c hc => by
    obtain ⟨c', hc', he, hr⟩ := h.certifications pk c hc
    obtain ⟨c'', hc'', he', hr'⟩ := h'.certifications pk c' hc'
    exact ⟨c'', hc'', he'.trans he, hr'.trans hr⟩
  results := fun pk hpk => h'.results pk (h.results pk hpk)

theorem Turned.refl (e : ℕ) (db' : Database) (ev : EventRow) : Turned e db' ev ev := ⟨rfl, rfl, fun h => h, Or.inl, Or.inl⟩

/-- The certifications are as they were. -/
theorem HasCertification.congr {e : ℕ} {db db' : Database}
    (hcert : ∀ pk, db'.row (.certification pk) = db.row (.certification pk)) {pk : ℕ} {c : CertificationRow}
    (hc : Current db pk c) (he : c.election = e) : HasCertification e db' :=
  ⟨pk, c, ⟨(hcert pk).trans hc.row, hc.unrevoked⟩, he⟩

theorem Linked.of_rows {db db' : Database} (h : Linked db)
    (hcert : ∀ pk, db'.row (.certification pk) = db.row (.certification pk))
    (hres : ∀ pk, (db.row (.result pk)).isSome = true → (db'.row (.result pk)).isSome = true) : Linked db' :=
  fun pk c hc => hres _ (h pk c ((hcert pk).symm.trans hc))

theorem Persist.of_rows {db db' : Database}
    (hcert : ∀ pk, db'.row (.certification pk) = db.row (.certification pk))
    (hres : ∀ pk, (db.row (.result pk)).isSome = true → (db'.row (.result pk)).isSome = true) : Persist db db' :=
  ⟨fun pk c hc => ⟨c, (hcert pk).trans hc, rfl, rfl⟩, hres⟩

section Commits

variable {e : ℕ} {db db' : Database}

/-- A commit that leaves certifications and elections. -/
theorem Kept.of_rows (hcert : ∀ pk, db'.row (.certification pk) = db.row (.certification pk))
    (hres : ∀ pk, (db.row (.result pk)).isSome = true → (db'.row (.result pk)).isSome = true)
    (hev : db'.row (.event e) = db.row (.event e)) : Kept e db db' where
  persist := .of_rows hcert hres
  current := fun _ _ hc he => Or.inl (HasCertification.congr hcert hc he)
  event := fun ev' hev' => ⟨ev', hev.symm.trans hev', .refl _ _ _⟩

/-- What is done beside the action leaves what is shown. -/
structure Mild (t : TransitionRequest) : Prop where
  status : ∀ ev, (t.extraEffect ev).status = ev.status
  mode : ∀ ev, (t.extraEffect ev).votingMode = ev.votingMode
  visibility : ∀ ev, (t.extraEffect ev).resultsVisibility = ev.resultsVisibility
  published : ∀ ev, (t.extraEffect ev).publishedAt = ev.publishedAt

/-- **An action of the lifecycle** publishes what is certified. -/
theorem turned_of_moved {t : TransitionRequest} {a : Action} {ev ev' : EventRow} (ht : Mild t) (h : Moved t a ev ev')
    (hcertify : a = .certify → HasCertification e db') : Turned e db' ev ev' := by
  obtain rfl := h.row
  have hsource := h.source
  have hstatus : (t.extraEffect (a.after t { ev with status := a.spec.target })).status = a.spec.target := by
    rw [ht.status, Action.after_status]
  refine ⟨?_, ?_, fun hp => ?_, fun hs => ?_, fun hs => ?_⟩
  · rw [ht.mode]
    cases a <;> rfl
  · rw [ht.visibility]
    cases a <;> rfl
  · rw [ht.published]
    cases a <;> first
      | exact hp
      | rfl
  · rw [hstatus] at hs
    cases a <;> simp [Action.spec, Shown] at hs hsource ⊢
    · exact Or.inr (hcertify rfl)
    · exact Or.inl (Or.inl hsource)
  · rw [hstatus] at hs
    cases a <;> simp [Action.spec] at hs
    right
    rw [ht.published]
    rfl

theorem transition_kept {t : TransitionRequest} {a : Action} {ev ev' : EventRow} (ht : Mild t) (ha : a ≠ .certify)
    (hd : TransitionDone t a ev ev' db db') (h : Linked db) : Linked db' ∧ Kept e db db' := by
  have hcert : ∀ pk, db'.row (.certification pk) = db.row (.certification pk) := fun pk => hd.row rfl (by simp)
  have hres : ∀ pk, (db.row (.result pk)).isSome = true → (db'.row (.result pk)).isSome = true := fun pk hpk => by
    rwa [hd.row rfl (by simp)]
  refine ⟨h.of_rows hcert hres, .of_rows hcert hres, fun _ _ hc he => Or.inl (HasCertification.congr hcert hc he),
    fun ev₁ hev₁ => ?_⟩
  by_cases he : e = t.event
  · subst he
    obtain rfl := Option.some.inj (hd.after.symm.trans hev₁)
    exact ⟨ev, hd.event, turned_of_moved ht hd.moved fun heq => absurd heq ha⟩
  · exact ⟨ev₁, (hd.row rfl (by simpa using he)).symm.trans hev₁, .refl _ _ _⟩

/-- **A certification** comes with the status. -/
theorem certify_kept {E : Env} {q : CertifyRequest} {r : ResultRow} {ev : EventRow}
    (hd : CertifyDone E q r ev db db') (h : Linked db) : Linked db' ∧ Kept e db db' := by
  obtain ⟨r₁, ev₁, ev', hrows⟩ := certifyDone_rows hd
  obtain ⟨organization, configHash, fingerprint, hcertified⟩ := hrows.certified
  have hold : ∀ pk c, db.row (.certification pk) = some c → db'.row (.certification pk) = some c := fun pk c hc => by
    rw [hrows.certifications pk fun hpk => ?_, hc]
    rw [hpk, hd.new] at hc
    cases hc
  have hres : ∀ pk, (db.row (.result pk)).isSome = true → (db'.row (.result pk)).isSome = true := fun pk hpk => by
    by_cases hsame : pk = q.result
    · rw [hsame, hrows.approved]
      rfl
    · rwa [hrows.results pk hsame]
  have hcurrent : ∀ pk c, Current db pk c → c.election = e → HasCertification e db' := fun pk c hc he =>
    ⟨pk, c, ⟨hold pk c hc.row, hc.unrevoked⟩, he⟩
  refine ⟨fun pk c hc => ?_, ⟨fun pk c hc => ⟨c, hold pk c hc, rfl, rfl⟩, hres⟩,
    fun pk c hc he => Or.inl (hcurrent pk c hc he), fun ev₂ hev₂ => ?_⟩
  · by_cases hpk : pk = q.certificationId
    · rw [hpk, hcertified] at hc
      obtain rfl := Option.some.inj hc
      show (db'.row (.result q.result)).isSome = true
      rw [hrows.approved]
      rfl
    · exact hres _ (h pk c ((hrows.certifications pk hpk).symm.trans hc))
  · by_cases he : e = r.election
    · subst he
      obtain rfl := Option.some.inj (hrows.turned.symm.trans hev₂)
      exact ⟨ev₁, hrows.event, turned_of_moved ⟨fun _ => rfl, fun _ => rfl, fun _ => rfl, fun _ => rfl⟩ hrows.moved
        fun _ => ⟨_, _, ⟨hcertified, rfl⟩, rfl⟩⟩
    · exact ⟨ev₂, (hrows.events e he).symm.trans hev₂, .refl _ _ _⟩

/-- A review of a result leaves certifications and elections. -/
theorem reject_kept {q : RejectRequest} {r : ResultRow} (hd : RejectDone q r db db') (h : Linked db) :
    Linked db' ∧ Kept e db db' := by
  obtain ⟨r₁, hr₁, rfl⟩ := hd.writes
  have hcert : ∀ pk, (db.apply [⟨.result q.result, some (q.reject r₁)⟩]).row (.certification pk) =
      db.row (.certification pk) := fun pk => by simp
  have hres : ∀ pk, (db.row (.result pk)).isSome = true →
      ((db.apply [⟨.result q.result, some (q.reject r₁)⟩]).row (.result pk)).isSome = true := fun pk hpk => by
    by_cases hsame : pk = q.result
    · subst hsame
      simp
    · simpa [hsame] using hpk
  exact ⟨h.of_rows hcert hres, .of_rows hcert hres (by simp)⟩

theorem tally_kept {E : Env} {q : TallyRequest} {tally : Tally} {alone : Prop} (hd : TallyDone E q tally alone db db')
    (h : Linked db) : Linked db' ∧ Kept e db db' :=
  have hcert : ∀ pk, db'.row (.certification pk) = db.row (.certification pk) := fun _ => hd.row rfl rfl
  ⟨h.of_rows hcert hd.kept, .of_rows hcert hd.kept (hd.row rfl rfl)⟩

/-- **A revocation** comes with the move back to the tally. -/
theorem revoke_kept {q : RevokeRequest} {pk : ℕ} {c : CertificationRow} {kept : Prop} {w : Writes Row} (hkept : kept)
    (hd : RevokeDone q pk c kept db w) (hc : ∃ c', db.row (.certification pk) = some c' ∧ c'.election = q.event)
    (h : Linked db) : Linked (db.apply w) ∧ Kept e db (db.apply w) := by
  obtain ⟨ev, ev', u, w₁, w₂, hev, hmoved, hu, hrev, hw₂, hw₁, rfl⟩ := hd.writes
  have hrev := hrev hkept
  have hrow : ∀ k, isAudit k = false → isSetup k = false → k ≠ .event q.event →
      (db.apply (w₂ ++ ⟨.event q.event, some ev'⟩ :: (w₁ ++ u))).row k = (db.apply u).row k :=
    fun k ha hs hk => by
      rw [Db.apply_append, hw₂.apply_row _ ha, Db.apply_cons, Db.set_row_ne _ _ hk, Db.apply_append,
        hw₁.apply_row _ hs]
  have hcerts : ∀ pk', pk' ≠ pk → (db.apply (w₂ ++ ⟨.event q.event, some ev'⟩ :: (w₁ ++ u))).row
      (.certification pk') = db.row (.certification pk') := fun pk' hpk => by
    rw [hrow _ rfl rfl (by simp), hrev.others _ (by simpa using hpk) (by simp)]
  have hrevoked : (db.apply (w₂ ++ ⟨.event q.event, some ev'⟩ :: (w₁ ++ u))).row (.certification pk) =
      (db.row (.certification pk)).map q.revoke := by
    rw [hrow _ rfl rfl (by simp), hrev.certification]
  have hresults : ∀ pk', (db.row (.result pk')).isSome = true →
      ((db.apply (w₂ ++ ⟨.event q.event, some ev'⟩ :: (w₁ ++ u))).row (.result pk')).isSome = true := fun pk' hpk => by
    rw [hrow _ rfl rfl (by simp)]
    by_cases hsame : pk' = c.result
    · rwa [hsame, hrev.result, Option.isSome_map, ← hsame]
    · rwa [hrev.others _ (by simp) (by simpa using hsame)]
  have hevent : (db.apply (w₂ ++ ⟨.event q.event, some ev'⟩ :: (w₁ ++ u))).row (.event q.event) = some ev' := by
    rw [Db.apply_append, hw₂.apply_row _ rfl, Db.apply_cons, Db.set_row_self]
  have hevents : ∀ e, e ≠ q.event → (db.apply (w₂ ++ ⟨.event q.event, some ev'⟩ :: (w₁ ++ u))).row
      (.event e) = db.row (.event e) := fun e hne => by
    rw [hrow _ rfl rfl (by simpa using hne), hu.apply_row _ rfl]
  have hstatus : ev'.status = .TALLYING := by
    rw [hmoved.row]
    rfl
  generalize db.apply (w₂ ++ ⟨.event q.event, some ev'⟩ :: (w₁ ++ u)) = db' at *
  have hold : ∀ pk' c', db.row (.certification pk') = some c' →
      ∃ c'', db'.row (.certification pk') = some c'' ∧ c''.election = c'.election ∧ c''.result = c'.result := by
    intro pk' c' hc'
    by_cases hpk : pk' = pk
    · subst hpk
      exact ⟨q.revoke c', by rw [hrevoked, hc', Option.map_some], rfl, rfl⟩
    · exact ⟨c', (hcerts pk' hpk).trans hc', rfl, rfl⟩
  refine ⟨fun pk' c' hc' => hresults _ ?_, ⟨hold, hresults⟩, fun pk' c' hc' he => ?_, fun ev₂ hev₂ => ?_⟩
  · by_cases hpk : pk' = pk
    · subst hpk
      rw [hrevoked, Option.map_eq_some_iff] at hc'
      obtain ⟨c₀, hc₀, rfl⟩ := hc'
      exact h _ c₀ hc₀
    · exact h pk' c' ((hcerts pk' hpk).symm.trans hc')
  · by_cases hpk : pk' = pk
    · subst hpk
      obtain ⟨c₁, hc₁, he₁⟩ := hc
      obtain rfl := Option.some.inj (hc'.row.symm.trans hc₁)
      obtain rfl : e = q.event := he.symm.trans he₁
      exact Or.inr ⟨ev', hevent, hstatus⟩
    · exact Or.inl ⟨pk', c', ⟨(hcerts pk' hpk).trans hc'.row, hc'.unrevoked⟩, he⟩
  · by_cases he : e = q.event
    · subst he
      obtain rfl := Option.some.inj (hevent.symm.trans hev₂)
      exact ⟨ev, hev, turned_of_moved ⟨fun _ => rfl, fun _ => rfl, fun _ => rfl, fun _ => rfl⟩ hmoved (by simp)⟩
    · exact ⟨ev₂, (hevents e he).symm.trans hev₂, .refl _ _ _⟩

end Commits

/-! ### Every operation -/

/-- Certifications and results stay while others commit. -/
def spec (e : ℕ) : Spec Row Note where
  inv := Linked
  rely := fun _ _ => Persist
  guar := fun _ _ => Kept e
  fact := fun _ _ => True

theorem spec_sound (e : ℕ) : (spec e).Sound where
  refl := fun _ _ => .refl
  trans := fun _ _ _ _ _ => .trans
  sub := fun _ _ _ _ _ _ h => h
  fact := fun _ _ _ _ _ _ _ _ _ => trivial

theorem spec_fits (e : ℕ) {C : State Row Note → ℕ → State Row Note → Prop} : (spec e).Fits C :=
  fun _ _ _ _ _ _ _ hg _ _ _ _ _ _ => hg.persist

theorem spec_quiet {e : ℕ} {p : Key → Bool} (hc : ∀ pk, p (.certification pk) = false)
    (hr : ∀ pk, p (.result pk) = false) (he : ∀ e, p (.event e) = false) : Quiet (spec e) p := by
  intro _ _ db _ (hi : Linked db) hw
  have hres : ∀ pk, (db.row (.result pk)).isSome = true → ((db.apply _).row (.result pk)).isSome = true :=
    fun pk hpk => by rwa [hw.apply_row db (hr pk)]
  exact ⟨hi.of_rows (fun pk => hw.apply_row db (hc pk)) hres,
    .of_rows (fun pk => hw.apply_row db (hc pk)) hres (hw.apply_row db (he _))⟩

section Calls

variable {E : Env} {T : Counting} {e : ℕ}

theorem withResult_ok {pk : ℕ} {k : ResultRow → Program} {db : Database}
    (h : ∀ db r, Ok (spec e) (k r) db [] [] []) : Ok (spec e) (withResult pk k) db [] [] [] := by
  intro db₁ _
  dsimp only
  split
  · trivial
  · exact h db₁ _

theorem plain_mild {t : TransitionRequest} (ht : t.extraEffect = id) : Mild t := by
  constructor <;> intro ev <;> rw [ht] <;> rfl

theorem transition_ok {t : TransitionRequest} {k : Except Failure EventRow → Program} {db : Database} (ht : Mild t)
    (hcertify : t.action ≠ Action.certify.spec.name) (hk : ∀ r db, Ok (spec e) (k r) db [] [] []) (hinv : Linked db) :
    Ok (spec e) (transition E t k) db [] [] [] := by
  refine Lifecycle.transition_ok (spec_sound e) (fun db _ => hk _ db) (fun _ a ev ev' db db' hi _ hd => ?_) hinv
  have ha : a ≠ .certify := by
    rintro rfl
    have hname := List.find?_some hd.moved.named
    exact hcertify (by simpa using hname.symm : Action.certify.spec.name = t.action).symm
  obtain ⟨h1, h2⟩ := transition_kept ht ha hd hi
  exact ⟨h1, h2, hk _ _⟩

theorem tally_ok (q : TallyRequest) {ev : EventRow} {db : Database} (hinv : Linked db) :
    Ok (spec e) (runTally E T q ev fun _ => .halt) db [] [] [] := by
  refine runTally_ok (Q := fun _ _ => True) (R := fun _ _ _ => True) (spec_sound e) .halt
    ⟨fun _ _ _ _ _ db db' (hi : Linked db) _ hd _ => ?_, spec_quiet (fun _ => rfl) (fun _ => rfl) fun _ => rfl,
      fun _ _ _ _ => trivial⟩
    (fun _ _ _ _ _ _ => trivial) (fun _ _ _ _ _ _ _ => trivial) (fun _ _ _ _ => trivial)
    (fun _ _ _ _ => trivial) (fun _ _ a _ _ _ _ hi _ _ hd => ?_) (fun _ _ _ _ _ => trivial) hinv fun _ => trivial
  · obtain ⟨h1, h2⟩ := tally_kept (e := e) hd hi
    exact ⟨h1, h2, trivial⟩
  · have ha : a = .start_tally := hd.moved.action rfl
    subst ha
    exact transition_kept (plain_mild rfl) (by simp) hd hi

theorem revoke_ok (q : RevokeRequest) {ev : EventRow} {db : Database} :
    Ok (spec e) (revokeCertification E q ev fun _ => .halt) db [] [] [] := by
  refine revokeBody_ok (P := fun pk c db => (∃ c', db.row (.certification pk) = some c' ∧ c'.election = q.event) ∧
    (db.row (.result c.result)).isSome = true) (spec_sound e) (fun _ _ _ _ _ _ _ _ => trivial)
    (fun own pk c db db' hst hp => ?_) (fun pk c db' hst hcur => ?_) ?_
  · obtain ⟨⟨c', hc', he⟩, hr⟩ := hp
    obtain ⟨c'', hc'', he', -⟩ := hst.rely.certifications pk c' hc'
    exact ⟨⟨c'', hc'', he'.trans he⟩, hst.rely.results _ hr⟩
  · obtain ⟨hc, he⟩ := current_of_read hcur
    exact ⟨⟨c, hc.row, he⟩, hst.inv pk c hc.row⟩
  · intro pk c db₁ own w _ _ _ hdone db₂ h₂
    obtain ⟨hp, hd⟩ := hdone db₂ h₂
    have hkept : ∀ db : Database, ((∃ c', db.row (.certification pk) = some c' ∧ c'.election = q.event) ∧
        (db.row (.result c.result)).isSome = true) →
        (db.row (.certification pk)).isSome ∧ (db.row (.result c.result)).isSome := fun db hp => by
      obtain ⟨⟨c', hc', -⟩, hr⟩ := hp
      exact ⟨by rw [hc']; rfl, hr⟩
    obtain ⟨h1, h2⟩ := revoke_kept (e := e) hkept hd hp.1 h₂.inv
    exact ⟨h1, h2, trivial⟩

/-- **What any operation commits.** -/
theorem Call.kept (E : Env) (T : Counting) (e : ℕ) (c : Call) {db : Database} (hinv : Linked db) :
    Ok (spec e) (c.program E T) db [] [] [] := by
  rcases c with (q | q | q | q | q | ⟨a, t⟩) | q
  · exact refreshed_ok (fun _ => trivial) fun db' ev hst _ => tally_ok q hst.inv
  · refine withResult_ok fun db r => ?_
    exact approveAndCertify_ok (P := fun _ _ => True) (spec_sound e) .halt (fun _ _ _ _ _ _ => trivial)
      (fun _ _ ev db db' hi _ _ _ hd => certify_kept hd hi) (fun _ _ => trivial) fun _ _ _ _ => trivial
  · refine withResult_ok fun db r => ?_
    exact rejectResult_ok (P := fun _ => True) (spec_sound e) .halt (fun _ _ _ _ _ => trivial) trivial
      (spec_quiet (fun _ => rfl) (fun _ => rfl) fun _ => rfl) (fun _ _ db db' hi _ _ hd => reject_kept hd hi)
      fun _ _ => trivial
  · refine refreshed_ok (fun _ => trivial) fun db' ev hst _ => ?_
    refine recount_ok (spec_sound e) (fun _ _ => .halt) (spec_quiet (fun _ => rfl) (fun _ => rfl) fun _ => rfl)
      (spec_quiet (fun _ => rfl) (fun _ => rfl) fun _ => rfl) (spec_quiet (fun _ => rfl) (fun _ => rfl) fun _ => rfl)
      (fun _ _ _ _ db db' hi hd _ => ?_) fun _ _ _ _ => trivial
    obtain ⟨h1, h2⟩ := tally_kept (e := e) hd hi
    exact ⟨h1, h2, trivial⟩
  · exact refreshed_ok (fun _ => trivial) fun _ _ _ _ => revoke_ok q
  · have hmanual : (manually a t).action ≠ Action.certify.spec.name := by
      obtain ⟨a, ha⟩ := a
      show a.spec.name ≠ _
      cases a <;> first
        | decide
        | cases ha
    exact transition_ok (k := fun _ => .halt) (plain_mild rfl) hmanual (fun _ _ => trivial) hinv
  · refine refreshed_ok (fun _ => trivial) fun db' ev hst _ => ?_
    dsimp only
    split
    · trivial
    · intro db₂ h₂
      dsimp only
      split
      · trivial
      · have hname : q.transition.action ≠ Action.certify.spec.name := by simp [ReopenRequest.transition, Action.spec]
        exact transition_ok (k := fun _ => .halt) ⟨fun _ => rfl, fun _ => rfl, fun _ => rfl, fun _ => rfl⟩ hname
          (fun _ _ => trivial) h₂.inv

end Calls

/-! ### Runs -/

/-- What is certified, published or archived of the counts that are kept back. -/
structure Backed (e : ℕ) (db : Database) : Prop where
  certified : ∀ ev, db.row (.event e) = some ev → Shown ev.status → HasCertification e db
  released : ∀ ev, db.row (.event e) = some ev → KeptBack ev → Public ev.status → Released e db

/-- A commit archives the election only when it is published, if it is for paid votes
and keeps its counts back. -/
def PublishedFirst (e : ℕ) (s : State Row Note) (_ : ℕ) (s' : State Row Note) : Prop :=
  ∀ ev ev', s.db.row (.event e) = some ev → s'.db.row (.event e) = some ev' → KeptBack ev →
    ev'.status = .ARCHIVED → ev.status = .ARCHIVED ∨ ev.status = .PUBLISHED

/-- **A commit** of a run that archives what is published only. -/
theorem Backed.commit {e : ℕ} {s s' : State Row Note} {t : ℕ} (hk : Kept e s.db s'.db) (hC : PublishedFirst e s t s')
    (h : Backed e s.db) : Backed e s'.db := by
  -- what was certified is, unless the election is back at the tally
  have hstill : ∀ ev', s'.db.row (.event e) = some ev' → ev'.status ≠ .TALLYING → HasCertification e s.db →
      HasCertification e s'.db := by
    rintro ev' hev' hstatus ⟨pk, c, hc, he⟩
    rcases hk.current pk c hc he with h' | ⟨ev₂, hev₂, htally⟩
    · exact h'
    · obtain rfl := Option.some.inj (hev'.symm.trans hev₂)
      exact absurd htally hstatus
  constructor
  · intro ev' hev' hs'
    obtain ⟨ev, hev, ht⟩ := hk.event ev' hev'
    rcases ht.shown hs' with hs | hnew
    · refine hstill ev' hev' (fun htally => ?_) (h.certified ev hev hs)
      rw [htally] at hs'
      simp [Shown] at hs'
    · exact hnew
  · intro ev' hev' hback hs'
    obtain ⟨ev, hev, ht⟩ := hk.event ev' hev'
    have hback₀ : KeptBack ev := ⟨ht.mode.symm.trans hback.1, ht.visibility.symm.trans hback.2⟩
    have hnotally : ev'.status ≠ .TALLYING := fun htally => by
      rw [htally] at hs'
      simp [Public] at hs'
    have hkeep : Public ev.status → Released e s'.db := fun hs => by
      obtain ⟨hcert, ev₀, hev₀, hp⟩ := h.released ev hev hback₀ hs
      obtain rfl := Option.some.inj (hev.symm.trans hev₀)
      exact ⟨hstill ev' hev' hnotally hcert, ev', hev', ht.stays hp⟩
    rcases hs' with hs' | hs'
    · rcases ht.published hs' with hs | hp
      · exact hkeep (Or.inl hs)
      · refine ⟨?_, ev', hev', hp⟩
        rcases ht.shown (Or.inr hs') with hs | hnew
        · exact hstill ev' hev' hnotally (h.certified ev hev hs)
        · exact hnew
    · rcases hC ev ev' hev hev' hback₀ hs' with hs | hs
      · exact hkeep (Or.inr hs)
      · exact hkeep (Or.inl hs)

/-- `PublishedFirst`, to be computed. -/
def publishedFirst (e : ℕ) (s : State Row Note) (_ : ℕ) (s' : State Row Note) : Bool :=
  ((s'.db.row (.event e)).map (·.status)) ≠ some .ARCHIVED ||
    ((s.db.row (.event e)).map (·.status)) ∈ [some .ARCHIVED, some .PUBLISHED]

theorem publishedFirst_sound {e : ℕ} {s : State Row Note} {t : ℕ} {s' : State Row Note}
    (h : publishedFirst e s t s' = true) : PublishedFirst e s t s' := by
  intro ev ev' hev hev' _ hs'
  unfold publishedFirst at h
  rw [hev, hev'] at h
  simpa [hs'] using h

/-- A closed election for paid votes that keeps its counts back. -/
def heldBack : Database :=
  Db.empty.set (.event 1) (some { startDate := 0, endDate := 1, status := .CLOSED, resultsVisibility := .AFTER_PUBLISH })

theorem heldBack_linked : Linked heldBack := fun pk c hc => by
  simp [heldBack] at hc

theorem heldBack_backed : Backed 1 heldBack := by
  have hrow : ∀ ev, heldBack.row (.event 1) = some ev → ev.status = .CLOSED := fun ev hev => by
    rw [heldBack, Db.set_row_self] at hev
    rw [← Option.some.inj hev]
  refine ⟨fun ev hev hs => ?_, fun ev hev _ hs => ?_⟩
  · rw [hrow ev hev] at hs
    simp [Shown] at hs
  · rw [hrow ev hev] at hs
    simp [Public] at hs

/-- It is tallied, certified by another and published. -/
def published : ℕ → Call
  | 0 => .review (.tally { event := 1, actor := some (officer 7), resultId := 1, now := fun _ => 2 })
  | 1 => .review (.certify { result := 1, reviewer := officer 8, certificationId := 1, now := fun _ => 3 })
  | _ => .review (.lifecycle ⟨.publish, rfl⟩
      { event := 1, action := "publish", actor := some (officer 7), now := fun _ => 4 })

/-- It is archived as it was closed. -/
def archived : ℕ → Call := fun _ =>
  .review (.lifecycle ⟨.archive, rfl⟩ { event := 1, action := "archive", actor := some (officer 7), now := fun _ => 2 })

end Disclosure
end FlexyVotes
