/-
# The roll and the urn

Casts run beside the other requests that write voters: a passcode sign-in, a
change of status, an import and a removal. These save a copy of the voter that
they, or their caller, have read without a lock, so a ballot cast in between
is forgotten on the roll.

In the runs in which nobody votes while another request holds such a copy
(`Undisturbed`), having voted is for good and an election has as many ballots
as voters who voted. The invariant is `Agreed`; a request that holds a copy
relies on its voter not to vote.

Key definitions: `Call`, `Agreed`, `Undisturbed`, `spec`, `Quietly`, `Pending`.
Key theorems: `castDone_agreed`, `Quietly.agreed`, `importRows_ok`, `call_ok`,
`participation_agrees`.
-/
import FlexyVotes.Elections.Authorizations
import FlexyVotes.Elections.VoterAuth

namespace FlexyVotes
namespace Participation

open Transactions Audit Casting Voters VoterAuth Authorizations

/-- One request of the run. -/
inductive Call
  | cast (q : CastRequest)
  | verifyOtp (q : OtpRequest)
  | setStatus (q : StatusRequest)
  | importVoters (q : ImportRequest)
  | removeVoter (q : RemoveRequest)

def Call.program (E : Env) : Call → Program
  | .cast q => castBallot E q fun _ => .halt
  | .verifyOtp q => voterAction q.event q.voter .halt fun ev v => VoterAuth.verifyOtp E q ev v fun _ => .halt
  | .setStatus q => voterAction q.event q.voter .halt fun ev v => Voters.setStatus E q ev v fun _ => .halt
  | .importVoters q => .read fun db =>
    match db.row (.event q.event) with
    | none => .halt
    | some ev => Voters.importVoters E q ev fun _ => .halt
  | .removeVoter q => voterAction q.event q.voter .halt fun ev v => Voters.removeVoter E q ev v fun _ => .halt

/-! ### The invariant -/

def Voted (db : Database) (pk : ℕ) : Prop := ∃ v, db.row (.voter pk) = some v ∧ v.status = .VOTED

/-- A voter of the election who has voted. -/
def votedOf (e : ℕ) : (k : Key) → Row k → Bool
  | .voter _ => fun v => v.election = e && v.status = .VOTED
  | _ => fun _ => false

/-- The primary keys the imports of a run draw are of voters of their
elections, as `home` has it. -/
def Drawn (home : ℕ → ℕ) : Call → Prop
  | .importVoters q => ∀ n, home (q.draw n).pk = q.event
  | _ => True

/-- **The roll and the urn agree.** `home` is the election of each voter, for
good: a primary key is not used again in another election. -/
structure Agreed (home : ℕ → ℕ) (db : Database) : Prop where
  roll : ∀ pk v, db.row (.voter pk) = some v → v.election = home pk
  linked : ∀ h a, db.row (.authorization h) = some a → home a.voter = a.election
  balanced : ∀ e, db.count (votedOf e) = db.count (ballotOf e)

/-- The thread holds a copy of the voter it has not saved yet. -/
def Pending (th : Thread Row Note) (pk : ℕ) : Prop :=
  .seen pk ∈ th.log ∧ .saved pk ∉ th.log ∧ th.prog ≠ .halt

/-- Nobody votes of whom a request holds a copy. -/
def Undisturbed (s : State Row Note) (_ : ℕ) (s' : State Row Note) : Prop :=
  ∀ pk, ¬ Voted s.db pk → Voted s'.db pk → ∀ u, ¬ Pending (s.thr u) pk

/-- Having voted is for good. -/
def Kept (db db' : Database) : Prop := ∀ pk, Voted db pk → Voted db' pk

/-! ### A cast -/

section Cast

variable {E : Env} {home : ℕ → ℕ} {q : CastRequest} {a : AuthorizationRow} {v : VoterRow} {b : BallotRow}
  {db db' : Database}

theorem castDone_voter (hd : CastDone E q a v b db db') (pk : ℕ) :
    db'.row (.voter pk) = if pk = a.voter then some (markVoted v (q.now 3)) else db.row (.voter pk) := by
  rw [castDone_row hd rfl]
  split
  · rename_i he
    subst he
    simp [castWrites]
  · rename_i hne
    simp [castWrites, hne]

theorem castDone_kept (hd : CastDone E q a v b db db') : Kept db db' := fun pk ⟨x, hx, hv⟩ => by
  unfold Voted
  rw [castDone_voter hd]
  split
  · exact ⟨_, rfl, rfl⟩
  · exact ⟨x, hx, hv⟩

theorem castDone_votedOf (hd : CastDone E q a v b db db') (hv : v.election = q.event) (e : ℕ) :
    db'.count (votedOf e) = db.count (votedOf e) + if e = q.event then 1 else 0 := by
  rw [castDone_count hd (fun k r hk => by cases k <;> simp_all [isAudit, votedOf])]
  simp only [castWrites, Db.apply_cons, Db.apply_nil]
  have h := Db.count_set ((((db.set (.ballot q.uuid) (some b)).set (.tracker b.tracker) (some q.uuid)).set
    (.consumed a.voter) (some (tokenHash E q.token))).set (.authorization (tokenHash E q.token))
    (some (consume a (q.now 3)))) (votedOf e) (.voter a.voter) (some (markVoted v (q.now 3)))
  have hcount : ((((db.set (.ballot q.uuid) (some b)).set (.tracker b.tracker) (some q.uuid)).set
      (.consumed a.voter) (some (tokenHash E q.token))).set (.authorization (tokenHash E q.token))
      (some (consume a (q.now 3)))).count (votedOf e) = db.count (votedOf e) := by
    iterate 4 rw [Db.count_set_of_false _ _ _ _ fun _ => rfl]
  have hnot : v.status ≠ .VOTED := fun he => by
    have hc := hd.canVote
    simp [VoterRow.canVote, he] at hc
  rw [hcount] at h
  simp only [Db.set_row_ne _ _ (show ¬ Key.voter _ = Key.authorization _ by simp),
    Db.set_row_ne _ _ (show ¬ Key.voter _ = Key.consumed _ by simp),
    Db.set_row_ne _ _ (show ¬ Key.voter _ = Key.tracker _ by simp),
    Db.set_row_ne _ _ (show ¬ Key.voter _ = Key.ballot _ by simp), hd.voter,
    Option.any_some, votedOf, hnot, markVoted_status, markVoted_election, hv] at h
  by_cases he : e = q.event
  · simpa [he] using h
  · simpa [he, Ne.symm he] using h

/-- **A cast keeps the agreement**: one more ballot, one more voter who voted. -/
theorem castDone_agreed (hd : CastDone E q a v b db db') (h : Agreed home db) : Agreed home db' where
  roll := fun pk x hx => by
    rw [castDone_voter hd] at hx
    split at hx
    · rename_i he
      cases hx
      rw [markVoted_election, he]
      exact h.roll _ v hd.voter
    · exact h.roll pk x hx
  linked := fun t x hx => by
    rw [castDone_authorization hd] at hx
    split at hx
    · cases hx
      exact h.linked _ a hd.authorization
    · exact h.linked t x hx
  balanced := fun e => by
    have hv : v.election = q.event := by
      rw [h.roll _ v hd.voter, h.linked _ a hd.authorization, hd.election]
    rw [castDone_votedOf hd hv, castDone_ballots hd, h.balanced]

end Cast

/-! ### Other commits -/

/-- A commit after which the same voters have voted. -/
structure Quietly (home : ℕ → ℕ) (db db' : Database) : Prop where
  voted : ∀ pk, Voted db' pk ↔ Voted db pk
  roll : ∀ pk v, db'.row (.voter pk) = some v → v.election = home pk
  authorization : ∀ h a, db'.row (.authorization h) = some a →
    ∃ a₀, db.row (.authorization h) = some a₀ ∧ a.voter = a₀.voter ∧ a.election = a₀.election
  ballot : ∀ u, db'.row (.ballot u) = db.row (.ballot u)

theorem Quietly.kept {home : ℕ → ℕ} {db db' : Database} (h : Quietly home db db') : Kept db db' :=
  fun pk => (h.voted pk).mpr

theorem holds_votedOf {home : ℕ → ℕ} {db : Database} (h : ∀ pk v, db.row (.voter pk) = some v → v.election = home pk)
    (e : ℕ) (k : Key) : db.holds (votedOf e) k = true ↔ ∃ pk, k = .voter pk ∧ home pk = e ∧ Voted db pk := by
  rw [Db.holds_iff]
  refine ⟨fun ⟨r, hr, hm⟩ => ?_, ?_⟩
  · cases k with
    | voter pk =>
      simp only [votedOf, Bool.and_eq_true, decide_eq_true_eq] at hm
      exact ⟨pk, rfl, (h pk r hr).symm.trans hm.1, r, hr, hm.2⟩
    | _ => simp [votedOf] at hm
  · rintro ⟨pk, rfl, he, v, hv, hst⟩
    exact ⟨v, hv, by simp [votedOf, h pk v hv, he, hst]⟩

/-- **A quiet commit keeps the agreement.** -/
theorem Quietly.agreed {home : ℕ → ℕ} {db db' : Database} (hq : Quietly home db db') (h : Agreed home db) :
    Agreed home db' where
  roll := hq.roll
  linked := fun t a ha => by
    obtain ⟨a₀, ha₀, hv, he⟩ := hq.authorization t a ha
    rw [hv, he]
    exact h.linked t a₀ ha₀
  balanced := fun e => by
    have hvoted : db'.count (votedOf e) = db.count (votedOf e) := Db.count_congr fun k => by
      rw [Bool.eq_iff_iff, holds_votedOf hq.roll, holds_votedOf h.roll]
      simp only [hq.voted]
    have hballots : db'.count (ballotOf e) = db.count (ballotOf e) := Db.count_congr fun k => by
      cases k with
      | ballot u => simp only [Db.holds, hq.ballot]
      | _ =>
        simp only [Db.holds]
        cases db'.row _ <;> cases db.row _ <;> simp [ballotOf]
    rw [hvoted, hballots, h.balanced]

/-- Keys of no voter, authorization or ballot. -/
def isAside : Key → Bool
  | .voter _ | .authorization _ | .ballot _ => false
  | _ => true

theorem isAside_of_isAudit (k : Key) (h : isAudit k = true) : isAside k = true := by
  cases k <;> simp_all [isAside, isAudit]

theorem isAside_of_isOtp (k : Key) (h : Otp.isOtp k = true) : isAside k = true := by
  cases k <;> simp_all [isAside, Otp.isOtp]

theorem Quietly.aside {home : ℕ → ℕ} {db : Database} {w : Writes Row} (h : Agreed home db)
    (hw : Db.Only isAside w) : Quietly home db (db.apply w) where
  voted := fun pk => by unfold Voted; rw [hw.apply_row _ rfl]
  roll := fun pk v hv => h.roll pk v (by rwa [hw.apply_row _ rfl] at hv)
  authorization := fun t a ha => ⟨a, by rwa [hw.apply_row _ rfl] at ha, rfl, rfl⟩
  ballot := fun u => hw.apply_row _ rfl

/-! ### Every interleaving -/

/-- A request that holds a copy of a voter relies on the voter not to vote. -/
def spec (home : ℕ → ℕ) : Spec Row Note where
  inv := Agreed home
  rely := fun _ log db db' => Kept db db' ∧
    ∀ pk, .seen pk ∈ log → .saved pk ∉ log → Voted db' pk → Voted db pk
  guar := fun _ _ db db' => Kept db db'
  fact := fun _ _ => True

section Ok

variable {E : Env} {home : ℕ → ℕ} {log : List Note} {db : Database}

theorem spec_sound : (spec home).Sound where
  refl := fun _ _ _ => ⟨fun _ h => h, fun _ _ _ h => h⟩
  trans := fun _ _ _ _ _ h h' =>
    ⟨fun pk hv => h'.1 pk (h.1 pk hv), fun pk hs hn hv => h.2 pk hs hn (h'.2 pk hs hn hv)⟩
  sub := fun _ _ _ _ _ _ h => h
  fact := fun _ _ _ _ _ _ _ _ _ => trivial

theorem spec_fits : (spec home).Fits Undisturbed := by
  intro s t s' own hc _ _ hg u own' _ hh _ _
  refine ⟨hg, fun pk hs hn hv => ?_⟩
  by_contra hno
  exact hc pk hno hv u ⟨hs, hn, hh⟩

theorem spec_quiet : Quiet (spec home) isAside := fun _ _ _ _ hi hw =>
  ⟨(Quietly.aside hi hw).agreed hi, (Quietly.aside hi hw).kept⟩

/-- The commit of a quiet write. -/
theorem commit_ok {own : List Key} {w : Writes Row} {k : Program}
    (hq : ∀ db', Stable (spec home) own log db db' → Quietly home db' (db'.apply w))
    (hk : ∀ db', Agreed home db' → Ok (spec home) k db' [] [] log) :
    Ok (spec home) (.commit k) db own w log := fun db' hst =>
  have h := (hq db' hst).agreed hst.inv
  ⟨h, (hq db' hst).kept, hk _ h⟩

/-- The copy `v` of a voter still tells whether the voter has voted. -/
def Faithful (pk : ℕ) (v : VoterRow) (db : Database) : Prop := Voted db pk ↔ v.status = .VOTED

/-- A thread holds the copy: it is marked, or it is of one who has voted. -/
def Held (pk : ℕ) (v : VoterRow) (log : List Note) : Prop :=
  v.status ≠ .VOTED → .seen pk ∈ log ∧ .saved pk ∉ log

theorem faithful_stable {pk : ℕ} {v : VoterRow} (hl : Held pk v log) {own : List Key} {db' : Database}
    (hst : Stable (spec home) own log db db') (h : Faithful pk v db) : Faithful pk v db' := by
  refine ⟨fun hv => ?_, fun hv => hst.rely.1 pk (h.mpr hv)⟩
  by_contra hno
  obtain ⟨hs, hn⟩ := hl hno
  exact hno (h.mp (hst.rely.2 pk hs hn hv))

theorem faithful_lasts {pk : ℕ} {v : VoterRow} (hl : Held pk v log) :
    Lasts (spec home) isAside log (Faithful pk v) where
  stable := fun _ _ _ hst h => faithful_stable hl hst h
  own := fun db w _ hw h => by
    unfold Faithful Voted at *
    rwa [hw.apply_row _ rfl]

/-- **A save of columns** from a copy that is still faithful is quiet. -/
theorem saveFields_ok {pk : ℕ} {v : VoterRow} {f : VoterRow → VoterRow} {gone p : Program}
    (hl : Held pk v log) (hv : Faithful pk v db) (he : ∀ r, (f r).election = r.election)
    (hf : ∀ r, (f r).status = .VOTED ↔ v.status = .VOTED)
    (hgone : ∀ db', Ok (spec home) gone db' [] [] log)
    (hp : ∀ db', Agreed home db' → Ok (spec home) p db' [] [] log) :
    Ok (spec home) (saveFields pk f gone p) db [] [] log := by
  refine Ok.lockRow (fun db₁ r h₁ hr => ?_) fun _ _ db' _ => hgone db'
  refine Ok.put spec_sound (by simp) trivial (commit_ok (fun db₂ h₂ => ?_) hp)
  have hr₂ : db₂.row (.voter pk) = some r := (h₂.held _ (by simp)).trans hr
  have hv₂ := faithful_stable hl h₂ (faithful_stable hl h₁ hv)
  have hrow : ∀ pk', (db₂.apply [⟨.voter pk, some (f r)⟩]).row (.voter pk') =
      if pk' = pk then some (f r) else db₂.row (.voter pk') := fun pk' => by
    by_cases h : pk' = pk
    · subst h
      simp
    · simp [h]
  refine ⟨fun pk' => ?_, fun pk' x hx => ?_, fun t a ha => ⟨a, by simpa using ha, rfl, rfl⟩, fun u => by simp⟩
  · unfold Voted
    rw [hrow]
    split
    · rename_i h
      subst h
      simp only [Option.some.injEq, exists_eq_left']
      rw [hf r]
      exact hv₂.symm
    · rfl
  · rw [hrow] at hx
    split at hx
    · rename_i h
      cases hx
      rw [he, h]
      exact h₂.inv.roll pk r hr₂
    · exact h₂.inv.roll pk' x hx

/-- Deleted rows, of authorizations or of a voter who has not voted. -/
theorem deletes_quietly {w : Writes Row} (h : Agreed home db) (hw : ∀ e ∈ w, e.2 = none)
    (hb : ∀ e ∈ w, ∀ u, e.1 ≠ .ballot u) (hv : ∀ e ∈ w, ∀ pk, e.1 = .voter pk → ¬ Voted db pk) :
    Quietly home db (db.apply w) := by
  have hrow : ∀ k, (db.apply w).row k = db.row k ∨ ((db.apply w).row k = none ∧ ∃ e ∈ w, e.1 = k) := by
    intro k
    by_cases hk : ∃ e ∈ w, e.1 = k
    · refine Or.inr ⟨?_, hk⟩
      clear hb hv
      induction w with
      | nil => obtain ⟨e, he, -⟩ := hk; cases he
      | cons e w ih =>
        obtain ⟨k', r⟩ := e
        have hr : r = none := hw ⟨k', r⟩ (by simp)
        subst hr
        by_cases hkk : k = k'
        · subst hkk
          simp
        · rw [Db.apply_cons, Db.set_row_ne _ _ hkk]
          obtain ⟨e, he, hek⟩ := hk
          rcases List.mem_cons.mp he with rfl | he
          · exact absurd hek.symm hkk
          · exact ih (fun e' he' => hw e' (by simp [he'])) ⟨e, he, hek⟩
    · exact Or.inl (Db.apply_row_of_notMem _ _ _ fun e he hek => hk ⟨e, he, hek⟩)
  refine ⟨fun pk => ?_, fun pk v hpk => ?_, fun t a ha => ?_, fun u => ?_⟩
  · unfold Voted
    rcases hrow (.voter pk) with h' | ⟨h', e, he, hek⟩
    · rw [h']
    · rw [h']
      have := hv e he pk hek
      unfold Voted at this
      simp [this]
  · rcases hrow (.voter pk) with h' | ⟨h', -⟩ <;> rw [h'] at hpk
    · exact h.roll pk v hpk
    · cases hpk
  · rcases hrow (.authorization t) with h' | ⟨h', -⟩ <;> rw [h'] at ha
    · exact ⟨a, ha, rfl, rfl⟩
    · cases ha
  · rcases hrow (.ballot u) with h' | ⟨-, e, he, hek⟩
    · exact h'
    · exact absurd hek (hb e he u)

/-! ### The requests -/

theorem cast_ok (q : CastRequest) : Ok (spec home) (castBallot E q fun _ => .halt) db [] [] [] := by
  refine castBallot_ok (k := fun _ => .halt) (Q := fun _ => True) spec_sound .halt .halt ?_
    (fun _ _ _ _ _ => ⟨trivial, trivial⟩) (fun _ _ _ _ _ => trivial)
  intro own a v b db db' r hinv _ _ _ hd
  exact ⟨castDone_agreed hd hinv, castDone_kept hd, trivial, trivial⟩

/-- A request on a copy of a voter that the console has read. -/
theorem voterAction_ok {e pk : ℕ} {f : EventRow → VoterRow → Program}
    (hf : ∀ db ev v log, Held pk v log → Faithful pk v db → Agreed home db →
      Ok (spec home) (f ev v) db [] [] log) :
    Ok (spec home) (voterAction e pk .halt f) db [] [] [] := by
  intro db₁ h₁
  dsimp only
  split
  · trivial
  · rename_i ev _
    intro db₂ h₂
    dsimp only
    rw [Db.apply_nil]
    split
    · trivial
    · rename_i v hv
      split
      · have hfaith : Faithful pk v db₂ := by
          refine ⟨?_, fun hst => ⟨v, hv, hst⟩⟩
          rintro ⟨x, hx, hst⟩
          rw [hv] at hx
          cases hx
          exact hst
        unfold noteSeen
        split
        · rename_i hst
          exact hf db₂ ev v [] (fun hno => absurd hst hno) hfaith h₂.inv
        · exact ⟨trivial, hf db₂ ev v _ (fun _ => by simp) hfaith h₂.inv⟩
      · trivial

theorem verifyOtp_ok (q : OtpRequest) (ev : EventRow) (v : VoterRow) (hl : Held q.voter v log)
    (hv : Faithful q.voter v db) :
    Ok (spec home) (VoterAuth.verifyOtp E q ev v fun _ => .halt) db [] [] log := by
  refine Otp.verify_ok spec_sound (spec_quiet.mono isAside_of_isOtp)
    ((faithful_lasts hl).mono isAside_of_isOtp) hv (fun db e hi hv => ?_) fun db c hi hv => ?_
  · dsimp only
    split
    · exact recordNow_ok spec_sound (spec_quiet.mono isAside_of_isAudit)
        ((faithful_lasts hl).mono isAside_of_isAudit) hv (fun _ => trivial) fun _ _ _ => trivial
    · trivial
    · rename_i h
      cases h
  · refine saveFields_ok hl hv (fun _ => rfl) (fun r => ?_) (fun _ => trivial) fun _ _ => ⟨trivial, trivial⟩
    simp only [OtpRequest.save]
    split
    · rename_i h
      simp [h]
    · rfl

theorem setStatus_ok (q : StatusRequest) (ev : EventRow) (v : VoterRow) (hl : Held q.voter v log)
    (hv : Faithful q.voter v db) :
    Ok (spec home) (Voters.setStatus E q ev v fun _ => .halt) db [] [] log := by
  have hrecord : ∀ db log, Ok (spec home) (recordNow E (q.entry ev v) .halt .halt) db [] [] log :=
    fun db log => recordNow_ok spec_sound (spec_quiet.mono isAside_of_isAudit) .trivial trivial
      (fun _ => trivial) fun _ _ _ => trivial
  unfold Voters.setStatus
  split
  · trivial
  · split
    · trivial
    · rename_i hnv
      split
      · trivial
      · rename_i hq
        refine saveFields_ok hl hv (fun _ => rfl) (fun r => by simp [StatusRequest.save, hq, hnv])
          (fun _ => trivial) fun db₁ hi => ⟨trivial, ?_⟩
        dsimp only
        split
        · refine Ok.updateWhere_if spec_sound (revoke_not_issued q.voter) fun db₂ own u h₂ _ hu _ => ?_
          refine commit_ok (fun db₃ h₃ => ?_) fun db₄ _ => hrecord db₄ _
          have hu₃ := hu.stable (fun _ h => h) h₃
          have hout : ∀ k, (∀ r, issuedTo q.voter k r = false) → (db₃.apply u).row k = db₃.row k :=
            fun k hk => Db.apply_row_of_notMem _ _ _ fun e he hek => by
              obtain ⟨r, -, hr⟩ := hu₃.meets e he
              subst hek
              rw [hk r] at hr
              cases hr
          refine ⟨fun pk => ?_, fun pk x hx => ?_, fun t a ha => ?_, fun u => hout _ fun _ => rfl⟩
          · unfold Voted
            rw [hout (.voter pk) fun _ => rfl]
          · rw [hout (.voter pk) fun _ => rfl] at hx
            exact h₃.inv.roll pk x hx
          · rcases hu₃.rows (.authorization t) with h | h <;> rw [h] at ha
            · exact ⟨a, ha, rfl, rfl⟩
            · obtain ⟨a₀, ha₀, rfl⟩ := Option.map_eq_some_iff.mp ha
              exact ⟨a₀, ha₀, updated_voter _ _ _, updated_election _ _ _⟩
        · exact hrecord db₁ _

theorem removeVoter_ok (q : RemoveRequest) (ev : EventRow) (v : VoterRow) (hl : Held q.voter v log)
    (hv : Faithful q.voter v db) :
    Ok (spec home) (Voters.removeVoter E q ev v fun _ => .halt) db [] [] log := by
  unfold Voters.removeVoter
  dsimp only
  split
  · trivial
  · split
    · trivial
    · split
      · trivial
      · rename_i hnv
        intro db₁ h₁
        dsimp only
        split
        · trivial
        · refine recordNow_ok spec_sound (spec_quiet.mono isAside_of_isAudit)
            ((faithful_lasts hl).mono isAside_of_isAudit) (faithful_stable hl h₁ hv) (fun _ => trivial)
            fun db₂ hi₂ hv₂ db₃ h₃ => ?_
          -- the authorizations
          refine Ok.deleteEach spec_sound _ (fun db₄ own u h₄ hsub hu db₅ h₅ => ?_) h₃.inv
          rw [List.append_nil]
          have hv₅ : Faithful q.voter v db₅ := faithful_stable hl h₅ <| faithful_stable hl h₄ <|
            faithful_stable hl h₃ hv₂
          have hkeys : ∀ e ∈ u, ∃ t, e.1 = .authorization t := fun e he => by
            obtain ⟨r, -, hr⟩ := (Db.mem_select _ _ _).mp (hu e he).1
            obtain ⟨k, x⟩ := e
            cases k with
            | authorization t => exact ⟨t, rfl⟩
            | _ => simp [authorizationOf] at hr
          have hquiet : Quietly home db₅ (db₅.apply u) := by
            refine deletes_quietly h₅.inv (fun e he => (hu e he).2) (fun e he x hx => ?_) fun e he x hx => ?_ <;>
              obtain ⟨t, ht⟩ := hkeys e he <;> rw [hx] at ht <;> cases ht
          refine ⟨hquiet.agreed h₅.inv, hquiet.kept, fun db₆ h₆ => ?_⟩
          have hv₆ : Faithful q.voter v db₆ :=
            faithful_stable hl h₆ ((hquiet.voted q.voter).trans hv₅)
          dsimp only
          split
          · trivial
          · -- the voter
            refine Ok.deleteEach spec_sound _ (fun db₇ own u h₇ hsub hu => ?_) h₆.inv
            rw [List.append_nil]
            refine commit_ok (fun db₈ h₈ => ?_) fun _ _ => ⟨trivial, trivial⟩
            have hv₈ := faithful_stable hl h₈ (faithful_stable hl h₇ hv₆)
            refine deletes_quietly h₈.inv (fun e he => (hu e he).2) (fun e he x hx => ?_) fun e he x hx => ?_
            · have := (hu e he).1
              rw [hx] at this
              simp [rowsOf] at this
            · have := (hu e he).1
              rw [hx] at this
              simp only [rowsOf, List.mem_cons, Key.voter.injEq, List.mem_append, Option.mem_toList,
                Option.map_eq_some_iff, reduceCtorEq, and_false, exists_false, or_false] at this
              rw [this]
              exact fun h => hnv (hv₈.mp h)

/-! ### An import -/

/-- A write of an import: of a voter who has not voted, or of the unique
columns of one. -/
def Clean (home : ℕ → ℕ) (db : Database) : ((k : Key) × Option (Row k)) → Prop
  | ⟨.voter pk, r⟩ => ¬ Voted db pk ∧ ∀ v, r = some v → v.status ≠ .VOTED ∧ v.election = home pk
  | ⟨.identifier _ _, _⟩ | ⟨.credential _ _, _⟩ => True
  | _ => False

/-- The copies in memory of whom nobody has voted are marked, or their rows
held. -/
def Marked (home : ℕ → ℕ) (log : List Note) (db : Database) (own : List Key) (pk : ℕ) (v : VoterRow) : Prop :=
  v.status ≠ .VOTED → v.election = home pk ∧ ¬ Voted db pk ∧ (.seen pk ∈ log ∨ .voter pk ∈ own)

/-- An import under way. -/
structure Importing (E : Env) (home : ℕ → ℕ) (rows : List ImportRow) (log : List Note) (db : Database)
    (own : List Key) (w : Writes Row) (existing : Existing) : Prop where
  agreed : Agreed home db
  unsaved : ∀ pk, .saved pk ∉ log
  held : ∀ e ∈ w, e.1 ∈ own
  clean : ∀ e ∈ w, Clean home db e
  memory : ∀ x ∈ existing, (∃ row ∈ rows, row.key E = x.1) → Marked home log db own x.2.1 x.2.2

section Import

variable {rows : List ImportRow} {own : List Key} {w : Writes Row} {existing : Existing}

theorem notVoted_of_held {pk : ℕ} {own : List Key} {db' : Database} (hk : .voter pk ∈ own)
    (hst : Stable (spec home) own log db db') (h : ¬ Voted db pk) : ¬ Voted db' pk := by
  unfold Voted
  rwa [hst.held _ hk]

theorem Marked.stable {pk : ℕ} {v : VoterRow} {db' : Database} (hu : .saved pk ∉ log)
    (h : Marked home log db own pk v) (hst : Stable (spec home) own log db db') :
    Marked home log db' own pk v := fun hv => by
  obtain ⟨h1, h2, h3⟩ := h hv
  refine ⟨h1, ?_, h3⟩
  rcases h3 with h3 | h3
  · exact fun hv' => h2 (hst.rely.2 pk h3 hu hv')
  · exact notVoted_of_held h3 hst h2

theorem Importing.stable {db' : Database} (h : Importing E home rows log db own w existing)
    (hst : Stable (spec home) own log db db') : Importing E home rows log db' own w existing where
  agreed := hst.inv
  unsaved := h.unsaved
  held := h.held
  clean := fun e he => by
    have hown := h.held e he
    have hclean := h.clean e he
    obtain ⟨k, r⟩ := e
    cases k with
    | voter pk => exact ⟨notVoted_of_held hown hst hclean.1, hclean.2⟩
    | _ => exact hclean
  memory := fun x hx hrow => (h.memory x hx hrow).stable (h.unsaved _) hst

/-- One more row held. -/
theorem Importing.hold (h : Importing E home rows log db own w existing) (k : Key) :
    Importing E home rows log db (k :: own) w existing :=
  ⟨h.agreed, h.unsaved, fun e he => List.mem_cons_of_mem _ (h.held e he), h.clean, fun x hx hrow hv => by
    obtain ⟨h1, h2, h3⟩ := h.memory x hx hrow hv
    exact ⟨h1, h2, h3.imp_right fun h => List.mem_cons_of_mem _ h⟩⟩

/-- One more row written. -/
theorem Importing.write (h : Importing E home rows log db own w existing) {k : Key} {r : Option (Row k)}
    (hk : k ∈ own) (hc : Clean home db ⟨k, r⟩) :
    Importing E home rows log db own (⟨k, r⟩ :: w) existing :=
  ⟨h.agreed, h.unsaved, fun e he => (List.mem_cons.mp he).elim (fun he => he ▸ hk) (h.held e),
    fun e he => (List.mem_cons.mp he).elim (fun he => he ▸ hc) (h.clean e), h.memory⟩

/-- One more copy in memory. -/
theorem Importing.remember (h : Importing E home rows log db own w existing) {i : String} {pk : ℕ}
    {v : VoterRow} (hm : Marked home log db own pk v) :
    Importing E home rows log db own w ((i, pk, v) :: existing) :=
  ⟨h.agreed, h.unsaved, h.held, h.clean, fun x hx hrow => by
    rcases List.mem_cons.mp hx with rfl | hx
    · exact hm
    · exact h.memory x hx hrow⟩

/-- One more copy read. -/
theorem Importing.see (h : Importing E home rows log db own w existing) (pk : ℕ) :
    Importing E home rows (.seen pk :: log) db own w existing :=
  ⟨h.agreed, fun pk' => by simp [h.unsaved pk'], h.held, h.clean, fun x hx hrow hv => by
    obtain ⟨h1, h2, h3⟩ := h.memory x hx hrow hv
    exact ⟨h1, h2, h3.imp_left fun h => List.mem_cons_of_mem _ h⟩⟩

/-- What an import sees of a voter tells whether the voter has voted. -/
theorem Importing.view (h : Importing E home rows log db own w existing) {pk : ℕ} {v : VoterRow}
    (hr : (db.apply w).row (.voter pk) = some v) (hv : v.status ≠ .VOTED) :
    v.election = home pk ∧ ¬ Voted db pk := by
  rcases Db.apply_row_cases db (.voter pk) w with hc | hc
  · rw [hc] at hr
    refine ⟨h.agreed.roll pk v hr, fun ⟨x, hx, hst⟩ => hv ?_⟩
    rw [hr] at hx
    cases hx
    exact hst
  · have hclean := h.clean _ hc
    exact ⟨(hclean.2 v hr).2, hclean.1⟩

theorem Importing.view_none (h : Importing E home rows log db own w existing) {pk : ℕ}
    (hr : (db.apply w).row (.voter pk) = none) : ¬ Voted db pk := by
  rcases Db.apply_row_cases db (.voter pk) w with hc | hc
  · rw [hc] at hr
    rintro ⟨x, hx, -⟩
    rw [hr] at hx
    cases hx
  · exact (h.clean _ hc).1

/-- **An import's commit is quiet.** -/
theorem Importing.quietly (h : Importing E home rows log db own w existing) {w' : Writes Row}
    (hw' : AuditOnly w') : Quietly home db (db.apply (w' ++ w)) := by
  have hout : ∀ k, isAudit k = false → (∀ r, ¬ Clean home db ⟨k, r⟩) →
      (db.apply (w' ++ w)).row k = db.row k := fun k hk hc => by
    rw [Db.apply_append, hw'.apply_row _ hk]
    exact (Db.apply_row_cases db k w).resolve_right fun hm => hc _ (h.clean _ hm)
  have hvoter : ∀ pk, (db.apply (w' ++ w)).row (.voter pk) = (db.apply w).row (.voter pk) := fun pk => by
    rw [Db.apply_append, hw'.apply_row _ rfl]
  refine ⟨fun pk => ?_, fun pk v hv => ?_, fun t a ha => ?_, fun u => ?_⟩
  · unfold Voted
    rw [hvoter]
    rcases Db.apply_row_cases db (.voter pk) w with hc | hc
    · rw [hc]
    · have hclean := h.clean _ hc
      refine ⟨fun ⟨v, hv, hst⟩ => absurd hst (hclean.2 v hv).1, fun hv => absurd hv hclean.1⟩
  · rw [hvoter] at hv
    rcases Db.apply_row_cases db (.voter pk) w with hc | hc
    · rw [hc] at hv
      exact h.agreed.roll pk v hv
    · exact ((h.clean _ hc).2 v hv).2
  · rw [hout (.authorization t) rfl fun _ hc => hc] at ha
    exact ⟨a, ha, rfl, rfl⟩
  · exact hout (.ballot u) rfl fun _ hc => hc

variable {pk : ℕ} {v : VoterRow} {taken p : Program} (hnot : v.status ≠ .VOTED) (helec : v.election = home pk)
  (hp : ∀ db own w, Importing E home rows log db own w existing → .voter pk ∈ own → ¬ Voted db pk →
    Ok (spec home) p db own w log)

include hp in
/-- The code is inserted, if the voter has one. -/
theorem insertCredential_ok {undo : Program} (h : Importing E home rows log db own w existing) (hk : .voter pk ∈ own)
    (hv : ¬ Voted db pk) (hundo : ∀ db own w, Importing E home rows log db own w existing → .voter pk ∈ own →
      ¬ Voted db pk → (∀ i, v.identifier = some i → .identifier v.election i ∈ own) →
      Ok (spec home) undo db own w log)
    (hi : ∀ i, v.identifier = some i → .identifier v.election i ∈ own) :
    Ok (spec home) (match v.credentialHash with
      | none => p
      | some c => .insert (.credential v.election c) pk fun
        | true => p
        | false => undo) db own w log := by
  split
  · exact hp _ _ _ h hk hv
  · intro db' hst
    refine ⟨fun _ => ?_, fun _ => ?_⟩
    · exact hp _ _ _ (((h.stable hst).hold _).write (by simp) trivial) (List.mem_cons_of_mem _ hk)
        (notVoted_of_held hk hst hv)
    · exact hundo _ _ _ (h.stable hst) hk (notVoted_of_held hk hst hv) hi

include hnot helec hp in
theorem insertVoter_ok (h : Importing E home rows log db own w existing)
    (htaken : ∀ db own w, Importing E home rows log db own w existing → Ok (spec home) taken db own w log) :
    Ok (spec home) (insertVoter pk v taken p) db own w log := by
  -- the voter's own row is taken back
  have hundo : ∀ db own w, Importing E home rows log db own w existing → .voter pk ∈ own → ¬ Voted db pk →
      Ok (spec home) (.put (.voter pk) none taken) db own w log := fun db own w h hk hv =>
    ⟨hk, fun db' hst => htaken _ _ _
      ((h.stable hst).write hk ⟨notVoted_of_held hk hst hv, fun _ hx => by cases hx⟩)⟩
  intro db₁ h₁
  have himp := h.stable h₁
  refine ⟨fun hnone => ?_, fun _ => htaken _ _ _ himp⟩
  have hv₁ : ¬ Voted db₁ pk := himp.view_none hnone
  have himp₁ := (himp.hold (.voter pk)).write (k := .voter pk) (r := some v) (by simp)
    ⟨hv₁, fun x hx => by cases hx; exact ⟨hnot, helec⟩⟩
  dsimp only
  split
  · rename_i hi
    exact insertCredential_ok hp himp₁ (by simp) hv₁ (fun db own w h hk hv _ => hundo db own w h hk hv)
      (fun i h => by rw [hi] at h; cases h)
  · rename_i i hi
    intro db₂ h₂
    have hv₂ := notVoted_of_held (by simp) h₂ hv₁
    refine ⟨fun _ => ?_, fun _ => hundo _ _ _ (himp₁.stable h₂) (by simp) hv₂⟩
    refine insertCredential_ok hp (((himp₁.stable h₂).hold _).write (by simp) trivial) (by simp) hv₂
      (fun db own w h hk hv hi' => ⟨hi' i hi, fun db' hst => ?_⟩) (fun j hj => by rw [hi] at hj; cases hj; simp)
    exact hundo _ _ _ ((h.stable hst).write (hi' i hi) trivial) hk (notVoted_of_held hk hst hv)

include hnot helec hp in
theorem saveVoter_ok (h : Importing E home rows log db own w existing)
    (hm : Marked home log db own pk v)
    (htaken : ∀ db own w, Ok (spec home) taken db own w log) :
    Ok (spec home) (saveVoter pk v taken p) db own w log := by
  refine Ok.lockRow (fun db₁ r h₁ _ => ⟨by simp, fun db₂ h₂ => ?_⟩) fun db₁ h₁ => ?_
  · have hm₁ := (hm.stable (h.unsaved pk) h₁ hnot).2.1
    have hv₂ : ¬ Voted db₂ pk := notVoted_of_held (by simp) h₂ hm₁
    exact hp _ _ _ ((((h.stable h₁).hold _).stable h₂).write (by simp)
      ⟨hv₂, fun x hx => by cases hx; exact ⟨hnot, helec⟩⟩) (by simp) hv₂
  · exact insertVoter_ok hnot helec hp (h.stable h₁) fun db own w _ => htaken db own w

end Import

/-- **Every row of an import** saves a voter who has not voted, or nothing. -/
theorem importRows_ok {q : ImportRequest} {ev : EventRow} {places : List (String × ℕ)} {fail : Program}
    {k : ImportReport → Program} (hdraw : ∀ n, home (q.draw n).pk = q.event)
    (hfail : ∀ db own w log, Ok (spec home) fail db own w log)
    (hk : ∀ report existing log db own w, Importing E home q.rows log db own w existing →
      Ok (spec home) (k report) db own w log) :
    ∀ (rest : List ImportRow) (number : ℕ) (existing : Existing) (report : ImportReport) (log : List Note)
      (db : Database) (own : List Key) (w : Writes Row), (∀ row ∈ rest, row ∈ q.rows) →
      Importing E home q.rows log db own w existing →
      Ok (spec home) (importRows E q ev places fail k rest number existing report) db own w log
  | [], _, existing, report, log, db, own, w, _, h => hk report existing log db own w h
  | row :: rest, number, existing, report, log, db, own, w, hrows, h => by
    have ih : ∀ existing report log db own w, Importing E home q.rows log db own w existing →
        Ok (spec home) (importRows E q ev places fail k rest (number + 1) existing report) db own w log :=
      fun existing report log db own w => importRows_ok hdraw hfail hk rest (number + 1) existing report
        log db own w fun r hr => hrows r (List.mem_cons_of_mem _ hr)
    rw [importRows]
    split
    · exact ih _ _ _ _ _ _ h
    · split
      · exact ih _ _ _ _ _ _ h
      · rename_i place _
        have hupdate : ∀ (pk : ℕ) (v : VoterRow) (log : List Note) (db : Database),
            Importing E home q.rows log db own w existing → Marked home log db own pk v →
            Ok (spec home)
              (if v.status = .VOTED then
                importRows E q ev places fail k rest (number + 1) existing
                  { report with skipped := report.skipped + 1 }
              else
                saveVoter pk (row.onto E place v (q.now 0)) fail <|
                importRows E q ev places fail k rest (number + 1)
                  (if row.key E = "" then existing
                    else (row.key E, pk, row.onto E place v (q.now 0)) :: existing)
                  { report with updated := report.updated + 1 }) db own w log := by
          intro pk v log db h hm
          obtain ⟨hstatus, helec⟩ := onto_status (E := E) row place v (q.now 0)
          split
          · exact ih _ _ _ _ _ _ h
          · rename_i hv
            have hm' : Marked home log db own pk (row.onto E place v (q.now 0)) := by
              unfold Marked
              rw [hstatus, helec]
              exact hm
            refine saveVoter_ok (by rwa [hstatus]) (helec.trans (hm hv).1) (fun db own w h hk hnv => ?_) h hm'
              fun db own w => hfail db own w log
            refine ih _ _ _ _ _ _ ?_
            split
            · exact h
            · exact h.remember fun _ => ⟨helec.trans (hm hv).1, hnv, Or.inr hk⟩
        have hcreate : ∀ (report' report'' : ImportReport) (log : List Note) (db : Database),
            Importing E home q.rows log db own w existing →
            Ok (spec home) (insertVoter (q.draw number).pk (row.created E q ev number place)
              (importRows E q ev places fail k rest (number + 1) existing report')
              (importRows E q ev places fail k rest (number + 1)
                (if row.key E = "" then existing
                  else (row.key E, (q.draw number).pk, row.created E q ev number place) :: existing)
                report'')) db own w log := by
          intro report' report'' log db h
          obtain ⟨hstatus, helec⟩ := created_status (E := E) row q ev number place
          have helec' := helec.trans (hdraw number).symm
          refine insertVoter_ok (by simp [hstatus]) helec' (fun db own w h hk hnv => ?_) h
            fun db own w h => ih _ _ _ _ _ _ h
          refine ih _ _ _ _ _ _ ?_
          split
          · exact h
          · exact h.remember fun _ => ⟨helec', hnv, Or.inr hk⟩
        dsimp only
        by_cases hkey : row.key E = ""
        · simp only [hkey, if_true] at hupdate hcreate ⊢
          intro db₁ h₁
          have himp := h.stable h₁
          dsimp only
          split
          · rename_i pk v hfirst
            have hrow := (firstVoter_row hfirst).1
            unfold noteSeen
            by_cases hv : v.status = .VOTED
            · rw [if_pos hv]
              exact hupdate pk v log db₁ himp fun hno => absurd hv hno
            · rw [if_neg hv]
              obtain ⟨helec, hnv⟩ := himp.view hrow hv
              exact ⟨trivial, hupdate pk v _ db₁ (himp.see pk) fun _ => ⟨helec, hnv, Or.inl (by simp)⟩⟩
          · exact hcreate _ _ log db₁ himp
        · simp only [if_neg hkey] at hupdate hcreate ⊢
          split
          · rename_i pk v hlook
            exact hupdate pk v log db h
              (h.memory _ (mem_of_lookup hlook) ⟨row, hrows row (by simp), rfl⟩)
          · exact hcreate _ _ log db h

theorem mem_existingOf {e : ℕ} {x : String × ℕ × VoterRow} (h : x ∈ existingOf db e) :
    db.row (.voter x.2.1) = some x.2.2 := by
  rw [existingOf, Db.mem_collect] at h
  obtain ⟨k, r, hr, hx⟩ := h
  cases k with
  | voter pk =>
    simp only [Option.ite_none_right_eq_some, Option.map_eq_some_iff] at hx
    obtain ⟨-, i, -, rfl⟩ := hx
    exact hr
  | _ => simp at hx

theorem importVoters_ok {q : ImportRequest} (hdraw : ∀ n, home (q.draw n).pk = q.event) (ev : EventRow)
    (hi : Agreed home db) : Ok (spec home) (Voters.importVoters E q ev fun _ => .halt) db [] [] [] := by
  have hrows : ∀ db, Agreed home db → Ok (spec home) (.read fun db =>
      let places := constituencyLookup E db ev
      .read fun db =>
        let existing := existingOf db q.event
        .noteAll ((named E q.rows existing).map .seen) <|
        importRows E q ev places (.rollback .halt) (fun report =>
          record E (q.entry ev report) (.rollback .halt) (.commit .halt)) q.rows 2 existing {})
      db [] [] [] := by
    intro db₀ _ db₁ _ db₂ h₂
    have hfail : ∀ db own w log, Ok (spec home) (.rollback .halt) db own w log := fun _ _ _ _ _ _ => trivial
    refine Ok.noteAll _ (fun _ _ => trivial) ?_
    refine importRows_ok hdraw hfail (fun report existing log db own w h => ?_) q.rows 2 _ _ _
      db₂ [] [] (fun _ h => h) ⟨h₂.inv, fun pk => by simp, by simp, by simp, fun x hx ⟨row, hrow, hkey⟩ hv => ?_⟩
    · refine record_ok spec_sound (fun _ _ _ _ _ _ _ => trivial) fun db₃ own₃ w₃ h₃ hsub hw₃ => ?_
      refine commit_ok (fun db₄ h₄ => ?_) fun _ _ => trivial
      exact (h.stable (h₃.trans spec_sound (h₄.sub spec_sound hsub))).quietly hw₃
    · have hx' := mem_existingOf hx
      refine ⟨h₂.inv.roll _ _ hx', fun ⟨y, hy, hst⟩ => hv ?_, Or.inl ?_⟩
      · rw [Db.apply_nil] at hx'
        rw [hx'] at hy
        cases hy
        exact hst
      · simp only [List.append_nil, List.mem_reverse, List.mem_map, Note.seen.injEq, exists_eq_right]
        rw [named, List.mem_filterMap]
        exact ⟨x, hx, by simp [hv]; exact ⟨row, hrow, hkey⟩⟩
  unfold Voters.importVoters
  split
  · trivial
  · split
    · trivial
    · unfold checkPlanLimit
      split
      · exact hrows db hi
      · intro db₁ h₁
        dsimp only
        split
        · trivial
        · exact hrows db₁ h₁.inv

theorem call_ok (c : Call) (hc : Drawn home c) :
    Ok (spec home) (c.program E) db [] [] [] := by
  cases c with
  | cast q => exact cast_ok q
  | verifyOtp q => exact voterAction_ok fun db ev v log hl hv _ => verifyOtp_ok q ev v hl hv
  | setStatus q => exact voterAction_ok fun db ev v log hl hv _ => setStatus_ok q ev v hl hv
  | importVoters q =>
    intro db₁ h₁
    dsimp only
    split
    · trivial
    · exact importVoters_ok hc _ h₁.inv
  | removeVoter q => exact voterAction_ok fun db ev v log hl hv _ => removeVoter_ok q ev v hl hv

end Ok

/-- The requests before their first statement. -/
def start (E : Env) (db : Database) (calls : ℕ → Call) : State Row Note :=
  State.init db fun t => (calls t).program E

/-- **The roll and the urn agree** in the runs in which nobody votes while
another request holds an unsaved copy of the voter: in every state an election
has as many voters who voted as ballots, and a voter who has voted has voted
in every later state. -/
theorem participation_agrees (E : Env) {home : ℕ → ℕ} {db : Database} (h : Agreed home db)
    (calls : ℕ → Call) (hdrawn : ∀ t, Drawn home (calls t)) {s : State Row Note}
    (hr : Run Undisturbed (start E db calls) s) :
    (∀ e, s.db.count (votedOf e) = s.db.count (ballotOf e)) ∧
    ∀ s', Run Undisturbed s s' → Kept s.db s'.db := by
  have hm : Meets (spec home) (start E db calls) := .init h fun t => call_ok (calls t) (hdrawn t)
  have hs := hm.run spec_sound spec_fits hr
  exact ⟨hs.inv.balanced, fun s' hr' => hs.trail spec_sound spec_fits (fun _ _ h => h)
    (fun _ _ _ h h' pk hv => h' pk (h pk hv)) (fun _ _ _ _ _ hg => hg) hr'⟩

/-! ### A ballot without a voter -/

def official : User := { pk := 5, username := "official", hasPerm := fun _ _ => true }

/-- An official suspends the voter; the voter casts a ballot. -/
def suspendAndVote : ℕ → Call
  | 0 => .setStatus { event := 1, voter := 7, status := .SUSPENDED, actor := some official, now := fun _ => 3 }
  | _ => .cast { event := 1, token := "T", payload := .obj [], uuid := "u", nonce := "n",
                 ephemeral := "c", now := fun _ => 1 }

/-- An official verifies the voter; the voter casts a ballot. -/
def verifyAndVote : ℕ → Call
  | 0 => .setStatus { event := 1, voter := 7, status := .VERIFIED, actor := some official, now := fun _ => 3 }
  | t => suspendAndVote t

theorem signedIn_agreed : Agreed (fun _ => 1) signedIn where
  roll := fun pk v hv => by
    by_cases hpk : pk = 7
    · subst hpk
      simp only [signedIn, Db.set_row_ne _ _ (show ¬ Key.voter 7 = Key.authorization _ by simp),
        Db.set_row_ne _ _ (show ¬ Key.voter 7 = Key.ballotKey _ by simp), Db.set_row_self,
        Option.some.injEq] at hv
      rw [← hv]
    · simp [signedIn, hpk] at hv
  linked := fun t a ha => by
    by_cases ht : t = "ballot-token:T"
    · subst ht
      simp only [signedIn, Db.set_row_self, Option.some.injEq] at ha
      rw [← ha]
    · simp [signedIn, ht] at ha
  balanced := fun e => by
    rw [Db.count_eq_zero, Db.count_eq_zero]
    · intro k r hr
      cases k with
      | ballot u => simp [signedIn] at hr
      | _ => rfl
    · intro k r hr
      cases k with
      | voter pk =>
        by_cases hpk : pk = 7
        · subst hpk
          simp only [signedIn, Db.set_row_ne _ _ (show ¬ Key.voter 7 = Key.authorization _ by simp),
            Db.set_row_ne _ _ (show ¬ Key.voter 7 = Key.ballotKey _ by simp), Db.set_row_self,
            Option.some.injEq] at hr
          rw [← hr]
          simp [votedOf]
        · simp [signedIn, hpk] at hr
      | _ => rfl

instance (db : Database) (pk : ℕ) : Decidable (Voted db pk) :=
  decidable_of_iff ((db.row (.voter pk)).any (fun v => v.status = .VOTED) = true) (by
    rw [Option.any_eq_true]
    simp [Voted])

/-- `Undisturbed`, for the first `n` threads. -/
def undisturbed (n : ℕ) (s : State Row Note) (_ : ℕ) (s' : State Row Note) : Bool :=
  (List.range n).all fun u => (s.thr u).prog.ended || (s.thr u).log.all fun
    | .seen pk => decide (.saved pk ∈ (s.thr u).log) || decide (Voted s.db pk) || !decide (Voted s'.db pk)
    | _ => true

theorem undisturbed_sound {n : ℕ} (s : State Row Note) (t : ℕ) (s' : State Row Note) (hn : Silent n s)
    (h : undisturbed n s t s' = true) : Undisturbed s t s' := by
  intro pk hno hv u ⟨hseen, hsaved, hhalt⟩
  have hu : u < n := by
    by_contra hu
    rw [hn u (by omega)] at hseen
    cases hseen
  simp only [undisturbed, List.all_eq_true, List.mem_range, Bool.or_eq_true, Prog.ended_iff] at h
  have := (h u hu).resolve_left hhalt _ hseen
  simp [hno, hv, hsaved] at this

/-- A voter who has voted is suspended, and the urn holds one ballot more than
the roll has voters who voted. -/
theorem not_participation_agrees :
    ¬ ∀ (E : Env) (home : ℕ → ℕ) (db : Database), Agreed home db → ∀ calls : ℕ → Call,
      (∀ t, Drawn home (calls t)) → ∀ s, Run Any (start E db calls) s →
        (∀ e, s.db.count (votedOf e) = s.db.count (ballotOf e)) ∧
        ∀ s', Run Any s s' → Kept s.db s'.db := by
  intro h
  have hsome : (replay (start .plain signedIn suspendAndVote)
      (List.replicate 2 0 ++ List.replicate 17 1 ++ List.replicate 10 0)).isSome = true := by
    decide +kernel
  have hcount : (replay (start .plain signedIn suspendAndVote)
      (List.replicate 2 0 ++ List.replicate 17 1 ++ List.replicate 10 0)).map (fun s =>
        (s.db.count (votedOf 1), s.db.count (ballotOf 1))) = some (0, 1) := by decide +kernel
  obtain ⟨s, hs⟩ := Option.isSome_iff_exists.mp hsome
  rw [hs, Option.map_some, Option.some.injEq, Prod.mk.injEq] at hcount
  have hdrawn : ∀ t, Drawn (fun _ => 1) (suspendAndVote t) := fun t => by
    unfold suspendAndVote
    split <;> trivial
  have := (h .plain _ signedIn signedIn_agreed suspendAndVote hdrawn s (.of_replay _ .refl hs)).1 1
  rw [hcount.1, hcount.2] at this
  cases this

/-- In turn the roll and the urn agree. -/
theorem participation_agrees_inTurn :
    ∃ s, replayIf 2 (undisturbed 2) (start .plain signedIn verifyAndVote)
        (List.replicate 11 0 ++ List.replicate 16 1) = some s ∧
      s.db.count (ballotOf 1) = 1 ∧ s.db.count (votedOf 1) = s.db.count (ballotOf 1) := by
  have hsome : (replayIf 2 (undisturbed 2) (start .plain signedIn verifyAndVote)
      (List.replicate 11 0 ++ List.replicate 16 1)).isSome = true := by decide +kernel
  have hcount : (replayIf 2 (undisturbed 2) (start .plain signedIn verifyAndVote)
      (List.replicate 11 0 ++ List.replicate 16 1)).map (fun s => s.db.count (ballotOf 1)) = some 1 := by
    decide +kernel
  obtain ⟨s, hs⟩ := Option.isSome_iff_exists.mp hsome
  rw [hs, Option.map_some, Option.some.injEq] at hcount
  have hsilent : Silent 2 (start .plain signedIn verifyAndVote) := fun u hu => by
    obtain ⟨n, rfl⟩ := Nat.exists_eq_add_of_le hu
    rw [Nat.add_comm]
    rfl
  have hdrawn : ∀ t, Drawn (fun _ => 1) (verifyAndVote t) := fun t => by
    unfold verifyAndVote suspendAndVote
    split
    · trivial
    · split <;> trivial
  exact ⟨s, hs, hcount, (participation_agrees .plain signedIn_agreed verifyAndVote hdrawn
    (Run.of_replayIf undisturbed_sound _ hsilent .refl hs)).1 1⟩

end Participation
end FlexyVotes
