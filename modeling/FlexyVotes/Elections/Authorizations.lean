/-
# One ballot for one authorization

Any number of `issue_authorization` and `cast_ballot` transactions run beside
each other, for any voters and tokens. In every committed state an election
has as many ballots as consumed authorizations, and a voter at most one
consumed and one issued authorization; a token whose authorization is revoked
in one state of the run yields no ballot in any.

The invariant is `Register`. A cast keeps it by the lock of its authorization
and the unique constraint on consumed ones; an issue by the lock of its voter:
while a thread holds the voter no other one issues for the voter (`spec.rely`).

Key definitions: `Call`, `Register`, `spec`.
Key theorems: `CastDone.register`, `IssueDone.register`, `call_ok`,
`authorizations_consistent`.
-/
import FlexyVotes.Elections.Casting

namespace FlexyVotes
namespace Authorizations

open Transactions Audit Casting

variable (E : Env)

/-- One transaction of the run. -/
inductive Call
  | issue (q : IssueRequest)
  | cast (q : CastRequest)

def Call.program : Call → Program
  | .issue q => issueAuthorization E q fun _ => .halt
  | .cast q => castBallot E q fun _ => .halt

/-! ### The invariant -/

/-- A ballot of the election. -/
def ballotOf (e : ℕ) : (k : Key) → Row k → Bool
  | .ballot _ => fun b => b.election = e
  | _ => fun _ => false

/-- A consumed authorization of the election. -/
def consumedOf (e : ℕ) : (k : Key) → Row k → Bool
  | .authorization _ => fun a => a.election = e && a.status = .CONSUMED
  | _ => fun _ => false

/-- The authorization under a token hash has the status. -/
def HasStatus (db : Database) (h : String) (st : AuthorizationStatus) : Prop :=
  ∃ a, db.row (.authorization h) = some a ∧ a.status = st

/-- The committed authorizations and ballots agree. -/
structure Register (db : Database) : Prop where
  balanced : ∀ e, db.count (ballotOf e) = db.count (consumedOf e)
  consumed : ∀ h a, db.row (.authorization h) = some a → a.status = .CONSUMED →
    db.row (.consumed a.voter) = some h
  issued : ∀ h h' a a', db.row (.authorization h) = some a → db.row (.authorization h') = some a' →
    a.status = .ISSUED → a'.status = .ISSUED → a.voter = a'.voter → h = h'

/-- Before the first authorization. -/
def Fresh (db : Database) : Prop :=
  (∀ h, db.row (.authorization h) = none) ∧ ∀ u, db.row (.ballot u) = none

theorem Fresh.register {db : Database} (h : Fresh db) : Register db where
  balanced := fun e => by
    rw [Db.count_eq_zero, Db.count_eq_zero]
    · intro k r hr
      cases k <;> simp_all [consumedOf, h.1]
    · intro k r hr
      cases k <;> simp_all [ballotOf, h.2]
  consumed := fun t a ha => by simp [h.1] at ha
  issued := fun t t' a a' ha => by simp [h.1] at ha

variable {E}

/-! ### A cast -/

variable {q : CastRequest} {a : AuthorizationRow} {v : VoterRow} {b : BallotRow} {db db' : Database}

/-- The rows a cast leaves, beside the audit log. -/
theorem castDone_row (hd : CastDone E q a v b db db') {k : Key} (hk : isAudit k = false) :
    db'.row k = (db.apply (castWrites E q a v b)).row k := by
  obtain ⟨w, hw, rfl⟩ := hd.writes
  rw [Db.apply_append, hw.apply_row _ hk]

theorem castDone_authorization (hd : CastDone E q a v b db db') (h : String) :
    db'.row (.authorization h) =
      if h = tokenHash E q.token then some (consume a (q.now 3)) else db.row (.authorization h) := by
  rw [castDone_row hd rfl]
  split
  · rename_i he
    subst he
    simp [castWrites]
  · rename_i hne
    simp [castWrites, hne]

theorem castDone_consumed (hd : CastDone E q a v b db db') (n : ℕ) :
    db'.row (.consumed n) =
      if n = a.voter then some (tokenHash E q.token) else db.row (.consumed n) := by
  rw [castDone_row hd rfl]
  split
  · rename_i he
    subst he
    simp [castWrites]
  · rename_i hne
    simp [castWrites, hne]

theorem castDone_count (hd : CastDone E q a v b db db') {p : (k : Key) → Row k → Bool}
    (hp : ∀ k r, isAudit k = true → p k r = false) :
    db'.count p = (db.apply (castWrites E q a v b)).count p := by
  obtain ⟨w, hw, rfl⟩ := hd.writes
  rw [Db.apply_append, hw.count _ hp]

theorem castDone_ballots (hd : CastDone E q a v b db db') (e : ℕ) :
    db'.count (ballotOf e) = db.count (ballotOf e) + if e = q.event then 1 else 0 := by
  rw [castDone_count hd (fun k r hk => by cases k <;> simp_all [isAudit, ballotOf])]
  have h := Db.count_set db (ballotOf e) (.ballot q.uuid) (some b)
  simp only [hd.newBallot, Option.any_none, Option.any_some, ballotOf, hd.ballot] at h
  simp only [castWrites, Db.apply_cons, Db.apply_nil]
  iterate 4 rw [Db.count_set_of_false _ _ _ _ fun _ => rfl]
  by_cases he : e = q.event
  · simpa [he] using h
  · simpa [he, Ne.symm he] using h

theorem castDone_consumedOf (hd : CastDone E q a v b db db') (e : ℕ) :
    db'.count (consumedOf e) = db.count (consumedOf e) + if e = q.event then 1 else 0 := by
  rw [castDone_count hd (fun k r hk => by cases k <;> simp_all [isAudit, consumedOf])]
  simp only [castWrites, Db.apply_cons, Db.apply_nil]
  rw [Db.count_set_of_false _ _ _ _ fun _ => rfl]
  have h := Db.count_set (((db.set (.ballot q.uuid) (some b)).set (.tracker b.tracker) (some q.uuid)).set
    (.consumed a.voter) (some (tokenHash E q.token))) (consumedOf e) (.authorization (tokenHash E q.token))
    (some (consume a (q.now 3)))
  have hcount : (((db.set (.ballot q.uuid) (some b)).set (.tracker b.tracker) (some q.uuid)).set
      (.consumed a.voter) (some (tokenHash E q.token))).count (consumedOf e) = db.count (consumedOf e) := by
    iterate 3 rw [Db.count_set_of_false _ _ _ _ fun _ => rfl]
  rw [hcount] at h
  simp only [Db.set_row_ne _ _ (show ¬ Key.authorization _ = Key.consumed _ by simp),
    Db.set_row_ne _ _ (show ¬ Key.authorization _ = Key.tracker _ by simp),
    Db.set_row_ne _ _ (show ¬ Key.authorization _ = Key.ballot _ by simp), hd.authorization,
    Option.any_some, consumedOf, hd.issued, consume_status, consume_election, hd.election] at h
  by_cases he : e = q.event
  · simpa [he] using h
  · simpa [he, Ne.symm he] using h

/-- **A cast keeps the register.** -/
theorem CastDone.register (hd : CastDone E q a v b db db') (hr : Register db) : Register db' where
  balanced := fun e => by rw [castDone_ballots hd, castDone_consumedOf hd, hr.balanced]
  consumed := fun h x hx hs => by
    rw [castDone_authorization hd] at hx
    rw [castDone_consumed hd]
    split at hx
    · rename_i he
      cases hx
      simp [he]
    · have hc := hr.consumed h x hx hs
      have hne : ¬ x.voter = a.voter := fun he => by
        rw [he, hd.unused] at hc
        cases hc
      simp [hne, hc]
  issued := fun h h' x x' hx hx' hs hs' hv => by
    rw [castDone_authorization hd] at hx hx'
    split at hx
    · cases hx
      simp [consume] at hs
    · split at hx'
      · cases hx'
        simp [consume] at hs'
      · exact hr.issued h h' x x' hx hx' hs hs' hv

/-! ### An issue -/

variable {q : IssueRequest} {a : AuthorizationRow} {v : VoterRow}

/-- The authorizations an issue leaves. -/
theorem issueDone_authorization (hd : IssueDone E q a v db db') (h : String) :
    db'.row (.authorization h) =
      if h = tokenHash E q.token then some a
      else (db.row (.authorization h)).map (updated (issuedTo q.voter) revoke (.authorization h)) := by
  obtain ⟨w, u, own, hw, hu, rfl⟩ := hd.writes
  rw [Db.apply_append, hw.apply_row _ rfl, Db.apply_cons]
  split
  · rename_i he
    subst he
    simp
  · rename_i hne
    rw [Db.set_row_ne _ _ (by simpa using hne), hu.rows]

/-- Every other row beside the audit log is left as it is. -/
theorem issueDone_row (hd : IssueDone E q a v db db') {k : Key} (hk : isAudit k = false)
    (hne : ∀ h, k ≠ .authorization h) : db'.row k = db.row k := by
  obtain ⟨w, u, own, hw, hu, rfl⟩ := hd.writes
  rw [Db.apply_append, hw.apply_row _ hk, Db.apply_cons, Db.set_row_ne _ _ (hne _), hu.rows]
  have hid : ∀ r, updated (issuedTo q.voter) revoke k r = r := fun r => by
    cases k <;> simp_all [updated, issuedTo]
  cases db.row k <;> simp [hid]

theorem updated_status (n : ℕ) (h : String) (x : AuthorizationRow) :
    (updated (issuedTo n) revoke (.authorization h) x).status =
      if x.voter = n ∧ x.status = .ISSUED then .REVOKED else x.status := by
  by_cases hx : x.voter = n ∧ x.status = .ISSUED
  · simp [updated, issuedTo, revoke, hx]
  · simp [updated, issuedTo, hx]

theorem updated_voter (n : ℕ) (h : String) (x : AuthorizationRow) :
    (updated (issuedTo n) revoke (.authorization h) x).voter = x.voter := by
  simp only [updated, revoke]
  split <;> rfl

theorem updated_election (n : ℕ) (h : String) (x : AuthorizationRow) :
    (updated (issuedTo n) revoke (.authorization h) x).election = x.election := by
  simp only [updated, revoke]
  split <;> rfl

/-- An issue consumes nothing and records no ballot. -/
theorem issueDone_holds (hd : IssueDone E q a v db db') (e : ℕ) (k : Key) :
    db'.holds (ballotOf e) k = db.holds (ballotOf e) k ∧
      db'.holds (consumedOf e) k = db.holds (consumedOf e) k := by
  by_cases hk : ∃ h, k = .authorization h
  · obtain ⟨h, rfl⟩ := hk
    simp only [Db.holds, issueDone_authorization hd]
    split
    · rename_i he
      subst he
      simp [hd.new, ballotOf, consumedOf, hd.issued]
    · cases db.row (.authorization h) with
      | none => simp
      | some x =>
        refine ⟨by simp [ballotOf], ?_⟩
        simp only [Option.map_some, Option.any_some, consumedOf, updated_election, updated_status]
        split
        · rename_i hx
          simp [hx.2]
        · rfl
  · by_cases hau : isAudit k = true
    · simp only [Db.holds]
      cases k <;> simp_all [isAudit, ballotOf, consumedOf]
    · have hrow := issueDone_row hd (by simpa using hau) fun h he => hk ⟨h, he⟩
      simp only [Db.holds, hrow, and_self]

/-- **An issue keeps the register.** -/
theorem IssueDone.register (hd : IssueDone E q a v db db') (hr : Register db) : Register db' where
  balanced := fun e => by
    rw [Db.count_congr fun k => (issueDone_holds hd e k).1, Db.count_congr fun k => (issueDone_holds hd e k).2,
      hr.balanced]
  consumed := fun h x hx hs => by
    rw [issueDone_authorization hd] at hx
    split at hx
    · cases hx
      simp [hd.issued] at hs
    · obtain ⟨y, hy, rfl⟩ := Option.map_eq_some_iff.mp hx
      rw [updated_status] at hs
      split at hs
      · cases hs
      · rw [updated_voter, issueDone_row hd rfl (by simp)]
        exact hr.consumed h y hy hs
  issued := fun h h' x x' hx hx' hs hs' hv => by
    have hold : ∀ {t : String} {y : AuthorizationRow}, db'.row (.authorization t) = some y →
        y.status = .ISSUED → t ≠ tokenHash E q.token →
        y.voter ≠ q.voter ∧ db.row (.authorization t) = some y := fun {t y} hy hst hne => by
      rw [issueDone_authorization hd, if_neg hne] at hy
      obtain ⟨z, hz, rfl⟩ := Option.map_eq_some_iff.mp hy
      rw [updated_status] at hst
      split at hst
      · cases hst
      · rename_i hno
        rw [updated_voter]
        refine ⟨fun hzv => hno ⟨hzv, hst⟩, ?_⟩
        rw [hz, updated, if_neg (by simpa [issuedTo] using hno)]
    have hnew : ∀ {y : AuthorizationRow}, db'.row (.authorization (tokenHash E q.token)) = some y →
        y.voter = q.voter := fun {y} hy => by
      rw [issueDone_authorization hd, if_pos rfl] at hy
      cases hy
      exact hd.own
    by_cases h1 : h = tokenHash E q.token
    · by_cases h2 : h' = tokenHash E q.token
      · rw [h1, h2]
      · subst h1
        exact absurd (hv ▸ hnew hx) (hold hx' hs' h2).1
    · by_cases h2 : h' = tokenHash E q.token
      · subst h2
        exact absurd (hv.trans (hnew hx')) (hold hx hs h1).1
      · exact hr.issued h h' x x' (hold hx hs h1).2 (hold hx' hs' h2).2 hs hs' hv

/-! ### Every interleaving -/

/-- What commits never undo: a used or revoked authorization stays as it is,
and a ballot stays. -/
structure Kept (db db' : Database) : Prop where
  status : ∀ h st, st ≠ .ISSUED → HasStatus db h st → HasStatus db' h st
  ballot : ∀ u b, db.row (.ballot u) = some b → db'.row (.ballot u) = some b

theorem Kept.refl (db : Database) : Kept db db := ⟨fun _ _ _ h => h, fun _ _ h => h⟩

theorem Kept.trans {db db' db'' : Database} (h : Kept db db') (h' : Kept db' db'') : Kept db db'' :=
  ⟨fun t st hst hs => h'.status t st hst (h.status t st hst hs), fun u b hb => h'.ballot u b (h.ballot u b hb)⟩

theorem castDone_ballot {q : CastRequest} {b : BallotRow} (hd : CastDone E q a v b db db') (u : String) :
    db'.row (.ballot u) = if u = q.uuid then some b else db.row (.ballot u) := by
  rw [castDone_row hd rfl]
  split
  · rename_i he
    subst he
    simp [castWrites]
  · rename_i hne
    simp [castWrites, hne]

theorem CastDone.kept {q : CastRequest} {b : BallotRow} (hd : CastDone E q a v b db db') : Kept db db' where
  status := fun h st hst ⟨x, hx, hs⟩ => by
    by_cases he : h = tokenHash E q.token
    · subst he
      rw [hd.authorization] at hx
      cases hx
      exact absurd (hs.symm.trans hd.issued) hst
    · exact ⟨x, by rw [castDone_authorization hd, if_neg he, hx], hs⟩
  ballot := fun u b' hb => by
    rw [castDone_ballot hd]
    split
    · rename_i he
      rw [he, hd.newBallot] at hb
      cases hb
    · exact hb

theorem IssueDone.kept (hd : IssueDone E q a v db db') : Kept db db' where
  status := fun h st hst ⟨x, hx, hs⟩ => by
    have he : h ≠ tokenHash E q.token := fun he => by
      rw [he, hd.new] at hx
      cases hx
    refine ⟨_, by rw [issueDone_authorization hd, if_neg he, hx, Option.map_some], ?_⟩
    rw [updated_status, if_neg, hs]
    rintro ⟨-, hi⟩
    exact hst (hs.symm.trans hi)
  ballot := fun u b hb => by rw [issueDone_row hd rfl (by simp), hb]

variable (E)

/-- While a thread holds a voter, no authorization of the voter begins to be
issued; a commit is that of a cast, which is logged, or of an issue. -/
def spec : Spec Row Note where
  inv := Register
  rely := fun own _ db db' => ∀ n, .voter n ∈ own → ∀ h a, db'.row (.authorization h) = some a →
    a.voter = n → a.status = .ISSUED → db.row (.authorization h) = some a
  guar := fun own log db db' =>
    (∃ q a v b, CastDone E q a v b db db' ∧ .recorded (tokenHash E q.token) q.uuid ∈ log) ∨
    (∃ q a v, IssueDone E q a v db db' ∧ .voter q.voter ∈ own)
  fact := fun n db =>
    match n with
    | .recorded h _ => HasStatus db h .CONSUMED
    | _ => True

variable {E}

theorem guar_kept {own : List Key} {log : List Note} (h : (spec E).guar own log db db') : Kept db db' := by
  rcases h with ⟨q, a, v, b, hd, -⟩ | ⟨q, a, v, hd, -⟩
  · exact CastDone.kept hd
  · exact IssueDone.kept hd

theorem spec_sound : (spec E).Sound where
  refl := fun _ _ _ _ _ _ _ h _ _ => h
  trans := fun _ _ _ _ _ h h' n hn t a ha hv hs => h n hn t a (h' n hn t a ha hv hs) hv hs
  sub := fun _ _ _ _ _ hsub h n hn => h n (hsub _ hn)
  fact := fun _ _ n _ _ _ _ hg hf => by
    cases n with
    | recorded h u => exact (guar_kept hg).status h _ (by simp) hf
    | _ => trivial

/-- A commit makes an authorization issued only for the voter it holds. -/
theorem guar_rely {own own' : List Key} {log : List Note} (log' : List Note)
    (hg : (spec E).guar own log db db') (hdis : ∀ k ∈ own, k ∉ own') : (spec E).rely own' log' db db' := by
  intro n hn h x hx hv hs
  rcases hg with ⟨q, a, v, b, hd, -⟩ | ⟨q, a, v, hd, hvo⟩
  · rw [castDone_authorization hd] at hx
    split at hx
    · cases hx
      simp at hs
    · exact hx
  · have hne : q.voter ≠ n := fun he => hdis _ hvo (he ▸ hn)
    rw [issueDone_authorization hd] at hx
    split at hx
    · cases hx
      exact absurd (hd.own.symm.trans hv) hne
    · obtain ⟨y, hy, rfl⟩ := Option.map_eq_some_iff.mp hx
      rw [updated_voter] at hv
      rw [hy, updated, if_neg]
      simp only [issuedTo, hv, Bool.and_eq_true, decide_eq_true_eq, not_and]
      exact fun he => absurd he.symm hne

theorem spec_fits : (spec E).Fits Any := fun _ _ _ _ _ _ _ hg _ _ _ _ _ hdis => guar_rely _ hg hdis

/-- A thread that holds a voter sees no authorization of the voter begin to be
issued. -/
theorem noneBegins_of_rely {S : Spec Row Note} {own : List Key} {log : List Note} {n : ℕ}
    (hrely : ∀ own db db', S.rely own log db db' → (spec E).rely own log db db') (hn : .voter n ∈ own) :
    NoneBegins S (issuedTo n) own log := by
  intro own' db₁ db₂ hsub hst k r hr hm
  cases k with
  | authorization h =>
    simp only [issuedTo, Bool.and_eq_true, decide_eq_true_eq] at hm
    exact hrely _ _ _ hst.rely n (hsub _ hn) h r hr hm.1 hm.2
  | _ => simp [issuedTo] at hm

theorem call_ok (c : Call) (db : Database) : Ok (spec E) (c.program E) db [] [] [] := by
  cases c with
  | issue q =>
    refine issueAuthorization_ok (k := fun _ => .halt) spec_sound .halt ?_ fun own hvo => ?_
    · intro own a v db db' hinv hvo hd
      exact ⟨IssueDone.register hd hinv, Or.inr ⟨q, a, v, hd, hvo⟩, trivial, trivial⟩
    · exact noneBegins_of_rely (fun _ _ _ h => h) hvo
  | cast q =>
    refine castBallot_ok (k := fun _ => .halt) (Q := fun _ => True) spec_sound .halt .halt ?_
      (fun _ _ _ _ _ => ⟨trivial, trivial⟩) (fun _ _ _ _ _ => trivial)
    intro own a v b db db' r hinv _ hvo hao hd
    refine ⟨CastDone.register hd hinv, Or.inl ⟨q, a, v, b, hd, by simp [Prog.settle]⟩, ?_, trivial⟩
    exact ⟨consume a (q.now 3), by rw [castDone_authorization hd, if_pos rfl], rfl⟩

/-- The calls before their first statement. -/
def start (E : Env) (db : Database) (calls : ℕ → Call) : State Row Note :=
  State.init db fun t => (calls t).program E

theorem start_meets {db : Database} (h : Fresh db) (calls : ℕ → Call) :
    Meets (spec E) (start E db calls) :=
  Meets.init h.register fun t => call_ok (calls t) db

/-- Every ballot of a run was recorded for a token. -/
theorem recorded_of_ballot {db : Database} (h : Fresh db) (calls : ℕ → Call) {s : State Row Note}
    (hr : Run Any (start E db calls) s) (u : String) (hu : (s.db.row (.ballot u)).isSome) :
    ∃ t h, .recorded h u ∈ (s.thr t).log := by
  induction hr with
  | refl => simp [start, State.init, h.2] at hu
  | @step s₁ s₂ t hr hs _ ih =>
    have hold : (s₁.db.row (.ballot u)).isSome → ∃ t h, Note.recorded h u ∈ (s₂.thr t).log := fun h' => by
      obtain ⟨t', tok, hmem⟩ := ih h'
      exact ⟨t', tok, (hs.log_suffix t').subset hmem⟩
    rcases ((start_meets h calls).run spec_sound spec_fits hr).step spec_sound spec_fits hs trivial |>.2
      with heq | ⟨own, -, -, ⟨q, a, v, b, hd, hlog⟩ | ⟨q, a, v, hd, -⟩⟩
    · exact hold (heq ▸ hu)
    · rw [castDone_ballot hd] at hu
      split at hu
      · rename_i he
        exact ⟨t, _, he ▸ hlog⟩
      · exact hold hu
    · rw [issueDone_row hd rfl (by simp)] at hu
      exact hold hu

/-- **Authorizations and ballots agree in every interleaving.** From tables
with no authorization and no ballot, in every committed state of every run of
issues and casts: each election has as many ballots as consumed
authorizations; each voter has at most one consumed and at most one issued
authorization; every ballot was recorded for a token; and a token whose
authorization is revoked now yields no ballot, before or later. -/
theorem authorizations_consistent (E : Env) {db : Database} (h : Fresh db) (calls : ℕ → Call)
    {s : State Row Note} (hr : Run Any (start E db calls) s) :
    (∀ e, s.db.count (ballotOf e) = s.db.count (consumedOf e)) ∧
    (∀ h h' a a', s.db.row (.authorization h) = some a → s.db.row (.authorization h') = some a' →
      a.voter = a'.voter →
      (a.status = .CONSUMED ∧ a'.status = .CONSUMED) ∨ (a.status = .ISSUED ∧ a'.status = .ISSUED) →
      h = h') ∧
    (∀ u, (s.db.row (.ballot u)).isSome → ∃ t h, .recorded h u ∈ (s.thr t).log) ∧
    ∀ h, HasStatus s.db h .REVOKED → ∀ s', Run Any s s' → ∀ t u, .recorded h u ∉ (s'.thr t).log := by
  have hm := (start_meets h calls).run spec_sound spec_fits hr
  refine ⟨hm.inv.balanced, fun t t' a a' ha ha' hv hs => ?_, recorded_of_ballot h calls hr,
    fun t hrev s' hr' n u hmem => ?_⟩
  · rcases hs with ⟨hs, hs'⟩ | ⟨hs, hs'⟩
    · have hc := hm.inv.consumed t a ha hs
      have hc' := hm.inv.consumed t' a' ha' hs'
      rw [hv, hc'] at hc
      exact (Option.some.inj hc).symm
    · exact hm.inv.issued t t' a a' ha ha' hs hs' hv
  · have hkept : Kept s.db s'.db := hm.trail spec_sound spec_fits Kept.refl (fun _ _ _ => Kept.trans)
      (fun _ _ _ _ _ hg => guar_kept hg) hr'
    obtain ⟨x, hx, hs⟩ := hkept.status t _ (by simp) hrev
    obtain ⟨y, hy, hs'⟩ := (hm.run spec_sound spec_fits hr').fact n _ hmem
    rw [hx] at hy
    cases hy
    rw [hs] at hs'
    cases hs'

/-- An open election with one position and one voter. -/
def oneVoter : Database :=
  (((Db.empty.set (.event 1) (some { startDate := 0, endDate := 100, status := .OPEN })).set
    (.category 3) (some { event := 1, name := "President" })).set
    (.voter 7) (some { election := 1 })).set (.ballotKey 1) (some { publicKey := "pk" })

/-- The voter signs in, then votes with the token. -/
def signInAndVote : ℕ → Call
  | 0 => .issue { event := 1, voter := 7, method := "CODE", token := "T", id := "a", now := fun _ => 1 }
  | _ => .cast { event := 1, token := "T", payload := .obj [], uuid := "u", nonce := "n",
                 ephemeral := "c", now := fun _ => 2 }

theorem oneVoter_fresh : Fresh oneVoter := by
  constructor <;> intro _ <;> simp [oneVoter]

/-- The run of one sign-in and one vote ends with one ballot, and it was
recorded for a token. -/
theorem authorizations_consistent_oneVoter :
    ∃ s, replay (start .plain oneVoter signInAndVote)
        (List.replicate 12 0 ++ List.replicate 16 1) = some s ∧
      s.db.count (ballotOf 1) = 1 ∧ s.db.count (consumedOf 1) = 1 ∧
      ∀ u, (s.db.row (.ballot u)).isSome → ∃ t h, .recorded h u ∈ (s.thr t).log := by
  have hsome : (replay (start .plain oneVoter signInAndVote)
      (List.replicate 12 0 ++ List.replicate 16 1)).isSome = true := by decide +kernel
  have hcount : (replay (start .plain oneVoter signInAndVote)
      (List.replicate 12 0 ++ List.replicate 16 1)).map (fun s => s.db.count (ballotOf 1)) = some 1 := by
    decide +kernel
  obtain ⟨s, hs⟩ := Option.isSome_iff_exists.mp hsome
  rw [hs, Option.map_some, Option.some.injEq] at hcount
  obtain ⟨h1, -, h3, -⟩ :=
    authorizations_consistent .plain oneVoter_fresh signInAndVote (Run.of_replay _ .refl hs)
  exact ⟨s, hs, hcount, (h1 1) ▸ hcount, h3⟩

/-- An open election with one voter, who has signed in. -/
def signedIn : Database :=
  ((((Db.empty.set (.event 1)
      (some { startDate := 0, endDate := 100, status := .OPEN, votingMode := .CODE_VOTING })).set
    (.category 3) (some { event := 1, name := "President" })).set
    (.voter 7) (some { election := 1 })).set (.ballotKey 1) (some { publicKey := "" })).set
    (.authorization "ballot-token:T")
      (some { id := "a", election := 1, voter := 7, authMethod := "CODE", ballotStyle := [3],
              issuedAt := 0, expiresAt := 50 })

end Authorizations
end FlexyVotes
