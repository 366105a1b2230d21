/-
# Custody of the ballot key

The ballot key is generated once, when the election is first scheduled, from
the custody, the threshold and the trustees of that moment. Trustees cannot be
added after that and the settings keep the custody, but not the threshold: an
election that returns to draft can be opened with another threshold than its
key was split with. Where no settings are saved that move the threshold of a
key that is split, the key of every open election is the one its approved
configuration asks for (`custody_matches`).

Key definitions: `addTrustee`, `Call`, `Fitted`, `Matching`, `Steady`.
Key theorems: `ensureElectionKey_keeps`, `transition_keeps`, `settingsView_keeps`,
`custody_matches`.
-/
import FlexyVotes.Elections.Editing
import FlexyVotes.Lib.Serial
import FlexyVotes.Lib.Steps

namespace FlexyVotes
namespace Custody

open Transactions Audit Configuration Lifecycle Editing

/-! ### Trustees -/

/-- A post to add a trustee. -/
structure TrusteePost where
  event : ℕ
  user : User
  request : Option Request := none
  /-- The user of that name, if there is one. -/
  trustee : Option User
  /-- The primary key of a new row. -/
  pk : ℕ
  now : Time

def TrusteePost.entry (q : TrusteePost) (trustee : User) (ev : EventRow) : Entry where
  eventType := "TRUSTEE_ADDED"
  actor := some q.user
  event := some (q.event, ev.organization)
  targetType := "auth.User"
  targetId := toString trustee.pk
  summary := "Trustee " ++ trustee.username ++ " added"
  createdAt := q.now

/-- `add_trustee`. -/
def addTrustee (E : Env) (q : TrusteePost) (ev : EventRow) (trustee : User) (k : Except Failure ℕ → Program) :
    Program :=
  .read fun db =>
    if (db.row (.ballotKey q.event)).isSome then
      k (.error (.keyCustody "Trustees cannot change after the ballot key has been generated."))
    else
      .read fun db₁ =>
        let index := ((trusteesOf db₁ q.event).map (·.2.index)).foldl max 0 + 1
        .read fun db₂ =>
          match (trusteesOf db₂ q.event).find? (·.2.trustee = trustee.pk) with
          | some (pk, _) => k (.ok pk)
          | none =>
            .insertOr (.trusteeShare q.pk)
              { election := q.event, trustee := trustee.pk, index := index, shareHash := "" }
              (k (.error (.crash "IntegrityError"))) <|
            .commit <|
            recordNow E (q.entry trustee ev) (k (.error (.crash "DatabaseError"))) (k (.ok q.pk))

/-- The action `add` of the view `trustees`. -/
def trusteesAdd (E : Env) (q : TrusteePost) (k : Except Failure ℕ → Program) : Program :=
  .read fun db =>
    match db.row (.event q.event) with
    | none => k (.error (.crash "Http404"))
    | some ev =>
      if ¬ permitted (some q.user) "election.view" q.event then
        recordNow E (deniedEntry "election.view" q.event ev q.request q.now)
          (k (.error (.crash "DatabaseError"))) (k (.error .permission))
      else if ¬ permitted (some q.user) "election.edit" q.event then k (.error .permission)
      else
        match q.trustee with
        | none => k (.error (.crash "No such user."))
        | some trustee => addTrustee E q ev trustee k

/-! ### The calls -/

/-- Edits of the settings, new trustees and transitions; a granted re-opening
sets a new end. -/
inductive Call
  | settings (q : SettingsPost)
  | trustee (q : TrusteePost)
  | transition (t : TransitionRequest) (newEnd : Option Time)

/-- The extra effect of a re-opening. -/
def reopened (newEnd : Option Time) (ev : EventRow) : EventRow :=
  match newEnd with
  | none => ev
  | some time => { ev with endDate := time, closedAt := none }

def Call.program (E : Env) : Call → Program
  | .settings q => settingsView E q fun _ => .halt
  | .trustee q => trusteesAdd E q fun _ => .halt
  | .transition t newEnd => Lifecycle.transition E { t with extraEffect := reopened newEnd } fun _ => .halt

/-- The database after a call that runs alone. -/
def step (E : Env) (c : Call) (db : Database) : Database := (c.program E).after db

/-! ### The key and the configuration -/

def trusteeOf (e : ℕ) : (k : Key) → Row k → Bool
  | .trusteeShare _ => fun t => t.election = e
  | _ => fun _ => false

/-- The number of trustees of the election. -/
def trustees (db : Database) (e : ℕ) : ℕ := db.count (trusteeOf e)

/-- The key is of the custody of the election, and split as it asks for. -/
structure Matches (db : Database) (e : ℕ) (ev : EventRow) (key : BallotKeyRow) : Prop where
  custody : key.custody = ev.keyCustody
  threshold : key.custody = .TRUSTEES → key.threshold = ev.trusteeThreshold
  shares : key.custody = .TRUSTEES → key.shares = trustees db e

/-- A field of the election in a signed configuration. -/
def signedField (config : Json) (name : String) : Option Json :=
  match config with
  | .obj fields =>
    match Json.get? fields "election" with
    | some (.obj election) => Json.get? election name
    | _ => none
  | _ => none

/-- The latest snapshot was signed at an approval, with the custody and the
threshold of the row. -/
def Signed (db : Database) (e : ℕ) (ev : EventRow) : Prop :=
  ∃ version s, db.row (.configSnapshot e version) = some s ∧
    (∀ n, (db.row (.configSnapshot e n)).isSome → n ≤ version) ∧ s.reason = "APPROVED" ∧
    signedField s.config "key_custody" = some (.str ev.keyCustody.value) ∧
    signedField s.config "trustee_threshold" = some (.nat ev.trusteeThreshold)

/-- The statuses before the first scheduling, and where a draft is archived. -/
def Unscheduled (s : EventStatus) : Prop := s = .DRAFT ∨ s = .REVIEW ∨ s = .APPROVED ∨ s = .ARCHIVED

/-- The statuses without an approval, and where a draft is archived. -/
def Unapproved (s : EventStatus) : Prop := s = .DRAFT ∨ s = .REVIEW ∨ s = .ARCHIVED

/-- Every institutional election has the key it asks for once it is scheduled,
and a signed configuration once it is approved. -/
structure Fitted (db : Database) : Prop where
  keyed : ∀ e ev, db.row (.event e) = some ev → ev.isInstitutional = true →
    ∀ key, db.row (.ballotKey e) = some key → Matches db e ev key
  unkeyed : ∀ e ev, db.row (.event e) = some ev → ev.isInstitutional = true →
    db.row (.ballotKey e) = none → Unscheduled ev.status
  signed : ∀ e ev, db.row (.event e) = some ev → ¬ Unapproved ev.status → Signed db e ev

/-- **The key of every open institutional election** is of the custody and, with
trustees, of the threshold of its approved configuration, with a share for each
of its trustees. -/
def Matching (db : Database) : Prop :=
  ∀ e ev, db.row (.event e) = some ev → ev.isInstitutional = true → ev.status = .OPEN →
    ∃ key, db.row (.ballotKey e) = some key ∧ Matches db e ev key ∧ Signed db e ev

/-- The settings of the form are saved, and move the threshold of a key that is
split. -/
def moves (E : Env) (q : SettingsPost) (db : Database) : Bool :=
  (db.row (.event q.event)).any fun ev => (db.row (.ballotKey q.event)).any fun key =>
    key.custody = .TRUSTEES && permitted (some q.user) "election.edit" q.event && (editPolicy ev .config).1 &&
      q.threshold E ev ≠ ev.trusteeThreshold

/-- The call saves no settings that move the threshold of a split key. -/
def Steady (E : Env) (c : Call) (db : Database) : Prop :=
  match c with
  | .settings q => moves E q db = false
  | _ => True

/-- Every election is a draft without a ballot key. -/
def Fresh (db : Database) : Prop :=
  (∀ e ev, db.row (.event e) = some ev → ev.status = .DRAFT) ∧ ∀ e, db.row (.ballotKey e) = none

theorem Fitted.matching {db : Database} (h : Fitted db) : Matching db := fun e ev hev hi hs => by
  cases hkey : db.row (.ballotKey e) with
  | none =>
    have hun := h.unkeyed e ev hev hi hkey
    rw [hs] at hun
    rcases hun with h | h | h | h <;> cases h
  | some key =>
    refine ⟨key, rfl, h.keyed e ev hev hi key hkey, h.signed e ev hev fun hun => ?_⟩
    rw [hs] at hun
    rcases hun with h | h | h <;> cases h

theorem Fresh.fitted {db : Database} (h : Fresh db) : Fitted db where
  keyed := fun e _ _ _ key hkey => by
    rw [h.2 e] at hkey
    cases hkey
  unkeyed := fun e ev hev _ _ => .inl (h.1 e ev hev)
  signed := fun e ev hev hun => absurd (.inl (h.1 e ev hev)) hun

/-! ### What does not matter -/

/-- The rows the invariant is about are the same, and so are the numbers of
trustees. -/
structure Same (v v' : Database) : Prop where
  event : ∀ e, v'.row (.event e) = v.row (.event e)
  key : ∀ e, v'.row (.ballotKey e) = v.row (.ballotKey e)
  snapshot : ∀ e n, v'.row (.configSnapshot e n) = v.row (.configSnapshot e n)
  trustees : ∀ e, trustees v' e = trustees v e

theorem Same.refl (v : Database) : Same v v := ⟨fun _ => rfl, fun _ => rfl, fun _ _ => rfl, fun _ => rfl⟩

theorem Same.trans {v v' v'' : Database} (h : Same v v') (h' : Same v' v'') : Same v v'' where
  event := fun e => (h'.event e).trans (h.event e)
  key := fun e => (h'.key e).trans (h.key e)
  snapshot := fun e n => (h'.snapshot e n).trans (h.snapshot e n)
  trustees := fun e => (h'.trustees e).trans (h.trustees e)

theorem Matches.same {v v' : Database} {e : ℕ} {ev : EventRow} {key : BallotKeyRow} (h : Matches v e ev key)
    (hs : trustees v' e = trustees v e) : Matches v' e ev key :=
  ⟨h.custody, h.threshold, fun hc => by rw [hs, h.shares hc]⟩

theorem Signed.same {v v' : Database} {e : ℕ} {ev : EventRow} (h : Signed v e ev)
    (hs : ∀ n, v'.row (.configSnapshot e n) = v.row (.configSnapshot e n)) : Signed v' e ev := by
  obtain ⟨version, s, hrow, hlatest, hfields⟩ := h
  refine ⟨version, s, by rw [hs, hrow], fun n hn => hlatest n ?_, hfields⟩
  rwa [hs] at hn

theorem Fitted.same {v v' : Database} (h : Fitted v) (hs : Same v v') : Fitted v' where
  keyed := fun e ev hev hi key hkey =>
    (h.keyed e ev (hs.event e ▸ hev) hi key (hs.key e ▸ hkey)).same (hs.trustees e)
  unkeyed := fun e ev hev hi hkey => h.unkeyed e ev (hs.event e ▸ hev) hi (hs.key e ▸ hkey)
  signed := fun e ev hev hun => (h.signed e ev (hs.event e ▸ hev) hun).same (hs.snapshot e)

/-- No row of the audit log is a trustee. -/
theorem holds_audit (v : Database) (e : ℕ) : ∀ k, isAudit k = true → v.holds (trusteeOf e) k = false
  | .auditHead _, _ => (Option.any_eq_false _ _).mpr fun _ _ => rfl
  | .auditEvent _ _, _ => (Option.any_eq_false _ _).mpr fun _ _ => rfl

theorem Same.of_off {v v' : Database} (h : Off isAudit v v') : Same v v' where
  event := fun _ => h _ rfl
  key := fun _ => h _ rfl
  snapshot := fun _ _ => h _ rfl
  trustees := fun e => Db.count_congr fun k => by
    cases hk : isAudit k with
    | false => rw [Db.holds, Db.holds, h k hk]
    | true => rw [holds_audit v' e k hk, holds_audit v e k hk]

theorem ignores_audit : Ignores (Preserves Fitted) isAudit := fun v _ _ hk h =>
  h.same (.of_off (.set (.refl v) hk))


/-! ### The ballot key -/

section Keeps

variable {E : Env} {e : ℕ} {v : Database} {k : Program}

/-- What of a row the key and the invariant depend on. -/
structure Alike (ev ev' : EventRow) : Prop where
  mode : ev'.votingMode = ev.votingMode
  custody : ev'.keyCustody = ev.keyCustody
  threshold : ev'.trusteeThreshold = ev.trusteeThreshold

theorem Alike.isInstitutional {ev ev' : EventRow} (h : Alike ev ev') : ev'.isInstitutional = ev.isInstitutional := by
  rw [EventRow.isInstitutional, EventRow.isInstitutional, h.mode]

theorem Alike.matches {ev ev' : EventRow} {key : BallotKeyRow} (h : Alike ev ev') (hm : Matches v e ev key) :
    Matches v e ev' key :=
  ⟨hm.custody.trans h.custody.symm, fun hc => (hm.threshold hc).trans h.threshold.symm, hm.shares⟩

theorem Alike.signed {ev ev' : EventRow} (h : Alike ev ev') (hs : Signed v e ev) : Signed v e ev' := by
  unfold Signed
  rw [h.custody, h.threshold]
  exact hs

/-- As many trustees as there are shares to split. -/
theorem length_trusteesOf (db : Database) (e : ℕ) : (trusteesOf db e).length = trustees db e := by
  unfold trusteesOf trustees
  rw [List.length_insertionSort]
  refine db.length_collect fun k r => ?_
  cases k <;> first | rfl | skip
  show (if r.election = e then some _ else none : Option (ℕ × TrusteeShareRow)).isSome = decide (r.election = e)
  by_cases h : r.election = e <;> simp [h]

/-- New shares for a trustee. -/
theorem Same.share {pk : ℕ} {t t' : TrusteeShareRow} (ht : v.row (.trusteeShare pk) = some t)
    (helection : t'.election = t.election) : Same v (v.set (.trusteeShare pk) (some t')) where
  event := fun _ => Db.set_row_ne _ _ (by simp)
  key := fun _ => Db.set_row_ne _ _ (by simp)
  snapshot := fun _ _ => Db.set_row_ne _ _ (by simp)
  trustees := fun e => by
    have hcount := v.count_set (trusteeOf e) (.trusteeShare pk) (some t')
    have hsame : trusteeOf e (.trusteeShare pk) t' = trusteeOf e (.trusteeShare pk) t := by
      simp only [trusteeOf, helection]
    rw [ht, Option.any_some, Option.any_some, hsame] at hcount
    exact Nat.add_right_cancel hcount

/-- Saving the shares keeps everything that matters. -/
theorem saveShares_keeps {m : KeyMaterial} : ∀ (rows : List (ℕ × TrusteeShareRow)) (i : ℕ) {v : Database},
    (∀ v', Same v v' → k.Keeps (Preserves Fitted) v') → (saveShares E m rows i k).Keeps (Preserves Fitted) v
  | [], _, v, hk => hk v (.refl v)
  | (pk, _) :: rows, i, v, hk => by
    refine .update Preserves.trans (fun t ht _ h => h.same (.share ht rfl)) (fun t ht _ => ?_) ?_
    · have hsame : Same v (v.set (.trusteeShare pk) (some { t with
          shareHash := E.sha256 (m.share i), pendingShare := some (m.share i) })) := Same.share ht rfl
      exact saveShares_keeps rows (i + 1) fun v' h => hk v' (hsame.trans h)
    · exact saveShares_keeps rows (i + 1) hk

/-- A new key that the election asks for. -/
theorem Fitted.key {ev : EventRow} {key : BallotKeyRow} (h : Fitted v) (hev : v.row (.event e) = some ev)
    (hm : Matches v e ev key) : Fitted (v.set (.ballotKey e) (some key)) := by
  have hevent : ∀ e', (v.set (.ballotKey e) (some key)).row (.event e') = v.row (.event e') := fun _ =>
    Db.set_row_ne _ _ (by simp)
  have htrustees : ∀ e', trustees (v.set (.ballotKey e) (some key)) e' = trustees v e' := fun e' =>
    v.count_set_of_false _ _ _ fun _ => rfl
  refine ⟨fun e' ev' hev' hi key' hkey' => ?_, fun e' ev' hev' hi hnone => ?_, fun e' ev' hev' hun => ?_⟩
  · rw [hevent] at hev'
    by_cases he : e' = e
    · subst he
      rw [Db.set_row_self] at hkey'
      cases hkey'
      rw [hev] at hev'
      cases hev'
      exact hm.same (htrustees e')
    · rw [Db.set_row_ne _ _ (by simpa using he)] at hkey'
      exact (h.keyed e' ev' hev' hi key' hkey').same (htrustees e')
  · rw [hevent] at hev'
    by_cases he : e' = e
    · subst he
      rw [Db.set_row_self] at hnone
      cases hnone
    · rw [Db.set_row_ne _ _ (by simpa using he)] at hnone
      exact h.unkeyed e' ev' hev' hi hnone
  · rw [hevent] at hev'
    exact (h.signed e' ev' hev' hun).same fun _ => Db.set_row_ne _ _ (by simp)

/-- The event rows and the signed configurations are the same. -/
structure Kept (v v' : Database) : Prop where
  event : ∀ e, v'.row (.event e) = v.row (.event e)
  snapshot : ∀ e n, v'.row (.configSnapshot e n) = v.row (.configSnapshot e n)

theorem Same.kept {v v' : Database} (h : Same v v') : Kept v v' := ⟨h.event, h.snapshot⟩

/-- **Generating the key** keeps the invariant, and a key is there afterwards. -/
theorem ensureElectionKey_keeps {ev ev₀ : EventRow} {actor : Option User} {m : KeyMaterial} {now : Time}
    {fail : Failure → Program} (hev : v.row (.event e) = some ev₀) (halike : Alike ev₀ ev)
    (hfail : ∀ x v', (fail x).Keeps (Preserves Fitted) v')
    (hk : ∀ v', Kept v v' → (v'.row (.ballotKey e)).isSome → k.Keeps (Preserves Fitted) v') :
    (ensureElectionKey E e ev actor m now fail k).Keeps (Preserves Fitted) v := by
  refine .read ?_
  split
  · rename_i hsome
    exact hk v ⟨fun _ => rfl, fun _ _ => rfl⟩ hsome
  have hcreate : ∀ (key : BallotKeyRow) (a : Entry) (v' : Database), Same v v' → Matches v' e ev₀ key →
      (Prog.insertOr (.ballotKey e) key (fail (.crash "IntegrityError"))
        (record E a (fail (.crash "DatabaseError")) k)).Keeps (Preserves Fitted) v' := fun key a v' hsame hm => by
    refine .insertOr Preserves.trans (fun _ h => h.key ((hsame.event e).trans hev) hm) (fun _ => ?_) (hfail _ _)
    refine record_keeps Preserves.trans ignores_audit (fun _ _ => hfail _ _) fun v'' hoff => hk v'' ?_ ?_
    · have hset : Kept v' (v'.set (.ballotKey e) (some key)) :=
        ⟨fun _ => Db.set_row_ne _ _ (by simp), fun _ _ => Db.set_row_ne _ _ (by simp)⟩
      have hlog := (Same.of_off hoff).kept
      exact ⟨fun e' => (hlog.event e').trans ((hset.event e').trans (hsame.event e')),
        fun e' n => (hlog.snapshot e' n).trans ((hset.snapshot e' n).trans (hsame.snapshot e' n))⟩
    · rw [hoff (.ballotKey e) rfl, Db.set_row_self]
      rfl
  dsimp only
  split
  · refine .read ?_
    split
    · exact hfail _ _
    · refine saveShares_keeps _ _ fun v' hsame => hcreate _ _ v' hsame ⟨halike.custody, fun _ => halike.threshold, ?_⟩
      intro _
      rw [hsame.trustees, ← length_trusteesOf]
  · rename_i hsystem
    exact hcreate _ _ v (.refl v) ⟨halike.custody, fun hc => absurd hc hsystem, fun hc => absurd hc hsystem⟩

/-! ### Transitions -/

/-- The configuration that is signed has the fields of the row. -/
theorem signedField_document (E : Env) (db : Database) (e : ℕ) (ev : EventRow) :
    signedField (configurationDocument E db e ev) "key_custody" = some (.str ev.keyCustody.value) ∧
      signedField (configurationDocument E db e ev) "trustee_threshold" = some (.nat ev.trusteeThreshold) :=
  ⟨rfl, rfl⟩

theorem le_foldl_max : ∀ (xs : List ℕ) (a n : ℕ), xs.foldl max a ≤ n ↔ a ≤ n ∧ ∀ x ∈ xs, x ≤ n
  | [], a, n => by simp
  | x :: xs, a, n => by
    rw [List.foldl_cons, le_foldl_max xs, max_le_iff, List.forall_mem_cons, and_assoc]

/-- No snapshot of the election is later than its latest. -/
theorem le_latestVersion {db : Database} {e n : ℕ} (h : (db.row (.configSnapshot e n)).isSome) :
    n ≤ latestVersion db e := by
  obtain ⟨s, hs⟩ := Option.isSome_iff_exists.mp h
  refine ((le_foldl_max _ 0 _).mp (Nat.le_refl (latestVersion db e))).2 n ?_
  rw [Db.mem_collect]
  exact ⟨.configSnapshot e n, s, hs, if_pos rfl⟩

/-- A new signed configuration of the election. -/
theorem Fitted.snapshot {e n : ℕ} {s : ConfigSnapshotRow} {ev₀ : EventRow} (h : Fitted v)
    (hev : v.row (.event e) = some ev₀) (hun : Unapproved ev₀.status) :
    Fitted (v.set (.configSnapshot e n) (some s)) := by
  have hevent : ∀ e', (v.set (.configSnapshot e n) (some s)).row (.event e') = v.row (.event e') := fun _ =>
    Db.set_row_ne _ _ (by simp)
  have hkey : ∀ e', (v.set (.configSnapshot e n) (some s)).row (.ballotKey e') = v.row (.ballotKey e') := fun _ =>
    Db.set_row_ne _ _ (by simp)
  have htrustees : ∀ e', trustees (v.set (.configSnapshot e n) (some s)) e' = trustees v e' := fun e' =>
    v.count_set_of_false _ _ _ fun _ => rfl
  refine ⟨fun e' ev' hev' hi key' hkey' => ?_, fun e' ev' hev' hi hnone => ?_, fun e' ev' hev' hun' => ?_⟩
  · exact (h.keyed e' ev' (hevent e' ▸ hev') hi key' (hkey e' ▸ hkey')).same (htrustees e')
  · exact h.unkeyed e' ev' (hevent e' ▸ hev') hi (hkey e' ▸ hnone)
  · rw [hevent] at hev'
    have hne : e' ≠ e := fun he => by
      subst he
      rw [hev] at hev'
      cases hev'
      exact hun' hun
    exact (h.signed e' ev' hev' hun').same fun _ => Db.set_row_ne _ _ (by simp [hne])

/-- **Signing the configuration** of an election without an approval. -/
theorem snapshotConfiguration_keeps {ev ev₀ : EventRow} {actor : Option User} {now : Time} {fail : Failure → Program}
    (hev : v.row (.event e) = some ev₀) (hun : Unapproved ev₀.status)
    (hfail : ∀ x v', (fail x).Keeps (Preserves Fitted) v')
    (hk : ∀ v', v'.row (.event e) = some ev₀ → Signed v' e ev → k.Keeps (Preserves Fitted) v') :
    (snapshotConfiguration E e ev actor "APPROVED" now fail k).Keeps (Preserves Fitted) v := by
  refine .read (.read ?_)
  refine .insertOr Preserves.trans (fun _ h => h.snapshot hev hun) (fun _ => ?_) (hfail _ _)
  refine record_keeps Preserves.trans ignores_audit (fun _ _ => hfail _ _) fun v' hoff => hk v' ?_ ?_
  · rw [hoff (.event e) rfl, Db.set_row_ne _ _ (by simp), hev]
  · have hrow := hoff (.configSnapshot e (latestVersion v e + 1)) rfl
    rw [Db.set_row_self] at hrow
    refine ⟨latestVersion v e + 1, _, hrow, fun n hn => ?_, rfl, signedField_document E v e ev⟩
    rw [hoff (.configSnapshot e n) rfl] at hn
    by_cases h : n = latestVersion v e + 1
    · omega
    · rw [Db.set_row_ne _ _ (by simpa using h)] at hn
      have hle := le_latestVersion hn
      omega

/-- Another row of an election. -/
theorem Fitted.event {ev : EventRow} (h : Fitted v)
    (hkeyed : ev.isInstitutional = true → ∀ key, v.row (.ballotKey e) = some key → Matches v e ev key)
    (hunkeyed : ev.isInstitutional = true → v.row (.ballotKey e) = none → Unscheduled ev.status)
    (hsigned : ¬ Unapproved ev.status → Signed v e ev) : Fitted (v.set (.event e) (some ev)) := by
  have hkey : ∀ e', (v.set (.event e) (some ev)).row (.ballotKey e') = v.row (.ballotKey e') := fun _ =>
    Db.set_row_ne _ _ (by simp)
  have hsnapshot : ∀ e' n, (v.set (.event e) (some ev)).row (.configSnapshot e' n) = v.row (.configSnapshot e' n) :=
    fun _ _ => Db.set_row_ne _ _ (by simp)
  have htrustees : ∀ e', trustees (v.set (.event e) (some ev)) e' = trustees v e' := fun e' =>
    v.count_set_of_false _ _ _ fun _ => rfl
  have hrow : ∀ {e' ev'}, (v.set (.event e) (some ev)).row (.event e') = some ev' →
      (e' = e ∧ ev' = ev) ∨ v.row (.event e') = some ev' := fun {e' ev'} hev' => by
    by_cases he : e' = e
    · subst he
      rw [Db.set_row_self] at hev'
      exact .inl ⟨rfl, (Option.some.inj hev').symm⟩
    · rw [Db.set_row_ne _ _ (by simpa using he)] at hev'
      exact .inr hev'
  refine ⟨fun e' ev' hev' hi key hkey' => ?_, fun e' ev' hev' hi hnone => ?_, fun e' ev' hev' hun => ?_⟩
  · rw [hkey] at hkey'
    rcases hrow hev' with ⟨rfl, rfl⟩ | hev'
    · exact (hkeyed hi key hkey').same (htrustees _)
    · exact (h.keyed e' ev' hev' hi key hkey').same (htrustees e')
  · rw [hkey] at hnone
    rcases hrow hev' with ⟨rfl, rfl⟩ | hev'
    · exact hunkeyed hi hnone
    · exact h.unkeyed e' ev' hev' hi hnone
  · rcases hrow hev' with ⟨rfl, rfl⟩ | hev'
    · exact (hsigned hun).same (hsnapshot _)
    · exact (h.signed e' ev' hev' hun).same (hsnapshot e')

/-- Only scheduling leads out of the statuses before it. -/
theorem target_unscheduled {a : Action} {s : EventStatus} (hs : s ∈ a.spec.sources) (hun : Unscheduled s)
    (ha : a ≠ .schedule) : Unscheduled a.spec.target := by
  rcases hun with rfl | rfl | rfl | rfl <;> cases a <;> simp_all [Action.spec, Unscheduled]

/-- Only an approval leads out of the statuses without one. -/
theorem target_unapproved {a : Action} {s : EventStatus} (hs : s ∈ a.spec.sources) (hun : Unapproved s)
    (ha : a ≠ .approve) : Unapproved a.spec.target := by
  rcases hun with rfl | rfl | rfl <;> cases a <;> simp_all [Action.spec, Unapproved]

/-- What is known where the moved row is saved. -/
structure Ready (a : Action) (e : ℕ) (locked ev : EventRow) (v : Database) : Prop where
  row : v.row (.event e) = some locked
  key : a = .schedule → locked.isInstitutional = true → (v.row (.ballotKey e)).isSome
  signed : a = .approve → Signed v e ev

/-- The row moves along an edge. -/
theorem Fitted.moved {a : Action} {locked ev ev' : EventRow} (h : Fitted v) (hready : Ready a e locked ev v)
    (hsource : locked.status ∈ a.spec.sources) (halike : Alike locked ev) (halike' : Alike ev ev')
    (hstatus : ev'.status = a.spec.target) : Fitted (v.set (.event e) (some ev')) := by
  have hmode : ev'.isInstitutional = locked.isInstitutional := halike'.isInstitutional.trans halike.isInstitutional
  refine h.event (fun hi key hkey => ?_) (fun hi hnone => ?_) fun hun => ?_
  · exact halike'.matches (halike.matches (h.keyed e locked hready.row (hmode ▸ hi) key hkey))
  · rw [hstatus]
    refine target_unscheduled hsource (h.unkeyed e locked hready.row (hmode ▸ hi) hnone) fun ha => ?_
    have hsome := hready.key ha (hmode ▸ hi)
    rw [hnone] at hsome
    cases hsome
  · rw [hstatus] at hun
    by_cases ha : a = .approve
    · exact halike'.signed (hready.signed ha)
    · refine halike'.signed (halike.signed (h.signed e locked hready.row fun hun' => ?_))
      exact hun (target_unapproved hsource hun' ha)

variable {t : TransitionRequest} {locked : EventRow} {fail : Failure → Program}

theorem check_keeps {p : TransitionRequest → EventRow → Prop} [∀ t ev, Decidable (p t ev)] {message : String}
    (hfail : ∀ x v', (fail x).Keeps (Preserves Fitted) v') (hk : k.Keeps (Preserves Fitted) v) :
    (check p message E t locked fail k).Keeps (Preserves Fitted) v := by
  unfold check
  split
  · exact hfail _ _
  · exact hk

/-- **A guard** fails, or leaves the row of the election as it is. -/
theorem guard_keeps (a : Action) (hrow : v.row (.event t.event) = some locked)
    (hfail : ∀ x v', (fail x).Keeps (Preserves Fitted) v')
    (hk : ∀ v', v'.row (.event t.event) = some locked → k.Keeps (Preserves Fitted) v') :
    (a.spec.guard E t locked fail k).Keeps (Preserves Fitted) v := by
  cases a with
  | submit =>
    refine .read ?_
    dsimp only
    split
    · exact hfail _ _
    · exact hk v hrow
  | approve =>
    simp only [Action.spec, guardApprove]
    exact check_keeps hfail (hk v hrow)
  | schedule =>
    refine .read ?_
    dsimp only
    split
    · exact hfail _ _
    · exact check_keeps hfail (hk v hrow)
  | «open» =>
    simp only [Action.spec, guardOpen]
    refine check_keeps hfail ?_
    split
    · refine .read ?_
      split
      · exact hk v hrow
      · exact ensureElectionKey_keeps hrow ⟨rfl, rfl, rfl⟩ hfail fun v' hkept _ => hk v' ((hkept.event _).trans hrow)
    · exact hk v hrow
  | resume =>
    simp only [Action.spec, guardResume]
    exact check_keeps hfail (hk v hrow)
  | archive =>
    simp only [Action.spec, guardArchive]
    split
    · exact hfail _ _
    · refine .read ?_
      split
      · exact hfail _ _
      · exact hk v hrow
  | _ => exact hk v hrow

/-- **An effect** fails, or goes on with the changed row; scheduling leaves a
key, an approval a signed configuration. -/
theorem effect_keeps (a : Action) {rest : EventRow → Program} (hrow : v.row (.event t.event) = some locked)
    (hsource : locked.status ∈ a.spec.sources) (hfail : ∀ x v', (fail x).Keeps (Preserves Fitted) v')
    (hk : ∀ v', Ready a t.event locked (a.after t { locked with status := a.spec.target }) v' →
      (rest (a.after t { locked with status := a.spec.target })).Keeps (Preserves Fitted) v') :
    (a.spec.effect E t { locked with status := a.spec.target } fail rest).Keeps (Preserves Fitted) v := by
  have hplain : a ≠ .schedule → a ≠ .approve →
      (rest (a.after t { locked with status := a.spec.target })).Keeps (Preserves Fitted) v := fun hs ha =>
    hk v ⟨hrow, fun h => absurd h hs, fun h => absurd h ha⟩
  cases a with
  | approve =>
    have hun : Unapproved locked.status := .inr (.inl (List.mem_singleton.mp hsource))
    exact snapshotConfiguration_keeps hrow hun hfail fun v' hrow' hsigned =>
      hk v' ⟨hrow', (fun h => by cases h), fun _ => hsigned⟩
  | schedule =>
    simp only [Action.spec, effectSchedule]
    split
    · refine ensureElectionKey_keeps hrow ⟨rfl, rfl, rfl⟩ hfail fun v' hkept hsome => ?_
      exact hk v' ⟨(hkept.event _).trans hrow, fun _ _ => hsome, fun h => by cases h⟩
    · rename_i hpaid
      exact hk v ⟨hrow, fun _ hi => absurd hi hpaid, fun h => by cases h⟩
  | _ => exact hplain (fun h => by cases h) fun h => by cases h

theorem after_alike (a : Action) (t : TransitionRequest) (ev : EventRow) : Alike ev (a.after t ev) := by
  cases a <;> exact ⟨rfl, rfl, rfl⟩

theorem reopened_alike (newEnd : Option Time) (ev : EventRow) : Alike ev (reopened newEnd ev) := by
  cases newEnd <;> exact ⟨rfl, rfl, rfl⟩

theorem reopened_status (newEnd : Option Time) (ev : EventRow) : (reopened newEnd ev).status = ev.status := by
  cases newEnd <;> rfl

/-- **A transition** keeps the invariant. -/
theorem transition_keeps {newEnd : Option Time} (ht : t.extraEffect = reopened newEnd) :
    (transition E t fun _ => .halt).Keeps (Preserves Fitted) v := by
  have hhalt : ∀ v', (Prog.halt : Program).Keeps (Preserves Fitted) v' := fun _ => .halt Preserves.refl
  have hfail : ∀ v', (Prog.rollback .halt : Program).Keeps (Preserves Fitted) v' := fun _ =>
    .rollback Preserves.refl hhalt
  unfold transition transitionBody
  split
  · exact hfail _
  rename_i a ha
  refine .lockRow (fun _ => hfail _) fun locked hrow => ?_
  dsimp only
  split
  · exact hfail _
  rename_i hsource
  split
  · exact hfail _
  have hmoved : ∀ v', v'.row (.event t.event) = some locked →
      (a.spec.effect E t { locked with status := a.spec.target } (fun x => .rollback .halt) fun ev =>
        .put (.event t.event) (some (t.extraEffect ev)) <|
        record E (t.entry E a locked.status (t.extraEffect ev)) (.rollback .halt) <|
        .commit .halt).Keeps (Preserves Fitted) v' := fun v' hrow' => by
    refine effect_keeps a hrow' (not_not.mp hsource) (fun _ => hfail) fun v'' hready => .given fun h => ?_
    have hput : Fitted (v''.set (.event t.event)
        (some (t.extraEffect (a.after t { locked with status := a.spec.target })))) := by
      rw [ht]
      refine h.moved hready (not_not.mp hsource) ?_ (reopened_alike _ _) ?_
      · exact ⟨(after_alike a t _).mode, (after_alike a t _).custody, (after_alike a t _).threshold⟩
      · rw [reopened_status, Action.after_status]
    refine .put Preserves.trans (fun _ => hput) ?_
    exact record_keeps Preserves.trans ignores_audit (fun _ _ => hfail _) fun _ _ =>
      .commit Preserves.trans Preserves.refl (hhalt _)
  split
  · exact hmoved v hrow
  · exact guard_keeps a hrow (fun _ => hfail) hmoved

/-! ### Settings and trustees -/

/-- What is let through is a draft, or becomes one. -/
theorem editPolicy_config {ev : EventRow} {resets : Bool} {reason : String}
    (h : editPolicy ev .config = (true, resets, reason)) : resets = true ∨ ev.status = .DRAFT := by
  unfold editPolicy at h
  split_ifs at h <;> simp_all

theorem edited_status (q : SettingsPost) (hasKey : Bool) (ev : EventRow) :
    editPolicy (q.edited E hasKey ev) .config = editPolicy ev .config := rfl

/-- Once the key exists the settings keep the custody. -/
theorem custody_eq {q : SettingsPost} {hasKey : Bool} {ev : EventRow} (h : hasKey = true) :
    q.custody hasKey ev = ev.keyCustody := by
  unfold SettingsPost.custody
  dsimp only
  split_ifs with h₁ h₂ h₂
  · rfl
  · exact not_not.mp fun hne => h₂ ⟨h, hne⟩
  · rfl
  · exact not_not.mp fun hne => h₂ ⟨h, hne⟩

/-- A draft with the settings of the form. -/
theorem Fitted.edited {q : SettingsPost} {ev ev' : EventRow} {key : Option BallotKeyRow} (h : Fitted v)
    (hev : v.row (.event q.event) = some ev') (halike : Alike ev ev') (hkey : v.row (.ballotKey q.event) = key)
    (hmoves : ∀ x, key = some x → x.custody = .TRUSTEES → q.threshold E ev = ev.trusteeThreshold) {saved : EventRow}
    (hsaved : saved = { q.edited E key.isSome ev with status := .DRAFT }) :
    Fitted (v.set (.event q.event) (some saved)) := by
  refine h.event (fun hi x hx => ?_) (fun _ _ => ?_) fun hun => ?_
  · have hsome : key.isSome = true := by rw [← hkey, hx]; rfl
    have hmode : ev'.isInstitutional = saved.isInstitutional := by
      rw [halike.isInstitutional, hsaved]
      rfl
    have hm := h.keyed q.event ev' hev (hmode.trans hi) x hx
    refine ⟨?_, fun hc => ?_, hm.shares⟩
    · rw [hm.custody, halike.custody, hsaved]
      exact (custody_eq hsome).symm
    · rw [hm.threshold hc, halike.threshold, hsaved]
      exact (hmoves x (hkey ▸ hx) hc).symm
  · rw [hsaved]
    exact .inl rfl
  · rw [hsaved] at hun
    exact absurd (.inl rfl) hun

/-- A draft again. -/
theorem Fitted.reset {ev : EventRow} (h : Fitted v) (hev : v.row (.event e) = some ev) :
    Fitted (v.set (.event e) (some { ev with status := .DRAFT, reviewedBy := none })) := by
  have halike : Alike ev { ev with status := .DRAFT, reviewedBy := none } := ⟨rfl, rfl, rfl⟩
  refine h.event (fun hi key hkey => halike.matches (h.keyed e ev hev hi key hkey)) (fun _ _ => .inl rfl) fun hun => ?_
  exact absurd (.inl rfl) hun

/-- **The settings form** keeps the invariant where it moves no threshold of a
split key. -/
theorem settingsView_keeps {q : SettingsPost} (hmoves : moves E q v = false) :
    (settingsView E q fun _ => .halt).Keeps (Preserves Fitted) v := by
  have hhalt : ∀ v', (Prog.halt : Program).Keeps (Preserves Fitted) v' := fun _ => .halt Preserves.refl
  have hrecord : ∀ (a : Entry) v', (recordNow E a .halt .halt).Keeps (Preserves Fitted) v' := fun a v' =>
    record_keeps Preserves.trans ignores_audit (fun _ _ => .rollback Preserves.refl hhalt) fun _ _ =>
      .commit Preserves.trans Preserves.refl (hhalt _)
  refine .read ?_
  cases hev : v.row (.event q.event) with
  | none => exact hhalt v
  | some ev =>
    dsimp only
    split
    · exact hrecord _ v
    rename_i hperm
    rcases hpolicy : editPolicy ev .config with ⟨_ | _, resets, reason⟩
    · exact hhalt v
    refine .read ?_
    have hthreshold : ∀ key, v.row (.ballotKey q.event) = some key → key.custody = .TRUSTEES →
        q.threshold E ev = ev.trusteeThreshold := fun key hkey hc => by
      simpa [moves, hev, hkey, hc, hpolicy, not_not.mp hperm] using hmoves
    have hsave : ∀ (v' : Database) (ev' saved : EventRow), v'.row (.event q.event) = some ev' → Alike ev ev' →
        v'.row (.ballotKey q.event) = v.row (.ballotKey q.event) →
        saved = { q.edited E (v.row (.ballotKey q.event)).isSome ev with status := .DRAFT } →
        (Prog.put (.event q.event) (some saved) <| .commit <| recordNow E (q.entry ev saved) .halt .halt).Keeps
          (Preserves Fitted) v' := fun v' ev' saved hev' halike hkey hsaved =>
      .put Preserves.trans (fun h => h.edited hev' halike hkey hthreshold hsaved)
        (.commit Preserves.trans Preserves.refl (hrecord _ _))
    unfold requireEditable
    rw [edited_status, hpolicy]
    cases hresets : resets with
    | false =>
      have hdraft : ev.status = .DRAFT := by
        simpa [hresets] using editPolicy_config hpolicy
      refine hsave v ev _ hev ⟨rfl, rfl, rfl⟩ rfl ?_
      rw [← hdraft]
      rfl
    | true =>
      refine .update Preserves.trans (fun ev' hev' _ h => h.reset hev') (fun ev' hev' _ => ?_) ?_
      · rw [hev] at hev'
        cases hev'
        refine .commit Preserves.trans Preserves.refl ?_
        refine record_keeps Preserves.trans ignores_audit (fun _ _ => .rollback Preserves.refl hhalt) fun v' hoff => ?_
        refine .commit Preserves.trans Preserves.refl
          (hsave v' { ev with status := .DRAFT, reviewedBy := none } _ ?_ ⟨rfl, rfl, rfl⟩ ?_ rfl)
        · rw [hoff (.event q.event) rfl, Db.set_row_self]
        · rw [hoff (.ballotKey q.event) rfl, Db.set_row_ne _ _ (by simp)]
      · refine .commit Preserves.trans Preserves.refl ?_
        refine record_keeps Preserves.trans ignores_audit (fun _ _ => .rollback Preserves.refl hhalt) fun v' hoff => ?_
        exact .commit Preserves.trans Preserves.refl (hsave v' ev _ ((hoff _ rfl).trans hev) ⟨rfl, rfl, rfl⟩ (hoff _ rfl) rfl)

/-- A new trustee of an election without a key. -/
theorem Fitted.trustee {pk : ℕ} {t : TrusteeShareRow} (h : Fitted v) (hkey : v.row (.ballotKey t.election) = none)
    (hfree : v.row (.trusteeShare pk) = none) : Fitted (v.set (.trusteeShare pk) (some t)) := by
  have hrow : ∀ k, k ≠ .trusteeShare pk → (v.set (.trusteeShare pk) (some t)).row k = v.row k := fun _ hne =>
    Db.set_row_ne _ _ hne
  have hsame : ∀ e', e' ≠ t.election → trustees (v.set (.trusteeShare pk) (some t)) e' = trustees v e' := fun e' hne => by
    have hcount := v.count_set (trusteeOf e') (.trusteeShare pk) (some t)
    have hother : trusteeOf e' (.trusteeShare pk) t = false := decide_eq_false fun he => hne he.symm
    rw [hfree, Option.any_none, Option.any_some, hother] at hcount
    exact hcount
  refine ⟨fun e' ev' hev' hi key hkey' => ?_, fun e' ev' hev' hi hnone => ?_, fun e' ev' hev' hun => ?_⟩
  · rw [hrow _ (by simp)] at hev' hkey'
    have hne : e' ≠ t.election := fun he => by
      rw [he, hkey] at hkey'
      cases hkey'
    exact (h.keyed e' ev' hev' hi key hkey').same (hsame e' hne)
  · rw [hrow _ (by simp)] at hev' hnone
    exact h.unkeyed e' ev' hev' hi hnone
  · rw [hrow _ (by simp)] at hev'
    exact (h.signed e' ev' hev' hun).same fun _ => hrow _ (by simp)

/-- **Adding a trustee** keeps the invariant. -/
theorem trusteesAdd_keeps {q : TrusteePost} : (trusteesAdd E q fun _ => .halt).Keeps (Preserves Fitted) v := by
  have hhalt : ∀ v', (Prog.halt : Program).Keeps (Preserves Fitted) v' := fun _ => .halt Preserves.refl
  have hrecord : ∀ (a : Entry) v', (recordNow E a .halt .halt).Keeps (Preserves Fitted) v' := fun a v' =>
    record_keeps Preserves.trans ignores_audit (fun _ _ => .rollback Preserves.refl hhalt) fun _ _ =>
      .commit Preserves.trans Preserves.refl (hhalt _)
  refine .read ?_
  cases hev : v.row (.event q.event) with
  | none => exact hhalt v
  | some ev =>
    dsimp only
    split
    · exact hrecord _ v
    split
    · exact hhalt v
    cases q.trustee with
    | none => exact hhalt v
    | some trustee =>
      refine .read ?_
      split
      · exact hhalt v
      rename_i hkey
      refine .read (.read ?_)
      dsimp only
      split
      · exact hhalt v
      refine .insertOr Preserves.trans (fun hfree h => h.trustee ?_ hfree) (fun _ => ?_) (hhalt v)
      · simpa using hkey
      · exact .commit Preserves.trans Preserves.refl (hrecord _ _)

end Keeps

/-! ### Whole runs -/

/-- A call that moves no threshold of a split key keeps the invariant. -/
theorem step_fitted {E : Env} (c : Call) (db : Database) (h : Fitted db) (hc : Steady E c db) :
    Fitted (step E c db) := by
  cases c with
  | settings q => exact Prog.Keeps.after Preserves.refl (settingsView_keeps hc) h
  | trustee q => exact Prog.Keeps.after Preserves.refl trusteesAdd_keeps h
  | transition t newEnd => exact Prog.Keeps.after Preserves.refl (transition_keeps rfl) h

/-- **The key of every open election is the one its approved configuration asks
for**, in every run in which no settings are saved that move the threshold of a
key that is split. -/
theorem custody_matches {E : Env} {calls : List Call} {db : Database} (h : Fresh db)
    (hcalls : Steps.Always (step E) (Steady E) calls db) : Matching (Steps.run (step E) calls db) := by
  have hrun : Fitted (Steps.run (step E) calls db) := Steps.Always.run step_fitted h.fitted hcalls
  exact hrun.matching


instance (E : Env) (c : Call) (db : Database) : Decidable (Steady E c db) := by
  unfold Steady
  cases c <;> infer_instance

/-- Reads one number. -/
def reader : Env := { Env.plain with parseInt := fun text => if text = "2" then some 2 else none }

def officer : User := { pk := 1, username := "officer", hasPerm := fun _ _ => true }

/-- A draft with one position, for one of its trustees to tally. -/
def drafted : Database :=
  let ev : EventRow := { votingMode := .CODE_VOTING, startDate := 0, endDate := 10, keyCustody := .TRUSTEES,
                         trusteeThreshold := 1, allowSelfRegistration := true }
  ((Db.empty.set (.event 1) (some ev)).set (.category 1) (some { event := 1, name := "Chair" })).set (.candidate 1)
    (some { event := 1, category := some 1, name := "Ama" })

def adds (pk : ℕ) : Call :=
  .trustee { event := 1, user := officer, trustee := some ⟨pk, "trustee", fun _ _ => false, fun _ => false⟩,
             pk := pk, now := 1 }

def does (action : String) : Call :=
  .transition { event := 1, action := action, actor := some officer, key := { privateRaw := "key" }, now := fun _ => 1 }
    none

/-- The settings form, with two trustees for the tally. -/
def asksForTwo : Call :=
  .settings { event := 1, user := officer, authMethods := ["CODE"], now := fun _ => 1,
              post := fun name =>
                if name = "trustee_threshold" then some "2"
                else if name = "allow_self_registration" then some "on" else none }

theorem drafted_fresh : Fresh drafted := by
  refine ⟨fun e ev hev => ?_, fun e => by simp [drafted, Db.empty]⟩
  rw [drafted, Db.set_row_ne _ _ (by simp), Db.set_row_ne _ _ (by simp)] at hev
  by_cases he : e = 1
  · subst he
    rw [Db.set_row_self] at hev
    cases hev
    rfl
  · rw [Db.set_row_ne _ _ (by simpa using he)] at hev
    cases hev

/-- The threshold is moved before there is a key. -/
theorem custody_matches_early : Matching (Steps.run (step reader)
    [adds 11, adds 12, asksForTwo, does "submit", does "approve", does "schedule", does "open"] drafted) :=
  custody_matches drafted_fresh (by decide +kernel)

/-- The election is scheduled, its threshold moved, and it is approved again and
opened: one trustee is enough for its key, two are asked for. -/
theorem not_custody_matches : ¬ ∀ (E : Env) (calls : List Call) (db : Database), Fresh db →
    Matching (Steps.run (step E) calls db) := by
  intro h
  let calls := [adds 11, adds 12, does "submit", does "approve", does "schedule", asksForTwo, does "submit",
    does "approve", does "schedule", does "open"]
  have hevent : ((Steps.run (step reader) calls drafted).row (.event 1)).map (fun ev =>
      (ev.isInstitutional, ev.status, ev.keyCustody, ev.trusteeThreshold)) = some (true, .OPEN, .TRUSTEES, 2) := by
    decide +kernel
  have hkey : ((Steps.run (step reader) calls drafted).row (.ballotKey 1)).map (·.threshold) = some 1 := by
    decide +kernel
  obtain ⟨ev, hev, hfields⟩ := Option.map_eq_some_iff.mp hevent
  simp only [Prod.mk.injEq] at hfields
  obtain ⟨hinstitutional, hopen, hcustody, hthreshold⟩ := hfields
  obtain ⟨key, hrow, hm, -⟩ := h reader calls drafted drafted_fresh 1 ev hev hinstitutional hopen
  have hsame := hm.threshold (hm.custody.trans hcustody)
  rw [hrow, Option.map_some, Option.some.injEq, hsame, hthreshold] at hkey
  cases hkey

end Custody
end FlexyVotes
