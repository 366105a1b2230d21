/-
# One roll entry for an e-mail

Self-registrations, by a passcode or by single sign-on, run beside each other.
Each looks for a roll entry of the e-mail and creates one if there is none, in
separate statements and with no unique constraint on the e-mail, so two of one
e-mail may both find none.

In the runs in which no roll entry of an e-mail is created while another
registration of it is between its look and its own commit (`Alone`), at most
one is ever created.

Key definitions: `Call`, `Registering`, `Alone`, `spec`.
Key theorems: `inserted_count`, `selfRegister_ok`, `call_ok`, `one_entry`.
-/
import FlexyVotes.Elections.VoterAuth

namespace FlexyVotes
namespace Registration

open Transactions Audit Voters VoterAuth

/-- The `verify` of the `register` page: the passcode, then `self_register`. -/
def register (E : Env) (q : RegisterRequest) (challenge code subject : String) : Program :=
  .read fun db =>
    match db.row (.event q.event) with
    | none => .halt
    | some ev =>
      if ¬ ev.allowSelfRegistration then .halt
      else
        Otp.verify E { challenge := challenge, code := code, purpose := "VOTER_REGISTRATION",
                       subjectType := "registration", subjectId := subject } q.now fun
          | .error _ => .halt
          | .ok _ => selfRegister E q ev fun _ => .halt

/-- One request of the run. -/
inductive Call
  | register (q : RegisterRequest) (challenge code subject : String)
  | sso (q : SsoRequest)

def Call.program (E : Env) : Call → Program
  | .register q challenge code subject => Registration.register E q challenge code subject
  | .sso q => .read fun db =>
    match db.row (.event q.event) with
    | none => .halt
    | some ev => voterFromSso E q ev fun _ => .halt

/-- The thread found no roll entry of the e-mail and has not created one yet. -/
def Registering (th : Thread Row Note) (e : ℕ) (index : String) : Prop :=
  .registering e index ∈ th.log ∧ (∀ pk, .registered e index pk ∉ th.log) ∧ th.prog ≠ .halt

/-- No first roll entry of an e-mail is created while another thread is about
to. -/
def Alone (s : State Row Note) (t : ℕ) (s' : State Row Note) : Prop :=
  ∀ e index, s.db.count (rollEntry e index) = 0 → s'.db.count (rollEntry e index) ≠ 0 →
    ∀ u, u ≠ t → ¬ Registering (s.thr u) e index

/-! ### What the commits do to the entries of an e-mail -/

/-- Columns other than the election and the e-mail. -/
theorem saved_count {db : Database} {pk : ℕ} {v v' : VoterRow} (hv : db.row (.voter pk) = some v)
    (he : v'.election = v.election) (hi : v'.emailIndex = v.emailIndex) (e : ℕ) (index : String) :
    (db.apply [⟨.voter pk, some v'⟩]).count (rollEntry e index) = db.count (rollEntry e index) := by
  have h := Db.count_set db (rollEntry e index) (.voter pk) (some v')
  simp only [hv, Option.any_some, rollEntry, hasEmail, he, hi] at h
  simp only [Db.apply_cons, Db.apply_nil]
  have hcancel := Nat.add_right_cancel h
  exact hcancel

/-- A new voter is one more entry of its own e-mail. -/
theorem inserted_count {db : Database} {pk : ℕ} {v : VoterRow} {own : List Key} {w : Writes Row}
    (hi : Inserted pk v own w db) (e : ℕ) (index : String) :
    (db.apply w).count (rollEntry e index) =
      db.count (rollEntry e index) + if hasEmail e index v then 1 else 0 := by
  obtain ⟨u, hu, rfl⟩ := hi.writes
  have h := Db.count_set db (rollEntry e index) (.voter pk) (some v)
  rw [hi.new] at h
  simp only [Option.any_none, Option.any_some, Bool.false_eq_true, if_false, Nat.add_zero] at h
  rw [Db.apply_append, hu.count _ fun k r hk => by cases k <;> simp_all [isUnique, rollEntry]]
  exact h

/-! ### Every interleaving -/

/-- Keys of no voter. -/
def isAside : Key → Bool
  | .voter _ => false
  | _ => true

/-- A registration that found no roll entry of the e-mail relies on none to be
created. -/
def spec (db₀ : Database) : Spec Row Note where
  inv := fun db => ∀ e index, db.count (rollEntry e index) ≤ max (db₀.count (rollEntry e index)) 1
  rely := fun _ log db db' => ∀ e index, .registering e index ∈ log → (∀ pk, .registered e index pk ∉ log) →
    db.count (rollEntry e index) = 0 → db'.count (rollEntry e index) = 0
  guar := fun _ _ _ _ => True
  fact := fun _ _ => True

section Ok

variable {E : Env} {db₀ db : Database} {log : List Note}

theorem spec_sound : (spec db₀).Sound where
  refl := fun _ _ _ _ _ _ _ h => h
  trans := fun _ _ _ _ _ h h' e i hm hn h0 => h' e i hm hn (h e i hm hn h0)
  sub := fun _ _ _ _ _ _ h => h
  fact := fun _ _ _ _ _ _ _ _ _ => trivial

theorem spec_fits : (spec db₀).Fits Alone := by
  intro s t s' own hc _ _ _ u own' hu hh _ _ e i hm hn h0
  by_contra hne
  exact hc e i h0 hne u hu ⟨hm, hn, hh⟩

theorem spec_quiet : Quiet (spec db₀) isAside := fun _ _ db w hi hw => by
  refine ⟨fun e i => ?_, trivial⟩
  rw [hw.count db fun k r hk => by cases k <;> simp_all [isAside, rollEntry]]
  exact hi e i

theorem isAside_of_isAudit (k : Key) (h : isAudit k = true) : isAside k = true := by
  cases k <;> simp_all [isAside, isAudit]

theorem isAside_of_isOtp (k : Key) (h : Otp.isOtp k = true) : isAside k = true := by
  cases k <;> simp_all [isAside, Otp.isOtp]

theorem recordNow_halts {a : Entry} : Ok (spec db₀) (recordNow E a .halt .halt) db [] [] log :=
  recordNow_ok spec_sound (spec_quiet.mono isAside_of_isAudit) .trivial trivial (fun _ => trivial)
    fun _ _ _ => trivial

/-- A save of columns other than the election and the e-mail. -/
theorem saveFields_ok {pk : ℕ} {f : VoterRow → VoterRow} (he : ∀ r, (f r).election = r.election)
    (hi : ∀ r, (f r).emailIndex = r.emailIndex) :
    Ok (spec db₀) (saveFields pk f .halt .halt) db [] [] log := by
  refine Ok.lockRow (fun db₁ r h₁ hr => Ok.put spec_sound (by simp) trivial fun db₂ h₂ => ?_)
    fun _ _ _ _ => trivial
  have hr₂ : db₂.row (.voter pk) = some r := (h₂.held _ (by simp)).trans hr
  refine ⟨fun e i => ?_, trivial, trivial⟩
  rw [saved_count hr₂ (he r) (hi r)]
  exact h₂.inv e i

/-- The entry a registration creates is of the e-mail it looked for. -/
theorem voter_hasEmail (q : RegisterRequest) (ev : EventRow) (e : ℕ) (index : String) :
    hasEmail e index (q.voter E ev) = true ↔ q.event = e ∧ E.blindIndex q.email "email" = index := by
  have hindex : E.blindIndex q.email "email" =
      if E.strip q.email = "" then "" else E.blindIndex (E.strip q.email) "email" := by
    unfold Env.blindIndex
    rw [Env.strip_strip]
    split <;> rfl
  rw [hindex]
  unfold RegisterRequest.voter setEmail setPhone issueCredential hasEmail
  dsimp only
  split_ifs <;> simp

/-- Whether a program ends, or goes on with what is `Ok` in any state. -/
def Anywhere (db₀ : Database) (p : Program) : Prop := ∀ db log, Ok (spec db₀) p db [] [] log

variable {q : RegisterRequest} {ev : EventRow} {k : Except Failure (ℕ × VoterRow) → Program}

/-- The commit of a registration that still finds no entry of its e-mail. -/
theorem saveRegistration_ok (hk : ∀ x, Anywhere db₀ (k x))
    (hreg : .registering q.event (E.blindIndex q.email "email") ∈ log)
    (hnew : ∀ pk, .registered q.event (E.blindIndex q.email "email") pk ∉ log)
    (h0 : db.count (rollEntry q.event (E.blindIndex q.email "email")) = 0) :
    Ok (spec db₀) (saveRegistration E q ev k) db [] [] log := by
  refine Voters.insertVoter_ok spec_sound (fun db₁ own w h₁ hi db₂ h₂ => ?_) fun _ _ _ db' _ => hk _ db' _
  have hi₂ : Inserted q.draw.pk (q.voter E ev) own w db₂ :=
    ⟨hi.held, (h₂.held _ hi.held).trans hi.new, hi.writes⟩
  have h0₂ : db₂.count (rollEntry q.event (E.blindIndex q.email "email")) = 0 :=
    h₂.rely _ _ hreg hnew (h₁.rely _ _ hreg hnew h0)
  refine ⟨fun e i => ?_, trivial, trivial, ?_⟩
  · rw [inserted_count hi₂]
    split
    · rename_i hm
      obtain ⟨rfl, rfl⟩ := (voter_hasEmail q ev e i).mp hm
      omega
    · exact h₂.inv e i
  · exact recordNow_ok spec_sound (spec_quiet.mono isAside_of_isAudit) .trivial trivial
      (fun db => hk _ db _) fun db _ _ => hk _ db _

/-- **A registration creates no second entry.** -/
theorem selfRegister_ok (hk : ∀ x, Anywhere db₀ (k x)) (hlog : log = []) :
    Ok (spec db₀) (selfRegister E q ev k) db [] [] log := by
  subst hlog
  unfold selfRegister
  split
  · exact hk _ _ _
  · split
    · exact hk _ _ _
    · split
      · exact hk _ _ _
      · dsimp only
        split
        · exact hk _ _ _
        · intro db₁ h₁
          dsimp only
          split
          · exact hk _ _ _
          · rename_i h0
            rw [Db.apply_nil, not_not] at h0
            have hsave : ∀ db, db.count (rollEntry q.event (E.blindIndex q.email "email")) = 0 →
                Ok (spec db₀) (checkPlanLimit q.event ev q.planLimit 1 (k (.error .billingLimit))
                  (saveRegistration E q ev k)) db [] []
                  [.registering q.event (E.blindIndex q.email "email")] := by
              intro db h0
              unfold checkPlanLimit
              split
              · exact saveRegistration_ok hk (by simp) (by simp) h0
              · intro db₂ h₂
                dsimp only
                split
                · exact hk _ _ _
                · exact saveRegistration_ok hk (by simp) (by simp) (h₂.rely _ _ (by simp) (by simp) h0)
            refine ⟨trivial, ?_⟩
            split
            · exact hsave db₁ h0
            · intro db₂ h₂
              dsimp only
              split
              · exact hk _ _ _
              · exact hsave db₂ (h₂.rely _ _ (by simp) (by simp) h0)

/-- Who is not on the roll registers, where that is allowed. -/
theorem ssoRegister_ok (q : SsoRequest) (ev : EventRow) : Ok (spec db₀)
      (if E.strip q.claims.email ≠ "" ∧ q.claims.emailVerified = true ∧ ev.allowSelfRegistration = true then
        selfRegister E (q.register E) ev fun
          | .error (.voterImport _) => .halt
          | .error _ => .halt
          | .ok (pk, _) =>
            saveFields pk (fun r => { r with ssoSubjectIndex := q.subject E, source := .SSO }) .halt .halt
      else authFail E (failedEntry q.event ev q.request "SSO" "not on roll" (q.now 5)) fun _ => .halt)
      db [] [] [] := by
  split
  · refine selfRegister_ok (fun x db log => ?_) rfl
    split
    · trivial
    · trivial
    · exact saveFields_ok (fun _ => rfl) fun _ => rfl
  · exact recordNow_halts

theorem voterFromSso_ok (q : SsoRequest) (ev : EventRow) :
    Ok (spec db₀) (voterFromSso E q ev fun _ => .halt) db [] [] [] := by
  intro db₁ h₁
  dsimp only
  split
  · trivial
  · split
    · intro db₂ h₂
      dsimp only
      split
      · exact saveFields_ok (fun _ => rfl) fun _ => rfl
      · exact ssoRegister_ok q ev
    · exact ssoRegister_ok q ev

theorem call_ok (c : Call) : Ok (spec db₀) (c.program E) db [] [] [] := by
  cases c with
  | register q challenge code subject =>
    intro db₁ h₁
    dsimp only
    split
    · trivial
    · split
      · trivial
      · refine Otp.verify_ok spec_sound (spec_quiet.mono isAside_of_isOtp) .trivial trivial
          (fun _ _ _ _ => trivial) fun db _ _ _ => ?_
        exact selfRegister_ok (fun _ _ _ => trivial) rfl
  | sso q =>
    intro db₁ h₁
    dsimp only
    split
    · trivial
    · exact voterFromSso_ok q _

end Ok

/-- The requests before their first statement. -/
def start (E : Env) (db : Database) (calls : ℕ → Call) : State Row Note :=
  State.init db fun t => (calls t).program E

/-- **At most one roll entry is ever created for an e-mail** in the runs in
which none is created while another registration of the e-mail is between its
look and its own commit: an election has no more entries of it than at the
start, or one. -/
theorem one_entry (E : Env) (db : Database) (calls : ℕ → Call) {s : State Row Note}
    (hr : Run Alone (start E db calls) s) (e : ℕ) (index : String) :
    s.db.count (rollEntry e index) ≤ max (db.count (rollEntry e index)) 1 := by
  have hm : Meets (spec db) (start E db calls) := .init (fun _ _ => Nat.le_max_left _ _) fun t => call_ok (calls t)
  exact (hm.run spec_sound spec_fits hr).inv e index

/-! ### Two roll entries -/

/-- An open election with self-registration. -/
def openToAll : Database :=
  Db.empty.set (.event 1) (some { startDate := 0, endDate := 100, status := .OPEN, votingMode := .CODE_VOTING,
                                  authMethods := ["SSO"], allowSelfRegistration := true })

/-- One person signs in twice. -/
def twice (t : ℕ) : Call :=
  .sso { event := 1, claims := { iss := "idp", sub := "s", email := "a@x", emailVerified := true },
         draw := ⟨t, ""⟩, now := fun _ => 1 }

/-- `Alone`, for the first `n` threads. -/
def alone (n : ℕ) (s : State Row Note) (t : ℕ) (s' : State Row Note) : Bool :=
  (List.range n).all fun u => u = t || (s.thr u).prog.ended || (s.thr u).log.all fun
    | .registering e index =>
      (s.thr u).log.any (fun
        | .registered e' index' _ => e' = e && index' = index
        | _ => false) ||
      s.db.count (rollEntry e index) ≠ 0 || s'.db.count (rollEntry e index) = 0
    | _ => true

theorem alone_sound {n : ℕ} (s : State Row Note) (t : ℕ) (s' : State Row Note) (hn : Silent n s)
    (h : alone n s t s' = true) : Alone s t s' := by
  intro e index h0 hne u hut ⟨hlog, hnot, hhalt⟩
  have hu : u < n := by
    by_contra hu
    rw [hn u (by omega)] at hlog
    cases hlog
  simp only [alone, List.all_eq_true, List.mem_range, Bool.or_eq_true, Prog.ended_iff,
    decide_eq_true_eq] at h
  have hall := ((h u hu).resolve_left fun h => h.elim hut hhalt) _ hlog
  simp only [h0, hne, Bool.or_eq_true, List.any_eq_true, ne_eq, not_true_eq_false, decide_false,
    Bool.false_eq_true, or_false] at hall
  obtain ⟨x, hx, hm⟩ := hall
  cases x with
  | registered e' index' pk =>
    simp only [Bool.and_eq_true, decide_eq_true_eq] at hm
    obtain ⟨rfl, rfl⟩ := hm
    exact hnot pk hx
  | _ => cases hm

/-- One person gets two roll entries. -/
theorem not_one_entry :
    ¬ ∀ (E : Env) (db : Database) (calls : ℕ → Call) (s : State Row Note), Run Any (start E db calls) s →
      ∀ e index, s.db.count (rollEntry e index) ≤ max (db.count (rollEntry e index)) 1 := by
  intro h
  have hsome : (replay (start .plain openToAll twice)
      (List.replicate 4 0 ++ List.replicate 4 1 ++ List.replicate 11 0 ++ List.replicate 10 1)).isSome = true := by
    decide +kernel
  have hcount : (replay (start .plain openToAll twice)
      (List.replicate 4 0 ++ List.replicate 4 1 ++ List.replicate 11 0 ++ List.replicate 10 1)).map (fun s =>
        s.db.count (rollEntry 1 "email:a@x")) = some 2 := by decide +kernel
  have hnone : openToAll.count (rollEntry 1 "email:a@x") = 0 := by decide +kernel
  obtain ⟨s, hs⟩ := Option.isSome_iff_exists.mp hsome
  rw [hs, Option.map_some, Option.some.injEq] at hcount
  have := h .plain openToAll twice s (.of_replay _ .refl hs) 1 "email:a@x"
  rw [hcount, hnone] at this
  omega

/-- In turn the person gets one. -/
theorem one_entry_inTurn :
    ∃ s, replayIf 2 (alone 2) (start .plain openToAll twice)
        (List.replicate 15 0 ++ List.replicate 2 1) = some s ∧
      s.db.count (rollEntry 1 "email:a@x") = 1 ∧
      s.db.count (rollEntry 1 "email:a@x") ≤ max (openToAll.count (rollEntry 1 "email:a@x")) 1 := by
  have hsome : (replayIf 2 (alone 2) (start .plain openToAll twice)
      (List.replicate 15 0 ++ List.replicate 2 1)).isSome = true := by decide +kernel
  have hcount : (replayIf 2 (alone 2) (start .plain openToAll twice)
      (List.replicate 15 0 ++ List.replicate 2 1)).map (fun s => s.db.count (rollEntry 1 "email:a@x")) =
      some 1 := by decide +kernel
  obtain ⟨s, hs⟩ := Option.isSome_iff_exists.mp hsome
  rw [hs, Option.map_some, Option.some.injEq] at hcount
  have hsilent : Silent 2 (start .plain openToAll twice) := fun _ _ => rfl
  exact ⟨s, hs, hcount, one_entry .plain openToAll twice
    (Run.of_replayIf alone_sound _ hsilent .refl hs) 1 "email:a@x"⟩

end Registration
end FlexyVotes
