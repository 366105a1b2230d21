/-
# Failures that are counted

A failed attempt reads the row of the account, adds one to its count of failures
and saves the row. Attempts that fail side by side read the same count, so that
all but one are lost, and with them the lock that the last was to bring. Failures
are counted, and lock the account in time, just when no attempt fails while
another is between its read and its save (`failures_counted`).

What a run of logins does to the count of one account is a run of reads and saves
of a counter (`run_trace`).

Key definitions: `State.failingRow`, `trace`, `finished`, `LocksInTime`, `Apart`.
Key theorems: `step_seen`, `run_trace`, `trace_alone`, `failures_counted`.
-/
import FlexyVotes.Core.Login
import FlexyVotes.Lib.Counters

namespace FlexyVotes
namespace Login

open Counters (Counter Act act Alone New)

/-! ### An account's count as a counter -/

/-- The row of the account that the request has read, to count a failure. -/
def failingOf (u : ℕ) : Option (ℕ × Flight) → Option SecurityRow
  | some (_, .failing v row) => if v = u then some row else none
  | _ => none

def State.failingRow (s : State) (u i : ℕ) : Option SecurityRow := failingOf u (s.flights i)

/-- The account's count of failures. -/
def State.failures (s : State) (u : ℕ) : ℕ := (s.securityFor u).failedLoginCount

/-- The account's count, saved so often, with what the failing requests have read. -/
def counterOf (u k : ℕ) (s : State) : Counter :=
  ⟨s.failures u, fun i => (s.failingRow u i).map (·.failedLoginCount), k⟩

/-- The request that takes the step. -/
def Step.request : Step → Option ℕ
  | .check i _ _ _ | .authenticate i | .begin i _ | .sso i _ _ | .mfa i _ _ _ | .passkeyVerify i _ _ | .complete i _
  | .count i => some i
  | .passkeyOptions _ _ => none

variable (S : Settings) (P : Primitives) (E : Env)

/-- What the step does to the account's count: a request fails and reads it, or
saves it. -/
def acts (u : ℕ) (x : Step) (s : State) : List Act :=
  match x.request with
  | none => []
  | some i =>
    match s.failingRow u i, (step S P E x s).failingRow u i with
    | none, some _ => [.read i]
    | some _, none => [.save i]
    | _, _ => []

/-- The reads and saves of a run. -/
def trace (u : ℕ) : List (Time × Step) → State → List Act
  | [], _ => []
  | x :: xs, s => acts S P E u x.2 (s.upTo x.1) ++ trace u xs (tick S P E x s)

/-- A failed attempt at the account ends in the step: its row is saved. -/
def Saves (u : ℕ) (x : Step) (s : State) : Prop := ∃ i, x = .count i ∧ (s.failingRow u i).isSome = true

instance (u : ℕ) (x : Step) (s : State) : Decidable (Saves u x s) :=
  match x with
  | .count i => decidable_of_iff ((s.failingRow u i).isSome = true) (by simp [Saves])
  | .check _ _ _ _ | .authenticate _ | .begin _ _ | .sso _ _ _ | .mfa _ _ _ _ | .passkeyOptions _ _
  | .passkeyVerify _ _ _ | .complete _ _ => .isFalse (by simp [Saves])

/-- The failed attempts at the account that ended in a run. -/
def finished (u : ℕ) : List (Time × Step) → State → ℕ
  | [], _ => 0
  | x :: xs, s => (if Saves u x.2 (s.upTo x.1) then 1 else 0) + finished u xs (tick S P E x s)

/-- When an attempt ends with which there were enough failures, the first `n` of
them before the run, the account is locked. -/
def LocksInTime (u : ℕ) : ℕ → List (Time × Step) → State → Prop
  | _, [], _ => True
  | n, x :: xs, s =>
    (Saves u x.2 (s.upTo x.1) → S.maxFailures ≤ n + 1 → (tick S P E x s).Locked u) ∧
      LocksInTime u (if Saves u x.2 (s.upTo x.1) then n + 1 else n) xs (tick S P E x s)

instance decidableLocksInTime (u : ℕ) : ∀ (n : ℕ) (xs : List (Time × Step)) (s : State),
    Decidable (LocksInTime S P E u n xs s)
  | _, [], _ => .isTrue trivial
  | n, x :: xs, s =>
    have := decidableLocksInTime u (if Saves u x.2 (s.upTo x.1) then n + 1 else n) xs (tick S P E x s)
    inferInstanceAs (Decidable (_ ∧ _))

/-- An attempt at the account fails in the step, and reads the row. -/
def Fails (u : ℕ) (x : Step) (s : State) : Prop :=
  ∃ i, x.request = some i ∧ s.failingRow u i = none ∧ ((step S P E x s).failingRow u i).isSome = true

/-- No attempt at the account fails while another is between its read and its save. -/
def Apart (u : ℕ) (x : Step) (s : State) : Prop := Fails S P E u x s → ∀ i, s.failingRow u i = none

/-- A login of the account is completed in the step. -/
def SignsIn (u : ℕ) (x : Step) (s : State) : Prop :=
  ∃ i device c method, x = .complete i device ∧ s.flights i = some (c, .proven u method)

variable {S P E} {s s' : State} {u k : ℕ}

/-- The step leaves the account's count, and what is read of it, as they are. -/
structure Unseen (u : ℕ) (s s' : State) : Prop where
  failures : s'.failures u = s.failures u
  row : ∀ i, s'.failingRow u i = s.failingRow u i

theorem Unseen.refl (u : ℕ) (s : State) : Unseen u s s := ⟨rfl, fun _ => rfl⟩

theorem Unseen.trans {s'' : State} (h : Unseen u s s') (h' : Unseen u s' s'') : Unseen u s s'' :=
  ⟨h'.failures.trans h.failures, fun i => (h'.row i).trans (h.row i)⟩

theorem Unseen.counterOf (h : Unseen u s s') : counterOf u k s' = counterOf u k s := by
  unfold Login.counterOf
  rw [h.failures]
  congr 1
  funext i
  rw [h.row]

theorem Unseen.acts {x : Step} (h : Unseen u s (step S P E x s)) : acts S P E u x s = [] := by
  unfold Login.acts
  split
  · rfl
  · rename_i i _
    rw [h.row i]
    cases s.failingRow u i <;> rfl

theorem failingRow_setFlight {i j : ℕ} {o : Option (ℕ × Flight)} :
    (s.setFlight i o).failingRow u j = if j = i then failingOf u o else s.failingRow u j := by
  unfold State.failingRow State.setFlight
  dsimp only
  split <;> rfl

/-- A request that was not failing goes on, and is not failing. -/
theorem Unseen.setFlight {i : ℕ} {o : Option (ℕ × Flight)} (h : s.failingRow u i = none) (ho : failingOf u o = none) :
    Unseen u s (s.setFlight i o) := by
  refine ⟨rfl, fun j => ?_⟩
  rw [failingRow_setFlight]
  split
  · rename_i hj
    rw [ho, hj, h]
  · rfl

theorem Unseen.setSession {c : ℕ} {session : Session} : Unseen u s (s.setSession c session) := ⟨rfl, fun _ => rfl⟩

theorem failures_setSecurity {v : ℕ} {row : SecurityRow} :
    (s.setSecurity v row).failures u = if u = v then row.failedLoginCount else s.failures u := by
  unfold State.failures State.securityFor State.setSecurity
  dsimp only
  split <;> rfl

/-! ### What a step does to it -/

theorem secondFactor_unseen {pending : Pending} {session : Session} {method code : String} :
    Unseen u s (secondFactor P E pending session method code s).2 := by
  unfold secondFactor
  split
  · unfold verifyTotp
    dsimp only
    split
    · exact .refl u s
    · split
      · exact .refl u s
      · split
        · exact .refl u s
        · exact ⟨rfl, fun _ => rfl⟩
  · split
    · unfold useRecoveryCode
      dsimp only
      split
      · refine ⟨?_, fun _ => rfl⟩
        rw [failures_setSecurity]
        split
        · rename_i hu
          rw [hu]
          rfl
        · rfl
      · exact .refl u s
    · split
      · unfold verifyStepup
        split
        · exact .refl u s
        · split
          · exact .refl u s
          · split
            · exact .refl u s
            · split
              · exact .refl u s
              · exact ⟨rfl, fun _ => rfl⟩
      · exact .refl u s

theorem passkeyAuthenticate_unseen {c v : ℕ} {credential : String} :
    Unseen u s (passkeyAuthenticate P c v credential s).2 := by
  unfold passkeyAuthenticate
  split
  · exact .refl u s
  · have h : Unseen u s (s.setSession c { s.sessions c with webauthn := none }) := .setSession
    dsimp only
    split
    · exact h
    · split
      · exact h
      · exact ⟨rfl, fun _ => rfl⟩

theorem await_unseen {i c v : ℕ} {methods reasons : List String} (h : s.failingRow u i = none) :
    Unseen u s (await i c v methods reasons s) :=
  Unseen.trans .setSession (.setFlight h rfl)

theorem beginLogin_unseen {i c v : ℕ} {w : Visit} (h : s.failingRow u i = none) :
    Unseen u s (beginLogin S i c v w s) := by
  unfold beginLogin
  dsimp only
  split
  · split
    · exact .setFlight h rfl
    · split
      · exact .setFlight h rfl
      · rename_i id row _
        have hs : Unseen u s ({ s with challenges := fun x => if x = id then some row else s.challenges x }.setSession c
          { s.sessions c with stepup := some id }) := ⟨rfl, fun _ => rfl⟩
        exact hs.trans (await_unseen h)
  · exact await_unseen h

/-- What a step does to an account's count: nothing is seen of it, or it is a
read, or a save of what was read. -/
inductive Seen (S : Settings) (P : Primitives) (E : Env) (u : ℕ) (x : Step) (s : State) : Prop
  | quiet (h : Unseen u s (step S P E x s)) (no : ¬ Saves u x s)
  | read (i : ℕ) (request : x.request = some i) (before : s.failingRow u i = none)
      (after : ((step S P E x s).failingRow u i).map (·.failedLoginCount) = some (s.failures u))
      (others : ∀ j, j ≠ i → (step S P E x s).failingRow u j = s.failingRow u j)
      (failures : (step S P E x s).failures u = s.failures u) (no : ¬ Saves u x s)
  | save (i : ℕ) (row : SecurityRow) (is : x = .count i) (before : s.failingRow u i = some row)
      (after : (step S P E x s).failingRow u i = none)
      (others : ∀ j, j ≠ i → (step S P E x s).failingRow u j = s.failingRow u j)
      (saved : (step S P E x s).security u = some (registered S row s.clock))

/-- An attempt fails: the row of its account is read. -/
theorem fail_seen {x : Step} {i : ℕ} (c : ℕ) (username : String) (hx : x.request = some i) (hno : ¬ Saves u x s)
    (h : s.failingRow u i = none) (hs : Unseen u s s') (hstep : step S P E x s = fail i c username s') :
    Seen S P E u x s := by
  have hi : s'.failingRow u i = none := (hs.row i).trans h
  cases hnamed : s'.userNamed username with
  | none =>
    refine .quiet ?_ hno
    rw [hstep, fail, hnamed]
    exact hs.trans (.setFlight hi rfl)
  | some a =>
    have hfail : step S P E x s = s'.setFlight i (some (c, .failing a.1 (s'.securityFor a.1))) := by
      rw [hstep, fail, hnamed]
    by_cases ha : a.1 = u
    · refine .read i hx h ?_ (fun j hj => ?_) ?_ hno
      · rw [hfail, failingRow_setFlight, if_pos rfl, failingOf, if_pos ha, ha, ← hs.failures]
        rfl
      · rw [hfail, failingRow_setFlight, if_neg hj, hs.row]
      · rw [hfail]
        exact hs.failures
    · refine .quiet ?_ hno
      rw [hfail]
      refine hs.trans (.setFlight hi ?_)
      rw [failingOf, if_neg ha]

/-- A second factor is tried: it proves who it is, or the attempt fails. -/
theorem factor_seen {x : Step} {i : ℕ} {ok : Bool} (c v : ℕ) (username method : String) (hx : x.request = some i)
    (hno : ¬ Saves u x s) (h : s.failingRow u i = none) (hs : Unseen u s s')
    (hstep : step S P E x s =
      if ok = true then s'.setFlight i (some (c, .proven v method)) else fail i c username s') : Seen S P E u x s := by
  cases ok with
  | true =>
    refine .quiet ?_ hno
    rw [hstep, if_pos rfl]
    exact hs.trans (.setFlight ((hs.row i).trans h) rfl)
  | false =>
    rw [if_neg Bool.false_ne_true] at hstep
    exact fail_seen c username hx hno h hs hstep

theorem failingRow_of_flight {i c : ℕ} {f : Flight} (h : s.flights i = some (c, f))
    (hf : ∀ v row, f ≠ .failing v row) : s.failingRow u i = none := by
  unfold State.failingRow failingOf
  rw [h]
  cases f with
  | failing v row => exact absurd rfl (hf v row)
  | checked _ _ | verified _ | proven _ _ => rfl

theorem failingRow_of_none {i : ℕ} (h : ¬ s.flights i ≠ none) : s.failingRow u i = none := by
  unfold State.failingRow failingOf
  rw [not_not.1 h]

theorem not_saves {x : Step} (h : ∀ i, x ≠ .count i) : ¬ Saves u x s := fun ⟨i, hi, _⟩ => h i hi

theorem not_saves_of_none {i : ℕ} (h : s.failingRow u i = none) : ¬ Saves u (.count i) s := by
  rintro ⟨j, ⟨⟩, hj⟩
  rw [h] at hj
  cases hj

/-- Another account signs in. -/
theorem completeLogin_unseen {i c v : ℕ} {method device : String} (hv : u ≠ v) (h : s.failingRow u i = none) :
    Unseen u s (completeLogin i c v method device s) := by
  refine ⟨?_, fun j => ?_⟩
  · exact failures_setSecurity.trans (if_neg hv)
  · refine (failingRow_setFlight (s := s) (o := none)).trans ?_
    split
    · rename_i hj
      rw [hj, h]
      rfl
    · rfl

/-- **A step** that does not sign the account in. -/
theorem step_seen (x : Step) (hx : ¬ SignsIn u x s) : Seen S P E u x s := by
  cases x with
  | check i c username password =>
    refine .quiet ?_ (not_saves (by simp))
    simp only [Login.step]
    split
    · exact .refl u s
    · rename_i hfree
      exact .setFlight (failingRow_of_none fun h => hfree (Or.inl h)) rfl
  | authenticate i =>
    have hno : ¬ Saves u (.authenticate i) s := not_saves (by simp)
    rcases hi : s.flights i with _ | ⟨c, _ | _ | _ | _⟩
    case authenticate.some.checked username password =>
      have hnone : s.failingRow u i = none := failingRow_of_flight hi (by simp)
      cases hauth : authenticate P username password s with
      | some v =>
        refine .quiet ?_ hno
        simp only [Login.step, hi, hauth]
        exact .setFlight hnone rfl
      | none =>
        refine fail_seen c username rfl hno hnone (.refl u s) ?_
        simp only [Login.step, hi, hauth]
    all_goals
      refine .quiet ?_ hno
      simp only [Login.step, hi]
      exact .refl u s
  | begin i v =>
    refine .quiet ?_ (not_saves (by simp))
    simp only [Login.step]
    split
    · rename_i c w hi
      exact beginLogin_unseen (failingRow_of_flight hi (by simp))
    · exact .refl u s
  | sso i c claims =>
    refine .quiet ?_ (not_saves (by simp))
    simp only [Login.step]
    split
    · exact .refl u s
    · rename_i hfree
      split
      · exact .setFlight (failingRow_of_none hfree) rfl
      · exact .refl u s
  | mfa i c method code =>
    have hno : ¬ Saves u (.mfa i c method code) s := not_saves (by simp)
    by_cases hfree : s.flights i ≠ none
    · refine .quiet ?_ hno
      simp only [Login.step, if_pos hfree]
      exact .refl u s
    · have hnone : s.failingRow u i = none := failingRow_of_none hfree
      cases hpending : pendingUser c s with
      | none =>
        refine .quiet ?_ hno
        simp only [Login.step, if_neg hfree, hpending]
        exact .refl u s
      | some p =>
        obtain ⟨pending, account⟩ := p
        have hseen : Unseen u s (secondFactor P E pending (s.sessions c) method code s).2 := secondFactor_unseen
        rcases hfactor : secondFactor P E pending (s.sessions c) method code s with ⟨ok, t⟩
        rw [hfactor] at hseen
        refine factor_seen c pending.user account.username method rfl hno hnone hseen (?_ : _ = if ok = true then _ else _)
        cases ok <;> simp only [Login.step, if_neg hfree, hpending, hfactor, Bool.false_eq_true, if_true, if_false]
  | passkeyOptions c challenge =>
    refine .quiet ?_ (not_saves (by simp))
    simp only [Login.step]
    split
    · split
      · exact .setSession
      · exact .refl u s
    · exact .refl u s
  | passkeyVerify i c credential =>
    have hno : ¬ Saves u (.passkeyVerify i c credential) s := not_saves (by simp)
    by_cases hfree : s.flights i ≠ none
    · refine .quiet ?_ hno
      simp only [Login.step, if_pos hfree]
      exact .refl u s
    · have hnone : s.failingRow u i = none := failingRow_of_none hfree
      cases hpending : pendingUser c s with
      | none =>
        refine .quiet ?_ hno
        simp only [Login.step, if_neg hfree, hpending]
        exact .refl u s
      | some p =>
        obtain ⟨pending, account⟩ := p
        have hseen : Unseen u s (passkeyAuthenticate P c pending.user credential s).2 := passkeyAuthenticate_unseen
        rcases hfactor : passkeyAuthenticate P c pending.user credential s with ⟨ok, t⟩
        rw [hfactor] at hseen
        refine factor_seen c pending.user account.username "passkey" rfl hno hnone hseen (?_ : _ = if ok = true then _ else _)
        cases ok <;> simp only [Login.step, if_neg hfree, hpending, hfactor, Bool.false_eq_true, if_true, if_false]
  | complete i device =>
    refine .quiet ?_ (not_saves (by simp))
    simp only [Login.step]
    split
    · rename_i c v method hi
      have hne : u ≠ v := by
        rintro rfl
        exact hx ⟨i, device, c, method, rfl, hi⟩
      exact completeLogin_unseen hne (failingRow_of_flight hi (by simp))
    · exact .refl u s
  | count i =>
    rcases hi : s.flights i with _ | ⟨c, _ | _ | _ | ⟨v, row⟩⟩
    case count.some.failing =>
      have hrow : s.failingRow u i = if v = u then some row else none := by
        rw [State.failingRow, hi, failingOf]
      have hstep : Login.step S P E (.count i) s = (s.setSecurity v (registered S row s.clock)).setFlight i none := by
        simp only [Login.step, hi]
      by_cases hv : v = u
      · rw [if_pos hv] at hrow
        refine .save i row rfl hrow ?_ (fun j hj => ?_) ?_
        · rw [hstep, failingRow_setFlight, if_pos rfl]
          rfl
        · rw [hstep, failingRow_setFlight, if_neg hj]
          rfl
        · rw [hstep, hv]
          exact if_pos rfl
      · rw [if_neg hv] at hrow
        refine .quiet ?_ (not_saves_of_none hrow)
        have hset : Unseen u s (s.setSecurity v (registered S row s.clock)) :=
          ⟨by rw [failures_setSecurity, if_neg (Ne.symm hv)], fun _ => rfl⟩
        rw [hstep]
        exact hset.trans (.setFlight hrow rfl)
    all_goals
      refine .quiet ?_ (not_saves_of_none ?_)
      · simp only [Login.step, hi]
        exact .refl u s
      · rw [State.failingRow, hi]
        rfl

theorem isSome_of_map {α β : Type*} {f : α → β} {o : Option α} {b : β} (h : o.map f = some b) : o.isSome = true := by
  cases o with
  | none => cases h
  | some a => rfl

theorem acts_read {x : Step} {i n : ℕ} (hx : x.request = some i) (before : s.failingRow u i = none)
    (after : ((step S P E x s).failingRow u i).map (·.failedLoginCount) = some n) : acts S P E u x s = [.read i] := by
  obtain ⟨row, hrow⟩ := Option.isSome_iff_exists.1 (isSome_of_map after)
  simp only [acts, hx, before, hrow]

theorem acts_save {x : Step} {i : ℕ} {row : SecurityRow} (is : x = .count i) (before : s.failingRow u i = some row)
    (after : (step S P E x s).failingRow u i = none) : acts S P E u x s = [.save i] := by
  have hx : x.request = some i := by
    rw [is]
    rfl
  simp only [acts, hx, before, after]

@[simp] theorem registered_count (row : SecurityRow) (now : Time) :
    (registered S row now).failedLoginCount = row.failedLoginCount + 1 := by
  unfold registered
  dsimp only
  split <;> rfl

theorem failures_of_saved {row : SecurityRow} {now : Time} (h : s.security u = some (registered S row now)) :
    s.failures u = row.failedLoginCount + 1 := by
  rw [State.failures, State.securityFor, h, Option.getD_some, registered_count]

/-! ### A run as reads and saves -/

/-- **A step** is what it does to the count, and a failed attempt that ends is a save. -/
theorem step_acts (x : Step) (hx : ¬ SignsIn u x s) :
    Steps.run act (acts S P E u x s) (counterOf u k s) =
      counterOf u (k + if Saves u x s then 1 else 0) (step S P E x s) := by
  cases step_seen (S := S) (P := P) (E := E) x hx with
  | quiet h no =>
    rw [h.acts, if_neg no, h.counterOf]
    rfl
  | read i request before after others failures no =>
    rw [acts_read request before after, if_neg no]
    unfold counterOf
    simp only [Steps.run, act, failures, Nat.add_zero, Counter.mk.injEq, true_and, and_true]
    funext j
    rw [Counters.reads_update]
    split
    · rename_i hj
      rw [hj, after]
    · rename_i hj
      rw [others j hj]
  | save i row is before after others saved =>
    have hsaves : Saves u x s := ⟨i, is, by rw [before]; rfl⟩
    have hcount : (step S P E x s).failures u = row.failedLoginCount + 1 := failures_of_saved saved
    rw [acts_save is before after, if_pos hsaves]
    unfold counterOf
    simp only [Steps.run, act, before, Option.map_some, hcount, Counter.mk.injEq, true_and, and_true]
    funext j
    rw [Counters.reads_update]
    split
    · rename_i hj
      rw [hj, after]
      rfl
    · rename_i hj
      rw [others j hj]

/-- Nobody who is under way reads, and another is under way just when the attempts
are not apart. -/
theorem acts_new (x : Step) (hx : ¬ SignsIn u x s) : Steps.Always act New (acts S P E u x s) (counterOf u k s) := by
  cases step_seen (S := S) (P := P) (E := E) x hx with
  | quiet h no =>
    rw [h.acts]
    trivial
  | read i request before after others failures no =>
    rw [acts_read request before after]
    refine ⟨?_, trivial⟩
    simp only [New, counterOf, before, Option.map_none]
  | save i row is before after others saved =>
    rw [acts_save is before after]
    exact ⟨trivial, trivial⟩

theorem acts_alone (x : Step) (hx : ¬ SignsIn u x s) :
    Steps.Always act Alone (acts S P E u x s) (counterOf u k s) ↔ Apart S P E u x s := by
  cases step_seen (S := S) (P := P) (E := E) x hx with
  | quiet h no =>
    rw [h.acts]
    refine iff_of_true trivial ?_
    rintro ⟨i, -, hbefore, hafter⟩
    rw [h.row i, hbefore] at hafter
    cases hafter
  | read i request before after others failures no =>
    rw [acts_read request before after]
    have hfails : Fails S P E u x s := ⟨i, request, before, isSome_of_map after⟩
    simp only [Steps.Always, Alone, and_true, counterOf, Option.map_eq_none_iff]
    exact ⟨fun h _ => h, fun h => h hfails⟩
  | save i row is before after others saved =>
    rw [acts_save is before after]
    refine iff_of_true ⟨trivial, trivial⟩ ?_
    rintro ⟨j, hj, hnone, -⟩
    subst is
    cases hj
    rw [before] at hnone
    cases hnone

/-- No login of the account is completed in a step of the run. -/
def Unsigned (u : ℕ) (x : Time × Step) (s : State) : Prop := ¬ SignsIn u x.2 (s.upTo x.1)

theorem step_trace {x : Time × Step} (hx : Unsigned u x s) :
    Steps.run act (acts S P E u x.2 (s.upTo x.1)) (counterOf u k s) =
      counterOf u (k + if Saves u x.2 (s.upTo x.1) then 1 else 0) (tick S P E x s) :=
  step_acts (s := s.upTo x.1) x.2 hx

/-- **A run** is what it does to the count. -/
theorem run_trace : ∀ (xs : List (Time × Step)) (s : State) (k : ℕ),
    Steps.Always (tick S P E) (Unsigned u) xs s → Steps.run act (trace S P E u xs s) (counterOf u k s) =
      counterOf u (k + finished S P E u xs s) (Steps.run (tick S P E) xs s)
  | [], _, _, _ => rfl
  | x :: xs, s, k, ⟨hx, hrest⟩ => by
    rw [trace, Steps.run_append, step_trace hx, run_trace xs _ _ hrest, finished, Nat.add_assoc]
    rfl

theorem trace_new : ∀ (xs : List (Time × Step)) (s : State) (k : ℕ),
    Steps.Always (tick S P E) (Unsigned u) xs s → Steps.Always act New (trace S P E u xs s) (counterOf u k s)
  | [], _, _, _ => trivial
  | x :: xs, s, k, ⟨hx, hrest⟩ => by
    rw [trace, Steps.always_append, step_trace hx]
    exact ⟨acts_new (s := s.upTo x.1) x.2 hx, trace_new xs _ _ hrest⟩

/-- The failures of each step of the run are apart. -/
def RunsApart (S : Settings) (P : Primitives) (E : Env) (u : ℕ) (x : Time × Step) (s : State) : Prop :=
  Apart S P E u x.2 (s.upTo x.1)

theorem trace_alone : ∀ (xs : List (Time × Step)) (s : State) (k : ℕ),
    Steps.Always (tick S P E) (Unsigned u) xs s → (Steps.Always act Alone (trace S P E u xs s) (counterOf u k s) ↔
      Steps.Always (tick S P E) (RunsApart S P E u) xs s)
  | [], _, _, _ => Iff.rfl
  | x :: xs, s, k, ⟨hx, hrest⟩ => by
    rw [trace, Steps.always_append, step_trace hx]
    exact and_congr (acts_alone (s := s.upTo x.1) x.2 hx) (trace_alone xs _ _ hrest)

/-! ### The lock comes in time -/

/-- A lock that comes with some time on it is one now. -/
theorem isLocked_after {row : SecurityRow} {now : Time} {seconds : ℕ} (h : 0 < seconds)
    (hrow : row.lockedUntil = some (now + seconds * MICROSECONDS)) : row.isLocked now = true := by
  have hmicro : 0 < MICROSECONDS := by decide
  have hlater : now < now + seconds * MICROSECONDS := Nat.lt_add_of_pos_right (Nat.mul_pos h hmicro)
  rw [SecurityRow.isLocked, hrow, Option.any_some]
  exact decide_eq_true hlater

theorem registered_isLocked (hS : 0 < S.lockoutSeconds) {row : SecurityRow} {now : Time}
    (h : S.maxFailures ≤ row.failedLoginCount + 1) : (registered S row now).isLocked now = true := by
  have hseconds : 0 < min (S.lockoutSeconds * 2 ^ ((row.failedLoginCount + 1) / S.maxFailures - 1)) (24 * 3600) :=
    Nat.lt_min.2 ⟨Nat.mul_pos hS (pow_pos Nat.two_pos _), by decide⟩
  refine isLocked_after hseconds ?_
  rw [registered, if_pos h]

/-- The row that is saved is locked, where nothing was lost and the failures are enough. -/
theorem step_locks (hS : 0 < S.lockoutSeconds) {b : ℕ} {x : Step} (h : Counters.Serial b (counterOf u k s))
    (hx : ¬ SignsIn u x s) (hsaves : Saves u x s) (hmax : S.maxFailures ≤ b + k + 1) : (step S P E x s).Locked u := by
  cases step_seen (S := S) (P := P) (E := E) x hx with
  | quiet _ no | read _ _ _ _ _ _ no => exact absurd hsaves no
  | save i row is before after others saved =>
    have hread : row.failedLoginCount = b + k := (h.read i _ (by simp only [counterOf, before, Option.map_some])).trans h.value
    have hclock : (step S P E x s).clock = s.clock := by
      subst is
      unfold State.failingRow failingOf at before
      simp only [Login.step]
      split <;> rfl
    have hlocked : (registered S row s.clock).isLocked s.clock = true := registered_isLocked hS (hread ▸ hmax)
    unfold State.Locked State.lockOf
    rw [saved, hclock]
    exact hlocked

theorem locksInTime_of_apart (hS : 0 < S.lockoutSeconds) {b : ℕ} : ∀ (xs : List (Time × Step)) (s : State) (k : ℕ),
    Counters.Serial b (counterOf u k s) → Steps.Always (tick S P E) (Unsigned u) xs s →
    Steps.Always (tick S P E) (RunsApart S P E u) xs s → LocksInTime S P E u (b + k) xs s
  | [], _, _, _, _, _ => trivial
  | x :: xs, s, k, h, ⟨hx, hrest⟩, ⟨hapart, hrests⟩ => by
    refine ⟨fun hsaves hmax => step_locks (s := s.upTo x.1) hS h hx hsaves hmax, ?_⟩
    have halone : Steps.Always act Alone (acts S P E u x.2 (s.upTo x.1)) (counterOf u k s) :=
      (acts_alone (s := s.upTo x.1) x.2 hx).2 hapart
    have hnext := Steps.Always.run (I := Counters.Serial b) (fun _ _ h hx => h.kept hx) h halone
    rw [step_trace hx] at hnext
    have hlocks := locksInTime_of_apart hS xs _ _ hnext hrest hrests
    split
    · rename_i hsaves
      rwa [if_pos hsaves] at hlocks
    · rename_i hsaves
      rwa [if_neg hsaves] at hlocks

/-- **Failures are counted**, and lock the account in time, just when no attempt on
it fails while another is between its read of the row and its save. -/
theorem failures_counted (S : Settings) (P : Primitives) (E : Env) (hS : 0 < S.lockoutSeconds) {u : ℕ} {s : State}
    {xs : List (Time × Step)} (hrun : Steps.Always (tick S P E) (Unsigned u) xs s)
    (hbegin : ∀ i, s.failingRow u i = none) (hend : ∀ i, (Steps.run (tick S P E) xs s).failingRow u i = none) :
    ((Steps.run (tick S P E) xs s).failures u = s.failures u + finished S P E u xs s ∧
        LocksInTime S P E u (s.failures u) xs s) ↔
      Steps.Always (tick S P E) (RunsApart S P E u) xs s := by
  have hreads : ∀ i, (counterOf u 0 s).reads i = none := fun i => by simp only [counterOf, hbegin, Option.map_none]
  have htrace := run_trace (S := S) (P := P) (E := E) xs s 0 hrun
  rw [Nat.zero_add] at htrace
  have hiff := Counters.value_eq_iff hreads rfl (trace_new (S := S) (P := P) (E := E) xs s 0 hrun) (by
    intro i
    rw [htrace]
    simp only [counterOf, hend, Option.map_none])
  rw [htrace, trace_alone xs s 0 hrun] at hiff
  constructor
  · rintro ⟨hcount, -⟩
    exact hiff.1 hcount
  · intro hapart
    have hserial : Counters.Serial (s.failures u) (counterOf u 0 s) :=
      ⟨rfl, fun i v hi => absurd (hi.symm.trans (hreads i)) (by simp), fun i _ hi => absurd (hreads i) hi⟩
    exact ⟨hiff.2 hapart, locksInTime_of_apart hS xs s 0 hserial hrun hapart⟩

/-- Two wrong passwords, one after the other. -/
def guessed : List (Time × Step) :=
  [(1000000, .check 0 0 "ama" "x"), (1000000, .authenticate 0), (2000000, .count 0),
    (3000000, .check 1 1 "ama" "y"), (3000000, .authenticate 1), (4000000, .count 1)]

/-- Two wrong passwords, side by side. -/
def guessedTogether : List (Time × Step) :=
  [(1000000, .check 0 0 "ama" "x"), (1000000, .authenticate 0), (1000000, .check 1 1 "ama" "y"),
    (1000000, .authenticate 1), (2000000, .count 0), (2000000, .count 1)]

theorem unsigned {t : Time} {x : Step} (h : ∀ i device, x ≠ .complete i device) : Unsigned u (t, x) s :=
  fun ⟨i, device, _, _, hx, _⟩ => h i device hx

theorem guessed_end : ∀ i, (Steps.run (tick {} plainly Env.plain) guessed alone).failingRow 7 i = none
  | 0 | 1 | _ + 2 => rfl

theorem guessedTogether_end : ∀ i, (Steps.run (tick {} plainly Env.plain) guessedTogether alone).failingRow 7 i = none
  | 0 | 1 | _ + 2 => rfl

/-- The two that come one after the other are apart, as both of them are counted. -/
theorem failures_counted_guessed :
    Steps.Always (tick {} plainly Env.plain) (RunsApart {} plainly Env.plain 7) guessed alone := by
  refine (failures_counted {} plainly Env.plain (by decide) ?_ (fun _ => rfl) guessed_end).1 ⟨by decide +kernel, by decide +kernel⟩
  exact ⟨unsigned nofun, unsigned nofun, unsigned nofun, unsigned nofun, unsigned nofun, unsigned nofun, trivial⟩

/-- Of the two side by side one is lost. -/
theorem not_failures_counted : ¬ ∀ (S : Settings) (P : Primitives) (E : Env) (u : ℕ) (s : State)
    (xs : List (Time × Step)), 0 < S.lockoutSeconds → Steps.Always (tick S P E) (Unsigned u) xs s →
    (∀ i, s.failingRow u i = none) → (∀ i, (Steps.run (tick S P E) xs s).failingRow u i = none) →
    (Steps.run (tick S P E) xs s).failures u = s.failures u + finished S P E u xs s ∧
      LocksInTime S P E u (s.failures u) xs s := by
  intro h
  have hrun : Steps.Always (tick {} plainly Env.plain) (Unsigned 7) guessedTogether alone :=
    ⟨unsigned nofun, unsigned nofun, unsigned nofun, unsigned nofun, unsigned nofun, unsigned nofun, trivial⟩
  have hcount := (h {} plainly Env.plain 7 alone guessedTogether (by decide) hrun (fun _ => rfl) guessedTogether_end).1
  revert hcount
  decide +kernel

end Login
end FlexyVotes
