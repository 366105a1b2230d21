/-
# Recovery codes

The digests of an account's recovery codes are a list in its row of
`UserSecurity`. Who uses a code reads the row and saves the list without it; a
failed attempt reads the row and saves it whole, the list included. A save that
comes after another request has changed the list puts codes back that were used or
replaced, and a code that two requests have found in the row is accepted twice.
Where each row that is saved has only codes that are still stored, no code is
accepted twice, or after it was replaced (`recoveryCodes_once`).

The steps below are those of one account.

Key definitions: `Flight`, `State`, `Step`, `Current`, `Sound`.
Key theorems: `useRecoveryCode_eq`, `Sound.step`, `recoveryCodes_once`.
-/
import FlexyVotes.Core.Login
import FlexyVotes.Lib.OneTime

namespace FlexyVotes
namespace Recovery

open Login (Settings SecurityRow registered)
open OneTime (Event Once Good accepts issues)

/-- A request between its read of the row and its save. -/
inductive Flight
  /-- `use_recovery_code`, which has found the digest in the row. -/
  | spending (row : SecurityRow) (digest : String)
  /-- `register_failure`. -/
  | failing (row : SecurityRow)

def Flight.row : Flight → SecurityRow
  | .spending row _ | .failing row => row

/-- The row of the account, and the requests that change it. -/
structure State where
  row : SecurityRow := {}
  flights : ℕ → Option Flight := fun _ => none
  /-- The digests that were issued and accepted, newest first. -/
  history : List (Event String) := []

inductive Step
  /-- `use_recovery_code`, up to the save. -/
  | use (i : ℕ) (code : String)
  /-- `register_failure`, up to the save. -/
  | fail (i : ℕ)
  /-- The request saves the row it has read. -/
  | save (i : ℕ) (now : Time)
  /-- `generate_recovery_codes`, with the codes it draws. -/
  | generate (codes : List String)
  /-- `on_login`. -/
  | complete

variable (S : Settings) (E : Env)

def State.setFlight (s : State) (i : ℕ) (flight : Option Flight) : State :=
  { s with flights := fun x => if x = i then flight else s.flights x }

/-- The saves of `recovery_codes` leave the other columns as they are; that of
`register_failure` sets all of them. -/
def saveFlight (now : Time) : Flight → State → State
  | .spending row digest, s =>
    { s with
      row := { s.row with recoveryCodes := row.recoveryCodes.filter (· ≠ digest) }
      history := .accepted digest :: s.history }
  | .failing row, s => { s with row := registered S row now }

def step : Step → State → State
  | .use i code, s =>
    let digest := E.keyedHash "recovery" (E.upper (E.strip code))
    if s.flights i ≠ none then s
    else if digest ∈ s.row.recoveryCodes then s.setFlight i (some (.spending s.row digest))
    else s
  | .fail i, s => if s.flights i ≠ none then s else s.setFlight i (some (.failing s.row))
  | .save i now, s =>
    match s.flights i with
    | none => s
    | some f => (saveFlight S now f s).setFlight i none
  | .generate codes, s =>
    let digests := codes.map (E.keyedHash "recovery")
    { s with row := { s.row with recoveryCodes := digests }, history := .issued digests :: s.history }
  | .complete, s => { s with row := { s.row with failedLoginCount := 0, lockedUntil := none } }

/-- What a request saves, it has read from the row as it is: each code is still
stored. -/
def Current : Step → State → Prop
  | .save i _, s => ∀ f ∈ s.flights i, f.row.recoveryCodes ⊆ s.row.recoveryCodes
  | _, _ => True

instance : ∀ (x : Step) (s : State), Decidable (Current x s)
  | .save i _, s =>
    match h : s.flights i with
    | none => .isTrue fun _ hf => absurd (h.symm.trans hf) nofun
    | some f => decidable_of_iff (f.row.recoveryCodes ⊆ s.row.recoveryCodes) (by simp [Current, h])
  | .use _ _, _ | .fail _, _ | .generate _, _ | .complete, _ => .isTrue trivial

/-- Nobody is under way, and the stored codes are those issued. -/
structure State.Begins (s : State) : Prop where
  flights : ∀ i, s.flights i = none
  history : s.history = [.issued s.row.recoveryCodes]

/-- The codes that are stored could still be accepted. -/
structure Sound (s : State) : Prop where
  once : Once s.history
  good : Good s.row.recoveryCodes s.history
  found : ∀ i row digest, s.flights i = some (.spending row digest) → digest ∈ row.recoveryCodes

variable {S E} {s : State}

theorem securityFor_setSecurity {t : Login.State} {u : ℕ} {row : SecurityRow} :
    (t.setSecurity u row).securityFor u = row := by
  unfold Login.State.securityFor Login.State.setSecurity
  dsimp only
  rw [if_pos rfl, Option.getD_some]

/-- A use that nobody else comes between is a use in one step. -/
theorem useRecoveryCode_eq {t : Login.State} {u i : ℕ} {code : String} {now : Time} (hi : s.flights i = none)
    (ht : t.securityFor u = s.row) :
    let s' := Steps.run (step S E) [.use i code, .save i now] s
    let digest := E.keyedHash "recovery" (E.upper (E.strip code))
    s'.row = (Login.useRecoveryCode E u code t).2.securityFor u ∧
      s'.history = if (Login.useRecoveryCode E u code t).1 then .accepted digest :: s.history else s.history := by
  have hfree : ¬ s.flights i ≠ none := not_not.2 hi
  unfold Login.useRecoveryCode
  simp only [Steps.run, step, hfree, if_false, ht]
  by_cases hmem : E.keyedHash "recovery" (E.upper (E.strip code)) ∈ s.row.recoveryCodes
  · simp only [if_pos hmem, State.setFlight, if_true, saveFlight, securityFor_setSecurity]
    exact ⟨trivial, trivial⟩
  · simp only [if_neg hmem, hi, ht]
    exact ⟨trivial, rfl⟩

theorem Sound.setFlight {i : ℕ} {o : Option Flight} (h : Sound s)
    (ho : ∀ row digest, o = some (.spending row digest) → digest ∈ row.recoveryCodes) : Sound (s.setFlight i o) := by
  refine ⟨h.once, h.good, fun j row digest hj => ?_⟩
  unfold State.setFlight at hj
  dsimp only at hj
  split at hj
  · exact ho row digest hj
  · exact h.found j row digest hj

theorem registered_codes (row : SecurityRow) (now : Time) :
    (registered S row now).recoveryCodes = row.recoveryCodes := by
  unfold registered
  dsimp only
  split <;> rfl

theorem Sound.save {f : Flight} {now : Time} (h : Sound s)
    (hf : ∀ row digest, f = .spending row digest → digest ∈ row.recoveryCodes)
    (hrow : f.row.recoveryCodes ⊆ s.row.recoveryCodes) : Sound (saveFlight S now f s) := by
  cases f with
  | failing row =>
    refine ⟨h.once, ?_, h.found⟩
    have hgood : Good row.recoveryCodes s.history := h.good.mono hrow
    exact registered_codes (S := S) row now ▸ hgood
  | spending row digest =>
    have hread : Good row.recoveryCodes s.history := h.good.mono hrow
    refine ⟨h.once.accepted hread (hf row digest rfl), ?_, h.found⟩
    refine hread.accepted List.filter_sublist.subset fun hmem => ?_
    exact absurd rfl (of_decide_eq_true (List.mem_filter.1 hmem).2)

/-- **A step** whose save has only codes that are still stored. -/
theorem Sound.step (h : Sound s) (x : Step) (hx : Current x s) : Sound (step S E x s) := by
  cases x with
  | use i code =>
    unfold Recovery.step
    dsimp only
    split
    · exact h
    · split
      · rename_i hmem
        refine h.setFlight fun row digest he => ?_
        cases he
        exact hmem
      · exact h
  | fail i =>
    unfold Recovery.step
    dsimp only
    split
    · exact h
    · exact h.setFlight nofun
  | save i now =>
    unfold Recovery.step
    dsimp only
    split
    · exact h
    · rename_i f hi
      have hsaved : Sound (saveFlight S now f s) := by
        refine h.save (fun row digest he => h.found i row digest (he ▸ hi)) ?_
        exact hx f hi
      exact hsaved.setFlight nofun
  | generate codes => exact ⟨h.once, .issued, h.found⟩
  | complete => exact ⟨h.once, h.good, h.found⟩

theorem State.Begins.sound (h : s.Begins) : Sound s := by
  refine ⟨?_, ?_, fun i row digest hi => ?_⟩
  · rw [h.history]
    trivial
  · rw [h.history]
    exact .issued
  · rw [h.flights i] at hi
    cases hi

/-- **Recovery codes are single-use**, and are not accepted after they were
replaced, where each row that is saved has only codes that are still stored. -/
theorem recoveryCodes_once (S : Settings) (E : Env) {s : State} {xs : List Step} (hs : s.Begins)
    (h : Steps.Always (step S E) Current xs s) :
    Once (Steps.run (step S E) xs s).history ∧
      ∀ digest, accepts digest (Steps.run (step S E) xs s).history ≤ issues digest (Steps.run (step S E) xs s).history := by
  have hsound : Sound (Steps.run (step S E) xs s) := Steps.Always.run (fun x _ h hx => h.step x hx) hs.sound h
  exact ⟨hsound.once, hsound.once.accepts_le⟩

/-- Two codes, issued and not used. -/
def issuedTwo : State where
  row := { recoveryCodes := ["a", "b"].map (Env.plain.keyedHash "recovery") }
  history := [.issued (["a", "b"].map (Env.plain.keyedHash "recovery"))]

theorem issuedTwo_begins : issuedTwo.Begins := ⟨fun _ => rfl, rfl⟩

/-- A code is used, an attempt fails, the codes are replaced, and a new one is used. -/
theorem recoveryCodes_once_replaced :
    Once (Steps.run (step {} Env.plain)
      [.use 0 "a", .save 0 0, .fail 1, .save 1 0, .generate ["c"], .use 2 "c", .save 2 0, .complete] issuedTwo).history := by
  refine (recoveryCodes_once {} Env.plain issuedTwo_begins ?_).1
  decide +kernel

/-- Two requests find the code in the row, and both are accepted. -/
theorem not_recoveryCodes_once : ¬ ∀ (S : Settings) (E : Env) (s : State) (xs : List Step), s.Begins →
    Once (Steps.run (step S E) xs s).history ∧
      ∀ digest, accepts digest (Steps.run (step S E) xs s).history ≤ issues digest (Steps.run (step S E) xs s).history := by
  intro h
  have honce := (h {} Env.plain issuedTwo [.use 0 "a", .use 1 "a", .save 0 0, .save 1 0] issuedTwo_begins).1
  revert honce
  decide +kernel

end Recovery
end FlexyVotes
