/-
# One-time codes

Any number of calls of `verify` beside each other. A call holds the challenge
from the look at it to the commit, so of the calls of one challenge one is
between the two at a time, and each that compares its code counts one attempt
more than the last (`step_cases`). Whatever the calls do, a challenge is compared
with as many codes as it has attempts left, at most one of them returns it, and
none does for another purpose or subject, once it was used up or has expired
(`otp_calls`).

A call that is stopped before its commit tells nobody what its comparison came
to; a code counts as compared when the comparison is committed.

Key definitions: `verifyNoting`, `call`, `At`, `Sparing`.
Key theorems: `step_cases`, `Sparing.step`, `otp_calls`.
-/
import FlexyVotes.Core.Otp
import FlexyVotes.Lib.Locks

namespace FlexyVotes
namespace Otp

open Transactions

/-- `verify`, which says when it has compared the code. -/
def verifyNoting (E : Env) (q : VerifyRequest) (now : ℕ → Time) (compared : Program → Program)
    (k : Except Failure OtpRow → Program) : Program :=
  .lock (.otp q.challenge) q.isFor fun
    | none => .rollback (k (.error (.otp "This code is no longer valid. Request a new one.")))
    | some c =>
      if c.consumedAt.isSome then
        .rollback (k (.error (.otp "This code is no longer valid. Request a new one.")))
      else if c.expiresAt ≤ now 0 then
        .rollback (k (.error (.otp "This code has expired. Request a new one.")))
      else if c.maxAttempts ≤ c.attempts then
        .rollback (k (.error (.otp "Too many incorrect attempts. Request a new code.")))
      else
        let ok := codeHash E q.challenge (removeSpaces (E.strip q.code)) = c.codeHash
        let c' := guessed c ok (now 1)
        .put (.otp q.challenge) (some c') <|
        .commit <|
        compared <|
        if ok then k (.ok c') else k (.error (incorrect c'))

/-- It is `verify`, but for what it says. -/
theorem verifyNoting_id (E : Env) (q : VerifyRequest) (now : ℕ → Time) (k : Except Failure OtpRow → Program) :
    verifyNoting E q now id k = verify E q now k := rfl

/-- The caller notes the challenge it is given. -/
def told (t : ℕ) (challenge : String) : Except Failure OtpRow → Program
  | .ok _ => .note (.verified t challenge) .halt
  | .error _ => .halt

variable (E : Env) (q : ℕ → VerifyRequest) (now : ℕ → ℕ → Time)

/-- Thread `t` makes its call. -/
def call (t : ℕ) : Program :=
  verifyNoting E (q t) (now t) (.note (.compared t (q t).challenge)) (told t (q t).challenge)

/-- The code of the call is the challenge's. -/
def Right (t : ℕ) (c : OtpRow) : Prop := codeHash E (q t).challenge (removeSpaces (E.strip (q t).code)) = c.codeHash

instance (t : ℕ) (c : OtpRow) : Decidable (Right E q t c) := by
  unfold Right
  infer_instance

/-- The call compares its code with the challenge. -/
structure Open (t : ℕ) (c : OtpRow) : Prop where
  isFor : (q t).isFor c = true
  unused : c.consumedAt = none
  unexpired : now t 0 < c.expiresAt
  left : c.attempts < c.maxAttempts

/-- The challenge once the call has compared its code. -/
def after (t : ℕ) (c : OtpRow) : OtpRow := guessed c (Right E q t c) (now t 1)

/-- What the call has noted at its end, once it has compared its code. -/
def notes (t : ℕ) (c : OtpRow) : List Note :=
  if Right E q t c then [.verified t (q t).challenge, .compared t (q t).challenge] else [.compared t (q t).challenge]

/-- The call after it has counted its attempt. -/
def answer (t : ℕ) (c : OtpRow) : Program :=
  .note (.compared t (q t).challenge) <|
    if Right E q t c then told t (q t).challenge (.ok (after E q now t c))
    else told t (q t).challenge (.error (incorrect (after E q now t c)))

/-- The call holds the challenge, which it compares its code with. -/
structure Holding (t : ℕ) (s : State Row Note) (c : OtpRow) : Prop where
  owner : s.owner (.otp (q t).challenge) = some t
  row : s.db.row (.otp (q t).challenge) = some c
  fits : Open q now t c

/-- Where a call is between two statements. -/
inductive At (t : ℕ) (s : State Row Note) : Prop
  | asking (h : s.thr t = ⟨call E q now t, [], []⟩)
  | refused (h : s.thr t = ⟨.rollback .halt, [], []⟩)
  | guessing (c : OtpRow) (h : s.thr t = ⟨.put (.otp (q t).challenge) (some (after E q now t c))
      (.commit (answer E q now t c)), [], []⟩) (hc : Holding q now t s c)
  | counting (c : OtpRow) (h : s.thr t = ⟨.commit (answer E q now t c),
      [⟨.otp (q t).challenge, some (after E q now t c)⟩], []⟩) (hc : Holding q now t s c)
  | ended (log : List Note) (h : s.thr t = ⟨.halt, [], log⟩)

variable {E q now} {s s' : State Row Note} {t : ℕ}

theorem settle_answer (t : ℕ) (c : OtpRow) :
    (answer E q now t c).settle [] = (.halt, notes E q t c) := by
  unfold answer notes told
  split <;> rfl

/-- A call that finds the challenge compares its code, or is refused. -/
theorem call_eq (E : Env) (q : ℕ → VerifyRequest) (now : ℕ → ℕ → Time) (t : ℕ) :
    ∃ p, call E q now t = .lock (.otp (q t).challenge) (q t).isFor p ∧ p none = .rollback .halt ∧
    ∀ c, (q t).isFor c = true → p (some c) = .rollback .halt ∨ Open q now t c ∧
      p (some c) = .put (.otp (q t).challenge) (some (after E q now t c)) (.commit (answer E q now t c)) := by
  refine ⟨_, rfl, rfl, fun c hc => ?_⟩
  dsimp only [told]
  by_cases hused : c.consumedAt.isSome
  · exact Or.inl (if_pos hused)
  · rw [if_neg hused]
    by_cases hexp : c.expiresAt ≤ now t 0
    · exact Or.inl (if_pos hexp)
    · rw [if_neg hexp]
      by_cases hmax : c.maxAttempts ≤ c.attempts
      · exact Or.inl (if_pos hmax)
      · rw [if_neg hmax]
        exact Or.inr ⟨⟨hc, by simpa using hused, not_le.1 hexp, not_le.1 hmax⟩, rfl⟩

/-! ### What a step does -/

/-- What a step of a call does, beside moving it on. -/
inductive Moved (E : Env) (q : ℕ → VerifyRequest) (now : ℕ → ℕ → Time) (s : State Row Note) (t : ℕ) (s' : State Row Note) :
    Prop
  | quiet (db : s'.db = s.db) (log : ∀ u, (s'.thr u).log = (s.thr u).log)
  | compares (c : OtpRow) (row : s.db.row (.otp (q t).challenge) = some c) (fits : Open q now t c)
      (db : s'.db = s.db.set (.otp (q t).challenge) (some (after E q now t c))) (before : (s.thr t).log = [])
      (here : (s'.thr t).log = notes E q t c) (log : ∀ u, u ≠ t → (s'.thr u).log = (s.thr u).log)

/-- The other calls stay where they are. -/
theorem At.stays {u : ℕ} (h : At E q now u s) (hthr : s'.thr u = s.thr u)
    (hleft : ∀ k, s.owner k = some u → s'.owner k = some u ∧ s'.db.row k = s.db.row k) : At E q now u s' := by
  have hheld : ∀ {c}, Holding q now u s c → Holding q now u s' c := fun {c} hc =>
    ⟨(hleft _ hc.owner).1, (hleft _ hc.owner).2.trans hc.row, hc.fits⟩
  cases h with
  | asking h => exact .asking (hthr.trans h)
  | refused h => exact .refused (hthr.trans h)
  | guessing c h hc => exact .guessing c (hthr.trans h) (hheld hc)
  | counting c h hc => exact .counting c (hthr.trans h) (hheld hc)
  | ended log h => exact .ended log (hthr.trans h)

/-- One call goes on, and the others keep what they hold. -/
theorem at_goto (h : ∀ u, At E q now u s) {s₁ : State Row Note} {p : Program} {w : Writes Row} {log : List Note}
    (hthr : s₁.thr = s.thr)
    (hleft : ∀ u, u ≠ t → ∀ k, s.owner k = some u → s₁.owner k = some u ∧ s₁.db.row k = s.db.row k)
    (ht : At E q now t (s₁.goto t p w log)) (u : ℕ) : At E q now u (s₁.goto t p w log) := by
  by_cases hu : u = t
  · exact hu ▸ ht
  · refine (h u).stays ?_ (hleft u hu)
    rw [State.goto_thr_ne _ _ _ _ _ _ hu, hthr]

theorem log_goto {s₁ : State Row Note} {p : Program} {w : Writes Row} {log : List Note} (hthr : s₁.thr = s.thr)
    (hp : p.AtStatement) (hlog : (s.thr t).log = log) (u : ℕ) : ((s₁.goto t p w log).thr u).log = (s.thr u).log := by
  by_cases hu : u = t
  · subst hu
    rw [State.goto_thr_self, Thread.at_log, hp.settle, hlog]
  · rw [State.goto_thr_ne _ _ _ _ _ _ hu, hthr]

theorem kept_release (u : ℕ) (hu : u ≠ t) (k : Key) (hk : s.owner k = some u) :
    (s.release t).owner k = some u ∧ (s.release t).db.row k = s.db.row k :=
  ⟨(Locks.release_other s hu k).2 hk, rfl⟩

theorem kept_take {k₀ : Key} (hfree : s.free t k₀ = true) (u : ℕ) (hu : u ≠ t) (k : Key) (hk : s.owner k = some u) :
    (s.take t k₀).owner k = some u ∧ (s.take t k₀).db.row k = s.db.row k :=
  ⟨(Locks.take_other hu hfree k).2 hk, rfl⟩

/-- **A step** of a call: it compares its code and counts the attempt, or nothing
is seen of it. -/
theorem step_cases (h : ∀ u, At E q now u s) (hs : Step s t s') :
    (∀ u, At E q now u s') ∧ Moved E q now s t s' := by
  rcases hs with hf | rfl
  swap
  · exact ⟨at_goto h rfl kept_release (.ended (s.thr t).log (by simp [Thread.at, Prog.settle])),
      .quiet rfl (log_goto rfl trivial rfl)⟩
  unfold fire at hf
  dsimp only at hf
  cases h t with
  | asking ht =>
    have hlog : (s.thr t).log = [] := by rw [ht]
    have hrefused : ∀ {s₁ : State Row Note}, s₁.thr = s.thr → s₁.db = s.db → (∀ u, u ≠ t → ∀ k, s.owner k = some u →
        s₁.owner k = some u ∧ s₁.db.row k = s.db.row k) →
        (∀ u, At E q now u (s₁.goto t (.rollback .halt) [] [])) ∧ Moved E q now s t (s₁.goto t (.rollback .halt) [] []) :=
      fun hthr hdb hleft => ⟨at_goto h hthr hleft (.refused (by simp [Thread.at, Prog.settle])),
        .quiet hdb (log_goto hthr trivial hlog)⟩
    obtain ⟨p, hcall, hnone, hsome⟩ := call_eq E q now t
    rw [ht, hcall] at hf
    dsimp only at hf
    split at hf
    · cases hf
      rw [hnone]
      exact hrefused rfl rfl fun u _ k hk => ⟨hk, rfl⟩
    · rename_i c hrow
      split at hf
      · rename_i hfor
        split at hf
        · rename_i hfree
          cases hf
          rcases hsome c hfor with hout | ⟨hopen, hguess⟩
          · rw [hout]
            exact hrefused rfl rfl (kept_take hfree)
          · rw [hguess]
            refine ⟨at_goto h rfl (kept_take hfree)
              (.guessing c (by simp [Thread.at, Prog.settle]) ⟨?_, hrow, hopen⟩), .quiet rfl (log_goto rfl trivial hlog)⟩
            rw [State.goto_owner, State.take_owner, if_pos rfl]
        · cases hf
      · cases hf
        rw [hnone]
        exact hrefused rfl rfl fun u _ k hk => ⟨hk, rfl⟩
  | refused ht =>
    rw [ht] at hf
    cases hf
    have hlog : (s.thr t).log = [] := by rw [ht]
    exact ⟨at_goto h rfl kept_release (.ended [] (by simp [Thread.at, Prog.settle])),
      .quiet rfl (log_goto rfl trivial hlog)⟩
  | guessing c ht hc =>
    have hlog : (s.thr t).log = [] := by rw [ht]
    rw [ht] at hf
    dsimp only at hf
    split at hf
    · rename_i hfree
      cases hf
      refine ⟨at_goto h rfl (kept_take hfree) (.counting c (by simp [Thread.at, Prog.settle]) ⟨?_, hc.row, hc.fits⟩),
        .quiet rfl (log_goto rfl trivial hlog)⟩
      rw [State.goto_owner, State.take_owner, if_pos rfl]
    · cases hf
  | counting c ht hc =>
    rw [ht] at hf
    cases hf
    have hdb : s.db.apply [⟨.otp (q t).challenge, some (after E q now t c)⟩] =
        s.db.set (.otp (q t).challenge) (some (after E q now t c)) := rfl
    refine ⟨at_goto h rfl (fun u hu k hk => ⟨(Locks.release_other _ hu k).2 hk, ?_⟩) (.ended (notes E q t c) ?_),
      .compares c hc.row hc.fits hdb (by rw [ht]) ?_ fun u hu => ?_⟩
    · -- the row that is written is held by no other call
      have hne : k ≠ .otp (q t).challenge := by
        rintro rfl
        rw [hc.owner] at hk
        exact hu (Option.some.inj hk).symm
      exact Db.set_row_ne _ _ hne
    · rw [State.goto_thr_self, Thread.at, settle_answer]
    · rw [State.goto_thr_self, Thread.at, settle_answer]
    · rw [State.goto_thr_ne _ _ _ _ _ _ hu]
      rfl
  | ended log ht =>
    rw [ht] at hf
    cases hf

/-! ### Every run -/

/-- The call compared its code with the challenge. -/
def Compared (s : State Row Note) (t : ℕ) (challenge : String) : Prop := .compared t challenge ∈ (s.thr t).log

/-- The call returned the challenge. -/
def Verified (s : State Row Note) (t : ℕ) (challenge : String) : Prop := .verified t challenge ∈ (s.thr t).log

/-- What became of a challenge that was `c`: `T` are the calls that compared
their codes with it, and `used` is when it was used up. -/
structure Sparing (E : Env) (q : ℕ → VerifyRequest) (now : ℕ → ℕ → Time) (challenge : String) (c : OtpRow)
    (s : State Row Note) (T : Finset ℕ) (used : Option Time) : Prop where
  compared : ∀ t, t ∈ T ↔ Compared s t challenge
  /-- Every comparison burns an attempt. -/
  row : s.db.row (.otp challenge) = some { c with attempts := c.attempts + T.card, consumedAt := used }
  atMost : T.card ≤ c.maxAttempts - c.attempts
  fits : ∀ t ∈ T, c.consumedAt = none ∧ now t 0 < c.expiresAt ∧ (q t).isFor c = true
  one : ∀ t u, Verified s t challenge → Verified s u challenge → t = u
  verified : ∀ t, Verified s t challenge → t ∈ T ∧ Right E q t c ∧ used = some (now t 1)
  unused : (∀ t, ¬ Verified s t challenge) → used = c.consumedAt

theorem compared_notes {u : ℕ} {challenge : String} {c : OtpRow} :
    Note.compared u challenge ∈ notes E q t c ↔ u = t ∧ challenge = (q t).challenge := by
  unfold notes
  split <;> simp

theorem verified_notes {u : ℕ} {challenge : String} {c : OtpRow} :
    Note.verified u challenge ∈ notes E q t c ↔ u = t ∧ challenge = (q t).challenge ∧ Right E q t c := by
  unfold notes
  split
  · rename_i hright
    simp [hright]
  · rename_i hwrong
    simp [hwrong]

/-- What the calls have noted after a comparison. -/
theorem noted_after (challenge : String) {c : OtpRow} (hbefore : (s.thr t).log = [])
    (hhere : (s'.thr t).log = notes E q t c) (hlog : ∀ u, u ≠ t → (s'.thr u).log = (s.thr u).log) (u : ℕ) :
    (Compared s' u challenge ↔ u = t ∧ challenge = (q t).challenge ∨ Compared s u challenge) ∧
      (Verified s' u challenge ↔ u = t ∧ challenge = (q t).challenge ∧ Right E q t c ∨ Verified s u challenge) := by
  unfold Compared Verified
  by_cases hu : u = t
  · subst hu
    rw [hhere, hbefore, compared_notes, verified_notes]
    simp
  · rw [hlog u hu]
    simp [hu]

theorem Sparing.congr {challenge : String} {c : OtpRow} {T : Finset ℕ} {used : Option Time}
    (h : Sparing E q now challenge c s T used) (hrow : s'.db.row (.otp challenge) = s.db.row (.otp challenge))
    (hnoted : ∀ u, (Compared s' u challenge ↔ Compared s u challenge) ∧
      (Verified s' u challenge ↔ Verified s u challenge)) : Sparing E q now challenge c s' T used where
  compared t := (h.compared t).trans (hnoted t).1.symm
  row := hrow.trans h.row
  atMost := h.atMost
  fits := h.fits
  one t u ht hu := h.one t u ((hnoted t).2.1 ht) ((hnoted u).2.1 hu)
  verified t ht := h.verified t ((hnoted t).2.1 ht)
  unused hno := h.unused fun t ht => hno t ((hnoted t).2.2 ht)

/-- **A comparison** counts one attempt more, and uses the challenge up if the
code is right. -/
theorem Sparing.compares {c c₀ : OtpRow} {T : Finset ℕ} {used : Option Time}
    (h : Sparing E q now (q t).challenge c s T used) (hrow : s.db.row (.otp (q t).challenge) = some c₀)
    (hopen : Open q now t c₀) (hdb : s'.db = s.db.set (.otp (q t).challenge) (some (after E q now t c₀)))
    (hbefore : (s.thr t).log = [])
    (hnoted : ∀ u, (Compared s' u (q t).challenge ↔ u = t ∨ Compared s u (q t).challenge) ∧
      (Verified s' u (q t).challenge ↔ u = t ∧ Right E q t c₀ ∨ Verified s u (q t).challenge)) :
    Sparing E q now (q t).challenge c s' (insert t T) (if Right E q t c then some (now t 1) else c.consumedAt) := by
  have hc₀ : c₀ = { c with attempts := c.attempts + T.card, consumedAt := used } :=
    Option.some.inj (hrow.symm.trans h.row)
  subst hc₀
  have hnew : t ∉ T := fun ht => by
    have hin := (h.compared t).1 ht
    unfold Compared at hin
    rw [hbefore] at hin
    cases hin
  have hnone : ∀ u, ¬ Verified s u (q t).challenge := fun u hu => by
    have hused := (h.verified u hu).2.2
    have hopen := hopen.unused
    dsimp only at hopen
    rw [hopen] at hused
    cases hused
  have hused : used = c.consumedAt := h.unused hnone
  have hleft : c.attempts + T.card < c.maxAttempts := hopen.left
  have hcard : (insert t T).card = T.card + 1 := Finset.card_insert_of_notMem hnew
  refine ⟨fun u => ?_, ?_, by omega, fun u hu => ?_, fun u v hu hv => ?_, fun u hu => ?_, fun hno => ?_⟩
  · rw [Finset.mem_insert, (hnoted u).1, h.compared]
  · rw [hdb, Db.set_row_self, hcard, hused]
    have hsame : Right E q t { c with attempts := c.attempts + T.card, consumedAt := c.consumedAt } ↔ Right E q t c :=
      Iff.rfl
    unfold after guessed
    simp [hsame, Nat.add_assoc]
  · rcases Finset.mem_insert.1 hu with rfl | hu
    · exact ⟨hused.symm.trans hopen.unused, hopen.unexpired, hopen.isFor⟩
    · exact h.fits u hu
  · have hu := ((hnoted u).2.1 hu).resolve_right (hnone u)
    have hv := ((hnoted v).2.1 hv).resolve_right (hnone v)
    exact hu.1.trans hv.1.symm
  · obtain ⟨rfl, hright⟩ := ((hnoted u).2.1 hu).resolve_right (hnone u)
    have hright : Right E q u c := hright
    exact ⟨Finset.mem_insert_self _ _, hright, if_pos hright⟩
  · refine if_neg fun hright => hno t ((hnoted t).2.2 (Or.inl ⟨rfl, ?_⟩))
    exact hright

/-- **A step**: a comparison with the challenge counts one attempt more. -/
theorem Sparing.step {challenge : String} {c : OtpRow} {T : Finset ℕ} {used : Option Time}
    (h : Sparing E q now challenge c s T used) (hm : Moved E q now s t s') :
    ∃ T' used', Sparing E q now challenge c s' T' used' := by
  cases hm with
  | quiet hdb hlog =>
    refine ⟨T, used, h.congr (by rw [hdb]) fun u => ?_⟩
    unfold Compared Verified
    rw [hlog u]
    exact ⟨Iff.rfl, Iff.rfl⟩
  | compares c₀ hrow hopen hdb hbefore hhere hlog =>
    have hnoted := noted_after (E := E) challenge (c := c₀) hbefore hhere hlog
    by_cases hch : challenge = (q t).challenge
    · subst hch
      exact ⟨_, _, h.compares hrow hopen hdb hbefore (by simpa using hnoted)⟩
    · refine ⟨T, used, h.congr ?_ fun u => ?_⟩
      · rw [hdb, Db.set_row_ne _ _ (by simpa using hch)]
      · rw [(hnoted u).1, (hnoted u).2]
        simp [hch]

/-- A challenge that is not there, or used up, is compared with no code. -/
theorem Moved.closed (challenge : String) (hm : Moved E q now s t s')
    (hclosed : ∀ c, s.db.row (.otp challenge) = some c → c.consumedAt.isSome = true) :
    s'.db.row (.otp challenge) = s.db.row (.otp challenge) ∧
      ∀ u, (Compared s' u challenge ↔ Compared s u challenge) ∧ (Verified s' u challenge ↔ Verified s u challenge) := by
  cases hm with
  | quiet hdb hlog =>
    refine ⟨by rw [hdb], fun u => ?_⟩
    unfold Compared Verified
    rw [hlog u]
    exact ⟨Iff.rfl, Iff.rfl⟩
  | compares c₀ hrow hopen hdb hbefore hhere hlog =>
    have hch : challenge ≠ (q t).challenge := by
      rintro rfl
      have hused := hclosed c₀ hrow
      rw [hopen.unused] at hused
      cases hused
    have hnoted := noted_after (E := E) challenge (c := c₀) hbefore hhere hlog
    refine ⟨?_, fun u => ?_⟩
    · rw [hdb, Db.set_row_ne _ _ (by simpa using hch)]
    · rw [(hnoted u).1, (hnoted u).2]
      simp [hch]

/-- **What every move keeps**, a run of calls keeps. -/
theorem run_calls {I : State Row Note → Prop} (hI : ∀ s t s', Moved E q now s t s' → I s → I s')
    (h : ∀ u, At E q now u s) (hs : I s) (hr : Run Any s s') : (∀ u, At E q now u s') ∧ I s' := by
  induction hr with
  | refl => exact ⟨h, hs⟩
  | step _ hstep _ ih =>
    obtain ⟨hat, hmoved⟩ := step_cases ih.1 hstep
    exact ⟨hat, hI _ _ _ hmoved ih.2⟩

theorem run_closed {challenge : String} (h : ∀ u, At E q now u s)
    (hclosed : ∀ c, s.db.row (.otp challenge) = some c → c.consumedAt.isSome = true) (hr : Run Any s s') (u : ℕ) :
    (Compared s' u challenge ↔ Compared s u challenge) ∧ (Verified s' u challenge ↔ Verified s u challenge) := by
  have hkeep := run_calls (I := fun s₁ => s₁.db.row (.otp challenge) = s.db.row (.otp challenge) ∧
      ∀ u, (Compared s₁ u challenge ↔ Compared s u challenge) ∧ (Verified s₁ u challenge ↔ Verified s u challenge))
    (fun s₁ t s₂ hm ⟨hrow, hnoted⟩ => ?_) h ⟨rfl, fun u => ⟨Iff.rfl, Iff.rfl⟩⟩ hr
  · exact hkeep.2.2 u
  · obtain ⟨hrow', hnoted'⟩ := hm.closed challenge fun c hc => hclosed c (hrow ▸ hc)
    exact ⟨hrow'.trans hrow, fun u => ⟨(hnoted' u).1.trans (hnoted u).1, (hnoted' u).2.trans (hnoted u).2⟩⟩

theorem init_thr (db : Database) (u : ℕ) : (State.init db (call E q now)).thr u = ⟨call E q now u, [], []⟩ := by
  obtain ⟨p, hcall, -⟩ := call_eq E q now u
  change Thread.at (call E q now u) [] [] = _
  rw [hcall]
  rfl

theorem not_noted_init (db : Database) (u : ℕ) (challenge : String) :
    ¬ Compared (.init db (call E q now)) u challenge ∧ ¬ Verified (.init db (call E q now)) u challenge := by
  unfold Compared Verified
  rw [init_thr]
  exact ⟨List.not_mem_nil, List.not_mem_nil⟩

theorem Sparing.init {db : Database} {challenge : String} {c : OtpRow} (hc : db.row (.otp challenge) = some c) :
    Sparing E q now challenge c (.init db (call E q now)) ∅ c.consumedAt where
  compared t := ⟨fun ht => absurd ht (Finset.notMem_empty t), fun ht => absurd ht (not_noted_init db t challenge).1⟩
  row := hc
  atMost := Nat.zero_le _
  fits t ht := absurd ht (Finset.notMem_empty t)
  one t _ ht := absurd ht (not_noted_init db t challenge).2
  verified t ht := absurd ht (not_noted_init db t challenge).2
  unused _ := rfl

/-- **One-time codes**: whatever calls of `verify` are made beside each other, a
challenge is compared with no more codes than it had attempts left, each burns an
attempt, at most one call returns it, and only one with the right code, for its
purpose and subject, and before it expires; and once it is used up no call
compares its code with it. -/
theorem otp_calls (E : Env) (q : ℕ → VerifyRequest) (now : ℕ → ℕ → Time) {db : Database} {s : State Row Note}
    (hr : Run Any (.init db (call E q now)) s) (challenge : String) :
    match db.row (.otp challenge) with
    | none => ∀ t, ¬ Compared s t challenge ∧ ¬ Verified s t challenge
    | some c => ∃ T used, Sparing E q now challenge c s T used ∧ (used.isSome = true → ∀ s', Run Any s s' →
        ∀ t, (Compared s' t challenge ↔ Compared s t challenge) ∧ (Verified s' t challenge ↔ Verified s t challenge)) := by
  have hinit : ∀ u, At E q now u (.init db (call E q now)) := fun u => .asking (init_thr db u)
  split
  · rename_i hrow
    intro t
    have hclosed : ∀ c, (State.init db (call E q now)).db.row (.otp challenge) = some c → c.consumedAt.isSome = true :=
      fun c hc => absurd (hrow.symm.trans hc) (by simp)
    have hsame := run_closed hinit hclosed hr t
    rw [hsame.1, hsame.2]
    exact not_noted_init db t challenge
  · rename_i c hrow
    obtain ⟨hat, T, used, hspare⟩ := run_calls (I := fun s => ∃ T used, Sparing E q now challenge c s T used)
      (fun _ _ _ hm ⟨_, _, h⟩ => h.step hm) hinit ⟨∅, c.consumedAt, .init hrow⟩ hr
    refine ⟨T, used, hspare, fun hused s' hr' t => run_closed hat (fun c' hc' => ?_) hr' t⟩
    rw [hspare.row] at hc'
    cases hc'
    exact hused

/-- A challenge for the code `123456`. -/
def issued : OtpRow where
  purpose := "VOTER_LOGIN"
  subjectType := "voter"
  subjectId := "7"
  channel := .EMAIL
  codeHash := codeHash .plain "ch" "123456"
  expiresAt := 600

/-- The first call guesses, and the second has the code. -/
def guesses (t : ℕ) : VerifyRequest :=
  { challenge := "ch", code := if t = 0 then "000000" else "123 456", purpose := "VOTER_LOGIN", subjectType := "voter"
    subjectId := "7" }

def withChallenge : Database := Db.empty.set (.otp "ch") (some issued)

theorem otp_calls_second :
    ∃ s, replay (.init withChallenge (call .plain guesses fun _ _ => 0)) [0, 0, 0, 1, 1, 1] = some s ∧
      (s.thr 1).log = [.verified 1 "ch", .compared 1 "ch"] ∧
      ∃ T used, Sparing .plain guesses (fun _ _ => 0) "ch" issued s T used := by
  have hlog : (replay (.init withChallenge (call .plain guesses fun _ _ => 0)) [0, 0, 0, 1, 1, 1]).map
      (fun s => (s.thr 1).log) = some [.verified 1 "ch", .compared 1 "ch"] := by decide +kernel
  obtain ⟨s, hs, hlog⟩ := Option.map_eq_some_iff.mp hlog
  have hcalls := otp_calls .plain guesses (fun _ _ => 0) (Run.of_replay _ .refl hs) "ch"
  have hrow : withChallenge.row (.otp "ch") = some issued := rfl
  rw [hrow] at hcalls
  obtain ⟨T, used, hspare, -⟩ := hcalls
  exact ⟨s, hs, hlog, T, used, hspare⟩

end Otp
end FlexyVotes
