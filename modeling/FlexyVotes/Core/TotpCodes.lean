/-
# Authenticator codes

The code of a time step is accepted during three steps, the one before it, the
step itself and the one after. A code that is accepted leaves a marker of its step
in the cache, for 120 seconds. The marker is made no earlier than 30 seconds
before the step begins, so it outlives the 90 seconds in which the code counts.

Of the steps whose code it is, a call takes the first one. A later call with the
same code takes the same step as long as that counts, since the steps that are
looked at before it were looked at before.

Key definitions: `outcomes`, `Counts`, `State.Marked`.
Key theorems: `verifyTotp_eq`, `totp_once`.
-/
import Mathlib.Tactic.Ring
import FlexyVotes.Core.Login

namespace FlexyVotes
namespace Login

/-- A call of `verify_totp` at its moment. -/
structure TotpCall where
  moment : Time
  user : ℕ
  code : String

/-- What a call came to: the step whose code it had, and whether it was accepted. -/
structure TotpOutcome where
  call : TotpCall
  step : Option ℕ
  accepted : Bool

variable (P : Primitives) (E : Env)

/-- The code as it is compared. -/
def TotpCall.digits (x : TotpCall) : String := Otp.removeSpaces (E.strip x.code)

/-- The step whose code the call has, if its code can be one at all. -/
def codeStep (x : TotpCall) (s : State) : Option ℕ :=
  let secret := (s.securityFor x.user).totpSecret.getD ""
  if secret = "" ∨ x.digits E = "" ∨ ¬ (x.digits E).toList.all E.isDigit then none
  else totpStep P secret (x.digits E) x.moment

/-- The state after a call. -/
def callTotp (x : TotpCall) (s : State) : State := (verifyTotp P E x.user x.code (s.upTo x.moment)).2

/-- What the calls of a run came to. -/
def outcomes : List TotpCall → State → List TotpOutcome
  | [], _ => []
  | x :: xs, s => ⟨x, codeStep P E x s, (verifyTotp P E x.user x.code (s.upTo x.moment)).1⟩ ::
      outcomes xs (callTotp P E x s)

/-- The code of the step is one of those accepted at the moment. -/
def Counts (t now : ℕ) : Prop :=
  t ∈ [now / MICROSECONDS / 30 - 1, now / MICROSECONDS / 30, now / MICROSECONDS / 30 + 1]

/-- A marker of the step is in the cache. -/
def State.isUsed (s : State) (u t : ℕ) (now : Time) : Bool := s.usedTotp.any fun x => x.1 = u && x.2.1 = t && now < x.2.2

/-- Every marker outlives the time in which the code of its step counts. -/
def State.Marked (s : State) : Prop := ∀ x ∈ s.usedTotp, (30 * x.2.1 + 60) * MICROSECONDS ≤ x.2.2

variable {P : Primitives} {E : Env} {s : State} {x y : TotpCall} {t : ℕ}

/-- **A call** is accepted if it has the code of a step that is not marked, and
marks it. -/
theorem verifyTotp_eq (x : TotpCall) (s : State) :
    verifyTotp P E x.user x.code (s.upTo x.moment) =
      match codeStep P E x s with
      | none => (false, s.upTo x.moment)
      | some t =>
        if s.isUsed x.user t x.moment then (false, s.upTo x.moment)
        else (true, { s.upTo x.moment with
          usedTotp := (x.user, t, x.moment + 120 * MICROSECONDS) :: s.usedTotp }) := by
  unfold verifyTotp codeStep TotpCall.digits State.isUsed
  have hsecret : (s.upTo x.moment).securityFor x.user = s.securityFor x.user := rfl
  have hclock : (s.upTo x.moment).clock = x.moment := rfl
  have hused : (s.upTo x.moment).usedTotp = s.usedTotp := rfl
  dsimp only
  rw [hsecret, hclock, hused]
  generalize Otp.removeSpaces (E.strip x.code) = code
  generalize (s.securityFor x.user).totpSecret.getD "" = secret
  by_cases hcode : secret = "" ∨ code = "" ∨ ¬ code.toList.all E.isDigit
  · rw [if_pos hcode, if_pos hcode]
  · conv_rhs => rw [if_neg hcode]
    exact if_neg hcode

theorem counts_iff {now : ℕ} : Counts t now ↔ now / MICROSECONDS / 30 ≤ t + 1 ∧ t ≤ now / MICROSECONDS / 30 + 1 := by
  unfold Counts
  generalize now / MICROSECONDS / 30 = q
  simp only [List.mem_cons, List.not_mem_nil, or_false]
  omega

/-- A code that counts does so for another step at most. -/
theorem Counts.lt {now : ℕ} (h : Counts t now) : now < (30 * t + 60) * MICROSECONDS := by
  have hstep : now / MICROSECONDS < 30 * t + 60 := by
    have hle := (counts_iff.1 h).1
    omega
  exact (Nat.div_lt_iff_lt_mul (by decide)).1 hstep

theorem Counts.le {now : ℕ} (h : Counts t now) : (30 * t + 60) * MICROSECONDS ≤ now + 120 * MICROSECONDS := by
  have hstep : 30 * t + 60 ≤ now / MICROSECONDS + 60 + 30 := by
    have hle := (counts_iff.1 h).2
    omega
  calc (30 * t + 60) * MICROSECONDS ≤ (now / MICROSECONDS + 60 + 30) * MICROSECONDS := Nat.mul_le_mul_right _ hstep
    _ = now / MICROSECONDS * MICROSECONDS + 90 * MICROSECONDS := by ring
    _ ≤ now + 120 * MICROSECONDS := Nat.add_le_add (Nat.div_mul_le_self _ _) (Nat.mul_le_mul_right _ (by decide))

theorem codeStep_counts (h : codeStep P E x s = some t) : Counts t x.moment := by
  unfold codeStep totpStep at h
  dsimp only at h
  split at h
  · cases h
  · exact List.mem_of_find?_eq_some h

/-- In a list in order, the first that passes is the least. -/
theorem find?_eq_some_iff_sorted {p : ℕ → Bool} : ∀ {l : List ℕ}, l.Pairwise (· ≤ ·) →
    (l.find? p = some t ↔ t ∈ l ∧ p t = true ∧ ∀ v ∈ l, v < t → p v = false)
  | [], _ => by simp
  | a :: l, hl => by
    obtain ⟨ha, hl⟩ := List.pairwise_cons.1 hl
    cases hp : p a with
    | true =>
      rw [List.find?_cons_of_pos hp]
      constructor
      · intro h
        cases h
        refine ⟨List.mem_cons_self, hp, fun v hv hlt => absurd hlt (Nat.not_lt.2 ?_)⟩
        rcases List.mem_cons.1 hv with rfl | hv
        · exact le_rfl
        · exact ha v hv
      · rintro ⟨hmem, -, hleast⟩
        rcases List.mem_cons.1 hmem with rfl | hmem
        · rfl
        · rcases Nat.lt_or_eq_of_le (ha t hmem) with hlt | rfl
          · rw [hleast a List.mem_cons_self hlt] at hp
            cases hp
          · rfl
    | false =>
      rw [List.find?_cons_of_neg (by simp [hp]), find?_eq_some_iff_sorted hl, List.forall_mem_cons]
      constructor
      · rintro ⟨hmem, ht, hleast⟩
        exact ⟨List.mem_cons_of_mem _ hmem, ht, fun _ => hp, hleast⟩
      · rintro ⟨hmem, ht, -, hleast⟩
        rcases List.mem_cons.1 hmem with rfl | hmem
        · rw [ht] at hp
          cases hp
        · exact ⟨hmem, ht, hleast⟩

/-- The step of a code is the first of those that count. -/
theorem totpStep_eq_some {secret code : String} {now : ℕ} :
    totpStep P secret code now = some t ↔
      Counts t now ∧ P.totpAt secret t = code ∧ ∀ v, Counts v now → v < t → P.totpAt secret v ≠ code := by
  unfold totpStep Counts
  dsimp only
  generalize now / MICROSECONDS / 30 = q
  rw [find?_eq_some_iff_sorted (by simp; omega)]
  simp only [decide_eq_true_eq, decide_eq_false_iff_not, ne_eq]

theorem codeStep_totpAt (h : codeStep P E x s = some t) :
    P.totpAt ((s.securityFor x.user).totpSecret.getD "") t = x.digits E := by
  unfold codeStep at h
  dsimp only at h
  split at h
  · cases h
  · exact (totpStep_eq_some.1 h).2.1

/-- **A later call** with the code finds the same step, as long as that counts. -/
theorem totpStep_later {secret code : String} {now later : ℕ} (h : totpStep P secret code now = some t)
    (hle : now ≤ later) (hcounts : Counts t later) : totpStep P secret code later = some t := by
  have hq : now / MICROSECONDS / 30 ≤ later / MICROSECONDS / 30 :=
    Nat.div_le_div_right (Nat.div_le_div_right hle)
  rw [totpStep_eq_some] at h ⊢
  obtain ⟨hnow, hcode, hleast⟩ := h
  refine ⟨hcounts, hcode, fun v hv hlt => hleast v ?_ hlt⟩
  -- a step before it that counts later counted before
  rw [counts_iff] at hnow hv ⊢
  omega

theorem callTotp_security (x : TotpCall) (s : State) : (callTotp P E x s).security = s.security := by
  unfold callTotp
  rw [verifyTotp_eq]
  split
  · rfl
  · split <;> rfl

theorem callTotp_used {m : ℕ × ℕ × Time} (h : m ∈ s.usedTotp) : m ∈ (callTotp P E x s).usedTotp := by
  unfold callTotp
  rw [verifyTotp_eq]
  split
  · exact h
  · split
    · exact h
    · exact List.mem_cons_of_mem _ h

theorem State.Marked.call (h : s.Marked) : (callTotp P E x s).Marked := by
  unfold callTotp
  rw [verifyTotp_eq]
  split
  · exact h
  · rename_i t ht
    split
    · exact h
    · intro m hm
      rcases List.mem_cons.1 hm with rfl | hm
      · exact (codeStep_counts ht).le
      · exact h m hm

theorem codeStep_congr {s' : State} (h : s'.security = s.security) : codeStep P E x s' = codeStep P E x s := by
  unfold codeStep State.securityFor
  rw [h]

/-- The steps of a run's codes, by the secrets at its start. -/
theorem outcomes_step : ∀ {xs : List TotpCall} {s : State}, ∀ o ∈ outcomes P E xs s, o.step = codeStep P E o.call s
  | x :: xs, s, o, ho => by
    rcases List.mem_cons.1 ho with rfl | ho
    · rfl
    · rw [outcomes_step o ho, codeStep_congr (callTotp_security x s)]

theorem outcomes_call : ∀ {xs : List TotpCall} {s : State}, ∀ o ∈ outcomes P E xs s, o.call ∈ xs
  | x :: xs, s, o, ho => by
    rcases List.mem_cons.1 ho with rfl | ho
    · exact List.mem_cons_self
    · exact List.mem_cons_of_mem _ (outcomes_call o ho)

/-- A step that is marked is not accepted again: where its code counts, the marker
is there. -/
theorem refused_of_marked {u e : ℕ} (he : (30 * t + 60) * MICROSECONDS ≤ e) :
    ∀ {xs : List TotpCall} {s : State}, (u, t, e) ∈ s.usedTotp →
      ∀ o ∈ outcomes P E xs s, o.call.user = u → o.step = some t → o.accepted = false
  | x :: xs, s, hmem, o, ho, hu, ht => by
    rcases List.mem_cons.1 ho with rfl | ho
    · dsimp only at hu ht ⊢
      have hused : s.isUsed x.user t x.moment = true := by
        refine List.any_eq_true.2 ⟨_, hmem, ?_⟩
        have hlive : x.moment < e := (codeStep_counts ht).lt.trans_le he
        simp [hu, hlive]
      rw [verifyTotp_eq, ht]
      dsimp only
      rw [if_pos hused]
    · exact refused_of_marked he (callTotp_used hmem) o ho hu ht

theorem codeStep_later {s' : State} (hs : s'.security = s.security) (hu : y.user = x.user)
    (hd : y.digits E = x.digits E) (hle : x.moment ≤ y.moment) (h : codeStep P E x s = some t)
    (hcounts : Counts t y.moment) : codeStep P E y s' = some t := by
  unfold codeStep State.securityFor at *
  rw [hs, hu, hd]
  dsimp only at *
  split at h
  · cases h
  · rename_i hcode
    rw [if_neg hcode]
    exact totpStep_later h hle hcounts

/-- Of two calls of one run, in this order, neither is a replay that succeeds. -/
structure NoReplay (E : Env) (a b : TotpOutcome) : Prop where
  /-- Two calls that are accepted have the codes of different steps. -/
  once : a.call.user = b.call.user → a.accepted = true → b.accepted = true → a.step ≠ b.step
  /-- A code that was rejected for its step is so while the step's code counts. -/
  rejected : a.call.user = b.call.user → a.call.digits E = b.call.digits E → a.accepted = false →
    ∀ t, a.step = some t → Counts t b.call.moment → b.accepted = false

theorem accepted_iff (x : TotpCall) (s : State) : (verifyTotp P E x.user x.code (s.upTo x.moment)).1 = true ↔
    ∃ t, codeStep P E x s = some t ∧ s.isUsed x.user t x.moment = false := by
  rw [verifyTotp_eq]
  cases codeStep P E x s with
  | none => simp
  | some t =>
    dsimp only
    split
    · rename_i hused
      simp [hused]
    · rename_i hfree
      simp [hfree]

/-- What is accepted is the code of a step that counts. -/
theorem step_of_accepted : ∀ {xs : List TotpCall} {s : State}, ∀ o ∈ outcomes P E xs s, o.accepted = true →
    ∃ t, o.step = some t
  | x :: xs, s, o, ho, hacc => by
    rcases List.mem_cons.1 ho with rfl | ho
    · obtain ⟨t, ht, -⟩ := (accepted_iff x s).1 hacc
      exact ⟨t, ht⟩
    · exact step_of_accepted o ho hacc

/-- A call that is accepted leaves a marker that outlives its code. -/
theorem callTotp_marks (hx : (verifyTotp P E x.user x.code (s.upTo x.moment)).1 = true) (ht : codeStep P E x s = some t) :
    (x.user, t, x.moment + 120 * MICROSECONDS) ∈ (callTotp P E x s).usedTotp := by
  obtain ⟨t', ht', hfree⟩ := (accepted_iff x s).1 hx
  rw [ht] at ht'
  cases ht'
  unfold callTotp
  rw [verifyTotp_eq, ht]
  dsimp only
  rw [if_neg (by simp [hfree])]
  exact List.mem_cons_self

/-- A code that is rejected for its step is so for a marker that outlives it. -/
theorem marked_of_rejected (hs : s.Marked) (hx : (verifyTotp P E x.user x.code (s.upTo x.moment)).1 = false)
    (ht : codeStep P E x s = some t) :
    ∃ e, (30 * t + 60) * MICROSECONDS ≤ e ∧ (x.user, t, e) ∈ (callTotp P E x s).usedTotp := by
  have hused : s.isUsed x.user t x.moment = true := by
    by_contra hfree
    rw [(accepted_iff x s).2 ⟨t, ht, Bool.eq_false_of_not_eq_true hfree⟩] at hx
    cases hx
  obtain ⟨⟨u, t', e⟩, hmem, he⟩ := List.any_eq_true.1 hused
  simp only [Bool.and_eq_true, decide_eq_true_eq] at he
  obtain ⟨⟨rfl, rfl⟩, -⟩ := he
  have hlong := hs _ hmem
  exact ⟨e, hlong, callTotp_used hmem⟩

/-- **A run**: no call is a replay of one before it. -/
theorem outcomes_noReplay : ∀ {xs : List TotpCall} {s : State}, s.Marked → xs.Pairwise (·.moment ≤ ·.moment) →
    (outcomes P E xs s).Pairwise (NoReplay E)
  | [], _, _, _ => List.Pairwise.nil
  | x :: xs, s, hs, hxs => by
    obtain ⟨hx, hxs⟩ := List.pairwise_cons.1 hxs
    refine List.pairwise_cons.2 ⟨fun o ho => ⟨fun hu hacc hacc' he => ?_, fun hu hd hrej t ht hcounts => ?_⟩,
      outcomes_noReplay hs.call hxs⟩
    · dsimp only at hu hacc he
      obtain ⟨t, ht⟩ := step_of_accepted o ho hacc'
      rw [ht] at he
      rw [refused_of_marked (codeStep_counts he).le (callTotp_marks hacc he) o ho hu.symm ht] at hacc'
      cases hacc'
    · dsimp only at hu hd hrej ht
      obtain ⟨e, he, hmem⟩ := marked_of_rejected hs hrej ht
      have hlater : o.step = some t := by
        rw [outcomes_step o ho]
        exact codeStep_later (callTotp_security x s) hu.symm hd.symm (hx _ (outcomes_call o ho)) ht hcounts
      exact refused_of_marked he hmem o ho hu.symm hlater

/-- **Authenticator codes**: in a run of calls at moments that follow one another,
what is accepted is the code of a step that counts, of no step is a code accepted
twice, and a replay that was rejected is rejected again. -/
theorem totp_once (P : Primitives) (E : Env) {s : State} (hs : s.usedTotp = []) {xs : List TotpCall}
    (hxs : xs.Pairwise (·.moment ≤ ·.moment)) :
    (∀ o ∈ outcomes P E xs s, o.accepted = true → ∃ t, o.step = some t ∧ Counts t o.call.moment ∧
      P.totpAt ((s.securityFor o.call.user).totpSecret.getD "") t = o.call.digits E) ∧
    (outcomes P E xs s).Pairwise (NoReplay E) := by
  refine ⟨fun o ho hacc => ?_, outcomes_noReplay (fun m hm => ?_) hxs⟩
  · obtain ⟨t, ht⟩ := step_of_accepted o ho hacc
    have hstep := outcomes_step o ho
    rw [ht] at hstep
    exact ⟨t, ht, codeStep_counts hstep.symm, codeStep_totpAt hstep.symm⟩
  · rw [hs] at hm
    cases hm

/-- One code, sent twice: it is accepted and then rejected. -/
theorem totp_once_twice :
    (outcomes plainly Env.plain [⟨1000000, 7, "123456"⟩, ⟨2000000, 7, "123 456"⟩] alone).map (·.accepted) = [true, false] ∧
      (outcomes plainly Env.plain [⟨1000000, 7, "123456"⟩, ⟨2000000, 7, "123 456"⟩] alone).Pairwise
        (NoReplay Env.plain) :=
  ⟨by decide +kernel, (totp_once plainly Env.plain rfl (by simp)).2⟩

end Login
end FlexyVotes
