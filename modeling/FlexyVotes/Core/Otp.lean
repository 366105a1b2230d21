/-
# One-time passcodes

`verify` takes one guess at a challenge: the challenge stays locked while the
guess is counted, and a right guess uses it up.
-/
import FlexyVotes.Core.Audit

namespace FlexyVotes
namespace Otp

open Transactions

/-- `_hash`. -/
def codeHash (E : Env) (challenge code : String) : String := E.keyedHash "otp" (challenge ++ ":" ++ code)

/-- One call of `verify`. -/
structure VerifyRequest where
  challenge : String
  code : String
  purpose : String
  subjectType : String
  subjectId : String

def removeSpaces (s : String) : String := String.ofList (s.toList.filter (· ≠ ' '))

/-- The challenge is the one the request is about. -/
def VerifyRequest.isFor (q : VerifyRequest) (c : OtpRow) : Bool :=
  c.purpose = q.purpose && c.subjectType = q.subjectType && c.subjectId = q.subjectId

/-- The challenge after one more guess. -/
def guessed (c : OtpRow) (ok : Bool) (now : Time) : OtpRow :=
  { c with attempts := c.attempts + 1, consumedAt := if ok then some now else c.consumedAt }

def incorrect (c : OtpRow) : Failure :=
  .otp (if c.maxAttempts - c.attempts ≠ 0 then
      "Incorrect code. " ++ toString (c.maxAttempts - c.attempts) ++ " attempt(s) left."
    else "Too many incorrect attempts. Request a new code.")

/-- `verify`. -/
def verify (E : Env) (q : VerifyRequest) (now : ℕ → Time) (k : Except Failure OtpRow → Program) : Program :=
  .lock (.otp q.challenge) q.isFor fun
    | none => .rollback (k (.error (.otp "This code is no longer valid. Request a new one.")))
    | some c =>
      if c.consumedAt.isSome then
        .rollback (k (.error (.otp "This code is no longer valid. Request a new one.")))
      else if c.expiresAt ≤ now 0 then
        .rollback (k (.error (.otp "This code has expired. Request a new one.")))
      else if c.maxAttempts ≤ c.attempts then
        .rollback (k (.error (.otp "Too many incorrect attempts. Request a new code.")))
      else
        let ok := codeHash E q.challenge (removeSpaces (E.strip q.code)) = c.codeHash
        let c' := guessed c ok (now 1)
        .put (.otp q.challenge) (some c') <|
        .commit <|
        if ok then k (.ok c') else k (.error (incorrect c'))

def isOtp : Key → Bool
  | .otp _ => true
  | _ => false

/-- **A guess** commits at most the challenge; what is known beside it lasts. -/
theorem verify_ok {S : Spec Row Note} (hS : S.Sound) {E : Env} {q : VerifyRequest} {now : ℕ → Time}
    {k : Except Failure OtpRow → Program} {db : Database} {log : List Note} {P : Database → Prop}
    (hq : Quiet S isOtp) (hP : Lasts S isOtp log P) (hp : P db)
    (hfail : ∀ db e, S.inv db → P db → Ok S (k (.error e)) db [] [] log)
    (hk : ∀ db c, S.inv db → P db → Ok S (k (.ok c)) db [] [] log) :
    Ok S (verify E q now k) db [] [] log := by
  have hout : ∀ db own e, P db → Ok S (.rollback (k (.error e))) db own [] log :=
    fun db own e hp db' h => hfail db' e h.inv (hP.stable _ _ _ h hp)
  intro db₁ h₁
  have hp₁ : P db₁ := hP.stable _ _ _ h₁ hp
  refine ⟨fun c _ _ => ?_, fun _ => hout _ _ _ hp₁⟩
  dsimp only
  split
  · exact hout _ _ _ hp₁
  · split
    · exact hout _ _ _ hp₁
    · split
      · exact hout _ _ _ hp₁
      · refine Ok.put hS (by simp) trivial (hq.commit hP (.cons rfl .nil) hp₁ fun db hi hp => ?_)
        split
        · exact hk _ _ hi hp
        · exact hfail _ _ hi hp

end Otp
end FlexyVotes
