/-
# The voter session

A browser's session is one flat dict for all elections: `fv_voter` holds, by
election id, who is signed in, and each election has a key of its own for the
voting authorization, the draft and the submission id. `logoutVoter` ends an
election's session; it deletes every key that starts with `fv_ballot_` and the
election's id, and so also the keys of an election whose id begins with the
same digits (`logout_frame`).

Key definitions: `Session`, `logoutVoter`, `leave`.
Key theorems: `leave_cleared`, `logout_frame`.
-/
import FlexyVotes.Core.Parsing
import Mathlib.Data.List.Infix

namespace FlexyVotes
namespace VoterSession

def SESSION_KEY : String := "fv_voter"

/-- `request.session`; under `fv_voter` nothing but a dict is ever stored. -/
structure Session where
  items : List (String × Json)
  dict : ∀ j, Json.get? items SESSION_KEY = some j → ∃ kvs, j = .obj kvs

namespace Session

def get (s : Session) (key : String) : Option Json := Json.get? s.items key

/-- `session.get(SESSION_KEY, {})`. -/
def voters (s : Session) : List (String × Json) :=
  match s.get SESSION_KEY with
  | some (.obj kvs) => kvs
  | _ => []

/-- `session[SESSION_KEY] = voters`. -/
def setVoters (s : Session) (voters : List (String × Json)) : Session where
  items := Json.setKey s.items SESSION_KEY (.obj voters)
  dict j h := by
    rw [Json.get?_setKey, if_pos rfl, Option.some.injEq] at h
    exact ⟨voters, h.symm⟩

/-- Any other key. -/
def set (s : Session) (key : String) (value : Json) (h : key ≠ SESSION_KEY) : Session where
  items := Json.setKey s.items key value
  dict j hj := by
    rw [Json.get?_setKey, if_neg h.symm] at hj
    exact s.dict j hj

/-- Deleting the keys that start with `start`. -/
def deleteAll (s : Session) (start : String) : Session where
  items := s.items.filter fun p => !start.toList.isPrefixOf p.1.toList
  dict j h := by
    rw [Json.get?_filter fun key => !start.toList.isPrefixOf key.toList] at h
    split at h
    · exact s.dict j h
    · cases h

@[simp] theorem get_setVoters (s : Session) (voters : List (String × Json)) (key : String) :
    (s.setVoters voters).get key = if key = SESSION_KEY then some (.obj voters) else s.get key :=
  Json.get?_setKey _ _ _ _

@[simp] theorem voters_setVoters (s : Session) (kvs : List (String × Json)) : (s.setVoters kvs).voters = kvs := by
  rw [voters, get_setVoters, if_pos rfl]

@[simp] theorem get_set (s : Session) (key : String) (value : Json) (h : key ≠ SESSION_KEY) (k : String) :
    (s.set key value h).get k = if k = key then some value else s.get k :=
  Json.get?_setKey _ _ _ _

@[simp] theorem voters_set (s : Session) (key : String) (value : Json) (h : key ≠ SESSION_KEY) :
    (s.set key value h).voters = s.voters := by
  rw [voters, get_set, if_neg h.symm, voters]

@[simp] theorem get_deleteAll (s : Session) (start key : String) :
    (s.deleteAll start).get key = if start.toList <+: key.toList then none else s.get key := by
  unfold get deleteAll
  rw [Json.get?_filter fun key => !start.toList.isPrefixOf key.toList]
  by_cases h : start.toList <+: key.toList
  · rw [if_pos h, if_neg (by simpa [← List.isPrefixOf_iff_prefix] using h)]
  · rw [if_neg h, if_pos (by simpa [← List.isPrefixOf_iff_prefix] using h)]

end Session

/-! ### The keys of an election -/

/-- The start of an election's keys. -/
def keyStart (event : ℕ) : String := "fv_ballot_" ++ toString event

/-- What is kept in the session while voting. -/
inductive Part
  | token
  | selections
  | submission
  deriving DecidableEq, Repr

def Part.suffix : Part → String
  | .token => "_token"
  | .selections => "_selections"
  | .submission => "_submission"

/-- The keys of `_keys` but the receipt's. -/
def ballotKey (event : ℕ) (part : Part) : String := keyStart event ++ part.suffix

def receiptKey (event : ℕ) : String := "fv_receipt_" ++ toString event

/-- `logout_voter`. -/
def logoutVoter (s : Session) (event : ℕ) : Session :=
  (s.setVoters (s.voters.filter fun p => p.1 ≠ toString event)).deleteAll (keyStart event)

theorem receiptKey_ne (event : ℕ) : receiptKey event ≠ SESSION_KEY := fun h => by
  have hchars := congrArg (fun s => s.toList.take 4) h
  simp [receiptKey, SESSION_KEY, String.toList_append] at hchars

/-- How a voting page ends the session: after casting with the receipt, at an
error without. -/
def leave (s : Session) (event : ℕ) (receipt : Option Json) : Session :=
  match receipt with
  | some r => logoutVoter (s.set (receiptKey event) r (receiptKey_ne event)) event
  | none => logoutVoter s event

/-! ### What an election has in the session -/

/-- The entry of who is signed in. -/
def entry (s : Session) (event : ℕ) : Option Json := Json.get? s.voters (toString event)

/-- Everything of an election is as it was. -/
structure Kept (s s' : Session) (event : ℕ) : Prop where
  entry : entry s' event = entry s event
  parts : ∀ part, s'.get (ballotKey event part) = s.get (ballotKey event part)

/-- Nothing of an election is there. -/
structure Cleared (s : Session) (event : ℕ) : Prop where
  entry : entry s event = none
  parts : ∀ part, s.get (ballotKey event part) = none

/-- The digits of `f` begin with those of `e`. -/
def Begins (e f : ℕ) : Prop := (toString e).toList <+: (toString f).toList

instance (e f : ℕ) : Decidable (Begins e f) := by
  unfold Begins
  infer_instance

theorem begins_self (event : ℕ) : Begins event event := List.prefix_refl _

theorem prefix_append_cons {α : Type} {l l' rest : List α} {c : α} (hc : c ∉ l) : l <+: l' ++ c :: rest ↔ l <+: l' := by
  constructor
  · intro h
    rcases List.prefix_or_prefix_of_prefix h (List.prefix_append l' _) with hl | ⟨more, rfl⟩
    · exact hl
    · cases more with
      | nil => simp
      | cons d more =>
        rw [List.prefix_append_right_inj, List.cons_prefix_cons] at h
        exact absurd (by simp [h.1]) hc
  · exact fun h => h.trans (List.prefix_append _ _)

/-- Which keys an election's logout deletes. -/
theorem keyStart_prefix_ballotKey (e f : ℕ) (part : Part) :
    (keyStart e).toList <+: (ballotKey f part).toList ↔ Begins e f := by
  obtain ⟨rest, hrest⟩ : ∃ rest, part.suffix.toList = '_' :: rest := by
    cases part <;> exact ⟨_, rfl⟩
  have hdigits : '_' ∉ (toString e).toList := by simp [Nat.underscore_not_in_toDigits]
  unfold keyStart ballotKey keyStart Begins
  rw [String.toList_append, String.toList_append, String.toList_append, List.append_assoc, List.prefix_append_right_inj,
    hrest, prefix_append_cons hdigits]

theorem ballotKey_ne (event : ℕ) (part : Part) (other : ℕ) :
    ballotKey event part ≠ SESSION_KEY ∧ ballotKey event part ≠ receiptKey other := by
  constructor
  all_goals
    intro h
    have hchars := congrArg (fun s => s.toList.take 4) h
    simp [ballotKey, keyStart, receiptKey, SESSION_KEY, String.toList_append] at hchars

theorem not_prefix_keyStart (event : ℕ) : ¬(keyStart event).toList <+: SESSION_KEY.toList := by
  simp [keyStart, SESSION_KEY, String.toList_append]

/-! ### Logging out -/

theorem logoutVoter_entry (s : Session) (e f : ℕ) : entry (logoutVoter s e) f = if e = f then none else entry s f := by
  have hvoters : (logoutVoter s e).voters = s.voters.filter fun p => p.1 ≠ toString e := by
    unfold logoutVoter
    rw [Session.voters, Session.get_deleteAll, if_neg (not_prefix_keyStart e), Session.get_setVoters, if_pos rfl]
  rw [entry, hvoters, Json.get?_filter fun key => key ≠ toString e]
  by_cases hef : e = f
  · rw [if_pos hef, hef]
    simp
  · rw [if_neg hef, if_pos (by simpa using fun h => hef (toString_pk_injective h).symm), entry]

theorem logoutVoter_get (s : Session) (e f : ℕ) (part : Part) :
    (logoutVoter s e).get (ballotKey f part) = if Begins e f then none else s.get (ballotKey f part) := by
  rw [logoutVoter, Session.get_deleteAll, Session.get_setVoters, if_neg (ballotKey_ne f part 0).1]
  simp only [keyStart_prefix_ballotKey]

/-- Storing the receipt changes nothing that is kept while voting. -/
theorem set_receipt (s : Session) (e f : ℕ) (receipt : Json) (part : Part) :
    entry (s.set (receiptKey e) receipt (receiptKey_ne e)) f = entry s f ∧
      (s.set (receiptKey e) receipt (receiptKey_ne e)).get (ballotKey f part) = s.get (ballotKey f part) :=
  ⟨by rw [entry, Session.voters_set, entry], by rw [Session.get_set, if_neg (ballotKey_ne f part e).2]⟩

theorem leave_entry (s : Session) (e f : ℕ) (receipt : Option Json) :
    entry (leave s e receipt) f = if e = f then none else entry s f := by
  cases receipt with
  | none => exact logoutVoter_entry s e f
  | some r => rw [leave, logoutVoter_entry, (set_receipt s e f r .token).1]

theorem leave_get (s : Session) (e f : ℕ) (receipt : Option Json) (part : Part) :
    (leave s e receipt).get (ballotKey f part) = if Begins e f then none else s.get (ballotKey f part) := by
  cases receipt with
  | none => exact logoutVoter_get s e f part
  | some r => rw [leave, logoutVoter_get, (set_receipt s e f r part).2]

/-- Nothing of the election itself is left. -/
theorem leave_cleared (s : Session) (e : ℕ) (receipt : Option Json) : Cleared (leave s e receipt) e where
  entry := by rw [leave_entry, if_pos rfl]
  parts part := by rw [leave_get, if_pos (begins_self e)]

/-- **Ending an election's session leaves another's as it is** exactly where the
other's id does not begin with the same digits, or nothing is kept for it. -/
theorem logout_frame (s : Session) {e f : ℕ} (hef : e ≠ f) (receipt : Option Json) :
    (Kept s (leave s e receipt) f ∧ Cleared (leave s e receipt) e) ↔
      (Begins e f → ∀ part, s.get (ballotKey f part) = none) := by
  constructor
  · rintro ⟨hkept, -⟩ hbegins part
    rw [← hkept.parts part, leave_get, if_pos hbegins]
  · intro h
    refine ⟨⟨by rw [leave_entry, if_neg hef], fun part => ?_⟩, leave_cleared s e receipt⟩
    rw [leave_get]
    split
    · exact (h ‹_› part).symm
    · rfl

/-- A draft in election 12. -/
def twelve : Session where
  items := [("fv_ballot_12_selections", .obj [("3", .arr [.int 7])])]
  dict j h := by
    cases h

/-- It is still there after leaving election 2. -/
theorem logout_frame_two : Kept twelve (leave twelve 2 none) 12 ∧ Cleared (leave twelve 2 none) 2 :=
  (logout_frame twelve (by decide) none).mpr fun h => absurd h (by decide)

/-- It is lost on leaving election 1. -/
theorem not_logout_frame :
    ¬∀ (s : Session) (e f : ℕ), e ≠ f → ∀ receipt, Kept s (leave s e receipt) f ∧ Cleared (leave s e receipt) e := by
  intro h
  have hparts := ((h twelve 1 12 (by decide) none).1.parts .selections).symm
  rw [leave_get, if_pos (by decide)] at hparts
  cases hparts

end VoterSession
end FlexyVotes
