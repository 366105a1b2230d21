/-
# Ballots that stop the count

`_decrypt_ballots` sets aside what it cannot open, but looks no further than
that `selections` is an object. What is in it, anyone with the public key can
choose, and each counting algorithm takes it for a selection of its own shape:
`plurality` and `ranked` iterate over it and look each element up, `score`
reads its keys and values as numbers and turns the sums into floats.

`countBallots` is `compute_institutional_tally` with those floats; it returns
exactly on the ballots of `Countable`.

Key definitions: `Listable`, `Scorable`, `InRange`, `countBallots`, `Countable`.
Key theorems: `choicesOf_ok`, `scoresOf_ok`, `tallyPosition_ok`, `count_returns`.
-/
import FlexyVotes.Elections.Counting
import FlexyVotes.Elections.Seats
import FlexyVotes.Elections.Suppression

namespace FlexyVotes
namespace Robust

open Transactions Tally Counting Ballot

/-! ### The floats of a score -/

/-- The least integer that `float` cannot hold. -/
def FLOAT_LIMIT : ℕ := 2 ^ 1024 - 2 ^ 970

/-- A total whose average or percentage raises an `OverflowError`. -/
def Overflows (maxScore valid : ℕ) (total : ℤ) : Prop :=
  valid ≠ 0 ∧ ((FLOAT_LIMIT : ℚ) ≤ |(total : ℚ)| / valid ∨ maxScore ≠ 0 ∧ (FLOAT_LIMIT : ℤ) ≤ |total|)

instance (maxScore valid : ℕ) (total : ℤ) : Decidable (Overflows maxScore valid total) := by
  unfold Overflows; infer_instance

/-- `score` raises for one of its rows. -/
def Raises (r : PositionTally) : Prop :=
  match r.outcome with
  | .score s => ∃ row ∈ s.candidates, Overflows s.maxScore s.validBallots row.votes
  | _ => False

instance (r : PositionTally) : Decidable (Raises r) := by
  unfold Raises
  split <;> infer_instance

/-- All positions that are tallied. -/
def tallied (t : InstitutionalTally) : List PositionTally :=
  t.positions.map (·.1) ++ t.constituencies.flatMap fun c => c.positions.getD []

/-- `compute_institutional_tally`, with the floats of `score`. -/
def countBallots (E : Env) (db : Database) (e : ℕ) (ev : EventRow) (privateKey : String)
    (ballots : List (String × BallotRow)) (now : Time) : Except Failure InstitutionalTally :=
  match computeInstitutionalTally E db e ev privateKey ballots now with
  | .error failure => .error failure
  | .ok t => if ∃ r ∈ tallied t, Raises r then .error (.crash "OverflowError") else .ok t

/-! ### The shape of a selection -/

/-- A list or an object cannot be looked up. -/
def Hashable : Json → Prop
  | .arr _ | .obj _ => False
  | _ => True

/-- What can be iterated over, with elements to look up. -/
def Listable : Json → Prop
  | .arr xs => ∀ x ∈ xs, Hashable x
  | .obj _ | .str _ => True
  | _ => False

/-- An object with the scores of candidates: keys that are numbers and, for the
candidates among them, values that are. -/
def Scorable (E : Env) (ids : List ℤ) : Json → Prop
  | .obj kvs => ∀ kv ∈ kvs, ∃ cid, pyInt E (.str kv.1) = .ok cid ∧ (cid ∈ ids → ∃ n, pyInt E kv.2 = .ok n)
  | _ => False

/-- A selection the count of its position takes. -/
def Shape (E : Env) (spec : PositionSpec) (s : Json) : Prop :=
  s.falsy = true ∨
    match spec.ballotType with
    | .REFERENDUM => True
    | .SCORE => Scorable E (spec.candidates.map (·.id)) s
    | _ => Listable s

section Reading

variable {E : Env}

theorem lookUp_ok {x : Json} : (∃ i, lookUp x = .ok i) ↔ Hashable x := by
  cases x <;> simp [lookUp, Hashable]

theorem lookUpAll_ok : ∀ {xs : List Json}, (∃ is, lookUpAll xs = .ok is) ↔ ∀ x ∈ xs, Hashable x
  | [] => ⟨fun _ _ hx => absurd hx List.not_mem_nil, fun _ => ⟨[], rfl⟩⟩
  | x :: xs => by
    unfold lookUpAll
    rw [List.forall_mem_cons, ← lookUp_ok, ← lookUpAll_ok]
    cases lookUp x with
    | error e => exact ⟨fun ⟨_, h⟩ => (nomatch h), fun ⟨⟨_, h⟩, _⟩ => nomatch h⟩
    | ok i =>
      cases lookUpAll xs with
      | error e => exact ⟨fun ⟨_, h⟩ => (nomatch h), fun ⟨_, _, h⟩ => nomatch h⟩
      | ok is => exact ⟨fun _ => ⟨⟨i, rfl⟩, is, rfl⟩, fun _ => ⟨_, rfl⟩⟩

/-- What `for cid in selection` and `cid in counts` can do. -/
theorem choicesOf_ok {s : Json} : (∃ r, choicesOf s = .ok r) ↔ s.falsy = true ∨ Listable s := by
  unfold choicesOf
  by_cases hfalsy : s.falsy = true
  · rw [if_pos hfalsy]
    exact iff_of_true ⟨_, rfl⟩ (Or.inl hfalsy)
  · rw [if_neg hfalsy, or_iff_right hfalsy]
    have hall : ∀ xs : List Json, (∃ r, (lookUpAll xs).map some = .ok r) ↔ ∀ x ∈ xs, Hashable x := fun xs => by
      rw [← lookUpAll_ok]
      cases lookUpAll xs with
      | error e => exact ⟨fun ⟨_, h⟩ => (nomatch h), fun ⟨_, h⟩ => nomatch h⟩
      | ok is => exact ⟨fun _ => ⟨is, rfl⟩, fun _ => ⟨some is, rfl⟩⟩
    cases s with
    | arr xs => exact hall xs
    | obj kvs =>
      refine (hall _).trans (iff_of_true (fun x hx => ?_) trivial)
      obtain ⟨kv, -, rfl⟩ := List.mem_map.mp hx
      trivial
    | str text =>
      refine (hall _).trans (iff_of_true (fun x hx => ?_) trivial)
      obtain ⟨c, -, rfl⟩ := List.mem_map.mp hx
      trivial
    | null | bool _ | int _ | float _ => exact ⟨fun ⟨_, h⟩ => (nomatch h), False.elim⟩

theorem scoreItems_ok {ids : List ℤ} {kvs : List (String × Json)} : (∃ r, scoreItems E ids kvs = .ok r) ↔
    ∀ kv ∈ kvs, ∃ cid, pyInt E (.str kv.1) = .ok cid ∧ (cid ∈ ids → ∃ n, pyInt E kv.2 = .ok n) := by
  induction kvs with
  | nil => exact ⟨fun _ _ hkv => absurd hkv List.not_mem_nil, fun _ => ⟨[], rfl⟩⟩
  | cons item kvs ih =>
    obtain ⟨key, value⟩ := item
    unfold scoreItems
    rw [List.forall_mem_cons, ← ih]
    cases pyInt E (.str key) with
    | error e =>
      constructor
      · rintro ⟨_, h⟩
        cases h
      · rintro ⟨⟨_, h, _⟩, _⟩
        cases h
    | ok cid =>
      by_cases hcid : cid ∈ ids
      · simp only [if_pos hcid]
        cases hvalue : pyInt E value with
        | error e =>
          constructor
          · rintro ⟨_, h⟩
            cases h
          · rintro ⟨⟨c, h, hn⟩, _⟩
            obtain ⟨n, hn⟩ := hn (Except.ok.inj h ▸ hcid)
            cases hn
        | ok n =>
          cases scoreItems E ids kvs with
          | error e =>
            constructor
            · rintro ⟨_, h⟩
              cases h
            · rintro ⟨_, _, h⟩
              cases h
          | ok ns => exact ⟨fun _ => ⟨⟨cid, rfl, fun _ => ⟨n, rfl⟩⟩, ns, rfl⟩, fun _ => ⟨_, rfl⟩⟩
      · simp only [if_neg hcid]
        exact ⟨fun h => ⟨⟨cid, rfl, fun h => absurd h hcid⟩, h⟩, fun h => h.2⟩

/-- What `selection.items()` and the two `int` can do. -/
theorem scoresOf_ok {ids : List ℤ} {s : Json} :
    (∃ r, scoresOf E ids s = .ok r) ↔ s.falsy = true ∨ Scorable E ids s := by
  unfold scoresOf
  by_cases hfalsy : s.falsy = true
  · rw [if_pos hfalsy]
    exact iff_of_true ⟨_, rfl⟩ (Or.inl hfalsy)
  · rw [if_neg hfalsy, or_iff_right hfalsy]
    cases s with
    | obj kvs =>
      refine Iff.trans ?_ scoreItems_ok
      dsimp only
      cases scoreItems E ids kvs with
      | error e => exact ⟨fun ⟨_, h⟩ => (nomatch h), fun ⟨_, h⟩ => nomatch h⟩
      | ok r => exact ⟨fun _ => ⟨r, rfl⟩, fun _ => ⟨some r, rfl⟩⟩
    | null | bool _ | int _ | float _ | str _ | arr _ => exact ⟨fun ⟨_, h⟩ => (nomatch h), False.elim⟩

theorem readAll_ok {α : Type} {f : Json → Except Failure α} {xs : List Json} :
    (∃ ys, readAll f xs = .ok ys) ↔ ∀ x ∈ xs, ∃ y, f x = .ok y := by
  induction xs with
  | nil => exact ⟨fun _ _ hx => absurd hx List.not_mem_nil, fun _ => ⟨[], rfl⟩⟩
  | cons x xs ih =>
    unfold readAll
    rw [List.forall_mem_cons, ← ih]
    cases f x with
    | error e =>
      constructor
      · rintro ⟨_, h⟩
        cases h
      · rintro ⟨⟨_, h⟩, _⟩
        cases h
    | ok y =>
      cases readAll f xs with
      | error e =>
        constructor
        · rintro ⟨_, h⟩
          cases h
        · rintro ⟨_, _, h⟩
          cases h
      | ok ys => exact ⟨fun _ => ⟨⟨y, rfl⟩, ys, rfl⟩, fun _ => ⟨_, rfl⟩⟩

theorem map_ok {α β : Type} {f : α → β} {x : Except Failure α} : (∃ y, x.map f = .ok y) ↔ ∃ y, x = .ok y := by
  cases x with
  | error e => exact ⟨fun ⟨_, h⟩ => (nomatch h), fun ⟨_, h⟩ => nomatch h⟩
  | ok y => exact ⟨fun _ => ⟨y, rfl⟩, fun _ => ⟨f y, rfl⟩⟩

theorem map_eq_ok {α β : Type} {f : α → β} {x : Except Failure α} {y : β} :
    x.map f = .ok y ↔ ∃ a, x = .ok a ∧ f a = y := by
  cases x with
  | error e => exact ⟨fun h => (nomatch h), fun ⟨_, h, _⟩ => nomatch h⟩
  | ok a => exact ⟨fun h => ⟨a, rfl, Except.ok.inj h⟩, fun ⟨b, hb, hy⟩ => by rw [Except.ok.inj hb, ← hy]; rfl⟩

/-- **A position is tallied** exactly where each of its selections has the shape
its count takes. -/
theorem tallyPosition_ok {spec : PositionSpec} {selections : List Json} {seed : String} :
    (∃ r, tallyPosition E spec selections seed = .ok r) ↔ ∀ s ∈ selections, Shape E spec s := by
  unfold tallyPosition
  rw [map_ok]
  unfold tallyOutcome Shape
  cases spec.ballotType with
  | REFERENDUM => exact iff_of_true ⟨_, rfl⟩ fun _ _ => Or.inr trivial
  | SCORE =>
    dsimp only
    rw [map_ok, readAll_ok]
    exact forall₂_congr fun _ _ => scoresOf_ok
  | _ =>
    dsimp only
    rw [map_ok, readAll_ok]
    exact forall₂_congr fun _ _ => choicesOf_ok

end Reading

/-! ### The totals of a score -/

/-- What a selection gives to a candidate. -/
def given (E : Env) (cid : ℤ) : Json → ℤ
  | .obj kvs =>
    (kvs.map fun kv =>
      match pyInt E (.str kv.1), pyInt E kv.2 with
      | .ok c, .ok n => if c = cid then n else 0
      | _, _ => 0).sum
  | _ => 0

/-- What the selections give to it, and how many of them are no abstentions. -/
def totalOf (E : Env) (selections : List Json) (cid : ℤ) : ℤ := (selections.map (given E cid)).sum

def validOf (selections : List Json) : ℕ := (selections.filter fun s => !s.falsy).length

/-- The floats of the position's totals can be made. -/
def InRange (E : Env) (spec : PositionSpec) (selections : List Json) : Prop :=
  ∀ c ∈ spec.candidates, ¬ Overflows spec.maxScore (validOf selections) (totalOf E selections c.id)

section Totals

variable {E : Env} {ids : List ℤ}

theorem scoreItems_given {cid : ℤ} (hcid : cid ∈ ids) : ∀ {kvs : List (String × Json)} {r : List (ℤ × ℤ)},
    scoreItems E ids kvs = .ok r → ((r.filter fun p => p.1 = cid).map (·.2)).sum = given E cid (.obj kvs)
  | [], _, h => by
    obtain rfl := Except.ok.inj h
    rfl
  | (key, value) :: kvs, r, h => by
    have hcons : given E cid (.obj ((key, value) :: kvs)) =
        (match pyInt E (.str key), pyInt E value with
          | .ok c, .ok n => if c = cid then n else 0
          | _, _ => 0) + given E cid (.obj kvs) := List.sum_cons
    rw [hcons]
    unfold scoreItems at h
    cases hkey : pyInt E (.str key) with
    | error e =>
      rw [hkey] at h
      cases h
    | ok c =>
      rw [hkey] at h
      dsimp only at h
      by_cases hc : c ∈ ids
      · rw [if_pos hc] at h
        cases hvalue : pyInt E value with
        | error e =>
          rw [hvalue] at h
          cases h
        | ok n =>
          cases hrest : scoreItems E ids kvs with
          | error e =>
            rw [hvalue, hrest] at h
            cases h
          | ok ns =>
            rw [hvalue, hrest] at h
            obtain rfl := Except.ok.inj h
            rw [← scoreItems_given hcid hrest]
            by_cases heq : c = cid <;> simp [heq]
      · have hne : c ≠ cid := fun heq => hc (heq ▸ hcid)
        rw [if_neg hc] at h
        rw [scoreItems_given hcid h]
        cases pyInt E value <;> simp [hne]

/-- A selection that is read gives what is read. -/
theorem scoresOf_given {cid : ℤ} (hcid : cid ∈ ids) {s : Json} {r : Option (List (ℤ × ℤ))}
    (h : scoresOf E ids s = .ok r) :
    (((r.getD []).filter fun p => p.1 = cid).map (·.2)).sum = given E cid s ∧ (r = none ↔ s.falsy = true) := by
  unfold scoresOf at h
  by_cases hfalsy : s.falsy = true
  · rw [if_pos hfalsy] at h
    obtain rfl := Except.ok.inj h
    refine ⟨?_, iff_of_true rfl hfalsy⟩
    cases s with
    | obj kvs =>
      rw [List.isEmpty_iff.mp hfalsy]
      rfl
    | null | bool _ | int _ | float _ | str _ | arr _ => rfl
  · rw [if_neg hfalsy] at h
    cases s with
    | obj kvs =>
      dsimp only at h
      cases hitems : scoreItems E ids kvs with
      | error e =>
        rw [hitems] at h
        cases h
      | ok items =>
        rw [hitems] at h
        obtain rfl := Except.ok.inj h
        exact ⟨scoreItems_given hcid hitems, iff_of_false (fun h => nomatch h) hfalsy⟩
    | null | bool _ | int _ | float _ | str _ | arr _ => cases h

theorem readAll_given {cid : ℤ} (hcid : cid ∈ ids) : ∀ {selections : List Json} {rs : List (Option (List (ℤ × ℤ)))},
    readAll (scoresOf E ids) selections = .ok rs →
      Seats.points rs cid = totalOf E selections cid ∧ (rs.filterMap id).length = validOf selections
  | [], _, h => by
    obtain rfl := Except.ok.inj h
    exact ⟨rfl, rfl⟩
  | s :: selections, rs, h => by
    obtain ⟨r, rest, hr, hrest, rfl⟩ := Rearranged.readAll_cons.mp h
    obtain ⟨hpoints, hvalid⟩ := readAll_given hcid hrest
    obtain ⟨hgiven, hnone⟩ := scoresOf_given hcid hr
    refine ⟨?_, ?_⟩
    · show (((r.getD []).filter fun p => p.1 = cid).map (·.2)).sum + Seats.points rest cid =
        given E cid s + totalOf E selections cid
      rw [hgiven, hpoints]
    · unfold validOf at hvalid ⊢
      rw [List.filterMap_cons, List.filter_cons]
      cases r with
      | none =>
        rw [if_neg (by simp [hnone.mp rfl])]
        exact hvalid
      | some r =>
        have hfalsy : ¬ s.falsy = true := fun hf => nomatch hnone.mpr hf
        rw [if_pos (by simpa using hfalsy)]
        exact congrArg (· + 1) hvalid

/-- A score that is read raises where one of its totals does. -/
theorem raises_score {spec : PositionSpec} {selections : List Json} {rs : List (Option (List (ℤ × ℤ)))} (seats : ℕ)
    (h : readAll (scoresOf E (spec.candidates.map (·.id))) selections = .ok rs) :
    (∃ row ∈ (score E rs spec.candidates seats spec.maxScore).candidates,
      Overflows spec.maxScore (rs.filterMap id).length row.votes) ↔ ¬ InRange E spec selections := by
  have hrows := Seats.score_rows E rs spec.candidates seats spec.maxScore
  have hvotes : (∃ row ∈ (score E rs spec.candidates seats spec.maxScore).candidates,
      Overflows spec.maxScore (rs.filterMap id).length row.votes) ↔
      ∃ c ∈ spec.candidates, Overflows spec.maxScore (rs.filterMap id).length (Seats.points rs c.id) := by
    constructor
    · rintro ⟨row, hrow, hover⟩
      obtain ⟨c, hc, heq⟩ := List.mem_map.mp (hrows.subset (List.mem_map_of_mem hrow))
      exact ⟨c, hc, (Prod.mk.inj heq).2 ▸ hover⟩
    · rintro ⟨c, hc, hover⟩
      obtain ⟨row, hrow, heq⟩ := List.mem_map.mp (hrows.symm.subset (List.mem_map_of_mem hc))
      exact ⟨row, hrow, (Prod.mk.inj heq).2 ▸ hover⟩
  rw [hvotes]
  unfold InRange
  push Not
  refine exists_congr fun c => and_congr_right fun hc => ?_
  obtain ⟨hpoints, hvalid⟩ := readAll_given (List.mem_map_of_mem hc) h
  rw [hpoints, hvalid]

/-- The floats of a position. -/
theorem raises_iff {spec : PositionSpec} {selections : List Json} {seed : String} {r : PositionTally}
    (h : tallyPosition E spec selections seed = .ok r) :
    Raises r ↔ spec.ballotType = .SCORE ∧ ¬ InRange E spec selections := by
  unfold tallyPosition at h
  cases houtcome : tallyOutcome E spec selections seed with
  | error failure =>
    rw [houtcome] at h
    cases h
  | ok outcome =>
    rw [houtcome] at h
    obtain rfl := Except.ok.inj h
    unfold tallyOutcome at houtcome
    cases hbt : spec.ballotType with
    | REFERENDUM =>
      rw [hbt] at houtcome
      obtain rfl := Except.ok.inj houtcome
      exact iff_of_false id fun h => nomatch h.1
    | SCORE =>
      rw [hbt] at houtcome
      dsimp only at houtcome
      cases hread : readAll (scoresOf E (spec.candidates.map (·.id))) selections with
      | error failure =>
        rw [hread] at houtcome
        cases houtcome
      | ok rs =>
        rw [hread] at houtcome
        obtain rfl := Except.ok.inj houtcome
        exact (raises_score _ hread).trans (and_iff_right rfl).symm
    | _ =>
      rw [hbt] at houtcome
      dsimp only at houtcome
      cases hread : readAll choicesOf selections with
      | error failure =>
        rw [hread] at houtcome
        cases houtcome
      | ok rs =>
        rw [hread] at houtcome
        obtain rfl := Except.ok.inj houtcome
        exact iff_of_false id fun h => nomatch h.1

end Totals

/-! ### The count -/

section Count

variable {E : Env} {db : Database} {e : ℕ} {ev : EventRow} {privateKey : String} {ballots : List (String × BallotRow)}
  {now : Time}

/-- The positions of the election, and its ballots as they open. -/
def specsOf (db : Database) (e : ℕ) : List PositionSpec := positionSpecs (categoriesOf db e) db

def openedOf (E : Env) (e : ℕ) (privateKey : String) (ballots : List (String × BallotRow)) : List Opened :=
  (decryptBallots E e privateKey ballots).1

/-- The ballots of a constituency. -/
def inConstituency (valid : List Opened) (constituency : ℕ) : List Opened :=
  valid.filter (·.constituencyId = some constituency)

/-- The constituency is not suppressed. -/
def Published (ev : EventRow) (specs : List PositionSpec) (valid : List Opened) (constituency : ℕ) : Prop :=
  ev.minAnonymitySet ≤ ((constituencyRows specs valid constituency).map (·.2.length)).foldr max 0

/-- **Ballots the count can take**: trackers in hex, selections of the shapes
their positions count, and totals of scores that floats can hold, of all
ballots and of each constituency that is published. -/
structure Countable (E : Env) (db : Database) (e : ℕ) (ev : EventRow) (privateKey : String)
    (ballots : List (String × BallotRow)) : Prop where
  trackers : ∀ b ∈ ballots, (fromHex b.2.tracker).isSome
  shapes : ∀ spec ∈ specsOf db e, ∀ s ∈ selectionsFor (openedOf E e privateKey ballots) spec, Shape E spec s
  totals : ∀ spec ∈ specsOf db e, spec.ballotType = .SCORE →
    InRange E spec (selectionsFor (openedOf E e privateKey ballots) spec)
  constituencies : ev.recordConstituencyOnBallot = true → ∀ c,
    Published ev (specsOf db e) (openedOf E e privateKey ballots) c → ∀ spec ∈ specsOf db e,
    spec.ballotType = .SCORE → InRange E spec (selectionsFor (inConstituency (openedOf E e privateKey ballots) c) spec)

/-- The rows of the tally, of all ballots. -/
def rowsOf (E : Env) (db : Database) (e : ℕ) (privateKey : String) (ballots : List (String × BallotRow)) :
    List (PositionSpec × List Json) :=
  (specsOf db e).map fun spec =>
    (spec, selectionsFor (openedOf E e privateKey ballots) spec ++ legacySelections (legacyVotes db e) spec)

/-- The parts of a count, each of which can raise. -/
theorem compute_ok {t : InstitutionalTally} (h : computeInstitutionalTally E db e ev privateKey ballots now = .ok t) :
    (∃ results, tallyAll E (toString e) (rowsOf E db e privateKey ballots) = .ok results ∧
      t.positions.map (·.1) = results) ∧
    (if ev.recordConstituencyOnBallot then
      constituencyTallies E db ev (toString e) (specsOf db e) (openedOf E e privateKey ballots)
        (constituencyIds (specsOf db e) (openedOf E e privateKey ballots)) else .ok []) = .ok t.constituencies ∧
    (∃ root, merkleRoot E.sha256Bytes (trackers (decryptBallots E e privateKey ballots)) = some root) ∧
    t.turnout.ballotsCounted = (decryptBallots E e privateKey ballots).1.length ∧
    t.turnout.invalidBallots = (decryptBallots E e privateKey ballots).2.length := by
  unfold computeInstitutionalTally at h
  dsimp only at h
  split at h
  · cases h
  · rename_i results hresults
    split at h
    · cases h
    · rename_i constituencies hconstituencies
      split at h
      · cases h
      · rename_i root hroot
        rw [← Except.ok.inj h]
        refine ⟨⟨results, hresults, ?_⟩, hconstituencies, ⟨root, hroot⟩, rfl, rfl⟩
        rw [List.map_map]
        exact List.map_id results

theorem exists_compute {results : List PositionTally} {entries : List ConstituencyTally} {root : String}
    (hresults : tallyAll E (toString e) (rowsOf E db e privateKey ballots) = .ok results)
    (hentries : (if ev.recordConstituencyOnBallot then
      constituencyTallies E db ev (toString e) (specsOf db e) (openedOf E e privateKey ballots)
        (constituencyIds (specsOf db e) (openedOf E e privateKey ballots)) else .ok []) = .ok entries)
    (hroot : merkleRoot E.sha256Bytes (trackers (decryptBallots E e privateKey ballots)) = some root) :
    ∃ t, computeInstitutionalTally E db e ev privateKey ballots now = .ok t := by
  unfold rowsOf specsOf openedOf at hresults
  unfold specsOf openedOf at hentries
  unfold computeInstitutionalTally
  dsimp only
  rw [hresults]
  dsimp only
  rw [hentries]
  dsimp only
  rw [hroot]
  exact ⟨_, rfl⟩

/-- Each row is valid or invalid. -/
theorem length_decryptBallots (E : Env) (e : ℕ) (privateKey : String) (ballots : List (String × BallotRow)) :
    (decryptBallots E e privateKey ballots).1.length + (decryptBallots E e privateKey ballots).2.length =
      ballots.length := by
  unfold decryptBallots
  induction ballots with
  | nil => rfl
  | cons b ballots ih =>
    dsimp only at ih ⊢
    rw [List.filterMap_cons, List.filter_cons]
    cases openBallot E e privateKey b.2 with
    | none =>
      simp only [Option.map_none, Option.isNone_none, if_true, List.map_cons, List.length_cons]
      omega
    | some s =>
      simp only [Option.map_some, Option.isNone_some, Bool.false_eq_true, if_false, List.length_cons]
      omega

/-- The trackers of the board are those of the rows. -/
theorem mem_trackers {v : String} :
    v ∈ trackers (decryptBallots E e privateKey ballots) ↔ ∃ b ∈ ballots, b.2.tracker = v := by
  rw [trackers, List.mem_insertionSort, List.mem_append, valid_eq_counted]
  simp only [decryptBallots, counted, List.mem_map, List.mem_filter]
  constructor
  · rintro (⟨b, ⟨hb, -⟩, rfl⟩ | ⟨b, ⟨hb, -⟩, rfl⟩)
    · exact ⟨b, hb, rfl⟩
    · exact ⟨b, hb, rfl⟩
  · rintro ⟨b, hb, rfl⟩
    cases hopen : openBallot E e privateKey b.2 with
    | none => exact Or.inr ⟨b, ⟨hb, by rw [hopen]; rfl⟩, rfl⟩
    | some s => exact Or.inl ⟨b, ⟨hb, by rw [hopen]; rfl⟩, rfl⟩

/-- A score has no paid votes added. -/
theorem legacySelections_score {legacy : List (ℕ × ℕ)} {spec : PositionSpec} (h : spec.ballotType = .SCORE) :
    legacySelections legacy spec = [] := by
  unfold legacySelections
  exact if_neg fun hin => by simp [h] at hin

/-- A count is returned when no float is out of range. -/
theorem countBallots_ok {t : InstitutionalTally} :
    countBallots E db e ev privateKey ballots now = .ok t ↔
      computeInstitutionalTally E db e ev privateKey ballots now = .ok t ∧ ∀ r ∈ tallied t, ¬ Raises r := by
  unfold countBallots
  cases computeInstitutionalTally E db e ev privateKey ballots now with
  | error failure => exact ⟨fun h => (nomatch h), fun h => (nomatch h.1)⟩
  | ok t' =>
    dsimp only
    split
    · rename_i hraises
      obtain ⟨r, hr, hraise⟩ := hraises
      exact ⟨fun h => (nomatch h), fun ⟨h, hno⟩ => absurd hraise (hno r (Except.ok.inj h ▸ hr))⟩
    · rename_i hno
      refine ⟨fun h => ⟨h, fun r hr hraise => hno ⟨r, ?_, hraise⟩⟩, fun h => h.1⟩
      rw [Except.ok.inj h]
      exact hr

/-- The row of a constituency's position, if there is a ballot for it. -/
theorem mem_constituencyRows {specs : List PositionSpec} {valid : List Opened} {c : ℕ}
    {row : PositionSpec × List Json} :
    row ∈ constituencyRows specs valid c ↔
      row.1 ∈ specs ∧ row.2 = selectionsFor (inConstituency valid c) row.1 ∧ row.2 ≠ [] := by
  unfold constituencyRows inConstituency
  rw [List.mem_filter, List.mem_map, decide_eq_true_eq]
  constructor
  · rintro ⟨⟨spec, hspec, rfl⟩, hne⟩
    exact ⟨hspec, rfl, hne⟩
  · rintro ⟨hspec, hsel, hne⟩
    exact ⟨⟨row.1, hspec, by rw [← hsel]⟩, hne⟩

theorem mem_constituencyIds_of_row {specs : List PositionSpec} {valid : List Opened} {c : ℕ}
    {row : PositionSpec × List Json} (h : row ∈ constituencyRows specs valid c) : c ∈ constituencyIds specs valid := by
  obtain ⟨hspec, hsel, hne⟩ := mem_constituencyRows.mp h
  rw [hsel] at hne
  refine Suppression.mem_constituencyIds.mpr ⟨row.1, hspec, ?_⟩
  rw [← List.length_pos_iff, ← Suppression.length_selectionsFor_constituency]
  exact List.length_pos_iff.mpr hne

/-- A selection of a constituency is one of all. -/
theorem selectionsFor_sub {valid : List Opened} {spec : PositionSpec} {c : ℕ} {s : Json}
    (h : s ∈ selectionsFor (inConstituency valid c) spec) : s ∈ selectionsFor valid spec := by
  obtain ⟨b, hb, hs⟩ := List.mem_filterMap.mp h
  exact List.mem_filterMap.mpr ⟨b, (List.mem_filter.mp hb).1, hs⟩

theorem Countable.of_count {t : InstitutionalTally}
    (h : countBallots E db e ev privateKey ballots now = .ok t) : Countable E db e ev privateKey ballots := by
  obtain ⟨hcompute, hraises⟩ := countBallots_ok.mp h
  obtain ⟨⟨results, hresults, hpositions⟩, hconstituencies, hroot, -, -⟩ := compute_ok hcompute
  have hone : ∀ spec ∈ specsOf db e, ∃ r, ¬ Raises r ∧ tallyPosition E spec
      (selectionsFor (openedOf E e privateKey ballots) spec ++ legacySelections (legacyVotes db e) spec)
      (toString e) = .ok r := by
    intro spec hspec
    obtain ⟨r, hr, hok⟩ := exists_of_mem_left (tallyAll_eq_ok.mp hresults) _ (List.mem_map_of_mem hspec)
    exact ⟨r, hraises r (List.mem_append_left _ (hpositions ▸ hr)), hok⟩
  refine ⟨fun b hb => ?_, fun spec hspec s hs => ?_, fun spec hspec hscore => ?_, fun hrecord c hpublished spec hspec
    hscore => ?_⟩
  · exact (merkleRoot_isSome _).mp hroot _ (mem_trackers.mpr ⟨b, hb, rfl⟩)
  · obtain ⟨r, -, hok⟩ := hone spec hspec
    exact tallyPosition_ok.mp ⟨r, hok⟩ s (List.mem_append_left _ hs)
  · obtain ⟨r, hno, hok⟩ := hone spec hspec
    rw [legacySelections_score hscore, List.append_nil] at hok
    by_contra hrange
    exact hno ((raises_iff hok).mpr ⟨hscore, hrange⟩)
  · set row : PositionSpec × List Json :=
      (spec, selectionsFor (inConstituency (openedOf E e privateKey ballots) c) spec) with hrow
    by_cases hnone : row.2 = []
    · intro cand _ hover
      rw [show selectionsFor (inConstituency (openedOf E e privateKey ballots) c) spec = [] from hnone] at hover
      exact hover.1 rfl
    · have hin : row ∈ constituencyRows (specsOf db e) (openedOf E e privateKey ballots) c :=
        mem_constituencyRows.mpr ⟨hspec, rfl, hnone⟩
      rw [if_pos hrecord] at hconstituencies
      obtain ⟨entry, hentry, hok⟩ := exists_of_mem_left (constituencyTallies_eq_ok.mp hconstituencies) c
        (mem_constituencyIds_of_row hin)
      obtain ⟨-, ⟨hfew, -⟩ | ⟨-, rs, hrs, hsome⟩⟩ := constituencyTally_cases hok
      · exact absurd hpublished (not_le.mpr hfew)
      · obtain ⟨r, hr, hrow'⟩ := exists_of_mem_left (tallyAll_eq_ok.mp hrs) row hin
        by_contra hrange
        refine hraises r (List.mem_append_right _ (List.mem_flatMap.mpr ⟨entry, hentry, ?_⟩))
          ((raises_iff hrow').mpr ⟨hscore, hrange⟩)
        rw [hsome]
        exact hr

/-- No total of such ballots is out of range. -/
theorem Countable.in_range (h : Countable E db e ev privateKey ballots) {t : InstitutionalTally}
    (ht : computeInstitutionalTally E db e ev privateKey ballots now = .ok t) : ∀ r ∈ tallied t, ¬ Raises r := by
  intro r hr hraises
  obtain ⟨⟨results, hresults, hpositions⟩, hconstituencies, -⟩ := compute_ok ht
  rcases List.mem_append.mp hr with hr | hr
  · rw [hpositions] at hr
    obtain ⟨row, hrow, hok⟩ := exists_of_mem_right (tallyAll_eq_ok.mp hresults) r hr
    obtain ⟨spec, hspec, rfl⟩ := List.mem_map.mp hrow
    obtain ⟨hscore, hrange⟩ := (raises_iff hok).mp hraises
    rw [legacySelections_score hscore, List.append_nil] at hrange
    exact hrange (h.totals spec hspec hscore)
  · obtain ⟨entry, hentry, hr⟩ := List.mem_flatMap.mp hr
    by_cases hrecord : ev.recordConstituencyOnBallot = true
    · rw [if_pos hrecord] at hconstituencies
      obtain ⟨c, -, hok⟩ := exists_of_mem_right (constituencyTallies_eq_ok.mp hconstituencies) entry hentry
      obtain ⟨-, ⟨-, hnone⟩ | ⟨hpublished, rs, hrs, hsome⟩⟩ := constituencyTally_cases hok
      · rw [hnone] at hr
        exact absurd hr List.not_mem_nil
      · rw [hsome] at hr
        obtain ⟨row, hrow, hrow'⟩ := exists_of_mem_right (tallyAll_eq_ok.mp hrs) r hr
        obtain ⟨hspec, hsel, -⟩ := mem_constituencyRows.mp hrow
        obtain ⟨hscore, hrange⟩ := (raises_iff hrow').mp hraises
        rw [hsel] at hrange
        exact hrange (h.constituencies hrecord c hpublished _ hspec hscore)
    · rw [if_neg hrecord] at hconstituencies
      rw [← Except.ok.inj hconstituencies] at hentry
      exact absurd hentry List.not_mem_nil

theorem Countable.count (h : Countable E db e ev privateKey ballots) (now : Time) :
    ∃ t, countBallots E db e ev privateKey ballots now = .ok t := by
  have hshape : ∀ spec ∈ specsOf db e, ∀ s ∈ legacySelections (legacyVotes db e) spec, Shape E spec s := by
    intro spec _ s hs
    unfold legacySelections at hs
    split at hs
    · rename_i hkind
      obtain ⟨c, -, hs⟩ := List.mem_flatMap.mp hs
      rw [(List.mem_replicate.mp hs).2]
      refine Or.inr ?_
      have hlist : Listable (.arr [.int c.id]) := fun x hx => by
        rw [List.mem_singleton.mp hx]
        trivial
      cases hbt : spec.ballotType with
      | REFERENDUM => trivial
      | SCORE => simp [hbt] at hkind
      | _ => exact hlist
    · exact absurd hs List.not_mem_nil
  have hrow : ∀ row ∈ rowsOf E db e privateKey ballots, ∃ r, tallyPosition E row.1 row.2 (toString e) = .ok r := by
    intro row hrow
    obtain ⟨spec, hspec, rfl⟩ := List.mem_map.mp hrow
    refine tallyPosition_ok.mpr fun s hs => ?_
    rcases List.mem_append.mp hs with hs | hs
    · exact h.shapes spec hspec s hs
    · exact hshape spec hspec s hs
  have hconstituency : ∀ c ∈ constituencyIds (specsOf db e) (openedOf E e privateKey ballots), ∃ entry,
      constituencyTally E db ev (toString e) (constituencyRows (specsOf db e) (openedOf E e privateKey ballots) c) c =
        .ok entry := by
    intro c _
    have hrows : ∀ row ∈ constituencyRows (specsOf db e) (openedOf E e privateKey ballots) c,
        ∃ r, tallyPosition E row.1 row.2 (toString e) = .ok r := by
      intro row hrow
      obtain ⟨hspec, hsel, -⟩ := mem_constituencyRows.mp hrow
      refine tallyPosition_ok.mpr fun s hs => h.shapes _ hspec s ?_
      rw [hsel] at hs
      exact selectionsFor_sub hs
    obtain ⟨rs, hrs⟩ := exists_forall₂ hrows
    unfold constituencyTally
    dsimp only
    split
    · exact ⟨_, rfl⟩
    · rw [tallyAll_eq_ok.mpr hrs]
      exact ⟨_, rfl⟩
  obtain ⟨results, hresults⟩ := exists_forall₂ hrow
  obtain ⟨entries, hentries⟩ := exists_forall₂ hconstituency
  obtain ⟨root, hroot⟩ := (merkleRoot_isSome E.sha256Bytes).mpr fun v hv => by
    obtain ⟨b, hb, rfl⟩ := mem_trackers.mp hv
    exact h.trackers b hb
  have hall : ∃ entries, (if ev.recordConstituencyOnBallot then
      constituencyTallies E db ev (toString e) (specsOf db e) (openedOf E e privateKey ballots)
        (constituencyIds (specsOf db e) (openedOf E e privateKey ballots)) else .ok []) = .ok entries := by
    split
    · exact ⟨entries, constituencyTallies_eq_ok.mpr hentries⟩
    · exact ⟨[], rfl⟩
  obtain ⟨entries', hentries'⟩ := hall
  obtain ⟨t, ht⟩ : ∃ t, computeInstitutionalTally E db e ev privateKey ballots now = .ok t :=
    exists_compute (tallyAll_eq_ok.mpr hresults) hentries' hroot
  exact ⟨t, countBallots_ok.mpr ⟨ht, h.in_range ht⟩⟩

/-- **The count returns**, with each row valid or invalid, exactly on ballots it
can take. -/
theorem count_returns (E : Env) (db : Database) (e : ℕ) (ev : EventRow) (privateKey : String)
    (ballots : List (String × BallotRow)) (now : Time) :
    (∃ t, countBallots E db e ev privateKey ballots now = .ok t ∧
      t.turnout.ballotsCounted + t.turnout.invalidBallots = ballots.length) ↔
    Countable E db e ev privateKey ballots := by
  constructor
  · rintro ⟨t, ht, -⟩
    exact Countable.of_count ht
  · intro h
    obtain ⟨t, ht⟩ := h.count now
    obtain ⟨-, -, -, hvalid, hinvalid⟩ := compute_ok (countBallots_ok.mp ht).1
    exact ⟨t, ht, by rw [hvalid, hinvalid, length_decryptBallots]⟩

end Count

/-! ### A selection that is a number -/

/-- A ballot with a number where its position has a list. -/
def numbered : List (String × BallotRow) :=
  [("u", ⟨1, clear.sealTo "" "\x7b\"election\":1,\"selections\":\x7b\"1\":5\x7d\x7d" "1:00" "", "ab", "00", none⟩)]

/-- It is a ballot of the election, and the count raises for it. -/
theorem not_count_returns :
    ¬ ∀ (E : Env) (db : Database) (e : ℕ) (ev : EventRow) (privateKey : String) (ballots : List (String × BallotRow))
      (now : Time), ∃ t, countBallots E db e ev privateKey ballots now = .ok t ∧
        t.turnout.ballotsCounted + t.turnout.invalidBallots = ballots.length := by
  intro h
  obtain ⟨t, ht, -⟩ := h clear Suppression.twoUnits 1 Suppression.inTwos "" numbered 0
  have hraises : (countBallots clear Suppression.twoUnits 1 Suppression.inTwos "" numbered 0).toOption.isSome =
      false := by decide +kernel
  rw [ht] at hraises
  cases hraises

end Robust
end FlexyVotes
