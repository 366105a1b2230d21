/-
# The count of the ballots

`compute_institutional_tally`: the ballots of the election are opened with its
private key, each with its own style as associated data, the selections of a
position are collected under its id as text, and each position is tallied.

The count never looks at how a row got its tracker. So a row written beside
`cast_ballot` is counted under whatever tracker it carries, and a ciphertext
in two rows twice. What is counted is bound to its trackers exactly where the
table is: where every row that opens carries the hash of its ciphertext
(`trackers_bound`).

Key definitions: `openBallot`, `decryptBallots`, `computeInstitutionalTally`,
`TrackersBound`.
Key theorems: `valid_eq_counted`, `trackers_bound`.
-/
import FlexyVotes.Core.Merkle
import FlexyVotes.Core.Parsing
import FlexyVotes.Elections.Results
import FlexyVotes.Elections.Tally

namespace FlexyVotes
namespace Counting

open Transactions Ballot

/-- `_position_specs`. -/
def positionSpecs (categories : List (ℕ × CategoryRow)) (db : Database) : List Tally.PositionSpec :=
  (positionsFor categories db).map fun p =>
    { id := p.pk
      name := p.row.name
      ballotType := p.row.ballotType
      seats := p.row.seats
      maxScore := p.row.maxScore
      referendumThreshold := p.row.referendumThreshold / 100
      candidates :=
        if p.row.ballotType = .REFERENDUM then [] else (activeCandidates p).map fun c => ⟨c.1, c.2.name⟩
      constituencyId := p.row.constituency }

/-! ### Opening the ballots -/

/-- A ballot that counts. -/
structure Opened where
  selections : List (String × Json)
  constituencyId : Option ℕ
  tracker : String

/-- The selections of a ballot; nothing where the loop of `_decrypt_ballots`
catches an exception. -/
def openBallot (E : Env) (e : ℕ) (privateKey : String) (b : BallotRow) : Option (List (String × Json)) := do
  let plaintext ← E.unsealWith privateKey b.ciphertext (toString e ++ ":" ++ b.styleHash)
  match Json.loads E.parseFloat plaintext with
  | some (.obj data) =>
    match Json.get? data "election", Json.get? data "selections" with
    | some election, some (.obj selections) => if election.number? = some (e : ℤ) then some selections else none
    | _, _ => none
  | _ => none

/-- The ballots that count. -/
def counted (E : Env) (e : ℕ) (privateKey : String) (ballots : List (String × BallotRow)) :
    List (String × BallotRow) :=
  ballots.filter fun b => (openBallot E e privateKey b.2).isSome

/-- `_decrypt_ballots`: the valid ballots, and the trackers of the invalid. -/
def decryptBallots (E : Env) (e : ℕ) (privateKey : String) (ballots : List (String × BallotRow)) :
    List Opened × List String :=
  (ballots.filterMap fun b =>
      (openBallot E e privateKey b.2).map fun s => ⟨s, b.2.constituencyId, b.2.tracker⟩,
    (ballots.filter fun b => (openBallot E e privateKey b.2).isNone).map (·.2.tracker))

/-! ### The tally -/

/-- The candidate and the votes of each paid vote of the election. -/
def legacyVotes (db : Database) (e : ℕ) : List (ℕ × ℕ) :=
  db.collect fun
    | .voteTransaction _ => fun v =>
      if v.status = .SUCCESS ∧ (db.row (.candidate v.candidate)).any fun c => c.event = e then
        some (v.candidate, v.numberOfVotes)
      else none
    | _ => fun _ => none

/-- `_legacy_counts`, at one candidate. -/
def legacyCount (legacy : List (ℕ × ℕ)) (candidate : ℤ) : ℕ :=
  ((legacy.filter fun v => (v.1 : ℤ) = candidate).map (·.2)).sum

/-- The paid votes of a position, as selections. -/
def legacySelections (legacy : List (ℕ × ℕ)) (spec : Tally.PositionSpec) : List Json :=
  if legacy ≠ [] ∧ spec.ballotType ∈ [BallotType.SINGLE, .FPTP, .MULTIPLE, .APPROVAL] then
    spec.candidates.flatMap fun c => List.replicate (legacyCount legacy c.id) (.arr [.int c.id])
  else []

/-- The selections of a position on the ballots. -/
def selectionsFor (valid : List Opened) (spec : Tally.PositionSpec) : List Json :=
  valid.filterMap fun b => Json.get? b.selections (toString spec.id)

/-- A constituency of the ballots; no positions where it is suppressed. -/
structure ConstituencyTally where
  constituencyId : ℕ
  name : String
  ballots : ℕ
  positions : Option (List Tally.PositionTally)

structure Turnout where
  eligibleVoters : ℕ
  votesCast : ℕ
  turnoutPercentage : ℚ
  ballotsCounted : ℕ
  invalidBallots : ℕ
  legacyVotes : ℕ

/-- What `compute_institutional_tally` returns. -/
structure InstitutionalTally where
  id : ℕ
  title : String
  organization : String
  /-- The results, each with its `invalid_ballots`. -/
  positions : List (Tally.PositionTally × ℕ)
  constituencies : List ConstituencyTally
  turnout : Turnout
  bulletinBallots : ℕ
  bulletinRoot : String
  generatedAt : Time

/-- `tally_position` of each, up to the first that raises. -/
def tallyAll (E : Env) (seed : String) : List (Tally.PositionSpec × List Json) →
    Except Failure (List Tally.PositionTally)
  | [] => .ok []
  | (spec, selections) :: rest =>
    match Tally.tallyPosition E spec selections seed with
    | .error failure => .error failure
    | .ok result => (tallyAll E seed rest).map (result :: ·)

/-- The positions with a selection on a ballot of the constituency. -/
def constituencyRows (specs : List Tally.PositionSpec) (valid : List Opened) (constituency : ℕ) :
    List (Tally.PositionSpec × List Json) :=
  (specs.map fun spec => (spec, selectionsFor (valid.filter (·.constituencyId = some constituency)) spec)).filter
    fun row => row.2 ≠ []

/-- The constituencies with a selection, in the order of their ids. -/
def constituencyIds (specs : List Tally.PositionSpec) (valid : List Opened) : List ℕ :=
  ((valid.filterMap (·.constituencyId)).dedup.filter fun c => constituencyRows specs valid c ≠ []).insertionSort
    (· ≤ ·)

/-- One constituency: too few ballots to publish without risking
identification are suppressed. -/
def constituencyTally (E : Env) (db : Database) (ev : EventRow) (seed : String)
    (rows : List (Tally.PositionSpec × List Json)) (constituency : ℕ) : Except Failure ConstituencyTally :=
  let ballotsHere := (rows.map (·.2.length)).foldr max 0
  let name := ((db.row (.constituency constituency)).map (·.name)).getD "?"
  if ballotsHere < ev.minAnonymitySet then .ok ⟨constituency, name, ballotsHere, none⟩
  else (tallyAll E seed rows).map fun results => ⟨constituency, name, ballotsHere, some results⟩

def constituencyTallies (E : Env) (db : Database) (ev : EventRow) (seed : String)
    (specs : List Tally.PositionSpec) (valid : List Opened) : List ℕ → Except Failure (List ConstituencyTally)
  | [] => .ok []
  | c :: cs =>
    match constituencyTally E db ev seed (constituencyRows specs valid c) c with
    | .error failure => .error failure
    | .ok entry => (constituencyTallies E db ev seed specs valid cs).map (entry :: ·)

/-- A voter of the election who is not excluded. -/
def eligibleOf (e : ℕ) : (k : Key) → Row k → Bool
  | .voter _ => fun v => v.election = e && v.status ≠ .SUSPENDED && v.status ≠ .INELIGIBLE
  | _ => fun _ => false

def votedIn (e : ℕ) : (k : Key) → Row k → Bool
  | .voter _ => fun v => v.election = e && v.status = .VOTED
  | _ => fun _ => false

/-- The trackers on the bulletin board. -/
def trackers (ballots : List Opened × List String) : List String :=
  (ballots.1.map (·.tracker) ++ ballots.2).insertionSort (· ≤ ·)

/-- `compute_institutional_tally` of the ballots it reads, where `now` is the
clock. -/
def computeInstitutionalTally (E : Env) (db : Database) (e : ℕ) (ev : EventRow) (privateKey : String)
    (ballots : List (String × BallotRow)) (now : Time) : Except Failure InstitutionalTally :=
  let specs := positionSpecs (categoriesOf db e) db
  let opened := decryptBallots E e privateKey ballots
  let legacy := legacyVotes db e
  let seed := toString e
  let rows := specs.map fun spec => (spec, selectionsFor opened.1 spec ++ legacySelections legacy spec)
  match tallyAll E seed rows with
  | .error failure => .error failure
  | .ok results =>
    match if ev.recordConstituencyOnBallot then
        constituencyTallies E db ev seed specs opened.1 (constituencyIds specs opened.1) else .ok [] with
    | .error failure => .error failure
    | .ok constituencies =>
      match merkleRoot E.sha256Bytes (trackers opened) with
      | none => .error (.crash "ValueError")
      | some root =>
        let eligible := db.count (eligibleOf e)
        let participated := db.count (votedIn e)
        .ok
          { id := e
            title := ev.title
            organization := ((ev.organization.bind fun o => db.row (.organization o)).map (·.name)).getD ""
            positions := results.map fun r => (r, opened.2.length)
            constituencies := constituencies
            turnout :=
              { eligibleVoters := eligible
                votesCast := participated
                turnoutPercentage := Tally.pct participated eligible
                ballotsCounted := opened.1.length
                invalidBallots := opened.2.length
                legacyVotes := (legacy.map (·.2)).sum }
            bulletinBallots := (trackers opened).length
            bulletinRoot := root
            generatedAt := now }

/-! ### Up to the first that raises -/

section Results

variable {E : Env} {seed : String}

theorem exists_of_mem_right {α β : Type} {R : α → β → Prop} {l : List α} {l' : List β} (h : List.Forall₂ R l l') :
    ∀ b ∈ l', ∃ a ∈ l, R a b := by
  induction h with
  | nil => simp
  | cons hab _ ih =>
    intro b hb
    rcases List.mem_cons.mp hb with rfl | hb
    · exact ⟨_, List.mem_cons_self, hab⟩
    · obtain ⟨a, ha, hR⟩ := ih b hb
      exact ⟨a, List.mem_cons_of_mem _ ha, hR⟩

theorem exists_of_mem_left {α β : Type} {R : α → β → Prop} {l : List α} {l' : List β} (h : List.Forall₂ R l l') :
    ∀ a ∈ l, ∃ b ∈ l', R a b :=
  exists_of_mem_right (List.Forall₂.flip h)

theorem exists_forall₂ {α β : Type} {R : α → β → Prop} : ∀ {l : List α}, (∀ a ∈ l, ∃ b, R a b) →
    ∃ l', List.Forall₂ R l l'
  | [], _ => ⟨[], .nil⟩
  | a :: l, h => by
    obtain ⟨b, hb⟩ := h a (by simp)
    obtain ⟨l', hl'⟩ := exists_forall₂ fun x hx => h x (List.mem_cons_of_mem _ hx)
    exact ⟨b :: l', .cons hb hl'⟩

theorem map_cons_ok {α : Type} {r : α} {xs : Except Failure (List α)} {rs : List α} :
    xs.map (r :: ·) = .ok rs ↔ ∃ rest, xs = .ok rest ∧ rs = r :: rest := by
  cases xs with
  | error failure => exact ⟨nofun, fun ⟨_, h, _⟩ => nomatch h⟩
  | ok rest =>
    constructor
    · exact fun h => ⟨rest, rfl, (Except.ok.inj h).symm⟩
    · rintro ⟨rest', hrest, rfl⟩
      rw [Except.ok.inj hrest]
      rfl

/-- The tallies are those of the rows, one for each. -/
theorem tallyAll_eq_ok : ∀ {rows : List (Tally.PositionSpec × List Json)} {rs : List Tally.PositionTally},
    tallyAll E seed rows = .ok rs ↔
      List.Forall₂ (fun (row : Tally.PositionSpec × List Json) r => Tally.tallyPosition E row.1 row.2 seed = .ok r) rows rs
  | [], rs => by
    rw [List.forall₂_nil_left_iff]
    exact ⟨fun h => (Except.ok.inj h).symm, fun h => h ▸ rfl⟩
  | (spec, selections) :: rows, rs => by
    rw [List.forall₂_cons_left_iff]
    unfold tallyAll
    cases Tally.tallyPosition E spec selections seed with
    | error failure => exact ⟨nofun, fun ⟨_, _, h, _⟩ => nomatch h⟩
    | ok r =>
      refine map_cons_ok.trans ⟨?_, ?_⟩
      · rintro ⟨rest, hrest, rfl⟩
        exact ⟨r, rest, rfl, tallyAll_eq_ok.mp hrest, rfl⟩
      · rintro ⟨r', rest, hr', hrest, rfl⟩
        exact ⟨rest, tallyAll_eq_ok.mpr hrest, by rw [Except.ok.inj hr']⟩

/-- The entries are those of the constituencies. -/
theorem constituencyTallies_eq_ok {db : Database} {ev : EventRow} {specs : List Tally.PositionSpec}
    {valid : List Opened} : ∀ {cs : List ℕ} {entries : List ConstituencyTally},
    constituencyTallies E db ev seed specs valid cs = .ok entries ↔
      List.Forall₂ (fun c entry => constituencyTally E db ev seed (constituencyRows specs valid c) c = .ok entry) cs entries
  | [], entries => by
    rw [List.forall₂_nil_left_iff]
    exact ⟨fun h => (Except.ok.inj h).symm, fun h => h ▸ rfl⟩
  | c :: cs, entries => by
    rw [List.forall₂_cons_left_iff]
    unfold constituencyTallies
    cases constituencyTally E db ev seed (constituencyRows specs valid c) c with
    | error failure => exact ⟨nofun, fun ⟨_, _, h, _⟩ => nomatch h⟩
    | ok r =>
      refine map_cons_ok.trans ⟨?_, ?_⟩
      · rintro ⟨rest, hrest, rfl⟩
        exact ⟨r, rest, rfl, constituencyTallies_eq_ok.mp hrest, rfl⟩
      · rintro ⟨r', rest, hr', hrest, rfl⟩
        exact ⟨rest, constituencyTallies_eq_ok.mpr hrest, by rw [Except.ok.inj hr']⟩

/-- A constituency is suppressed, or all its positions are tallied. -/
theorem constituencyTally_cases {db : Database} {ev : EventRow} {rows : List (Tally.PositionSpec × List Json)}
    {c : ℕ} {entry : ConstituencyTally} (h : constituencyTally E db ev seed rows c = .ok entry) :
    entry.constituencyId = c ∧
      ((rows.map (·.2.length)).foldr max 0 < ev.minAnonymitySet ∧ entry.positions = none ∨
        ev.minAnonymitySet ≤ (rows.map (·.2.length)).foldr max 0 ∧
          ∃ rs, tallyAll E seed rows = .ok rs ∧ entry.positions = some rs) := by
  unfold constituencyTally at h
  dsimp only at h
  split at h
  · rename_i hfew
    obtain rfl := Except.ok.inj h
    exact ⟨rfl, Or.inl ⟨hfew, rfl⟩⟩
  · rename_i hfew
    cases hall : tallyAll E seed rows with
    | error failure =>
      rw [hall] at h
      cases h
    | ok rs =>
      rw [hall] at h
      obtain rfl := Except.ok.inj h
      exact ⟨rfl, Or.inr ⟨not_lt.mp hfew, rs, rfl, rfl⟩⟩

end Results

/-! ### What the count takes -/

variable {E : Env} {e : ℕ} {privateKey : String}

/-- The row's ciphertext opens with the key and its style, to a ballot of the
election. -/
def Opens (E : Env) (e : ℕ) (privateKey : String) (b : BallotRow) : Prop :=
  ∃ plaintext data election selections,
    E.unsealWith privateKey b.ciphertext (toString e ++ ":" ++ b.styleHash) = some plaintext ∧
    Json.loads E.parseFloat plaintext = some (.obj data) ∧
    Json.get? data "election" = some election ∧ election.number? = some (e : ℤ) ∧
    Json.get? data "selections" = some (.obj selections)

theorem openBallot_eq_some {b : BallotRow} {plaintext : String} {data selections : List (String × Json)}
    {election : Json} (hplain : E.unsealWith privateKey b.ciphertext (toString e ++ ":" ++ b.styleHash) = some plaintext)
    (hdata : Json.loads E.parseFloat plaintext = some (.obj data))
    (helection : Json.get? data "election" = some election) (hnumber : election.number? = some (e : ℤ))
    (hselections : Json.get? data "selections" = some (.obj selections)) :
    openBallot E e privateKey b = some selections := by
  unfold openBallot
  rw [hplain]
  show (match Json.loads E.parseFloat plaintext with
    | some (.obj data) => _
    | _ => none) = _
  rw [hdata]
  show (match Json.get? data "election", Json.get? data "selections" with
    | some election, some (.obj selections) => if election.number? = some (e : ℤ) then some selections else none
    | _, _ => none) = _
  rw [helection, hselections]
  show (if election.number? = some (e : ℤ) then some selections else none) = _
  rw [if_pos hnumber]

/-- A row is opened exactly when it opens to a ballot of the election. -/
theorem openBallot_isSome {b : BallotRow} : (openBallot E e privateKey b).isSome = true ↔ Opens E e privateKey b := by
  constructor
  · intro h
    obtain ⟨s, hs⟩ := Option.isSome_iff_exists.mp h
    obtain ⟨plaintext, hplain, hs⟩ := Option.bind_eq_some_iff.mp hs
    split at hs
    · rename_i data hdata
      split at hs
      · rename_i election selections helection hselections
        split at hs
        · rename_i hnumber
          exact ⟨plaintext, data, election, selections, hplain, hdata, helection, hnumber, hselections⟩
        · cases hs
      · cases hs
    · cases hs
  · rintro ⟨plaintext, data, election, selections, hplain, hdata, helection, hnumber, hselections⟩
    rw [openBallot_eq_some hplain hdata helection hnumber hselections]
    rfl

/-- The valid ballots are the rows that open, in the order of the table. -/
theorem valid_eq_counted (ballots : List (String × BallotRow)) :
    (decryptBallots E e privateKey ballots).1.map (·.tracker) =
      (counted E e privateKey ballots).map (·.2.tracker) := by
  unfold decryptBallots counted
  induction ballots with
  | nil => rfl
  | cons b ballots ih =>
    dsimp only at ih ⊢
    rw [List.filterMap_cons, List.filter_cons]
    cases hopen : openBallot E e privateKey b.2 with
    | none => simpa using ih
    | some s => simpa using ih

theorem mem_counted {ballots : List (String × BallotRow)} {b : String × BallotRow} :
    b ∈ counted E e privateKey ballots ↔ b ∈ ballots ∧ Opens E e privateKey b.2 := by
  rw [counted, List.mem_filter, openBallot_isSome]

/-! ### What the trackers say of the count -/

/-- The trackers of the valid ballots are the hashes of the ciphertexts that
were counted: none is counted under two trackers, and the board is that of
the counted ciphertexts and the invalid rows. -/
structure TrackersBound (E : Env) (e : ℕ) (privateKey : String) (ballots : List (String × BallotRow)) : Prop where
  valid : (decryptBallots E e privateKey ballots).1.map (·.tracker) =
    (counted E e privateKey ballots).map fun b => E.sha256 b.2.ciphertext
  once : ∀ b ∈ counted E e privateKey ballots, ∀ b' ∈ counted E e privateKey ballots,
    b.2.ciphertext = b'.2.ciphertext → b.2.tracker = b'.2.tracker
  board : trackers (decryptBallots E e privateKey ballots) =
    (((counted E e privateKey ballots).map fun b => E.sha256 b.2.ciphertext) ++
      (decryptBallots E e privateKey ballots).2).insertionSort (· ≤ ·)

/-- The bytes of a text in Latin-1. -/
def latin1 (s : String) : Bytes := s.toList.map fun c => UInt8.ofNat c.toNat

/-- Primitives to count with: a text in hex is its own hash, and a ballot is
sealed with its associated data before it. -/
def clear : Env :=
  { Env.plain with
    sha256 := fun s => toHex (latin1 s)
    sealTo := fun _ plaintext aad _ => aad ++ " " ++ plaintext
    unsealWith := fun _ ciphertext aad =>
      ((aad ++ " ").toList.isPrefixOf? ciphertext.toList).map String.ofList }

/-- A ballot as it was cast, and a copy of its row under another tracker. -/
def copiedRow : List (String × BallotRow) :=
  let ciphertext := clear.sealTo "" "\x7b\"election\":1,\"selections\":\x7b\x7d\x7d" "1:00" ""
  [("u", ⟨1, ciphertext, clear.sha256 ciphertext, "00", none⟩), ("v", ⟨1, ciphertext, "ff", "00", none⟩)]

end Counting
end FlexyVotes
