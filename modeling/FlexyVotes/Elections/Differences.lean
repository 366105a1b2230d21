/-
# What a recount reports

`_differences` goes through the positions of the recount, and of each through
its candidates, and looks up under the text of an id what the official result
has there. So what only the official result has is never looked at: a position
or a candidate the recount lacks goes unreported, as does an id that is a
number on one side and text on the other.

A difference is reported exactly where it shows in the recount
(`differences_eq_nil`), and so the comparison is right of two documents that
differ in what shows, or where nothing else can (`differences_exact`).

Key definitions: `ResultDocument`, `differences`, `Distinct`, `Same`, `Shown`,
`Covered`.
Key theorems: `differences_eq_nil`, `differences_exact`, `documentOf_distinct`,
`paidDocumentOf_distinct`.
-/
import FlexyVotes.Elections.Paid
import FlexyVotes.Elections.Robust
import FlexyVotes.Elections.Rounds
import FlexyVotes.Elections.Votable

namespace FlexyVotes
namespace Differences

/-! ### Two documents, and how they are compared -/

/-- An id in a result: a primary key, the word for a choice of a referendum, or
nothing, for the contestants without a category. -/
inductive DocId
  | none
  | int (n : ℤ)
  | str (s : String)
  deriving DecidableEq, Repr

/-- `str`. -/
def DocId.text : DocId → String
  | .none => "None"
  | .int n => toString n
  | .str s => s

/-- A candidate of a position, as far as it is compared. -/
structure CandidateDoc where
  candidateId : DocId
  name : String
  votes : ℤ
  deriving DecidableEq, Repr

structure PositionDoc where
  positionId : DocId
  position : String
  candidates : List CandidateDoc
  winners : List DocId
  deriving DecidableEq, Repr

/-- The `positions` of a result document. -/
abbrev ResultDocument := List PositionDoc

/-- An entry of the report. -/
inductive Difference
  | missing (position : String)
  | votes (position candidate : String) (official : Option ℤ) (recount : ℤ)
  | winners (position : String)
  deriving DecidableEq, Repr

/-- `{str(id of x): x for x in xs}.get(key)`: the last that is put under the key. -/
def lookup {α : Type} (idOf : α → DocId) (xs : List α) (key : String) : Option α :=
  xs.reverse.find? fun x => (idOf x).text = key

/-- `sorted(map(str, ids))`. -/
def sortedTexts (ids : List DocId) : List String := (ids.map DocId.text).insertionSort (· ≤ ·)

/-- The entries for the candidates of a position. -/
def candidateDifferences (before position : PositionDoc) : List Difference :=
  position.candidates.filterMap fun candidate =>
    let old := (lookup CandidateDoc.candidateId before.candidates candidate.candidateId.text).map (·.votes)
    if old ≠ some candidate.votes then some (.votes position.position candidate.name old candidate.votes) else none

/-- The entries for a position of the recount. -/
def positionDifferences (official : ResultDocument) (position : PositionDoc) : List Difference :=
  match lookup PositionDoc.positionId official position.positionId.text with
  | none => [.missing position.position]
  | some before =>
    candidateDifferences before position ++
      if sortedTexts before.winners ≠ sortedTexts position.winners then [.winners position.position] else []

/-- `_differences`. -/
def differences (official recount : ResultDocument) : List Difference :=
  recount.flatMap (positionDifferences official)

/-! ### Documents that can be compared -/

/-- The ids of a list are told apart by their texts. -/
def Apart (ids : List DocId) : Prop := (ids.map DocId.text).Nodup

instance (ids : List DocId) : Decidable (Apart ids) := by unfold Apart; infer_instance

/-- Two rows of a position with one id give it the same votes: a ranked count
has two for a candidate who fills a remaining seat. -/
def OneCount (p : PositionDoc) : Prop :=
  ∀ c ∈ p.candidates, ∀ d ∈ p.candidates, c.candidateId.text = d.candidateId.text →
    c.candidateId = d.candidateId ∧ c.votes = d.votes

instance (p : PositionDoc) : Decidable (OneCount p) := by unfold OneCount; infer_instance

/-- The positions of the document have different ids, and so have the winners
of each. -/
structure Distinct (d : ResultDocument) : Prop where
  positions : Apart (d.map (·.positionId))
  candidates : ∀ p ∈ d, OneCount p
  winners : ∀ p ∈ d, Apart p.winners

/-- The documents have the same positions, the same candidates with the same
votes in each, and the same winners. -/
structure Same (official recount : ResultDocument) : Prop where
  positions : ∀ id, id ∈ official.map (·.positionId) ↔ id ∈ recount.map (·.positionId)
  candidates : ∀ p ∈ official, ∀ q ∈ recount, p.positionId = q.positionId → ∀ id votes,
    (∃ d ∈ p.candidates, d.candidateId = id ∧ d.votes = votes) ↔
      ∃ c ∈ q.candidates, c.candidateId = id ∧ c.votes = votes
  winners : ∀ p ∈ official, ∀ q ∈ recount, p.positionId = q.positionId → ∀ id, id ∈ p.winners ↔ id ∈ q.winners

/-- A position of the recount differs from the official one with its id. -/
def Differs (p q : PositionDoc) : Prop :=
  (∃ c ∈ q.candidates, ∀ d ∈ p.candidates, d.candidateId.text = c.candidateId.text → d.votes ≠ c.votes) ∨
    ¬ (p.winners.map DocId.text).Perm (q.winners.map DocId.text)

/-- A difference shows in the recount: a position the official result has not,
votes it has not, or other winners. -/
def Shown (official recount : ResultDocument) : Prop :=
  ∃ q ∈ recount, (∀ p ∈ official, p.positionId.text ≠ q.positionId.text) ∨
    ∃ p ∈ official, p.positionId.text = q.positionId.text ∧ Differs p q

/-- Ids that read the same are the same. -/
def Agree (ids ids' : List DocId) : Prop := ∀ a ∈ ids, ∀ b ∈ ids', a.text = b.text → a = b

/-- All positions of the official result and all candidates of each are in the
recount, and no id is of another kind there. -/
structure Covered (official recount : ResultDocument) : Prop where
  positions : ∀ p ∈ official, ∃ q ∈ recount, q.positionId = p.positionId ∧
    ∀ d ∈ p.candidates, d.candidateId ∈ q.candidates.map (·.candidateId)
  kinds : Agree (official.map (·.positionId)) (recount.map (·.positionId))
  within : ∀ p ∈ official, ∀ q ∈ recount, p.positionId = q.positionId →
    Agree (p.candidates.map (·.candidateId)) (q.candidates.map (·.candidateId)) ∧ Agree p.winners q.winners

section Comparison

variable {α : Type} {idOf : α → DocId} {xs : List α} {official recount : ResultDocument}

theorem Apart.inj (h : Apart (xs.map idOf)) {x y : α} (hx : x ∈ xs) (hy : y ∈ xs)
    (htext : (idOf x).text = (idOf y).text) : x = y := by
  unfold Apart at h
  rw [List.map_map] at h
  exact List.inj_on_of_nodup_map h hx hy htext

/-- What is looked up has the text. -/
theorem of_lookup {key : String} {x : α} (h : lookup idOf xs key = some x) : x ∈ xs ∧ (idOf x).text = key := by
  unfold lookup at h
  exact ⟨List.mem_reverse.mp (List.mem_of_find?_eq_some h), by simpa using List.find?_some h⟩

theorem lookup_eq_none {key : String} : lookup idOf xs key = none ↔ ∀ x ∈ xs, (idOf x).text ≠ key := by
  unfold lookup
  rw [List.find?_eq_none]
  simp

theorem sortedTexts_eq {ids ids' : List DocId} :
    sortedTexts ids = sortedTexts ids' ↔ (ids.map DocId.text).Perm (ids'.map DocId.text) := by
  unfold sortedTexts
  constructor
  · intro h
    refine (List.perm_insertionSort (· ≤ ·) (ids.map DocId.text)).symm.trans ?_
    rw [h]
    exact List.perm_insertionSort _ _
  · intro h
    refine List.Perm.eq_of_pairwise (fun a b _ _ => le_antisymm) (List.pairwise_insertionSort _ _)
      (List.pairwise_insertionSort _ _) ?_
    exact (List.perm_insertionSort _ _).trans (h.trans (List.perm_insertionSort _ _).symm)

theorem candidateDifferences_eq_nil {p q : PositionDoc} (h : OneCount p) :
    candidateDifferences p q = [] ↔
      ∀ c ∈ q.candidates, ∃ d ∈ p.candidates, d.candidateId.text = c.candidateId.text ∧ d.votes = c.votes := by
  unfold candidateDifferences
  rw [List.filterMap_eq_nil_iff]
  refine forall₂_congr fun c _ => ?_
  dsimp only
  rw [ite_eq_right_iff]
  constructor
  · intro hnone
    obtain ⟨d, hd, hvotes⟩ := Option.map_eq_some_iff.mp (not_not.mp fun hne => nomatch hnone hne)
    obtain ⟨hmem, htext⟩ := of_lookup hd
    exact ⟨d, hmem, htext, hvotes⟩
  · rintro ⟨d, hd, htext, hvotes⟩ hne
    refine absurd ?_ hne
    cases hlookup : lookup CandidateDoc.candidateId p.candidates c.candidateId.text with
    | none => exact absurd htext (lookup_eq_none.mp hlookup d hd)
    | some d' =>
      obtain ⟨hd', htext'⟩ := of_lookup hlookup
      rw [← hvotes, (h d hd d' hd' (htext.trans htext'.symm)).2]
      rfl

theorem not_differs {p q : PositionDoc} (h : OneCount p) :
    ¬ Differs p q ↔ candidateDifferences p q = [] ∧ sortedTexts p.winners = sortedTexts q.winners := by
  rw [candidateDifferences_eq_nil h, sortedTexts_eq]
  unfold Differs
  push Not
  rfl

theorem positionDifferences_eq_nil (h : Distinct official) {q : PositionDoc} :
    positionDifferences official q = [] ↔
      ∃ p ∈ official, p.positionId.text = q.positionId.text ∧ ¬ Differs p q := by
  unfold positionDifferences
  cases hlookup : lookup PositionDoc.positionId official q.positionId.text with
  | none =>
    refine iff_of_false (fun h => nomatch h) ?_
    rintro ⟨p, hp, htext, -⟩
    exact lookup_eq_none.mp hlookup p hp htext
  | some before =>
    obtain ⟨hmem, htext⟩ := of_lookup hlookup
    dsimp only
    rw [List.append_eq_nil_iff, ite_eq_right_iff]
    constructor
    · rintro ⟨hcandidates, hwinners⟩
      refine ⟨before, hmem, htext, (not_differs (h.candidates _ hmem)).mpr ⟨hcandidates, ?_⟩⟩
      exact not_not.mp fun hne => nomatch hwinners hne
    · rintro ⟨p, hp, hp', hno⟩
      obtain rfl := h.positions.inj hp hmem (hp'.trans htext.symm)
      obtain ⟨hcandidates, hwinners⟩ := (not_differs (h.candidates _ hmem)).mp hno
      exact ⟨hcandidates, fun hne => absurd hwinners hne⟩

/-- **What is reported** is what shows in the recount. -/
theorem differences_eq_nil (h : Distinct official) : differences official recount = [] ↔ ¬ Shown official recount := by
  unfold differences Shown
  rw [List.flatMap_eq_nil_iff]
  push Not
  refine forall₂_congr fun q _ => ?_
  rw [positionDifferences_eq_nil h]
  constructor
  · rintro ⟨p, hp, htext, hno⟩
    refine ⟨⟨p, hp, htext⟩, fun p' hp' htext' => ?_⟩
    rwa [h.positions.inj hp' hp (htext'.trans htext.symm)]
  · rintro ⟨⟨p, hp, htext⟩, hno⟩
    exact ⟨p, hp, htext, hno p hp htext⟩

theorem Same.not_shown (ho : Distinct official) (hr : Distinct recount) (h : Same official recount) :
    ¬ Shown official recount := by
  rintro ⟨q, hq, hshown⟩
  obtain ⟨p, hp, hid⟩ := List.mem_map.mp ((h.positions _).mpr (List.mem_map_of_mem hq))
  rcases hshown with hmissing | ⟨p', hp', htext, hdiffers⟩
  · exact hmissing p hp (by rw [hid])
  · obtain rfl := ho.positions.inj hp' hp (htext.trans (by rw [hid]))
    rcases hdiffers with ⟨c, hc, hne⟩ | hwinners
    · obtain ⟨d, hd, hdc, hvotes⟩ := (h.candidates p' hp q hq hid _ _).mpr ⟨c, hc, rfl, rfl⟩
      exact hne d hd (by rw [hdc]) hvotes
    · have hperm : p'.winners.Perm q.winners :=
        (List.perm_ext_iff_of_nodup (ho.winners _ hp).of_map (hr.winners _ hq).of_map).mpr
          fun w => h.winners p' hp q hq hid w
      exact hwinners (hperm.map _)

theorem Same.covered (ho : Distinct official) (h : Same official recount) : Covered official recount := by
  have hposition : ∀ p ∈ official, ∀ q ∈ recount, p.positionId.text = q.positionId.text →
      p.positionId = q.positionId := by
    intro p hp q hq htext
    obtain ⟨p', hp', hid⟩ := List.mem_map.mp ((h.positions _).mpr (List.mem_map_of_mem hq))
    rw [ho.positions.inj hp hp' (htext.trans (by rw [hid])), hid]
  refine ⟨fun p hp => ?_, ?_, fun p hp q hq hid => ⟨?_, fun a ha b hb htext => ?_⟩⟩
  · obtain ⟨q, hq, hid⟩ := List.mem_map.mp ((h.positions _).mp (List.mem_map_of_mem hp))
    refine ⟨q, hq, hid, fun d hd => ?_⟩
    obtain ⟨c, hc, hdc, -⟩ := (h.candidates p hp q hq hid.symm _ _).mp ⟨d, hd, rfl, rfl⟩
    exact List.mem_map.mpr ⟨c, hc, hdc⟩
  · intro a ha b hb htext
    obtain ⟨p, hp, rfl⟩ := List.mem_map.mp ha
    obtain ⟨q, hq, rfl⟩ := List.mem_map.mp hb
    exact hposition p hp q hq htext
  · intro a ha b hb htext
    obtain ⟨d, hd, rfl⟩ := List.mem_map.mp ha
    obtain ⟨c, hc, rfl⟩ := List.mem_map.mp hb
    obtain ⟨d', hd', hdc, -⟩ := (h.candidates p hp q hq hid _ _).mpr ⟨c, hc, rfl, rfl⟩
    rw [(ho.candidates p hp d hd d' hd' (htext.trans (by rw [hdc]))).1, hdc]
  · have hb' := (h.winners p hp q hq hid b).mpr hb
    exact List.inj_on_of_nodup_map (ho.winners p hp) ha hb' htext

theorem Covered.same (ho : Distinct official) (hr : Distinct recount) (h : Covered official recount)
    (hno : ¬ Shown official recount) : Same official recount := by
  -- what shows of no position of the recount
  have hseen : ∀ q ∈ recount, ∃ p ∈ official, p.positionId = q.positionId := by
    intro q hq
    by_contra hnone
    refine hno ⟨q, hq, Or.inl fun p hp htext => hnone ⟨p, hp, ?_⟩⟩
    exact h.kinds _ (List.mem_map_of_mem hp) _ (List.mem_map_of_mem hq) htext
  have hagree : ∀ p ∈ official, ∀ q ∈ recount, p.positionId = q.positionId → ¬ Differs p q :=
    fun p hp q hq hid hdiffers => hno ⟨q, hq, Or.inr ⟨p, hp, by rw [hid], hdiffers⟩⟩
  refine ⟨fun id => ⟨fun hid => ?_, fun hid => ?_⟩, fun p hp q hq hid id votes => ?_, fun p hp q hq hid w => ?_⟩
  · obtain ⟨p, hp, rfl⟩ := List.mem_map.mp hid
    obtain ⟨q, hq, hqp, -⟩ := h.positions p hp
    exact List.mem_map.mpr ⟨q, hq, hqp⟩
  · obtain ⟨q, hq, rfl⟩ := List.mem_map.mp hid
    obtain ⟨p, hp, hpq⟩ := hseen q hq
    exact List.mem_map.mpr ⟨p, hp, hpq⟩
  · have hsame := (candidateDifferences_eq_nil (ho.candidates p hp)).mp
      ((not_differs (ho.candidates p hp)).mp (hagree p hp q hq hid)).1
    obtain ⟨hkinds, -⟩ := h.within p hp q hq hid
    constructor
    · rintro ⟨d, hd, rfl, rfl⟩
      obtain ⟨q', hq', hq'p, hin⟩ := h.positions p hp
      obtain rfl := hr.positions.inj hq' hq (by rw [hq'p, hid])
      obtain ⟨c, hc, hcd⟩ := List.mem_map.mp (hin d hd)
      obtain ⟨d', hd', htext, hvotes⟩ := hsame c hc
      exact ⟨c, hc, hcd, hvotes.symm.trans (ho.candidates p hp d' hd' d hd (htext.trans (by rw [hcd]))).2⟩
    · rintro ⟨c, hc, rfl, rfl⟩
      obtain ⟨d, hd, htext, hvotes⟩ := hsame c hc
      exact ⟨d, hd, hkinds _ (List.mem_map_of_mem hd) _ (List.mem_map_of_mem hc) htext, hvotes⟩
  · have hperm := sortedTexts_eq.mp ((not_differs (ho.candidates p hp)).mp (hagree p hp q hq hid)).2
    obtain ⟨-, hkinds⟩ := h.within p hp q hq hid
    constructor
    · intro hw
      obtain ⟨w', hw', htext⟩ := List.mem_map.mp (hperm.mem_iff.mp (List.mem_map_of_mem hw))
      rwa [hkinds w hw w' hw' htext.symm]
    · intro hw
      obtain ⟨w', hw', htext⟩ := List.mem_map.mp (hperm.mem_iff.mpr (List.mem_map_of_mem hw))
      rwa [← hkinds w' hw' w hw htext]

/-- **The comparison is right** of documents that differ in what shows, or
where all of the official result is in the recount. -/
theorem differences_exact (ho : Distinct official) (hr : Distinct recount) :
    (differences official recount = [] ↔ Same official recount) ↔
      Shown official recount ∨ Covered official recount := by
  rw [differences_eq_nil ho]
  constructor
  · intro h
    by_cases hshown : Shown official recount
    · exact Or.inl hshown
    · exact Or.inr ((h.mp hshown).covered ho)
  · rintro (hshown | hcovered)
    · exact iff_of_false (not_not.mpr hshown) fun hsame => hsame.not_shown ho hr hshown
    · exact ⟨hcovered.same ho hr, Same.not_shown ho hr⟩

end Comparison

/-! ### The documents of the tallies -/

section Documents

open Tally Counting Transactions

def candidateDocs : Outcome → List CandidateDoc
  | .plurality r => r.candidates.map fun row => ⟨.int row.1.candidateId, row.1.name, row.1.votes⟩
  | .score r => r.candidates.map fun row => ⟨.int row.candidateId, row.name, row.votes⟩
  | .referendum r => [⟨.str "YES", "Yes", r.yes⟩, ⟨.str "NO", "No", r.no⟩]
  | .ranked r => r.candidates.map fun row => ⟨.int row.candidateId, row.name, row.votes⟩

def winnerDocs : Outcome → List DocId
  | .plurality r => r.winners.map .int
  | .score r => r.winners.map .int
  | .referendum r => r.winners.map .str
  | .ranked r => r.winners.map .int

def positionDoc (r : PositionTally) : PositionDoc :=
  ⟨.int r.positionId, r.position, candidateDocs r.outcome, winnerDocs r.outcome⟩

/-- The positions of a tally, as its document has them. -/
def documentOf (t : InstitutionalTally) : ResultDocument := t.positions.map fun p => positionDoc p.1

theorem apart_ints {ids : List ℤ} (h : ids.Nodup) : Apart (ids.map .int) := by
  unfold Apart
  rw [List.map_map]
  exact h.map fun _ _ => EndToEnd.toString_inj

/-- Rows whose votes depend on the candidate only. -/
theorem one_count {α : Type} {rows : List α} {idOf : α → ℤ} {name : α → String} {votes : α → ℤ}
    (hvotes : ∀ a ∈ rows, ∀ b ∈ rows, idOf a = idOf b → votes a = votes b) :
    ∀ c ∈ rows.map fun row => (⟨.int (idOf row), name row, votes row⟩ : CandidateDoc),
    ∀ d ∈ rows.map fun row => (⟨.int (idOf row), name row, votes row⟩ : CandidateDoc),
      c.candidateId.text = d.candidateId.text → c.candidateId = d.candidateId ∧ c.votes = d.votes := by
  intro c hc d hd htext
  obtain ⟨a, ha, rfl⟩ := List.mem_map.mp hc
  obtain ⟨b, hb, rfl⟩ := List.mem_map.mp hd
  have hid : idOf a = idOf b := EndToEnd.toString_inj htext
  exact ⟨congrArg DocId.int hid, hvotes a ha b hb hid⟩

/-- The candidates of an outcome are counted once each. -/
structure Counted (o : Outcome) : Prop where
  candidates : ∀ c ∈ candidateDocs o, ∀ d ∈ candidateDocs o, c.candidateId.text = d.candidateId.text →
    c.candidateId = d.candidateId ∧ c.votes = d.votes
  winners : Apart (winnerDocs o)

theorem winners_sublist (ordered : List Candidate) (counts : ℤ → ℤ) (seats : ℕ) :
    (winnersWithTies ordered counts seats).1.Sublist ordered := by
  unfold winnersWithTies
  dsimp only
  split
  · exact List.nil_sublist _
  · split
    · exact List.filter_sublist.trans (List.take_sublist _ _)
    · exact List.take_sublist _ _

/-- The winners by a rank are different. -/
theorem apart_winners (E : Env) {candidates : List Candidate} (hids : (candidates.map (·.id)).Nodup) (counts : ℤ → ℤ)
    (seats : ℕ) :
    Apart (((winnersWithTies (rank E counts candidates) counts seats).1.map (·.id)).map .int) := by
  have hordered : ((rank E counts candidates).map (·.id)).Nodup :=
    ((List.perm_insertionSort _ _).map _).nodup_iff.mpr hids
  exact apart_ints (hordered.sublist ((winners_sublist _ _ _).map _))

theorem counted_plurality (E : Env) (selections : List (Option (List ℤ))) {candidates : List Candidate} (seats : ℕ)
    (hids : (candidates.map (·.id)).Nodup) : Counted (.plurality (plurality E selections candidates seats)) := by
  refine ⟨one_count fun a ha b hb hid => ?_, apart_winners E hids _ _⟩
  obtain ⟨a', ha', rfl⟩ := List.mem_map.mp ha
  obtain ⟨b', hb', rfl⟩ := List.mem_map.mp hb
  obtain ⟨i, hi, rfl⟩ := List.mem_mapIdx.mp ha'
  obtain ⟨j, hj, rfl⟩ := List.mem_mapIdx.mp hb'
  exact congrArg (fun cid => if cid ∈ candidates.map (·.id) then
    ((selections.filterMap id).flatten.count cid : ℤ) else 0) hid

theorem counted_score (E : Env) (selections : List (Option (List (ℤ × ℤ)))) {candidates : List Candidate}
    (seats maxScore : ℕ) (hids : (candidates.map (·.id)).Nodup) :
    Counted (.score (score E selections candidates seats maxScore)) := by
  refine ⟨one_count fun a ha b hb hid => ?_, apart_winners E hids _ _⟩
  obtain ⟨i, hi, rfl⟩ := List.mem_mapIdx.mp ha
  obtain ⟨j, hj, rfl⟩ := List.mem_mapIdx.mp hb
  exact congrArg (Seats.totals selections candidates) hid

theorem counted_referendum (selections : List Json) (threshold : ℚ) :
    Counted (.referendum (referendum selections threshold)) := by
  have hyesno : (DocId.str "YES").text ≠ (DocId.str "NO").text := by decide
  constructor
  · intro c hc d hd htext
    rcases List.mem_pair.mp hc with rfl | rfl <;> rcases List.mem_pair.mp hd with rfl | rfl
    · exact ⟨rfl, rfl⟩
    · exact absurd htext hyesno
    · exact absurd htext.symm hyesno
    · exact ⟨rfl, rfl⟩
  · show Apart ((referendum selections threshold).winners.map .str)
    unfold referendum
    dsimp only
    split <;> decide

theorem counted_ranked (selections : List (Option (List ℤ))) {candidates : List Candidate} (seats : ℕ)
    (lot : ℤ → String) : Counted (.ranked (ranked selections candidates seats lot)) := by
  refine ⟨one_count fun a ha b hb hid => ?_, apart_ints ?_⟩
  · obtain ⟨i, hi, rfl⟩ := List.mem_mapIdx.mp ha
    obtain ⟨j, hj, rfl⟩ := List.mem_mapIdx.mp hb
    exact congrArg (fun x => ((Standings.rulesOf selections candidates seats lot).firstPrefs x : ℤ)) hid
  · obtain ⟨rest, hperm⟩ := (Rounds.filled_ranked selections candidates seats lot).perm
    exact (hperm.nodup_iff.mpr (List.nodup_dedup _)).of_append_left.of_append_left

/-- A position is tallied under the id of its specification. -/
theorem tallyPosition_id {E : Env} {spec : PositionSpec} {selections : List Json} {seed : String} {r : PositionTally}
    (h : tallyPosition E spec selections seed = .ok r) : spec.id = r.positionId := by
  obtain ⟨outcome, -, rfl⟩ := Robust.map_eq_ok.mp h
  rfl

theorem tallyPosition_counted {E : Env} {spec : PositionSpec} {selections : List Json} {seed : String}
    {r : PositionTally} (hids : (spec.candidates.map (·.id)).Nodup)
    (h : tallyPosition E spec selections seed = .ok r) : Counted r.outcome := by
  obtain ⟨outcome, houtcome, rfl⟩ := Robust.map_eq_ok.mp h
  unfold tallyOutcome at houtcome
  cases hbt : spec.ballotType <;> rw [hbt] at houtcome
  case REFERENDUM =>
    obtain rfl := Except.ok.inj houtcome
    exact counted_referendum _ _
  case RANKED =>
    obtain ⟨s, -, rfl⟩ := Robust.map_eq_ok.mp houtcome
    exact counted_ranked _ _ _
  case SCORE =>
    obtain ⟨s, -, rfl⟩ := Robust.map_eq_ok.mp houtcome
    exact counted_score _ _ _ _ hids
  all_goals
    obtain ⟨s, -, rfl⟩ := Robust.map_eq_ok.mp houtcome
    exact counted_plurality _ _ _ hids

/-- The specifications of an election have different ids, and the candidates of each. -/
theorem specs_ids (db : Database) (e : ℕ) : ((Robust.specsOf db e).map (·.id)).Nodup := by
  unfold Robust.specsOf positionSpecs
  rw [List.map_map]
  exact EndToEnd.positionsAt_nodup db e

theorem spec_candidates {db : Database} {e : ℕ} {spec : PositionSpec} (h : spec ∈ Robust.specsOf db e) :
    (spec.candidates.map (·.id)).Nodup := by
  unfold Robust.specsOf positionSpecs Ballot.positionsFor at h
  rw [List.map_map] at h
  obtain ⟨c, -, rfl⟩ := List.mem_map.mp h
  dsimp only [Function.comp]
  split
  · exact List.nodup_nil
  · rw [List.map_map]
    exact Votable.validIds_nodup db c

/-- **The document of a count has distinct ids**, as the comparison needs them. -/
theorem documentOf_distinct {E : Env} {db : Database} {e : ℕ} {ev : EventRow} {privateKey : String}
    {ballots : List (String × BallotRow)} {now : Time} {t : InstitutionalTally}
    (h : computeInstitutionalTally E db e ev privateKey ballots now = .ok t) : Distinct (documentOf t) := by
  obtain ⟨⟨results, hresults, hpositions⟩, -⟩ := Robust.compute_ok h
  have hall := tallyAll_eq_ok.mp hresults
  have hone : ∀ r ∈ results, Counted r.outcome := by
    intro r hr
    obtain ⟨row, hrow, hok⟩ := exists_of_mem_right hall r hr
    obtain ⟨spec, hspec, rfl⟩ := List.mem_map.mp hrow
    exact tallyPosition_counted (spec_candidates hspec) hok
  have hids : (Robust.specsOf db e).map (·.id) = results.map (·.positionId) := by
    have hrows : (Robust.rowsOf E db e privateKey ballots).map (·.1) = Robust.specsOf db e := by
      unfold Robust.rowsOf
      rw [List.map_map]
      exact List.map_id _
    rw [← hrows, List.map_map, ← List.forall₂_eq_eq_eq, List.forall₂_map_left_iff, List.forall₂_map_right_iff]
    exact hall.imp fun _ _ => tallyPosition_id
  have hdocument : documentOf t = results.map positionDoc := by
    rw [← hpositions, documentOf, List.map_map]
    rfl
  rw [hdocument]
  refine ⟨?_, fun p hp => ?_, fun p hp => ?_⟩
  · have hmap : (results.map positionDoc).map (·.positionId) =
        ((results.map (·.positionId)).map fun n : ℕ => (n : ℤ)).map .int := by
      rw [List.map_map, List.map_map, List.map_map]
      rfl
    rw [hmap, ← hids]
    exact apart_ints ((specs_ids db e).map fun _ _ => Int.ofNat_inj.mp)
  · obtain ⟨r, hr, rfl⟩ := List.mem_map.mp hp
    exact (hone r hr).candidates
  · obtain ⟨r, hr, rfl⟩ := List.mem_map.mp hp
    exact (hone r hr).winners

/-- A position of a paid election; the contestants without a category have no id. -/
def paidDoc (p : Paid.PaidPosition) : PositionDoc :=
  ⟨p.positionId.elim .none fun pk => .int pk, p.position,
    p.candidates.map fun c => ⟨.int c.candidateId, c.name, c.votes⟩, p.winners.map fun pk => .int pk⟩

def paidDocumentOf (t : Paid.PaidTally) : ResultDocument := t.positions.map paidDoc

theorem text_int_ne_none (n : ℤ) : (DocId.int n).text ≠ DocId.none.text := by
  intro h
  have hscan : Json.scanNumber (fun _ => .nan) (toString n).toList = some (.int n, []) := Json.scanNumber_int n
  have hnone : (Json.scanNumber (fun _ => .nan) "None".toList).isNone = true := by decide +kernel
  rw [show toString n = "None" from h] at hscan
  rw [hscan] at hnone
  cases hnone

theorem category_text_inj {a b : Option ℕ}
    (h : (a.elim DocId.none fun pk => .int pk).text = (b.elim DocId.none fun pk => .int pk).text) : a = b := by
  cases a with
  | none =>
    cases b with
    | none => rfl
    | some b => exact absurd h.symm (text_int_ne_none b)
  | some a =>
    cases b with
    | none => exact absurd h (text_int_ne_none a)
    | some b => rw [Int.ofNat_inj.mp (EndToEnd.toString_inj h)]

theorem paidDocumentOf_distinct {E : Env} {db : Database} {e : ℕ} {ev : EventRow} {rows : List Paid.PaidRow}
    {now : Time} (hrows : rows.Perm (Paid.paidCounts db e)) :
    Distinct (paidDocumentOf (Paid.computePaidTally E db e ev rows now)) := by
  have hpks : (rows.map (·.pk)).Nodup := (hrows.map _).nodup_iff.mpr (Paid.paidCounts_nodup db e)
  have hposition : ∀ p ∈ paidDocumentOf (Paid.computePaidTally E db e ev rows now), ∃ category,
      p = paidDoc (Paid.paidPosition E category (Paid.groupOf rows category)) := by
    intro p hp
    obtain ⟨p', hp', rfl⟩ := List.mem_map.mp hp
    obtain ⟨category, -, rfl⟩ := List.mem_map.mp hp'
    exact ⟨category, rfl⟩
  refine ⟨?_, fun p hp => ?_, fun p hp => ?_⟩
  · have hmap : (paidDocumentOf (Paid.computePaidTally E db e ev rows now)).map (·.positionId) =
        (Paid.categoryIds rows).map fun c => c.elim .none fun pk => .int pk := by
      unfold paidDocumentOf Paid.computePaidTally
      rw [List.map_map, List.map_map]
      rfl
    rw [hmap, Apart, List.map_map]
    exact (Paid.categoryIds_nodup rows).map fun _ _ => category_text_inj
  · obtain ⟨category, rfl⟩ := hposition p hp
    have hids : ((Paid.paidPosition E category (Paid.groupOf rows category)).candidates.map (·.candidateId)).Nodup := by
      rw [Paid.candidates_map]
      exact ((List.perm_insertionSort _ _).map _).nodup_iff.mpr (hpks.sublist (List.filter_sublist.map _))
    refine one_count fun a ha b hb hid => ?_
    rw [List.inj_on_of_nodup_map hids ha hb (Int.ofNat_inj.mp hid)]
  · obtain ⟨category, rfl⟩ := hposition p hp
    have hwinners : (Paid.paidPosition E category (Paid.groupOf rows category)).winners.length ≤ 1 := by
      unfold Paid.paidPosition
      dsimp only
      split
      · exact Nat.zero_le _
      · split
        · exact le_rfl
        · exact Nat.zero_le _
    unfold Apart paidDoc
    generalize (Paid.paidPosition E category (Paid.groupOf rows category)).winners = winners at hwinners
    match winners with
    | [] => exact List.nodup_nil
    | [pk] => exact List.nodup_singleton _
    | _ :: _ :: _ => exact absurd hwinners (by simp)

end Documents

/-! ### A position that is only in the official result -/

/-- One position with one candidate, who wins. -/
def chair : PositionDoc := ⟨.int 1, "Chair", [⟨.int 7, "Ama", 2⟩], [.int 7]⟩

def treasurer : PositionDoc := ⟨.int 2, "Treasurer", [⟨.int 8, "Kofi", 3⟩], [.int 8]⟩

theorem differences_exact_alike :
    (differences [chair, treasurer] [treasurer, chair] = [] ↔ Same [chair, treasurer] [treasurer, chair]) ↔
      Shown [chair, treasurer] [treasurer, chair] ∨ Covered [chair, treasurer] [treasurer, chair] :=
  differences_exact ⟨by decide +kernel, by decide +kernel, by decide +kernel⟩
    ⟨by decide +kernel, by decide +kernel, by decide +kernel⟩

/-- The recount has lost a position, and no difference is reported. -/
theorem not_differences_exact :
    ¬ ∀ official recount : ResultDocument, Distinct official → Distinct recount →
      (differences official recount = [] ↔ Same official recount) := by
  intro h
  have hsame := (h [chair, treasurer] [chair] ⟨by decide +kernel, by decide +kernel, by decide +kernel⟩
    ⟨by decide +kernel, by decide +kernel, by decide +kernel⟩).mp (by decide +kernel)
  have hin := (hsame.positions (.int 2)).mp (by decide)
  revert hin
  decide

end Differences
end FlexyVotes
