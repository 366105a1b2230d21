/-
# What a suppressed constituency gives away

`compute_institutional_tally` publishes the counts of every position, and with
`record_constituency_on_ballot` those of every constituency in which enough
ballots were cast to hide its voters. The counts of the others can still be had
together: they are what is left of a position's counts once those of the published
constituencies are taken away. The check compares each constituency with the
minimum on its own, so what is left of a position can be fewer ballots than the
minimum, down to the ballots of one small constituency. It is enough exactly
where the ballots cast outside the constituencies that are published are
(`uncovered_enough`).

Key definitions: `onPosition`, `InstitutionalTally.publishes`, `uncovered`,
`Suppresses`, `Small`.
Key theorems: `mem_constituencies`, `uncovered_add_published`, `uncovered_enough`.
-/
import FlexyVotes.Elections.Counting

namespace FlexyVotes
namespace Suppression

open Transactions Counting

/-! ### The ballots of a position -/

/-- The ballots with a selection for the position. -/
def onPosition (valid : List Opened) (spec : Tally.PositionSpec) : List Opened :=
  valid.filter fun b => (Json.get? b.selections (toString spec.id)).isSome

/-- Its selections are what the position is tallied from. -/
theorem length_selectionsFor (valid : List Opened) (spec : Tally.PositionSpec) :
    (selectionsFor valid spec).length = (onPosition valid spec).length := by
  unfold selectionsFor onPosition
  induction valid with
  | nil => rfl
  | cons b valid ih =>
    rw [List.filterMap_cons, List.filter_cons]
    cases hb : Json.get? b.selections (toString spec.id) with
    | none => simpa using ih
    | some s => simpa using ih

/-- The ballots of a position in a constituency. -/
def inConstituency (valid : List Opened) (spec : Tally.PositionSpec) (constituency : ℕ) : List Opened :=
  (onPosition valid spec).filter (·.constituencyId = some constituency)

theorem length_selectionsFor_constituency (valid : List Opened) (spec : Tally.PositionSpec) (c : ℕ) :
    (selectionsFor (valid.filter (·.constituencyId = some c)) spec).length = (inConstituency valid spec c).length := by
  rw [length_selectionsFor, onPosition, inConstituency, onPosition, List.filter_comm]

/-! ### What is published of it -/

/-- The tally has the positions of the constituency. -/
def publishes (t : InstitutionalTally) (constituency : ℕ) : Bool :=
  t.constituencies.any fun entry => entry.constituencyId = constituency && entry.positions.isSome

/-- The ballots of the position that no published constituency covers. -/
def uncovered (t : InstitutionalTally) (valid : List Opened) (spec : Tally.PositionSpec) : List Opened :=
  (onPosition valid spec).filter fun b => !b.constituencyId.any (publishes t)

/-- A constituency with a ballot of the position is suppressed. -/
def Suppresses (t : InstitutionalTally) (valid : List Opened) (spec : Tally.PositionSpec) : Prop :=
  ∃ entry ∈ t.constituencies, entry.positions = none ∧ inConstituency valid spec entry.constituencyId ≠ []

/-- Fewer than the minimum voted in the constituency, whatever the position. -/
def Small (specs : List Tally.PositionSpec) (valid : List Opened) (minimum constituency : ℕ) : Prop :=
  ∀ spec ∈ specs, (inConstituency valid spec constituency).length < minimum

instance (specs : List Tally.PositionSpec) (valid : List Opened) (minimum constituency : ℕ) :
    Decidable (Small specs valid minimum constituency) :=
  inferInstanceAs (Decidable (∀ spec ∈ specs, _))

/-- The ballots of the position in small constituencies, and those in none. -/
def apart (specs : List Tally.PositionSpec) (valid : List Opened) (minimum : ℕ) (spec : Tally.PositionSpec) :
    List Opened :=
  (onPosition valid spec).filter fun b => b.constituencyId.all fun c => Small specs valid minimum c

/-- The constituencies whose positions the tally has. -/
def published (t : InstitutionalTally) : List ℕ :=
  (t.constituencies.filter (·.positions.isSome)).map (·.constituencyId)

theorem publishes_iff_mem {t : InstitutionalTally} {c : ℕ} : publishes t c = true ↔ c ∈ published t := by
  unfold publishes published
  simp only [List.any_eq_true, Bool.and_eq_true, decide_eq_true_eq, List.mem_map, List.mem_filter]
  exact exists_congr fun entry => ⟨fun ⟨hmem, hc, hsome⟩ => ⟨⟨hmem, hsome⟩, hc⟩, fun ⟨⟨hmem, hsome⟩, hc⟩ => ⟨hmem, hc, hsome⟩⟩

/-- Each ballot is in one constituency at most. -/
theorem length_filter_mem (l : List Opened) : ∀ {cs : List ℕ}, cs.Nodup →
    (l.filter fun b => b.constituencyId.any (· ∈ cs)).length =
      (cs.map fun c => (l.filter (·.constituencyId = some c)).length).sum
  | [], _ => by simp
  | c :: cs, hnodup => by
    obtain ⟨hc, hcs⟩ := List.nodup_cons.mp hnodup
    rw [List.length_eq_length_filter_add fun b => decide (b.constituencyId = some c), List.map_cons, List.sum_cons,
      ← length_filter_mem l hcs, List.filter_filter, List.filter_filter]
    congr 2
    · refine List.filter_congr fun b _ => ?_
      by_cases hb : b.constituencyId = some c
      · simp [hb]
      · simp [hb]
    · refine List.filter_congr fun b _ => ?_
      rcases hb : b.constituencyId with _ | x
      · simp
      · by_cases hx : x = c
        · subst hx
          simp [hc]
        · simp [hx]

/-! ### Which constituencies are suppressed -/

/-- The most ballots of a constituency on one position. -/
theorem foldr_max_lt_iff (m : ℕ) : ∀ l : List ℕ, l.foldr max 0 < m ↔ 0 < m ∧ ∀ n ∈ l, n < m
  | [] => by simp
  | n :: l => by
    rw [List.foldr_cons, max_lt_iff, foldr_max_lt_iff m l, List.forall_mem_cons]
    constructor
    · rintro ⟨hn, hm, hl⟩
      exact ⟨hm, hn, hl⟩
    · rintro ⟨hm, hn, hl⟩
      exact ⟨hn, hm, hl⟩

section Entries

variable {E : Env} {db : Database} {ev : EventRow} {seed : String} {specs : List Tally.PositionSpec}
  {valid : List Opened}

theorem mem_constituencyRows {c : ℕ} {row : Tally.PositionSpec × List Json} :
    row ∈ constituencyRows specs valid c ↔
      row.1 ∈ specs ∧ row.2 = selectionsFor (valid.filter (·.constituencyId = some c)) row.1 ∧
        inConstituency valid row.1 c ≠ [] := by
  have hne : ∀ spec, selectionsFor (valid.filter (·.constituencyId = some c)) spec ≠ [] ↔
      inConstituency valid spec c ≠ [] := fun spec => by
    rw [← List.length_pos_iff, ← List.length_pos_iff, length_selectionsFor_constituency]
  unfold constituencyRows
  rw [List.mem_filter, List.mem_map, decide_eq_true_eq]
  constructor
  · rintro ⟨⟨spec, hspec, rfl⟩, hrow⟩
    exact ⟨hspec, rfl, (hne spec).mp hrow⟩
  · rintro ⟨hspec, hrow, hin⟩
    refine ⟨⟨row.1, hspec, by rw [← hrow]⟩, ?_⟩
    rw [hrow]
    exact (hne row.1).mpr hin

/-- A position with a ballot of the constituency is a row of it. -/
theorem row_mem_constituencyRows {c : ℕ} {spec : Tally.PositionSpec} (hspec : spec ∈ specs)
    (hin : inConstituency valid spec c ≠ []) :
    (spec, selectionsFor (valid.filter (·.constituencyId = some c)) spec) ∈ constituencyRows specs valid c :=
  mem_constituencyRows.mpr ⟨hspec, rfl, hin⟩

/-- The constituencies with a ballot of a position have an entry. -/
theorem mem_constituencyIds {c : ℕ} :
    c ∈ constituencyIds specs valid ↔ ∃ spec ∈ specs, inConstituency valid spec c ≠ [] := by
  unfold constituencyIds
  rw [List.mem_insertionSort, List.mem_filter, List.mem_dedup, decide_eq_true_eq]
  constructor
  · rintro ⟨-, hrows⟩
    obtain ⟨row, hrow⟩ := List.exists_mem_of_ne_nil _ hrows
    obtain ⟨hspec, -, hin⟩ := mem_constituencyRows.mp hrow
    exact ⟨row.1, hspec, hin⟩
  · rintro ⟨spec, hspec, hin⟩
    obtain ⟨b, hb⟩ := List.exists_mem_of_ne_nil _ hin
    obtain ⟨hb, hc⟩ := List.mem_filter.mp hb
    rw [decide_eq_true_eq] at hc
    exact ⟨List.mem_filterMap.mpr ⟨b, (List.mem_filter.mp hb).1, hc⟩,
      List.ne_nil_of_mem (row_mem_constituencyRows hspec hin)⟩

theorem nodup_constituencyIds : (constituencyIds specs valid).Nodup :=
  (List.perm_insertionSort _ _).nodup_iff.mpr ((List.nodup_dedup _).filter _)

/-- A constituency with a ballot has fewer than the minimum on every position
when it has on the one with the most. -/
theorem few_iff_small {c : ℕ} (hc : c ∈ constituencyIds specs valid) :
    ((constituencyRows specs valid c).map (·.2.length)).foldr max 0 < ev.minAnonymitySet ↔
      Small specs valid ev.minAnonymitySet c := by
  rw [foldr_max_lt_iff, List.forall_mem_map]
  constructor
  · rintro ⟨hm, hrows⟩ spec hspec
    by_cases hin : inConstituency valid spec c = []
    · rw [hin]
      exact hm
    · have hlt := hrows _ (row_mem_constituencyRows hspec hin)
      rwa [length_selectionsFor_constituency] at hlt
  · intro hsmall
    obtain ⟨spec, hspec, hin⟩ := mem_constituencyIds.mp hc
    refine ⟨(List.length_pos_of_ne_nil hin).trans (hsmall spec hspec), fun row hrow => ?_⟩
    obtain ⟨hrow, heq, -⟩ := mem_constituencyRows.mp hrow
    rw [heq, length_selectionsFor_constituency]
    exact hsmall row.1 hrow

theorem constituencyTally_ok {rows : List (Tally.PositionSpec × List Json)} {c : ℕ} {entry : ConstituencyTally}
    (h : constituencyTally E db ev seed rows c = .ok entry) :
    entry.constituencyId = c ∧
      (entry.positions = none ↔ (rows.map (·.2.length)).foldr max 0 < ev.minAnonymitySet) := by
  obtain ⟨hid, ⟨hfew, hnone⟩ | ⟨hmany, rs, -, hsome⟩⟩ := constituencyTally_cases h
  · exact ⟨hid, iff_of_true hnone hfew⟩
  · exact ⟨hid, iff_of_false (fun hnone => nomatch hsome.symm.trans hnone) (not_lt.mpr hmany)⟩

/-- One entry for each constituency, in their order. -/
theorem constituencyTallies_ok {cs : List ℕ} {entries : List ConstituencyTally}
    (h : constituencyTallies E db ev seed specs valid cs = .ok entries) :
    entries.map (·.constituencyId) = cs ∧ ∀ entry ∈ entries, (entry.positions = none ↔
      ((constituencyRows specs valid entry.constituencyId).map (·.2.length)).foldr max 0 < ev.minAnonymitySet) := by
  have hall := constituencyTallies_eq_ok.mp h
  refine ⟨?_, fun entry hentry => ?_⟩
  · have hids : List.Forall₂ (· = ·) cs (entries.map (·.constituencyId)) :=
      List.forall₂_map_right_iff.mpr (hall.imp fun c entry hentry => (constituencyTally_ok hentry).1.symm)
    exact (List.forall₂_eq_eq_eq ▸ hids).symm
  · obtain ⟨c, -, hc⟩ := exists_of_mem_right hall entry hentry
    obtain ⟨hid, hsuppressed⟩ := constituencyTally_ok hc
    rw [hid]
    exact hsuppressed

end Entries

/-! ### What is left of a position -/

section Left

variable {E : Env} {db : Database} {e : ℕ} {ev : EventRow} {privateKey : String}
  {ballots : List (String × BallotRow)} {now : Time} {t : InstitutionalTally}

/-- The entries of the tally. -/
theorem constituencies_ok (hrecord : ev.recordConstituencyOnBallot = true)
    (ht : computeInstitutionalTally E db e ev privateKey ballots now = .ok t) :
    constituencyTallies E db ev (toString e) (positionSpecs (categoriesOf db e) db)
      (decryptBallots E e privateKey ballots).1
      (constituencyIds (positionSpecs (categoriesOf db e) db) (decryptBallots E e privateKey ballots).1) =
        .ok t.constituencies := by
  unfold computeInstitutionalTally at ht
  dsimp only at ht
  rw [if_pos hrecord] at ht
  split at ht
  · cases ht
  · split at ht
    · cases ht
    · rename_i constituencies hconstituencies
      split at ht
      · cases ht
      · rw [← Except.ok.inj ht]
        exact hconstituencies

variable (hrecord : ev.recordConstituencyOnBallot = true)
  (ht : computeInstitutionalTally E db e ev privateKey ballots now = .ok t)

include hrecord ht

/-- A constituency is published when it has a ballot and is not small. -/
theorem publishes_iff {c : ℕ} :
    publishes t c = true ↔
      c ∈ constituencyIds (positionSpecs (categoriesOf db e) db) (decryptBallots E e privateKey ballots).1 ∧
        ¬ Small (positionSpecs (categoriesOf db e) db) (decryptBallots E e privateKey ballots).1 ev.minAnonymitySet c := by
  obtain ⟨hids, hall⟩ := constituencyTallies_ok (constituencies_ok hrecord ht)
  unfold publishes
  rw [List.any_eq_true]
  constructor
  · rintro ⟨entry, hentry, hc⟩
    obtain ⟨hc, hsome⟩ := Bool.and_eq_true_iff.mp hc
    obtain rfl := of_decide_eq_true hc
    have hmem : entry.constituencyId ∈ constituencyIds _ _ := hids ▸ List.mem_map_of_mem hentry
    refine ⟨hmem, fun hsmall => ?_⟩
    rw [(hall entry hentry).mpr ((few_iff_small hmem).mpr hsmall)] at hsome
    cases hsome
  · rintro ⟨hmem, hsmall⟩
    obtain ⟨entry, hentry, rfl⟩ := List.mem_map.mp (hids ▸ hmem)
    refine ⟨entry, hentry, Bool.and_eq_true_iff.mpr ⟨decide_eq_true rfl, ?_⟩⟩
    rw [Option.isSome_iff_ne_none]
    exact fun hnone => hsmall ((few_iff_small hmem).mp ((hall entry hentry).mp hnone))

/-- A small constituency with a ballot of the position is suppressed for it,
and no other. -/
theorem suppresses_iff {spec : Tally.PositionSpec} (hspec : spec ∈ positionSpecs (categoriesOf db e) db) :
    Suppresses t (decryptBallots E e privateKey ballots).1 spec ↔
      ∃ c, Small (positionSpecs (categoriesOf db e) db) (decryptBallots E e privateKey ballots).1
        ev.minAnonymitySet c ∧ inConstituency (decryptBallots E e privateKey ballots).1 spec c ≠ [] := by
  obtain ⟨hids, hall⟩ := constituencyTallies_ok (constituencies_ok hrecord ht)
  constructor
  · rintro ⟨entry, hentry, hnone, hin⟩
    have hmem : entry.constituencyId ∈ constituencyIds _ _ := hids ▸ List.mem_map_of_mem hentry
    exact ⟨entry.constituencyId, (few_iff_small hmem).mp ((hall entry hentry).mp hnone), hin⟩
  · rintro ⟨c, hsmall, hin⟩
    have hmem := mem_constituencyIds.mpr ⟨spec, hspec, hin⟩
    obtain ⟨entry, hentry, rfl⟩ := List.mem_map.mp (hids ▸ hmem)
    exact ⟨entry, hentry, (hall entry hentry).mpr ((few_iff_small hmem).mpr hsmall), hin⟩

/-- What is left of a position are its ballots in small constituencies and in
none. -/
theorem uncovered_eq_apart {spec : Tally.PositionSpec} (hspec : spec ∈ positionSpecs (categoriesOf db e) db) :
    uncovered t (decryptBallots E e privateKey ballots).1 spec =
      apart (positionSpecs (categoriesOf db e) db) (decryptBallots E e privateKey ballots).1 ev.minAnonymitySet spec := by
  unfold uncovered apart
  refine List.filter_congr fun b hb => ?_
  rcases hc : b.constituencyId with _ | c
  · rfl
  · have hmem : c ∈ constituencyIds (positionSpecs (categoriesOf db e) db) (decryptBallots E e privateKey ballots).1 :=
      mem_constituencyIds.mpr ⟨spec, hspec, List.ne_nil_of_mem (List.mem_filter.mpr ⟨hb, by simp [hc]⟩)⟩
    have hpublishes := publishes_iff (c := c) hrecord ht
    show (!publishes t c) = decide _
    rw [Bool.eq_iff_iff, Bool.not_eq_true', decide_eq_true_eq, ← Bool.not_eq_true, hpublishes, not_and_not_right]
    exact ⟨fun h => h hmem, fun h _ => h⟩

/-- Taking the published constituencies from a position leaves what they do not
cover. -/
theorem uncovered_add_published (spec : Tally.PositionSpec) :
    (selectionsFor (decryptBallots E e privateKey ballots).1 spec).length =
      (uncovered t (decryptBallots E e privateKey ballots).1 spec).length +
        ((published t).map fun c => (inConstituency (decryptBallots E e privateKey ballots).1 spec c).length).sum := by
  have hnodup : (published t).Nodup := by
    have hids : (t.constituencies.map (·.constituencyId)).Nodup := by
      rw [(constituencyTallies_ok (constituencies_ok hrecord ht)).1]
      exact nodup_constituencyIds
    exact hids.sublist (List.filter_sublist.map _)
  have hcovered : ∀ b : Opened, b.constituencyId.any (publishes t) = b.constituencyId.any (· ∈ published t) := by
    intro b
    congr 1
    funext c
    rw [Bool.eq_iff_iff, publishes_iff_mem, decide_eq_true_eq]
  rw [length_selectionsFor, List.length_eq_length_filter_add fun b => b.constituencyId.any (publishes t), Nat.add_comm,
    uncovered]
  congr 1
  simp only [hcovered]
  exact length_filter_mem _ hnodup

/-- **The check is enough exactly where what it keeps back is**: no published
constituency narrows a position down to fewer ballots than the minimum, if and
only if each position with a ballot in a small constituency has at least the
minimum in small constituencies and in none. -/
theorem uncovered_enough :
    (∀ spec ∈ positionSpecs (categoriesOf db e) db,
      Suppresses t (decryptBallots E e privateKey ballots).1 spec →
        ev.minAnonymitySet ≤ (uncovered t (decryptBallots E e privateKey ballots).1 spec).length) ↔
    ∀ spec ∈ positionSpecs (categoriesOf db e) db, ∀ c,
      Small (positionSpecs (categoriesOf db e) db) (decryptBallots E e privateKey ballots).1 ev.minAnonymitySet c →
      inConstituency (decryptBallots E e privateKey ballots).1 spec c ≠ [] →
        ev.minAnonymitySet ≤ (apart (positionSpecs (categoriesOf db e) db)
          (decryptBallots E e privateKey ballots).1 ev.minAnonymitySet spec).length := by
  refine forall₂_congr fun spec hspec => ?_
  rw [suppresses_iff hrecord ht hspec, uncovered_eq_apart hrecord ht hspec]
  exact ⟨fun h c hsmall hin => h ⟨c, hsmall, hin⟩, fun h ⟨c, hsmall, hin⟩ => h c hsmall hin⟩

end Left

/-! ### Three ballots in two constituencies -/

/-- An election of one position with one candidate. -/
def twoUnits : Database :=
  (Db.empty.set (.category 1) (some { event := 1, name := "Chair" })).set (.candidate 7)
    (some { category := some 1, event := 1, name := "Ama" })

/-- Two ballots are enough to be published. -/
def inTwos : EventRow := { startDate := 0, endDate := 1, recordConstituencyOnBallot := true, minAnonymitySet := 2 }

/-- A ballot for the candidate, cast in a constituency. -/
def ballotFrom (tracker : String) (constituency : ℕ) : String × BallotRow :=
  (tracker, ⟨1, clear.sealTo "" "\x7b\"election\":1,\"selections\":\x7b\"1\":[7]\x7d\x7d" "1:00" "", tracker, "00",
    some constituency⟩)

/-- The second constituency's only ballot is what the first's leave. -/
def loneBallot : List (String × BallotRow) := [ballotFrom "aa" 1, ballotFrom "bb" 1, ballotFrom "cc" 2]

theorem not_uncovered_enough :
    ¬ ∀ (E : Env) (db : Database) (e : ℕ) (ev : EventRow) (privateKey : String) (ballots : List (String × BallotRow))
      (now : Time) (t : InstitutionalTally), ev.recordConstituencyOnBallot = true →
      computeInstitutionalTally E db e ev privateKey ballots now = .ok t →
      ∀ spec ∈ positionSpecs (categoriesOf db e) db,
        Suppresses t (decryptBallots E e privateKey ballots).1 spec →
          ev.minAnonymitySet ≤ (uncovered t (decryptBallots E e privateKey ballots).1 spec).length := by
  intro h
  have hok : (computeInstitutionalTally clear twoUnits 1 inTwos "" loneBallot 3).toOption.isSome = true := by
    decide +kernel
  cases ht : computeInstitutionalTally clear twoUnits 1 inTwos "" loneBallot 3 with
  | error failure =>
    rw [ht] at hok
    cases hok
  | ok t =>
    have hspecs : ∀ spec ∈ positionSpecs (categoriesOf twoUnits 1) twoUnits,
        Small (positionSpecs (categoriesOf twoUnits 1) twoUnits) (decryptBallots clear 1 "" loneBallot).1 2 2 ∧
        inConstituency (decryptBallots clear 1 "" loneBallot).1 spec 2 ≠ [] ∧
        (apart (positionSpecs (categoriesOf twoUnits 1) twoUnits) (decryptBallots clear 1 "" loneBallot).1 2
          spec).length = 1 := by
      decide +kernel
    obtain ⟨spec, hspec⟩ := List.exists_mem_of_ne_nil (positionSpecs (categoriesOf twoUnits 1) twoUnits)
      (List.ne_nil_of_length_pos (by decide +kernel))
    obtain ⟨hsmall, hin, hone⟩ := hspecs spec hspec
    have hleft := h clear twoUnits 1 inTwos "" loneBallot 3 t rfl ht spec hspec
      ((suppresses_iff rfl ht hspec).mpr ⟨2, hsmall, hin⟩)
    rw [uncovered_eq_apart rfl ht hspec] at hleft
    exact absurd (hleft.trans_eq hone) (by decide)

/-- With a third constituency as small as the second, neither can be had alone. -/
def twoLoneBallots : List (String × BallotRow) := loneBallot ++ [ballotFrom "dd" 3]

theorem uncovered_enough_third :
    ∃ t, computeInstitutionalTally clear twoUnits 1 inTwos "" twoLoneBallots 3 = .ok t ∧
      ∀ spec ∈ positionSpecs (categoriesOf twoUnits 1) twoUnits,
        Suppresses t (decryptBallots clear 1 "" twoLoneBallots).1 spec →
          2 ≤ (uncovered t (decryptBallots clear 1 "" twoLoneBallots).1 spec).length := by
  have hok : (computeInstitutionalTally clear twoUnits 1 inTwos "" twoLoneBallots 3).toOption.isSome = true := by
    decide +kernel
  cases ht : computeInstitutionalTally clear twoUnits 1 inTwos "" twoLoneBallots 3 with
  | error failure =>
    rw [ht] at hok
    cases hok
  | ok t =>
    have hspecs : ∀ spec ∈ positionSpecs (categoriesOf twoUnits 1) twoUnits,
        2 ≤ (apart (positionSpecs (categoriesOf twoUnits 1) twoUnits) (decryptBallots clear 1 "" twoLoneBallots).1 2
          spec).length := by
      decide +kernel
    exact ⟨t, rfl, (uncovered_enough rfl ht).mpr fun spec hspec _ _ _ => hspecs spec hspec⟩

end Suppression
end FlexyVotes
