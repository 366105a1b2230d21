/-
# The threshold, figure by figure

`compute_institutional_tally` compares the minimum with the most selections of
a constituency on one position, and publishes all its positions or none. The
ballots of a constituency need not have one style, so a position few of them
carry is published beside one that many do, from fewer selections than the
minimum.

Key definitions: `Protected`, `AllOrNone`.
Key theorems: `figure_iff`, `figures_protected`.
-/
import FlexyVotes.Elections.Differences

namespace FlexyVotes
namespace Anonymity

open Transactions Tally Counting Suppression

/-- Each tally of a position that is published for a constituency is made of at
least the minimum of selections. -/
def Protected (E : Env) (e : ℕ) (specs : List PositionSpec) (valid : List Opened) (minimum : ℕ)
    (t : InstitutionalTally) : Prop :=
  ∀ entry ∈ t.constituencies, ∀ positions, entry.positions = some positions → ∀ r ∈ positions, ∃ spec ∈ specs,
    tallyPosition E spec (selectionsFor (valid.filter (·.constituencyId = some entry.constituencyId)) spec)
      (toString e) = .ok r ∧
    minimum ≤ (selectionsFor (valid.filter (·.constituencyId = some entry.constituencyId)) spec).length

/-- Where a constituency has the minimum on one position, it has on all that its
ballots carry. -/
def AllOrNone (specs : List PositionSpec) (valid : List Opened) (minimum : ℕ) : Prop :=
  ∀ c, ¬ Small specs valid minimum c → ∀ spec ∈ specs, inConstituency valid spec c ≠ [] →
    minimum ≤ (inConstituency valid spec c).length

section Figures

variable {E : Env} {db : Database} {e : ℕ} {ev : EventRow} {privateKey : String}
  {ballots : List (String × BallotRow)} {now : Time} {t : InstitutionalTally}

/-- Selections are looked up by the id. -/
theorem selectionsFor_congr {valid : List Opened} {spec spec' : PositionSpec} (h : spec.id = spec'.id) :
    selectionsFor valid spec = selectionsFor valid spec' := by
  unfold selectionsFor
  rw [h]

/-- **What is published**: the positions that the ballots of a constituency
carry, where it has the minimum on one of them. -/
theorem figure_iff (hrecord : ev.recordConstituencyOnBallot = true)
    (ht : computeInstitutionalTally E db e ev privateKey ballots now = .ok t) {c : ℕ} {r : PositionTally} :
    (∃ entry ∈ t.constituencies, entry.constituencyId = c ∧ ∃ positions, entry.positions = some positions ∧
      r ∈ positions) ↔
    ¬ Small (Robust.specsOf db e) (Robust.openedOf E e privateKey ballots) ev.minAnonymitySet c ∧
      ∃ spec ∈ Robust.specsOf db e, inConstituency (Robust.openedOf E e privateKey ballots) spec c ≠ [] ∧
        tallyPosition E spec
          (selectionsFor ((Robust.openedOf E e privateKey ballots).filter (·.constituencyId = some c)) spec)
          (toString e) = .ok r := by
  have hall := constituencyTallies_eq_ok.mp (constituencies_ok hrecord ht)
  constructor
  · rintro ⟨entry, hentry, rfl, positions, hsome, hr⟩
    obtain ⟨c, hc, hok⟩ := exists_of_mem_right hall entry hentry
    obtain ⟨hid, ⟨-, hnone⟩ | ⟨hmany, rs, hrs, hrs'⟩⟩ := constituencyTally_cases hok
    · rw [hnone] at hsome
      cases hsome
    · obtain rfl := Option.some.inj (hrs'.symm.trans hsome)
      rw [hid]
      refine ⟨fun hsmall => absurd ((few_iff_small hc).mpr hsmall) (not_lt.mpr hmany), ?_⟩
      obtain ⟨row, hrow, hrow'⟩ := exists_of_mem_right (tallyAll_eq_ok.mp hrs) r hr
      obtain ⟨hspec, hsel, hin⟩ := mem_constituencyRows.mp hrow
      rw [hsel] at hrow'
      exact ⟨row.1, hspec, hin, hrow'⟩
  · rintro ⟨hmany, spec, hspec, hin, hr⟩
    have hc := mem_constituencyIds.mpr ⟨spec, hspec, hin⟩
    obtain ⟨entry, hentry, hok⟩ := exists_of_mem_left hall c hc
    obtain ⟨hid, ⟨hfew, -⟩ | ⟨-, rs, hrs, hsome⟩⟩ := constituencyTally_cases hok
    · exact absurd ((few_iff_small hc).mp hfew) hmany
    · obtain ⟨r', hr', hok'⟩ := exists_of_mem_left (tallyAll_eq_ok.mp hrs) _ (row_mem_constituencyRows hspec hin)
      obtain rfl := Except.ok.inj (hok'.symm.trans hr)
      exact ⟨entry, hentry, hid, rs, hsome, hr'⟩

/-- Figures that are protected are made of ballots that all carry a position,
or too few. -/
theorem Protected.allOrNone (ht : computeInstitutionalTally E db e ev privateKey ballots now = .ok t)
    (h : Protected E e (Robust.specsOf db e) (Robust.openedOf E e privateKey ballots) ev.minAnonymitySet t)
    (hrecord : ev.recordConstituencyOnBallot = true) :
    AllOrNone (Robust.specsOf db e) (Robust.openedOf E e privateKey ballots) ev.minAnonymitySet := by
  intro c hmany spec hspec hin
  have hc := mem_constituencyIds.mpr ⟨spec, hspec, hin⟩
  obtain ⟨entry, hentry, hok⟩ := exists_of_mem_left (constituencyTallies_eq_ok.mp (constituencies_ok hrecord ht)) c hc
  obtain ⟨hid, ⟨hfew, -⟩ | ⟨-, rs, hrs, hsome⟩⟩ := constituencyTally_cases hok
  · exact absurd ((few_iff_small hc).mp hfew) hmany
  · obtain ⟨r, hr, hok⟩ := exists_of_mem_left (tallyAll_eq_ok.mp hrs) _ (row_mem_constituencyRows hspec hin)
    obtain ⟨spec', -, hok', hmin⟩ := h entry hentry rs hsome r hr
    have hsame : spec'.id = spec.id := (Differences.tallyPosition_id hok').trans (Differences.tallyPosition_id hok).symm
    rw [hid, selectionsFor_congr hsame, length_selectionsFor_constituency] at hmin
    exact hmin

/-- **The minimum protects each figure** exactly where the ballots of a
constituency that has it on one position have it on every other. -/
theorem figures_protected (ht : computeInstitutionalTally E db e ev privateKey ballots now = .ok t) :
    Protected E e (Robust.specsOf db e) (Robust.openedOf E e privateKey ballots) ev.minAnonymitySet t ↔
      (ev.recordConstituencyOnBallot = true →
        AllOrNone (Robust.specsOf db e) (Robust.openedOf E e privateKey ballots) ev.minAnonymitySet) := by
  constructor
  · exact fun h hrecord => h.allOrNone ht hrecord
  · intro h entry hentry positions hsome r hr
    by_cases hrecord : ev.recordConstituencyOnBallot = true
    · obtain ⟨hmany, spec, hspec, hin, hok⟩ := (figure_iff hrecord ht).mp ⟨entry, hentry, rfl, positions, hsome, hr⟩
      refine ⟨spec, hspec, hok, ?_⟩
      rw [length_selectionsFor_constituency]
      exact h hrecord _ hmany spec hspec hin
    · obtain ⟨-, hnone, -⟩ := Robust.compute_ok ht
      rw [if_neg hrecord] at hnone
      rw [← Except.ok.inj hnone] at hentry
      exact absurd hentry List.not_mem_nil

end Figures

/-! ### A position that one of two ballots carries -/

/-- A second position beside that of `twoUnits`. -/
def twoPositions : Database :=
  (twoUnits.set (.category 2) (some { event := 1, name := "Treasurer" })).set (.candidate 8)
    (some { category := some 2, event := 1, name := "Kofi" })

/-- A ballot of another style, with both positions. -/
def bothPositions : String × BallotRow :=
  ("bb", ⟨1, clear.sealTo "" "\x7b\"election\":1,\"selections\":\x7b\"1\":[7],\"2\":[8]\x7d\x7d" "1:01" "", "bb", "01",
    some 1⟩)

/-- Two ballots of one constituency are published, and with them what the one
says of the second position. -/
theorem not_figures_protected :
    ¬ ∀ (E : Env) (db : Database) (e : ℕ) (ev : EventRow) (privateKey : String) (ballots : List (String × BallotRow))
      (now : Time) (t : InstitutionalTally), computeInstitutionalTally E db e ev privateKey ballots now = .ok t →
      Protected E e (Robust.specsOf db e) (Robust.openedOf E e privateKey ballots) ev.minAnonymitySet t := by
  intro h
  have hok : (computeInstitutionalTally clear twoPositions 1 inTwos "" [ballotFrom "aa" 1, bothPositions] 3).toOption.isSome
      = true := by decide +kernel
  cases ht : computeInstitutionalTally clear twoPositions 1 inTwos "" [ballotFrom "aa" 1, bothPositions] 3 with
  | error failure =>
    rw [ht] at hok
    cases hok
  | ok t =>
    have hall := (h clear twoPositions 1 inTwos "" _ 3 t ht).allOrNone ht rfl 1
    obtain ⟨hmany, spec, hspec, hone⟩ : ¬ Small (Robust.specsOf twoPositions 1)
          (Robust.openedOf clear 1 "" [ballotFrom "aa" 1, bothPositions]) inTwos.minAnonymitySet 1 ∧
        ∃ spec ∈ Robust.specsOf twoPositions 1,
          (inConstituency (Robust.openedOf clear 1 "" [ballotFrom "aa" 1, bothPositions]) spec 1).length = 1 := by
      decide +kernel
    have hne : inConstituency (Robust.openedOf clear 1 "" [ballotFrom "aa" 1, bothPositions]) spec 1 ≠ [] :=
      List.ne_nil_of_length_pos (hone.symm ▸ Nat.one_pos)
    have htwo := hall hmany spec hspec hne
    rw [hone] at htwo
    exact absurd htwo (by decide)

/-- With the second position on both, or on neither. -/
theorem figures_protected_two :
    ∃ t, computeInstitutionalTally clear twoUnits 1 inTwos "" [ballotFrom "aa" 1, ballotFrom "bb" 1] 3 = .ok t ∧
      Protected clear 1 (Robust.specsOf twoUnits 1)
        (Robust.openedOf clear 1 "" [ballotFrom "aa" 1, ballotFrom "bb" 1]) 2 t := by
  have hok : (computeInstitutionalTally clear twoUnits 1 inTwos "" [ballotFrom "aa" 1, ballotFrom "bb" 1] 3).toOption.isSome
      = true := by decide +kernel
  cases ht : computeInstitutionalTally clear twoUnits 1 inTwos "" [ballotFrom "aa" 1, ballotFrom "bb" 1] 3 with
  | error failure =>
    rw [ht] at hok
    cases hok
  | ok t =>
    refine ⟨t, rfl, (figures_protected ht).mpr fun _ c _ spec hspec hin => ?_⟩
    have hone : ∀ b ∈ Robust.openedOf clear 1 "" [ballotFrom "aa" 1, ballotFrom "bb" 1], b.constituencyId = some 1 := by
      decide +kernel
    have htwo : ∀ spec ∈ Robust.specsOf twoUnits 1,
        2 ≤ (inConstituency (Robust.openedOf clear 1 "" [ballotFrom "aa" 1, ballotFrom "bb" 1]) spec 1).length := by
      decide +kernel
    obtain ⟨b, hb⟩ := List.exists_mem_of_ne_nil _ hin
    obtain ⟨hb, hc⟩ := List.mem_filter.mp hb
    obtain rfl := Option.some.inj ((of_decide_eq_true hc).symm.trans (hone b (List.mem_filter.mp hb).1))
    exact htwo spec hspec

end Anonymity
end FlexyVotes
