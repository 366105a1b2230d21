/-
# Ballots that can be cast

Three sets of rules meet on a position: the form that creates it
(`parse_ballot_rules`), the check before an election is submitted
(`configuration_problems`) and the validation of a selection
(`normalize_selection`). Where the first two have nothing against a position, the
third accepts a selection for it: as many candidates as it asks for, at least
one. Only the least number of scores of a SCORE position is checked by neither,
and where it is greater than the number of candidates every score sheet is
refused (`ballots_votable`).

Key definitions: `parseBallotRules`, `FromRules`, `choice`, `FullyVotable`.
Key theorems: `selectionsOf_ok`, `normalizeSelection_choice`,
`normalizeScore_limit`, `ballots_votable`.
-/
import FlexyVotes.Elections.Configuration
import FlexyVotes.Elections.Eligibility
import FlexyVotes.Elections.EndToEnd

namespace FlexyVotes
namespace Votable

open Transactions Ballot Configuration Eligibility EndToEnd

/-! ### The form of a position -/

/-- What `parse_ballot_rules` returns. -/
structure BallotRules where
  ballotType : BallotType
  minSelect : ℕ
  maxSelect : ℕ
  seats : ℕ
  maxScore : ℕ
  allowAbstain : Bool
  referendumThreshold : ℚ

/-- `_int`: a field of the form as a number, at least the minimum. -/
def formInt (E : Env) (post : String → Option String) (name : String) (default minimum : ℕ) : ℕ :=
  match post name with
  | none => max minimum default
  | some raw =>
    match E.parseInt raw with
    | some n => (max (minimum : ℤ) n).toNat
    | none => default

/-- The ballot type of a form: `SINGLE` unless it names another. -/
def formType (post : String → Option String) : BallotType :=
  ([.SINGLE, .FPTP, .MULTIPLE, .APPROVAL, .RANKED, .SCORE, .REFERENDUM].find? fun t : BallotType =>
    post "ballot_type" = some t.value).getD .SINGLE

/-- `parse_non_negative_decimal`, where `decimal` is a finite `Decimal` of a
string. -/
def parseNonNegativeDecimal (E : Env) (decimal : String → Option ℚ) (raw : String) : Option ℚ :=
  if E.strip raw = "" then none
  else
    match decimal raw with
    | none => none
    | some value => if value < 0 then none else some value

/-- `parse_ballot_rules`. -/
def parseBallotRules (E : Env) (decimal : String → Option ℚ) (post : String → Option String) : BallotRules :=
  let minSelect := formInt E post "min_select" 1 0
  let threshold := parseNonNegativeDecimal E decimal (((post "referendum_threshold").filter (· ≠ "")).getD "50")
  { ballotType := formType post
    minSelect := minSelect
    maxSelect := max minSelect (formInt E post "max_select" 1 1)
    seats := formInt E post "seats" 1 1
    maxScore := min (formInt E post "max_score" 10 1) 100
    allowAbstain := (post "allow_abstain").getD "on" = "on"
    referendumThreshold := min ((threshold.filter (· ≠ 0)).getD 50) 100 }

/-- A position has the rules of a form. -/
def FromRules (E : Env) (decimal : String → Option ℚ) (row : CategoryRow) : Prop :=
  ∃ post, row.ballotType = (parseBallotRules E decimal post).ballotType ∧
    row.minSelect = (parseBallotRules E decimal post).minSelect ∧
    row.maxSelect = (parseBallotRules E decimal post).maxSelect ∧
    row.seats = (parseBallotRules E decimal post).seats ∧
    row.maxScore = (parseBallotRules E decimal post).maxScore ∧
    row.allowAbstain = (parseBallotRules E decimal post).allowAbstain

theorem formInt_ge (E : Env) (post : String → Option String) (name : String) {default minimum : ℕ}
    (h : minimum ≤ default) : minimum ≤ formInt E post name default minimum := by
  unfold formInt
  split
  · exact le_max_left _ _
  · split
    · omega
    · exact h

/-- A form asks for no more than it allows, and allows at least one. -/
theorem FromRules.limits {E : Env} {decimal : String → Option ℚ} {row : CategoryRow} (h : FromRules E decimal row) :
    row.minSelect ≤ row.maxSelect ∧ 1 ≤ row.maxSelect := by
  obtain ⟨post, -, hmin, hmax, -⟩ := h
  rw [hmin, hmax]
  exact ⟨le_max_left _ _, (formInt_ge E post "max_select" (Nat.le_refl 1)).trans (le_max_right _ _)⟩

/-! ### A selection for a position -/

/-- As many candidates as the position asks for, at least one. -/
def choice (p : Position) : Json :=
  match p.row.ballotType with
  | .REFERENDUM => .str "YES"
  | .SCORE => .obj ((validIds p).map fun i => (toString i, .int 0))
  | _ => .arr (((validIds p).take (max 1 (effectiveLimits p).1)).map .int)

variable {E : Env} {p : Position}

theorem toInts_ints (message : String) : ∀ ids : List ℤ, toInts E message (ids.map .int) = .ok ids
  | [] => rfl
  | n :: ids => by
    rw [List.map_cons, toInts, toInts_ints message ids]
    rfl

theorem asList_ints (ids : List ℤ) : asList (.arr (ids.map .int)) = ids.map .int := by
  show (ids.map Json.int).filter (fun x => !isBlank x) = _
  rw [List.filter_eq_self]
  intro x hx
  obtain ⟨n, -, rfl⟩ := List.mem_map.mp hx
  rfl

/-- Enough candidates and not too many are accepted. -/
theorem normalizeChoices_ids {ids : List ℤ} (hne : ids ≠ []) (hnodup : ids.Nodup) (hvalid : ∀ i ∈ ids, i ∈ validIds p)
    (hmin : (effectiveLimits p).1 ≤ ids.length) (hmax : ids.length ≤ (effectiveLimits p).2) :
    ∃ s, normalizeChoices E p (.arr (ids.map .int)) = .ok s ∧ s ≠ .null := by
  unfold normalizeChoices
  rw [asList_ints]
  have hids : toIds E p (ids.map .int) = .ok ids := by
    unfold toIds
    rw [toInts_ints]
    dsimp only
    rw [if_neg (not_not.mpr hnodup), if_neg (not_not.mpr hvalid)]
  cases hcons : ids.map Json.int with
  | nil => exact absurd (List.map_eq_nil_iff.mp hcons) hne
  | cons x xs =>
    dsimp only
    rw [← hcons, hids]
    dsimp only
    rw [if_neg (Nat.not_lt.mpr hmax), if_neg (Nat.not_lt.mpr hmin)]
    split
    · exact ⟨_, rfl, Json.noConfusion⟩
    · exact ⟨_, rfl, Json.noConfusion⟩

theorem mem_setScore (cid score : ℤ) : ∀ scores : List (ℤ × ℤ),
    ∀ x ∈ (setScore cid score scores).map (·.1), x = cid ∨ x ∈ scores.map (·.1)
  | [], x, hx => by
    simp only [setScore, List.map_cons, List.map_nil, List.mem_singleton] at hx
    exact Or.inl hx
  | (c, s) :: rest, x, hx => by
    unfold setScore at hx
    split at hx
    · exact Or.inr hx
    · rcases List.mem_cons.mp hx with rfl | hx
      · exact Or.inr List.mem_cons_self
      · rcases mem_setScore cid score rest x hx with h | h
        · exact Or.inl h
        · exact Or.inr (List.mem_cons_of_mem _ h)

/-- Only candidates of the position have a score. -/
theorem readScores_valid : ∀ (items : List (String × Json)) (scores out : List (ℤ × ℤ)),
    readScores E p items scores = .ok out → (∀ x ∈ scores.map (·.1), x ∈ validIds p) →
      ∀ x ∈ out.map (·.1), x ∈ validIds p
  | [], scores, out, h, hv => by
    cases h
    exact hv
  | (key, value) :: rest, scores, out, h, hv => by
    unfold readScores at h
    split at h
    · exact readScores_valid rest scores out h hv
    · split at h
      · split at h
        · cases h
        · rename_i hcid
          split at h
          · cases h
          · refine readScores_valid rest _ out h fun x hx => ?_
            rcases mem_setScore _ _ _ x hx with rfl | hx
            · exact not_not.mp hcid
            · exact hv x hx
      · cases h
      · cases h

theorem setScore_new {cid score : ℤ} : ∀ {scores : List (ℤ × ℤ)}, cid ∉ scores.map (·.1) →
    setScore cid score scores = scores ++ [(cid, score)]
  | [], _ => rfl
  | (c, s) :: rest, h => by
    rw [List.map_cons, List.mem_cons, not_or] at h
    unfold setScore
    rw [if_neg (Ne.symm h.1), setScore_new h.2]
    rfl

/-- A sheet that gives each candidate the score 0 is read. -/
theorem readScores_zeros (hint : ∀ n : ℤ, E.parseInt (toString n) = some n) :
    ∀ (ids : List ℤ) (scores : List (ℤ × ℤ)), (∀ i ∈ ids, i ∈ validIds p) → (scores.map (·.1) ++ ids).Nodup →
      readScores E p (ids.map fun i => (toString i, .int 0)) scores = .ok (scores ++ ids.map fun i => (i, 0))
  | [], scores, _, _ => by simp [readScores]
  | i :: ids, scores, hvalid, hnodup => by
    have hi : pyInt E (.str (toString i)) = .ok i := by
      rw [pyInt, hint]
    have hnew : i ∉ scores.map (·.1) := fun hmem =>
      (List.nodup_append.mp hnodup).2.2 i hmem i List.mem_cons_self rfl
    have hrest : ((scores ++ [(i, (0 : ℤ))]).map (·.1) ++ ids).Nodup := by
      rw [List.map_append, List.append_assoc]
      exact hnodup
    have hscore : (0 : ℤ) ≤ 0 ∧ (0 : ℤ) ≤ p.row.maxScore := by omega
    rw [List.map_cons, readScores, hi]
    show (if i ∉ validIds p then _ else if ¬ ((0 : ℤ) ≤ 0 ∧ (0 : ℤ) ≤ p.row.maxScore) then _ else
      readScores E p _ (setScore i 0 scores)) = _
    rw [if_neg (not_not.mpr (hvalid i List.mem_cons_self)), if_neg (not_not.mpr hscore), setScore_new hnew,
      readScores_zeros hint ids _ (fun j hj => hvalid j (List.mem_cons_of_mem _ hj)) hrest, List.append_assoc]
    rfl

theorem validIds_nodup (db : Database) (c : ℕ × CategoryRow) :
    (validIds ⟨c.1, c.2, candidatesOf db c.1⟩).Nodup := by
  have hactive : ((activeCandidates ⟨c.1, c.2, candidatesOf db c.1⟩).map (·.1)).Nodup :=
    (candidatesOf_nodup db c.1).sublist (List.filter_sublist.map _)
  have hmap : validIds ⟨c.1, c.2, candidatesOf db c.1⟩ =
      ((activeCandidates ⟨c.1, c.2, candidatesOf db c.1⟩).map (·.1)).map fun n : ℕ => (n : ℤ) := by
    unfold validIds
    rw [List.map_map]
    rfl
  rw [hmap]
  exact hactive.map Nat.cast_injective

/-- Each candidate with a score, where the position asks for no more. -/
theorem normalizeScore_all (hint : ∀ n : ℤ, E.parseInt (toString n) = some n) (hnodup : (validIds p).Nodup)
    (hne : validIds p ≠ []) (hmin : (effectiveLimits p).1 ≤ (validIds p).length) :
    ∃ s, normalizeScore E p (.obj ((validIds p).map fun i => (toString i, .int 0))) = .ok s ∧ s ≠ .null := by
  have hread := readScores_zeros hint (validIds p) [] (fun i hi => hi) hnodup
  rw [List.nil_append] at hread
  unfold normalizeScore
  dsimp only
  rw [if_neg (show ¬ isBlank (.obj _) = true from Bool.false_ne_true)]
  cases hids : validIds p with
  | nil => exact absurd hids hne
  | cons i ids =>
    rw [hids] at hread hmin
    rw [List.map_cons, List.map_cons] at hread
    rw [List.map_cons]
    dsimp only
    rw [hread]
    dsimp only
    rw [if_neg (by simpa using hmin)]
    exact ⟨_, rfl, Json.noConfusion⟩

/-- A score sheet that is accepted has as many candidates as the position asks
for. -/
theorem normalizeScore_limit {raw s : Json} (h : normalizeScore E p raw = .ok s) (hs : s ≠ .null) :
    (effectiveLimits p).1 ≤ (validIds p).length := by
  unfold normalizeScore at h
  dsimp only at h
  split at h
  · exact absurd (abstain_eq_ok h) hs
  · split at h
    · exact absurd (abstain_eq_ok h) hs
    · rename_i items hitems
      split at h
      · cases h
      · exact absurd (abstain_eq_ok h) hs
      · rename_i scores hne hread
        split at h
        · cases h
        · rename_i hlen
          have hnodup := readScores_nodup _ [] scores hread List.nodup_nil
          have hvalid := readScores_valid _ [] scores hread (fun x hx => nomatch hx)
          have hle := (List.subperm_of_subset hnodup hvalid).length_le
          rw [List.length_map] at hle
          omega
    · cases h

/-! ### What the check of the configuration leaves -/

/-- A position with nothing against it has a candidate, and no more selections
are asked for than it has where they are counted. -/
theorem positionProblems_nil (h : positionProblems p = []) (htype : p.row.ballotType ≠ .REFERENDUM) :
    1 ≤ (activeCandidates p).length ∧
      (countsSelections p.row.ballotType = true → (effectiveLimits p).1 ≤ (activeCandidates p).length) := by
  unfold positionProblems at h
  rw [if_neg htype] at h
  dsimp only at h
  rw [List.append_eq_nil_iff, List.append_eq_nil_iff] at h
  obtain ⟨⟨hcount, -⟩, -⟩ := h
  split at hcount
  · cases hcount
  · rename_i hzero
    split at hcount
    · cases hcount
    · rename_i hfew
      refine ⟨Nat.one_le_iff_ne_zero.mpr hzero, fun hcounts => ?_⟩
      by_contra hlt
      exact hfew ⟨hcounts, Nat.not_le.mp hlt⟩

/-- What the type of a position makes of its limits. -/
theorem effectiveLimits_cases (hlimits : p.row.minSelect ≤ p.row.maxSelect ∧ 1 ≤ p.row.maxSelect)
    (hscore : p.row.ballotType ≠ .SCORE) (hone : 1 ≤ (activeCandidates p).length)
    (hcounts : countsSelections p.row.ballotType = true → (effectiveLimits p).1 ≤ (activeCandidates p).length) :
    max 1 (effectiveLimits p).1 ≤ (activeCandidates p).length ∧
      max 1 (effectiveLimits p).1 ≤ (effectiveLimits p).2 := by
  unfold effectiveLimits at hcounts ⊢
  cases htype : p.row.ballotType with
  | SCORE => exact absurd htype hscore
  | SINGLE => exact ⟨by dsimp only; omega, by dsimp only; omega⟩
  | APPROVAL => exact ⟨by dsimp only; omega, by dsimp only; omega⟩
  | REFERENDUM => exact ⟨by dsimp only; omega, by dsimp only; omega⟩
  | FPTP =>
    rw [htype] at hcounts
    have hcount := hcounts rfl
    dsimp only at hcount ⊢
    exact ⟨by omega, by omega⟩
  | MULTIPLE =>
    rw [htype] at hcounts
    have hcount := hcounts rfl
    dsimp only at hcount ⊢
    exact ⟨by omega, by omega⟩
  | RANKED =>
    rw [htype] at hcounts
    have hcount := hcounts rfl
    dsimp only at hcount ⊢
    exact ⟨by omega, by omega⟩

/-- **The choice is accepted** where nothing is against the position, and, for
scores, it asks for no more of them than it has candidates. -/
theorem normalizeSelection_choice (hint : ∀ n : ℤ, E.parseInt (toString n) = some n) (hyes : E.upper "YES" = "YES")
    (hproblems : positionProblems p = []) (hlimits : p.row.minSelect ≤ p.row.maxSelect ∧ 1 ≤ p.row.maxSelect)
    (hnodup : (validIds p).Nodup)
    (hscore : p.row.ballotType = .SCORE → p.row.minSelect ≤ (activeCandidates p).length) :
    ∃ s, normalizeSelection E p (choice p) = .ok s ∧ s ≠ .null := by
  have hlength : (validIds p).length = (activeCandidates p).length := List.length_map _
  have hchoices : p.row.ballotType ≠ .SCORE → p.row.ballotType ≠ .REFERENDUM →
      ∃ s, normalizeChoices E p (.arr (((validIds p).take (max 1 (effectiveLimits p).1)).map .int)) = .ok s ∧
        s ≠ .null := by
    intro hs hr
    obtain ⟨hone, hcounts⟩ := positionProblems_nil hproblems hr
    obtain ⟨hcount, hmax⟩ := effectiveLimits_cases hlimits hs hone hcounts
    have htake : ((validIds p).take (max 1 (effectiveLimits p).1)).length = max 1 (effectiveLimits p).1 := by
      rw [List.length_take, hlength]
      omega
    refine normalizeChoices_ids (fun hnil => ?_) (hnodup.sublist (List.take_sublist _ _))
      (fun i hi => List.mem_of_mem_take hi) (by omega) (by omega)
    rw [hnil] at htake
    simp only [List.length_nil] at htake
    omega
  unfold normalizeSelection choice
  cases htype : p.row.ballotType with
  | REFERENDUM =>
    refine ⟨.str "YES", ?_, Json.noConfusion⟩
    show (if E.upper "YES" ∈ REFERENDUM_OPTIONS then Except.ok (Json.str (E.upper "YES")) else _) = _
    rw [hyes]
    rfl
  | SCORE =>
    have hone := (positionProblems_nil hproblems (by rw [htype]; decide)).1
    refine normalizeScore_all hint hnodup (fun hnil => ?_) ?_
    · rw [hnil, List.length_nil] at hlength
      omega
    · rw [hlength]
      unfold effectiveLimits
      rw [htype]
      exact hscore htype
  | SINGLE => exact hchoices (by rw [htype]; decide) (by rw [htype]; decide)
  | FPTP => exact hchoices (by rw [htype]; decide) (by rw [htype]; decide)
  | MULTIPLE => exact hchoices (by rw [htype]; decide) (by rw [htype]; decide)
  | APPROVAL => exact hchoices (by rw [htype]; decide) (by rw [htype]; decide)
  | RANKED => exact hchoices (by rw [htype]; decide) (by rw [htype]; decide)

/-! ### The whole ballot -/

/-- A ballot is accepted position by position, in ballot order. -/
theorem selectionsOf_ok {style : List ℕ} {payload : List (String × Json)} :
    ∀ {positions : List Position} {selections : List (String × Json)},
      selectionsOf E style payload positions = .ok selections ↔
        List.Forall₂ (fun (p : Position) (m : String × Json) => m.1 = toString p.pk ∧
          normalizeSelection E p ((Json.get? payload (toString p.pk)).getD .null) = .ok m.2)
          (positions.filter fun p => p.pk ∈ style) selections
  | [], selections => by
    rw [List.filter_nil, List.forall₂_nil_left_iff, selectionsOf, Except.ok.injEq, eq_comm]
  | p :: ps, selections => by
    unfold selectionsOf
    by_cases hp : p.pk ∈ style
    · rw [if_neg (not_not.mpr hp), List.filter_cons, if_pos (decide_eq_true hp), List.forall₂_cons_left_iff]
      constructor
      · intro h
        split at h
        · cases h
        · rename_i j hj
          cases hrest : selectionsOf E style payload ps with
          | error failure =>
            rw [hrest] at h
            cases h
          | ok rest =>
            rw [hrest] at h
            cases h
            exact ⟨_, rest, ⟨rfl, hj⟩, selectionsOf_ok.mp hrest, rfl⟩
      · rintro ⟨⟨key, j⟩, rest, ⟨hkey, hj⟩, hrest, rfl⟩
        dsimp only at hkey hj
        rw [hj, selectionsOf_ok.mpr hrest, hkey]
        rfl
    · rw [if_pos hp, List.filter_cons, if_neg (by simpa using hp)]
      exact selectionsOf_ok

/-- Each position of the style has a selection that is no abstention, in a
ballot that is accepted. -/
def FullyVotable (E : Env) (positions : List Position) (style : List ℕ) : Prop :=
  ∃ payload selections, validateBallot E positions style payload = .ok selections ∧
    ∀ pk ∈ style, ∃ s, Json.get? selections (toString pk) = some s ∧ s ≠ .null

section Whole

variable {positions : List Position} {style : List ℕ}

/-- A ballot with every position of the style is accepted exactly when each
of them accepts some selection. -/
theorem fullyVotable_iff (hpk : (positions.map (·.pk)).Nodup) (hstyle : ∀ pk ∈ style, ∃ p ∈ positions, p.pk = pk) :
    FullyVotable E positions style ↔
      ∀ p ∈ positions, p.pk ∈ style → ∃ raw s, normalizeSelection E p raw = .ok s ∧ s ≠ .null := by
  constructor
  · rintro ⟨payload, selections, hvalid, hall⟩ p hp hpstyle
    have hvalidated := validateBallot_validated hvalid
    unfold validateBallot at hvalid
    split at hvalid
    · cases hvalid
    · rename_i items hitems
      obtain ⟨s, hs, hnull⟩ := hall p.pk hpstyle
      have hmem := (Json.get?_eq_some (hvalidated.nodup hpk)).mp hs
      obtain ⟨p', hp', hkey, hnormal⟩ := Counting.exists_of_mem_right (selectionsOf_ok.mp hvalid) _ hmem
      have hsame : p = p' := List.inj_on_of_nodup_map hpk hp (List.mem_filter.mp hp').1 (toString_pk_injective hkey)
      rw [hsame]
      exact ⟨_, s, hnormal, hnull⟩
  · intro h
    have hraw : ∀ p ∈ positions.filter fun p => p.pk ∈ style, ∃ raw s, normalizeSelection E p raw = .ok s ∧ s ≠ .null :=
      fun p hp => h p (List.mem_filter.mp hp).1 (of_decide_eq_true (List.mem_filter.mp hp).2)
    choose! raw s hok using hraw
    let on := positions.filter fun p => p.pk ∈ style
    let items := on.map fun p => (toString p.pk, raw p)
    let selections := on.map fun p => (toString p.pk, s p)
    have hkeys : (on.map fun p => toString p.pk).Nodup := by
      have hon : (on.map (·.pk)).Nodup := hpk.sublist (List.filter_sublist.map _)
      have hmap : (on.map fun p => toString p.pk) = (on.map (·.pk)).map fun n : ℕ => toString n := by
        rw [List.map_map]
        rfl
      rw [hmap]
      exact hon.map toString_pk_injective
    have hget : ∀ (f : Position → Json), ∀ p ∈ on,
        Json.get? (on.map fun p => (toString p.pk, f p)) (toString p.pk) = some (f p) := fun f p hp => by
      refine (Json.get?_eq_some ?_).mpr (List.mem_map.mpr ⟨p, hp, rfl⟩)
      rw [List.map_map]
      exact hkeys
    have hselections : selectionsOf E style items positions = .ok selections := by
      refine selectionsOf_ok.mpr (List.forall₂_map_right_iff.mpr (List.forall₂_same.mpr fun p hp => ⟨rfl, ?_⟩))
      rw [hget raw p hp]
      exact (hok p hp).1
    refine ⟨.obj items, selections, ?_, fun pk hpkstyle => ?_⟩
    · have hallowed : ∀ item ∈ items, item.1 ∈ style.map (fun p => toString p) := fun item hitem => by
        obtain ⟨p, hp, rfl⟩ := List.mem_map.mp hitem
        exact List.mem_map.mpr ⟨p.pk, of_decide_eq_true (List.mem_filter.mp hp).2, rfl⟩
      have hitems : ballotItems style (.obj items) = .ok items := if_pos hallowed
      unfold validateBallot
      rw [hitems]
      exact hselections
    · obtain ⟨p, hp, rfl⟩ := hstyle pk hpkstyle
      have hon : p ∈ on := List.mem_filter.mpr ⟨hp, decide_eq_true hpkstyle⟩
      exact ⟨s p, hget s p hon, (hok p hon).2⟩

end Whole

/-- The positions of a voter's ballot style are positions of the election. -/
theorem mem_ballotStyle {db : Database} {e : ℕ} {rules : List RuleRow} {v : VoterRow} {pk : ℕ}
    (h : pk ∈ ballotStyle E db db rules v e) : ∃ p ∈ positionsFor (categoriesOf db e) db, p.pk = pk := by
  unfold ballotStyle at h
  split at h
  · exact absurd h List.not_mem_nil
  · rw [List.mem_insertionSort] at h
    obtain ⟨c, hc, rfl⟩ := List.mem_map.mp h
    exact ⟨⟨c.1, c.2, candidatesOf db c.1⟩, List.mem_map.mpr ⟨c, (List.mem_filter.mp hc).1, rfl⟩, rfl⟩

theorem configurationProblems_positions {db : Database} {e : ℕ} {ev : EventRow} (hinst : ev.isInstitutional = true)
    (h : configurationProblems db e ev = []) : ∀ p ∈ positionsFor (categoriesOf db e) db, positionProblems p = [] := by
  unfold configurationProblems at h
  dsimp only at h
  rw [if_pos hinst] at h
  simp only [List.append_eq_nil_iff] at h
  exact List.flatMap_eq_nil_iff.mp h.2.1.1.1.2

/-- **An election with nothing against it can be voted in, in full, unless a
score sheet asks for more scores than there are candidates.** -/
theorem ballots_votable (hint : ∀ n : ℤ, E.parseInt (toString n) = some n) (hyes : E.upper "YES" = "YES")
    {decimal : String → Option ℚ} {db : Database} {e : ℕ} {ev : EventRow} (hinst : ev.isInstitutional = true)
    (hproblems : configurationProblems db e ev = [])
    (hrules : ∀ p ∈ positionsFor (categoriesOf db e) db, FromRules E decimal p.row) (rules : List RuleRow) (v : VoterRow) :
    FullyVotable E (positionsFor (categoriesOf db e) db) (ballotStyle E db db rules v e) ↔
      ∀ p ∈ positionsFor (categoriesOf db e) db, p.pk ∈ ballotStyle E db db rules v e →
        p.row.ballotType = .SCORE → p.row.minSelect ≤ (activeCandidates p).length := by
  have hall := configurationProblems_positions hinst hproblems
  have hpk : ((positionsFor (categoriesOf db e) db).map (·.pk)).Nodup := positionsAt_nodup db e
  rw [fullyVotable_iff hpk fun pk hpk => mem_ballotStyle hpk]
  refine forall₃_congr fun p hp hstyle => ?_
  constructor
  · rintro ⟨raw, s, hs, hnull⟩ htype
    unfold normalizeSelection at hs
    rw [htype] at hs
    have hlimit := normalizeScore_limit hs hnull
    have hlength : (validIds p).length = (activeCandidates p).length := List.length_map _
    unfold effectiveLimits at hlimit
    rw [htype, hlength] at hlimit
    exact hlimit
  · intro hscore
    obtain ⟨c, hc, rfl⟩ := List.mem_map.mp hp
    obtain ⟨s, hs, hnull⟩ := normalizeSelection_choice hint hyes (hall _ hp) (hrules _ hp).limits (validIds_nodup db c)
      hscore
    exact ⟨_, s, hs, hnull⟩

/-! ### Two scores of one candidate -/

/-- An election of a score position with one candidate. -/
def scoreElection (minSelect : ℕ) : Database :=
  ((Db.empty.set (.category 1)
      (some { event := 1, name := "Chair", ballotType := .SCORE, minSelect := minSelect, maxSelect := minSelect })).set
    (.candidate 7) (some { category := some 1, event := 1, name := "Ama" })).set
    (.voter 5) (some { election := 1 })

def institutional : EventRow := { startDate := 0, endDate := 1, votingMode := .CODE_VOTING }

/-- The form that asks for the scores. -/
def scoreForm (minSelect : String) : String → Option String
  | "ballot_type" => some "SCORE"
  | "min_select" => some minSelect
  | _ => none

/-- A member of the roll. -/
def member : VoterRow := { election := 1 }

theorem ballots_votable_one :
    FullyVotable legible (positionsFor (categoriesOf (scoreElection 1) 1) (scoreElection 1))
      (ballotStyle legible (scoreElection 1) (scoreElection 1) [] member 1) := by
  have hrows : ∀ p ∈ positionsFor (categoriesOf (scoreElection 1) 1) (scoreElection 1),
      p.row.ballotType = (parseBallotRules legible (fun _ => none) (scoreForm "1")).ballotType ∧
      p.row.minSelect = (parseBallotRules legible (fun _ => none) (scoreForm "1")).minSelect ∧
      p.row.maxSelect = (parseBallotRules legible (fun _ => none) (scoreForm "1")).maxSelect ∧
      p.row.seats = (parseBallotRules legible (fun _ => none) (scoreForm "1")).seats ∧
      p.row.maxScore = (parseBallotRules legible (fun _ => none) (scoreForm "1")).maxScore ∧
      p.row.allowAbstain = (parseBallotRules legible (fun _ => none) (scoreForm "1")).allowAbstain := by
    decide +kernel
  exact (ballots_votable legible_int rfl rfl (show configurationProblems (scoreElection 1) 1 institutional = [] by
    decide +kernel) (fun p hp => ⟨scoreForm "1", hrows p hp⟩) [] member).mpr (by decide +kernel)

/-- Two scores are asked for, of one candidate. -/
theorem not_ballots_votable :
    ¬ ∀ (E : Env) (decimal : String → Option ℚ) (db : Database) (e : ℕ) (ev : EventRow) (v : VoterRow),
      (∀ n : ℤ, E.parseInt (toString n) = some n) → E.upper "YES" = "YES" → ev.isInstitutional = true →
      configurationProblems db e ev = [] →
      (∀ p ∈ positionsFor (categoriesOf db e) db, FromRules E decimal p.row) →
      ballotStyle E db db (rulesOf db e) v e ≠ [] →
      FullyVotable E (positionsFor (categoriesOf db e) db) (ballotStyle E db db (rulesOf db e) v e) := by
  intro h
  have hrows : ∀ p ∈ positionsFor (categoriesOf (scoreElection 2) 1) (scoreElection 2),
      p.row.ballotType = (parseBallotRules legible (fun _ => none) (scoreForm "2")).ballotType ∧
      p.row.minSelect = (parseBallotRules legible (fun _ => none) (scoreForm "2")).minSelect ∧
      p.row.maxSelect = (parseBallotRules legible (fun _ => none) (scoreForm "2")).maxSelect ∧
      p.row.seats = (parseBallotRules legible (fun _ => none) (scoreForm "2")).seats ∧
      p.row.maxScore = (parseBallotRules legible (fun _ => none) (scoreForm "2")).maxScore ∧
      p.row.allowAbstain = (parseBallotRules legible (fun _ => none) (scoreForm "2")).allowAbstain := by
    decide +kernel
  have hvotable := h legible (fun _ => none) (scoreElection 2) 1 institutional member legible_int rfl rfl
    (by decide +kernel) (fun p hp => ⟨scoreForm "2", hrows p hp⟩) (by decide +kernel)
  have hpk : ((positionsFor (categoriesOf (scoreElection 2) 1) (scoreElection 2)).map (·.pk)).Nodup :=
    positionsAt_nodup _ _
  have hlimits : ∀ p ∈ positionsFor (categoriesOf (scoreElection 2) 1) (scoreElection 2),
      p.row.ballotType = .SCORE ∧ (effectiveLimits p).1 = 2 ∧ (validIds p).length = 1 ∧
        p.pk ∈ ballotStyle legible (scoreElection 2) (scoreElection 2) (rulesOf (scoreElection 2) 1) member 1 := by
    decide +kernel
  obtain ⟨p, hp⟩ := List.exists_mem_of_ne_nil (positionsFor (categoriesOf (scoreElection 2) 1) (scoreElection 2))
    (List.ne_nil_of_length_pos (by decide +kernel))
  obtain ⟨htype, hmin, hcount, hstyle⟩ := hlimits p hp
  obtain ⟨raw, s, hs, hnull⟩ := (fullyVotable_iff hpk fun pk hpk => mem_ballotStyle hpk).mp hvotable p hp hstyle
  unfold normalizeSelection at hs
  rw [htype] at hs
  have hlimit := normalizeScore_limit hs hnull
  omega

end Votable
end FlexyVotes
