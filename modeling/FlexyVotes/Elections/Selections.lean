/-
# Validated selections

What `normalize_selection` accepts, and as what. An accepted selection is
valid: an abstention where that is allowed, an answer, scores of active
candidates or a choice of them, in number between the limits
(`normalizeSelection_valid`); and a valid selection is its own normal form
(`Valid.normalize`), so validating again changes nothing.

Two payloads slip through. `int` of an infinite number is an `OverflowError`,
which is not caught; and two spellings of a candidate's id in a SCORE
selection are two scores of it, of which the last counts. `validateBallot` does
what it should exactly on payloads without either (`validateBallot_sound`).

Key definitions: `Valid`, `Acceptable`, `Spoiled`, `Twice`, `Sound`, `Steady`.
Key theorems: `normalizeSelection_ok`, `normalizeSelection_crash`,
`normalizeSelection_valid`, `Valid.normalize`, `validateBallot_sound`,
`validateBallot_idempotent`.
-/
import FlexyVotes.Elections.Votable
import FlexyVotes.Lib.Failures

namespace FlexyVotes
namespace Selections

open Transactions Ballot EndToEnd Votable Failures

variable {E : Env} {p : Position}

/-! ### Valid selections -/

/-- What a selection of a position is when it is valid: an abstention where the
position allows it, an answer, scores of distinct active candidates, or
distinct active candidates, in number between the limits. But for a ranking,
candidates are in the order of their ids. -/
inductive Valid (p : Position) : Json → Prop
  | abstained : p.row.allowAbstain = true → Valid p .null
  | answer {option : String} : p.row.ballotType = .REFERENDUM → option ∈ REFERENDUM_OPTIONS → Valid p (.str option)
  | scores {scores : List (ℤ × ℤ)} : p.row.ballotType = .SCORE → scores ≠ [] →
      (scores.map (·.1)).Pairwise (· < ·) →
      (∀ s ∈ scores, s.1 ∈ validIds p ∧ 0 ≤ s.2 ∧ s.2 ≤ p.row.maxScore) →
      (effectiveLimits p).1 ≤ scores.length → scores.length ≤ (effectiveLimits p).2 →
      Valid p (.obj (scores.map scoreMember))
  | choice {ids : List ℤ} : p.row.ballotType ≠ .REFERENDUM → p.row.ballotType ≠ .SCORE → ids ≠ [] → ids.Nodup →
      (p.row.ballotType ≠ .RANKED → ids.Pairwise (· < ·)) → (∀ i ∈ ids, i ∈ validIds p) →
      (effectiveLimits p).1 ≤ ids.length → ids.length ≤ (effectiveLimits p).2 → Valid p (.arr (ids.map .int))

theorem increasing_insertionSort {α : Type} (key : α → ℤ) {l : List α} (h : (l.map key).Nodup) :
    ((l.insertionSort fun a b => key a ≤ key b).map key).Pairwise (· < ·) := by
  have hperm := List.perm_insertionSort (fun a b => key a ≤ key b) l
  have hnodup : ((l.insertionSort fun a b => key a ≤ key b).map key).Nodup := (hperm.map key).nodup_iff.mpr h
  have hsorted : ((l.insertionSort fun a b => key a ≤ key b).map key).Pairwise (· ≤ ·) := by
    rw [List.pairwise_map]
    exact List.pairwise_insertionSort _ l
  exact (hsorted.and hnodup).imp fun h => lt_of_le_of_ne h.1 h.2

theorem mem_setScore_pair {cid score : ℤ} : ∀ {scores : List (ℤ × ℤ)} {s : ℤ × ℤ},
    s ∈ setScore cid score scores → s = (cid, score) ∨ s ∈ scores
  | [], s, h => by
    simp only [setScore, List.mem_singleton] at h
    exact .inl h
  | (c, t) :: rest, s, h => by
    unfold setScore at h
    split at h
    · rename_i hc
      rcases List.mem_cons.mp h with rfl | h
      · exact .inl (by rw [hc])
      · exact .inr (List.mem_cons_of_mem _ h)
    · rcases List.mem_cons.mp h with rfl | h
      · exact .inr List.mem_cons_self
      · exact (mem_setScore_pair h).imp_right (List.mem_cons_of_mem _)

/-- A score of a candidate of the position, in its range. -/
def InRange (p : Position) (s : ℤ × ℤ) : Prop := s.1 ∈ validIds p ∧ 0 ≤ s.2 ∧ s.2 ≤ p.row.maxScore

/-- One item of a SCORE selection, as it is checked. -/
def scoreItem (E : Env) (p : Position) (item : String × Json) : Except Failure (ℤ × ℤ) :=
  match pyInt E (.str item.1), pyInt E item.2 with
  | .ok cid, .ok score =>
    if cid ∉ validIds p then .error (.ballot ("Invalid candidate scored for " ++ quoted p ++ "."))
    else if ¬(0 ≤ score ∧ score ≤ p.row.maxScore) then
      .error (.ballot ("Scores for " ++ quoted p ++ " must be between 0 and " ++ toString p.row.maxScore ++ "."))
    else .ok (cid, score)
  | .error e, _ => .error (intFailure ("Invalid score for " ++ quoted p ++ ".") e)
  | .ok _, .error e => .error (intFailure ("Invalid score for " ++ quoted p ++ ".") e)

theorem scoreItem_ok {item : String × Json} {s : ℤ × ℤ} : scoreItem E p item = .ok s ↔
    pyInt E (.str item.1) = .ok s.1 ∧ pyInt E item.2 = .ok s.2 ∧ InRange p s := by
  unfold scoreItem InRange
  constructor
  · intro h
    split at h
    · rename_i cid score hkey hvalue
      split at h
      · cases h
      · rename_i hcid
        split at h
        · cases h
        · rename_i hscore
          cases h
          exact ⟨hkey, hvalue, not_not.mp hcid, not_not.mp hscore⟩
    · cases h
    · cases h
  · rintro ⟨hkey, hvalue, hcid, hscore⟩
    rw [hkey, hvalue]
    dsimp only
    rw [if_neg (not_not.mpr hcid), if_neg (not_not.mpr hscore)]

/-- The items that are no blanks. -/
def scored (items : List (String × Json)) : List (String × Json) := items.filter fun item => !isBlank item.2

/-- The items are read one after the other. -/
theorem readScores_eq (E : Env) (p : Position) : ∀ (items : List (String × Json)) (scores : List (ℤ × ℤ)),
    readScores E p items scores =
      (scored items).foldlM (fun scores item => (scoreItem E p item).map fun s => setScore s.1 s.2 scores) scores
  | [], scores => rfl
  | (key, value) :: rest, scores => by
    unfold readScores scored
    by_cases hblank : isBlank value = true
    · rw [if_pos hblank, List.filter_cons, if_neg (by simp [hblank])]
      exact readScores_eq E p rest scores
    · rw [if_neg hblank, List.filter_cons, if_pos (by simpa using hblank), List.foldlM_cons]
      unfold scoreItem
      dsimp only
      cases pyInt E (.str key) with
      | error e => rfl
      | ok cid =>
        cases pyInt E value with
        | error e => rfl
        | ok score =>
          dsimp only
          split
          · rfl
          · split
            · rfl
            · exact readScores_eq E p rest _

/-! ### The ids of a list -/

theorem toInts_ok (message : String) : ∀ {values : List Json} {ids : List ℤ},
    toInts E message values = .ok ids ↔ List.Forall₂ (fun v n => pyInt E v = .ok n) values ids
  | [], ids => by rw [toInts, Except.ok.injEq, List.forall₂_nil_left_iff, eq_comm]
  | v :: values, ids => by
    rw [toInts, List.forall₂_cons_left_iff]
    cases hv : pyInt E v with
    | error e => simp
    | ok n =>
      cases hrest : toInts E message values with
      | error e =>
        have hnone : ∀ l, ¬List.Forall₂ (fun v n => pyInt E v = .ok n) values l := fun l hl => by
          rw [← toInts_ok message, hrest] at hl
          cases hl
        simp [Except.map, hnone]
      | ok rest =>
        have hone : ∀ l, List.Forall₂ (fun v n => pyInt E v = .ok n) values l ↔ rest = l := fun l => by
          rw [← toInts_ok message, hrest, Except.ok.injEq]
        simp only [Except.map, Except.ok.injEq, hone, exists_eq_left', exists_and_left]
        exact eq_comm

theorem toInts_error (message : String) {e : Failure} : ∀ {values : List Json},
    toInts E message values = .error e ↔ ∃ err, FirstError (pyInt E) values err ∧ e = intFailure message err
  | [] => by
    refine iff_of_false (fun h => nomatch h) ?_
    rintro ⟨err, h, -⟩
    exact not_firstError_nil h
  | v :: values => by
    have ih : toInts E message values = .error e ↔ _ := toInts_error message
    simp only [firstError_cons]
    rw [toInts]
    cases hv : pyInt E v with
    | error err => simp [eq_comm]
    | ok n =>
      simp only [reduceCtorEq, Except.ok.injEq, exists_eq', true_and, false_or]
      rw [← ih]
      cases toInts E message values <;> simp [Except.map]

/-! ### Scores -/

/-- The scores of items that are all read. -/
def collect (ss : List (ℤ × ℤ)) : List (ℤ × ℤ) := ss.foldl (fun scores s => setScore s.1 s.2 scores) []

theorem setScore_key_iff {cid score x : ℤ} : ∀ {scores : List (ℤ × ℤ)},
    x ∈ (setScore cid score scores).map (·.1) ↔ x = cid ∨ x ∈ scores.map (·.1)
  | [] => by simp [setScore]
  | (c, t) :: rest => by
    unfold setScore
    split
    · rename_i hc
      simp [hc]
    · rw [List.map_cons, List.mem_cons, setScore_key_iff, List.map_cons, List.mem_cons]
      exact or_left_comm

theorem foldl_setScore (ss : List (ℤ × ℤ)) : ∀ scores : List (ℤ × ℤ), (scores.map (·.1)).Nodup →
    let out := ss.foldl (fun scores s => setScore s.1 s.2 scores) scores
    (out.map (·.1)).Nodup ∧ (∀ x, x ∈ out.map (·.1) ↔ x ∈ scores.map (·.1) ∨ x ∈ ss.map (·.1)) ∧
      ∀ s ∈ out, s ∈ scores ∨ s ∈ ss := by
  induction ss with
  | nil => exact fun scores hn => ⟨hn, by simp, fun s hs => .inl hs⟩
  | cons t ss ih =>
    intro scores hn
    obtain ⟨hnodup, hkeys, hmem⟩ := ih _ (setScore_keys t.1 t.2 scores hn).1
    refine ⟨hnodup, fun x => ?_, fun s hs => ?_⟩
    · rw [List.foldl_cons, hkeys, setScore_key_iff, List.map_cons, List.mem_cons]
      tauto
    · rcases hmem s hs with h | h
      · rcases mem_setScore_pair h with rfl | h
        · exact .inr List.mem_cons_self
        · exact .inl h
      · exact .inr (List.mem_cons_of_mem _ h)

theorem collect_nodup (ss : List (ℤ × ℤ)) : ((collect ss).map (·.1)).Nodup :=
  (foldl_setScore ss [] List.nodup_nil).1

theorem mem_collect {ss : List (ℤ × ℤ)} {s : ℤ × ℤ} (h : s ∈ collect ss) : s ∈ ss :=
  ((foldl_setScore ss [] List.nodup_nil).2.2 s h).resolve_left List.not_mem_nil

/-- There is a score for each candidate that is named. -/
theorem collect_length (ss : List (ℤ × ℤ)) : (collect ss).length = (ss.map (·.1)).dedup.length := by
  have hkeys := (foldl_setScore ss [] List.nodup_nil).2.1
  have hperm : ((collect ss).map (·.1)).Perm (ss.map (·.1)).dedup := by
    rw [List.perm_ext_iff_of_nodup (collect_nodup ss) (List.nodup_dedup _)]
    intro x
    rw [List.mem_dedup]
    exact (hkeys x).trans (by simp)
  rw [← hperm.length_eq, List.length_map]

theorem collect_ne_nil {ss : List (ℤ × ℤ)} (h : ss ≠ []) : collect ss ≠ [] := by
  intro hnil
  have hlen := collect_length ss
  rw [hnil, List.length_nil, eq_comm, List.length_eq_zero_iff, List.dedup_eq_nil, List.map_eq_nil_iff] at hlen
  exact h hlen

/-- Nothing is scored. -/
def NoScores (raw : Json) : Prop := isBlank raw = true ∨ ∃ items, raw = .obj items ∧ scored items = []

theorem readScores_ok {items : List (String × Json)} {out : List (ℤ × ℤ)} : readScores E p items [] = .ok out ↔
    ∃ ss, List.Forall₂ (fun item s => scoreItem E p item = .ok s) (scored items) ss ∧ out = collect ss := by
  rw [readScores_eq]
  exact foldlM_ok

theorem readScores_error {items : List (String × Json)} {e : Failure} :
    readScores E p items [] = .error e ↔ FirstError (scoreItem E p) (scored items) e := by
  rw [readScores_eq]
  exact foldlM_error

theorem abstain_ok {message : String} {j : Json} :
    abstain p message = .ok j ↔ p.row.allowAbstain = true ∧ j = .null := by
  unfold abstain
  split
  · rename_i h
    simp [h, eq_comm]
  · rename_i h
    simp [h]

theorem abstain_error {message : String} {e : Failure} (h : abstain p message = .error e) : ∃ m, e = .ballot m := by
  unfold abstain at h
  split at h
  · cases h
  · cases h
    exact ⟨_, rfl⟩

theorem normalizeScore_obj (items : List (String × Json)) : normalizeScore E p (.obj items) =
    match readScores E p items [] with
    | .error e => .error e
    | .ok [] => abstain p ("Please score the candidates for " ++ quoted p ++ ".")
    | .ok scores =>
      if scores.length < (effectiveLimits p).1 then
        .error (.ballot ("Score at least " ++ toString (effectiveLimits p).1 ++ " candidate(s) for " ++ quoted p ++ "."))
      else .ok (scoresJson scores) := by
  cases items with
  | nil => rfl
  | cons item items => rfl

theorem normalizeScore_blank {raw : Json} (h : isBlank raw = true) :
    normalizeScore E p raw = abstain p ("Please score the candidates for " ++ quoted p ++ ".") := by
  unfold normalizeScore
  exact if_pos h

theorem normalizeScore_other {raw : Json} (h : ¬isBlank raw = true) (hobj : ∀ items, raw ≠ .obj items) :
    normalizeScore E p raw = .error (.ballot ("Invalid scores for " ++ quoted p ++ ".")) := by
  unfold normalizeScore
  dsimp only
  rw [if_neg h]
  cases raw with
  | obj items => exact absurd rfl (hobj items)
  | _ => rfl

/-- When a SCORE selection is accepted, and as what. -/
theorem normalizeScore_ok {raw j : Json} : normalizeScore E p raw = .ok j ↔
    (NoScores raw ∧ p.row.allowAbstain = true ∧ j = .null) ∨
      ∃ items ss, raw = .obj items ∧ scored items ≠ [] ∧
        List.Forall₂ (fun item s => scoreItem E p item = .ok s) (scored items) ss ∧
        (effectiveLimits p).1 ≤ (collect ss).length ∧ j = scoresJson (collect ss) := by
  by_cases hobj : ∃ items, raw = .obj items
  · obtain ⟨items, rfl⟩ := hobj
    have hno : NoScores (.obj items) ↔ scored items = [] := by
      simp [NoScores, isBlank]
    rw [normalizeScore_obj, hno]
    simp only [Json.obj.injEq, exists_and_left, exists_eq_left']
    cases hread : readScores E p items [] with
    | error e =>
      have hbad : ∀ ss, ¬List.Forall₂ (fun item s => scoreItem E p item = .ok s) (scored items) ss := fun ss hss => by
        rw [readScores_ok.mpr ⟨ss, hss, rfl⟩] at hread
        cases hread
      have hsome : scored items ≠ [] := fun hnil => hbad [] (hnil ▸ .nil)
      simp [hbad, hsome]
    | ok out =>
      obtain ⟨ss, hss, rfl⟩ := readScores_ok.mp hread
      by_cases hnil : scored items = []
      · rw [hnil, List.forall₂_nil_left_iff] at hss
        rw [hss]
        simp [collect, abstain_ok, hnil]
      · have hne : collect ss ≠ [] := collect_ne_nil fun h => hnil (by rwa [h, List.forall₂_nil_right_iff] at hss)
        have hout : (∃ ss', List.Forall₂ (fun item s => scoreItem E p item = .ok s) (scored items) ss' ∧
            (effectiveLimits p).1 ≤ (collect ss').length ∧ j = scoresJson (collect ss')) ↔
            (effectiveLimits p).1 ≤ (collect ss).length ∧ j = scoresJson (collect ss) := by
          constructor
          · rintro ⟨ss', hss', h⟩
            rwa [forall₂_ok_unique hss' hss] at h
          · exact fun h => ⟨ss, hss, h⟩
        simp only [hnil, ne_eq, not_false_eq_true, true_and, false_and, false_or, hout]
        cases hc : collect ss with
        | nil => exact absurd hc hne
        | cons x xs =>
          split
          · rename_i hfew
            exact iff_of_false (fun h => nomatch h) fun h => hfew.not_ge h.1
          · rename_i hmany
            exact ⟨fun h => ⟨Nat.not_lt.mp hmany, (Except.ok.inj h).symm⟩, fun h => by rw [h.2]⟩
  · by_cases hblank : isBlank raw = true
    · rw [normalizeScore_blank hblank, abstain_ok]
      constructor
      · exact fun h => .inl ⟨.inl hblank, h⟩
      · rintro (⟨-, h⟩ | ⟨items, -, rfl, -⟩)
        · exact h
        · exact absurd ⟨items, rfl⟩ hobj
    · rw [normalizeScore_other hblank fun items h => hobj ⟨items, h⟩]
      refine iff_of_false (fun h => nomatch h) ?_
      rintro (⟨h | ⟨items, rfl, -⟩, -⟩ | ⟨items, -, rfl, -⟩)
      · exact hblank h
      · exact hobj ⟨items, rfl⟩
      · exact hobj ⟨items, rfl⟩

/-- A SCORE selection fails otherwise than by a `BallotError` where an item is
the first to fail, and does. -/
theorem normalizeScore_error {raw : Json} {e : Failure} (he : ∀ m, e ≠ .ballot m) : normalizeScore E p raw = .error e ↔
    ∃ items, raw = .obj items ∧ FirstError (scoreItem E p) (scored items) e := by
  have habstain : ∀ {m}, abstain p m ≠ .error e := fun h => by
    obtain ⟨m, rfl⟩ := abstain_error h
    exact he m rfl
  by_cases hobj : ∃ items, raw = .obj items
  · obtain ⟨items, rfl⟩ := hobj
    simp only [Json.obj.injEq, exists_eq_left']
    rw [normalizeScore_obj, ← readScores_error]
    cases hread : readScores E p items [] with
    | error e' => simp only [Except.error.injEq]
    | ok out =>
      refine iff_of_false (fun h => ?_) (fun h => nomatch h)
      split at h
      · rename_i heq
        cases heq
      · exact habstain h
      · split at h
        · cases h
          exact he _ rfl
        · cases h
  · refine iff_of_false (fun h => ?_) fun ⟨items, h, _⟩ => hobj ⟨items, h⟩
    by_cases hblank : isBlank raw = true
    · rw [normalizeScore_blank hblank] at h
      exact habstain h
    · rw [normalizeScore_other hblank fun items h => hobj ⟨items, h⟩] at h
      cases h
      exact he _ rfl

/-! ### Candidates -/

/-- The candidates that a selection's values name. -/
def Named (E : Env) (values : List Json) (ids : List ℤ) : Prop := List.Forall₂ (fun v n => pyInt E v = .ok n) values ids

/-- Candidates that are distinct, active and in number between the limits. -/
structure Eligible (p : Position) (ids : List ℤ) : Prop where
  nodup : ids.Nodup
  valid : ∀ i ∈ ids, i ∈ validIds p
  least : (effectiveLimits p).1 ≤ ids.length
  most : ids.length ≤ (effectiveLimits p).2

/-- Candidates as they are recorded: a ranking as it is, others by id. -/
def recorded (p : Position) (ids : List ℤ) : List ℤ :=
  if p.row.ballotType = .RANKED then ids else ids.insertionSort (· ≤ ·)

theorem toIds_ok {values : List Json} {ids : List ℤ} :
    toIds E p values = .ok ids ↔ Named E values ids ∧ ids.Nodup ∧ ∀ i ∈ ids, i ∈ validIds p := by
  unfold toIds Named
  rw [← toInts_ok ("Invalid selection for " ++ quoted p ++ ".")]
  cases toInts E ("Invalid selection for " ++ quoted p ++ ".") values with
  | error e => simp
  | ok ids' =>
    dsimp only
    rw [Except.ok.injEq]
    constructor
    · intro h
      split at h
      · cases h
      · rename_i hnodup
        split at h
        · cases h
        · rename_i hvalid
          cases h
          exact ⟨rfl, not_not.mp hnodup, not_not.mp hvalid⟩
    · rintro ⟨rfl, hnodup, hvalid⟩
      rw [if_neg (not_not.mpr hnodup), if_neg (not_not.mpr hvalid)]

theorem toIds_error {values : List Json} {e : Failure} (he : ∀ m, e ≠ .ballot m) :
    toIds E p values = .error e ↔ FirstError (pyInt E) values .overflow ∧ e = .crash "OverflowError" := by
  have hints : toInts E ("Invalid selection for " ++ quoted p ++ ".") values = .error e ↔ _ := toInts_error _
  have hoverflow : (∃ err, FirstError (pyInt E) values err ∧
      e = intFailure ("Invalid selection for " ++ quoted p ++ ".") err) ↔
      FirstError (pyInt E) values .overflow ∧ e = .crash "OverflowError" := by
    constructor
    · rintro ⟨err, herr, rfl⟩
      cases err with
      | invalid => exact absurd rfl (he _)
      | overflow => exact ⟨herr, rfl⟩
    · rintro ⟨herr, rfl⟩
      exact ⟨.overflow, herr, rfl⟩
  rw [← hoverflow, ← hints]
  unfold toIds
  cases toInts E ("Invalid selection for " ++ quoted p ++ ".") values with
  | error e' => simp
  | ok ids =>
    refine iff_of_false (fun h => ?_) (fun h => nomatch h)
    dsimp only at h
    split at h
    · cases h
      exact he _ rfl
    · split at h
      · cases h
        exact he _ rfl
      · cases h

/-- When a selection of candidates is accepted, and as what. -/
theorem normalizeChoices_ok {raw j : Json} : normalizeChoices E p raw = .ok j ↔
    (asList raw = [] ∧ p.row.allowAbstain = true ∧ j = .null) ∨
      ∃ ids, asList raw ≠ [] ∧ Named E (asList raw) ids ∧ Eligible p ids ∧ j = .arr ((recorded p ids).map .int) := by
  unfold normalizeChoices
  cases hlist : asList raw with
  | nil => simp [abstain_ok]
  | cons v values =>
    dsimp only
    have hids : ∀ ids, toIds E p (v :: values) = .ok ids ↔ _ := fun ids => toIds_ok
    cases htoIds : toIds E p (v :: values) with
    | error e =>
      have hbad : ∀ ids, ¬(Named E (v :: values) ids ∧ Eligible p ids) := fun ids h => by
        rw [(hids ids).mpr ⟨h.1, h.2.nodup, h.2.valid⟩] at htoIds
        cases htoIds
      simp only [reduceCtorEq, false_and, ne_eq, not_false_eq_true, true_and, false_or, false_iff]
      rintro ⟨ids, hnamed, heligible, -⟩
      exact hbad ids ⟨hnamed, heligible⟩
    | ok ids =>
      obtain ⟨hnamed, hnodup, hvalid⟩ := (hids ids).mp htoIds
      have hone : ∀ ids', Named E (v :: values) ids' → ids' = ids := fun ids' h => forall₂_ok_unique h hnamed
      dsimp only
      constructor
      · intro h
        split at h
        · cases h
        · rename_i hmost
          split at h
          · cases h
          · rename_i hleast
            refine .inr ⟨ids, List.cons_ne_nil _ _, hnamed, ⟨hnodup, hvalid, Nat.not_lt.mp hleast, Nat.not_lt.mp hmost⟩, ?_⟩
            unfold recorded
            split at h
            · rw [if_pos ‹_›]
              exact (Except.ok.inj h).symm
            · rw [if_neg ‹_›]
              exact (Except.ok.inj h).symm
      · rintro (⟨h, -⟩ | ⟨ids', -, hnamed', heligible, rfl⟩)
        · cases h
        · obtain rfl := hone ids' hnamed'
          rw [if_neg (Nat.not_lt.mpr heligible.most), if_neg (Nat.not_lt.mpr heligible.least)]
          unfold recorded
          split <;> rfl

/-- A selection of candidates fails otherwise than by a `BallotError` where an
infinite number is the first value that is none. -/
theorem normalizeChoices_error {raw : Json} {e : Failure} (he : ∀ m, e ≠ .ballot m) : normalizeChoices E p raw = .error e ↔
    FirstError (pyInt E) (asList raw) .overflow ∧ e = .crash "OverflowError" := by
  unfold normalizeChoices
  cases hlist : asList raw with
  | nil =>
    refine iff_of_false (fun h => ?_) fun h => not_firstError_nil h.1
    obtain ⟨m, rfl⟩ := abstain_error h
    exact he m rfl
  | cons v values =>
    dsimp only
    rw [← toIds_error (p := p) he]
    cases toIds E p (v :: values) with
    | error e' => simp
    | ok ids =>
      refine iff_of_false (fun h => ?_) (fun h => nomatch h)
      dsimp only at h
      split at h
      · cases h
        exact he _ rfl
      · split at h
        · cases h
          exact he _ rfl
        · split at h
          · cases h
          · cases h

/-! ### Answers -/

theorem normalizeReferendum_ok {raw j : Json} : normalizeReferendum E p raw = .ok j ↔
    (asList raw = [] ∧ p.row.allowAbstain = true ∧ j = .null) ∨
      ∃ v, asList raw = [v] ∧ E.upper (pyStr E v) ∈ REFERENDUM_OPTIONS ∧ j = .str (E.upper (pyStr E v)) := by
  unfold normalizeReferendum
  cases hlist : asList raw with
  | nil => simp [abstain_ok]
  | cons v values =>
    cases values with
    | nil =>
      dsimp only
      constructor
      · intro h
        split at h
        · rename_i hoption
          exact .inr ⟨v, rfl, hoption, (Except.ok.inj h).symm⟩
        · cases h
      · rintro (⟨h, -⟩ | ⟨w, h, hoption, rfl⟩)
        · cases h
        · cases h
          rw [if_pos hoption]
    | cons w values => simp

theorem normalizeReferendum_error {raw : Json} {e : Failure} (h : normalizeReferendum E p raw = .error e) :
    ∃ m, e = .ballot m := by
  unfold normalizeReferendum at h
  split at h
  · exact abstain_error h
  · split at h
    · cases h
    · cases h
      exact ⟨_, rfl⟩
  · cases h
    exact ⟨_, rfl⟩

/-! ### One selection -/

/-- An item whose key is a candidate of the position and whose value is a score. -/
def Good (E : Env) (p : Position) (item : String × Json) : Prop :=
  ∃ s, pyInt E (.str item.1) = .ok s.1 ∧ pyInt E item.2 = .ok s.2 ∧ InRange p s

/-- The candidates that are scored, as often as they are. -/
def candidatesScored (E : Env) (items : List (String × Json)) : List ℤ :=
  (scored items).filterMap fun item => (pyInt E (.str item.1)).toOption

/-- A number beyond the range of a float. -/
def Infinite (v : Json) : Prop := ∃ negative, v = .float (.inf negative)

/-- What is acceptable as a position's selection. -/
def Acceptable (E : Env) (p : Position) (raw : Json) : Prop :=
  match p.row.ballotType with
  | .REFERENDUM => (asList raw = [] ∧ p.row.allowAbstain = true) ∨
      ∃ v, asList raw = [v] ∧ E.upper (pyStr E v) ∈ REFERENDUM_OPTIONS
  | .SCORE => (NoScores raw ∧ p.row.allowAbstain = true) ∨
      ∃ items, raw = .obj items ∧ scored items ≠ [] ∧ (∀ item ∈ scored items, Good E p item) ∧
        (effectiveLimits p).1 ≤ (candidatesScored E items).dedup.length
  | _ => (asList raw = [] ∧ p.row.allowAbstain = true) ∨
      asList raw ≠ [] ∧ ∃ ids, Named E (asList raw) ids ∧ Eligible p ids

/-- An infinite number stands where a candidate or a score should, after
nothing that is refused. -/
def Spoiled (E : Env) (p : Position) (raw : Json) : Prop :=
  match p.row.ballotType with
  | .REFERENDUM => False
  | .SCORE => ∃ items pre item post, raw = .obj items ∧ scored items = pre ++ item :: post ∧
      (∀ i ∈ pre, Good E p i) ∧ (∃ cid, pyInt E (.str item.1) = .ok cid) ∧ Infinite item.2
  | _ => ∃ pre v post, asList raw = pre ++ v :: post ∧ (∀ x ∈ pre, ∃ n, pyInt E x = .ok n) ∧ Infinite v

/-- A candidate is scored under two spellings of its id. -/
def Twice (E : Env) (p : Position) (raw : Json) : Prop :=
  p.row.ballotType = .SCORE ∧ ∃ items, raw = .obj items ∧ ¬(candidatesScored E items).Nodup

theorem good_iff {item : String × Json} : Good E p item ↔ ∃ s, scoreItem E p item = .ok s :=
  exists_congr fun _ => scoreItem_ok.symm

theorem pyInt_overflow {v : Json} : pyInt E v = .error .overflow ↔ Infinite v := by
  unfold Infinite
  cases v with
  | float x => cases x <;> simp [pyInt]
  | str s =>
    refine iff_of_false (fun h => ?_) ?_
    · simp only [pyInt] at h
      split at h <;> cases h
    · rintro ⟨_, h⟩
      cases h
  | _ => simp [pyInt]

theorem scoreItem_error {item : String × Json} {e : Failure} (he : ∀ m, e ≠ .ballot m) : scoreItem E p item = .error e ↔
    ((∃ cid, pyInt E (.str item.1) = .ok cid) ∧ Infinite item.2) ∧ e = .crash "OverflowError" := by
  have hkey : ∀ err, pyInt E (.str item.1) = .error err → err = .invalid := fun err h => by
    cases err with
    | invalid => rfl
    | overflow =>
      obtain ⟨negative, hn⟩ := pyInt_overflow.mp h
      cases hn
  rw [← pyInt_overflow (E := E)]
  unfold scoreItem
  cases hk : pyInt E (.str item.1) with
  | error err =>
    obtain rfl := hkey err hk
    simp only [intFailure, reduceCtorEq, exists_false, false_and, iff_false]
    rintro ⟨⟩
    exact he _ rfl
  | ok cid =>
    cases hv : pyInt E item.2 with
    | error err =>
      cases err with
      | invalid =>
        simp only [intFailure, Except.error.injEq, reduceCtorEq, and_false, false_and, iff_false]
        rintro rfl
        exact he _ rfl
      | overflow => simp [intFailure, eq_comm]
    | ok score =>
      simp only [reduceCtorEq, and_false, false_and, iff_false]
      intro h
      split at h
      · cases h
        exact he _ rfl
      · split at h
        · cases h
          exact he _ rfl
        · cases h

theorem candidatesScored_eq {items : List (String × Json)} {ss : List (ℤ × ℤ)}
    (h : List.Forall₂ (fun item s => scoreItem E p item = .ok s) (scored items) ss) :
    candidatesScored E items = ss.map (·.1) := by
  unfold candidatesScored
  generalize scored items = l at h
  induction h with
  | nil => rfl
  | cons hs _ ih =>
    rw [List.filterMap_cons, (scoreItem_ok.mp hs).1, List.map_cons, ← ih]
    rfl

/-- **A selection is accepted** exactly where it is acceptable. -/
theorem normalizeSelection_ok {raw : Json} : (∃ j, normalizeSelection E p raw = .ok j) ↔ Acceptable E p raw := by
  have hchoices : (∃ j, normalizeChoices E p raw = .ok j) ↔ (asList raw = [] ∧ p.row.allowAbstain = true) ∨
      asList raw ≠ [] ∧ ∃ ids, Named E (asList raw) ids ∧ Eligible p ids := by
    simp only [normalizeChoices_ok]
    constructor
    · rintro ⟨j, ⟨h, habstain, -⟩ | ⟨ids, h, hnamed, heligible, -⟩⟩
      · exact .inl ⟨h, habstain⟩
      · exact .inr ⟨h, ids, hnamed, heligible⟩
    · rintro (⟨h, habstain⟩ | ⟨h, ids, hnamed, heligible⟩)
      · exact ⟨_, .inl ⟨h, habstain, rfl⟩⟩
      · exact ⟨_, .inr ⟨ids, h, hnamed, heligible, rfl⟩⟩
  unfold normalizeSelection Acceptable
  cases p.row.ballotType
  case REFERENDUM =>
    simp only [normalizeReferendum_ok]
    constructor
    · rintro ⟨j, ⟨h, habstain, -⟩ | ⟨v, h, hoption, -⟩⟩
      · exact .inl ⟨h, habstain⟩
      · exact .inr ⟨v, h, hoption⟩
    · rintro (⟨h, habstain⟩ | ⟨v, h, hoption⟩)
      · exact ⟨_, .inl ⟨h, habstain, rfl⟩⟩
      · exact ⟨_, .inr ⟨v, h, hoption, rfl⟩⟩
  case SCORE =>
    simp only [normalizeScore_ok]
    constructor
    · rintro ⟨j, ⟨h, habstain, -⟩ | ⟨items, ss, rfl, h, hss, hleast, -⟩⟩
      · exact .inl ⟨h, habstain⟩
      · refine .inr ⟨items, rfl, h, fun item hitem => ?_, ?_⟩
        · exact good_iff.mpr (forall₂_ok_iff.mp ⟨ss, hss⟩ item hitem)
        · rwa [candidatesScored_eq hss, ← collect_length]
    · rintro (⟨h, habstain⟩ | ⟨items, rfl, h, hgood, hleast⟩)
      · exact ⟨_, .inl ⟨h, habstain, rfl⟩⟩
      · obtain ⟨ss, hss⟩ := forall₂_ok_iff.mpr fun item hitem => good_iff.mp (hgood item hitem)
        rw [candidatesScored_eq hss, ← collect_length] at hleast
        exact ⟨_, .inr ⟨items, ss, rfl, h, hss, hleast, rfl⟩⟩
  all_goals exact hchoices

/-- **A selection fails otherwise than by a `BallotError`** exactly where it is
spoiled. -/
theorem normalizeSelection_crash {raw : Json} :
    (∃ e, (∀ m, e ≠ .ballot m) ∧ normalizeSelection E p raw = .error e) ↔ Spoiled E p raw := by
  have hchoices : (∃ e, (∀ m, e ≠ .ballot m) ∧ normalizeChoices E p raw = .error e) ↔
      ∃ pre v post, asList raw = pre ++ v :: post ∧ (∀ x ∈ pre, ∃ n, pyInt E x = .ok n) ∧ Infinite v := by
    simp only [← pyInt_overflow (E := E)]
    constructor
    · rintro ⟨e, he, h⟩
      exact ((normalizeChoices_error he).mp h).1
    · intro h
      have he : ∀ m, Failure.crash "OverflowError" ≠ .ballot m := fun m => nofun
      exact ⟨_, he, (normalizeChoices_error he).mpr ⟨h, rfl⟩⟩
  unfold normalizeSelection Spoiled
  cases p.row.ballotType
  case REFERENDUM =>
    refine iff_of_false ?_ id
    rintro ⟨e, he, h⟩
    obtain ⟨m, rfl⟩ := normalizeReferendum_error h
    exact he m rfl
  case SCORE =>
    constructor
    · rintro ⟨e, he, h⟩
      obtain ⟨items, rfl, pre, item, post, hitems, hpre, hitem⟩ := (normalizeScore_error he).mp h
      obtain ⟨⟨hkey, hvalue⟩, -⟩ := (scoreItem_error he).mp hitem
      exact ⟨items, pre, item, post, rfl, hitems, fun i hi => good_iff.mpr (hpre i hi), hkey, hvalue⟩
    · rintro ⟨items, pre, item, post, rfl, hitems, hpre, hkey, hvalue⟩
      have he : ∀ m, Failure.crash "OverflowError" ≠ .ballot m := fun m => nofun
      exact ⟨_, he, (normalizeScore_error he).mpr ⟨items, rfl, pre, item, post, hitems,
        fun i hi => good_iff.mp (hpre i hi), (scoreItem_error he).mpr ⟨⟨hkey, hvalue⟩, rfl⟩⟩⟩
  all_goals exact hchoices

theorem validIds_length (p : Position) : (validIds p).length = (activeCandidates p).length := List.length_map _

theorem valid_scores (hbt : p.row.ballotType = .SCORE) {l : List (String × Json)} {ss : List (ℤ × ℤ)}
    (hne : l ≠ []) (hss : List.Forall₂ (fun item s => scoreItem E p item = .ok s) l ss)
    (hleast : (effectiveLimits p).1 ≤ (collect ss).length) : Valid p (scoresJson (collect ss)) := by
  have hperm := List.perm_insertionSort (fun a b : ℤ × ℤ => a.1 ≤ b.1) (collect ss)
  have hrange : ∀ s ∈ collect ss, InRange p s := fun s hs => by
    obtain ⟨item, -, hitem⟩ := Counting.exists_of_mem_right hss s (mem_collect hs)
    exact (scoreItem_ok.mp hitem).2.2
  have hmost : (collect ss).length ≤ (effectiveLimits p).2 := by
    have hsub : (collect ss).map (·.1) ⊆ validIds p := fun x hx => by
      obtain ⟨s, hs, rfl⟩ := List.mem_map.mp hx
      exact (hrange s hs).1
    have hle := (List.subperm_of_subset (collect_nodup ss) hsub).length_le
    rw [List.length_map, validIds_length] at hle
    unfold effectiveLimits
    rw [hbt]
    exact hle.trans (le_max_left _ _)
  have hsome : collect ss ≠ [] := collect_ne_nil fun h => hne (by rwa [h, List.forall₂_nil_right_iff] at hss)
  refine .scores hbt (fun h => hsome (by rw [h] at hperm; exact hperm.nil_eq.symm))
    (increasing_insertionSort (fun s : ℤ × ℤ => s.1) (collect_nodup ss)) (fun s hs => hrange s (hperm.mem_iff.mp hs)) ?_ ?_
  · rwa [hperm.length_eq]
  · rwa [hperm.length_eq]

theorem recorded_perm (p : Position) (ids : List ℤ) : (recorded p ids).Perm ids := by
  unfold recorded
  split
  · exact List.Perm.refl _
  · exact List.perm_insertionSort _ _

theorem valid_choice (hr : p.row.ballotType ≠ .REFERENDUM) (hs : p.row.ballotType ≠ .SCORE) {values : List Json}
    {ids : List ℤ} (hne : values ≠ []) (hnamed : Named E values ids) (h : Eligible p ids) :
    Valid p (.arr ((recorded p ids).map .int)) := by
  have hperm := recorded_perm p ids
  refine .choice hr hs (fun hnil => ?_) (hperm.nodup_iff.mpr h.nodup) (fun hranked => ?_)
    (fun i hi => h.valid i (hperm.mem_iff.mp hi)) (hperm.length_eq ▸ h.least) (hperm.length_eq ▸ h.most)
  · rw [hnil] at hperm
    have hids := hperm.nil_eq.symm
    unfold Named at hnamed
    rw [hids, List.forall₂_nil_right_iff] at hnamed
    exact hne hnamed
  · unfold recorded
    rw [if_neg hranked]
    have hincreasing := increasing_insertionSort (fun i : ℤ => i) (l := ids) (by simpa using h.nodup)
    simpa using hincreasing

/-- **What is accepted is valid.** -/
theorem normalizeSelection_valid {raw j : Json} (h : normalizeSelection E p raw = .ok j) : Valid p j := by
  have hchoices : p.row.ballotType ≠ .REFERENDUM → p.row.ballotType ≠ .SCORE → normalizeChoices E p raw = .ok j →
      Valid p j := fun hr hs h => by
    rcases normalizeChoices_ok.mp h with ⟨-, habstain, rfl⟩ | ⟨ids, hne, hnamed, heligible, rfl⟩
    · exact .abstained habstain
    · exact valid_choice hr hs hne hnamed heligible
  unfold normalizeSelection at h
  cases hbt : p.row.ballotType <;> rw [hbt] at h
  case REFERENDUM =>
    rcases normalizeReferendum_ok.mp h with ⟨-, habstain, rfl⟩ | ⟨v, -, hoption, rfl⟩
    · exact .abstained habstain
    · exact .answer hbt hoption
  case SCORE =>
    rcases normalizeScore_ok.mp h with ⟨-, habstain, rfl⟩ | ⟨items, ss, -, hne, hss, hleast, rfl⟩
    · exact .abstained habstain
    · exact valid_scores hbt hne hss hleast
  all_goals exact hchoices (by rw [hbt]; decide) (by rw [hbt]; decide) h

/-! ### The whole ballot -/

/-- What a payload has for a position. -/
def rawOf (payload : Json) (p : Position) : Json :=
  match payload with
  | .obj items => (Json.get? items (toString p.pk)).getD .null
  | _ => .null

/-- The positions of a style. -/
def styled (positions : List Position) (style : List ℕ) : List Position := positions.filter fun p => p.pk ∈ style

theorem selectionsOf_error {style : List ℕ} {items : List (String × Json)} {e : Failure} : ∀ {positions : List Position},
    selectionsOf E style items positions = .error e ↔
      FirstError (fun p => normalizeSelection E p (rawOf (.obj items) p)) (styled positions style) e
  | [] => iff_of_false (fun h => nomatch h) not_firstError_nil
  | p :: ps => by
    have ih : selectionsOf E style items ps = .error e ↔ _ := selectionsOf_error
    unfold selectionsOf styled
    by_cases hp : p.pk ∈ style
    · rw [if_neg (not_not.mpr hp), List.filter_cons, if_pos (decide_eq_true hp), firstError_cons]
      have hraw : ((Json.get? items (toString p.pk)).getD .null) = rawOf (.obj items) p := rfl
      rw [hraw]
      cases normalizeSelection E p (rawOf (.obj items) p) with
      | error e' => simp only [Except.error.injEq, reduceCtorEq, exists_false, false_and, or_false]
      | ok j =>
        simp only [reduceCtorEq, Except.ok.injEq, exists_eq', true_and, false_or]
        refine Iff.trans ?_ ih
        cases selectionsOf E style items ps <;> simp [Except.map]
    · rw [if_pos hp, List.filter_cons, if_neg (by simpa using hp)]
      exact ih

theorem ballotItems_ok {style : List ℕ} {payload : Json} {items : List (String × Json)} :
    ballotItems style payload = .ok items ↔
      payload = .obj items ∧ ∀ item ∈ items, item.1 ∈ style.map fun p => toString p := by
  unfold ballotItems
  cases payload with
  | obj items' =>
    dsimp only
    split
    · rename_i h
      rw [Except.ok.injEq, Json.obj.injEq]
      constructor
      · rintro rfl
        exact ⟨rfl, h⟩
      · exact fun h => h.1
    · rename_i h
      refine iff_of_false (fun h => nomatch h) ?_
      rintro ⟨heq, hall⟩
      cases heq
      exact h hall
  | _ => simp

theorem ballotItems_error {style : List ℕ} {payload : Json} {e : Failure} (h : ballotItems style payload = .error e) :
    ∃ m, e = .ballot m := by
  unfold ballotItems at h
  split at h
  · split at h
    · cases h
    · cases h
      exact ⟨_, rfl⟩
  · cases h
    exact ⟨_, rfl⟩

theorem selectionsOf_ok_iff {positions : List Position} {style : List ℕ} {items : List (String × Json)} :
    (∃ s, selectionsOf E style items positions = .ok s) ↔
      ∀ p ∈ styled positions style, Acceptable E p (rawOf (.obj items) p) := by
  simp only [← normalizeSelection_ok]
  refine Iff.trans ?_ (forall₂_ok_iff (f := fun p => normalizeSelection E p (rawOf (.obj items) p)))
  constructor
  · rintro ⟨s, hs⟩
    refine ⟨s.map (·.2), ?_⟩
    rw [List.forall₂_map_right_iff]
    exact (selectionsOf_ok.mp hs).imp fun _ _ h => h.2
  · rintro ⟨l, hl⟩
    refine ⟨List.zipWith (fun p j => (toString p.pk, j)) (styled positions style) l, selectionsOf_ok.mpr ?_⟩
    change List.Forall₂ _ (styled positions style) _
    generalize styled positions style = ps at hl
    induction hl with
    | nil => exact .nil
    | cons h _ ih => exact .cons ⟨rfl, h⟩ ih

theorem selectionsOf_crash {positions : List Position} {style : List ℕ} {items : List (String × Json)} :
    (∃ e, (∀ m, e ≠ .ballot m) ∧ selectionsOf E style items positions = .error e) ↔
      ∃ pre p post, styled positions style = pre ++ p :: post ∧
        (∀ q ∈ pre, Acceptable E q (rawOf (.obj items) q)) ∧ Spoiled E p (rawOf (.obj items) p) := by
  simp only [selectionsOf_error, ← normalizeSelection_ok, ← normalizeSelection_crash]
  constructor
  · rintro ⟨e, he, pre, p, post, hsplit, hpre, hp⟩
    exact ⟨pre, p, post, hsplit, hpre, e, he, hp⟩
  · rintro ⟨pre, p, post, hsplit, hpre, e, he, hp⟩
    exact ⟨e, he, pre, p, post, hsplit, hpre, hp⟩

/-- A payload is refused with a `BallotError`, or there are valid selections for
exactly the positions of the style, and no candidate was scored twice. -/
def Sound (E : Env) (positions : List Position) (style : List ℕ) (payload : Json) : Prop :=
  match validateBallot E positions style payload with
  | .error e => ∃ m, e = .ballot m
  | .ok selections =>
    List.Forall₂ (fun (p : Position) (m : String × Json) => m.1 = toString p.pk ∧ Valid p m.2 ∧ ¬Twice E p (rawOf payload p))
      (styled positions style) selections

/-- In a payload that names positions of the style only, none has a spoiled
selection after positions whose selections are all acceptable; and where all are
acceptable, no candidate is scored twice. -/
def Steady (E : Env) (positions : List Position) (style : List ℕ) (payload : Json) : Prop :=
  ∀ items, payload = .obj items → (∀ item ∈ items, item.1 ∈ style.map fun p => toString p) →
    (∀ pre p post, styled positions style = pre ++ p :: post → (∀ q ∈ pre, Acceptable E q (rawOf payload q)) →
      ¬Spoiled E p (rawOf payload p)) ∧
    ((∀ p ∈ styled positions style, Acceptable E p (rawOf payload p)) →
      ∀ p ∈ styled positions style, ¬Twice E p (rawOf payload p))

/-- **A payload is refused as it should be, or all that is accepted is valid,**
exactly where it is steady. -/
theorem validateBallot_sound (E : Env) (positions : List Position) (style : List ℕ) (payload : Json) :
    Sound E positions style payload ↔ Steady E positions style payload := by
  unfold Sound validateBallot
  cases hitems : ballotItems style payload with
  | error e =>
    refine iff_of_true (ballotItems_error hitems) fun items hpayload hnames => ?_
    rw [ballotItems_ok.mpr ⟨hpayload, hnames⟩] at hitems
    cases hitems
  | ok items =>
    obtain ⟨rfl, hnames⟩ := ballotItems_ok.mp hitems
    have hsteady : Steady E positions style (.obj items) ↔
        (¬∃ e, (∀ m, e ≠ .ballot m) ∧ selectionsOf E style items positions = .error e) ∧
          ((∃ s, selectionsOf E style items positions = .ok s) →
            ∀ p ∈ styled positions style, ¬Twice E p (rawOf (.obj items) p)) := by
      rw [selectionsOf_crash, selectionsOf_ok_iff]
      constructor
      · intro h
        obtain ⟨hspoiled, htwice⟩ := h items rfl hnames
        exact ⟨fun ⟨pre, p, post, hsplit, hpre, hp⟩ => hspoiled pre p post hsplit hpre hp, htwice⟩
      · rintro ⟨hspoiled, htwice⟩ _ ⟨⟩ -
        exact ⟨fun pre p post hsplit hpre hp => hspoiled ⟨pre, p, post, hsplit, hpre, hp⟩, htwice⟩
    rw [hsteady]
    dsimp only
    cases hsel : selectionsOf E style items positions with
    | error e =>
      simp only [reduceCtorEq, exists_false, false_implies, and_true, Except.error.injEq, exists_eq_right']
      exact not_forall_not.symm
    | ok selections =>
      have hall := selectionsOf_ok.mp hsel
      simp only [reduceCtorEq, and_false, exists_false, not_false_eq_true, Except.ok.injEq, exists_eq', true_implies,
        true_and]
      constructor
      · intro h p hp
        obtain ⟨m, -, hm⟩ := Counting.exists_of_mem_right h.flip p hp
        exact hm.2.2
      · exact fun htwice => forall₂_of_mem hall fun p hp m _ hm => ⟨hm.1, normalizeSelection_valid hm.2, htwice p hp⟩

/-- A position without candidates. -/
def president : Position := ⟨1, { event := 1, name := "President", ballotType := .FPTP }, []⟩

theorem validateBallot_infinite : validateBallot Env.plain [president] [1] (.obj [("1", .arr [.float (.inf false)])]) =
    .error (.crash "OverflowError") := rfl

/-- An infinite number instead of a candidate is an `OverflowError`. -/
theorem not_validateBallot_sound :
    ¬∀ (E : Env) (positions : List Position) (style : List ℕ) (payload : Json), Sound E positions style payload := by
  intro h
  have hsound := h Env.plain [president] [1] (.obj [("1", .arr [.float (.inf false)])])
  unfold Sound at hsound
  rw [validateBallot_infinite] at hsound
  obtain ⟨m, hm⟩ := hsound
  cases hm

/-! ### Validating again -/

/-- What `int` and `str.upper` make of what the code itself writes. -/
structure Reads (E : Env) (p : Position) : Prop where
  int : ∀ i ∈ validIds p, E.parseInt (toString i) = some i
  upper : ∀ option ∈ REFERENDUM_OPTIONS, E.upper option = option

theorem named_ints (ids : List ℤ) : Named E (ids.map .int) ids := by
  unfold Named
  rw [List.forall₂_map_left_iff, List.forall₂_same]
  exact fun _ _ => rfl

theorem foldl_setScore_new : ∀ {ss scores : List (ℤ × ℤ)}, (scores.map (·.1) ++ ss.map (·.1)).Nodup →
    ss.foldl (fun scores s => setScore s.1 s.2 scores) scores = scores ++ ss
  | [], scores, _ => by simp
  | s :: ss, scores, h => by
    have hnew : s.1 ∉ scores.map (·.1) := fun hmem =>
      (List.nodup_append.mp h).2.2 _ hmem _ List.mem_cons_self rfl
    rw [List.foldl_cons, setScore_new hnew, foldl_setScore_new, List.append_assoc]
    · rfl
    · rwa [List.map_append, List.append_assoc]

theorem collect_eq {ss : List (ℤ × ℤ)} (h : (ss.map (·.1)).Nodup) : collect ss = ss :=
  foldl_setScore_new (by simpa using h)

theorem scored_members (scores : List (ℤ × ℤ)) : scored (scores.map scoreMember) = scores.map scoreMember := by
  unfold scored
  rw [List.filter_eq_self]
  intro item hitem
  obtain ⟨s, -, rfl⟩ := List.mem_map.mp hitem
  rfl

theorem scoresJson_increasing {scores : List (ℤ × ℤ)} (h : (scores.map (·.1)).Pairwise (· < ·)) :
    scoresJson scores = .obj (scores.map scoreMember) := by
  have hsorted : scores.Pairwise fun a b => a.1 ≤ b.1 := (List.pairwise_map.mp h).imp fun h => h.le
  unfold scoresJson
  rw [hsorted.insertionSort_eq]
  rfl

/-- **A valid selection is its own normal form.** -/
theorem Valid.normalize {j : Json} (h : Valid p j) (hreads : Reads E p) : normalizeSelection E p j = .ok j := by
  unfold normalizeSelection
  cases h with
  | abstained habstain =>
    cases p.row.ballotType
    case REFERENDUM => exact normalizeReferendum_ok.mpr (.inl ⟨rfl, habstain, rfl⟩)
    case SCORE => exact normalizeScore_ok.mpr (.inl ⟨.inl rfl, habstain, rfl⟩)
    all_goals exact normalizeChoices_ok.mpr (.inl ⟨rfl, habstain, rfl⟩)
  | @answer option hbt hoption =>
    rw [hbt]
    have hupper : E.upper (pyStr E (.str option)) = option := hreads.upper option hoption
    have hlist : asList (.str option) = [.str option] := by
      simp only [REFERENDUM_OPTIONS, List.mem_cons, List.not_mem_nil, or_false] at hoption
      rcases hoption with rfl | rfl <;> rfl
    exact normalizeReferendum_ok.mpr (.inr ⟨.str option, hlist, hupper.symm ▸ hoption, by rw [hupper]⟩)
  | @scores scores hbt hne hincreasing hrange hleast hmost =>
    rw [hbt]
    have hcollect : collect scores = scores := collect_eq (hincreasing.imp fun h => h.ne)
    refine normalizeScore_ok.mpr (.inr ⟨_, scores, rfl, ?_, ?_, ?_, ?_⟩)
    · rw [scored_members]
      simpa using hne
    · rw [scored_members, List.forall₂_map_left_iff, List.forall₂_same]
      intro s hs
      refine scoreItem_ok.mpr ⟨?_, rfl, hrange s hs⟩
      rw [scoreMember, pyInt, hreads.int s.1 (hrange s hs).1]
    · rwa [hcollect]
    · rw [hcollect, scoresJson_increasing hincreasing]
  | @choice ids hr hs hne hnodup hincreasing hvalid hleast hmost =>
    have hrecorded : recorded p ids = ids := by
      unfold recorded
      split
      · rfl
      · rename_i hranked
        exact ((hincreasing hranked).imp fun h => h.le).insertionSort_eq
    have hchoices : normalizeChoices E p (.arr (ids.map .int)) = .ok (.arr (ids.map .int)) :=
      normalizeChoices_ok.mpr (.inr ⟨ids, by rw [asList_ints]; simpa using hne, by rw [asList_ints]; exact named_ints ids,
        ⟨hnodup, hvalid, hleast, hmost⟩, by rw [hrecorded]⟩)
    cases hbt : p.row.ballotType
    case REFERENDUM => exact absurd hbt hr
    case SCORE => exact absurd hbt hs
    all_goals exact hchoices

/-- **Validating a validated ballot changes nothing.** -/
theorem validateBallot_idempotent {db db' : Database} {e : ℕ}
    (hreads : ∀ p ∈ positionsFor (categoriesOf db e) db', Reads E p) {style : List ℕ} {payload : Json}
    {selections : List (String × Json)}
    (h : validateBallot E (positionsFor (categoriesOf db e) db') style payload = .ok selections) :
    validateBallot E (positionsFor (categoriesOf db e) db') style (.obj selections) = .ok selections := by
  have hpk : ((positionsFor (categoriesOf db e) db').map (·.pk)).Nodup := by
    rw [positionsFor, List.map_map]
    exact categoriesOf_nodup db e
  have hvalidated := validateBallot_validated h
  have hkeys := hvalidated.keys
  have hnodup := hvalidated.nodup hpk
  unfold validateBallot at h ⊢
  cases hitems : ballotItems style payload with
  | error failure =>
    rw [hitems] at h
    cases h
  | ok items =>
    rw [hitems] at h
    have hall := selectionsOf_ok.mp h
    have hnames : ballotItems style (.obj selections) = .ok selections := ballotItems_ok.mpr ⟨rfl, fun item hitem => by
      have hkey : item.1 ∈ selections.map (·.1) := List.mem_map_of_mem hitem
      rw [hkeys] at hkey
      obtain ⟨p, hp, hpkey⟩ := List.mem_map.mp hkey
      exact List.mem_map.mpr ⟨p.pk, of_decide_eq_true (List.mem_filter.mp hp).2, hpkey⟩⟩
    rw [hnames]
    refine selectionsOf_ok.mpr (forall₂_of_mem hall fun p hp m hm hpm => ⟨hpm.1, ?_⟩)
    rw [← hpm.1, (Json.get?_eq_some hnodup).mpr hm]
    exact (normalizeSelection_valid hpm.2).normalize (hreads p (List.mem_filter.mp hp).1)

/-- An election of two posts, with two candidates. -/
def council : Database :=
  Db.empty.apply [⟨.category 1, some { event := 1, name := "Council", ballotType := .FPTP, seats := 2 }⟩,
    ⟨.candidate 7, some { category := some 1, event := 1, name := "Ama" }⟩,
    ⟨.candidate 9, some { category := some 1, event := 1, name := "Kofi" }⟩]

theorem validateBallot_idempotent_council :
    let positions := positionsFor (categoriesOf council 1) council
    validateBallot legible positions [1] (.obj [("1", .arr [.int 9, .int 7])]) = .ok [("1", .arr [.int 7, .int 9])] ∧
      validateBallot legible positions [1] (.obj [("1", .arr [.int 7, .int 9])]) = .ok [("1", .arr [.int 7, .int 9])] := by
  have hvalid : validateBallot legible (positionsFor (categoriesOf council 1) council) [1]
      (.obj [("1", .arr [.int 9, .int 7])]) = .ok [("1", .arr [.int 7, .int 9])] := by rfl
  exact ⟨hvalid, validateBallot_idempotent (fun p _ => ⟨fun i _ => legible_int i, fun _ _ => rfl⟩) hvalid⟩

end Selections
end FlexyVotes
