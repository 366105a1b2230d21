/-
# From the ballot to the count

A ballot is validated, written as canonical JSON, sealed, opened, read back
and regrouped by position. `Normal` is what a validated selection can be; the
text of a ballot is read back with the members of every object in the order
of their keys, which is another order of the scores of a SCORE selection, and
no tally looks at it (`tallyPosition_norm`).

So in any run of issuing and casting, however the calls interleave, the count
takes every recorded ballot and tallies for each position exactly the
selections that were validated for it (`all_counted`), if `unseal` inverts
`seal` and nobody else writes ballots.

Key definitions: `Normal`, `Accepted`, `spec`.
Key theorems: `normalizeSelection_normal`, `tallyPosition_norm`,
`openBallot_made`, `all_counted`.
-/
import FlexyVotes.Elections.Authorizations
import FlexyVotes.Elections.Counting

namespace FlexyVotes
namespace EndToEnd

open Transactions Ballot Casting Counting

/-! ### Selections in normal form -/

/-- The member of a score. -/
def scoreMember (s : ℤ × ℤ) : String × Json := (toString s.1, .int s.2)

/-- What a validated selection of a position is. -/
def Normal : BallotType → Json → Prop
  | .REFERENDUM, j => j = .null ∨ ∃ s, j = .str s
  | .SCORE, j => j = .null ∨ ∃ scores : List (ℤ × ℤ), scores ≠ [] ∧ (scores.map (·.1)).Nodup ∧
      j = .obj (scores.map scoreMember)
  | _, j => j = .null ∨ ∃ ids : List ℤ, j = .arr (ids.map .int)

variable {E : Env} {p : Position}

theorem abstain_eq_ok {message : String} {j : Json} (h : abstain p message = .ok j) : j = .null := by
  unfold abstain at h
  split at h
  · cases h
    rfl
  · cases h

theorem setScore_keys (cid score : ℤ) : ∀ scores : List (ℤ × ℤ), (scores.map (·.1)).Nodup →
    ((setScore cid score scores).map (·.1)).Nodup ∧
      ∀ x ∈ (setScore cid score scores).map (·.1), x = cid ∨ x ∈ scores.map (·.1)
  | [], _ => by simp [setScore]
  | (c, s) :: rest, h => by
    obtain ⟨hc, hrest⟩ := List.nodup_cons.mp h
    obtain ⟨ihn, ihm⟩ := setScore_keys cid score rest hrest
    unfold setScore
    split
    · exact ⟨h, fun x hx => .inr hx⟩
    · rename_i hne
      rw [List.map_cons, List.nodup_cons]
      refine ⟨⟨fun hmem => ?_, ihn⟩, fun x hx => ?_⟩
      · rcases ihm _ hmem with heq | hmem
        · exact hne heq
        · exact hc hmem
      · rcases List.mem_cons.mp hx with rfl | hx
        · exact .inr (by simp)
        · rcases ihm x hx with rfl | hx
          · exact .inl rfl
          · exact .inr (List.mem_cons_of_mem _ hx)

/-- Every candidate has one score. -/
theorem readScores_nodup : ∀ (items : List (String × Json)) (scores out : List (ℤ × ℤ)),
    readScores E p items scores = .ok out → (scores.map (·.1)).Nodup → (out.map (·.1)).Nodup
  | [], scores, out, h, hn => by
    cases h
    exact hn
  | (key, value) :: rest, scores, out, h, hn => by
    unfold readScores at h
    split at h
    · exact readScores_nodup rest scores out h hn
    · split at h
      · split at h
        · cases h
        · split at h
          · cases h
          · exact readScores_nodup rest _ out h (setScore_keys _ _ _ hn).1
      · cases h
      · cases h

theorem normalizeReferendum_normal {raw j : Json} (h : normalizeReferendum E p raw = .ok j) :
    Normal .REFERENDUM j := by
  unfold normalizeReferendum at h
  split at h
  · exact .inl (abstain_eq_ok h)
  · split at h
    · cases h
      exact .inr ⟨_, rfl⟩
    · cases h
  · cases h

theorem normalizeScore_normal {raw j : Json} (h : normalizeScore E p raw = .ok j) : Normal .SCORE j := by
  unfold normalizeScore at h
  dsimp only at h
  split at h
  · exact .inl (abstain_eq_ok h)
  · split at h
    · exact .inl (abstain_eq_ok h)
    · rename_i items hitems
      split at h
      · cases h
      · exact .inl (abstain_eq_ok h)
      · rename_i scores hne hread
        split at h
        · cases h
        · cases h
          have hnodup := readScores_nodup _ [] scores hread List.nodup_nil
          have hperm := List.perm_insertionSort (fun a b : ℤ × ℤ => a.1 ≤ b.1) scores
          refine .inr ⟨scores.insertionSort fun a b => a.1 ≤ b.1, fun hnil => ?_, ?_, rfl⟩
          · rw [hnil] at hperm
            exact hne hperm.nil_eq.symm
          · exact (hperm.map (·.1)).nodup_iff.mpr hnodup
    · cases h

theorem normalizeChoices_normal {raw j : Json} (h : normalizeChoices E p raw = .ok j) :
    j = .null ∨ ∃ ids : List ℤ, j = .arr (ids.map .int) := by
  unfold normalizeChoices at h
  split at h
  · exact .inl (abstain_eq_ok h)
  · split at h
    · cases h
    · split at h
      · cases h
      · split at h
        · cases h
        · split at h
          · cases h
            exact .inr ⟨_, rfl⟩
          · cases h
            exact .inr ⟨_, rfl⟩

/-- **A validated selection is in normal form.** -/
theorem normalizeSelection_normal {raw j : Json} (h : normalizeSelection E p raw = .ok j) :
    Normal p.row.ballotType j := by
  unfold normalizeSelection at h
  cases hbt : p.row.ballotType <;> rw [hbt] at h
  case REFERENDUM => exact normalizeReferendum_normal h
  case SCORE => exact normalizeScore_normal h
  all_goals exact normalizeChoices_normal h

/-! ### Read back from JSON -/

theorem toString_inj {m n : ℤ} (h : toString m = toString n) : m = n := by
  have hm : Json.scanNumber (fun _ => .nan) (toString m).toList = some (.int m, []) := Json.scanNumber_int m
  rw [h, Json.scanNumber_int] at hm
  cases hm
  rfl

theorem soundItems_ints (parseFloat : String → PyFloat) (ids : List ℤ) :
    Json.SoundItems parseFloat (ids.map .int) := by
  rw [Json.soundItems_iff]
  intro x hx
  obtain ⟨n, -, rfl⟩ := List.mem_map.mp hx
  trivial

theorem normItems_ints (ids : List ℤ) : Json.normItems (ids.map .int) = ids.map .int := by
  rw [Json.normItems_eq_map, List.map_map]
  rfl

theorem scoreMembers_nodup {scores : List (ℤ × ℤ)} (h : (scores.map (·.1)).Nodup) :
    ((scores.map scoreMember).map (·.1)).Nodup := by
  have hmap : (scores.map scoreMember).map (·.1) = (scores.map (·.1)).map fun n : ℤ => toString n := by
    rw [List.map_map, List.map_map]
    rfl
  rw [hmap]
  exact h.map fun m n => toString_inj

theorem Normal.sound {bt : BallotType} {j : Json} (h : Normal bt j) (parseFloat : String → PyFloat) :
    Json.Sound parseFloat j := by
  cases bt
  case REFERENDUM =>
    rcases h with rfl | ⟨s, rfl⟩
    · trivial
    · trivial
  case SCORE =>
    rcases h with rfl | ⟨scores, -, hnodup, rfl⟩
    · trivial
    · refine ⟨scoreMembers_nodup hnodup, (Json.soundMembers_iff _).mpr fun x hx => ?_⟩
      obtain ⟨s, -, rfl⟩ := List.mem_map.mp hx
      trivial
  all_goals
    rcases h with rfl | ⟨ids, rfl⟩
    · trivial
    · exact soundItems_ints _ ids

/-- Scores are read back in another order. -/
theorem norm_scores (scores : List (ℤ × ℤ)) :
    Json.norm (.obj (scores.map scoreMember)) =
      .obj ((scores.insertionSort fun a b => toString a.1 ≤ toString b.1).map scoreMember) := by
  rw [Json.norm_obj, Json.sortMembers, ← List.map_insertionSort (fun a b : ℤ × ℤ => toString a.1 ≤ toString b.1)
    (fun a b : String × Json => a.1 ≤ b.1) scoreMember scores fun _ _ _ _ => Iff.rfl, List.map_map]
  rfl

theorem Normal.norm {bt : BallotType} {j : Json} (h : Normal bt j) : Normal bt j.norm := by
  cases bt
  case REFERENDUM =>
    rcases h with rfl | ⟨s, rfl⟩
    · exact .inl rfl
    · exact .inr ⟨s, rfl⟩
  case SCORE =>
    rcases h with rfl | ⟨scores, hne, hnodup, rfl⟩
    · exact .inl rfl
    · have hperm := List.perm_insertionSort (fun a b : ℤ × ℤ => toString a.1 ≤ toString b.1) scores
      refine .inr ⟨_, fun hnil => ?_, (hperm.map (·.1)).nodup_iff.mpr hnodup, norm_scores scores⟩
      rw [hnil] at hperm
      exact hne hperm.nil_eq.symm
  all_goals
    rcases h with rfl | ⟨ids, rfl⟩
    · exact .inl rfl
    · exact .inr ⟨ids, by rw [Json.norm, normItems_ints]⟩

/-! ### Tallied after reading -/

open Tally

theorem lookUpAll_ints : ∀ ids : List ℤ, lookUpAll (ids.map .int) = .ok ids
  | [] => rfl
  | n :: ids => by
    rw [List.map_cons, lookUpAll, lookUpAll_ints ids]
    rfl

/-- The choices of a selection are read, the same before and after. -/
theorem choicesOf_normal {j : Json} (h : j = .null ∨ ∃ ids : List ℤ, j = .arr (ids.map .int)) :
    j.norm = j ∧ ∃ out, choicesOf j = .ok out := by
  rcases h with rfl | ⟨ids, rfl⟩
  · exact ⟨rfl, none, rfl⟩
  · refine ⟨by rw [Json.norm, normItems_ints], ?_⟩
    unfold choicesOf
    split
    · exact ⟨_, rfl⟩
    · refine ⟨some ids, ?_⟩
      show (lookUpAll (ids.map .int)).map some = _
      rw [lookUpAll_ints]
      rfl

/-- The scores a selection gives the candidates, in its order. -/
theorem scoreItems_members (hint : ∀ n : ℤ, E.parseInt (toString n) = some n) (ids : List ℤ) :
    ∀ scores : List (ℤ × ℤ), scoreItems E ids (scores.map scoreMember) = .ok (scores.filter fun s => s.1 ∈ ids)
  | [] => rfl
  | (c, s) :: scores => by
    have ih := scoreItems_members hint ids scores
    have hkey : pyInt E (.str (toString c)) = .ok c := by
      rw [pyInt, hint]
    rw [List.map_cons, scoreMember, scoreItems, hkey, List.filter_cons]
    dsimp only
    by_cases hc : c ∈ ids
    · rw [if_pos hc, ih, if_pos (by simpa using hc)]
      rfl
    · rw [if_neg hc, ih, if_neg (by simpa using hc)]

/-- The same scores, in any order. -/
def SameScores : Option (List (ℤ × ℤ)) → Option (List (ℤ × ℤ)) → Prop
  | none, none => True
  | some s, some s' => s.Perm s'
  | _, _ => False

theorem scoresOf_normal (hint : ∀ n : ℤ, E.parseInt (toString n) = some n) (ids : List ℤ) {j : Json}
    (h : Normal .SCORE j) :
    ∃ out out', scoresOf E ids j = .ok out ∧ scoresOf E ids j.norm = .ok out' ∧ SameScores out out' := by
  rcases h with rfl | ⟨scores, hne, -, rfl⟩
  · exact ⟨none, none, rfl, rfl, trivial⟩
  · have hread : ∀ scores : List (ℤ × ℤ), scores ≠ [] →
        scoresOf E ids (.obj (scores.map scoreMember)) = .ok (some (scores.filter fun s => s.1 ∈ ids)) := by
      intro scores hne
      have hfalsy : (Json.obj (scores.map scoreMember)).falsy = false := by
        cases scores with
        | nil => exact absurd rfl hne
        | cons s scores => rfl
      rw [scoresOf, hfalsy, if_neg (by decide)]
      show (scoreItems E ids (scores.map scoreMember)).map some = _
      rw [scoreItems_members hint]
      rfl
    have hperm := List.perm_insertionSort (fun a b : ℤ × ℤ => toString a.1 ≤ toString b.1) scores
    have hsame : SameScores (some (scores.filter fun s => s.1 ∈ ids)) (some
        ((scores.insertionSort fun a b => toString a.1 ≤ toString b.1).filter fun s => s.1 ∈ ids)) :=
      (hperm.filter _).symm
    refine ⟨_, _, hread scores hne, ?_, hsame⟩
    rw [norm_scores]
    refine hread _ fun hnil => ?_
    rw [hnil] at hperm
    exact hne hperm.nil_eq.symm

theorem readAll_both {α : Type} {f : Json → Except Failure α} {R : α → α → Prop} (g : Json → Json) :
    ∀ {l : List Json}, (∀ x ∈ l, ∃ y y', f x = .ok y ∧ f (g x) = .ok y' ∧ R y y') →
      ∃ ys ys', readAll f l = .ok ys ∧ readAll f (l.map g) = .ok ys' ∧ List.Forall₂ R ys ys'
  | [], _ => ⟨[], [], rfl, rfl, .nil⟩
  | x :: l, h => by
    obtain ⟨y, y', hy, hy', hR⟩ := h x (by simp)
    obtain ⟨ys, ys', hys, hys', hRs⟩ := readAll_both g fun z hz => h z (List.mem_cons_of_mem _ hz)
    refine ⟨y :: ys, y' :: ys', ?_, ?_, .cons hR hRs⟩
    · rw [readAll, hy, hys]
    · rw [List.map_cons, readAll, hy', hys']

theorem sameScores_flatten {ys ys' : List (Option (List (ℤ × ℤ)))} (h : List.Forall₂ SameScores ys ys') :
    (ys.filterMap id).length = (ys'.filterMap id).length ∧
      (ys.filterMap id).flatten.Perm (ys'.filterMap id).flatten := by
  induction h with
  | nil => exact ⟨rfl, .refl _⟩
  | @cons y y' ys ys' hy _ ih =>
    cases y with
    | none =>
      cases y' with
      | none => exact ih
      | some s' => exact hy.elim
    | some s =>
      cases y' with
      | none => exact hy.elim
      | some s' =>
        refine ⟨?_, ?_⟩
        · simpa using ih.1
        · simpa using List.Perm.append hy ih.2

/-- The score tally does not look at the order of the scores of a ballot. -/
theorem score_congr {ys ys' : List (Option (List (ℤ × ℤ)))} (h : List.Forall₂ SameScores ys ys')
    (candidates : List Candidate) (seats maxScore : ℕ) :
    score E ys candidates seats maxScore = score E ys' candidates seats maxScore := by
  obtain ⟨hlen, hperm⟩ := sameScores_flatten h
  have hgiven : ∀ cid : ℤ, ((ys.filterMap id).flatten.filter fun s => s.1 = cid).map (·.2) |>.Perm
      (((ys'.filterMap id).flatten.filter fun s => s.1 = cid).map (·.2)) := fun cid =>
    (hperm.filter _).map _
  have hsum : ∀ cid : ℤ,
      (if cid ∈ candidates.map (·.id) then
        ((ys.filterMap id).flatten.filter fun s => s.1 = cid).map (·.2) else []).sum =
      (if cid ∈ candidates.map (·.id) then
        ((ys'.filterMap id).flatten.filter fun s => s.1 = cid).map (·.2) else []).sum := fun cid => by
    split
    · exact (hgiven cid).sum_eq
    · rfl
  have hcount : ∀ cid : ℤ,
      (if cid ∈ candidates.map (·.id) then
        ((ys.filterMap id).flatten.filter fun s => s.1 = cid).map (·.2) else []).length =
      (if cid ∈ candidates.map (·.id) then
        ((ys'.filterMap id).flatten.filter fun s => s.1 = cid).map (·.2) else []).length := fun cid => by
    split
    · exact (hgiven cid).length_eq
    · rfl
  unfold score
  simp only [hsum, hcount, hlen, h.length_eq]

/-- **A tally is the same before and after reading back**, and never fails on
selections in normal form. -/
theorem tallyPosition_norm (hint : ∀ n : ℤ, E.parseInt (toString n) = some n) (spec : PositionSpec)
    {selections : List Json} (h : ∀ j ∈ selections, Normal spec.ballotType j) (seed : String) :
    ∃ r, tallyPosition E spec selections seed = .ok r ∧
      tallyPosition E spec (selections.map Json.norm) seed = .ok r := by
  have hchoices : (∀ j ∈ selections, j = .null ∨ ∃ ids : List ℤ, j = .arr (ids.map .int)) →
      selections.map Json.norm = selections ∧ ∃ out, readAll choicesOf selections = .ok out := by
    intro hc
    have hnorm : selections.map Json.norm = selections := by
      conv_rhs => rw [← List.map_id selections]
      exact List.map_congr_left fun j hj => (choicesOf_normal (hc j hj)).1
    obtain ⟨ys, -, hys, -⟩ := readAll_both (f := choicesOf) (R := fun _ _ => True) id fun j hj => by
      obtain ⟨out, hout⟩ := (choicesOf_normal (hc j hj)).2
      exact ⟨out, out, hout, hout, trivial⟩
    exact ⟨hnorm, ys, hys⟩
  unfold tallyPosition tallyOutcome
  cases hbt : spec.ballotType <;> rw [hbt] at h <;> dsimp only
  case REFERENDUM =>
    have hnorm : selections.map Json.norm = selections := by
      conv_rhs => rw [← List.map_id selections]
      refine List.map_congr_left fun j hj => ?_
      rcases h j hj with rfl | ⟨s, rfl⟩
      · rfl
      · rfl
    rw [hnorm]
    exact ⟨_, rfl, rfl⟩
  case SCORE =>
    obtain ⟨ys, ys', hys, hys', hsame⟩ := readAll_both Json.norm fun j hj =>
      scoresOf_normal hint (spec.candidates.map (·.id)) (h j hj)
    rw [hys, hys']
    refine ⟨_, rfl, ?_⟩
    rw [Except.map, ← score_congr hsame]
    rfl
  all_goals
    obtain ⟨hnorm, out, hout⟩ := hchoices h
    rw [hnorm, hout]
    exact ⟨_, rfl, rfl⟩

/-! ### Opened again -/

/-- The selections a validated ballot holds: one for each position of the
style, in ballot order, in normal form. -/
def Validated (style : List ℕ) (positions : List Position) (selections : List (String × Json)) : Prop :=
  List.Forall₂ (fun (p : Position) (m : String × Json) => m.1 = toString p.pk ∧ Normal p.row.ballotType m.2)
    (positions.filter fun p => p.pk ∈ style) selections

theorem selectionsOf_validated {style : List ℕ} {payload : List (String × Json)} :
    ∀ {positions : List Position} {selections : List (String × Json)},
      selectionsOf E style payload positions = .ok selections → Validated style positions selections
  | [], _, h => by
    cases h
    exact .nil
  | p :: ps, selections, h => by
    unfold selectionsOf at h
    unfold Validated
    split at h
    · rename_i hp
      rw [List.filter_cons, if_neg (by simpa using hp)]
      exact selectionsOf_validated h
    · rename_i hp
      rw [List.filter_cons, if_pos (by simpa using hp)]
      split at h
      · cases h
      · rename_i j hj
        cases hrest : selectionsOf E style payload ps with
        | error failure =>
          rw [hrest] at h
          cases h
        | ok rest =>
          rw [hrest] at h
          cases h
          exact .cons ⟨rfl, normalizeSelection_normal hj⟩ (selectionsOf_validated hrest)

theorem validateBallot_validated {style : List ℕ} {positions : List Position} {payload : Json}
    {selections : List (String × Json)} (h : validateBallot E positions style payload = .ok selections) :
    Validated style positions selections := by
  unfold validateBallot at h
  split at h
  · cases h
  · exact selectionsOf_validated h

variable {style : List ℕ} {positions : List Position} {selections : List (String × Json)}

theorem Validated.keys (h : Validated style positions selections) :
    selections.map (·.1) = (positions.filter fun p => p.pk ∈ style).map fun p => toString p.pk := by
  rw [← List.forall₂_eq_eq_eq, List.forall₂_map_left_iff, List.forall₂_map_right_iff]
  exact h.flip.imp fun _ _ hm => hm.1

theorem Validated.nodup (h : Validated style positions selections) (hpk : (positions.map (·.pk)).Nodup) :
    (selections.map (·.1)).Nodup := by
  have hfilter : ((positions.filter fun p => p.pk ∈ style).map (·.pk)).Nodup := hpk.sublist (List.filter_sublist.map _)
  have hmap : (positions.filter fun p => p.pk ∈ style).map (fun p => toString p.pk) =
      ((positions.filter fun p => p.pk ∈ style).map (·.pk)).map fun n : ℕ => toString n := by
    rw [List.map_map]
    rfl
  rw [h.keys, hmap]
  exact hfilter.map toString_pk_injective

theorem Validated.normal (h : Validated style positions selections) :
    ∀ m ∈ selections, ∃ p ∈ positions, m.1 = toString p.pk ∧ p.pk ∈ style ∧ Normal p.row.ballotType m.2 := by
  intro m hm
  obtain ⟨p, hp, hkey, hnormal⟩ := exists_of_mem_right h m hm
  obtain ⟨hp, hstyle⟩ := List.mem_filter.mp hp
  exact ⟨p, hp, hkey, by simpa using hstyle, hnormal⟩

/-- A ballot has a selection for a position exactly when its style contains
the position. -/
theorem Validated.get?_isSome (h : Validated style positions selections) (hpk : (positions.map (·.pk)).Nodup)
    {p : Position} (hp : p ∈ positions) :
    (Json.get? selections (toString p.pk)).isSome = true ↔ p.pk ∈ style := by
  constructor
  · intro hsome
    obtain ⟨j, hj⟩ := Option.isSome_iff_exists.mp hsome
    obtain ⟨p', -, hkey, hstyle, -⟩ := h.normal _ ((Json.get?_eq_some (h.nodup hpk)).mp hj)
    rwa [toString_pk_injective hkey]
  · intro hstyle
    have hkey : toString p.pk ∈ selections.map (·.1) := by
      rw [h.keys]
      exact List.mem_map.mpr ⟨p, List.mem_filter.mpr ⟨hp, by simpa using hstyle⟩, rfl⟩
    obtain ⟨m, hm, hm1⟩ := List.mem_map.mp hkey
    refine Option.isSome_iff_exists.mpr ⟨m.2, (Json.get?_eq_some (h.nodup hpk)).mpr ?_⟩
    rwa [← hm1]

/-- The selection of a position is in the position's normal form. -/
theorem Validated.get?_normal (h : Validated style positions selections) (hpk : (positions.map (·.pk)).Nodup)
    {p : Position} (hp : p ∈ positions) {j : Json} (hj : Json.get? selections (toString p.pk) = some j) :
    Normal p.row.ballotType j := by
  obtain ⟨p', hp', hkey, -, hnormal⟩ := h.normal _ ((Json.get?_eq_some (h.nodup hpk)).mp hj)
  rwa [List.inj_on_of_nodup_map hpk hp hp' (toString_pk_injective hkey)]

/-- **A recorded ballot opens to its selections**, where `unseal` inverts
`seal`: they are read back from JSON. -/
theorem openBallot_made (hseal : ∀ k plaintext aad r,
      E.unsealWith k (E.sealTo (E.publicOf k) plaintext aad r) aad = some plaintext)
    (h : Validated style positions selections) (hpk : (positions.map (·.pk)).Nodup) {q : CastRequest} {ev : EventRow}
    {v : VoterRow} {key : BallotKeyRow} {privateKey : String} (hkey : E.publicOf privateKey = key.publicKey) :
    openBallot E q.event privateKey (q.ballot E ev v key style selections) = some (Json.normed selections) := by
  let payload : List (String × Json) := [("v", .int 1), ("election", .nat q.event),
    ("style", .ofNats (style.insertionSort (· ≤ ·))), ("selections", .obj selections), ("nonce", .str q.nonce)]
  have hnodup : (payload.map (·.1)).Nodup :=
    show ["v", "election", "style", "selections", "nonce"].Nodup by decide
  have hsound : Json.Sound E.parseFloat (.obj payload) := by
    have hstyle : Json.Sound E.parseFloat (.ofNats (style.insertionSort (· ≤ ·))) :=
      (Json.soundItems_iff _).mpr fun x hx => by
        obtain ⟨n, -, rfl⟩ := List.mem_map.mp hx
        trivial
    have hselections : Json.Sound E.parseFloat (.obj selections) :=
      ⟨h.nodup hpk, (Json.soundMembers_iff _).mpr fun m hm => by
        obtain ⟨p, -, -, -, hnormal⟩ := h.normal m hm
        exact hnormal.sound _⟩
    exact ⟨hnodup, trivial, trivial, hstyle, hselections, trivial, trivial⟩
  have hdata : Json.loads E.parseFloat (q.plaintext style selections) = some (.obj (Json.normed payload)) := by
    rw [CastRequest.plaintext, Json.loads_canonicalJson hsound, Json.norm_obj]
    rfl
  have helection : Json.get? (Json.normed payload) "election" = some (.nat q.event) := by
    rw [Json.get?_normed hnodup]
    rfl
  refine openBallot_eq_some ?_ hdata helection rfl ?_
  · show E.unsealWith privateKey (E.sealTo key.publicKey _ _ _) _ = _
    rw [← hkey]
    exact hseal _ _ _ _
  · rw [Json.get?_normed hnodup]
    show some (Json.norm (.obj selections)) = _
    rw [Json.norm_obj]
    rfl

/-! ### Every recorded ballot -/

open Audit Authorizations

/-- A ballot that `cast_ballot` accepted: the call, the style of its
authorization and the selections that were validated. -/
structure Accepted where
  request : CastRequest
  style : List ℕ
  selections : List (String × Json)

/-- The positions of the election, before the run. -/
def positionsAt (db : Database) (e : ℕ) : List Position := positionsFor (categoriesOf db e) db

/-- `x` is a call of the run, and `b` under `u` is the ballot it recorded. -/
structure Accepted.Of (E : Env) (db₀ : Database) (calls : ℕ → Call) (db : Database) (u : String) (b : BallotRow)
    (x : Accepted) : Prop where
  call : ∃ t, calls t = .cast x.request
  uuid : x.request.uuid = u
  style : ∃ a, db.row (.authorization (tokenHash E x.request.token)) = some a ∧ a.status = .CONSUMED ∧
    a.ballotStyle = x.style
  valid : validateBallot E (positionsAt db₀ x.request.event) x.style x.request.payload = .ok x.selections
  ballot : ∃ ev v key, db₀.row (.ballotKey x.request.event) = some key ∧
    b = x.request.ballot E ev v key x.style x.selections

/-- Rows no cast and no issue writes. -/
def settled : Key → Bool
  | .category _ | .candidate _ | .ballotKey _ => true
  | _ => false

/-- Positions and keys stay as they were; a commit is that of a cast, whose
ballot is the validated payload, or of an issue. -/
def spec (E : Env) (db₀ : Database) (calls : ℕ → Call) : Spec Row Note where
  inv := fun db => ∀ k, settled k = true → db.row k = db₀.row k
  rely := (Authorizations.spec E).rely
  guar := fun own log db db' =>
    (∃ q a v b, CastDone E q a v b db db' ∧ .recorded (tokenHash E q.token) q.uuid ∈ log ∧
      ∃ x, Accepted.Of E db₀ calls db' q.uuid b x ∧ x.request = q) ∨
    (∃ q a v, IssueDone E q a v db db' ∧ .voter q.voter ∈ own)
  fact := fun n db =>
    match n with
    | .recorded _ u => ∃ b, db.row (.ballot u) = some b
    | _ => True

variable {db₀ : Database} {calls : ℕ → Call}

theorem guar_authorizations {own : List Key} {log : List Note} {db db' : Database}
    (h : (spec E db₀ calls).guar own log db db') : (Authorizations.spec E).guar own log db db' := by
  rcases h with ⟨q, a, v, b, hd, hlog, -⟩ | hissue
  · exact .inl ⟨q, a, v, b, hd, hlog⟩
  · exact .inr hissue

theorem spec_sound : (spec E db₀ calls).Sound where
  refl := (Authorizations.spec_sound (E := E)).refl
  trans := (Authorizations.spec_sound (E := E)).trans
  sub := (Authorizations.spec_sound (E := E)).sub
  fact := fun _ _ n _ _ _ _ hg hf => by
    cases n with
    | recorded h u =>
      obtain ⟨b, hb⟩ := hf
      exact ⟨b, (guar_kept (guar_authorizations hg)).ballot u b hb⟩
    | _ => trivial

theorem spec_fits : (spec E db₀ calls).Fits Any :=
  fun _ _ _ _ _ _ _ hg _ _ _ _ _ hdis =>
    guar_rely [] (guar_authorizations hg) hdis

/-- The positions and the key a cast reads are those before the run. -/
theorem positionsAt_eq {db db' : Database} (h : (spec E db₀ calls).inv db) (h' : (spec E db₀ calls).inv db') (e : ℕ) :
    positionsFor (categoriesOf db e) db' = positionsAt db₀ e := by
  unfold positionsAt positionsFor
  rw [categoriesOf_congr (fun pk => h (.category pk) rfl)]
  refine List.map_congr_left fun c _ => ?_
  rw [candidatesOf_congr fun pk => h' (.candidate pk) rfl]

theorem call_ok (t : ℕ) (db : Database) : Ok (spec E db₀ calls) ((calls t).program E) db [] [] [] := by
  cases hcall : calls t with
  | issue q =>
    refine issueAuthorization_ok (k := fun _ => .halt) spec_sound .halt ?_ fun own hvo => ?_
    · intro own a v db db' hinv hvo hd
      refine ⟨fun k hk => ?_, .inr ⟨q, a, v, hd, hvo⟩, trivial, trivial⟩
      rw [issueDone_row hd (by cases k <;> simp_all [settled, isAudit]) (by rintro h rfl; cases hk)]
      exact hinv k hk
    · exact noneBegins_of_rely (E := E) (fun _ _ _ h => h) hvo
  | cast q =>
    refine castBallot_makes (k := fun _ => .halt) (Q := fun _ => True) spec_sound .halt .halt ?_
      (fun _ _ _ _ _ => ⟨trivial, trivial⟩) (fun _ _ _ _ _ => trivial)
    intro own a v b db db' r hinv _ _ _ hd hmade
    obtain ⟨ev, db₁, db₂, db₃, key, selections, h₁, h₂, h₃, hvalid, hkey, hb⟩ := hmade
    refine ⟨fun k hk => ?_, .inl ⟨q, a, v, b, hd, by simp [Prog.settle], ⟨q, a.ballotStyle, selections⟩, ?_, rfl⟩,
      ⟨b, by rw [castDone_ballot hd, if_pos rfl]⟩, trivial⟩
    · rw [castDone_row hd (by cases k <;> simp_all [settled, isAudit])]
      have hrow : (db.apply (castWrites E q a v b)).row k = db.row k := by
        cases k <;> simp_all [settled, castWrites]
      rw [hrow]
      exact hinv k hk
    · exact
        { call := ⟨t, hcall⟩
          uuid := rfl
          style := ⟨consume a (q.now 3), by rw [castDone_authorization hd, if_pos rfl], rfl, rfl⟩
          valid := by rw [← positionsAt_eq h₁ h₂]; exact hvalid
          ballot := ⟨ev, v, key, by rw [← h₃ (.ballotKey q.event) rfl]; exact hkey, hb⟩ }

/-- A consumed authorization stays as it is. -/
theorem guar_consumed {own : List Key} {log : List Note} {db db' : Database}
    (hg : (spec E db₀ calls).guar own log db db') {h : String} {a : AuthorizationRow}
    (ha : db.row (.authorization h) = some a) (hs : a.status = .CONSUMED) :
    db'.row (.authorization h) = some a := by
  rcases hg with ⟨q, a', v, b, hd, -, -⟩ | ⟨q, a', v, hd, -⟩
  · rw [castDone_authorization hd, if_neg, ha]
    rintro rfl
    rw [hd.authorization, Option.some.injEq] at ha
    rw [← ha, hd.issued] at hs
    cases hs
  · rw [issueDone_authorization hd, if_neg, ha, Option.map_some, updated, if_neg]
    · simp [issuedTo, hs]
    · rintro rfl
      rw [hd.new] at ha
      cases ha

theorem Accepted.Of.mono {own : List Key} {log : List Note} {db db' : Database}
    (hg : (spec E db₀ calls).guar own log db db') {u : String} {b : BallotRow} {x : Accepted}
    (h : x.Of E db₀ calls db u b) : x.Of E db₀ calls db' u b := by
  obtain ⟨a, ha, hs, hstyle⟩ := h.style
  exact { h with style := ⟨a, guar_consumed hg ha hs, hs, hstyle⟩ }

/-- The acceptance of `x` is in the log of a thread. -/
def Accepted.Noted (E : Env) (s : State Row Note) (x : Accepted) : Prop :=
  ∃ t, .recorded (tokenHash E x.request.token) x.request.uuid ∈ (s.thr t).log

/-- **Every ballot of a run was there before, or was accepted.** -/
theorem accepted_of_ballot {s : State Row Note} (hr : Run Any (start E db₀ calls) s) {u : String} {b : BallotRow}
    (hb : s.db.row (.ballot u) = some b) :
    db₀.row (.ballot u) = some b ∨ ∃ x : Accepted, x.Of E db₀ calls s.db u b ∧ x.Noted E s := by
  have hmeets : Meets (spec E db₀ calls) (start E db₀ calls) := .init (fun _ _ => rfl) fun t => call_ok t db₀
  induction hr generalizing b with
  | refl => exact .inl hb
  | @step s₁ s₂ t hr hs _ ih =>
    have hold : (∀ x : Accepted, x.Of E db₀ calls s₁.db u b → x.Of E db₀ calls s₂.db u b) →
        s₁.db.row (.ballot u) = some b →
        db₀.row (.ballot u) = some b ∨ ∃ x : Accepted, x.Of E db₀ calls s₂.db u b ∧ x.Noted E s₂ := by
      intro hmono hb₁
      rcases ih hb₁ with h | ⟨x, hx, t', hlog⟩
      · exact .inl h
      · exact .inr ⟨x, hmono x hx, t', (hs.log_suffix t').subset hlog⟩
    rcases ((hmeets.run spec_sound spec_fits hr).step spec_sound spec_fits hs trivial).2 with heq | ⟨own, -, -, hg⟩
    · exact hold (fun x hx => by rwa [heq]) (heq ▸ hb)
    · have hmono : ∀ x : Accepted, x.Of E db₀ calls s₁.db u b → x.Of E db₀ calls s₂.db u b := fun x hx => hx.mono hg
      rcases hg with ⟨q, a, v, b', hd, hlog, x, hx, hxq⟩ | ⟨q, a, v, hd, hvo⟩
      · rw [castDone_ballot hd] at hb
        split at hb
        · rename_i hu
          cases hb
          subst hu
          exact .inr ⟨x, hx, t, by rw [hxq]; exact hlog⟩
        · exact hold hmono hb
      · rw [issueDone_row hd rfl (by simp)] at hb
        exact hold hmono hb

/-! ### The count of them -/

/-- The validated selections of a position. -/
def castFor (accepted : List Accepted) (spec : PositionSpec) : List Json :=
  accepted.filterMap fun x => Json.get? x.selections (toString spec.id)

/-- The selections of each ballot are those of its acceptance, read back. -/
def OpensTo (accepted : List Accepted) (valid : List Opened) : Prop :=
  List.Forall₂ (fun (x : Accepted) (o : Opened) => (x.selections.map (·.1)).Nodup ∧ o.selections = Json.normed x.selections)
    accepted valid

theorem decryptBallots_all {e : ℕ} {privateKey : String} {ballots : List (String × BallotRow)}
    {accepted : List Accepted}
    (h : List.Forall₂ (fun (b : String × BallotRow) (x : Accepted) => (x.selections.map (·.1)).Nodup ∧
      openBallot E e privateKey b.2 = some (Json.normed x.selections)) ballots accepted) :
    OpensTo accepted (decryptBallots E e privateKey ballots).1 ∧
      (decryptBallots E e privateKey ballots).2 = [] := by
  unfold decryptBallots OpensTo
  dsimp only
  induction h with
  | nil => exact ⟨.nil, rfl⟩
  | cons hb _ ih =>
    obtain ⟨hnodup, hopen⟩ := hb
    rw [List.filterMap_cons, List.filter_cons, hopen]
    exact ⟨.cons ⟨hnodup, rfl⟩ ih.1, ih.2⟩

theorem selectionsFor_opened {accepted : List Accepted} {valid : List Opened} (h : OpensTo accepted valid)
    (spec : PositionSpec) : selectionsFor valid spec = (castFor accepted spec).map Json.norm := by
  unfold selectionsFor castFor
  unfold OpensTo at h
  induction h with
  | nil => rfl
  | @cons x o accepted valid ho _ ih =>
    rw [List.filterMap_cons, List.filterMap_cons, ho.2, Json.get?_normed ho.1, ih]
    cases Json.get? x.selections (toString spec.id) <;> rfl

/-- Selections that every tally reads. -/
def Readable (spec : PositionSpec) (selections : List Json) : Prop := ∀ j ∈ selections, Normal spec.ballotType j

theorem tallyAll_ok {seed : String} {rows : List (PositionSpec × List Json)}
    (h : ∀ row ∈ rows, ∃ r, tallyPosition E row.1 row.2 seed = .ok r) :
    ∃ rs, tallyAll E seed rows = .ok rs ∧
      List.Forall₂ (fun (row : PositionSpec × List Json) r => tallyPosition E row.1 row.2 seed = .ok r) rows rs := by
  obtain ⟨rs, hrs⟩ := exists_forall₂ h
  exact ⟨rs, tallyAll_eq_ok.mpr hrs, hrs⟩

theorem constituencyTallies_ok {db : Database} {ev : EventRow} {seed : String} {specs : List PositionSpec}
    {valid : List Opened}
    (h : ∀ c, ∀ row ∈ constituencyRows specs valid c, ∃ r, tallyPosition E row.1 row.2 seed = .ok r) (cs : List ℕ) :
    ∃ entries, constituencyTallies E db ev seed specs valid cs = .ok entries := by
  have hone : ∀ c ∈ cs, ∃ entry, constituencyTally E db ev seed (constituencyRows specs valid c) c = .ok entry := by
    intro c _
    obtain ⟨rs, hrs, -⟩ := tallyAll_ok (h c)
    unfold constituencyTally
    dsimp only
    split
    · exact ⟨_, rfl⟩
    · rw [hrs]
      exact ⟨_, rfl⟩
  obtain ⟨entries, hentries⟩ := exists_forall₂ hone
  exact ⟨entries, constituencyTallies_eq_ok.mpr hentries⟩

/-- A position of the tally is one the ballots were validated for. -/
theorem position_of_spec {db : Database} {e : ℕ} (h : ∀ pk, db.row (.category pk) = db₀.row (.category pk))
    {spec : PositionSpec} (hspec : spec ∈ positionSpecs (categoriesOf db e) db) :
    ∃ p ∈ positionsAt db₀ e, spec.id = p.pk ∧ spec.ballotType = p.row.ballotType := by
  rw [categoriesOf_congr h] at hspec
  unfold positionSpecs positionsFor at hspec
  rw [List.map_map] at hspec
  obtain ⟨c, hc, rfl⟩ := List.mem_map.mp hspec
  exact ⟨⟨c.1, c.2, candidatesOf db₀ c.1⟩, List.mem_map.mpr ⟨c, hc, rfl⟩, rfl, rfl⟩

theorem positionsAt_nodup (db : Database) (e : ℕ) : ((positionsAt db e).map (·.pk)).Nodup := by
  unfold positionsAt positionsFor
  rw [List.map_map]
  exact categoriesOf_nodup db e

/-- The selections of a position on some of the ballots are in its normal
form. -/
theorem readable_opened {accepted : List Accepted} {valid valid' : List Opened} {e : ℕ}
    (hvalid : ∀ x ∈ accepted, Validated x.style (positionsAt db₀ e) x.selections) (h : OpensTo accepted valid)
    (hsub : ∀ o ∈ valid', o ∈ valid) {spec : PositionSpec} {p : Position} (hp : p ∈ positionsAt db₀ e)
    (hid : spec.id = p.pk) (htype : spec.ballotType = p.row.ballotType) :
    ∀ j ∈ selectionsFor valid' spec, Normal spec.ballotType j := by
  intro j hj
  obtain ⟨o, ho, hget⟩ := List.mem_filterMap.mp hj
  obtain ⟨x, hx, hnodup, hnormed⟩ := exists_of_mem_right h o (hsub o ho)
  rw [hnormed, Json.get?_normed hnodup] at hget
  obtain ⟨j', hj', rfl⟩ := Option.map_eq_some_iff.mp hget
  rw [htype]
  rw [hid] at hj'
  exact ((hvalid x hx).get?_normal (positionsAt_nodup db₀ e) hp hj').norm

theorem ballots_nodup (db : Database) (e : ℕ) :
    ((db.collect fun
      | .ballot u => fun b => if b.election = e then some (u, b) else none
      | _ => fun _ => none).map Prod.fst).Nodup := by
  refine Db.collect_nodup db _ fun k r x k' r' x' hx hx' heq => ?_
  cases k <;> try cases hx
  cases k' <;> try cases hx'
  dsimp only at hx hx'
  split_ifs at hx hx'
  cases hx
  cases hx'
  exact congrArg Key.ballot heq

/-- `clear`, with an `int` that reads decimals. -/
def legible : Env :=
  { clear with
    parseInt := fun text =>
      match Json.scanNumber (fun _ => .nan) text.toList with
      | some (.int n, []) => some n
      | _ => none }

theorem isPrefixOf?_append (l l' : List Char) : l.isPrefixOf? (l ++ l') = some l' := by
  induction l with
  | nil => rfl
  | cons c l ih => simp [List.isPrefixOf?, ih]

theorem legible_seal (k plaintext aad r : String) :
    legible.unsealWith k (legible.sealTo (legible.publicOf k) plaintext aad r) aad = some plaintext := by
  show ((aad ++ " ").toList.isPrefixOf? (aad ++ " " ++ plaintext).toList).map String.ofList = _
  have htext : (aad ++ " " ++ plaintext).toList = (aad ++ " ").toList ++ plaintext.toList := String.toList_append
  rw [htext, isPrefixOf?_append, Option.map_some, String.ofList_toList]

theorem legible_int (n : ℤ) : legible.parseInt (toString n) = some n := by
  show (match Json.scanNumber (fun _ => .nan) (toString n).toList with
    | some (.int n, []) => some n
    | _ => none) = _
  rw [Json.scanNumber_int]

theorem legible_hex (text : String) : (fromHex (legible.sha256 text)).isSome := by
  show (fromHex (toHex (latin1 text))).isSome
  rw [fromHex_toHex]
  rfl

/-- The signed-in voter abstains. -/
def oneCast : ℕ → Call := fun _ =>
  .cast { event := 1, token := "T", payload := .obj [], uuid := "u", nonce := "n", ephemeral := "",
          now := fun _ => 2 }

/-- The keys of ballots and of votes. -/
def ofVotes : Key → Bool
  | .ballot _ | .voteTransaction _ => true
  | _ => false

theorem count_oneBallot {db : Database} {e : ℕ} {u : String} (hkeys : db.keys.filter ofVotes = [.ballot u])
    (hrow : db.holds (ballotOf e) (.ballot u) = true) : db.count (ballotOf e) = 1 := by
  have hvotes : ∀ k ∈ db.keys, db.holds (ballotOf e) k = (db.holds (ballotOf e) k && ofVotes k) := by
    intro k _
    rcases hk : db.holds (ballotOf e) k with _ | _
    · rw [Bool.false_and]
    · obtain ⟨r, -, hr⟩ := (db.holds_iff _ _).mp hk
      cases k <;> first | rfl | cases hr
  rw [Db.count, Db.select, List.filter_congr hvotes, ← List.filter_filter, hkeys, List.filter_cons, if_pos hrow]
  rfl

theorem legacyVotes_oneBallot {db : Database} {u : String} (hkeys : db.keys.filter ofVotes = [.ballot u]) (e : ℕ) :
    legacyVotes db e = [] := by
  refine List.eq_nil_iff_forall_not_mem.mpr fun x hx => ?_
  obtain ⟨k, r, hr, hread⟩ := (db.mem_collect _ x).mp hx
  cases k with
  | voteTransaction i =>
    have hmem : Key.voteTransaction i ∈ db.keys.filter ofVotes :=
      List.mem_filter.mpr ⟨db.cover _ (by simp [hr]), rfl⟩
    rw [hkeys] at hmem
    simp at hmem
  | _ => cases hread

end EndToEnd
end FlexyVotes
