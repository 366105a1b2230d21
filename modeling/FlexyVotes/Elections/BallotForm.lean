/-
# The ballot page

The page offers a fieldset for each position: radio buttons or checkboxes with
the candidates' ids, a rank or a score for each candidate, and a box to
abstain, all under names that begin with the position's id. A browser sends a
pair for each box that is ticked and for each field, filled or not, in the
order of the page; `selectionsFromPost` reads the payload back.

A position's names end there or go on with an underscore, so no other position
reads them (`selectionFromPost_own`), even where one id begins with the other.
Filled in according to valid selections the form is read as a payload with the
same normal form (`selectionsFromPost_formPost`).

Key definitions: `Control`, `controls`, `marks`, `formPost`,
`selectionsFromPost`.
Key theorems: `selectionFromPost_own`, `selectionFromPost_section`,
`selectionsFromPost_formPost`.
-/
import FlexyVotes.Elections.Selections
import FlexyVotes.Lib.MultiDict

namespace FlexyVotes
namespace BallotForm

open Transactions Ballot Selections

variable {E : Env} {p : Position}

/-! ### The page -/

/-- The start of the names of a position's fields. -/
def key (p : Position) : String := "pos_" ++ toString p.pk

def abstainName (p : Position) : String := key p ++ "_abstain"

def rankStart (p : Position) : String := key p ++ "_rank_"

def scoreStart (p : Position) : String := key p ++ "_score_"

/-- What the page offers to fill in. -/
inductive Control
  /-- Radio buttons of one name, of which one at most is chosen. -/
  | radios (name : String) (values : List String)
  | checkbox (name value : String)
  /-- A list to choose from, with a blank at its start. -/
  | select (name : String) (options : List String)
  /-- A number from 0 to `max`, or nothing. -/
  | number (name : String) (max : ℕ)

/-- What a control sends when it is filled in to say what `marks` says. -/
def Control.sent (marks : List (String × String)) : Control → List (String × String)
  | .radios name values => ((values.filter fun v => (name, v) ∈ marks).getLast?.map fun v => (name, v)).toList
  | .checkbox name value => if (name, value) ∈ marks then [(name, value)] else []
  | .select name options => [(name, (options.find? fun v => (name, v) ∈ marks).getD "")]
  | .number name max =>
    [(name, (((List.range (max + 1)).map fun n => toString n).find? fun v => (name, v) ∈ marks).getD "")]

/-- The ids of the candidates on the page. -/
def listed (p : Position) : List ℕ := (activeCandidates p).map (·.1)

/-- The ranks of a select, from 1 to the greatest number of selections. -/
def ranks (p : Position) : List String :=
  (((List.range (listed p).length).map (· + 1)).filter fun n => n ≤ (effectiveLimits p).2).map fun n => toString n

/-- The fields for a position's candidates, or for its answers. -/
def choices (p : Position) : List Control :=
  match p.row.ballotType with
  | .REFERENDUM => [.radios (key p) REFERENDUM_OPTIONS]
  | .SINGLE => [.radios (key p) ((listed p).map fun c => toString c)]
  | .RANKED => (listed p).map fun c => .select (rankStart p ++ toString c) (ranks p)
  | .SCORE => (listed p).map fun c => .number (scoreStart p ++ toString c) p.row.maxScore
  | _ => (listed p).map fun c => .checkbox (key p) (toString c)

/-- The fieldset of a position. -/
def controls (p : Position) : List Control :=
  choices p ++ if p.row.allowAbstain then [.checkbox (abstainName p) "on"] else []

/-- What a selection says in the fields of its position. -/
def marks (E : Env) (p : Position) : Json → List (String × String)
  | .null => [(abstainName p, "on")]
  | .str option => [(key p, option)]
  | .arr ids =>
    if p.row.ballotType = .RANKED then (ids.zipIdx 1).map fun i => (rankStart p ++ pyStr E i.1, toString i.2)
    else ids.map fun i => (key p, pyStr E i)
  | .obj scores => scores.map fun s => (scoreStart p ++ s.1, pyStr E s.2)
  | _ => []

/-- What the fieldset of a position sends for a selection. -/
def fieldset (E : Env) (p : Position) (selection : Json) : List (String × String) :=
  (controls p).flatMap (Control.sent (marks E p selection))

/-- What the form sends when it is filled in according to selections. -/
def formPost (E : Env) (positions : List Position) (style : List ℕ) (csrf : String) (selections : List (String × Json)) :
    List (String × String) :=
  ("csrfmiddlewaretoken", csrf) :: (styled positions style).flatMap fun p => fieldset E p (rawOf (.obj selections) p)

/-! ### Reading the form -/

/-- `name.rsplit('_', 1)[-1]`. -/
def lastPart (name : String) : String := String.ofList (name.toList.reverse.takeWhile (· ≠ '_')).reverse

/-- The fields under names that begin with `start`, but for blank ones. -/
def filled (start : String) (post : List (String × String)) : List (String × String) :=
  (MultiDict.items post).filter fun f => start.toList.isPrefixOf f.1.toList && f.2 ≠ ""

/-- The scores of a SCORE position. -/
def postedScores (p : Position) (post : List (String × String)) : List (String × Json) :=
  (filled (scoreStart p) post).foldl (fun scores f => Json.setKey scores (lastPart f.1) (.str f.2)) []

/-- The ranks of a RANKED position, with the candidates that have them. -/
def postedRanks (E : Env) (p : Position) : List (String × String) → Except Failure (List (ℤ × String))
  | [] => .ok []
  | (name, value) :: rest =>
    match E.parseInt value with
    | none => .error (.ballot ("Invalid rank for " ++ quoted p ++ "."))
    | some rank => (postedRanks E p rest).map ((rank, lastPart name) :: ·)

/-- The order in which pairs of a rank and an id are sorted. -/
def Before (a b : ℤ × String) : Prop := a.1 < b.1 ∨ a.1 = b.1 ∧ a.2 ≤ b.2

instance : DecidableRel Before := fun a b => by
  unfold Before
  infer_instance

/-- A ranking that is read: the candidates in the order of ranks 1, 2, 3... -/
def ranked (p : Position) (posted : List (ℤ × String)) : Except Failure Json :=
  let sorted := posted.insertionSort Before
  if sorted.map (·.1) = (List.range sorted.length).map (fun n : ℕ => (n : ℤ) + 1) then
    .ok (.arr (sorted.map fun r => .str r.2))
  else .error (.ballot ("Ranks for " ++ quoted p ++ " must be 1, 2, 3... with no gaps or repeats."))

/-- What `selections_from_post` reads for one position. -/
def selectionFromPost (E : Env) (p : Position) (post : List (String × String)) : Except Failure Json :=
  if MultiDict.get post (abstainName p) = some "on" then .ok .null
  else
    match p.row.ballotType with
    | .SCORE => .ok (.obj (postedScores p post))
    | .RANKED =>
      match postedRanks E p (filled (rankStart p) post) with
      | .error e => .error e
      | .ok posted => ranked p posted
    | .REFERENDUM => .ok (.str ((MultiDict.get post (key p)).getD ""))
    | _ => .ok (.arr ((MultiDict.getlist post (key p)).map .str))

/-- `selections_from_post`, of the positions in ballot order. -/
def selectionsFromPost (E : Env) (style : List ℕ) (post : List (String × String)) :
    List Position → Except Failure (List (String × Json))
  | [] => .ok []
  | p :: ps =>
    if p.pk ∉ style then selectionsFromPost E style post ps
    else
      match selectionFromPost E p post with
      | .error e => .error e
      | .ok raw => (selectionsFromPost E style post ps).map ((toString p.pk, raw) :: ·)

/-! ### Whose a field is -/

/-- What stands in a field's name where the id of its position does. -/
def owner (name : String) : List Char := (name.toList.drop 4).takeWhile (· ≠ '_')

def own (p : Position) (name : String) : Bool := owner name = (toString p.pk).toList

theorem digits_ne (n : ℕ) : ∀ c ∈ (toString n).toList, (c ≠ '_' : Bool) = true := by
  intro c hc
  rw [decide_eq_true_eq]
  rintro rfl
  rw [Nat.toString_eq_repr, Nat.toList_repr] at hc
  exact Nat.underscore_not_in_toDigits hc

theorem owner_key (p : Position) : owner (key p) = (toString p.pk).toList := by
  unfold owner key
  rw [String.toList_append, List.takeWhile_eq_self_iff.mpr]
  · rfl
  · exact digits_ne p.pk

/-- A name that goes on with an underscore is the position's. -/
theorem owner_append {name : String} {rest : List Char} (h : name.toList = (key p).toList ++ '_' :: rest) :
    owner name = (toString p.pk).toList := by
  have hname : name.toList = "pos_".toList ++ ((toString p.pk).toList ++ '_' :: rest) := by
    rw [h, key, String.toList_append, List.append_assoc]
  unfold owner
  rw [hname]
  change List.takeWhile _ ((toString p.pk).toList ++ '_' :: rest) = _
  rw [List.takeWhile_append_of_pos (digits_ne p.pk)]
  simp

theorem own_of_begins {start name : String} (hstart : ∃ rest, start.toList = (key p).toList ++ '_' :: rest)
    (h : start.toList <+: name.toList) : own p name = true := by
  obtain ⟨rest, hrest⟩ := hstart
  obtain ⟨more, hmore⟩ := h
  have hname : name.toList = (key p).toList ++ '_' :: (rest ++ more) := by
    rw [← hmore, hrest, List.append_assoc, List.cons_append]
  exact decide_eq_true (owner_append hname)

theorem own_key (p : Position) : own p (key p) = true := decide_eq_true (owner_key p)

theorem abstainName_start (p : Position) : ∃ rest, (abstainName p).toList = (key p).toList ++ '_' :: rest :=
  ⟨"abstain".toList, String.toList_append⟩

theorem rankStart_start (p : Position) : ∃ rest, (rankStart p).toList = (key p).toList ++ '_' :: rest :=
  ⟨"rank_".toList, String.toList_append⟩

theorem scoreStart_start (p : Position) : ∃ rest, (scoreStart p).toList = (key p).toList ++ '_' :: rest :=
  ⟨"score_".toList, String.toList_append⟩

theorem own_abstain (p : Position) : own p (abstainName p) = true :=
  own_of_begins (abstainName_start p) (List.prefix_refl _)

theorem filled_own {start : String} (hstart : ∃ rest, start.toList = (key p).toList ++ '_' :: rest)
    (post : List (String × String)) : filled start (post.filter fun f => own p f.1) = filled start post := by
  unfold filled
  rw [← MultiDict.items_filter, List.filter_filter]
  refine List.filter_congr fun f _ => ?_
  by_cases h : start.toList.isPrefixOf f.1.toList
  · rw [own_of_begins hstart (List.isPrefixOf_iff_prefix.mp h), Bool.and_true]
  · simp [h]

/-- **Only a position's own fields are read for it.** -/
theorem selectionFromPost_own (E : Env) (p : Position) (post : List (String × String)) :
    selectionFromPost E p (post.filter fun f => own p f.1) = selectionFromPost E p post := by
  unfold selectionFromPost postedScores
  rw [MultiDict.get_filter (own_abstain p), MultiDict.get_filter (own_key p), MultiDict.getlist_filter (own_key p),
    filled_own (scoreStart_start p), filled_own (rankStart_start p)]

def Control.name : Control → String
  | .radios name _ | .checkbox name _ | .select name _ | .number name _ => name

theorem Control.sent_name {marks : List (String × String)} {c : Control} {f : String × String} (h : f ∈ c.sent marks) :
    f.1 = c.name := by
  cases c with
  | radios name values =>
    obtain ⟨v, -, rfl⟩ := Option.map_eq_some_iff.mp (Option.mem_toList.mp h)
    rfl
  | checkbox name value =>
    by_cases hmark : (name, value) ∈ marks
    · rw [sent, if_pos hmark, List.mem_singleton] at h
      rw [h]
      rfl
    · rw [sent, if_neg hmark] at h
      cases h
  | select name options =>
    rw [List.mem_singleton.mp h]
    rfl
  | number name max =>
    rw [List.mem_singleton.mp h]
    rfl

theorem prefix_append (s t : String) : s.toList <+: (s ++ t).toList := by
  rw [String.toList_append]
  exact List.prefix_append _ _

theorem choices_own {c : Control} (h : c ∈ choices p) : own p c.name = true := by
  unfold choices at h
  split at h
  · rw [List.mem_singleton.mp h]
    exact own_key p
  · rw [List.mem_singleton.mp h]
    exact own_key p
  · obtain ⟨i, -, rfl⟩ := List.mem_map.mp h
    exact own_of_begins (rankStart_start p) (prefix_append _ _)
  · obtain ⟨i, -, rfl⟩ := List.mem_map.mp h
    exact own_of_begins (scoreStart_start p) (prefix_append _ _)
  · obtain ⟨i, -, rfl⟩ := List.mem_map.mp h
    exact own_key p

theorem fieldset_own {j : Json} {f : String × String} (h : f ∈ fieldset E p j) : own p f.1 = true := by
  obtain ⟨c, hc, hf⟩ := List.mem_flatMap.mp h
  rw [Control.sent_name hf]
  rcases List.mem_append.mp hc with hc | hc
  · exact choices_own hc
  · split at hc
    · rw [List.mem_singleton.mp hc]
      exact own_abstain p
    · cases hc

theorem not_own_of_ne {q : Position} {name : String} (hq : own q name = true) (hne : q.pk ≠ p.pk) : own p name = false := by
  refine decide_eq_false fun h => hne (toString_pk_injective (String.toList_injective ?_))
  rw [← of_decide_eq_true hq, ← h]

theorem not_own_csrf (p : Position) : own p "csrfmiddlewaretoken" = false := by
  refine decide_eq_false fun h => ?_
  have hm : 'm' ∈ (toString p.pk).toList := by
    rw [← h]
    decide
  rw [Nat.toString_eq_repr, Nat.toList_repr] at hm
  exact absurd (Nat.isDigit_of_mem_toDigits (by decide) (by decide) hm) (by decide)

/-- Among what the form sends are a position's own fields its fieldset. -/
theorem formPost_own {positions : List Position} {style : List ℕ} (hpk : (positions.map (·.pk)).Nodup) {p : Position}
    (hp : p ∈ styled positions style) (csrf : String) (selections : List (String × Json)) :
    (formPost E positions style csrf selections).filter (fun f => own p f.1) =
      fieldset E p (rawOf (.obj selections) p) := by
  have hnodup : ((styled positions style).map (·.pk)).Nodup := hpk.sublist (List.filter_sublist.map _)
  obtain ⟨pre, post, hsplit⟩ := List.append_of_mem hp
  rw [hsplit, List.map_append, List.map_cons, List.nodup_middle, List.nodup_cons, List.mem_append, not_or] at hnodup
  obtain ⟨⟨hpre, hpost⟩, -⟩ := hnodup
  have hothers : ∀ ps : List Position, p.pk ∉ ps.map (·.pk) →
      (ps.flatMap fun q => fieldset E q (rawOf (.obj selections) q)).filter (fun f => own p f.1) = [] := by
    intro ps hps
    refine List.filter_eq_nil_iff.mpr fun f hf => ?_
    obtain ⟨q, hq, hf⟩ := List.mem_flatMap.mp hf
    rw [not_own_of_ne (fieldset_own hf) fun h => hps (List.mem_map.mpr ⟨q, hq, h⟩)]
    exact Bool.false_ne_true
  unfold formPost
  rw [List.filter_cons, if_neg (by rw [not_own_csrf]; exact Bool.false_ne_true), hsplit, List.flatMap_append,
    List.flatMap_cons, List.filter_append, List.filter_append, hothers pre hpre, hothers post hpost, List.append_nil,
    List.nil_append, List.filter_eq_self.mpr fun f hf => fieldset_own hf]

/-! ### Numbers of candidates -/

/-- The number that a list of pairs has for a candidate. -/
def numberOf (pairs : List (ℕ × ℕ)) (c : ℕ) : Option ℕ := (pairs.find? fun s => s.1 = c).map (·.2)

/-- The pairs, in the order of the page. -/
def onPage (p : Position) (pairs : List (ℕ × ℕ)) : List (ℕ × ℕ) :=
  (listed p).filterMap fun c => (numberOf pairs c).map fun n => (c, n)

theorem numberOf_eq_some {pairs : List (ℕ × ℕ)} (hnodup : (pairs.map (·.1)).Nodup) {c n : ℕ} :
    numberOf pairs c = some n ↔ (c, n) ∈ pairs := by
  unfold numberOf
  induction pairs with
  | nil => simp
  | cons s pairs ih =>
    obtain ⟨hs, hrest⟩ := List.nodup_cons.mp hnodup
    rw [List.find?_cons, List.mem_cons]
    by_cases h : s.1 = c
    · have hnot : (c, n) ∉ pairs := fun hmem => hs (List.mem_map.mpr ⟨(c, n), hmem, h.symm⟩)
      simp [h, hnot, Prod.ext_iff, eq_comm]
    · have hne : (c, n) ≠ s := fun he => h (by rw [← he])
      simp only [h, decide_false, hne, false_or]
      exact ih hrest

theorem onPage_perm (hlisted : (listed p).Nodup) {pairs : List (ℕ × ℕ)} (hnodup : (pairs.map (·.1)).Nodup)
    (hsub : ∀ s ∈ pairs, s.1 ∈ listed p) : (onPage p pairs).Perm pairs := by
  have hmem : ∀ {c : ℕ} {s : ℕ × ℕ}, (numberOf pairs c).map (fun n => (c, n)) = some s ↔ s.1 = c ∧ s ∈ pairs := by
    intro c s
    rw [Option.map_eq_some_iff]
    constructor
    · rintro ⟨n, hn, rfl⟩
      exact ⟨rfl, (numberOf_eq_some hnodup).mp hn⟩
    · rintro ⟨rfl, hs⟩
      exact ⟨s.2, (numberOf_eq_some hnodup).mpr hs, rfl⟩
  refine (List.perm_ext_iff_of_nodup ?_ (.of_map _ hnodup)).mpr fun s => ?_
  · refine hlisted.filterMap fun c c' s hs hs' => ?_
    rw [← (hmem.mp hs).1, ← (hmem.mp hs').1]
  · rw [onPage, List.mem_filterMap]
    constructor
    · rintro ⟨c, -, hs⟩
      exact (hmem.mp hs).2
    · exact fun hs => ⟨s.1, hsub s hs, hmem.mpr ⟨rfl, hs⟩⟩

theorem append_toString_inj {start : String} {m n : ℕ} (h : start ++ toString m = start ++ toString n) : m = n := by
  refine toString_pk_injective (String.toList_injective ?_)
  have hchars := congrArg String.toList h
  rw [String.toList_append, String.toList_append] at hchars
  exact List.append_cancel_left hchars

/-- What pairs of a candidate and a number say in fields whose names begin with `start`. -/
def marksOf (start : String) (pairs : List (ℕ × ℕ)) : List (String × String) :=
  pairs.map fun s => (start ++ toString s.1, toString s.2)

theorem mem_marksOf {start v : String} {pairs : List (ℕ × ℕ)} {c : ℕ} :
    (start ++ toString c, v) ∈ marksOf start pairs ↔ ∃ n, (c, n) ∈ pairs ∧ toString n = v := by
  unfold marksOf
  rw [List.mem_map]
  constructor
  · rintro ⟨s, hs, heq⟩
    obtain rfl := append_toString_inj (congrArg Prod.fst heq)
    exact ⟨s.2, hs, congrArg Prod.snd heq⟩
  · rintro ⟨n, hn, rfl⟩
    exact ⟨(c, n), hn, rfl⟩

/-- The number that is chosen for a candidate, among options that have it. -/
theorem find_marksOf {start : String} {pairs : List (ℕ × ℕ)} (hnodup : (pairs.map (·.1)).Nodup) {options : List String}
    (hoptions : ∀ s ∈ pairs, toString s.2 ∈ options) (c : ℕ) :
    options.find? (fun v => (start ++ toString c, v) ∈ marksOf start pairs) =
      (numberOf pairs c).map fun n => toString n := by
  cases hc : numberOf pairs c with
  | none =>
    refine List.find?_eq_none.mpr fun v _ hv => ?_
    obtain ⟨n, hn, -⟩ := mem_marksOf.mp (of_decide_eq_true hv)
    rw [(numberOf_eq_some hnodup).mpr hn] at hc
    cases hc
  | some n =>
    have hn := (numberOf_eq_some hnodup).mp hc
    have hmark : (start ++ toString c, toString n) ∈ marksOf start pairs := mem_marksOf.mpr ⟨n, hn, rfl⟩
    cases hfind : options.find? fun v => (start ++ toString c, v) ∈ marksOf start pairs with
    | none =>
      exact absurd (decide_eq_true hmark) (List.find?_eq_none.mp hfind _ (hoptions _ hn))
    | some v =>
      have hv : (start ++ toString c, v) ∈ marksOf start pairs := by
        simpa only [decide_eq_true_eq] using List.find?_some hfind
      obtain ⟨m, hm, rfl⟩ := mem_marksOf.mp hv
      rw [(numberOf_eq_some hnodup).mpr hm] at hc
      cases hc
      rfl

/-- The fields under names that begin with `start`, as they are sent. -/
def sentOf (p : Position) (start : String) (pairs : List (ℕ × ℕ)) : List (String × String) :=
  (listed p).map fun c => (start ++ toString c, ((numberOf pairs c).map fun n => toString n).getD "")

theorem toString_ne_empty (n : ℕ) : toString n ≠ "" := fun h => by
  have hchars := congrArg String.toList h
  rw [Nat.toString_eq_repr, Nat.toList_repr] at hchars
  exact Nat.toDigits_ne_nil hchars

/-- Those that are filled in are the pairs, in the order of the page. -/
theorem filled_sentOf (hlisted : (listed p).Nodup) (start : String) (pairs : List (ℕ × ℕ)) :
    filled start (sentOf p start pairs) = marksOf start (onPage p pairs) := by
  have hnodup : ((sentOf p start pairs).map (·.1)).Nodup := by
    rw [sentOf, List.map_map]
    exact hlisted.map fun _ _ h => append_toString_inj h
  unfold filled marksOf onPage
  rw [MultiDict.items_eq hnodup, sentOf, List.filter_map, List.map_filterMap]
  induction listed p with
  | nil => rfl
  | cons c cs ih =>
    have hstart : start.toList.isPrefixOf (start ++ toString c).toList = true :=
      List.isPrefixOf_iff_prefix.mpr (prefix_append _ _)
    cases hc : numberOf pairs c with
    | none => simpa [hc, List.filter_cons] using ih
    | some n => simpa [hc, List.filter_cons, hstart, toString_ne_empty] using ih

/-! ### What a fieldset sends -/

theorem abstainName_ne_key (p : Position) : key p ≠ abstainName p := fun h => by
  have hlength := congrArg (fun s => s.toList.length) h
  simp [abstainName, String.toList_append] at hlength

theorem abstainName_ne_rank (p : Position) (t : String) : rankStart p ++ t ≠ abstainName p := fun h => by
  have hchars := congrArg String.toList h
  simp [abstainName, rankStart, String.toList_append] at hchars

theorem abstainName_ne_score (p : Position) (t : String) : scoreStart p ++ t ≠ abstainName p := fun h => by
  have hchars := congrArg String.toList h
  simp [abstainName, scoreStart, String.toList_append] at hchars

theorem choices_ne_abstain {c : Control} (h : c ∈ choices p) : c.name ≠ abstainName p := by
  unfold choices at h
  split at h
  · rw [List.mem_singleton.mp h]
    exact abstainName_ne_key p
  · rw [List.mem_singleton.mp h]
    exact abstainName_ne_key p
  · obtain ⟨i, -, rfl⟩ := List.mem_map.mp h
    exact abstainName_ne_rank p _
  · obtain ⟨i, -, rfl⟩ := List.mem_map.mp h
    exact abstainName_ne_score p _
  · obtain ⟨i, -, rfl⟩ := List.mem_map.mp h
    exact abstainName_ne_key p

/-- Where an abstention is not what the selection says, its box is not ticked. -/
theorem fieldset_eq {j : Json} (h : (abstainName p, "on") ∉ marks E p j) :
    fieldset E p j = (choices p).flatMap (Control.sent (marks E p j)) := by
  unfold fieldset controls
  rw [List.flatMap_append]
  split
  · rw [List.flatMap_singleton, Control.sent, if_neg h, List.append_nil]
  · rw [List.flatMap_nil, List.append_nil]

theorem get_abstain {j : Json} (h : (abstainName p, "on") ∉ marks E p j) :
    MultiDict.get (fieldset E p j) (abstainName p) ≠ some "on" := by
  have hnone : (fieldset E p j).filter (fun f => f.1 = abstainName p) = [] := by
    rw [fieldset_eq h]
    refine List.filter_eq_nil_iff.mpr fun f hf => ?_
    obtain ⟨c, hc, hf⟩ := List.mem_flatMap.mp hf
    rw [Control.sent_name hf, decide_eq_true_eq]
    exact choices_ne_abstain hc
  rw [MultiDict.get, MultiDict.getlist, hnone]
  intro h
  cases h

theorem get_abstained (h : p.row.allowAbstain = true) :
    MultiDict.get (fieldset E p .null) (abstainName p) = some "on" := by
  have hbox : Control.sent (marks E p .null) (.checkbox (abstainName p) "on") = [(abstainName p, "on")] :=
    if_pos (List.mem_singleton.mpr rfl)
  unfold fieldset controls MultiDict.get MultiDict.getlist
  rw [if_pos h, List.flatMap_append, List.flatMap_singleton, hbox, List.filter_append, List.map_append]
  simp

/-- The ids of candidates, as a selection has them. -/
def idsJson (cs : List ℕ) : Json := .arr (cs.map fun c : ℕ => .int c)

theorem marks_ranked (E : Env) (h : p.row.ballotType = .RANKED) (cs : List ℕ) :
    marks E p (idsJson cs) = marksOf (rankStart p) (cs.zipIdx 1) := by
  unfold idsJson marksOf
  simp only [marks]
  rw [if_pos h, List.zipIdx_map, List.map_map]
  rfl

theorem marks_chosen (E : Env) (h : p.row.ballotType ≠ .RANKED) (cs : List ℕ) :
    marks E p (idsJson cs) = cs.map fun c => (key p, toString c) := by
  unfold idsJson
  simp only [marks]
  rw [if_neg h, List.map_map]
  rfl

/-- Scores, as a selection has them. -/
def pairsJson (pairs : List (ℕ × ℕ)) : Json := .obj (pairs.map fun s => (toString s.1, .int s.2))

theorem marks_scored (E : Env) (p : Position) (pairs : List (ℕ × ℕ)) :
    marks E p (pairsJson pairs) = marksOf (scoreStart p) pairs := by
  unfold pairsJson marksOf
  simp only [marks]
  rw [List.map_map]
  rfl

theorem marksOf_ne_abstain {start : String} (hstart : ∀ t, start ++ t ≠ abstainName p) (pairs : List (ℕ × ℕ)) :
    (abstainName p, "on") ∉ marksOf start pairs := fun h => by
  obtain ⟨s, -, heq⟩ := List.mem_map.mp h
  exact hstart _ (congrArg Prod.fst heq)

theorem mem_ranks {n : ℕ} (hpos : 0 < n) (hlisted : n ≤ (listed p).length) (hmax : n ≤ (effectiveLimits p).2) :
    toString n ∈ ranks p := by
  unfold ranks
  refine List.mem_map.mpr ⟨n, List.mem_filter.mpr ⟨List.mem_map.mpr ⟨n - 1, List.mem_range.mpr ?_, ?_⟩, ?_⟩, rfl⟩
  · omega
  · omega
  · exact decide_eq_true hmax

theorem fieldset_ranked (E : Env) (hbt : p.row.ballotType = .RANKED) {cs : List ℕ} (hnodup : cs.Nodup)
    (hlength : cs.length ≤ (listed p).length) (hmost : cs.length ≤ (effectiveLimits p).2) :
    fieldset E p (idsJson cs) = sentOf p (rankStart p) (cs.zipIdx 1) := by
  have hnodup' : ((cs.zipIdx 1).map (·.1)).Nodup := by rwa [List.zipIdx_map_fst]
  have hoptions : ∀ s ∈ cs.zipIdx 1, toString s.2 ∈ ranks p := fun s hs => by
    have hle := List.le_snd_of_mem_zipIdx hs
    have hlt := List.snd_lt_add_of_mem_zipIdx hs
    exact mem_ranks (by omega) (by omega) (by omega)
  have hmarks := marks_ranked E hbt cs
  rw [fieldset_eq (by rw [hmarks]; exact marksOf_ne_abstain (abstainName_ne_rank p) _), hmarks, choices, hbt]
  unfold sentOf
  simp only [List.flatMap_map, Control.sent, find_marksOf hnodup' hoptions]
  exact List.flatMap_pure_eq_map ..

theorem fieldset_scored (E : Env) (hbt : p.row.ballotType = .SCORE) {pairs : List (ℕ × ℕ)}
    (hnodup : (pairs.map (·.1)).Nodup) (hmax : ∀ s ∈ pairs, s.2 ≤ p.row.maxScore) :
    fieldset E p (pairsJson pairs) = sentOf p (scoreStart p) pairs := by
  have hoptions : ∀ s ∈ pairs, toString s.2 ∈ (List.range (p.row.maxScore + 1)).map fun n => toString n := fun s hs =>
    List.mem_map.mpr ⟨s.2, List.mem_range.mpr (Nat.lt_succ_of_le (hmax s hs)), rfl⟩
  have hmarks := marks_scored E p pairs
  rw [fieldset_eq (by rw [hmarks]; exact marksOf_ne_abstain (abstainName_ne_score p) _), hmarks, choices, hbt]
  unfold sentOf
  simp only [List.flatMap_map, Control.sent, find_marksOf hnodup hoptions]
  exact List.flatMap_pure_eq_map ..

/-- The candidates of a selection, in the order of the page. -/
def chosenOnPage (p : Position) (cs : List ℕ) : List ℕ := (listed p).filter fun c => c ∈ cs

theorem chosenOnPage_perm (hlisted : (listed p).Nodup) {cs : List ℕ} (hnodup : cs.Nodup) (hsub : ∀ c ∈ cs, c ∈ listed p) :
    (chosenOnPage p cs).Perm cs := by
  refine (List.perm_ext_iff_of_nodup (hlisted.filter _) hnodup).mpr fun c => ?_
  rw [List.mem_filter, decide_eq_true_eq]
  exact ⟨fun h => h.2, fun h => ⟨hsub c h, h⟩⟩

theorem getLast?_of_length_le_one {α : Type} : ∀ {l : List α}, l.length ≤ 1 → l.getLast?.toList = l
  | [], _ => rfl
  | [_], _ => rfl

theorem mem_marks_chosen {cs : List ℕ} {c : ℕ} : (key p, toString c) ∈ cs.map (fun c => (key p, toString c)) ↔ c ∈ cs := by
  rw [List.mem_map]
  constructor
  · rintro ⟨c', hc', heq⟩
    obtain rfl := toString_pk_injective (congrArg Prod.snd heq)
    exact hc'
  · exact fun h => ⟨c, h, rfl⟩

theorem fieldset_chosen (E : Env) (hr : p.row.ballotType ≠ .REFERENDUM) (hs : p.row.ballotType ≠ .SCORE)
    (hranked : p.row.ballotType ≠ .RANKED) (hlisted : (listed p).Nodup) {cs : List ℕ} (hnodup : cs.Nodup)
    (hsub : ∀ c ∈ cs, c ∈ listed p) (hmost : cs.length ≤ (effectiveLimits p).2) :
    fieldset E p (idsJson cs) = (chosenOnPage p cs).map fun c => (key p, toString c) := by
  have hmarks := marks_chosen E hranked cs
  have habstain : (abstainName p, "on") ∉ cs.map fun c => (key p, toString c) := fun h => by
    obtain ⟨c, -, heq⟩ := List.mem_map.mp h
    exact abstainName_ne_key p (congrArg Prod.fst heq)
  have hboxes : ∀ l : List ℕ, (l.map fun c => Control.checkbox (key p) (toString c)).flatMap
      (Control.sent (cs.map fun c => (key p, toString c))) =
        (l.filter fun c => c ∈ cs).map fun c => (key p, toString c) := by
    intro l
    induction l with
    | nil => rfl
    | cons c l ih =>
      rw [List.map_cons, List.flatMap_cons, ih, Control.sent, List.filter_cons]
      by_cases hc : c ∈ cs
      · rw [if_pos (mem_marks_chosen.mpr hc), if_pos (decide_eq_true hc)]
        rfl
      · rw [if_neg fun h => hc (mem_marks_chosen.mp h), if_neg (by simpa using hc)]
        rfl
  rw [fieldset_eq (by rwa [hmarks]), hmarks, choices]
  cases hbt : p.row.ballotType
  case REFERENDUM => exact absurd hbt hr
  case SCORE => exact absurd hbt hs
  case RANKED => exact absurd hbt hranked
  case SINGLE =>
    have hone : (chosenOnPage p cs).length ≤ 1 := by
      have hlimit : (effectiveLimits p).2 = 1 := by rw [effectiveLimits, hbt]
      rw [(chosenOnPage_perm hlisted hnodup hsub).length_eq]
      omega
    have hvalues : ((listed p).map fun c => toString c).filter
        (fun v => (key p, v) ∈ cs.map fun c => (key p, toString c)) = (chosenOnPage p cs).map fun c => toString c := by
      rw [List.filter_map, chosenOnPage]
      exact congrArg _ (List.filter_congr fun c _ => decide_eq_decide.mpr mem_marks_chosen)
    have hlast : ∀ l : List String, l.length ≤ 1 →
        (l.getLast?.map fun v => (key p, v)).toList = l.map fun v => (key p, v) := fun l hl => by
      rw [← List.getLast?_map, getLast?_of_length_le_one (by rwa [List.length_map])]
    rw [List.flatMap_singleton, Control.sent, hvalues, hlast _ (by rwa [List.length_map]), List.map_map]
    rfl
  all_goals exact hboxes (listed p)

theorem fieldset_answered (E : Env) (hbt : p.row.ballotType = .REFERENDUM) {option : String}
    (hoption : option ∈ REFERENDUM_OPTIONS) : fieldset E p (.str option) = [(key p, option)] := by
  have hmark : ∀ v, (key p, v) ∈ marks E p (.str option) ↔ v = option := fun v => by simp [marks]
  rw [fieldset_eq fun h => abstainName_ne_key p (congrArg Prod.fst (List.mem_singleton.mp h)).symm, choices, hbt,
    List.flatMap_singleton, Control.sent]
  simp only [hmark]
  simp only [REFERENDUM_OPTIONS, List.mem_cons, List.not_mem_nil, or_false] at hoption
  rcases hoption with rfl | rfl <;> rfl

/-! ### What is read of it -/

theorem lastPart_append {start : String} (hstart : ∃ init, start.toList = init ++ ['_']) (n : ℕ) :
    lastPart (start ++ toString n) = toString n := by
  obtain ⟨init, hinit⟩ := hstart
  unfold lastPart
  rw [String.toList_append, hinit, List.append_assoc, List.reverse_append, List.reverse_append, List.append_assoc,
    List.takeWhile_append_of_pos fun c hc => digits_ne n c (List.mem_reverse.mp hc)]
  refine String.toList_injective ?_
  simp

theorem rankStart_last (p : Position) : ∃ init, (rankStart p).toList = init ++ ['_'] :=
  ⟨(key p).toList ++ "_rank".toList, by rw [rankStart, String.toList_append, List.append_assoc]; rfl⟩

theorem scoreStart_last (p : Position) : ∃ init, (scoreStart p).toList = init ++ ['_'] :=
  ⟨(key p).toList ++ "_score".toList, by rw [scoreStart, String.toList_append, List.append_assoc]; rfl⟩

theorem postedScores_sentOf (hlisted : (listed p).Nodup) {pairs : List (ℕ × ℕ)} (hnodup : (pairs.map (·.1)).Nodup)
    (hsub : ∀ s ∈ pairs, s.1 ∈ listed p) : postedScores p (sentOf p (scoreStart p) pairs) =
      (onPage p pairs).map fun s => (toString s.1, .str (toString s.2)) := by
  have hfresh : ∀ (l : List (ℕ × ℕ)) (scores : List (String × Json)),
      (scores.map (·.1) ++ l.map fun s => toString s.1).Nodup →
        (marksOf (scoreStart p) l).foldl (fun scores f => Json.setKey scores (lastPart f.1) (.str f.2)) scores =
          scores ++ l.map fun s => (toString s.1, .str (toString s.2)) := by
    intro l
    induction l with
    | nil => exact fun scores _ => (List.append_nil scores).symm
    | cons s l ih =>
      intro scores h
      have hnew : toString s.1 ∉ scores.map (·.1) := fun hmem =>
        (List.nodup_append.mp h).2.2 _ hmem _ List.mem_cons_self rfl
      rw [marksOf, List.map_cons, List.foldl_cons, lastPart_append (scoreStart_last p), Json.setKey_fresh hnew]
      refine (ih _ ?_).trans ?_
      · rwa [List.map_append, List.append_assoc]
      · rw [List.append_assoc, List.map_cons]
        rfl
  have hkeys : ((onPage p pairs).map fun s => toString s.1).Nodup := by
    have honce := ((onPage_perm hlisted hnodup hsub).map (·.1)).nodup_iff.mpr hnodup
    have hmap := honce.map toString_pk_injective
    rwa [List.map_map] at hmap
  unfold postedScores
  rw [filled_sentOf hlisted, hfresh _ [] (by simpa using hkeys)]
  rfl

theorem postedRanks_marksOf {pairs : List (ℕ × ℕ)} (hint : ∀ s ∈ pairs, E.parseInt (toString s.2) = some (s.2 : ℤ)) :
    postedRanks E p (marksOf (rankStart p) pairs) = .ok (pairs.map fun s => ((s.2 : ℤ), toString s.1)) := by
  induction pairs with
  | nil => rfl
  | cons s pairs ih =>
    rw [List.forall_mem_cons] at hint
    rw [marksOf, List.map_cons, postedRanks, hint.1]
    dsimp only
    rw [lastPart_append (rankStart_last p)]
    exact congrArg _ (ih hint.2)

instance : Std.Total Before where
  total a b := by
    unfold Before
    rcases lt_trichotomy a.1 b.1 with h | h | h
    · exact .inl (.inl h)
    · rcases String.le_total a.2 b.2 with hle | hle
      · exact .inl (.inr ⟨h, hle⟩)
      · exact .inr (.inr ⟨h.symm, hle⟩)
    · exact .inr (.inl h)

instance : IsTrans (ℤ × String) Before where
  trans a b c := by
    rintro (hab | ⟨hab, hab'⟩) (hbc | ⟨hbc, hbc'⟩)
    · exact .inl (hab.trans hbc)
    · exact .inl (hbc ▸ hab)
    · exact .inl (hab ▸ hbc)
    · exact .inr ⟨hab.trans hbc, String.le_trans hab' hbc'⟩

/-- Ranks 1, 2, 3..., in whichever order they come, are read as the ranking. -/
theorem ranked_perm {cs : List ℕ} {posted : List (ℤ × String)}
    (h : posted.Perm ((cs.zipIdx 1).map fun s => ((s.2 : ℤ), toString s.1))) :
    ranked p posted = .ok (.arr (cs.map fun c => .str (toString c))) := by
  have hlt : ((cs.zipIdx 1).map fun s => ((s.2 : ℤ), toString s.1)).Pairwise fun a b => a.1 < b.1 := by
    rw [List.pairwise_map]
    have hrange := List.pairwise_lt_range' (s := 1) (n := cs.length)
    rw [← List.zipIdx_map_snd, List.pairwise_map] at hrange
    exact hrange.imp fun h => Int.ofNat_lt.mpr h
  have hsorted : posted.insertionSort Before = (cs.zipIdx 1).map fun s => ((s.2 : ℤ), toString s.1) := by
    rw [← (hlt.imp fun h => .inl h : List.Pairwise Before _).insertionSort_eq]
    refine insertionSort_congr h fun a ha b hb hab hba => ?_
    have hrank : a.1 = b.1 := by
      unfold Before at hab hba
      omega
    have hkeys : (((cs.zipIdx 1).map fun s => ((s.2 : ℤ), toString s.1)).map (·.1)).Nodup := by
      rw [List.nodup_iff_pairwise_ne, List.pairwise_map]
      exact hlt.imp fun h => h.ne
    exact List.inj_on_of_nodup_map hkeys (h.mem_iff.mp ha) (h.mem_iff.mp hb) hrank
  unfold ranked
  dsimp only
  rw [hsorted, List.map_map, List.length_map, List.length_zipIdx, if_pos, List.map_map]
  · refine congrArg (fun l => Except.ok (Json.arr l)) ?_
    have hcs := List.zipIdx_map_fst 1 cs
    conv_rhs => rw [← hcs, List.map_map]
    rfl
  · have hrange := List.zipIdx_map_snd 1 cs
    change (cs.zipIdx 1).map ((fun n : ℕ => (n : ℤ)) ∘ Prod.snd) = _
    rw [← List.map_map, hrange, List.range'_eq_map_range, List.map_map]
    refine List.map_congr_left fun n _ => ?_
    simp [add_comm]

/-! ### There and back -/

/-- What `int` and `str.upper` make of what the page has: ids of candidates,
ranks, scores and answers. -/
structure Numerate (E : Env) (p : Position) : Prop extends Reads E p where
  count : ∀ n ≤ max (listed p).length p.row.maxScore, E.parseInt (toString n) = some (n : ℤ)

theorem validIds_eq (p : Position) : validIds p = (listed p).map fun c : ℕ => (c : ℤ) := by
  rw [validIds, listed, List.map_map]
  rfl

theorem mem_validIds {i : ℤ} : i ∈ validIds p ↔ ∃ c ∈ listed p, (c : ℤ) = i := by
  rw [validIds_eq, List.mem_map]

theorem int_toNat {i : ℤ} (h : i ∈ validIds p) : (i.toNat : ℤ) = i := by
  obtain ⟨c, -, rfl⟩ := mem_validIds.mp h
  rfl

theorem toNat_listed {i : ℤ} (h : i ∈ validIds p) : i.toNat ∈ listed p := by
  obtain ⟨c, hc, rfl⟩ := mem_validIds.mp h
  exact hc

/-- Ids of candidates are those of a list of the page. -/
theorem exists_ids {ids : List ℤ} (h : ∀ i ∈ ids, i ∈ validIds p) :
    ∃ cs : List ℕ, ids = cs.map (fun c : ℕ => (c : ℤ)) ∧ ∀ c ∈ cs, c ∈ listed p := by
  refine ⟨ids.map Int.toNat, ?_, fun c hc => ?_⟩
  · rw [List.map_map]
    exact (List.map_id'' (fun i => rfl) ids).symm.trans (List.map_congr_left fun i hi => (int_toNat (h i hi)).symm)
  · obtain ⟨i, hi, rfl⟩ := List.mem_map.mp hc
    exact toNat_listed (h i hi)

/-- Scores of candidates, as pairs of the page. -/
theorem exists_pairs {scores : List (ℤ × ℤ)} (h : ∀ s ∈ scores, InRange p s) :
    ∃ pairs : List (ℕ × ℕ), scores = pairs.map (fun s => ((s.1 : ℤ), (s.2 : ℤ))) ∧
      ∀ s ∈ pairs, s.1 ∈ listed p ∧ s.2 ≤ p.row.maxScore := by
  refine ⟨scores.map fun s => (s.1.toNat, s.2.toNat), ?_, fun s hs => ?_⟩
  · rw [List.map_map]
    refine (List.map_id'' (fun s => rfl) scores).symm.trans (List.map_congr_left fun s hs => ?_)
    exact Prod.ext (int_toNat (h s hs).1).symm (Int.toNat_of_nonneg (h s hs).2.1).symm
  · obtain ⟨t, ht, rfl⟩ := List.mem_map.mp hs
    refine ⟨toNat_listed (h t ht).1, ?_⟩
    have hmax := (h t ht).2.2
    dsimp only
    omega

/-- Ids of candidates, as a form sends them. -/
def texts (cs : List ℕ) : List Json := cs.map fun c => .str (toString c)

theorem asList_texts (cs : List ℕ) : asList (.arr (texts cs)) = texts cs := by
  refine List.filter_eq_self.mpr fun v hv => ?_
  obtain ⟨c, -, rfl⟩ := List.mem_map.mp hv
  simp [isBlank]

theorem named_texts (hreads : Reads E p) {cs : List ℕ} (h : ∀ c ∈ cs, c ∈ listed p) :
    Named E (texts cs) (cs.map fun c : ℕ => (c : ℤ)) := by
  unfold Named texts
  rw [List.forall₂_map_left_iff, List.forall₂_map_right_iff, List.forall₂_same]
  intro c hc
  have hint : E.parseInt (toString c) = some (c : ℤ) := hreads.int c (mem_validIds.mpr ⟨c, h c hc, rfl⟩)
  rw [pyInt, hint]

theorem normalizeSelection_choices (hr : p.row.ballotType ≠ .REFERENDUM) (hs : p.row.ballotType ≠ .SCORE) (raw : Json) :
    normalizeSelection E p raw = normalizeChoices E p raw := by
  unfold normalizeSelection
  cases hbt : p.row.ballotType
  case REFERENDUM => exact absurd hbt hr
  case SCORE => exact absurd hbt hs
  all_goals rfl

/-- Texts of the chosen candidates are accepted, as those candidates. -/
theorem normalizeSelection_texts (hreads : Reads E p) (hr : p.row.ballotType ≠ .REFERENDUM)
    (hs : p.row.ballotType ≠ .SCORE) {cs cs' : List ℕ} (hsub : ∀ c ∈ cs, c ∈ listed p) (hne : cs ≠ [])
    (heligible : Eligible p (cs.map fun c : ℕ => (c : ℤ)))
    (hrecorded : recorded p (cs.map fun c : ℕ => (c : ℤ)) = cs'.map fun c : ℕ => (c : ℤ)) :
    normalizeSelection E p (.arr (texts cs)) = .ok (idsJson cs') := by
  rw [normalizeSelection_choices hr hs]
  refine normalizeChoices_ok.mpr (.inr ⟨cs.map fun c : ℕ => (c : ℤ), ?_, ?_, heligible, ?_⟩)
  · rw [asList_texts]
    simpa [texts] using hne
  · rw [asList_texts]
    exact named_texts hreads hsub
  · rw [hrecorded, List.map_map]
    rfl

/-- The fieldset of a ranking is read as that ranking. -/
theorem selectionFromPost_ranked (hnum : Numerate E p) (hlisted : (listed p).Nodup) (hbt : p.row.ballotType = .RANKED)
    {cs : List ℕ} (hnodup : cs.Nodup) (hsub : ∀ c ∈ cs, c ∈ listed p) (hmost : cs.length ≤ (effectiveLimits p).2) :
    selectionFromPost E p (fieldset E p (idsJson cs)) = .ok (.arr (texts cs)) := by
  have hlength : cs.length ≤ (listed p).length := (hnodup.subperm hsub).length_le
  have hnodup' : ((cs.zipIdx 1).map (·.1)).Nodup := by rwa [List.zipIdx_map_fst]
  have hsub' : ∀ s ∈ cs.zipIdx 1, s.1 ∈ listed p := fun s hs => hsub _ (List.fst_mem_of_mem_zipIdx hs)
  have hperm := onPage_perm hlisted hnodup' hsub'
  have habstain : (abstainName p, "on") ∉ marks E p (idsJson cs) := by
    rw [marks_ranked E hbt]
    exact marksOf_ne_abstain (abstainName_ne_rank p) _
  have hint : ∀ s ∈ onPage p (cs.zipIdx 1), E.parseInt (toString s.2) = some (s.2 : ℤ) := fun s hs => by
    have hlt := List.snd_lt_add_of_mem_zipIdx (hperm.mem_iff.mp hs)
    exact hnum.count _ (by omega)
  unfold selectionFromPost
  rw [if_neg (get_abstain habstain), hbt]
  dsimp only
  rw [fieldset_ranked E hbt hnodup hlength hmost, filled_sentOf hlisted, postedRanks_marksOf hint]
  exact ranked_perm (hperm.map _)

/-- The fieldset of chosen candidates is read as these, in the order of the page. -/
theorem selectionFromPost_chosen (hr : p.row.ballotType ≠ .REFERENDUM) (hs : p.row.ballotType ≠ .SCORE)
    (hranked : p.row.ballotType ≠ .RANKED) (hlisted : (listed p).Nodup) {cs : List ℕ} (hnodup : cs.Nodup)
    (hsub : ∀ c ∈ cs, c ∈ listed p) (hmost : cs.length ≤ (effectiveLimits p).2) :
    selectionFromPost E p (fieldset E p (idsJson cs)) = .ok (.arr (texts (chosenOnPage p cs))) := by
  have habstain : (abstainName p, "on") ∉ marks E p (idsJson cs) := by
    rw [marks_chosen E hranked]
    intro h
    obtain ⟨c, -, heq⟩ := List.mem_map.mp h
    exact abstainName_ne_key p (congrArg Prod.fst heq)
  have hlist : MultiDict.getlist (fieldset E p (idsJson cs)) (key p) = (chosenOnPage p cs).map fun c => toString c := by
    rw [fieldset_chosen E hr hs hranked hlisted hnodup hsub hmost, MultiDict.getlist, List.filter_eq_self.mpr, List.map_map]
    · rfl
    · intro f hf
      obtain ⟨c, -, rfl⟩ := List.mem_map.mp hf
      exact decide_eq_true rfl
  unfold selectionFromPost
  rw [if_neg (get_abstain habstain), hlist, List.map_map]
  cases hbt : p.row.ballotType
  case REFERENDUM => exact absurd hbt hr
  case SCORE => exact absurd hbt hs
  case RANKED => exact absurd hbt hranked
  all_goals rfl

/-- The fieldset of scores is read as these, in the order of the page. -/
theorem selectionFromPost_scored (E : Env) (hlisted : (listed p).Nodup) (hbt : p.row.ballotType = .SCORE)
    {pairs : List (ℕ × ℕ)} (hnodup : (pairs.map (·.1)).Nodup)
    (hpairs : ∀ s ∈ pairs, s.1 ∈ listed p ∧ s.2 ≤ p.row.maxScore) :
    selectionFromPost E p (fieldset E p (pairsJson pairs)) =
      .ok (.obj ((onPage p pairs).map fun s => (toString s.1, .str (toString s.2)))) := by
  have habstain : (abstainName p, "on") ∉ marks E p (pairsJson pairs) := by
    rw [marks_scored]
    exact marksOf_ne_abstain (abstainName_ne_score p) _
  unfold selectionFromPost
  rw [if_neg (get_abstain habstain), hbt]
  dsimp only
  rw [fieldset_scored E hbt hnodup fun s hs => (hpairs s hs).2,
    postedScores_sentOf hlisted hnodup fun s hs => (hpairs s hs).1]

theorem scoresJson_perm {ss ss' : List (ℤ × ℤ)} (h : ss.Perm ss') (hnodup : (ss.map (·.1)).Nodup) :
    scoresJson ss = scoresJson ss' := by
  have htotal : Std.Total fun a b : ℤ × ℤ => a.1 ≤ b.1 := ⟨fun a b => le_total a.1 b.1⟩
  have htrans : IsTrans (ℤ × ℤ) fun a b => a.1 ≤ b.1 := ⟨fun _ _ _ => le_trans⟩
  unfold scoresJson
  rw [insertionSort_congr h fun a ha b hb hab hba => List.inj_on_of_nodup_map hnodup ha hb (le_antisymm hab hba)]

/-- Texts of scores are accepted, as those scores. -/
theorem normalizeSelection_scores (hnum : Numerate E p) (hbt : p.row.ballotType = .SCORE) {l pairs : List (ℕ × ℕ)}
    (hperm : l.Perm pairs) (hne : pairs ≠ []) (hnodup : (pairs.map (·.1)).Nodup)
    (hpairs : ∀ s ∈ pairs, s.1 ∈ listed p ∧ s.2 ≤ p.row.maxScore) (hleast : (effectiveLimits p).1 ≤ pairs.length) :
    normalizeSelection E p (.obj (l.map fun s => (toString s.1, .str (toString s.2)))) =
      .ok (scoresJson (pairs.map fun s => ((s.1 : ℤ), (s.2 : ℤ)))) := by
  have hscored : scored (l.map fun s => (toString s.1, Json.str (toString s.2))) =
      l.map fun s => (toString s.1, .str (toString s.2)) := by
    refine List.filter_eq_self.mpr fun item hitem => ?_
    obtain ⟨s, -, rfl⟩ := List.mem_map.mp hitem
    simp [isBlank]
  have honce : ((l.map fun s => ((s.1 : ℤ), (s.2 : ℤ))).map (·.1)).Nodup := by
    have hcast := ((hperm.map (·.1)).nodup_iff.mpr hnodup).map fun _ _ h => Int.ofNat.inj h
    rw [List.map_map] at hcast ⊢
    exact hcast
  unfold normalizeSelection
  rw [hbt]
  refine normalizeScore_ok.mpr (.inr ⟨_, l.map fun s => ((s.1 : ℤ), (s.2 : ℤ)), rfl, ?_, ?_, ?_, ?_⟩)
  · rw [hscored]
    intro h
    rw [List.map_eq_nil_iff.mp h] at hperm
    exact hne hperm.nil_eq.symm
  · rw [hscored, List.forall₂_map_left_iff, List.forall₂_map_right_iff, List.forall₂_same]
    intro s hs
    obtain ⟨hcandidate, hmax⟩ := hpairs s (hperm.mem_iff.mp hs)
    have hvalid : (s.1 : ℤ) ∈ validIds p := mem_validIds.mpr ⟨s.1, hcandidate, rfl⟩
    have hid : E.parseInt (toString s.1) = some (s.1 : ℤ) := hnum.int s.1 hvalid
    refine scoreItem_ok.mpr ⟨by rw [pyInt, hid], ?_, hvalid, by omega, Int.ofNat_le.mpr hmax⟩
    rw [pyInt, hnum.count s.2 (le_max_of_le_right hmax)]
  · rw [collect_eq honce, List.length_map, hperm.length_eq]
    exact hleast
  · rw [collect_eq honce]
    exact (scoresJson_perm (hperm.map _) honce).symm

/-- **The fieldset of a valid selection is read as a selection with that normal
form.** -/
theorem selectionFromPost_fieldset (hnum : Numerate E p) (hvalidIds : (validIds p).Nodup) {j : Json} (h : Valid p j) :
    ∃ raw, selectionFromPost E p (fieldset E p j) = .ok raw ∧ normalizeSelection E p raw = .ok j := by
  have hlisted : (listed p).Nodup := by
    rw [validIds_eq] at hvalidIds
    exact .of_map _ hvalidIds
  cases h with
  | abstained habstain =>
    exact ⟨.null, if_pos (get_abstained habstain), (Valid.abstained habstain).normalize hnum.toReads⟩
  | @answer option hbt hoption =>
    refine ⟨.str option, ?_, (Valid.answer hbt hoption).normalize hnum.toReads⟩
    have habstain : (abstainName p, "on") ∉ marks E p (.str option) := fun h =>
      abstainName_ne_key p (congrArg Prod.fst (List.mem_singleton.mp h)).symm
    unfold selectionFromPost
    rw [if_neg (get_abstain habstain), hbt, fieldset_answered E hbt hoption]
    simp [MultiDict.get, MultiDict.getlist]
  | @scores scores hbt hne hincreasing hrange hleast hmost =>
    obtain ⟨pairs, rfl, hpairs⟩ := exists_pairs hrange
    have hnodup : (pairs.map (·.1)).Nodup := by
      rw [List.map_map] at hincreasing
      refine .of_map (fun c : ℕ => (c : ℤ)) ?_
      rw [List.map_map]
      exact hincreasing.imp fun h => h.ne
    have hjson : Json.obj ((pairs.map fun s => ((s.1 : ℤ), (s.2 : ℤ))).map EndToEnd.scoreMember) = pairsJson pairs := by
      rw [List.map_map]
      rfl
    rw [List.length_map] at hleast
    refine ⟨_, by rw [hjson]; exact selectionFromPost_scored E hlisted hbt hnodup hpairs, ?_⟩
    rw [normalizeSelection_scores hnum hbt (onPage_perm hlisted hnodup fun s hs => (hpairs s hs).1)
      (by simpa using hne) hnodup hpairs hleast, scoresJson_increasing hincreasing]
  | @choice ids hr hs hne hnodup hincreasing hvalid hleast hmost =>
    obtain ⟨cs, rfl, hsub⟩ := exists_ids hvalid
    have hcs : cs.Nodup := .of_map _ hnodup
    have hjson : Json.arr ((cs.map fun c : ℕ => (c : ℤ)).map .int) = idsJson cs := by
      rw [List.map_map]
      rfl
    have hne' : cs ≠ [] := by simpa using hne
    rw [hjson]
    by_cases hranked : p.row.ballotType = .RANKED
    · refine ⟨_, selectionFromPost_ranked hnum hlisted hranked hcs hsub (by simpa using hmost),
        normalizeSelection_texts hnum.toReads hr hs hsub hne' ⟨hnodup, hvalid, hleast, hmost⟩ ?_⟩
      rw [recorded, if_pos hranked]
    · have hperm := chosenOnPage_perm hlisted hcs hsub
      have hcast := hperm.map fun c : ℕ => (c : ℤ)
      refine ⟨_, selectionFromPost_chosen hr hs hranked hlisted hcs hsub (by simpa using hmost),
        normalizeSelection_texts hnum.toReads hr hs (fun c hc => hsub c (hperm.mem_iff.mp hc))
          (fun h => hne' (by rw [h] at hperm; exact hperm.nil_eq.symm))
          ⟨hcast.nodup_iff.mpr hnodup, fun i hi => hvalid i (hcast.mem_iff.mp hi), by rw [hcast.length_eq]; exact hleast,
            by rw [hcast.length_eq]; exact hmost⟩ ?_⟩
      have hsorted : (cs.map fun c : ℕ => (c : ℤ)).insertionSort (· ≤ ·) = cs.map fun c : ℕ => (c : ℤ) :=
        ((hincreasing hranked).imp fun h => h.le).insertionSort_eq
      rw [recorded, if_neg hranked]
      conv_rhs => rw [← hsorted]
      exact insertionSort_congr hcast fun a _ b _ => le_antisymm

theorem selectionsFromPost_map {style : List ℕ} {post : List (String × String)} {raw : Position → Json} :
    ∀ {positions : List Position}, (∀ p ∈ styled positions style, selectionFromPost E p post = .ok (raw p)) →
      selectionsFromPost E style post positions = .ok ((styled positions style).map fun p => (toString p.pk, raw p))
  | [], _ => rfl
  | p :: ps, h => by
    unfold styled at h ⊢
    unfold selectionsFromPost
    rw [List.filter_cons] at h ⊢
    by_cases hp : p.pk ∈ style
    · rw [if_pos (decide_eq_true hp), List.forall_mem_cons] at h
      rw [if_neg (not_not.mpr hp), if_pos (decide_eq_true hp), h.1]
      exact congrArg (Except.map _) (selectionsFromPost_map h.2)
    · have hno : ¬decide (p.pk ∈ style) = true := by simpa using hp
      rw [if_neg hno] at h
      rw [if_pos hp, if_neg hno]
      exact selectionsFromPost_map h

/-- **The ballot page is faithful.** Filled in according to validated selections
it is read as a payload that is validated as the same selections. -/
theorem selectionsFromPost_formPost {db db' : Database} {e : ℕ}
    (hnum : ∀ p ∈ positionsFor (categoriesOf db e) db', Numerate E p) {style : List ℕ} {payload : Json}
    {selections : List (String × Json)}
    (h : validateBallot E (positionsFor (categoriesOf db e) db') style payload = .ok selections) (csrf : String) :
    let positions := positionsFor (categoriesOf db e) db'
    ∃ payload', selectionsFromPost E style (formPost E positions style csrf selections) positions = .ok payload' ∧
      validateBallot E positions style (.obj payload') = .ok selections := by
  intro positions
  have hpk : (positions.map (·.pk)).Nodup := by
    rw [show positions = positionsFor (categoriesOf db e) db' from rfl, positionsFor, List.map_map]
    exact categoriesOf_nodup db e
  have hnodup := (EndToEnd.validateBallot_validated h).nodup hpk
  unfold validateBallot at h
  cases hitems : ballotItems style payload with
  | error failure =>
    rw [hitems] at h
    cases h
  | ok items =>
    rw [hitems] at h
    have hall := Votable.selectionsOf_ok.mp h
    have hback : ∀ p ∈ styled positions style, ∃ raw,
        selectionFromPost E p (formPost E positions style csrf selections) = .ok raw ∧
          normalizeSelection E p raw = .ok (rawOf (.obj selections) p) := by
      intro p hp
      obtain ⟨hposition, -⟩ := List.mem_filter.mp hp
      obtain ⟨m, hm, hkey, hnormal⟩ := Counting.exists_of_mem_right hall.flip p hp
      have hraw : rawOf (.obj selections) p = m.2 := by
        rw [rawOf, ← hkey, (Json.get?_eq_some hnodup).mpr hm]
        rfl
      obtain ⟨c, -, rfl⟩ := List.mem_map.mp hposition
      rw [← selectionFromPost_own, formPost_own hpk hp, hraw]
      exact selectionFromPost_fieldset (hnum _ hposition) (Votable.validIds_nodup db' c) (normalizeSelection_valid hnormal)
    choose! raw hposted hnormal using hback
    have hkeys : (((styled positions style).map fun p => (toString p.pk, raw p)).map (·.1)).Nodup := by
      have hstyled : ((styled positions style).map (·.pk)).Nodup := hpk.sublist (List.filter_sublist.map _)
      have hmap := hstyled.map toString_pk_injective
      rw [List.map_map] at hmap ⊢
      exact hmap
    refine ⟨_, selectionsFromPost_map hposted, ?_⟩
    have hnames : ballotItems style (.obj ((styled positions style).map fun p => (toString p.pk, raw p))) =
        .ok ((styled positions style).map fun p => (toString p.pk, raw p)) :=
      ballotItems_ok.mpr ⟨rfl, fun item hitem => by
        obtain ⟨p, hp, rfl⟩ := List.mem_map.mp hitem
        exact List.mem_map.mpr ⟨p.pk, of_decide_eq_true (List.mem_filter.mp hp).2, rfl⟩⟩
    unfold validateBallot
    rw [hnames]
    refine Votable.selectionsOf_ok.mpr (Failures.forall₂_of_mem hall fun p hp m hm hpm => ⟨hpm.1, ?_⟩)
    have hget : Json.get? ((styled positions style).map fun p => (toString p.pk, raw p)) (toString p.pk) = some (raw p) :=
      (Json.get?_eq_some hkeys).mpr (List.mem_map.mpr ⟨p, hp, rfl⟩)
    rw [hget, Option.getD_some, hnormal p hp, rawOf, ← hpm.1, (Json.get?_eq_some hnodup).mpr hm]
    rfl

/-- A ranking and scores, at positions 1 and 11. -/
def board : Database :=
  Db.empty.apply [⟨.category 1, some { event := 1, name := "Chair", ballotType := .RANKED, maxSelect := 2 }⟩,
    ⟨.category 11, some { event := 1, name := "Motto", ballotType := .SCORE }⟩,
    ⟨.candidate 7, some { category := some 1, event := 1, name := "Ama" }⟩,
    ⟨.candidate 8, some { category := some 11, event := 1, name := "Onward" }⟩,
    ⟨.candidate 9, some { category := some 1, event := 1, name := "Kofi" }⟩]

theorem selectionsFromPost_formPost_board :
    let positions := positionsFor (categoriesOf board 1) board
    let selections := [("1", Json.arr [.int 9, .int 7]), ("11", .obj [("8", .int 0)])]
    validateBallot EndToEnd.legible positions [11, 1] (.obj [("11", .obj [("8", .bool false)]), ("1", .arr [.int 9, .int 7])]) =
        .ok selections ∧
      ∃ payload', selectionsFromPost EndToEnd.legible [11, 1] (formPost EndToEnd.legible positions [11, 1] "token" selections)
          positions = .ok payload' ∧
        validateBallot EndToEnd.legible positions [11, 1] (.obj payload') = .ok selections := by
  intro positions selections
  have hvalid : validateBallot EndToEnd.legible (positionsFor (categoriesOf board 1) board) [11, 1]
      (.obj [("11", .obj [("8", .bool false)]), ("1", .arr [.int 9, .int 7])]) =
        .ok [("1", .arr [.int 9, .int 7]), ("11", .obj [("8", .int 0)])] := by rfl
  exact ⟨hvalid, selectionsFromPost_formPost
    (fun p _ => ⟨⟨fun i _ => EndToEnd.legible_int i, fun _ _ => rfl⟩, fun n _ => EndToEnd.legible_int n⟩) hvalid "token"⟩

end BallotForm
end FlexyVotes
