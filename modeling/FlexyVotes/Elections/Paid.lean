/-
# The tally of a paid election

`compute_paid_tally` ranks the candidates of each category by their main votes,
and those with as many by their tie-breaker votes. The first of the order is
the winner if it has a vote; who is level with it is listed as tied, the winner
too.

The query of `paid_counts` asks for no order, so its rows come in any.

Key definitions: `paidCounts`, `computePaidTally`, `Decided`, `SharedLead`.
Key theorems: `paidPosition_lead`, `paid_decided`.
-/
import FlexyVotes.Core.Merkle
import FlexyVotes.Elections.Tally
import FlexyVotes.Models
import Mathlib.Data.Prod.Lex

namespace FlexyVotes
namespace Paid

open Transactions

/-! ### The counts -/

/-- A row of `paid_counts`. -/
structure PaidRow where
  pk : ℕ
  name : String
  categoryId : Option ℕ
  categoryName : Option String
  main : ℕ
  tie : ℕ
  status : CandidateStatus

/-- The votes of one type that were paid for a candidate. -/
def votesOf (db : Database) (type : VoteType) (candidate : ℕ) : ℕ :=
  db.total fun
    | .voteTransaction _ => fun v =>
      if v.candidate = candidate ∧ v.status = .SUCCESS ∧ v.voteType = type then some v.numberOfVotes else none
    | _ => fun _ => none

/-- `paid_counts`. -/
def paidCounts (db : Database) (e : ℕ) : List PaidRow :=
  db.collect fun
    | .candidate pk => fun c =>
      if c.event = e then
        some
          { pk := pk
            name := c.name
            categoryId := c.category
            categoryName := (c.category.bind fun p => db.row (.category p)).map (·.name)
            main := votesOf db .MAIN pk
            tie := votesOf db .TIE_BREAKER pk
            status := c.status }
      else none
    | _ => fun _ => none

/-! ### The tally -/

structure PaidCandidate where
  candidateId : ℕ
  name : String
  votes : ℕ
  tieBreakerVotes : ℕ
  percentage : ℚ
  rank : ℕ

structure PaidPosition where
  positionId : Option ℕ
  position : String
  ballotType : String := "PAID"
  method : String := "paid-plurality"
  totalVotes : ℕ
  validBallots : ℕ
  abstentions : ℕ := 0
  candidates : List PaidCandidate
  winners : List ℕ
  ties : List ℕ

/-- `a` is sorted before `b`. -/
def before (E : Env) (a b : PaidRow) : Prop :=
  b.main < a.main ∨ (a.main = b.main ∧
    (b.tie < a.tie ∨ (a.tie = b.tie ∧ E.lower a.name ≤ E.lower b.name)))

instance (E : Env) : DecidableRel (before E) := fun a b => by unfold before; infer_instance

/-- The row of the result, of the `i`-th candidate. -/
def paidCandidate (total i : ℕ) (r : PaidRow) : PaidCandidate :=
  ⟨r.pk, r.name, r.main, r.tie, Tally.pct r.main total, i + 1⟩

/-- The position of one group of rows. -/
def paidPosition (E : Env) (category : Option ℕ) (rows : List PaidRow) : PaidPosition :=
  let total : ℕ := (rows.map (·.main)).sum
  let candidates := (rows.insertionSort (before E)).mapIdx (paidCandidate total)
  let ties :=
    match candidates.head? with
    | none => []
    | some top =>
      (candidates.filter fun c => c.votes = top.votes ∧ c.tieBreakerVotes = top.tieBreakerVotes).map (·.candidateId)
  { positionId := category
    position :=
      match rows.head?.bind (·.categoryName) with
      | none | some "" => "All contestants"
      | some name => name
    totalVotes := total
    validBallots := total
    candidates := candidates
    winners :=
      match candidates.head? with
      | none => []
      | some top => if 0 < top.votes then [top.candidateId] else []
    ties := if 1 < ties.length then ties else [] }

/-- The categories of the rows, in the order they first come. -/
def categoryIds (rows : List PaidRow) : List (Option ℕ) := (rows.map (·.categoryId)).reverse.dedup.reverse

structure PaidTally where
  id : ℕ
  title : String
  organization : String
  positions : List PaidPosition
  votesCast : ℕ
  ballotsCounted : ℕ
  /-- In hundredths. -/
  revenue : ℕ
  currency : String
  bulletinBallots : ℕ := 0
  bulletinRoot : Option String
  generatedAt : Time

/-- What was paid for votes of the election. -/
def revenueOf (db : Database) (e : ℕ) : ℕ :=
  db.total fun
    | .voteTransaction _ => fun v =>
      if v.status = .SUCCESS ∧ (db.row (.candidate v.candidate)).any fun c => c.event = e then some v.amountMinor
      else none
    | _ => fun _ => none

/-- `compute_paid_tally` of the rows of `paid_counts`, where `now` is the clock. -/
def computePaidTally (E : Env) (db : Database) (e : ℕ) (ev : EventRow) (rows : List PaidRow) (now : Time) :
    PaidTally :=
  let positions := (categoryIds rows).map fun category =>
    paidPosition E category (rows.filter fun r => r.categoryId = category)
  let totalVotes := (positions.map (·.totalVotes)).sum
  { id := e
    title := ev.title
    organization := ((ev.organization.bind fun o => db.row (.organization o)).map (·.name)).getD ""
    positions := positions
    votesCast := totalVotes
    ballotsCounted := totalVotes
    revenue := revenueOf db e
    currency := ev.currency
    bulletinRoot := merkleRoot E.sha256Bytes []
    generatedAt := now }

/-! ### The lead -/

/-- What decides between two candidates. -/
def PaidRow.key (r : PaidRow) : ℕ ×ₗ ℕ := toLex (r.main, r.tie)

/-- How the winners should be told: a winner is ahead of all others of its
category, and nobody is both a winner and tied; where two lead together nobody
wins; and each candidate of the election is in one position. -/
structure Decided (db : Database) (e : ℕ) (rows : List PaidRow) (positions : List PaidPosition) : Prop where
  ahead : ∀ p ∈ positions, ∀ w ∈ p.winners, ∃ r ∈ rows, r.categoryId = p.positionId ∧ r.pk = w ∧
    ∀ s ∈ rows, s.categoryId = p.positionId → s.pk ≠ w → s.key < r.key
  apart : ∀ p ∈ positions, ∀ w ∈ p.winners, w ∉ p.ties
  tied : ∀ p ∈ positions, ∀ r ∈ rows, ∀ s ∈ rows, r.categoryId = p.positionId → s.categoryId = p.positionId →
    r.pk ≠ s.pk → r.key = s.key → (∀ t ∈ rows, t.categoryId = p.positionId → t.key ≤ r.key) → p.winners = []
  once : (positions.flatMap fun p => p.candidates.map (·.candidateId)).Nodup
  covers : ∀ pk, pk ∈ positions.flatMap (fun p => p.candidates.map (·.candidateId)) ↔
    ∃ c, db.row (.candidate pk) = some c ∧ c.event = e

/-- Two candidates of a category lead it together, with a vote. -/
def SharedLead (rows : List PaidRow) : Prop :=
  ∃ r ∈ rows, ∃ s ∈ rows, s.categoryId = r.categoryId ∧ r.pk ≠ s.pk ∧ r.key = s.key ∧ 0 < r.main ∧
    ∀ t ∈ rows, t.categoryId = r.categoryId → t.key ≤ r.key

instance (rows : List PaidRow) : Decidable (SharedLead rows) := by unfold SharedLead PaidRow.key; infer_instance

section Position

variable {E : Env} {category : Option ℕ} {rows : List PaidRow}

theorem key_le_of_before {a b : PaidRow} (h : before E a b) : b.key ≤ a.key := by
  refine Prod.Lex.toLex_le_toLex.mpr ?_
  rcases h with h | ⟨hmain, h | ⟨htie, -⟩⟩
  · exact Or.inl h
  · exact Or.inr ⟨hmain.symm, h.le⟩
  · exact Or.inr ⟨hmain.symm, htie.ge⟩

theorem key_eq_iff {a b : PaidRow} : a.key = b.key ↔ a.main = b.main ∧ a.tie = b.tie := by
  unfold PaidRow.key
  rw [EmbeddingLike.apply_eq_iff_eq, Prod.mk.injEq]

instance : Std.Total (before E) where
  total a b := by
    unfold before
    rcases lt_trichotomy a.main b.main with h | h | h
    · exact Or.inr (Or.inl h)
    · rcases lt_trichotomy a.tie b.tie with ht | ht | ht
      · exact Or.inr (Or.inr ⟨h.symm, Or.inl ht⟩)
      · rcases String.le_total (E.lower a.name) (E.lower b.name) with hn | hn
        · exact Or.inl (Or.inr ⟨h, Or.inr ⟨ht, hn⟩⟩)
        · exact Or.inr (Or.inr ⟨h.symm, Or.inr ⟨ht.symm, hn⟩⟩)
      · exact Or.inl (Or.inr ⟨h, Or.inl ht⟩)
    · exact Or.inl (Or.inl h)

instance : IsTrans PaidRow (before E) where
  trans a b c hab hbc := by
    unfold before at *
    rcases hab with hab | ⟨hab, hab' | ⟨hab', hn⟩⟩ <;> rcases hbc with hbc | ⟨hbc, hbc' | ⟨hbc', hn'⟩⟩
    all_goals first
      | exact Or.inl (by omega)
      | exact Or.inr ⟨by omega, Or.inl (by omega)⟩
      | exact Or.inr ⟨by omega, Or.inr ⟨by omega, String.le_trans hn hn'⟩⟩

/-- The first of the order leads the group. -/
theorem exists_top (hne : rows ≠ []) : ∃ top rest, rows.insertionSort (before E) = top :: rest ∧
    (top :: rest).Perm rows ∧ ∀ r ∈ rows, r.key ≤ top.key := by
  have hperm : (rows.insertionSort (before E)).Perm rows := List.perm_insertionSort _ _
  have hsorted := List.pairwise_insertionSort (before E) rows
  rcases hl : rows.insertionSort (before E) with _ | ⟨top, rest⟩
  · rw [hl] at hperm
    exact absurd (List.nil_perm.mp hperm) hne
  · rw [hl] at hperm hsorted
    refine ⟨top, rest, rfl, hperm, fun r hr => ?_⟩
    rcases List.mem_cons.mp (hperm.mem_iff.mpr hr) with rfl | hr
    · exact le_rfl
    · exact key_le_of_before (List.rel_of_pairwise_cons hsorted hr)

/-- Those level with the lead, by their rows. -/
theorem level_eq (m t : ℕ) : ∀ (l : List PaidRow) (row : ℕ → PaidRow → PaidCandidate),
    (∀ i r, (row i r).votes = r.main ∧ (row i r).tieBreakerVotes = r.tie ∧ (row i r).candidateId = r.pk) →
    ((l.mapIdx row).filter fun c => c.votes = m ∧ c.tieBreakerVotes = t).map (·.candidateId) =
      (l.filter fun r => r.main = m ∧ r.tie = t).map (·.pk)
  | [], _, _ => rfl
  | r :: l, row, h => by
    obtain ⟨hvotes, htie, hpk⟩ := h 0 r
    rw [List.mapIdx_cons, List.filter_cons, List.filter_cons]
    simp only [hvotes, htie]
    have ih := level_eq m t l (fun i => row (i + 1)) fun i => h (i + 1)
    split
    · rw [List.map_cons, List.map_cons, hpk, ih]
    · exact ih

/-- **The lead of a group.** Its first candidate is the winner with a vote, and
is tied when another is level with it; otherwise nobody is. -/
theorem paidPosition_lead (hne : rows ≠ []) (hnd : (rows.map (·.pk)).Nodup) : ∃ top ∈ rows,
    (∀ r ∈ rows, r.key ≤ top.key) ∧
    (paidPosition E category rows).winners = (if 0 < top.main then [top.pk] else []) ∧
    ((paidPosition E category rows).ties ≠ [] ↔ ∃ r ∈ rows, r.pk ≠ top.pk ∧ r.key = top.key) := by
  obtain ⟨top, rest, hsort, hperm, htop⟩ := exists_top (E := E) hne
  have hmem : ∀ {r}, r ∈ top :: rest ↔ r ∈ rows := hperm.mem_iff
  have hnd' : ((top :: rest).map (·.pk)).Nodup := (hperm.map _).nodup_iff.mpr hnd
  have hout : ∀ r ∈ rest, r.pk ≠ top.pk := fun r hr heq =>
    (List.nodup_cons.mp hnd').1 (List.mem_map.mpr ⟨r, hr, heq⟩)
  have hlevel := level_eq top.main top.tie (top :: rest) (paidCandidate (rows.map (·.main)).sum)
    fun _ _ => ⟨rfl, rfl, rfl⟩
  have hhead : ((top :: rest).mapIdx (paidCandidate (rows.map (·.main)).sum)).head? =
      some (paidCandidate (rows.map (·.main)).sum 0 top) := by
    rw [List.mapIdx_cons]
    rfl
  refine ⟨top, hmem.mp List.mem_cons_self, htop, ?_, ?_⟩
  · unfold paidPosition
    simp only [hsort, hhead]
    rfl
  · have hties : (paidPosition E category rows).ties =
        if 1 < (((top :: rest).filter fun r => r.main = top.main ∧ r.tie = top.tie).map (·.pk)).length then
          ((top :: rest).filter fun r => r.main = top.main ∧ r.tie = top.tie).map (·.pk) else [] := by
      rw [← hlevel]
      unfold paidPosition
      simp only [hsort, hhead]
      rfl
    have hfirst : (top :: rest).filter (fun r => r.main = top.main ∧ r.tie = top.tie) =
        top :: rest.filter fun r => r.main = top.main ∧ r.tie = top.tie := by
      rw [List.filter_cons, if_pos (decide_eq_true ⟨rfl, rfl⟩)]
    rw [hties, hfirst, List.map_cons, List.length_cons, List.length_map]
    constructor
    · intro hne
      split at hne
      · rename_i hmore
        obtain ⟨r, hr⟩ := List.exists_mem_of_length_pos (Nat.lt_of_add_lt_add_right (show 0 + 1 < _ from hmore))
        obtain ⟨hr, hkey⟩ := List.mem_filter.mp hr
        exact ⟨r, hmem.mp (List.mem_cons_of_mem _ hr), hout r hr, key_eq_iff.mpr (of_decide_eq_true hkey)⟩
      · exact absurd rfl hne
    · rintro ⟨r, hr, hpk, hkey⟩
      have hrest : r ∈ rest := (List.mem_cons.mp (hmem.mpr hr)).resolve_left fun heq => hpk (heq ▸ rfl)
      have hlevel' : r ∈ rest.filter fun r => r.main = top.main ∧ r.tie = top.tie :=
        List.mem_filter.mpr ⟨hrest, decide_eq_true (key_eq_iff.mp hkey)⟩
      rw [if_pos (Nat.succ_lt_succ (List.length_pos_of_mem hlevel'))]
      exact List.cons_ne_nil _ _

theorem candidates_map (category : Option ℕ) (rows : List PaidRow) :
    (paidPosition E category rows).candidates.map (·.candidateId) = (rows.insertionSort (before E)).map (·.pk) := by
  refine List.ext_getElem? fun i => ?_
  show (((rows.insertionSort (before E)).mapIdx (paidCandidate _)).map _)[i]? = _
  rw [List.getElem?_map, List.getElem?_mapIdx, List.getElem?_map, Option.map_map]
  rfl

end Position

/-! ### The groups -/

section Groups

variable {E : Env} {db : Database} {e : ℕ} {rows : List PaidRow}

theorem mem_paidCounts {pk : ℕ} :
    (∃ r ∈ paidCounts db e, r.pk = pk) ↔ ∃ c, db.row (.candidate pk) = some c ∧ c.event = e := by
  constructor
  · rintro ⟨r, hr, rfl⟩
    obtain ⟨k, c, hc, hread⟩ := (Db.mem_collect db _ r).mp hr
    cases k <;> simp only [reduceCtorEq] at hread
    rename_i pk
    split at hread
    · rename_i hevent
      obtain rfl := Option.some.inj hread
      exact ⟨c, hc, hevent⟩
    · cases hread
  · rintro ⟨c, hc, hevent⟩
    exact ⟨_, (Db.mem_collect db _ _).mpr ⟨.candidate pk, c, hc, if_pos hevent⟩, rfl⟩

theorem paidCounts_nodup (db : Database) (e : ℕ) : ((paidCounts db e).map (·.pk)).Nodup := by
  refine Db.collect_nodup db _ fun k r x k' r' x' hx hx' heq => ?_
  cases k <;> simp only [reduceCtorEq] at hx
  cases k' <;> simp only [reduceCtorEq] at hx'
  split at hx
  · split at hx'
    · obtain rfl := Option.some.inj hx
      obtain rfl := Option.some.inj hx'
      exact congrArg Key.candidate heq
    · cases hx'
  · cases hx

theorem mem_categoryIds {category : Option ℕ} :
    category ∈ categoryIds rows ↔ ∃ r ∈ rows, r.categoryId = category := by
  simp [categoryIds]

theorem categoryIds_nodup (rows : List PaidRow) : (categoryIds rows).Nodup :=
  List.nodup_reverse.mpr (List.nodup_dedup _)

/-- The rows of a category. -/
def groupOf (rows : List PaidRow) (category : Option ℕ) : List PaidRow := rows.filter fun r => r.categoryId = category

theorem mem_groupOf {category : Option ℕ} {r : PaidRow} :
    r ∈ groupOf rows category ↔ r ∈ rows ∧ r.categoryId = category := by
  rw [groupOf, List.mem_filter, decide_eq_true_eq]

/-- The candidates of the positions are those of the rows. -/
theorem mem_positions {pk : ℕ} :
    pk ∈ ((categoryIds rows).map fun c => paidPosition E c (groupOf rows c)).flatMap
        (fun p => p.candidates.map (·.candidateId)) ↔ ∃ r ∈ rows, r.pk = pk := by
  rw [List.flatMap_map, List.mem_flatMap]
  simp only [candidates_map, List.mem_map, List.mem_insertionSort, mem_groupOf, mem_categoryIds]
  constructor
  · rintro ⟨category, -, r, ⟨hr, -⟩, rfl⟩
    exact ⟨r, hr, rfl⟩
  · rintro ⟨r, hr, rfl⟩
    exact ⟨r.categoryId, ⟨r, hr, rfl⟩, r, ⟨hr, rfl⟩, rfl⟩

/-- No candidate is in two positions, or in one twice. -/
theorem positions_nodup (hnd : (rows.map (·.pk)).Nodup) :
    (((categoryIds rows).map fun c => paidPosition E c (groupOf rows c)).flatMap
      fun p => p.candidates.map (·.candidateId)).Nodup := by
  rw [List.flatMap_map, List.nodup_flatMap]
  refine ⟨fun category _ => ?_, ?_⟩
  · rw [candidates_map]
    exact ((List.perm_insertionSort _ _).map _).nodup_iff.mpr (hnd.sublist (List.filter_sublist.map _))
  · refine (categoryIds_nodup rows).imp fun {c c'} hne pk hpk hpk' => hne ?_
    simp only [candidates_map, List.mem_map, List.mem_insertionSort, mem_groupOf] at hpk hpk'
    obtain ⟨r, ⟨hr, rfl⟩, rfl⟩ := hpk
    obtain ⟨r', ⟨hr', rfl⟩, heq⟩ := hpk'
    rw [List.inj_on_of_nodup_map hnd hr' hr heq]

/-- **The winners of a paid election** are told as they should be exactly where
no two candidates of a category lead it together with a vote. -/
theorem paid_decided (E : Env) (db : Database) (e : ℕ) (ev : EventRow) (rows : List PaidRow) (now : Time)
    (hrows : rows.Perm (paidCounts db e)) :
    Decided db e rows (computePaidTally E db e ev rows now).positions ↔ ¬ SharedLead rows := by
  have hnd : (rows.map (·.pk)).Nodup := (hrows.map _).nodup_iff.mpr (paidCounts_nodup db e)
  have hlead : ∀ category, (∃ r ∈ rows, r.categoryId = category) → ∃ top ∈ groupOf rows category,
      (∀ r ∈ groupOf rows category, r.key ≤ top.key) ∧
      (paidPosition E category (groupOf rows category)).winners = (if 0 < top.main then [top.pk] else []) ∧
      ((paidPosition E category (groupOf rows category)).ties ≠ [] ↔
        ∃ r ∈ groupOf rows category, r.pk ≠ top.pk ∧ r.key = top.key) := by
    rintro category ⟨r, hr, hc⟩
    exact paidPosition_lead (List.ne_nil_of_mem (mem_groupOf.mpr ⟨hr, hc⟩)) (hnd.sublist (List.filter_sublist.map _))
  show Decided db e rows ((categoryIds rows).map fun c => paidPosition E c (groupOf rows c)) ↔ _
  constructor
  · rintro hdecided ⟨r, hr, s, hs, hsame, hpk, hkey, hvote, hmax⟩
    obtain ⟨top, htop, hle, hwinners, -⟩ := hlead r.categoryId ⟨r, hr, rfl⟩
    obtain ⟨htop', hcategory⟩ := mem_groupOf.mp htop
    have hlevel : r.key = top.key := le_antisymm (hle r (mem_groupOf.mpr ⟨hr, rfl⟩)) (hmax top htop' hcategory)
    have hmain : 0 < top.main := (key_eq_iff.mp hlevel).1 ▸ hvote
    rw [if_pos hmain] at hwinners
    have hp := List.mem_map_of_mem (f := fun c => paidPosition E c (groupOf rows c))
      (mem_categoryIds.mpr ⟨r, hr, rfl⟩)
    obtain ⟨w, hw, hwc, -, hahead⟩ := hdecided.ahead _ hp top.pk (by rw [hwinners]; exact List.mem_singleton_self _)
    have hwle := hle w (mem_groupOf.mpr ⟨hw, hwc⟩)
    by_cases hrtop : r.pk = top.pk
    · have hless := hahead s hs hsame fun h => hpk (hrtop.trans h.symm)
      rw [← hkey, hlevel] at hless
      exact absurd hless (not_lt.mpr hwle)
    · have hless := hahead r hr rfl hrtop
      rw [hlevel] at hless
      exact absurd hless (not_lt.mpr hwle)
  · intro hno
    have hwins : ∀ p ∈ (categoryIds rows).map fun c => paidPosition E c (groupOf rows c), ∃ top ∈ rows,
        top.categoryId = p.positionId ∧ (∀ r ∈ rows, r.categoryId = p.positionId → r.key ≤ top.key) ∧
        p.winners = (if 0 < top.main then [top.pk] else []) ∧
        (p.ties ≠ [] → ∃ r ∈ rows, r.categoryId = p.positionId ∧ r.pk ≠ top.pk ∧ r.key = top.key) := by
      intro p hp
      obtain ⟨category, hcategory, rfl⟩ := List.mem_map.mp hp
      obtain ⟨top, htop, hle, hwinners, hties⟩ := hlead category (mem_categoryIds.mp hcategory)
      obtain ⟨htop, hc⟩ := mem_groupOf.mp htop
      refine ⟨top, htop, hc, fun r hr hrc => hle r (mem_groupOf.mpr ⟨hr, hrc⟩), hwinners, fun hne => ?_⟩
      obtain ⟨r, hr, hrpk, hrkey⟩ := hties.mp hne
      exact ⟨r, (mem_groupOf.mp hr).1, (mem_groupOf.mp hr).2, hrpk, hrkey⟩
    -- nobody is level with a top that has a vote
    have halone : ∀ {top r : PaidRow} {category}, top ∈ rows → top.categoryId = category →
        (∀ t ∈ rows, t.categoryId = category → t.key ≤ top.key) → 0 < top.main → r ∈ rows →
        r.categoryId = category → r.pk ≠ top.pk → r.key ≠ top.key := by
      rintro top r _ htop rfl hle hvote hr hrc hpk hkey
      exact hno ⟨top, htop, r, hr, hrc, hpk.symm, hkey.symm, hvote, hle⟩
    refine ⟨fun p hp w hw => ?_, fun p hp w hw htied => ?_, fun p hp r hr s hs hrc hsc hpk hkey hmax => ?_,
      positions_nodup hnd, fun pk => ?_⟩
    · obtain ⟨top, htop, hc, hle, hwinners, -⟩ := hwins p hp
      rw [hwinners] at hw
      split at hw
      · rename_i hvote
        obtain rfl := List.mem_singleton.mp hw
        refine ⟨top, htop, hc, rfl, fun s hs hsc hpk => ?_⟩
        exact lt_of_le_of_ne (hle s hs hsc) (halone htop hc hle hvote hs hsc hpk)
      · exact absurd hw List.not_mem_nil
    · obtain ⟨top, htop, hc, hle, hwinners, hties⟩ := hwins p hp
      rw [hwinners] at hw
      split at hw
      · rename_i hvote
        obtain ⟨r, hr, hrc, hpk, hkey⟩ := hties (List.ne_nil_of_mem htied)
        exact halone htop hc hle hvote hr hrc hpk hkey
      · exact absurd hw List.not_mem_nil
    · obtain ⟨top, htop, hc, hle, hwinners, -⟩ := hwins p hp
      rw [hwinners]
      refine if_neg fun hvote => hno ⟨r, hr, s, hs, hsc.trans hrc.symm, hpk, hkey, ?_, fun t ht htc =>
        hmax t ht (htc.trans hrc)⟩
      have hlevel : top.key = r.key := le_antisymm (hmax top htop hc) (hle r hr hrc)
      exact (key_eq_iff.mp hlevel).1 ▸ hvote
    · rw [mem_positions, ← mem_paidCounts]
      exact exists_congr fun r => and_congr_left fun _ => hrows.mem_iff

end Groups

/-! ### A tie -/

/-- A successful vote of the ledger. -/
def voteFor (candidate : ℕ) (reference : String) (type : VoteType) : VoteTransactionRow where
  candidate := candidate
  voterEmail := ""
  amountMinor := 100
  paystackReference := reference
  status := .SUCCESS
  voteType := type

/-- Two candidates of a category with a vote each. -/
def level : Database :=
  (((Db.empty.set (.candidate 7) (some { category := some 1, event := 1, name := "Ama" })).set (.candidate 8)
    (some { category := some 1, event := 1, name := "Kofi" })).set (.voteTransaction 1)
      (some (voteFor 7 "a" .MAIN))).set (.voteTransaction 2) (some (voteFor 8 "b" .MAIN))

/-- A tie-breaker vote for the second. -/
def broken : Database := level.set (.voteTransaction 3) (some (voteFor 8 "c" .TIE_BREAKER))

/-- The first by name is the winner, and tied. -/
theorem not_paid_decided :
    ¬ ∀ (E : Env) (db : Database) (e : ℕ) (ev : EventRow) (rows : List PaidRow) (now : Time),
      rows.Perm (paidCounts db e) → Decided db e rows (computePaidTally E db e ev rows now).positions := by
  intro h
  have hpositions : (computePaidTally Env.plain level 1 { startDate := 0, endDate := 1 } (paidCounts level 1)
      2).positions.map (fun p => (p.winners, p.ties)) = [([7], [7, 8])] := by decide +kernel
  obtain ⟨p, hp, hboth⟩ := List.mem_map.mp (hpositions ▸ List.mem_singleton_self (([7], [7, 8]) : List ℕ × List ℕ))
  obtain ⟨hwinners, hties⟩ := Prod.mk.inj hboth
  refine (h _ _ _ _ _ _ (List.Perm.refl _)).apart p hp 7 ?_ ?_
  · rw [hwinners]
    exact List.mem_singleton_self 7
  · rw [hties]
    exact List.mem_cons_self

/-- With a tie-breaker vote the second wins alone. -/
theorem paid_decided_broken :
    Decided broken 1 (paidCounts broken 1)
      (computePaidTally Env.plain broken 1 { startDate := 0, endDate := 1 } (paidCounts broken 1) 2).positions :=
  (paid_decided _ _ _ _ _ _ (List.Perm.refl _)).mpr (by decide +kernel)

end Paid
end FlexyVotes
