/-
# Deleting a constituency

The console refuses to delete a unit that voters or positions belong to, and
looks at that unit only. The deletion reaches every unit beneath it: the rules
that name one go with it, and voters and positions of one belong to none
afterwards. A position without a unit is open to everybody, so the electorate
can get wider. It does not exactly when nobody belongs to a unit beneath, and
whoever meets the other requirements of a position meets those that go, too
(`delete_safe`).

Key definitions: `Tree.beneath`, `deleted`, `deleteUnit`, `NotWidened`, `Safe`.
Key theorems: `beneath_iff`, `mem_style`, `delete_safe`.
-/
import FlexyVotes.Elections.Eligibility

namespace FlexyVotes
namespace Constituencies

open Transactions Eligibility

/-! ### The tree of units -/

/-- The column `parent` of `Constituency`; no unit is above itself. -/
structure Tree where
  parent : ℕ → Option ℕ
  depth : ℕ → ℕ
  deeper : ∀ c p, parent c = some p → depth p < depth c

/-- Whether so many steps up lead from the unit to the node. -/
def Tree.climbs (t : Tree) (node : ℕ) : ℕ → ℕ → Bool
  | 0, _ => false
  | n + 1, c => c = node || (t.parent c).any (t.climbs node n)

/-- The unit is the node or beneath it, so that the cascade takes it. -/
def Tree.beneath (t : Tree) (node c : ℕ) : Bool := t.climbs node (t.depth c + 1) c

/-- As many steps as the unit is deep are enough. -/
theorem climbs_enough (t : Tree) (node : ℕ) :
    ∀ n m c, t.depth c < n → t.depth c < m → t.climbs node n c = t.climbs node m c
  | 0, _, _, hn, _ => absurd hn (Nat.not_lt_zero _)
  | _, 0, _, _, hm => absurd hm (Nat.not_lt_zero _)
  | n + 1, m + 1, c, hn, hm => by
    unfold Tree.climbs
    cases hp : t.parent c with
    | none => rfl
    | some p =>
      have hdeeper := t.deeper c p hp
      have hup : t.climbs node n p = t.climbs node m p := climbs_enough t node n m p (by omega) (by omega)
      rw [Option.any_some, Option.any_some, hup]

/-- The cascade takes a unit if it is the node, or takes its parent. -/
theorem beneath_iff (t : Tree) (node c : ℕ) :
    t.beneath node c = true ↔ c = node ∨ ∃ p, t.parent c = some p ∧ t.beneath node p = true := by
  have hstep : t.beneath node c = (c = node || (t.parent c).any (t.climbs node (t.depth c))) := rfl
  rw [hstep]
  cases hp : t.parent c with
  | none => simp
  | some p =>
    have hup : t.climbs node (t.depth c) p = t.beneath node p :=
      climbs_enough t node _ _ p (t.deeper c p hp) (Nat.lt_succ_self _)
    simp [hup]

/-! ### The deletion -/

/-- What `node.delete()` leaves of a row: units and rules are deleted with the
unit they are under, voters and positions belong to none. -/
def remains (t : Tree) (node : ℕ) : (k : Key) → Row k → Option (Row k)
  | .constituency c, r => if t.beneath node c then none else some r
  | .rule _, r => if r.constituency.any (t.beneath node) then none else some r
  | .voter _, r => some { r with constituency := r.constituency.filter fun c => ¬ t.beneath node c }
  | .category _, r => some { r with constituency := r.constituency.filter fun c => ¬ t.beneath node c }
  | _, r => some r

def deleted (t : Tree) (node : ℕ) (db : Database) : Database where
  row k := (db.row k).bind (remains t node k)
  keys := db.keys
  nodup := db.nodup
  cover k hk := db.cover k (by
    cases hrow : db.row k with
    | none => rw [hrow] at hk; cases hk
    | some r => rfl)

/-- `node.voters.exists() or node.positions.exists()`. -/
def inUse (node : ℕ) (db : Database) : Bool :=
  db.select (fun
    | .voter _ => fun r => r.constituency = some node
    | .category _ => fun r => r.constituency = some node
    | _ => fun _ => false) ≠ []

/-- The action `delete` of `constituencies`, where it deletes. -/
def deleteUnit (t : Tree) (organization node : ℕ) (db : Database) : Option Database :=
  match db.row (.constituency node) with
  | none => none
  | some r => if r.organization = some organization ∧ inUse node db = false then some (deleted t node db) else none

/-! ### Who may vote for what -/

variable (E : Env)

/-- `ballot_style` of a voter in the voter's election. -/
def style (db : Database) (v : VoterRow) : List ℕ := ballotStyle E db db (rulesOf db v.election) v v.election

/-- Every voter has the constituency and at most the positions from before. -/
def NotWidened (db db' : Database) : Prop := ∀ pk v, db.row (.voter pk) = some v →
  ∃ v', db'.row (.voter pk) = some v' ∧ v'.constituency = v.constituency ∧ ∀ p ∈ style E db' v', p ∈ style E db v

/-- The rule counts for the position. -/
def RuleFor (db : Database) (e p : ℕ) (r : RuleRow) : Prop :=
  r ∈ rulesOf db e ∧ (r.position = none ∨ r.position = some p)

/-- The requirements of a position that name no unit beneath the node: the
voter's status, rules, and the position's own unit. -/
def MeetsOthers (t : Tree) (node : ℕ) (db : Database) (v : VoterRow) (p : ℕ) (position : CategoryRow) : Prop :=
  v.status ≠ .SUSPENDED ∧ v.status ≠ .INELIGIBLE ∧
    (∀ r, RuleFor db v.election p r → r.constituency.any (t.beneath node) = false → rulePasses E db r v = true) ∧
    (position.constituency.any (t.beneath node) = false →
      (position.constituency.isNone || isWithin (pathOf db v.constituency) (pathOf db position.constituency)) = true)

/-- The requirements of a position that go with the node. -/
def MeetsGoing (t : Tree) (node : ℕ) (db : Database) (v : VoterRow) (p : ℕ) (position : CategoryRow) : Prop :=
  (∀ r, RuleFor db v.election p r → r.constituency.any (t.beneath node) = true → rulePasses E db r v = true) ∧
    (position.constituency.any (t.beneath node) = true →
      isWithin (pathOf db v.constituency) (pathOf db position.constituency) = true)

/-- No voter belongs to the node or a unit beneath it, and who meets the other
requirements of a position meets those that go with it. -/
def Safe (t : Tree) (node : ℕ) (db : Database) : Prop := ∀ pk v, db.row (.voter pk) = some v →
  v.constituency.any (t.beneath node) = false ∧
    ∀ p position, db.row (.category p) = some position → position.event = v.election →
      MeetsOthers E t node db v p position → MeetsGoing E t node db v p position

variable {E : Env} {t : Tree} {node : ℕ} {db : Database} {v : VoterRow}

theorem mem_rulesOf {e : ℕ} {r : RuleRow} :
    r ∈ rulesOf db e ↔ ∃ k, db.row (.rule k) = some r ∧ r.election = e ∧ r.isActive = true := by
  unfold rulesOf
  rw [Db.mem_collect]
  constructor
  · rintro ⟨k, r', hrow, hr⟩
    cases k <;> try cases hr
    dsimp only at hr
    split at hr
    · rename_i hactive
      cases hr
      exact ⟨_, hrow, hactive⟩
    · cases hr
  · rintro ⟨k, hrow, hactive⟩
    exact ⟨.rule k, r, hrow, if_pos hactive⟩

theorem mem_categoriesOf {e p : ℕ} {position : CategoryRow} :
    (p, position) ∈ categoriesOf db e ↔ db.row (.category p) = some position ∧ position.event = e := by
  unfold categoriesOf
  rw [List.mem_insertionSort, Db.mem_collect]
  constructor
  · rintro ⟨k, r, hrow, hr⟩
    cases k <;> try cases hr
    dsimp only at hr
    split at hr
    · rename_i hevent
      cases hr
      exact ⟨hrow, hevent⟩
    · cases hr
  · rintro ⟨hrow, hevent⟩
    exact ⟨.category p, position, hrow, if_pos hevent⟩

theorem reasonsAgainst_nil {rules : List RuleRow} : reasonsAgainst E db rules v = [] ↔
    v.status ≠ .SUSPENDED ∧ v.status ≠ .INELIGIBLE ∧ ∀ r ∈ rules, r.position = none → rulePasses E db r v = true := by
  unfold reasonsAgainst
  rw [List.append_eq_nil_iff, List.map_eq_nil_iff, List.filter_eq_nil_iff]
  cases v.status <;> simp

/-- Who may vote for a position: status, rules, and the position's unit. -/
theorem mem_style {p : ℕ} : p ∈ style E db v ↔ ∃ position, db.row (.category p) = some position ∧
    position.event = v.election ∧ v.status ≠ .SUSPENDED ∧ v.status ≠ .INELIGIBLE ∧
    (∀ r, RuleFor db v.election p r → rulePasses E db r v = true) ∧
    (position.constituency.isNone || isWithin (pathOf db v.constituency) (pathOf db position.constituency)) = true := by
  unfold style ballotStyle
  by_cases hreasons : reasonsAgainst E db (rulesOf db v.election) v = []
  · rw [if_neg (not_not.2 hreasons), List.mem_insertionSort]
    obtain ⟨hsuspended, hineligible, hall⟩ := reasonsAgainst_nil.1 hreasons
    simp only [List.mem_map, List.mem_filter, positionEligible, Bool.and_eq_true, List.all_eq_true]
    constructor
    · rintro ⟨⟨p', position⟩, ⟨hmem, hunit, hrules⟩, rfl⟩
      obtain ⟨hrow, hevent⟩ := mem_categoriesOf.1 hmem
      refine ⟨position, hrow, hevent, hsuspended, hineligible, fun r hr => ?_, hunit⟩
      rcases hr.2 with hnone | hpos
      · exact hall r hr.1 hnone
      · exact hrules r ⟨hr.1, by simpa using hpos⟩
    · rintro ⟨position, hrow, hevent, -, -, hrules, hunit⟩
      refine ⟨(p, position), ⟨mem_categoriesOf.2 ⟨hrow, hevent⟩, hunit, fun r hr => ?_⟩, rfl⟩
      exact hrules r ⟨hr.1, Or.inr (by simpa using hr.2)⟩
  · rw [if_pos hreasons]
    refine iff_of_false List.not_mem_nil fun ⟨_, _, _, hsuspended, hineligible, hrules, _⟩ => hreasons ?_
    exact reasonsAgainst_nil.2 ⟨hsuspended, hineligible, fun r hr hnone => hrules r ⟨hr, Or.inl hnone⟩⟩

/-- The requirements of a position, those that go and the others. -/
theorem mem_style_before {p : ℕ} : p ∈ style E db v ↔ ∃ position, db.row (.category p) = some position ∧
    position.event = v.election ∧ MeetsOthers E t node db v p position ∧ MeetsGoing E t node db v p position := by
  rw [mem_style]
  refine exists_congr fun position => and_congr_right fun _ => and_congr_right fun _ => ?_
  constructor
  · rintro ⟨hsuspended, hineligible, hrules, hunit⟩
    refine ⟨⟨hsuspended, hineligible, fun r hr _ => hrules r hr, fun _ => hunit⟩, fun r hr _ => hrules r hr,
      fun hgoes => ?_⟩
    cases hc : position.constituency with
    | none =>
      rw [hc] at hgoes
      cases hgoes
    | some c =>
      rw [hc] at hunit
      exact hunit
  · rintro ⟨⟨hsuspended, hineligible, hstay, hunit⟩, hgo, hunit'⟩
    refine ⟨hsuspended, hineligible, fun r hr => ?_, ?_⟩
    · cases hgoes : r.constituency.any (t.beneath node) with
      | true => exact hgo r hr hgoes
      | false => exact hstay r hr hgoes
    · cases hgoes : position.constituency.any (t.beneath node) with
      | true =>
        rw [hunit' hgoes, Bool.or_true]
      | false => exact hunit hgoes

/-! ### After the deletion -/

theorem pathOf_deleted {c : Option ℕ} (hc : c.any (t.beneath node) = false) :
    pathOf (deleted t node db) c = pathOf db c := by
  cases c with
  | none => rfl
  | some c =>
    have hstays : t.beneath node c = false := hc
    unfold pathOf deleted remains
    cases hrow : db.row (.constituency c) with
    | none => simp [hrow]
    | some r => simp [hrow, hstays]

theorem rulePasses_deleted {r : RuleRow} (hv : v.constituency.any (t.beneath node) = false)
    (hr : r.constituency.any (t.beneath node) = false) :
    rulePasses E (deleted t node db) r v = rulePasses E db r v := by
  unfold rulePasses
  rw [pathOf_deleted hv, pathOf_deleted hr]

/-- A unit that stays is kept. -/
theorem filter_stays {c : Option ℕ} (hc : c.any (t.beneath node) = false) :
    (c.filter fun c => ¬ t.beneath node c) = c := by
  cases c with
  | none => rfl
  | some c =>
    have hstays : t.beneath node c = false := hc
    simp [Option.filter_some, hstays]

theorem ruleFor_deleted {e p : ℕ} {r : RuleRow} :
    RuleFor (deleted t node db) e p r ↔ RuleFor db e p r ∧ r.constituency.any (t.beneath node) = false := by
  have hrow : ∀ k, (deleted t node db).row (.rule k) = some r ↔
      db.row (.rule k) = some r ∧ r.constituency.any (t.beneath node) = false := by
    intro k
    show (db.row (.rule k)).bind (fun r => if r.constituency.any (t.beneath node) then none else some r) = some r ↔ _
    cases db.row (.rule k) with
    | none => simp
    | some r' =>
      rw [Option.bind_some]
      cases hgoes : r'.constituency.any (t.beneath node) with
      | true =>
        rw [if_pos rfl]
        refine iff_of_false nofun fun ⟨he, hstays⟩ => ?_
        rw [← Option.some.inj he, hgoes] at hstays
        cases hstays
      | false =>
        rw [if_neg Bool.false_ne_true]
        refine ⟨fun he => ⟨he, ?_⟩, fun h => h.1⟩
        rw [← Option.some.inj he, hgoes]
  unfold RuleFor
  rw [mem_rulesOf, mem_rulesOf]
  constructor
  · rintro ⟨⟨k, hk, hactive⟩, hpos⟩
    exact ⟨⟨⟨k, ((hrow k).1 hk).1, hactive⟩, hpos⟩, ((hrow k).1 hk).2⟩
  · rintro ⟨⟨⟨k, hk, hactive⟩, hpos⟩, hstays⟩
    exact ⟨⟨k, (hrow k).2 ⟨hk, hstays⟩, hactive⟩, hpos⟩

/-- A position whose unit goes is open to everybody. -/
theorem unit_deleted {c : Option ℕ} (hv : v.constituency.any (t.beneath node) = false) :
    ((c.filter fun c => ¬ t.beneath node c).isNone ||
        isWithin (pathOf (deleted t node db) v.constituency)
          (pathOf (deleted t node db) (c.filter fun c => ¬ t.beneath node c))) = true ↔
      (c.any (t.beneath node) = false → (c.isNone || isWithin (pathOf db v.constituency) (pathOf db c)) = true) := by
  cases hgoes : c.any (t.beneath node) with
  | true =>
    have hnone : (c.filter fun c => ¬ t.beneath node c) = none := by
      cases c with
      | none => rfl
      | some c =>
        have hc : t.beneath node c = true := hgoes
        simp [Option.filter_some, hc]
    rw [hnone]
    exact iff_of_true rfl nofun
  | false =>
    rw [filter_stays hgoes, pathOf_deleted hv, pathOf_deleted hgoes]
    exact ⟨fun h _ => h, fun h => h rfl⟩

/-- After the deletion a voter who has kept the constituency needs to meet the
other requirements only. -/
theorem mem_style_after {p : ℕ} (hv : v.constituency.any (t.beneath node) = false) :
    p ∈ style E (deleted t node db) v ↔ ∃ position, db.row (.category p) = some position ∧
      position.event = v.election ∧ MeetsOthers E t node db v p position := by
  have hrules : (∀ r, RuleFor (deleted t node db) v.election p r → rulePasses E (deleted t node db) r v = true) ↔
      ∀ r, RuleFor db v.election p r → r.constituency.any (t.beneath node) = false → rulePasses E db r v = true := by
    refine forall_congr' fun r => ?_
    rw [ruleFor_deleted, and_imp]
    refine imp_congr_right fun _ => forall_congr' fun hstays => ?_
    rw [rulePasses_deleted hv hstays]
  rw [mem_style]
  constructor
  · rintro ⟨position', hrow', hevent, hsuspended, hineligible, hall, hunit⟩
    obtain ⟨position, hrow, he⟩ := Option.bind_eq_some_iff.1 hrow'
    cases he
    exact ⟨position, hrow, hevent, hsuspended, hineligible, hrules.1 hall, (unit_deleted hv).1 hunit⟩
  · rintro ⟨position, hrow, hevent, hsuspended, hineligible, hall, hunit⟩
    refine ⟨{ position with constituency := position.constituency.filter fun c => ¬ t.beneath node c },
      Option.bind_eq_some_iff.2 ⟨position, hrow, rfl⟩, hevent, hsuspended, hineligible, hrules.2 hall,
      (unit_deleted hv).2 hunit⟩

/-- **Deleting a unit** leaves the electorate as it was, or smaller, exactly when it
is safe. -/
theorem delete_safe (E : Env) (t : Tree) {organization node : ℕ} {db db' : Database}
    (h : deleteUnit t organization node db = some db') : NotWidened E db db' ↔ Safe E t node db := by
  have he : db' = deleted t node db := by
    unfold deleteUnit at h
    split at h
    · cases h
    · split at h
      · exact (Option.some.inj h).symm
      · cases h
  subst he
  have hkept : ∀ {pk v}, db.row (.voter pk) = some v → (deleted t node db).row (.voter pk) =
      some { v with constituency := v.constituency.filter fun c => ¬ t.beneath node c } :=
    fun hrow => Option.bind_eq_some_iff.2 ⟨_, hrow, rfl⟩
  refine forall₃_congr fun pk v hrow => ?_
  constructor
  · rintro ⟨v', hrow', hsame, hstyle⟩
    rw [hkept hrow] at hrow'
    cases hrow'
    have hstays : v.constituency.any (t.beneath node) = false := by
      cases hc : v.constituency with
      | none => rfl
      | some c =>
        rw [hc, Option.filter_some] at hsame
        split at hsame
        · rename_i hstays
          simpa using hstays
        · cases hsame
    rw [filter_stays hstays] at hstyle
    refine ⟨hstays, fun p position hp hevent hothers => ?_⟩
    obtain ⟨position', hp', -, -, hgoing⟩ := mem_style_before.1
      (hstyle p ((mem_style_after hstays).2 ⟨position, hp, hevent, hothers⟩))
    rw [hp] at hp'
    cases hp'
    exact hgoing
  · rintro ⟨hstays, hmeets⟩
    refine ⟨v, ?_, rfl, fun p hp => ?_⟩
    · rw [hkept hrow, filter_stays hstays]
    · obtain ⟨position, hp, hevent, hothers⟩ := (mem_style_after hstays).1 hp
      exact mem_style_before.2 ⟨position, hp, hevent, hothers, hmeets p position hp hevent hothers⟩

/-- A faculty with a department. -/
def faculty : Tree where
  parent := fun c => if c = 2 then some 1 else none
  depth := id
  deeper := by
    intro c p hp
    split at hp
    · rename_i hc
      cases hp
      exact hc ▸ Nat.lt_succ_self 1
    · cases hp

/-- A position of the department, and a voter of no unit. -/
def campus : Database :=
  (((Db.empty.set (.constituency 1) (some { organization := some 1, path := "1/" })).set
    (.constituency 2) (some { organization := some 1, path := "1/2/" })).set
    (.category 10) (some { event := 7, name := "Representative", constituency := some 2 })).set
    (.voter 5) (some { election := 7 })

theorem delete_safe_campus :
    NotWidened Env.plain campus (deleted faculty 1 campus) ↔ Safe Env.plain faculty 1 campus :=
  delete_safe Env.plain faculty (show deleteUnit faculty 1 1 campus = some (deleted faculty 1 campus) from rfl)

/-- The faculty has no position of its own and can be deleted; then everybody may
vote for the department's. -/
theorem not_delete_safe : ¬ ∀ (E : Env) (t : Tree) (organization node : ℕ) (db db' : Database),
    deleteUnit t organization node db = some db' → NotWidened E db db' := by
  intro h
  obtain ⟨v', hrow, -, hstyle⟩ := h Env.plain faculty 1 1 campus _ rfl 5 { election := 7 } rfl
  have hnow : 10 ∈ style Env.plain (deleted faculty 1 campus) { election := 7 } := by decide +kernel
  have hbefore : 10 ∉ style Env.plain campus { election := 7 } := by decide +kernel
  have hv : v' = { election := 7 } := (Option.some.inj hrow).symm
  exact hbefore (hstyle 10 (hv ▸ hnow))

end Constituencies
end FlexyVotes
