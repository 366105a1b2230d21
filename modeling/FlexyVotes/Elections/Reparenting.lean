/-
# Moving constituencies

`Constituency.save` keeps the path of ancestor ids of a unit: it writes the
row, then its path under the parent's, and where the path changed it rewrites
the start of every path that begins with the old one. Whoever belongs to a unit
belongs to those above it, by their paths.

The paths stay right through a save exactly where the new parent is not the
unit itself nor beneath it, and the objects it is made from are up to date:
the parent's path is the stored one, and so is the unit's own, unless that is
right already or nothing is beneath the unit (`save_right`). So in a sequence
of saves the paths are right throughout exactly where that holds of each save
that does not fail (`saves_right`).

Key definitions: `Node`, `save`, `Right`, `Meets`.
Key theorems: `Materialized.exists_chain`, `Right.rulePasses`, `save_ok`, `save_right`,
`saves_right`.
-/
import FlexyVotes.Core.Parsing
import FlexyVotes.Elections.Eligibility
import FlexyVotes.Lib.Paths

namespace FlexyVotes
namespace Reparenting

open Transactions Paths Eligibility

/-! ### Units and their paths -/

/-- A constituency with its parent. -/
structure UnitRow extends ConstituencyRow where
  parent : Option ℕ := none

abbrev Units := Db fun _ : ℕ => UnitRow

/-- The ids in a path, each with a slash behind it. -/
def ids : Alphabet ℕ Char where
  text n := (toString n).toList
  separator := '/'
  clean n h := by
    rw [Nat.toString_eq_repr, Nat.toList_repr] at h
    exact absurd (Nat.isDigit_of_mem_toDigits (by decide) (by decide) h) (by decide)
  distinct _ _ h := toString_pk_injective (String.toList_injective h)

def parentOf (u : Units) (c : ℕ) : Option ℕ := (u.row c).bind (·.parent)

def pathIn (u : Units) (c : ℕ) : Option String := (u.row c).map (·.path)

/-- What the paths of a parent's children begin with. -/
def startUnder (u : Units) : Option ℕ → Option String
  | none => some ""
  | some p => pathIn u p

/-- A constituency in memory, with the object that is its parent: paths as they
were read, of the unit none yet or one that it had. The id of a new one is
what the database will give it. -/
structure Node where
  pk : ℕ
  row : ConstituencyRow
  parent : Option (ℕ × ConstituencyRow)
  own : row.path = "" ∨ ∃ above, row.path.toList = ids.render (above ++ [pk])

/-- The path under the parent's. -/
def newPath (self : Node) : String := (self.parent.map fun p => p.2.path).getD "" ++ toString self.pk ++ "/"

def startsWith (path start : String) : Bool := start.toList.isPrefixOf path.toList

/-- `path + child.path[len(old):]`. -/
def movedPath (old path childPath : String) : String := path ++ String.ofList (childPath.toList.drop old.toList.length)

/-- The units whose paths begin with the old one, but for the unit itself. -/
def children (u : Units) (pk : ℕ) (old : String) : List (ℕ × UnitRow) :=
  u.collect fun c r => if startsWith r.path old ∧ c ≠ pk then some (c, r) else none

/-- The children that move with the unit, `if old`. -/
def moving (u : Units) (self : Node) : List (ℕ × UnitRow) :=
  if self.row.path = "" then [] else children u self.pk self.row.path

/-- `update(path=path)` of one unit. -/
def setPath (u : Units) (c : ℕ) (path : String) : Units :=
  u.set c ((u.row c).map fun r => { r with path := path })

/-- The loop over the children. -/
def moveAll (old path : String) : List (ℕ × UnitRow) → Units → Units
  | [], u => u
  | (c, r) :: rest, u => moveAll old path rest (setPath u c (movedPath old path r.path))

/-- What `super().save()` writes. -/
def written (u : Units) (self : Node) : Units :=
  u.set self.pk (some { self.row with parent := self.parent.map (·.1) })

/-- The row breaks a constraint: another one of the organization with the code,
or a parent that is not there. -/
def breaks (u : Units) (self : Node) : Bool :=
  u.select (fun c r => c ≠ self.pk ∧ r.organization = self.row.organization ∧ r.code = self.row.code) ≠ [] ||
    self.parent.any fun p => ((written u self).row p.1).isNone

/-- A path is longer than its column allows, where the database minds. -/
def tooLong (limit : Option ℕ) (path : String) : Bool := limit.any fun n => n < path.length

/-- `Constituency.save`, in a transaction: what fails leaves nothing. -/
def save (limit : Option ℕ) (u : Units) (self : Node) : Except Failure Units :=
  if self.parent.any fun p => p.2.organization ≠ self.row.organization then .error (.crash "ValueError")
  else if breaks u self then .error (.crash "IntegrityError")
  else
    let path := newPath self
    let old := self.row.path
    if path = old then .ok (written u self)
    else
      let u' := setPath (written u self) self.pk path
      if tooLong limit path || (moving u' self).any fun c => tooLong limit (movedPath old path c.2.path) then
        .error (.crash "DataError")
      else .ok (moveAll old path (moving u' self) u')

/-- The units after a save that may fail. -/
def after (limit : Option ℕ) (u : Units) (self : Node) : Units :=
  match save limit u self with
  | .ok u' => u'
  | .error _ => u

/-! ### What a save does -/

variable {limit : Option ℕ} {u u' : Units} {self : Node}

theorem setPath_row (u : Units) (c : ℕ) (path : String) (x : ℕ) :
    (setPath u c path).row x = if x = c then (u.row c).map fun r => { r with path := path } else u.row x := by
  unfold setPath
  by_cases h : x = c
  · rw [if_pos h, h, Db.set_row_self]
  · rw [if_neg h, Db.set_row_ne _ _ h]

theorem moveAll_row {old path : String} : ∀ {l : List (ℕ × UnitRow)} {u : Units}, (l.map (·.1)).Nodup →
    (∀ c ∈ l, u.row c.1 = some c.2) → ∀ x, (moveAll old path l u).row x =
      (u.row x).map fun r => if x ∈ l.map (·.1) then { r with path := movedPath old path r.path } else r
  | [], u, _, _, x => by simp [moveAll]
  | (c, r) :: rest, u, hnodup, hrows, x => by
    obtain ⟨hc, hrest⟩ := List.nodup_cons.mp hnodup
    rw [List.forall_mem_cons] at hrows
    have hkeep : ∀ d ∈ rest, (setPath u c (movedPath old path r.path)).row d.1 = some d.2 := fun d hd => by
      rw [setPath_row, if_neg fun h => hc (List.mem_map.mpr ⟨d, hd, h⟩)]
      exact hrows.2 d hd
    rw [moveAll, moveAll_row hrest hkeep, setPath_row, List.map_cons]
    by_cases hx : x = c
    · subst hx
      rw [if_pos rfl, hrows.1, Option.map_some, Option.map_some, Option.map_some, if_neg hc, if_pos List.mem_cons_self]
    · have hmem : x ∈ c :: rest.map (·.1) ↔ x ∈ rest.map (·.1) := by simp [hx]
      simp only [if_neg hx, hmem]

theorem mem_children {pk : ℕ} {old : String} {c : ℕ × UnitRow} :
    c ∈ children u pk old ↔ u.row c.1 = some c.2 ∧ startsWith c.2.path old = true ∧ c.1 ≠ pk := by
  unfold children
  rw [Db.mem_collect]
  constructor
  · rintro ⟨k, r, hrow, h⟩
    split at h
    · cases h
      exact ⟨hrow, ‹_›⟩
    · cases h
  · exact fun ⟨hrow, h⟩ => ⟨c.1, c.2, hrow, if_pos h⟩

theorem children_nodup (u : Units) (pk : ℕ) (old : String) : ((children u pk old).map (·.1)).Nodup := by
  refine Db.collect_nodup u (fun c : ℕ × UnitRow => c.1) fun k r x k' r' x' h h' hx => ?_
  split at h
  · split at h'
    · cases h
      cases h'
      exact hx
    · cases h'
  · cases h

theorem moving_nodup (u : Units) (self : Node) : ((moving u self).map (·.1)).Nodup := by
  unfold moving
  split
  · exact List.nodup_nil
  · exact children_nodup u self.pk self.row.path

theorem moving_rows : ∀ c ∈ moving u self, u.row c.1 = some c.2 := by
  intro c hc
  unfold moving at hc
  split at hc
  · cases hc
  · exact (mem_children.mp hc).1

theorem mem_moving {c : ℕ} {r : UnitRow} (hrow : u.row c = some r) : c ∈ (moving u self).map (·.1) ↔
    c ≠ self.pk ∧ self.row.path ≠ "" ∧ startsWith r.path self.row.path = true := by
  unfold moving
  split
  · rename_i hblank
    simp [hblank]
  · rename_i hold
    rw [List.mem_map]
    constructor
    · rintro ⟨d, hd, rfl⟩
      obtain ⟨hdrow, hstart, hne⟩ := mem_children.mp hd
      rw [hrow] at hdrow
      cases hdrow
      exact ⟨hne, hold, hstart⟩
    · rintro ⟨hne, -, hstart⟩
      exact ⟨(c, r), mem_children.mpr ⟨hrow, hstart, hne⟩, rfl⟩

/-- The row that a save leaves of one there was. -/
def shifted (self : Node) (c : ℕ) (r : UnitRow) : UnitRow :=
  if c ≠ self.pk ∧ newPath self ≠ self.row.path ∧ self.row.path ≠ "" ∧ startsWith r.path self.row.path = true then
    { r with path := movedPath self.row.path (newPath self) r.path }
  else r

/-- **What a save does.** -/
theorem save_ok (h : save limit u self = .ok u') :
    u'.row self.pk = some { self.row with path := newPath self, parent := self.parent.map (·.1) } ∧
      ∀ c, c ≠ self.pk → u'.row c = (u.row c).map (shifted self c) := by
  have hwritten : ∀ c, c ≠ self.pk → (written u self).row c = u.row c := fun c hc => Db.set_row_ne _ _ hc
  have hself : (written u self).row self.pk = some { self.row with parent := self.parent.map (·.1) } := Db.set_row_self ..
  unfold save at h
  split at h
  · cases h
  split at h
  · cases h
  dsimp only at h
  split at h
  · rename_i hsame
    cases h
    refine ⟨by rw [hself, hsame], fun c hc => ?_⟩
    have hstays : shifted self c = id := by
      funext r
      exact if_neg fun h => h.2.1 hsame
    rw [hwritten c hc, hstays, Option.map_id]
    rfl
  · rename_i hnew
    split at h
    · cases h
    cases h
    set v := setPath (written u self) self.pk (newPath self) with hv
    constructor
    · have hrow : v.row self.pk = some { self.row with path := newPath self, parent := self.parent.map (·.1) } := by
        rw [hv, setPath_row, if_pos rfl, hself]
        rfl
      rw [moveAll_row (moving_nodup v self) moving_rows, hrow, Option.map_some,
        if_neg fun hc => ((mem_moving hrow).mp hc).1 rfl]
    · intro c hc
      have hrow : v.row c = u.row c := by
        rw [hv, setPath_row, if_neg hc, hwritten c hc]
      rw [moveAll_row (moving_nodup v self) moving_rows, hrow]
      cases hr : u.row c with
      | none => rfl
      | some r =>
        rw [Option.map_some, Option.map_some]
        refine congrArg some ?_
        unfold shifted
        have hmoves : c ∈ (moving v self).map (·.1) ↔ _ := mem_moving (hrow.trans hr)
        simp only [hmoves, hc, hnew, ne_eq, not_false_eq_true, true_and]

/-! ### Right paths -/

/-- The path of each unit is its parent's, its id and a slash. -/
def Materialized (u : Units) : Prop := ∀ c r, u.row c = some r →
  ∃ start, startUnder u r.parent = some start ∧ r.path = start ++ toString c ++ "/"

/-- What the paths are for: they are materialized, and a unit is within another
exactly where that is the unit itself or above it. -/
structure Right (u : Units) : Prop where
  path : Materialized u
  within : ∀ c a r r', u.row c = some r → u.row a = some r' →
    (isWithin (some r.path) (some r'.path) = true ↔ Above (parentOf u) a c)

theorem toList_step (start : String) (c : ℕ) : (start ++ toString c ++ "/").toList = start.toList ++ ids.render [c] := by
  rw [String.toList_append, String.toList_append, Alphabet.render_singleton, List.append_assoc]
  rfl

theorem append_right_cancel {s s' t : String} (h : s ++ t = s' ++ t) : s = s' := by
  have hchars := congrArg String.toList h
  rw [String.toList_append, String.toList_append] at hchars
  exact String.toList_injective (List.append_cancel_right hchars)

/-- A right path is that of the chain from the root. -/
theorem Materialized.exists_chain (h : Materialized u) {c : ℕ} {r : UnitRow} (hrow : u.row c = some r) :
    ∃ l, Chain (parentOf u) c l ∧ r.path.toList = ids.render l := by
  induction hn : r.path.toList.length using Nat.strong_induction_on generalizing c r with
  | _ n ih =>
    obtain ⟨start, hstart, hpath⟩ := h c r hrow
    have hparent : parentOf u c = r.parent := by rw [parentOf, hrow, Option.bind_some]
    have hlist : r.path.toList = start.toList ++ ids.render [c] := by rw [hpath, toList_step]
    cases hp : r.parent with
    | none =>
      rw [hp] at hstart
      cases hstart
      exact ⟨[c], .root (hparent.trans hp), hlist⟩
    | some p =>
      rw [hp] at hstart
      obtain ⟨rp, hrp, rfl⟩ := Option.map_eq_some_iff.mp hstart
      have hshorter : rp.path.toList.length < n := by
        rw [← hn, hlist, List.length_append, Alphabet.render_singleton, List.length_append, List.length_singleton]
        omega
      obtain ⟨l, hl, hrender⟩ := ih _ hshorter hrp rfl
      refine ⟨l ++ [c], .step (hparent.trans hp) hl, ?_⟩
      rw [hlist, hrender, Alphabet.render_append]

theorem Materialized.right (h : Materialized u) : Right u where
  path := h
  within c a r r' hc ha := by
    obtain ⟨l, hl, hpath⟩ := h.exists_chain hc
    obtain ⟨l', hl', hpath'⟩ := h.exists_chain ha
    rw [← hl.prefix_iff hl', ← ids.render_isPrefix, ← hpath, ← hpath']
    exact List.isPrefixOf_iff_prefix

/-- A rule for a constituency passes whoever belongs to it or to one beneath. -/
theorem Right.rulePasses (h : Right u) (E : Env) {db : Database}
    (hstores : ∀ c, db.row (.constituency c) = (u.row c).map (·.toConstituencyRow)) {rule : RuleRow} {v : VoterRow}
    (hkind : rule.kind = .CONSTITUENCY) {c a : ℕ} {r r' : UnitRow} (hc : v.constituency = some c)
    (ha : rule.constituency = some a) (hrow : u.row c = some r) (hrow' : u.row a = some r') :
    rulePasses E db rule v = true ↔ Above (parentOf u) a c := by
  have hpath : ∀ {x s}, u.row x = some s → pathOf db (some x) = some s.path := fun {x s} hs => by
    rw [pathOf, Option.bind_some, hstores, hs]
    rfl
  unfold Eligibility.rulePasses
  rw [hkind, hc, ha]
  dsimp only
  rw [hpath hrow, hpath hrow', h.within c a r r' hrow hrow']

/-- What is above a unit is there. -/
theorem Materialized.row_above (h : Materialized u) {c a : ℕ} (habove : Above (parentOf u) a c) :
    (∃ r, u.row c = some r) → ∃ r, u.row a = some r := by
  induction habove using Relation.ReflTransGen.head_induction_on with
  | refl => exact id
  | head hp _ ih =>
    rintro ⟨r, hrow⟩
    refine ih ?_
    obtain ⟨start, hstart, -⟩ := h _ r hrow
    rw [parentOf, hrow, Option.bind_some] at hp
    rw [hp] at hstart
    obtain ⟨rp, hrp, -⟩ := Option.map_eq_some_iff.mp hstart
    exact ⟨rp, hrp⟩

theorem startsWith_iff {path start : String} : startsWith path start = true ↔ ∃ rest, path = start ++ rest := by
  unfold startsWith
  rw [List.isPrefixOf_iff_prefix]
  constructor
  · rintro ⟨rest, hrest⟩
    refine ⟨String.ofList rest, String.toList_injective ?_⟩
    rw [String.toList_append, String.toList_ofList, hrest]
  · rintro ⟨rest, rfl⟩
    rw [String.toList_append]
    exact List.prefix_append _ _

theorem movedPath_append (old path rest : String) : movedPath old path (old ++ rest) = path ++ rest := by
  unfold movedPath
  rw [String.toList_append, List.drop_left, String.ofList_toList]

/-- The paths that begin with what was read as the unit's are those beneath
it, if that is its path. -/
theorem Materialized.startsWith_iff (h : Materialized u) (hblank : self.row.path ≠ "") {c : ℕ} {r : UnitRow}
    (hrow : u.row c = some r) : startsWith r.path self.row.path = true ↔
      pathIn u self.pk = some self.row.path ∧ Above (parentOf u) self.pk c := by
  obtain ⟨l, hl, hpath⟩ := h.exists_chain hrow
  have hstored : ∀ r₀, u.row self.pk = some r₀ → ∀ l₀, Chain (parentOf u) self.pk l₀ → r₀.path.toList = ids.render l₀ :=
    fun r₀ hr₀ l₀ hl₀ => by
      obtain ⟨l₁, hl₁, hpath₁⟩ := h.exists_chain hr₀
      rw [hpath₁, hl₁.unique hl₀]
  unfold startsWith
  rw [List.isPrefixOf_iff_prefix, hpath]
  constructor
  · intro hbegins
    obtain ⟨above, habove⟩ := self.own.resolve_left hblank
    rw [habove, Alphabet.render_isPrefix] at hbegins
    have hchain := hl.of_begins hbegins
    have hup : Above (parentOf u) self.pk c := (hl.prefix_iff hchain).mp hbegins
    obtain ⟨r₀, hr₀⟩ := h.row_above hup ⟨r, hrow⟩
    refine ⟨?_, hup⟩
    rw [pathIn, hr₀, Option.map_some]
    exact congrArg some (String.toList_injective ((hstored r₀ hr₀ _ hchain).trans habove.symm))
  · rintro ⟨hown, hup⟩
    obtain ⟨r₀, hr₀, hr₀path⟩ := Option.map_eq_some_iff.mp hown
    obtain ⟨l₀, hl₀, hpath₀⟩ := h.exists_chain hr₀
    rw [← hr₀path, hpath₀, Alphabet.render_isPrefix]
    exact (hl.prefix_iff hl₀).mpr hup

/-! ### When a save leaves the paths right -/

/-- The new parent is not the unit nor beneath it, and its path is as stored;
and so is the unit's own, unless the stored one is the new one, or nothing is
beneath the unit. -/
structure Meets (u : Units) (node : Node) : Prop where
  parent : ∀ p, node.parent = some p → ¬Above (parentOf u) node.pk p.1 ∧ pathIn u p.1 = some p.2.path
  own : pathIn u node.pk = some node.row.path ∨ pathIn u node.pk = some (newPath node) ∨
    ∀ c r, u.row c = some r → Above (parentOf u) node.pk c → c = node.pk

/-- The path is rewritten. -/
def Moves (u : Units) (self : Node) (c : ℕ) : Prop :=
  newPath self ≠ self.row.path ∧ pathIn u self.pk = some self.row.path ∧ Above (parentOf u) self.pk c

theorem Materialized.path_ne_empty (h : Materialized u) {c : ℕ} {path : String} (hpath : pathIn u c = some path) :
    path ≠ "" := by
  obtain ⟨r, hrow, rfl⟩ := Option.map_eq_some_iff.mp hpath
  obtain ⟨start, -, hstart⟩ := h c r hrow
  intro hempty
  have hlength := congrArg (fun s => s.toList.length) (hstart.symm.trans hempty)
  simp [String.toList_append] at hlength

theorem Materialized.shifted_eq (h : Materialized u) {c : ℕ} {r : UnitRow} (hrow : u.row c = some r) (hc : c ≠ self.pk) :
    (Moves u self c → shifted self c r = { r with path := movedPath self.row.path (newPath self) r.path } ∧
        ∃ rest, r.path = self.row.path ++ rest) ∧
      (¬Moves u self c → shifted self c r = r) := by
  constructor
  · rintro ⟨hnew, hown, hup⟩
    have hblank := h.path_ne_empty hown
    have hstart := (h.startsWith_iff hblank hrow).mpr ⟨hown, hup⟩
    exact ⟨if_pos ⟨hc, hnew, hblank, hstart⟩, Reparenting.startsWith_iff.mp hstart⟩
  · intro hstays
    refine if_neg fun ⟨_, hnew, hblank, hstart⟩ => hstays ?_
    obtain ⟨hown, hup⟩ := (h.startsWith_iff hblank hrow).mp hstart
    exact ⟨hnew, hown, hup⟩

theorem shifted_parent (self : Node) (c : ℕ) (r : UnitRow) : (shifted self c r).parent = r.parent := by
  unfold shifted
  split <;> rfl

/-- A unit that does not move keeps its path. -/
theorem Materialized.pathIn_stays (h : Materialized u) (hsave : save limit u self = .ok u') {c : ℕ} (hc : c ≠ self.pk)
    (hstays : ¬Moves u self c) : pathIn u' c = pathIn u c := by
  rw [pathIn, pathIn, (save_ok hsave).2 c hc]
  cases hrow : u.row c with
  | none => rfl
  | some r => rw [Option.map_some, (h.shifted_eq hrow hc).2 hstays]

theorem pathIn_self (hsave : save limit u self = .ok u') : pathIn u' self.pk = some (newPath self) := by
  rw [pathIn, (save_ok hsave).1]
  rfl

theorem parentOf_self (hsave : save limit u self = .ok u') : parentOf u' self.pk = self.parent.map (·.1) := by
  rw [parentOf, (save_ok hsave).1]
  rfl

theorem parentOf_other (hsave : save limit u self = .ok u') {c : ℕ} (hc : c ≠ self.pk) : parentOf u' c = parentOf u c := by
  rw [parentOf, parentOf, (save_ok hsave).2 c hc]
  cases u.row c with
  | none => rfl
  | some r => exact shifted_parent self c r

theorem newPath_eq {p : ℕ × ConstituencyRow} (hp : self.parent = some p) :
    newPath self = p.2.path ++ toString self.pk ++ "/" := by
  rw [newPath, hp]
  rfl

/-- A save that meets the condition leaves right paths. -/
theorem Meets.materialized (hmeets : Meets u self) (h : Materialized u) (hsave : save limit u self = .ok u') :
    Materialized u' := by
  intro c r hrow
  by_cases hc : c = self.pk
  · subst hc
    rw [(save_ok hsave).1] at hrow
    cases hrow
    cases hp : self.parent with
    | none => exact ⟨"", rfl, by rw [newPath, hp]; rfl⟩
    | some p =>
      obtain ⟨hnot, hstored⟩ := hmeets.parent p hp
      have hne : p.1 ≠ self.pk := fun he => hnot (above_iff.mpr (.inl he.symm))
      refine ⟨p.2.path, ?_, newPath_eq hp⟩
      exact (h.pathIn_stays hsave hne fun hmoves => hnot hmoves.2.2).trans hstored
  · rw [(save_ok hsave).2 c hc] at hrow
    obtain ⟨r₀, hr₀, rfl⟩ := Option.map_eq_some_iff.mp hrow
    obtain ⟨start, hstart, hpath⟩ := h c r₀ hr₀
    obtain ⟨hmoved, hkept⟩ := h.shifted_eq hr₀ hc
    have hparent : parentOf u c = r₀.parent := by rw [parentOf, hr₀, Option.bind_some]
    have hup : Above (parentOf u) self.pk c ↔ ∃ m, r₀.parent = some m ∧ Above (parentOf u) self.pk m := by
      rw [above_iff, hparent]
      exact or_iff_right fun he => hc he.symm
    rw [shifted_parent]
    cases hp : r₀.parent with
    | none =>
      rw [hp] at hstart hup
      have hstays : ¬Moves u self c := fun hmoves => by
        obtain ⟨m, hm, -⟩ := hup.mp hmoves.2.2
        cases hm
      rw [hkept hstays]
      exact ⟨start, hstart, hpath⟩
    | some m =>
      rw [hp] at hstart hup
      have hupm : Above (parentOf u) self.pk c ↔ Above (parentOf u) self.pk m := by simpa using hup
      by_cases hm : m = self.pk
      · -- a child of the unit itself: its path begins with the stored one
        subst hm
        have habove : Above (parentOf u) self.pk c := hupm.mpr .refl
        refine ⟨newPath self, pathIn_self hsave, ?_⟩
        by_cases hmoves : Moves u self c
        · have hold : start = self.row.path := Option.some.inj (hstart.symm.trans hmoves.2.1)
          rw [(hmoved hmoves).1]
          dsimp only
          rw [hpath, hold, String.append_assoc, movedPath_append, String.append_assoc]
        · rw [hkept hmoves, hpath]
          rcases hmeets.own with hown | hown | hnone
          · have hsame : newPath self = self.row.path := by
              by_contra hnew
              exact hmoves ⟨hnew, hown, habove⟩
            rw [hsame, Option.some.inj (hstart.symm.trans hown)]
          · rw [Option.some.inj (hstart.symm.trans hown)]
          · exact absurd (hnone c r₀ hr₀ habove) hc
      · -- otherwise the unit moves with its parent, or neither does
        obtain ⟨rm, hrm, rfl⟩ := Option.map_eq_some_iff.mp hstart
        have hboth : Moves u self c ↔ Moves u self m := by
          unfold Moves
          rw [hupm]
        have hrow' : pathIn u' m = some (shifted self m rm).path := by
          rw [pathIn, (save_ok hsave).2 m hm, hrm]
          rfl
        refine ⟨_, hrow', ?_⟩
        by_cases hmoves : Moves u self c
        · obtain ⟨hshift, rest, hrest⟩ := (h.shifted_eq hrm hm).1 (hboth.mp hmoves)
          rw [hshift, (hmoved hmoves).1]
          dsimp only
          rw [hpath, hrest, String.append_assoc, String.append_assoc, movedPath_append, movedPath_append,
            String.append_assoc, String.append_assoc]
        · rw [hkept hmoves, (h.shifted_eq hrm hm).2 fun hm => hmoves (hboth.mpr hm), hpath]

/-- What was beneath the unit still is. -/
theorem above_saved (hsave : save limit u self = .ok u') {c : ℕ} (h : Above (parentOf u) self.pk c) :
    Above (parentOf u') self.pk c := by
  induction h using Relation.ReflTransGen.head_induction_on with
  | refl => exact .refl
  | @head x y hx _ ih =>
    by_cases hself : x = self.pk
    · exact above_iff.mpr (.inl hself.symm)
    · exact .head ((parentOf_other hsave hself).trans hx) ih

/-- A save that leaves right paths meets the condition. -/
theorem Materialized.meets (h : Materialized u) (hsave : save limit u self = .ok u') (h' : Materialized u') :
    Meets u self := by
  have hrow := (save_ok hsave).1
  refine ⟨fun p hp => ?_, ?_⟩
  · obtain ⟨start, hstart, hpath⟩ := h' self.pk _ hrow
    dsimp only at hstart hpath
    rw [hp] at hstart
    have hsame : start = p.2.path := by
      rw [newPath_eq hp, String.append_assoc, String.append_assoc] at hpath
      exact (append_right_cancel hpath).symm
    rw [hsame] at hstart
    have hparent' : parentOf u' self.pk = some p.1 := by
      rw [parentOf_self hsave, hp]
      rfl
    have hnot : ¬Above (parentOf u) self.pk p.1 := fun habove => by
      obtain ⟨rp, hrp, -⟩ := Option.map_eq_some_iff.mp hstart
      obtain ⟨l, hl, -⟩ := h'.exists_chain hrp
      exact hl.notMem hparent' (hl.mem_iff.mpr (above_saved hsave habove))
    have hne : p.1 ≠ self.pk := fun he => hnot (above_iff.mpr (.inl he.symm))
    refine ⟨hnot, ?_⟩
    rw [← hstart]
    exact (h.pathIn_stays hsave hne fun hmoves => hnot hmoves.2.2).symm
  · by_contra hown
    rw [not_or, not_or] at hown
    obtain ⟨hold, hnew, hbeneath⟩ := hown
    rw [not_forall] at hbeneath
    obtain ⟨c, hbeneath⟩ := hbeneath
    simp only [not_forall] at hbeneath
    obtain ⟨r, hr, habove, hc⟩ := hbeneath
    -- somebody is a child of the unit, and has the new path at its start
    obtain ⟨d, hd⟩ : ∃ d, parentOf u d = some self.pk := by
      rcases Relation.ReflTransGen.cases_tail habove with he | ⟨d, -, hd⟩
      · exact absurd he.symm hc
      · exact ⟨d, hd⟩
    obtain ⟨rd, hrd, hdparent⟩ := Option.bind_eq_some_iff.mp hd
    obtain ⟨start, hstart, hpath⟩ := h d rd hrd
    rw [hdparent] at hstart
    have hne : d ≠ self.pk := fun he => by
      obtain ⟨r₀, hr₀, -⟩ := Option.map_eq_some_iff.mp hstart
      obtain ⟨l, hl, -⟩ := h.exists_chain hr₀
      exact hl.notMem (he ▸ hd) (hl.mem_iff.mpr .refl)
    have hstays : ¬Moves u self d := fun hmoves => hold hmoves.2.1
    have hrd' : u'.row d = some rd := by
      rw [(save_ok hsave).2 d hne, hrd, Option.map_some, (h.shifted_eq hrd hne).2 hstays]
    obtain ⟨start', hstart', hpath'⟩ := h' d rd hrd'
    rw [hdparent] at hstart'
    have hsame : start' = newPath self := Option.some.inj (hstart'.symm.trans (pathIn_self hsave))
    rw [hpath', String.append_assoc, String.append_assoc, hsame] at hpath
    exact hnew (hstart.trans (congrArg some (append_right_cancel hpath).symm))

/-- **A save leaves right paths where it meets the condition.** -/
theorem save_right (h : Right u) (hsave : save limit u self = .ok u') : Right u' ↔ Meets u self :=
  ⟨fun h' => h.path.meets hsave h'.path, fun hmeets => (hmeets.materialized h.path hsave).right⟩

/-! ### Saves one after the other -/

/-- The paths are right before and after each save. -/
def AllRight (limit : Option ℕ) : Units → List Node → Prop
  | u, [] => Right u
  | u, self :: rest => Right u ∧ AllRight limit (after limit u self) rest

/-- Each save that does not fail meets the condition. -/
def AllMeet (limit : Option ℕ) : Units → List Node → Prop
  | _, [] => True
  | u, self :: rest => (∀ u', save limit u self = .ok u' → Meets u self) ∧ AllMeet limit (after limit u self) rest

/-- **Through a sequence of saves the paths stay right** exactly where each of
them meets the condition. -/
theorem saves_right (limit : Option ℕ) : ∀ {u : Units}, Right u → ∀ saves : List Node,
    (AllRight limit u saves ↔ AllMeet limit u saves)
  | u, h, [] => iff_of_true h trivial
  | u, h, self :: rest => by
    unfold AllRight AllMeet after
    cases hsave : save limit u self with
    | error e =>
      dsimp only
      rw [saves_right limit h rest]
      exact ⟨fun hall => ⟨fun _ => nofun, hall.2⟩, fun hall => ⟨h, hall.2⟩⟩
    | ok u' =>
      dsimp only
      constructor
      · rintro ⟨-, hall⟩
        have hright : Right u' := by
          cases rest with
          | nil => exact hall
          | cons next rest => exact hall.1
        refine ⟨fun _ _ => (save_right h hsave).mp hright, (saves_right limit hright rest).mp hall⟩
      · rintro ⟨hmeets, hall⟩
        have hright : Right u' := (save_right h hsave).mpr (hmeets u' rfl)
        exact ⟨h, (saves_right limit hright rest).mpr hall⟩

/-- A new unit. -/
def newUnit (pk : ℕ) (code : String) (parent : Option (ℕ × ConstituencyRow)) : Node :=
  ⟨pk, { organization := some 1, code := code, path := "" }, parent, .inl rfl⟩

/-- A faculty, a department of it, and another faculty. -/
def faculties : List Node :=
  [newUnit 1 "SCI" none, newUnit 2 "PHY" (some (1, { organization := some 1, code := "SCI", path := "1/" })),
    newUnit 3 "ENG" none]

/-- The first faculty as it is read, to be moved. -/
def scienceUnder (parent : ℕ × ConstituencyRow) : Node :=
  ⟨1, { organization := some 1, code := "SCI", path := "1/" }, some parent, .inr ⟨[], by decide⟩⟩

/-- The units that there are after saves. -/
def afterAll (limit : Option ℕ) (u : Units) (saves : List Node) : Units := saves.foldl (after limit) u

theorem AllRight.last : ∀ (saves : List Node) (u : Units), AllRight limit u saves → Right (afterAll limit u saves)
  | [], _, h => h
  | self :: rest, u, h => AllRight.last rest (after limit u self) h.2

/-- Whether the paths are right. -/
def checks (u : Units) : Bool := u.keys.all fun c => (u.row c).all fun r =>
  (startUnder u r.parent).any fun start => r.path = start ++ toString c ++ "/"

theorem materialized_of_checks (h : checks u = true) : Materialized u := by
  intro c r hrow
  have hc := List.all_eq_true.mp h c (u.cover c (by rw [hrow]; rfl))
  rw [hrow, Option.all_some, Option.any_eq_true] at hc
  obtain ⟨start, hstart, hpath⟩ := hc
  exact ⟨start, hstart, of_decide_eq_true hpath⟩

/-- A faculty moved under its own department has a path that its parent's does
not begin. -/
theorem not_saves_right : ¬∀ (limit : Option ℕ) (u : Units), Right u → ∀ saves : List Node, AllRight limit u saves := by
  intro hall
  have hempty : Right Db.empty := (materialized_of_checks rfl).right
  have hright := (hall (some 500) Db.empty hempty
    (faculties ++ [scienceUnder (2, { organization := some 1, code := "PHY", path := "1/2/" })])).last
  obtain ⟨start, hstart, hpath⟩ := hright.path 1
    { organization := some 1, code := "SCI", path := "1/2/1/", parent := some 2 } (by rfl)
  have hparent : startUnder (afterAll (some 500) Db.empty
      (faculties ++ [scienceUnder (2, { organization := some 1, code := "PHY", path := "1/2/" })])) (some 2) =
        some "1/2/1/2/" := by rfl
  rw [hparent] at hstart
  cases hstart
  exact absurd hpath (by decide)

theorem saves_right_faculties : Right (afterAll (some 500) Db.empty faculties) ∧
    AllRight (some 500) (afterAll (some 500) Db.empty faculties)
      [scienceUnder (3, { organization := some 1, code := "ENG", path := "3/" })] := by
  have hright : Right (afterAll (some 500) Db.empty faculties) := (materialized_of_checks (by rfl)).right
  refine ⟨hright, (saves_right (some 500) hright _).mpr ⟨fun _ _ => ⟨fun p hp => ?_, .inl (by rfl)⟩, trivial⟩⟩
  cases hp
  refine ⟨fun habove => ?_, by rfl⟩
  have hroot : parentOf (afterAll (some 500) Db.empty faculties) 3 = none := by rfl
  rcases above_iff.mp habove with h | ⟨p, hp, -⟩
  · exact absurd h (by decide)
  · rw [hroot] at hp
    cases hp

end Reparenting
end FlexyVotes
