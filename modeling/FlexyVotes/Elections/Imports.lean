/-
# What an import does

`importVoters` alone, row by row: a row without an identifier is looked for by
its e-mail on the roll, one with an identifier among the voters in memory; who
is found is saved as the row changes the copy that was found, and who is not is
inserted if no key is taken. `rowStep` is one row and `rowSteps` are the rows
one after the other; the program of an import comes to just that, and to a
record of it (`imported_spec`).

The voters in memory are those of the roll, in the columns that no row changes
(`Standing`). In the other columns they need not be: a row that finds its voter
by e-mail saves the stored one, and the one in memory stays as it was.

Key definitions: `rowStep`, `rowSteps`, `Standing`, `imported`.
Key theorems: `firstVoter_eq_some`, `Standing.rowStep`, `rowProgram_exec`, `importRows_exec`,
`imported_spec`.
-/
import FlexyVotes.Core.AuditChain
import FlexyVotes.Elections.Voters
import FlexyVotes.Lib.Serial

namespace FlexyVotes
namespace Imports

open Transactions Audit Configuration Lifecycle Casting Voters

variable {E : Env} {q : ImportRequest} {ev : EventRow} {places : List (String × ℕ)}

/-! ### One row after the other -/

/-- Where an import stands: the roll as its transaction sees it, and the voters
in memory. -/
structure Progress where
  db : Database
  memory : Existing

/-- A voter kept in memory, under an identifier. -/
def remember (key : String) (pk : ℕ) (v : VoterRow) (memory : Existing) : Existing :=
  if key = "" then memory else (key, pk, v) :: memory

/-- What the insert of a voter writes. -/
def insertWrites (pk : ℕ) (v : VoterRow) : Writes Row :=
  ((v.credentialHash.map fun h => ⟨.credential v.election h, some pk⟩).toList ++
    (v.identifier.map fun i => ⟨.identifier v.election i, some pk⟩).toList) ++ [⟨.voter pk, some v⟩]

/-- A voter, or what the unique constraints keep of one. -/
def onRoll : Key → Bool
  | .voter _ => true
  | k => isUnique k

/-- None of the keys of a voter is taken. -/
def free (db : Database) (pk : ℕ) (v : VoterRow) : Bool := (rowsOf pk v).all fun k => (db.row k).isNone

/-- The voter that a row finds. -/
def found (E : Env) (q : ImportRequest) (row : ImportRow) (s : Progress) : Option (ℕ × VoterRow) :=
  if row.key E = "" then firstVoter s.db (hasEmail q.event (E.blindIndex (E.strip row.email) "email"))
  else s.memory.lookup (row.key E)

/-- A row that is looked up, with the constituency it names. -/
def lookedUp (E : Env) (places : List (String × ℕ)) (row : ImportRow) : Option (Option ℕ) :=
  match row.invalid E, placeOf E places row.constituency with
  | none, .ok place => some place
  | _, _ => none

/-- One row, against who it finds. -/
def rowStep (E : Env) (q : ImportRequest) (ev : EventRow) (places : List (String × ℕ)) (number : ℕ) (row : ImportRow)
    (s : Progress) : Progress :=
  match lookedUp E places row with
  | none => s
  | some place =>
    match found E q row s with
    | some (pk, v) =>
      if v.status = .VOTED then s
      else
        let v' := row.onto E place v (q.now 0)
        ⟨s.db.set (.voter pk) (some v'), remember (row.key E) pk v' s.memory⟩
    | none =>
      let pk := (q.draw number).pk
      let v := row.created E q ev number place
      if free s.db pk v then ⟨s.db.apply (insertWrites pk v), remember (row.key E) pk v s.memory⟩ else s

/-- The rows, numbered from `number`. -/
def rowSteps (E : Env) (q : ImportRequest) (ev : EventRow) (places : List (String × ℕ)) :
    List ImportRow → ℕ → Progress → Progress
  | [], _, s => s
  | row :: rows, number, s => rowSteps E q ev places rows (number + 1) (rowStep E q ev places number row s)

section Equations

variable {number : ℕ} {row : ImportRow} {s : Progress} {place : Option ℕ}

theorem found_email (h : row.key E = "") :
    found E q row s = firstVoter s.db (hasEmail q.event (E.blindIndex (E.strip row.email) "email")) := if_pos h

theorem found_key (h : row.key E ≠ "") : found E q row s = s.memory.lookup (row.key E) := if_neg h

theorem rowStep_none (h : lookedUp E places row = none) : rowStep E q ev places number row s = s := by
  unfold rowStep
  rw [h]

theorem rowStep_found (h : lookedUp E places row = some place) {pk : ℕ} {v : VoterRow}
    (hfound : found E q row s = some (pk, v)) :
    rowStep E q ev places number row s =
      if v.status = .VOTED then s
      else ⟨s.db.set (.voter pk) (some (row.onto E place v (q.now 0))),
        remember (row.key E) pk (row.onto E place v (q.now 0)) s.memory⟩ := by
  unfold rowStep
  rw [h]
  dsimp only
  rw [hfound]

theorem rowStep_new (h : lookedUp E places row = some place) (hfound : found E q row s = none) :
    rowStep E q ev places number row s =
      if free s.db (q.draw number).pk (row.created E q ev number place) then
        ⟨s.db.apply (insertWrites (q.draw number).pk (row.created E q ev number place)),
          remember (row.key E) (q.draw number).pk (row.created E q ev number place) s.memory⟩
      else s := by
  unfold rowStep
  rw [h]
  dsimp only
  rw [hfound]

end Equations

theorem rowSteps_append : ∀ (rows rows' : List ImportRow) (number : ℕ) (s : Progress),
    rowSteps E q ev places (rows ++ rows') number s =
      rowSteps E q ev places rows' (number + rows.length) (rowSteps E q ev places rows number s)
  | [], _, _, _ => rfl
  | row :: rows, rows', number, s => by
    rw [List.cons_append, rowSteps, rowSteps, rowSteps_append rows, List.length_cons, Nat.add_right_comm, Nat.add_assoc]

/-! ### Looking a voter up -/

/-- The first voter is the one with the least id. -/
theorem firstVoter_eq_some {db : Database} {p : VoterRow → Bool} {pk : ℕ} {v : VoterRow} :
    firstVoter db p = some (pk, v) ↔ db.row (.voter pk) = some v ∧ p v = true ∧
      ∀ pk' v', db.row (.voter pk') = some v' → p v' = true → pk ≤ pk' := by
  have hleast : ∀ {pk v}, firstVoter db p = some (pk, v) → ∀ pk' v', db.row (.voter pk') = some v' → p v' = true →
      pk ≤ pk' := by
    intro pk v h pk' v' hrow hp
    unfold firstVoter at h
    set l := (db.collect fun
      | .voter pk => fun v => if p v then some (pk, v) else none
      | _ => fun _ => none).insertionSort fun a b => a.1 ≤ b.1 with hl
    have hsorted : l.Pairwise fun a b => a.1 ≤ b.1 := by
      have htotal : Std.Total fun a b : ℕ × VoterRow => a.1 ≤ b.1 := ⟨fun a b => le_total a.1 b.1⟩
      have htrans : IsTrans (ℕ × VoterRow) fun a b => a.1 ≤ b.1 := ⟨fun _ _ _ => le_trans⟩
      exact List.pairwise_insertionSort _ _
    have hmem : (pk', v') ∈ l := by
      rw [hl, List.mem_insertionSort, Db.mem_collect]
      exact ⟨.voter pk', v', hrow, by simp [hp]⟩
    obtain ⟨rest, hrest⟩ : ∃ rest, l = (pk, v) :: rest := List.head?_eq_some_iff.mp h
    rw [hrest] at hsorted hmem
    rcases List.mem_cons.mp hmem with he | hmem
    · exact le_of_eq (Prod.ext_iff.mp he).1.symm
    · exact (List.pairwise_cons.mp hsorted).1 _ hmem
  constructor
  · exact fun h => ⟨(firstVoter_row h).1, (firstVoter_row h).2, hleast h⟩
  · rintro ⟨hrow, hp, hmin⟩
    cases hfirst : firstVoter db p with
    | none =>
      rw [firstVoter_none hfirst hrow] at hp
      cases hp
    | some x =>
      obtain ⟨pk', v'⟩ := x
      obtain ⟨hrow', hp'⟩ := firstVoter_row hfirst
      have hpk : pk' = pk := le_antisymm (hleast hfirst pk v hrow hp) (hmin pk' v' hrow' hp')
      subst hpk
      rw [hrow] at hrow'
      cases hrow'
      rfl

theorem firstVoter_eq_none {db : Database} {p : VoterRow → Bool} :
    firstVoter db p = none ↔ ∀ pk v, db.row (.voter pk) = some v → p v = false := by
  constructor
  · exact fun h pk v hrow => firstVoter_none h hrow
  · intro h
    cases hfirst : firstVoter db p with
    | none => rfl
    | some x =>
      obtain ⟨hrow, hp⟩ := firstVoter_row (show firstVoter db p = some (x.1, x.2) from hfirst)
      rw [h x.1 x.2 hrow] at hp
      cases hp

/-- Rolls with the same rows have the same first voter. -/
theorem firstVoter_congr {db db' : Database} (h : ∀ pk, db'.row (.voter pk) = db.row (.voter pk)) (p : VoterRow → Bool) :
    firstVoter db' p = firstVoter db p := by
  cases hfirst : firstVoter db p with
  | none =>
    rw [firstVoter_eq_none] at hfirst ⊢
    exact fun pk v hrow => hfirst pk v (by rw [← h, hrow])
  | some x =>
    obtain ⟨hrow, hp, hmin⟩ := firstVoter_eq_some.mp (show firstVoter db p = some (x.1, x.2) from hfirst)
    exact firstVoter_eq_some.mpr ⟨by rw [h, hrow], hp, fun pk' v' hrow' => hmin pk' v' (by rw [← h, hrow'])⟩

/-! ### The voters in memory -/

theorem lookup_cons_self {key : String} {x : ℕ × VoterRow} {memory : Existing} :
    List.lookup key ((key, x) :: memory) = some x := by
  rw [List.lookup_cons, beq_self_eq_true]

theorem lookup_cons_ne {key key' : String} (h : key ≠ key') {x : ℕ × VoterRow} {memory : Existing} :
    List.lookup key ((key', x) :: memory) = memory.lookup key := by
  rw [List.lookup_cons, beq_false_of_ne h]

theorem lookup_remember {key key' : String} {pk : ℕ} {v : VoterRow} {memory : Existing} (hkey : key ≠ "") :
    (remember key pk v memory).lookup key' = if key' = key then some (pk, v) else memory.lookup key' := by
  unfold remember
  rw [if_neg hkey]
  by_cases h : key' = key
  · rw [if_pos h, h, lookup_cons_self]
  · rw [if_neg h, lookup_cons_ne h]

theorem lookup_remember_empty {key : String} {pk : ℕ} {v : VoterRow} {memory : Existing} :
    (remember "" pk v memory).lookup key = memory.lookup key := rfl

/-- The columns that no row of an import changes. -/
def fixed (v : VoterRow) : VoterRow :=
  { v with fullName := "", email := none, emailIndex := "", phone := none, phoneIndex := "", constituency := none,
           attributes := [], updatedAt := 0 }

@[simp] theorem fixed_onto (row : ImportRow) (place : Option ℕ) (v : VoterRow) (now : Time) :
    fixed (row.onto E place v now) = fixed v := by
  unfold ImportRow.onto setEmail setPhone fixed
  dsimp only
  split_ifs <;> rfl

theorem status_of_fixed {v v' : VoterRow} (h : fixed v = fixed v') : v.status = v'.status :=
  show (fixed v).status = (fixed v').status from congrArg VoterRow.status h

theorem election_of_fixed {v v' : VoterRow} (h : fixed v = fixed v') : v.election = v'.election :=
  show (fixed v).election = (fixed v').election from congrArg VoterRow.election h

theorem identifier_of_fixed {v v' : VoterRow} (h : fixed v = fixed v') : v.identifier = v'.identifier :=
  show (fixed v).identifier = (fixed v').identifier from congrArg VoterRow.identifier h

theorem created_keys (row : ImportRow) (q : ImportRequest) (ev : EventRow) (n : ℕ) (place : Option ℕ) :
    (row.created E q ev n place).election = q.event ∧
      (row.created E q ev n place).identifier = if row.key E = "" then none else some (row.key E) := by
  unfold ImportRow.created ImportRow.fresh setEmail setPhone issueCredential
  dsimp only
  split_ifs <;> exact ⟨rfl, rfl⟩

/-- Every identifier on the roll is kept by the unique constraint. -/
def Indexed (db : Database) : Prop :=
  ∀ pk v i, db.row (.voter pk) = some v → v.identifier = some i → db.row (.identifier v.election i) = some pk

/-- In an import for the election `e`: the voters in memory are those of the
roll, in the columns that no row changes. -/
structure Standing (e : ℕ) (s : Progress) : Prop where
  indexed : Indexed s.db
  stored : ∀ key pk v, s.memory.lookup key = some (pk, v) →
    ∃ v', s.db.row (.voter pk) = some v' ∧ v'.election = e ∧ v'.identifier = some key ∧ fixed v = fixed v'
  known : ∀ pk v key, s.db.row (.voter pk) = some v → v.election = e → v.identifier = some key →
    ∃ v', s.memory.lookup key = some (pk, v')

section Standing

variable {e : ℕ} {s : Progress}

/-- A voter's identifier is the voter's alone. -/
theorem Indexed.unique {db : Database} (h : Indexed db) {pk pk' : ℕ} {v v' : VoterRow} {i : String}
    (hrow : db.row (.voter pk) = some v) (hrow' : db.row (.voter pk') = some v') (hv : v.identifier = some i)
    (hv' : v'.identifier = some i) (he : v.election = v'.election) : pk = pk' := by
  have hpk := h pk v i hrow hv
  rw [he, h pk' v' i hrow' hv'] at hpk
  exact (Option.some.inj hpk).symm

theorem Indexed.congr {db db' : Database} (h : Indexed db) (hsame : ∀ k, isAudit k = false → db'.row k = db.row k) :
    Indexed db' := by
  intro pk v i hrow hv
  rw [hsame _ rfl] at hrow ⊢
  exact h pk v i hrow hv

theorem lookup_of_mem {memory : Existing} {key : String} {x : ℕ × VoterRow} (hmem : (key, x) ∈ memory)
    (hall : ∀ y, (key, y) ∈ memory → y = x) : memory.lookup key = some x := by
  induction memory with
  | nil => cases hmem
  | cons entry memory ih =>
    obtain ⟨key', y⟩ := entry
    by_cases h : key = key'
    · subst h
      rw [lookup_cons_self, hall y List.mem_cons_self]
    · rw [lookup_cons_ne h]
      refine ih ?_ fun y hy => hall y (List.mem_cons_of_mem _ hy)
      rcases List.mem_cons.mp hmem with heq | hmem
      · exact absurd (Prod.ext_iff.mp heq).1 h
      · exact hmem

theorem mem_existingOf_iff {db : Database} {key : String} {pk : ℕ} {v : VoterRow} :
    (key, pk, v) ∈ existingOf db e ↔ db.row (.voter pk) = some v ∧ v.election = e ∧ v.identifier = some key := by
  rw [existingOf, Db.mem_collect]
  constructor
  · rintro ⟨k, r, hr, hx⟩
    cases k with
    | voter n =>
      simp only [Option.ite_none_right_eq_some, Option.map_eq_some_iff, Prod.mk.injEq] at hx
      obtain ⟨he, i, hi, rfl, rfl, rfl⟩ := hx
      exact ⟨hr, he, hi⟩
    | _ => simp at hx
  · rintro ⟨hr, he, hi⟩
    exact ⟨.voter pk, v, hr, by simp [he, hi]⟩

/-- What an import has in memory when it begins. -/
theorem lookup_existingOf {db : Database} (h : Indexed db) {key : String} {pk : ℕ} {v : VoterRow} :
    (existingOf db e).lookup key = some (pk, v) ↔
      db.row (.voter pk) = some v ∧ v.election = e ∧ v.identifier = some key := by
  rw [← mem_existingOf_iff]
  constructor
  · exact mem_of_lookup
  · intro hmem
    refine lookup_of_mem hmem fun y hy => ?_
    obtain ⟨hr, he, hi⟩ := mem_existingOf_iff.mp hmem
    obtain ⟨hr', he', hi'⟩ := mem_existingOf_iff.mp (show (key, y.1, y.2) ∈ existingOf db e from hy)
    have hpk := h.unique hr' hr hi' hi (he'.trans he.symm)
    rw [hpk, hr] at hr'
    exact Prod.ext hpk (Option.some.inj hr').symm

/-- An import begins with the voters of the roll in memory. -/
theorem Standing.begin {db : Database} (h : Indexed db) : Standing e ⟨db, existingOf db e⟩ where
  indexed := h
  stored := fun _ _ v hlook => ⟨v, (lookup_existingOf h).mp hlook |>.1, ((lookup_existingOf h).mp hlook).2.1,
    ((lookup_existingOf h).mp hlook).2.2, rfl⟩
  known := fun _ v _ hrow he hi => ⟨v, (lookup_existingOf h).mpr ⟨hrow, he, hi⟩⟩

/-- A stored voter is saved with other values in columns that rows change. -/
theorem Standing.save (h : Standing e s) {pk : ℕ} {v v' : VoterRow} (hrow : s.db.row (.voter pk) = some v)
    (hfixed : fixed v' = fixed v) : Standing e ⟨s.db.set (.voter pk) (some v'), s.memory⟩ := by
  -- who is on the roll, and under what identifier, stays
  have hback : ∀ {pk₁ v₁}, (s.db.set (.voter pk) (some v')).row (.voter pk₁) = some v₁ →
      ∃ v₂, s.db.row (.voter pk₁) = some v₂ ∧ fixed v₁ = fixed v₂ := by
    intro pk₁ v₁ hrow₁
    by_cases hpk : pk₁ = pk
    · subst hpk
      rw [Db.set_row_self] at hrow₁
      cases hrow₁
      exact ⟨v, hrow, hfixed⟩
    · rw [Db.set_row_ne _ _ (by simpa using hpk)] at hrow₁
      exact ⟨v₁, hrow₁, rfl⟩
  refine ⟨fun pk₁ v₁ i hrow₁ hi => ?_, fun key pk₁ v₁ hlook => ?_, fun pk₁ v₁ key hrow₁ he hi => ?_⟩
  · obtain ⟨v₂, hrow₂, hf⟩ := hback hrow₁
    rw [Db.set_row_ne _ _ (by simp), election_of_fixed hf]
    exact h.indexed pk₁ v₂ i hrow₂ ((identifier_of_fixed hf).symm.trans hi)
  · obtain ⟨v₂, hrow₂, he, hi, hf⟩ := h.stored key pk₁ v₁ hlook
    by_cases hpk : pk₁ = pk
    · subst hpk
      rw [hrow] at hrow₂
      cases hrow₂
      exact ⟨v', Db.set_row_self .., (election_of_fixed hfixed).trans he, (identifier_of_fixed hfixed).trans hi,
        hf.trans hfixed.symm⟩
    · exact ⟨v₂, (Db.set_row_ne _ _ (by simpa using hpk)).trans hrow₂, he, hi, hf⟩
  · obtain ⟨v₂, hrow₂, hf⟩ := hback hrow₁
    exact h.known pk₁ v₂ key hrow₂ ((election_of_fixed hf).symm.trans he) ((identifier_of_fixed hf).symm.trans hi)

/-- A stored voter is kept in memory. -/
theorem Standing.remember (h : Standing e s) {key : String} {pk : ℕ} {v v' : VoterRow}
    (hrow : s.db.row (.voter pk) = some v) (he : v.election = e) (hi : v.identifier = some key)
    (hfixed : fixed v' = fixed v) : Standing e ⟨s.db, remember key pk v' s.memory⟩ := by
  by_cases hkey : key = ""
  · subst hkey
    exact h
  refine ⟨h.indexed, fun key₁ pk₁ v₁ hlook => ?_, fun pk₁ v₁ key₁ hrow₁ he₁ hi₁ => ?_⟩
  · rw [lookup_remember hkey] at hlook
    split_ifs at hlook with hk
    · cases hlook
      exact ⟨v, hrow, he, hk ▸ hi, hfixed⟩
    · exact h.stored key₁ pk₁ v₁ hlook
  · dsimp only
    rw [lookup_remember hkey]
    split_ifs with hk
    · rw [hk] at hi₁
      exact ⟨v', by rw [h.indexed.unique hrow₁ hrow hi₁ hi (he₁.trans he.symm)]⟩
    · exact h.known pk₁ v₁ key₁ hrow₁ he₁ hi₁

end Standing

/-! ### One row keeps the standing -/

theorem insertWrites_voter {db : Database} {pk pk' : ℕ} {v : VoterRow} :
    (db.apply (insertWrites pk v)).row (.voter pk') = if pk' = pk then some v else db.row (.voter pk') := by
  unfold insertWrites
  by_cases hpk : pk' = pk
  · subst hpk
    cases v.credentialHash <;> cases v.identifier <;> simp
  · cases v.credentialHash <;> cases v.identifier <;> simp [hpk]

theorem insertWrites_identifier {db : Database} {pk e : ℕ} {i : String} {v : VoterRow} :
    (db.apply (insertWrites pk v)).row (.identifier e i) =
      if e = v.election ∧ v.identifier = some i then some pk else db.row (.identifier e i) := by
  unfold insertWrites
  cases v.identifier with
  | none => cases v.credentialHash <;> simp
  | some j =>
    by_cases h : e = v.election ∧ j = i
    · obtain ⟨rfl, rfl⟩ := h
      cases v.credentialHash <;> simp
    · have hkey : ¬ Key.identifier e i = .identifier v.election j := fun heq => by
        cases heq
        exact h ⟨rfl, rfl⟩
      rw [if_neg (by simpa using h)]
      cases v.credentialHash <;> simp [Db.set_row_ne _ _ hkey]

theorem insertWrites_other {db : Database} {pk : ℕ} {v : VoterRow} {k : Key} (h : k ∉ rowsOf pk v) :
    (db.apply (insertWrites pk v)).row k = db.row k := by
  refine Db.apply_row_of_notMem db k _ fun x hx heq => h ?_
  subst heq
  unfold insertWrites at hx
  unfold rowsOf
  cases hc : v.credentialHash <;> cases hi : v.identifier <;> simp [hc, hi] at hx ⊢ <;> aesop

theorem row_of_free {db : Database} {pk : ℕ} {v : VoterRow} (h : free db pk v = true) {k : Key} (hk : k ∈ rowsOf pk v) :
    db.row k = none :=
  Option.isNone_iff_eq_none.mp (List.all_eq_true.mp h k hk)

theorem onRoll_of_mem {pk : ℕ} {v : VoterRow} {k : Key} (h : k ∈ rowsOf pk v) : onRoll k = true := by
  simp only [rowsOf, List.mem_cons, List.mem_append, Option.mem_toList, Option.map_eq_some_iff] at h
  rcases h with rfl | ⟨_, -, rfl⟩ | ⟨_, -, rfl⟩ <;> rfl

theorem insertWrites_only (pk : ℕ) (v : VoterRow) : Db.Only onRoll (insertWrites pk v) := by
  intro x hx
  simp only [insertWrites, List.mem_append, Option.mem_toList, Option.map_eq_some_iff, List.mem_singleton] at hx
  rcases hx with (⟨_, -, rfl⟩ | ⟨_, -, rfl⟩) | rfl <;> rfl

theorem identifier_mem {pk : ℕ} {v : VoterRow} {i : String} (h : v.identifier = some i) :
    Key.identifier v.election i ∈ rowsOf pk v := by simp [rowsOf, h]

variable {e : ℕ} {s : Progress}

/-- A new voter is inserted and kept in memory. -/
theorem Standing.insert (h : Standing e s) {key : String} {pk : ℕ} {v : VoterRow} (hfree : free s.db pk v = true)
    (he : v.election = e) (hi : v.identifier = if key = "" then none else some key) :
    Standing e ⟨s.db.apply (insertWrites pk v), Imports.remember key pk v s.memory⟩ := by
  have hnew : s.db.row (.voter pk) = none := row_of_free hfree List.mem_cons_self
  -- nobody else has the identifier
  have hother : ∀ {pk₁ v₁ i}, s.db.row (.voter pk₁) = some v₁ → v₁.election = e → v₁.identifier = some i →
      v.identifier ≠ some i := by
    intro pk₁ v₁ i hrow₁ he₁ hi₁ hsame
    have hnone := row_of_free hfree (identifier_mem hsame)
    rw [he, ← he₁, h.indexed pk₁ v₁ i hrow₁ hi₁] at hnone
    cases hnone
  refine ⟨fun pk₁ v₁ i hrow₁ hi₁ => ?_, fun key₁ pk₁ v₁ hlook => ?_, fun pk₁ v₁ key₁ hrow₁ he₁ hi₁ => ?_⟩
  · rw [insertWrites_voter] at hrow₁
    rw [insertWrites_identifier]
    split_ifs at hrow₁ with hpk
    · cases hrow₁
      rw [if_pos ⟨rfl, hi₁⟩, hpk]
    · rw [if_neg fun hsame => hother hrow₁ (hsame.1.trans he) hi₁ hsame.2]
      exact h.indexed pk₁ v₁ i hrow₁ hi₁
  · have hold : s.memory.lookup key₁ = some (pk₁, v₁) → ∃ v', (s.db.apply (insertWrites pk v)).row (.voter pk₁) = some v' ∧
        v'.election = e ∧ v'.identifier = some key₁ ∧ fixed v₁ = fixed v' := by
      intro hlook
      obtain ⟨v', hrow', hv'⟩ := h.stored key₁ pk₁ v₁ hlook
      refine ⟨v', ?_, hv'⟩
      rw [insertWrites_voter, if_neg, hrow']
      rintro rfl
      rw [hnew] at hrow'
      cases hrow'
    by_cases hkey : key = ""
    · subst hkey
      exact hold hlook
    · dsimp only at hlook
      rw [lookup_remember hkey] at hlook
      split_ifs at hlook with hk
      · cases hlook
        rw [if_neg hkey, ← hk] at hi
        exact ⟨v, by rw [insertWrites_voter, if_pos rfl], he, hi, rfl⟩
      · exact hold hlook
  · rw [insertWrites_voter] at hrow₁
    split_ifs at hrow₁ with hpk
    · cases hrow₁
      rw [hi₁] at hi
      split_ifs at hi with hkey
      cases hi
      exact ⟨v, by dsimp only; rw [lookup_remember hkey, if_pos rfl, hpk]⟩
    · obtain ⟨v', hlook⟩ := h.known pk₁ v₁ key₁ hrow₁ he₁ hi₁
      refine ⟨v', ?_⟩
      by_cases hkey : key = ""
      · subst hkey
        exact hlook
      · dsimp only
        rw [lookup_remember hkey, if_neg, hlook]
        intro hk
        rw [if_neg hkey, ← hk] at hi
        exact hother hrow₁ he₁ hi₁ hi

/-- A row is skipped, or saves who it finds, or inserts a new voter. -/
inductive Stepped (E : Env) (q : ImportRequest) (ev : EventRow) (places : List (String × ℕ)) (number : ℕ)
    (row : ImportRow) (s : Progress) : Progress → Prop
  | skipped : Stepped E q ev places number row s s
  | saved {place : Option ℕ} {pk : ℕ} {v : VoterRow} (hplace : lookedUp E places row = some place)
      (hfound : found E q row s = some (pk, v)) (hvoted : v.status ≠ .VOTED) :
      Stepped E q ev places number row s ⟨s.db.set (.voter pk) (some (row.onto E place v (q.now 0))),
        remember (row.key E) pk (row.onto E place v (q.now 0)) s.memory⟩
  | inserted {place : Option ℕ} (hplace : lookedUp E places row = some place) (hfound : found E q row s = none)
      (hfree : free s.db (q.draw number).pk (row.created E q ev number place) = true) :
      Stepped E q ev places number row s ⟨s.db.apply (insertWrites (q.draw number).pk (row.created E q ev number place)),
        remember (row.key E) (q.draw number).pk (row.created E q ev number place) s.memory⟩

theorem rowStep_stepped (number : ℕ) (row : ImportRow) (s : Progress) :
    Stepped E q ev places number row s (rowStep E q ev places number row s) := by
  cases hplace : lookedUp E places row with
  | none =>
    rw [rowStep_none hplace]
    exact .skipped
  | some place =>
    cases hfound : found E q row s with
    | none =>
      rw [rowStep_new hplace hfound]
      split_ifs with hfree
      · exact .inserted hplace hfound hfree
      · exact .skipped
    | some x =>
      rw [rowStep_found hplace (hfound.trans rfl)]
      split_ifs with hvoted
      · exact .skipped
      · exact .saved hplace hfound hvoted

/-- The voters in memory under other identifiers stay. -/
theorem rowStep_lookup {number : ℕ} {row : ImportRow} {s : Progress} {key : String} (h : row.key E ≠ key) :
    (rowStep E q ev places number row s).memory.lookup key = s.memory.lookup key := by
  have hremember : ∀ pk v, (Imports.remember (row.key E) pk v s.memory).lookup key = s.memory.lookup key := by
    intro pk v
    by_cases hkey : row.key E = ""
    · rw [hkey, lookup_remember_empty]
    · rw [lookup_remember hkey, if_neg h.symm]
  have hstep : Stepped E q ev places number row s (rowStep E q ev places number row s) := rowStep_stepped number row s
  generalize rowStep E q ev places number row s = s' at hstep ⊢
  cases hstep with
  | skipped => rfl
  | saved => exact hremember _ _
  | inserted => exact hremember _ _

/-- Who a row finds is stored, under the row's identifier if it has one. -/
theorem Standing.found (h : Standing q.event s) {row : ImportRow} {pk : ℕ} {v : VoterRow}
    (hfound : Imports.found E q row s = some (pk, v)) : ∃ v', s.db.row (.voter pk) = some v' ∧ v'.election = q.event ∧
      fixed v = fixed v' ∧ (row.key E ≠ "" → v'.identifier = some (row.key E)) := by
  unfold Imports.found at hfound
  split_ifs at hfound with hkey
  · obtain ⟨hrow, hp⟩ := firstVoter_row hfound
    have he : v.election = q.event := of_decide_eq_true (Bool.and_eq_true_iff.mp hp).1
    exact ⟨v, hrow, he, rfl, fun h => absurd hkey h⟩
  · obtain ⟨v', hrow, he, hi, hf⟩ := h.stored _ pk v hfound
    exact ⟨v', hrow, he, hf, fun _ => hi⟩

/-- **A row keeps the standing.** -/
theorem Standing.rowStep (h : Standing q.event s) (number : ℕ) (row : ImportRow) :
    Standing q.event (rowStep E q ev places number row s) := by
  have hstep : Stepped E q ev places number row s (Imports.rowStep E q ev places number row s) :=
    rowStep_stepped number row s
  generalize Imports.rowStep E q ev places number row s = s' at hstep ⊢
  cases hstep with
  | skipped => exact h
  | @saved place pk v hplace hfound hvoted =>
    obtain ⟨v', hrow, he, hfixed, hi⟩ := h.found hfound
    have hfixed' := (fixed_onto (E := E) row place v (q.now 0)).trans hfixed
    have hsave := h.save hrow hfixed'
    by_cases hkey : row.key E = ""
    · rw [hkey]
      exact hsave
    · exact hsave.remember (Db.set_row_self ..) ((election_of_fixed hfixed').trans he)
        ((identifier_of_fixed hfixed').trans (hi hkey)) rfl
  | inserted hplace hfound hfree =>
    obtain ⟨he, hi⟩ := created_keys (E := E) row q ev number _
    exact h.insert hfree he hi

theorem Standing.rowSteps : ∀ (rows : List ImportRow) (number : ℕ) {s : Progress}, Standing q.event s →
    Standing q.event (Imports.rowSteps E q ev places rows number s)
  | [], _, _, h => h
  | row :: rows, number, _, h => Standing.rowSteps rows (number + 1) (h.rowStep number row)

/-! ### The program of an import -/

section Program

variable {fail : Program} {k : ImportReport → Program} {db : Database} {w : Writes Row} {log : List Note}

theorem noteSeen_exec {pk : ℕ} {v : VoterRow} (p : Program) :
    ∃ log', (noteSeen pk v p).exec db w log = p.exec db w log' := by
  unfold noteSeen
  split
  · exact ⟨log, rfl⟩
  · exact ⟨_, Prog.exec_note⟩

/-- A free code is inserted, if the voter has one. -/
theorem insertCredential_exec {pk : ℕ} {v : VoterRow} {p : Program} (h : free (db.apply w) pk v = true) (undo : Program)
    (w' : Writes Row)
    (hsame : ∀ x, (db.apply w').row (.credential v.election x) = (db.apply w).row (.credential v.election x)) :
    (match v.credentialHash with
        | none => p
        | some c => .insert (.credential v.election c) pk fun
          | true => p
          | false => undo : Program).exec db w' log =
      p.exec db ((v.credentialHash.map fun h => ⟨.credential v.election h, some pk⟩).toList ++ w') log := by
  cases hc : v.credentialHash with
  | none => rfl
  | some c =>
    refine Prog.exec_insert ?_
    rw [hsame]
    exact row_of_free h (by simp [rowsOf, hc])

/-- **An insert under free keys** writes the voter and its keys. -/
theorem insertVoter_exec {pk : ℕ} {v : VoterRow} {taken p : Program} (h : free (db.apply w) pk v = true) :
    (insertVoter pk v taken p).exec db w log = p.exec db (insertWrites pk v ++ w) log := by
  have hvoter := row_of_free h List.mem_cons_self
  unfold insertVoter insertWrites
  rw [Prog.exec_insert hvoter]
  dsimp only
  cases hi : v.identifier with
  | none =>
    refine (insertCredential_exec h _ _ fun x => by simp).trans ?_
    simp
  | some i =>
    have hidentifier := row_of_free h (identifier_mem hi)
    refine (Prog.exec_insert (by simpa using hidentifier)).trans ?_
    refine (insertCredential_exec h _ _ fun x => by simp).trans ?_
    simp

/-- Under a taken key nothing comes of it. -/
theorem insertVoter_exec_taken {pk : ℕ} {v : VoterRow} {taken p : Program} (h : free (db.apply w) pk v = false) :
    ∃ u, Db.Only onRoll u ∧ (∀ x, (db.apply (u ++ w)).row x = (db.apply w).row x) ∧
      (insertVoter pk v taken p).exec db w log = taken.exec db (u ++ w) log := by
  unfold insertVoter
  by_cases hvoter : (db.apply w).row (.voter pk) = none
  swap
  · exact ⟨[], .nil, fun _ => rfl, Prog.exec_insert_taken hvoter⟩
  rw [Prog.exec_insert hvoter]
  -- the voter's own row is taken back
  have hundone : Db.Only onRoll ([⟨.voter pk, none⟩, ⟨.voter pk, some v⟩] : Writes Row) := .cons rfl (.cons rfl .nil)
  have hundo : ∀ x, (db.apply (⟨.voter pk, none⟩ :: ⟨.voter pk, some v⟩ :: w)).row x = (db.apply w).row x := by
    intro x
    by_cases hx : x = .voter pk
    · subst hx
      rw [Db.apply_cons, Db.set_row_self, hvoter]
    · rw [Db.apply_cons, Db.apply_cons, Db.set_row_ne _ _ hx, Db.set_row_ne _ _ hx]
  obtain ⟨x, hx, htaken⟩ : ∃ x ∈ rowsOf pk v, (db.apply w).row x ≠ none := by
    obtain ⟨x, hx, htaken⟩ := List.all_eq_false.mp h
    exact ⟨x, hx, fun hnone => htaken (Option.isNone_iff_eq_none.mpr hnone)⟩
  unfold rowsOf at hx
  rcases List.mem_cons.mp hx with rfl | hx
  · exact absurd hvoter htaken
  dsimp only
  cases hi : v.identifier with
  | none =>
    cases hc : v.credentialHash with
    | none => simp [hi, hc] at hx
    | some c =>
      obtain rfl : x = .credential v.election c := by simpa [hi, hc] using hx
      exact ⟨[⟨.voter pk, none⟩, ⟨.voter pk, some v⟩], hundone, hundo, Prog.exec_insert_taken (by simpa using htaken)⟩
  | some i =>
    by_cases hidentifier : (db.apply w).row (.identifier v.election i) = none
    swap
    · exact ⟨[⟨.voter pk, none⟩, ⟨.voter pk, some v⟩], hundone, hundo,
        Prog.exec_insert_taken (by simpa using hidentifier)⟩
    dsimp only
    rw [Prog.exec_insert (by simpa using hidentifier)]
    cases hc : v.credentialHash with
    | none =>
      obtain rfl : x = .identifier v.election i := by simpa [hi, hc] using hx
      exact absurd hidentifier htaken
    | some c =>
      rcases (by simpa [hi, hc] using hx : x = .identifier v.election i ∨ x = .credential v.election c) with rfl | rfl
      · exact absurd hidentifier htaken
      refine ⟨[⟨.voter pk, none⟩, ⟨.identifier v.election i, none⟩, ⟨.identifier v.election i, some pk⟩,
        ⟨.voter pk, some v⟩], .cons rfl (.cons rfl (.cons rfl (.cons rfl .nil))), fun y => ?_,
        Prog.exec_insert_taken (by simpa using htaken)⟩
      by_cases hy : y = .identifier v.election i
      · subst hy
        simp [hidentifier]
      · rw [← hundo y]
        by_cases hy' : y = .voter pk
        · subst hy'
          simp
        · simp [Db.set_row_ne, hy, hy']

/-- One row of `importRows`, and `next` with the voters in memory and the report
after it. -/
def rowProgram (E : Env) (q : ImportRequest) (ev : EventRow) (places : List (String × ℕ)) (fail : Program)
    (next : Existing → ImportReport → Program) (number : ℕ) (row : ImportRow) (existing : Existing)
    (report : ImportReport) : Program :=
  match row.invalid E with
  | some message => next existing (report.error number message)
  | none =>
    match placeOf E places row.constituency with
    | .error _ => next existing (report.error number
        ("Unknown constituency \"" ++ truncate 60 row.constituency ++ "\"."))
    | .ok place =>
      let update (pk : ℕ) (v : VoterRow) : Program :=
        if v.status = .VOTED then next existing { report with skipped := report.skipped + 1 }
        else
          saveVoter pk (row.onto E place v (q.now 0)) fail <|
          next (remember (row.key E) pk (row.onto E place v (q.now 0)) existing) { report with updated := report.updated + 1 }
      let create : Program :=
        let v := row.created E q ev number place
        let report' := { report with codesIssued := report.codesIssued + if v.credentialHash.isSome then 1 else 0 }
        insertVoter (q.draw number).pk v
          (next existing (report'.error number "Duplicate voter ID or credential collision."))
          (next (remember (row.key E) (q.draw number).pk v existing) { report' with created := report'.created + 1 })
      if row.key E = "" then
        .read fun db =>
          match firstVoter db (hasEmail q.event (E.blindIndex (E.strip row.email) "email")) with
          | some (pk, v) => noteSeen pk v (update pk v)
          | none => create
      else
        match existing.lookup (row.key E) with
        | some (pk, v) => update pk v
        | none => create

theorem importRows_cons (number : ℕ) (row : ImportRow) (rows : List ImportRow) (existing : Existing)
    (report : ImportReport) : importRows E q ev places fail k (row :: rows) number existing report =
      rowProgram E q ev places fail (importRows E q ev places fail k rows (number + 1)) number row existing report := rfl

variable {next : Existing → ImportReport → Program}

/-- The program of a row has got as far as the row's step. -/
def Arrives (db : Database) (next : Existing → ImportReport → Program) (p : Program) (w : Writes Row) (log : List Note)
    (s : Progress) : Prop :=
  ∃ u report log', Db.Only onRoll u ∧ (∀ x, (db.apply (u ++ w)).row x = s.db.row x) ∧
    p.exec db w log = (next s.memory report).exec db (u ++ w) log'

/-- **One row**, as its program goes through it. -/
theorem rowProgram_exec {number : ℕ} {row : ImportRow} {s : Progress} {report : ImportReport} (hs : Standing q.event s)
    (hw : ∀ x, (db.apply w).row x = s.db.row x) :
    Arrives db next (rowProgram E q ev places fail next number row s.memory report) w log
      (Imports.rowStep E q ev places number row s) := by
  unfold rowProgram Imports.rowStep lookedUp
  cases row.invalid E with
  | some message => exact ⟨[], _, log, .nil, hw, rfl⟩
  | none =>
  cases placeOf E places row.constituency with
  | error _ => exact ⟨[], _, log, .nil, hw, rfl⟩
  | ok place =>
  dsimp only
  -- who is found is saved
  have hupdate : ∀ pk v log, Imports.found E q row s = some (pk, v) →
      Arrives db next (if v.status = .VOTED then next s.memory { report with skipped := report.skipped + 1 }
        else
          saveVoter pk (row.onto E place v (q.now 0)) fail <|
          next (remember (row.key E) pk (row.onto E place v (q.now 0)) s.memory)
            { report with updated := report.updated + 1 }) w log
        (if v.status = .VOTED then s
          else ⟨s.db.set (.voter pk) (some (row.onto E place v (q.now 0))),
            remember (row.key E) pk (row.onto E place v (q.now 0)) s.memory⟩) := by
    intro pk v log hfound
    split
    · exact ⟨[], _, log, .nil, hw, rfl⟩
    · obtain ⟨v', hrow, -⟩ := hs.found hfound
      refine ⟨[⟨.voter pk, some (row.onto E place v (q.now 0))⟩], _, log, .cons rfl .nil, fun x => ?_,
        Prog.exec_lockRow ((hw _).trans hrow)⟩
      exact Db.apply_row_congr (hw x) [⟨.voter pk, _⟩]
  -- who is not found is inserted
  have hcreate : ∀ (pk : ℕ) (v : VoterRow) (taken created : ImportReport),
      Arrives db next (insertVoter pk v (next s.memory taken) (next (remember (row.key E) pk v s.memory) created)) w log
        (if free s.db pk v then ⟨s.db.apply (insertWrites pk v), remember (row.key E) pk v s.memory⟩ else s) := by
    intro pk v taken created
    have hsame : free (db.apply w) pk v = free s.db pk v := by
      unfold free
      simp only [hw]
    cases hfree : free s.db pk v with
    | true =>
      rw [if_pos rfl]
      refine ⟨insertWrites pk v, _, log, insertWrites_only pk v, fun x => ?_, insertVoter_exec (hsame.trans hfree)⟩
      rw [Db.apply_append]
      exact Db.apply_row_congr (hw x) _
    | false =>
      rw [if_neg Bool.false_ne_true]
      obtain ⟨u, hu, hsame, hexec⟩ := insertVoter_exec_taken (hsame.trans hfree)
      exact ⟨u, _, log, hu, fun x => (hsame x).trans (hw x), hexec⟩
  by_cases hkey : row.key E = ""
  · have hfound : Imports.found E q row s =
        firstVoter (db.apply w) (hasEmail q.event (E.blindIndex (E.strip row.email) "email")) := by
      rw [found_email hkey, firstVoter_congr fun pk => hw _]
    rw [if_pos hkey]
    unfold Arrives
    rw [Prog.exec_read, ← hfound]
    cases hf : Imports.found E q row s with
    | none => exact hcreate _ _ _ _
    | some x =>
      obtain ⟨pk, v⟩ := x
      obtain ⟨log', hlog⟩ := noteSeen_exec _
      obtain ⟨u, report', log', hu, hw', hexec⟩ := hupdate pk v log' hf
      exact ⟨u, report', log', hu, hw', hlog.trans hexec⟩
  · rw [if_neg hkey, ← found_key hkey]
    cases hf : Imports.found E q row s with
    | none => exact hcreate _ _ _ _
    | some x => exact hupdate x.1 x.2 log hf

/-- **The rows of an import**, as its program goes through them. -/
theorem importRows_exec : ∀ (rows : List ImportRow) (number : ℕ) (s : Progress) (report : ImportReport) (w : Writes Row)
    (log : List Note), Standing q.event s → (∀ x, (db.apply w).row x = s.db.row x) →
      Arrives db (fun _ => k) (importRows E q ev places fail k rows number s.memory report) w log
        (Imports.rowSteps E q ev places rows number s)
  | [], _, _, report, w, log, _, hw => ⟨[], report, log, .nil, hw, rfl⟩
  | row :: rows, number, s, report, w, log, hs, hw => by
    obtain ⟨u, report', log', hu, hw', hexec⟩ : Arrives db (importRows E q ev places fail k rows (number + 1))
        (rowProgram E q ev places fail (importRows E q ev places fail k rows (number + 1)) number row s.memory report)
        w log (Imports.rowStep E q ev places number row s) := rowProgram_exec hs hw
    obtain ⟨u', report'', log'', hu', hw'', hexec'⟩ := importRows_exec rows (number + 1) _ report' (u ++ w) log'
      (hs.rowStep number row) hw'
    rw [← List.append_assoc] at hw'' hexec'
    exact ⟨u' ++ u, report'', log'', hu'.append hu, hw'',
      (importRows_cons number row rows s.memory report ▸ hexec).trans hexec'⟩

end Program

/-! ### An import alone -/

/-- The log has no entry after its head. -/
def HeadLast (db : Database) (chain : String) : Prop :=
  ∀ n, (headOf db chain).seq < n → db.row (.auditEvent chain n) = none

theorem HeadLast.congr {db db' : Database} {chain : String} (h : HeadLast db chain)
    (hsame : ∀ k, isAudit k = true → db'.row k = db.row k) : HeadLast db' chain := by
  unfold HeadLast headOf at h ⊢
  rw [hsame _ rfl]
  exact fun n hn => (hsame _ rfl).trans (h n hn)

/-- **Alone, recording** succeeds, and its entry is the last one. -/
theorem record_headLast {a : Entry} {db : Database} {fail k : Program} {w : Writes Row} {log : List Note}
    (h : HeadLast (db.apply w) (chainFor a.organizationId)) :
    ∃ u, Db.Only isAudit u ∧ (record E a fail k).exec db w log = k.exec db (u ++ w) log ∧
      HeadLast (db.apply (u ++ w)) (chainFor a.organizationId) := by
  set chain := chainFor a.organizationId with hchain
  obtain ⟨u, hu, hexec, hsame⟩ := headForUpdate_exec db w log fail fun head =>
    .insertOr (.auditEvent chain (head.seq + 1)) (a.row E chain (head.seq + 1) head.lastHash) fail <|
    .put (.auditHead chain) (some { seq := head.seq + 1, lastHash := (a.row E chain (head.seq + 1) head.lastHash).hash }) k
  rw [Prog.exec_insertOr ((hsame _ (by simp)).trans (h _ (Nat.lt_succ_self _))), Prog.exec_put] at hexec
  refine ⟨⟨.auditHead _, _⟩ :: ⟨.auditEvent _ _, _⟩ :: u, .cons rfl (.cons rfl hu), hexec, fun n hn => ?_⟩
  have hseq : (headOf (db.apply w) chain).seq + 1 < n := by
    unfold headOf at hn
    rwa [List.cons_append, Db.apply_cons, Db.set_row_self] at hn
  have hne : n ≠ (headOf (db.apply w) chain).seq + 1 := hseq.ne'
  rw [List.cons_append, List.cons_append, Db.apply_cons, Db.set_row_ne _ _ (by simp), Db.apply_cons,
    Db.set_row_ne _ _ (by simpa using hne), hsame _ (by simp)]
  exact h n (Nat.lt_of_succ_lt hseq)

/-- Where an import stands before its first row. -/
def begun (q : ImportRequest) (db : Database) : Progress := ⟨db, existingOf db q.event⟩

/-- Where an import stands after its last row. -/
def ended (E : Env) (q : ImportRequest) (ev : EventRow) (db : Database) : Progress :=
  rowSteps E q ev (constituencyLookup E db ev) q.rows 2 (begun q db)

/-- The plan allows so many more voters. -/
def WithinPlan (q : ImportRequest) (ev : EventRow) (db : Database) (additional : ℕ) : Prop :=
  ev.organization.isNone = true ∨ ∀ n ∈ q.planLimit, db.count (voterOf q.event) + additional ≤ n

/-- `import_voters` does not refuse a request. -/
structure Accepted (q : ImportRequest) (ev : EventRow) (db : Database) : Prop where
  allowed : permitted q.actor "voter.import" q.event = true
  unlocked : rollLocked ev = none
  plan : WithinPlan q ev db q.rows.length

/-- The database after an import, alone. -/
def imported (E : Env) (q : ImportRequest) (ev : EventRow) (db : Database) : Database :=
  (importVoters E q ev fun _ => .halt).after db

theorem checkPlanLimit_exec {n : ℕ} {exceeded p : Program} {db : Database} {log : List Note}
    (h : WithinPlan q ev db n) :
    (checkPlanLimit q.event ev q.planLimit n exceeded p).exec db [] log = p.exec db [] log := by
  unfold checkPlanLimit
  by_cases horg : ev.organization.isNone = true
  · rw [if_pos horg]
  · have hlimit : q.planLimit.any (fun m => decide (m < db.count (voterOf q.event) + n)) = false := by
      cases hm : q.planLimit with
      | none => rfl
      | some m => exact decide_eq_false (Nat.not_lt.mpr (h.resolve_left horg m hm))
    rw [if_neg horg, Prog.exec_read, Db.apply_nil, hlimit]
    rfl

theorem noteAll_exec {p : Program} {db : Database} {w : Writes Row} : ∀ (ns : List Note) (log : List Note),
    ∃ log', (Prog.noteAll ns p).exec db w log = p.exec db w log'
  | [], log => ⟨log, rfl⟩
  | n :: ns, log => noteAll_exec ns (n :: log)

theorem rowStep_audit (number : ℕ) (row : ImportRow) (s : Progress) {k : Key} (hk : isAudit k = true) :
    (rowStep E q ev places number row s).db.row k = s.db.row k := by
  have hstep : Stepped E q ev places number row s (rowStep E q ev places number row s) := rowStep_stepped number row s
  generalize rowStep E q ev places number row s = s' at hstep ⊢
  cases hstep with
  | skipped => rfl
  | saved => exact Db.set_row_ne _ _ fun h => by simp [h, isAudit] at hk
  | inserted => exact (insertWrites_only _ _).apply_row _ (by cases k <;> first | rfl | cases hk)

theorem rowSteps_audit : ∀ (rows : List ImportRow) (number : ℕ) (s : Progress) {k : Key}, isAudit k = true →
    (rowSteps E q ev places rows number s).db.row k = s.db.row k
  | [], _, _, _, _ => rfl
  | row :: rows, number, s, _, hk => (rowSteps_audit rows (number + 1) _ hk).trans (rowStep_audit number row s hk)

/-- **An import** leaves the roll of its last row, and a log that goes on. -/
theorem imported_spec {db : Database} (ha : Accepted q ev db) (hi : Indexed db)
    (hlog : HeadLast db (chainFor ev.organization)) :
    (∀ k, isAudit k = false → (imported E q ev db).row k = (ended E q ev db).db.row k) ∧
      HeadLast (imported E q ev db) (chainFor ev.organization) ∧
      constituencyLookup E (imported E q ev db) ev = constituencyLookup E db ev := by
  set rows : Program := importRows E q ev (constituencyLookup E db ev) (.rollback .halt)
    (fun report => record E (q.entry ev report) (.rollback .halt) (.commit .halt)) q.rows 2 (existingOf db q.event) {}
    with hprogram
  obtain ⟨log, hnotes⟩ : ∃ log, (Prog.noteAll ((named E q.rows (existingOf db q.event)).map .seen) rows).exec db [] [] =
      rows.exec db [] log := noteAll_exec _ _
  have hbody : imported E q ev db = (rows.exec db [] log).db := by
    unfold imported Prog.after importVoters
    rw [if_neg (not_not.mpr ha.allowed), ha.unlocked]
    dsimp only
    rw [checkPlanLimit_exec ha.plan]
    exact congrArg _ hnotes
  obtain ⟨w, report, log', hroll, hw, hexec⟩ : Arrives db
      (fun _ report => record E (q.entry ev report) (.rollback .halt) (.commit .halt)) rows [] log (ended E q ev db) :=
    importRows_exec q.rows 2 (begun q db) {} [] log (Standing.begin hi) fun _ => rfl
  rw [List.append_nil] at hexec hw
  have hlog' : HeadLast (db.apply w) (chainFor ev.organization) :=
    hlog.congr fun k hk => (hw k).trans (rowSteps_audit q.rows 2 _ hk)
  obtain ⟨u, hu, hrecord, hlast⟩ : ∃ u, Db.Only isAudit u ∧
      (record E (q.entry ev report) (.rollback .halt) (.commit .halt)).exec db w log' =
        (.commit .halt : Program).exec db (u ++ w) log' ∧ HeadLast (db.apply (u ++ w)) (chainFor ev.organization) :=
    record_headLast hlog'
  have hdb : imported E q ev db = db.apply (u ++ w) := by
    rw [hbody]
    exact congrArg _ (hexec.trans hrecord)
  rw [hdb]
  refine ⟨fun k hk => ?_, hlast, ?_⟩
  · rw [Db.apply_append, hu.apply_row _ hk]
    exact hw k
  · unfold constituencyLookup
    rw [Db.apply_append, Db.Only.collect (fun k _ hk => by cases k <;> first | rfl | cases hk) _ hu,
      Db.Only.collect (fun k _ hk => by cases k <;> first | rfl | cases hk) _ hroll]

/-! ### How many voters there are -/

theorem count_insertWrites (db : Database) (pk : ℕ) (v : VoterRow) (e : ℕ) :
    (db.apply (insertWrites pk v)).count (voterOf e) ≤ db.count (voterOf e) + 1 := by
  have hset := Db.count_set db (voterOf e) (.voter pk) (some v)
  have hle : (db.set (.voter pk) (some v)).count (voterOf e) ≤ db.count (voterOf e) + 1 := by
    split_ifs at hset <;> omega
  have hkey : ∀ (db : Database) (i : String) (r : Option ℕ),
      (db.set (.identifier v.election i) r).count (voterOf e) = db.count (voterOf e) := fun db i r =>
    Db.count_set_of_false db _ _ _ fun _ => rfl
  have hcredential : ∀ (db : Database) (c : String) (r : Option ℕ),
      (db.set (.credential v.election c) r).count (voterOf e) = db.count (voterOf e) := fun db c r =>
    Db.count_set_of_false db _ _ _ fun _ => rfl
  unfold insertWrites
  cases v.credentialHash <;> cases v.identifier <;> simp [hkey, hcredential, hle]

/-- A row makes one voter more at the most. -/
theorem rowStep_count (number : ℕ) (row : ImportRow) (s : Progress) (e : ℕ) :
    (rowStep E q ev places number row s).db.count (voterOf e) ≤ s.db.count (voterOf e) + 1 := by
  have hstep : Stepped E q ev places number row s (rowStep E q ev places number row s) := rowStep_stepped number row s
  generalize rowStep E q ev places number row s = s' at hstep ⊢
  cases hstep with
  | skipped => exact Nat.le_succ _
  | @saved place pk v hplace hfound hvoted =>
    have hset := Db.count_set s.db (voterOf e) (.voter pk) (some (row.onto E place v (q.now 0)))
    dsimp only
    split_ifs at hset <;> omega
  | inserted => exact count_insertWrites _ _ _ _

theorem rowSteps_count : ∀ (rows : List ImportRow) (number : ℕ) (s : Progress) (e : ℕ),
    (rowSteps E q ev places rows number s).db.count (voterOf e) ≤ s.db.count (voterOf e) + rows.length
  | [], _, _, _ => le_rfl
  | row :: rows, number, s, e => by
    have hrow : (rowStep E q ev places number row s).db.count (voterOf e) ≤ s.db.count (voterOf e) + 1 :=
      rowStep_count number row s e
    have hrows := rowSteps_count rows (number + 1) (rowStep E q ev places number row s) e
    rw [List.length_cons]
    rw [rowSteps]
    omega

/-- An import makes a voter for each of its rows at the most. -/
theorem imported_count {db : Database} (ha : Accepted q ev db) (hi : Indexed db)
    (hlog : HeadLast db (chainFor ev.organization)) (e : ℕ) :
    (imported E q ev db).count (voterOf e) ≤ db.count (voterOf e) + q.rows.length := by
  obtain ⟨hrows, -, -⟩ := imported_spec (E := E) ha hi hlog
  have hcount : (imported E q ev db).count (voterOf e) = (ended E q ev db).db.count (voterOf e) := by
    refine Db.count_congr fun k => ?_
    unfold Db.holds
    cases hk : isAudit k with
    | false => rw [hrows k hk]
    | true =>
      cases k <;> first | (cases hk; done) | simp [voterOf]
  rw [hcount]
  exact rowSteps_count q.rows 2 _ e

end Imports
end FlexyVotes
