/-
# Batches of an import

An import of all the rows, and one of the first rows followed by one of the
rest, leave the same roll as far as `Refreshed` goes: what is in memory of a
voter when the rest begins, and what is on the roll, come to the same under the
first row of the rest with the voter's identifier (`batches_agree`). They can
differ, since a row without an identifier saves the stored voter and not the
one in memory, and the next row with the identifier saves the one in memory,
over it (`not_batches_agree`).

Key definitions: `shown`, `SameRoll`, `Refreshed`, `Coupled`.
Key theorems: `Coupled.rowStep`, `Coupled.prefixes`, `batches_agree`, `not_batches_agree`.
-/
import FlexyVotes.Elections.Imports

namespace FlexyVotes
namespace Imports

open Transactions Audit Configuration Lifecycle Casting Voters

variable {E : Env} {q q' : ImportRequest} {ev : EventRow} {places : List (String × ℕ)}

/-! ### The roll as it shows -/

/-- The columns of a voter that an import is for: identifier, name, contacts,
constituency, attributes and status. -/
def shown (v : VoterRow) : VoterRow where
  election := v.election
  identifier := v.identifier
  fullName := v.fullName
  email := v.email
  emailIndex := v.emailIndex
  phone := v.phone
  phoneIndex := v.phoneIndex
  constituency := v.constituency
  attributes := v.attributes
  status := v.status

/-- The same voters, with the same columns of an import. -/
def SameRoll (db db' : Database) : Prop := ∀ pk, (db.row (.voter pk)).map shown = (db'.row (.voter pk)).map shown

/-- A voter without the moments an import notes. -/
def untimed (v : VoterRow) : VoterRow := { v with updatedAt := 0, credentialIssuedAt := none }

theorem untimed_onto (row : ImportRow) (place : Option ℕ) (v : VoterRow) (now : Time) :
    untimed (row.onto E place v now) = untimed (row.onto E place (untimed v) 0) := by
  unfold ImportRow.onto setEmail setPhone untimed
  dsimp only
  split_ifs <;> rfl

/-- A row makes the same of what is the same. -/
theorem onto_congr (row : ImportRow) (place : Option ℕ) {v v' : VoterRow} (now now' : Time) (h : untimed v = untimed v') :
    untimed (row.onto E place v now) = untimed (row.onto E place v' now') := by
  rw [untimed_onto, h, ← untimed_onto]

theorem shown_untimed (v : VoterRow) : shown (untimed v) = shown v := rfl

theorem shown_congr {v v' : VoterRow} (h : untimed v = untimed v') : shown v = shown v' := by
  rw [← shown_untimed, h, shown_untimed]

theorem election_congr {v v' : VoterRow} (h : untimed v = untimed v') : v.election = v'.election :=
  show (untimed v).election = (untimed v').election by rw [h]

theorem identifier_congr {v v' : VoterRow} (h : untimed v = untimed v') : v.identifier = v'.identifier :=
  show (untimed v).identifier = (untimed v').identifier by rw [h]

theorem credential_congr {v v' : VoterRow} (h : untimed v = untimed v') : v.credentialHash = v'.credentialHash :=
  show (untimed v).credentialHash = (untimed v').credentialHash by rw [h]

theorem status_congr {v v' : VoterRow} (h : untimed v = untimed v') : v.status = v'.status :=
  show (untimed v).status = (untimed v').status by rw [h]

theorem fixed_congr {v v' : VoterRow} (h : untimed v = untimed v') : untimed (fixed v) = untimed (fixed v') :=
  show fixed (untimed v) = fixed (untimed v') from congrArg fixed h

/-- What shows and what no row changes is all of a voter. -/
theorem untimed_of_shown {v v' : VoterRow} (hshown : shown v = shown v') (hfixed : untimed (fixed v) = untimed (fixed v')) :
    untimed v = untimed v' := by
  unfold untimed shown fixed at *
  rw [VoterRow.mk.injEq] at *
  tauto

theorem shown_onto (row : ImportRow) (place : Option ℕ) (v : VoterRow) (now now' : Time) :
    shown (row.onto E place v now) = shown (row.onto E place v now') := shown_congr (onto_congr row place now now' rfl)

/-! ### Two imports side by side -/

/-- The requests are for the same election, and the second draws what the first
draws `shift` rows later. -/
structure Shifted (q q' : ImportRequest) (shift : ℕ) : Prop where
  event : q'.event = q.event
  source : q'.source = q.source
  issueCodes : q'.issueCodes = q.issueCodes
  draw : ∀ n, q'.draw n = q.draw (n + shift)

/-- The rolls are the same but for moments, and each import has its own in
memory. -/
structure Coupled (e : ℕ) (s t : Progress) : Prop where
  left : Standing e s
  right : Standing e t
  rows : ∀ pk, (s.db.row (.voter pk)).map untimed = (t.db.row (.voter pk)).map untimed
  keys : ∀ k, isUnique k = true → s.db.row k = t.db.row k

variable {e : ℕ} {s t : Progress}

theorem Coupled.symm (h : Coupled e s t) : Coupled e t s :=
  ⟨h.right, h.left, fun pk => (h.rows pk).symm, fun k hk => (h.keys k hk).symm⟩

theorem Coupled.sameRoll (h : Coupled e s t) : SameRoll s.db t.db := fun pk => by
  have hrow := congrArg (Option.map shown) (h.rows pk)
  rwa [Option.map_map, Option.map_map] at hrow

theorem Coupled.row (h : Coupled e s t) {pk : ℕ} {v : VoterRow} (hrow : s.db.row (.voter pk) = some v) :
    ∃ v', t.db.row (.voter pk) = some v' ∧ untimed v = untimed v' := by
  have hsame := h.rows pk
  rw [hrow, Option.map_some] at hsame
  obtain ⟨v', hrow', hv⟩ := Option.map_eq_some_iff.mp hsame.symm
  exact ⟨v', hrow', hv.symm⟩

theorem Coupled.row_none (h : Coupled e s t) {pk : ℕ} (hrow : s.db.row (.voter pk) = none) :
    t.db.row (.voter pk) = none := by
  have hsame := h.rows pk
  rw [hrow, Option.map_none] at hsame
  exact Option.map_eq_none_iff.mp hsame.symm

/-- Both have the same voter in memory under an identifier. -/
theorem Coupled.lookup (h : Coupled e s t) {key : String} {pk : ℕ} {v : VoterRow}
    (hlook : s.memory.lookup key = some (pk, v)) :
    ∃ v', t.memory.lookup key = some (pk, v') ∧ untimed (fixed v) = untimed (fixed v') := by
  obtain ⟨w, hrow, he, hi, hf⟩ := h.left.stored key pk v hlook
  obtain ⟨w', hrow', hw⟩ := h.row hrow
  have he' : w'.election = e := (election_congr hw).symm.trans he
  have hi' : w'.identifier = some key := (identifier_congr hw).symm.trans hi
  obtain ⟨v', hlook'⟩ := h.right.known pk w' key hrow' he' hi'
  obtain ⟨w'', hrow'', -, -, hf'⟩ := h.right.stored key pk v' hlook'
  rw [hrow'] at hrow''
  cases hrow''
  exact ⟨v', hlook', by rw [hf, hf', fixed_congr hw]⟩

theorem Coupled.lookup_none (h : Coupled e s t) {key : String} (hlook : s.memory.lookup key = none) :
    t.memory.lookup key = none := by
  cases hlook' : t.memory.lookup key with
  | none => rfl
  | some x =>
    obtain ⟨v', hv', -⟩ := h.symm.lookup (show t.memory.lookup key = some (x.1, x.2) from hlook')
    rw [hlook] at hv'
    cases hv'

/-- Both find the same voter by an e-mail. -/
theorem Coupled.firstVoter (h : Coupled e s t) {index : String} {pk : ℕ} {v : VoterRow}
    (hfirst : Voters.firstVoter s.db (hasEmail e index) = some (pk, v)) :
    ∃ v', Voters.firstVoter t.db (hasEmail e index) = some (pk, v') ∧ untimed v = untimed v' := by
  have hemail : ∀ {v v'}, untimed v = untimed v' → hasEmail e index v = hasEmail e index v' := fun {v v'} hv =>
    show hasEmail e index (untimed v) = hasEmail e index (untimed v') by rw [hv]
  obtain ⟨hrow, hp, hmin⟩ := firstVoter_eq_some.mp hfirst
  obtain ⟨v', hrow', hv⟩ := h.row hrow
  refine ⟨v', firstVoter_eq_some.mpr ⟨hrow', (hemail hv).symm.trans hp, fun pk₁ v₁ hrow₁ hp₁ => ?_⟩, hv⟩
  obtain ⟨w, hw, hvw⟩ := h.symm.row hrow₁
  exact hmin pk₁ w hw ((hemail hvw).symm.trans hp₁)

theorem Coupled.firstVoter_none (h : Coupled e s t) {index : String}
    (hfirst : Voters.firstVoter s.db (hasEmail e index) = none) : Voters.firstVoter t.db (hasEmail e index) = none := by
  cases hfirst' : Voters.firstVoter t.db (hasEmail e index) with
  | none => rfl
  | some x =>
    obtain ⟨v', hv', -⟩ := h.symm.firstVoter (show Voters.firstVoter t.db _ = some (x.1, x.2) from hfirst')
    rw [hfirst] at hv'
    cases hv'

/-- The new voter of a row, in either import. -/
theorem created_congr {shift : ℕ} (h : Shifted q q' shift) (row : ImportRow) (number : ℕ) (place : Option ℕ) :
    untimed (row.created E q ev (number + shift) place) = untimed (row.created E q' ev number place) := by
  unfold ImportRow.created
  rw [h.issueCodes, h.draw]
  unfold ImportRow.fresh issueCredential setEmail setPhone untimed
  dsimp only
  rw [h.event, h.source]
  split_ifs <;> rfl

/-- The rolls stay the same where both save the same. -/
theorem Coupled.save (h : Coupled e s t) {pk : ℕ} {v v' : VoterRow} {s' t' : Progress} (hs : Standing e s') (ht : Standing e t')
    (hdb : s'.db = s.db.set (.voter pk) (some v)) (hdb' : t'.db = t.db.set (.voter pk) (some v'))
    (hv : untimed v = untimed v') : Coupled e s' t' := by
  refine ⟨hs, ht, fun pk' => ?_, fun k hk => ?_⟩
  · rw [hdb, hdb']
    by_cases hpk : pk' = pk
    · subst hpk
      rw [Db.set_row_self, Db.set_row_self, Option.map_some, Option.map_some, hv]
    · rw [Db.set_row_ne _ _ (by simpa using hpk), Db.set_row_ne _ _ (by simpa using hpk)]
      exact h.rows pk'
  · have hne : k ≠ .voter pk := fun heq => by simp [heq, isUnique] at hk
    rw [hdb, hdb', Db.set_row_ne _ _ hne, Db.set_row_ne _ _ hne]
    exact h.keys k hk

/-- The rolls stay the same where both insert the same. -/
theorem Coupled.insert (h : Coupled e s t) {pk : ℕ} {v v' : VoterRow} {s' t' : Progress} (hs : Standing e s')
    (ht : Standing e t') (hdb : s'.db = s.db.apply (insertWrites pk v)) (hdb' : t'.db = t.db.apply (insertWrites pk v'))
    (hv : untimed v = untimed v') : Coupled e s' t' := by
  have hwrites : ∀ k, isUnique k = true → (s.db.apply (insertWrites pk v)).row k = (t.db.apply (insertWrites pk v')).row k := by
    intro k hk
    have hne : k ≠ .voter pk := fun heq => by simp [heq, isUnique] at hk
    unfold insertWrites
    rw [election_congr hv, identifier_congr hv, credential_congr hv]
    simp only [Db.apply_append]
    have hvoter : ∀ (db : Database) (r : VoterRow), (db.apply [⟨.voter pk, some r⟩]).row k = db.row k := fun db r =>
      Db.set_row_ne _ _ hne
    exact Db.apply_row_congr (Db.apply_row_congr ((hvoter _ _).trans ((h.keys k hk).trans (hvoter _ _).symm)) _) _
  refine ⟨hs, ht, fun pk' => ?_, fun k hk => ?_⟩
  · rw [hdb, hdb', insertWrites_voter, insertWrites_voter]
    split_ifs
    · rw [Option.map_some, Option.map_some, hv]
    · exact h.rows pk'
  · rw [hdb, hdb']
    exact hwrites k hk

/-- The same keys are free for the same voter. -/
theorem Coupled.free (h : Coupled e s t) {pk : ℕ} {v v' : VoterRow} (hv : untimed v = untimed v') :
    Imports.free s.db pk v = Imports.free t.db pk v' := by
  have hkeys : rowsOf pk v = rowsOf pk v' := by
    unfold rowsOf
    rw [election_congr hv, identifier_congr hv, credential_congr hv]
  have hsame : ∀ k ∈ rowsOf pk v, (s.db.row k).isNone = (t.db.row k).isNone := by
    intro k hk
    rcases List.mem_cons.mp hk with rfl | hk
    · have hrow := congrArg Option.isNone (h.rows pk)
      rwa [Option.isNone_map, Option.isNone_map] at hrow
    · rw [h.keys k ?_]
      rcases List.mem_append.mp hk with hk | hk
      all_goals
        rw [Option.mem_toList, Option.map_eq_some_iff] at hk
        obtain ⟨_, -, rfl⟩ := hk
        rfl
  unfold Imports.free
  rw [← hkeys, Bool.eq_iff_iff, List.all_eq_true, List.all_eq_true]
  exact forall₂_congr fun k hk => by rw [hsame k hk]

/-! ### How far batches agree -/

/-- The first of the rows that is looked up under the identifier makes the same
of both. -/
def EvensOut (E : Env) (places : List (String × ℕ)) (key : String) (v v' : VoterRow) : List ImportRow → Prop
  | [] => True
  | row :: rows =>
    match lookedUp E places row with
    | none => EvensOut E places key v v' rows
    | some place =>
      if row.key E = key then shown (row.onto E place v 0) = shown (row.onto E place v' 0)
      else EvensOut E places key v v' rows

/-- What both imports have in memory of a voter who has not voted comes to the
same. -/
def Aligned (E : Env) (places : List (String × ℕ)) (rows : List ImportRow) (s t : Progress) : Prop :=
  ∀ key pk v v', key ≠ "" → s.memory.lookup key = some (pk, v) → t.memory.lookup key = some (pk, v') →
    v.status ≠ .VOTED → EvensOut E places key v v' rows

theorem evensOut_none {row : ImportRow} {rows : List ImportRow} {key : String} {v v' : VoterRow}
    (h : lookedUp E places row = none) : EvensOut E places key v v' (row :: rows) = EvensOut E places key v v' rows := by
  rw [EvensOut, h]

theorem evensOut_other {row : ImportRow} {rows : List ImportRow} {key : String} {v v' : VoterRow} (h : row.key E ≠ key) :
    EvensOut E places key v v' (row :: rows) = EvensOut E places key v v' rows := by
  rw [EvensOut]
  cases lookedUp E places row with
  | none => rfl
  | some place => exact if_neg h

theorem evensOut_key {row : ImportRow} {rows : List ImportRow} {place : Option ℕ} {v v' : VoterRow}
    (h : lookedUp E places row = some place) : EvensOut E places (row.key E) v v' (row :: rows) =
      (shown (row.onto E place v 0) = shown (row.onto E place v' 0)) := by
  rw [EvensOut, h]
  exact if_pos rfl

theorem evensOut_of_untimed {key : String} {v v' : VoterRow} (h : untimed v = untimed v') :
    ∀ rows, EvensOut E places key v v' rows
  | [] => trivial
  | row :: rows => by
    cases hplace : lookedUp E places row with
    | none =>
      rw [evensOut_none hplace]
      exact evensOut_of_untimed h rows
    | some place =>
      by_cases hkey : row.key E = key
      · rw [← hkey, evensOut_key hplace]
        exact shown_congr (onto_congr row place 0 0 h)
      · rw [evensOut_other hkey]
        exact evensOut_of_untimed h rows

/-- A row without effect on what is in memory under other identifiers. -/
theorem aligned_cons {row : ImportRow} {rows : List ImportRow} {s t s' t' : Progress}
    (hs : ∀ key, key ≠ "" → row.key E ≠ key → s'.memory.lookup key = s.memory.lookup key)
    (ht : ∀ key, key ≠ "" → row.key E ≠ key → t'.memory.lookup key = t.memory.lookup key)
    (hkey : row.key E ≠ "" → ((∀ pk v v', s.memory.lookup (row.key E) = some (pk, v) →
        t.memory.lookup (row.key E) = some (pk, v') → v.status ≠ .VOTED →
        EvensOut E places (row.key E) v v' (row :: rows)) ↔
      ∀ pk v v', s'.memory.lookup (row.key E) = some (pk, v) → t'.memory.lookup (row.key E) = some (pk, v') →
        v.status ≠ .VOTED → EvensOut E places (row.key E) v v' rows)) :
    Aligned E places (row :: rows) s t ↔ Aligned E places rows s' t' := by
  constructor
  · intro h key pk v v' hne hlook hlook' hvoted
    by_cases hk : row.key E = key
    · subst hk
      exact (hkey hne).mp (fun pk v v' => h _ pk v v' hne) pk v v' hlook hlook' hvoted
    · rw [hs key hne hk] at hlook
      rw [ht key hne hk] at hlook'
      rw [← evensOut_other hk]
      exact h key pk v v' hne hlook hlook' hvoted
  · intro h key pk v v' hne hlook hlook' hvoted
    by_cases hk : row.key E = key
    · subst hk
      exact (hkey hne).mpr (fun pk v v' => h _ pk v v' hne) pk v v' hlook hlook' hvoted
    · rw [← hs key hne hk] at hlook
      rw [← ht key hne hk] at hlook'
      rw [evensOut_other hk]
      exact h key pk v v' hne hlook hlook' hvoted

/-- **A row** leaves both imports coupled, or the rolls different. -/
theorem Coupled.step {shift : ℕ} (h : Coupled q.event s t) (hq : Shifted q q' shift) (number : ℕ) (row : ImportRow)
    (rows : List ImportRow) :
    (Coupled q.event (rowStep E q ev places (number + shift) row s) (rowStep E q' ev places number row t) ∧
      (Aligned E places (row :: rows) s t ↔
        Aligned E places rows (rowStep E q ev places (number + shift) row s) (rowStep E q' ev places number row t))) ∨
    (¬ SameRoll (rowStep E q ev places (number + shift) row s).db (rowStep E q' ev places number row t).db ∧
      ¬ Aligned E places (row :: rows) s t) := by
  have hleft : Standing q.event (rowStep E q ev places (number + shift) row s) := h.left.rowStep (number + shift) row
  have hright : Standing q.event (rowStep E q' ev places number row t) := by
    rw [← hq.event]
    exact Standing.rowStep (hq.event ▸ h.right) number row
  have hcreated : ∀ place, untimed (row.created E q ev (number + shift) place) =
      untimed (row.created E q' ev number place) := created_congr hq row number
  cases hplace : lookedUp E places row with
  | none =>
    rw [rowStep_none hplace, rowStep_none hplace]
    refine .inl ⟨h, aligned_cons (fun _ _ _ => rfl) (fun _ _ _ => rfl) fun _ => ?_⟩
    simp only [evensOut_none hplace]
  | some place =>
  -- nobody found: both insert the same voter, or none
  have hnew : found E q row s = none → found E q' row t = none →
      Coupled q.event (rowStep E q ev places (number + shift) row s) (rowStep E q' ev places number row t) := by
    intro hf hf'
    rw [rowStep_new hplace hf] at hleft ⊢
    rw [rowStep_new hplace hf'] at hright ⊢
    rw [hq.draw] at hright ⊢
    rw [← h.free (hcreated place)] at hright ⊢
    split_ifs at hleft hright ⊢
    · exact h.insert hleft hright rfl rfl (hcreated place)
    · exact h
  -- both save the same voter
  have hsaved : ∀ pk v v', found E q row s = some (pk, v) → found E q' row t = some (pk, v') → v.status = v'.status →
      (v.status ≠ .VOTED → untimed (row.onto E place v (q.now 0)) = untimed (row.onto E place v' (q'.now 0))) →
      Coupled q.event (rowStep E q ev places (number + shift) row s) (rowStep E q' ev places number row t) := by
    intro pk v v' hf hf' hstatus hv
    rw [rowStep_found hplace hf] at hleft ⊢
    rw [rowStep_found hplace hf', ← hstatus] at hright ⊢
    split_ifs at hleft hright ⊢ with hvoted
    · exact h
    · exact h.save hleft hright rfl rfl (hv hvoted)
  by_cases hkey : row.key E = ""
  · -- a row without an identifier finds the stored voter, in both
    refine .inl ⟨?_, aligned_cons (fun _ _ hne => rowStep_lookup hne) (fun _ _ hne => rowStep_lookup hne)
      fun hne => absurd hkey hne⟩
    cases hf : found E q row s with
    | none =>
      refine hnew hf ?_
      rw [found_email hkey, hq.event]
      exact h.firstVoter_none ((found_email hkey).symm.trans hf)
    | some x =>
      obtain ⟨v', hf', hv⟩ := h.firstVoter ((found_email hkey).symm.trans (hf.trans (rfl : _ = some (x.1, x.2))))
      refine hsaved x.1 x.2 v' hf ?_ (status_congr hv) fun _ => onto_congr row place _ _ hv
      rw [found_email hkey, hq.event]
      exact hf'
  · cases hf : found E q row s with
    | none =>
      have hnone : t.memory.lookup (row.key E) = none := h.lookup_none ((found_key hkey).symm.trans hf)
      have hf' : found E q' row t = none := (found_key hkey).trans hnone
      refine .inl ⟨hnew hf hf', aligned_cons (fun _ _ hne => rowStep_lookup hne) (fun _ _ hne => rowStep_lookup hne)
        fun _ => iff_of_true ?_ ?_⟩
      · intro pk v v' hlook
        have hsome : found E q row s = some (pk, v) := (found_key hkey).trans hlook
        rw [hf] at hsome
        cases hsome
      · intro pk v v' hlook hlook' _
        rw [rowStep_new hplace hf] at hlook
        rw [rowStep_new hplace hf', hq.draw, ← h.free (hcreated place)] at hlook'
        split_ifs at hlook hlook'
        · dsimp only at hlook hlook'
          rw [lookup_remember hkey, if_pos rfl] at hlook hlook'
          cases hlook
          cases hlook'
          exact evensOut_of_untimed (hcreated place) rows
        · rw [hnone] at hlook'
          cases hlook'
    | some x =>
      obtain ⟨pk, v⟩ := x
      have hlook : s.memory.lookup (row.key E) = some (pk, v) := (found_key hkey).symm.trans hf
      obtain ⟨v', hlook', hfixed⟩ := h.lookup hlook
      have hf' : found E q' row t = some (pk, v') := (found_key hkey).trans hlook'
      have hstatus : v.status = v'.status := show (fixed v).status = (fixed v').status from status_congr hfixed
      by_cases hvoted : v.status = .VOTED
      · refine .inl ⟨hsaved pk v v' hf hf' hstatus fun hne => absurd hvoted hne,
          aligned_cons (fun _ _ hne => rowStep_lookup hne) (fun _ _ hne => rowStep_lookup hne) fun _ => iff_of_true ?_ ?_⟩
        · intro pk₁ v₁ v₁' hlook₁ _ hne
          rw [hlook] at hlook₁
          cases hlook₁
          exact absurd hvoted hne
        · intro pk₁ v₁ v₁' hlook₁ _ hne
          rw [rowStep_found hplace hf, if_pos hvoted, hlook] at hlook₁
          cases hlook₁
          exact absurd hvoted hne
      by_cases hshown : shown (row.onto E place v (q.now 0)) = shown (row.onto E place v' (q'.now 0))
      · have hv := untimed_of_shown hshown (by rw [fixed_onto, fixed_onto, hfixed])
        refine .inl ⟨hsaved pk v v' hf hf' hstatus fun _ => hv,
          aligned_cons (fun _ _ hne => rowStep_lookup hne) (fun _ _ hne => rowStep_lookup hne) fun _ => iff_of_true ?_ ?_⟩
        · intro pk₁ v₁ v₁' hlook₁ hlook₁' _
          rw [hlook] at hlook₁
          rw [hlook'] at hlook₁'
          cases hlook₁
          cases hlook₁'
          rw [evensOut_key hplace, shown_onto row place v 0 (q.now 0), hshown]
          exact shown_onto row place v' _ _
        · intro pk₁ v₁ v₁' hlook₁ hlook₁' _
          rw [rowStep_found hplace hf, if_neg hvoted] at hlook₁
          rw [rowStep_found hplace hf', ← hstatus, if_neg hvoted] at hlook₁'
          dsimp only at hlook₁ hlook₁'
          rw [lookup_remember hkey, if_pos rfl] at hlook₁ hlook₁'
          cases hlook₁
          cases hlook₁'
          exact evensOut_of_untimed hv rows
      · refine .inr ⟨fun hsame => hshown ?_, fun halign => hshown ?_⟩
        · have hrow := hsame pk
          rw [rowStep_found hplace hf, if_neg hvoted, rowStep_found hplace hf', ← hstatus, if_neg hvoted] at hrow
          dsimp only at hrow
          rw [Db.set_row_self, Db.set_row_self] at hrow
          exact Option.some.inj hrow
        · have hout := halign (row.key E) pk v v' hkey hlook hlook' hvoted
          rw [evensOut_key hplace] at hout
          rw [shown_onto row place v (q.now 0) 0, hout]
          exact shown_onto row place v' _ _

/-- **Rows** leave the rolls the same from one to the next where the imports are
aligned, and only there. -/
theorem Coupled.prefixes {shift : ℕ} (hq : Shifted q q' shift) : ∀ (rows : List ImportRow) (number : ℕ) {s t : Progress},
    Coupled q.event s t →
    ((∀ p, p <+: rows → SameRoll (rowSteps E q ev places p (number + shift) s).db
      (rowSteps E q' ev places p number t).db) ↔ Aligned E places rows s t)
  | [], number, s, t, h => by
    refine iff_of_true (fun p hp => ?_) fun _ _ _ _ _ _ _ _ => trivial
    rw [List.prefix_nil] at hp
    rw [hp]
    exact h.sameRoll
  | row :: rows, number, s, t, h => by
    have hsplit : (∀ p, p <+: row :: rows → SameRoll (rowSteps E q ev places p (number + shift) s).db
        (rowSteps E q' ev places p number t).db) ↔
        ∀ p, p <+: rows → SameRoll
          (rowSteps E q ev places p (number + 1 + shift) (rowStep E q ev places (number + shift) row s)).db
          (rowSteps E q' ev places p (number + 1) (rowStep E q' ev places number row t)).db := by
      constructor
      · intro hall p hp
        have hrow := hall (row :: p) (List.cons_prefix_cons.mpr ⟨rfl, hp⟩)
        rwa [rowSteps, rowSteps, Nat.add_right_comm] at hrow
      · intro hall p hp
        rcases List.prefix_cons_iff.mp hp with rfl | ⟨p', rfl, hp'⟩
        · exact h.sameRoll
        · rw [rowSteps, rowSteps, Nat.add_right_comm]
          exact hall p' hp'
    rw [hsplit]
    rcases h.step hq number row rows with ⟨hcoupled, halign⟩ | ⟨hrolls, halign⟩
    · rw [halign]
      exact Coupled.prefixes hq rows (number + 1) hcoupled
    · exact iff_of_false (fun hall => hrolls (hall [] (List.nil_prefix))) halign

/-! ### One batch and two -/

/-- The same request, for the rows alone. -/
def ofRows (q : ImportRequest) (rows : List ImportRow) : ImportRequest := { q with rows := rows }

/-- The same request, for rows that come `n` rows later, at other moments. -/
def afterRows (q : ImportRequest) (n : ℕ) (now : ℕ → Time) (rows : List ImportRow) : ImportRequest :=
  { q with rows := rows, draw := fun i => q.draw (i + n), now := now }

/-- Of each voter in memory who has not voted, the first of the rows with the
voter's identifier makes the same as of the stored voter. -/
def Refreshed (E : Env) (places : List (String × ℕ)) (rows : List ImportRow) (s : Progress) : Prop :=
  ∀ key pk v v', key ≠ "" → s.memory.lookup key = some (pk, v) → s.db.row (.voter pk) = some v' →
    v.status ≠ .VOTED → EvensOut E places key v v' rows

theorem rowSteps_of (rows' : List ImportRow) : ∀ (rows : List ImportRow) (number : ℕ) (s : Progress),
    rowSteps E (ofRows q rows') ev places rows number s = rowSteps E q ev places rows number s
  | [], _, _ => rfl
  | _ :: rows, number, _ => rowSteps_of rows' rows (number + 1) _

theorem rowSteps_after {n : ℕ} {now : ℕ → Time} (rows' : List ImportRow) : ∀ (rows : List ImportRow) (number : ℕ) (s : Progress),
    rowSteps E (afterRows q n now rows') ev places rows number s =
      rowSteps E (afterRows q n now []) ev places rows number s
  | [], _, _ => rfl
  | _ :: rows, number, _ => rowSteps_after rows' rows (number + 1) _

theorem WithinPlan.mono {db : Database} {n m : ℕ} (h : WithinPlan q ev db n) (hle : m ≤ n) : WithinPlan q ev db m :=
  h.imp_right fun hall l hl => (Nat.add_le_add_left hle _).trans (hall l hl)

/-- **Batches agree** as far as what is in memory is refreshed, and no further. -/
theorem batches_agree (E : Env) (q : ImportRequest) (ev : EventRow) (db : Database) (r₁ r₂ : List ImportRow)
    (now : ℕ → Time) (ha : Accepted (ofRows q (r₁ ++ r₂)) ev db) (hi : Indexed db)
    (hlog : HeadLast db (chainFor ev.organization)) :
    (∀ p, p <+: r₂ → SameRoll (imported E (ofRows q (r₁ ++ p)) ev db)
        (imported E (afterRows q r₁.length now p) ev (imported E (ofRows q r₁) ev db))) ↔
      Refreshed E (constituencyLookup E db ev) r₂ (ended E (ofRows q r₁) ev db) := by
  set places := constituencyLookup E db ev with hplaces
  set db₁ := imported E (ofRows q r₁) ev db with hdb₁
  have hplan : WithinPlan q ev db (r₁ ++ r₂).length := ha.plan
  have hbatch : ∀ p, p <+: r₂ → Accepted (ofRows q (r₁ ++ p)) ev db := fun p hp => by
    refine ⟨ha.allowed, ha.unlocked, hplan.mono ?_⟩
    show (r₁ ++ p).length ≤ (r₁ ++ r₂).length
    rw [List.length_append, List.length_append]
    exact Nat.add_le_add_left hp.length_le _
  have ha₁ : Accepted (ofRows q r₁) ev db := by
    have hnil := hbatch [] (List.nil_prefix)
    rwa [List.append_nil] at hnil
  obtain ⟨hrows₁, hlog₁, hplaces₁⟩ := imported_spec (E := E) ha₁ hi hlog
  -- where the batch stands after its first rows
  have hended : ended E (ofRows q r₁) ev db = rowSteps E q ev places r₁ 2 (begun q db) := rowSteps_of r₁ r₁ 2 _
  rw [hended] at hrows₁ ⊢
  set s := rowSteps E q ev places r₁ 2 (begun q db) with hs
  have hstanding : Standing q.event s := Standing.rowSteps r₁ 2 (Standing.begin hi)
  have hi₁ : Indexed db₁ := hstanding.indexed.congr hrows₁
  have hrest : ∀ p, p <+: r₂ → Accepted (afterRows q r₁.length now p) ev db₁ := fun p hp => by
    refine ⟨ha.allowed, ha.unlocked, hplan.imp_right fun hall l hl => ?_⟩
    have hle := hall l hl
    have hlen := hp.length_le
    have hcount : db₁.count (voterOf q.event) ≤ db.count (voterOf q.event) + r₁.length :=
      imported_count (E := E) ha₁ hi hlog q.event
    rw [List.length_append] at hle
    show db₁.count (voterOf q.event) + p.length ≤ l
    omega
  -- the rolls of both, row by row
  have hleft : ∀ p, p <+: r₂ → ∀ pk, (imported E (ofRows q (r₁ ++ p)) ev db).row (.voter pk) =
      (rowSteps E q ev places p (2 + r₁.length) s).db.row (.voter pk) := fun p hp pk => by
    rw [(imported_spec (E := E) (hbatch p hp) hi hlog).1 (.voter pk) rfl, ended, rowSteps_of, hs, ← rowSteps_append]
    rfl
  have hright : ∀ p, p <+: r₂ → ∀ pk, (imported E (afterRows q r₁.length now p) ev db₁).row (.voter pk) =
      (rowSteps E (afterRows q r₁.length now []) ev places p 2 (begun q db₁)).db.row (.voter pk) := fun p hp pk => by
    rw [(imported_spec (E := E) (hrest p hp) hi₁ hlog₁).1 (.voter pk) rfl, ended, hplaces₁, rowSteps_after]
    rfl
  have hcoupled : Coupled q.event s (begun q db₁) := by
    refine ⟨hstanding, Standing.begin hi₁, fun pk => ?_, fun k hk => ?_⟩
    · exact congrArg _ (hrows₁ (.voter pk) rfl).symm
    · exact (hrows₁ k (by cases k <;> first | rfl | cases hk)).symm
  have hshift : Shifted q (afterRows q r₁.length now []) r₁.length := ⟨rfl, rfl, rfl, fun _ => rfl⟩
  have hroll : ∀ p, p <+: r₂ → (SameRoll (imported E (ofRows q (r₁ ++ p)) ev db)
      (imported E (afterRows q r₁.length now p) ev db₁) ↔ SameRoll (rowSteps E q ev places p (2 + r₁.length) s).db
        (rowSteps E (afterRows q r₁.length now []) ev places p 2 (begun q db₁)).db) := fun p hp => by
    unfold SameRoll
    simp only [hleft p hp, hright p hp]
  rw [forall₂_congr hroll, Coupled.prefixes hshift r₂ 2 hcoupled]
  -- the second import has the stored voters in memory
  constructor
  · intro h key pk v v' hkey hlook hrow hvoted
    obtain ⟨v₁, hrow₁, he, hid, -⟩ := hstanding.stored key pk v hlook
    rw [hrow] at hrow₁
    cases hrow₁
    exact h key pk v v' hkey hlook ((lookup_existingOf hi₁).mpr ⟨(hrows₁ _ rfl).trans hrow, he, hid⟩) hvoted
  · intro h key pk v v' hkey hlook hlook' hvoted
    have hrow := ((lookup_existingOf hi₁).mp hlook').1
    rw [hrows₁ _ rfl] at hrow
    exact h key pk v v' hkey hlook hrow hvoted

/-! ### A name that is lost -/

/-- The roll of one voter, with an e-mail and no name. -/
def enrolled : Database :=
  (Db.empty.set (.voter 1) (some {
    election := 1, identifier := some "S1", email := some "ama@example.org",
    emailIndex := Env.plain.blindIndex "ama@example.org" "email" })).set (.identifier 1 "S1") (some (1 : ℕ))

def upload : ImportRequest where
  event := 1
  rows := []
  actor := some { pk := 5, username := "officer", hasPerm := fun _ _ => true }
  draw := fun n => ⟨n + 10, "code" ++ toString n⟩
  now := fun _ => 7

/-- The name, for the e-mail. -/
def byEmail : ImportRow where
  email := "ama@example.org"
  fullName := "Ama"

/-- A phone, for the identifier. -/
def byIdentifier : ImportRow where
  identifier := "S1"
  phone := "+233201234567"

def draft : EventRow := { votingMode := .CODE_VOTING, startDate := 10, endDate := 20 }

theorem enrolled_row {pk : ℕ} {v : VoterRow} (h : enrolled.row (.voter pk) = some v) :
    pk = 1 ∧ v.election = 1 ∧ v.identifier = some "S1" := by
  unfold enrolled at h
  rw [Db.set_row_ne _ _ (by simp)] at h
  by_cases hpk : pk = 1
  · subst hpk
    rw [Db.set_row_self] at h
    cases h
    exact ⟨rfl, rfl, rfl⟩
  · rw [Db.set_row_ne _ _ (by simpa using hpk)] at h
    cases h

theorem enrolled_indexed : Indexed enrolled := by
  intro pk v i hrow hi
  obtain ⟨rfl, he, hid⟩ := enrolled_row hrow
  rw [he, Option.some.inj (hi.symm.trans hid)]
  exact Db.set_row_self _ _ _

theorem enrolled_headLast : HeadLast enrolled (chainFor draft.organization) := fun n _ => by
  unfold enrolled
  rw [Db.set_row_ne _ _ (by simp), Db.set_row_ne _ _ (by simp)]
  rfl

theorem upload_accepted (rows : List ImportRow) : Accepted (ofRows upload rows) draft enrolled :=
  ⟨rfl, by decide, .inl rfl⟩

/-- The name of the first row is on the roll after two imports, and lost after
one. -/
theorem not_batches_agree :
    ¬ ∀ (E : Env) (q : ImportRequest) (ev : EventRow) (db : Database) (r₁ r₂ : List ImportRow) (now : ℕ → Time),
      Accepted (ofRows q (r₁ ++ r₂)) ev db → Indexed db → HeadLast db (chainFor ev.organization) →
      SameRoll (imported E (ofRows q (r₁ ++ r₂)) ev db)
        (imported E (afterRows q r₁.length now r₂) ev (imported E (ofRows q r₁) ev db)) := by
  intro h
  have hsame := h Env.plain upload draft enrolled [byEmail] [byIdentifier] (fun _ => 8) (upload_accepted _)
    enrolled_indexed enrolled_headLast 1
  have hbatch : ((imported Env.plain (ofRows upload [byEmail, byIdentifier]) draft enrolled).row (.voter 1)).map
      (·.fullName) = some "" := by decide +kernel
  have hrest : ((imported Env.plain (afterRows upload 1 (fun _ => 8) [byIdentifier]) draft
      (imported Env.plain (ofRows upload [byEmail]) draft enrolled)).row (.voter 1)).map (·.fullName) =
      some "Ama" := by decide +kernel
  have hname := congrArg (Option.map fun v : VoterRow => v.fullName) hsame
  rw [Option.map_map, Option.map_map] at hname
  have hempty := hbatch.symm.trans (hname.trans hrest)
  simp at hempty

/-- Rows with an e-mail alone agree in batches. -/
theorem batches_agree_emails :
    SameRoll (imported Env.plain (ofRows upload ([byEmail] ++ [byEmail])) draft enrolled)
      (imported Env.plain (afterRows upload 1 (fun _ => 8) [byEmail]) draft
        (imported Env.plain (ofRows upload [byEmail]) draft enrolled)) := by
  refine (batches_agree Env.plain upload draft enrolled [byEmail] [byEmail] (fun _ => 8) (upload_accepted _)
    enrolled_indexed enrolled_headLast).mpr (fun key pk v v' hkey _ _ _ => ?_) [byEmail] (List.prefix_refl _)
  have hother : byEmail.key Env.plain ≠ key := by
    rw [show byEmail.key Env.plain = "" by decide]
    exact hkey.symm
  rw [evensOut_other hother]
  trivial

end Imports
end FlexyVotes
