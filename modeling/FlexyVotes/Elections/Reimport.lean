/-
# Importing a file again

What a row does to a voter it finds is a `Patch`: columns it sets, columns it
leaves and attributes it adds. Patches compose, and to apply one twice is to
apply it once (`Patch.onto_onto`, `Patch.onto_self`). So a second import of the
same rows changes nothing where each row finds the voter it found or created in
the first (`Settled`, `reimport_harmless`). A row with only an e-mail need not:
a row with an identifier may have given the voter another e-mail since
(`not_reimport_harmless`).

Key definitions: `Patch`, `kept`, `Settled`, `Follows`, `Retraced`.
Key theorems: `mergeAttributes_assoc`, `Patch.onto_onto`, `Patch.onto_self`, `Retraced.step`,
`reimport_harmless`, `not_reimport_harmless`.
-/
import FlexyVotes.Core.Parsing
import FlexyVotes.Elections.Batches

namespace FlexyVotes
namespace Imports

open Transactions Audit Configuration Lifecycle Casting Voters

variable {E : Env} {q q' : ImportRequest} {ev : EventRow} {places : List (String × ℕ)}

/-! ### Merging attributes -/

theorem get?_map_key (g : String → Json → Json) (k : String) : ∀ kvs : List (String × Json),
    Json.get? (kvs.map fun kv => (kv.1, g kv.1 kv.2)) k = (Json.get? kvs k).map (g k)
  | [] => rfl
  | p :: kvs => by
    rw [List.map_cons, Json.get?_cons, Json.get?_cons, get?_map_key g k kvs]
    split
    · rename_i h
      rw [← h, Option.map_some]
    · rfl

/-- The new value of a key, or else the old one. -/
theorem get?_mergeAttributes (old new : List (String × Json)) (k : String) :
    Json.get? (mergeAttributes old new) k = (Json.get? new k).or (Json.get? old k) := by
  unfold mergeAttributes
  rw [Json.get?_append, get?_map_key (fun key x => (Json.get? new key).getD x),
    Json.get?_filter (fun key => (Json.get? old key).isNone)]
  cases Json.get? old k <;> cases Json.get? new k <;> rfl

/-- To merge one after the other is to merge what they merge to. -/
theorem mergeAttributes_assoc (old a b : List (String × Json)) :
    mergeAttributes (mergeAttributes old a) b = mergeAttributes old (mergeAttributes a b) := by
  have hold : ∀ kv : String × Json, (Json.get? b kv.1).getD ((Json.get? a kv.1).getD kv.2) =
      (Json.get? (mergeAttributes a b) kv.1).getD kv.2 := fun kv => by
    rw [get?_mergeAttributes]
    cases Json.get? b kv.1 <;> rfl
  have hnew : ∀ kv : String × Json, (Json.get? (mergeAttributes old a) kv.1).isNone =
      ((Json.get? old kv.1).isNone && (Json.get? a kv.1).isNone) := fun kv => by
    rw [get?_mergeAttributes]
    cases Json.get? a kv.1 <;> cases Json.get? old kv.1 <;> rfl
  calc mergeAttributes (mergeAttributes old a) b
      = ((old.map fun kv => (kv.1, (Json.get? a kv.1).getD kv.2)) ++
            a.filter fun kv => (Json.get? old kv.1).isNone).map (fun kv => (kv.1, (Json.get? b kv.1).getD kv.2)) ++
          b.filter fun kv => (Json.get? (mergeAttributes old a) kv.1).isNone := rfl
    _ = (old.map fun kv => (kv.1, (Json.get? (mergeAttributes a b) kv.1).getD kv.2)) ++
          ((a.map fun kv => (kv.1, (Json.get? b kv.1).getD kv.2)).filter (fun kv => (Json.get? old kv.1).isNone) ++
            (b.filter fun kv => (Json.get? a kv.1).isNone).filter fun kv => (Json.get? old kv.1).isNone) := by
        rw [List.map_append, List.map_map, List.append_assoc, List.filter_map, List.filter_filter]
        congr 1
        · exact List.map_congr_left fun kv _ => Prod.ext rfl (hold kv)
        · simp only [hnew]
          rfl
    _ = mergeAttributes old (mergeAttributes a b) := by
        rw [← List.filter_append]
        rfl

theorem keys_mergeAttributes (old new : List (String × Json)) : (mergeAttributes old new).map (·.1) =
    old.map (·.1) ++ (new.filter fun kv => (Json.get? old kv.1).isNone).map (·.1) := by
  unfold mergeAttributes
  rw [List.map_append, List.map_map]
  rfl

theorem mergeAttributes_nodup {old new : List (String × Json)} (hold : (old.map (·.1)).Nodup)
    (hnew : (new.map (·.1)).Nodup) : ((mergeAttributes old new).map (·.1)).Nodup := by
  rw [keys_mergeAttributes]
  refine List.nodup_append.mpr ⟨hold, hnew.sublist (List.filter_sublist.map _), fun k hk k' hk' heq => ?_⟩
  subst heq
  obtain ⟨kv, hkv, rfl⟩ := List.mem_map.mp hk
  obtain ⟨kv', hkv', hsame⟩ := List.mem_map.mp hk'
  have hnone := (List.mem_filter.mp hkv').2
  rw [hsame, (Json.get?_eq_some hold).mpr hkv] at hnone
  cases hnone

/-- To merge what is there already changes nothing. -/
theorem mergeAttributes_self {a : List (String × Json)} (h : (a.map (·.1)).Nodup) : mergeAttributes a a = a := by
  have hget : ∀ kv ∈ a, Json.get? a kv.1 = some kv.2 := fun kv hkv => (Json.get?_eq_some h).mpr hkv
  have hmap : (a.map fun kv => (kv.1, (Json.get? a kv.1).getD kv.2)) = a := by
    refine (List.map_congr_left fun kv hkv => ?_).trans (List.map_id a)
    rw [hget kv hkv]
    rfl
  have hfilter : (a.filter fun kv => (Json.get? a kv.1).isNone) = [] := by
    refine List.filter_eq_nil_iff.mpr fun kv hkv => ?_
    rw [hget kv hkv]
    exact Bool.false_ne_true
  unfold mergeAttributes
  rw [hmap, hfilter, List.append_nil]

theorem mergeAttributes_nil (old : List (String × Json)) : mergeAttributes old [] = old := by
  unfold mergeAttributes
  rw [List.filter_nil, List.append_nil]
  exact (List.map_congr_left fun kv _ => rfl).trans (List.map_id old)

/-! ### What a row does to a voter -/

/-- Columns that are set, with their blind indexes where they have one, and
attributes that are added. -/
structure Patch where
  fullName : Option String := none
  email : Option (Option String × String) := none
  phone : Option (Option String × String) := none
  constituency : Option ℕ := none
  attributes : List (String × Json) := []

/-- A voter with the patch. -/
def Patch.onto (p : Patch) (v : VoterRow) : VoterRow :=
  { v with fullName := p.fullName.getD v.fullName
           email := (p.email.map (·.1)).getD v.email
           emailIndex := (p.email.map (·.2)).getD v.emailIndex
           phone := (p.phone.map (·.1)).getD v.phone
           phoneIndex := (p.phone.map (·.2)).getD v.phoneIndex
           constituency := p.constituency.or v.constituency
           attributes := mergeAttributes v.attributes p.attributes }

/-- One patch after the other. -/
def Patch.next (p p' : Patch) : Patch where
  fullName := p'.fullName.or p.fullName
  email := p'.email.or p.email
  phone := p'.phone.or p.phone
  constituency := p'.constituency.or p.constituency
  attributes := mergeAttributes p.attributes p'.attributes

/-- No attribute twice. -/
def Patch.Sound (p : Patch) : Prop := (p.attributes.map (·.1)).Nodup

theorem Patch.onto_onto (p p' : Patch) (v : VoterRow) : p'.onto (p.onto v) = (p.next p').onto v := by
  obtain ⟨name, email, phone, place, attributes⟩ := p
  obtain ⟨name', email', phone', place', attributes'⟩ := p'
  unfold Patch.onto Patch.next
  dsimp only
  rw [mergeAttributes_assoc]
  cases name' <;> cases email' <;> cases phone' <;> cases place' <;> rfl

theorem Patch.next_self {p : Patch} (h : p.Sound) : p.next p = p := by
  unfold Patch.next
  rw [mergeAttributes_self h, Option.or_self, Option.or_self, Option.or_self, Option.or_self]

/-- **A patch applied again** changes nothing. -/
theorem Patch.onto_self {p : Patch} (h : p.Sound) (v : VoterRow) : p.onto (p.onto v) = p.onto v := by
  rw [Patch.onto_onto, Patch.next_self h]

theorem Patch.Sound.next {p p' : Patch} (h : p.Sound) (h' : p'.Sound) : (p.next p').Sound := mergeAttributes_nodup h h'

theorem Patch.empty_onto (v : VoterRow) : ({} : Patch).onto v = v := by
  unfold Patch.onto
  rw [mergeAttributes_nil]
  rfl

/-- A voter without the moment of the last save. -/
def kept (v : VoterRow) : VoterRow := { v with updatedAt := 0 }

/-- The patch of a row. -/
def patchOf (E : Env) (row : ImportRow) (place : Option ℕ) : Patch where
  fullName := if row.fullName = "" then none else some row.fullName
  email := if E.strip row.email = "" then none
    else some (some (E.strip row.email), E.blindIndex (E.strip row.email) "email")
  phone := if row.phone = "" then none
    else
      let phone := normalizePhone E row.phone
      some (if phone = "" then (none, "") else (some phone, E.blindIndex phone "phone"))
  constituency := place
  attributes := row.attributes

/-- **A row patches** the voter it finds. -/
theorem kept_onto (row : ImportRow) (place : Option ℕ) (v : VoterRow) (now : Time) :
    kept (row.onto E place v now) = (patchOf E row place).onto (kept v) := by
  unfold ImportRow.onto setEmail setPhone patchOf Patch.onto kept
  dsimp only
  rw [E.strip_strip]
  by_cases hname : row.fullName = "" <;> by_cases hemail : E.strip row.email = "" <;> by_cases hphone : row.phone = "" <;>
    by_cases hdigits : normalizePhone E row.phone = "" <;> simp [hname, hemail, hphone, hdigits]

/-- A voter before any row. -/
def blank (v : VoterRow) : VoterRow :=
  { v with fullName := "", email := none, emailIndex := "", phone := none, phoneIndex := "", constituency := none,
           attributes := [] }

/-- A new voter is a patched blank one. -/
theorem kept_created (row : ImportRow) (q : ImportRequest) (ev : EventRow) (number : ℕ) (place : Option ℕ) :
    kept (row.created E q ev number place) =
      (patchOf E row place).onto (blank (kept (row.created E q ev number place))) := by
  have hempty : mergeAttributes [] row.attributes = row.attributes := by
    unfold mergeAttributes
    exact List.filter_eq_self.mpr fun _ _ => rfl
  unfold ImportRow.created ImportRow.fresh setEmail setPhone issueCredential patchOf Patch.onto blank kept
  dsimp only
  rw [E.strip_strip]
  generalize (q.issueCodes && ev.authMethods.contains "CODE") = issue
  by_cases hname : row.fullName = "" <;> by_cases hemail : E.strip row.email = "" <;> by_cases hphone : row.phone = "" <;>
    by_cases hdigits : normalizePhone E row.phone = "" <;> cases issue <;> simp [hname, hemail, hphone, hdigits, hempty]

/-! ### The second import follows the first -/

/-- The voter that a row finds or creates. -/
def target (E : Env) (q : ImportRequest) (ev : EventRow) (number : ℕ) (row : ImportRow) (place : Option ℕ) (s : Progress) :
    Option ℕ :=
  match found E q row s with
  | some x => some x.1
  | none => if free s.db (q.draw number).pk (row.created E q ev number place) then some (q.draw number).pk else none

/-- Each row that is looked up finds in the second import the voter that it
found or created in the first, and none where it could not create one. -/
def Settled (E : Env) (q q' : ImportRequest) (ev : EventRow) (places : List (String × ℕ)) :
    List ImportRow → ℕ → Progress → Progress → Prop
  | [], _, _, _ => True
  | row :: rows, number, s, t =>
    (∀ place, lookedUp E places row = some place →
      match target E q ev number row place s with
      | some pk => (found E q' row t).map (·.1) = some pk
      | none => target E q' ev number row place t = none) ∧
    Settled E q q' ev places rows (number + 1) (rowStep E q ev places number row s) (rowStep E q' ev places number row t)

/-- The second version of a voter is the last one of the first import, with the
patches of the first version. -/
def Follows (last v v' : VoterRow) : Prop :=
  fixed v = fixed last ∧ ∃ (p : Patch) (b : VoterRow), p.Sound ∧ kept v = p.onto b ∧ kept v' = p.onto (kept last)

theorem Follows.refl {last v : VoterRow} (h : fixed v = fixed last) : Follows last v last :=
  ⟨h, {}, kept v, List.nodup_nil, (Patch.empty_onto _).symm, (Patch.empty_onto _).symm⟩

theorem Follows.status {last v v' : VoterRow} (h : Follows last v v') : v'.status = v.status := by
  obtain ⟨hfixed, p, b, -, -, hlast⟩ := h
  have hstatus : (kept v').status = (kept last).status := by
    rw [hlast]
    rfl
  exact hstatus.trans (status_of_fixed hfixed).symm

/-- A row patches both. -/
theorem Follows.onto {last v v' : VoterRow} (h : Follows last v v') {row : ImportRow} (place : Option ℕ) (now now' : Time)
    (hrow : (row.attributes.map (·.1)).Nodup) : Follows last (row.onto E place v now) (row.onto E place v' now') := by
  obtain ⟨hfixed, p, b, hp, hv, hlast⟩ := h
  refine ⟨(fixed_onto ..).trans hfixed, p.next (patchOf E row place), b, hp.next hrow, ?_, ?_⟩
  · rw [kept_onto, hv, Patch.onto_onto]
  · rw [kept_onto, hlast, Patch.onto_onto]

/-- A row that created the voter patches it now. -/
theorem Follows.created {last : VoterRow} {row : ImportRow} {number : ℕ} (place : Option ℕ) (now' : Time)
    (hrow : (row.attributes.map (·.1)).Nodup) (hfixed : fixed (row.created E q ev number place) = fixed last) :
    Follows last (row.created E q ev number place) (row.onto E place last now') :=
  ⟨hfixed, patchOf E row place, _, hrow, kept_created row q ev number place, kept_onto row place last now'⟩

/-- **The last version with its own patches** is the last version. -/
theorem Follows.self {last v' : VoterRow} (h : Follows last last v') : kept v' = kept last := by
  obtain ⟨-, p, b, hp, hv, hlast⟩ := h
  rw [hlast, hv, Patch.onto_self hp]

/-- Between the two imports of the rows: every voter of the second follows that
of the first, on the roll and in memory; whom the first has not created yet is
untouched in the second. -/
structure Retraced (e : ℕ) (last : Database) (s t : Progress) : Prop where
  left : Standing e s
  right : Standing e t
  rows : ∀ pk v, s.db.row (.voter pk) = some v → ∃ w v', last.row (.voter pk) = some w ∧
    t.db.row (.voter pk) = some v' ∧ Follows w v v'
  memory : ∀ key pk v, s.memory.lookup key = some (pk, v) → ∃ w v', last.row (.voter pk) = some w ∧
    t.memory.lookup key = some (pk, v') ∧ Follows w v v'
  rowsNew : ∀ pk, s.db.row (.voter pk) = none → t.db.row (.voter pk) = last.row (.voter pk)
  memoryNew : ∀ key pk v', t.memory.lookup key = some (pk, v') → s.db.row (.voter pk) = none →
    last.row (.voter pk) = some v'

theorem row_set (db : Database) (pk : ℕ) (v : VoterRow) (pk' : ℕ) :
    (db.set (.voter pk) (some v)).row (.voter pk') = if pk' = pk then some v else db.row (.voter pk') := by
  split_ifs with hpk
  · rw [hpk, Db.set_row_self]
  · exact Db.set_row_ne _ _ (by simpa using hpk)

/-- Both save versions of the voter. -/
theorem Retraced.save {e : ℕ} {last : Database} {s t s' t' : Progress} (h : Retraced e last s t) (hs : Standing e s')
    (ht : Standing e t') {key : String} {pk : ℕ} {w u u' : VoterRow} (hw : last.row (.voter pk) = some w)
    (hu : Follows w u u')
    (hdb : ∀ pk', s'.db.row (.voter pk') = if pk' = pk then some u else s.db.row (.voter pk'))
    (hdb' : ∀ pk', t'.db.row (.voter pk') = if pk' = pk then some u' else t.db.row (.voter pk'))
    (hmemory : s'.memory = remember key pk u s.memory) (hmemory' : t'.memory = remember key pk u' t.memory) :
    Retraced e last s' t' := by
  have hlookup : ∀ key', (key ≠ "" ∧ key' = key ∧ s'.memory.lookup key' = some (pk, u) ∧
        t'.memory.lookup key' = some (pk, u')) ∨
      (s'.memory.lookup key' = s.memory.lookup key' ∧ t'.memory.lookup key' = t.memory.lookup key') := by
    intro key'
    rw [hmemory, hmemory']
    by_cases hkey : key = ""
    · rw [hkey]
      exact .inr ⟨rfl, rfl⟩
    · rw [lookup_remember hkey, lookup_remember hkey]
      by_cases hk : key' = key
      · rw [if_pos hk, if_pos hk]
        exact .inl ⟨hkey, hk, rfl, rfl⟩
      · rw [if_neg hk, if_neg hk]
        exact .inr ⟨rfl, rfl⟩
  have hold : ∀ {pk'}, s'.db.row (.voter pk') = none → pk' ≠ pk ∧ s.db.row (.voter pk') = none := by
    intro pk' hnone
    rw [hdb] at hnone
    split_ifs at hnone with hpk
    exact ⟨hpk, hnone⟩
  refine ⟨hs, ht, fun pk' v hrow => ?_, fun key' pk' v hlook => ?_, fun pk' hnone => ?_, fun key' pk' v' hlook hnone => ?_⟩
  · rw [hdb] at hrow
    rw [hdb']
    split_ifs at hrow with hpk
    · cases hrow
      rw [if_pos hpk, hpk]
      exact ⟨w, u', hw, rfl, hu⟩
    · rw [if_neg hpk]
      exact h.rows pk' v hrow
  · rcases hlookup key' with ⟨-, -, hs', ht'⟩ | ⟨hs', ht'⟩
    · rw [hs'] at hlook
      cases hlook
      exact ⟨w, u', hw, ht', hu⟩
    · rw [hs'] at hlook
      rw [ht']
      exact h.memory key' pk' v hlook
  · obtain ⟨hpk, hnone⟩ := hold hnone
    rw [hdb', if_neg hpk]
    exact h.rowsNew pk' hnone
  · obtain ⟨hpk, hnone⟩ := hold hnone
    rcases hlookup key' with ⟨-, -, hs', ht'⟩ | ⟨hs', ht'⟩
    · rw [ht'] at hlook
      cases hlook
      exact absurd rfl hpk
    · rw [ht'] at hlook
      exact h.memoryNew key' pk' v' hlook hnone

/-- A row keeps every voter, in the columns that no row changes. -/
theorem rowStep_row {s : Progress} (h : Standing q.event s) (number : ℕ) (row : ImportRow) {pk : ℕ} {v : VoterRow}
    (hrow : s.db.row (.voter pk) = some v) :
    ∃ w, (rowStep E q ev places number row s).db.row (.voter pk) = some w ∧ fixed w = fixed v := by
  have hstep : Stepped E q ev places number row s (rowStep E q ev places number row s) := rowStep_stepped number row s
  generalize rowStep E q ev places number row s = s' at hstep ⊢
  cases hstep with
  | skipped => exact ⟨v, hrow, rfl⟩
  | @saved place pk₁ v₁ hplace hfound hvoted =>
    by_cases hpk : pk = pk₁
    · subst hpk
      obtain ⟨v', hrow', -, hfixed, -⟩ := h.found hfound
      rw [hrow] at hrow'
      cases hrow'
      exact ⟨_, Db.set_row_self .., (fixed_onto ..).trans hfixed⟩
    · exact ⟨v, (Db.set_row_ne _ _ (by simpa using hpk)).trans hrow, rfl⟩
  | inserted hplace hfound hfree =>
    refine ⟨v, ?_, rfl⟩
    rw [insertWrites_voter, if_neg, hrow]
    rintro rfl
    rw [row_of_free hfree List.mem_cons_self] at hrow
    cases hrow

theorem rowSteps_row : ∀ (rows : List ImportRow) (number : ℕ) {s : Progress}, Standing q.event s →
    ∀ {pk : ℕ} {v : VoterRow}, s.db.row (.voter pk) = some v →
      ∃ w, (rowSteps E q ev places rows number s).db.row (.voter pk) = some w ∧ fixed w = fixed v
  | [], _, _, _, _, v, hrow => ⟨v, hrow, rfl⟩
  | row :: rows, number, _, h, _, _, hrow => by
    obtain ⟨w, hw, hfixed⟩ := rowStep_row (E := E) h number row hrow
    obtain ⟨w', hw', hfixed'⟩ := rowSteps_row rows (number + 1) (h.rowStep number row) hw
    exact ⟨w', hw', hfixed'.trans hfixed⟩

/-- Whom a row finds by its e-mail is stored as found. -/
theorem found_row {row : ImportRow} {s : Progress} (hkey : row.key E = "") {pk : ℕ} {v : VoterRow}
    (h : found E q row s = some (pk, v)) : s.db.row (.voter pk) = some v :=
  (firstVoter_row ((found_email hkey).symm.trans h)).1

section Step

variable {last : Database} {s t : Progress} {row : ImportRow} {place : Option ℕ} {pk : ℕ} {v v' : VoterRow}

/-- The second import finds a later version of whom the first finds. -/
theorem Retraced.found (h : Retraced q.event last s t) (hf : Imports.found E q row s = some (pk, v))
    (hf' : Imports.found E q' row t = some (pk, v')) : ∃ w, last.row (.voter pk) = some w ∧ Follows w v v' := by
  by_cases hkey : row.key E = ""
  · obtain ⟨w, v'', hw, hrow, hfollows⟩ := h.rows pk v (found_row hkey hf)
    rw [found_row hkey hf'] at hrow
    cases hrow
    exact ⟨w, hw, hfollows⟩
  · obtain ⟨w, v'', hw, hlook, hfollows⟩ := h.memory (row.key E) pk v ((found_key hkey).symm.trans hf)
    rw [← found_key (q := q') hkey, hf'] at hlook
    cases hlook
    exact ⟨w, hw, hfollows⟩

/-- Whom the first import has yet to create, the second finds as the first left
them. -/
theorem Retraced.found_new (h : Retraced q.event last s t) (hnew : s.db.row (.voter pk) = none)
    (hf' : Imports.found E q' row t = some (pk, v')) : last.row (.voter pk) = some v' := by
  by_cases hkey : row.key E = ""
  · rw [← h.rowsNew pk hnew]
    exact found_row hkey hf'
  · exact h.memoryNew (row.key E) pk v' ((found_key hkey).symm.trans hf') hnew

/-- **A row** that is settled leaves the second import behind the first. -/
theorem Retraced.step (h : Retraced q.event last s t) (hq : q'.event = q.event) (number : ℕ) (rows : List ImportRow)
    (hrow : (row.attributes.map (·.1)).Nodup)
    (hlast : ∀ pk, last.row (.voter pk) =
      (rowSteps E q ev places rows (number + 1) (rowStep E q ev places number row s)).db.row (.voter pk))
    (hsettled : ∀ place, lookedUp E places row = some place →
      match target E q ev number row place s with
      | some pk => (Imports.found E q' row t).map (·.1) = some pk
      | none => target E q' ev number row place t = none) :
    Retraced q.event last (rowStep E q ev places number row s) (rowStep E q' ev places number row t) := by
  have hleft : Standing q.event (rowStep E q ev places number row s) := h.left.rowStep number row
  have hright : Standing q.event (rowStep E q' ev places number row t) := by
    rw [← hq]
    exact Standing.rowStep (hq ▸ h.right) number row
  cases hplace : lookedUp E places row with
  | none =>
    rw [rowStep_none hplace, rowStep_none hplace]
    exact h
  | some place =>
  have hsettled := hsettled place hplace
  cases hf : Imports.found E q row s with
  | some x =>
    obtain ⟨pk, v⟩ := x
    have htarget : target E q ev number row place s = some pk := by
      unfold target
      rw [hf]
    rw [htarget] at hsettled
    obtain ⟨⟨_, v'⟩, hf', rfl⟩ := Option.map_eq_some_iff.mp hsettled
    obtain ⟨w, hw, hfollows⟩ := h.found hf hf'
    rw [rowStep_found hplace hf] at hleft ⊢
    rw [rowStep_found hplace hf', hfollows.status] at hright ⊢
    split_ifs at hleft hright ⊢ with hvoted
    · exact h
    · exact h.save hleft hright hw (hfollows.onto place _ _ hrow) (row_set _ _ _) (row_set _ _ _) rfl rfl
  | none =>
    cases hfree : free s.db (q.draw number).pk (row.created E q ev number place) with
    | true =>
      have htarget : target E q ev number row place s = some (q.draw number).pk := by
        unfold target
        rw [hf]
        exact if_pos hfree
      rw [htarget] at hsettled
      obtain ⟨⟨pk, v'⟩, hf', hpk⟩ := Option.map_eq_some_iff.mp hsettled
      dsimp only at hpk
      subst hpk
      have hw := h.found_new (row_of_free hfree List.mem_cons_self) hf'
      rw [rowStep_new hplace hf, if_pos hfree] at hleft hlast ⊢
      -- the voter keeps the columns of the new one
      obtain ⟨w, hrow', hfixed⟩ := rowSteps_row (E := E) rows (number + 1) hleft (insertWrites_voter.trans (if_pos rfl))
      rw [← hlast, hw] at hrow'
      cases hrow'
      have hstatus : v'.status ≠ .VOTED := by
        rw [status_of_fixed hfixed, (created_status ..).1]
        decide
      rw [rowStep_found hplace hf', if_neg hstatus] at hright ⊢
      exact h.save hleft hright hw (.created place _ hrow hfixed.symm) (fun _ => insertWrites_voter) (row_set _ _ _) rfl rfl
    | false =>
      have htarget : target E q ev number row place s = none := by
        unfold target
        rw [hf]
        exact if_neg (by rw [hfree]; exact Bool.false_ne_true)
      rw [htarget] at hsettled
      unfold target at hsettled
      cases hf' : Imports.found E q' row t with
      | some x =>
        rw [hf'] at hsettled
        cases hsettled
      | none =>
        rw [hf'] at hsettled
        dsimp only at hsettled
        split_ifs at hsettled with hfree'
        rw [rowStep_new hplace hf, if_neg (by rw [hfree]; exact Bool.false_ne_true), rowStep_new hplace hf', if_neg hfree']
        exact h

end Step

/-- **All the rows**, where they are settled. -/
theorem Retraced.run {last : Database} (hq : q'.event = q.event) : ∀ (rows : List ImportRow) (number : ℕ)
    {s t : Progress}, Retraced q.event last s t → (∀ row ∈ rows, (row.attributes.map (·.1)).Nodup) →
    (∀ pk, last.row (.voter pk) = (rowSteps E q ev places rows number s).db.row (.voter pk)) →
    Settled E q q' ev places rows number s t →
    Retraced q.event last (rowSteps E q ev places rows number s) (rowSteps E q' ev places rows number t)
  | [], _, _, _, h, _, _, _ => h
  | row :: rows, number, _, _, h, hrows, hlast, hsettled =>
    Retraced.run hq rows (number + 1) (h.step hq number rows (hrows row List.mem_cons_self) hlast hsettled.1)
      (fun row' hmem => hrows row' (List.mem_cons_of_mem _ hmem)) hlast hsettled.2

/-- The second import begins behind the first. -/
theorem Retraced.begin {db last : Database} (hi : Indexed db) (hi' : Indexed last)
    (hkept : ∀ pk v, db.row (.voter pk) = some v → ∃ w, last.row (.voter pk) = some w ∧ fixed w = fixed v) :
    Retraced q.event last (begun q db) (begun q last) := by
  refine ⟨Standing.begin hi, Standing.begin hi', fun pk v hrow => ?_, fun key pk v hlook => ?_, fun _ _ => rfl,
    fun key pk v' hlook _ => ((lookup_existingOf hi').mp hlook).1⟩
  · obtain ⟨w, hw, hfixed⟩ := hkept pk v hrow
    exact ⟨w, w, hw, hw, .refl hfixed.symm⟩
  · obtain ⟨hrow, he, hid⟩ := (lookup_existingOf hi).mp hlook
    obtain ⟨w, hw, hfixed⟩ := hkept pk v hrow
    exact ⟨w, w, hw, (lookup_existingOf hi').mpr ⟨hw, (election_of_fixed hfixed).trans he,
      (identifier_of_fixed hfixed).trans hid⟩, .refl hfixed.symm⟩

/-- A refused import does nothing. -/
theorem imported_refused {db : Database} (h : ¬ Accepted q ev db) : imported E q ev db = db := by
  unfold imported importVoters
  by_cases hallowed : permitted q.actor "voter.import" q.event = true
  swap
  · rw [if_pos hallowed]
    rfl
  rw [if_neg (not_not.mpr hallowed)]
  cases hlocked : rollLocked ev with
  | some failure => rfl
  | none =>
    have hplan : ¬ WithinPlan q ev db q.rows.length := fun hplan => h ⟨hallowed, hlocked, hplan⟩
    unfold WithinPlan at hplan
    push Not at hplan
    obtain ⟨horg, n, hn, hlt⟩ := hplan
    have hlimit : q.planLimit.any (fun m => decide (m < db.count (voterOf q.event) + q.rows.length)) = true := by
      rw [Option.mem_def.mp hn]
      exact decide_eq_true hlt
    dsimp only
    unfold checkPlanLimit
    rw [if_neg (by simpa using horg)]
    unfold Prog.after
    rw [Prog.exec_read, Db.apply_nil, hlimit]
    rfl

/-- The same request, with other draws and at other moments. -/
def again (q : ImportRequest) (draw : ℕ → Draw) (now : ℕ → Time) : ImportRequest := { q with draw := draw, now := now }

/-- **A second import of the same rows** creates no voter and changes none, but
for the moment of the last save, where every row finds the voter again that it
found or created. -/
theorem reimport_harmless (E : Env) (q : ImportRequest) (ev : EventRow) (db : Database) (draw : ℕ → Draw)
    (now : ℕ → Time) (hi : Indexed db) (hlog : HeadLast db (chainFor ev.organization))
    (hrows : ∀ row ∈ q.rows, (row.attributes.map (·.1)).Nodup)
    (hsettled : Settled E q (again q draw now) ev (constituencyLookup E db ev) q.rows 2 (begun q db)
      (begun q (imported E q ev db))) :
    ∀ pk, ((imported E (again q draw now) ev (imported E q ev db)).row (.voter pk)).map kept =
      ((imported E q ev db).row (.voter pk)).map kept := by
  intro pk
  by_cases ha' : Accepted (again q draw now) ev (imported E q ev db)
  swap
  · rw [imported_refused ha']
  by_cases ha : Accepted q ev db
  swap
  · rw [imported_refused ha] at ha'
    exact absurd ⟨ha'.allowed, ha'.unlocked, ha'.plan⟩ ha
  obtain ⟨hend, hlog', hplaces⟩ := imported_spec (E := E) ha hi hlog
  have hstanding : Standing q.event (ended E q ev db) := Standing.rowSteps q.rows 2 (Standing.begin hi)
  have hi' : Indexed (imported E q ev db) := hstanding.indexed.congr hend
  obtain ⟨hend', -, -⟩ := imported_spec (E := E) ha' hi' hlog'
  have hlast : ∀ pk, (imported E q ev db).row (.voter pk) = (ended E q ev db).db.row (.voter pk) := fun pk => hend _ rfl
  have hbegin : Retraced q.event (imported E q ev db) (begun q db) (begun q (imported E q ev db)) := by
    refine .begin hi hi' fun pk v hrow => ?_
    rw [hlast]
    exact rowSteps_row q.rows 2 (Standing.begin hi) hrow
  have hrun : Retraced q.event (imported E q ev db) (ended E q ev db) (ended E (again q draw now) ev (imported E q ev db)) := by
    have hsame : (again q draw now).event = q.event := rfl
    unfold ended
    rw [hplaces]
    exact Retraced.run hsame q.rows 2 hbegin hrows hlast hsettled
  rw [hend' _ rfl]
  cases hrow : (imported E q ev db).row (.voter pk) with
  | none =>
    rw [hrun.rowsNew pk ((hlast pk).symm.trans hrow), hrow]
  | some w =>
    obtain ⟨w', v', hw, hrow', hfollows⟩ := hrun.rows pk w ((hlast pk).symm.trans hrow)
    rw [hrow] at hw
    cases hw
    rw [hrow', Option.map_some, Option.map_some, hfollows.self]

/-! ### A voter who is created again -/

/-- Another e-mail, for the identifier. -/
def moves : ImportRow where
  identifier := "S1"
  email := "ama@new.example.org"

/-- The first row finds nobody any more, and creates a voter. -/
theorem not_reimport_harmless :
    ¬ ∀ (E : Env) (q : ImportRequest) (ev : EventRow) (db : Database) (draw : ℕ → Draw) (now : ℕ → Time),
      Indexed db → HeadLast db (chainFor ev.organization) → (∀ row ∈ q.rows, (row.attributes.map (·.1)).Nodup) →
      Accepted q ev db → Accepted (again q draw now) ev (imported E q ev db) →
      ∀ pk, ((imported E (again q draw now) ev (imported E q ev db)).row (.voter pk)).map kept =
        ((imported E q ev db).row (.voter pk)).map kept := by
  intro h
  have hsame := h Env.plain (ofRows upload [byEmail, moves]) draft enrolled (fun n => ⟨n + 20, "other" ++ toString n⟩)
    (fun _ => 8) enrolled_indexed enrolled_headLast (by decide) (upload_accepted _) ⟨rfl, by decide, .inl rfl⟩ 22
  have hfirst : ((imported Env.plain (ofRows upload [byEmail, moves]) draft enrolled).row (.voter 22)).isNone = true := by
    decide +kernel
  have hsecond : ((imported Env.plain (again (ofRows upload [byEmail, moves]) (fun n => ⟨n + 20, "other" ++ toString n⟩)
      fun _ => 8) draft (imported Env.plain (ofRows upload [byEmail, moves]) draft enrolled)).row (.voter 22)).isSome =
      true := by decide +kernel
  rw [Option.isNone_iff_eq_none.mp hfirst, Option.map_none, Option.map_eq_none_iff] at hsame
  rw [hsame] at hsecond
  cases hsecond

/-- The row with the e-mail alone finds the voter again. -/
theorem reimport_harmless_email :
    ((imported Env.plain (again (ofRows upload [byEmail]) (fun n => ⟨n + 20, "other" ++ toString n⟩) fun _ => 8) draft
        (imported Env.plain (ofRows upload [byEmail]) draft enrolled)).row (.voter 1)).map kept =
      ((imported Env.plain (ofRows upload [byEmail]) draft enrolled).row (.voter 1)).map kept := by
  refine reimport_harmless Env.plain (ofRows upload [byEmail]) draft enrolled _ _ enrolled_indexed enrolled_headLast
    (by decide) ⟨fun place _ => ?_, trivial⟩ 1
  have hfound : (found Env.plain (ofRows upload [byEmail]) byEmail (begun (ofRows upload [byEmail]) enrolled)).map (·.1) =
      some 1 := by decide +kernel
  obtain ⟨⟨pk, v⟩, hv, rfl⟩ := Option.map_eq_some_iff.mp hfound
  rw [target, hv]
  show Option.map _ _ = some 1
  decide +kernel

end Imports
end FlexyVotes
