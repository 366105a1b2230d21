/-
# The shares of the trustees

The ballot key of an election in the custody of its trustees is split when it is
generated, and each trustee's share is kept until the trustee collects it. For the
tally the trustees submit their shares, which are checked against the hashes of
those issued and, once the election is certified, wiped. Trustees collect and
submit side by side; a share is collected under the lock of its row, and one that
is submitted is checked first and saved later.

Whatever they do, a share is handed out once, to the trustee it was issued to, and
what is submitted is what was issued (`handed_once`); so that the key for the tally
is the one that was generated as soon as the threshold is reached, whoever has
submitted, as long as no share that was submitted is wiped (`key_recovered`).

Key definitions: `issue`, `step`, `privateKeyForTally`, `Ceremony`.
Key theorems: `Ceremony.step`, `handed_once`, `key_recovered`.
-/
import FlexyVotes.Core.Shamir
import FlexyVotes.Lib.Entries
import FlexyVotes.Lib.Steps
import FlexyVotes.Models

namespace FlexyVotes
namespace Shares

/-! ### Rows -/

/-- `TrusteeShare`, under its trustee. -/
structure ShareRow where
  index : ℕ
  shareHash : String := ""
  pendingShare : Option String := none
  collectedAt : Option Time := none
  submittedShare : Option String := none
  submittedAt : Option Time := none

/-- What of `ElectionKey` the custody of trustees uses. -/
structure KeyRow where
  publicKey : String
  threshold : ℕ
  shares : ℕ

/-- `KeyCustodyError`, and what is raised by combining shares. -/
inductive Failure
  | keyCustody (message : String)
  | share (e : ShareError)
  | crash (error : String)
  deriving DecidableEq

/-- Primitives of the custody: digests and the public key of a private one. -/
structure Crypto where
  sha256 : Bytes → Bytes
  publicOf : Bytes → String

variable (C : Crypto) (E : Env)

/-- The part of `ensure_election_key` for trustees, in the order of their indices. -/
def issue (trustees : List (ℕ × ShareRow)) (privateRaw : Bytes) (threshold : ℕ)
    (draw : Fin (threshold - 1) → Fin shamirPrime) : Except Failure (List (ℕ × ShareRow) × KeyRow) :=
  if trustees.length < 2 ∨ ¬(1 ≤ threshold ∧ threshold ≤ trustees.length) then
    .error (.keyCustody "Configure at least two trustees and a valid threshold first.")
  else
    match splitSecret C.sha256 privateRaw trustees.length threshold draw with
    | .error e => .error (.share e)
    | .ok shares =>
      .ok ((trustees.zip shares).map fun p =>
          (p.1.1, { p.1.2 with shareHash := E.sha256 p.2, pendingShare := some p.2 }),
        ⟨C.publicOf privateRaw, threshold, trustees.length⟩)

/-! ### Trustees -/

structure State where
  rows : List (ℕ × ShareRow)
  key : KeyRow
  /-- The shares that were checked and are about to be saved, by request. -/
  forms : List (ℕ × ℕ × String) := []
  /-- The shares that were handed out, and to whom. -/
  handed : List (ℕ × String) := []
  clock : Time := 0

inductive Step
  | collect (user : ℕ)
  | submit (i : ℕ) (user : ℕ) (value : String)
  | save (i : ℕ)
  | wipe

/-- `collect_share`: the share, or why there is none. -/
def collectable (user : ℕ) (s : State) : Except Failure (ShareRow × String) :=
  match Entries.get user s.rows with
  | none => .error (.keyCustody "You are not a trustee for this election.")
  | some row =>
    match row.collectedAt, row.pendingShare with
    | none, some value =>
      if value = "" then .error (.keyCustody "Your key share has already been collected.") else .ok (row, value)
    | _, _ => .error (.keyCustody "Your key share has already been collected.")

/-- `submit_share`, up to the save: the share that is accepted. -/
def accepted (user : ℕ) (value : String) (s : State) : Except Failure String :=
  match Entries.get user s.rows with
  | none => .error (.keyCustody "You are not a trustee for this election.")
  | some row =>
    if E.sha256 (E.strip value) = row.shareHash then .ok (E.strip value)
    else .error (.keyCustody "That key share is not valid for this election.")

def step : Step → State → State
  | .collect user, s =>
    match collectable user s with
    | .error _ => s
    | .ok (row, value) =>
      { s with
        rows := Entries.put user (some { row with pendingShare := none, collectedAt := some s.clock }) s.rows
        handed := (user, value) :: s.handed }
  | .submit i user value, s =>
    match accepted E user value s with
    | .error _ => s
    | .ok value => { s with forms := Entries.put i (some (user, value)) s.forms }
  | .save i, s =>
    match Entries.get i s.forms with
    | none => s
    | some (user, value) =>
      match Entries.get user s.rows with
      | none => { s with forms := Entries.put i none s.forms }
      | some row =>
        { s with
          rows := Entries.put user (some { row with submittedShare := some value, submittedAt := some s.clock }) s.rows
          forms := Entries.put i none s.forms }
  | .wipe, s => { s with rows := s.rows.map fun t => (t.1, { t.2 with submittedShare := none }) }

def State.upTo (s : State) (now : Time) : State := { s with clock := now }

/-- A step at its moment. -/
def tick (x : Time × Step) (s : State) : State := step E x.2 (s.upTo x.1)

/-- The rows that say that their share was submitted. -/
def submitted (rows : List (ℕ × ShareRow)) : List (ℕ × ShareRow) := rows.filter fun t => t.2.submittedAt.isSome

/-- `private_key_for_tally` of a key in the custody of trustees; the rows come in
any order. -/
def privateKeyForTally (key : KeyRow) (rows : List (ℕ × ShareRow)) : Except Failure Bytes :=
  let shares := (submitted rows).map (·.2.submittedShare)
  if shares.length < key.threshold then
    .error (.keyCustody (toString key.threshold ++ " trustee key shares are required; " ++ toString shares.length ++
      " submitted."))
  else
    match (shares.take key.threshold).mapM id with
    | none => .error (.crash "AttributeError")
    | some shares =>
      match combineShares C.sha256 shares with
      | .error e => .error (.share e)
      | .ok privateRaw =>
        if C.publicOf privateRaw = key.publicKey then .ok privateRaw
        else .error (.keyCustody "Reconstructed key does not match the election public key.")

/-! ### What every step keeps -/

/-- The shares that are kept, handed out, checked and submitted are those that were
issued, each to its trustee. -/
structure Ceremony (E : Env) (issued : List (ℕ × String)) (s : State) : Prop where
  rows : Entries.Keyed s.rows
  forms : Entries.Keyed s.forms
  row : ∀ t ∈ s.rows, ∃ share, (t.1, share) ∈ issued ∧ t.2.shareHash = E.sha256 share ∧
    (∀ v ∈ t.2.pendingShare, v = share) ∧ ∀ v ∈ t.2.submittedShare, v = share
  form : ∀ f ∈ s.forms, f.2 ∈ issued
  handed : ∀ p ∈ s.handed, p ∈ issued ∧ ∀ t ∈ s.rows, t.1 = p.1 → t.2.pendingShare = none
  once : (s.handed.map (·.1)).Nodup

/-- No text is submitted that has the hash of a share that was issued, and is not it. -/
def Genuine (E : Env) (issued : List (ℕ × String)) (x : Step) : Prop :=
  match x with
  | .submit _ _ value => ∀ p ∈ issued, E.sha256 (E.strip value) = E.sha256 p.2 → E.strip value = p.2
  | .collect _ | .save _ | .wipe => True

variable {C E} {issued : List (ℕ × String)} {s : State}

theorem collectable_ok {user : ℕ} {row : ShareRow} {value : String} (h : collectable user s = .ok (row, value)) :
    Entries.get user s.rows = some row ∧ row.pendingShare = some value := by
  unfold collectable at h
  split at h
  · cases h
  · rename_i row' hget
    split at h
    · rename_i hpending
      split at h
      · cases h
      · cases h
        exact ⟨hget, hpending⟩
    · cases h

theorem accepted_ok {user : ℕ} {value share : String} (h : accepted E user value s = .ok share) :
    ∃ row, Entries.get user s.rows = some row ∧ E.sha256 (E.strip value) = row.shareHash ∧ share = E.strip value := by
  unfold accepted at h
  split at h
  · cases h
  · rename_i row hget
    split at h
    · rename_i hhash
      cases h
      exact ⟨row, hget, hhash, rfl⟩
    · cases h

theorem Ceremony.collect (h : Ceremony E issued s) (user : ℕ) :
    Ceremony E issued (step E (.collect user) s) := by
  unfold step
  dsimp only
  split
  · exact h
  · rename_i row value hcollect
    obtain ⟨hget, hpending⟩ := collectable_ok hcollect
    have hmem := Entries.mem_of_get hget
    obtain ⟨share, hshare, hhash, hkept, hback⟩ := h.row _ hmem
    have hvalue : value = share := hkept value hpending
    refine ⟨h.rows.put, h.forms, fun t ht => ?_, h.form, fun p hp => ?_, ?_⟩
    · rcases Entries.mem_put.mp ht with ⟨huser, hrow⟩ | ⟨ht, -⟩
      · rw [← Option.some.inj hrow, huser]
        exact ⟨share, hshare, hhash, by simp, hback⟩
      · exact h.row t ht
    · rcases List.mem_cons.mp hp with rfl | hp
      · refine ⟨hvalue ▸ hshare, fun t ht huser => ?_⟩
        rcases Entries.mem_put.mp ht with ⟨-, hrow⟩ | ⟨-, hne⟩
        · rw [← Option.some.inj hrow]
        · exact absurd huser hne
      · refine ⟨(h.handed p hp).1, fun t ht huser => ?_⟩
        rcases Entries.mem_put.mp ht with ⟨-, hrow⟩ | ⟨ht, -⟩
        · rw [← Option.some.inj hrow]
        · exact (h.handed p hp).2 t ht huser
    · refine List.nodup_cons.mpr ⟨fun hagain => ?_, h.once⟩
      obtain ⟨p, hp, huser⟩ := List.mem_map.mp hagain
      have hgone := (h.handed p hp).2 _ hmem huser.symm
      rw [hpending] at hgone
      cases hgone

theorem Ceremony.submit (h : Ceremony E issued s) {i user : ℕ} {value : String}
    (hgenuine : Genuine E issued (.submit i user value)) : Ceremony E issued (step E (.submit i user value) s) := by
  unfold step
  dsimp only
  split
  · exact h
  · rename_i share haccepted
    obtain ⟨row, hget, hhash, rfl⟩ := accepted_ok haccepted
    obtain ⟨share, hshare, hhash', -, -⟩ := h.row _ (Entries.mem_of_get hget)
    have hsame : E.strip value = share := hgenuine _ hshare (hhash.trans hhash')
    refine ⟨h.rows, h.forms.put, h.row, fun f hf => ?_, h.handed, h.once⟩
    rcases Entries.mem_put.mp hf with ⟨-, hform⟩ | ⟨hf, -⟩
    · rw [← Option.some.inj hform, hsame]
      exact hshare
    · exact h.form f hf

theorem Ceremony.save (h : Ceremony E issued s) (hissued : Entries.Keyed issued) (i : ℕ) :
    Ceremony E issued (step E (.save i) s) := by
  unfold step
  dsimp only
  split
  · exact h
  · rename_i user value hform
    have hvalue : (user, value) ∈ issued := h.form _ (Entries.mem_of_get hform)
    have hforms : ∀ f ∈ Entries.put i none s.forms, f.2 ∈ issued := by
      intro f hf
      rcases Entries.mem_put.mp hf with ⟨-, hnone⟩ | ⟨hf, -⟩
      · cases hnone
      · exact h.form f hf
    split
    · exact ⟨h.rows, h.forms.put, h.row, hforms, h.handed, h.once⟩
    · rename_i row hget
      have hmem := Entries.mem_of_get hget
      obtain ⟨share, hshare, hhash, hkept, -⟩ := h.row _ hmem
      have hsame : value = share := (Prod.mk.inj (List.inj_on_of_nodup_map hissued hvalue hshare rfl)).2
      refine ⟨h.rows.put, h.forms.put, fun t ht => ?_, hforms, fun p hp => ⟨(h.handed p hp).1, fun t ht huser => ?_⟩, h.once⟩
      · rcases Entries.mem_put.mp ht with ⟨huser, hrow⟩ | ⟨ht, -⟩
        · rw [← Option.some.inj hrow, huser]
          refine ⟨share, hshare, hhash, hkept, fun v hv => ?_⟩
          rw [← Option.some.inj hv, hsame]
        · exact h.row t ht
      · rcases Entries.mem_put.mp ht with ⟨huser', hrow⟩ | ⟨ht, -⟩
        · have hgone := (h.handed p hp).2 _ hmem (huser'.symm.trans huser)
          rw [← Option.some.inj hrow]
          exact hgone
        · exact (h.handed p hp).2 t ht huser

theorem Ceremony.wipe (h : Ceremony E issued s) : Ceremony E issued (step E .wipe s) := by
  have hkeys : (s.rows.map fun t => (t.1, { t.2 with submittedShare := none })).map (·.1) = s.rows.map (·.1) := by
    rw [List.map_map]
    rfl
  refine ⟨?_, h.forms, fun t ht => ?_, h.form, fun p hp => ⟨(h.handed p hp).1, fun t ht huser => ?_⟩, h.once⟩
  · change ((s.rows.map fun t => (t.1, { t.2 with submittedShare := none })).map (·.1)).Nodup
    rw [hkeys]
    exact h.rows
  · obtain ⟨before, hbefore, rfl⟩ := List.mem_map.mp ht
    obtain ⟨share, hshare, hhash, hkept, -⟩ := h.row before hbefore
    exact ⟨share, hshare, hhash, hkept, by simp⟩
  · obtain ⟨before, hbefore, rfl⟩ := List.mem_map.mp ht
    exact (h.handed p hp).2 before hbefore huser

theorem Ceremony.step (h : Ceremony E issued s) (hissued : Entries.Keyed issued) {x : Step} (hx : Genuine E issued x) :
    Ceremony E issued (step E x s) := by
  cases x with
  | collect user => exact h.collect user
  | submit i user value => exact h.submit hx
  | save i => exact h.save hissued i
  | wipe => exact h.wipe

theorem Ceremony.run {xs : List (Time × Step)} (h : Ceremony E issued s) (hissued : Entries.Keyed issued)
    (hx : ∀ x ∈ xs, Genuine E issued x.2) : Ceremony E issued (Steps.run (tick E) xs s) := by
  induction xs generalizing s with
  | nil => exact h
  | cons x xs ih =>
    have hnow : Ceremony E issued (s.upTo x.1) := ⟨h.rows, h.forms, h.row, h.form, h.handed, h.once⟩
    exact ih (hnow.step hissued (hx x (List.mem_cons_self ..))) fun y hy => hx y (List.mem_cons_of_mem _ hy)

/-! ### What is issued -/

/-- The shares that are kept for the trustees. -/
def issuedOf (rows : List (ℕ × ShareRow)) : List (ℕ × String) :=
  rows.filterMap fun t => t.2.pendingShare.map fun share => (t.1, share)

section Issued

variable {trustees rows : List (ℕ × ShareRow)} {privateRaw : Bytes} {threshold : ℕ}
  {draw : Fin (threshold - 1) → Fin shamirPrime} {key : KeyRow}

/-- What is kept after the key was split. -/
theorem issue_ok (h : issue C E trustees privateRaw threshold draw = .ok (rows, key)) :
    ∃ shares, splitSecret C.sha256 privateRaw trustees.length threshold draw = .ok shares ∧
      shares.length = trustees.length ∧ rows = ((trustees.zip shares).map fun p =>
        (p.1.1, { p.1.2 with shareHash := E.sha256 p.2, pendingShare := some p.2 })) ∧
      key = ⟨C.publicOf privateRaw, threshold, trustees.length⟩ := by
  unfold issue at h
  split at h
  · cases h
  · split at h
    · cases h
    · rename_i shares hshares
      cases h
      obtain ⟨-, -, -, -, heq⟩ := splitSecret_ok C.sha256 hshares
      refine ⟨shares, hshares, ?_, rfl, rfl⟩
      rw [heq, List.length_map, List.length_range']

theorem issuedOf_issue {shares : List String} : issuedOf ((trustees.zip shares).map fun p =>
    (p.1.1, { p.1.2 with shareHash := E.sha256 p.2, pendingShare := some p.2 })) =
      (trustees.zip shares).map fun p => (p.1.1, p.2) := by
  unfold issuedOf
  rw [List.filterMap_map, ← List.filterMap_eq_map]
  rfl

theorem issued_users {shares : List String} (hlen : shares.length = trustees.length) :
    (((trustees.zip shares).map fun p => (p.1.1, p.2)).map (·.1)) = trustees.map (·.1) := by
  have hfst : (trustees.zip shares).map Prod.fst = trustees := List.map_fst_zip hlen.ge
  rw [List.map_map]
  conv_rhs => rw [← hfst, List.map_map]
  rfl

theorem issued_shares {shares : List String} (hlen : shares.length = trustees.length) :
    (((trustees.zip shares).map fun p => (p.1.1, p.2)).map (·.2)) = shares := by
  have hsnd : (trustees.zip shares).map Prod.snd = shares := List.map_snd_zip hlen.le
  rw [List.map_map]
  exact hsnd

/-- The state in which the trustees begin. -/
theorem Ceremony.start (h : issue C E trustees privateRaw threshold draw = .ok (rows, key)) (hkeyed : Entries.Keyed trustees)
    (hfresh : ∀ t ∈ trustees, t.2.submittedShare = none) :
    Ceremony E (issuedOf rows) { rows := rows, key := key } ∧ Entries.Keyed (issuedOf rows) := by
  obtain ⟨shares, -, hlen, rfl, rfl⟩ := issue_ok h
  rw [issuedOf_issue]
  have husers := issued_users hlen
  have hissued : Entries.Keyed ((trustees.zip shares).map fun p => (p.1.1, p.2)) := by
    unfold Entries.Keyed
    rw [husers]
    exact hkeyed
  refine ⟨⟨?_, Entries.Keyed.nil, fun t ht => ?_, by simp, by simp, List.nodup_nil⟩, hissued⟩
  · unfold Entries.Keyed at hissued ⊢
    rw [List.map_map] at hissued ⊢
    exact hissued
  · obtain ⟨p, hp, rfl⟩ := List.mem_map.mp ht
    refine ⟨p.2, List.mem_map.mpr ⟨p, hp, rfl⟩, rfl, fun v hv => (Option.some.inj hv).symm, fun v hv => ?_⟩
    have hnone := hfresh p.1 (List.of_mem_zip hp).1
    change v ∈ p.1.2.submittedShare at hv
    rw [hnone] at hv
    cases hv

/-- **A share is handed out once, to the trustee it was issued to, and what a trustee
has submitted is the share that was issued to it.** -/
theorem handed_once (h : issue C E trustees privateRaw threshold draw = .ok (rows, key)) (hkeyed : Entries.Keyed trustees)
    (hfresh : ∀ t ∈ trustees, t.2.submittedShare = none) {xs : List (Time × Step)}
    (hx : ∀ x ∈ xs, Genuine E (issuedOf rows) x.2) :
    ((Steps.run (tick E) xs { rows := rows, key := key }).handed.map (·.1)).Nodup ∧
      (∀ p ∈ (Steps.run (tick E) xs { rows := rows, key := key }).handed, p ∈ issuedOf rows) ∧
      ∀ t ∈ (Steps.run (tick E) xs { rows := rows, key := key }).rows, ∀ v ∈ t.2.submittedShare, (t.1, v) ∈ issuedOf rows := by
  obtain ⟨hstart, hissued⟩ := Ceremony.start h hkeyed hfresh
  have hend := hstart.run hissued hx
  refine ⟨hend.once, fun p hp => (hend.handed p hp).1, fun t ht v hv => ?_⟩
  obtain ⟨share, hshare, -, -, hback⟩ := hend.row t ht
  rw [hback v hv]
  exact hshare

/-- Three trustees, of whom two are enough. -/
def three : List (ℕ × ShareRow) := [(7, { index := 1 }), (8, { index := 2 }), (9, { index := 3 })]

def sampleCrypto : Crypto := ⟨fun _ => List.replicate 32 0, fun bs => toString bs.length⟩

def split : Except Failure (List (ℕ × ShareRow) × KeyRow) :=
  issue sampleCrypto Env.plain three (List.replicate 32 7) 2 fun _ => 5

def splitRows : List (ℕ × ShareRow) := (split.toOption.map (·.1)).getD []

def splitKey : KeyRow := (split.toOption.map (·.2)).getD ⟨"", 0, 0⟩

/-- Two of them collect their shares, one of them twice, and submit them. -/
def submissions : List (Time × Step) :=
  (1, .collect 9) :: ((issuedOf splitRows).drop 1).flatMap fun p =>
    [(2, .collect p.1), (3, .submit p.1 p.1 p.2), (4, .save p.1)]

theorem split_ok : issue sampleCrypto Env.plain three (List.replicate 32 7) 2 (fun _ => 5) = .ok (splitRows, splitKey) := by
  change split = _
  unfold splitRows splitKey
  rcases hsplit : split with e | ⟨rows, key⟩
  · have hok : split.toOption.isSome = true := by decide +kernel
    rw [hsplit] at hok
    cases hok
  · rfl

theorem genuine_plain (x : Step) : Genuine Env.plain issued x := by
  cases x with
  | submit i user value => exact fun p _ hhash => hhash
  | collect user | save i | wipe => trivial

theorem handed_once_three :
    ((Steps.run (tick Env.plain) submissions { rows := splitRows, key := splitKey }).handed.map (·.1)).Nodup :=
  (handed_once split_ok (by decide) (by decide) fun x _ => genuine_plain x.2).1

/-- Texts that are there for all. -/
theorem mapM_some {α β : Type} {f : α → Option β} {g : α → β} : ∀ {l : List α}, (∀ a ∈ l, f a = some (g a)) →
    (l.map f).mapM id = some (l.map g)
  | [], _ => rfl
  | a :: l, h => by
    rw [List.map_cons, List.mapM_cons, h a (List.mem_cons_self ..), mapM_some fun b hb => h b (List.mem_cons_of_mem _ hb)]
    rfl

/-- The shares of different trustees that were submitted. -/
theorem Ceremony.shares_nodup (h : Ceremony E issued s)
    (hshares : (issued.map (·.2)).Nodup) {given : List (ℕ × ShareRow)} (hgiven : ∀ t ∈ given, t ∈ s.rows)
    (hnodup : given.Nodup) (hkept : ∀ t ∈ given, t.2.submittedShare.isSome = true) :
    (given.map fun t => t.2.submittedShare.getD "").Nodup ∧
      ∀ v ∈ given.map (fun t => t.2.submittedShare.getD ""), v ∈ issued.map (·.2) := by
  have hof : ∀ t ∈ given, (t.1, t.2.submittedShare.getD "") ∈ issued := by
    intro t ht
    obtain ⟨share, hshare, -, -, hback⟩ := h.row t (hgiven t ht)
    obtain ⟨v, hv⟩ := Option.isSome_iff_exists.mp (hkept t ht)
    rw [hv, Option.getD_some, hback v hv]
    exact hshare
  refine ⟨hnodup.map_on fun t ht t' ht' heq => ?_, fun v hv => ?_⟩
  · have hsame := List.inj_on_of_nodup_map hshares (hof t ht) (hof t' ht') heq
    exact List.inj_on_of_nodup_map h.rows (hgiven t ht) (hgiven t' ht') (Prod.mk.inj hsame).1
  · obtain ⟨t, ht, rfl⟩ := List.mem_map.mp hv
    exact List.mem_map.mpr ⟨_, hof t ht, rfl⟩

/-- The marker, the secret and its checksum are taken apart again. -/
theorem raw_parts {secret check : Bytes} (hcheck : check.length = 8) :
    ((1 :: (secret ++ check)).take ((1 :: (secret ++ check)).length - 8)).drop 1 = secret ∧
      (1 :: (secret ++ check)).drop ((1 :: (secret ++ check)).length - 8) = check := by
  have hlength : (1 :: (secret ++ check)).length - 8 = (1 :: secret).length := by
    rw [List.length_cons, List.length_append, hcheck]
    simp
  rw [hlength, ← List.cons_append]
  exact ⟨by rw [List.take_left]; rfl, List.drop_left⟩

/-- The shares of enough different trustees give the key. -/
theorem combine_indices (hdigest : ∀ bs, (C.sha256 bs).length = 32) (hraw : privateRaw.length = 32)
    (hfits : secretValue C.sha256 privateRaw < shamirPrime) {xs : List ℕ} (hnodup : xs.Nodup) (hxs : ∀ x ∈ xs, x ≤ 255)
    (hpos : 1 ≤ threshold) (henough : threshold ≤ xs.length) :
    combineShares C.sha256 (xs.map fun x => formatShare x
      (shareAt (secretValue C.sha256 privateRaw :: List.ofFn fun i => (draw i : ℕ)) x)) = .ok privateRaw := by
  have hcheck : ((C.sha256 privateRaw).take 8).length = 8 := by rw [List.length_take, hdigest]; rfl
  have hcount : (secretValue C.sha256 privateRaw :: List.ofFn fun i => (draw i : ℕ)).length ≤ xs.length := by
    rw [List.length_cons, List.length_ofFn]
    omega
  have hvalue := interpolateZero_issued hfits hnodup hxs hcount
  obtain ⟨hsecret, hchecksum⟩ := @raw_parts privateRaw _ hcheck
  have hlong : ¬((1 :: (privateRaw ++ (C.sha256 privateRaw).take 8)).length < 10 ∨
      (1 :: (privateRaw ++ (C.sha256 privateRaw).take 8)).head? ≠ some 1) := by
    rw [List.length_cons, List.length_append, hcheck, hraw]
    simp
  have hdistinct : ((xs.map (sharePoint (secretValue C.sha256 privateRaw :: List.ofFn fun i => (draw i : ℕ)))).map
      (·.1)).Nodup := by
    rw [List.map_map]
    exact hnodup.map Nat.cast_injective
  unfold combineShares
  rw [mapM_parseShare _ hxs]
  change (if ¬_ then _ else _) = _
  rw [if_neg (not_not.mpr hdistinct), hvalue]
  dsimp only
  rw [Int.toNat_natCast, secretValue_raw, if_neg hlong, hsecret, hchecksum, if_neg (not_not.mpr rfl)]

/-- **As soon as the threshold is reached, the key for the tally is the one that was
generated, whoever has submitted and in whatever order the rows come, unless a share
was wiped; before that there is none.** -/
theorem key_recovered (h : issue C E trustees privateRaw threshold draw = .ok (rows, key)) (hkeyed : Entries.Keyed trustees)
    (hfresh : ∀ t ∈ trustees, t.2.submittedShare = none) (hdigest : ∀ bs, (C.sha256 bs).length = 32)
    (hraw : privateRaw.length = 32) {xs : List (Time × Step)} (hx : ∀ x ∈ xs, Genuine E (issuedOf rows) x.2)
    {found : List (ℕ × ShareRow)} (hfound : found.Perm (Steps.run (tick E) xs { rows := rows, key := key }).rows)
    (hkept : ∀ t ∈ submitted found, t.2.submittedShare.isSome = true) :
    (threshold ≤ (submitted found).length → privateKeyForTally C key found = .ok privateRaw) ∧
      ((submitted found).length < threshold → ∃ e, privateKeyForTally C key found = .error e) := by
  obtain ⟨hstart, hissued⟩ := Ceremony.start h hkeyed hfresh
  have hend := hstart.run hissued hx
  obtain ⟨shares, hshares, hlen, hrows, hkey⟩ := issue_ok h
  have hthreshold : key.threshold = threshold := by rw [hkey]
  have hpublic : key.publicKey = C.publicOf privateRaw := by rw [hkey]
  have hlength : ((submitted found).map (·.2.submittedShare)).length = (submitted found).length := List.length_map _
  constructor
  · intro henough
    obtain ⟨hk, hkn, hn, -, -⟩ := splitSecret_ok C.sha256 hshares
    have hissuedShares : (issuedOf rows).map (·.2) = shares := by rw [hrows, issuedOf_issue, issued_shares hlen]
    have hnodup : shares.Nodup := by
      obtain ⟨shares', hshares', hnodup⟩ := splitSecret_accepts C.sha256 (hraw.trans_le (by decide)) hk hkn hn draw
      rw [hshares] at hshares'
      cases hshares'
      exact hnodup
    -- the rows that are taken are different, and hold their shares
    have htaken : ∀ t ∈ (submitted found).take threshold, t ∈ submitted found := fun t ht => List.mem_of_mem_take ht
    have hthere : ∀ t ∈ (submitted found).take threshold, t ∈ (Steps.run (tick E) xs { rows := rows, key := key }).rows :=
      fun t ht => hfound.subset (List.mem_filter.mp (htaken t ht)).1
    have hgiven := hend.shares_nodup (hissuedShares ▸ hnodup) hthere
      ((((hfound.nodup_iff.mpr (List.Nodup.of_map _ hend.rows)).filter _)).take) fun t ht => hkept t (htaken t ht)
    have hmapM : (((submitted found).map (·.2.submittedShare)).take threshold).mapM id =
        some (((submitted found).take threshold).map fun t => t.2.submittedShare.getD "") := by
      rw [← List.map_take]
      refine mapM_some fun t ht => ?_
      obtain ⟨v, hv⟩ := Option.isSome_iff_exists.mp (hkept t (htaken t ht))
      rw [hv, Option.getD_some]
    have hcombine : combineShares C.sha256 (((submitted found).take threshold).map fun t => t.2.submittedShare.getD "") =
        .ok privateRaw := by
      obtain ⟨-, -, -, hfits, heq⟩ := splitSecret_ok C.sha256 hshares
      rw [hissuedShares, heq] at hgiven
      obtain ⟨indices, hindices, hle⟩ := issued_indices hgiven.2
      rw [hindices] at hgiven ⊢
      refine combine_indices hdigest hraw hfits (List.Nodup.of_map _ hgiven.1) (fun x hx => (hle x hx).trans hn) hk ?_
      have hlen := congrArg List.length hindices
      rw [List.length_map, List.length_map, List.length_take, Nat.min_eq_left henough] at hlen
      exact hlen.le
    unfold privateKeyForTally
    dsimp only
    rw [hlength, hthreshold, if_neg (Nat.not_lt.mpr henough), hmapM]
    dsimp only
    rw [hcombine]
    dsimp only
    rw [if_pos hpublic.symm]
  · intro hfew
    unfold privateKeyForTally
    dsimp only
    rw [hlength, hthreshold, if_pos hfew]
    exact ⟨_, rfl⟩

theorem key_recovered_three : privateKeyForTally sampleCrypto splitKey
    (Steps.run (tick Env.plain) submissions { rows := splitRows, key := splitKey }).rows.reverse = .ok (List.replicate 32 7) :=
  (key_recovered split_ok (by decide) (by decide) (fun _ => rfl) rfl (fun x _ => genuine_plain x.2) (List.reverse_perm _)
    (by decide +kernel)).1 (by decide +kernel)

end Issued

end Shares
end FlexyVotes
