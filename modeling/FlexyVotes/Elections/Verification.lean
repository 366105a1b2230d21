/-
# Verification bundles

What an observer downloads of an election, the checks of `verify_bundle`, and
those of the offline verifier `tools/verify_election.py`. A check that raises
passes nothing.

The checks compare the root of the bulletin board with the certified one and
leave out the number of ballots: a board with its last tracker doubled can
pass beside the board it was made from (`not_board_bound`). `board_bound` says
when two boards that pass are the same.

Key definitions: `Bundle`, `verifyBundle`, `verifyElection`, `SameKind`.
Key theorem: `board_bound`.
-/
import FlexyVotes.Core.Merkle
import FlexyVotes.Elections.Certification

namespace FlexyVotes
namespace Verification

open Transactions Results

/-! ### Bundles -/

structure SignedConfiguration where
  version : ℕ
  config : Json
  configHash : String
  signature : String
  publicKey : String

structure SignedCertification where
  payload : List (String × Json)
  payloadHash : String
  signature : String
  publicKey : String
  keyId : String

/-- What `verification_bundle` hands out. -/
structure Bundle where
  electionId : ℕ
  title : String := ""
  status : EventStatus
  organization : String := ""
  configuration : Option SignedConfiguration
  certification : Option SignedCertification
  result : Option (List (String × Json))
  trackers : List String
  merkleRoot : String
  verificationKeys : List String

/-- One check: its name, whether it passed, and what it shows. -/
structure Check where
  name : String
  ok : Bool
  detail : Json := .null

/-- `value == s` for what `dict.get` gives. -/
def isStr (s : String) : Option Json → Bool
  | some (.str t) => t = s
  | _ => false

/-- `sha256_hex` of the canonical encoding. -/
def hashOf (E : Env) (j : Json) : String := E.sha256 j.canonicalJson

/-- The checks of the signed configuration. -/
def configurationChecks (E : Env) (c : SignedConfiguration) : List Check :=
  [⟨"Configuration hash", hashOf E c.config = c.configHash, .str c.configHash⟩,
   ⟨"Configuration signature", E.verifySignature c.config.canonicalJson c.signature c.publicKey,
    .str (String.ofList (c.publicKey.toList.take 16) ++ "…")⟩]

/-- The checks of the certification, with the root of the board. -/
def certificationChecks (E : Env) (b : Bundle) (c : SignedCertification) (root : String) : List Check :=
  [⟨"Certification signature", E.verifySignature (Json.obj c.payload).canonicalJson c.signature c.publicKey,
    .str c.keyId⟩,
   ⟨"Bulletin board Merkle root", isStr root (Json.get? c.payload "bulletin_root"), .str root⟩] ++
  (match b.result with
   | some data =>
     [⟨"Result hash", isStr (resultHash E data) (Json.get? c.payload "result_hash"),
       (Json.get? c.payload "result_hash").getD .null⟩]
   | none => []) ++
  (match b.configuration with
   | some k =>
     [⟨"Certified configuration", isStr k.configHash (Json.get? c.payload "config_hash"), .str k.configHash⟩]
   | none => []) ++
  [⟨"Signing key trusted", b.verificationKeys.contains c.publicKey, .str c.keyId⟩]

/-- `verify_bundle`; nothing is the `ValueError` of a tracker that is not hex. -/
def verifyBundle (E : Env) (b : Bundle) : Option (List Check) :=
  let configuration := (b.configuration.map (configurationChecks E)).getD []
  match b.certification with
  | none => some configuration
  | some c =>
    (merkleRoot E.sha256Bytes b.trackers).map fun root => configuration ++ certificationChecks E b c root

/-! ### The offline verifier -/

/-- The arguments of `verify_election.py`. -/
structure Arguments where
  tracker : Option String := none
  trustedKeys : List String := []

/-- The keys `verify_election.py` trusts. -/
def Arguments.trusted (a : Arguments) (b : Bundle) : List String :=
  if a.trustedKeys = [] then b.verificationKeys else a.trustedKeys

def offlineCertificationChecks (E : Env) (a : Arguments) (b : Bundle) (c : SignedCertification) (root : String) :
    List Check :=
  [⟨"certification signature", E.verifySignature (Json.obj c.payload).canonicalJson c.signature c.publicKey,
    .str c.keyId⟩,
   ⟨"certified bulletin root", isStr root (Json.get? c.payload "bulletin_root"), .str ""⟩] ++
  (match b.configuration with
   | some k =>
     [⟨"certified configuration", isStr k.configHash (Json.get? c.payload "config_hash"), .str ""⟩]
   | none => []) ++
  (match b.result with
   | some data =>
     [⟨"result hash", isStr (resultHash E data) (Json.get? c.payload "result_hash"), .str ""⟩]
   | none => []) ++
  [⟨"signing key trusted", (a.trusted b).contains c.publicKey,
    .str (if a.trustedKeys = [] then
      "(from bundle - obtain the key independently for full assurance)" else "(supplied)")⟩]

/-- `main` of `verify_election.py`: the checks it prints. -/
def verifyElection (E : Env) (a : Arguments) (b : Bundle) : Option (List Check) :=
  let configuration := (b.configuration.map fun c : SignedConfiguration =>
    [Check.mk "configuration hash" (hashOf E c.config = c.configHash)
      (.str (String.ofList (c.configHash.toList.take 16))),
     Check.mk "configuration signature" (E.verifySignature c.config.canonicalJson c.signature c.publicKey)
      (.str "")]).getD []
  (merkleRoot E.sha256Bytes b.trackers).map fun root =>
    configuration ++
    [⟨"bulletin board root", root = b.merkleRoot, .str (toString b.trackers.length ++ " ballots")⟩] ++
    ((b.certification.map fun c => offlineCertificationChecks E a b c root).getD []) ++
    (match a.tracker with
     | some t =>
       [⟨"your ballot is on the bulletin board", b.trackers.contains (E.lower (E.strip t)), .str ""⟩]
     | none => [])

/-- Every check passes. -/
def passes (checks : Option (List Check)) : Bool := checks.any fun cs => cs.all (·.ok)

/-! ### What the checks bind -/

/-- A tracker as the platform writes it: hex digits in small letters, no blanks. -/
def isPlainHex (s : String) : Bool := (fromHex s).map toHex == some s

/-- The two boards have as many trackers, and the same ones that are not
written as the platform writes them. -/
structure SameKind (xs ys : List String) : Prop where
  length : xs.length = ys.length
  others : (xs.filter fun s => !isPlainHex s).Perm (ys.filter fun s => !isPlainHex s)

theorem map_fromHex {xs : List String} : ∀ {l : List Bytes}, leafBytes xs = some l → xs.map fromHex = l.map some := by
  induction xs with
  | nil =>
    rintro l ⟨⟩
    rfl
  | cons v xs ih =>
    intro l h
    unfold leafBytes at h ih
    rw [List.mapM_cons] at h
    cases hv : fromHex v with
    | none => simp [hv] at h
    | some bs =>
      cases hl : xs.mapM fromHex with
      | none => simp [hv, hl] at h
      | some l' =>
        simp only [hv, hl, Option.pure_def, Option.bind_eq_bind, Option.bind_some, Option.some.injEq] at h
        rw [← h, List.map_cons, List.map_cons, hv, ih hl]

/-- Trackers in plain hex are known from their bytes. -/
theorem map_plain (xs : List String) :
    ((xs.filter isPlainHex).map fromHex).map (fun o => toHex (o.getD [])) = xs.filter isPlainHex := by
  rw [List.map_map]
  conv_rhs => rw [← List.map_id (xs.filter isPlainHex)]
  refine List.map_congr_left fun s hs => ?_
  have hp := (List.mem_filter.mp hs).2
  rw [isPlainHex, beq_iff_eq, Option.map_eq_some_iff] at hp
  obtain ⟨bs, hbs, hs'⟩ := hp
  simp only [Function.comp_apply, hbs, Option.getD_some, hs', id_eq]

/-- Boards of one kind and with the same bytes list the same trackers. -/
theorem perm_of_bytes {xs ys : List String} (h : SameKind xs ys) (hb : xs.map fromHex = ys.map fromHex) :
    xs.Perm ys := by
  have hsplit : ∀ zs : List String, ((zs.filter isPlainHex).map fromHex ++
      (zs.filter fun s => !isPlainHex s).map fromHex).Perm (zs.map fromHex) := fun zs => by
    rw [← List.map_append]
    exact (List.filter_append_perm isPlainHex zs).map fromHex
  have hplain : ((xs.filter isPlainHex).map fromHex).Perm ((ys.filter isPlainHex).map fromHex) := by
    rw [← List.perm_append_right_iff ((ys.filter fun s => !isPlainHex s).map fromHex)]
    refine ((h.others.map fromHex).symm.append_left _).trans ((hsplit xs).trans ?_)
    rw [hb]
    exact (hsplit ys).symm
  have hfilter : (xs.filter isPlainHex).Perm (ys.filter isPlainHex) := by
    rw [← map_plain xs, ← map_plain ys]
    exact hplain.map _
  exact (List.filter_append_perm isPlainHex xs).symm.trans
    ((hfilter.append h.others).trans (List.filter_append_perm isPlainHex ys))

/-- The root of a board that passes is the certified one. -/
theorem root_of_passes {E : Env} {b : Bundle} {c : SignedCertification} (hc : b.certification = some c)
    (hp : passes (verifyBundle E b) = true) :
    ∃ root, merkleRoot E.sha256Bytes b.trackers = some root ∧
      Json.get? c.payload "bulletin_root" = some (.str root) := by
  cases hroot : merkleRoot E.sha256Bytes b.trackers with
  | none => simp [verifyBundle, passes, hc, hroot] at hp
  | some root =>
    refine ⟨root, rfl, ?_⟩
    have hok : ∀ k ∈ certificationChecks E b c root, k.ok = true := fun k hk => by
      simp only [verifyBundle, passes, hc, hroot, Option.map_some, Option.any_some, List.all_append,
        Bool.and_eq_true, List.all_eq_true] at hp
      exact hp.2 k hk
    have h := hok ⟨"Bulletin board Merkle root", isStr root (Json.get? c.payload "bulletin_root"), .str root⟩
      (by simp [certificationChecks])
    unfold isStr at h
    dsimp only at h
    split at h
    · rename_i t ht
      rw [ht, of_decide_eq_true h]
    · cases h

theorem leafBytes_of_root {E : Env} {xs : List String} {root : String}
    (h : merkleRoot E.sha256Bytes xs = some root) : ∃ l, leafBytes xs = some l := by
  unfold merkleRoot at h
  rw [mapM_leafHash] at h
  cases hl : leafBytes xs with
  | none => simp [hl] at h
  | some l => exact ⟨l, rfl⟩

/-- What is hashed for the root of a board. -/
def boardInputs (E : Env) (trackers : List String) : List Bytes :=
  ((leafBytes trackers).map (hashedInputs E.sha256Bytes)).getD []

/-- No two of the inputs that are hashed for the two boards collide. -/
def CollisionFree (E : Env) (xs ys : List String) : Prop :=
  ∀ a ∈ boardInputs E xs, ∀ b ∈ boardInputs E ys, E.sha256Bytes a = E.sha256Bytes b → a = b

/-- **When two boards under one certification are the same.** Of two bundles
that carry one certified payload and pass every check, the boards list the
same trackers, each as often, exactly if they have as many and the same ones
that are not plain hex. -/
theorem board_bound (E : Env) (hlen : ∀ bs, (E.sha256Bytes bs).length = 32) (a : Arguments) (b b' : Bundle)
    {c c' : SignedCertification} (hc : b.certification = some c) (hc' : b'.certification = some c')
    (hpayload : c.payload = c'.payload) (hp : passes (verifyBundle E b) = true)
    (hp' : passes (verifyBundle E b') = true) (_ho : passes (verifyElection E a b) = true)
    (_ho' : passes (verifyElection E a b') = true) (hinj : CollisionFree E b.trackers b'.trackers) :
    b.trackers.Perm b'.trackers ↔ SameKind b.trackers b'.trackers := by
  refine ⟨fun h => ⟨h.length_eq, h.filter _⟩, fun h => perm_of_bytes h ?_⟩
  obtain ⟨root, hroot, hcert⟩ := root_of_passes hc hp
  obtain ⟨root', hroot', hcert'⟩ := root_of_passes hc' hp'
  obtain ⟨l, hl⟩ := leafBytes_of_root hroot
  obtain ⟨l', hl'⟩ := leafBytes_of_root hroot'
  have hsame : root = root' := by
    rw [hpayload, hcert'] at hcert
    simpa using hcert.symm
  have hfree : ∀ x ∈ hashedInputs E.sha256Bytes l, ∀ y ∈ hashedInputs E.sha256Bytes l',
      E.sha256Bytes x = E.sha256Bytes y → x = y := by
    simpa [CollisionFree, boardInputs, hl, hl'] using hinj
  have hbytes := merkleRoot_inj E.sha256Bytes hlen hl hl' hfree (by rw [hroot, hroot', hsame]) h.length
  rw [map_fromHex hl, map_fromHex hl', hbytes]

/-! ### A doubled tracker -/

/-- A hash to evaluate boards with: 32 bytes of the number a text writes. -/
def numberHash (bs : Bytes) : Bytes :=
  let n := bs.foldl (fun n b => (n * 257 + b.toNat + 1) % 2 ^ 256) 0
  (List.range 32).map fun i => UInt8.ofNat (n / 256 ^ i % 256)

def numbered : Env := { Env.plain with sha256Bytes := numberHash }

theorem numbered_length (bs : Bytes) : (numbered.sha256Bytes bs).length = 32 := by
  simp [numbered, numberHash]

/-- The certification of a board. -/
def certifiedBoard (trackers : List String) : SignedCertification where
  payload := [("bulletin_root", .str ((merkleRoot numberHash trackers).getD "")),
    ("ballots_counted", .nat trackers.length)]
  payloadHash := ""
  signature := ""
  publicKey := "K"
  keyId := ""

/-- A bundle with the board `trackers` under the certification `c`. -/
def boardUnder (c : SignedCertification) (trackers : List String) : Bundle where
  electionId := 1
  status := .PUBLISHED
  configuration := none
  certification := some c
  result := none
  trackers := trackers
  merkleRoot := (merkleRoot numberHash trackers).getD ""
  verificationKeys := ["K"]

/-- A board with the certified root passes on the platform. -/
theorem boardUnder_passes {certified trackers : List String} {root : String}
    (hcert : merkleRoot numberHash certified = some root) (hboard : merkleRoot numberHash trackers = some root) :
    passes (verifyBundle numbered (boardUnder (certifiedBoard certified) trackers)) = true := by
  simp [passes, verifyBundle, certificationChecks, boardUnder, certifiedBoard, numbered, Env.plain, hcert, hboard,
    isStr, Json.get?]

/-- It passes the offline verifier as well, with its own key or with the one that signed. -/
theorem boardUnder_passesOffline {certified trackers : List String} {root : String} {a : Arguments}
    (hcert : merkleRoot numberHash certified = some root) (hboard : merkleRoot numberHash trackers = some root)
    (htracker : a.tracker = none) (htrusted : ∀ b : Bundle, b.verificationKeys = ["K"] → "K" ∈ a.trusted b) :
    passes (verifyElection numbered a (boardUnder (certifiedBoard certified) trackers)) = true := by
  have hkey := htrusted (boardUnder (certifiedBoard certified) trackers) rfl
  simp only [boardUnder, certifiedBoard, hcert, hboard, Option.getD_some] at hkey ⊢
  simp [passes, verifyElection, offlineCertificationChecks, numbered, Env.plain, hboard, isStr, Json.get?, htracker,
    hkey]

/-- The last of three leaves is paired with itself. -/
theorem merkleRoot_doubled (sha256 : Bytes → Bytes) :
    merkleRoot sha256 ["aa", "bb", "cc", "cc"] = merkleRoot sha256 ["aa", "bb", "cc"] := rfl

theorem leafBytes_three : leafBytes ["aa", "bb", "cc"] = some [[170], [187], [204]] := by decide +kernel

theorem merkleRoot_three : ∃ root, merkleRoot numberHash ["aa", "bb", "cc"] = some root :=
  (merkleRoot_isSome numberHash).mpr (leafBytes_isSome.mp ⟨_, leafBytes_three⟩)

theorem leafBytes_doubled : leafBytes ["aa", "bb", "cc", "cc"] = some [[170], [187], [204], [204]] := by decide +kernel

/-- What is hashed for the three, in bytes: nothing is written in hex and read back. -/
theorem boardInputs_three (E : Env) : boardInputs E ["aa", "bb", "cc"] =
    [[0, 170], [0, 187], [0, 204], E.sha256Bytes [0, 170] ++ E.sha256Bytes [0, 187],
      E.sha256Bytes [0, 204] ++ E.sha256Bytes [0, 204],
      E.sha256Bytes (E.sha256Bytes [0, 170] ++ E.sha256Bytes [0, 187]) ++
        E.sha256Bytes (E.sha256Bytes [0, 204] ++ E.sha256Bytes [0, 204])] := by
  simp [boardInputs, leafBytes_three, hashedInputs, Merkle.hashed, Merkle.pairs, Merkle.level, hashPair]

theorem boardInputs_doubled (E : Env) :
    boardInputs E ["aa", "bb", "cc", "cc"] ⊆ boardInputs E ["aa", "bb", "cc"] := by
  rw [boardInputs_three]
  simp [boardInputs, leafBytes_doubled, hashedInputs, Merkle.hashed, Merkle.pairs, Merkle.level, hashPair]

/-- Boards of what is hashed for the three do not collide: the first bytes of the digests differ. -/
theorem collisionFree_three {xs ys : List String} (hx : boardInputs numbered xs ⊆ boardInputs numbered ["aa", "bb", "cc"])
    (hy : boardInputs numbered ys ⊆ boardInputs numbered ["aa", "bb", "cc"]) : CollisionFree numbered xs ys := by
  have hfirst : ((boardInputs numbered ["aa", "bb", "cc"]).map fun bs => (numberHash bs).head?).Nodup := by
    rw [boardInputs_three]
    decide +kernel
  intro a ha b hb hab
  exact List.inj_on_of_nodup_map hfirst (hx ha) (hy hb) (congrArg List.head? hab)

/-- A board that is the certified one. -/
theorem board_bound_itself :
    ["aa", "bb", "cc"].Perm ["aa", "bb", "cc"] ↔ SameKind ["aa", "bb", "cc"] ["aa", "bb", "cc"] := by
  obtain ⟨root, hroot⟩ := merkleRoot_three
  have hkey : ∀ b : Bundle, b.verificationKeys = ["K"] → "K" ∈ ({} : Arguments).trusted b := by
    intro b hb
    simp [Arguments.trusted, hb]
  exact board_bound numbered numbered_length {} (boardUnder (certifiedBoard ["aa", "bb", "cc"]) ["aa", "bb", "cc"])
    (boardUnder (certifiedBoard ["aa", "bb", "cc"]) ["aa", "bb", "cc"]) rfl rfl rfl (boardUnder_passes hroot hroot)
    (boardUnder_passes hroot hroot) (boardUnder_passesOffline hroot hroot rfl hkey)
    (boardUnder_passesOffline hroot hroot rfl hkey)
    (collisionFree_three (List.Subset.refl _) (List.Subset.refl _))

/-- **A tracker counted twice passes.** Three ballots are certified; a board that
lists the last of them twice passes every check as well. -/
theorem not_board_bound :
    ¬∀ (E : Env) (a : Arguments) (b b' : Bundle) (c c' : SignedCertification),
      (∀ bs, (E.sha256Bytes bs).length = 32) → b.certification = some c → b'.certification = some c' →
      c.payload = c'.payload → passes (verifyBundle E b) = true → passes (verifyBundle E b') = true →
      passes (verifyElection E a b) = true → passes (verifyElection E a b') = true →
      CollisionFree E b.trackers b'.trackers → b.trackers.Perm b'.trackers := by
  intro h
  obtain ⟨root, hroot⟩ := merkleRoot_three
  have hroot' := (merkleRoot_doubled numberHash).trans hroot
  have hkey : ∀ b : Bundle, b.verificationKeys = ["K"] → "K" ∈ Arguments.trusted { trustedKeys := ["K"] } b := by
    intro b _
    simp [Arguments.trusted]
  have hperm := h numbered { trustedKeys := ["K"] }
    (boardUnder (certifiedBoard ["aa", "bb", "cc"]) ["aa", "bb", "cc"])
    (boardUnder (certifiedBoard ["aa", "bb", "cc"]) ["aa", "bb", "cc", "cc"]) _ _ numbered_length rfl rfl rfl
    (boardUnder_passes hroot hroot) (boardUnder_passes hroot hroot') (boardUnder_passesOffline hroot hroot rfl hkey)
    (boardUnder_passesOffline hroot hroot' rfl hkey)
    (collisionFree_three (List.Subset.refl _) (boardInputs_doubled _))
  have hlen := hperm.length_eq
  simp [boardUnder] at hlen

end Verification
end FlexyVotes
