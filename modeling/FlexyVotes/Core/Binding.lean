/-
# What the root of the bulletin board binds

A leaf is hashed with a zero byte before it, a pair with nothing before its two
digests: 33 bytes for a tracker, 64 for a pair. So a root binds trackers of 32
bytes that are all different, without their number, and what an inclusion proof
leads to the root was hashed on the way to it: a tracker, or else 63 bytes that
with the zero byte are a pair whose left digest begins with one
(`merkleRoot_binds`).

Key definitions: `rootInputs`, `checkedInputs`.
Key theorems: `merkleRoot_binds`.
-/
import FlexyVotes.Core.Merkle

namespace FlexyVotes
namespace Binding

section Tree

variable (sha256 : Bytes → Bytes)

/-- What is hashed to get the root, of no leaves too. -/
def rootInputs (leaves : List Bytes) : List Bytes := if leaves = [] then [[]] else hashedInputs sha256 leaves

/-- What is hashed on the way up from `current`. -/
def stepInputs : List ProofStep → String → List Bytes
  | [], _ => []
  | step :: steps, current =>
    let input :=
      match step.side with
      | .left => (fromHex step.hash).getD [] ++ (fromHex current).getD []
      | .right => (fromHex current).getD [] ++ (fromHex step.hash).getD []
    input :: stepInputs steps (toHex (sha256 input))

/-- What is hashed to check a proof. -/
def checkedInputs (value : String) (proof : List ProofStep) : List Bytes :=
  let leaf := 0 :: (fromHex value).getD []
  leaf :: stepInputs sha256 proof (toHex (sha256 leaf))

/-- The hashes of a proof are 32 bytes long. -/
def Digests (proof : List ProofStep) : Prop := ∀ s ∈ proof, ∃ b, fromHex s.hash = some b ∧ b.length = 32

/-- SHA-256 does not collide on the inputs. -/
def NoCollision (inputs : List Bytes) : Prop := ∀ a ∈ inputs, ∀ b ∈ inputs, sha256 a = sha256 b → a = b

variable {sha256}

theorem NoCollision.mono {inputs inputs' : List Bytes} (h : NoCollision sha256 inputs') (hsub : inputs ⊆ inputs') :
    NoCollision sha256 inputs := fun a ha b hb => h a (hsub ha) b (hsub hb)

/-- A digest of what is hashed to get the root of the leaves. -/
def InTree (sha256 : Bytes → Bytes) (leaves : List Bytes) (s : String) : Prop :=
  ∃ b ∈ rootInputs sha256 leaves, s = toHex (sha256 b)

variable {leaves : List Bytes}

/-- The leaves of the tree, in hex. -/
def leafDigests (sha256 : Bytes → Bytes) (leaves : List Bytes) : List String :=
  leaves.map fun bs => toHex (sha256 (0 :: bs))

theorem leafDigests_isDigest : ∀ x ∈ leafDigests sha256 leaves, IsDigest sha256 x := by
  intro x hx
  obtain ⟨bs, -, rfl⟩ := List.mem_map.mp hx
  exact ⟨_, rfl⟩

theorem rootInputs_eq (h : leaves ≠ []) : rootInputs sha256 leaves = hashedInputs sha256 leaves := if_neg h

theorem InTree.of_leaf {x : String} (h : x ∈ leafDigests sha256 leaves) : InTree sha256 leaves x := by
  obtain ⟨bs, hbs, rfl⟩ := List.mem_map.mp h
  refine ⟨0 :: bs, ?_, rfl⟩
  rw [rootInputs_eq (List.ne_nil_of_mem hbs)]
  exact List.mem_append_left _ (List.mem_map_of_mem hbs)

theorem InTree.of_pair {q : String × String}
    (h : q ∈ Merkle.hashed (hashPair sha256) leaves.length (leafDigests sha256 leaves)) :
    InTree sha256 leaves (hashPair sha256 q.1 q.2) := by
  have hne : leaves ≠ [] := by
    rintro rfl
    cases h
  refine ⟨_, ?_, rfl⟩
  rw [rootInputs_eq hne]
  exact List.mem_append_right _ (List.mem_map_of_mem h)

variable (hlen : ∀ bs, (sha256 bs).length = 32)

include hlen

/-- A pair that is hashed is two digests of 32 bytes. -/
theorem pair_bytes {p : String × String}
    (h : p ∈ Merkle.hashed (hashPair sha256) leaves.length (leafDigests sha256 leaves)) :
    ∃ u v, p = (toHex (sha256 u), toHex (sha256 v)) ∧
      (fromHex p.1).getD [] ++ (fromHex p.2).getD [] = sha256 u ++ sha256 v ∧
      ((fromHex p.1).getD [] ++ (fromHex p.2).getD []).length = 64 := by
  obtain ⟨⟨u, hu⟩, v, hv⟩ := climb_digests sha256 _ _ leafDigests_isDigest p h
  refine ⟨u, v, Prod.ext hu hv, ?_, ?_⟩
  · rw [hu, hv, fromHex_toHex, fromHex_toHex, Option.getD_some, Option.getD_some]
  · rw [hu, hv, fromHex_toHex, fromHex_toHex, Option.getD_some, Option.getD_some, List.length_append, hlen, hlen]

/-- What is hashed to get a root is empty, a leaf with its zero byte, or a pair. -/
theorem mem_rootInputs {b : Bytes} (h : b ∈ rootInputs sha256 leaves) : leaves = [] ∧ b = [] ∨
    (∃ t ∈ leaves, b = 0 :: t) ∨
    ∃ p ∈ Merkle.hashed (hashPair sha256) leaves.length (leafDigests sha256 leaves), ∃ u v,
      p = (toHex (sha256 u), toHex (sha256 v)) ∧ b = sha256 u ++ sha256 v ∧ b.length = 64 := by
  by_cases hnil : leaves = []
  · rw [rootInputs, if_pos hnil, List.mem_singleton] at h
    exact Or.inl ⟨hnil, h⟩
  rw [rootInputs_eq hnil] at h
  unfold hashedInputs at h
  rcases List.mem_append.mp h with hleaf | hpair
  · obtain ⟨t, ht, rfl⟩ := List.mem_map.mp hleaf
    exact Or.inr (Or.inl ⟨t, ht, rfl⟩)
  · obtain ⟨p, hp, rfl⟩ := List.mem_map.mp hpair
    obtain ⟨u, v, hpuv, hbytes, h64⟩ := pair_bytes hlen hp
    exact Or.inr (Or.inr ⟨p, hp, u, v, hpuv, hbytes, h64⟩)

/-- Below a digest of the tree that two digests were hashed to, both are of the tree. -/
theorem InTree.below (h32 : ∀ t ∈ leaves, t.length = 32) {x y : Bytes} (hx : x.length = 32) (hy : y.length = 32)
    (hinj : NoCollision sha256 ((x ++ y) :: rootInputs sha256 leaves))
    (h : InTree sha256 leaves (toHex (sha256 (x ++ y)))) : InTree sha256 leaves (toHex x) ∧ InTree sha256 leaves (toHex y) := by
  obtain ⟨b, hb, hsame⟩ := h
  obtain rfl := hinj _ (by simp) b (by simp [hb]) (toHex_inj hsame)
  have hlength : (x ++ y).length = 64 := by rw [List.length_append, hx, hy]
  rcases mem_rootInputs hlen hb with ⟨-, hnil⟩ | ⟨t, ht, hleaf⟩ | ⟨p, hp, u, v, hpuv, hpair, -⟩
  · rw [hnil] at hlength
    cases hlength
  · -- a leaf is hashed with one byte more
    rw [hleaf, List.length_cons, h32 t ht] at hlength
    omega
  · obtain ⟨hu, hv⟩ := List.append_inj hpair (by rw [hx, hlen])
    have hmem : ∀ z, z = p.1 ∨ z = p.2 → InTree sha256 leaves z := fun z hz => by
      rcases Merkle.hashed_mem _ hp z hz with hz | ⟨q, hq, rfl⟩
      · exact .of_leaf hz
      · exact .of_pair hq
    refine ⟨?_, ?_⟩
    · rw [hu]
      exact hmem _ (Or.inl (by rw [hpuv]))
    · rw [hv]
      exact hmem _ (Or.inr (by rw [hpuv]))

/-- **What leads to a digest of the tree is of the tree.** -/
theorem InTree.of_steps (h32 : ∀ t ∈ leaves, t.length = 32) : ∀ (steps : List ProofStep) (u : Bytes) (top : String),
    Digests steps → NoCollision sha256 (stepInputs sha256 steps (toHex (sha256 u)) ++ rootInputs sha256 leaves) →
    steps.foldlM (fun current step =>
      match step.side with
      | .left => hashTexts sha256 step.hash current
      | .right => hashTexts sha256 current step.hash) (toHex (sha256 u)) = some top →
    InTree sha256 leaves top → InTree sha256 leaves (toHex (sha256 u))
  | [], u, top, _, _, h, htop => by
    rw [List.foldlM_nil, Option.pure_def, Option.some.injEq] at h
    rwa [h]
  | s :: steps, u, top, hdigests, hinj, h, htop => by
    obtain ⟨b, hb, hb32⟩ := hdigests s (by simp)
    have hrest : Digests steps := fun s' hs' => hdigests s' (by simp [hs'])
    rw [List.foldlM_cons] at h
    unfold stepInputs at hinj
    rcases hside : s.side with _ | _
    · rw [hside] at h hinj
      simp only [hashTexts, hb, fromHex_toHex, Option.bind_eq_bind, Option.bind_some, Option.getD_some,
        List.cons_append] at h hinj
      have hnext := InTree.of_steps h32 steps _ top hrest (hinj.mono (List.subset_cons_self _ _)) h htop
      refine (InTree.below hlen h32 hb32 (hlen u) (hinj.mono fun x hx => ?_) hnext).2
      rcases List.mem_cons.mp hx with rfl | hx
      · exact List.mem_cons_self
      · exact List.mem_cons_of_mem _ (List.mem_append_right _ hx)
    · rw [hside] at h hinj
      simp only [hashTexts, hb, fromHex_toHex, Option.bind_eq_bind, Option.bind_some, Option.getD_some,
        List.cons_append] at h hinj
      have hnext := InTree.of_steps h32 steps _ top hrest (hinj.mono (List.subset_cons_self _ _)) h htop
      refine (InTree.below hlen h32 (hlen u) hb32 (hinj.mono fun x hx => ?_) hnext).1
      rcases List.mem_cons.mp hx with rfl | hx
      · exact List.mem_cons_self
      · exact List.mem_cons_of_mem _ (List.mem_append_right _ hx)

variable (sha256) in
omit hlen in
/-- The root of some leaves is one node. -/
theorem merkleRoot_eq {xs : List String} (hx : leafBytes xs = some leaves) (hne : leaves ≠ []) :
    ∃ a, Merkle.climb (hashPair sha256) leaves.length (leafDigests sha256 leaves) = [a] ∧
      merkleRoot sha256 xs = some a := by
  obtain ⟨a, ha⟩ := Merkle.climb_eq_singleton (hashPair sha256) (leafDigests sha256 leaves)
    (by simpa [leafDigests] using hne)
  have hsize : (leafDigests sha256 leaves).length = leaves.length := by simp [leafDigests]
  refine ⟨a, hsize ▸ ha, ?_⟩
  rw [merkleRoot, mapM_leafHash, hx, Option.map_some, Option.map_some]
  show some ((Merkle.climb (hashPair sha256) (leafDigests sha256 leaves).length (leafDigests sha256 leaves)).head?.getD
    (toHex (sha256 []))) = some a
  rw [ha, List.head?_cons, Option.getD_some]

omit hlen in
theorem merkleRoot_nil {xs : List String} (hx : leafBytes xs = some []) : merkleRoot sha256 xs = some (toHex (sha256 [])) := by
  rw [merkleRoot, mapM_leafHash, hx]
  rfl

omit hlen in
/-- The root is a digest of the tree. -/
theorem inTree_root {xs : List String} (hx : leafBytes xs = some leaves) {root : String}
    (hroot : merkleRoot sha256 xs = some root) : InTree sha256 leaves root := by
  by_cases hne : leaves = []
  · subst hne
    obtain rfl := Option.some.inj (hroot.symm.trans (merkleRoot_nil hx))
    exact ⟨[], by simp [rootInputs], rfl⟩
  obtain ⟨a, ha, hroot'⟩ := merkleRoot_eq sha256 hx hne
  obtain rfl := Option.some.inj (hroot.symm.trans hroot')
  have hmem : root ∈ Merkle.climb (hashPair sha256) leaves.length (leafDigests sha256 leaves) := by
    rw [ha]
    exact List.mem_singleton_self _
  rcases Merkle.climb_mem _ hmem with h | ⟨q, hq, rfl⟩
  · exact .of_leaf h
  · exact .of_pair hq

/-- The root of no leaves is the root of no others. -/
theorem eq_nil_of_inTree (hinj : NoCollision sha256 ([] :: rootInputs sha256 leaves))
    (h : InTree sha256 leaves (toHex (sha256 []))) : leaves = [] := by
  obtain ⟨b, hb, hsame⟩ := h
  obtain rfl := hinj [] (by simp) b (by simp [hb]) (toHex_inj hsame)
  rcases mem_rootInputs hlen hb with ⟨hnil, -⟩ | ⟨t, -, hleaf⟩ | ⟨-, -, -, -, -, -, h64⟩
  · exact hnil
  · cases hleaf
  · cases h64

/-- Equal roots of leaves that are all different. -/
theorem leaves_of_root {xs ys : List String} {l l' : List Bytes} (hx : leafBytes xs = some l) (hy : leafBytes ys = some l')
    (hnd : l.Nodup) (hnd' : l'.Nodup) (h32 : ∀ t ∈ l, t.length = 32) (h32' : ∀ t ∈ l', t.length = 32)
    (hinj : NoCollision sha256 (rootInputs sha256 l ++ rootInputs sha256 l'))
    (hroot : merkleRoot sha256 xs = merkleRoot sha256 ys) : l = l' := by
  by_cases hnil : l = []
  · subst hnil
    have htree : InTree sha256 l' (toHex (sha256 [])) := inTree_root hy (hroot.symm.trans (merkleRoot_nil hx))
    exact (eq_nil_of_inTree hlen (hinj.mono (by simp [rootInputs])) htree).symm
  by_cases hnil' : l' = []
  · subst hnil'
    have htree : InTree sha256 l (toHex (sha256 [])) := inTree_root hx (hroot.trans (merkleRoot_nil hy))
    exact eq_nil_of_inTree hlen (hinj.mono (by simp [rootInputs])) htree
  obtain ⟨a, ha, hra⟩ := merkleRoot_eq sha256 hx hnil
  obtain ⟨b, hb, hrb⟩ := merkleRoot_eq sha256 hy hnil'
  obtain rfl : a = b := Option.some.inj (hra.symm.trans (hroot.trans hrb))
  rw [rootInputs_eq hnil, rootInputs_eq hnil'] at hinj
  set H := Merkle.hashed (hashPair sha256) l.length (leafDigests sha256 l) ++
    Merkle.hashed (hashPair sha256) l'.length (leafDigests sha256 l') with hH
  have hbytes : ∀ p ∈ H, ∃ u v, p = (toHex (sha256 u), toHex (sha256 v)) ∧
      (fromHex p.1).getD [] ++ (fromHex p.2).getD [] = sha256 u ++ sha256 v ∧
      ((fromHex p.1).getD [] ++ (fromHex p.2).getD []).length = 64 := fun p hp => by
    rcases List.mem_append.mp hp with hp | hp
    · exact pair_bytes hlen hp
    · exact pair_bytes hlen hp
  have hin : ∀ p ∈ H, (fromHex p.1).getD [] ++ (fromHex p.2).getD [] ∈ hashedInputs sha256 l ++ hashedInputs sha256 l' :=
    fun p hp => by
      rcases List.mem_append.mp hp with hp | hp
      · exact List.mem_append_left _ (List.mem_append_right _ (List.mem_map_of_mem hp))
      · exact List.mem_append_right _ (List.mem_append_right _ (List.mem_map_of_mem hp))
  have hpairs : ∀ p ∈ H, ∀ q ∈ H, hashPair sha256 p.1 p.2 = hashPair sha256 q.1 q.2 → p = q := by
    intro p hp q hq heq
    obtain ⟨u, v, hpuv, hpb, -⟩ := hbytes p hp
    obtain ⟨u', v', hquv, hqb, -⟩ := hbytes q hq
    have hsame := hinj _ (hin p hp) _ (hin q hq) (toHex_inj heq)
    obtain ⟨h₁, h₂⟩ := List.append_inj (hpb.symm.trans (hsame.trans hqb)) (by rw [hlen, hlen])
    rw [hpuv, hquv, h₁, h₂]
  have hleafIn : ∀ bs, bs ∈ l ++ l' → 0 :: bs ∈ hashedInputs sha256 l ++ hashedInputs sha256 l' := fun bs hbs => by
    rcases List.mem_append.mp hbs with hbs | hbs
    · exact List.mem_append_left _ (List.mem_append_left _ (List.mem_map_of_mem hbs))
    · exact List.mem_append_right _ (List.mem_append_left _ (List.mem_map_of_mem hbs))
  have hsep : ∀ p ∈ H, hashPair sha256 p.1 p.2 ∉ leafDigests sha256 (l ++ l') := by
    intro p hp hmem
    obtain ⟨bs, hbs, heq⟩ := List.mem_map.mp hmem
    obtain ⟨-, -, -, -, h64⟩ := hbytes p hp
    have hsame := hinj _ (hleafIn bs hbs) _ (hin p hp) (toHex_inj heq)
    rw [← hsame, List.length_cons] at h64
    have hbs32 : bs.length = 32 := by
      rcases List.mem_append.mp hbs with hbs | hbs
      · exact h32 bs hbs
      · exact h32' bs hbs
    omega
  have hleaves : leafDigests sha256 l = leafDigests sha256 l' := by
    have hdigests : ∀ k : List Bytes, (∀ bs ∈ k, bs ∈ l ++ l') → k.Nodup → (leafDigests sha256 k).Nodup := by
      intro k hk hnd
      refine List.Nodup.map_on (fun x hx y hy hxy => ?_) hnd
      exact (List.cons.inj (hinj _ (hleafIn x (hk x hx)) _ (hleafIn y (hk y hy)) (toHex_inj hxy))).2
    have hheight : ∀ k : List Bytes, (∀ bs ∈ k, bs ∈ l ++ l') → ∀ x ∈ leafDigests sha256 k,
        Merkle.Height (hashPair sha256) H (leafDigests sha256 (l ++ l')) 0 x := fun k hk x hx => by
      obtain ⟨bs, hbs, rfl⟩ := List.mem_map.mp hx
      exact .leaf (List.mem_map.mpr ⟨bs, hk bs hbs, rfl⟩)
    have hl : ∀ bs ∈ l, bs ∈ l ++ l' := fun _ => List.mem_append_left _
    have hl' : ∀ bs ∈ l', bs ∈ l ++ l' := fun _ => List.mem_append_right _
    exact Merkle.climb_binds hpairs hsep l.length l'.length 0 (hdigests l hl hnd) (hdigests l' hl' hnd')
      (hheight l hl) (hheight l' hl') (fun p hp => List.mem_append_left _ hp) (fun p hp => List.mem_append_right _ hp)
      (by simp [leafDigests]) (by simp [leafDigests]) ha hb
  refine Merkle.map_inj_of_forall (fun x hx y hy hxy => ?_) hleaves
  exact (List.cons.inj (hinj _ (hleafIn x (List.mem_append_left _ hx)) _ (hleafIn y (List.mem_append_right _ hy))
    (toHex_inj hxy))).2

/-- **The root binds the trackers, and its proofs lead to them.** Lists of 32-byte
trackers that are all different have different roots; and a proof of 32-byte
hashes is accepted for a tracker of the list only, or for 63 bytes that with the
zero byte of a leaf are two digests that were hashed to a node. -/
theorem merkleRoot_binds {xs : List String} {l : List Bytes} (hx : leafBytes xs = some l) (hnd : l.Nodup)
    (h32 : ∀ t ∈ l, t.length = 32) :
    (∀ ys l', leafBytes ys = some l' → l'.Nodup → (∀ t ∈ l', t.length = 32) →
      NoCollision sha256 (rootInputs sha256 l ++ rootInputs sha256 l') →
      merkleRoot sha256 xs = merkleRoot sha256 ys → l = l') ∧
    ∀ value proof root, Digests proof →
      NoCollision sha256 (checkedInputs sha256 value proof ++ rootInputs sha256 l) →
      merkleRoot sha256 xs = some root → verifyMerkleProof sha256 value proof root = some true →
      ∃ v, fromHex value = some v ∧ (v ∈ l ∨ v.length = 63 ∧
        ∃ p ∈ Merkle.hashed (hashPair sha256) l.length (leafDigests sha256 l), ∃ u u',
          p = (toHex (sha256 u), toHex (sha256 u')) ∧ 0 :: v = sha256 u ++ sha256 u') := by
  refine ⟨fun ys l' hy hnd' h32' hinj hroot => leaves_of_root hlen hx hy hnd hnd' h32 h32' hinj hroot,
    fun value proof root hdigests hinj hroot hcheck => ?_⟩
  obtain ⟨v, hv⟩ : ∃ v, fromHex value = some v := by
    rcases hv : fromHex value with _ | v
    · simp [verifyMerkleProof, leafHash, hv] at hcheck
    · exact ⟨v, rfl⟩
  refine ⟨v, hv, ?_⟩
  rw [verifyMerkleProof, leafHash, hv, Option.map_some, Option.bind_eq_bind, Option.bind_some,
    Option.bind_eq_some_iff] at hcheck
  obtain ⟨top, htop, heq⟩ := hcheck
  rw [Option.some.injEq, beq_iff_eq] at heq
  subst heq
  rw [checkedInputs, hv, Option.getD_some] at hinj
  have hsteps : NoCollision sha256 (stepInputs sha256 proof (toHex (sha256 (0 :: v))) ++ rootInputs sha256 l) :=
    hinj.mono (List.subset_cons_self _ _)
  obtain ⟨b, hb, hsame⟩ := InTree.of_steps hlen h32 proof (0 :: v) top hdigests hsteps htop (inTree_root hx hroot)
  obtain rfl := hinj (0 :: v) (by simp) b (by simp [hb]) (toHex_inj hsame)
  rcases mem_rootInputs hlen hb with ⟨-, hnil⟩ | ⟨t, ht, hleaf⟩ | ⟨p, hp, u, u', hpu, hpair, h64⟩
  · cases hnil
  · rw [(List.cons.inj hleaf).2]
    exact Or.inl ht
  · rw [List.length_cons] at h64
    exact Or.inr ⟨by omega, p, hp, u, u', hpu, hpair⟩

end Tree

/-! ### A pair taken for a leaf -/

/-- The bytes of a text in hex. -/
def ofHex (s : String) : Bytes := (fromHex s).getD []

/-- Two trackers; the digest of the first begins with a zero byte. -/
def zeroTracker : String := "000000000000000000000000000000000000000000000000000000000000009b"

def oneTracker : String := "0000000000000000000000000000000000000000000000000000000000000001"

def zeroDigest : String := "008ba935fcb531c3fba227a8e1093953274740ad544313a8cf9ee0495d43a4d6"

def oneDigest : String := "1fd4247443c9440cb3c48c28851937196bc156032d70a96c98e127ecb347e45f"

/-- What SHA-256 gives for the two leaves, and for their pair either way round. -/
def knownDigests : List (Bytes × Bytes) :=
  [(0 :: ofHex zeroTracker, ofHex zeroDigest), (0 :: ofHex oneTracker, ofHex oneDigest),
    (ofHex zeroDigest ++ ofHex oneDigest, ofHex "3a991ec3ac697a18815935971831013975e9e2a349341284979282d38f2bc260"),
    (ofHex oneDigest ++ ofHex zeroDigest, ofHex "b5ce022e9971f01423600a1d0e06cb9c710185ab5ebbbfe58c97f01ff5d15c7d")]

/-- SHA-256 on the inputs of `knownDigests`. -/
def knownSha256 (b : Bytes) : Bytes := ((knownDigests.find? fun e => e.1 = b).map (·.2)).getD (List.replicate 32 0)

/-- What is hashed for the root of two leaves. -/
theorem rootInputs_pair (sha256 : Bytes → Bytes) (x y : Bytes) :
    rootInputs sha256 [x, y] = [0 :: x, 0 :: y, sha256 (0 :: x) ++ sha256 (0 :: y)] := by
  simp [rootInputs, hashedInputs, Merkle.hashed, Merkle.pairs, Merkle.level, hashPair]

theorem zeroTracker_length : (ofHex zeroTracker).length = 32 := by decide +kernel

theorem oneTracker_length : (ofHex oneTracker).length = 32 := by decide +kernel

theorem trackers_ne : ofHex zeroTracker ≠ ofHex oneTracker := by decide +kernel

/-- The digests are told apart by their first bytes. -/
theorem knownDigests_first : knownDigests.map (·.2.head?) = [some 0, some 31, some 58, some 181] := by decide +kernel

theorem knownDigests_length : knownDigests.map (·.2.length) = [32, 32, 32, 32] := by decide +kernel

theorem zero_known : (0 :: ofHex zeroTracker, ofHex zeroDigest) ∈ knownDigests := .head _

theorem one_known : (0 :: ofHex oneTracker, ofHex oneDigest) ∈ knownDigests := .tail _ (.head _)

theorem length_of_known {e : Bytes × Bytes} (he : e ∈ knownDigests) : e.2.length = 32 := by
  have hmem := List.mem_map_of_mem (f := (·.2.length)) he
  rw [knownDigests_length] at hmem
  simpa using hmem

theorem zeroDigest_length : (ofHex zeroDigest).length = 32 := length_of_known zero_known

theorem oneDigest_length : (ofHex oneDigest).length = 32 := length_of_known one_known

theorem knownSha256_length (b : Bytes) : (knownSha256 b).length = 32 := by
  unfold knownSha256
  rcases hfind : knownDigests.find? fun e => e.1 = b with _ | e
  · rw [hfind]
    exact List.length_replicate
  · rw [hfind]
    exact length_of_known (List.mem_of_find?_eq_some hfind)

theorem known_of_digest {d e : Bytes × Bytes} (hd : d ∈ knownDigests) (he : e ∈ knownDigests) (h : d.2 = e.2) : d = e := by
  have hfirst : (knownDigests.map (·.2.head?)).Nodup := by
    rw [knownDigests_first]
    decide
  exact List.inj_on_of_nodup_map hfirst hd he (congrArg List.head? h)

theorem digests_ne : ofHex zeroDigest ≠ ofHex oneDigest := fun h =>
  trackers_ne (List.cons.inj (congrArg Prod.fst (known_of_digest zero_known one_known h))).2

theorem knownInputs_nodup : (knownDigests.map (·.1)).Nodup := by
  have hlong : ∀ t d d' : Bytes, t.length = 32 → d.length = 32 → d'.length = 32 → 0 :: t ≠ d ++ d' := by
    intro t d d' ht hd hd' h
    have hlen := congrArg List.length h
    simp [ht, hd, hd'] at hlen
  have hpair : ofHex zeroDigest ++ ofHex oneDigest ≠ ofHex oneDigest ++ ofHex zeroDigest := fun h =>
    digests_ne (List.append_inj_left h (by rw [zeroDigest_length, oneDigest_length]))
  simp only [knownDigests, List.map_cons, List.map_nil, List.nodup_cons, List.mem_cons, List.not_mem_nil, or_false,
    not_or, List.cons.injEq, true_and, not_false_eq_true, List.nodup_nil, and_true]
  exact ⟨⟨trackers_ne, hlong _ _ _ zeroTracker_length zeroDigest_length oneDigest_length,
      hlong _ _ _ zeroTracker_length oneDigest_length zeroDigest_length⟩,
    ⟨hlong _ _ _ oneTracker_length zeroDigest_length oneDigest_length,
      hlong _ _ _ oneTracker_length oneDigest_length zeroDigest_length⟩, hpair⟩

/-- The inputs are told apart by their lengths and the trackers, so that each is found. -/
theorem knownSha256_of {e : Bytes × Bytes} (he : e ∈ knownDigests) : knownSha256 e.1 = e.2 := by
  obtain ⟨d, hd⟩ : ∃ d, knownDigests.find? (fun d => d.1 = e.1) = some d :=
    Option.isSome_iff_exists.mp (List.find?_isSome.mpr ⟨e, he, by simp⟩)
  have hkey : d.1 = e.1 := by simpa using List.find?_some hd
  obtain rfl := List.inj_on_of_nodup_map knownInputs_nodup (List.mem_of_find?_eq_some hd) he hkey
  unfold knownSha256
  rw [hd]
  rfl

theorem noCollision_known {inputs : List Bytes} (h : inputs ⊆ knownDigests.map (·.1)) : NoCollision knownSha256 inputs := by
  intro a ha b hb hab
  obtain ⟨d, hd, rfl⟩ := List.mem_map.mp (h ha)
  obtain ⟨e, he, rfl⟩ := List.mem_map.mp (h hb)
  rw [knownSha256_of hd, knownSha256_of he] at hab
  rw [known_of_digest hd he hab]

theorem knownSha256_zero : knownSha256 (0 :: ofHex zeroTracker) = ofHex zeroDigest := knownSha256_of zero_known

theorem knownSha256_one : knownSha256 (0 :: ofHex oneTracker) = ofHex oneDigest := knownSha256_of one_known

theorem knownSha256_pair : knownSha256 (ofHex zeroDigest ++ ofHex oneDigest) =
    ofHex "3a991ec3ac697a18815935971831013975e9e2a349341284979282d38f2bc260" :=
  knownSha256_of (e := (ofHex zeroDigest ++ ofHex oneDigest, _)) (.tail _ (.tail _ (.head _)))

theorem merkleRoot_known : merkleRoot knownSha256 [zeroTracker, oneTracker] =
    some (toHex (ofHex "3a991ec3ac697a18815935971831013975e9e2a349341284979282d38f2bc260")) := by
  have hleaves : leafBytes [zeroTracker, oneTracker] = some [ofHex zeroTracker, ofHex oneTracker] := rfl
  rw [merkleRoot, mapM_leafHash, hleaves]
  simp [Merkle.climb, Merkle.level, Merkle.pairs, hashPair, knownSha256_zero, knownSha256_one, knownSha256_pair]

/-- The zero byte is the one before a leaf. -/
theorem zeroDigest_cons : 0 :: (ofHex zeroDigest).tail = ofHex zeroDigest := by
  have hfirst : (ofHex zeroDigest).head? = some 0 := by
    have h := congrArg List.head? knownDigests_first
    simpa [knownDigests] using h
  exact List.cons_head?_tail hfirst

/-- The other order of two trackers has another root. -/
theorem merkleRoot_binds_order :
    merkleRoot knownSha256 [zeroTracker, oneTracker] ≠ merkleRoot knownSha256 [oneTracker, zeroTracker] := by
  intro hroot
  have hsame := (merkleRoot_binds knownSha256_length (l := [ofHex zeroTracker, ofHex oneTracker]) rfl
    (by simp [trackers_ne]) (by simp [zeroTracker_length, oneTracker_length])).1 _ [ofHex oneTracker, ofHex zeroTracker]
    rfl (by simp [trackers_ne.symm]) (by simp [zeroTracker_length, oneTracker_length])
    (noCollision_known (by simp [rootInputs_pair, knownSha256_zero, knownSha256_one, knownDigests])) hroot
  exact trackers_ne (List.cons.inj hsame).1

/-- **A value that is no tracker of the list is accepted**: the 63 bytes after
the zero byte of the first digest of the root's pair, without any step. -/
theorem not_merkleRoot_binds :
    ¬ ∀ (sha256 : Bytes → Bytes) (xs : List String) (l : List Bytes) (value : String) (proof : List ProofStep)
      (root : String), (∀ bs, (sha256 bs).length = 32) → leafBytes xs = some l → l.Nodup → (∀ t ∈ l, t.length = 32) →
      Digests proof → NoCollision sha256 (checkedInputs sha256 value proof ++ rootInputs sha256 l) →
      merkleRoot sha256 xs = some root → verifyMerkleProof sha256 value proof root = some true →
      ∃ v, fromHex value = some v ∧ v ∈ l := by
  intro h
  have hleaf : 0 :: ((ofHex zeroDigest).tail ++ ofHex oneDigest) = ofHex zeroDigest ++ ofHex oneDigest := by
    rw [← List.cons_append, zeroDigest_cons]
  have hfree : NoCollision knownSha256
      (checkedInputs knownSha256 (toHex ((ofHex zeroDigest).tail ++ ofHex oneDigest)) [] ++
        rootInputs knownSha256 [ofHex zeroTracker, ofHex oneTracker]) :=
    noCollision_known (by
      simp [checkedInputs, stepInputs, hleaf, rootInputs_pair, knownSha256_zero, knownSha256_one, knownDigests])
  obtain ⟨v, hv, hmem⟩ := h knownSha256 [zeroTracker, oneTracker] [ofHex zeroTracker, ofHex oneTracker]
    (toHex ((ofHex zeroDigest).tail ++ ofHex oneDigest)) [] _ knownSha256_length rfl (by simp [trackers_ne])
    (by simp [zeroTracker_length, oneTracker_length]) (by simp [Digests]) hfree merkleRoot_known
    (by simp [verifyMerkleProof, leafHash, hleaf, knownSha256_pair])
  rw [fromHex_toHex, Option.some.injEq] at hv
  subst hv
  have hlen : ((ofHex zeroDigest).tail ++ ofHex oneDigest).length = 32 := by
    rcases List.mem_pair.mp hmem with hv | hv
    · rw [hv, zeroTracker_length]
    · rw [hv, oneTracker_length]
  simp [zeroDigest_length, oneDigest_length] at hlen

end Binding
end FlexyVotes
