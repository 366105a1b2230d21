/-
# The bulletin board's Merkle tree

`merkle_root` over hex strings. Leaves and nodes are digests, written as
64 hex digits, and read back with `bytes.fromhex`, which also takes capital
letters and skips blanks between bytes; anything else is a `ValueError`.

The root and the number of leaves bind the bytes of the leaves
(`merkleRoot_inj`), if SHA-256 does not collide on what is hashed; the root
alone does not (`merkleRoot_doubled`). Every leaf has an inclusion proof that
checks against the root (`merkle_proof_complete`).

Key definitions: `fromHex`, `toHex`, `merkleRoot`, `hashedInputs`, `merkleProof`,
`verifyMerkleProof`.
Key theorems: `merkleRoot_inj`, `merkleRoot_doubled`, `merkle_proof_complete`.
-/
import FlexyVotes.Lib.Merkle

namespace FlexyVotes

abbrev Bytes := List UInt8

/-! ### Hex -/

/-- The value of a hex digit. -/
def hexValue (c : Char) : Option ℕ :=
  if '0' ≤ c ∧ c ≤ '9' then some (c.toNat - '0'.toNat)
  else if 'a' ≤ c ∧ c ≤ 'f' then some (c.toNat - 'a'.toNat + 10)
  else if 'A' ≤ c ∧ c ≤ 'F' then some (c.toNat - 'A'.toNat + 10)
  else none

/-- The blanks `bytes.fromhex` skips. -/
def isHexBlank (c : Char) : Bool :=
  c = ' ' || c = '\t' || c = '\n' || c = '\r' || c.toNat = 11 || c.toNat = 12

/-- `bytes.fromhex` of a text's characters. -/
def fromHexChars : List Char → Option Bytes
  | [] => some []
  | [c] => if isHexBlank c then some [] else none
  | c :: d :: cs =>
    if isHexBlank c then fromHexChars (d :: cs)
    else
      match hexValue c, hexValue d with
      | some x, some y => (fromHexChars cs).map (UInt8.ofNat (16 * x + y) :: ·)
      | _, _ => none

/-- `bytes.fromhex`; nothing is a `ValueError`. -/
def fromHex (s : String) : Option Bytes := fromHexChars s.toList

/-- The two hex digits of a byte. -/
def hexByte (b : UInt8) : List Char := [Nat.digitChar (b.toNat / 16), Nat.digitChar (b.toNat % 16)]

/-- `hexdigest`'s encoding. -/
def toHex (bs : Bytes) : String := String.ofList (bs.flatMap hexByte)

theorem hexValue_digitChar : ∀ n < 16, hexValue (Nat.digitChar n) = some n ∧ isHexBlank (Nat.digitChar n) = false := by
  decide

theorem fromHexChars_hexBytes : ∀ bs : Bytes, fromHexChars (bs.flatMap hexByte) = some bs
  | [] => rfl
  | b :: bs => by
    have hb := b.toNat_lt
    obtain ⟨hhi, hblank⟩ := hexValue_digitChar (b.toNat / 16) (by omega)
    have hlo := (hexValue_digitChar (b.toNat % 16) (by omega)).1
    have hval : 16 * (b.toNat / 16) + b.toNat % 16 = b.toNat := by omega
    simp only [List.flatMap_cons, hexByte, List.cons_append, List.nil_append, fromHexChars, hblank,
      Bool.false_eq_true, if_false, hhi, hlo, hval, fromHexChars_hexBytes bs, Option.map_some, UInt8.ofNat_toNat]

/-- What is written in hex is read back. -/
@[simp] theorem fromHex_toHex (bs : Bytes) : fromHex (toHex bs) = some bs := by
  rw [fromHex, toHex, String.toList_ofList, fromHexChars_hexBytes]

/-! ### The tree -/

section Tree

variable (sha256 : Bytes → Bytes)

/-- `_leaf`. -/
def leafHash (value : String) : Option String := (fromHex value).map fun bs => toHex (sha256 (0 :: bs))

/-- `_hash_pair` of two digests. -/
def hashPair (left right : String) : String :=
  toHex (sha256 ((fromHex left).getD [] ++ (fromHex right).getD []))

/-- `merkle_root`; nothing is the `ValueError` of a leaf that is not hex. -/
def merkleRoot (leaves : List String) : Option String :=
  (leaves.mapM (leafHash sha256)).map fun level =>
    ((Merkle.climb (hashPair sha256) level.length level).head?).getD (toHex (sha256 []))

/-- What is hashed to get the root of leaves with the bytes `leaves`. -/
def hashedInputs (leaves : List Bytes) : List Bytes :=
  leaves.map (0 :: ·) ++
    (Merkle.hashed (hashPair sha256) leaves.length (leaves.map fun bs => toHex (sha256 (0 :: bs)))).map fun p =>
      (fromHex p.1).getD [] ++ (fromHex p.2).getD []

/-! ### What the root binds -/

/-- The bytes of leaves that are all hex. -/
def leafBytes (leaves : List String) : Option (List Bytes) := leaves.mapM fromHex

theorem mapM_leafHash : ∀ leaves : List String,
    leaves.mapM (leafHash sha256) =
      (leafBytes leaves).map fun l => l.map fun bs => toHex (sha256 (0 :: bs))
  | [] => rfl
  | v :: leaves => by
    have ih := mapM_leafHash leaves
    unfold leafBytes at ih ⊢
    rw [List.mapM_cons, List.mapM_cons, ih]
    cases hv : fromHex v <;> cases hl : leaves.mapM fromHex <;> simp [leafHash, hv]

theorem leafBytes_isSome {leaves : List String} :
    (∃ l, leafBytes leaves = some l) ↔ ∀ v ∈ leaves, (fromHex v).isSome := by
  unfold leafBytes
  induction leaves with
  | nil => exact iff_of_true ⟨[], rfl⟩ fun _ h => absurd h List.not_mem_nil
  | cons v leaves ih =>
    rw [List.mapM_cons, List.forall_mem_cons, ← ih]
    cases fromHex v with
    | none => exact ⟨fun ⟨_, h⟩ => (nomatch h), fun ⟨h, _⟩ => (nomatch h)⟩
    | some bs =>
      cases leaves.mapM fromHex with
      | none => exact ⟨fun ⟨_, h⟩ => (nomatch h), fun ⟨_, _, h⟩ => (nomatch h)⟩
      | some l => exact ⟨fun _ => ⟨rfl, l, rfl⟩, fun _ => ⟨_, rfl⟩⟩

/-- There is a root where all leaves are hex. -/
theorem merkleRoot_isSome {leaves : List String} :
    (∃ root, merkleRoot sha256 leaves = some root) ↔ ∀ v ∈ leaves, (fromHex v).isSome := by
  rw [← leafBytes_isSome, merkleRoot, mapM_leafHash]
  cases leafBytes leaves with
  | none => exact ⟨fun ⟨_, h⟩ => (nomatch h), fun ⟨_, h⟩ => (nomatch h)⟩
  | some l => exact ⟨fun _ => ⟨l, rfl⟩, fun _ => ⟨_, rfl⟩⟩

theorem leafBytes_cons {v : String} {leaves : List String} {l : List Bytes} (h : leafBytes (v :: leaves) = some l) :
    ∃ bs l', fromHex v = some bs ∧ leafBytes leaves = some l' ∧ l = bs :: l' := by
  unfold leafBytes at h
  rw [List.mapM_cons] at h
  cases hv : fromHex v with
  | none => simp [hv] at h
  | some bs =>
    cases hl : leaves.mapM fromHex with
    | none => simp [hv, hl] at h
    | some l' =>
      simp only [hv, hl, Option.pure_def, Option.bind_eq_bind, Option.bind_some, Option.some.injEq] at h
      exact ⟨bs, l', rfl, hl, h.symm⟩

theorem leafBytes_length : ∀ {leaves : List String} {l : List Bytes}, leafBytes leaves = some l →
    l.length = leaves.length
  | [], l, h => by
    cases h
    rfl
  | v :: leaves, l, h => by
    obtain ⟨bs, l', -, hl, rfl⟩ := leafBytes_cons h
    rw [List.length_cons, List.length_cons, leafBytes_length hl]

theorem leafBytes_getElem? : ∀ {leaves : List String} {l : List Bytes} {i : ℕ} {v : String},
    leafBytes leaves = some l → leaves[i]? = some v → ∃ bs, l[i]? = some bs ∧ fromHex v = some bs
  | [], _, i, v, _, hv => by simp at hv
  | w :: leaves, l, i, v, h, hv => by
    obtain ⟨bs, l', hw, hl, rfl⟩ := leafBytes_cons h
    cases i with
    | zero =>
      simp only [List.getElem?_cons_zero, Option.some.injEq] at hv
      exact ⟨bs, rfl, hv ▸ hw⟩
    | succ i =>
      rw [List.getElem?_cons_succ] at hv
      obtain ⟨bs', hget, hfrom⟩ := leafBytes_getElem? hl hv
      exact ⟨bs', by rwa [List.getElem?_cons_succ], hfrom⟩

/-- A digest in hex. -/
def IsDigest (s : String) : Prop := ∃ bs, s = toHex (sha256 bs)

theorem climb_digests : ∀ (n : ℕ) (xs : List String), (∀ x ∈ xs, IsDigest sha256 x) →
    ∀ p ∈ Merkle.hashed (hashPair sha256) n xs, IsDigest sha256 p.1 ∧ IsDigest sha256 p.2
  | 0, _, _, _, hp => by simp [Merkle.hashed] at hp
  | n + 1, xs, h, p, hp => by
    unfold Merkle.hashed at hp
    split at hp
    · simp at hp
    · rcases List.mem_append.mp hp with hp | hp
      · exact ⟨h _ (Merkle.pairs_mem hp).1, h _ (Merkle.pairs_mem hp).2⟩
      · refine climb_digests n _ (fun x hx => ?_) p hp
        obtain ⟨q, -, rfl⟩ := List.mem_map.mp hx
        exact ⟨_, rfl⟩

theorem toHex_inj {a b : Bytes} (h : toHex a = toHex b) : a = b := by
  have h' := congrArg fromHex h
  rwa [fromHex_toHex, fromHex_toHex, Option.some.injEq] at h'

/-- **The root and the number of leaves bind the bytes of the leaves**, where
SHA-256 gives 32 bytes and does not collide on what is hashed for the two. -/
theorem merkleRoot_inj (hlen : ∀ bs, (sha256 bs).length = 32) {xs ys : List String} {l l' : List Bytes}
    (hx : leafBytes xs = some l) (hy : leafBytes ys = some l')
    (hinj : ∀ a ∈ hashedInputs sha256 l, ∀ b ∈ hashedInputs sha256 l', sha256 a = sha256 b → a = b)
    (hroot : merkleRoot sha256 xs = merkleRoot sha256 ys) (hsize : xs.length = ys.length) : l = l' := by
  have hsize' : l.length = l'.length := by rw [leafBytes_length hx, leafBytes_length hy, hsize]
  by_cases hnil : l = []
  · rw [hnil, List.length_nil] at hsize'
    rw [hnil, List.length_eq_zero_iff.mp hsize'.symm]
  have hnil' : l' ≠ [] := fun h => by
    rw [h, List.length_nil, List.length_eq_zero_iff] at hsize'
    exact hnil hsize'
  have hdigest : ∀ k : List Bytes, ∀ x ∈ k.map fun bs => toHex (sha256 (0 :: bs)), IsDigest sha256 x := by
    rintro k x hx
    obtain ⟨bs, -, rfl⟩ := List.mem_map.mp hx
    exact ⟨_, rfl⟩
  -- the tops are equal
  have htop : Merkle.climb (hashPair sha256) l.length (l.map fun bs => toHex (sha256 (0 :: bs))) =
      Merkle.climb (hashPair sha256) l.length (l'.map fun bs => toHex (sha256 (0 :: bs))) := by
    obtain ⟨a, ha⟩ := Merkle.climb_eq_singleton (hashPair sha256)
      (l.map fun bs => toHex (sha256 (0 :: bs))) (by simpa using hnil)
    obtain ⟨b, hb⟩ := Merkle.climb_eq_singleton (hashPair sha256)
      (l'.map fun bs => toHex (sha256 (0 :: bs))) (by simpa using hnil')
    rw [merkleRoot, merkleRoot, mapM_leafHash, mapM_leafHash, hx, hy] at hroot
    simp only [Option.map_some, ha, hb, List.head?_cons, Option.getD_some, Option.some.injEq] at hroot
    rw [List.length_map] at ha hb
    rw [ha, hsize', hb, hroot]
  have hleaves := Merkle.climb_inj (hashPair sha256) l.length (by simpa using hsize') ?_ htop
  · refine Merkle.map_inj_of_forall (fun a ha b hb hab => ?_) hleaves
    have hcons := hinj (0 :: a) (by simp [hashedInputs, ha]) (0 :: b) (by simp [hashedInputs, hb]) (toHex_inj hab)
    exact (List.cons.inj hcons).2
  · intro p hp q hq hpq
    obtain ⟨⟨u, hu⟩, v, hv⟩ := climb_digests sha256 _ _ (hdigest l) p hp
    obtain ⟨⟨u', hu'⟩, v', hv'⟩ := climb_digests sha256 _ _ (hdigest l') q hq
    have hin := hinj ((fromHex p.1).getD [] ++ (fromHex p.2).getD [])
      (List.mem_append_right _ (List.mem_map_of_mem hp)) ((fromHex q.1).getD [] ++ (fromHex q.2).getD [])
      (List.mem_append_right _ (List.mem_map_of_mem (hsize' ▸ hq))) (toHex_inj hpq)
    rw [hu, hv, hu', hv'] at hin
    simp only [fromHex_toHex, Option.getD_some] at hin
    obtain ⟨h1, h2⟩ := List.append_inj hin (by rw [hlen, hlen])
    exact Prod.ext (by rw [hu, hu', h1]) (by rw [hv, hv', h2])

/-- **The root alone does not bind the leaves**: doubling the last of an odd
number of leaves, three or more, does not change it. -/
theorem merkleRoot_doubled (xs : List String) (v : String) (h : xs.length % 2 = 0) (hpos : 0 < xs.length) :
    merkleRoot sha256 (xs ++ [v, v]) = merkleRoot sha256 (xs ++ [v]) := by
  unfold merkleRoot
  rw [mapM_leafHash, mapM_leafHash]
  have hsplit : ∀ ys : List String, leafBytes (xs ++ ys) =
      (leafBytes xs).bind fun l => (leafBytes ys).map (l ++ ·) := fun ys => by
    unfold leafBytes
    rw [List.mapM_append]
    cases xs.mapM fromHex <;> cases ys.mapM fromHex <;> rfl
  cases hl : leafBytes xs with
  | none => rw [hsplit, hsplit, hl]; rfl
  | some l =>
    cases hv : fromHex v with
    | none =>
      have hone : ∀ ys, leafBytes (v :: ys) = none := fun ys => by simp [leafBytes, hv]
      rw [hsplit, hsplit, hone, hone]
    | some bs =>
      have hone : leafBytes [v] = some [bs] := by simp [leafBytes, hv]
      have htwo : leafBytes [v, v] = some [bs, bs] := by simp [leafBytes, hv]
      have h1 : leafBytes (xs ++ [v]) = some (l ++ [bs]) := by rw [hsplit, hl, hone]; rfl
      have h2 : leafBytes (xs ++ [v, v]) = some (l ++ [bs, bs]) := by rw [hsplit, hl, htwo]; rfl
      have hlen := leafBytes_length hl
      rw [h2, h1]
      simp only [Option.map_some, List.map_append, List.map_cons, List.map_nil, List.length_append,
        List.length_map, List.length_cons, List.length_nil, Nat.zero_add, Nat.reduceAdd]
      rw [Merkle.climb_doubled _ _ _ (by rw [List.length_map, hlen, h]) (by rw [List.length_map, hlen]; exact hpos),
        Merkle.climb_succ _ _ _ (by simp)]

/-! ### Inclusion proofs -/

/-- A step of `merkle_proof`. -/
abbrev ProofStep := Merkle.Step String

/-- `merkle_proof`; nothing is the `ValueError` of a leaf that is not hex, or
the `IndexError` of an index of no leaf. -/
def merkleProof (leaves : List String) (index : ℕ) : Option (List ProofStep) :=
  (leaves.mapM (leafHash sha256)).bind fun level => Merkle.proof (hashPair sha256) level.length level index

/-- `_hash_pair` of any two texts. -/
def hashTexts (left right : String) : Option String := do
  let l ← fromHex left
  let r ← fromHex right
  some (toHex (sha256 (l ++ r)))

/-- `verify_merkle_proof`; nothing is the `ValueError` of a text that is not hex. -/
def verifyMerkleProof (value : String) (proof : List ProofStep) (root : String) : Option Bool := do
  let leaf ← leafHash sha256 value
  let current ← proof.foldlM (fun current step =>
    match step.side with
    | .left => hashTexts sha256 step.hash current
    | .right => hashTexts sha256 current step.hash) leaf
  some (current == root)

theorem hashTexts_digests {left right : String} (hl : IsDigest sha256 left) (hr : IsDigest sha256 right) :
    hashTexts sha256 left right = some (hashPair sha256 left right) := by
  obtain ⟨l, rfl⟩ := hl
  obtain ⟨r, rfl⟩ := hr
  simp [hashTexts, hashPair]

/-- Digests are checked as they were hashed. -/
theorem foldlM_digests : ∀ (steps : List ProofStep) (current : String), IsDigest sha256 current →
    (∀ s ∈ steps, IsDigest sha256 s.hash) →
    steps.foldlM (fun current step =>
      match step.side with
      | .left => hashTexts sha256 step.hash current
      | .right => hashTexts sha256 current step.hash) current =
      some (steps.foldl (fun current step => step.up (hashPair sha256) current) current)
  | [], current, _, _ => rfl
  | s :: steps, current, hc, hs => by
    rw [List.forall_mem_cons] at hs
    have hup : (match s.side with
        | .left => hashTexts sha256 s.hash current
        | .right => hashTexts sha256 current s.hash) = some (s.up (hashPair sha256) current) := by
      unfold Merkle.Step.up
      cases s.side with
      | left => exact hashTexts_digests sha256 hs.1 hc
      | right => exact hashTexts_digests sha256 hc hs.1
    have hdigest : IsDigest sha256 (s.up (hashPair sha256) current) := by
      unfold Merkle.Step.up
      cases s.side <;> exact ⟨_, rfl⟩
    rw [List.foldlM_cons, hup, List.foldl_cons]
    exact foldlM_digests steps _ hdigest hs.2

/-- **Every tracker on the board has a proof, and it checks against the root.** -/
theorem merkle_proof_complete {leaves : List String} (hhex : ∀ v ∈ leaves, (fromHex v).isSome) (i : ℕ)
    (hi : i < leaves.length) :
    ∃ root proof, merkleRoot sha256 leaves = some root ∧ merkleProof sha256 leaves i = some proof ∧
      verifyMerkleProof sha256 leaves[i] proof root = some true := by
  obtain ⟨l, hl⟩ := leafBytes_isSome.mpr hhex
  have hlevel : leaves.mapM (leafHash sha256) = some (l.map fun bs => toHex (sha256 (0 :: bs))) := by
    rw [mapM_leafHash, hl, Option.map_some]
  -- the leaf at `i`
  obtain ⟨bs, hbs, hfrom⟩ := leafBytes_getElem? hl (List.getElem?_eq_getElem hi)
  have hleaf : leafHash sha256 leaves[i] = some (toHex (sha256 (0 :: bs))) := by
    rw [leafHash, hfrom, Option.map_some]
  have hget : (l.map fun bs => toHex (sha256 (0 :: bs)))[i]? = some (toHex (sha256 (0 :: bs))) := by
    rw [List.getElem?_map, hbs, Option.map_some]
  obtain ⟨steps, hsteps, htop⟩ := Merkle.proof_climb (hashPair sha256) _ _ i _ (Nat.le_refl _) hget
  have hdigests : ∀ s ∈ steps, IsDigest sha256 s.hash := by
    refine Merkle.proof_mem (hashPair sha256) (fun a b => ⟨_, rfl⟩) _ _ _ _ (fun x hx => ?_) hsteps
    obtain ⟨bs, -, rfl⟩ := List.mem_map.mp hx
    exact ⟨_, rfl⟩
  refine ⟨_, steps, by rw [merkleRoot, hlevel, Option.map_some], by rw [merkleProof, hlevel, Option.bind_some, hsteps], ?_⟩
  rw [verifyMerkleProof, hleaf, Option.bind_eq_bind, Option.bind_some,
    foldlM_digests sha256 steps _ ⟨_, rfl⟩ hdigests, Option.bind_some, htop]
  simp

theorem merkle_proof_complete_three :
    ∃ root proof, merkleRoot id ["aa", "0b", "ff"] = some root ∧ merkleProof id ["aa", "0b", "ff"] 2 = some proof ∧
      verifyMerkleProof id "ff" proof root = some true :=
  have hhex : ∀ v ∈ ["aa", "0b", "ff"], (fromHex v).isSome := by decide
  merkle_proof_complete id hhex 2 (by decide)

end Tree

end FlexyVotes
