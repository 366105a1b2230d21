/-
# Sharing the ballot key

`split_secret`, `parse_share` and `combine_shares`: a secret with a marker
before it and a checksum after it is the constant term of a polynomial over
the integers modulo `2 ^ 521 - 1`, and a share is the polynomial's value at
its index, written in text.

Any shares of a secret that reach the threshold give it back
(`combineShares_splitSecret`); fewer are distributed alike whatever it is
(`shares_secrecy`). Both rest on `Sharing`, through the field's elements that
the loops compute (`shareAt_cast`, `combineStep_term`).

Key definitions: `splitSecret`, `parseShare`, `combineShares`, `sharesAt`.
Key theorems: `parseShare_formatShare`, `combineShares_splitSecret`,
`shares_secrecy`.
-/
import FlexyVotes.Core.Numerals
import FlexyVotes.Lib.Sharing
import Mathlib.Data.Nat.Size
import Mathlib.NumberTheory.LucasLehmer
import Mathlib.Probability.Distributions.Uniform

namespace FlexyVotes

/-! ### The field -/

/-- `SHAMIR_PRIME`; no proof computes with its digits. -/
@[irreducible] def shamirPrime : ℕ := 2 ^ 521 - 1

/-- The 13th Mersenne prime. -/
theorem shamirPrime_prime : shamirPrime.Prime := by
  unfold shamirPrime
  exact lucas_lehmer_sufficiency 521 (by norm_num) (by norm_num)

instance : Fact shamirPrime.Prime := ⟨shamirPrime_prime⟩

instance : NeZero shamirPrime := ⟨shamirPrime_prime.ne_zero⟩

theorem two_pow_le {n : ℕ} (h : n < 521) : 2 ^ n ≤ shamirPrime := by
  unfold shamirPrime
  exact Nat.le_sub_one_of_lt (Nat.pow_lt_pow_right Nat.one_lt_two h)

theorem lt_shamirPrime {n : ℕ} (h : n ≤ 255) : n < shamirPrime :=
  (Nat.lt_of_le_of_lt h (by decide : 255 < 2 ^ 8)).trans_le (two_pow_le (by decide))

/-- `pow(a, -1, SHAMIR_PRIME)`; nothing is the `ValueError` of a number that has
no inverse. -/
def powInverse (a : ℤ) : Option ℤ :=
  if Int.gcd a shamirPrime = 1 then some (Int.gcdA a shamirPrime % shamirPrime) else none

/-! ### Bytes -/

/-- `int.from_bytes(…, 'big')`. -/
def fromBytes (bs : Bytes) : ℕ := bs.foldl (fun n b => 256 * n + b.toNat) 0

/-- `int.to_bytes(length, 'big')` of a number that fits. -/
def toBytes : ℕ → ℕ → Bytes
  | 0, _ => []
  | length + 1, n => toBytes length (n / 256) ++ [UInt8.ofNat (n % 256)]

theorem fromBytes_concat (bs : Bytes) (b : UInt8) : fromBytes (bs ++ [b]) = 256 * fromBytes bs + b.toNat := by
  rw [fromBytes, List.foldl_append, List.foldl_cons, List.foldl_nil, fromBytes]

theorem toBytes_fromBytes (bs : Bytes) : toBytes bs.length (fromBytes bs) = bs := by
  induction bs using List.reverseRecOn with
  | nil => rfl
  | append_singleton bs b ih =>
    have hb := b.toNat_lt
    rw [List.length_append, List.length_singleton, toBytes, fromBytes_concat,
      show (256 * fromBytes bs + b.toNat) / 256 = fromBytes bs by omega,
      show (256 * fromBytes bs + b.toNat) % 256 = b.toNat by omega, ih, UInt8.ofNat_toNat]

theorem fromBytes_lt (bs : Bytes) : fromBytes bs < 2 ^ (8 * bs.length) := by
  induction bs using List.reverseRecOn with
  | nil => simp [fromBytes]
  | append_singleton bs b ih =>
    have hb := b.toNat_lt
    rw [List.length_append, List.length_singleton, fromBytes_concat, mul_add, pow_add]
    omega

theorem le_fromBytes {b : UInt8} (hb : b ≠ 0) (bs : Bytes) : 2 ^ (8 * bs.length) ≤ fromBytes (b :: bs) := by
  induction bs using List.reverseRecOn with
  | nil =>
    have hpos : b.toNat ≠ 0 := fun h => hb (UInt8.toNat_inj.mp h)
    simp only [fromBytes, List.foldl_cons, List.foldl_nil, List.length_nil]
    omega
  | append_singleton bs c ih =>
    rw [← List.cons_append, fromBytes_concat, List.length_append, List.length_singleton, mul_add, pow_add]
    omega

/-- A number is written with the bytes it was read from, if the first is not zero. -/
theorem toBytes_size {b : UInt8} (hb : b ≠ 0) (bs : Bytes) :
    toBytes ((Nat.size (fromBytes (b :: bs)) + 7) / 8) (fromBytes (b :: bs)) = b :: bs := by
  have hlt := Nat.lt_size.mpr (le_fromBytes hb bs)
  have hle := Nat.size_le.mpr (fromBytes_lt (b :: bs))
  rw [List.length_cons] at hle
  rw [show (Nat.size (fromBytes (b :: bs)) + 7) / 8 = (b :: bs).length by rw [List.length_cons]; omega, toBytes_fromBytes]

/-! ### Shares -/

/-- `SHARE_PREFIX`. -/
def sharePrefix : String := "fvs1"

/-- What `split_secret` and `combine_shares` raise. -/
inductive ShareError
  | crypto (message : String)
  | value (message : String)
  deriving DecidableEq, Repr

/-- A share: the coefficients' value at `x`, the constant term last. -/
def shareAt (coefficients : List ℕ) (x : ℕ) : ℕ :=
  coefficients.reverse.foldl (fun y coefficient => (y * x + coefficient) % shamirPrime) 0

/-- A share as it is given out. -/
def formatShare (x y : ℕ) : String :=
  sharePrefix ++ "-" ++ toString x ++ "-" ++ String.ofList (Nat.toDigits 16 y)

/-- `parse_share`. -/
def parseShare (share : String) : Except ShareError (ℤ × ℤ) :=
  match ((share.toList.dropWhile isSpaceChar).rdropWhile isSpaceChar).splitOn '-' with
  | [start, x, y] =>
    if String.ofList start ≠ sharePrefix then .error (.crypto "Malformed key share.")
    else
      match intBase 10 (String.ofList x), intBase 16 (String.ofList y) with
      | some x, some y => .ok (x, y)
      | _, _ => .error (.crypto "Malformed key share.")
  | _ => .error (.crypto "Malformed key share.")

section Sharing

variable (sha256 : Bytes → Bytes)

/-- The value that is shared: a marker, the secret and its checksum. -/
def secretValue (secret : Bytes) : ℕ := fromBytes (1 :: (secret ++ (sha256 secret).take 8))

/-- `split_secret`; `draw` is what `randbelow` gives, call by call. -/
def splitSecret (secret : Bytes) (shares threshold : ℕ) (draw : Fin (threshold - 1) → Fin shamirPrime) :
    Except ShareError (List String) :=
  if ¬(1 ≤ threshold ∧ threshold ≤ shares ∧ shares ≤ 255) then
    .error (.crypto "Require 1 <= threshold <= shares <= 255.")
  else if shamirPrime ≤ secretValue sha256 secret then .error (.crypto "Secret too large for the field.")
  else
    let coefficients := secretValue sha256 secret :: List.ofFn fun i => (draw i : ℕ)
    .ok ((List.range' 1 shares).map fun x => formatShare x (shareAt coefficients x))

/-- The inner loop of `combine_shares` at a point: the numerator and the
denominator so far take another point than `i`, whose index is `xi`. -/
def factorStep (i : ℕ) (xi : ℤ) (nd : ℤ × ℤ) (p : (ℤ × ℤ) × ℕ) : ℤ × ℤ :=
  if i ≠ p.2 then (nd.1 * -p.1.1 % shamirPrime, nd.2 * (xi - p.1.1) % shamirPrime) else nd

/-- The outer loop of `combine_shares` at a point. -/
def combineStep (points : List (ℤ × ℤ)) (secret : ℤ) (p : (ℤ × ℤ) × ℕ) : Option ℤ :=
  let (numerator, denominator) := points.zipIdx.foldl (factorStep p.2 p.1.1) (1, 1)
  (powInverse denominator).map fun inverse => (secret + p.1.2 * numerator * inverse) % shamirPrime

/-- The sum of `combine_shares`. -/
def interpolateZero (points : List (ℤ × ℤ)) : Option ℤ := points.zipIdx.foldlM (combineStep points) 0

/-- `combine_shares`. -/
def combineShares (shares : List String) : Except ShareError Bytes := do
  let points ← shares.mapM parseShare
  if ¬(points.map (·.1)).Nodup then .error (.crypto "Duplicate key shares supplied.")
  else
    match interpolateZero points with
    | none => .error (.value "base is not invertible for the given modulus")
    | some secret =>
      let raw := toBytes ((Nat.size secret.toNat + 7) / 8) secret.toNat
      if raw.length < 10 ∨ raw.head? ≠ some 1 then .error (.crypto "Key shares do not reconstruct a valid secret.")
      else
        let recovered := (raw.take (raw.length - 8)).drop 1
        let checksum := raw.drop (raw.length - 8)
        if (sha256 recovered).take 8 ≠ checksum then .error (.crypto "Key shares do not reconstruct a valid secret.")
        else .ok recovered

end Sharing

/-! ### What is issued is read -/

theorem splitOn_share {x y : List Char} (hx : '-' ∉ x) (hy : '-' ∉ y) :
    (sharePrefix.toList ++ '-' :: (x ++ '-' :: y)).splitOn '-' = [sharePrefix.toList, x, y] := by
  have h : ∀ l ∈ [sharePrefix.toList, x, y], '-' ∉ l := by
    rintro l hl
    simp only [List.mem_cons, List.not_mem_nil, or_false] at hl
    rcases hl with rfl | rfl | rfl
    · decide
    · exact hx
    · exact hy
  rw [← List.splitOn_intercalate '-' h (by simp)]
  simp [List.intercalate]

theorem not_mem_toDigits {b : ℕ} (hb : 1 < b) (hb' : b ≤ 16) (n : ℕ) : '-' ∉ Nat.toDigits b n := fun h =>
  (plain_of_mem_toDigits hb hb' h).mark (by simp)

/-- **A share is read as it was written.** -/
theorem parseShare_formatShare {x : ℕ} (hx : x ≤ 255) (y : ℕ) : parseShare (formatShare x y) = .ok ((x : ℤ), (y : ℤ)) := by
  have hdx : '-' ∉ Nat.toDigits 10 x := not_mem_toDigits (by decide) (by decide) x
  have hdy : '-' ∉ Nat.toDigits 16 y := not_mem_toDigits (by decide) (by decide) y
  have hchars : (formatShare x y).toList = sharePrefix.toList ++ '-' :: (Nat.toDigits 10 x ++ '-' :: Nat.toDigits 16 y) := by
    simp [formatShare, String.toList_append]
  have hhead : (formatShare x y).toList.dropWhile isSpaceChar = (formatShare x y).toList := by
    rw [hchars]
    rfl
  have hlast : (formatShare x y).toList.rdropWhile isSpaceChar = (formatShare x y).toList := by
    rw [List.rdropWhile_eq_self_iff, hchars]
    intro hne
    have hlast : (sharePrefix.toList ++ '-' :: (Nat.toDigits 10 x ++ '-' :: Nat.toDigits 16 y)).getLast hne =
        (Nat.toDigits 16 y).getLast Nat.toDigits_ne_nil := by
      simp
    rw [hlast, (plain_of_mem_toDigits (by decide) (by decide) (List.getLast_mem _)).space]
    exact Bool.false_ne_true
  have hint : intBase 10 (String.ofList (Nat.toDigits 10 x)) = some (x : ℤ) :=
    intBase_digits (by decide) (by decide) fun _ => hx.trans_lt (by
      calc 255 < 10 ^ 3 := by decide
        _ ≤ 10 ^ maxDecimalDigits := Nat.pow_le_pow_right (by decide) (by decide))
  have hhex : intBase 16 (String.ofList (Nat.toDigits 16 y)) = some (y : ℤ) :=
    intBase_digits (by decide) (by decide) fun h => absurd h (by decide)
  unfold parseShare
  rw [hhead, hlast, hchars, splitOn_share hdx hdy]
  simp only [String.ofList_toList, ne_eq, not_true_eq_false, if_false, hint, hhex]

/-! ### Recovery -/

theorem shareAt_cons (c : ℕ) (cs : List ℕ) (x : ℕ) : shareAt (c :: cs) x = (shareAt cs x * x + c) % shamirPrime := by
  rw [shareAt, List.reverse_cons, List.foldl_append, List.foldl_cons, List.foldl_nil, shareAt]

/-- A share is the value of the polynomial in the field. -/
theorem shareAt_cast (x : ℕ) : ∀ cs : List ℕ,
    (shareAt cs x : ZMod shamirPrime) = Sharing.horner (cs.map Nat.cast) (x : ZMod shamirPrime)
  | [] => by simp [shareAt]
  | c :: cs => by
    rw [shareAt_cons, ZMod.natCast_mod, Nat.cast_add, Nat.cast_mul, shareAt_cast x cs, List.map_cons, Sharing.horner_cons]

theorem powInverse_cast {a : ℤ} (h : (a : ZMod shamirPrime) ≠ 0) :
    ∃ b, powInverse a = some b ∧ (b : ZMod shamirPrime) = (a : ZMod shamirPrime)⁻¹ := by
  have hgcd : Int.gcd a shamirPrime = 1 := by
    rw [Int.gcd_comm, ← Int.isCoprime_iff_gcd_eq_one]
    refine (Nat.prime_iff_prime_int.mp shamirPrime_prime).coprime_iff_not_dvd.mpr fun hdvd => h ?_
    exact (ZMod.intCast_zmod_eq_zero_iff_dvd a shamirPrime).mpr hdvd
  have hone : (a : ZMod shamirPrime) * (Int.gcdA a shamirPrime : ℤ) = 1 := by
    have hbezout := Int.gcd_eq_gcd_ab a shamirPrime
    have hcast := congrArg (Int.cast : ℤ → ZMod shamirPrime) hbezout
    simpa [hgcd] using hcast.symm
  refine ⟨_, if_pos hgcd, ?_⟩
  rw [ZMod.intCast_mod, eq_inv_of_mul_eq_one_right hone]

/-- The indices of points, in the field. -/
noncomputable def indices (points : List (ℤ × ℤ)) : List (ZMod shamirPrime) := points.map fun p => (p.1 : ZMod shamirPrime)

/-- The other points' indices. -/
noncomputable def otherIndices (points : List ((ℤ × ℤ) × ℕ)) (i : ℕ) : List (ZMod shamirPrime) :=
  (points.filter fun p => i ≠ p.2).map fun p => (p.1.1 : ZMod shamirPrime)

theorem factors_foldl (i : ℕ) (xi : ℤ) : ∀ (l : List ((ℤ × ℤ) × ℕ)) (nd : ℤ × ℤ),
    ((l.foldl (factorStep i xi) nd).1 : ZMod shamirPrime) = nd.1 * ((otherIndices l i).map fun z => -z).prod ∧
      ((l.foldl (factorStep i xi) nd).2 : ZMod shamirPrime) =
        nd.2 * ((otherIndices l i).map fun z => (xi : ZMod shamirPrime) - z).prod
  | [], nd => by simp [otherIndices]
  | p :: l, nd => by
    obtain ⟨hnum, hden⟩ := factors_foldl i xi l (factorStep i xi nd p)
    rw [List.foldl_cons, hnum, hden]
    by_cases hi : i = p.2
    · simp [factorStep, otherIndices, hi]
    · simp [factorStep, otherIndices, hi, mul_assoc]

/-- The other points are those with another index. -/
theorem otherIndices_eq {points : List (ℤ × ℤ)} (hnodup : (indices points).Nodup) {q : (ℤ × ℤ) × ℕ}
    (hq : q ∈ points.zipIdx) :
    otherIndices points.zipIdx q.2 = Sharing.others (indices points) (q.1.1 : ZMod shamirPrime) := by
  have hget : ∀ p ∈ points.zipIdx, (indices points)[p.2]? = some (p.1.1 : ZMod shamirPrime) := fun p hp => by
    rw [indices, List.getElem?_map, List.mem_zipIdx_iff_getElem?.mp hp, Option.map_some]
  have hzip : indices points = points.zipIdx.map fun p => (p.1.1 : ZMod shamirPrime) := by
    conv_lhs => rw [indices, ← List.zipIdx_map_fst 0 points, List.map_map]
    rfl
  have hlt : q.2 < (indices points).length := by
    rw [indices, List.length_map]
    simpa using List.snd_lt_of_mem_zipIdx hq
  rw [Sharing.others, hzip, List.filter_map, otherIndices]
  refine congrArg _ (List.filter_congr fun p hp => ?_)
  have hiff : q.2 = p.2 ↔ (p.1.1 : ZMod shamirPrime) = q.1.1 := by
    rw [← List.getElem?_inj hlt hnodup, hget p hp, hget q hq, Option.some.injEq, eq_comm]
  simp [hiff]

/-- What a point adds to the sum. -/
noncomputable def term (points : List (ℤ × ℤ)) (p : ℤ × ℤ) : ZMod shamirPrime :=
  p.2 * ((Sharing.others (indices points) p.1).map fun z => -z).prod *
    ((Sharing.others (indices points) p.1).map fun z => (p.1 : ZMod shamirPrime) - z).prod⁻¹

/-- A round of the outer loop adds its point's term. -/
theorem combineStep_term {points : List (ℤ × ℤ)} (hnodup : (indices points).Nodup) {q : (ℤ × ℤ) × ℕ}
    (hq : q ∈ points.zipIdx) (acc : ℤ) :
    ∃ s : ℤ, combineStep points acc q = some (s % shamirPrime) ∧ (s : ZMod shamirPrime) = acc + term points q.1 := by
  obtain ⟨hnum, hden⟩ := factors_foldl q.2 q.1.1 points.zipIdx (1, 1)
  rw [otherIndices_eq hnodup hq, Int.cast_one, one_mul] at hnum hden
  have hne : ((points.zipIdx.foldl (factorStep q.2 q.1.1) (1, 1)).2 : ZMod shamirPrime) ≠ 0 := by
    rw [hden]
    refine List.prod_ne_zero fun hzero => ?_
    obtain ⟨z, hz, hsub⟩ := List.mem_map.mp hzero
    have hother := (List.mem_filter.mp hz).2
    simp only [ne_eq, decide_not, Bool.not_eq_true', decide_eq_false_iff_not] at hother
    exact hother (sub_eq_zero.mp hsub).symm
  obtain ⟨b, hb, hinv⟩ := powInverse_cast hne
  refine ⟨acc + q.1.2 * (points.zipIdx.foldl (factorStep q.2 q.1.1) (1, 1)).1 * b, ?_, ?_⟩
  · simp only [combineStep, hb, Option.map_some]
  · rw [term, ← hnum, ← hden, ← hinv]
    push_cast
    rfl

theorem combine_foldlM {points : List (ℤ × ℤ)} (hnodup : (indices points).Nodup) :
    ∀ (l : List ((ℤ × ℤ) × ℕ)) (acc : ℤ), (∀ q ∈ l, q ∈ points.zipIdx) → 0 ≤ acc → acc < shamirPrime →
      ∃ s, l.foldlM (combineStep points) acc = some s ∧ 0 ≤ s ∧ s < shamirPrime ∧
        (s : ZMod shamirPrime) = acc + (l.map fun q => term points q.1).sum
  | [], acc, _, h0, hlt => ⟨acc, rfl, h0, hlt, by simp⟩
  | q :: l, acc, hl, h0, hlt => by
    rw [List.forall_mem_cons] at hl
    have hpos : (0 : ℤ) < shamirPrime := by exact_mod_cast shamirPrime_prime.pos
    obtain ⟨t, ht, hterm⟩ := combineStep_term hnodup hl.1 acc
    obtain ⟨s, hs, hs0, hslt, hval⟩ := combine_foldlM hnodup l (t % shamirPrime) hl.2
      (Int.emod_nonneg _ hpos.ne') (Int.emod_lt_of_pos _ hpos)
    refine ⟨s, ?_, hs0, hslt, ?_⟩
    · rw [List.foldlM_cons, ht]
      exact hs
    · rw [hval, ZMod.intCast_mod, hterm, List.map_cons, List.sum_cons, add_assoc]

/-- **Distinct points on a polynomial of lower degree are combined to its value
at zero.** -/
theorem interpolateZero_eq {points : List (ℤ × ℤ)} (hnodup : (indices points).Nodup) {f : Polynomial (ZMod shamirPrime)}
    (hdeg : f.degree < points.length)
    (hon : ∀ p ∈ points, (p.2 : ZMod shamirPrime) = f.eval (p.1 : ZMod shamirPrime)) {value : ℕ} (hlt : value < shamirPrime)
    (hvalue : f.eval 0 = (value : ZMod shamirPrime)) : interpolateZero points = some (value : ℤ) := by
  have hpos : (0 : ℤ) < shamirPrime := by exact_mod_cast shamirPrime_prime.pos
  obtain ⟨s, hs, hs0, hslt, hval⟩ := combine_foldlM hnodup points.zipIdx 0 (fun _ h => h) (le_refl _) hpos
  have hsum : (points.zipIdx.map fun q => term points q.1).sum = f.eval 0 := by
    rw [← Sharing.recover hnodup (f := f) (by rwa [indices, List.length_map])]
    conv_rhs => rw [indices, ← List.zipIdx_map_fst 0 points, List.map_map, List.map_map]
    refine congrArg List.sum (List.map_congr_left fun q hq => ?_)
    rw [term, hon _ (List.fst_mem_of_mem_zipIdx hq), List.zipIdx_map_fst]
    rfl
  have hcast : (s : ZMod shamirPrime) = ((value : ℤ) : ZMod shamirPrime) := by
    rw [hval, hsum, hvalue]
    simp
  have hmod := (ZMod.intCast_eq_intCast_iff _ _ _).mp hcast
  rw [Int.ModEq, Int.emod_eq_of_lt hs0 hslt, Int.emod_eq_of_lt (by positivity) (by exact_mod_cast hlt)] at hmod
  rw [interpolateZero, hs, hmod]

/-- A share as it is read: its index and its value. -/
def sharePoint (coefficients : List ℕ) (x : ℕ) : ℤ × ℤ := ((x : ℤ), (shareAt coefficients x : ℤ))

/-- What is issued lies on a polynomial with the secret's value at zero. -/
theorem interpolateZero_issued {coefficients : List ℕ} {value : ℕ} (hlt : value < shamirPrime) {xs : List ℕ}
    (hnodup : xs.Nodup) (hxs : ∀ x ∈ xs, x ≤ 255) (hlen : (value :: coefficients).length ≤ xs.length) :
    interpolateZero (xs.map (sharePoint (value :: coefficients))) = some (value : ℤ) := by
  have hindices : indices (xs.map (sharePoint (value :: coefficients))) = xs.map fun x : ℕ => (x : ZMod shamirPrime) := by
    rw [indices, List.map_map]
    exact List.map_congr_left fun x _ => Int.cast_natCast x
  have hinj : ∀ x ∈ xs, ∀ y ∈ xs, (x : ZMod shamirPrime) = y → x = y := fun x hx y hy h => by
    have hmod := (ZMod.natCast_eq_natCast_iff' _ _ _).mp h
    rwa [Nat.mod_eq_of_lt (lt_shamirPrime (hxs x hx)), Nat.mod_eq_of_lt (lt_shamirPrime (hxs y hy))] at hmod
  refine interpolateZero_eq (f := Sharing.poly ((value :: coefficients).map Nat.cast)) ?_ ?_ ?_ hlt ?_
  · rw [hindices]
    exact List.Nodup.map_on hinj hnodup
  · refine (Sharing.degree_poly _).trans_le ?_
    rw [List.length_map, List.length_map]
    exact_mod_cast hlen
  · intro p hp
    obtain ⟨x, -, rfl⟩ := List.mem_map.mp hp
    rw [sharePoint, Sharing.eval_poly, Int.cast_natCast, Int.cast_natCast, shareAt_cast]
  · rw [Sharing.eval_poly, List.map_cons, Sharing.horner_cons, mul_zero, zero_add]

/-! ### `split_secret` and `combine_shares` -/

section Secret

variable (sha256 : Bytes → Bytes)

theorem splitSecret_ok {secret : Bytes} {shares threshold : ℕ} {draw : Fin (threshold - 1) → Fin shamirPrime} {issued : List String}
    (h : splitSecret sha256 secret shares threshold draw = .ok issued) :
    1 ≤ threshold ∧ threshold ≤ shares ∧ shares ≤ 255 ∧ secretValue sha256 secret < shamirPrime ∧
      issued = (List.range' 1 shares).map fun x => formatShare x
        (shareAt (secretValue sha256 secret :: List.ofFn fun i => (draw i : ℕ)) x) := by
  unfold splitSecret at h
  split at h
  · cases h
  · rename_i hbounds
    split at h
    · cases h
    · rename_i hfits
      cases h
      exact ⟨(not_not.mp hbounds).1, (not_not.mp hbounds).2.1, (not_not.mp hbounds).2.2, not_le.mp hfits, rfl⟩

/-- Secrets of up to 56 bytes are accepted, and no share is issued twice. -/
theorem splitSecret_accepts {secret : Bytes} (hlen : secret.length ≤ 56) {shares threshold : ℕ} (hk : 1 ≤ threshold)
    (hkn : threshold ≤ shares) (hn : shares ≤ 255) (draw : Fin (threshold - 1) → Fin shamirPrime) :
    ∃ issued, splitSecret sha256 secret shares threshold draw = .ok issued ∧ issued.Nodup := by
  have hfits : secretValue sha256 secret < shamirPrime := by
    have hlt := fromBytes_lt (1 :: (secret ++ (sha256 secret).take 8))
    have hbytes : (1 :: (secret ++ (sha256 secret).take 8)).length ≤ 65 := by
      rw [List.length_cons, List.length_append, List.length_take]
      omega
    exact hlt.trans_le (two_pow_le (by omega))
  unfold splitSecret
  rw [if_neg (not_not.mpr ⟨hk, hkn, hn⟩), if_neg (not_le.mpr hfits)]
  refine ⟨_, rfl, List.Nodup.map_on (fun x hx y hy h => ?_) List.nodup_range'⟩
  rw [List.mem_range'_1] at hx hy
  have hparse := congrArg parseShare h
  rw [parseShare_formatShare (by omega), parseShare_formatShare (by omega)] at hparse
  have hxy := (Prod.mk.inj (Except.ok.inj hparse)).1
  exact_mod_cast hxy

/-- Shares that were issued are those of some indices. -/
theorem issued_indices {n : ℕ} {f : ℕ → String} : ∀ {given : List String},
    (∀ s ∈ given, s ∈ (List.range' 1 n).map f) → ∃ xs : List ℕ, given = xs.map f ∧ ∀ x ∈ xs, x ≤ n
  | [], _ => ⟨[], rfl, by simp⟩
  | s :: given, h => by
    rw [List.forall_mem_cons] at h
    obtain ⟨x, hx, rfl⟩ := List.mem_map.mp h.1
    obtain ⟨xs, rfl, hxs⟩ := issued_indices h.2
    rw [List.mem_range'_1] at hx
    exact ⟨x :: xs, rfl, by simpa using ⟨by omega, hxs⟩⟩

theorem mapM_parseShare (coefficients : List ℕ) : ∀ {xs : List ℕ}, (∀ x ∈ xs, x ≤ 255) →
    (xs.map fun x => formatShare x (shareAt coefficients x)).mapM parseShare = .ok (xs.map (sharePoint coefficients))
  | [], _ => rfl
  | x :: xs, h => by
    rw [List.forall_mem_cons] at h
    rw [List.map_cons, List.mapM_cons, parseShare_formatShare h.1, mapM_parseShare coefficients h.2]
    rfl

/-- The value is taken apart into the marker, the secret and its checksum. -/
theorem secretValue_raw (secret : Bytes) :
    toBytes ((Nat.size (secretValue sha256 secret) + 7) / 8) (secretValue sha256 secret) =
      1 :: (secret ++ (sha256 secret).take 8) :=
  toBytes_size (by decide) _

/-- **Any shares that reach the threshold give the secret back.** -/
theorem combineShares_splitSecret (hlen : ∀ bs, (sha256 bs).length = 32) {secret : Bytes} (hne : secret ≠ [])
    {shares threshold : ℕ} {draw : Fin (threshold - 1) → Fin shamirPrime} {issued : List String}
    (hissued : splitSecret sha256 secret shares threshold draw = .ok issued) {given : List String} (hnodup : given.Nodup)
    (hgiven : ∀ s ∈ given, s ∈ issued) (henough : threshold ≤ given.length) :
    combineShares sha256 given = .ok secret := by
  obtain ⟨hk, hkn, hn, hlt, rfl⟩ := splitSecret_ok sha256 hissued
  obtain ⟨xs, rfl, hxs⟩ := issued_indices hgiven
  have hxs' : ∀ x ∈ xs, x ≤ 255 := fun x hx => (hxs x hx).trans hn
  have hxsnodup := List.Nodup.of_map _ hnodup
  rw [List.length_map] at henough
  have hcount : (secretValue sha256 secret :: List.ofFn fun i => (draw i : ℕ)).length ≤ xs.length := by
    rw [List.length_cons, List.length_ofFn]
    omega
  have hvalue := interpolateZero_issued hlt hxsnodup hxs' hcount
  have hdistinct : ∀ coefficients, ((xs.map (sharePoint coefficients)).map (·.1)).Nodup := fun _ => by
    rw [List.map_map]
    exact hxsnodup.map Nat.cast_injective
  -- the raw bytes are the marker, the secret and its checksum
  have hchecksum : ((sha256 secret).take 8).length = 8 := by
    rw [List.length_take, hlen]
    rfl
  have hraw := secretValue_raw sha256 secret
  have hpos := List.length_pos_iff.mpr hne
  have hlength : (1 :: (secret ++ (sha256 secret).take 8)).length = secret.length + 9 := by
    rw [List.length_cons, List.length_append, hchecksum]
  have hsplit : (1 :: (secret ++ (sha256 secret).take 8)) = (1 :: secret) ++ (sha256 secret).take 8 := rfl
  have hrecovered : ((1 :: (secret ++ (sha256 secret).take 8)).take (secret.length + 9 - 8)).drop 1 = secret := by
    rw [hsplit, List.take_left' (by simp)]
    rfl
  have hrest : (1 :: (secret ++ (sha256 secret).take 8)).drop (secret.length + 9 - 8) = (sha256 secret).take 8 := by
    rw [hsplit, List.drop_left' (by simp)]
  unfold combineShares
  rw [mapM_parseShare _ hxs']
  change (if ¬_ then _ else _) = _
  rw [if_neg (not_not.mpr (hdistinct _)), hvalue]
  simp only [Int.toNat_natCast, hraw, hlength, hrecovered, hrest]
  rw [if_neg (by simp; omega), if_neg (by simp)]

end Secret

/-- SHA-256 of the secret below. -/
def sampleDigest (bs : Bytes) : Bytes :=
  if bs = [0, 7] then
    [46, 205, 138, 107, 125, 40, 69, 84, 102, 89, 173, 76, 244, 67, 83, 60, 249, 33, 177, 157,
      200, 31, 168, 57, 52, 232, 56, 33, 180, 223, 220, 183]
  else List.replicate 32 0

theorem combineShares_splitSecret_three :
    ∃ issued, splitSecret sampleDigest [0, 7] 3 2 (fun _ => 5) = .ok issued ∧
      combineShares sampleDigest issued.reverse = .ok [0, 7] := by
  have hlen : ∀ bs, (sampleDigest bs).length = 32 := fun bs => by
    unfold sampleDigest
    split <;> rfl
  obtain ⟨issued, hissued, hnodup⟩ : ∃ issued, splitSecret sampleDigest [0, 7] 3 2 (fun _ => 5) = .ok issued ∧
      issued.Nodup := splitSecret_accepts sampleDigest (by decide) (by decide) (by decide) (by decide) _
  have hthree : issued.length = 3 := by
    obtain ⟨-, -, -, -, rfl⟩ := splitSecret_ok sampleDigest hissued
    simp
  exact ⟨issued, hissued, combineShares_splitSecret sampleDigest hlen (by decide) hissued (List.nodup_reverse.mpr hnodup)
    (fun s hs => List.mem_reverse.mp hs) (by rw [List.length_reverse, hthree]; decide)⟩

/-! ### Secrecy -/

theorem shareAt_lt (coefficients : List ℕ) (x : ℕ) : shareAt coefficients x < shamirPrime := by
  cases coefficients with
  | nil => exact shamirPrime_prime.pos
  | cons c cs =>
    rw [shareAt_cons]
    exact Nat.mod_lt _ shamirPrime_prime.pos

/-- The shares of a field value at some indices, by the coefficients drawn. -/
def sharesAt {m : ℕ} (secret : Fin shamirPrime) (xs : Fin m → ℕ) (draw : Fin m → Fin shamirPrime) (i : Fin m) :
    Fin shamirPrime :=
  ⟨shareAt (secret :: List.ofFn fun j => (draw j : ℕ)) (xs i), shareAt_lt _ _⟩

theorem fin_cast_inj {a b : Fin shamirPrime} (h : ((a : ℕ) : ZMod shamirPrime) = (b : ℕ)) : a = b := by
  have hmod := (ZMod.natCast_eq_natCast_iff' _ _ _).mp h
  rw [Nat.mod_eq_of_lt a.isLt, Nat.mod_eq_of_lt b.isLt] at hmod
  exact Fin.ext hmod

theorem sharesAt_bijective {m : ℕ} {xs : Fin m → ℕ} (hinj : Function.Injective xs) (hxs : ∀ i, 1 ≤ xs i ∧ xs i ≤ 255)
    (secret : Fin shamirPrime) : Function.Bijective (sharesAt secret xs) := by
  rw [← Finite.injective_iff_bijective]
  intro draw draw' h
  have hpoints : Function.Injective fun i => (xs i : ZMod shamirPrime) := fun i j hij => by
    have heq := fin_cast_inj (a := ⟨xs i, lt_shamirPrime (hxs i).2⟩) (b := ⟨xs j, lt_shamirPrime (hxs j).2⟩) hij
    exact hinj (Fin.mk.inj heq)
  have hzero : ∀ i, (xs i : ZMod shamirPrime) ≠ 0 := fun i hi => by
    rw [ZMod.natCast_eq_zero_iff] at hi
    have hle := Nat.le_of_dvd (hxs i).1 hi
    have hlt := lt_shamirPrime (hxs i).2
    omega
  have hcast : ∀ d : Fin m → Fin shamirPrime, ∀ i, ((sharesAt secret xs d i : ℕ) : ZMod shamirPrime) =
      Sharing.horner (((secret : ℕ) : ZMod shamirPrime) :: List.ofFn fun j => ((d j : ℕ) : ZMod shamirPrime)) (xs i) :=
    fun d i => by
      rw [sharesAt, shareAt_cast, List.map_cons, List.map_ofFn]
      rfl
  have hdraw : (fun j => ((draw j : ℕ) : ZMod shamirPrime)) = fun j => ((draw' j : ℕ) : ZMod shamirPrime) :=
    (Sharing.bijective_shares hpoints hzero (secret : ℕ)).1
      (funext fun i => (hcast draw i).symm.trans (by rw [h]; exact hcast draw' i))
  exact funext fun j => fin_cast_inj (congrFun hdraw j)

/-- **Fewer shares than the threshold say nothing about the secret**: they are
distributed alike whatever it is. -/
theorem shares_secrecy {threshold : ℕ} {xs : Fin (threshold - 1) → ℕ} (hinj : Function.Injective xs)
    (hxs : ∀ i, 1 ≤ xs i ∧ xs i ≤ 255) (secret secret' : Fin shamirPrime) :
    Function.Bijective (sharesAt secret xs) ∧ Function.Bijective (sharesAt secret' xs) ∧
      (PMF.uniformOfFintype (Fin (threshold - 1) → Fin shamirPrime)).map (sharesAt secret xs) =
        (PMF.uniformOfFintype (Fin (threshold - 1) → Fin shamirPrime)).map (sharesAt secret' xs) := by
  have hbij := sharesAt_bijective hinj hxs
  refine ⟨hbij secret, hbij secret', ?_⟩
  rw [Sharing.map_uniform (hbij secret), Sharing.map_uniform (hbij secret')]

theorem shares_secrecy_two :
    let xs : Fin (3 - 1) → ℕ := fun i => 2 * i + 1
    Function.Bijective (sharesAt 0 xs) ∧ Function.Bijective (sharesAt 7 xs) ∧
      (PMF.uniformOfFintype (Fin (3 - 1) → Fin shamirPrime)).map (sharesAt 0 xs) =
        (PMF.uniformOfFintype (Fin (3 - 1) → Fin shamirPrime)).map (sharesAt 7 xs) :=
  shares_secrecy (fun i j h => Fin.ext (by simpa using h)) (fun i => ⟨by omega, by omega⟩) 0 7

end FlexyVotes
