/-
# Merkle trees that double an odd node

The leaves are paired level by level until one node is left; a level of odd
length pairs its last node with itself. The root alone does not bind the
leaves: doubling the last node by hand gives the same root (`climb_doubled`).
The root and the number of leaves do (`climb_inj`), if no two of the pairs
that are hashed collide; so does the root alone, where the leaves are all
different and no pair collides with one of them either (`climb_binds`).

A node's inclusion proof is its siblings on the way up, with their sides; it
leads to the top (`proof_climb`).

Key definitions: `pairs`, `level`, `climb`, `hashed`, `Height`, `proof`.
Key theorems: `climb_inj`, `climb_doubled`, `climb_binds`, `proof_climb`.
-/
import Mathlib.Data.List.Nodup
import Mathlib.Data.Nat.Bitwise
import Mathlib.Data.Nat.Notation
import Mathlib.Logic.Function.Basic
import Mathlib.Tactic.Common

namespace Merkle

variable {α : Type}

/-- Neighbours, the last node with itself where the number is odd. -/
def pairs : List α → List (α × α)
  | a :: b :: xs => (a, b) :: pairs xs
  | [a] => [(a, a)]
  | [] => []

variable (node : α → α → α)

/-- One level up. -/
def level (xs : List α) : List α := (pairs xs).map fun p => node p.1 p.2

/-- Level by level, `n` at most, until one node is left. -/
def climb : ℕ → List α → List α
  | 0, xs => xs
  | n + 1, xs => if xs.length ≤ 1 then xs else climb n (level node xs)

/-- The pairs that are hashed on the way. -/
def hashed : ℕ → List α → List (α × α)
  | 0, _ => []
  | n + 1, xs => if xs.length ≤ 1 then [] else pairs xs ++ hashed n (level node xs)

theorem pairs_length : ∀ xs : List α, (pairs xs).length = (xs.length + 1) / 2
  | [] => by simp [pairs]
  | [_] => by simp [pairs]
  | a :: b :: xs => by
    simp only [pairs, List.length_cons, pairs_length xs]
    omega

@[simp] theorem level_length (xs : List α) : (level node xs).length = (xs.length + 1) / 2 := by
  rw [level, List.length_map, pairs_length]

theorem pairs_mem : ∀ {xs : List α} {p : α × α}, p ∈ pairs xs → p.1 ∈ xs ∧ p.2 ∈ xs
  | [a], p, h => by
    rw [pairs, List.mem_singleton] at h
    simp [h]
  | a :: b :: xs, p, h => by
    rw [pairs, List.mem_cons] at h
    rcases h with rfl | h
    · simp
    · exact ⟨by simp [(pairs_mem h).1], by simp [(pairs_mem h).2]⟩

/-- Levels of one length are known from their pairs. -/
theorem pairs_inj : ∀ xs ys : List α, xs.length = ys.length → pairs xs = pairs ys → xs = ys
  | [], [], _, _ => rfl
  | [a], [c], _, h => by
    simp only [pairs, List.cons.injEq, Prod.mk.injEq, and_true] at h
    rw [h.1]
  | a :: b :: xs, c :: d :: ys, hlen, h => by
    simp only [pairs, List.cons.injEq, Prod.mk.injEq] at h
    have hlen' : xs.length = ys.length := by simpa using hlen
    rw [h.1.1, h.1.2, pairs_inj xs ys hlen' h.2]
  | [], _ :: _, hlen, _ => by simp at hlen
  | _ :: _, [], hlen, _ => by simp at hlen
  | [_], _ :: _ :: _, hlen, _ => by simp at hlen
  | _ :: _ :: _, [_], hlen, _ => by simp at hlen

/-- Lists with equal images are equal where the map does not collide. -/
theorem map_inj_of_forall {β : Type} {f : α → β} : ∀ {xs ys : List α},
    (∀ x ∈ xs, ∀ y ∈ ys, f x = f y → x = y) → xs.map f = ys.map f → xs = ys
  | [], [], _, _ => rfl
  | [], _ :: _, _, h => by simp at h
  | _ :: _, [], _, h => by simp at h
  | x :: xs, y :: ys, hf, h => by
    simp only [List.map_cons, List.cons.injEq] at h
    have hx : x = y := hf x (by simp) y (by simp) h.1
    have hxs : xs = ys := map_inj_of_forall (fun a ha b hb => hf a (by simp [ha]) b (by simp [hb])) h.2
    rw [hx, hxs]

/-- **The top and the number of leaves bind the leaves**, if no two of the pairs
that are hashed collide. -/
theorem climb_inj : ∀ (n : ℕ) {xs ys : List α}, xs.length = ys.length →
    (∀ p ∈ hashed node n xs, ∀ q ∈ hashed node n ys, node p.1 p.2 = node q.1 q.2 → p = q) →
    climb node n xs = climb node n ys → xs = ys
  | 0, _, _, _, _, h => h
  | n + 1, xs, ys, hlen, hinj, h => by
    unfold climb at h
    unfold hashed at hinj
    by_cases hone : xs.length ≤ 1
    · rwa [if_pos hone, if_pos (hlen ▸ hone)] at h
    · rw [if_neg hone, if_neg (hlen ▸ hone)] at h
      rw [if_neg hone, if_neg (hlen ▸ hone)] at hinj
      have hup : level node xs = level node ys :=
        climb_inj n (by rw [level_length, level_length, hlen])
          (fun p hp q hq => hinj p (by simp [hp]) q (by simp [hq])) h
      exact pairs_inj xs ys hlen
        (map_inj_of_forall (fun p hp q hq => hinj p (by simp [hp]) q (by simp [hq])) hup)

/-- `n` levels are enough for `n` leaves. -/
theorem climb_length : ∀ (n : ℕ) (xs : List α), xs.length ≤ n → (climb node n xs).length ≤ 1
  | 0, _, h => by
    simp only [climb]
    omega
  | n + 1, xs, h => by
    unfold climb
    split
    · assumption
    · exact climb_length n _ (by rw [level_length]; omega)

/-- A level is never empty. -/
theorem climb_ne_nil : ∀ (n : ℕ) {xs : List α}, xs ≠ [] → climb node n xs ≠ []
  | 0, _, h => h
  | n + 1, xs, h => by
    unfold climb
    split
    · exact h
    · refine climb_ne_nil n fun hnil => ?_
      have hlen := level_length node xs
      have hpos := List.length_pos_iff.mpr h
      rw [hnil, List.length_nil] at hlen
      omega

/-- Of one leaf or more, one node is left. -/
theorem climb_eq_singleton (xs : List α) (h : xs ≠ []) : ∃ a, climb node xs.length xs = [a] := by
  rw [← List.length_eq_one_iff]
  have hle := climb_length node xs.length xs (Nat.le_refl _)
  have hpos := List.length_pos_iff.mpr (climb_ne_nil node xs.length h)
  omega

/-- More levels than leaves change nothing. -/
theorem climb_succ : ∀ (n : ℕ) (xs : List α), xs.length ≤ n → climb node (n + 1) xs = climb node n xs
  | 0, xs, h => by
    unfold climb
    rw [if_pos (by omega)]
  | n + 1, xs, h => by
    unfold climb
    split
    · rfl
    · exact climb_succ n _ (by rw [level_length]; omega)

/-- A doubled last node is paired as the odd one is. -/
theorem pairs_doubled : ∀ (xs : List α) (a : α), xs.length % 2 = 0 → pairs (xs ++ [a, a]) = pairs (xs ++ [a])
  | [], a, _ => rfl
  | [_], a, h => by simp at h
  | x :: y :: xs, a, h => by
    have hx : xs.length % 2 = 0 := by
      simp only [List.length_cons] at h
      omega
    simp only [List.cons_append, pairs, pairs_doubled xs a hx]

/-- **The top alone does not bind the leaves**: an odd number of them, two or
more levels, and the last one doubled give the same top. -/
theorem climb_doubled (n : ℕ) {xs : List α} (a : α) (h : xs.length % 2 = 0) (hpos : 0 < xs.length) :
    climb node (n + 1) (xs ++ [a, a]) = climb node (n + 1) (xs ++ [a]) := by
  have h1 : ¬(xs ++ [a, a]).length ≤ 1 := by
    simp only [List.length_append, List.length_cons, List.length_nil]
    omega
  have h2 : ¬(xs ++ [a]).length ≤ 1 := by
    simp only [List.length_append, List.length_cons, List.length_nil]
    omega
  unfold climb
  rw [if_neg h1, if_neg h2, level, level, pairs_doubled xs a h]

/-! ### Leaves without duplicates -/

section Unique

theorem pairs_fst_sublist : ∀ xs : List α, ((pairs xs).map Prod.fst).Sublist xs
  | [] => .slnil
  | [a] => .refl _
  | a :: b :: xs => by
    simp only [pairs, List.map_cons]
    exact .cons_cons a ((pairs_fst_sublist xs).cons b)

theorem pairs_nodup {xs : List α} (h : xs.Nodup) : (pairs xs).Nodup :=
  List.Nodup.of_map Prod.fst (h.sublist (pairs_fst_sublist xs))

/-- Levels without duplicates are known from their pairs. -/
theorem pairs_inj_of_nodup : ∀ xs ys : List α, xs.Nodup → ys.Nodup → pairs xs = pairs ys → xs = ys
  | [], [], _, _, _ => rfl
  | [a], [c], _, _, h => by
    simp only [pairs, List.cons.injEq, Prod.mk.injEq, and_true] at h
    rw [h.1]
  | a :: b :: xs, c :: d :: ys, hx, hy, h => by
    simp only [pairs, List.cons.injEq, Prod.mk.injEq] at h
    rw [h.1.1, h.1.2, pairs_inj_of_nodup xs ys (hx.of_cons.of_cons) (hy.of_cons.of_cons) h.2]
  | [a], c :: d :: ys, _, hy, h => by
    simp only [pairs, List.cons.injEq, Prod.mk.injEq] at h
    exact absurd (h.1.1.symm.trans h.1.2) (by simpa using fun hcd => (List.nodup_cons.mp hy).1 (by simp [hcd]))
  | a :: b :: xs, [c], hx, _, h => by
    simp only [pairs, List.cons.injEq, Prod.mk.injEq] at h
    exact absurd (h.1.1.trans h.1.2.symm) (by simpa using fun hab => (List.nodup_cons.mp hx).1 (by simp [hab]))
  | [], [_], _, _, h => by simp [pairs] at h
  | [], _ :: _ :: _, _, _, h => by simp [pairs] at h
  | [_], [], _, _, h => by simp [pairs] at h
  | _ :: _ :: _, [], _, _, h => by simp [pairs] at h

/-- A level above one without duplicates has none. -/
theorem level_nodup {xs : List α} (h : xs.Nodup)
    (hinj : ∀ p ∈ pairs xs, ∀ q ∈ pairs xs, node p.1 p.2 = node q.1 q.2 → p = q) : (level node xs).Nodup := by
  unfold level
  exact List.Nodup.map_on hinj (pairs_nodup h)

/-- The height of a node over the leaves `L`, by the pairs `H` that are hashed. -/
inductive Height (H : List (α × α)) (L : List α) : ℕ → α → Prop
  | leaf {a : α} (h : a ∈ L) : Height H L 0 a
  | node {n : ℕ} {p : α × α} (h : p ∈ H) (hp : Height H L n p.1) : Height H L (n + 1) (node p.1 p.2)

variable {node} {H : List (α × α)} {L : List α}

section Separated

variable (hinj : ∀ p ∈ H, ∀ q ∈ H, node p.1 p.2 = node q.1 q.2 → p = q) (hsep : ∀ p ∈ H, node p.1 p.2 ∉ L)

include hinj hsep

/-- Where leaves are no nodes, a node has one height. -/
theorem Height.unique {n : ℕ} {a : α} (h : Height node H L n a) : ∀ {m : ℕ}, Height node H L m a → n = m := by
  induction h with
  | leaf ha =>
    intro m h'
    cases h' with
    | leaf _ => rfl
    | node hp _ => exact absurd ha (hsep _ hp)
  | @node n p hp _ ih =>
    intro m h'
    generalize hb : node p.1 p.2 = b at h'
    cases h' with
    | leaf hb' => exact absurd (hb ▸ hb') (hsep _ hp)
    | @node m q hq h' =>
      obtain rfl := hinj p hp q hq hb
      rw [ih h']

omit hinj hsep in
/-- What is left of nodes of one height is as high, or higher. -/
theorem climb_height : ∀ (n k : ℕ) {xs : List α} {a : α}, (∀ x ∈ xs, Height node H L k x) →
    (∀ p ∈ hashed node n xs, p ∈ H) → climb node n xs = [a] → xs.length ≤ n →
    ∃ j, Height node H L (k + j) a ∧ (1 < xs.length → 0 < j)
  | 0, k, xs, a, _, _, ha, hn => by
    rw [Nat.le_zero, List.length_eq_zero_iff] at hn
    rw [hn] at ha
    cases ha
  | n + 1, k, xs, a, hxs, hH, ha, hn => by
    unfold climb at ha
    unfold hashed at hH
    by_cases hone : xs.length ≤ 1
    · rw [if_pos hone] at ha
      exact ⟨0, hxs a (by simp [ha]), fun h => by omega⟩
    · rw [if_neg hone] at ha hH
      have hup : ∀ x ∈ level node xs, Height node H L (k + 1) x := fun x hx => by
        obtain ⟨p, hp, rfl⟩ := List.mem_map.mp hx
        exact .node (hH p (by simp [hp])) (hxs _ (pairs_mem hp).1)
      obtain ⟨j, hj, -⟩ := climb_height n (k + 1) hup (fun p hp => hH p (by simp [hp])) ha
        (by rw [level_length]; omega)
      exact ⟨1 + j, by rwa [← Nat.add_assoc], fun _ => by omega⟩

/-- **The top alone binds leaves without duplicates**, if no two of the pairs
that are hashed collide and none collides with a leaf. -/
theorem climb_binds : ∀ (n m k : ℕ) {xs ys : List α} {a : α}, xs.Nodup → ys.Nodup →
    (∀ x ∈ xs, Height node H L k x) → (∀ y ∈ ys, Height node H L k y) → (∀ p ∈ hashed node n xs, p ∈ H) →
    (∀ p ∈ hashed node m ys, p ∈ H) → xs.length ≤ n → ys.length ≤ m → climb node n xs = [a] →
    climb node m ys = [a] → xs = ys
  | 0, _, _, xs, _, a, _, _, _, _, _, _, hn, _, ha, _ => by
    rw [Nat.le_zero, List.length_eq_zero_iff] at hn
    rw [hn] at ha
    cases ha
  | _, 0, _, _, ys, a, _, _, _, _, _, _, _, hm, _, hb => by
    rw [Nat.le_zero, List.length_eq_zero_iff] at hm
    rw [hm] at hb
    cases hb
  | n + 1, m + 1, k, xs, ys, a, hx, hy, hxs, hys, hH, hH', hn, hm, ha, hb => by
    have hx' := climb_height (n + 1) k hxs hH ha hn
    have hy' := climb_height (m + 1) k hys hH' hb hm
    unfold climb at ha hb
    unfold hashed at hH hH'
    by_cases hone : xs.length ≤ 1
    · rw [if_pos hone] at ha
      by_cases hone' : ys.length ≤ 1
      · rw [if_pos hone'] at hb
        rw [ha, hb]
      · obtain ⟨j, hj, hpos⟩ := hy'
        have hk := Height.unique hinj hsep (hxs a (by simp [ha])) hj
        have := hpos (by omega)
        omega
    · by_cases hone' : ys.length ≤ 1
      · rw [if_pos hone'] at hb
        obtain ⟨j, hj, hpos⟩ := hx'
        have hk := Height.unique hinj hsep (hys a (by simp [hb])) hj
        have := hpos (by omega)
        omega
      · rw [if_neg hone] at ha hH
        rw [if_neg hone'] at hb hH'
        have hp : ∀ p ∈ pairs xs, p ∈ H := fun p hp => hH p (by simp [hp])
        have hq : ∀ q ∈ pairs ys, q ∈ H := fun q hq => hH' q (by simp [hq])
        have hup : ∀ x ∈ level node xs, Height node H L (k + 1) x := fun x hx => by
          obtain ⟨p, hp', rfl⟩ := List.mem_map.mp hx
          exact .node (hp p hp') (hxs _ (pairs_mem hp').1)
        have hup' : ∀ y ∈ level node ys, Height node H L (k + 1) y := fun y hy => by
          obtain ⟨q, hq', rfl⟩ := List.mem_map.mp hy
          exact .node (hq q hq') (hys _ (pairs_mem hq').1)
        have hlevel : level node xs = level node ys :=
          climb_binds n m (k + 1) (level_nodup node hx fun p hp' q hq' => hinj p (hp p hp') q (hp q hq'))
            (level_nodup node hy fun p hp' q hq' => hinj p (hq p hp') q (hq q hq')) hup hup'
            (fun p hp' => hH p (by simp [hp'])) (fun p hp' => hH' p (by simp [hp'])) (by rw [level_length]; omega)
            (by rw [level_length]; omega) ha hb
        exact pairs_inj_of_nodup xs ys hx hy
          (map_inj_of_forall (fun p hp' q hq' => hinj p (hp p hp') q (hq q hq')) hlevel)

end Separated

/-- What is hashed is made of leaves and of what was hashed. -/
theorem hashed_mem : ∀ (n : ℕ) {xs : List α} {p : α × α}, p ∈ hashed node n xs → ∀ x, x = p.1 ∨ x = p.2 →
    x ∈ xs ∨ ∃ q ∈ hashed node n xs, x = node q.1 q.2
  | 0, _, _, hp, _, _ => by simp [hashed] at hp
  | n + 1, xs, p, hp, x, hx => by
    unfold hashed at hp ⊢
    by_cases hone : xs.length ≤ 1
    · rw [if_pos hone] at hp
      cases hp
    rw [if_neg hone] at hp ⊢
    rcases List.mem_append.mp hp with hp | hp
    · rcases hx with rfl | rfl
      · exact Or.inl (pairs_mem hp).1
      · exact Or.inl (pairs_mem hp).2
    · rcases hashed_mem n hp x hx with h | ⟨q, hq, rfl⟩
      · obtain ⟨q, hq, rfl⟩ := List.mem_map.mp h
        exact Or.inr ⟨q, by simp [hq], rfl⟩
      · exact Or.inr ⟨q, by simp [hq], rfl⟩

/-- The top is a leaf or the last that was hashed. -/
theorem climb_mem : ∀ (n : ℕ) {xs : List α} {a : α}, a ∈ climb node n xs →
    a ∈ xs ∨ ∃ q ∈ hashed node n xs, a = node q.1 q.2
  | 0, _, _, ha => Or.inl ha
  | n + 1, xs, a, ha => by
    unfold climb at ha
    unfold hashed
    by_cases hone : xs.length ≤ 1
    · rw [if_pos hone] at ha
      exact Or.inl ha
    rw [if_neg hone] at ha ⊢
    rcases climb_mem n ha with h | ⟨q, hq, rfl⟩
    · obtain ⟨q, hq, rfl⟩ := List.mem_map.mp h
      exact Or.inr ⟨q, by simp [hq], rfl⟩
    · exact Or.inr ⟨q, by simp [hq], rfl⟩

end Unique

/-! ### Inclusion -/

/-- On which side of a node its sibling stands. -/
inductive Side
  | left
  | right
  deriving DecidableEq, Repr

/-- The side of the sibling of node `i`. -/
def Side.of (i : ℕ) : Side := if i ^^^ 1 < i then .left else .right

/-- A step of an inclusion proof: the sibling and its side. -/
structure Step (α : Type) where
  hash : α
  side : Side
  deriving DecidableEq, Repr

/-- A level as it is paired: of an odd number, the last node again. -/
def padded (xs : List α) : List α := if xs.length % 2 = 1 then xs ++ xs.getLast?.toList else xs

/-- The siblings of node `i` on the way up, `n` levels at most; nothing where
there is no node `i`. -/
def proof : ℕ → List α → ℕ → Option (List (Step α))
  | 0, _, _ => some []
  | n + 1, xs, i =>
    if xs.length ≤ 1 then some []
    else do
      let sibling ← (padded xs)[i ^^^ 1]?
      let steps ← proof n (level node xs) (i / 2)
      some (⟨sibling, .of i⟩ :: steps)

/-- A node with its sibling, one level up. -/
def Step.up (s : Step α) (x : α) : α :=
  match s.side with
  | .left => node s.hash x
  | .right => node x s.hash

theorem xor_one (i : ℕ) : i ^^^ 1 = if i % 2 = 0 then i + 1 else i - 1 := by
  split
  · exact Nat.xor_one_of_even (Nat.even_iff.mpr ‹_›)
  · exact Nat.xor_one_of_odd (Nat.odd_iff.mpr (by omega))

theorem xor_one_add_two (i : ℕ) : (i + 2) ^^^ 1 = (i ^^^ 1) + 2 := by
  rw [xor_one, xor_one, Nat.add_mod_right]
  split <;> omega

theorem Side.of_add_two (i : ℕ) : Side.of (i + 2) = Side.of i := by
  simp only [Side.of, xor_one_add_two, Nat.add_lt_add_iff_right]

theorem padded_cons_cons (a b : α) (xs : List α) : padded (a :: b :: xs) = a :: b :: padded xs := by
  unfold padded
  have hpar : (a :: b :: xs).length % 2 = xs.length % 2 := by
    simp only [List.length_cons]
    omega
  rw [hpar]
  split
  · have hne : xs ≠ [] := by
      rintro rfl
      simp at *
    rw [List.getLast?_cons_cons, List.getLast?_cons_of_ne_nil hne]
    rfl
  · rfl

/-- Above node `i` stands the node of it and of its sibling. -/
theorem level_getElem? : ∀ (xs : List α) (i : ℕ) (x : α), xs[i]? = some x →
    ∃ s, (padded xs)[i ^^^ 1]? = some s ∧
      (level node xs)[i / 2]? = some (Step.up node ⟨s, .of i⟩ x)
  | [], i, x, h => by simp at h
  | [a], 0, x, h => by
    simp only [List.getElem?_cons_zero, Option.some.injEq] at h
    subst h
    exact ⟨a, rfl, rfl⟩
  | [a], i + 1, x, h => by simp at h
  | a :: b :: xs, 0, x, h => by
    simp only [List.getElem?_cons_zero, Option.some.injEq] at h
    subst h
    exact ⟨b, by rw [padded_cons_cons]; rfl, rfl⟩
  | a :: b :: xs, 1, x, h => by
    simp only [List.getElem?_cons_succ, List.getElem?_cons_zero, Option.some.injEq] at h
    subst h
    exact ⟨a, by rw [padded_cons_cons]; rfl, rfl⟩
  | a :: b :: xs, i + 2, x, h => by
    simp only [List.getElem?_cons_succ] at h
    obtain ⟨s, hs, hup⟩ := level_getElem? xs i x h
    refine ⟨s, ?_, ?_⟩
    · rw [padded_cons_cons, xor_one_add_two]
      exact hs
    · rw [show (i + 2) / 2 = i / 2 + 1 by omega, Side.of_add_two]
      simpa [level, pairs] using hup

/-- **Every node has a proof, and it leads to the top.** -/
theorem proof_climb : ∀ (n : ℕ) (xs : List α) (i : ℕ) (x : α), xs.length ≤ n → xs[i]? = some x →
    ∃ steps, proof node n xs i = some steps ∧
      climb node n xs = [steps.foldl (fun current step => step.up node current) x]
  | 0, xs, i, x, hn, hx => by
    rw [Nat.le_zero, List.length_eq_zero_iff] at hn
    simp [hn] at hx
  | n + 1, xs, i, x, hn, hx => by
    unfold proof climb
    by_cases hone : xs.length ≤ 1
    · rw [if_pos hone, if_pos hone]
      refine ⟨[], rfl, ?_⟩
      match xs, i, hone, hx with
      | [a], 0, _, hx => simpa using hx
    · rw [if_neg hone, if_neg hone]
      obtain ⟨s, hs, hup⟩ := level_getElem? node xs i x hx
      obtain ⟨steps, hsteps, htop⟩ := proof_climb n (level node xs) (i / 2) _ (by
        rw [level_length]
        omega) hup
      refine ⟨⟨s, .of i⟩ :: steps, ?_, ?_⟩
      · simp [hs, hsteps]
      · rw [htop, List.foldl_cons]

theorem mem_padded {xs : List α} {x : α} (h : x ∈ padded xs) : x ∈ xs := by
  unfold padded at h
  split at h
  · rcases List.mem_append.mp h with h | h
    · exact h
    · exact List.mem_of_getLast? (Option.mem_toList.mp h)
  · exact h

/-- What holds of the leaves and of every node holds of the siblings of a proof. -/
theorem proof_mem {P : α → Prop} (hnode : ∀ a b, P (node a b)) : ∀ (n : ℕ) (xs : List α) (i : ℕ) (steps : List (Step α)),
    (∀ x ∈ xs, P x) → proof node n xs i = some steps → ∀ s ∈ steps, P s.hash
  | 0, xs, i, steps, _, h, s, hs => by
    cases h
    simp at hs
  | n + 1, xs, i, steps, hxs, h, s, hs => by
    unfold proof at h
    split at h
    · cases h
      simp at hs
    · simp only [Option.bind_eq_bind, Option.bind_eq_some_iff, Option.some.injEq] at h
      obtain ⟨sibling, hsib, rest, hrest, rfl⟩ := h
      rcases List.mem_cons.mp hs with rfl | hs
      · exact hxs _ (mem_padded (List.mem_of_getElem? hsib))
      · refine proof_mem hnode n _ _ rest (fun x hx => ?_) hrest s hs
        obtain ⟨p, -, rfl⟩ := List.mem_map.mp hx
        exact hnode _ _

end Merkle
