/-
# Chains of hashes

Links that are numbered from one, each with the hash of the link before it and
a hash of its own over that hash, its number and its body; the newest link
first. The hash of the newest link stands for the whole chain: two chains of one
length with the same last hash are the same, as far as the hash function tells
their links apart (`Linked.same`).

Key definitions: `Link`, `last`, `Linked`.
Key theorem: `Linked.same`.
-/
import Mathlib.Data.List.Basic

namespace Chains

/-- A link, with the hash of the link before it. -/
structure Link (B H : Type*) where
  seq : ℕ
  prev : H
  hash : H
  body : B

variable {B H : Type*} (f : H → ℕ → B → H) (genesis : H)

/-- The hash of the newest link, or the one a chain begins with. -/
def last : List (Link B H) → H
  | [] => genesis
  | a :: _ => a.hash

/-- Every link is numbered, linked to the one before it and hashed. -/
def Linked : List (Link B H) → Prop
  | [] => True
  | a :: older => a.seq = older.length + 1 ∧ a.prev = last genesis older ∧ a.hash = f a.prev a.seq a.body ∧ Linked older

/-- The links of a chain have the numbers up to its length. -/
theorem Linked.seq_le : ∀ {xs : List (Link B H)}, Linked f genesis xs → ∀ a ∈ xs, 1 ≤ a.seq ∧ a.seq ≤ xs.length
  | [], _, _, ha => nomatch ha
  | b :: older, ⟨hseq, _, _, holder⟩, a, ha => by
    rw [List.length_cons]
    rcases List.mem_cons.mp ha with rfl | ha
    · omega
    · have hle := holder.seq_le a ha
      omega

/-- Newer links have greater numbers. -/
theorem Linked.pairwise : ∀ {xs : List (Link B H)}, Linked f genesis xs → xs.Pairwise fun a b => b.seq < a.seq
  | [], _ => .nil
  | a :: older, ⟨hseq, _, _, holder⟩ => by
    refine .cons (fun b hb => ?_) holder.pairwise
    have hle := (holder.seq_le f genesis b hb).2
    omega

/-- Every hash is the one a chain begins with, or one of the function. -/
theorem Linked.last_mem : ∀ {xs : List (Link B H)}, Linked f genesis xs →
    last genesis xs = genesis ∨ ∃ p n b, last genesis xs = f p n b
  | [], _ => .inl rfl
  | a :: _, ⟨_, _, hhash, _⟩ => .inr ⟨a.prev, a.seq, a.body, hhash⟩

/-- **The last hash of a chain stands for all of it**: chains of one length that
end in the same hash have the same links, where the function has one hash for
no two links `R` tells apart. -/
theorem Linked.same {R : B → B → Prop} : ∀ {xs ys : List (Link B H)}, Linked f genesis xs → Linked f genesis ys →
    (∀ a ∈ xs, ∀ b ∈ ys, f a.prev a.seq a.body = f b.prev b.seq b.body → a.prev = b.prev ∧ R a.body b.body) →
    xs.length = ys.length → last genesis xs = last genesis ys →
    List.Forall₂ (fun a b => a.seq = b.seq ∧ a.prev = b.prev ∧ a.hash = b.hash ∧ R a.body b.body) xs ys
  | [], [], _, _, _, _, _ => .nil
  | [], _ :: _, _, _, _, hlen, _ => by cases hlen
  | _ :: _, [], _, _, _, hlen, _ => by cases hlen
  | a :: xs, b :: ys, ⟨hseq, hprev, hhash, hxs⟩, ⟨hseq', hprev', hhash', hys⟩, hf, hlen, hlast => by
    have hlen' : xs.length = ys.length := Nat.succ.inj hlen
    have hsame : a.hash = b.hash := hlast
    rw [hhash, hhash'] at hsame
    obtain ⟨hp, hR⟩ := hf a List.mem_cons_self b List.mem_cons_self hsame
    have hrest : last genesis xs = last genesis ys := by rw [← hprev, ← hprev', hp]
    refine .cons ⟨by rw [hseq, hseq', hlen'], hp, hlast, hR⟩ (Linked.same hxs hys (fun x hx y hy => ?_) hlen' hrest)
    exact hf x (List.mem_cons_of_mem _ hx) y (List.mem_cons_of_mem _ hy)

end Chains
