/-
# Places

Things in the order of a total, the greatest first, where equal totals may
stand either way round. A thing is among the first `k` in every such order when
at most `k` have as great a total, itself among them, and in some order when
fewer than `k` have a greater one.
-/
import Mathlib.Data.List.Perm.Lattice
import Mathlib.Data.List.Sort
import Mathlib.Data.Prod.Lex
import Mathlib.Order.Lattice

namespace Places

variable {κ F : Type} [LinearOrder F]

/-- `l` is `xs` in an order of the totals `f`. -/
def Ordered (f : κ → F) (xs l : List κ) : Prop := l.Perm xs ∧ l.Pairwise fun a b => f b ≤ f a

/-- How many have a total as great as that of `c`, and a greater one. -/
def atLeast (f : κ → F) (xs : List κ) (c : κ) : ℕ := xs.countP fun x => f c ≤ f x

def above (f : κ → F) (xs : List κ) (c : κ) : ℕ := xs.countP fun x => f c < f x

variable {f : κ → F} {xs l : List κ} {c : κ} {k : ℕ}

theorem atLeast_perm (h : l.Perm xs) : atLeast f l c = atLeast f xs c := h.countP_eq _

theorem above_perm (h : l.Perm xs) : above f l c = above f xs c := h.countP_eq _

theorem above_lt_atLeast (h : c ∈ xs) : above f xs c < atLeast f xs c := by
  unfold above atLeast
  induction xs with
  | nil => exact absurd h List.not_mem_nil
  | cons x xs ih =>
    have hmono : xs.countP (fun y => f c < f y) ≤ xs.countP fun y => f c ≤ f y :=
      List.countP_mono_left fun y _ hy => decide_eq_true (of_decide_eq_true hy).le
    simp only [List.countP_cons, decide_eq_true_eq]
    rcases List.mem_cons.mp h with rfl | h
    · simp only [lt_self_iff_false, if_false, le_refl, if_true]
      omega
    · have := ih h
      by_cases hlt : f c < f x
      · simp only [hlt, hlt.le, if_true]
        omega
      · simp only [hlt, if_false]
        omega

theorem mem_take_or_drop (h : c ∈ l) : c ∈ l.take k ∨ c ∈ l.drop k := by
  rwa [← List.mem_append, List.take_append_drop]

/-- The first `k` are not behind the others. -/
theorem le_of_take_drop (h : l.Pairwise fun a b => f b ≤ f a) {a b : κ} (ha : a ∈ l.take k) (hb : b ∈ l.drop k) :
    f b ≤ f a := by
  rw [← List.take_append_drop k l, List.pairwise_append] at h
  exact h.2.2 a ha b hb

theorem length_take_of_drop (h : c ∈ l.drop k) : (l.take k).length = k := by
  have := List.length_pos_of_mem h
  rw [List.length_drop] at this
  rw [List.length_take]
  omega

theorem atLeast_split : atLeast f l c = (l.take k).countP (fun x => f c ≤ f x) + (l.drop k).countP fun x => f c ≤ f x := by
  rw [← List.countP_append, List.take_append_drop]
  rfl

theorem above_split : above f l c = (l.take k).countP (fun x => f c < f x) + (l.drop k).countP fun x => f c < f x := by
  rw [← List.countP_append, List.take_append_drop]
  rfl

/-! ### The places of one order -/

/-- As many as `k` before the others with as great a total, and one among them:
there are more. -/
theorem lt_atLeast (hfirst : ∀ a ∈ l.take k, f c ≤ f a) {d : κ} (hd : d ∈ l.drop k) (hle : f c ≤ f d) :
    k < atLeast f l c := by
  have hall : (l.take k).countP (fun x => f c ≤ f x) = (l.take k).length :=
    List.countP_eq_length.mpr fun a ha => decide_eq_true (hfirst a ha)
  have hone : 0 < (l.drop k).countP fun x => f c ≤ f x := List.countP_pos_iff.mpr ⟨d, hd, decide_eq_true hle⟩
  rw [atLeast_split (k := k), hall, length_take_of_drop hd]
  omega

/-- None of the others has as great a total: there are not more than `k`. -/
theorem atLeast_le (hrest : ∀ d ∈ l.drop k, f d < f c) : atLeast f l c ≤ k := by
  have hnone : (l.drop k).countP (fun x => f c ≤ f x) = 0 :=
    List.countP_eq_zero.mpr fun d hd => by simpa using hrest d hd
  rw [atLeast_split (k := k), hnone]
  exact List.countP_le_length.trans (List.length_take_le _ _)

/-- One of the first `k` is not greater, and none of the others is. -/
theorem above_lt (hrest : ∀ d ∈ l.drop k, f d ≤ f c) {a : κ} (ha : a ∈ l.take k) (hle : f a ≤ f c) :
    above f l c < k := by
  have hnone : (l.drop k).countP (fun x => f c < f x) = 0 :=
    List.countP_eq_zero.mpr fun d hd => by simpa using hrest d hd
  have hsome : (l.take k).countP (fun x => f c < f x) ≠ (l.take k).length := fun heq => by
    have := List.countP_eq_length.mp heq a ha
    rw [decide_eq_true_eq] at this
    exact absurd this (not_lt.mpr hle)
  have hlt := lt_of_le_of_ne List.countP_le_length hsome
  rw [above_split (k := k), hnone]
  exact hlt.trans_le (List.length_take_le _ _)

/-- The first `k` are greater. -/
theorem le_above (hfirst : ∀ a ∈ l.take k, f c < f a) (hlen : (l.take k).length = k) : k ≤ above f l c := by
  have hall : (l.take k).countP (fun x => f c < f x) = (l.take k).length :=
    List.countP_eq_length.mpr fun a ha => decide_eq_true (hfirst a ha)
  rw [above_split (k := k), hall, hlen]
  exact Nat.le_add_right _ _

theorem Ordered.mem_take (h : Ordered f xs l) (hc : c ∈ xs) (hk : atLeast f xs c ≤ k) : c ∈ l.take k := by
  rcases mem_take_or_drop (k := k) (h.1.mem_iff.mpr hc) with hin | hout
  · exact hin
  · have hmore := lt_atLeast (fun a ha => le_of_take_drop h.2 ha hout) hout le_rfl
    rw [atLeast_perm h.1] at hmore
    exact absurd hk (not_le.mpr hmore)

theorem Ordered.above_lt (h : Ordered f xs l) (hin : c ∈ l.take k) : above f xs c < k := by
  rw [← above_perm h.1]
  exact Places.above_lt (fun d hd => le_of_take_drop h.2 hin hd) hin le_rfl

/-! ### Equal totals either way round -/

/-- A finer key gives an order. -/
theorem exists_ordered (xs : List κ) {G : Type} [LinearOrder G] (key : κ → G) (hkey : ∀ a b, key b ≤ key a → f b ≤ f a) :
    ∃ l, Ordered f xs l ∧ l.Pairwise fun a b => key b ≤ key a := by
  have : Std.Total fun a b : κ => key b ≤ key a := ⟨fun a b => le_total _ _⟩
  have : IsTrans κ fun a b : κ => key b ≤ key a := ⟨fun _ _ _ hab hbc => hbc.trans hab⟩
  have hsorted := List.pairwise_insertionSort (fun a b : κ => key b ≤ key a) xs
  exact ⟨_, ⟨List.perm_insertionSort _ _, hsorted.imp fun h => hkey _ _ h⟩, hsorted⟩

variable [DecidableEq κ]

/-- The totals, and the rank of `c` among equals. -/
def ranking (f : κ → F) (c : κ) (own others : ℕ) (x : κ) : F ×ₗ ℕ := toLex (f x, if x = c then own else others)

theorem le_of_ranking {own others : ℕ} (a b : κ) (h : ranking f c own others b ≤ ranking f c own others a) :
    f b ≤ f a := by
  rcases Prod.Lex.toLex_le_toLex.mp h with hlt | ⟨heq, -⟩
  · exact hlt.le
  · exact heq.le

theorem exists_first (hnd : xs.Nodup) (hc : c ∈ xs) (hk : above f xs c < k) : ∃ l, Ordered f xs l ∧ c ∈ l.take k := by
  obtain ⟨l, hl, hsorted⟩ := exists_ordered xs (ranking f c 1 0) le_of_ranking
  refine ⟨l, hl, (mem_take_or_drop (hl.1.mem_iff.mpr hc)).resolve_right fun hout => ?_⟩
  have hdisjoint := List.disjoint_take_drop (hl.1.nodup_iff.mpr hnd) le_rfl (m := k)
  refine absurd hk (not_lt.mpr ?_)
  rw [← above_perm hl.1]
  refine le_above (fun a ha => ?_) (length_take_of_drop hout)
  rcases Prod.Lex.toLex_le_toLex.mp (le_of_take_drop hsorted ha hout) with hlt | ⟨-, hrank⟩
  · exact hlt
  · have hac : a = c := by
      by_contra hne
      simp [hne] at hrank
    exact absurd hout (hdisjoint (hac ▸ ha))

theorem exists_last (hnd : xs.Nodup) (hk : k < atLeast f xs c) : ∃ l, Ordered f xs l ∧ c ∉ l.take k := by
  obtain ⟨l, hl, hsorted⟩ := exists_ordered xs (ranking f c 0 1) le_of_ranking
  refine ⟨l, hl, fun hin => absurd hk (not_lt.mpr ?_)⟩
  have hdisjoint := List.disjoint_take_drop (hl.1.nodup_iff.mpr hnd) le_rfl (m := k)
  rw [← atLeast_perm hl.1]
  refine atLeast_le fun d hd => ?_
  rcases Prod.Lex.toLex_le_toLex.mp (le_of_take_drop hsorted hin hd) with hlt | ⟨-, hrank⟩
  · exact hlt
  · have hdc : d = c := by
      by_contra hne
      simp [hne] at hrank
    exact absurd hd (hdisjoint (hdc ▸ hin))

section Iff

variable (hnd : xs.Nodup) (hc : c ∈ xs)

include hnd hc

theorem always_iff : (∀ l, Ordered f xs l → c ∈ l.take k) ↔ atLeast f xs c ≤ k := by
  refine ⟨fun h => not_lt.mp fun hk => ?_, fun hk l hl => hl.mem_take hc hk⟩
  obtain ⟨l, hl, hout⟩ := exists_last hnd hk
  exact hout (h l hl)

theorem sometimes_iff : (∃ l, Ordered f xs l ∧ c ∈ l.take k) ↔ above f xs c < k :=
  ⟨fun ⟨_, hl, hin⟩ => hl.above_lt hin, exists_first hnd hc⟩

theorem sometimes_not_iff : (∃ l, Ordered f xs l ∧ c ∉ l.take k) ↔ k < atLeast f xs c :=
  ⟨fun ⟨_, hl, hout⟩ => not_le.mp fun hk => hout (hl.mem_take hc hk), exists_last hnd⟩

end Iff

end Places
