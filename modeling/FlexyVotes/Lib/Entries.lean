/-
# Finite maps as lists of entries

A list of keys with their values, no key twice: `get` finds the value of a key,
`put` writes or removes it. What is counted of the entries changes by the entry
that goes and the one that comes (`countP_put`).

Key definitions: `get`, `put`, `Keyed`.
Key theorems: `mem_put`, `get_put`, `forall_put`, `Keyed.put`, `countP_put`.
-/
import Mathlib

namespace Entries

variable {κ α : Type*} [DecidableEq κ]

/-- The value of the key. -/
def get (k : κ) (l : List (κ × α)) : Option α := (l.find? fun c => c.1 = k).map (·.2)

/-- The key has this value, or none. -/
def put (k : κ) (o : Option α) (l : List (κ × α)) : List (κ × α) :=
  (o.map fun a => (k, a)).toList ++ l.filter fun c => c.1 ≠ k

omit [DecidableEq κ] in
/-- No key has two values. -/
def Keyed (l : List (κ × α)) : Prop := (l.map (·.1)).Nodup

instance (l : List (κ × α)) : Decidable (Keyed l) := inferInstanceAs (Decidable (l.map (·.1)).Nodup)

variable {k j : κ} {a : α} {o : Option α} {c : κ × α} {l : List (κ × α)}

theorem mem_of_get (h : get k l = some a) : (k, a) ∈ l := by
  obtain ⟨c, hfind, rfl⟩ := Option.map_eq_some_iff.mp h
  have hk : c.1 = k := by simpa using List.find?_some hfind
  rw [← hk]
  exact List.mem_of_find?_eq_some hfind

theorem ne_of_get (h : get k l = none) (hc : c ∈ l) : c.1 ≠ k := by
  have hfind := List.find?_eq_none.mp (Option.map_eq_none_iff.mp h) c hc
  simpa using hfind

theorem mem_put : c ∈ put k o l ↔ (c.1 = k ∧ o = some c.2) ∨ (c ∈ l ∧ c.1 ≠ k) := by
  unfold put
  rw [List.mem_append, Option.mem_toList, Option.map_eq_some_iff, List.mem_filter, decide_eq_true_eq]
  refine or_congr ⟨?_, ?_⟩ Iff.rfl
  · rintro ⟨a, rfl, rfl⟩
    exact ⟨rfl, rfl⟩
  · rintro ⟨rfl, rfl⟩
    exact ⟨c.2, rfl, rfl⟩

omit [DecidableEq κ] in
theorem Keyed.nil : Keyed ([] : List (κ × α)) := List.nodup_nil

theorem Keyed.put (h : Keyed l) : Keyed (put k o l) := by
  unfold Keyed Entries.put
  have hrest : ((l.filter fun c => c.1 ≠ k).map (·.1)).Nodup := h.sublist (List.filter_sublist.map _)
  cases o with
  | none => exact hrest
  | some c =>
    refine List.nodup_cons.mpr ⟨fun hmem => ?_, hrest⟩
    obtain ⟨c', hc', hi⟩ := List.mem_map.mp hmem
    exact of_decide_eq_true (List.mem_filter.mp hc').2 hi

/-- The key's only entry. -/
theorem Keyed.eq (h : Keyed l) (hget : get k l = some a) (hc : c ∈ l) (hk : c.1 = k) : c = (k, a) :=
  List.inj_on_of_nodup_map h hc (mem_of_get hget) hk

theorem Keyed.get_eq (h : Keyed l) (hc : (k, a) ∈ l) : get k l = some a := by
  rcases hget : get k l with _ | b
  · exact absurd rfl (ne_of_get hget hc)
  · have hsame := h.eq hget hc rfl
    rw [(Prod.mk.inj hsame).2]

theorem get_put (h : Keyed l) : get j (put k o l) = if j = k then o else get j l := by
  have hput : Keyed (put k o l) := h.put
  by_cases hj : j = k
  · rw [if_pos hj, hj]
    cases o with
    | none =>
      rcases hget : get k (put k none l) with _ | a
      · rfl
      · rcases mem_put.mp (mem_of_get hget) with ⟨-, hnone⟩ | ⟨-, hne⟩
        · cases hnone
        · exact absurd rfl hne
    | some a => exact hput.get_eq (mem_put.mpr (Or.inl ⟨rfl, rfl⟩))
  · rw [if_neg hj]
    rcases hget : get j l with _ | a
    · rcases hget' : get j (put k o l) with _ | a
      · rfl
      · rcases mem_put.mp (mem_of_get hget') with ⟨hjk, -⟩ | ⟨hmem, -⟩
        · exact absurd hjk hj
        · exact absurd rfl (ne_of_get hget hmem)
    · exact hput.get_eq (mem_put.mpr (Or.inr ⟨mem_of_get hget, hj⟩))

/-- What holds of every value that was there, and of the one that is written. -/
theorem forall_put {P : κ → α → Prop} (h : Keyed l) (hold : ∀ j b, get j l = some b → P j b) (hnew : ∀ b, o = some b → P k b) :
    ∀ j b, get j (put k o l) = some b → P j b := by
  intro j b hb
  rw [get_put h] at hb
  split at hb
  · rename_i hj
    exact hj ▸ hnew b hb
  · exact hold j b hb

theorem get_map (f : κ × α → α) : ∀ l : List (κ × α), get k (l.map fun c => (c.1, f c)) = (get k l).map fun a => f (k, a)
  | [] => rfl
  | c :: l => by
    have hrest := get_map f l
    unfold get at hrest ⊢
    by_cases hk : c.1 = k
    · rw [List.map_cons, List.find?_cons_of_pos (by simpa using hk), List.find?_cons_of_pos (by simpa using hk), ← hk]
      rfl
    · rw [List.map_cons, List.find?_cons_of_neg (by simpa using hk), List.find?_cons_of_neg (by simpa using hk)]
      exact hrest

omit [DecidableEq κ] in
theorem keyed_map (f : κ × α → α) (h : Keyed l) : Keyed (l.map fun c => (c.1, f c)) := by
  unfold Keyed
  rw [List.map_map]
  exact h

theorem get_filter {p : κ × α → Bool} (h : Keyed l) : get k (l.filter p) = (get k l).filter fun a => p (k, a) := by
  have hfilter : Keyed (l.filter p) := h.sublist (List.filter_sublist.map _)
  rcases hget : get k l with _ | a
  · rcases hget' : get k (l.filter p) with _ | b
    · rfl
    · exact absurd rfl (ne_of_get hget (List.mem_filter.mp (mem_of_get hget')).1)
  · rw [Option.filter_some]
    split
    · rename_i hp
      exact hfilter.get_eq (List.mem_filter.mpr ⟨mem_of_get hget, hp⟩)
    · rename_i hp
      rcases hget' : get k (l.filter p) with _ | b
      · rfl
      · have hmem := List.mem_filter.mp (mem_of_get hget')
        have hsame := h.eq hget hmem.1 rfl
        rw [hsame] at hmem
        exact absurd hmem.2 hp

/-- How often a value that is there, or none, counts. -/
def tally (p : κ × α → Bool) (k : κ) (o : Option α) : ℕ := (o.map fun a => if p (k, a) then 1 else 0).getD 0

omit [DecidableEq κ] in
@[simp] theorem tally_none (p : κ × α → Bool) : tally p k none = 0 := rfl

omit [DecidableEq κ] in
@[simp] theorem tally_some (p : κ × α → Bool) : tally p k (some a) = if p (k, a) then 1 else 0 := rfl

/-- Without the entry of the key its count is missing. -/
theorem countP_filter (p : κ × α → Bool) : ∀ {l : List (κ × α)}, Keyed l →
    (l.filter fun c => c.1 ≠ k).countP p + tally p k (get k l) = l.countP p
  | [], _ => rfl
  | c :: l, h => by
    have hl : Keyed l := (List.nodup_cons.mp h).2
    have hrest := countP_filter p hl
    by_cases hk : c.1 = k
    · have hget : get k (c :: l) = some c.2 := h.get_eq (hk ▸ List.mem_cons_self ..)
      have hnone : get k l = none := by
        rcases hget' : get k l with _ | a
        · rfl
        · exact absurd (List.mem_map.mpr ⟨_, mem_of_get hget', hk.symm⟩) (List.nodup_cons.mp h).1
      rw [hnone, tally_none, Nat.add_zero] at hrest
      rw [hget, tally_some, List.filter_cons_of_neg (by simpa using hk), hrest, List.countP_cons, ← hk]
    · have hget : get k (c :: l) = get k l := by
        unfold get
        rw [List.find?_cons_of_neg (by simpa using hk)]
      rw [hget, List.filter_cons_of_pos (by simpa using hk), List.countP_cons, List.countP_cons]
      omega

theorem countP_put (p : κ × α → Bool) (h : Keyed l) :
    (put k o l).countP p + tally p k (get k l) = l.countP p + tally p k o := by
  have hrest := countP_filter p (k := k) h
  unfold put
  rw [List.countP_append]
  cases o with
  | none =>
    rw [tally_none]
    exact (congrArg (· + _) (Nat.zero_add _)).trans hrest
  | some a =>
    have hone : List.countP p (Option.map (fun a => (k, a)) (some a)).toList = tally p k (some a) := by
      rw [tally_some]
      exact List.countP_singleton ..
    omega

omit [DecidableEq κ] in
/-- At most one entry counts, where no two do. -/
theorem countP_le_one {p : κ × α → Bool} (h : Keyed l) (hone : ∀ c ∈ l, ∀ c' ∈ l, p c = true → p c' = true → c.1 = c'.1) :
    l.countP p ≤ 1 := by
  rw [List.countP_eq_length_filter]
  have hkeyed : Keyed (l.filter p) := h.sublist (List.filter_sublist.map _)
  rcases hl : l.filter p with _ | ⟨c, _ | ⟨c', rest⟩⟩
  · exact Nat.zero_le _
  · exact le_rfl
  · have hc : c ∈ l.filter p := hl ▸ List.mem_cons_self ..
    have hc' : c' ∈ l.filter p := hl ▸ List.mem_cons_of_mem _ (List.mem_cons_self ..)
    have hsame := hone c (List.mem_filter.mp hc).1 c' (List.mem_filter.mp hc').1 (List.mem_filter.mp hc).2
      (List.mem_filter.mp hc').2
    rw [hl] at hkeyed
    exact absurd (List.mem_map.mpr ⟨c', List.mem_cons_self .., hsame.symm⟩) (List.nodup_cons.mp hkeyed).1

end Entries
