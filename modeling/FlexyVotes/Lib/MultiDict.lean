/-
# Keys with several values

A list of pairs read as a dictionary in which a key may come several times:
`getlist` has all values of a key, `get` the last, and `items` goes through the
keys, each with its last value. Nothing that is read of some keys depends on
the pairs with other keys (`get_filter`, `getlist_filter`, `items_filter`); and
where no key comes twice `items` is the list itself (`items_eq`).

Key definitions: `getlist`, `get`, `items`.
Key theorems: `getlist_filter`, `items_filter`, `items_eq`.
-/
import Mathlib.Data.List.Nodup
import Mathlib.Tactic.Common

namespace MultiDict

variable {κ ν : Type} [DecidableEq κ]

/-- All values of a key, in order. -/
def getlist (l : List (κ × ν)) (key : κ) : List ν := (l.filter fun p => p.1 = key).map (·.2)

/-- The last value of a key. -/
def get (l : List (κ × ν)) (key : κ) : Option ν := (getlist l key).getLast?

/-- Each key once, where it first stands, with its last value. -/
def items : List (κ × ν) → List (κ × ν)
  | [] => []
  | p :: l => (p.1, (get l p.1).getD p.2) :: (items l).filter fun q => q.1 ≠ p.1

/-- A key's values are among the pairs with such keys. -/
theorem getlist_filter {keep : κ → Bool} {key : κ} (h : keep key = true) (l : List (κ × ν)) :
    getlist (l.filter fun p => keep p.1) key = getlist l key := by
  unfold getlist
  rw [List.filter_filter]
  refine congrArg _ (List.filter_congr fun p _ => ?_)
  by_cases hp : p.1 = key
  · simp [hp, h]
  · simp [hp]

theorem get_filter {keep : κ → Bool} {key : κ} (h : keep key = true) (l : List (κ × ν)) :
    get (l.filter fun p => keep p.1) key = get l key := by
  rw [get, get, getlist_filter h]

/-- Where no key comes twice, each stands with its own value. -/
theorem items_eq {l : List (κ × ν)} (h : (l.map (·.1)).Nodup) : items l = l := by
  induction l with
  | nil => rfl
  | cons p l ih =>
    obtain ⟨hp, hl⟩ := List.nodup_cons.mp h
    have hfresh : ∀ q ∈ l, q.1 ≠ p.1 := fun q hq he => hp (List.mem_map.mpr ⟨q, hq, he⟩)
    have hget : get l p.1 = none := by
      rw [get, getlist, List.filter_eq_nil_iff.mpr fun q hq => by simpa using hfresh q hq]
      rfl
    rw [items, hget, ih hl, List.filter_eq_self.mpr fun q hq => by simpa using hfresh q hq]
    rfl

theorem items_filter (keep : κ → Bool) : ∀ l : List (κ × ν),
    (items l).filter (fun p => keep p.1) = items (l.filter fun p => keep p.1)
  | [] => rfl
  | p :: l => by
    have ih := items_filter keep l
    by_cases hp : keep p.1 = true
    · rw [items, List.filter_cons, if_pos hp, List.filter_cons, if_pos hp, items, get_filter hp, ← ih,
        List.filter_filter, List.filter_filter]
      simp only [Bool.and_comm]
    · rw [items, List.filter_cons, if_neg hp, List.filter_cons, if_neg hp, ← ih, List.filter_filter]
      refine List.filter_congr fun q _ => ?_
      by_cases hq : q.1 = p.1
      · simp [hq, hp]
      · simp [hq]

end MultiDict
