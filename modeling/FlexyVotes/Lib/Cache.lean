/-
# A cache whose entries expire

A shared cache: an entry is there until it expires, whatever its value. `add`
writes where nothing is there, `incr` counts up what is there and leaves its
expiry, `set` writes in any case. Each is one step of whoever calls it.

Key definitions: `Cache`, `get`, `add`, `incr`, `set`, `delete`.
Key theorems: `add_eq_none`, `incr_eq_some`.
-/
import Mathlib

namespace Caching

/-- A value, and when it is gone. -/
structure Entry where
  value : ℕ
  expires : ℕ

/-- What is stored under each key. -/
abbrev Cache (κ : Type*) := κ → Option Entry

variable {κ : Type*}

/-- What is there under the key. -/
def get (now : ℕ) (k : κ) (c : Cache κ) : Option Entry := (c k).filter fun e => now < e.expires

section
variable {now : ℕ} {k : κ} {c : Cache κ} {e : Entry}

theorem get_eq_some : get now k c = some e ↔ c k = some e ∧ now < e.expires := by
  unfold get
  rw [Option.filter_eq_some_iff]
  exact and_congr_right fun _ => decide_eq_true_iff

/-- What is there later was there before. -/
theorem get_earlier {before : ℕ} (h : before ≤ now) (hget : get now k c = some e) : get before k c = some e := by
  obtain ⟨hc, hexp⟩ := get_eq_some.mp hget
  exact get_eq_some.mpr ⟨hc, Nat.lt_of_le_of_lt h hexp⟩

end

variable [DecidableEq κ]

def set (now : ℕ) (k : κ) (v ttl : ℕ) (c : Cache κ) : Cache κ := Function.update c k (some ⟨v, now + ttl⟩)

def delete (k : κ) (c : Cache κ) : Cache κ := Function.update c k none

/-- Writes, unless something is there. -/
def add (now : ℕ) (k : κ) (v ttl : ℕ) (c : Cache κ) : Option (Cache κ) :=
  match get now k c with
  | none => some (set now k v ttl c)
  | some _ => none

/-- One more, and the cache that holds it; or nothing is there. -/
def incr (now : ℕ) (k : κ) (c : Cache κ) : Option (ℕ × Cache κ) :=
  (get now k c).map fun e => (e.value + 1, Function.update c k (some { e with value := e.value + 1 }))

variable {now ttl v n : ℕ} {k : κ} {c c' : Cache κ}

theorem add_eq_some : add now k v ttl c = some c' ↔ get now k c = none ∧ set now k v ttl c = c' := by
  unfold add
  split
  · rename_i hnone
    exact ⟨fun h => ⟨hnone, Option.some.inj h⟩, fun h => congrArg some h.2⟩
  · rename_i hsome
    rw [hsome]
    simp

theorem add_eq_none : add now k v ttl c = none ↔ ∃ e, get now k c = some e := by
  unfold add
  split
  · rename_i hnone
    rw [hnone]
    simp
  · rename_i e hsome
    exact ⟨fun _ => ⟨e, hsome⟩, fun _ => rfl⟩

theorem incr_eq_some : incr now k c = some (n, c') ↔
    ∃ e, get now k c = some e ∧ e.value + 1 = n ∧ Function.update c k (some { e with value := e.value + 1 }) = c' := by
  unfold incr
  rw [Option.map_eq_some_iff]
  exact exists_congr fun e => and_congr_right fun _ => Prod.mk.injEq _ _ _ _ ▸ Iff.rfl

theorem incr_eq_none : incr now k c = none ↔ get now k c = none := Option.map_eq_none_iff

end Caching
