/-
# Materialized paths

A forest by a parent of each node that has one, and for each node the chain of
the nodes from its root down to it. A chain written down, each node's text
followed by a separator that no text contains, is the node's path; and a path
is a prefix of another exactly where the chain is (`render_isPrefix`), which is
where its node is the other one or above it (`Chain.prefix_iff`).

Key definitions: `Alphabet`, `Alphabet.render`, `Above`, `Chain`.
Key theorems: `Alphabet.render_isPrefix`, `Chain.prefix_iff`.
-/
import Mathlib.Data.List.Infix
import Mathlib.Data.List.Nodup
import Mathlib.Logic.Relation
import Mathlib.Tactic.Common

namespace Paths

variable {ι σ : Type}

/-! ### Chains as text -/

/-- A text for each name, and a separator that is in none. -/
structure Alphabet (ι σ : Type) where
  text : ι → List σ
  separator : σ
  clean : ∀ i, separator ∉ text i
  distinct : Function.Injective text

namespace Alphabet

variable (A : Alphabet ι σ)

/-- The names one after the other, each with the separator behind it. -/
def render (l : List ι) : List σ := l.flatMap fun i => A.text i ++ [A.separator]

theorem render_cons (i : ι) (l : List ι) : A.render (i :: l) = A.text i ++ A.separator :: A.render l := by
  unfold render
  rw [List.flatMap_cons, List.append_assoc]
  rfl

theorem render_append (l l' : List ι) : A.render (l ++ l') = A.render l ++ A.render l' := List.flatMap_append

theorem render_singleton (i : ι) : A.render [i] = A.text i ++ [A.separator] := by
  rw [render_cons]
  rfl

theorem append_separator_inj {s : σ} : ∀ {l l' t t' : List σ}, s ∉ l → s ∉ l' → l ++ s :: t = l' ++ s :: t' →
    l = l' ∧ t = t'
  | [], [], _, _, _, _, h => ⟨rfl, List.tail_eq_of_cons_eq h⟩
  | [], x :: l', _, _, _, hl', h => absurd (List.head_eq_of_cons_eq h ▸ List.mem_cons_self) hl'
  | x :: l, [], _, _, hl, _, h => absurd (List.head_eq_of_cons_eq h ▸ List.mem_cons_self) hl
  | x :: l, y :: l', t, t', hl, hl', h => by
    rw [List.cons_append, List.cons_append, List.cons.injEq] at h
    obtain ⟨rfl, h⟩ := h
    obtain ⟨rfl, ht⟩ := append_separator_inj (fun hmem => hl (List.mem_cons_of_mem _ hmem))
      (fun hmem => hl' (List.mem_cons_of_mem _ hmem)) h
    exact ⟨rfl, ht⟩

/-- **A path is a prefix of another where the chain is.** -/
theorem render_isPrefix : ∀ {l l' : List ι}, A.render l <+: A.render l' ↔ l <+: l'
  | [], l' => iff_of_true (List.nil_prefix) List.nil_prefix
  | i :: l, [] => by
    refine iff_of_false (fun h => ?_) fun h => ?_
    · have hlength := h.length_le
      rw [render_cons, List.length_append, List.length_cons] at hlength
      exact absurd hlength (by simp [render])
    · simp at h
  | i :: l, j :: l' => by
    rw [List.cons_prefix_cons, ← render_isPrefix (l := l), render_cons, render_cons]
    constructor
    · rintro ⟨rest, hrest⟩
      rw [List.append_assoc, List.cons_append] at hrest
      obtain ⟨hij, hrest⟩ := append_separator_inj (A.clean i) (A.clean j) hrest
      exact ⟨A.distinct hij, rest, hrest⟩
    · rintro ⟨rfl, rest, hrest⟩
      exact ⟨rest, by rw [List.append_assoc, List.cons_append, hrest]⟩

end Alphabet

/-! ### Chains -/

variable {parent : ι → Option ι}

/-- The node is `c`, or above it. -/
def Above (parent : ι → Option ι) (a c : ι) : Prop := Relation.ReflTransGen (fun x y => parent x = some y) c a

/-- The nodes from the root down to `c`. -/
inductive Chain (parent : ι → Option ι) : ι → List ι → Prop
  | root {c : ι} : parent c = none → Chain parent c [c]
  | step {c p : ι} {l : List ι} : parent c = some p → Chain parent p l → Chain parent c (l ++ [c])

theorem above_iff {a c : ι} : Above parent a c ↔ a = c ∨ ∃ p, parent c = some p ∧ Above parent a p := by
  constructor
  · intro h
    rcases h.cases_head with rfl | ⟨p, hp, h⟩
    · exact .inl rfl
    · exact .inr ⟨p, hp, h⟩
  · rintro (rfl | ⟨p, hp, h⟩)
    · exact .refl
    · exact .head hp h

namespace Chain

variable {c a : ι} {l l' : List ι}

theorem unique (h : Chain parent c l) : ∀ {l'}, Chain parent c l' → l = l' := by
  induction h with
  | root hroot =>
    intro l' h'
    cases h' with
    | root => rfl
    | step hp => rw [hroot] at hp; cases hp
  | step hp _ ih =>
    intro l' h'
    cases h' with
    | root hroot => rw [hroot] at hp; cases hp
    | step hp' h' =>
      rw [hp] at hp'
      cases hp'
      rw [ih h']

theorem last (h : Chain parent c l) : ∃ init, l = init ++ [c] := by
  cases h with
  | root => exact ⟨[], rfl⟩
  | step _ _ => exact ⟨_, rfl⟩

/-- A node of the chain has the chain down to it. -/
theorem of_mem (h : Chain parent c l) (ha : a ∈ l) : ∃ l', Chain parent a l' ∧ l' <+: l := by
  induction h with
  | root hroot =>
    rw [List.mem_singleton] at ha
    subst ha
    exact ⟨_, .root hroot, List.prefix_refl _⟩
  | step hp h ih =>
    rcases List.mem_append.mp ha with ha | ha
    · obtain ⟨l', hl', hbegins⟩ := ih ha
      exact ⟨l', hl', hbegins.trans (List.prefix_append _ _)⟩
    · rw [List.mem_singleton] at ha
      subst ha
      exact ⟨_, .step hp h, List.prefix_refl _⟩

theorem mem_iff (h : Chain parent c l) : a ∈ l ↔ Above parent a c := by
  induction h with
  | root hroot =>
    rw [List.mem_singleton, above_iff, hroot]
    simp
  | @step c p l hp _ ih =>
    have hup : Above parent a c ↔ a = c ∨ ∃ p, parent c = some p ∧ Above parent a p := above_iff
    rw [List.mem_append, List.mem_singleton, ih, hup, hp, or_comm]
    simp

/-- **A chain is a prefix of another where its node is the other one or above.** -/
theorem prefix_iff (h : Chain parent c l) (h' : Chain parent a l') : l' <+: l ↔ Above parent a c := by
  rw [← h.mem_iff]
  constructor
  · intro hbegins
    obtain ⟨init, rfl⟩ := h'.last
    exact hbegins.subset (by simp)
  · intro ha
    obtain ⟨l₀, hl₀, hbegins⟩ := h.of_mem ha
    rwa [h'.unique hl₀]

/-- Nobody is above itself. -/
theorem notMem (hp : parent c = some a) (h : Chain parent a l) : c ∉ l := fun hc => by
  obtain ⟨l', hl', hbegins⟩ := h.of_mem hc
  have hlength := hbegins.length_le
  rw [hl'.unique (.step hp h), List.length_append, List.length_singleton] at hlength
  omega

/-- Where a chain begins with names that end in `a`, those are the chain of `a`. -/
theorem of_begins (h : Chain parent c l) {init : List ι} (hbegins : init ++ [a] <+: l) : Chain parent a (init ++ [a]) := by
  induction h with
  | @root c hroot =>
    have hlength := hbegins.length_le
    rw [List.length_append, List.length_singleton, List.length_singleton] at hlength
    obtain rfl : init = [] := List.length_eq_zero_iff.mp (by omega)
    obtain rfl : a = c := by simpa using hbegins
    exact .root hroot
  | @step c p l hp h ih =>
    rcases List.prefix_concat_iff.mp hbegins with heq | hbegins
    · obtain ⟨rfl, hca⟩ := List.append_inj' heq rfl
      cases hca
      exact .step hp h
    · exact ih hbegins

end Chain

end Paths
