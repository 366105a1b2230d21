/-
# Steps whose order and number do not matter

From the states `I`, the steps of `P` are `Steady` if they stay in `I`,
commute and are idempotent. Then a run of them comes to a state that is told
by which steps were taken, whatever their order and however often each
(`Steady.foldl_eq`).

Key definitions: `Steady`.
Key theorems: `Steady.foldl_keeps`, `Steady.foldl_eq`.
-/
import Mathlib.Data.List.Basic

namespace Confluence

variable {σ α : Type*} {f : σ → α → σ} {I : σ → Prop} {P : α → Prop}

/-- From the states `I`, the steps of `P` commute and are idempotent. -/
structure Steady (f : σ → α → σ) (I : σ → Prop) (P : α → Prop) : Prop where
  keeps : ∀ s a, I s → P a → I (f s a)
  comm : ∀ s a b, I s → P a → P b → f (f s a) b = f (f s b) a
  idem : ∀ s a, I s → P a → f (f s a) a = f s a

namespace Steady

theorem foldl_keeps (h : Steady f I P) : ∀ (l : List α) {s : σ}, (∀ a ∈ l, P a) → I s → I (l.foldl f s)
  | [], _, _, hs => hs
  | a :: l, s, hl, hs =>
    h.foldl_keeps l (fun b hb => hl b (List.mem_cons_of_mem _ hb)) (h.keeps s a hs (hl a List.mem_cons_self))

/-- A step may be taken first. -/
theorem foldl_step (h : Steady f I P) : ∀ (l : List α) {s : σ} {a : α}, (∀ b ∈ l, P b) → P a → I s →
    f (l.foldl f s) a = l.foldl f (f s a)
  | [], _, _, _, _, _ => rfl
  | b :: l, s, a, hl, ha, hs => by
    have hb : P b := hl b List.mem_cons_self
    have hrest : ∀ c ∈ l, P c := fun c hc => hl c (List.mem_cons_of_mem _ hc)
    rw [List.foldl_cons, List.foldl_cons, h.foldl_step l hrest ha (h.keeps s b hs hb), h.comm s b a hs hb ha]

/-- A step that was taken changes nothing more. -/
theorem foldl_absorb (h : Steady f I P) : ∀ (l : List α) {s : σ} {a : α}, (∀ b ∈ l, P b) → I s → a ∈ l →
    f (l.foldl f s) a = l.foldl f s
  | b :: l, s, a, hl, hs, ha => by
    have hb : P b := hl b List.mem_cons_self
    have hrest : ∀ c ∈ l, P c := fun c hc => hl c (List.mem_cons_of_mem _ hc)
    have hI : I (f s b) := h.keeps s b hs hb
    rw [List.foldl_cons]
    rcases List.mem_cons.mp ha with rfl | ha
    · rw [h.foldl_step l hrest hb hI, h.idem s a hs hb]
    · exact h.foldl_absorb l hrest hI ha

theorem foldl_absorb_all (h : Steady f I P) {l : List α} {s : σ} (hl : ∀ a ∈ l, P a) (hs : I s) :
    ∀ l' : List α, (∀ a ∈ l', a ∈ l) → l'.foldl f (l.foldl f s) = l.foldl f s
  | [], _ => rfl
  | a :: l', hl' => by
    rw [List.foldl_cons, h.foldl_absorb l hl hs (hl' a List.mem_cons_self)]
    exact h.foldl_absorb_all hl hs l' fun b hb => hl' b (List.mem_cons_of_mem _ hb)

theorem foldl_comm (h : Steady f I P) : ∀ (l l' : List α) {s : σ}, (∀ a ∈ l, P a) → (∀ a ∈ l', P a) → I s →
    l'.foldl f (l.foldl f s) = l.foldl f (l'.foldl f s)
  | _, [], _, _, _, _ => rfl
  | l, a :: l', s, hl, hl', hs => by
    have ha : P a := hl' a List.mem_cons_self
    have hrest : ∀ b ∈ l', P b := fun b hb => hl' b (List.mem_cons_of_mem _ hb)
    rw [List.foldl_cons, List.foldl_cons, h.foldl_step l hl ha hs,
      h.foldl_comm l l' hl hrest (h.keeps s a hs ha)]

/-- **The same steps, in any order and any number, come to the same state.** -/
theorem foldl_eq (h : Steady f I P) {l l' : List α} {s : σ} (hl : ∀ a ∈ l, P a) (hs : I s)
    (hmem : ∀ a, a ∈ l ↔ a ∈ l') : l.foldl f s = l'.foldl f s := by
  have hl' : ∀ a ∈ l', P a := fun a ha => hl a ((hmem a).mpr ha)
  calc l.foldl f s = l'.foldl f (l.foldl f s) := (h.foldl_absorb_all hl hs l' fun a ha => (hmem a).mpr ha).symm
    _ = l.foldl f (l'.foldl f s) := h.foldl_comm l l' hl hl' hs
    _ = l'.foldl f s := h.foldl_absorb_all hl' hs l fun a ha => (hmem a).mp ha

end Steady

end Confluence
