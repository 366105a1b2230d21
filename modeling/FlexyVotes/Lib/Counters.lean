/-
# Counters that are read and saved

A counter that is counted up by a read, and later a save of one more than what
was read, loses counts: two that read before either saves count as one. After a
run in which everybody who read has saved, the counter has grown by the number of
saves just when nobody read while another was between read and save
(`value_eq_iff`).

That counts are lost for good is the invariant `Lost`: the counter is short and
all who are under way will leave it short, or one of them will make it so, or two
are under way.

Key definitions: `Counter`, `act`, `Alone`, `Serial`, `Lost`.
Key theorems: `Serial.kept`, `Lost.kept`, `value_eq_iff`.
-/
import Mathlib.Logic.Function.Basic
import Mathlib.Order.Basic
import FlexyVotes.Lib.Steps

namespace Counters

/-- A counter. -/
structure Counter where
  value : ℕ
  /-- What those under way have read. -/
  reads : ℕ → Option ℕ := fun _ => none
  /-- How often it was saved. -/
  saved : ℕ := 0

/-- What somebody does. -/
inductive Act
  | read (i : ℕ)
  | save (i : ℕ)

/-- What a read or a save does; a save of somebody who has not read does nothing. -/
def act : Act → Counter → Counter
  | .read i, c => { c with reads := Function.update c.reads i (some c.value) }
  | .save i, c =>
    match c.reads i with
    | none => c
    | some v => ⟨v + 1, Function.update c.reads i none, c.saved + 1⟩

/-- Nobody reads who is under way. -/
def New : Act → Counter → Prop
  | .read i, c => c.reads i = none
  | .save _, _ => True

/-- Nobody reads while another is under way. -/
def Alone : Act → Counter → Prop
  | .read _, c => ∀ j, c.reads j = none
  | .save _, _ => True

variable {b : ℕ} {c : Counter} {x : Act}

/-- Nobody is under way, or one who has read the counter as it is; and nothing is
lost. -/
structure Serial (b : ℕ) (c : Counter) : Prop where
  value : c.value = b + c.saved
  read : ∀ i v, c.reads i = some v → v = c.value
  one : ∀ i j, c.reads i ≠ none → c.reads j ≠ none → i = j

/-- Nobody counts more than there are saves. -/
structure Bounded (b : ℕ) (c : Counter) : Prop where
  value : c.value ≤ b + c.saved
  read : ∀ i v, c.reads i = some v → v ≤ b + c.saved

/-- How a count gets lost. -/
inductive Losing (b : ℕ) (c : Counter) : Prop
  | short (value : c.value < b + c.saved) (read : ∀ i v, c.reads i = some v → v < b + c.saved)
  | lagging (i v : ℕ) (read : c.reads i = some v) (lt : v < b + c.saved)
  | crowd (i j : ℕ) (ne : i ≠ j) (hi : c.reads i ≠ none) (hj : c.reads j ≠ none)

/-- A count is lost. -/
structure Lost (b : ℕ) (c : Counter) : Prop extends Bounded b c where
  losing : Losing b c

theorem reads_update {i j : ℕ} {o : Option ℕ} {f : ℕ → Option ℕ} :
    Function.update f i o j = if j = i then o else f j := Function.update_apply f i o j

/-- What somebody under way has read after a save of another. -/
theorem reads_saved {i j v : ℕ} (h : Function.update c.reads i none j = some v) : j ≠ i ∧ c.reads j = some v := by
  rw [reads_update] at h
  split at h
  · cases h
  · rename_i hne
    exact ⟨hne, h⟩

/-- What is under way after a read where nobody was. -/
theorem reads_alone {i j v w : ℕ} (h : ∀ k, c.reads k = none) (hj : Function.update c.reads i (some w) j = some v) :
    j = i ∧ some w = some v := by
  rw [reads_update] at hj
  split at hj
  · rename_i hji
    exact ⟨hji, hj⟩
  · rw [h j] at hj
    cases hj

theorem Serial.kept (h : Serial b c) (hx : Alone x c) : Serial b (act x c) := by
  cases x with
  | read i =>
    have hnone : ∀ j, c.reads j = none := hx
    refine ⟨h.value, fun j v hj => ?_, fun j k hj hk => ?_⟩
    · exact Option.some.inj ((reads_alone hnone hj).2.symm)
    · obtain ⟨v, hv⟩ := Option.ne_none_iff_exists'.1 hj
      obtain ⟨w, hw⟩ := Option.ne_none_iff_exists'.1 hk
      exact (reads_alone hnone hv).1.trans (reads_alone hnone hw).1.symm
  | save i =>
    unfold act
    dsimp only
    split
    · exact h
    · rename_i v hv
      have hvalue : v = c.value := h.read i v hv
      have hgone : ∀ j, Function.update c.reads i none j = none := by
        intro j
        rw [reads_update]
        split
        · rfl
        · rename_i hne
          by_contra hj
          exact hne (h.one j i hj (by simp [hv]))
      refine ⟨?_, fun j w hj => ?_, fun j k hj => absurd (hgone j) hj⟩
      · dsimp only
        rw [hvalue, h.value]
        omega
      · dsimp only at hj
        rw [hgone j] at hj
        cases hj

theorem Bounded.kept (h : Bounded b c) : Bounded b (act x c) := by
  cases x with
  | read i =>
    refine ⟨h.value, fun j v hj => ?_⟩
    dsimp only [act] at hj ⊢
    rw [reads_update] at hj
    split at hj
    · cases hj
      exact h.value
    · exact h.read j v hj
  | save i =>
    unfold act
    dsimp only
    split
    · exact h
    · rename_i v hv
      have hle := h.read i v hv
      refine ⟨by dsimp only; omega, fun j w hj => ?_⟩
      have hle := h.read j w (reads_saved hj).2
      dsimp only
      omega

/-- **What is lost stays lost.** -/
theorem Lost.kept (h : Lost b c) (hx : New x c) : Lost b (act x c) := by
  refine ⟨h.toBounded.kept, ?_⟩
  cases x with
  | read i =>
    have hi : c.reads i = none := hx
    have hkept : ∀ {j}, c.reads j ≠ none → Function.update c.reads i (some c.value) j = c.reads j := by
      intro j hj
      rw [reads_update, if_neg]
      rintro rfl
      exact hj hi
    cases h.losing with
    | short hvalue hread =>
      refine .short hvalue fun j v hj => ?_
      dsimp only [act] at hj ⊢
      rw [reads_update] at hj
      split at hj
      · cases hj
        exact hvalue
      · exact hread j v hj
    | lagging j v hj hlt => exact .lagging j v ((hkept (by simp [hj])).trans hj) hlt
    | crowd j k hne hj hk =>
      refine .crowd j k hne ?_ ?_ <;> dsimp only [act]
      · rwa [hkept hj]
      · rwa [hkept hk]
  | save i =>
    unfold act
    dsimp only
    split
    · exact h.losing
    · rename_i v hv
      -- who is still under way has read what is too little by now
      have hlagging : ∀ j w, j ≠ i → c.reads j = some w →
          Losing b ⟨v + 1, Function.update c.reads i none, c.saved + 1⟩ := by
        intro j w hne hj
        refine .lagging j w ?_ (Nat.lt_succ_of_le (h.read j w hj))
        dsimp only
        rw [reads_update, if_neg hne, hj]
      have hshort : v < b + c.saved → Losing b ⟨v + 1, Function.update c.reads i none, c.saved + 1⟩ := by
        intro hlt
        refine .short (by dsimp only; omega) fun j w hj => ?_
        exact Nat.lt_succ_of_le (h.read j w (reads_saved hj).2)
      cases h.losing with
      | short hvalue hread => exact hshort (hread i v hv)
      | lagging j w hj hlt =>
        by_cases hne : j = i
        · subst hne
          rw [hj] at hv
          cases hv
          exact hshort hlt
        · exact hlagging j w hne hj
      | crowd j k hne hj hk =>
        obtain ⟨w, hw⟩ := Option.ne_none_iff_exists'.1 hj
        obtain ⟨w', hw'⟩ := Option.ne_none_iff_exists'.1 hk
        by_cases hji : j = i
        · exact hlagging k w' (fun he => hne (hji.trans he.symm)) hw'
        · exact hlagging j w hji hw

/-- Who reads while another is under way loses a count. -/
theorem Bounded.lost (h : Bounded b c) (hnew : New x c) (hx : ¬ Alone x c) : Lost b (act x c) := by
  cases x with
  | save i => exact absurd trivial hx
  | read i =>
    have hi : c.reads i = none := hnew
    obtain ⟨j, hj⟩ := not_forall.1 hx
    have hne : j ≠ i := by
      rintro rfl
      exact hj hi
    refine ⟨h.kept, .crowd j i hne ?_ ?_⟩
    · dsimp only [act]
      rwa [reads_update, if_neg hne]
    · dsimp only [act]
      rw [reads_update, if_pos rfl]
      simp

theorem Bounded.lost_run : ∀ {xs : List Act} {c : Counter}, Bounded b c → Steps.Always act New xs c →
    ¬ Steps.Always act Alone xs c → Lost b (Steps.run act xs c)
  | [], _, _, _, hx => absurd trivial hx
  | x :: xs, c, h, ⟨hnew, hrest⟩, hx => by
    by_cases halone : Alone x c
    · have hx : ¬ Steps.Always act Alone xs (act x c) := fun hxs => hx ⟨halone, hxs⟩
      have hlost : Lost b (Steps.run act xs (act x c)) := Bounded.lost_run h.kept hrest hx
      exact hlost
    · have hlost : Lost b (Steps.run act xs (act x c)) :=
        Steps.Always.run (fun _ _ h hx => h.kept hx) (h.lost hnew halone) hrest
      exact hlost

/-- **Counts are lost** just when somebody reads while another is under way. -/
theorem value_eq_iff {xs : List Act} (hc : ∀ i, c.reads i = none) (hsaved : c.saved = 0)
    (hnew : Steps.Always act New xs c) (hend : ∀ i, (Steps.run act xs c).reads i = none) :
    (Steps.run act xs c).value = c.value + (Steps.run act xs c).saved ↔ Steps.Always act Alone xs c := by
  constructor
  · intro hvalue
    by_contra hx
    have hbound : Bounded c.value c := ⟨by omega, fun i v hi => absurd (hi.symm.trans (hc i)) (by simp)⟩
    have hlost := hbound.lost_run hnew hx
    cases hlost.losing with
    | short hlt _ => omega
    | lagging i v hi _ =>
      rw [hend i] at hi
      cases hi
    | crowd i j _ hi _ => exact hi (hend i)
  · intro hx
    have hserial : Serial c.value c :=
      ⟨by omega, fun i v hi => absurd (hi.symm.trans (hc i)) (by simp), fun i _ hi => absurd (hc i) hi⟩
    exact (Steps.Always.run (I := Serial c.value) (fun _ _ h hx => h.kept hx) hserial hx).value

end Counters
