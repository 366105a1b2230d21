/-
# Transferable votes

Ballots are lists of preferences with a weight. A candidate's tally is the
weight of the ballots whose first continuing preference it is. A count by
quota elects a candidate that has the quota, whose ballots go on with what is
left of their weight above it, and eliminates one only while none has it; a
runoff elects a majority of the ballots that are not exhausted.

Which candidate is elected first and which one is eliminated is left open:
however a count settles its ties, a coalition that puts its candidates first
gets its share of the seats (`Held.proportional`), and a majority the seat
(`Majority.elects`).
-/
import Mathlib.Algebra.BigOperators.Group.Finset.Piecewise
import Mathlib.Algebra.Order.BigOperators.Group.Finset
import Mathlib.Algebra.Order.Field.Basic
import Mathlib.Data.Finset.Card
import Mathlib.Data.List.TakeWhile
import Mathlib.Logic.Relation
import Mathlib.Tactic.FieldSimp
import Mathlib.Tactic.Linarith
import Mathlib.Tactic.Ring

namespace Transfer

variable {κ F : Type} [DecidableEq κ]

/-- The first preference of a ballot among the continuing candidates. -/
def top (C : List κ) (prefs : List κ) : Option κ := prefs.find? fun c => c ∈ C

section Weight

variable [Field F]

/-- The weight of the ballots of a kind. -/
def weightOf (P : List κ → Prop) [DecidablePred P] (bs : List (List κ × F)) : F :=
  ((bs.filter fun b => P b.1).map Prod.snd).sum

def tally (C : List κ) (bs : List (List κ × F)) (c : κ) : F :=
  weightOf (fun prefs => top C prefs = some c) bs

/-- The ballots that stand for `w` keep the share `r` of their weight. -/
def transfer (C : List κ) (w : κ) (r : F) (bs : List (List κ × F)) : List (List κ × F) :=
  bs.map fun b => if top C b.1 = some w then (b.1, b.2 * r) else b

variable {P Q : List κ → Prop} [DecidablePred P] [DecidablePred Q] {C : List κ} {c w : κ} {r : F}
  {bs : List (List κ × F)}

omit [DecidableEq κ] in
@[simp] theorem weightOf_nil : weightOf P ([] : List (List κ × F)) = 0 := rfl

omit [DecidableEq κ] in
@[simp] theorem weightOf_cons (b : List κ × F) :
    weightOf P (b :: bs) = (if P b.1 then b.2 else 0) + weightOf P bs := by
  by_cases h : P b.1 <;> simp [weightOf, h]

theorem top_mem {prefs : List κ} (h : top C prefs = some c) : c ∈ C := by
  have := List.find?_some h
  simpa using this

omit [DecidableEq κ] in
theorem weightOf_congr (h : ∀ b ∈ bs, P b.1 ↔ Q b.1) : weightOf P bs = weightOf Q bs := by
  induction bs with
  | nil => rfl
  | cons b bs ih =>
    have hb : P b.1 ↔ Q b.1 := h b (by simp)
    rw [weightOf_cons, weightOf_cons, ih fun b' hb' => h b' (by simp [hb'])]
    simp [hb]

/-- The tallies of several candidates make up the weight of the ballots that
stand for one of them. -/
theorem sum_tally (T : Finset κ) :
    ∑ c ∈ T, tally C bs c = weightOf (fun prefs => ∃ c ∈ T, top C prefs = some c) bs := by
  induction bs with
  | nil => simp [tally]
  | cons b bs ih =>
    have hone : ∑ c ∈ T, (if top C b.1 = some c then b.2 else 0) =
        if ∃ c ∈ T, top C b.1 = some c then b.2 else 0 := by
      rcases htop : top C b.1 with _ | d
      · simp
      · by_cases hd : d ∈ T <;> simp [hd]
    simp only [tally, weightOf_cons] at ih ⊢
    rw [Finset.sum_add_distrib, ih, hone]

section Rearranged

variable {C' : List κ} {bs' : List (List κ × F)}

/-! Neither the order of the ballots nor that of the candidates matters. -/

omit [DecidableEq κ] in
theorem weightOf_perm (h : bs.Perm bs') : weightOf P bs = weightOf P bs' :=
  ((h.filter _).map _).sum_eq

theorem top_perm (h : C.Perm C') (prefs : List κ) : top C prefs = top C' prefs := by
  unfold top
  congr 1
  funext x
  rw [decide_eq_decide]
  exact h.mem_iff

theorem tally_perm (hC : C.Perm C') (hbs : bs.Perm bs') : tally C bs c = tally C' bs' c := by
  unfold tally
  simp only [top_perm hC]
  exact weightOf_perm hbs

theorem transfer_perm (hC : C.Perm C') (hbs : bs.Perm bs') : (transfer C w r bs).Perm (transfer C' w r bs') := by
  unfold transfer
  simp only [top_perm hC]
  exact hbs.map _

end Rearranged

/-- What a transfer takes from the ballots of a kind. -/
theorem weightOf_transfer :
    weightOf P (transfer C w r bs) =
      weightOf P bs - (1 - r) * weightOf (fun prefs => P prefs ∧ top C prefs = some w) bs := by
  induction bs with
  | nil => simp [transfer]
  | cons b bs ih =>
    have hcons : transfer C w r (b :: bs) =
        (if top C b.1 = some w then (b.1, b.2 * r) else b) :: transfer C w r bs := rfl
    rw [hcons, weightOf_cons, weightOf_cons, weightOf_cons, ih]
    by_cases ht : top C b.1 = some w
    · by_cases hP : P b.1
      · simp only [ht, hP, if_true, and_self]
        ring
      · simp only [ht, hP, if_true, if_false, false_and]
        ring
    · simp only [ht, if_false, and_false]
      ring

omit [DecidableEq κ] in
theorem weightOf_add_not :
    weightOf P bs + weightOf (fun prefs => ¬ P prefs) bs = weightOf (fun _ => True) bs := by
  induction bs with
  | nil => simp
  | cons b bs ih =>
    rw [weightOf_cons, weightOf_cons, weightOf_cons, ← ih]
    by_cases h : P b.1
    · simp only [h, if_true, not_true_eq_false, if_false]
      ring
    · simp only [h, if_true, not_false_eq_true, if_false]
      ring

/-- A ballot stands for a continuing candidate, or is exhausted. -/
theorem sum_tally_add_exhausted :
    ∑ c ∈ C.toFinset, tally C bs c + weightOf (fun prefs => top C prefs = none) bs =
      weightOf (fun _ => True) bs := by
  have hstands : ∀ b ∈ bs, (∃ c ∈ C.toFinset, top C b.1 = some c) ↔ ¬ top C b.1 = none := fun b _ => by
    constructor
    · rintro ⟨c, -, hc⟩ hnone
      rw [hnone] at hc
      cases hc
    · intro h
      obtain ⟨c, hc⟩ := Option.ne_none_iff_exists'.mp h
      exact ⟨c, List.mem_toFinset.mpr (top_mem hc), hc⟩
  rw [sum_tally, weightOf_congr (Q := fun prefs => ¬ top C prefs = none) hstands, add_comm,
    weightOf_add_not]

end Weight

/-- No ballot has a negative weight. -/
def Nonneg [Zero F] [LE F] (bs : List (List κ × F)) : Prop := ∀ b ∈ bs, 0 ≤ b.2

/-- No ballot weighs less than nothing, or more than one. -/
def Fractions [Zero F] [One F] [LE F] (bs : List (List κ × F)) : Prop := ∀ b ∈ bs, 0 ≤ b.2 ∧ b.2 ≤ 1

section Order

variable [Field F] [LinearOrder F] [IsStrictOrderedRing F]

variable {P Q : List κ → Prop} [DecidablePred P] [DecidablePred Q] {C : List κ} {c w : κ} {r q : F}
  {bs : List (List κ × F)}

omit [DecidableEq κ] in
theorem weightOf_le (h0 : Nonneg bs) (h : ∀ b ∈ bs, P b.1 → Q b.1) : weightOf P bs ≤ weightOf Q bs := by
  induction bs with
  | nil => simp
  | cons b bs ih =>
    have hrest := ih (fun b' hb' => h0 b' (by simp [hb'])) fun b' hb' => h b' (by simp [hb'])
    have hb : (0 : F) ≤ b.2 := h0 b (by simp)
    have hfirst : (if P b.1 then b.2 else 0) ≤ if Q b.1 then b.2 else 0 := by
      by_cases hP : P b.1
      · have hQ : Q b.1 := h b (by simp) hP
        simp [hP, hQ]
      · by_cases hQ : Q b.1 <;> simp [hP, hQ, hb]
    rw [weightOf_cons, weightOf_cons]
    exact add_le_add hfirst hrest

omit [DecidableEq κ] in
theorem weightOf_nonneg (h0 : Nonneg bs) : 0 ≤ weightOf P bs := by
  induction bs with
  | nil => simp
  | cons b bs ih =>
    have hb : (0 : F) ≤ b.2 := h0 b (by simp)
    have := ih fun b' hb' => h0 b' (by simp [hb'])
    rw [weightOf_cons]
    split <;> linarith

theorem Nonneg.transfer (h0 : Nonneg bs) (hr : 0 ≤ r) : Nonneg (transfer C w r bs) := by
  intro b hb
  obtain ⟨b', hb', rfl⟩ := List.mem_map.mp hb
  have := h0 b' hb'
  split
  · exact mul_nonneg this hr
  · exact this

theorem Fractions.transfer (h : Fractions bs) (hr : 0 ≤ r) (hr' : r ≤ 1) : Fractions (transfer C w r bs) := by
  intro b hb
  obtain ⟨b', hb', rfl⟩ := List.mem_map.mp hb
  obtain ⟨h0, h1⟩ := h b' hb'
  split
  · exact ⟨mul_nonneg h0 hr, mul_le_one₀ h1 hr hr'⟩
  · exact ⟨h0, h1⟩

/-- The share of a tally above the quota. -/
def surplus (q t : F) : F := (t - q) / t

omit [IsStrictOrderedRing F] in
/-- A transfer with the surplus takes the quota from the ballots for `w`. -/
theorem surplus_takes {t : F} (hq : 0 ≤ q) (ht : q ≤ t) : (1 - surplus q t) * t = q := by
  unfold surplus
  rcases (hq.trans ht).eq_or_lt with h0 | h0
  · rw [← h0, mul_zero]
    exact le_antisymm hq (by rw [h0]; exact ht)
  · field_simp
    ring

theorem surplus_nonneg {t : F} (hq : 0 ≤ q) (ht : q ≤ t) : 0 ≤ surplus q t :=
  div_nonneg (sub_nonneg.mpr ht) (hq.trans ht)

theorem one_sub_surplus_nonneg {t : F} (hq : 0 ≤ q) (ht : q ≤ t) : 0 ≤ 1 - surplus q t := by
  unfold surplus
  rcases (hq.trans ht).eq_or_lt with h0 | h0
  · rw [← h0, div_zero, sub_zero]
    exact zero_le_one
  · rw [sub_nonneg, div_le_one h0]
    linarith

/-- A ballot stands for the same candidate when another one leaves. -/
theorem top_erase {y : κ} {prefs : List κ} (h : top C prefs = some y) (hy : y ≠ w) :
    top (C.erase w) prefs = some y := by
  obtain ⟨hmem, before, after, hsplit, hbefore⟩ := List.find?_eq_some_iff_append.mp h
  refine List.find?_eq_some_iff_append.mpr ⟨?_, before, after, hsplit, fun a ha => ?_⟩
  · rw [decide_eq_true_eq] at hmem ⊢
    exact (List.mem_erase_of_ne hy).mpr hmem
  · have hout := hbefore a ha
    rw [Bool.not_eq_true', decide_eq_false_iff_not] at hout ⊢
    exact fun hin => hout (List.mem_of_mem_erase hin)

/-- Nobody else loses votes by an election. -/
theorem tally_transfer {y : κ} (h0 : Nonneg bs) (hr : 0 ≤ r) (hy : y ≠ w) :
    tally C bs y ≤ tally (C.erase w) (transfer C w r bs) y := by
  have hnone : weightOf (fun prefs => top C prefs = some y ∧ top C prefs = some w) bs =
      weightOf (fun _ => False) bs := by
    refine weightOf_congr fun b _ => ⟨fun hb => ?_, False.elim⟩
    have hsame := hb.1.symm.trans hb.2
    exact hy (Option.some_inj.mp hsame)
  have hzero : weightOf (fun _ : List κ => False) bs = 0 := by simp [weightOf]
  have hkept : tally C bs y = weightOf (fun prefs => top C prefs = some y) (transfer C w r bs) := by
    rw [weightOf_transfer, hnone, hzero, tally]
    ring
  rw [hkept]
  exact weightOf_le (h0.transfer hr) fun _ _ hb => top_erase hb hy

end Order

/-! ### A solid coalition -/

/-- The ballot lists all of `S` before any other candidate. -/
def Solid (S : Finset κ) (prefs : List κ) : Prop := ∀ c ∈ S, c ∈ prefs.takeWhile fun c => c ∈ S

instance (S : Finset κ) : DecidablePred (Solid S) := fun prefs => by unfold Solid; infer_instance

/-- While one of `S` continues, a ballot of the coalition stands for one of `S`. -/
theorem Solid.top {S : Finset κ} {C prefs : List κ} (h : Solid S prefs) (hS : ∃ c ∈ S, c ∈ C) :
    ∃ c ∈ S, top C prefs = some c := by
  obtain ⟨c, hc, hC⟩ := hS
  have hsplit := List.takeWhile_append_dropWhile (p := fun c => decide (c ∈ S)) (l := prefs)
  rcases hfind : (prefs.takeWhile fun c => decide (c ∈ S)).find? (fun c => decide (c ∈ C)) with _ | d
  · have := List.find?_eq_none.mp hfind c (h c hc)
    simp [hC] at this
  · have hd : d ∈ S := by
      have := List.mem_takeWhile_imp (List.mem_of_find?_eq_some hfind)
      simpa using this
    refine ⟨d, hd, ?_⟩
    unfold Transfer.top
    rw [← hsplit, List.find?_append, hfind]
    rfl

/-! ### A count by quota -/

/-- A count under way. -/
structure State (κ F : Type) where
  ballots : List (List κ × F)
  continuing : List κ
  elected : List κ

/-- The members of `S` that are elected, and those that continue. -/
def seated (S : Finset κ) (s : State κ F) : Finset κ := S.filter (· ∈ s.elected)

def standing (S : Finset κ) (s : State κ F) : Finset κ := S.filter (· ∈ s.continuing)

section Members

variable {S : Finset κ} {s : State κ F}

theorem exists_of_standing (h : (standing S s).Nonempty) : ∃ c ∈ S, c ∈ s.continuing := by
  obtain ⟨c, hc⟩ := h
  exact ⟨c, (Finset.mem_filter.mp hc).1, (Finset.mem_filter.mp hc).2⟩

/-- A member that leaves the continuing candidates. -/
theorem standing_erase (hnd : s.continuing.Nodup) {x : κ} (bs : List (List κ × F)) (es : List κ) :
    standing S ⟨bs, s.continuing.erase x, es⟩ = (standing S s).erase x := by
  ext c
  simp only [standing, Finset.mem_filter, Finset.mem_erase, hnd.mem_erase_iff]
  tauto

theorem seated_append {w : κ} (bs : List (List κ × F)) (C : List κ) :
    seated S ⟨bs, C, s.elected ++ [w]⟩ = if w ∈ S then insert w (seated S s) else seated S s := by
  ext c
  split <;> simp only [seated, Finset.mem_filter, Finset.mem_insert, List.mem_append, List.mem_singleton]
  · constructor
    · rintro ⟨hc, he | rfl⟩
      · exact Or.inr ⟨hc, he⟩
      · exact Or.inl rfl
    · rintro (rfl | ⟨hc, he⟩)
      · exact ⟨by assumption, Or.inr rfl⟩
      · exact ⟨hc, Or.inl he⟩
  · constructor
    · rintro ⟨hc, he | rfl⟩
      · exact ⟨hc, he⟩
      · contradiction
    · rintro ⟨hc, he⟩
      exact ⟨hc, Or.inl he⟩

end Members

variable [Field F] [LinearOrder F] [IsStrictOrderedRing F]

/-- A round of the count with quota `q`. -/
inductive Step (q : F) : State κ F → State κ F → Prop
  | elect {s : State κ F} {w : κ} (hw : w ∈ s.continuing) (hq : q ≤ tally s.continuing s.ballots w) :
    Step q s ⟨transfer s.continuing w (surplus q (tally s.continuing s.ballots w)) s.ballots,
      s.continuing.erase w, s.elected ++ [w]⟩
  | eliminate {s : State κ F} {x : κ} (hx : x ∈ s.continuing)
    (hq : ∀ c ∈ s.continuing, tally s.continuing s.ballots c < q) :
    Step q s ⟨s.ballots, s.continuing.erase x, s.elected⟩

theorem Step.fractions {q : F} {s s' : State κ F} (hs : Step q s s') (hq0 : 0 ≤ q) (h : Fractions s.ballots) :
    Fractions s'.ballots := by
  cases hs with
  | elect _ hq => exact h.transfer (surplus_nonneg hq0 hq) (sub_nonneg.mp (one_sub_surplus_nonneg hq0 hq))
  | eliminate => exact h

/-- What a count keeps, for a coalition that began with more than `k` quotas:
`k` quotas less those of its elected members, and enough members. -/
structure Held (S : Finset κ) (k : ℕ) (q total : F) (s : State κ F) : Prop where
  nodup : s.continuing.Nodup
  apart : ∀ c ∈ s.continuing, c ∉ s.elected
  nonneg : Nonneg s.ballots
  total : weightOf (fun _ => True) s.ballots + s.elected.length * q = total
  held : (standing S s).Nonempty → k * q < weightOf (Solid S) s.ballots + (seated S s).card * q
  enough : min k S.card ≤ (seated S s).card + (standing S s).card

variable {S : Finset κ} {k : ℕ} {q total : F} {s s' : State κ F}

/-- The coalition's weight stands for its continuing members. -/
theorem Solid.weight_le (h0 : Nonneg s.ballots) (h : (standing S s).Nonempty) :
    weightOf (Solid S) s.ballots ≤ ∑ c ∈ standing S s, tally s.continuing s.ballots c := by
  rw [sum_tally]
  refine weightOf_le h0 fun b _ hb => ?_
  obtain ⟨c, hc, htop⟩ := hb.top (exists_of_standing h)
  exact ⟨c, Finset.mem_filter.mpr ⟨hc, top_mem htop⟩, htop⟩

/-- As many members as quotas left to the coalition: one of them has a quota. -/
theorem Held.quota (h : Held S k q total s) (hS : (standing S s).Nonempty) (hq : 0 ≤ q)
    (hk : (seated S s).card + (standing S s).card ≤ k) :
    ∃ c ∈ s.continuing, q ≤ tally s.continuing s.ballots c := by
  by_contra hno
  push Not at hno
  have hsum : ∑ c ∈ standing S s, tally s.continuing s.ballots c ≤ (standing S s).card * q := by
    rw [← nsmul_eq_mul]
    exact Finset.sum_le_card_nsmul _ _ _ fun c hc => (hno c (Finset.mem_filter.mp hc).2).le
  have hcard : ((seated S s).card : F) + (standing S s).card ≤ k := by exact_mod_cast hk
  have hheld := h.held hS
  have hweight := Solid.weight_le h.nonneg hS
  nlinarith

section Elect

variable {w : κ} (h : Held S k q total s) (hq0 : 0 ≤ q) (hw : w ∈ s.continuing)
  (hq : q ≤ tally s.continuing s.ballots w)

include h hq0 hq in
/-- The election of a member costs the coalition a quota at most. -/
theorem Held.transfer_member : weightOf (Solid S) s.ballots ≤ weightOf (Solid S)
    (transfer s.continuing w (surplus q (tally s.continuing s.ballots w)) s.ballots) + q := by
  set t := tally s.continuing s.ballots w with htally
  have hle : weightOf (fun prefs => Solid S prefs ∧ top s.continuing prefs = some w) s.ballots ≤ t :=
    weightOf_le h.nonneg fun _ _ hb => hb.2
  have := mul_le_mul_of_nonneg_left hle (one_sub_surplus_nonneg hq0 hq)
  rw [surplus_takes hq0 hq] at this
  rw [weightOf_transfer]
  linarith

omit [LinearOrder F] [IsStrictOrderedRing F] in
/-- The election of another candidate costs it nothing while a member continues. -/
theorem transfer_other (hS : (standing S s).Nonempty) (hwS : w ∉ S) (r : F) :
    weightOf (Solid S) (transfer s.continuing w r s.ballots) = weightOf (Solid S) s.ballots := by
  have hnone : weightOf (fun prefs => Solid S prefs ∧ top s.continuing prefs = some w) s.ballots =
      weightOf (fun _ => False) s.ballots := by
    refine weightOf_congr fun b _ => ⟨fun hb => ?_, False.elim⟩
    obtain ⟨c, hc, htop⟩ := hb.1.top (exists_of_standing hS)
    rw [htop, Option.some_inj] at hb
    exact hwS (hb.2 ▸ hc)
  have hzero : weightOf (fun _ : List κ => False) s.ballots = 0 := by simp [weightOf]
  rw [weightOf_transfer, hnone, hzero]
  ring

include h hq0 hw hq in
theorem Held.elect : Held S k q total
    ⟨transfer s.continuing w (surplus q (tally s.continuing s.ballots w)) s.ballots,
      s.continuing.erase w, s.elected ++ [w]⟩ := by
  set t := tally s.continuing s.ballots w with htally
  have hwE : w ∉ s.elected := h.apart w hw
  have hnew : w ∉ seated S s := fun hs => hwE (Finset.mem_filter.mp hs).2
  refine ⟨h.nodup.erase w, ?_, h.nonneg.transfer (surplus_nonneg hq0 hq), ?_, fun hS' => ?_, ?_⟩
  · intro c hc
    have hc' := (h.nodup.mem_erase_iff).mp hc
    simp [h.apart c hc'.2, hc'.1]
  · have hall : weightOf (fun prefs => True ∧ top s.continuing prefs = some w) s.ballots = t :=
      weightOf_congr fun _ _ => by simp
    have htotal := h.total
    have hquota := surplus_takes hq0 hq
    rw [weightOf_transfer, hall, hquota, List.length_append]
    push_cast
    simp only [List.length_singleton, Nat.cast_one]
    linarith
  · rw [standing_erase h.nodup] at hS'
    have hS : (standing S s).Nonempty := hS'.mono (Finset.erase_subset _ _)
    have hheld := h.held hS
    rw [seated_append]
    by_cases hwS : w ∈ S
    · have hcost := h.transfer_member hq0 hq
      rw [if_pos hwS, Finset.card_insert_of_notMem hnew]
      push_cast
      linarith
    · rw [if_neg hwS, transfer_other hS hwS]
      exact hheld
  · have henough := h.enough
    rw [seated_append, standing_erase h.nodup]
    by_cases hwS : w ∈ S
    · have hmem : w ∈ standing S s := Finset.mem_filter.mpr ⟨hwS, hw⟩
      have hpos : 0 < (standing S s).card := Finset.card_pos.mpr ⟨w, hmem⟩
      rw [if_pos hwS, Finset.card_insert_of_notMem hnew, Finset.card_erase_of_mem hmem]
      omega
    · have hmem : w ∉ standing S s := fun hs => hwS (Finset.mem_filter.mp hs).1
      rw [if_neg hwS, Finset.erase_eq_of_notMem hmem]
      exact henough

end Elect

theorem Held.eliminate {x : κ} (h : Held S k q total s) (hq0 : 0 ≤ q)
    (hq : ∀ c ∈ s.continuing, tally s.continuing s.ballots c < q) :
    Held S k q total ⟨s.ballots, s.continuing.erase x, s.elected⟩ := by
  refine ⟨h.nodup.erase x, fun c hc => h.apart c (List.mem_of_mem_erase hc), h.nonneg, h.total,
    fun hS' => ?_, ?_⟩
  · rw [standing_erase h.nodup] at hS'
    exact h.held (hS'.mono (Finset.erase_subset _ _))
  · rw [standing_erase h.nodup]
    change _ ≤ (seated S s).card + _
    have henough := h.enough
    by_cases hx : x ∈ standing S s
    · -- no member is eliminated while the coalition needs all that are left
      have hmore : ¬ (seated S s).card + (standing S s).card ≤ k := fun hk => by
        obtain ⟨c, hc, hle⟩ := h.quota ⟨x, hx⟩ hq0 hk
        exact absurd hle (not_le.mpr (hq c hc))
      have hmin : min k S.card ≤ k := Nat.min_le_left _ _
      rw [Finset.card_erase_of_mem hx]
      omega
    · rw [Finset.erase_eq_of_notMem hx]
      exact henough

theorem Held.step (h : Held S k q total s) (hq0 : 0 ≤ q) (hs : Step q s s') : Held S k q total s' := by
  cases hs with
  | elect hw hq => exact h.elect hq0 hw hq
  | eliminate _ hq => exact h.eliminate hq0 hq

/-- The coalition's members are elected: at the end of the seats, or of the
candidates. -/
theorem Held.proportional (h : Held S k q total s) {seats : ℕ} (htotal : total = (seats + 1) * q)
    (hend : s.continuing = [] ∨ s.elected.length = seats) : min k S.card ≤ (seated S s).card := by
  have henough := h.enough
  rcases hend with hend | hend
  · have : standing S s = ∅ := by simp [standing, hend]
    rw [this, Finset.card_empty] at henough
    exact henough
  · by_contra hless
    have hS : (standing S s).Nonempty := by
      rw [← Finset.card_pos]
      omega
    have hk : (seated S s).card + 1 ≤ k := by omega
    have hk' : ((seated S s).card : F) + 1 ≤ k := by exact_mod_cast hk
    have hheld := h.held hS
    have hall : weightOf (Solid S) s.ballots ≤ weightOf (fun _ => True) s.ballots :=
      weightOf_le h.nonneg fun _ _ _ => trivial
    have htot := h.total
    have hq0 : 0 ≤ q := by
      have := weightOf_nonneg (P := fun _ => True) h.nonneg
      rw [htotal, hend] at htot
      linarith
    rw [htotal, hend] at htot
    nlinarith

/-! ### A runoff -/

section Runoff

variable {C : List κ} {bs : List (List κ × F)} {w : κ}

/-- A coalition of more than half of the weight. -/
def Majority (S : Finset κ) (bs : List (List κ × F)) : Prop :=
  weightOf (fun _ => True) bs < 2 * weightOf (Solid S) bs

/-- The weight of the ballots that are not exhausted. -/
def active (C : List κ) (bs : List (List κ × F)) : F := ∑ c ∈ C.toFinset, tally C bs c

theorem active_le (h0 : Nonneg bs) : active C bs ≤ weightOf (fun _ => True) bs := by
  unfold active
  rw [sum_tally]
  exact weightOf_le h0 fun _ _ _ => trivial

theorem tally_nonneg (h0 : Nonneg bs) (c : κ) : 0 ≤ tally C bs c := weightOf_nonneg h0

/-- The weight of the coalition is part of the active weight, besides what an
outsider has. -/
theorem Solid.add_le {es : List κ} (h0 : Nonneg bs) (hS : (standing S ⟨bs, C, es⟩).Nonempty) (hw : w ∈ C)
    (hwS : w ∉ S) : weightOf (Solid S) bs + tally C bs w ≤ active C bs := by
  have hcoalition : weightOf (Solid S) bs ≤ ∑ c ∈ standing S ⟨bs, C, es⟩, tally C bs c :=
    Solid.weight_le (s := ⟨bs, C, es⟩) h0 hS
  have hnot : w ∉ standing S ⟨bs, C, es⟩ := fun h => hwS (Finset.mem_filter.mp h).1
  have hsub : insert w (standing S ⟨bs, C, es⟩) ⊆ C.toFinset := by
    intro c hc
    rw [Finset.mem_insert] at hc
    rw [List.mem_toFinset]
    rcases hc with rfl | hc
    · exact hw
    · exact (Finset.mem_filter.mp hc).2
  have hsum : ∑ c ∈ insert w (standing S ⟨bs, C, es⟩), tally C bs c ≤ active C bs :=
    Finset.sum_le_sum_of_subset_of_nonneg hsub fun c _ _ => tally_nonneg h0 c
  rw [Finset.sum_insert hnot] at hsum
  linarith

/-- The majority of a runoff is one of the coalition. -/
theorem Majority.elects {es : List κ} (h : Majority S bs) (h0 : Nonneg bs)
    (hS : (standing S ⟨bs, C, es⟩).Nonempty) (hw : w ∈ C) (hmaj : active C bs < 2 * tally C bs w) : w ∈ S := by
  by_contra hwS
  have hsum := Solid.add_le h0 hS hw hwS
  have hactive := active_le (C := C) h0
  unfold Majority at h
  linarith

/-- While nobody has a majority more than one member continues. -/
theorem Majority.keeps {es : List κ} (h : Majority S bs) (h0 : Nonneg bs)
    (hS : (standing S ⟨bs, C, es⟩).Nonempty) (hnone : ∀ c ∈ C, 2 * tally C bs c ≤ active C bs) :
    1 < (standing S ⟨bs, C, es⟩).card := by
  by_contra hone
  have hcard : (standing S ⟨bs, C, es⟩).card = 1 :=
    le_antisymm (not_lt.mp hone) (Finset.card_pos.mpr hS)
  obtain ⟨c, hc⟩ := Finset.card_eq_one.mp hcard
  have hweight : weightOf (Solid S) bs ≤ tally C bs c := by
    have := Solid.weight_le (s := ⟨bs, C, es⟩) h0 hS
    rw [hc, Finset.sum_singleton] at this
    exact this
  have hmem : c ∈ C := by
    have : c ∈ standing S ⟨bs, C, es⟩ := by rw [hc]; exact Finset.mem_singleton_self c
    exact (Finset.mem_filter.mp this).2
  have hhalf := hnone c hmem
  have hactive := active_le (C := C) h0
  unfold Majority at h
  linarith

end Runoff

/-! ### Duels -/

/-- The ballot lists `x`, and not `y` before it. -/
def Prefers (x y : κ) (prefs : List κ) : Prop := prefs.find? (fun c => c = x ∨ c = y) = some x

instance (x y : κ) : DecidablePred (Prefers x y) := fun prefs => by unfold Prefers; infer_instance

section Duels

variable {C prefs : List κ} {x y : κ}

/-- A ballot that stands for `x` prefers it to whoever else continues. -/
theorem prefers_of_top (h : top C prefs = some x) (hy : y ∈ C) : Prefers x y prefs := by
  have hx := top_mem h
  obtain ⟨-, before, after, hsplit, hbefore⟩ := List.find?_eq_some_iff_append.mp h
  refine List.find?_eq_some_iff_append.mpr ⟨by simp, before, after, hsplit, fun a ha => ?_⟩
  have hout := hbefore a ha
  rw [Bool.not_eq_true', decide_eq_false_iff_not] at hout ⊢
  rintro (rfl | rfl)
  · exact hout hx
  · exact hout hy

/-- A ballot that prefers another to `x` stands for another. -/
theorem top_of_prefers (h : Prefers y x prefs) (hne : y ≠ x) (hx : x ∈ C) (hy : y ∈ C) :
    ∃ c ∈ C.toFinset.erase x, top C prefs = some c := by
  have hmem : y ∈ prefs := List.mem_of_find?_eq_some h
  rcases htop : top C prefs with _ | c
  · have hnone := List.find?_eq_none.mp htop y hmem
    exact absurd hy (by simpa using hnone)
  · refine ⟨c, Finset.mem_erase.mpr ⟨?_, List.mem_toFinset.mpr (top_mem htop)⟩, rfl⟩
    rintro rfl
    have hback := prefers_of_top htop hy
    unfold Prefers at h hback
    simp only [or_comm (a := (_ : κ) = c)] at hback
    exact hne (Option.some.inj (h.symm.trans hback))

/-- Between the last two, a ballot stands for the one it prefers. -/
theorem prefers_iff_top (hC : ∀ c, c ∈ C ↔ c = x ∨ c = y) : Prefers x y prefs ↔ top C prefs = some x := by
  unfold Prefers top
  simp only [hC]

variable {bs : List (List κ × F)}

/-- A majority wins each of its duels. -/
theorem duel_of_majority (h0 : Nonneg bs) (hx : x ∈ C) (hy : y ∈ C) (hne : y ≠ x)
    (hmaj : ∑ c ∈ C.toFinset, tally C bs c < 2 * tally C bs x) :
    weightOf (Prefers y x) bs < weightOf (Prefers x y) bs := by
  have hothers : weightOf (Prefers y x) bs ≤ ∑ c ∈ C.toFinset.erase x, tally C bs c := by
    rw [sum_tally]
    exact weightOf_le h0 fun _ _ h => top_of_prefers h hne hx hy
  have hown : tally C bs x ≤ weightOf (Prefers x y) bs := weightOf_le h0 fun _ _ h => prefers_of_top h hy
  have hsplit := Finset.add_sum_erase C.toFinset (tally C bs) (List.mem_toFinset.mpr hx)
  linarith

omit [LinearOrder F] [IsStrictOrderedRing F] in
/-- The tallies of the last two are their duel. -/
theorem duel_of_last (hC : ∀ c, c ∈ C ↔ c = x ∨ c = y) : weightOf (Prefers x y) bs = tally C bs x :=
  weightOf_congr fun _ _ => prefers_iff_top hC

end Duels

end Transfer
