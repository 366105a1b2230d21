/-
# Invoice numbers

The number of an invoice is made of its month and of the number after the last
one of the month. The last one is looked for in the order of texts, and numbers
are written in five digits; so it is the greatest as long as five digits are
enough. A month's 100 000th invoice has six, its text comes before that of
99 999, and the number after the last one is then taken.

Key definitions: `nextInvoiceNumber`, `generate`, `Sequential`.
Key theorems: `Sequential.next_eq`, `Sequential.issue`, `nextInvoiceNumber_fresh`.
-/
import Mathlib.Data.String.Basic
import FlexyVotes.Billing.Service
import FlexyVotes.Core.Numerals

namespace FlexyVotes
namespace Billing

/-! ### Numbers -/

/-- `strftime('INV-%Y%m-')`. -/
def invoicePrefix (now : DateTime) : String := "INV-" ++ zeroPadded 4 now.year ++ zeroPadded 2 now.month ++ "-"

/-- The numbers of the month. -/
def monthNumbers (now : DateTime) (numbers : List String) : List String :=
  numbers.filter fun number => (invoicePrefix now).toList.isPrefixOf number.toList

/-- What `rsplit('-', 1)` leaves last. -/
def afterLastDash (s : String) : String := String.ofList (s.toList.rtakeWhile (· ≠ '-'))

/-- `_next_invoice_number`; nothing is a `ValueError`. -/
def nextInvoiceNumber (now : DateTime) (numbers : List String) : Option String :=
  match (monthNumbers now numbers).max? with
  | none => some (invoicePrefix now ++ zeroPadded 5 1)
  | some last => (intBase 10 (afterLastDash last)).map fun n => invoicePrefix now ++ zeroPadded 5 (n + 1).toNat

/-- The arguments of `generate_invoice`, with the subscription that
`get_subscription` finds. -/
structure InvoiceCall where
  organization : ℕ
  subscription : Subscription
  periodStart : DateTime
  periodEnd : DateTime
  includeUsage : Bool := true

/-- The invoices, and their numbers in the same order. -/
structure Numbered where
  state : State
  numbers : List String := []

variable (S : Settings)

/-- `generate_invoice` under a number; nothing where the number is taken, or
cannot be made. -/
def generate (x : InvoiceCall) (s : Numbered) : Option Numbered :=
  (nextInvoiceNumber s.state.clock s.numbers).bind fun number =>
    if number ∈ s.numbers then none
    else some ⟨(generateInvoice S x.organization x.subscription x.periodStart x.periodEnd x.includeUsage s.state).2,
      s.numbers ++ [number]⟩

/-- The invoices at a later moment. -/
def Numbered.upTo (s : Numbered) (now : DateTime) : Numbered := { s with state := { s.state with clock := now } }

/-- A call at its moment; one that fails is rolled back. -/
def issue (x : DateTime × InvoiceCall) (s : Numbered) : Numbered := (generate S x.2 (s.upTo x.1)).getD (s.upTo x.1)

/-- The call creates its invoice. -/
def Creates (x : DateTime × InvoiceCall) (s : Numbered) : Prop := (generate S x.2 (s.upTo x.1)).isSome = true

/-- How many invoices of the month there are. -/
def Numbered.issuedIn (s : Numbered) (now : DateTime) : ℕ := (monthNumbers now s.numbers).length

variable {S : Settings}

/-! ### The order of the numbers -/

/-- The `k`-th number of a month. -/
def invoiceNumber (now : DateTime) (k : ℕ) : String := invoicePrefix now ++ zeroPadded 5 k

/-- The greatest number in the order of texts. -/
def LARGEST : ℕ := 99999

theorem invoiceNumber_lt {now : DateTime} {m n : ℕ} (h : m < n) (hn : n ≤ LARGEST) :
    invoiceNumber now m < invoiceNumber now n := by
  have hlarge : n < 10 ^ (4 + 1) := Nat.lt_succ_of_le hn
  rw [String.lt_iff_toList_lt]
  unfold invoiceNumber
  rw [String.toList_append, String.toList_append, zeroPadded_eq hlarge, zeroPadded_eq (h.trans hlarge)]
  exact List.append_left_lt (fixedDigits_mono h hlarge)

/-- Six digits come before the greatest of five. -/
theorem invoiceNumber_sixDigits (now : DateTime) : invoiceNumber now (LARGEST + 1) < invoiceNumber now LARGEST := by
  rw [String.lt_iff_toList_lt]
  unfold invoiceNumber
  rw [String.toList_append, String.toList_append]
  refine List.append_left_lt ?_
  decide

theorem invoiceNumber_le {now : DateTime} {k n : ℕ} (hk : k ≤ n) (hn : n ≤ LARGEST + 1) :
    invoiceNumber now k ≤ invoiceNumber now (min n LARGEST) := by
  rcases Nat.lt_or_ge LARGEST k with hlarge | hsmall
  · have hk' : k = LARGEST + 1 := by omega
    have hmin : min n LARGEST = LARGEST := by omega
    rw [hk', hmin]
    exact (invoiceNumber_sixDigits now).le
  · rcases Nat.lt_or_ge k (min n LARGEST) with hlt | hge
    · exact (invoiceNumber_lt hlt (by omega)).le
    · have heq : k = min n LARGEST := by omega
      rw [← heq]

theorem invoiceNumber_length {now : DateTime} {k : ℕ} (hk : k ≤ LARGEST) :
    (invoiceNumber now k).toList.length = (invoicePrefix now).toList.length + 5 := by
  have hlarge : k < 10 ^ (4 + 1) := Nat.lt_succ_of_le hk
  unfold invoiceNumber
  rw [String.toList_append, List.length_append, zeroPadded_eq hlarge, List.length_map, fixedDigits_length]

/-- A number up to the first of six digits is another than those before it. -/
theorem invoiceNumber_ne {now : DateTime} {k n : ℕ} (hk : k < n) (hn : n ≤ LARGEST + 1) :
    invoiceNumber now k ≠ invoiceNumber now n := by
  intro h
  rcases Nat.lt_or_ge LARGEST n with hlarge | hsmall
  · have hn' : n = LARGEST + 1 := by omega
    have hlen : (invoiceNumber now k).toList.length = (invoicePrefix now).toList.length + 5 :=
      invoiceNumber_length (by omega)
    have hsix : (zeroPadded 5 (LARGEST + 1)).toList.length = 6 := by decide
    rw [h, hn', invoiceNumber, String.toList_append, List.length_append, hsix] at hlen
    omega
  · exact (invoiceNumber_lt hk hsmall).ne h

/-! ### The month of a number -/

theorem dash_notMem_zeroPadded (w n : ℕ) : '-' ∉ (zeroPadded w n).toList := by
  intro h
  unfold zeroPadded at h
  rw [String.toList_ofList, List.leftpad, List.mem_append] at h
  rcases h with h | h
  · exact absurd (List.eq_of_mem_replicate h) (by decide)
  · exact absurd (Nat.isDigit_of_mem_toDigits (by decide) (by decide) h) (by decide)

/-- What a month's numbers begin with has one more dash, at its end. -/
theorem invoicePrefix_eq (now : DateTime) : ∃ month : List Char, '-' ∉ month ∧
    (invoicePrefix now).toList = ['I', 'N', 'V', '-'] ++ (month ++ ['-']) := by
  refine ⟨(zeroPadded 4 now.year).toList ++ (zeroPadded 2 now.month).toList, fun h => ?_, ?_⟩
  · rcases List.mem_append.mp h with h | h
    · exact dash_notMem_zeroPadded _ _ h
    · exact dash_notMem_zeroPadded _ _ h
  · unfold invoicePrefix
    simp

/-- Only the numbers of a month begin with its prefix. -/
theorem invoicePrefix_isPrefixOf {now t : DateTime} {k : ℕ} :
    (invoicePrefix now).toList.isPrefixOf (invoiceNumber t k).toList = true ↔ invoicePrefix now = invoicePrefix t := by
  rw [List.isPrefixOf_iff_prefix]
  constructor
  · rintro ⟨rest, h⟩
    obtain ⟨month, hmonth, he⟩ := invoicePrefix_eq now
    obtain ⟨month', hmonth', he'⟩ := invoicePrefix_eq t
    unfold invoiceNumber at h
    rw [String.toList_append, he, he'] at h
    simp only [List.append_assoc, List.append_cancel_left_eq] at h
    have hsame : month = month' := by
      have htake : ∀ {l : List Char} (r : List Char), '-' ∉ l → (l ++ (['-'] ++ r)).takeWhile (· ≠ '-') = l := by
        intro l r hl
        have hpos : ∀ c ∈ l, decide (c ≠ '-') = true := fun c hc => decide_eq_true fun he => hl (he ▸ hc)
        rw [List.takeWhile_append_of_pos hpos]
        simp
      rw [← htake rest hmonth, h, htake _ hmonth']
    apply String.toList_injective
    rw [he, he', hsame]
  · intro h
    unfold invoiceNumber
    rw [h, String.toList_append]
    exact List.prefix_append _ _

/-! ### Every run -/

/-- The numbers of every month follow one another, up to the first of six digits. -/
def Sequential (numbers : List String) : Prop :=
  ∀ now, (monthNumbers now numbers).length ≤ LARGEST + 1 ∧
    monthNumbers now numbers = (List.range' 1 (monthNumbers now numbers).length).map (invoiceNumber now)

theorem sequential_nil : Sequential [] := fun _ => ⟨Nat.zero_le _, rfl⟩

/-- A number that is read is the one that was written. -/
theorem intBase_afterLastDash {now : DateTime} {k : ℕ} (hk : k ≤ LARGEST) :
    intBase 10 (afterLastDash (invoiceNumber now k)) = some (k : ℤ) := by
  have hlarge : k < 10 ^ (4 + 1) := Nat.lt_succ_of_le hk
  have hlast : (invoiceNumber now k).toList.rtakeWhile (· ≠ '-') = (zeroPadded 5 k).toList := by
    obtain ⟨month, -, he⟩ := invoicePrefix_eq now
    have hdigits : ∀ c ∈ (zeroPadded 5 k).toList.reverse, decide (c ≠ '-') = true := fun c hc =>
      decide_eq_true fun h => dash_notMem_zeroPadded 5 k (h ▸ List.mem_reverse.mp hc)
    unfold invoiceNumber List.rtakeWhile
    rw [String.toList_append, List.reverse_append, List.takeWhile_append_of_pos hdigits, he]
    simp
  have hne : fixedDigits (4 + 1) k ≠ [] := by simp [fixedDigits]
  have hread := intBase_digitChars (b := 10) (by decide) hne (fun d hd => fixedDigits_lt hd)
    (fun _ => by rw [fixedDigits_length]; decide)
  rw [fixedDigits_value hlarge] at hread
  unfold afterLastDash
  rw [hlast, zeroPadded_eq hlarge, hread]

/-- **The next number** is the one after the last in the order of texts. -/
theorem Sequential.next_eq {numbers : List String} (h : Sequential numbers) (now : DateTime) :
    nextInvoiceNumber now numbers = some (invoiceNumber now (min (monthNumbers now numbers).length LARGEST + 1)) := by
  obtain ⟨hle, heq⟩ := h now
  generalize hn : (monthNumbers now numbers).length = n at hle heq
  unfold nextInvoiceNumber
  rw [heq]
  rcases Nat.eq_zero_or_pos n with rfl | hpos
  · rfl
  · have hmax : ((List.range' 1 n).map (invoiceNumber now)).max? = some (invoiceNumber now (min n LARGEST)) := by
      rw [List.max?_eq_some_iff]
      constructor
      · exact List.mem_map_of_mem (List.mem_range'_1.mpr (by unfold LARGEST; omega))
      · intro number hnumber
        obtain ⟨k, hk, rfl⟩ := List.mem_map.mp hnumber
        rw [List.mem_range'_1] at hk
        exact invoiceNumber_le (by omega) hle
    rw [hmax]
    dsimp only
    rw [intBase_afterLastDash (by omega)]
    rfl

/-- **The next number is free** unless the month has one of six digits. -/
theorem Sequential.next_notMem {numbers : List String} (h : Sequential numbers) (now : DateTime) :
    invoiceNumber now (min (monthNumbers now numbers).length LARGEST + 1) ∉ numbers ↔
      (monthNumbers now numbers).length ≤ LARGEST := by
  obtain ⟨hle, heq⟩ := h now
  generalize (monthNumbers now numbers).length = n at hle heq
  have hmem : ∀ k, invoiceNumber now k ∈ numbers ↔ invoiceNumber now k ∈ (List.range' 1 n).map (invoiceNumber now) := by
    intro k
    rw [← heq]
    unfold monthNumbers
    rw [List.mem_filter]
    exact ⟨fun hk => ⟨hk, invoicePrefix_isPrefixOf.mpr rfl⟩, And.left⟩
  rw [hmem]
  constructor
  · intro hfree
    by_contra hlarge
    have hn : n = LARGEST + 1 := by omega
    refine hfree (List.mem_map_of_mem (List.mem_range'_1.mpr ?_))
    omega
  · intro hsmall hin
    obtain ⟨k, hk, he⟩ := List.mem_map.mp hin
    rw [List.mem_range'_1] at hk
    exact invoiceNumber_ne (by omega) (by omega) he

/-- The numbers of a month with one more. -/
theorem monthNumbers_append (now t : DateTime) (numbers : List String) (k : ℕ) :
    monthNumbers now (numbers ++ [invoiceNumber t k]) =
      monthNumbers now numbers ++ if invoicePrefix now = invoicePrefix t then [invoiceNumber now k] else [] := by
  unfold monthNumbers
  rw [List.filter_append, List.filter_singleton]
  congr 1
  by_cases h : invoicePrefix now = invoicePrefix t
  · rw [if_pos h, invoicePrefix_isPrefixOf.mpr h, invoiceNumber, ← h]
    rfl
  · rw [if_neg h, Bool.eq_false_iff.mpr (mt invoicePrefix_isPrefixOf.mp h)]
    rfl

theorem monthNumbers_congr {now t : DateTime} (h : invoicePrefix now = invoicePrefix t) (numbers : List String) :
    monthNumbers now numbers = monthNumbers t numbers := by
  unfold monthNumbers
  rw [h]

theorem Sequential.append {numbers : List String} (h : Sequential numbers) {t : DateTime}
    (ht : (monthNumbers t numbers).length ≤ LARGEST) :
    Sequential (numbers ++ [invoiceNumber t ((monthNumbers t numbers).length + 1)]) := by
  intro now
  obtain ⟨hle, heq⟩ := h now
  rw [monthNumbers_append]
  by_cases hp : invoicePrefix now = invoicePrefix t
  · rw [if_pos hp, ← monthNumbers_congr hp] at *
    refine ⟨by simpa using ht, ?_⟩
    rw [List.length_append, List.length_singleton, List.range'_1_concat, List.map_append, ← heq]
    simp [Nat.add_comm]
  · rw [if_neg hp, List.append_nil]
    exact ⟨hle, heq⟩

/-- **An invoice is created** under the next number, unless the month has one of
six digits. -/
theorem Sequential.generate_eq {s : Numbered} (h : Sequential s.numbers) (x : InvoiceCall) :
    generate S x s =
      if s.issuedIn s.state.clock ≤ LARGEST then
        some ⟨(generateInvoice S x.organization x.subscription x.periodStart x.periodEnd x.includeUsage s.state).2,
          s.numbers ++ [invoiceNumber s.state.clock (s.issuedIn s.state.clock + 1)]⟩
      else none := by
  have hfree := h.next_notMem s.state.clock
  unfold generate Numbered.issuedIn
  rw [h.next_eq, Option.bind_some]
  by_cases hsmall : (monthNumbers s.state.clock s.numbers).length ≤ LARGEST
  · rw [if_neg (hfree.mpr hsmall), if_pos hsmall, Nat.min_eq_left hsmall]
  · rw [if_pos (not_not.mp (mt hfree.mp hsmall)), if_neg hsmall]

theorem Sequential.creates_iff {s : Numbered} (h : Sequential s.numbers) (x : DateTime × InvoiceCall) :
    Creates S x s ↔ s.issuedIn x.1 ≤ LARGEST := by
  have hgen := Sequential.generate_eq (S := S) (s := s.upTo x.1) h x.2
  have hcount : (s.upTo x.1).issuedIn (s.upTo x.1).state.clock = s.issuedIn x.1 := rfl
  unfold Creates
  rw [hgen, hcount]
  split
  · rename_i hsmall
    exact ⟨fun _ => hsmall, fun _ => rfl⟩
  · rename_i hlarge
    exact ⟨fun hc => absurd hc (by decide), fun hc => absurd hc hlarge⟩

theorem Sequential.issue_numbers {s : Numbered} (h : Sequential s.numbers) (x : DateTime × InvoiceCall) :
    (issue S x s).numbers =
      if s.issuedIn x.1 ≤ LARGEST then s.numbers ++ [invoiceNumber x.1 (s.issuedIn x.1 + 1)] else s.numbers := by
  have hgen := Sequential.generate_eq (S := S) (s := s.upTo x.1) h x.2
  have hcount : (s.upTo x.1).issuedIn (s.upTo x.1).state.clock = s.issuedIn x.1 := rfl
  unfold issue
  rw [hgen, hcount]
  split <;> rfl

/-- **A call** keeps the numbers of every month in sequence. -/
theorem Sequential.issue {s : Numbered} (h : Sequential s.numbers) (x : DateTime × InvoiceCall) :
    Sequential (issue S x s).numbers := by
  rw [h.issue_numbers x]
  split
  · rename_i hsmall
    exact h.append hsmall
  · exact h

/-- **A run** of calls, from no invoices. -/
theorem sequential_run (S : Settings) (state : State) (calls : List (DateTime × InvoiceCall)) :
    Sequential (Steps.run (issue S) calls ⟨state, []⟩).numbers :=
  Steps.Always.run (I := fun s : Numbered => Sequential s.numbers) (C := fun _ _ => True) (fun x _ h _ => h.issue x)
    sequential_nil (Steps.Always.of_forall fun _ _ => trivial)

/-- **Invoice numbers**: whatever calls were made, the next number of a month is
free as long as the month has fewer than 100 000 invoices; and the calls of a run
all create their invoices just when each is made with fewer than 100 000 there. -/
theorem nextInvoiceNumber_fresh (S : Settings) (state : State) (calls : List (DateTime × InvoiceCall)) :
    (∀ now, (∃ number, nextInvoiceNumber now (Steps.run (issue S) calls ⟨state, []⟩).numbers = some number ∧
        number ∉ (Steps.run (issue S) calls ⟨state, []⟩).numbers) ↔
      (Steps.run (issue S) calls ⟨state, []⟩).issuedIn now < 100000) ∧
    (Steps.Always (issue S) (Creates S) calls ⟨state, []⟩ ↔
      Steps.Always (issue S) (fun x s => s.issuedIn x.1 < 100000) calls ⟨state, []⟩) := by
  have hkeep : ∀ (C : DateTime × InvoiceCall → Numbered → Prop) x s, Sequential s.numbers → C x s →
      Sequential (issue S x s).numbers := fun _ x s h _ => h.issue x
  constructor
  · intro now
    have h := sequential_run S state calls
    rw [h.next_eq now]
    constructor
    · rintro ⟨number, he, hfree⟩
      cases he
      exact Nat.lt_succ_of_le ((h.next_notMem now).mp hfree)
    · intro hsmall
      exact ⟨_, rfl, (h.next_notMem now).mpr (Nat.le_of_lt_succ hsmall)⟩
  · constructor
    · refine Steps.Always.imp (hkeep _) (fun x s h hx => ?_) sequential_nil
      exact Nat.lt_succ_of_le ((h.creates_iff x).mp hx)
    · refine Steps.Always.imp (hkeep _) (fun x s h hx => ?_) sequential_nil
      exact (h.creates_iff x).mpr (Nat.le_of_lt_succ hx)

/-- The calls of one month fill it up to the first number of six digits. -/
theorem issuedIn_replicate (x : DateTime × InvoiceCall) {s : Numbered} (h : Sequential s.numbers) :
    ∀ {n}, s.issuedIn x.1 + n ≤ LARGEST + 1 →
      (Steps.run (issue S) (List.replicate n x) s).issuedIn x.1 = s.issuedIn x.1 + n := by
  intro n
  induction n generalizing s with
  | zero => intro _; rfl
  | succ n ih =>
    intro hle
    have hone : (issue S x s).issuedIn x.1 = s.issuedIn x.1 + 1 := by
      unfold Numbered.issuedIn
      rw [h.issue_numbers x, if_pos (by omega), monthNumbers_append, if_pos rfl, List.length_append,
        List.length_singleton]
    rw [List.replicate_succ, Steps.run, ih (h.issue x) (by omega), hone]
    omega

/-- The first of a month. -/
def firstOfMonth : DateTime := ⟨2026, 11, 1, 0, by decide, by decide, by decide⟩

def freeOnly : Settings where
  plans := fun _ => none
  free := { code := "FREE", name := "Free" }

/-- After 100 000 invoices of one month, the next number is that of the last. -/
theorem not_nextInvoiceNumber_fresh : ¬ ∀ (S : Settings) (state : State) (calls : List (DateTime × InvoiceCall))
    (now : DateTime), ∃ number, nextInvoiceNumber now (Steps.run (issue S) calls ⟨state, []⟩).numbers = some number ∧
      number ∉ (Steps.run (issue S) calls ⟨state, []⟩).numbers := by
  intro h
  let state : State := { clock := firstOfMonth }
  let call : InvoiceCall := ⟨1, freeSubscription freeOnly state, firstOfMonth, firstOfMonth, false⟩
  -- the number of calls stays a variable, so that nothing runs them
  obtain ⟨n, hn⟩ : ∃ n, n = LARGEST + 1 := ⟨_, rfl⟩
  have hseq := sequential_run freeOnly state (List.replicate n (firstOfMonth, call))
  have hempty : Numbered.issuedIn ⟨state, []⟩ firstOfMonth = 0 := rfl
  have hcount := issuedIn_replicate (S := freeOnly) (firstOfMonth, call) (s := ⟨state, []⟩) sequential_nil (n := n)
    (by rw [hempty]; omega)
  obtain ⟨number, he, hfree⟩ := h freeOnly state (List.replicate n (firstOfMonth, call)) firstOfMonth
  rw [hseq.next_eq] at he
  cases he
  have hsmall := (hseq.next_notMem firstOfMonth).mp hfree
  rw [hempty] at hcount
  have hfull : (monthNumbers firstOfMonth
      (Steps.run (issue freeOnly) (List.replicate n (firstOfMonth, call)) ⟨state, []⟩).numbers).length = 0 + n := hcount
  omega

end Billing
end FlexyVotes
