/-
# Reading numerals

`int` of a text, in base 10 or 16, as CPython reads it: blanks around it, a
sign, underscores between digits, digits of any script, `0x` in base 16, and
no more than 4300 digits in base 10.

What is written in either base is read back (`intBase_digits`). Numbers that are
written in one width are in order as their texts are (`fixedDigits_mono`).

Key definitions: `isSpaceChar`, `intBase`, `zeroPadded`.
Key theorems: `intBase_digits`, `fixedDigits_mono`.
-/
import FlexyVotes.Core.Merkle
import Mathlib.Data.List.DropRight

namespace FlexyVotes

/-! ### Characters -/

/-- `str.isspace` of a character. -/
def isSpaceChar (c : Char) : Bool :=
  (0x09 ≤ c.toNat && c.toNat ≤ 0x0D) || (0x1C ≤ c.toNat && c.toNat ≤ 0x20) || c.toNat = 0x85 || c.toNat = 0xA0 ||
    c.toNat = 0x1680 || (0x2000 ≤ c.toNat && c.toNat ≤ 0x200A) || c.toNat = 0x2028 || c.toNat = 0x2029 ||
    c.toNat = 0x202F || c.toNat = 0x205F || c.toNat = 0x3000

/-- The zeros of Unicode's decimal digits; nine more follow each. -/
def decimalZeros : List ℕ :=
  [0x30, 0x660, 0x6F0, 0x7C0, 0x966, 0x9E6, 0xA66, 0xAE6, 0xB66, 0xBE6, 0xC66, 0xCE6, 0xD66, 0xDE6, 0xE50, 0xED0,
    0xF20, 0x1040, 0x1090, 0x17E0, 0x1810, 0x1946, 0x19D0, 0x1A80, 0x1A90, 0x1B50, 0x1BB0, 0x1C40, 0x1C50, 0xA620,
    0xA8D0, 0xA900, 0xA9D0, 0xA9F0, 0xAA50, 0xABF0, 0xFF10, 0x104A0, 0x10D30, 0x11066, 0x110F0, 0x11136, 0x111D0,
    0x112F0, 0x11450, 0x114D0, 0x11650, 0x116C0, 0x11730, 0x118E0, 0x11950, 0x11C50, 0x11D50, 0x11DA0, 0x11F50,
    0x16A60, 0x16AC0, 0x16B50, 0x1D7CE, 0x1D7D8, 0x1D7E2, 0x1D7EC, 0x1D7F6, 0x1E140, 0x1E2F0, 0x1E4F0, 0x1E950,
    0x1FBF0]

/-- The value of a decimal digit of any script. -/
def decimal (c : Char) : Option ℕ :=
  (decimalZeros.find? fun z => z ≤ c.toNat && c.toNat < z + 10).map fun z => c.toNat - z

/-- A text with its digits and blanks in ASCII. -/
def toAscii (cs : List Char) : List Char :=
  cs.map fun c =>
    if c.toNat < 127 then c
    else if isSpaceChar c then ' '
    else
      match decimal c with
      | some d => Nat.digitChar d
      | none => c

/-- C's `isspace`. -/
def isAsciiSpace (c : Char) : Bool := c = ' ' || (0x09 ≤ c.toNat && c.toNat ≤ 0x0D)

/-! ### `int` -/

/-- The value of a digit in a base. -/
def digitIn (base : ℕ) (c : Char) : Option ℕ := (hexValue c).filter fun d => d < base

/-- The rest of a numeral after its digits so far; underscores stand alone
between digits. -/
def digitsFrom (base : ℕ) : ℕ → List Char → Option ℕ
  | n, [] => some n
  | n, '_' :: c :: cs => (digitIn base c).bind fun d => digitsFrom base (base * n + d) cs
  | n, c :: cs => (digitIn base c).bind fun d => digitsFrom base (base * n + d) cs

/-- A numeral without its sign. -/
def magnitude (base : ℕ) (cs : List Char) : Option ℕ :=
  match cs with
  | [] => none
  | c :: cs => (digitIn base c).bind fun d => digitsFrom base d cs

/-- The digits after `0x`, which base 16 allows. -/
def afterPrefix (base : ℕ) (cs : List Char) : List Char :=
  match cs with
  | '0' :: x :: cs' =>
    if base = 16 ∧ (x = 'x' ∨ x = 'X') then
      match cs' with
      | '_' :: cs'' => cs''
      | _ => cs'
    else cs
  | _ => cs

/-- Decimals are read up to this number of digits. -/
def maxDecimalDigits : ℕ := 4300

/-- A numeral without its sign, with the prefix and the limit of its base. -/
def unsigned (base : ℕ) (cs : List Char) : Option ℕ :=
  if base = 10 ∧ maxDecimalDigits < (cs.filter (· ≠ '_')).length then none else magnitude base (afterPrefix base cs)

/-- `int` of a text in base 10 or 16; nothing is a `ValueError`. -/
def intBase (base : ℕ) (s : String) : Option ℤ :=
  match ((toAscii s.toList).dropWhile isAsciiSpace).rdropWhile isAsciiSpace with
  | '-' :: ds => (unsigned base ds).map fun n : ℕ => -(n : ℤ)
  | '+' :: ds => (unsigned base ds).map fun n : ℕ => (n : ℤ)
  | ds => (unsigned base ds).map fun n : ℕ => (n : ℤ)

/-! ### What is written is read -/

/-- A number's digits. -/
theorem toDigits_eq {b : ℕ} (hb : 1 < b) (n : ℕ) :
    ∃ ds : List ℕ, Nat.toDigits b n = ds.map Nat.digitChar ∧ (∀ d ∈ ds, d < b) ∧ ds ≠ [] ∧
      ds.foldl (fun n d => b * n + d) 0 = n := by
  induction n using Nat.strongRecOn with
  | ind n ih =>
    rw [Nat.toDigits_eq_if hb]
    split
    · exact ⟨[n], rfl, by simpa, List.cons_ne_nil _ _, by simp⟩
    · obtain ⟨ds, hds, hlt, -, hval⟩ := ih (n / b) (Nat.div_lt_self (by omega) hb)
      refine ⟨ds ++ [n % b], by simp [hds], ?_, by simp, ?_⟩
      · intro d hd
        rcases List.mem_append.mp hd with hd | hd
        · exact hlt d hd
        · rw [List.mem_singleton.mp hd]
          exact Nat.mod_lt _ (by omega)
      · rw [List.foldl_append, hval, List.foldl_cons, List.foldl_nil, Nat.div_add_mod]

/-- What the digits of either base have in common. -/
structure Plain (c : Char) : Prop where
  mark : c ∉ ['_', '-', '+', 'x', 'X']
  asciiSpace : isAsciiSpace c = false
  space : isSpaceChar c = false
  ascii : c.toNat < 127

theorem plain_digitChar {d : ℕ} (hd : d < 16) : Plain (Nat.digitChar d) := by
  have h : ∀ d < 16, Nat.digitChar d ∉ ['_', '-', '+', 'x', 'X'] ∧ isAsciiSpace (Nat.digitChar d) = false ∧
      isSpaceChar (Nat.digitChar d) = false ∧ (Nat.digitChar d).toNat < 127 := by decide
  obtain ⟨h1, h2, h3, h4⟩ := h d hd
  exact ⟨h1, h2, h3, h4⟩

/-- A number's text has no other characters. -/
theorem plain_of_mem_toDigits {b n : ℕ} (hb : 1 < b) (hb' : b ≤ 16) {c : Char} (hc : c ∈ Nat.toDigits b n) : Plain c := by
  obtain ⟨ds, hds, hlt, -, -⟩ := toDigits_eq hb n
  rw [hds] at hc
  obtain ⟨d, hd, rfl⟩ := List.mem_map.mp hc
  exact plain_digitChar ((hlt d hd).trans_le hb')

theorem digitIn_digitChar {b d : ℕ} (hb : b ≤ 16) (hd : d < b) : digitIn b (Nat.digitChar d) = some d := by
  rw [digitIn, (hexValue_digitChar d (by omega)).1, Option.filter_some, decide_eq_true hd, if_pos rfl]

theorem digitsFrom_digits {b : ℕ} (hb : b ≤ 16) : ∀ (ds : List ℕ) (n : ℕ), (∀ d ∈ ds, d < b) →
    digitsFrom b n (ds.map Nat.digitChar) = some (ds.foldl (fun n d => b * n + d) n)
  | [], n, _ => rfl
  | d :: ds, n, h => by
    rw [List.forall_mem_cons] at h
    have hne : Nat.digitChar d ≠ '_' := fun he => (plain_digitChar (h.1.trans_le hb)).mark (by simp [he])
    rw [List.map_cons, digitsFrom.eq_3 b n _ _ (fun c cs h _ => hne h), digitIn_digitChar hb h.1, Option.bind_some,
      digitsFrom_digits hb ds _ h.2, List.foldl_cons]

theorem magnitude_digits {b : ℕ} (hb : b ≤ 16) {ds : List ℕ} (hne : ds ≠ []) (h : ∀ d ∈ ds, d < b) :
    magnitude b (ds.map Nat.digitChar) = some (ds.foldl (fun n d => b * n + d) 0) := by
  cases ds with
  | nil => exact absurd rfl hne
  | cons d ds =>
    rw [List.forall_mem_cons] at h
    rw [List.map_cons, magnitude, digitIn_digitChar hb h.1, Option.bind_some, digitsFrom_digits hb ds d h.2]
    simp

theorem afterPrefix_digits {b : ℕ} {ds : List ℕ} (h : ∀ d ∈ ds, d < 16) :
    afterPrefix b (ds.map Nat.digitChar) = ds.map Nat.digitChar := by
  unfold afterPrefix
  split
  · rename_i x cs' hcs
    obtain ⟨d, hd, rfl⟩ : ∃ d ∈ ds, Nat.digitChar d = x := by
      have hx : x ∈ ds.map Nat.digitChar := by simp [hcs]
      exact List.mem_map.mp hx
    have hmark := (plain_digitChar (h d hd)).mark
    simp only [List.mem_cons, List.not_mem_nil, not_or] at hmark
    rw [if_neg (by simp [hmark])]
  · rfl

theorem strip_plain {cs : List Char} (h : ∀ c ∈ cs, Plain c) :
    ((toAscii cs).dropWhile isAsciiSpace).rdropWhile isAsciiSpace = cs := by
  have hascii : toAscii cs = cs := by
    conv_rhs => rw [← List.map_id cs]
    exact List.map_congr_left fun c hc => if_pos (h c hc).ascii
  rw [hascii, List.dropWhile_eq_self_iff.mpr fun hlen => by
      rw [(h _ (List.getElem_mem hlen)).asciiSpace]
      exact Bool.false_ne_true,
    List.rdropWhile_eq_self_iff.mpr fun hne => by
      rw [(h _ (List.getLast_mem hne)).asciiSpace]
      exact Bool.false_ne_true]

/-- Digits are read, with any zeros before them. -/
theorem intBase_digitChars {b : ℕ} (hb' : b ≤ 16) {ds : List ℕ} (hne : ds ≠ []) (hlt : ∀ d ∈ ds, d < b)
    (hlimit : b = 10 → ds.length ≤ maxDecimalDigits) :
    intBase b (String.ofList (ds.map Nat.digitChar)) = some ((ds.foldl (fun n d => b * n + d) 0 : ℕ) : ℤ) := by
  have hplain : ∀ c ∈ ds.map Nat.digitChar, Plain c := by
    intro c hc
    obtain ⟨d, hd, rfl⟩ := List.mem_map.mp hc
    exact plain_digitChar ((hlt d hd).trans_le hb')
  have hunsigned : unsigned b (ds.map Nat.digitChar) = some (ds.foldl (fun n d => b * n + d) 0) := by
    unfold unsigned
    rw [if_neg, afterPrefix_digits fun d hd => (hlt d hd).trans_le hb', magnitude_digits hb' hne hlt]
    rintro ⟨rfl, hlen⟩
    have hdigits := hlimit rfl
    have hfilter := List.length_filter_le (· ≠ '_') (ds.map Nat.digitChar)
    rw [List.length_map] at hfilter
    omega
  unfold intBase
  rw [String.toList_ofList, strip_plain hplain]
  split
  · rename_i hcs
    exact absurd (by simp) (hplain '-' (by simp [hcs])).mark
  · rename_i hcs
    exact absurd (by simp) (hplain '+' (by simp [hcs])).mark
  · rw [hunsigned, Option.map_some]

/-- A number's text is read as the number. -/
theorem intBase_digits {b n : ℕ} (hb : 1 < b) (hb' : b ≤ 16) (hlimit : b = 10 → n < 10 ^ maxDecimalDigits) :
    intBase b (String.ofList (Nat.toDigits b n)) = some (n : ℤ) := by
  obtain ⟨ds, hds, hlt, hne, hval⟩ := toDigits_eq hb n
  have hlen : b = 10 → ds.length ≤ maxDecimalDigits := by
    rintro rfl
    have hdigits := (Nat.length_toDigits_le_iff hb (by decide)).mpr (hlimit rfl)
    rwa [hds, List.length_map] at hdigits
  rw [hds, intBase_digitChars hb' hne hlt hlen, hval]

/-! ### Numbers of a width -/

/-- `f'{n:0{width}d}'`. -/
def zeroPadded (width n : ℕ) : String := String.ofList ((Nat.toDigits 10 n).leftpad width '0')

/-- The last digits of a number, as many as the width. -/
def fixedDigits : ℕ → ℕ → List ℕ
  | 0, _ => []
  | w + 1, n => fixedDigits w (n / 10) ++ [n % 10]

theorem div_ten_lt {w n : ℕ} (h : n < 10 ^ (w + 1)) : n / 10 < 10 ^ w := by
  rw [pow_succ] at h
  exact Nat.div_lt_of_lt_mul (by rwa [Nat.mul_comm])

theorem fixedDigits_succ (w n : ℕ) : fixedDigits (w + 1) n = fixedDigits w (n / 10) ++ [n % 10] := rfl

theorem fixedDigits_length : ∀ w n, (fixedDigits w n).length = w
  | 0, _ => rfl
  | w + 1, n => by rw [fixedDigits, List.length_append, fixedDigits_length w, List.length_singleton]

theorem fixedDigits_lt : ∀ {w n d}, d ∈ fixedDigits w n → d < 10
  | w + 1, n, d, h => by
    rcases List.mem_append.mp h with h | h
    · exact fixedDigits_lt h
    · rw [List.mem_singleton.mp h]
      exact Nat.mod_lt _ (by decide)

theorem fixedDigits_zero : ∀ w, fixedDigits w 0 = List.replicate w 0
  | 0 => rfl
  | w + 1 => by rw [fixedDigits, Nat.zero_div, fixedDigits_zero w, Nat.zero_mod, ← List.replicate_succ']

/-- The digits are those of the number. -/
theorem fixedDigits_value : ∀ {w n}, n < 10 ^ w → (fixedDigits w n).foldl (fun n d => 10 * n + d) 0 = n
  | 0, n, h => by
    rw [pow_zero, Nat.lt_one_iff] at h
    rw [h]
    rfl
  | w + 1, n, h => by
    rw [fixedDigits, List.foldl_append, fixedDigits_value (div_ten_lt h), List.foldl_cons, List.foldl_nil, Nat.div_add_mod]

theorem leftpad_append_singleton {α : Type} (w : ℕ) (a x : α) (l : List α) :
    (l ++ [x]).leftpad (w + 1) a = l.leftpad w a ++ [x] := by
  simp [List.leftpad]

theorem leftpad_digits : ∀ {w n : ℕ}, n < 10 ^ (w + 1) →
    (Nat.toDigits 10 n).leftpad (w + 1) '0' = (fixedDigits (w + 1) n).map Nat.digitChar
  | 0, n, h => by
    rw [zero_add, pow_one] at h
    rw [Nat.toDigits_of_lt_base h]
    simp [fixedDigits, Nat.mod_eq_of_lt h, List.leftpad]
  | w + 1, n, h => by
    by_cases hn : n < 10
    · rw [Nat.toDigits_of_lt_base hn, fixedDigits, Nat.div_eq_of_lt hn, fixedDigits_zero, Nat.mod_eq_of_lt hn]
      simp [List.leftpad]
    · rw [Nat.toDigits_of_base_le (by decide) (Nat.not_lt.mp hn), leftpad_append_singleton,
        leftpad_digits (div_ten_lt h), fixedDigits_succ (w + 1), List.map_append, List.map_singleton]

/-- A number that fits is written in exactly the width. -/
theorem zeroPadded_eq {w n : ℕ} (h : n < 10 ^ (w + 1)) :
    (zeroPadded (w + 1) n).toList = (fixedDigits (w + 1) n).map Nat.digitChar := by
  rw [zeroPadded, String.toList_ofList, leftpad_digits h]

/-- Lists of one length are in order as soon as their beginnings are. -/
theorem append_lt_append {l₁ l₂ : List Char} (h : l₁ < l₂) (hlen : l₁.length = l₂.length) (a b : List Char) :
    l₁ ++ a < l₂ ++ b := by
  induction h with
  | nil => cases hlen
  | rel h => exact List.Lex.rel h
  | cons _ ih => exact List.Lex.cons (ih (Nat.succ.inj hlen))

theorem digitChar_lt {a b : ℕ} (h : a < b) (hb : b < 10) : Nat.digitChar a < Nat.digitChar b := by
  have hall : ∀ b < 10, ∀ a < b, Nat.digitChar a < Nat.digitChar b := by decide
  exact hall b hb a h

/-- Numbers of one width are in order as their digits are. -/
theorem fixedDigits_mono : ∀ {w m n}, m < n → n < 10 ^ w →
    (fixedDigits w m).map Nat.digitChar < (fixedDigits w n).map Nat.digitChar
  | 0, m, n, h, hn => by
    rw [pow_zero] at hn
    omega
  | w + 1, m, n, h, hn => by
    rw [fixedDigits, fixedDigits, List.map_append, List.map_append]
    rcases Nat.lt_or_ge (m / 10) (n / 10) with hlt | hge
    · exact append_lt_append (fixedDigits_mono hlt (div_ten_lt hn)) (by simp [fixedDigits_length]) _ _
    · have hsame : m / 10 = n / 10 := by omega
      rw [hsame]
      exact List.append_left_lt (List.Lex.rel (digitChar_lt (by omega) (by omega)))

end FlexyVotes
