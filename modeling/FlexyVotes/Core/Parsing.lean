/-
# Reading JSON

`json.loads`, with `parseFloat` for what `float` makes of a numeral: blanks
between tokens, escapes and surrogate pairs in strings, `NaN` and the
infinities, and a repeated key of an object that keeps its first place and
takes the last value. A lone surrogate, which a Lean string cannot hold, is
read as the replacement character.

What `canonicalJson` writes is read back with the members of every object in
the order of their keys (`loads_canonicalJson`), where no object has a key
twice and the finite floats are read as they are written. So equal encodings
are encodings of values that are equal up to that order
(`canonicalJson_inj`).

Key definitions: `Json.loads`, `Json.norm`, `Json.Sound`.
Key theorems: `Json.loads_canonicalJson`, `Json.canonicalJson_inj`.
-/
import FlexyVotes.Core.Json
import FlexyVotes.Core.Merkle
import Mathlib.Data.List.TakeWhile

namespace FlexyVotes

namespace Json

/-! ### Tokens -/

def isBlank (c : Char) : Bool := c = ' ' || c = '\t' || c = '\n' || c = '\r'

def skip (cs : List Char) : List Char := cs.dropWhile isBlank

/-- The number of four hex digits. -/
def hex4 (a b c d : Char) : Option ℕ := do
  let w ← hexValue a
  let x ← hexValue b
  let y ← hexValue c
  let z ← hexValue d
  return 16 * (16 * (16 * w + x) + y) + z

/-- What a one-letter escape stands for. -/
def unescape (c : Char) : Option Char :=
  if c = '"' ∨ c = '\\' ∨ c = '/' then some c
  else if c = 'n' then some '\n'
  else if c = 'r' then some '\r'
  else if c = 't' then some '\t'
  else if c = 'b' then some (Char.ofNat 8)
  else if c = 'f' then some (Char.ofNat 12)
  else none

/-- A code point that is no surrogate. -/
def codePoint (n : ℕ) : Char := if n.isValidChar then Char.ofNat n else '\uFFFD'

/-- The character of an escape with the number `hi`: two of them make one
character outside the basic plane. -/
def unicodeEscape (hi : ℕ) (cs : List Char) : Char × List Char :=
  match cs with
  | '\\' :: 'u' :: a :: b :: c :: d :: rest =>
    match hex4 a b c d with
    | some lo =>
      if 0xD800 ≤ hi ∧ hi < 0xDC00 ∧ 0xDC00 ≤ lo ∧ lo < 0xE000 then
        (codePoint (0x10000 + (hi - 0xD800) * 0x400 + (lo - 0xDC00)), rest)
      else (codePoint hi, cs)
    | none => (codePoint hi, cs)
  | _ => (codePoint hi, cs)

/-- An escape after its backslash. -/
def scanEscape : List Char → Option (Char × List Char)
  | 'u' :: a :: b :: c :: d :: cs => (hex4 a b c d).map fun n => unicodeEscape n cs
  | e :: cs => (unescape e).map fun x => (x, cs)
  | [] => none

/-- The rest of a string after its opening quote, and what follows the string. -/
def scanString : ℕ → List Char → Option (List Char × List Char)
  | 0, _ => none
  | _ + 1, [] => none
  | fuel + 1, c :: cs =>
    if c = '"' then some ([], cs)
    else if c = '\\' then
      match scanEscape cs with
      | some (x, cs) => (scanString fuel cs).map fun p => (x :: p.1, p.2)
      | none => none
    else if c.toNat < 32 then none
    else (scanString fuel cs).map fun p => (c :: p.1, p.2)

/-- The characters a numeral is made of. -/
def isNumeral (c : Char) : Bool := c.isDigit || c = '-' || c = '+' || c = '.' || c = 'e' || c = 'E'

/-- Nothing, or an exponent. -/
def isExponent : List Char → Bool
  | [] => true
  | c :: cs =>
    let ds := match cs with
      | '+' :: cs => cs
      | '-' :: cs => cs
      | cs => cs
    (c = 'e' || c = 'E') && !ds.isEmpty && ds.all Char.isDigit

/-- What follows the digits of a float: a fraction, an exponent or both. -/
def isFraction : List Char → Bool
  | '.' :: cs => !(cs.takeWhile Char.isDigit).isEmpty && isExponent (cs.dropWhile Char.isDigit)
  | cs => isExponent cs

variable (parseFloat : String → PyFloat)

/-- The number a numeral `cs` stands for, after its sign. -/
def readDigits (cs : List Char) (sign : ℤ) (ds : List Char) : Option Json :=
  let digits := ds.takeWhile Char.isDigit
  let rest := ds.dropWhile Char.isDigit
  if digits.isEmpty || (digits.head? == some '0' && digits.length != 1) then none
  else if rest.isEmpty then some (.int (sign * Nat.ofDigitChars 10 digits 0))
  else if isFraction rest then some (.float (parseFloat (String.ofList cs)))
  else none

/-- The number a numeral stands for. -/
def readNumber : List Char → Option Json
  | '-' :: ds => readDigits parseFloat ('-' :: ds) (-1) ds
  | ds => readDigits parseFloat ds 1 ds

/-- A number at the front of a text. -/
def scanNumber (cs : List Char) : Option (Json × List Char) :=
  (readNumber parseFloat (cs.takeWhile isNumeral)).map fun j => (j, cs.dropWhile isNumeral)

/-! ### Values -/

/-- Setting a key of a `dict`: a key it has keeps its place. -/
def setKey (kvs : List (String × Json)) (key : String) (value : Json) : List (String × Json) :=
  if kvs.any fun p => p.1 == key then kvs.map fun p => if p.1 == key then (key, value) else p
  else kvs ++ [(key, value)]

mutual
/-- The value at the front of a text, and what follows it. -/
def scanValue : ℕ → List Char → Option (Json × List Char)
  | 0, _ => none
  | fuel + 1, cs =>
    match cs with
    | '"' :: cs => (scanString (cs.length + 1) cs).map fun p => (.str (String.ofList p.1), p.2)
    | '[' :: cs =>
      match skip cs with
      | ']' :: cs => some (.arr [], cs)
      | cs => (scanItems fuel cs).map fun p => (.arr p.1, p.2)
    | '\x7b' :: cs =>
      match skip cs with
      | '\x7d' :: cs => some (.obj [], cs)
      | cs => (scanMembers fuel [] cs).map fun p => (.obj p.1, p.2)
    | 'n' :: 'u' :: 'l' :: 'l' :: cs => some (.null, cs)
    | 't' :: 'r' :: 'u' :: 'e' :: cs => some (.bool true, cs)
    | 'f' :: 'a' :: 'l' :: 's' :: 'e' :: cs => some (.bool false, cs)
    | 'N' :: 'a' :: 'N' :: cs => some (.float .nan, cs)
    | 'I' :: 'n' :: 'f' :: 'i' :: 'n' :: 'i' :: 't' :: 'y' :: cs => some (.float (.inf false), cs)
    | '-' :: 'I' :: 'n' :: 'f' :: 'i' :: 'n' :: 'i' :: 't' :: 'y' :: cs => some (.float (.inf true), cs)
    | cs => scanNumber parseFloat cs

/-- The items of an array up to its end. -/
def scanItems : ℕ → List Char → Option (List Json × List Char)
  | 0, _ => none
  | fuel + 1, cs =>
    match scanValue fuel cs with
    | none => none
    | some (x, cs) =>
      match skip cs with
      | ',' :: cs => (scanItems fuel (skip cs)).map fun p => (x :: p.1, p.2)
      | ']' :: cs => some ([x], cs)
      | _ => none

/-- The members of an object up to its end, after those read so far. -/
def scanMembers : ℕ → List (String × Json) → List Char → Option (List (String × Json) × List Char)
  | 0, _, _ => none
  | fuel + 1, kvs, cs =>
    match cs with
    | '"' :: cs =>
      match scanString (cs.length + 1) cs with
      | none => none
      | some (key, cs) =>
        match skip cs with
        | ':' :: cs =>
          match scanValue fuel (skip cs) with
          | none => none
          | some (value, cs) =>
            match skip cs with
            | ',' :: cs => scanMembers fuel (setKey kvs (String.ofList key) value) (skip cs)
            | '\x7d' :: cs => some (setKey kvs (String.ofList key) value, cs)
            | _ => none
        | _ => none
    | _ => none
end

/-- `json.loads`; nothing is a `JSONDecodeError`. -/
def loads (text : String) : Option Json :=
  match scanValue parseFloat (text.toList.length + 1) (skip text.toList) with
  | some (j, rest) => if (skip rest).isEmpty then some j else none
  | none => none

/-! ### Values that are read back -/

/-- Members in the order of their keys. -/
def sortMembers (kvs : List (String × Json)) : List (String × Json) := kvs.insertionSort fun a b => a.1 ≤ b.1

mutual
/-- A value with the members of every object in the order of their keys. -/
def norm : Json → Json
  | .arr xs => .arr (normItems xs)
  | .obj kvs => .obj (sortMembers (normMembers kvs))
  | j => j

def normItems : List Json → List Json
  | [] => []
  | x :: xs => norm x :: normItems xs

def normMembers : List (String × Json) → List (String × Json)
  | [] => []
  | (k, v) :: kvs => (k, norm v) :: normMembers kvs
end

mutual
/-- No object has a key twice, and the finite floats are read as they are
written. -/
def Sound : Json → Prop
  | .float (.finite n r) => scanNumber parseFloat r.toList = some (.float (.finite n r), [])
  | .arr xs => SoundItems xs
  | .obj kvs => (kvs.map (·.1)).Nodup ∧ SoundMembers kvs
  | _ => True

def SoundItems : List Json → Prop
  | [] => True
  | x :: xs => Sound x ∧ SoundItems xs

def SoundMembers : List (String × Json) → Prop
  | [] => True
  | (_, v) :: kvs => Sound v ∧ SoundMembers kvs
end

variable {parseFloat}

/-! ### Strings -/

theorem scanString_escaped {fuel : ℕ} {x : Char} {esc cs : List Char} (h : scanEscape esc = some (x, cs)) :
    scanString (fuel + 1) ('\\' :: esc) = (scanString fuel cs).map fun p => (x :: p.1, p.2) := by
  rw [scanString, if_neg (by decide), if_pos rfl, h]

/-- An escape below the surrogates is a character. -/
theorem unicodeEscape_of_lt {hi : ℕ} (h : hi < 0xD800) (cs : List Char) :
    unicodeEscape hi cs = (codePoint hi, cs) := by
  unfold unicodeEscape
  split
  · split
    · rw [if_neg (by omega)]
    · rfl
  · rfl

/-- The escapes of the control characters. -/
theorem hex4_control : ∀ n < 32, hex4 '0' '0' (if n < 16 then '0' else '1') (Nat.digitChar (n % 16)) = some n ∧
    (codePoint n).toNat = n := by
  decide

theorem scanString_escape (fuel : ℕ) (c : Char) (cs : List Char) :
    scanString (fuel + 1) ((escape c).toList ++ cs) = (scanString fuel cs).map fun p => (c :: p.1, p.2) := by
  unfold escape
  by_cases hctl : c.toNat < 32
  · by_cases hn : c = '\n' ∨ c = '\r' ∨ c = '\t' ∨ c.toNat = 8 ∨ c.toNat = 12
    · have heq : c = '\n' ∨ c = '\r' ∨ c = '\t' ∨ c = Char.ofNat 8 ∨ c = Char.ofNat 12 := by
        rcases hn with h | h | h | h | h
        · exact .inl h
        · exact .inr (.inl h)
        · exact .inr (.inr (.inl h))
        · exact .inr (.inr (.inr (.inl (by rw [← h, Char.ofNat_toNat]))))
        · exact .inr (.inr (.inr (.inr (by rw [← h, Char.ofNat_toNat]))))
      rcases heq with rfl | rfl | rfl | rfl | rfl <;> rfl
    · obtain ⟨hhex, hval⟩ := hex4_control c.toNat hctl
      have hc : codePoint c.toNat = c := Char.toNat_inj.mp hval
      have hquote : c ≠ '"' ∧ c ≠ '\\' := ⟨by rintro rfl; contradiction, by rintro rfl; contradiction⟩
      push Not at hn
      obtain ⟨h1, h2, h3, h4, h5⟩ := hn
      rw [if_neg hquote.1, if_neg hquote.2, if_neg h1, if_neg h2, if_neg h3, if_neg h4, if_neg h5, if_pos hctl]
      have htext : ("\\u00" ++ (if c.toNat < 16 then "0" else "1") ++
          String.ofList [Nat.digitChar (c.toNat % 16)]).toList ++ cs =
            '\\' :: 'u' :: '0' :: '0' :: (if c.toNat < 16 then '0' else '1') ::
              Nat.digitChar (c.toNat % 16) :: cs := by
        split_ifs <;> simp
      rw [htext, scanString_escaped]
      rw [scanEscape, hhex, Option.map_some, unicodeEscape_of_lt (by omega), hc]
  · by_cases hquote : c = '"' ∨ c = '\\'
    · rcases hquote with rfl | rfl <;> rfl
    · push Not at hquote
      obtain ⟨h1, h2⟩ := hquote
      have hsmall : ∀ n < 32, c.toNat ≠ n := fun n hn h => hctl (h ▸ hn)
      have hval : ∀ n < 32, (Char.ofNat n).toNat = n := by decide
      have hne : ∀ n < 32, c ≠ Char.ofNat n := fun n hn h => hsmall n hn (by rw [h, hval n hn])
      rw [if_neg h1, if_neg h2, if_neg (hne 10 (by decide)), if_neg (hne 13 (by decide)),
        if_neg (hne 9 (by decide)), if_neg (hsmall 8 (by decide)), if_neg (hsmall 12 (by decide)), if_neg hctl,
        String.toList_ofList, List.singleton_append, scanString, if_neg h1, if_neg h2, if_neg hctl]

/-- A string is read up to its closing quote. -/
theorem scanString_text : ∀ (s : List Char) (fuel : ℕ) (rest : List Char), s.length < fuel →
    scanString fuel (s.flatMap (fun c => (escape c).toList) ++ '"' :: rest) = some (s, rest)
  | [], fuel + 1, rest, _ => rfl
  | c :: s, fuel + 1, rest, h => by
    rw [List.flatMap_cons, List.append_assoc, scanString_escape,
      scanString_text s fuel rest (by simpa using h), Option.map_some]

theorem escape_ne_nil (c : Char) : (escape c).toList ≠ [] := by
  unfold escape
  split_ifs <;> simp

theorem length_le_text : ∀ s : List Char, s.length ≤ (s.flatMap fun c => (escape c).toList).length
  | [] => le_rfl
  | c :: s => by
    have hc := List.length_pos_of_ne_nil (escape_ne_nil c)
    have ih := length_le_text s
    rw [List.flatMap_cons, List.length_append, List.length_cons]
    omega

theorem toList_quote (s : String) :
    (quote s).toList = '"' :: (s.toList.flatMap (fun c => (escape c).toList) ++ ['"']) := by
  unfold quote
  rw [String.toList_append, String.toList_append, String.toList_join, List.flatMap_map]
  rfl

theorem scanString_quote (s : String) (rest : List Char) :
    ∃ cs, (quote s).toList ++ rest = '"' :: cs ∧ scanString (cs.length + 1) cs = some (s.toList, rest) := by
  refine ⟨s.toList.flatMap (fun c => (escape c).toList) ++ '"' :: rest, ?_, ?_⟩
  · rw [toList_quote, List.cons_append, List.append_assoc, List.singleton_append]
  · refine scanString_text _ _ _ ?_
    have h := length_le_text s.toList
    rw [List.length_append]
    omega

/-! ### Numbers -/

/-- A text no numeral goes on with. -/
def Ends (rest : List Char) : Prop := ∀ c ∈ rest.head?, isNumeral c = false

theorem scanNumber_append {cs rest : List Char} {j : Json} (h : scanNumber parseFloat cs = some (j, []))
    (hrest : Ends rest) : scanNumber parseFloat (cs ++ rest) = some (j, rest) := by
  unfold scanNumber at h ⊢
  obtain ⟨j', hj, heq⟩ := Option.map_eq_some_iff.mp h
  obtain ⟨rfl, hdrop⟩ := Prod.mk.inj heq
  have hall : ∀ c ∈ cs, isNumeral c = true := List.dropWhile_eq_nil_iff.mp hdrop
  have htake : rest.takeWhile isNumeral = [] ∧ rest.dropWhile isNumeral = rest := by
    cases rest with
    | nil => exact ⟨rfl, rfl⟩
    | cons c rest =>
      have hc := hrest c rfl
      rw [List.takeWhile_cons, List.dropWhile_cons, hc]
      exact ⟨rfl, rfl⟩
  rw [List.takeWhile_append_of_pos hall, List.dropWhile_append_of_pos hall, htake.1, htake.2, List.append_nil]
  have hself : cs.takeWhile isNumeral = cs := List.takeWhile_eq_self_iff.mpr hall
  rw [hself] at hj
  rw [hj, Option.map_some]

/-- A number that is not 0 has no leading 0. -/
theorem head_toDigits : ∀ n : ℕ, 0 < n → (Nat.toDigits 10 n).head? ≠ some '0' := by
  intro n
  induction n using Nat.strong_induction_on with
  | _ n ih =>
    intro hpos
    by_cases hsmall : n < 10
    · have : ∀ m < 10, 0 < m → (Nat.toDigits 10 m).head? ≠ some '0' := by decide
      exact this n hsmall hpos
    · rw [Nat.toDigits_of_base_le (by decide) (by omega)]
      have hne := Nat.toDigits_ne_nil (n := n / 10) (b := 10)
      rw [List.head?_append_of_ne_nil _ hne]
      exact ih (n / 10) (by omega) (by omega)

theorem readDigits_toDigits (cs : List Char) (sign : ℤ) (n : ℕ) :
    readDigits parseFloat cs sign (Nat.toDigits 10 n) = some (.int (sign * n)) := by
  have hdigit : ∀ c ∈ Nat.toDigits 10 n, c.isDigit :=
    fun c hc => Nat.isDigit_of_mem_toDigits (by decide) (by decide) hc
  have htake : (Nat.toDigits 10 n).takeWhile Char.isDigit = Nat.toDigits 10 n := List.takeWhile_eq_self_iff.mpr hdigit
  have hdrop : (Nat.toDigits 10 n).dropWhile Char.isDigit = [] := List.dropWhile_eq_nil_iff.mpr hdigit
  have hlead : ((Nat.toDigits 10 n).isEmpty || ((Nat.toDigits 10 n).head? == some '0' &&
      (Nat.toDigits 10 n).length != 1)) = false := by
    rcases Nat.eq_zero_or_pos n with rfl | hpos
    · rfl
    · have h := head_toDigits n hpos
      have hne := Nat.toDigits_ne_nil (n := n) (b := 10)
      simp [h, hne]
  unfold readDigits
  dsimp only
  rw [htake, hdrop, hlead, Nat.ofDigitChars_ten_toDigits]
  rfl

theorem scanNumber_int (n : ℤ) : scanNumber parseFloat (toString n).toList = some (.int n, []) := by
  have hnum : ∀ m : ℕ, ∀ c ∈ Nat.toDigits 10 m, isNumeral c := fun m c hc => by
    have := Nat.isDigit_of_mem_toDigits (by decide) (by decide) hc
    simp [isNumeral, this]
  have hself : ∀ cs : List Char, (∀ c ∈ cs, isNumeral c) →
      scanNumber parseFloat cs = (readNumber parseFloat cs).map fun j => (j, []) := fun cs h => by
    have htake : cs.takeWhile isNumeral = cs := List.takeWhile_eq_self_iff.mpr h
    have hdrop : cs.dropWhile isNumeral = [] := List.dropWhile_eq_nil_iff.mpr h
    rw [scanNumber, htake, hdrop]
  cases n with
  | ofNat m =>
    have htext : (toString (Int.ofNat m)).toList = Nat.toDigits 10 m := Nat.toList_repr
    have hread : readNumber parseFloat (Nat.toDigits 10 m) = some (.int m) := by
      unfold readNumber
      split
      · rename_i ds heq
        have := Nat.isDigit_of_mem_toDigits (b := 10) (n := m) (c := '-') (by decide) (by decide) (by rw [heq]; simp)
        contradiction
      · rw [readDigits_toDigits, Int.one_mul]
    rw [htext, hself _ (hnum m), hread]
    rfl
  | negSucc m =>
    have htext : (toString (Int.negSucc m)).toList = '-' :: Nat.toDigits 10 (m + 1) := by
      show ("-" ++ Nat.repr (m + 1)).toList = _
      rw [String.toList_append, Nat.toList_repr]
      rfl
    have hneg : ∀ c ∈ '-' :: Nat.toDigits 10 (m + 1), isNumeral c := by
      intro c hc
      rcases List.mem_cons.mp hc with rfl | hc
      · rfl
      · exact hnum _ c hc
    rw [htext, hself _ hneg, readNumber, readDigits_toDigits, Int.neg_one_mul]
    rfl

/-! ### Values -/

/-- What a numeral is read as. -/
theorem scanValue_number {fuel : ℕ} {cs rest : List Char} {j : Json}
    (h : scanNumber parseFloat cs = some (j, rest)) : scanValue parseFloat (fuel + 1) cs = some (j, rest) := by
  have hother : ∀ c cs', cs = c :: cs' → isNumeral c = false → False := by
    rintro c cs' rfl hc
    rw [scanNumber, List.takeWhile_cons, hc] at h
    cases h
  unfold scanValue
  split
  · exact (hother _ _ rfl rfl).elim
  · exact (hother _ _ rfl rfl).elim
  · exact (hother _ _ rfl rfl).elim
  · exact (hother _ _ rfl rfl).elim
  · exact (hother _ _ rfl rfl).elim
  · exact (hother _ _ rfl rfl).elim
  · exact (hother _ _ rfl rfl).elim
  · exact (hother _ _ rfl rfl).elim
  · cases h
  · exact h

/-- A value's text starts with a character that is no blank and closes nothing. -/
theorem head_canonicalJson {j : Json} (hj : Sound parseFloat j) :
    ∃ c cs, (canonicalJson j).toList = c :: cs ∧ isBlank c = false ∧ c ≠ ']' := by
  have hnumber : ∀ (text : String) {x : Json}, scanNumber parseFloat text.toList = some (x, []) →
      ∃ c cs, text.toList = c :: cs ∧ isBlank c = false ∧ c ≠ ']' := by
    intro text x h
    cases htext : text.toList with
    | nil =>
      rw [htext] at h
      cases h
    | cons c cs =>
      have hc : isNumeral c = true := by
        by_contra hc
        rw [htext, scanNumber, List.takeWhile_cons, if_neg hc] at h
        cases h
      refine ⟨c, cs, rfl, ?_, ?_⟩
      · unfold isBlank
        by_contra hb
        simp only [Bool.not_eq_false, Bool.or_eq_true, decide_eq_true_eq, or_assoc] at hb
        rcases hb with rfl | rfl | rfl | rfl <;> contradiction
      · rintro rfl
        contradiction
  cases j with
  | null => exact ⟨'n', _, rfl, rfl, by decide⟩
  | bool b =>
    cases b with
    | true => exact ⟨'t', _, rfl, rfl, by decide⟩
    | false => exact ⟨'f', _, rfl, rfl, by decide⟩
  | int n => exact hnumber (toString n) (scanNumber_int n)
  | float x =>
    cases x with
    | finite n r => exact hnumber r hj
    | nan => exact ⟨'N', _, rfl, rfl, by decide⟩
    | inf neg =>
      cases neg with
      | true => exact ⟨'-', _, rfl, rfl, by decide⟩
      | false => exact ⟨'I', _, rfl, rfl, by decide⟩
  | str s => exact ⟨'"', _, toList_quote s, rfl, by decide⟩
  | arr xs =>
    refine ⟨'[', (",".intercalate (canonicalItems xs)).toList ++ [']'], ?_, rfl, by decide⟩
    rw [canonicalJson, String.toList_append, String.toList_append]
    rfl
  | obj kvs =>
    refine ⟨'\x7b', (",".intercalate ((sortKeys (canonicalMembers kvs)).map fun p =>
      quote p.1 ++ ":" ++ p.2)).toList ++ ['\x7d'], ?_, rfl, by decide⟩
    rw [canonicalJson, String.toList_append, String.toList_append]
    rfl

/-- Induction over values: an array from its items, an object from the values
of its members. -/
theorem induct {Q : Json → Prop} (null : Q .null) (bool : ∀ b, Q (.bool b)) (int : ∀ n, Q (.int n))
    (float : ∀ x, Q (.float x)) (str : ∀ s, Q (.str s)) (items : ∀ xs, (∀ x ∈ xs, Q x) → Q (.arr xs))
    (members : ∀ kvs, (∀ p ∈ kvs, Q p.2) → Q (.obj kvs)) : ∀ j, Q j
  | .null => null
  | .bool b => bool b
  | .int n => int n
  | .float x => float x
  | .str s => str s
  | .arr xs => items xs fun x _ => induct null bool int float str items members x
  | .obj kvs => members kvs fun p _ => induct null bool int float str items members p.2
termination_by j => sizeOf j
decreasing_by
  · rename_i h
    have := List.sizeOf_lt_of_mem h
    rw [arr.sizeOf_spec]
    omega
  · rename_i h
    have := List.sizeOf_lt_of_mem h
    cases p
    rw [obj.sizeOf_spec]
    rw [Prod.mk.sizeOf_spec] at this
    dsimp only
    omega

theorem normItems_eq_map : ∀ xs, normItems xs = xs.map norm
  | [] => rfl
  | x :: xs => by rw [normItems, normItems_eq_map xs, List.map_cons]

theorem normMembers_eq_map : ∀ kvs, normMembers kvs = kvs.map fun p => (p.1, norm p.2)
  | [] => rfl
  | (k, v) :: kvs => by rw [normMembers, normMembers_eq_map kvs, List.map_cons]

theorem canonicalItems_eq_map : ∀ xs, canonicalItems xs = xs.map canonicalJson
  | [] => rfl
  | x :: xs => by rw [canonicalItems, canonicalItems_eq_map xs, List.map_cons]

theorem canonicalMembers_eq_map : ∀ kvs, canonicalMembers kvs = kvs.map fun p => (p.1, canonicalJson p.2)
  | [] => rfl
  | (k, v) :: kvs => by rw [canonicalMembers, canonicalMembers_eq_map kvs, List.map_cons]

theorem soundItems_iff : ∀ xs, SoundItems parseFloat xs ↔ ∀ x ∈ xs, Sound parseFloat x
  | [] => by simp [SoundItems]
  | x :: xs => by rw [SoundItems, soundItems_iff xs, List.forall_mem_cons]

theorem soundMembers_iff : ∀ kvs, SoundMembers parseFloat kvs ↔ ∀ p ∈ kvs, Sound parseFloat p.2
  | [] => by simp [SoundMembers]
  | (k, v) :: kvs => by rw [SoundMembers, soundMembers_iff kvs, List.forall_mem_cons]

/-- Sorting by key does not look at the values. -/
theorem sort_map {α : Type} (g : Json → α) (kvs : List (String × Json)) :
    (kvs.map fun p => (p.1, g p.2)).insertionSort (fun a b => a.1 ≤ b.1) =
      (sortMembers kvs).map fun p => (p.1, g p.2) :=
  (List.map_insertionSort _ _ (fun p : String × Json => (p.1, g p.2)) kvs fun _ _ _ _ => Iff.rfl).symm

theorem norm_obj (kvs : List (String × Json)) :
    norm (.obj kvs) = .obj ((sortMembers kvs).map fun p => (p.1, norm p.2)) := by
  rw [norm, normMembers_eq_map, sortMembers, sort_map]

theorem mem_sortMembers {kvs : List (String × Json)} {p : String × Json} : p ∈ sortMembers kvs ↔ p ∈ kvs :=
  List.mem_insertionSort _

/-! ### The text of a value -/

def text (j : Json) : List Char := (canonicalJson j).toList

def memberText (p : String × Json) : List Char := (quote p.1).toList ++ ':' :: text p.2

theorem text_arr (xs : List Json) : text (.arr xs) = '[' :: ([','].intercalate (xs.map text) ++ [']']) := by
  rw [text, canonicalJson, String.toList_append, String.toList_append, String.toList_intercalate,
    canonicalItems_eq_map, List.map_map]
  rfl

theorem text_obj (kvs : List (String × Json)) :
    text (.obj kvs) = '\x7b' :: ([','].intercalate ((sortMembers kvs).map memberText) ++ ['\x7d']) := by
  have hsort : sortKeys (canonicalMembers kvs) = (sortMembers kvs).map fun p => (p.1, canonicalJson p.2) := by
    rw [sortKeys, canonicalMembers_eq_map, sort_map]
  have hmember : (fun p : String × Json => ((quote p.1 ++ ":") ++ canonicalJson p.2).toList) = memberText := by
    funext p
    rw [memberText, String.toList_append, String.toList_append, List.append_assoc]
    rfl
  rw [text, canonicalJson, String.toList_append, String.toList_append, String.toList_intercalate, hsort,
    List.map_map, List.map_map]
  show _ :: (_ ++ _) = _
  rw [← hmember]
  rfl

theorem text_cons {j : Json} (hj : Sound parseFloat j) :
    ∃ c cs, text j = c :: cs ∧ isBlank c = false ∧ c ≠ ']' := head_canonicalJson hj

theorem skip_cons {c : Char} {cs : List Char} (h : isBlank c = false) : skip (c :: cs) = c :: cs := by
  rw [skip, List.dropWhile_cons, h]
  rfl

theorem skip_text {j : Json} (hj : Sound parseFloat j) (rest : List Char) : skip (text j ++ rest) = text j ++ rest := by
  obtain ⟨c, cs, htext, hc, -⟩ := text_cons hj
  rw [htext, List.cons_append, skip_cons hc]

theorem items_cons {x : Json} (hx : Sound parseFloat x) (xs : List Json) :
    ∃ c cs, [','].intercalate ((x :: xs).map text) = c :: cs ∧ isBlank c = false ∧ c ≠ ']' := by
  obtain ⟨c, cs, htext, hc⟩ := text_cons hx
  cases xs with
  | nil => exact ⟨c, cs, by rw [List.map_cons, List.map_nil, List.intercalate_singleton, htext], hc⟩
  | cons y ys => exact ⟨c, _, by rw [List.map_cons, List.map_cons, List.intercalate_cons_cons, htext]; rfl, hc⟩

theorem members_cons (p : String × Json) (kvs : List (String × Json)) :
    ∃ cs, [','].intercalate ((p :: kvs).map memberText) = '"' :: cs := by
  obtain ⟨cs, hcs⟩ : ∃ cs, memberText p = '"' :: cs := ⟨_, by rw [memberText, toList_quote, List.cons_append]⟩
  cases kvs with
  | nil => exact ⟨cs, by rw [List.map_cons, List.map_nil, List.intercalate_singleton, hcs]⟩
  | cons q kvs => exact ⟨_, by rw [List.map_cons, List.map_cons, List.intercalate_cons_cons, hcs]; rfl⟩

/-! ### The round trip -/

variable (parseFloat) in
/-- The text of `j` is read back from the front of any text. -/
def Reads (j : Json) : Prop :=
  Sound parseFloat j → ∀ fuel rest, (text j).length ≤ fuel → Ends rest →
    scanValue parseFloat fuel (text j ++ rest) = some (norm j, rest)

/-- The items of an array are read one after another; the induction is on
those after the first. -/
theorem scanItems_text : ∀ (xs : List Json) (x : Json), (∀ y ∈ x :: xs, Reads parseFloat y ∧ Sound parseFloat y) →
    ∀ fuel rest, ([','].intercalate ((x :: xs).map text)).length + 1 ≤ fuel →
      scanItems parseFloat fuel ([','].intercalate ((x :: xs).map text) ++ ']' :: rest) =
        some ((x :: xs).map norm, rest)
  | [], x, hxs, fuel + 1, rest, hfuel => by
    obtain ⟨hread, hsound⟩ := hxs x (by simp)
    have hlast : [','].intercalate ([x].map text) = text x := by simp
    rw [hlast] at hfuel ⊢
    rw [scanItems, hread hsound fuel (']' :: rest) (by omega) (by rintro c ⟨⟩; rfl)]
    rfl
  | y :: ys, x, hxs, fuel + 1, rest, hfuel => by
    obtain ⟨hread, hsound⟩ := hxs x (by simp)
    have hmore : [','].intercalate ((x :: y :: ys).map text) =
        text x ++ ',' :: [','].intercalate ((y :: ys).map text) := by
      rw [List.map_cons, List.map_cons, List.intercalate_cons_cons, List.append_assoc]
      rfl
    rw [hmore, List.length_append, List.length_cons] at hfuel
    have hnext := scanItems_text ys y (fun z hz => hxs z (List.mem_cons_of_mem _ hz)) fuel rest (by omega)
    have hskip : skip ([','].intercalate ((y :: ys).map text) ++ ']' :: rest) =
        [','].intercalate ((y :: ys).map text) ++ ']' :: rest := by
      obtain ⟨c, cs, hcs, hc, -⟩ := items_cons (hxs y (by simp)).2 ys
      rw [hcs, List.cons_append, skip_cons hc]
    rw [hmore, List.append_assoc, scanItems, hread hsound fuel _ (by omega) (by rintro c ⟨⟩; rfl)]
    show (scanItems parseFloat fuel (skip (_ ++ _))).map _ = _
    rw [hskip, hnext]
    rfl

theorem setKey_fresh {kvs : List (String × Json)} {key : String} (h : key ∉ kvs.map (·.1)) (value : Json) :
    setKey kvs key value = kvs ++ [(key, value)] := by
  rw [setKey, if_neg]
  intro hany
  obtain ⟨p, hp, heq⟩ := List.any_eq_true.mp hany
  exact h (List.mem_map.mpr ⟨p, hp, by simpa using heq⟩)

/-- The members of an object are read one after another, each under a key that
is new. -/
theorem scanMembers_text : ∀ (kvs : List (String × Json)) (p : String × Json) (acc : List (String × Json)),
    (∀ q ∈ p :: kvs, Reads parseFloat q.2 ∧ Sound parseFloat q.2) →
    (acc.map (·.1) ++ (p :: kvs).map (·.1)).Nodup →
    ∀ fuel rest, ([','].intercalate ((p :: kvs).map memberText)).length + 1 ≤ fuel →
      scanMembers parseFloat fuel acc ([','].intercalate ((p :: kvs).map memberText) ++ '\x7d' :: rest) =
        some (acc ++ (p :: kvs).map fun q => (q.1, norm q.2), rest) := by
  -- one member, and what follows its value
  have hone : ∀ (p : String × Json) (acc : List (String × Json)) (fuel : ℕ) (rest : List Char),
      Reads parseFloat p.2 → Sound parseFloat p.2 → (memberText p).length ≤ fuel → Ends rest →
      scanMembers parseFloat (fuel + 1) acc (memberText p ++ rest) =
        match skip rest with
        | ',' :: cs => scanMembers parseFloat fuel (setKey acc p.1 (norm p.2)) (skip cs)
        | '\x7d' :: cs => some (setKey acc p.1 (norm p.2), cs)
        | _ => none := by
    intro p acc fuel rest hread hsound hfuel hrest
    obtain ⟨cs, hcs, hscan⟩ := scanString_quote p.1 (':' :: (text p.2 ++ rest))
    have hlen : (text p.2).length ≤ fuel := by
      rw [memberText, List.length_append, List.length_cons] at hfuel
      omega
    have htext : memberText p ++ rest = '"' :: cs := by
      rw [memberText, List.append_assoc, List.cons_append, hcs]
    rw [htext, scanMembers, hscan]
    show (match scanValue parseFloat fuel (skip (text p.2 ++ rest)) with
      | none => none
      | some (value, cs) => _) = _
    rw [skip_text hsound, hread hsound fuel rest hlen hrest, String.ofList_toList]
  intro kvs
  induction kvs with
  | nil =>
    intro p acc hp hnodup fuel rest hfuel
    obtain ⟨hread, hsound⟩ := hp p (by simp)
    have hlast : [','].intercalate ([p].map memberText) = memberText p := by simp
    rw [hlast] at hfuel ⊢
    obtain ⟨fuel, rfl⟩ := Nat.exists_eq_add_of_le' (n := fuel) (m := 1) (by omega)
    have hfresh : p.1 ∉ acc.map (·.1) := fun h => (List.disjoint_of_nodup_append hnodup) h (by simp)
    rw [hone p acc fuel _ hread hsound (by omega) (by rintro c ⟨⟩; rfl)]
    show some (setKey acc p.1 (norm p.2), rest) = _
    rw [setKey_fresh hfresh]
    rfl
  | cons q kvs ih =>
    intro p acc hp hnodup fuel rest hfuel
    obtain ⟨hread, hsound⟩ := hp p (by simp)
    have hmore : [','].intercalate ((p :: q :: kvs).map memberText) =
        memberText p ++ ',' :: [','].intercalate ((q :: kvs).map memberText) := by
      rw [List.map_cons, List.map_cons, List.intercalate_cons_cons, List.append_assoc]
      rfl
    rw [hmore, List.length_append, List.length_cons] at hfuel
    obtain ⟨fuel, rfl⟩ := Nat.exists_eq_add_of_le' (n := fuel) (m := 1) (by omega)
    have hfresh : p.1 ∉ acc.map (·.1) := fun h => (List.disjoint_of_nodup_append hnodup) h (by simp)
    have hnext := ih q (acc ++ [(p.1, norm p.2)]) (fun z hz => hp z (List.mem_cons_of_mem _ hz))
      (by simpa [List.append_assoc] using hnodup) fuel rest (by omega)
    rw [hmore, List.append_assoc, hone p acc fuel _ hread hsound (by omega) (by rintro c ⟨⟩; rfl)]
    show scanMembers parseFloat fuel (setKey acc p.1 (norm p.2)) (skip (_ ++ _)) = _
    obtain ⟨cs, hcs⟩ := members_cons q kvs
    have hskip : skip ([','].intercalate ((q :: kvs).map memberText) ++ '\x7d' :: rest) =
        [','].intercalate ((q :: kvs).map memberText) ++ '\x7d' :: rest := by
      rw [hcs, List.cons_append, skip_cons rfl]
    rw [setKey_fresh hfresh, hskip, hnext, List.append_assoc]
    rfl

theorem scanValue_items {fuel : ℕ} {c : Char} {cs : List Char} (hb : isBlank c = false) (hc : c ≠ ']') :
    scanValue parseFloat (fuel + 1) ('[' :: c :: cs) =
      (scanItems parseFloat fuel (c :: cs)).map fun p => (.arr p.1, p.2) := by
  rw [scanValue, skip_cons hb]
  split
  · rename_i heq
    exact absurd (List.cons.inj heq).1 hc
  · rfl

theorem scanValue_members {fuel : ℕ} {cs : List Char} :
    scanValue parseFloat (fuel + 1) ('\x7b' :: '"' :: cs) =
      (scanMembers parseFloat fuel [] ('"' :: cs)).map fun p => (.obj p.1, p.2) := rfl

theorem ends_nil : Ends [] := by rintro c ⟨⟩

/-- **Every value's text is read back**, in any text that goes on after it. -/
theorem reads (j : Json) : Reads parseFloat j := by
  have hfuel : ∀ {j : Json} {fuel : ℕ}, Sound parseFloat j → (text j).length ≤ fuel → ∃ n, fuel = n + 1 :=
    fun hsound h => by
      obtain ⟨c, cs, htext, -⟩ := text_cons hsound
      rw [htext, List.length_cons] at h
      exact ⟨_, (Nat.sub_add_cancel (by omega : 1 ≤ _)).symm⟩
  induction j using induct with
  | null =>
    intro hsound fuel rest hlen hrest
    obtain ⟨n, rfl⟩ := hfuel hsound hlen
    rfl
  | bool b =>
    intro hsound fuel rest hlen hrest
    obtain ⟨n, rfl⟩ := hfuel hsound hlen
    cases b <;> rfl
  | int m =>
    intro hsound fuel rest hlen hrest
    obtain ⟨n, rfl⟩ := hfuel hsound hlen
    exact scanValue_number (scanNumber_append (scanNumber_int m) hrest)
  | float x =>
    intro hsound fuel rest hlen hrest
    obtain ⟨n, rfl⟩ := hfuel hsound hlen
    cases x with
    | finite m r => exact scanValue_number (scanNumber_append hsound hrest)
    | nan => rfl
    | inf neg => cases neg <;> rfl
  | str s =>
    intro hsound fuel rest hlen hrest
    obtain ⟨n, rfl⟩ := hfuel hsound hlen
    obtain ⟨cs, hcs, hscan⟩ := scanString_quote s rest
    show scanValue parseFloat (n + 1) ((quote s).toList ++ rest) = _
    rw [hcs, scanValue, hscan, Option.map_some, String.ofList_toList]
    rfl
  | items xs ih =>
    intro hsound fuel rest hlen hrest
    obtain ⟨n, rfl⟩ := hfuel hsound hlen
    have hitems := (soundItems_iff xs).mp hsound
    rw [text_arr] at hlen ⊢
    rw [norm, normItems_eq_map]
    cases xs with
    | nil => rfl
    | cons x xs =>
      rw [List.length_cons, List.length_append, List.length_singleton] at hlen
      have hread := scanItems_text xs x (fun y hy => ⟨ih y hy, hitems y hy⟩) n rest (by omega)
      obtain ⟨c, cs, hcs, hb, hc⟩ := items_cons (hitems x (by simp)) xs
      have htext : '[' :: ([','].intercalate ((x :: xs).map text) ++ [']']) ++ rest =
          '[' :: c :: (cs ++ ']' :: rest) := by
        rw [hcs, List.cons_append, List.append_assoc, List.cons_append, List.cons_append]
        rfl
      rw [hcs, List.cons_append] at hread
      rw [htext, scanValue_items hb hc, hread, Option.map_some]
  | members kvs ih =>
    intro hsound fuel rest hlen hrest
    obtain ⟨n, rfl⟩ := hfuel hsound hlen
    obtain ⟨hkeys, hmembers⟩ := hsound
    have hvalues := (soundMembers_iff kvs).mp hmembers
    have hperm : ((sortMembers kvs).map (·.1)).Nodup :=
      ((List.perm_insertionSort _ kvs).map (·.1)).nodup_iff.mpr hkeys
    have hall : ∀ p ∈ sortMembers kvs, Reads parseFloat p.2 ∧ Sound parseFloat p.2 := fun p hp =>
      ⟨ih p (mem_sortMembers.mp hp), hvalues p (mem_sortMembers.mp hp)⟩
    rw [text_obj] at hlen ⊢
    rw [norm_obj]
    cases hsort : sortMembers kvs with
    | nil => rfl
    | cons p ps =>
      rw [hsort] at hperm hall hlen
      rw [List.length_cons, List.length_append, List.length_singleton] at hlen
      have hread := scanMembers_text ps p [] hall (by simpa using hperm) n rest (by omega)
      obtain ⟨cs, hcs⟩ := members_cons p ps
      have htext : '\x7b' :: ([','].intercalate ((p :: ps).map memberText) ++ ['\x7d']) ++ rest =
          '\x7b' :: '"' :: (cs ++ '\x7d' :: rest) := by
        rw [hcs, List.cons_append, List.append_assoc, List.cons_append, List.cons_append]
        rfl
      rw [hcs, List.cons_append] at hread
      rw [htext, scanValue_members, hread, Option.map_some, List.nil_append]

/-- **`json.loads` reads back what `canonicalJson` writes**, with the members
of every object in the order of their keys. -/
theorem loads_canonicalJson {j : Json} (h : Sound parseFloat j) :
    loads parseFloat (canonicalJson j) = some (norm j) := by
  have hread := reads j h ((text j).length + 1) [] (by omega) ends_nil
  have hskip := skip_text h []
  rw [List.append_nil] at hread hskip
  unfold loads
  show (match scanValue parseFloat ((text j).length + 1) (skip (text j)) with
    | some (j, rest) => if (skip rest).isEmpty then some j else none
    | none => none) = _
  rw [hskip, hread]
  rfl

/-- Equal encodings are encodings of values equal up to the order of members. -/
theorem canonicalJson_inj {j j' : Json} (h : Sound parseFloat j) (h' : Sound parseFloat j')
    (heq : canonicalJson j = canonicalJson j') : norm j = norm j' := by
  have hread := loads_canonicalJson h
  rw [heq, loads_canonicalJson h', Option.some.injEq] at hread
  exact hread.symm

/-! ### Members -/

theorem get?_eq_some {kvs : List (String × Json)} (h : (kvs.map (·.1)).Nodup) {key : String} {value : Json} :
    get? kvs key = some value ↔ (key, value) ∈ kvs := by
  induction kvs with
  | nil => simp [get?]
  | cons p kvs ih =>
    obtain ⟨hp, hkvs⟩ := List.nodup_cons.mp h
    unfold get? at ih ⊢
    rw [List.find?_cons, List.mem_cons]
    by_cases hk : p.1 = key
    · rw [beq_iff_eq.mpr hk, Option.map_some, Option.some.injEq]
      constructor
      · rintro rfl
        exact .inl (by rw [← hk])
      · rintro (rfl | hmem)
        · rfl
        · exact absurd (List.mem_map.mpr ⟨_, hmem, hk.symm⟩) hp
    · rw [beq_eq_false_iff_ne.mpr hk]
      constructor
      · exact fun hget => .inr ((ih hkvs).mp hget)
      · rintro (rfl | hmem)
        · exact absurd rfl hk
        · exact (ih hkvs).mpr hmem

theorem get?_map (g : Json → Json) (kvs : List (String × Json)) (key : String) :
    get? (kvs.map fun p => (p.1, g p.2)) key = (get? kvs key).map g := by
  unfold get?
  rw [List.find?_map, Option.map_map, Option.map_map]
  rfl

theorem get?_cons (p : String × Json) (kvs : List (String × Json)) (k : String) :
    get? (p :: kvs) k = if p.1 = k then some p.2 else get? kvs k := by
  unfold get?
  by_cases h : p.1 = k
  · simp [h]
  · simp [h]

theorem get?_append (kvs kvs' : List (String × Json)) (k : String) :
    get? (kvs ++ kvs') k = (get? kvs k).or (get? kvs' k) := by
  induction kvs with
  | nil => simp [get?]
  | cons p kvs ih =>
    rw [List.cons_append, get?_cons, get?_cons, ih]
    split <;> rfl

theorem get?_eq_none {kvs : List (String × Json)} {key : String} (h : ¬kvs.any fun p => p.1 == key) : get? kvs key = none := by
  unfold get?
  rw [List.find?_eq_none.mpr fun p hp hk => h (List.any_eq_true.mpr ⟨p, hp, hk⟩), Option.map_none]

theorem get?_replace (key : String) (value : Json) (k : String) : ∀ kvs : List (String × Json),
    get? (kvs.map fun p => if p.1 == key then (key, value) else p) k =
      if k = key ∧ kvs.any fun p => p.1 == key then some value else get? kvs k
  | [] => by simp [get?]
  | p :: kvs => by
    rw [List.map_cons, get?_cons, get?_cons, get?_replace key value k kvs]
    by_cases hp : p.1 = key
    · by_cases hk : k = key
      · simp [hp, hk]
      · simp [hp, hk, Ne.symm hk]
    · rw [List.any_cons, beq_eq_false_iff_ne.mpr hp, Bool.false_or]
      by_cases hk : k = key
      · rw [hk, if_neg hp]
        simp [hp]
      · simp [hk]

/-- What is set is what is found. -/
theorem get?_setKey (kvs : List (String × Json)) (key : String) (value : Json) (k : String) :
    get? (setKey kvs key value) k = if k = key then some value else get? kvs k := by
  unfold setKey
  split
  · rename_i hany
    simp only [get?_replace, hany, and_true]
  · rename_i hany
    rw [get?_append, get?_cons]
    by_cases hk : k = key
    · rw [hk, get?_eq_none hany]
      simp
    · simp [hk, Ne.symm hk, get?]

/-- Deleting keys leaves the others as they are. -/
theorem get?_filter (keep : String → Bool) (k : String) : ∀ kvs : List (String × Json),
    get? (kvs.filter fun p => keep p.1) k = if keep k then get? kvs k else none
  | [] => by simp [get?]
  | p :: kvs => by
    rw [get?_cons, List.filter_cons]
    split
    · rename_i hkeep
      rw [get?_cons, get?_filter keep k kvs]
      by_cases hp : p.1 = k
      · rw [if_pos hp, if_pos hp, if_pos (hp ▸ hkeep)]
      · rw [if_neg hp, if_neg hp]
    · rename_i hkeep
      rw [get?_filter keep k kvs]
      by_cases hp : p.1 = k
      · rw [if_neg (hp ▸ hkeep), if_neg (hp ▸ hkeep)]
      · rw [if_neg hp]

/-- The members of an object that is read back. -/
def normed (kvs : List (String × Json)) : List (String × Json) := (sortMembers kvs).map fun p => (p.1, norm p.2)

/-- A member is found again in the object that is read back. -/
theorem get?_normed {kvs : List (String × Json)} (h : (kvs.map (·.1)).Nodup) (key : String) :
    get? (normed kvs) key = (get? kvs key).map norm := by
  have hperm : (sortMembers kvs).Perm kvs := List.perm_insertionSort _ kvs
  have hnodup : ((sortMembers kvs).map (·.1)).Nodup := (hperm.map (·.1)).nodup_iff.mpr h
  rw [normed, get?_map]
  congr 1
  ext value
  rw [get?_eq_some hnodup, get?_eq_some h, mem_sortMembers]

end Json

/-- Different ids are different texts. -/
theorem toString_pk_injective : Function.Injective fun n : ℕ => toString n := fun m n h => by
  have hchars : Nat.toDigits 10 m = Nat.toDigits 10 n := by
    have hlist := congrArg String.toList h
    simpa using hlist
  rw [← Nat.ofDigitChars_ten_toDigits (n := m), hchars, Nat.ofDigitChars_ten_toDigits]

end FlexyVotes
