/-
# JSON values

What a JSON column, a request body or a ballot payload holds after parsing,
and `canonicalJson`, the deterministic encoding of everything that is hashed
or signed: keys in code point order, no blanks, text kept as it is.

A float is kept by what the code looks at: the integer `int()` makes of it
and its `repr`.
-/
import Mathlib

namespace FlexyVotes

/-- A float of a JSON document. -/
inductive PyFloat
  /-- A finite float: the integer it truncates to and its `repr`. -/
  | finite (trunc : ℤ) (repr : String)
  | nan
  | inf (negative : Bool)
  deriving DecidableEq, Repr

/-- A JSON value; an object keeps its keys in the order they were given. -/
inductive Json
  | null
  | bool (b : Bool)
  | int (n : ℤ)
  | float (x : PyFloat)
  | str (s : String)
  | arr (xs : List Json)
  | obj (kvs : List (String × Json))
  deriving Repr

def PyFloat.repr : PyFloat → String
  | .finite _ r => r
  | .nan => "NaN"
  | .inf false => "Infinity"
  | .inf true => "-Infinity"

namespace Json

instance : Inhabited Json := ⟨.null⟩

mutual

/-- Two values alike, with the keys of an object in one order. -/
def beq : Json → Json → Bool
  | .null, .null => true
  | .bool a, .bool b => a == b
  | .int a, .int b => a == b
  | .float a, .float b => a == b
  | .str a, .str b => a == b
  | .arr xs, .arr ys => beqAll xs ys
  | .obj xs, .obj ys => beqItems xs ys
  | _, _ => false

def beqAll : List Json → List Json → Bool
  | [], [] => true
  | x :: xs, y :: ys => beq x y && beqAll xs ys
  | _, _ => false

def beqItems : List (String × Json) → List (String × Json) → Bool
  | [], [] => true
  | (a, x) :: xs, (b, y) :: ys => a == b && beq x y && beqItems xs ys
  | _, _ => false

end

instance : BEq Json := ⟨beq⟩

/-- The escape of one character inside a JSON string. -/
def escape (c : Char) : String :=
  if c = '"' then "\\\""
  else if c = '\\' then "\\\\"
  else if c = '\n' then "\\n"
  else if c = '\r' then "\\r"
  else if c = '\t' then "\\t"
  else if c.toNat = 8 then "\\b"
  else if c.toNat = 12 then "\\f"
  else if c.toNat < 32 then
    "\\u00" ++ (if c.toNat < 16 then "0" else "1") ++ String.ofList [Nat.digitChar (c.toNat % 16)]
  else String.ofList [c]

def quote (s : String) : String := "\"" ++ String.join (s.toList.map escape) ++ "\""

/-- The members of an object in the order of their keys. -/
def sortKeys (kvs : List (String × String)) : List (String × String) :=
  kvs.insertionSort fun a b => a.1 ≤ b.1

mutual
/-- `canonical_json`: `json.dumps` with sorted keys and no blanks. -/
def canonicalJson : Json → String
  | .null => "null"
  | .bool b => if b then "true" else "false"
  | .int n => toString n
  | .float x => x.repr
  | .str s => quote s
  | .arr xs => "[" ++ ",".intercalate (canonicalItems xs) ++ "]"
  | .obj kvs =>
    "\x7b" ++ ",".intercalate ((sortKeys (canonicalMembers kvs)).map fun p => quote p.1 ++ ":" ++ p.2)
      ++ "\x7d"

def canonicalItems : List Json → List String
  | [] => []
  | x :: xs => canonicalJson x :: canonicalItems xs

def canonicalMembers : List (String × Json) → List (String × String)
  | [] => []
  | (k, v) :: kvs => (k, canonicalJson v) :: canonicalMembers kvs
end

/-- The integer a number is equal to: `True` is 1, `2.0` is 2. -/
def number? : Json → Option ℤ
  | .bool b => some (if b then 1 else 0)
  | .int n => some n
  | .float (.finite n r) => if r.endsWith ".0" ∨ 10 ^ 16 ≤ n.natAbs then some n else none
  | _ => none

/-- `not` of a value: nothing, zero or empty. -/
def falsy : Json → Bool
  | .null => true
  | .str s => s = ""
  | .arr xs => xs.isEmpty
  | .obj kvs => kvs.isEmpty
  | j => j.number? = some 0

/-- `dict.get` of an object. -/
def get? (kvs : List (String × Json)) (key : String) : Option Json :=
  (kvs.find? fun p => p.1 == key).map (·.2)

def nat (n : ℕ) : Json := .int n

/-- A nullable column. -/
def opt {α : Type} (f : α → Json) : Option α → Json
  | some x => f x
  | none => .null

/-- A list of numbers as a JSON array. -/
def ofNats (ns : List ℕ) : Json := .arr (ns.map fun n : ℕ => .int n)

end Json

end FlexyVotes
