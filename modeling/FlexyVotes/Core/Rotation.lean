/-
# Rotating the data key

`keys rotate` reads the rows of every table with encrypted columns, and writes
the columns that are not empty back, encrypted with a new data key. It locks
nothing: what the application writes to a column after the row was read and
before it is written back is lost, and a secret that was wiped there comes back.
Where there is no such write, every column holds what the application wrote last
(`rotation_keeps`).

Key definitions: `getColumn`, `prepColumn`, `Step`, `Undisturbed`, `Current`.
Key theorems: `getColumn_prepColumn`, `Following.step`, `rotation_keeps`.
-/
import FlexyVotes.Core.Fields
import FlexyVotes.Lib.Steps

namespace FlexyVotes

namespace Json

/-- Four hex digits. -/
def hexDigits (n : ℕ) : String :=
  String.ofList [Nat.digitChar (n / 4096 % 16), Nat.digitChar (n / 256 % 16), Nat.digitChar (n / 16 % 16),
    Nat.digitChar (n % 16)]

/-- The escape of a character by `json.dumps`, which writes ASCII. -/
def escapeAscii (c : Char) : String :=
  let n := c.toNat
  if n < 128 then escape c
  else if n < 0x10000 then "\\u" ++ hexDigits n
  else "\\u" ++ hexDigits (0xD800 + (n - 0x10000) / 1024) ++ "\\u" ++ hexDigits (0xDC00 + (n - 0x10000) % 1024)

def quoteAscii (s : String) : String := "\"" ++ String.join (s.toList.map escapeAscii) ++ "\""

mutual
/-- `json.dumps`. -/
def dumps : Json → String
  | .null => "null"
  | .bool b => if b then "true" else "false"
  | .int n => toString n
  | .float x => x.repr
  | .str s => quoteAscii s
  | .arr xs => "[" ++ ", ".intercalate (dumpsItems xs) ++ "]"
  | .obj kvs => "\x7b" ++ ", ".intercalate (dumpsMembers kvs) ++ "\x7d"

def dumpsItems : List Json → List String
  | [] => []
  | x :: xs => dumps x :: dumpsItems xs

def dumpsMembers : List (String × Json) → List String
  | [] => []
  | (k, v) :: kvs => (quoteAscii k ++ ": " ++ dumps v) :: dumpsMembers kvs
end

end Json

namespace Rotation

open Fields

/-! ### Columns -/

/-- `EncryptedTextField` and `EncryptedJSONField`. -/
inductive Kind
  | text | json
  deriving DecidableEq

/-- A column, with the name its ciphertexts are bound to. -/
structure Column where
  kind : Kind
  aad : String
deriving DecidableEq

/-- What `secrets.token_bytes(12)` draws. -/
structure Nonce where
  bytes : Bytes
  length : bytes.length = 12

/-- The data key that a process encrypts with, one of the keys `dek`. -/
structure ActiveKey (dek : ℕ → Option Bytes) where
  active : ℕ
  activeDek : Bytes
  present : dek active = some activeDek

def ActiveKey.ring {dek : ℕ → Option Bytes} (key : ActiveKey dek) : KeyRing :=
  ⟨dek, key.active, key.activeDek, key.present⟩

variable (E : Env) (C : Cipher)

/-- `from_db_value` of the column; a text is a JSON string. -/
def getColumn (ring : KeyRing) (c : Column) (stored : Option String) : Except Failure (Option Json) :=
  match c.kind with
  | .text => (fromDbValue E C ring c.aad stored).map fun value => value.map Json.str
  | .json =>
    match fromDbValue E C ring c.aad stored with
    | .error e => .error e
    | .ok none => .ok none
    | .ok (some plaintext) =>
      if plaintext = "" then .ok none
      else
        match Json.loads E.parseFloat plaintext with
        | none => .error (.crash "JSONDecodeError")
        | some .null => .ok none
        | some value => .ok (some value)

/-- `get_prep_value` of the column. -/
def prepColumn (ring : KeyRing) (nonce : Nonce) (c : Column) : Option Json → Option String
  | none => none
  | some value =>
    match c.kind, value with
    | .text, .str s => getPrepValue C ring nonce.bytes c.aad (some s)
    | .text, value => getPrepValue C ring nonce.bytes c.aad (some (E.repr value))
    | .json, .str s =>
      if isEncrypted s = true then some s else some (encryptStr C ring nonce.bytes (Json.dumps (.str s)) c.aad)
    | .json, value => some (encryptStr C ring nonce.bytes (Json.dumps value) c.aad)

/-- `value in (None, '')`. -/
def isBlank : Option Json → Bool
  | none => true
  | some (.str s) => s = ""
  | some _ => false

/-- A value that the column keeps: a text without the prefix of an envelope, or
what JSON reads back as it was written. -/
def Legible (c : Column) : Option Json → Prop
  | none => True
  | some value =>
    match c.kind, value with
    | .text, .str s => isEncrypted s = false
    | .text, _ => False
    | .json, .str s => isEncrypted s = false ∧ Json.loads E.parseFloat (Json.dumps (.str s)) = some (.str s)
    | .json, value => value ≠ .null ∧ Json.loads E.parseFloat (Json.dumps value) = some value

/-! ### Runs -/

variable (dek : ℕ → Option Bytes) (columns : ℕ → List Column) (newKey : ActiveKey dek)

/-- The rows by their numbers, whatever their tables. -/
structure State where
  stored : ℕ → Column → Option String
  /-- What the application wrote last. -/
  last : ℕ → Column → Option Json
  /-- The rows that the rotation has read and not written back. -/
  held : ℕ → Option (Column → Option Json) := fun _ => none

inductive Step (dek : ℕ → Option Bytes)
  /-- The application writes a column of a row. -/
  | write (row : ℕ) (c : Column) (value : Option Json) (key : ActiveKey dek) (nonce : Nonce)
  /-- `do_rotate`: the iterator reads a row. -/
  | fetch (row : ℕ)
  /-- `do_rotate`: the row is updated. -/
  | update (row : ℕ) (nonces : Column → Nonce)

/-- The values of a row, if all of them can be read. -/
def values (row : ℕ) (s : State) : Option (Column → Option Json) :=
  let value := fun c => getColumn E C newKey.ring c (s.stored row c)
  if (columns row).all fun c => (value c).toOption.isSome then some fun c => ((value c).toOption).join else none

/-- The columns of a row after the update: the empty ones are left out. -/
def updated (row : ℕ) (value : Column → Option Json) (nonces : Column → Nonce) (s : State) (c : Column) :
    Option String :=
  if c ∈ columns row ∧ isBlank (value c) = false then prepColumn E C newKey.ring (nonces c) c (value c)
  else s.stored row c

def step : Step dek → State → State
  | .write row c value key nonce, s =>
    { s with
      stored := fun row' c' => if row' = row ∧ c' = c then prepColumn E C key.ring nonce c value else s.stored row' c'
      last := fun row' c' => if row' = row ∧ c' = c then value else s.last row' c' }
  | .fetch row, s =>
    match values E C dek columns newKey row s with
    | none => s
    | some value => { s with held := fun row' => if row' = row then some value else s.held row' }
  | .update row nonces, s =>
    match s.held row with
    | none => s
    | some value =>
      { s with
        stored := fun row' => if row' = row then updated E C dek columns newKey row value nonces s else s.stored row'
        held := fun row' => if row' = row then none else s.held row' }

/-- Every column holds what the application wrote last. -/
def Current (s : State) : Prop :=
  ∀ row, ∀ c ∈ columns row, getColumn E C newKey.ring c (s.stored row c) = .ok (s.last row c)

/-- What the application writes is legible. -/
def Step.Writes : Step dek → Prop
  | .write _ c value _ _ => Legible E c value
  | .fetch _ | .update _ _ => True

/-- A value that the application writes is legible, and the rotation does not hold
another, unless it is empty. -/
def Undisturbed : Step dek → State → Prop
  | .write row c value _ _, s => Legible E c value ∧
    ∀ held, s.held row = some held → isBlank (held c) = true ∨ held c = value
  | _, _ => True

/-- What every step keeps. -/
structure Following (s : State) : Prop where
  current : Current E C dek columns newKey s
  legible : ∀ row, ∀ c ∈ columns row, Legible E c (s.last row c)
  held : ∀ row value, s.held row = some value → ∀ c ∈ columns row, isBlank (value c) = true ∨ value c = s.last row c

variable {E C dek columns newKey} {s : State} {c : Column}

theorem loads_empty (parseFloat : String → PyFloat) : Json.loads parseFloat "" = none := rfl

/-- A JSON text that was encrypted is read. -/
theorem getColumn_encryptStr (hC : C.RoundTrips) (hint : ∀ n : ℤ, E.parseInt (toString n) = some n)
    (key key' : ActiveKey dek) (nonce : Nonce) {text : String} {value : Json} (hkind : c.kind = .json)
    (hvalue : value ≠ .null) (hloads : Json.loads E.parseFloat text = some value) :
    getColumn E C key'.ring c (some (encryptStr C key.ring nonce.bytes text c.aad)) = .ok (some value) := by
  have hread : fromDbValue E C key'.ring c.aad (some (encryptStr C key.ring nonce.bytes text c.aad)) = .ok (some text) :=
    fromDbValue_encryptStr hC hint nonce.length rfl
  have hne : text ≠ "" := by
    intro hnil
    rw [hnil, loads_empty] at hloads
    cases hloads
  unfold getColumn
  rw [hkind, hread]
  dsimp only
  rw [if_neg hne, hloads]
  cases value with
  | null => exact absurd rfl hvalue
  | bool b => rfl
  | int n => rfl
  | float x => rfl
  | str s => rfl
  | arr xs => rfl
  | obj kvs => rfl

/-- A legible value is read as it was written, whichever keys were active. -/
theorem getColumn_prepColumn (hC : C.RoundTrips) (hint : ∀ n : ℤ, E.parseInt (toString n) = some n)
    (key key' : ActiveKey dek) (nonce : Nonce) {value : Option Json} (h : Legible E c value) :
    getColumn E C key'.ring c (prepColumn E C key.ring nonce c value) = .ok value := by
  cases value with
  | none =>
    unfold prepColumn getColumn fromDbValue
    cases c.kind <;> rfl
  | some value =>
    cases hkind : c.kind with
    | text =>
      cases value with
      | str s =>
        have hs : isEncrypted s = false := by simpa only [Legible, hkind] using h
        unfold getColumn prepColumn
        simp only [hkind, getPrepValue]
        by_cases hempty : s = ""
        · subst hempty
          rfl
        · have hread : fromDbValue E C key'.ring c.aad (some (encryptStr C key.ring nonce.bytes s c.aad)) = .ok (some s) :=
            fromDbValue_encryptStr hC hint nonce.length rfl
          rw [if_neg (by simp [hempty, hs]), hread]
          rfl
      | null | bool b | int n | float x | arr xs | obj kvs =>
        simp only [Legible, hkind] at h
    | json =>
      cases value with
      | str s =>
        obtain ⟨hs, hloads⟩ : isEncrypted s = false ∧ _ := by simpa only [Legible, hkind] using h
        have hprep : prepColumn E C key.ring nonce c (some (.str s)) =
            some (encryptStr C key.ring nonce.bytes (Json.dumps (.str s)) c.aad) := by
          simp [prepColumn, hkind, hs]
        rw [hprep]
        exact getColumn_encryptStr hC hint key key' nonce hkind nofun hloads
      | null | bool b | int n | float x | arr xs | obj kvs =>
        obtain ⟨hnull, hloads⟩ : _ ≠ _ ∧ _ := by simpa only [Legible, hkind] using h
        simp only [prepColumn, hkind]
        exact getColumn_encryptStr hC hint key key' nonce hkind hnull hloads

/-! ### Every step keeps the columns current -/

theorem Following.write (hC : C.RoundTrips) (hint : ∀ n : ℤ, E.parseInt (toString n) = some n)
    (h : Following E C dek columns newKey s) {row : ℕ} {value : Option Json} {key : ActiveKey dek} {nonce : Nonce}
    (hx : Undisturbed E dek (.write row c value key nonce) s) :
    Following E C dek columns newKey (step E C dek columns newKey (.write row c value key nonce) s) where
  current row' c' hc' := by
    by_cases hcell : row' = row ∧ c' = c
    · obtain ⟨rfl, rfl⟩ := hcell
      simp only [step, and_self, if_true]
      exact getColumn_prepColumn hC hint key newKey nonce hx.1
    · simp only [step, if_neg hcell]
      exact h.current row' c' hc'
  legible row' c' hc' := by
    by_cases hcell : row' = row ∧ c' = c
    · obtain ⟨rfl, rfl⟩ := hcell
      simp only [step, and_self, if_true]
      exact hx.1
    · simp only [step, if_neg hcell]
      exact h.legible row' c' hc'
  held row' held hheld c' hc' := by
    by_cases hcell : row' = row ∧ c' = c
    · obtain ⟨rfl, rfl⟩ := hcell
      simp only [step, and_self, if_true]
      exact hx.2 held hheld
    · simp only [step, if_neg hcell]
      exact h.held row' held hheld c' hc'

theorem Following.fetch (h : Following E C dek columns newKey s) {row : ℕ} :
    Following E C dek columns newKey (step E C dek columns newKey (.fetch row) s) := by
  simp only [step]
  split
  · exact h
  · rename_i value hvalue
    refine ⟨h.current, h.legible, fun row' value' hheld c hc => ?_⟩
    dsimp only at hheld
    split at hheld
    · rename_i hrow
      cases hheld
      right
      unfold values at hvalue
      dsimp only at hvalue
      split at hvalue
      · cases hvalue
        subst hrow
        dsimp only
        rw [h.current row' c hc]
        rfl
      · cases hvalue
    · exact h.held row' value' hheld c hc

theorem Following.update (hC : C.RoundTrips) (hint : ∀ n : ℤ, E.parseInt (toString n) = some n)
    (h : Following E C dek columns newKey s) {row : ℕ} {nonces : Column → Nonce} :
    Following E C dek columns newKey (step E C dek columns newKey (.update row nonces) s) := by
  simp only [step]
  split
  · exact h
  · rename_i value hvalue
    refine ⟨fun row' c hc => ?_, h.legible, fun row' value' hheld c hc => ?_⟩
    · dsimp only
      split
      · rename_i hrow
        subst hrow
        unfold updated
        split
        · rename_i hblank
          -- the rotation holds what was written last
          have hlast : value c = s.last row' c := by
            rcases h.held row' value hvalue c hc with hb | hlast
            · rw [hblank.2] at hb
              cases hb
            · exact hlast
          rw [hlast]
          exact getColumn_prepColumn hC hint newKey newKey (nonces c) (h.legible row' c hc)
        · exact h.current row' c hc
      · exact h.current row' c hc
    · dsimp only at hheld
      split at hheld
      · cases hheld
      · exact h.held row' value' hheld c hc

theorem Following.step (hC : C.RoundTrips) (hint : ∀ n : ℤ, E.parseInt (toString n) = some n)
    (h : Following E C dek columns newKey s) {x : Step dek} (hx : Undisturbed E dek x s) :
    Following E C dek columns newKey (Rotation.step E C dek columns newKey x s) := by
  cases x with
  | write row c value key nonce => exact h.write hC hint hx
  | fetch row => exact h.fetch
  | update row nonces => exact h.update hC hint

/-- The rotation has not read a row yet, and every column can be read. -/
structure State.Begins (E : Env) (C : Cipher) (dek : ℕ → Option Bytes) (columns : ℕ → List Column)
    (newKey : ActiveKey dek) (s : State) : Prop where
  current : Current E C dek columns newKey s
  legible : ∀ row, ∀ c ∈ columns row, Legible E c (s.last row c)
  held : ∀ row, s.held row = none

/-- **Rotation keeps the plaintext**, where the application writes no column of a
row between the rotation's reading and its update of that row. -/
theorem rotation_keeps {E : Env} {C : Cipher} {dek : ℕ → Option Bytes} {columns : ℕ → List Column}
    {newKey : ActiveKey dek} (hC : C.RoundTrips) (hint : ∀ n : ℤ, E.parseInt (toString n) = some n) {s : State}
    {xs : List (Step dek)} (hs : s.Begins E C dek columns newKey)
    (h : Steps.Always (step E C dek columns newKey) (Undisturbed E dek) xs s) :
    Current E C dek columns newKey (Steps.run (step E C dek columns newKey) xs s) := by
  have hinit : Following E C dek columns newKey s :=
    ⟨hs.current, hs.legible, fun row value hheld => by rw [hs.held] at hheld; cases hheld⟩
  have hrun : Following E C dek columns newKey (Steps.run (Rotation.step E C dek columns newKey) xs s) :=
    Steps.Always.run (fun _ _ h hx => h.step hC hint hx) hinit h
  exact hrun.current

/-- The column of a trustee's share that is not collected yet. -/
def pendingShare : Column := ⟨.text, "elections.trusteeshare.pending_share"⟩

def onlyKey : ActiveKey oneKey.dek := ⟨1, [], rfl⟩

def zeros : Nonce := ⟨List.replicate 12 0, rfl⟩

/-- One row, with a share from before there was encryption. -/
def oneShare (row : ℕ) : List Column := if row = 0 then [pendingShare] else []

def shared : State where
  stored := fun _ _ => some "a1"
  last := fun _ _ => some (.str "a1")

theorem shared_begins : shared.Begins decimals bare oneKey.dek oneShare onlyKey := by
  have hcolumn : ∀ row, ∀ c ∈ oneShare row, c = pendingShare := by
    intro row c hc
    unfold oneShare at hc
    split at hc
    · exact List.mem_singleton.1 hc
    · cases hc
  refine ⟨fun row c hc => ?_, fun row c hc => ?_, fun _ => rfl⟩
  · rw [hcolumn row c hc]
    rfl
  · rw [hcolumn row c hc]
    show isEncrypted "a1" = false
    decide

/-- The share is collected when the rotation is done with the row. -/
theorem rotation_keeps_collected : Current decimals bare oneKey.dek oneShare onlyKey
    (Steps.run (step decimals bare oneKey.dek oneShare onlyKey)
      [.fetch 0, .update 0 fun _ => zeros, .write 0 pendingShare none onlyKey zeros] shared) := by
  refine rotation_keeps bare_roundTrips decimals_int shared_begins ⟨trivial, trivial, ⟨trivial, fun held hheld => ?_⟩, trivial⟩
  have hnone : ((step decimals bare oneKey.dek oneShare onlyKey (.update 0 fun _ => zeros)
      (step decimals bare oneKey.dek oneShare onlyKey (.fetch 0) shared)).held 0).isSome = false := by decide +kernel
  rw [hheld] at hnone
  cases hnone

/-- A share that is collected, and so wiped, while the rotation holds its row is
there again afterwards. -/
theorem not_rotation_keeps : ¬ ∀ (E : Env) (C : Cipher) (dek : ℕ → Option Bytes) (columns : ℕ → List Column)
    (newKey : ActiveKey dek) (s : State) (xs : List (Step dek)), C.RoundTrips →
    (∀ n : ℤ, E.parseInt (toString n) = some n) → s.Begins E C dek columns newKey →
    Steps.Always (step E C dek columns newKey) (fun x _ => x.Writes E) xs s →
    Current E C dek columns newKey (Steps.run (step E C dek columns newKey) xs s) := by
  intro h
  let xs : List (Step oneKey.dek) :=
    [.fetch 0, .write 0 pendingShare none onlyKey zeros, .update 0 fun _ => zeros]
  let t := Steps.run (step decimals bare oneKey.dek oneShare onlyKey) xs shared
  have hrun : Current decimals bare oneKey.dek oneShare onlyKey t := h decimals bare oneKey.dek oneShare onlyKey shared xs
    bare_roundTrips decimals_int shared_begins ⟨trivial, trivial, trivial, trivial⟩
  have hback : (getColumn decimals bare onlyKey.ring pendingShare (t.stored 0 pendingShare)).toOption.join.isSome = true := by
    decide +kernel
  have hlast : t.last 0 pendingShare = none := by rfl
  rw [hrun 0 pendingShare (List.mem_singleton_self _), hlast] at hback
  cases hback

end Rotation
end FlexyVotes
