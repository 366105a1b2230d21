/-
# Encrypted columns

`EncryptedTextField` keeps an envelope of its value: the prefix, the id of the
data key, and nonce and ciphertext in base 64. The column also holds plain text
that was written before there was encryption, and what does not start with the
prefix is taken for that when it is read. But what starts with it when it is
written is taken for an envelope too, also when it is what somebody typed. Such
a value is stored as it is; any other is encrypted, and read back as it was
(`encrypted_lossless`).

Key definitions: `Cipher`, `KeyRing`, `encryptStr`, `decryptStr`,
`getPrepValue`, `fromDbValue`.
Key theorems: `decryptStr_encryptStr`, `encrypted_lossless`.
-/
import FlexyVotes.Core.Merkle
import FlexyVotes.Core.Parsing
import FlexyVotes.Models

namespace FlexyVotes
namespace Fields

/-! ### Keys and ciphertexts -/

/-- AES-GCM and base 64. -/
structure Cipher where
  /-- `AESGCM(dek).encrypt`: nonce, data and associated data. -/
  encrypt : Bytes → Bytes → Bytes → Bytes → Bytes
  /-- `AESGCM(dek).decrypt`; nothing where the tag is invalid. -/
  decrypt : Bytes → Bytes → Bytes → Bytes → Option Bytes
  /-- `b64e`. -/
  b64e : Bytes → String
  /-- `b64d`; nothing where it raises. -/
  b64d : String → Option Bytes

/-- What is encrypted can be decrypted, and is read from the text it is
written as. -/
structure Cipher.RoundTrips (C : Cipher) : Prop where
  decrypt_encrypt : ∀ dek nonce data aad, C.decrypt dek nonce (C.encrypt dek nonce data aad) aad = some data
  b64d_b64e : ∀ raw, C.b64d (C.b64e raw) = some raw

/-- The data keys that there are, unwrapped; one of them is active. -/
structure KeyRing where
  dek : ℕ → Option Bytes
  active : ℕ
  activeDek : Bytes
  present : dek active = some activeDek

/-- `str.encode('utf-8')`. -/
def encodeUtf8 (s : String) : Bytes := s.toUTF8.data.toList

/-- `bytes.decode('utf-8')`. -/
def decodeUtf8 (bytes : Bytes) : Option String := String.fromUTF8? ⟨bytes.toArray⟩

theorem decodeUtf8_encodeUtf8 (s : String) : decodeUtf8 (encodeUtf8 s) = some s := by
  unfold decodeUtf8 encodeUtf8 String.fromUTF8?
  rw [Array.toArray_toList]
  exact dif_pos s.isValidUTF8

/-! ### Envelopes -/

def ENVELOPE_PREFIX : String := "fv1$"

/-- `is_encrypted` of a string. -/
def isEncrypted (value : String) : Bool := ENVELOPE_PREFIX.toList.isPrefixOf value.toList

/-- `encrypt_str`, with the nonce it draws. -/
def encryptStr (C : Cipher) (ring : KeyRing) (nonce : Bytes) (plaintext aad : String) : String :=
  ENVELOPE_PREFIX ++ toString (ring.active : ℤ) ++ "$" ++
    C.b64e (nonce ++ C.encrypt ring.activeDek nonce (encodeUtf8 plaintext) (encodeUtf8 aad))

/-- What is before the first `$`, and what is after it. -/
def splitDollar (s : List Char) : Option (List Char × List Char) :=
  match s.span (· ≠ '$') with
  | (before, _ :: after) => some (before, after)
  | (_, []) => none

/-- `token.split('$', 2)`, where it makes three parts: the last two. -/
def envelopeParts (token : String) : Option (String × String) := do
  let (_, rest) ← splitDollar token.toList
  let (keyId, payload) ← splitDollar rest
  return (String.ofList keyId, String.ofList payload)

/-- `DataKey.objects.get(pk=…)`, unwrapped. -/
def KeyRing.find (ring : KeyRing) (pk : ℤ) : Option Bytes := if pk < 0 then none else ring.dek pk.toNat

/-- `decrypt_str`. -/
def decryptStr (E : Env) (C : Cipher) (ring : KeyRing) (token aad : String) : Except Failure String :=
  if token = "" then .ok token
  -- plain text that was written before encryption was enabled
  else if isEncrypted token = false then .ok token
  else
    match envelopeParts token with
    | none => .error (.crash "CryptoError")
    | some (keyId, payload) =>
      match (E.parseInt keyId).bind ring.find with
      | none => .error (.crash "CryptoError")
      | some dek =>
        match C.b64d payload with
        | none => .error (.crash "binascii.Error")
        | some raw =>
          match C.decrypt dek (raw.take 12) (raw.drop 12) (encodeUtf8 aad) with
          | none => .error (.crash "CryptoError")
          | some data =>
            match decodeUtf8 data with
            | none => .error (.crash "UnicodeDecodeError")
            | some plaintext => .ok plaintext

/-! ### The column -/

/-- `EncryptedTextField.get_prep_value`; `aad` names the column. -/
def getPrepValue (C : Cipher) (ring : KeyRing) (nonce : Bytes) (aad : String) : Option String → Option String
  | none => none
  | some value =>
    if value = "" ∨ isEncrypted value = true then some value else some (encryptStr C ring nonce value aad)

/-- `EncryptedTextField.from_db_value`. -/
def fromDbValue (E : Env) (C : Cipher) (ring : KeyRing) (aad : String) : Option String → Except Failure (Option String)
  | none => .ok none
  | some value => if value = "" then .ok (some value) else (decryptStr E C ring value aad).map some

/-! ### Reading back -/

variable {E : Env} {C : Cipher} {ring : KeyRing} {nonce : Bytes} {value aad : String}

theorem splitDollar_append {before after : List Char} (h : '$' ∉ before) :
    splitDollar (before ++ '$' :: after) = some (before, after) := by
  have hspan : (before ++ '$' :: after).span (· ≠ '$') = (before, '$' :: after) := by
    have hall : ∀ c ∈ before, decide (c ≠ '$') = true := fun c hc => decide_eq_true fun heq => h (heq ▸ hc)
    rw [List.span_eq_takeWhile_dropWhile, List.takeWhile_append_of_pos hall, List.dropWhile_append_of_pos hall]
    simp
  unfold splitDollar
  rw [hspan]

theorem dollar_not_mem_toString (n : ℕ) : '$' ∉ (toString (n : ℤ)).toList := by
  intro h
  have hdigits : (toString (n : ℤ)).toList = Nat.toDigits 10 n := by
    show (String.ofList (Nat.toDigits 10 n)).toList = _
    rw [String.toList_ofList]
  rw [hdigits] at h
  have hdigit : Char.isDigit '$' = true := Nat.isDigit_of_mem_toDigits (by decide) (by decide) h
  exact absurd hdigit (by decide)

/-- The characters of an envelope. -/
theorem toList_encryptStr : (encryptStr C ring nonce value aad).toList =
    "fv1".toList ++ '$' :: ((toString (ring.active : ℤ)).toList ++ '$' ::
      (C.b64e (nonce ++ C.encrypt ring.activeDek nonce (encodeUtf8 value) (encodeUtf8 aad))).toList) := by
  unfold encryptStr ENVELOPE_PREFIX
  simp only [String.toList_append, List.append_assoc]
  rfl

theorem envelopeParts_encryptStr : envelopeParts (encryptStr C ring nonce value aad) =
    some (toString (ring.active : ℤ),
      C.b64e (nonce ++ C.encrypt ring.activeDek nonce (encodeUtf8 value) (encodeUtf8 aad))) := by
  unfold envelopeParts
  rw [toList_encryptStr, splitDollar_append (by decide)]
  show (splitDollar (_ ++ '$' :: _)).bind _ = _
  rw [splitDollar_append (dollar_not_mem_toString _)]
  show some (String.ofList _, String.ofList _) = _
  rw [String.ofList_toList, String.ofList_toList]

theorem isEncrypted_encryptStr : isEncrypted (encryptStr C ring nonce value aad) = true := by
  unfold isEncrypted
  rw [toList_encryptStr]
  rfl

/-- An envelope is decrypted to what it was made of. -/
theorem decryptStr_encryptStr (hC : C.RoundTrips) (hint : ∀ n : ℤ, E.parseInt (toString n) = some n)
    (hnonce : nonce.length = 12) :
    decryptStr E C ring (encryptStr C ring nonce value aad) aad = .ok value := by
  have hfind : (E.parseInt (toString (ring.active : ℤ))).bind ring.find = some ring.activeDek := by
    rw [hint, Option.bind_some]
    unfold KeyRing.find
    rw [if_neg (by omega), Int.toNat_natCast]
    exact ring.present
  have hne : encryptStr C ring nonce value aad ≠ "" := fun h => by
    have hencrypted : isEncrypted (encryptStr C ring nonce value aad) = true := isEncrypted_encryptStr
    rw [h] at hencrypted
    exact absurd hencrypted (by decide)
  unfold decryptStr
  rw [if_neg hne, if_neg (by rw [isEncrypted_encryptStr]; decide), envelopeParts_encryptStr]
  dsimp only
  rw [hfind]
  dsimp only
  rw [hC.b64d_b64e]
  dsimp only
  rw [List.take_left' hnonce, List.drop_left' hnonce, hC.decrypt_encrypt]
  dsimp only
  rw [decodeUtf8_encodeUtf8]

/-- Which key is active makes no difference to what is read. -/
theorem fromDbValue_encryptStr (hC : C.RoundTrips) (hint : ∀ n : ℤ, E.parseInt (toString n) = some n)
    (hnonce : nonce.length = 12) {ring' : KeyRing} (hdek : ring'.dek = ring.dek) :
    fromDbValue E C ring' aad (some (encryptStr C ring nonce value aad)) = .ok (some value) := by
  have hread : decryptStr E C ring' (encryptStr C ring nonce value aad) aad = .ok value := by
    have hsame : decryptStr E C ring' (encryptStr C ring nonce value aad) aad =
        decryptStr E C ring (encryptStr C ring nonce value aad) aad := by
      unfold decryptStr KeyRing.find
      rw [hdek]
    rw [hsame, decryptStr_encryptStr hC hint hnonce]
  have hne : encryptStr C ring nonce value aad ≠ "" := fun hnil => by
    have hstored : isEncrypted (encryptStr C ring nonce value aad) = true := isEncrypted_encryptStr
    rw [hnil] at hstored
    exact absurd hstored (by decide)
  unfold fromDbValue
  dsimp only
  rw [if_neg hne, hread]
  rfl

/-- **A value is kept unless it looks like an envelope**: what starts with the
prefix is stored as it was typed; anything else is stored encrypted and read
back. -/
theorem encrypted_lossless (hC : C.RoundTrips) (hint : ∀ n : ℤ, E.parseInt (toString n) = some n)
    (hnonce : nonce.length = 12) (value aad : String) :
    (fromDbValue E C ring aad (getPrepValue C ring nonce aad (some value)) = .ok (some value) ∧
      (value ≠ "" → getPrepValue C ring nonce aad (some value) ≠ some value)) ↔ isEncrypted value = false := by
  by_cases hempty : value = ""
  · subst hempty
    exact iff_of_true ⟨rfl, fun h => absurd rfl h⟩ rfl
  by_cases hencrypted : isEncrypted value = true
  · have hprep : getPrepValue C ring nonce aad (some value) = some value := if_pos (Or.inr hencrypted)
    rw [hprep, hencrypted]
    exact iff_of_false (fun h => h.2 hempty rfl) Bool.noConfusion
  · have hprep : getPrepValue C ring nonce aad (some value) = some (encryptStr C ring nonce value aad) :=
      if_neg (not_or.mpr ⟨hempty, hencrypted⟩)
    have hread : fromDbValue E C ring aad (some (encryptStr C ring nonce value aad)) = .ok (some value) :=
      fromDbValue_encryptStr hC hint hnonce rfl
    rw [hprep]
    refine iff_of_true ⟨hread, fun _ heq => hencrypted ?_⟩ (Bool.eq_false_of_not_eq_true hencrypted)
    rw [← Option.some.inj heq]
    exact isEncrypted_encryptStr

/-! ### A name that looks like an envelope -/

/-- Data is its own ciphertext, written in hex. -/
def bare : Cipher where
  encrypt := fun _ _ data _ => data
  decrypt := fun _ _ data _ => some data
  b64e := toHex
  b64d := fromHex

theorem bare_roundTrips : bare.RoundTrips where
  decrypt_encrypt := fun _ _ _ _ => rfl
  b64d_b64e := fromHex_toHex

def oneKey : KeyRing where
  dek := fun k => if k = 1 then some [] else none
  active := 1
  activeDek := []
  present := rfl

/-- An `int` that reads decimals. -/
def decimals : Env :=
  { Env.plain with
    parseInt := fun text =>
      match Json.scanNumber (fun _ => .nan) text.toList with
      | some (.int n, []) => some n
      | _ => none }

theorem decimals_int (n : ℤ) : decimals.parseInt (toString n) = some n := by
  show (match Json.scanNumber (fun _ => .nan) (toString n).toList with
    | some (.int n, []) => some n
    | _ => none) = _
  rw [Json.scanNumber_int]

theorem encrypted_lossless_name :
    fromDbValue decimals bare oneKey "elections.voter.name"
        (getPrepValue bare oneKey (List.replicate 12 0) "elections.voter.name" (some "Ama Mensah")) =
        .ok (some "Ama Mensah") ∧
      ("Ama Mensah" ≠ "" → getPrepValue bare oneKey (List.replicate 12 0) "elections.voter.name" (some "Ama Mensah") ≠
        some "Ama Mensah") :=
  (encrypted_lossless bare_roundTrips decimals_int rfl "Ama Mensah" "elections.voter.name").mpr (by decide)

theorem not_encrypted_lossless :
    ¬ ∀ (E : Env) (C : Cipher) (ring : KeyRing) (nonce : Bytes) (value aad : String), C.RoundTrips →
      (∀ n : ℤ, E.parseInt (toString n) = some n) → nonce.length = 12 →
      fromDbValue E C ring aad (getPrepValue C ring nonce aad (some value)) = .ok (some value) ∧
        (value ≠ "" → getPrepValue C ring nonce aad (some value) ≠ some value) := by
  intro h
  have hname := h decimals bare oneKey (List.replicate 12 0) "fv1$Ama" "elections.voter.name" bare_roundTrips
    decimals_int rfl
  exact hname.2 (by decide) (by decide)

end Fields
end FlexyVotes
