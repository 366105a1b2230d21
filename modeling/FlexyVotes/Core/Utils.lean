/-
# Addresses of clients and masked contacts

`client_ip` trusts as many entries of `X-Forwarded-For` as there are proxies
before the application, counted from the end: each proxy appends the address that
connected to it. So the address is that of whoever connected to the first of them,
whatever the header said that was sent there (`clientIp_forwarded`).

Key definitions: `clientIp`, `forward`, `maskEmail`, `maskPhone`.
Key theorems: `hops_forward`, `hops_forwards`, `clientIp_forwarded`.
-/
import FlexyVotes.Models

namespace FlexyVotes
namespace Utils

variable (E : Env)

/-! ### Client addresses -/

/-- What of a request tells its address. -/
structure Meta where
  forwardedFor : String := ""
  remoteAddr : String := ""

/-- `_valid_ip`, where `ipAddress` is `str` of the address of a text. -/
def validIp (ipAddress : String → Option String) (value : String) : Option String := ipAddress (E.strip value)

/-- The entries of the header. -/
def hops (forwarded : String) : List String :=
  ((forwarded.toList.splitOn ',').map fun part => E.strip (String.ofList part)).filter fun h => h ≠ ""

def clientIp (ipAddress : String → Option String) (trustedProxyCount : ℕ) (m : Meta) : Option String :=
  let direct := validIp E ipAddress m.remoteAddr
  if trustedProxyCount ≠ 0 ∧ m.forwardedFor ≠ "" then
    let hops := hops E m.forwardedFor
    if trustedProxyCount ≤ hops.length then
      (hops[hops.length - trustedProxyCount]?.bind (validIp E ipAddress)).or direct
    else direct
  else direct

/-- A proxy sends the request on: it appends the address that connected to it. -/
def forward (peer : String) (forwarded : String) : String := if forwarded = "" then peer else forwarded ++ ", " ++ peer

/-- The text of an address. -/
structure IsAddress (ipAddress : String → Option String) (a : String) : Prop where
  ne : a ≠ ""
  comma : ',' ∉ a.toList
  strip : E.strip a = a
  strip_blank : E.strip (" " ++ a) = a
  valid : ipAddress a = some a

/-! ### Contacts -/

def maskEmail (email : String) : String :=
  if '@' ∈ email.toList then
    let local_ := email.toList.takeWhile (· ≠ '@')
    let domain := (email.toList.dropWhile (· ≠ '@')).tail
    String.ofList (local_.take 1 ++ List.replicate (max (local_.length - 1) 3) '*' ++ '@' :: domain)
  else ""

def maskPhone (phone : String) : String :=
  let digits := phone.toList.filter fun c => E.isDigit c || c = '+'
  if digits.length < 4 then ""
  else String.ofList (digits.take 4 ++ List.replicate (max (digits.length - 6) 2) '*' ++ digits.drop (digits.length - 2))

variable {E}

/-! ### What the proxies append -/

theorem hops_empty : hops E "" = [] := by
  have hstrip : E.strip (String.ofList []) = "" := rfl
  unfold hops
  change List.filter _ [E.strip (String.ofList [])] = []
  rw [hstrip]
  rfl

/-- A proxy adds one entry at the end. -/
theorem hops_forward {ipAddress : String → Option String} {a : String} (ha : IsAddress E ipAddress a) (forwarded : String) :
    hops E (forward a forwarded) = hops E forwarded ++ [a] := by
  have hkept : ([a].filter fun h => h ≠ "") = [a] := List.filter_cons_of_pos (decide_eq_true ha.ne)
  unfold forward
  by_cases hempty : forwarded = ""
  · rw [if_pos hempty, hempty, hops_empty]
    unfold hops
    rw [List.splitOn_eq_singleton ha.comma, List.map_cons, List.map_nil, String.ofList_toList, ha.strip,
      hkept]
    rfl
  · have hblank : ',' ∉ (' ' :: a.toList) := by
      rw [List.mem_cons, not_or]
      exact ⟨by decide, ha.comma⟩
    have hchars : (forwarded ++ ", " ++ a).toList = forwarded.toList ++ ',' :: ' ' :: a.toList := by
      rw [String.toList_append, String.toList_append, List.append_assoc]
      rfl
    have hpart : String.ofList (' ' :: a.toList) = " " ++ a :=
      String.toList_injective (by rw [String.toList_ofList, String.toList_append]; rfl)
    rw [if_neg hempty]
    unfold hops
    rw [hchars, List.splitOn_append_cons_self, List.splitOn_eq_singleton hblank, List.map_append, List.filter_append,
      List.map_cons, List.map_nil, hpart, ha.strip_blank, hkept]

/-- The proxies add their entries, one after the other. -/
theorem hops_forwards {ipAddress : String → Option String} : ∀ {peers : List String}, (∀ a ∈ peers, IsAddress E ipAddress a) →
    ∀ forwarded, hops E (peers.foldl (fun h peer => forward peer h) forwarded) = hops E forwarded ++ peers
  | [], _, forwarded => (List.append_nil _).symm
  | a :: peers, h, forwarded => by
    rw [List.foldl_cons, hops_forwards (fun b hb => h b (List.mem_cons_of_mem a hb)) (forward a forwarded),
      hops_forward (h a (List.mem_cons_self ..)), List.append_assoc]
    rfl

theorem forward_ne {ipAddress : String → Option String} : ∀ {peers : List String}, (∀ a ∈ peers, IsAddress E ipAddress a) →
    peers ≠ [] → ∀ forwarded, peers.foldl (fun h peer => forward peer h) forwarded ≠ "" := by
  intro peers h hne forwarded hempty
  have hhops := hops_forwards h forwarded
  rw [hempty, hops_empty] at hhops
  exact hne (List.append_eq_nil_iff.mp hhops.symm).2

/-- **Behind the proxies that are trusted the address of a request is the one that
connected to the first of them, whatever its client wrote into the header.** -/
theorem clientIp_forwarded (ipAddress : String → Option String) {a : String} {peers : List String}
    (ha : ∀ b ∈ a :: peers, IsAddress E ipAddress b) (forwarded remoteAddr : String) :
    clientIp E ipAddress (a :: peers).length ⟨(a :: peers).foldl (fun h peer => forward peer h) forwarded, remoteAddr⟩ =
      some a := by
  have haddress := ha a (List.mem_cons_self ..)
  have hhops := hops_forwards ha forwarded
  have hheader := forward_ne ha (List.cons_ne_nil a peers) forwarded
  have hcount : (a :: peers).length ≤ (hops E forwarded ++ a :: peers).length := by
    rw [List.length_append]
    exact Nat.le_add_left _ _
  have hplace : (hops E forwarded ++ a :: peers)[(hops E forwarded ++ a :: peers).length - (a :: peers).length]? = some a := by
    rw [List.length_append, Nat.add_sub_cancel, List.getElem?_append_right le_rfl, Nat.sub_self]
    rfl
  unfold clientIp
  dsimp only
  rw [if_pos ⟨Nat.succ_ne_zero _, hheader⟩, hhops, if_pos hcount, hplace]
  change ((validIp E ipAddress a).or _) = some a
  unfold validIp
  rw [haddress.strip, haddress.valid]
  rfl

/-- Primitives that strip blanks. -/
def stripping : Env := { Env.plain with isSpace := fun c => c = ' ' }

/-- A client that writes an address of its own choice, behind two proxies. -/
theorem clientIp_forwarded_two : clientIp stripping some 2 ⟨"198.51.100.9, 203.0.113.7, 10.0.0.2", "10.0.0.3"⟩ =
    some "203.0.113.7" := by
  have haddress : ∀ b ∈ ["203.0.113.7", "10.0.0.2"], IsAddress stripping some b := by
    intro b hb
    rcases List.mem_cons.mp hb with rfl | hb
    · exact ⟨by decide, by decide, by decide +kernel, by decide +kernel, rfl⟩
    · obtain rfl := List.mem_singleton.mp hb
      exact ⟨by decide, by decide, by decide +kernel, by decide +kernel, rfl⟩
  exact clientIp_forwarded some haddress "198.51.100.9" "10.0.0.3"

end Utils
end FlexyVotes
