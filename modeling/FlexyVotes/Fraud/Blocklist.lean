/-
# Blocklisted phones

`add_block` files a phone under the index of its normal form (`addBlock`), and
payments keep the index of the normal form too. An assessment looks a phone up
as it was typed in: the index strips blanks and capitals, and nothing else. So
an entry is found for the spelling that is the normal form, and for no other
spelling of the number.

Key definitions: `addBlock`, `Filed`, `PhoneText`.
Key theorems: `filed_run`, `spellings_agree`.
-/
import FlexyVotes.Fraud.Engine

namespace FlexyVotes
namespace Fraud

open Transactions Payments Voters

/-! ### Filing -/

/-- One call of `add_block`. -/
structure BlockCall where
  kind : BlockKind
  value : String
  reason : String := ""
  raw : Bool := true
  expiresAt : Option Time := none
  organization : Option ℕ := none

/-- The value an entry is filed under. -/
def BlockCall.filed (E : Env) (c : BlockCall) : String :=
  let value := E.strip c.value
  if c.raw ∧ c.kind = .EMAIL then E.blindIndex value "email"
  else if c.raw ∧ c.kind = .PHONE then E.blindIndex (normalizePhone E value) "phone"
  else if c.kind = .EMAIL_DOMAIN then String.ofList ((E.lower value).toList.dropWhile fun c => c = '@')
  else value

/-- The entry as the call leaves it. -/
def BlockCall.entry (E : Env) (c : BlockCall) : BlocklistRow where
  kind := c.kind
  value := c.filed E
  organization := c.organization
  reason := c.reason
  expiresAt := c.expiresAt

/-- The entry `update_or_create` looks for. -/
def BlockCall.meets (E : Env) (c : BlockCall) (e : BlocklistRow) : Bool :=
  e.kind = c.kind && e.value = c.filed E && e.organization = c.organization

/-- `add_block`; `network` is what `ip_network` can read. -/
def addBlock (E : Env) (network : String → Bool) (c : BlockCall) (entries : List BlocklistRow) :
    Except String (List BlocklistRow) :=
  if c.filed E = "" then .error "A value is required."
  else if (c.kind = .CIDR ∨ c.kind = .ANONYMIZER ∨ c.kind = .IP) ∧ !network (c.filed E) then
    .error "Invalid IP address or range."
  else
    match entries.filter (c.meets E) with
    | [] => .ok (entries ++ [c.entry E])
    | [_] => .ok (entries.map fun e => if c.meets E e then c.entry E else e)
    | _ => .error "MultipleObjectsReturned"

/-- What is done to the blocklist. -/
inductive BlockOp
  | add (c : BlockCall)
  /-- The view deactivates an entry. -/
  | deactivate (i : ℕ)

/-- The blocklist after an operation; one that fails leaves it. -/
def BlockOp.apply (E : Env) (network : String → Bool) (entries : List BlocklistRow) : BlockOp → List BlocklistRow
  | .add c => (addBlock E network c entries).toOption.getD entries
  | .deactivate i => entries.modify i fun e => { e with isActive := false }

/-- Phones are added as they are written, which every caller does. -/
def BlockOp.Written : BlockOp → Prop
  | .add c => c.kind = .PHONE → c.raw = true
  | .deactivate _ => True

/-- The phones of the blocklist are filed under the indexes of their normal forms. -/
def Filed (E : Env) (entries : List BlocklistRow) : Prop :=
  ∀ e ∈ entries, e.kind = .PHONE → ∃ r, e.value = E.blindIndex (normalizePhone E r) "phone"

section Filing

variable {E : Env} {network : String → Bool} {entries entries' : List BlocklistRow}

theorem filed_entry {c : BlockCall} (hw : c.kind = .PHONE → c.raw = true) (hk : (c.entry E).kind = .PHONE) :
    ∃ r, (c.entry E).value = E.blindIndex (normalizePhone E r) "phone" := by
  have hkind : c.kind = .PHONE := hk
  refine ⟨E.strip c.value, ?_⟩
  show c.filed E = _
  unfold BlockCall.filed
  rw [if_neg (by simp [hkind]), if_pos ⟨hw hkind, hkind⟩]

theorem Filed.add {c : BlockCall} (h : Filed E entries) (hw : c.kind = .PHONE → c.raw = true)
    (hadd : addBlock E network c entries = .ok entries') : Filed E entries' := by
  intro e he hk
  unfold addBlock at hadd
  split_ifs at hadd
  split at hadd
  · obtain rfl := Except.ok.inj hadd
    rcases List.mem_append.mp he with he | he
    · exact h e he hk
    · obtain rfl := List.mem_singleton.mp he
      exact filed_entry hw hk
  · obtain rfl := Except.ok.inj hadd
    obtain ⟨e₀, he₀, rfl⟩ := List.mem_map.mp he
    by_cases hm : c.meets E e₀ = true
    · rw [if_pos hm] at hk ⊢
      exact filed_entry hw hk
    · rw [if_neg hm] at hk ⊢
      exact h e₀ he₀ hk
  · cases hadd

theorem Filed.apply {op : BlockOp} (h : Filed E entries) (hw : op.Written) : Filed E (op.apply E network entries) := by
  cases op with
  | add c =>
    show Filed E ((addBlock E network c entries).toOption.getD entries)
    rcases hadd : addBlock E network c entries with _ | entries'
    · exact h
    · exact h.add hw hadd
  | deactivate i =>
    intro e he hk
    obtain ⟨e₀, he₀, hkind, hvalue⟩ : ∃ e₀ ∈ entries, e.kind = e₀.kind ∧ e.value = e₀.value := by
      obtain ⟨n, hn⟩ := List.mem_iff_getElem?.mp he
      unfold BlockOp.apply at hn
      rw [List.getElem?_modify] at hn
      obtain ⟨e₀, he₀, rfl⟩ := Option.map_eq_some_iff.mp hn
      refine ⟨e₀, List.mem_of_getElem? he₀, ?_⟩
      split_ifs <;> exact ⟨rfl, rfl⟩
    rw [hvalue]
    exact h e₀ he₀ (hkind ▸ hk)

/-- **However the blocklist came about**, its phones are filed under their normal forms. -/
theorem filed_run {ops : List BlockOp} (hw : ∀ op ∈ ops, op.Written) :
    Filed E (ops.foldl (BlockOp.apply E network) []) := by
  have hrun : ∀ entries, Filed E entries → Filed E (ops.foldl (BlockOp.apply E network) entries) := by
    induction ops with
    | nil => exact fun _ h => h
    | cons op ops ih =>
      intro entries h
      exact ih (fun op' h' => hw op' (List.mem_cons_of_mem _ h')) _ (h.apply (hw op List.mem_cons_self))
  exact hrun [] fun _ h => absurd h List.not_mem_nil

end Filing

/-! ### Spellings of a number -/

/-- A digit or a plus, which `normalize_phone` keeps. -/
def isDial (E : Env) (c : Char) : Bool := E.isDigit c || c = '+'

/-- What Python's tables and the keyed hash are relied on for. -/
structure PhoneText (E : Env) : Prop where
  digit : ∀ c, E.isDigit c = true → E.isSpace c = false
  plus : E.isSpace '+' = false
  two : E.isDigit '2' = true
  three : E.isDigit '3' = true
  /-- Digits and plus signs have no other case. -/
  lower : ∀ s, (∀ c ∈ s.toList, isDial E c = true) → E.lower s = s
  fromLower : ∀ s, (∀ c ∈ (E.lower s).toList, isDial E c = true) → E.lower s = s
  hmac : Function.Injective E.indexHmac
  digest : ∀ s, E.indexHmac s ≠ ""

/-- `normalize_phone` of what is kept. -/
def spelled (raw : List Char) : List Char :=
  if raw.head? = some '+' then raw
  else if raw.take 2 = ['0', '0'] then '+' :: raw.drop 2
  else if raw.head? = some '0' ∧ 10 ≤ raw.length then "+233".toList ++ raw.drop 1
  else if 11 ≤ raw.length then '+' :: raw
  else raw

theorem normalizePhone_eq (E : Env) (s : String) :
    normalizePhone E s = String.ofList (spelled (s.toList.filter (isDial E))) := rfl

theorem filter_dropWhile_of {p q : Char → Bool} (h : ∀ c, p c = true → q c = false) :
    ∀ l : List Char, (l.dropWhile q).filter p = l.filter p
  | [] => rfl
  | c :: l => by
    rw [List.dropWhile_cons]
    by_cases hq : q c = true
    · have hp : p c = false := by
        by_contra hp
        rw [h c (by simpa using hp)] at hq
        cases hq
      rw [if_pos hq, filter_dropWhile_of h l, List.filter_cons_of_neg (by simp [hp])]
    · rw [if_neg hq]

section Spelling

variable {E : Env} (hE : PhoneText E)

include hE

theorem PhoneText.dial {c : Char} (h : isDial E c = true) : E.isSpace c = false := by
  unfold isDial at h
  rw [Bool.or_eq_true, decide_eq_true_eq] at h
  rcases h with h | rfl
  · exact hE.digit c h
  · exact hE.plus

/-- Blanks around a number are no part of its normal form. -/
theorem normalizePhone_strip (s : String) : normalizePhone E (E.strip s) = normalizePhone E s := by
  have hfilter : (E.strip s).toList.filter (isDial E) = s.toList.filter (isDial E) := by
    unfold Env.strip
    rw [String.toList_ofList, List.rdropWhile, List.filter_reverse, filter_dropWhile_of fun c h => hE.dial h,
      ← List.filter_reverse, List.reverse_reverse, filter_dropWhile_of fun c h => hE.dial h]
  rw [normalizePhone_eq, normalizePhone_eq, hfilter]

theorem normalizePhone_dial (s : String) : ∀ c ∈ (normalizePhone E s).toList, isDial E c = true := by
  have hraw : ∀ c ∈ s.toList.filter (isDial E), isDial E c = true := fun c hc => (List.mem_filter.mp hc).2
  have hplus : isDial E '+' = true := by simp [isDial]
  intro c hc
  rw [normalizePhone_eq, String.toList_ofList] at hc
  unfold spelled at hc
  split_ifs at hc
  · exact hraw c hc
  · rcases List.mem_cons.mp hc with rfl | hc
    · exact hplus
    · exact hraw c (List.mem_of_mem_drop hc)
  · rcases List.mem_append.mp hc with hc | hc
    · have hprefix : c = '+' ∨ c = '2' ∨ c = '3' ∨ c = '3' := by simpa using hc
      rcases hprefix with rfl | rfl | rfl | rfl
      · exact hplus
      · simp [isDial, hE.two]
      · simp [isDial, hE.three]
      · simp [isDial, hE.three]
    · exact hraw c (List.mem_of_mem_drop hc)
  · rcases List.mem_cons.mp hc with rfl | hc
    · exact hplus
    · exact hraw c hc
  · exact hraw c hc

omit hE in
theorem spelled_idem (raw : List Char) : spelled (spelled raw) = spelled raw := by
  unfold spelled
  split_ifs <;> simp_all

/-- A normal form is its own. -/
theorem normalizePhone_idem (s : String) : normalizePhone E (normalizePhone E s) = normalizePhone E s := by
  have hkeep : (normalizePhone E s).toList.filter (isDial E) = (normalizePhone E s).toList :=
    List.filter_eq_self.mpr (normalizePhone_dial hE s)
  rw [normalizePhone_eq, hkeep, normalizePhone_eq, String.toList_ofList, spelled_idem]

theorem strip_dial {s : String} (h : ∀ c ∈ s.toList, isDial E c = true) : E.strip s = s := by
  have hdrop : ∀ l : List Char, (∀ c ∈ l, isDial E c = true) → l.dropWhile E.isSpace = l := fun l hl => by
    rcases l with _ | ⟨c, l⟩
    · rfl
    · rw [List.dropWhile_cons, if_neg (by simp [hE.dial (hl c List.mem_cons_self)])]
  unfold Env.strip
  rw [List.rdropWhile, hdrop _ h, hdrop _ fun c hc => h c (List.mem_reverse.mp hc), List.reverse_reverse,
    String.ofList_toList]

/-- The index of what is typed in is that of a normal form only where the normal
form is typed in. -/
theorem strip_of_index {p r : String} (hne : E.blindIndex p "phone" ≠ "")
    (h : E.blindIndex p "phone" = E.blindIndex (normalizePhone E r) "phone") : E.strip p = normalizePhone E r := by
  have hdial := normalizePhone_dial hE r
  have hstrip := strip_dial hE hdial
  unfold Env.blindIndex at h hne
  rw [hstrip, hE.lower _ hdial] at h
  split_ifs at h hne with hp hr
  · exact absurd rfl hne
  · exact absurd rfl hne
  · exact absurd h (hE.digest _)
  · have htext := hE.hmac h
    have hlower : E.lower (E.strip p) = normalizePhone E r := by
      have hlist := congrArg String.toList htext
      simp only [String.toList_append] at hlist
      exact String.ext_iff.mpr (List.append_cancel_left hlist)
    have hsame := hE.fromLower (E.strip p) (by rw [hlower]; exact hdial)
    rw [← hsame, hlower]

end Spelling

/-! ### A phone at the checkout -/

/-- The subject of a checkout with the phone `phone`. -/
def typed (q : InitiateCall) (ev : EventRow) (userAgent : String) (relayed : Bool) (quoted : Quote) (phone : String) :
    Subject :=
  checkoutSubject { q with order := { q.order with phone := phone } } ev userAgent relayed quoted

/-- An entry of the number is in force. -/
def Blocked (E : Env) (w : Sources) (org : Option ℕ) (number : String) : Prop :=
  ∃ e ∈ w.blocklist, inForce org w.now e = true ∧ e.kind = .PHONE ∧ e.value = E.blindIndex number "phone" ∧ e.value ≠ ""

section Checkout

variable {E : Env} (hE : PhoneText E) {S : Thresholds} {w : Sources} {q : InitiateCall} {ev : EventRow} {userAgent : String}
  {relayed : Bool} {quoted : Quote}

/-- Two phones have the same signals if their own are the same. -/
theorem blocklistSignals_typed {p p' : String} :
    blocklistSignals E S w (typed q ev userAgent relayed quoted p) =
        blocklistSignals E S w (typed q ev userAgent relayed quoted p') ↔
      phoneSignals E w (typed q ev userAgent relayed quoted p) = phoneSignals E w (typed q ev userAgent relayed quoted p') := by
  have hsplit : ∀ x, blocklistSignals E S w (typed q ev userAgent relayed quoted x) =
      addressSignals E w (typed q ev userAgent relayed quoted p) ++
        (phoneSignals E w (typed q ev userAgent relayed quoted x) ++
          (deviceSignals w (typed q ev userAgent relayed quoted p) ++
            originSignals E S w (typed q ev userAgent relayed quoted p))) := fun _ => rfl
  rw [hsplit p, hsplit p', List.append_cancel_left_eq, List.append_cancel_right_eq]

theorem find_isSome {value : String} {org : Option ℕ} (hne : value ≠ "") :
    (blocklisted w .PHONE value org).isSome = true ↔
      ∃ e ∈ w.blocklist, inForce org w.now e = true ∧ e.kind = .PHONE ∧ e.value = value := by
  unfold blocklisted
  rw [if_neg hne, List.find?_isSome]
  simp only [Bool.and_eq_true, decide_eq_true_eq, and_assoc]

theorem phoneIndex_typed (p : String) : (typed q ev userAgent relayed quoted p).phoneIndex E = E.blindIndex p "phone" := by
  show (if p = "" then "" else E.blindIndex p "phone") = E.blindIndex p "phone"
  split_ifs with hp
  · subst hp
    rfl
  · rfl

theorem phoneSignals_ne_nil {p : String} : phoneSignals E w (typed q ev userAgent relayed quoted p) ≠ [] ↔
    E.blindIndex p "phone" ≠ "" ∧ (blocklisted w .PHONE (E.blindIndex p "phone") ev.organization).isSome = true := by
  have horg : (typed q ev userAgent relayed quoted p).org = ev.organization := rfl
  unfold phoneSignals
  rw [phoneIndex_typed, horg]
  by_cases hne : E.blindIndex p "phone" = ""
  · simp [hne, blocklisted]
  · rcases blocklisted w .PHONE (E.blindIndex p "phone") ev.organization with _ | e
    · simp
    · simp [hne]

/-- The signals depend on the index only. -/
theorem phoneSignals_congr {p p' : String} (h : E.blindIndex p "phone" = E.blindIndex p' "phone") :
    phoneSignals E w (typed q ev userAgent relayed quoted p) = phoneSignals E w (typed q ev userAgent relayed quoted p') := by
  unfold phoneSignals
  rw [phoneIndex_typed, phoneIndex_typed, h]
  rfl

include hE

theorem index_of_strip {p n : String} (hp : E.strip p = n) (hn : ∀ c ∈ n.toList, isDial E c = true) :
    E.blindIndex p "phone" = E.blindIndex n "phone" := by
  unfold Env.blindIndex
  rw [hp, strip_dial hE hn]

/-- A phone that is listed is written in its normal form, and its number is blocked. -/
theorem listed_of_signals (hw : Filed E w.blocklist) {p : String}
    (h : phoneSignals E w (typed q ev userAgent relayed quoted p) ≠ []) :
    E.strip p = normalizePhone E p ∧ Blocked E w ev.organization (normalizePhone E p) := by
  obtain ⟨hne, hlisted⟩ := phoneSignals_ne_nil.mp h
  obtain ⟨e, he, hforce, hkind, hvalue⟩ := (find_isSome hne).mp hlisted
  obtain ⟨r, hr⟩ := hw e he hkind
  have hstrip := strip_of_index hE hne (hvalue.symm.trans hr)
  have hnormal : normalizePhone E p = normalizePhone E r := by
    rw [← normalizePhone_strip hE p, hstrip, normalizePhone_idem hE]
  refine ⟨by rw [hstrip, hnormal], e, he, hforce, hkind, by rw [hnormal, hr], ?_⟩
  rw [hvalue]
  exact hne

/-- A blocked number is listed in its normal form. -/
theorem signals_of_blocked {p : String} (hp : E.strip p = normalizePhone E p)
    (h : Blocked E w ev.organization (normalizePhone E p)) :
    phoneSignals E w (typed q ev userAgent relayed quoted p) ≠ [] := by
  obtain ⟨e, he, hforce, hkind, hvalue, hne⟩ := h
  have hindex := index_of_strip hE hp (normalizePhone_dial hE p)
  refine phoneSignals_ne_nil.mpr ⟨?_, ?_⟩
  · rw [hindex, ← hvalue]
    exact hne
  · rw [hindex, ← hvalue]
    exact (find_isSome hne).mpr ⟨e, he, hforce, hkind, rfl⟩

/-- **When the spellings of a number are blocked alike**: where the number is not
blocked, or both are written in its normal form, blanks around apart. -/
theorem spellings_agree (hw : Filed E w.blocklist) {p p' : String} (hsame : normalizePhone E p = normalizePhone E p') :
    (blocklistSignals E S w (typed q ev userAgent relayed quoted p) =
        blocklistSignals E S w (typed q ev userAgent relayed quoted p') ∧
      (Blocked E w ev.organization (normalizePhone E p) →
        phoneSignals E w (typed q ev userAgent relayed quoted p) ≠ [])) ↔
      (Blocked E w ev.organization (normalizePhone E p) →
        E.strip p = normalizePhone E p ∧ E.strip p' = normalizePhone E p) := by
  rw [blocklistSignals_typed]
  constructor
  · rintro ⟨heq, hblocked⟩ hb
    have hp := hblocked hb
    have hp' : phoneSignals E w (typed q ev userAgent relayed quoted p') ≠ [] := heq ▸ hp
    exact ⟨(listed_of_signals hE hw hp).1, (listed_of_signals hE hw hp').1.trans hsame.symm⟩
  · intro h
    by_cases hb : Blocked E w ev.organization (normalizePhone E p)
    · obtain ⟨hp, hp'⟩ := h hb
      have hdial := normalizePhone_dial hE p
      refine ⟨phoneSignals_congr ?_, fun _ => signals_of_blocked hE hp hb⟩
      rw [index_of_strip hE hp hdial, index_of_strip hE hp' hdial]
    · have hnone : ∀ x, normalizePhone E x = normalizePhone E p →
          phoneSignals E w (typed q ev userAgent relayed quoted x) = [] := fun x hx => by
        by_contra hne
        exact hb (hx ▸ (listed_of_signals hE hw hne).2)
      rw [hnone p rfl, hnone p' hsame.symm]
      exact ⟨rfl, fun h => absurd h hb⟩

end Checkout

/-! ### A number with a space in it -/

/-- Blanks are spaces, and digests are not empty. -/
def spacedEnv : Env := { Env.plain with isSpace := fun c => c = ' ', indexHmac := fun s => "i" ++ s }

theorem spacedEnv_text : PhoneText spacedEnv where
  digit := fun c h => by
    by_contra hc
    have hspace : c = ' ' := by simpa [spacedEnv] using hc
    subst hspace
    revert h
    decide
  plus := by decide
  two := by decide
  three := by decide
  lower := fun _ _ => rfl
  fromLower := fun _ _ => rfl
  hmac := fun a b h => by
    have hlist := congrArg String.toList h
    simp only [spacedEnv, String.toList_append] at hlist
    exact String.ext_iff.mpr (List.append_cancel_left hlist)
  digest := fun s h => by
    have hlist := congrArg String.toList h
    simp [spacedEnv] at hlist

/-- The blocklist with one phone, platform-wide. -/
def onePhone : Sources where
  blocklist := [BlockOp.add { kind := .PHONE, value := "024 123 4567" }].foldl (BlockOp.apply spacedEnv fun _ => true) []
  now := 1

theorem onePhone_filed : Filed spacedEnv onePhone.blocklist := filed_run (by simp [BlockOp.Written])

/-- A checkout of two votes. -/
def phoneOrder : InitiateCall where
  event := 1
  candidate := 7
  order := { votes := .int 2 }
  risk := ⟨0, "ALLOW"⟩
  reference := "ref"
  answer := .error "timeout"
  now := fun _ => 1

def phoneEvent : EventRow where
  startDate := 0
  endDate := 10
  status := .OPEN

/-- In the normal form, with blanks around or without, the number is blocked alike. -/
theorem spellings_agree_normal :
    blocklistSignals spacedEnv {} onePhone (typed phoneOrder phoneEvent "" false {} "+233241234567") =
        blocklistSignals spacedEnv {} onePhone (typed phoneOrder phoneEvent "" false {} " +233241234567 ") ∧
      (Blocked spacedEnv onePhone none (normalizePhone spacedEnv "+233241234567") →
        phoneSignals spacedEnv onePhone (typed phoneOrder phoneEvent "" false {} "+233241234567") ≠ []) := by
  have hsame : normalizePhone spacedEnv "+233241234567" = normalizePhone spacedEnv " +233241234567 " := by decide +kernel
  exact (spellings_agree spacedEnv_text onePhone_filed hsame).mpr fun _ => by decide +kernel

/-- **The number that was blocked is not found** as it was typed in to be blocked. -/
theorem not_spellings_agree :
    ¬ ∀ (E : Env) (S : Thresholds) (w : Sources) (q : InitiateCall) (ev : EventRow) (userAgent : String) (relayed : Bool)
      (quoted : Quote) (p p' : String), PhoneText E → Filed E w.blocklist → normalizePhone E p = normalizePhone E p' →
      blocklistSignals E S w (typed q ev userAgent relayed quoted p) =
          blocklistSignals E S w (typed q ev userAgent relayed quoted p') ∧
        (Blocked E w ev.organization (normalizePhone E p) →
          phoneSignals E w (typed q ev userAgent relayed quoted p) ≠ []) := by
  intro h
  have hsame := (h spacedEnv {} onePhone phoneOrder phoneEvent "" false {} "0241234567" "+233241234567" spacedEnv_text
    onePhone_filed (by decide +kernel)).1
  revert hsame
  decide +kernel

end Fraud
end FlexyVotes
