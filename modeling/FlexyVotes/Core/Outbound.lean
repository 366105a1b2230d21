/-
# Requests to third parties

`safe_request` sends nothing but https, to hosts on the allow-list or to hosts of
a tenant that resolve to public addresses, and nothing while the circuit breaker
of the integration is open. A breaker opens at the fifth failure that its counter
in the cache holds; the counter goes with a success, and a minute after its first
failure. Requests are under way side by side, and each call of the cache is a step
of its own.

What is sent is permitted, and no breaker has opened in the half minute before
(`sent_permitted`). Of failures that are recorded one at a time ten in less than a
minute, with no success among them, open the circuit (`opens_in_time`): four may
go with a counter that expires, and one with a count that it expires under.

Key definitions: `validateUrl`, `step`, `Permitted`, `Phase`.
Key theorems: `validateUrl_ok`, `Guarded.tick`, `sent_permitted`, `opens_in_time`.
-/
import FlexyVotes.Core.Login
import FlexyVotes.Lib.Cache
import FlexyVotes.Lib.Entries
import FlexyVotes.Lib.Steps

namespace FlexyVotes
namespace Outbound

open Caching (Cache)
open Login (MICROSECONDS)

/-! ### Hosts -/

/-- An address that a host resolves to. -/
structure Address where
  isGlobal : Bool
  isMulticast : Bool

/-- The parts of a URL that are looked at. -/
structure Url where
  scheme : String
  hostname : Option String

/-- What is there outside: the addresses of a host, when it resolves, and whether
a text is an address. -/
structure Network where
  resolve : String → Option (List Address)
  isAddress : String → Bool

inductive Blocked
  | cannotResolve (host : String)
  | notHttps
  | noHost
  | rawIp
  | nonPublic (host : String)
  | notAllowed (host : String)
  deriving DecidableEq

def Blocked.message : Blocked → String
  | .cannotResolve host => "Cannot resolve " ++ host
  | .notHttps => "Only https outbound requests are allowed."
  | .noHost => "URL has no host."
  | .rawIp => "Raw IP hosts are not allowed."
  | .nonPublic host => host ++ " resolves to a non-public address."
  | .notAllowed host => "Host " ++ host ++ " is not on the outbound allow-list."

def isPublicAddress (net : Network) (host : String) : Except Blocked Bool :=
  match net.resolve host with
  | none => .error (.cannotResolve host)
  | some infos => .ok (infos.all fun ip => ip.isGlobal && !ip.isMulticast)

/-- The host, when requests to the URL are allowed. -/
def validateUrl (lower : String → String) (allowedHosts : List String) (net : Network) (url : Url)
    (extraHosts : List String) : Except Blocked String :=
  let host := lower (url.hostname.getD "")
  if url.scheme ≠ "https" then .error .notHttps
  else if host = "" then .error .noHost
  else if host ∈ allowedHosts.map lower then .ok host
  else if host ∈ extraHosts.map lower then
    if net.isAddress host then .error .rawIp
    else
      match isPublicAddress net host with
      | .error e => .error e
      | .ok false => .error (.nonPublic host)
      | .ok true => .ok host
  else .error (.notAllowed host)

/-! ### Circuit breakers -/

/-- A breaker as `breaker` makes it. -/
def failureThreshold : ℕ := 5
def failureWindow : ℕ := 60 * MICROSECONDS
def resetTimeout : ℕ := 30 * MICROSECONDS

def openKey (name : String) : String := "cb:" ++ name ++ ":open_until"

def failKey (name : String) : String := "cb:" ++ name ++ ":failures"

def isOpen (name : String) (now : Time) (cache : Cache String) : Bool :=
  now < ((Caching.get now (openKey name) cache).map (·.value)).getD 0

/-- What `safe_request` is called with. -/
structure Request where
  method : String
  url : Url
  integration : String := "default"
  extraHosts : List String := []
  allowRedirects : Option Bool := none

/-- A request that was sent. -/
structure Sent where
  request : Request
  host : String
  allowRedirects : Bool

/-- Where a request is. -/
inductive Place
  /-- The provider has not answered. -/
  | waiting
  /-- A failure is recorded, and the counter is there. -/
  | counting
  /-- There were enough failures. -/
  | opening
  | clearing
  deriving DecidableEq

structure State where
  cache : Cache String := fun _ => none
  calls : List (ℕ × String × Place) := []
  /-- The last request first. -/
  sent : List Sent := []
  /-- The integrations whose breaker has opened, and when. -/
  openings : List (String × Time) := []
  clock : Time := 0

inductive Step
  | request (i : ℕ) (r : Request) (net : Network)
  /-- The status of the response, or none when there was none. -/
  | respond (i : ℕ) (status : Option ℕ)
  | incr (i : ℕ)
  | open (i : ℕ)
  | clear (i : ℕ)

def State.call (i : ℕ) (s : State) : Option (String × Place) := Entries.get i s.calls

def State.setCall (i : ℕ) (o : Option (String × Place)) (s : State) : State := { s with calls := Entries.put i o s.calls }

/-- The failure counts for so many. -/
def State.failed (i : ℕ) (name : String) (failures : ℕ) (s : State) : State :=
  s.setCall i (if failureThreshold ≤ failures then some (name, .opening) else none)

/-- The request failed: there was no response, or an error of the server. -/
def Fails (status : Option ℕ) : Bool := status.all fun code => 500 ≤ code

variable (lower : String → String) (allowedHosts : List String)

def step : Step → State → State
  | .request i r net, s =>
    match s.call i, validateUrl lower allowedHosts net r.url r.extraHosts with
    | none, .ok host =>
      if isOpen r.integration s.clock s.cache then s
      else { s.setCall i (some (r.integration, .waiting)) with sent := ⟨r, host, r.allowRedirects.getD false⟩ :: s.sent }
    | _, _ => s
  | .respond i status, s =>
    match s.call i with
    | some (name, .waiting) =>
      if Fails status then
        match Caching.add s.clock (failKey name) 1 failureWindow s.cache with
        | some cache => { s with cache := cache }.failed i name 1
        | none => s.setCall i (some (name, .counting))
      else { s.setCall i none with cache := Caching.delete (failKey name) s.cache }
    | _ => s
  | .incr i, s =>
    match s.call i with
    | some (name, .counting) =>
      match Caching.incr s.clock (failKey name) s.cache with
      | some (failures, cache) => { s with cache := cache }.failed i name failures
      -- `ValueError`: the counter has gone
      | none => s.failed i name 1
    | _ => s
  | .open i, s =>
    match s.call i with
    | some (name, .opening) =>
      { s.setCall i (some (name, .clearing)) with
        cache := Caching.set s.clock (openKey name) (s.clock + resetTimeout) (resetTimeout + 5 * MICROSECONDS) s.cache
        openings := (name, s.clock) :: s.openings }
    | _ => s
  | .clear i, s =>
    match s.call i with
    | some (name, .clearing) => { s.setCall i none with cache := Caching.delete (failKey name) s.cache }
    | _ => s

def State.upTo (s : State) (now : Time) : State := { s with clock := now }

/-- A step at its moment. -/
def tick (x : Time × Step) (s : State) : State := step lower allowedHosts x.2 (s.upTo x.1)

/-! ### What is permitted -/

variable {lower allowedHosts}

/-- Requests to the URL may go to the host. -/
structure Permitted (lower : String → String) (allowedHosts : List String) (net : Network) (url : Url)
    (extraHosts : List String) (host : String) : Prop where
  https : url.scheme = "https"
  host_eq : host = lower (url.hostname.getD "")
  host_ne : host ≠ ""
  listed : host ∈ allowedHosts.map lower ∨
    (host ∈ extraHosts.map lower ∧ net.isAddress host = false ∧
      ∃ infos, net.resolve host = some infos ∧ ∀ ip ∈ infos, ip.isGlobal = true ∧ ip.isMulticast = false)

theorem isPublicAddress_ok {net : Network} {host : String} (h : isPublicAddress net host = .ok true) :
    ∃ infos, net.resolve host = some infos ∧ ∀ ip ∈ infos, ip.isGlobal = true ∧ ip.isMulticast = false := by
  unfold isPublicAddress at h
  split at h
  · cases h
  · rename_i infos hinfos
    refine ⟨infos, hinfos, fun ip hip => ?_⟩
    have hall := List.all_eq_true.mp (Except.ok.inj h) ip hip
    simpa using hall

theorem validateUrl_ok {net : Network} {url : Url} {extraHosts : List String} {host : String}
    (h : validateUrl lower allowedHosts net url extraHosts = .ok host) :
    Permitted lower allowedHosts net url extraHosts host := by
  unfold validateUrl at h
  dsimp only at h
  split at h
  · cases h
  rename_i hscheme
  split at h
  · cases h
  rename_i hne
  split at h
  · rename_i hallowed
    cases h
    exact ⟨not_not.mp hscheme, rfl, hne, Or.inl hallowed⟩
  split at h
  · rename_i hextra
    split at h
    · cases h
    rename_i hraw
    split at h
    · cases h
    · cases h
    · rename_i hpublic
      cases h
      exact ⟨not_not.mp hscheme, rfl, hne, Or.inr ⟨hextra, by simpa using hraw, isPublicAddress_ok hpublic⟩⟩
  · cases h

/-! ### Keys -/

theorem openKey_injective : Function.Injective openKey := fun name name' h => by
  have hchars := congrArg String.toList h
  unfold openKey at hchars
  rw [String.toList_append, String.toList_append, String.toList_append, String.toList_append] at hchars
  exact String.toList_injective (List.append_cancel_left (List.append_cancel_right hchars))

theorem openKey_ne_failKey (name name' : String) : openKey name ≠ failKey name' := fun h => by
  have hchars := congrArg (fun k => k.toList.reverse) h
  unfold openKey failKey at hchars
  simp only [String.toList_append, List.reverse_append] at hchars
  simp at hchars

/-! ### What is sent -/

variable {s : State} {name : String}

/-- An opening is in the past, and keeps the breaker open for its time. -/
structure Guarded (s : State) : Prop where
  past : ∀ o ∈ s.openings, o.2 ≤ s.clock
  kept : ∀ o ∈ s.openings, ∃ e, s.cache (openKey o.1) = some e ∧
    o.2 + resetTimeout ≤ e.value ∧ o.2 + resetTimeout ≤ e.expires

theorem Guarded.start : Guarded {} where
  past o h := by cases h
  kept o h := by cases h

theorem Guarded.upTo {now : Time} (h : Guarded s) (hnow : s.clock ≤ now) : Guarded (s.upTo now) where
  past o ho := (h.past o ho).trans hnow
  kept := h.kept

/-- The openings and their entries are as they were. -/
theorem Guarded.of_same {s' : State} (h : Guarded s) (hopen : s'.openings = s.openings) (hclock : s'.clock = s.clock)
    (hcache : ∀ name, s'.cache (openKey name) = s.cache (openKey name)) : Guarded s' where
  past o ho := by
    rw [hclock]
    exact h.past o (hopen ▸ ho)
  kept o ho := by
    rw [hcache]
    exact h.kept o (hopen ▸ ho)

theorem update_failKey {o : Option Caching.Entry} {name' : String} (cache : Cache String) :
    Function.update cache (failKey name') o (openKey name) = cache (openKey name) :=
  Function.update_of_ne (openKey_ne_failKey name name') _ _

theorem Guarded.opened {i : ℕ} (h : Guarded s) (hcall : s.call i = some (name, .opening)) :
    Guarded (step lower allowedHosts (.open i) s) := by
  unfold step
  simp only [hcall]
  have hle : s.clock + resetTimeout ≤ s.clock + (resetTimeout + 5 * MICROSECONDS) := Nat.add_le_add_left (Nat.le_add_right _ _) _
  refine ⟨fun o ho => ?_, fun o ho => ?_⟩
  · rcases List.mem_cons.mp ho with rfl | ho
    · exact le_rfl
    · exact h.past o ho
  · by_cases hname : o.1 = name
    · refine ⟨⟨s.clock + resetTimeout, s.clock + (resetTimeout + 5 * MICROSECONDS)⟩, ?_, ?_⟩
      · change Function.update s.cache (openKey name) _ (openKey o.1) = _
        rw [hname, Function.update_self]
      · have hpast : o.2 ≤ s.clock := by
          rcases List.mem_cons.mp ho with rfl | ho
          · exact le_rfl
          · exact h.past o ho
        exact ⟨Nat.add_le_add_right hpast _, (Nat.add_le_add_right hpast _).trans hle⟩
    · rcases List.mem_cons.mp ho with rfl | ho
      · exact absurd rfl hname
      · obtain ⟨e, he, hrest⟩ := h.kept o ho
        exact ⟨e, (Function.update_of_ne (fun heq => hname (openKey_injective heq)) _ _).trans he, hrest⟩

theorem Guarded.step (h : Guarded s) (x : Step) : Guarded (step lower allowedHosts x s) := by
  cases x with
  | request i r net =>
    unfold Outbound.step
    dsimp only
    split
    · split
      · exact h
      · exact h.of_same rfl rfl fun _ => rfl
    · exact h
  | respond i status =>
    unfold Outbound.step
    dsimp only
    split
    · split
      · split
        · rename_i hadd
          obtain ⟨-, rfl⟩ := Caching.add_eq_some.mp hadd
          exact h.of_same rfl rfl fun _ => update_failKey _
        · exact h.of_same rfl rfl fun _ => rfl
      · exact h.of_same rfl rfl fun _ => update_failKey _
    · exact h
  | incr i =>
    unfold Outbound.step
    dsimp only
    split
    · split
      · rename_i hincr
        obtain ⟨e, -, -, rfl⟩ := Caching.incr_eq_some.mp hincr
        exact h.of_same rfl rfl fun _ => update_failKey _
      · exact h.of_same rfl rfl fun _ => rfl
    · exact h
  | «open» i =>
    rcases hcall : s.call i with _ | ⟨name, place⟩
    · simpa only [Outbound.step, hcall] using h
    · cases place with
      | opening => exact h.opened hcall
      | waiting | counting | clearing => simpa only [Outbound.step, hcall] using h
  | clear i =>
    unfold Outbound.step
    dsimp only
    split
    · exact h.of_same rfl rfl fun _ => update_failKey _
    · exact h

/-- While a breaker that has opened is to stay open, it is. -/
theorem Guarded.isOpen {o : String × Time} (h : Guarded s) (ho : o ∈ s.openings) (hlt : s.clock < o.2 + resetTimeout) :
    isOpen o.1 s.clock s.cache = true := by
  obtain ⟨e, he, hvalue, hexp⟩ := h.kept o ho
  have hget : Caching.get s.clock (openKey o.1) s.cache = some e := Caching.get_eq_some.mpr ⟨he, hlt.trans_le hexp⟩
  unfold Outbound.isOpen
  rw [hget]
  exact decide_eq_true (hlt.trans_le hvalue)

/-- What is sent in the step is permitted, follows no redirects unless it is told
to, and no breaker of its integration has opened in the last half minute. -/
def SendsPermitted (lower : String → String) (allowedHosts : List String) (x : Time × Step) (s : State) : Prop :=
  ∀ p, (tick lower allowedHosts x s).sent = p :: s.sent →
    (∃ net, Permitted lower allowedHosts net p.request.url p.request.extraHosts p.host) ∧
    (p.request.allowRedirects = none → p.allowRedirects = false) ∧
    ∀ o ∈ s.openings, o.1 = p.request.integration → o.2 + resetTimeout ≤ x.1

/-- A payment, and a directory of a tenant's that resolves to no public address. -/
def payment : Request := { method := "GET", url := ⟨"https", some "api.paystack.co"⟩, integration := "paystack" }

def directory : Request :=
  { method := "GET", url := ⟨"https", some "idp.example"⟩, integration := "sso", extraHosts := ["idp.example"] }

def network : Network := ⟨fun _ => some [⟨false, false⟩], fun _ => false⟩

theorem cons_ne {α : Type} {a : α} {l : List α} : l ≠ a :: l := fun h => by
  have hlen := congrArg List.length h
  simp at hlen

/-- Only a request sends. -/
theorem sent_eq {x : Step} (h : ∀ i r net, x ≠ .request i r net) : (step lower allowedHosts x s).sent = s.sent := by
  cases x with
  | request i r net => exact absurd rfl (h i r net)
  | respond i status =>
    unfold step
    dsimp only
    split
    · split
      · split <;> rfl
      · rfl
    · rfl
  | incr i =>
    unfold step
    dsimp only
    split
    · split <;> rfl
    · rfl
  | «open» i | clear i =>
    unfold step
    dsimp only
    split <;> rfl

theorem Guarded.sends {x : Time × Step} (h : Guarded s) (hnow : s.clock ≤ x.1) : SendsPermitted lower allowedHosts x s := by
  intro p hp
  have hg := h.upTo hnow
  obtain ⟨now, x⟩ := x
  by_cases hx : ∀ i r net, x ≠ .request i r net
  · have hsame : (tick lower allowedHosts (now, x) s).sent = s.sent := sent_eq hx
    exact absurd (hsame.symm.trans hp) cons_ne
  · push Not at hx
    obtain ⟨i, r, net, rfl⟩ := hx
    unfold tick Outbound.step at hp
    dsimp only at hp
    split at hp
    · rename_i host _ hvalid
      split at hp
      · exact absurd hp cons_ne
      · rename_i hclosed
        obtain ⟨rfl, -⟩ := List.cons.inj hp
        refine ⟨⟨net, validateUrl_ok hvalid⟩, fun hnone => ?_, fun o ho hname => ?_⟩
        · exact congrArg (·.getD false) hnone
        · by_contra hlt
          have hopen := hg.isOpen ho (Nat.lt_of_not_le hlt)
          rw [hname] at hopen
          exact hclosed hopen
    · exact absurd hp cons_ne

/-- No failure of the integration is being recorded. -/
def State.Idle (name : String) (s : State) : Prop := ∀ c ∈ s.calls, c.2.1 = name → c.2.2 = .waiting

instance (name : String) (s : State) : Decidable (s.Idle name) :=
  inferInstanceAs (Decidable (∀ c ∈ s.calls, _ → _))

/-- A response of the integration comes with the step, of the status. -/
def responds (name : String) (x : Step) (s : State) : Option (Option ℕ) :=
  match x with
  | .respond i status => if s.call i = some (name, .waiting) then some status else none
  | _ => none

/-- The failures of the integration in a run. -/
def failures (lower : String → String) (allowedHosts : List String) (name : String) : List (Time × Step) → State → ℕ
  | [], _ => 0
  | x :: xs, s =>
    (if responds name x.2 s = none then 0 else 1) + failures lower allowedHosts name xs (tick lower allowedHosts x s)

/-- Nothing but failures, each recorded by itself, in the minute from `t`. -/
def InARow (name : String) (t : Time) (x : Time × Step) (s : State) : Prop :=
  s.clock ≤ x.1 ∧ t ≤ x.1 ∧ x.1 < t + failureWindow ∧ ∀ status ∈ responds name x.2 s, Fails status = true ∧ s.Idle name

instance (name : String) (t : Time) (x : Time × Step) (s : State) : Decidable (InARow name t x s) :=
  inferInstanceAs (Decidable (_ ∧ _ ∧ _ ∧ ∀ status ∈ responds name x.2 s, _))

/-- How often the breaker has opened. -/
def State.opened (name : String) (s : State) : ℕ := s.openings.countP fun o => o.1 = name

/-- What the counter holds of so many failures since `t`. -/
inductive Held (name : String) (t : Time) (n : ℕ) (s : State) : Prop
  /-- The counter was there before. -/
  | first (lt : n < failureThreshold) (entry : n = 0 ∨ ∃ e, s.cache (failKey name) = some e ∧ n ≤ e.value)
  /-- It was begun since, and is there for the minute. -/
  | second (e : Caching.Entry) (he : s.cache (failKey name) = some e) (le : n ≤ failureThreshold + e.value)
    (few : e.value < failureThreshold) (exp : t + failureWindow ≤ e.expires)

/-- So many failures since `t`; the counter may have expired under one of them. -/
inductive Phase (name : String) (t : Time) (n : ℕ) (s : State) : Prop
  | held (held : Held name t n s)
  | lapsed (le : n ≤ failureThreshold) (gone : Caching.get s.clock (failKey name) s.cache = none)

/-- Where the breaker is after so many failures since `t`, when it had opened `k`
times. -/
inductive Stage (name : String) (t : Time) (k n : ℕ) (s : State) : Prop
  | opened (lt : k < s.opened name)
  | idle (idle : s.Idle name) (phase : Phase name t n s)
  | counting (i m : ℕ) (mem : (i, name, Place.counting) ∈ s.calls)
    (only : ∀ c ∈ s.calls, c.2.1 = name → c.2.2 ≠ .waiting → c = (i, name, .counting))
    (n_eq : n = m + 1) (held : Held name t m s)
  | opening (i : ℕ) (mem : (i, name, Place.opening) ∈ s.calls)
    (only : ∀ c ∈ s.calls, c.2.1 = name → c.2.2 ≠ .waiting → c = (i, name, .opening))

variable {t : Time} {k n : ℕ} {s' : State}

theorem failKey_injective : Function.Injective failKey := fun name name' h => by
  have hchars := congrArg String.toList h
  unfold failKey at hchars
  rw [String.toList_append, String.toList_append, String.toList_append, String.toList_append] at hchars
  exact String.toList_injective (List.append_cancel_left (List.append_cancel_right hchars))

theorem mem_of_call {i : ℕ} {c : String × Place} (h : s.call i = some c) : (i, c) ∈ s.calls := Entries.mem_of_get h

theorem mem_setCall {i : ℕ} {o : Option (String × Place)} {c : ℕ × String × Place} :
    c ∈ (s.setCall i o).calls ↔ (c.1 = i ∧ o = some c.2) ∨ (c ∈ s.calls ∧ c.1 ≠ i) := Entries.mem_put

theorem Held.of_same (h : Held name t n s) (hcache : s'.cache (failKey name) = s.cache (failKey name)) :
    Held name t n s' := by
  cases h with
  | first lt entry => exact .first lt (by rwa [hcache])
  | second e he le few exp => exact .second e (hcache.trans he) le few exp

theorem Phase.of_same (h : Phase name t n s) (hclock : s.clock ≤ s'.clock)
    (hcache : s'.cache (failKey name) = s.cache (failKey name)) : Phase name t n s' := by
  cases h with
  | held held => exact .held (held.of_same hcache)
  | lapsed le gone =>
    refine .lapsed le ?_
    have hsame : Caching.get s'.clock (failKey name) s'.cache = Caching.get s'.clock (failKey name) s.cache := by
      unfold Caching.get
      rw [hcache]
    rw [hsame]
    rcases hget : Caching.get s'.clock (failKey name) s.cache with _ | e
    · rfl
    · rw [Caching.get_earlier hclock hget] at gone
      cases gone

/-- What the step does to other integrations is not seen. -/
structure Unseen (name : String) (s s' : State) : Prop where
  clock : s.clock ≤ s'.clock
  cache : s'.cache (failKey name) = s.cache (failKey name)
  opened : s'.opened name = s.opened name
  calls : ∀ c, c.2.1 = name → c.2.2 ≠ .waiting → (c ∈ s'.calls ↔ c ∈ s.calls)

theorem Unseen.refl (name : String) (s : State) : Unseen name s s := ⟨le_rfl, rfl, rfl, fun _ _ _ => Iff.rfl⟩

theorem Stage.of_unseen (h : Stage name t k n s) (hu : Unseen name s s') : Stage name t k n s' := by
  cases h with
  | opened lt => exact .opened (hu.opened ▸ lt)
  | idle idle phase =>
    refine .idle (fun c hc hname => ?_) (phase.of_same hu.clock hu.cache)
    by_contra hne
    exact hne (idle c ((hu.calls c hname hne).mp hc) hname)
  | counting i m mem only n_eq held =>
    refine .counting i m ((hu.calls _ rfl (by simp)).mpr mem) (fun c hc hname hne => ?_) n_eq (held.of_same hu.cache)
    exact only c ((hu.calls c hname hne).mp hc) hname hne
  | opening i mem only =>
    refine .opening i ((hu.calls _ rfl (by simp)).mpr mem) fun c hc hname hne => ?_
    exact only c ((hu.calls c hname hne).mp hc) hname hne

/-- No request has two places. -/
def State.Keyed (s : State) : Prop := Entries.Keyed s.calls

theorem State.Keyed.setCall {i : ℕ} {o : Option (String × Place)} (h : s.Keyed) : (s.setCall i o).Keyed := Entries.Keyed.put h

theorem State.Keyed.step (h : s.Keyed) (x : Step) : (step lower allowedHosts x s).Keyed := by
  cases x with
  | request i r net =>
    unfold Outbound.step
    dsimp only
    split
    · split
      · exact h
      · exact h.setCall
    · exact h
  | respond i status =>
    unfold Outbound.step
    dsimp only
    split
    · split
      · split
        · exact State.Keyed.setCall (s := { s with cache := _ }) h
        · exact h.setCall
      · exact h.setCall
    · exact h
  | incr i =>
    unfold Outbound.step
    dsimp only
    split
    · split
      · exact State.Keyed.setCall (s := { s with cache := _ }) h
      · exact h.setCall
    · exact h
  | «open» i | clear i =>
    unfold Outbound.step
    dsimp only
    split
    · exact h.setCall
    · exact h

/-- A request goes on, and is not recorded, neither before nor after. -/
theorem mem_setCall_unseen {i : ℕ} {o : Option (String × Place)} {c : ℕ × String × Place} (h : s.Keyed)
    (hbefore : ∀ d, s.call i = some d → d.1 = name → d.2 = .waiting) (hafter : ∀ d ∈ o, d.1 = name → d.2 = .waiting)
    (hname : c.2.1 = name) (hne : c.2.2 ≠ .waiting) : c ∈ (s.setCall i o).calls ↔ c ∈ s.calls := by
  rw [mem_setCall]
  constructor
  · rintro (⟨-, rfl⟩ | ⟨hc, -⟩)
    · exact absurd (hafter c.2 rfl hname) hne
    · exact hc
  · intro hc
    refine Or.inr ⟨hc, fun hi => ?_⟩
    rcases hcall : s.call i with _ | d
    · exact Entries.ne_of_get hcall hc hi
    · have hsame := Entries.Keyed.eq h hcall hc hi
      rw [hsame] at hname hne
      exact hne (hbefore d hcall hname)

/-- What is done for another integration. -/
theorem unseen_failed {i failures : ℕ} {name' : String} {cache : Cache String} (h : s.Keyed) (hne : name' ≠ name)
    (hcall : ∀ d, s.call i = some d → d.1 = name') (hcache : cache (failKey name) = s.cache (failKey name)) :
    Unseen name s ({ s with cache := cache }.failed i name' failures) := by
  refine ⟨le_rfl, hcache, rfl, fun c hname hwait => ?_⟩
  refine mem_setCall_unseen (s := { s with cache := cache }) h (fun d hd hn => ?_) (fun d hd hn => ?_) hname hwait
  · exact absurd ((hcall d hd).symm.trans hn) hne
  · split at hd
    · cases hd
      exact absurd hn hne
    · cases hd

/-- The only failure that is recorded has this place. -/
theorem only_setCall {i : ℕ} {place : Place} (h : ∀ c ∈ s.calls, c.1 ≠ i → c.2.1 = name → c.2.2 = .waiting)
    {c : ℕ × String × Place} (hc : c ∈ (s.setCall i (some (name, place))).calls) (hname : c.2.1 = name)
    (hne : c.2.2 ≠ .waiting) : c = (i, name, place) := by
  rcases mem_setCall.mp hc with ⟨rfl, heq⟩ | ⟨hmem, hi⟩
  · rw [Option.some.inj heq]
  · exact absurd (h c hmem hi hname) hne

theorem idle_setCall {i : ℕ} (h : ∀ c ∈ s.calls, c.1 ≠ i → c.2.1 = name → c.2.2 = .waiting) :
    (s.setCall i none).Idle name := by
  intro c hc hname
  rcases mem_setCall.mp hc with ⟨-, heq⟩ | ⟨hmem, hi⟩
  · cases heq
  · exact h c hmem hi hname

/-- The count of a failure is known. -/
theorem Stage.failed {i failures : ℕ} (h : ∀ c ∈ s.calls, c.1 ≠ i → c.2.1 = name → c.2.2 = .waiting)
    (hphase : failures < failureThreshold → Phase name t n s) : Stage name t k n (s.failed i name failures) := by
  unfold State.failed
  split
  · exact .opening i (mem_setCall.mpr (Or.inl ⟨rfl, rfl⟩)) fun c hc hname hne => only_setCall h hc hname hne
  · rename_i hlt
    exact .idle (idle_setCall h) ((hphase (Nat.lt_of_not_le hlt)).of_same le_rfl rfl)

/-- A failure comes, and none is being recorded. -/
theorem Stage.respond {i : ℕ} {status : Option ℕ} (h : Stage name t k n s) (hcall : s.call i = some (name, .waiting))
    (hfail : Fails status = true) (hidle : s.Idle name) (hfrom : t ≤ s.clock) (hto : s.clock < t + failureWindow) :
    Stage name t k (n + 1) (step lower allowedHosts (.respond i status) s) := by
  have hothers : ∀ c ∈ s.calls, c.1 ≠ i → c.2.1 = name → c.2.2 = .waiting := fun c hc _ => hidle c hc
  unfold Outbound.step
  simp only [hcall, hfail, if_true]
  rcases hadd : Caching.add s.clock (failKey name) 1 failureWindow s.cache with _ | cache
  · obtain ⟨e, he⟩ := Caching.add_eq_none.mp hadd
    cases h with
    | opened lt => exact .opened lt
    | idle idle phase =>
      refine .counting i n (mem_setCall.mpr (Or.inl ⟨rfl, rfl⟩)) (fun c hc hname hne => only_setCall hothers hc hname hne) rfl ?_
      cases phase with
      | held held => exact held.of_same rfl
      | lapsed le gone =>
        rw [he] at gone
        cases gone
    | counting i m mem only n_eq held => exact absurd (hidle _ mem rfl) (by simp)
    | opening i mem only => exact absurd (hidle _ mem rfl) (by simp)
  · obtain ⟨hget, rfl⟩ := Caching.add_eq_some.mp hadd
    cases h with
    | opened lt => exact .opened lt
    | idle idle phase =>
      refine Stage.failed (s := { s with cache := _ }) hothers fun hone => .held ?_
      have hn : n ≤ failureThreshold := by
        cases phase with
        | held held =>
          cases held with
          | first lt entry => exact lt.le
          | second e he le few exp =>
            rw [Caching.get_eq_some.mpr ⟨he, hto.trans_le exp⟩] at hget
            cases hget
        | lapsed le gone => exact le
      exact .second ⟨1, s.clock + failureWindow⟩ (Function.update_self _ _ _) (Nat.add_le_add_right hn 1) hone
        (Nat.add_le_add_right hfrom _)
    | counting i m mem only n_eq held => exact absurd (hidle _ mem rfl) (by simp)
    | opening i mem only => exact absurd (hidle _ mem rfl) (by simp)

/-- The failure that is being recorded is counted. -/
theorem Stage.incr {i : ℕ} (h : Stage name t k n s) (hcall : s.call i = some (name, .counting))
    (hto : s.clock < t + failureWindow) : Stage name t k n (step lower allowedHosts (.incr i) s) := by
  have hmem := mem_of_call hcall
  unfold Outbound.step
  simp only [hcall]
  cases h with
  | opened lt =>
    split
    · exact .opened lt
    · exact .opened lt
  | idle idle phase => exact absurd (idle _ hmem rfl) (by simp)
  | opening j mem only => exact absurd (only _ hmem rfl (by simp)) (by simp)
  | counting j m mem only n_eq held =>
    have hj : i = j := congrArg Prod.fst (only _ hmem rfl (by simp))
    have hothers : ∀ c ∈ s.calls, c.1 ≠ i → c.2.1 = name → c.2.2 = .waiting := by
      intro c hc hi hname
      by_contra hne
      exact hi ((congrArg Prod.fst (only c hc hname hne)).trans hj.symm)
    rw [n_eq]
    rcases hincr : Caching.incr s.clock (failKey name) s.cache with _ | ⟨v, cache⟩
    · have hgone := Caching.incr_eq_none.mp hincr
      refine Stage.failed hothers fun _ => ?_
      cases held with
      | first lt entry => exact .lapsed lt hgone
      | second e he le few exp =>
        rw [Caching.get_eq_some.mpr ⟨he, hto.trans_le exp⟩] at hgone
        cases hgone
    · obtain ⟨e, hget, rfl, rfl⟩ := Caching.incr_eq_some.mp hincr
      obtain ⟨he, -⟩ := Caching.get_eq_some.mp hget
      refine Stage.failed (s := { s with cache := _ }) hothers fun hlt => .held ?_
      have hnew : Function.update s.cache (failKey name) (some { e with value := e.value + 1 }) (failKey name) =
          some { e with value := e.value + 1 } := Function.update_self _ _ _
      cases held with
      | first lt entry =>
        have hm : m ≤ e.value := by
          rcases entry with rfl | ⟨e', he', hle⟩
          · exact Nat.zero_le _
          · rw [he] at he'
            cases he'
            exact hle
        exact .first (Nat.lt_of_le_of_lt (Nat.succ_le_succ hm) hlt) (Or.inr ⟨_, hnew, Nat.succ_le_succ hm⟩)
      | second e' he' le few exp =>
        rw [he] at he'
        cases he'
        exact .second _ hnew (Nat.succ_le_succ le) hlt exp

theorem unseen_setCall {i : ℕ} {name' : String} {o : Option (String × Place)} {cache : Cache String}
    {openings : List (String × Time)} (h : s.Keyed) (hne : name' ≠ name) (hcall : ∀ d, s.call i = some d → d.1 = name')
    (ho : ∀ d ∈ o, d.1 = name') (hcache : cache (failKey name) = s.cache (failKey name))
    (hopen : openings.countP (fun p => p.1 = name) = s.opened name) :
    Unseen name s { s.setCall i o with cache := cache, openings := openings } := by
  refine ⟨le_rfl, hcache, hopen, fun c hname hwait => ?_⟩
  exact mem_setCall_unseen h (fun d hd hn => absurd ((hcall d hd).symm.trans hn) hne)
    (fun d hd hn => absurd ((ho d hd).symm.trans hn) hne) hname hwait

/-- What a request of another integration does. -/
theorem unseen_other {x : Step} {i : ℕ} {name' : String} {place : Place} (h : s.Keyed) (hne : name' ≠ name)
    (hcall : s.call i = some (name', place)) (hx : (∃ status, x = .respond i status) ∨ x = .incr i ∨ x = .open i ∨ x = .clear i) :
    Unseen name s (step lower allowedHosts x s) := by
  have hof : ∀ d, s.call i = some d → d.1 = name' := by
    intro d hd
    rw [hcall] at hd
    cases hd
    rfl
  have hkey : ∀ o, Function.update s.cache (failKey name') o (failKey name) = s.cache (failKey name) := fun o =>
    Function.update_of_ne (fun heq => hne (failKey_injective heq).symm) _ _
  rcases hx with ⟨status, rfl⟩ | rfl | rfl | rfl
  · cases place with
    | waiting =>
      unfold Outbound.step
      simp only [hcall]
      split
      · split
        · rename_i hadd
          obtain ⟨-, rfl⟩ := Caching.add_eq_some.mp hadd
          exact unseen_failed h hne hof (hkey _)
        · exact unseen_setCall h hne hof (by simp) rfl rfl
      · exact unseen_setCall h hne hof (by simp) (hkey _) rfl
    | counting | opening | clearing =>
      simp only [Outbound.step, hcall]
      exact Unseen.refl _ _
  · cases place with
    | counting =>
      unfold Outbound.step
      simp only [hcall]
      split
      · rename_i hincr
        obtain ⟨e, -, -, rfl⟩ := Caching.incr_eq_some.mp hincr
        exact unseen_failed h hne hof (hkey _)
      · exact unseen_failed h hne hof rfl
    | waiting | opening | clearing =>
      simp only [Outbound.step, hcall]
      exact Unseen.refl _ _
  · cases place with
    | opening =>
      simp only [Outbound.step, hcall]
      refine unseen_setCall h hne hof (by simp) ?_ ?_
      · exact Function.update_of_ne (openKey_ne_failKey _ _).symm _ _
      · rw [List.countP_cons_of_neg (by simpa using hne)]
        rfl
    | waiting | counting | clearing =>
      simp only [Outbound.step, hcall]
      exact Unseen.refl _ _
  · cases place with
    | clearing =>
      simp only [Outbound.step, hcall]
      exact unseen_setCall h hne hof (by simp) (hkey _) rfl
    | waiting | counting | opening =>
      simp only [Outbound.step, hcall]
      exact Unseen.refl _ _

theorem unseen_request {i : ℕ} {r : Request} {net : Network} (h : s.Keyed) :
    Unseen name s (step lower allowedHosts (.request i r net) s) := by
  unfold Outbound.step
  dsimp only
  split
  · rename_i hcall _
    split
    · exact Unseen.refl _ _
    · refine ⟨le_rfl, rfl, rfl, fun c hname hwait => ?_⟩
      refine mem_setCall_unseen h (fun d hd => ?_) (fun d hd _ => ?_) hname hwait
      · rw [hcall] at hd
        cases hd
      · cases hd
        rfl
  · exact Unseen.refl _ _

/-- The breaker opens. -/
theorem Stage.open {i : ℕ} (hle : k ≤ s.opened name) (hcall : s.call i = some (name, .opening)) :
    Stage name t k n (step lower allowedHosts (.open i) s) := by
  refine .opened ?_
  unfold Outbound.step
  simp only [hcall]
  unfold State.opened
  dsimp only
  rw [List.countP_cons_of_pos (by simp)]
  exact Nat.lt_succ_of_le hle

theorem Stage.clear {i : ℕ} (h : Stage name t k n s) (hcall : s.call i = some (name, .clearing)) :
    Stage name t k n (step lower allowedHosts (.clear i) s) := by
  have hmem := mem_of_call hcall
  cases h with
  | opened lt =>
    refine .opened ?_
    unfold Outbound.step
    simp only [hcall]
    exact lt
  | idle idle phase => exact absurd (idle _ hmem rfl) (by simp)
  | counting j m mem only n_eq held => exact absurd (only _ hmem rfl (by simp)) (by simp)
  | opening j mem only => exact absurd (only _ hmem rfl (by simp)) (by simp)

theorem Stage.step {x : Step} (h : Stage name t k n s) (hk : s.Keyed) (hle : k ≤ s.opened name) (hfrom : t ≤ s.clock)
    (hto : s.clock < t + failureWindow) (hx : ∀ status ∈ responds name x s, Fails status = true ∧ s.Idle name) :
    Stage name t k (n + if responds name x s = none then 0 else 1) (step lower allowedHosts x s) := by
  cases x with
  | request i r net => exact h.of_unseen (unseen_request hk)
  | respond i status =>
    rcases hcall : s.call i with _ | ⟨name', place⟩
    · have hnone : responds name (.respond i status) s = none := if_neg (by simp [hcall])
      rw [hnone, if_pos rfl, Nat.add_zero]
      simpa only [Outbound.step, hcall] using h
    · by_cases hname : name' = name ∧ place = .waiting
      · obtain ⟨rfl, rfl⟩ := hname
        have hsome : responds name' (.respond i status) s = some status := if_pos hcall
        rw [hsome] at hx ⊢
        obtain ⟨hfail, hidle⟩ := hx status rfl
        exact h.respond hcall hfail hidle hfrom hto
      · have hnone : responds name (.respond i status) s = none := if_neg (by simpa [hcall] using hname)
        rw [hnone, if_pos rfl, Nat.add_zero]
        by_cases hother : name' = name
        · have hwait : place ≠ .waiting := fun hp => hname ⟨hother, hp⟩
          cases place with
          | waiting => exact absurd rfl hwait
          | counting | opening | clearing => simpa only [Outbound.step, hcall] using h
        · exact h.of_unseen (unseen_other hk hother hcall (Or.inl ⟨status, rfl⟩))
  | incr i =>
    change Stage name t k n _
    rcases hcall : s.call i with _ | ⟨name', place⟩
    · simpa only [Outbound.step, hcall] using h
    · by_cases hname : name' = name
      · subst hname
        cases place with
        | counting => exact h.incr hcall hto
        | waiting | opening | clearing => simpa only [Outbound.step, hcall] using h
      · exact h.of_unseen (unseen_other hk hname hcall (Or.inr (Or.inl rfl)))
  | «open» i =>
    change Stage name t k n _
    rcases hcall : s.call i with _ | ⟨name', place⟩
    · simpa only [Outbound.step, hcall] using h
    · by_cases hname : name' = name
      · subst hname
        cases place with
        | opening => exact Stage.open hle hcall
        | waiting | counting | clearing => simpa only [Outbound.step, hcall] using h
      · exact h.of_unseen (unseen_other hk hname hcall (Or.inr (Or.inr (Or.inl rfl))))
  | clear i =>
    change Stage name t k n _
    rcases hcall : s.call i with _ | ⟨name', place⟩
    · simpa only [Outbound.step, hcall] using h
    · by_cases hname : name' = name
      · subst hname
        cases place with
        | clearing => exact h.clear hcall
        | waiting | counting | opening => simpa only [Outbound.step, hcall] using h
      · exact h.of_unseen (unseen_other hk hname hcall (Or.inr (Or.inr (Or.inr rfl))))

/-- No opening is forgotten. -/
theorem opened_le (x : Step) : s.opened name ≤ (step lower allowedHosts x s).opened name := by
  unfold Outbound.step
  split
  · split
    · split <;> exact le_rfl
    · exact le_rfl
  · split
    · split
      · split <;> exact le_rfl
      · exact le_rfl
    · exact le_rfl
  · split
    · split <;> exact le_rfl
    · exact le_rfl
  · split
    · unfold State.opened
      dsimp only
      rw [List.countP_cons]
      exact Nat.le_add_right _ _
    · exact le_rfl
  · split <;> exact le_rfl

theorem Stage.run : ∀ {xs : List (Time × Step)} {s : State} {n : ℕ}, Stage name t k n s → s.Keyed → k ≤ s.opened name →
    Steps.Always (tick lower allowedHosts) (InARow name t) xs s →
    Stage name t k (n + failures lower allowedHosts name xs s) (Steps.run (tick lower allowedHosts) xs s)
  | [], _, _, h, _, _, _ => h
  | x :: xs, s, n, h, hk, hle, ⟨⟨hclock, hfrom, hto, hx⟩, hxs⟩ => by
    have hnow : Stage name t k n (s.upTo x.1) := h.of_unseen ⟨hclock, rfl, rfl, fun _ _ _ => Iff.rfl⟩
    have hstep : Stage name t k (n + if responds name x.2 s = none then 0 else 1) (tick lower allowedHosts x s) :=
      hnow.step hk hle hfrom hto hx
    have hrest := hstep.run (State.Keyed.step (s := s.upTo x.1) hk x.2) (hle.trans (opened_le (s := s.upTo x.1) x.2)) hxs
    rw [Nat.add_assoc] at hrest
    exact hrest

/-- **Twice as many failures as the threshold, in less than a minute, with no
success among them and each recorded before the next comes, open the breaker.** -/
theorem opens_in_time {before xs : List (Time × Step)}
    (hidle : (Steps.run (tick lower allowedHosts) before {}).Idle name)
    (hrow : Steps.Always (tick lower allowedHosts) (InARow name t) xs (Steps.run (tick lower allowedHosts) before {}))
    (hend : (Steps.run (tick lower allowedHosts) (before ++ xs) {}).Idle name)
    (hmany : 2 * failureThreshold ≤ failures lower allowedHosts name xs (Steps.run (tick lower allowedHosts) before {})) :
    (Steps.run (tick lower allowedHosts) before {}).opened name <
      (Steps.run (tick lower allowedHosts) (before ++ xs) {}).opened name := by
  have hkeyed : (Steps.run (tick lower allowedHosts) before {}).Keyed :=
    Steps.Always.run (I := State.Keyed) (C := fun _ _ => True) (fun x s h _ => State.Keyed.step (s := s.upTo x.1) h x.2)
      Entries.Keyed.nil (Steps.Always.of_forall fun _ _ => trivial)
  have hfirst : Phase name t 0 (Steps.run (tick lower allowedHosts) before {}) :=
    .held (.first (by decide) (Or.inl rfl))
  have hstage := (Stage.idle hidle hfirst).run hkeyed le_rfl hrow
  rw [Nat.zero_add] at hstage
  rw [Steps.run_append] at hend ⊢
  cases hstage with
  | opened lt => exact lt
  | counting i m mem only n_eq held => exact absurd (hend _ mem rfl) (by simp)
  | opening i mem only => exact absurd (hend _ mem rfl) (by simp)
  | idle idle phase =>
    exfalso
    generalize failures lower allowedHosts name xs (Steps.run (tick lower allowedHosts) before {}) = n at hmany phase
    cases phase with
    | held held =>
      cases held with
      | first lt entry => omega
      | second e he le few exp => omega
    | lapsed le gone =>
      have hpos : 0 < failureThreshold := by decide
      omega

/-- Ten payments are under way. -/
def payments : List (Time × Step) := (List.range 10).map fun i => (i, .request i payment network)

/-- The provider answers a payment with an error, which is recorded. -/
def failing (i : ℕ) : List (Time × Step) :=
  [(100, .respond i (some 503)), (100, .incr i), (100, .open i), (100, .clear i)]

theorem opens_in_time_payments : (Steps.run (tick id ["api.paystack.co"]) payments {}).opened "paystack" <
    (Steps.run (tick id ["api.paystack.co"]) (payments ++ (List.range 10).flatMap failing) {}).opened "paystack" :=
  opens_in_time (t := 100) (by decide +kernel) (by decide +kernel) (by decide +kernel) (by decide +kernel)

end Outbound
end FlexyVotes
