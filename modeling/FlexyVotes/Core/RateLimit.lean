/-
# The rate limiter

`hit` counts an attempt under the key of its scope, its identity and the window
its moment is in: `cache.add` for the first, `cache.incr` for the others, and
`cache.set` where the key has gone between the two. Requests are counted side by
side, each call of the cache a step of its own.

An entry outlives its window by five seconds. While no attempt takes longer than
that from reading the clock to its last call of the cache, the n-th attempt under
a key is the n-th to be counted, so that the first `limit` of them are let through
(`first_allowed`), and twice as many at most in any time as long as the window
(`allowed_le`).

Key definitions: `step`, `Counting.key`, `Prompt`, `Counted`.
Key theorems: `bucket_of_key`, `Counted.tick`, `first_allowed`, `allowed_le`.
-/
import FlexyVotes.Core.Login
import FlexyVotes.Core.Parsing
import FlexyVotes.Lib.Cache

namespace FlexyVotes
namespace RateLimit

open Caching (Cache)
open Login (MICROSECONDS)

/-- What `hit` is called with. -/
structure Attempt where
  scope : String
  ident : String
  limit : ℕ
  window : ℕ := 60

/-- The window that a moment is in. -/
def bucket (window : ℕ) (now : Time) : ℕ := now / (window * MICROSECONDS)

def cacheKey (scope ident : String) (bucket : ℕ) : String := "rl:" ++ scope ++ ":" ++ ident ++ ":" ++ toString bucket

/-- An attempt, and the moment its request has read from the clock. -/
structure Counting where
  attempt : Attempt
  now : Time

namespace Counting

def bucket (c : Counting) : ℕ := RateLimit.bucket c.attempt.window c.now

def key (c : Counting) : String := cacheKey c.attempt.scope c.attempt.ident c.bucket

/-- How long the entry of a key is kept, in seconds. -/
def timeout (c : Counting) : ℕ := c.attempt.window + 5

def retryAfter (c : Counting) : ℕ := ((c.bucket + 1) * (c.attempt.window * MICROSECONDS) - c.now) / MICROSECONDS + 1

end Counting

/-- The call of the cache that comes next. -/
inductive Place
  | add
  | incr
  | set
  deriving DecidableEq

/-- What `hit` has answered. -/
structure Answer where
  call : Counting
  count : ℕ

def Answer.allowed (a : Answer) : Bool := a.count ≤ a.call.attempt.limit

structure State where
  cache : Cache String := fun _ => none
  calls : ℕ → Option (Counting × Place) := fun _ => none
  /-- The last answer first. -/
  answers : List Answer := []
  clock : Time := 0

inductive Step
  | hit (i : ℕ) (attempt : Attempt)
  | add (i : ℕ)
  | incr (i : ℕ)
  | set (i : ℕ)

/-- The call ends with a count. -/
def State.answer (i : ℕ) (c : Counting) (count : ℕ) (cache : Cache String) (s : State) : State :=
  { s with cache := cache, calls := Function.update s.calls i none, answers := ⟨c, count⟩ :: s.answers }

def State.goOn (i : ℕ) (c : Counting) (place : Place) (s : State) : State :=
  { s with calls := Function.update s.calls i (some (c, place)) }

def step : Step → State → State
  | .hit i attempt, s => s.goOn i ⟨attempt, s.clock⟩ .add
  | .add i, s =>
    match s.calls i with
    | some (c, .add) =>
      match Caching.add s.clock c.key 1 (c.timeout * MICROSECONDS) s.cache with
      | some cache => s.answer i c 1 cache
      | none => s.goOn i c .incr
    | _ => s
  | .incr i, s =>
    match s.calls i with
    | some (c, .incr) =>
      match Caching.incr s.clock c.key s.cache with
      | some (count, cache) => s.answer i c count cache
      -- `ValueError`: the key has gone
      | none => s.goOn i c .set
    | _ => s
  | .set i, s =>
    match s.calls i with
    | some (c, .set) => s.answer i c 1 (Caching.set s.clock c.key 1 (c.timeout * MICROSECONDS) s.cache)
    | _ => s

/-- How often was hit under the key of the moment. -/
def peek (scope ident : String) (window : ℕ) (s : State) : ℕ :=
  ((Caching.get s.clock (cacheKey scope ident (bucket window s.clock)) s.cache).map (·.value)).getD 0

def State.upTo (s : State) (now : Time) : State := { s with clock := now }

/-- A step at its moment. -/
def tick (x : Time × Step) (s : State) : State := step x.2 (s.upTo x.1)

/-- The answers under the key. -/
def State.answersOf (key : String) (s : State) : List Answer := s.answers.filter fun a => a.call.key = key

/-! ### Attempts that are counted in time -/

/-- What holds of the call, at the moment, where it is under the keys `Q`: it has
the window and the limit, and read the clock at most five seconds ago. -/
def InTime (Q : Counting → Prop) (window limit : ℕ) (now : Time) (c : Counting) : Prop :=
  Q c → c.attempt.window = window ∧ c.attempt.limit = limit ∧ now < c.now + 5 * MICROSECONDS

instance {Q : Counting → Prop} [DecidablePred Q] {window limit : ℕ} {now : Time} {c : Counting} :
    Decidable (InTime Q window limit now c) := inferInstanceAs (Decidable (_ → _))

/-- The call that takes the step. -/
def Step.call (x : Step) (s : State) : Option Counting :=
  match x with
  | .hit _ attempt => some ⟨attempt, s.clock⟩
  | .add i | .incr i | .set i => (s.calls i).map (·.1)

/-- The call that takes a step is in time. -/
def Prompt (Q : Counting → Prop) (window limit : ℕ) (x : Step) (s : State) : Prop :=
  ∀ c ∈ x.call s, InTime Q window limit s.clock c

/-- The moments of the steps follow one another, and each step is in time. -/
def Timely (Q : Counting → Prop) (window limit : ℕ) (x : Time × Step) (s : State) : Prop :=
  s.clock ≤ x.1 ∧ Prompt Q window limit x.2 (s.upTo x.1)

instance {Q : Counting → Prop} [DecidablePred Q] {window limit : ℕ} (x : Time × Step) (s : State) :
    Decidable (Timely Q window limit x s) := inferInstanceAs (Decidable (_ ∧ ∀ c ∈ x.2.call (s.upTo x.1), _))

/-- The call is counted under the key. -/
def Under (key : String) (c : Counting) : Prop := c.key = key

instance (key : String) : DecidablePred (Under key) := fun c => inferInstanceAs (Decidable (c.key = key))

/-- The call is counted under a key of the scope and the identity. -/
def Of (scope ident : String) (c : Counting) : Prop := c.key = cacheKey scope ident c.bucket

instance (scope ident : String) : DecidablePred (Of scope ident) := fun c =>
  inferInstanceAs (Decidable (c.key = cacheKey scope ident c.bucket))

variable {Q : Counting → Prop} {key : String} {window limit : ℕ} {s : State}

/-! ### Keys and windows -/

/-- A key tells its window: the digits after the last colon. -/
theorem key_window (scope ident : String) (b : ℕ) :
    (cacheKey scope ident b).toList.reverse.takeWhile (· ≠ ':') = (toString b).toList.reverse := by
  have hdigits : ∀ c ∈ (toString b).toList.reverse, (c ≠ ':' : Bool) = true := by
    intro c hc
    rw [List.mem_reverse, Nat.toString_eq_repr, Nat.toList_repr] at hc
    rw [decide_eq_true_eq]
    rintro rfl
    exact absurd (Nat.isDigit_of_mem_toDigits (by decide) (by decide) hc) (by decide)
  have hkey : (cacheKey scope ident b).toList.reverse =
      (toString b).toList.reverse ++ ':' :: ("rl:" ++ scope ++ ":" ++ ident).toList.reverse := by
    unfold cacheKey
    rw [String.toList_append, List.reverse_append, String.toList_append, List.reverse_append]
    rfl
  rw [hkey, List.takeWhile_append_of_pos hdigits, List.takeWhile_cons_of_neg (by decide), List.append_nil]

theorem bucket_of_key {scope ident scope' ident' : String} {b b' : ℕ}
    (h : cacheKey scope ident b = cacheKey scope' ident' b') : b = b' := by
  have hchars : (toString b).toList.reverse = (toString b').toList.reverse := by
    rw [← key_window scope ident b, h, key_window]
  exact toString_pk_injective (String.toList_injective (List.reverse_injective hchars))

theorem bucket_le (window now : ℕ) : bucket window now * (window * MICROSECONDS) ≤ now := Nat.div_mul_le_self _ _

theorem lt_bucket (hw : 0 < window) (now : ℕ) : now < (bucket window now + 1) * (window * MICROSECONDS) := by
  have hpos : 0 < window * MICROSECONDS := Nat.mul_pos hw (by decide)
  have hlt : now < window * MICROSECONDS * (now / (window * MICROSECONDS) + 1) := Nat.lt_mul_div_succ now hpos
  rwa [Nat.mul_comm] at hlt

/-- Who waits as long as told is in a later window. -/
theorem retryAfter_later {c c' : Counting} (hw : 0 < c.attempt.window) (hsame : c'.attempt.window = c.attempt.window)
    (h : c.now + c.retryAfter * MICROSECONDS ≤ c'.now) : c.bucket < c'.bucket := by
  have hsec : 0 < MICROSECONDS := by decide
  have hpos : 0 < c.attempt.window * MICROSECONDS := Nat.mul_pos hw hsec
  have hwait : (c.bucket + 1) * (c.attempt.window * MICROSECONDS) - c.now < c.retryAfter * MICROSECONDS := by
    have hlt := Nat.lt_mul_div_succ ((c.bucket + 1) * (c.attempt.window * MICROSECONDS) - c.now) hsec
    rwa [Nat.mul_comm MICROSECONDS] at hlt
  have hend : (c.bucket + 1) * (c.attempt.window * MICROSECONDS) ≤ c'.now :=
    (Nat.sub_le_iff_le_add'.mp hwait.le).trans h
  unfold Counting.bucket RateLimit.bucket
  rw [hsame]
  exact (Nat.le_div_iff_mul_le hpos).mpr hend

/-! ### What a step does to the count of a key -/

/-- So many answers under the key, counted from one; the entry of the key holds
their number, and is kept as long as there are calls for it. -/
structure Counted (key : String) (window limit : ℕ) (s : State) : Prop where
  call : ∀ i c place, s.calls i = some (c, place) → c.key = key →
    c.attempt.window = window ∧ c.attempt.limit = limit ∧ c.now ≤ s.clock ∧ place ≠ .set ∧
      (place = .incr → s.answersOf key ≠ [])
  answer : ∀ a ∈ s.answersOf key, a.call.attempt.window = window ∧ a.call.attempt.limit = limit
  counts : (s.answersOf key).map (·.count) = (List.range' 1 (s.answersOf key).length).reverse
  absent : s.answersOf key = [] → s.cache key = none
  entry : s.answersOf key ≠ [] → ∃ e, s.cache key = some e ∧ e.value = (s.answersOf key).length ∧
    ∀ c : Counting, c.key = key → c.attempt.window = window →
      (c.bucket + 1) * (window * MICROSECONDS) + 5 * MICROSECONDS ≤ e.expires

theorem Counted.start (key : String) (window limit : ℕ) : Counted key window limit {} where
  call i c place h := by cases h
  answer a ha := by cases ha
  counts := rfl
  absent _ := rfl
  entry h := absurd rfl h

theorem Counted.upTo {now : Time} (h : Counted key window limit s) (hnow : s.clock ≤ now) :
    Counted key window limit (s.upTo now) where
  call i c place hc hkey := by
    obtain ⟨h1, h2, h3, h4⟩ := h.call i c place hc hkey
    exact ⟨h1, h2, h3.trans hnow, h4⟩
  answer := h.answer
  counts := h.counts
  absent := h.absent
  entry := h.entry

theorem answersOf_answer {i n : ℕ} {c : Counting} {cache : Cache String} :
    (s.answer i c n cache).answersOf key = if c.key = key then ⟨c, n⟩ :: s.answersOf key else s.answersOf key := by
  unfold State.answersOf State.answer
  rw [List.filter_cons]
  by_cases hkey : c.key = key
  · rw [if_pos (decide_eq_true hkey), if_pos hkey]
  · rw [if_neg (by simpa using hkey), if_neg hkey]

theorem Counted.goOn {i : ℕ} {c : Counting} {place : Place} (h : Counted key window limit s)
    (hc : c.key = key → c.attempt.window = window ∧ c.attempt.limit = limit ∧ c.now ≤ s.clock ∧ place ≠ .set ∧
      (place = .incr → s.answersOf key ≠ [])) : Counted key window limit (s.goOn i c place) where
  call j c' place' hj hkey := by
    unfold State.goOn at hj
    dsimp only at hj
    rw [Function.update_apply] at hj
    split at hj
    · cases hj
      exact hc hkey
    · exact h.call j c' place' hj hkey
  answer := h.answer
  counts := h.counts
  absent := h.absent
  entry := h.entry

theorem calls_answer {i j n : ℕ} {c c' : Counting} {place : Place} {cache : Cache String}
    (h : (s.answer i c n cache).calls j = some (c', place)) : s.calls j = some (c', place) := by
  unfold State.answer at h
  dsimp only at h
  rw [Function.update_apply] at h
  split at h
  · cases h
  · exact h

/-- A count under another key. -/
theorem Counted.other {i n : ℕ} {c : Counting} {cache : Cache String} (h : Counted key window limit s)
    (hkey : c.key ≠ key) (hcache : cache key = s.cache key) : Counted key window limit (s.answer i c n cache) := by
  have hanswers : (s.answer i c n cache).answersOf key = s.answersOf key := by rw [answersOf_answer, if_neg hkey]
  refine ⟨fun j c' place hj => ?_, ?_, ?_, ?_, ?_⟩
  · rw [hanswers]
    exact h.call j c' place (calls_answer hj)
  · rw [hanswers]
    exact h.answer
  · rw [hanswers]
    exact h.counts
  · rw [hanswers]
    exact fun hnil => hcache.trans (h.absent hnil)
  · rw [hanswers]
    intro hne
    obtain ⟨e, he, hrest⟩ := h.entry hne
    exact ⟨e, hcache.trans he, hrest⟩

/-- One more count under the key. -/
theorem Counted.more {i : ℕ} {c : Counting} {cache : Cache String} {e : Caching.Entry} (h : Counted key window limit s)
    (hkey : c.key = key) (hargs : c.attempt.window = window ∧ c.attempt.limit = limit) (hcache : cache key = some e)
    (hvalue : e.value = (s.answersOf key).length + 1)
    (hexp : ∀ c' : Counting, c'.key = key → c'.attempt.window = window →
      (c'.bucket + 1) * (window * MICROSECONDS) + 5 * MICROSECONDS ≤ e.expires) :
    Counted key window limit (s.answer i c e.value cache) := by
  have hanswers : (s.answer i c e.value cache).answersOf key = ⟨c, e.value⟩ :: s.answersOf key := by
    rw [answersOf_answer, if_pos hkey]
  refine ⟨fun j c' place hj hkey' => ?_, ?_, ?_, ?_, ?_⟩
  · obtain ⟨h1, h2, h3, h4, -⟩ := h.call j c' place (calls_answer hj) hkey'
    refine ⟨h1, h2, h3, h4, fun _ => ?_⟩
    rw [hanswers]
    exact List.cons_ne_nil _ _
  · rw [hanswers]
    intro a ha
    rcases List.mem_cons.mp ha with rfl | ha
    · exact hargs
    · exact h.answer a ha
  · rw [hanswers, List.map_cons, List.length_cons, List.range'_concat, List.reverse_append, h.counts, hvalue]
    rw [Nat.one_mul, Nat.add_comm]
    rfl
  · rw [hanswers]
    exact fun hnil => absurd hnil (List.cons_ne_nil _ _)
  · rw [hanswers]
    exact fun _ => ⟨e, hcache, hvalue, hexp⟩

/-- The entry of the key is there when a call for it comes in time. -/
theorem Counted.live {c : Counting} (h : Counted key window limit s) (hw : 0 < window) (hne : s.answersOf key ≠ [])
    (hkey : c.key = key) (hwin : c.attempt.window = window) (htime : s.clock < c.now + 5 * MICROSECONDS) :
    ∃ e, Caching.get s.clock key s.cache = some e ∧ e.value = (s.answersOf key).length ∧
      ∀ c : Counting, c.key = key → c.attempt.window = window →
        (c.bucket + 1) * (window * MICROSECONDS) + 5 * MICROSECONDS ≤ e.expires := by
  obtain ⟨e, he, hvalue, hexp⟩ := h.entry hne
  have hend : c.now < (c.bucket + 1) * (window * MICROSECONDS) := by
    have hpos : 0 < c.attempt.window := by rwa [hwin]
    have hlt : c.now < (c.bucket + 1) * (c.attempt.window * MICROSECONDS) := lt_bucket hpos c.now
    rwa [hwin] at hlt
  have hlive : s.clock < e.expires :=
    calc s.clock < c.now + 5 * MICROSECONDS := htime
      _ ≤ (c.bucket + 1) * (window * MICROSECONDS) + 5 * MICROSECONDS := Nat.add_le_add_right hend.le _
      _ ≤ e.expires := hexp c hkey hwin
  exact ⟨e, Caching.get_eq_some.mpr ⟨he, hlive⟩, hvalue, hexp⟩

/-- The first entry of a key is kept for all calls that come in time. -/
theorem expires_le {c c' : Counting} {clock : Time} (hkey : c'.key = c.key) (hwin : c.attempt.window = window)
    (hnow : c.now ≤ clock) :
    (c'.bucket + 1) * (window * MICROSECONDS) + 5 * MICROSECONDS ≤ clock + c.timeout * MICROSECONDS := by
  have hbucket : c'.bucket = c.bucket := bucket_of_key hkey
  have hle : c.bucket * (window * MICROSECONDS) ≤ c.now := by
    have hle : c.bucket * (c.attempt.window * MICROSECONDS) ≤ c.now := bucket_le c.attempt.window c.now
    rwa [hwin] at hle
  unfold Counting.timeout
  rw [hbucket, hwin, Nat.add_one_mul, Nat.add_mul, Nat.add_assoc]
  exact Nat.add_le_add_right (hle.trans hnow) _

/-- `cache.add` in a call that comes in time. -/
theorem Counted.add {i : ℕ} {c : Counting} (h : Counted key window limit s) (hw : 0 < window)
    (hcall : s.calls i = some (c, .add))
    (hp : c.key = key → c.attempt.window = window ∧ c.attempt.limit = limit ∧ s.clock < c.now + 5 * MICROSECONDS) :
    Counted key window limit (step (.add i) s) := by
  unfold step
  simp only [hcall]
  rcases hadd : Caching.add s.clock c.key 1 (c.timeout * MICROSECONDS) s.cache with _ | cache
  · obtain ⟨e, he⟩ := Caching.add_eq_none.mp hadd
    refine h.goOn fun hkey => ?_
    obtain ⟨hwin, hlimit, hnow, -⟩ := h.call i c .add hcall hkey
    refine ⟨hwin, hlimit, hnow, by decide, fun _ hnil => ?_⟩
    have hnone := h.absent hnil
    rw [hkey] at he
    rw [(Caching.get_eq_some.mp he).1] at hnone
    cases hnone
  · obtain ⟨hget, rfl⟩ := Caching.add_eq_some.mp hadd
    by_cases hkey : c.key = key
    · obtain ⟨hwin, hlimit, hnow, -⟩ := h.call i c .add hcall hkey
      have hnil : s.answersOf key = [] := by
        by_contra hne
        obtain ⟨e, he, -⟩ := h.live hw hne hkey hwin (hp hkey).2.2
        rw [hkey, he] at hget
        cases hget
      refine h.more (e := ⟨1, s.clock + c.timeout * MICROSECONDS⟩) hkey ⟨hwin, hlimit⟩ ?_ ?_ fun c' hc' _ => ?_
      · unfold Caching.set
        rw [hkey, Function.update_self]
      · rw [hnil]
        rfl
      · exact expires_le (hc'.trans hkey.symm) hwin hnow
    · refine h.other hkey ?_
      unfold Caching.set
      rw [Function.update_of_ne (Ne.symm hkey)]

/-- `cache.incr` in a call that comes in time. -/
theorem Counted.incr {i : ℕ} {c : Counting} (h : Counted key window limit s) (hw : 0 < window)
    (hcall : s.calls i = some (c, .incr))
    (hp : c.key = key → c.attempt.window = window ∧ c.attempt.limit = limit ∧ s.clock < c.now + 5 * MICROSECONDS) :
    Counted key window limit (step (.incr i) s) := by
  unfold step
  simp only [hcall]
  by_cases hkey : c.key = key
  · obtain ⟨hwin, hlimit, hnow, -, hcounted⟩ := h.call i c .incr hcall hkey
    obtain ⟨e, he, hvalue, hexp⟩ := h.live hw (hcounted rfl) hkey hwin (hp hkey).2.2
    have hincr : Caching.incr s.clock c.key s.cache =
        some (e.value + 1, Function.update s.cache c.key (some { e with value := e.value + 1 })) :=
      Caching.incr_eq_some.mpr ⟨e, hkey ▸ he, rfl, rfl⟩
    rw [hincr]
    refine h.more (e := { e with value := e.value + 1 }) hkey ⟨hwin, hlimit⟩ ?_ ?_ hexp
    · rw [hkey, Function.update_self]
    · rw [← hvalue]
  · rcases hincr : Caching.incr s.clock c.key s.cache with _ | ⟨n, cache⟩
    · exact h.goOn fun hkey' => absurd hkey' hkey
    · obtain ⟨e, -, -, rfl⟩ := Caching.incr_eq_some.mp hincr
      exact h.other hkey (Function.update_of_ne (Ne.symm hkey) _ _)

theorem Counted.step {x : Step} (h : Counted key window limit s) (hw : 0 < window) (hQ : ∀ c : Counting, c.key = key → Q c)
    (hp : Prompt Q window limit x s) : Counted key window limit (step x s) := by
  cases x with
  | hit i attempt =>
    refine h.goOn fun hkey => ?_
    obtain ⟨hwin, hlimit, -⟩ := hp _ rfl (hQ _ hkey)
    exact ⟨hwin, hlimit, le_rfl, by decide, by simp⟩
  | add i =>
    rcases hcall : s.calls i with _ | ⟨c, place⟩
    · simpa only [RateLimit.step, hcall] using h
    · have hc : c ∈ Step.call (.add i) s := Option.mem_map.mpr ⟨_, hcall, rfl⟩
      cases place with
      | add => exact h.add hw hcall fun hkey => hp c hc (hQ c hkey)
      | incr | set => simpa only [RateLimit.step, hcall] using h
  | incr i =>
    rcases hcall : s.calls i with _ | ⟨c, place⟩
    · simpa only [RateLimit.step, hcall] using h
    · have hc : c ∈ Step.call (.incr i) s := Option.mem_map.mpr ⟨_, hcall, rfl⟩
      cases place with
      | incr => exact h.incr hw hcall fun hkey => hp c hc (hQ c hkey)
      | add | set => simpa only [RateLimit.step, hcall] using h
  | set i =>
    rcases hcall : s.calls i with _ | ⟨c, place⟩
    · simpa only [RateLimit.step, hcall] using h
    · cases place with
      | set =>
        simp only [RateLimit.step, hcall]
        have hkey : c.key ≠ key := fun hkey => (h.call i c .set hcall hkey).2.2.2.1 rfl
        exact h.other hkey (Function.update_of_ne (Ne.symm hkey) _ _)
      | add | incr => simpa only [RateLimit.step, hcall] using h

/-- A run of calls in time. -/
theorem Counted.run {xs : List (Time × Step)} (hw : 0 < window) (hQ : ∀ c : Counting, c.key = key → Q c)
    (h : Steps.Always tick (Timely Q window limit) xs {}) : Counted key window limit (Steps.run tick xs {}) :=
  Steps.Always.run (fun _ _ h hx => (h.upTo hx.1).step hw hQ hx.2) (Counted.start key window limit) h

/-! ### What is let through -/

theorem Counted.allowed (h : Counted key window limit s) :
    (s.answersOf key).reverse.map (·.allowed) = (List.range (s.answersOf key).length).map fun n => decide (n < limit) := by
  have hallowed : (s.answersOf key).map (·.allowed) = (s.answersOf key).map fun a => decide (a.count ≤ limit) := by
    refine List.map_congr_left fun a ha => ?_
    unfold Answer.allowed
    rw [(h.answer a ha).2]
  have hcount : (s.answersOf key).map (fun a => decide (a.count ≤ limit)) =
      ((s.answersOf key).map (·.count)).map fun n => decide (n ≤ limit) := by rw [List.map_map]; rfl
  rw [List.map_reverse, hallowed, hcount, h.counts, ← List.map_reverse, List.reverse_reverse, List.range'_eq_map_range,
    List.map_map]
  refine List.map_congr_left fun n _ => ?_
  have hle : 1 + n ≤ limit ↔ n < limit := by omega
  exact decide_eq_decide.mpr hle

/-- **Of the attempts under a key the first `limit` to be counted are let through
and the others are refused, however they interleave, when none takes more than
five seconds from reading the clock to its last call of the cache.** -/
theorem first_allowed {xs : List (Time × Step)} (hw : 0 < window)
    (h : Steps.Always tick (Timely (Under key) window limit) xs {}) :
    ((Steps.run tick xs {}).answersOf key).reverse.map (·.allowed) =
      (List.range ((Steps.run tick xs {}).answersOf key).length).map fun n => decide (n < limit) :=
  (Counted.run hw (fun _ hkey => hkey) h).allowed

/-- Four attempts at disputes, of which one a minute is let through; the third is
counted after its minute. -/
def disputes : List (Time × Step) :=
  [(7000000, .hit 0 ⟨"dispute", "203.0.113.7", 1, 60⟩), (7000001, .hit 1 ⟨"dispute", "203.0.113.7", 1, 60⟩),
    (7000002, .add 1), (7000003, .add 0), (8000000, .incr 0), (59900000, .hit 2 ⟨"dispute", "203.0.113.7", 1, 60⟩),
    (61000000, .hit 3 ⟨"dispute", "203.0.113.7", 1, 60⟩), (61000001, .add 3), (62000000, .add 2), (62000001, .incr 2)]

theorem first_allowed_disputes : ((Steps.run tick disputes {}).answersOf "rl:dispute:203.0.113.7:0").reverse.map (·.allowed) =
    [true, false, false] :=
  by
  have hfirst := @first_allowed "rl:dispute:203.0.113.7:0" 60 1 disputes (by decide) (by decide +kernel)
  rw [hfirst]
  decide +kernel

theorem countP_or_le {α : Type} (p q : α → Bool) : ∀ xs : List α,
    xs.countP (fun a => p a || q a) ≤ xs.countP p + xs.countP q
  | [] => le_rfl
  | a :: xs => by
    have hrest := countP_or_le p q xs
    rw [List.countP_cons, List.countP_cons, List.countP_cons]
    cases p a <;> cases q a <;> simp only [Bool.or_false, Bool.or_true, Bool.false_eq_true, if_true, if_false] <;> omega

/-- No more than the limit are let through under a key. -/
theorem Counted.allowed_atMost (h : Counted key window limit s) : (s.answersOf key).countP (·.allowed) ≤ limit := by
  have hcount : (s.answersOf key).countP (·.allowed) =
      ((List.range (s.answersOf key).length).filter fun n => n < limit).length := by
    rw [← List.countP_reverse, ← List.countP_eq_length_filter]
    have hmap := congrArg (List.countP id) h.allowed
    rw [List.countP_map, List.countP_map] at hmap
    exact hmap
  have hsub : ((List.range (s.answersOf key).length).filter fun n => n < limit) ⊆ List.range limit := by
    intro n hn
    rw [List.mem_filter, decide_eq_true_eq] at hn
    exact List.mem_range.mpr hn.2
  have hperm := List.subperm_of_subset (List.nodup_range.filter _) hsub
  rw [hcount]
  exact hperm.length_le.trans_eq List.length_range

/-- The attempt is of the scope and the identity, in the time from `t`. -/
def Answer.Within (scope ident : String) (window : ℕ) (t : Time) (a : Answer) : Bool :=
  a.call.attempt.scope = scope && a.call.attempt.ident = ident && (t ≤ a.call.now && a.call.now < t + window * MICROSECONDS)

/-- A time as long as the window lies in two windows. -/
theorem bucket_cases {t now : Time} (hw : 0 < window) (hle : t ≤ now) (hlt : now < t + window * MICROSECONDS) :
    bucket window now = bucket window t ∨ bucket window now = bucket window t + 1 := by
  have hpos : 0 < window * MICROSECONDS := Nat.mul_pos hw (by decide)
  have hlow : bucket window t ≤ bucket window now := Nat.div_le_div_right hle
  have hhigh : bucket window now ≤ bucket window t + 1 := by
    have hdiv : bucket window now ≤ (t + window * MICROSECONDS) / (window * MICROSECONDS) := Nat.div_le_div_right hlt.le
    rwa [Nat.add_div_right _ hpos] at hdiv
  rcases Nat.eq_or_lt_of_le hlow with heq | hlt'
  · exact Or.inl heq.symm
  · exact Or.inr (Nat.le_antisymm hhigh hlt')

/-- **In no time as long as the window are more than twice the limit let through,
of the attempts of one identity in a scope.** -/
theorem allowed_le {scope ident : String} {t : Time} {xs : List (Time × Step)} (hw : 0 < window)
    (h : Steps.Always tick (Timely (Of scope ident) window limit) xs {}) :
    (Steps.run tick xs {}).answers.countP (fun a => a.Within scope ident window t && a.allowed) ≤ 2 * limit := by
  set s := Steps.run tick xs {} with hs
  have hcounted : ∀ b, Counted (cacheKey scope ident b) window limit s := by
    intro b
    refine Counted.run hw (fun c hkey => ?_) h
    have hbucket : c.bucket = b := bucket_of_key hkey
    unfold Of
    rw [hkey, hbucket]
  have hfirst := (hcounted (bucket window t)).allowed_atMost
  have hsecond := (hcounted (bucket window t + 1)).allowed_atMost
  unfold State.answersOf at hfirst hsecond
  rw [List.countP_filter] at hfirst hsecond
  have hsplit : s.answers.countP (fun a => a.Within scope ident window t && a.allowed) ≤
      s.answers.countP (fun a => (a.allowed && decide (a.call.key = cacheKey scope ident (bucket window t))) ||
        (a.allowed && decide (a.call.key = cacheKey scope ident (bucket window t + 1)))) := by
    refine List.countP_mono_left fun a ha hwithin => ?_
    unfold Answer.Within at hwithin
    simp only [Bool.and_eq_true, decide_eq_true_eq] at hwithin
    obtain ⟨⟨⟨hscope, hident⟩, hle, hlt⟩, hallowed⟩ := hwithin
    have hkey : a.call.key = cacheKey scope ident a.call.bucket := by
      unfold Counting.key
      rw [hscope, hident]
    have hwin : a.call.attempt.window = window :=
      ((hcounted a.call.bucket).answer a (List.mem_filter.mpr ⟨ha, decide_eq_true hkey⟩)).1
    have hbucket : a.call.bucket = bucket window a.call.now := by
      unfold Counting.bucket
      rw [hwin]
    rw [hallowed, hkey, hbucket]
    rcases bucket_cases hw hle hlt with heq | heq
    · rw [heq]
      simp
    · rw [heq]
      simp
  have hor := countP_or_le (fun a => a.allowed && decide (a.call.key = cacheKey scope ident (bucket window t)))
    (fun a => a.allowed && decide (a.call.key = cacheKey scope ident (bucket window t + 1))) s.answers
  omega

theorem allowed_le_disputes : (Steps.run tick disputes {}).answers.countP
    (fun a => a.Within "dispute" "203.0.113.7" 60 5000000 && a.allowed) ≤ 2 * 1 :=
  allowed_le (by decide) (by decide +kernel)

end RateLimit
end FlexyVotes
