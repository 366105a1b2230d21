/-
# Sessions that are revoked

The framework keeps a session until it expires, is flushed or is lost; the row beside
it tells when the session was seen last and whether it was revoked. Revoking deletes
what the database has of the session and not its copy in the cache, so that it is the
middleware that turns the session away: each request looks the row up first, and
where there is none it makes one. A daily task deletes the rows that were not seen
for ninety days, and with a row the mark that its session was revoked.

The copies of a session in the database and in the cache are not told apart: a
session is there as long as one of them may be read, and a request may save it or
fail to.

Where a request takes no longer than some time, and that, the age of a session and
the five minutes in which a row is not touched are no more than the ninety days, no
request of a session that was revoked passes ever again (`revoked_refused`).

Key definitions: `step`, `Prompt`, `State.Safe`, `Guarded`.
Key theorems: `Safe.of_rows`, `Guarded.step`, `revoked_refused`.
-/
import FlexyVotes.Core.Login
import FlexyVotes.Lib.Entries
import FlexyVotes.Lib.Steps

namespace FlexyVotes
namespace Sessions

open Login (MICROSECONDS)

/-- `UserSession`, under its session key. -/
structure SessionRow where
  user : ℕ
  lastSeenAt : Time
  endedAt : Option Time := none
  revoked : Bool := false

/-- A session of the framework. -/
structure Session where
  user : ℕ
  expires : Time

structure Settings where
  /-- `SESSION_COOKIE_AGE`. -/
  cookieAge : ℕ := 8 * 3600 * MICROSECONDS
  /-- The longest that a request takes. -/
  duration : ℕ := 3600 * MICROSECONDS

/-- `SessionSecurityMiddleware.TOUCH_INTERVAL`. -/
def TOUCH_INTERVAL : ℕ := 300 * MICROSECONDS

/-- How long `housekeeping` keeps a row that is not seen. -/
def RETENTION : ℕ := 90 * 86400 * MICROSECONDS

variable (S : Settings)

/-- How long after its row was seen a session may still be there. -/
def Settings.afterSeen : ℕ := TOUCH_INTERVAL + S.duration + S.cookieAge

/-- A row outlives its session. -/
def Settings.Lasting : Prop := S.afterSeen ≤ RETENTION

instance : Decidable S.Lasting := inferInstanceAs (Decidable (_ ≤ _))

structure State where
  sessions : List (ℕ × Session) := []
  rows : List (ℕ × SessionRow) := []
  /-- The requests that passed the middleware: the key of their session, and since when. -/
  flights : List (ℕ × ℕ × Time) := []
  /-- The keys that were revoked. -/
  revokedKeys : List ℕ := []
  /-- The keys of the requests that have passed. -/
  passed : List ℕ := []
  clock : Time := 0

inductive Step
  /-- Someone signs in, and a new key is drawn. -/
  | login (k user : ℕ)
  /-- A request reads its row; `enrol` says that its user must enrol a second factor first. -/
  | check (i k : ℕ) (enrol : Bool)
  /-- The request signs its user in again. -/
  | relogin (i user : ℕ)
  /-- The request draws a new key for its session. -/
  | rekey (i k user : ℕ)
  /-- The request is answered, and may save its session. -/
  | serve (i : ℕ) (saves : Bool)
  | logout (i : ℕ)
  /-- The user signs out those of the sessions. -/
  | revoke (user : ℕ) (keys : ℕ → Bool)
  | housekeeping
  /-- The session is lost. -/
  | evict (k : ℕ)

def SessionRow.finish (now : Time) (row : SessionRow) : SessionRow := { row with endedAt := some now }

/-- `update_or_create` of `on_login`. -/
def SessionRow.signedIn (user : ℕ) (now : Time) : Option SessionRow → SessionRow
  | some row => { row with user := user }
  | none => ⟨user, now, none, false⟩

def State.setSession (k : ℕ) (o : Option Session) (s : State) : State := { s with sessions := Entries.put k o s.sessions }

def State.setRow (k : ℕ) (row : SessionRow) (s : State) : State := { s with rows := Entries.put k (some row) s.rows }

def State.setFlight (i : ℕ) (o : Option (ℕ × Time)) (s : State) : State := { s with flights := Entries.put i o s.flights }

/-- `on_login`. -/
def State.onLogin (k user : ℕ) (s : State) : State := s.setRow k (SessionRow.signedIn user s.clock (Entries.get k s.rows))

/-- `logout`, with `on_logout` before it. -/
def State.flush (k : ℕ) (s : State) : State :=
  State.setSession k none { s with rows := s.rows.map fun c => (c.1, if c.1 = k then c.2.finish s.clock else c.2) }

/-- The request goes on to its view, unless its user must enrol first. -/
def State.goOn (i k : ℕ) (enrol : Bool) (s : State) : State :=
  if enrol then s else { s.setFlight i (some (k, s.clock)) with passed := k :: s.passed }

/-- `SessionSecurityMiddleware`, for the request of a session that is there. -/
def State.meet (i k : ℕ) (e : Session) (enrol : Bool) (s : State) : State :=
  match Entries.get k s.rows with
  | none => (s.setRow k ⟨e.user, s.clock, none, false⟩).goOn i k enrol
  | some row =>
    if row.revoked then s.flush k
    else if TOUCH_INTERVAL < s.clock - row.lastSeenAt then (s.setRow k { row with lastSeenAt := s.clock }).goOn i k enrol
    else s.goOn i k enrol

/-- The row is one of those that are signed out. -/
def SessionRow.chosen (user : ℕ) (keys : ℕ → Bool) (c : ℕ × SessionRow) : Bool :=
  c.2.user = user && c.2.endedAt.isNone && !c.2.revoked && keys c.1

def SessionRow.signOut (user : ℕ) (keys : ℕ → Bool) (now : Time) (c : ℕ × SessionRow) : SessionRow :=
  if SessionRow.chosen user keys c then { c.2 with revoked := true, endedAt := some now } else c.2

/-- The requests of `session_revoke` and `sessions_revoke_others`. -/
def State.revoke (user : ℕ) (keys : ℕ → Bool) (s : State) : State :=
  { s with
    rows := s.rows.map fun c => (c.1, SessionRow.signOut user keys s.clock c)
    revokedKeys := (s.rows.filter (SessionRow.chosen user keys)).map (·.1) ++ s.revokedKeys }

def step : Step → State → State
  | .login k user, s => (s.setSession k (some ⟨user, s.clock + S.cookieAge⟩)).onLogin k user
  | .check i k enrol, s =>
    match Entries.get k s.sessions with
    | none => s
    | some e => if s.clock < e.expires then s.meet i k e enrol else s
  | .relogin i user, s =>
    match Entries.get i s.flights with
    | none => s
    | some (k, _) => s.onLogin k user
  | .rekey i k user, s =>
    match Entries.get i s.flights with
    | none => s
    | some (k', t) =>
      ((s.setSession k' none).setSession k (some ⟨user, s.clock + S.cookieAge⟩)).setFlight i (some (k, t))
  | .serve i saves, s =>
    match Entries.get i s.flights with
    | none => s
    | some (k, _) =>
      match Entries.get k s.sessions with
      | none => s.setFlight i none
      | some e =>
        if saves then (s.setFlight i none).setSession k (some ⟨e.user, s.clock + S.cookieAge⟩) else s.setFlight i none
  | .logout i, s =>
    match Entries.get i s.flights with
    | none => s
    | some (k, _) => (s.flush k).setFlight i none
  | .revoke user keys, s => s.revoke user keys
  | .housekeeping, s => { s with rows := s.rows.filter fun c => s.clock ≤ c.2.lastSeenAt + RETENTION }
  | .evict k, s => s.setSession k none

def State.upTo (s : State) (now : Time) : State := { s with clock := now }

/-- A step at its moment. -/
def tick (x : Time × Step) (s : State) : State := step S x.2 (s.upTo x.1)

/-- The key that is drawn in the step. -/
def Step.drawn : Step → Option ℕ
  | .login k _ | .rekey _ k _ => some k
  | .check .. | .relogin .. | .serve .. | .logout _ | .revoke .. | .housekeeping | .evict _ => none

/-- The request that the step goes on with. -/
def Step.request : Step → Option ℕ
  | .relogin i _ | .rekey i _ _ | .serve i _ | .logout i => some i
  | .login .. | .check .. | .revoke .. | .housekeeping | .evict _ => none

/-- The moments of the steps follow one another, a request goes on no longer than it
may, and a key that is drawn is new. -/
def Prompt (x : Time × Step) (s : State) : Prop :=
  s.clock ≤ x.1 ∧
  (∀ i ∈ x.2.request, ∀ f ∈ Entries.get i s.flights, x.1 ≤ f.2 + S.duration) ∧
  ∀ k ∈ x.2.drawn, Entries.get k s.rows = none ∧ k ∉ s.revokedKeys

instance (x : Time × Step) (s : State) : Decidable (Prompt S x s) := inferInstanceAs (Decidable (_ ∧ _ ∧ _))

/-! ### What every step keeps -/

/-- Up to the moment the row of the session was seen, if it has one, and without a row
it was not revoked. -/
structure State.Safe (s : State) (k : ℕ) (t : Time) (d : ℕ) : Prop where
  seen : ∀ row, Entries.get k s.rows = some row → t ≤ row.lastSeenAt + d
  rowless : Entries.get k s.rows = none → k ∉ s.revokedKeys

/-- The rows of the sessions and requests that are there have been seen lately, and the
rows of the sessions that were revoked say so. -/
structure Guarded (s : State) : Prop where
  sessionsKeyed : Entries.Keyed s.sessions
  rowsKeyed : Entries.Keyed s.rows
  flightsKeyed : Entries.Keyed s.flights
  expires : ∀ k e, Entries.get k s.sessions = some e → e.expires ≤ s.clock + S.cookieAge
  session : ∀ k e, Entries.get k s.sessions = some e → s.clock < e.expires → s.Safe k e.expires S.afterSeen
  since : ∀ i k t, Entries.get i s.flights = some (k, t) → t ≤ s.clock
  flight : ∀ i k t, Entries.get i s.flights = some (k, t) → s.clock ≤ t + S.duration → s.Safe k t TOUCH_INTERVAL
  marked : ∀ k ∈ s.revokedKeys, ∀ row, Entries.get k s.rows = some row → row.revoked = true

variable {S} {s : State} {i k d : ℕ} {t : Time}

/-- What is neither a row nor a revocation does not matter. -/
theorem Safe.rest {s' : State} (h : s.Safe k t d) (hrows : s'.rows = s.rows) (hrevoked : s'.revokedKeys = s.revokedKeys) :
    s'.Safe k t d where
  seen := hrows ▸ h.seen
  rowless := hrows ▸ hrevoked ▸ h.rowless

theorem Guarded.start : Guarded S {} where
  sessionsKeyed := Entries.Keyed.nil
  rowsKeyed := Entries.Keyed.nil
  flightsKeyed := Entries.Keyed.nil
  expires k e h := by cases h
  session k e h := by cases h
  since i k t h := by cases h
  flight i k t h := by cases h
  marked k h := by cases h

theorem Guarded.upTo {now : Time} (h : Guarded S s) (hnow : s.clock ≤ now) : Guarded S (s.upTo now) where
  sessionsKeyed := h.sessionsKeyed
  rowsKeyed := h.rowsKeyed
  flightsKeyed := h.flightsKeyed
  expires k e he := (h.expires k e he).trans (Nat.add_le_add_right hnow _)
  session k e he hlt := Safe.rest (h.session k e he (Nat.lt_of_le_of_lt hnow hlt)) rfl rfl
  since i k t hf := (h.since i k t hf).trans hnow
  flight i k t hf hle := Safe.rest (h.flight i k t hf (hnow.trans hle)) rfl rfl
  marked := h.marked

/-! ### Rows that change -/

/-- The rows after a step: one that was there is not older, and stays revoked; one that
is new was seen just now, and its session was not revoked. -/
structure Later (rows : List (ℕ × SessionRow)) (s : State) : Prop where
  keyed : Entries.Keyed rows
  kept : ∀ k row, Entries.get k s.rows = some row → Entries.get k rows ≠ none
  row : ∀ k row, Entries.get k rows = some row →
    (∃ old, Entries.get k s.rows = some old ∧ old.lastSeenAt ≤ row.lastSeenAt ∧ (old.revoked = true → row.revoked = true)) ∨
      (s.clock ≤ row.lastSeenAt ∧ k ∉ s.revokedKeys)

theorem Safe.of_rows {rows : List (ℕ × SessionRow)} (h : s.Safe k t d) (hrows : Later rows s) (ht : t ≤ s.clock + d) :
    State.Safe { s with rows := rows } k t d where
  seen row hrow := by
    rcases hrows.row k row hrow with ⟨old, hold, hle, -⟩ | ⟨hle, -⟩
    · exact (h.seen old hold).trans (Nat.add_le_add_right hle _)
    · exact ht.trans (Nat.add_le_add_right hle _)
  rowless hnone := by
    refine h.rowless ?_
    rcases hget : Entries.get k s.rows with _ | row
    · rfl
    · exact absurd hnone (hrows.kept k row hget)

theorem cookieAge_le : S.cookieAge ≤ S.afterSeen := Nat.le_add_left _ _

theorem Guarded.of_rows {rows : List (ℕ × SessionRow)} (h : Guarded S s) (hrows : Later rows s) :
    Guarded S { s with rows := rows } where
  sessionsKeyed := h.sessionsKeyed
  rowsKeyed := hrows.keyed
  flightsKeyed := h.flightsKeyed
  expires := h.expires
  session k e he hlt :=
    Safe.of_rows (h.session k e he hlt) hrows ((h.expires k e he).trans (Nat.add_le_add_left cookieAge_le _))
  since := h.since
  flight i k t hf hle := Safe.of_rows (h.flight i k t hf hle) hrows ((h.since i k t hf).trans (Nat.le_add_right _ _))
  marked k hk row hrow := by
    rcases hrows.row k row hrow with ⟨old, hold, -, hrev⟩ | ⟨-, hnot⟩
    · exact hrev (h.marked k hk old hold)
    · exact absurd hk hnot

/-- One row is written. -/
theorem Guarded.setRow {row : SessionRow} (h : Guarded S s)
    (hrow : (∃ old, Entries.get k s.rows = some old ∧ old.lastSeenAt ≤ row.lastSeenAt ∧
      (old.revoked = true → row.revoked = true)) ∨ (s.clock ≤ row.lastSeenAt ∧ k ∉ s.revokedKeys)) : Guarded S (s.setRow k row) := by
  refine h.of_rows ⟨h.rowsKeyed.put, fun j old hold => ?_, fun j new hnew => ?_⟩
  · rw [Entries.get_put h.rowsKeyed]
    split
    · exact Option.some_ne_none row
    · rw [hold]
      exact Option.some_ne_none old
  · rw [Entries.get_put h.rowsKeyed] at hnew
    split at hnew
    · rename_i hj
      rw [hj]
      cases hnew
      exact hrow
    · exact Or.inl ⟨new, hnew, le_rfl, id⟩

/-- Every row is written. -/
theorem Guarded.mapRows {f : ℕ × SessionRow → SessionRow} (h : Guarded S s)
    (hseen : ∀ c, (f c).lastSeenAt = c.2.lastSeenAt) (hrev : ∀ c, c.2.revoked = true → (f c).revoked = true) :
    Guarded S { s with rows := s.rows.map fun c => (c.1, f c) } := by
  refine h.of_rows ⟨Entries.keyed_map f h.rowsKeyed, fun j old hold => ?_, fun j new hnew => ?_⟩
  · rw [Entries.get_map, hold]
    exact Option.some_ne_none _
  · rw [Entries.get_map, Option.map_eq_some_iff] at hnew
    obtain ⟨old, hold, rfl⟩ := hnew
    exact Or.inl ⟨old, hold, (hseen (j, old)).ge, hrev (j, old)⟩

theorem Guarded.onLogin {user : ℕ} (h : Guarded S s) (hk : Entries.get k s.rows = none → k ∉ s.revokedKeys) :
    Guarded S (s.onLogin k user) := by
  refine h.setRow ?_
  rcases hrow : Entries.get k s.rows with _ | row
  · exact Or.inr ⟨le_rfl, hk hrow⟩
  · exact Or.inl ⟨row, rfl, le_rfl, id⟩

/-! ### Sessions and requests that change -/

theorem Guarded.setSession {o : Option Session} (h : Guarded S s) (hexpires : ∀ e ∈ o, e.expires ≤ s.clock + S.cookieAge)
    (hsafe : ∀ e ∈ o, s.Safe k e.expires S.afterSeen) : Guarded S (s.setSession k o) where
  sessionsKeyed := h.sessionsKeyed.put
  rowsKeyed := h.rowsKeyed
  flightsKeyed := h.flightsKeyed
  expires := Entries.forall_put h.sessionsKeyed h.expires hexpires
  session :=
    Entries.forall_put h.sessionsKeyed (fun j e he hlt => Safe.rest (h.session j e he hlt) rfl rfl)
      fun e he _ => Safe.rest (hsafe e he) rfl rfl
  since := h.since
  flight j k' t hf hle := Safe.rest (h.flight j k' t hf hle) rfl rfl
  marked := h.marked

theorem Guarded.dropSession (h : Guarded S s) (k : ℕ) : Guarded S (s.setSession k none) :=
  h.setSession (fun e he => by cases he) fun e he => by cases he

theorem Guarded.setFlight {o : Option (ℕ × Time)} (h : Guarded S s) (hsince : ∀ f ∈ o, f.2 ≤ s.clock)
    (hsafe : ∀ f ∈ o, s.Safe f.1 f.2 TOUCH_INTERVAL) : Guarded S (s.setFlight i o) where
  sessionsKeyed := h.sessionsKeyed
  rowsKeyed := h.rowsKeyed
  flightsKeyed := h.flightsKeyed.put
  expires := h.expires
  session k e he hlt := Safe.rest (h.session k e he hlt) rfl rfl
  since j k t hf := by
    have hput := (Entries.get_put h.flightsKeyed).symm.trans hf
    split at hput
    · exact hsince (k, t) hput
    · exact h.since j k t hput
  flight j k t hf hle := by
    have hput := (Entries.get_put h.flightsKeyed).symm.trans hf
    split at hput
    · exact Safe.rest (hsafe (k, t) hput) rfl rfl
    · exact Safe.rest (h.flight j k t hput hle) rfl rfl
  marked := h.marked

theorem Guarded.dropFlight (h : Guarded S s) (i : ℕ) : Guarded S (s.setFlight i none) :=
  h.setFlight (fun f hf => by cases hf) fun f hf => by cases hf

theorem Guarded.flush (h : Guarded S s) (k : ℕ) : Guarded S (s.flush k) := by
  refine (h.mapRows (f := fun c => if c.1 = k then c.2.finish s.clock else c.2) (fun c => ?_) fun c hc => ?_).dropSession k
  · split <;> rfl
  · split <;> exact hc

theorem Guarded.pass (h : Guarded S s) (passed : List ℕ) : Guarded S { s with passed := passed } where
  sessionsKeyed := h.sessionsKeyed
  rowsKeyed := h.rowsKeyed
  flightsKeyed := h.flightsKeyed
  expires := h.expires
  session k e he hlt := Safe.rest (h.session k e he hlt) rfl rfl
  since := h.since
  flight i k t hf hle := Safe.rest (h.flight i k t hf hle) rfl rfl
  marked := h.marked

/-! ### The steps -/

theorem Guarded.goOn {enrol : Bool} (h : Guarded S s) (hsafe : s.Safe k s.clock TOUCH_INTERVAL) :
    Guarded S (s.goOn i k enrol) := by
  unfold State.goOn
  split
  · exact h
  · refine (h.setFlight (fun f hf => ?_) fun f hf => ?_).pass _
    · cases hf
      exact le_rfl
    · cases hf
      exact hsafe

/-- The row was written, and seen just now. -/
theorem safe_setRow {row : SessionRow} (h : Guarded S s) (hrow : s.clock ≤ row.lastSeenAt) :
    (s.setRow k row).Safe k s.clock TOUCH_INTERVAL where
  seen row' hrow' := by
    have hput := (Entries.get_put h.rowsKeyed).symm.trans hrow'
    rw [if_pos rfl] at hput
    cases hput
    exact hrow.trans (Nat.le_add_right _ _)
  rowless hnone := by
    have hput := (Entries.get_put h.rowsKeyed).symm.trans hnone
    rw [if_pos rfl] at hput
    cases hput

theorem Guarded.meet {e : Session} {enrol : Bool} (h : Guarded S s) (he : Entries.get k s.sessions = some e)
    (hlt : s.clock < e.expires) : Guarded S (s.meet i k e enrol) := by
  have hsafe := h.session k e he hlt
  unfold State.meet
  rcases hrow : Entries.get k s.rows with _ | row
  · exact (h.setRow (Or.inr ⟨le_rfl, hsafe.rowless hrow⟩)).goOn (safe_setRow h le_rfl)
  · dsimp only
    split
    · exact h.flush k
    · split
      · rename_i hlate
        have hseen : row.lastSeenAt ≤ s.clock := Nat.le_of_lt (Nat.lt_of_sub_pos (Nat.zero_lt_of_lt hlate))
        refine Guarded.goOn (h.setRow ?_) ?_
        · exact Or.inl ⟨row, hrow, hseen, id⟩
        · exact safe_setRow h (Nat.le_refl _)
      · rename_i hsoon
        refine h.goOn ⟨fun row' hrow' => ?_, fun hnone => ?_⟩
        · rw [hrow] at hrow'
          cases hrow'
          exact Nat.sub_le_iff_le_add'.mp (Nat.not_lt.mp hsoon)
        · rw [hrow] at hnone
          cases hnone

theorem Guarded.revoke (h : Guarded S s) (user : ℕ) (keys : ℕ → Bool) : Guarded S (s.revoke user keys) := by
  have hmap := h.mapRows (f := SessionRow.signOut user keys s.clock)
    (fun c => by unfold SessionRow.signOut; split <;> rfl) fun c hc => by
      unfold SessionRow.signOut
      split
      · rfl
      · exact hc
  -- the rows that are chosen are there
  have hthere : ∀ k ∈ (s.rows.filter (SessionRow.chosen user keys)).map (·.1),
      ∃ row, Entries.get k s.rows = some row ∧ SessionRow.chosen user keys (k, row) = true := by
    intro k hk
    obtain ⟨c, hc, rfl⟩ := List.mem_map.mp hk
    obtain ⟨hmem, hchosen⟩ := List.mem_filter.mp hc
    exact ⟨c.2, h.rowsKeyed.get_eq hmem, hchosen⟩
  have hsafe : ∀ k t d, State.Safe { s with rows := s.rows.map fun c => (c.1, SessionRow.signOut user keys s.clock c) } k t d →
      (s.revoke user keys).Safe k t d := by
    intro k t d hold
    refine ⟨hold.seen, fun hnone hk => ?_⟩
    rcases List.mem_append.mp hk with hnew | hk
    · obtain ⟨row, hrow, -⟩ := hthere k hnew
      have hget := (Entries.get_map _ s.rows).symm.trans hnone
      rw [hrow] at hget
      cases hget
    · exact hold.rowless hnone hk
  exact {
    sessionsKeyed := hmap.sessionsKeyed
    rowsKeyed := hmap.rowsKeyed
    flightsKeyed := hmap.flightsKeyed
    expires := hmap.expires
    session := fun k e he hlt => hsafe k _ _ (hmap.session k e he hlt)
    since := hmap.since
    flight := fun i k t hf hle => hsafe k _ _ (hmap.flight i k t hf hle)
    marked := fun k hk row hrow => by
      rcases List.mem_append.mp hk with hnew | hk
      · obtain ⟨old, hold, hchosen⟩ := hthere k hnew
        have hget := (Entries.get_map _ s.rows).symm.trans hrow
        rw [hold, Option.map_some, SessionRow.signOut, if_pos hchosen] at hget
        cases hget
        rfl
      · exact hmap.marked k hk row hrow }

/-- What is safe stays so when the rows are swept that were not seen for ninety days. -/
theorem Safe.swept (h : s.Safe k t d) (hkeyed : Entries.Keyed s.rows) (hlate : s.clock + d ≤ t + RETENTION) :
    State.Safe { s with rows := s.rows.filter fun c => s.clock ≤ c.2.lastSeenAt + RETENTION } k t d where
  seen row hrow := by
    rw [Entries.get_filter hkeyed, Option.filter_eq_some_iff] at hrow
    exact h.seen row hrow.1
  rowless hnone := by
    rw [Entries.get_filter hkeyed] at hnone
    refine h.rowless ?_
    rcases hrow : Entries.get k s.rows with _ | row
    · rfl
    · have hseen := h.seen row hrow
      have hsum : s.clock + d ≤ row.lastSeenAt + RETENTION + d := calc
        s.clock + d ≤ t + RETENTION := hlate
        _ ≤ row.lastSeenAt + d + RETENTION := Nat.add_le_add_right hseen _
        _ = row.lastSeenAt + RETENTION + d := Nat.add_right_comm ..
      have hkeep : s.clock ≤ row.lastSeenAt + RETENTION := Nat.le_of_add_le_add_right hsum
      rw [hrow, Option.filter_some, if_pos (decide_eq_true hkeep)] at hnone
      exact hnone

theorem Guarded.housekeeping (hS : S.Lasting) (h : Guarded S s) :
    Guarded S { s with rows := s.rows.filter fun c => s.clock ≤ c.2.lastSeenAt + RETENTION } where
  sessionsKeyed := h.sessionsKeyed
  rowsKeyed := h.rowsKeyed.sublist (List.filter_sublist.map _)
  flightsKeyed := h.flightsKeyed
  expires := h.expires
  session k e he hlt := Safe.swept (h.session k e he hlt) h.rowsKeyed (Nat.add_le_add (Nat.le_of_lt hlt) hS)
  since := h.since
  flight i k t hf hle := by
    refine Safe.swept (h.flight i k t hf hle) h.rowsKeyed ?_
    have hshort : S.duration + TOUCH_INTERVAL ≤ RETENTION := by
      unfold Settings.Lasting Settings.afterSeen at hS
      omega
    calc s.clock + TOUCH_INTERVAL
      _ ≤ t + S.duration + TOUCH_INTERVAL := Nat.add_le_add_right hle _
      _ = t + (S.duration + TOUCH_INTERVAL) := Nat.add_assoc ..
      _ ≤ t + RETENTION := Nat.add_le_add_left hshort _
  marked k hk row hrow := by
    rw [Entries.get_filter h.rowsKeyed, Option.filter_eq_some_iff] at hrow
    exact h.marked k hk row hrow.1

/-- A session that was not revoked and has no row. -/
theorem safe_new {k : ℕ} (h : Entries.get k s.rows = none ∧ k ∉ s.revokedKeys) : s.Safe k t d where
  seen row hrow := by
    rw [h.1] at hrow
    cases hrow
  rowless _ := h.2

theorem Guarded.step (hS : S.Lasting) (h : Guarded S s) (x : Step)
    (hrequest : ∀ i ∈ x.request, ∀ f ∈ Entries.get i s.flights, s.clock ≤ f.2 + S.duration)
    (hdrawn : ∀ k ∈ x.drawn, Entries.get k s.rows = none ∧ k ∉ s.revokedKeys) : Guarded S (step S x s) := by
  unfold Sessions.step
  cases x with
  | login k user =>
    have hnew := hdrawn k rfl
    refine (h.setSession (fun e he => ?_) fun e he => ?_).onLogin fun _ => hnew.2
    · cases he
      exact le_rfl
    · exact safe_new hnew
  | check i k enrol =>
    dsimp only
    rcases he : Entries.get k s.sessions with _ | e
    · exact h
    · dsimp only
      split
      · exact h.meet he ‹_›
      · exact h
  | relogin i user =>
    dsimp only
    rcases hf : Entries.get i s.flights with _ | ⟨k, t⟩
    · exact h
    · exact h.onLogin (h.flight i k t hf (hrequest i rfl (k, t) hf)).rowless
  | rekey i k user =>
    dsimp only
    have hnew := hdrawn k rfl
    rcases hf : Entries.get i s.flights with _ | ⟨k', t⟩
    · exact h
    · refine ((h.dropSession k').setSession (fun e he => ?_) fun e he => ?_).setFlight (fun f hf' => ?_) fun f hf' => ?_
      · cases he
        exact le_rfl
      · exact safe_new hnew
      · cases hf'
        exact h.since i k' t hf
      · cases hf'
        exact safe_new hnew
  | serve i saves =>
    dsimp only
    rcases hf : Entries.get i s.flights with _ | ⟨k, t⟩
    · exact h
    · dsimp only
      rcases he : Entries.get k s.sessions with _ | e
      · exact h.dropFlight i
      · dsimp only
        split
        · -- the request is still under way, so that its row was seen when it passed
          have hintime := hrequest i rfl (k, t) hf
          have hsafe := h.flight i k t hf hintime
          refine (h.dropFlight i).setSession (fun e he => ?_) fun e he => ?_
          · cases he
            exact le_rfl
          · cases he
            refine ⟨fun row hrow => ?_, hsafe.rowless⟩
            have hseen := hsafe.seen row hrow
            calc s.clock + S.cookieAge
              _ ≤ t + S.duration + S.cookieAge := Nat.add_le_add_right hintime _
              _ ≤ row.lastSeenAt + TOUCH_INTERVAL + S.duration + S.cookieAge :=
                Nat.add_le_add_right (Nat.add_le_add_right hseen _) _
              _ = row.lastSeenAt + S.afterSeen := by rw [Settings.afterSeen, Nat.add_assoc, Nat.add_assoc, Nat.add_assoc]
        · exact h.dropFlight i
  | logout i =>
    dsimp only
    rcases hf : Entries.get i s.flights with _ | ⟨k, t⟩
    · exact h
    · exact (h.flush k).dropFlight i
  | revoke user keys => exact h.revoke user keys
  | housekeeping => exact h.housekeeping hS
  | evict k => exact h.dropSession k

/-! ### Requests that pass -/

/-- A key that was revoked stays so. -/
theorem revoked_step (h : k ∈ s.revokedKeys) (x : Step) : k ∈ (step S x s).revokedKeys := by
  unfold Sessions.step
  cases x with
  | login k user => exact h
  | check i k enrol =>
    dsimp only
    split
    · exact h
    · split
      · unfold State.meet State.goOn
        split
        · split <;> exact h
        · split
          · exact h
          · split <;> split <;> exact h
      · exact h
  | relogin i user | rekey i k user | logout i =>
    dsimp only
    split <;> exact h
  | serve i saves =>
    dsimp only
    split
    · exact h
    · split
      · exact h
      · split <;> exact h
  | revoke user keys => exact List.mem_append_right _ h
  | housekeeping => exact h
  | evict k => exact h

theorem goOn_passed {j : ℕ} {enrol : Bool} (hne : j ≠ k) : (s.goOn i j enrol).passed.count k = s.passed.count k := by
  unfold State.goOn
  split
  · rfl
  · exact List.count_cons_of_ne hne

/-- A request of a session that was revoked does not pass. -/
theorem Guarded.refused (h : Guarded S s) (hk : k ∈ s.revokedKeys) (x : Step) :
    (Sessions.step S x s).passed.count k = s.passed.count k := by
  unfold Sessions.step
  cases x with
  | login k user => rfl
  | check i j enrol =>
    dsimp only
    rcases he : Entries.get j s.sessions with _ | e
    · rfl
    · dsimp only
      split
      · rename_i hlt
        have hsafe := h.session j e he hlt
        unfold State.meet
        rcases hrow : Entries.get j s.rows with _ | row
        · exact goOn_passed fun hj => hsafe.rowless hrow (hj ▸ hk)
        · dsimp only
          split
          · rfl
          · rename_i hnot
            have hne : j ≠ k := fun hj => hnot (h.marked j (hj ▸ hk) row hrow)
            split
            · exact goOn_passed hne
            · exact goOn_passed hne
      · rfl
  | relogin i user | rekey i k user | logout i =>
    dsimp only
    split <;> rfl
  | serve i saves =>
    dsimp only
    split
    · rfl
    · split
      · rfl
      · split <;> rfl
  | revoke user keys => rfl
  | housekeeping => rfl
  | evict k => rfl

theorem Guarded.tick (hS : S.Lasting) {x : Time × Step} (h : Guarded S s) (hx : Prompt S x s) : Guarded S (tick S x s) :=
  (h.upTo hx.1).step hS x.2 hx.2.1 hx.2.2

/-- **No request of a session that was revoked passes ever again.** -/
theorem revoked_refused (hS : S.Lasting) {before xs : List (Time × Step)}
    (h : Steps.Always (Sessions.tick S) (Prompt S) (before ++ xs) {})
    (hk : k ∈ (Steps.run (Sessions.tick S) before {}).revokedKeys) :
    (Steps.run (Sessions.tick S) (before ++ xs) {}).passed.count k =
      (Steps.run (Sessions.tick S) before {}).passed.count k := by
  rw [Steps.always_append] at h
  rw [Steps.run_append]
  have hguarded : Guarded S (Steps.run (Sessions.tick S) before {}) :=
    Steps.Always.run (fun x _ hs hx => hs.tick hS hx) Guarded.start h.1
  generalize Steps.run (Sessions.tick S) before {} = s at h hk hguarded
  have hend : Guarded S (Steps.run (Sessions.tick S) xs s) ∧ k ∈ (Steps.run (Sessions.tick S) xs s).revokedKeys ∧
      (Steps.run (Sessions.tick S) xs s).passed.count k = s.passed.count k :=
    Steps.Always.run (I := fun s' => Guarded S s' ∧ k ∈ s'.revokedKeys ∧ s'.passed.count k = s.passed.count k)
      (C := Prompt S)
      (fun x s' hs hx => ⟨hs.1.tick hS hx, revoked_step (s := s'.upTo x.1) hs.2.1 x.2,
        ((hs.1.upTo hx.1).refused hs.2.1 x.2).trans hs.2.2⟩)
      ⟨hguarded, hk, rfl⟩ h.2
  exact hend.2.2

/-- A user signs in twice and signs the first session out from the second, while a
request of the first is under way and saves it. -/
def signedOut : List (Time × Step) :=
  [(1, .login 1 7), (2, .check 0 1 false), (3, .login 2 7), (4, .check 1 2 false), (5, .revoke 7 fun k => k = 1),
    (6, .serve 0 true), (7, .check 2 1 false), (8, .housekeeping), (9, .check 3 1 false), (10, .serve 1 true)]

theorem revoked_refused_second : (Steps.run (Sessions.tick {}) (signedOut.take 5 ++ signedOut.drop 5) {}).passed.count 1 =
    (Steps.run (Sessions.tick {}) (signedOut.take 5) {}).passed.count 1 :=
  revoked_refused (by decide) (by decide +kernel) (by decide +kernel)

end Sessions
end FlexyVotes
