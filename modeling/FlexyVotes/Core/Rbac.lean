/-
# Permissions

A role is a bundle of permissions, and is granted for the platform, for an
organization or for one election. `has_perm` evaluates the assignments against
one object; `events_for_user` makes a query of them that selects the elections a
permission can be exercised on. For a user whose account is active both come to
`Grants`. Of the two only `has_perm` asks whether it is, so an account that was
deactivated keeps what its assignments select (`authorization_agrees`).

Key definitions: `PERMISSIONS`, `Assignment`, `userPermissions`, `hasPerm`,
`eventsForUser`, `Grants`.
Key theorems: `mem_userPermissions_event`, `mem_eventsForUser`,
`authorization_agrees`.
-/
import FlexyVotes.Models

namespace FlexyVotes
namespace Rbac

/-! ### Permissions and roles -/

def PERMISSIONS : List String :=
  ["election.create", "election.view", "election.edit", "election.submit", "election.review", "election.publish",
    "election.pause", "election.close", "election.archive", "election.freeze", "candidate.create", "candidate.edit",
    "voter.view", "voter.import", "voter.edit", "voter.credentials", "vote.view", "vote.export", "results.view",
    "results.tally", "results.approve", "results.certify", "results.publish", "results.recount", "payment.view",
    "payment.reconcile", "refund.create", "refund.approve", "pricing.manage", "audit.view", "fraud.view",
    "fraud.review", "dispute.view", "dispute.manage", "incident.manage", "approval.decide", "org.manage",
    "org.billing", "support.view", "support.manage", "ticket.manage", "store.manage", "platform.admin"]

def ALL_PERMISSIONS : List String := PERMISSIONS

/-- The permissions of the role `ELECTION_ADMIN`. -/
def electionAdmin : List String :=
  ["election.create", "election.view", "election.edit", "election.submit", "election.publish", "election.pause",
    "election.close", "election.archive", "election.freeze", "candidate.create", "candidate.edit", "voter.view",
    "voter.import", "voter.edit", "voter.credentials", "vote.view", "results.view", "results.tally",
    "pricing.manage", "ticket.manage", "audit.view", "dispute.view", "incident.manage", "payment.view"]

/-- What the organizer of an event can always do on it. -/
def ORGANIZER_PERMISSIONS : List String := electionAdmin ++ ["election.submit"]

/-- An account, as it comes with a request. -/
structure Account where
  pk : ℕ
  isAuthenticated : Bool := true
  isActive : Bool := true
  isStaff : Bool := false
  isSuperuser : Bool := false

/-- `RoleAssignment`, with the permissions of its role. -/
structure Assignment where
  permissions : List String
  organizationId : Option ℕ := none
  eventId : Option ℕ := none

/-- What the authorization reads of an `Event`. -/
structure Scoped where
  pk : ℕ
  organizationId : Option ℕ
  organizerId : Option ℕ
  deriving DecidableEq

/-- `is_platform_admin`. -/
def isPlatformAdmin (user : Account) : Bool :=
  user.isAuthenticated && user.isActive && (user.isSuperuser || user.isStaff)

/-! ### One object -/

/-- What a permission is asked for. -/
inductive Object
  | none
  | event (e : Scoped)
  | organization (pk : ℕ)
  /-- Anything else: the event or election it belongs to, and its
  organization. -/
  | other (event : Option Scoped) (organizationId : Option ℕ)

/-- `_resolve_scope`. -/
def resolveScope : Object → Option ℕ × Option Scoped
  | .none => (Option.none, Option.none)
  | .event e => (e.organizationId, some e)
  | .organization pk => (some pk, Option.none)
  | .other (some e) _ => (e.organizationId, some e)
  | .other Option.none organizationId => (organizationId, Option.none)

/-- One assignment counts for the scope. -/
def Assignment.applies (a : Assignment) (organizationId : Option ℕ) (event : Option Scoped) : Bool :=
  match a.organizationId, a.eventId with
  | Option.none, Option.none => true
  | _, some eventId => event.any fun e => e.pk = eventId
  | some org, Option.none => organizationId = some org

/-- `user_permissions`. -/
def userPermissions (user : Account) (assignments : List Assignment) (obj : Object) : List String :=
  if user.isAuthenticated = false ∨ user.isActive = false then []
  else if isPlatformAdmin user then ALL_PERMISSIONS
  else
    let scope := resolveScope obj
    let granted := (assignments.filter fun a => a.applies scope.1 scope.2).flatMap (·.permissions)
    if scope.2.any fun e => e.organizerId = some user.pk then granted ++ ORGANIZER_PERMISSIONS else granted

/-- `has_perm`. -/
def hasPerm (user : Account) (assignments : List Assignment) (perm : String) (obj : Object) : Except Failure Bool :=
  if perm ∉ PERMISSIONS then .error (.crash "ValueError")
  else .ok (perm ∈ userPermissions user assignments obj)

/-! ### The query -/

/-- The scopes an assignment gathers for the query: the platform,
organizations and events. -/
structure Gathered where
  orgIds : List ℕ := []
  eventIds : List ℕ := []
  platform : Bool := false

/-- The loop of `events_for_user`. -/
def gather (perm : String) : List Assignment → Gathered → Gathered
  | [], g => g
  | a :: rest, g =>
    if perm ∉ a.permissions then gather perm rest g
    else
      match a.organizationId, a.eventId with
      | none, none => gather perm rest { g with platform := true }
      | _, some eventId => gather perm rest { g with eventIds := eventId :: g.eventIds }
      | some org, none => gather perm rest { g with orgIds := org :: g.orgIds }

/-- `events_for_user`, from the table of the events. -/
def eventsForUser (user : Account) (assignments : List Assignment) (events : List Scoped) (perm : String) :
    List Scoped :=
  if isPlatformAdmin user then events
  else if user.isAuthenticated = false then []
  else
    let g := gather perm assignments {}
    if g.platform then events
    else
      events.filter fun e =>
        e.organizationId.any (· ∈ g.orgIds) || e.pk ∈ g.eventIds ||
          (perm ∈ ORGANIZER_PERMISSIONS && e.organizerId = some user.pk)

/-! ### What both come to -/

/-- The user's assignments, or the organizer's rights, give the permission on the
event. -/
def Grants (user : Account) (assignments : List Assignment) (perm : String) (e : Scoped) : Prop :=
  (∃ a ∈ assignments, perm ∈ a.permissions ∧ a.applies e.organizationId (some e) = true) ∨
    (perm ∈ ORGANIZER_PERMISSIONS ∧ e.organizerId = some user.pk)

variable {user : Account} {assignments : List Assignment} {events : List Scoped} {perm : String} {e : Scoped}

theorem mem_granted {organizationId : Option ℕ} {event : Option Scoped} :
    perm ∈ (assignments.filter fun a => a.applies organizationId event).flatMap (·.permissions) ↔
      ∃ a ∈ assignments, perm ∈ a.permissions ∧ a.applies organizationId event = true := by
  rw [List.mem_flatMap]
  constructor
  · rintro ⟨a, ha, hp⟩
    exact ⟨a, (List.mem_filter.mp ha).1, hp, (List.mem_filter.mp ha).2⟩
  · rintro ⟨a, ha, hp, happlies⟩
    exact ⟨a, List.mem_filter.mpr ⟨ha, happlies⟩, hp⟩

/-- What `user_permissions` has for an event. -/
theorem mem_userPermissions_event (hperm : perm ∈ PERMISSIONS) :
    perm ∈ userPermissions user assignments (.event e) ↔
      user.isAuthenticated = true ∧ user.isActive = true ∧
        (isPlatformAdmin user = true ∨ Grants user assignments perm e) := by
  unfold userPermissions
  by_cases hauth : user.isAuthenticated = true
  · by_cases hactive : user.isActive = true
    · rw [if_neg (by rw [hauth, hactive]; decide)]
      by_cases hadmin : isPlatformAdmin user = true
      · rw [if_pos hadmin]
        exact iff_of_true hperm ⟨hauth, hactive, Or.inl hadmin⟩
      rw [if_neg hadmin]
      have hgrants : perm ∈ (assignments.filter fun a => a.applies e.organizationId (some e)).flatMap (·.permissions) ∨
          (perm ∈ ORGANIZER_PERMISSIONS ∧ e.organizerId = some user.pk) ↔ Grants user assignments perm e := by
        rw [mem_granted, Grants]
      show perm ∈ (if (some e).any (fun e => decide (e.organizerId = some user.pk)) then _ else _) ↔ _
      rw [Option.any_some]
      by_cases horganizer : e.organizerId = some user.pk
      · rw [if_pos (decide_eq_true horganizer), List.mem_append]
        simp [resolveScope, ← hgrants, horganizer, hauth, hactive, hadmin]
      · rw [if_neg fun h => horganizer (of_decide_eq_true h)]
        simp [resolveScope, ← hgrants, horganizer, hauth, hactive, hadmin]
    · rw [if_pos (Or.inr (Bool.eq_false_of_not_eq_true hactive))]
      exact iff_of_false List.not_mem_nil fun h => hactive h.2.1
  · rw [if_pos (Or.inl (Bool.eq_false_of_not_eq_true hauth))]
    exact iff_of_false List.not_mem_nil fun h => hauth h.1

/-- The query that was gathered selects the event. -/
def Gathered.Selects (g : Gathered) (e : Scoped) : Prop :=
  g.platform = true ∨ (∃ org ∈ g.orgIds, e.organizationId = some org) ∨ e.pk ∈ g.eventIds

theorem selects_event (g : Gathered) (eventId : ℕ) :
    { g with eventIds := eventId :: g.eventIds }.Selects e ↔ e.pk = eventId ∨ g.Selects e := by
  unfold Gathered.Selects
  rw [List.mem_cons, or_left_comm (b := e.pk = eventId)]
  exact or_left_comm

theorem selects_organization (g : Gathered) (org : ℕ) :
    { g with orgIds := org :: g.orgIds }.Selects e ↔ e.organizationId = some org ∨ g.Selects e := by
  unfold Gathered.Selects
  rw [List.exists_mem_cons_iff, or_left_comm, or_assoc]
  exact or_congr_right or_left_comm

theorem selects_platform (g : Gathered) : { g with platform := true }.Selects e := Or.inl rfl

/-- The loop gathers what applies to an event, assignment by assignment. -/
theorem gather_selects : ∀ (assignments : List Assignment) (g : Gathered),
    (gather perm assignments g).Selects e ↔
      (∃ a ∈ assignments, perm ∈ a.permissions ∧ a.applies e.organizationId (some e) = true) ∨ g.Selects e
  | [], g => by simp [gather]
  | a :: rest, g => by
    rw [List.exists_mem_cons_iff, or_comm (a := perm ∈ a.permissions ∧ _), or_assoc]
    unfold gather
    by_cases hp : perm ∈ a.permissions
    · rw [if_neg (not_not.mpr hp)]
      rcases a with ⟨permissions, org, _ | eventId⟩
      · rcases org with _ | org
        · have happlies : (perm ∈ permissions ∧ Assignment.applies ⟨permissions, none, none⟩ e.organizationId (some e) =
              true) ∨ g.Selects e := Or.inl ⟨hp, rfl⟩
          rw [gather_selects rest]
          exact iff_of_true (Or.inr (selects_platform g)) (Or.inr happlies)
        · have happlies : (perm ∈ permissions ∧ Assignment.applies ⟨permissions, some org, none⟩ e.organizationId
              (some e) = true) ↔ e.organizationId = some org := by simp [Assignment.applies, hp]
          rw [gather_selects rest, selects_organization, happlies]
      · have happlies : (perm ∈ permissions ∧ Assignment.applies ⟨permissions, org, some eventId⟩ e.organizationId
            (some e) = true) ↔ e.pk = eventId := by simp [Assignment.applies, hp]
        rw [happlies, ← selects_event, ← gather_selects rest]
        rcases org with _ | org <;> exact Iff.rfl
    · rw [if_pos hp, gather_selects rest]
      simp [hp]

/-- What `events_for_user` selects. -/
theorem mem_eventsForUser :
    e ∈ eventsForUser user assignments events perm ↔
      e ∈ events ∧ (isPlatformAdmin user = true ∨
        (user.isAuthenticated = true ∧ Grants user assignments perm e)) := by
  unfold eventsForUser
  by_cases hadmin : isPlatformAdmin user = true
  · rw [if_pos hadmin]
    simp [hadmin]
  rw [if_neg hadmin]
  by_cases hauth : user.isAuthenticated = true
  · rw [if_neg (by rw [hauth]; decide)]
    have hgathered : (gather perm assignments {}).Selects e ↔
        ∃ a ∈ assignments, perm ∈ a.permissions ∧ a.applies e.organizationId (some e) = true := by
      rw [gather_selects, or_iff_left]
      simp [Gathered.Selects]
    have hgrants : Grants user assignments perm e ↔ (gather perm assignments {}).Selects e ∨
        (perm ∈ ORGANIZER_PERMISSIONS ∧ e.organizerId = some user.pk) := by
      rw [Grants, hgathered]
    rw [hgrants, Gathered.Selects]
    by_cases hplatform : (gather perm assignments {}).platform = true
    · simp [hplatform, hauth]
    · have horg : e.organizationId.any (· ∈ (gather perm assignments {}).orgIds) = true ↔
          ∃ org ∈ (gather perm assignments {}).orgIds, e.organizationId = some org := by
        rw [Option.any_eq_true]
        simp only [decide_eq_true_eq]
        exact ⟨fun ⟨org, ho, hm⟩ => ⟨org, hm, ho⟩, fun ⟨org, hm, ho⟩ => ⟨org, ho, hm⟩⟩
      dsimp only
      rw [if_neg hplatform, List.mem_filter, Bool.or_eq_true, Bool.or_eq_true, horg]
      simp [hadmin, hauth, hplatform]
  · rw [if_pos (Bool.eq_false_of_not_eq_true hauth)]
    simp [hadmin, hauth]

/-! ### Where they differ -/

/-- **The two paths agree for an account that is active, and for one that is
granted nothing**: the query does not ask whether the account is active. -/
theorem authorization_agrees (user : Account) (assignments : List Assignment) (hperm : perm ∈ PERMISSIONS)
    (he : e ∈ events) :
    (e ∈ eventsForUser user assignments events perm ↔ hasPerm user assignments perm (.event e) = .ok true) ↔
      (user.isAuthenticated = true → Grants user assignments perm e → user.isActive = true) := by
  have hhas : hasPerm user assignments perm (.event e) = .ok true ↔
      perm ∈ userPermissions user assignments (.event e) := by
    unfold hasPerm
    rw [if_neg (not_not.mpr hperm), Except.ok.injEq, decide_eq_true_eq]
  rw [hhas, mem_userPermissions_event hperm, mem_eventsForUser]
  by_cases hauth : user.isAuthenticated = true
  · by_cases hactive : user.isActive = true
    · simp [he, hauth, hactive]
    · have hadmin : isPlatformAdmin user = false := by
        unfold isPlatformAdmin
        rw [Bool.eq_false_of_not_eq_true hactive, Bool.and_false, Bool.false_and]
      simp [he, hauth, hactive, hadmin]
  · have hadmin : isPlatformAdmin user = false := by
      unfold isPlatformAdmin
      rw [Bool.eq_false_of_not_eq_true hauth, Bool.false_and, Bool.false_and]
    simp [hauth, hadmin]

/-- An officer of one organization. -/
def viewer : Assignment := { permissions := ["election.view"], organizationId := some 3 }

theorem authorization_agrees_active :
    (⟨1, some 3, none⟩ : Scoped) ∈ eventsForUser { pk := 7 } [viewer] [⟨1, some 3, none⟩] "election.view" ↔
      hasPerm { pk := 7 } [viewer] "election.view" (.event ⟨1, some 3, none⟩) = .ok true :=
  (authorization_agrees { pk := 7 } [viewer] (by decide) List.mem_cons_self).mpr fun _ _ => rfl

/-- A deactivated officer still has the elections of the organization. -/
theorem not_authorization_agrees :
    ¬ ∀ (user : Account) (assignments : List Assignment) (events : List Scoped) (perm : String) (e : Scoped),
      perm ∈ PERMISSIONS → e ∈ events →
      (e ∈ eventsForUser user assignments events perm ↔ hasPerm user assignments perm (.event e) = .ok true) := by
  intro h
  have hboth := h { pk := 7, isActive := false } [viewer] [⟨1, some 3, none⟩] "election.view" ⟨1, some 3, none⟩
    (by decide) List.mem_cons_self
  have hhas : hasPerm { pk := 7, isActive := false } [viewer] "election.view" (.event ⟨1, some 3, none⟩) = .ok false :=
    rfl
  have hquery := hboth.mp (by decide)
  rw [hhas] at hquery
  cases hquery

end Rbac
end FlexyVotes
