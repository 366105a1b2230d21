/-
# The audit log

`record` appends one entry to the chain of its organization: the chain head
is created if there is none, locked, and the entry takes the next number and
a hash over the previous hash and its own fields. The head stays locked until
the transaction that records ends.

`record_ok` is what a proof needs of it: it writes audit rows only, and the
rest of the program goes on with more rows held.
-/
import FlexyVotes.Core.Parsing
import FlexyVotes.Lib.Conduct
import FlexyVotes.Models

namespace FlexyVotes

open Transactions

/-- A signed-in user, with what `has_perm` answers for a permission and an
event, or for no scope. -/
structure User where
  pk : ℕ
  username : String
  hasPerm : String → ℕ → Bool
  hasPlatformPerm : String → Bool := fun _ => false

/-- `has_perm` for an event, if there is one. -/
def User.may (u : User) (perm : String) : Option ℕ → Bool
  | some e => u.hasPerm perm e
  | none => u.hasPlatformPerm perm

/-- What an operation reads of the HTTP request it runs for. -/
structure Request where
  user : Option User := none
  clientIp : Option String := none
  userAgent : String := ""
  correlationId : String := "-"

namespace Audit

def GENESIS : String := "0000000000000000000000000000000000000000000000000000000000000000"

def chainFor : Option ℕ → String
  | some o => if o = 0 then "platform" else "org:" ++ toString o
  | none => "platform"

/-- `_normalize`: a round trip through canonical JSON, so that what is hashed
is what is stored. -/
def normalize (E : Env) (value : Json) : Json :=
  let v := if value.falsy then .obj [] else value
  (Json.loads E.parseFloat v.canonicalJson).getD v

/-- The arguments of `record`. -/
structure Entry where
  eventType : String
  request : Option Request := none
  actor : Option User := none
  /-- `event.pk` and `event.organization_id`. -/
  event : Option (ℕ × Option ℕ) := none
  /-- The `organization_id` that is given. -/
  organization : Option ℕ := none
  targetType : String := ""
  targetId : String := ""
  summary : String := ""
  changes : Json := .obj []
  metadata : Json := .obj []
  result : AuditResult := .SUCCESS
  reason : String := ""
  ipAddress : Option String := none
  /-- The clock when the entry is made. -/
  createdAt : Time := 0

def truncate (n : ℕ) (s : String) : String := String.ofList (s.toList.take n)

/-- The given actor, or the user the request is signed in as. -/
def Entry.by (a : Entry) : Option User := a.actor.or (a.request.bind (·.user))

def Entry.organizationId (a : Entry) : Option ℕ := a.organization.or (a.event.bind (·.2))

/-- The entry as it is stored after the hash `prevHash`, before its own hash
is known. -/
def Entry.fields (E : Env) (a : Entry) (prevHash : String) : AuditEventRow where
  eventType := a.eventType
  actorId := a.by.map (·.pk)
  actorLabel := truncate 150 ((a.by.map (·.username)).getD "")
  organizationId := a.organizationId
  electionId := a.event.map (·.1)
  targetType := truncate 64 (if a.targetType = "" ∧ a.event.isSome then "voting.Event" else a.targetType)
  targetId := truncate 64
    (if a.targetType = "" ∧ a.event.isSome then toString ((a.event.map (·.1)).getD 0) else a.targetId)
  summary := truncate 500 a.summary
  ipAddress := (a.ipAddress.filter (· ≠ "")).or (a.request.bind (·.clientIp))
  userAgent := (a.request.map (·.userAgent)).getD ""
  correlationId :=
    let c := (a.request.map (·.correlationId)).getD "-"
    if c = "-" then "" else c
  changes := normalize E a.changes
  metadata := normalize E a.metadata
  result := a.result
  reason := a.reason
  createdAt := a.createdAt
  prevHash := prevHash
  hash := ""

def resultJson : AuditResult → Json
  | .SUCCESS => .str "SUCCESS"
  | .FAILURE => .str "FAILURE"
  | .DENIED => .str "DENIED"

/-- `compute_hash`: over the previous hash and `HASHED_FIELDS`. -/
def computeHash (E : Env) (prevHash chain : String) (seq : ℕ) (r : AuditEventRow) : String :=
  E.sha256 (prevHash ++ (Json.obj [
    ("chain", .str chain), ("seq", .nat seq), ("event_type", .str r.eventType),
    ("actor_id", Json.opt .nat r.actorId), ("actor_label", .str r.actorLabel),
    ("organization_id", Json.opt .nat r.organizationId),
    ("election_id", Json.opt .nat r.electionId), ("target_type", .str r.targetType),
    ("target_id", .str r.targetId), ("summary", .str r.summary),
    ("ip_address", Json.opt .str r.ipAddress), ("user_agent", .str r.userAgent),
    ("correlation_id", .str r.correlationId), ("changes", r.changes), ("metadata", r.metadata),
    ("result", resultJson r.result), ("reason", .str r.reason),
    ("created_at", .str (E.strftime r.createdAt))]).canonicalJson)

/-- The stored entry number `seq` of `chain`. -/
def Entry.row (E : Env) (a : Entry) (chain : String) (seq : ℕ) (prevHash : String) : AuditEventRow :=
  let r := a.fields E prevHash
  { r with hash := computeHash E prevHash chain seq r }

/-- `_head_for_update`: `get_or_create`, then the row locked. An insert that
fails leaves the row another transaction created. -/
def headForUpdate (chain : String) (fail : Program) (k : AuditHeadRow → Program) : Program :=
  let lockHead : Program := .lockRow (.auditHead chain) fun
    | none => fail
    | some head => k head
  .read fun db =>
    match db.row (.auditHead chain) with
    | some _ => lockHead
    | none => .insert (.auditHead chain) { lastHash := GENESIS } fun _ => lockHead

/-- `record`; `fail` is what happens on a database error. -/
def record (E : Env) (a : Entry) (fail k : Program) : Program :=
  let chain := chainFor a.organizationId
  headForUpdate chain fail fun head =>
    let entry := a.row E chain (head.seq + 1) head.lastHash
    .insertOr (.auditEvent chain (head.seq + 1)) entry fail <|
    .put (.auditHead chain) (some { seq := head.seq + 1, lastHash := entry.hash }) k

/-- `record` outside a transaction: in one of its own. -/
def recordNow (E : Env) (a : Entry) (fail k : Program) : Program := record E a (.rollback fail) (.commit k)

/-! ### What recording writes -/

/-- A row of the audit log. -/
def isAudit : Key → Bool
  | .auditHead _ => true
  | .auditEvent _ _ => true
  | _ => false

/-- Writes of audit rows only. -/
abbrev AuditOnly (w : Writes Row) : Prop := Db.Only isAudit w

variable {S : Spec Row Note} (hS : S.Sound)

include hS in
/-- **Recording is `Ok`** when the failure exit is, and the rest is with audit
rows written and more rows held. -/
theorem record_ok {E : Env} {a : Entry} {fail k : Program} {db : Database} {own : List Key}
    {w : Writes Row} {log : List Note} (hfail : ExitsTo S fail db own log)
    (hk : GoesOn S isAudit k db own w log) : Ok S (record E a fail k) db own w log := by
  have hlocked : ∀ db own w, ExitsTo S fail db own log → GoesOn S isAudit k db own w log →
      Ok S (.lockRow (.auditHead (chainFor a.organizationId)) fun
        | none => fail
        | some head =>
          .insertOr (.auditEvent (chainFor a.organizationId) (head.seq + 1))
            (a.row E (chainFor a.organizationId) (head.seq + 1) head.lastHash) fail <|
          .put (.auditHead (chainFor a.organizationId))
            (some { seq := head.seq + 1,
                    lastHash := (a.row E (chainFor a.organizationId) (head.seq + 1) head.lastHash).hash })
            k) db own w log := by
    intro db own w hfail hk
    refine Ok.lockRow (fun db₁ head h₁ _ => ?_) fun db₁ h₁ => hfail db₁ own w h₁ fun _ hx => hx
    have hsub : ∀ y ∈ own, y ∈ Key.auditHead (chainFor a.organizationId) :: own :=
      fun y hy => List.mem_cons_of_mem _ hy
    refine Ok.insertOr (fun db₂ h₂ _ => ⟨by simp, fun db₃ h₃ => ?_⟩) fun db₂ h₂ =>
      hfail db₂ _ w (h₁.trans hS (h₂.sub hS hsub)) hsub
    have hsub' : ∀ y ∈ own, y ∈ Key.auditEvent (chainFor a.organizationId) (head.seq + 1) ::
        Key.auditHead (chainFor a.organizationId) :: own := fun y hy => by simp [hy]
    exact hk db₃ _ [⟨_, _⟩, ⟨_, _⟩] ((h₁.trans hS (h₂.sub hS hsub)).trans hS (h₃.sub hS hsub')) hsub'
      (.cons rfl (.cons rfl .nil))
  intro db₁ hst
  dsimp only
  split
  · exact hlocked db₁ own w (hfail.mono hS hst fun _ h => h)
      (hk.mono hS hst (fun _ h => h) .nil)
  · intro db₂ hst₂
    have hst' := hst.trans hS hst₂
    refine ⟨fun _ => ?_, fun _ => ?_⟩
    · exact hlocked db₂ _ _ (hfail.mono hS hst' fun _ h => List.mem_cons_of_mem _ h)
        (hk.mono hS hst' (fun _ h => List.mem_cons_of_mem _ h) (.cons rfl .nil))
    · exact hlocked db₂ own w (hfail.mono hS hst' fun _ h => h)
        (hk.mono hS hst' (fun _ h => h) .nil)

include hS in
/-- **A record of its own** commits audit rows; what is known beside them
lasts. -/
theorem recordNow_ok {E : Env} {a : Entry} {fail k : Program} {db : Database} {log : List Note}
    {P : Database → Prop} (hq : Quiet S isAudit) (hP : Lasts S isAudit log P) (hp : P db)
    (hfail : ∀ db, Ok S fail db [] [] log) (hk : ∀ db, S.inv db → P db → Ok S k db [] [] log) :
    Ok S (recordNow E a fail k) db [] [] log := by
  refine record_ok hS (fun _ _ _ _ _ db' _ => hfail db') fun db₁ own w h₁ _ hw => ?_
  rw [List.append_nil]
  exact hq.commit hP hw (hP.stable _ _ _ h₁ hp) hk

include hS in
/-- A record between transactions. -/
theorem Rest.recordNow {E : Env} {a : Entry} {fail k : Program} (hq : Quiet S isAudit) (hfail : Rest S fail)
    (hk : Rest S k) : Rest S (recordNow E a fail k) := fun _ log =>
  recordNow_ok hS hq .trivial trivial (fun db => hfail db log) fun db _ _ => hk db log

/-- Alone, recording leaves all but the audit log. -/
theorem record_only {E : Env} {a : Entry} {fail k : Program} (hfail : fail.Only isAudit) (hk : k.Only isAudit) :
    (record E a fail k).Only isAudit := by
  have hlocked : ∀ head : AuditHeadRow, (Prog.insertOr (.auditEvent (chainFor a.organizationId) (head.seq + 1))
      (a.row E (chainFor a.organizationId) (head.seq + 1) head.lastHash) fail <|
      .put (.auditHead (chainFor a.organizationId))
        (some { seq := head.seq + 1,
                lastHash := (a.row E (chainFor a.organizationId) (head.seq + 1) head.lastHash).hash }) k : Program).Only
      isAudit := fun _ => .insertOr rfl hfail ⟨rfl, hk⟩
  intro db
  dsimp only
  split
  · exact .lockRow hfail hlocked
  · exact ⟨rfl, fun _ => .lockRow hfail hlocked⟩

theorem recordNow_only {E : Env} {a : Entry} {fail k : Program} (hfail : fail.Only isAudit) (hk : k.Only isAudit) :
    (recordNow E a fail k).Only isAudit := record_only hfail hk

/-- Recording, up to what follows it. -/
theorem record_apart {E : Env} {a : Entry} {fail k : Program} {p : Key → Bool} {n : Note → Bool} {out : Program → Prop}
    (hp : ∀ x, isAudit x = true → p x = true) (hfail : fail.Apart p n out) (hk : k.Apart p n out) :
    (record E a fail k).Apart p n out := by
  have hlocked : ∀ head : AuditHeadRow, (Prog.insertOr (.auditEvent (chainFor a.organizationId) (head.seq + 1))
      (a.row E (chainFor a.organizationId) (head.seq + 1) head.lastHash) fail <|
      .put (.auditHead (chainFor a.organizationId))
        (some { seq := head.seq + 1,
                lastHash := (a.row E (chainFor a.organizationId) (head.seq + 1) head.lastHash).hash }) k : Program).Apart
      p n out := fun _ => .insertOr (hp _ rfl) hfail (.put (hp _ rfl) hk)
  refine .read fun db => ?_
  split
  · exact .lockRow hfail hlocked
  · exact .insert (hp _ rfl) fun _ => .lockRow hfail hlocked

/-- Recording keeps to what ignores the audit log, and what follows finds the
other rows as they were. -/
theorem record_keeps {R : Database → Database → Prop} (htrans : ∀ v v' v'', R v v' → R v' v'' → R v v'')
    (hR : Ignores R isAudit) {E : Env} {a : Entry} {fail k : Program} {v : Database}
    (hfail : ∀ v', Off isAudit v v' → fail.Keeps R v') (hk : ∀ v', Off isAudit v v' → k.Keeps R v') :
    (record E a fail k).Keeps R v := by
  have hlocked : ∀ (v' : Database) (head : AuditHeadRow), Off isAudit v v' →
      (Prog.insertOr (.auditEvent (chainFor a.organizationId) (head.seq + 1))
        (a.row E (chainFor a.organizationId) (head.seq + 1) head.lastHash) fail <|
      .put (.auditHead (chainFor a.organizationId))
        (some { seq := head.seq + 1,
                lastHash := (a.row E (chainFor a.organizationId) (head.seq + 1) head.lastHash).hash }) k :
        Program).Keeps R v' := fun v' _ hoff =>
    .insertOr htrans (fun _ => hR _ _ _ rfl)
      (fun _ => .put htrans (hR _ _ _ rfl) (hk _ ((hoff.set rfl).set rfl))) (hfail v' hoff)
  refine .read ?_
  dsimp only
  split
  · exact .lockRow (fun _ => hfail v (.refl v)) fun _ _ => hlocked v _ (.refl v)
  · exact .insert htrans (fun _ => hR _ _ _ rfl)
      (fun _ => .lockRow (fun _ => hfail _ (.set (.refl v) rfl)) fun _ _ => hlocked _ _ (.set (.refl v) rfl))
      fun _ => .lockRow (fun _ => hfail v (.refl v)) fun _ _ => hlocked v _ (.refl v)

end Audit

/-! ### Failure exits -/

/-- A failure after a rollback: the continuation is `Ok` with nothing held. -/
def FailsOk {α : Type} (S : Spec Row Note) (k : Except Failure α → Program) (log : List Note) : Prop :=
  ∀ db e, Ok S (k (.error e)) db [] [] log

section Exits

variable {S : Spec Row Note} {log : List Note}

/-- A failure inside a transaction: everything is rolled back. -/
theorem FailsOk.rollback {α : Type} {k : Except Failure α → Program} (hk : FailsOk S k log) {e : Failure}
    {db : Database} {own : List Key} {w : Writes Row} : Ok S (.rollback (k (.error e))) db own w log :=
  fun db' _ => hk db' e

/-- Every failure exit of the transaction. -/
theorem FailsOk.exits {α : Type} {k : Except Failure α → Program} (hk : FailsOk S k log) {db : Database}
    {own : List Key} : FailsFrom S (fun e => .rollback (k (.error e))) db own log :=
  fun _ _ _ _ _ _ => hk.rollback

theorem FailsOk.halt {α : Type} : FailsOk S (fun _ : Except Failure α => .halt) log := fun _ _ => trivial

end Exits

end FlexyVotes
