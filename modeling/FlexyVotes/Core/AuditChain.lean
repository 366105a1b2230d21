/-
# Verifying the audit log

`verifyChain` walks the entries of a chain by their numbers, recomputes each
hash and compares the last one with the head of the chain. The entries of a
chain that was only recorded to are accepted, all of them; entries that end in
the same head, but are not the same, are not (`chain_integrity`): the hash of
the newest entry stands for the chain, since the text that is hashed stands for
the fields of an entry and the hash before it.

Key definitions: `entriesOf`, `verifyFrom`, `verifyChain`, `Recorded`.
Key theorems: `verifyFrom_eq_ok`, `hashed_inj`, `recordNow_recorded`,
`chain_integrity`.
-/
import FlexyVotes.Core.Audit
import FlexyVotes.Lib.Chains
import FlexyVotes.Lib.Serial

namespace FlexyVotes
namespace Audit

open Transactions Chains

/-! ### Verifying -/

/-- What `verify_chain` returns. -/
structure Verification where
  ok : Bool
  count : ℕ
  badSeq : Option ℕ
  message : String
  deriving DecidableEq

/-- An entry of the chain, with its number. -/
def entryOf (chain : String) : (k : Key) → Row k → Option (ℕ × AuditEventRow)
  | .auditEvent c seq => fun r => if c = chain then some (seq, r) else none
  | _ => fun _ => none

/-- The entries of the chain, by their number. -/
def entriesOf (db : Database) (chain : String) : List (ℕ × AuditEventRow) :=
  (db.collect (entryOf chain)).insertionSort fun a b => a.1 ≤ b.1

/-- The loop of `verify_chain`: how many entries it has seen and the last hash,
or where it ends. -/
def verifyFrom (E : Env) (chain : String) :
    List (ℕ × AuditEventRow) → String → ℕ → ℕ → Except Verification (ℕ × String)
  | [], prev, _, count => .ok (count, prev)
  | (seq, r) :: rest, prev, expected, count =>
    if seq ≠ expected then
      .error ⟨false, count, some seq,
        "Sequence gap: expected " ++ toString expected ++ ", found " ++ toString seq ++ "."⟩
    else if r.prevHash ≠ prev then .error ⟨false, count, some seq, "Previous-hash link broken."⟩
    else if computeHash E prev chain seq r ≠ r.hash then
      .error ⟨false, count, some seq, "Content hash mismatch (row was modified)."⟩
    else verifyFrom E chain rest r.hash (expected + 1) (count + 1)

/-- `verify_chain`. -/
def verifyChain (E : Env) (db : Database) (chain : String) : Verification :=
  match verifyFrom E chain (entriesOf db chain) GENESIS 1 0 with
  | .error v => v
  | .ok (count, prev) =>
    match db.row (.auditHead chain) with
    | some head =>
      if head.seq ≠ count ∨ head.lastHash ≠ prev then
        ⟨false, count, some head.seq, "Chain head does not match the last entry (rows deleted?)."⟩
      else ⟨true, count, none, "Chain intact."⟩
    | none => ⟨true, count, none, "Chain intact."⟩

/-! ### The links of a chain -/

variable {E : Env} {chain : String}

/-- An entry as a link of its chain. -/
def linkOf (p : ℕ × AuditEventRow) : Link AuditEventRow String := ⟨p.1, p.2.prevHash, p.2.hash, p.2⟩

/-- The hash of an entry, after the one before it. -/
def hashOf (E : Env) (chain : String) (prev : String) (seq : ℕ) (r : AuditEventRow) : String :=
  computeHash E prev chain seq r

/-- The entries, newest first, are a chain. -/
def Chained (E : Env) (chain : String) (newest : List (ℕ × AuditEventRow)) : Prop :=
  Linked (hashOf E chain) GENESIS (newest.map linkOf)

/-- The last hash of the entries, newest first. -/
def lastHash (newest : List (ℕ × AuditEventRow)) : String := last GENESIS (newest.map linkOf)

/-- Where the loop ends early, the chain is refused. -/
theorem verifyFrom_error : ∀ (xs : List (ℕ × AuditEventRow)) (prev : String) (expected count : ℕ) {v : Verification},
    verifyFrom E chain xs prev expected count = .error v → v.ok = false
  | [], _, _, _, _, h => by cases h
  | (seq, r) :: xs, prev, expected, count, v, h => by
    rw [verifyFrom] at h
    split_ifs at h
    · cases h
      rfl
    · cases h
      rfl
    · cases h
      rfl
    · exact verifyFrom_error xs _ _ _ h

theorem verifyFrom_append : ∀ (xs ys : List (ℕ × AuditEventRow)) (prev : String) (expected count : ℕ),
    verifyFrom E chain (xs ++ ys) prev expected count =
      match verifyFrom E chain xs prev expected count with
      | .error v => .error v
      | .ok (n, p) => verifyFrom E chain ys p (expected + xs.length) n
  | [], _, _, _, _ => rfl
  | (seq, r) :: xs, ys, prev, expected, count => by
    rw [List.cons_append, verifyFrom, verifyFrom, verifyFrom_append xs ys]
    split_ifs <;> try rfl
    rw [List.length_cons, show expected + 1 + xs.length = expected + (xs.length + 1) by omega]

/-- **The loop accepts what is a chain**, and only that. -/
theorem verifyFrom_eq_ok : ∀ (newest : List (ℕ × AuditEventRow)) (n : ℕ) (p : String),
    verifyFrom E chain newest.reverse GENESIS 1 0 = .ok (n, p) ↔
      Chained E chain newest ∧ n = newest.length ∧ p = lastHash newest
  | [], n, p => by
    have hok : verifyFrom E chain [].reverse GENESIS 1 0 = .ok (0, GENESIS) := rfl
    rw [hok]
    constructor
    · intro h
      cases h
      exact ⟨trivial, rfl, rfl⟩
    · rintro ⟨-, rfl, rfl⟩
      rfl
  | (seq, r) :: older, n, p => by
    have ih := verifyFrom_eq_ok older
    rw [List.reverse_cons, verifyFrom_append]
    cases hverify : verifyFrom E chain older.reverse GENESIS 1 0 with
    | error v =>
      refine iff_of_false nofun fun ⟨hchained, _⟩ => ?_
      have hok := (ih _ _).mpr ⟨hchained.2.2.2, rfl, rfl⟩
      rw [hverify] at hok
      cases hok
    | ok result =>
      obtain ⟨m, q⟩ := result
      obtain ⟨hchained, rfl, rfl⟩ := (ih m q).mp hverify
      have hlength : (older.map linkOf).length = older.length := List.length_map _
      dsimp only
      rw [verifyFrom, List.length_reverse]
      constructor
      · intro h
        split_ifs at h with hseq hprev hhash
        rw [verifyFrom] at h
        cases h
        refine ⟨⟨?_, not_not.mp hprev, ?_, hchained⟩, rfl, rfl⟩
        · rw [hlength, Nat.add_comm]
          exact not_not.mp hseq
        · show r.hash = computeHash E r.prevHash chain seq r
          rw [not_not.mp hprev]
          exact (not_not.mp hhash).symm
      · rintro ⟨⟨hseq, hprev, hhash, -⟩, rfl, rfl⟩
        have hseq : seq = 1 + older.length := by rw [Nat.add_comm, ← hlength]; exact hseq
        have hprev : r.prevHash = lastHash older := hprev
        have hhash : r.hash = computeHash E r.prevHash chain seq r := hhash
        rw [if_neg (not_not.mpr hseq), if_neg (not_not.mpr hprev), ← hprev, if_neg (not_not.mpr hhash.symm)]
        rfl

/-! ### The text that is hashed -/

/-- The hashed fields of an entry. -/
def payload (E : Env) (chain : String) (seq : ℕ) (r : AuditEventRow) : List (String × Json) := [
  ("chain", .str chain), ("seq", .nat seq), ("event_type", .str r.eventType),
  ("actor_id", Json.opt .nat r.actorId), ("actor_label", .str r.actorLabel),
  ("organization_id", Json.opt .nat r.organizationId),
  ("election_id", Json.opt .nat r.electionId), ("target_type", .str r.targetType),
  ("target_id", .str r.targetId), ("summary", .str r.summary),
  ("ip_address", Json.opt .str r.ipAddress), ("user_agent", .str r.userAgent),
  ("correlation_id", .str r.correlationId), ("changes", r.changes), ("metadata", r.metadata),
  ("result", resultJson r.result), ("reason", .str r.reason),
  ("created_at", .str (E.strftime r.createdAt))]

def HASHED_FIELDS : List String :=
  ["chain", "seq", "event_type", "actor_id", "actor_label", "organization_id", "election_id", "target_type",
    "target_id", "summary", "ip_address", "user_agent", "correlation_id", "changes", "metadata", "result",
    "reason", "created_at"]

theorem payload_names (E : Env) (chain : String) (seq : ℕ) (r : AuditEventRow) :
    (payload E chain seq r).map (·.1) = HASHED_FIELDS := rfl

theorem payload_nodup (E : Env) (chain : String) (seq : ℕ) (r : AuditEventRow) :
    ((payload E chain seq r).map (·.1)).Nodup := by
  rw [payload_names]
  decide

/-- What `compute_hash` hashes. -/
def hashedText (E : Env) (prev chain : String) (seq : ℕ) (r : AuditEventRow) : String :=
  prev ++ (Json.obj (payload E chain seq r)).canonicalJson

theorem computeHash_eq (prev : String) (seq : ℕ) (r : AuditEventRow) :
    computeHash E prev chain seq r = E.sha256 (hashedText E prev chain seq r) := rfl

/-- The values of an entry that the database reads back. -/
def Readable (E : Env) (r : AuditEventRow) : Prop :=
  Json.Sound E.parseFloat r.changes ∧ Json.Sound E.parseFloat r.metadata

/-- The fields of an entry, where dictionaries that differ in the order of their
members are the same. -/
def fieldsOf (r : AuditEventRow) : AuditEventRow :=
  { r with changes := r.changes.norm, metadata := r.metadata.norm, prevHash := "", hash := "" }

/-- An entry, where dictionaries that differ in the order of their members are
the same. -/
def shown (p : ℕ × AuditEventRow) : ℕ × AuditEventRow :=
  (p.1, { p.2 with changes := p.2.changes.norm, metadata := p.2.metadata.norm })

theorem payload_sound {seq : ℕ} {r : AuditEventRow} (h : Readable E r) :
    Json.Sound E.parseFloat (.obj (payload E chain seq r)) := by
  refine ⟨payload_nodup E chain seq r, (Json.soundMembers_iff _).mpr fun p hp => ?_⟩
  have hopt : ∀ {α : Type} (f : α → Json) (x : Option α), (∀ a, Json.Sound E.parseFloat (f a)) →
      Json.Sound E.parseFloat (Json.opt f x) := fun f x hf => by
    cases x with
    | none => trivial
    | some a => exact hf a
  have hresult : Json.Sound E.parseFloat (resultJson r.result) := by
    cases r.result <;> trivial
  simp only [payload, List.mem_cons, List.not_mem_nil, or_false] at hp
  rcases hp with rfl | rfl | rfl | rfl | rfl | rfl | rfl | rfl | rfl | rfl | rfl | rfl | rfl | rfl | rfl | rfl | rfl | rfl
  all_goals first | trivial | exact hopt _ _ fun _ => trivial | exact h.1 | exact h.2

theorem opt_nat_inj : ∀ {x y : Option ℕ}, (Json.opt .nat x).norm = (Json.opt .nat y).norm → x = y
  | none, none, _ => rfl
  | none, some _, h => by cases h
  | some _, none, h => by cases h
  | some a, some b, h => by
    have heq : Json.int a = Json.int b := h
    rw [Json.int.injEq] at heq
    have hsame : a = b := by omega
    rw [hsame]

theorem opt_str_inj : ∀ {x y : Option String}, (Json.opt .str x).norm = (Json.opt .str y).norm → x = y
  | none, none, _ => rfl
  | none, some _, h => by cases h
  | some _, none, h => by cases h
  | some a, some b, h => by
    have heq : Json.str a = Json.str b := h
    rw [Json.str.inj heq]

theorem resultJson_inj {x y : AuditResult} (h : (resultJson x).norm = (resultJson y).norm) : x = y := by
  have heq : ∀ z, (resultJson z).norm = resultJson z := fun z => by cases z <;> rfl
  rw [heq, heq] at h
  cases x <;> cases y <;> first | rfl | (simp [resultJson] at h)

/-- **Equal encodings are of equal fields**. -/
theorem payload_inj {seq seq' : ℕ} {r r' : AuditEventRow} (h : Readable E r) (h' : Readable E r')
    (htime : E.strftime r.createdAt = E.strftime r'.createdAt → r.createdAt = r'.createdAt)
    (heq : (Json.obj (payload E chain seq r)).canonicalJson = (Json.obj (payload E chain seq' r')).canonicalJson) :
    fieldsOf r = fieldsOf r' := by
  have hnorm := Json.canonicalJson_inj (payload_sound h) (payload_sound h') heq
  rw [Json.norm_obj, Json.norm_obj, Json.obj.injEq] at hnorm
  have hget : ∀ key, (Json.get? (payload E chain seq r) key).map Json.norm =
      (Json.get? (payload E chain seq' r') key).map Json.norm := fun key => by
    rw [← Json.get?_normed (payload_nodup E chain seq r),
      ← Json.get?_normed (payload_nodup E chain seq' r'), Json.normed, Json.normed, hnorm]
  have hstr : ∀ {key : String} {x y : String}, Json.get? (payload E chain seq r) key = some (.str x) →
      Json.get? (payload E chain seq' r') key = some (.str y) → x = y := fun {key x y} hx hy => by
    have hkey := hget key
    rw [hx, hy, Option.map_some, Option.map_some, Option.some.injEq] at hkey
    have hsame : Json.str x = Json.str y := hkey
    exact Json.str.inj hsame
  have heventType : r.eventType = r'.eventType := @hstr "event_type" _ _ rfl rfl
  have hactor : r.actorId = r'.actorId := opt_nat_inj (Option.some.inj (hget "actor_id"))
  have hlabel : r.actorLabel = r'.actorLabel := @hstr "actor_label" _ _ rfl rfl
  have horganization : r.organizationId = r'.organizationId := opt_nat_inj (Option.some.inj (hget "organization_id"))
  have helection : r.electionId = r'.electionId := opt_nat_inj (Option.some.inj (hget "election_id"))
  have htargetType : r.targetType = r'.targetType := @hstr "target_type" _ _ rfl rfl
  have htargetId : r.targetId = r'.targetId := @hstr "target_id" _ _ rfl rfl
  have hsummary : r.summary = r'.summary := @hstr "summary" _ _ rfl rfl
  have hip : r.ipAddress = r'.ipAddress := opt_str_inj (Option.some.inj (hget "ip_address"))
  have hagent : r.userAgent = r'.userAgent := @hstr "user_agent" _ _ rfl rfl
  have hcorrelation : r.correlationId = r'.correlationId := @hstr "correlation_id" _ _ rfl rfl
  have hchanges : r.changes.norm = r'.changes.norm := Option.some.inj (hget "changes")
  have hmetadata : r.metadata.norm = r'.metadata.norm := Option.some.inj (hget "metadata")
  have hresult : r.result = r'.result := resultJson_inj (Option.some.inj (hget "result"))
  have hreason : r.reason = r'.reason := @hstr "reason" _ _ rfl rfl
  have hcreated : r.createdAt = r'.createdAt := htime (@hstr "created_at" _ _ rfl rfl)
  unfold fieldsOf
  rw [heventType, hactor, hlabel, horganization, helection, htargetType, htargetId, hsummary, hip, hagent, hcorrelation,
    hchanges, hmetadata, hresult, hreason, hcreated]

/-- A hash before the encoding ends where the encoding begins. -/
theorem append_brace_inj : ∀ {p p' s s' : List Char}, '\x7b' ∉ p → '\x7b' ∉ p' →
    p ++ '\x7b' :: s = p' ++ '\x7b' :: s' → p = p' ∧ s = s'
  | [], [], _, _, _, _, h => ⟨rfl, (List.cons.inj h).2⟩
  | [], c :: p', _, _, _, hp', h => absurd ((List.cons.inj h).1 ▸ List.mem_cons_self) hp'
  | c :: p, [], _, _, hp, _, h => absurd ((List.cons.inj h).1 ▸ List.mem_cons_self) hp
  | c :: p, c' :: p', _, _, hp, hp', h => by
    obtain ⟨hc, hrest⟩ := List.cons.inj h
    have hsplit := append_brace_inj (fun hmem => hp (List.mem_cons_of_mem _ hmem))
      (fun hmem => hp' (List.mem_cons_of_mem _ hmem)) hrest
    exact ⟨by rw [hc, hsplit.1], hsplit.2⟩

/-- **The text that is hashed stands for the hash before and the fields** of the
entry. -/
theorem hashedText_inj {prev prev' : String} {seq seq' : ℕ} {r r' : AuditEventRow} (h : Readable E r)
    (h' : Readable E r') (htime : E.strftime r.createdAt = E.strftime r'.createdAt → r.createdAt = r'.createdAt)
    (hprev : '\x7b' ∉ prev.toList) (hprev' : '\x7b' ∉ prev'.toList)
    (heq : hashedText E prev chain seq r = hashedText E prev' chain seq' r') :
    prev = prev' ∧ fieldsOf r = fieldsOf r' := by
  have hs : (Json.obj (payload E chain seq r)).canonicalJson.toList = _ := Json.text_obj _
  have hs' : (Json.obj (payload E chain seq' r')).canonicalJson.toList = _ := Json.text_obj _
  have hlist := congrArg String.toList heq
  unfold hashedText at hlist
  rw [String.toList_append, String.toList_append, hs, hs'] at hlist
  obtain ⟨hp, hrest⟩ := append_brace_inj hprev hprev' hlist
  have htext : (Json.obj (payload E chain seq r)).canonicalJson = (Json.obj (payload E chain seq' r')).canonicalJson := by
    rw [← String.toList_inj, hs, hs', hrest]
  exact ⟨String.toList_inj.mp hp, payload_inj h h' htime htext⟩

/-! ### Recording -/

/-- Putting members in order keeps a value readable. -/
theorem norm_sound {f : String → PyFloat} : ∀ j, Json.Sound f j → Json.Sound f j.norm := by
  refine Json.induct id (fun _ => id) (fun _ => id) (fun _ => id) (fun _ => id) (fun xs ih h => ?_)
    fun kvs ih h => ?_
  · have hitems := (Json.soundItems_iff xs).mp h
    rw [Json.norm, Json.normItems_eq_map]
    refine (Json.soundItems_iff _).mpr fun x hx => ?_
    obtain ⟨y, hy, rfl⟩ := List.mem_map.mp hx
    exact ih y hy (hitems y hy)
  · have hperm : (Json.sortMembers kvs).Perm kvs := List.perm_insertionSort _ kvs
    rw [Json.norm_obj]
    refine ⟨?_, (Json.soundMembers_iff _).mpr fun p hp => ?_⟩
    · rw [List.map_map]
      exact (hperm.map (·.1)).nodup_iff.mpr h.1
    · obtain ⟨q, hq, rfl⟩ := List.mem_map.mp hp
      have hmem := Json.mem_sortMembers.mp hq
      exact ih q hmem ((Json.soundMembers_iff kvs).mp h.2 q hmem)

theorem normalize_sound {j : Json} (h : Json.Sound E.parseFloat j) : Json.Sound E.parseFloat (normalize E j) := by
  have hvalue : Json.Sound E.parseFloat (if j.falsy then .obj [] else j) := by
    split
    · exact ⟨List.nodup_nil, trivial⟩
    · exact h
  unfold normalize
  dsimp only
  rw [Json.loads_canonicalJson hvalue]
  exact norm_sound _ hvalue

/-- The chain holds these entries, newest first, and its head is of the newest. -/
structure Recorded (E : Env) (db : Database) (chain : String) (newest : List (ℕ × AuditEventRow)) : Prop where
  head : db.row (.auditHead chain) = newest.head?.map fun p => ⟨p.1, p.2.hash⟩
  rows : ∀ seq r, db.row (.auditEvent chain seq) = some r ↔ (seq, r) ∈ newest
  chained : Chained E chain newest
  readable : ∀ p ∈ newest, Readable E p.2

/-- The numbers of the entries. -/
theorem Chained.seq_le {newest : List (ℕ × AuditEventRow)} (h : Chained E chain newest) :
    ∀ p ∈ newest, 1 ≤ p.1 ∧ p.1 ≤ newest.length := fun p hp => by
  have hle := Linked.seq_le _ _ h (linkOf p) (List.mem_map_of_mem hp)
  rwa [List.length_map] at hle

/-- The next number is free. -/
theorem Recorded.free {db : Database} {newest : List (ℕ × AuditEventRow)} (h : Recorded E db chain newest) :
    db.row (.auditEvent chain (newest.length + 1)) = none := by
  cases hrow : db.row (.auditEvent chain (newest.length + 1)) with
  | none => rfl
  | some r =>
    have hle := (h.chained.seq_le _ ((h.rows _ _).mp hrow)).2
    omega

/-- The head of a chain, or the one a chain begins with. -/
def headOf (db : Database) (chain : String) : AuditHeadRow :=
  (db.row (.auditHead chain)).getD { lastHash := GENESIS }

/-- Alone, locking the head writes nothing but a head. -/
theorem headForUpdate_exec (db : Database) (w : Writes Row) (log : List Note) (fail : Program)
    (k : AuditHeadRow → Program) : ∃ u : Writes Row, Db.Only isAudit u ∧
      (headForUpdate chain fail k).exec db w log = (k (headOf (db.apply w) chain)).exec db (u ++ w) log ∧
      ∀ x, x ≠ .auditHead chain → (db.apply (u ++ w)).row x = (db.apply w).row x := by
  unfold headForUpdate headOf
  rw [Prog.exec_read]
  cases hrow : (db.apply w).row (.auditHead chain) with
  | some head => exact ⟨[], .nil, Prog.exec_lockRow hrow, fun _ _ => rfl⟩
  | none =>
    refine ⟨[⟨.auditHead chain, some { lastHash := GENESIS }⟩], .cons rfl .nil, ?_, fun x hx => ?_⟩
    · have hinsert : ∀ f : Bool → Program, (Prog.insert (.auditHead chain) { lastHash := GENESIS } f).exec db w log =
          (f true).exec db (⟨.auditHead chain, some { lastHash := GENESIS }⟩ :: w) log := fun f => by
        simp [Prog.exec, hrow]
      refine (hinsert _).trans (Prog.exec_lockRow ?_)
      rw [Db.apply_cons, Db.set_row_self]
      rfl
    · rw [List.singleton_append, Db.apply_cons, Db.set_row_ne _ _ hx]

/-- **Alone, recording** writes to the audit log and goes on, where the number
after the head is free. -/
theorem record_exec {a : Entry} {db : Database} {fail k : Program} {w : Writes Row} {log : List Note}
    (hfree : (db.apply w).row (.auditEvent (chainFor a.organizationId)
      ((headOf (db.apply w) (chainFor a.organizationId)).seq + 1)) = none) :
    ∃ u, Db.Only isAudit u ∧ (record E a fail k).exec db w log = k.exec db (u ++ w) log := by
  obtain ⟨u, hu, hexec, hsame⟩ := headForUpdate_exec db w log fail fun head =>
    .insertOr (.auditEvent (chainFor a.organizationId) (head.seq + 1)) (a.row E _ (head.seq + 1) head.lastHash) fail <|
    .put (.auditHead (chainFor a.organizationId))
      (some { seq := head.seq + 1, lastHash := (a.row E _ (head.seq + 1) head.lastHash).hash }) k
  rw [Prog.exec_insertOr ((hsame _ (by simp)).trans hfree), Prog.exec_put] at hexec
  exact ⟨⟨.auditHead _, _⟩ :: ⟨.auditEvent _ _, _⟩ :: u, .cons rfl (.cons rfl hu), hexec⟩

/-- Where it is taken, recording fails. -/
theorem record_taken {a : Entry} {db : Database} {fail k : Program} {w : Writes Row} {log : List Note}
    (htaken : (db.apply w).row (.auditEvent (chainFor a.organizationId)
      ((headOf (db.apply w) (chainFor a.organizationId)).seq + 1)) ≠ none) :
    ∃ u, (record E a fail k).exec db w log = fail.exec db u log := by
  obtain ⟨u, -, hexec, hsame⟩ := headForUpdate_exec db w log fail fun head =>
    .insertOr (.auditEvent (chainFor a.organizationId) (head.seq + 1)) (a.row E _ (head.seq + 1) head.lastHash) fail <|
    .put (.auditHead (chainFor a.organizationId))
      (some { seq := head.seq + 1, lastHash := (a.row E _ (head.seq + 1) head.lastHash).hash }) k
  refine ⟨_, hexec.trans (Prog.exec_insertOr_taken ?_)⟩
  rwa [hsame _ (by simp)]

theorem Recorded.headOf {db : Database} {newest : List (ℕ × AuditEventRow)} (h : Recorded E db chain newest) :
    headOf db chain = ⟨newest.length, lastHash newest⟩ := by
  unfold Audit.headOf
  rw [h.head]
  cases newest with
  | nil => rfl
  | cons p older =>
    have hseq : p.1 = (older.map linkOf).length + 1 := h.chained.1
    rw [List.length_map] at hseq
    rw [List.head?_cons, Option.map_some, Option.getD_some, hseq]
    rfl

/-- **One record** puts the entry after the last one and moves the head. -/
theorem recordNow_rows {a : Entry} {db : Database} {newest : List (ℕ × AuditEventRow)} {r : AuditEventRow}
    (hchain : chainFor a.organizationId = chain) (h : Recorded E db chain newest)
    (hr : r = a.row E chain (newest.length + 1) (lastHash newest)) :
    ((recordNow E a .halt .halt).after db).row (.auditHead chain) = some ⟨newest.length + 1, r.hash⟩ ∧
      ((recordNow E a .halt .halt).after db).row (.auditEvent chain (newest.length + 1)) = some r ∧
      ∀ k, k ≠ .auditHead chain → k ≠ .auditEvent chain (newest.length + 1) →
        ((recordNow E a .halt .halt).after db).row k = db.row k := by
  have hexec : ∃ w, (recordNow E a .halt .halt).after db = ((db.apply w).set (.auditEvent chain (newest.length + 1))
      (some r)).set (.auditHead chain) (some ⟨newest.length + 1, r.hash⟩) ∧
      ∀ x, x ≠ .auditHead chain → (db.apply w).row x = db.row x := by
    unfold Prog.after recordNow record
    rw [hchain]
    -- what is recorded once the head is read
    set body : AuditHeadRow → Program := fun head =>
      .insertOr (.auditEvent chain (head.seq + 1)) (a.row E chain (head.seq + 1) head.lastHash) (.rollback .halt) <|
      .put (.auditHead chain)
        (some { seq := head.seq + 1, lastHash := (a.row E chain (head.seq + 1) head.lastHash).hash }) (.commit .halt)
    obtain ⟨w, hw, hsame⟩ : ∃ w, (headForUpdate chain (.rollback .halt) body).exec db [] [] =
        (body (headOf db chain)).exec db w [] ∧ ∀ x, x ≠ .auditHead chain → (db.apply w).row x = db.row x := by
      obtain ⟨w, -, hw, hsame⟩ := headForUpdate_exec db [] [] (.rollback .halt) body
      rw [List.append_nil, Db.apply_nil] at hw
      rw [List.append_nil] at hsame
      exact ⟨w, hw, hsame⟩
    refine ⟨w, ?_, hsame⟩
    rw [h.headOf] at hw
    dsimp only at hw ⊢
    rw [hw, Prog.exec_insertOr ((hsame _ (by simp)).trans h.free), Prog.exec_put, Prog.exec_commit, Db.apply_cons,
      Db.apply_cons, hr]
    rfl
  obtain ⟨w, hdb, hsame⟩ := hexec
  rw [hdb]
  refine ⟨Db.set_row_self _ _ _, ?_, fun k hhead hevent => ?_⟩
  · rw [Db.set_row_ne _ _ (by simp), Db.set_row_self]
  · rw [Db.set_row_ne _ _ hhead, Db.set_row_ne _ _ hevent, hsame k hhead]

/-- The entry as it is recorded has the hash of its fields. -/
theorem row_hash (a : Entry) (seq : ℕ) (prev : String) :
    (a.row E chain seq prev).hash = computeHash E prev chain seq (a.row E chain seq prev) := rfl

/-- **The chain that is recorded to** has one entry more. -/
theorem Recorded.next {a : Entry} {db : Database} {newest : List (ℕ × AuditEventRow)}
    (hchain : chainFor a.organizationId = chain) (h : Recorded E db chain newest)
    (ha : Json.Sound E.parseFloat a.changes ∧ Json.Sound E.parseFloat a.metadata) :
    Recorded E ((recordNow E a .halt .halt).after db) chain
      ((newest.length + 1, a.row E chain (newest.length + 1) (lastHash newest)) :: newest) := by
  obtain ⟨hhead, hevent, hother⟩ := recordNow_rows hchain h rfl
  refine ⟨hhead, fun seq r => ?_, ⟨?_, rfl, row_hash _ _ _, h.chained⟩, fun p hp => ?_⟩
  · by_cases hseq : seq = newest.length + 1
    · subst hseq
      rw [hevent, List.mem_cons, Prod.mk.injEq, Option.some.injEq]
      constructor
      · exact fun heq => .inl ⟨rfl, heq.symm⟩
      · rintro (⟨-, rfl⟩ | hmem)
        · rfl
        · have hle := (h.chained.seq_le _ hmem).2
          omega
    · rw [hother _ (by simp) (by simpa using hseq), h.rows, List.mem_cons, Prod.mk.injEq]
      exact ⟨.inr, fun hor => hor.resolve_left fun heq => hseq heq.1⟩
  · rw [List.length_map]
    rfl
  · rcases List.mem_cons.mp hp with rfl | hp
    · exact ⟨normalize_sound ha.1, normalize_sound ha.2⟩
    · exact h.readable p hp

/-- The other chains have the entries they had. -/
theorem Recorded.other {a : Entry} {db : Database} {newest newest' : List (ℕ × AuditEventRow)} {chain' : String}
    (hne : chain' ≠ chain) (hchain : chainFor a.organizationId = chain) (h : Recorded E db chain newest)
    (h' : Recorded E db chain' newest') : Recorded E ((recordNow E a .halt .halt).after db) chain' newest' := by
  obtain ⟨-, -, hother⟩ := recordNow_rows hchain h rfl
  refine ⟨?_, fun seq r => ?_, h'.chained, h'.readable⟩
  · rw [hother _ (by simpa using hne) (by simp), h'.head]
  · rw [hother _ (by simp) (by simp [hne]), h'.rows]

/-- The entries of a run that are of the chain. -/
def callsOf (calls : List Entry) (chain : String) : ℕ := calls.countP fun a => chainFor a.organizationId = chain

/-- **After any run of records every chain is recorded**, with an entry for each
call. -/
theorem run_recorded : ∀ (calls : List Entry) (db : Database) (n : String → ℕ),
    (∀ a ∈ calls, Json.Sound E.parseFloat a.changes ∧ Json.Sound E.parseFloat a.metadata) →
    (∀ chain, ∃ newest, Recorded E db chain newest ∧ newest.length = n chain) →
    ∀ chain, ∃ newest, Recorded E (execAll db (calls.map fun a => recordNow E a .halt .halt)) chain newest ∧
      newest.length = n chain + callsOf calls chain
  | [], db, n, _, h => h
  | a :: calls, db, n, hcalls, h => fun chain => by
    have hstep : ∀ c, ∃ newest, Recorded E ((recordNow E a .halt .halt).after db) c newest ∧
        newest.length = n c + if chainFor a.organizationId = c then 1 else 0 := fun c => by
      obtain ⟨newest, hrec, hlen⟩ := h (chainFor a.organizationId)
      by_cases hc : chainFor a.organizationId = c
      · subst hc
        refine ⟨_, hrec.next rfl (hcalls a List.mem_cons_self), ?_⟩
        rw [List.length_cons, hlen, if_pos rfl]
      · obtain ⟨newest', hrec', hlen'⟩ := h c
        exact ⟨newest', hrec.other (Ne.symm hc) rfl hrec', by rw [hlen', if_neg hc, Nat.add_zero]⟩
    obtain ⟨newest, hrec, hlen⟩ := run_recorded calls _ _ (fun b hb => hcalls b (List.mem_cons_of_mem _ hb)) hstep chain
    refine ⟨newest, hrec, ?_⟩
    rw [hlen, callsOf, callsOf, List.countP_cons]
    simp only [decide_eq_true_eq]
    omega

/-! ### Integrity -/

theorem key_of_entryOf {k : Key} {r : Row k} {p : ℕ × AuditEventRow} (h : entryOf chain k r = some p) :
    k = .auditEvent chain p.1 := by
  cases k with
  | auditEvent c seq =>
    have h : (if c = chain then some (seq, r) else none) = some p := h
    split at h
    · rename_i hc
      cases h
      rw [hc]
    · cases h
  | _ => cases h

theorem mem_entriesOf {db : Database} {p : ℕ × AuditEventRow} :
    p ∈ entriesOf db chain ↔ db.row (.auditEvent chain p.1) = some p.2 := by
  unfold entriesOf
  rw [List.mem_insertionSort, Db.mem_collect]
  constructor
  · rintro ⟨k, r, hr, hp⟩
    have hk := key_of_entryOf hp
    subst hk
    have hsame : some (p.1, r) = some p := by
      rw [← hp]
      exact (if_pos rfl).symm
    rw [hr, ← Option.some.inj hsame]
  · exact fun h => ⟨_, _, h, if_pos rfl⟩

theorem entriesOf_nodup (db : Database) : ((entriesOf db chain).map (·.1)).Nodup := by
  have hcollect : ((db.collect (entryOf chain)).map (·.1)).Nodup :=
    db.collect_nodup (fun p : ℕ × AuditEventRow => p.1) fun k r x k' r' x' hx hx' hxx => by
      rw [key_of_entryOf hx, key_of_entryOf hx', hxx]
  have hperm : (entriesOf db chain).Perm (db.collect (entryOf chain)) := List.perm_insertionSort _ _
  exact (hperm.map (·.1)).nodup_iff.mpr hcollect

/-- The entries of a chain that is recorded, by their number. -/
theorem Recorded.entriesOf_eq {db : Database} {newest : List (ℕ × AuditEventRow)} (h : Recorded E db chain newest) :
    entriesOf db chain = newest.reverse := by
  have hlt : newest.Pairwise fun a b => b.1 < a.1 := List.pairwise_map.mp (Linked.pairwise _ _ h.chained)
  have hnodup : newest.reverse.Nodup := by
    rw [List.nodup_reverse]
    exact hlt.imp fun hab heq => by rw [heq] at hab; exact Nat.lt_irrefl _ hab
  have hperm : (entriesOf db chain).Perm newest.reverse := by
    refine (List.perm_ext_iff_of_nodup (entriesOf_nodup db).of_map hnodup).mpr fun p => ?_
    rw [mem_entriesOf, h.rows, List.mem_reverse]
  refine List.Perm.eq_of_pairwise (fun a b ha hb hab hba => ?_) (List.pairwise_insertionSort _ _) ?_ hperm
  · have hrow := mem_entriesOf.mp ha
    have hrow' := mem_entriesOf.mp (hperm.mem_iff.mpr hb)
    have hseq : a.1 = b.1 := Nat.le_antisymm hab hba
    rw [hseq, hrow', Option.some.injEq] at hrow
    exact Prod.ext hseq hrow.symm
  · rw [List.pairwise_reverse]
    exact hlt.imp fun hab => Nat.le_of_lt hab

theorem shown_of_fieldsOf {p p' : ℕ × AuditEventRow} (hseq : p.1 = p'.1) (hprev : p.2.prevHash = p'.2.prevHash)
    (hhash : p.2.hash = p'.2.hash) (hfields : fieldsOf p.2 = fieldsOf p'.2) : shown p = shown p' := by
  have hrow : ∀ q : ℕ × AuditEventRow, shown q = (q.1, { fieldsOf q.2 with prevHash := q.2.prevHash, hash := q.2.hash }) :=
    fun _ => rfl
  rw [hrow, hrow, hseq, hprev, hhash, hfields]

/-- The texts that are hashed for the entries of the chain. -/
def textsOf (E : Env) (db : Database) (chain : String) : Set String :=
  {text | ∃ p ∈ entriesOf db chain, text = hashedText E p.2.prevHash chain p.1 p.2}

/-- The moments of the entries of the chain. -/
def momentsOf (db : Database) (chain : String) : Set Time := {t | ∃ p ∈ entriesOf db chain, t = p.2.createdAt}

/-- Entries that differ are hashed to different hashes. -/
structure Collisionless (E : Env) (chain : String) (db db' : Database) : Prop where
  hash : Set.InjOn E.sha256 (textsOf E db chain ∪ textsOf E db' chain)
  moment : Set.InjOn E.strftime (momentsOf db chain ∪ momentsOf db' chain)

/-- A hash is written in hex digits. -/
def Hexadecimal (E : Env) : Prop := ∀ text, ∀ c ∈ (E.sha256 text).toList, c ∈ "0123456789abcdef".toList

theorem Chained.prev_digits (hhex : Hexadecimal E) : ∀ {newest : List (ℕ × AuditEventRow)}, Chained E chain newest →
    ∀ p ∈ newest, '\x7b' ∉ p.2.prevHash.toList
  | [], _, _, hp => nomatch hp
  | q :: older, ⟨_, hprev, _, holder⟩, p, hp => by
    rcases List.mem_cons.mp hp with rfl | hp
    · have hlast : p.2.prevHash = lastHash older := hprev
      rw [hlast]
      rcases Linked.last_mem _ _ holder with hgenesis | ⟨prev, n, r, hhash⟩
      · rw [lastHash, hgenesis]
        decide
      · rw [lastHash, hhash, hashOf, computeHash_eq]
        intro hmem
        have hdigit := hhex _ _ hmem
        revert hdigit
        decide
    · exact Chained.prev_digits hhex holder p hp

theorem verifyChain_of_recorded {db : Database} {newest : List (ℕ × AuditEventRow)} (h : Recorded E db chain newest) :
    verifyChain E db chain = ⟨true, newest.length, none, "Chain intact."⟩ := by
  have hloop := (verifyFrom_eq_ok newest _ _).mpr ⟨h.chained, rfl, rfl⟩
  have hhead := h.headOf
  unfold verifyChain
  rw [h.entriesOf_eq, hloop]
  unfold headOf at hhead
  cases hrow : db.row (.auditHead chain) with
  | none => rfl
  | some head =>
    rw [hrow, Option.getD_some] at hhead
    rw [hhead]
    simp

/-- **Entries that end in the head of a recorded chain are its entries**, where
they are accepted. -/
theorem shown_eq {db db' : Database} {newest : List (ℕ × AuditEventRow)} {head : AuditHeadRow} (hhex : Hexadecimal E)
    (h : Recorded E db chain newest) (hhead : db.row (.auditHead chain) = some head)
    (hhead' : db'.row (.auditHead chain) = some head) (hreadable : ∀ p ∈ entriesOf db' chain, Readable E p.2)
    (hcollision : Collisionless E chain db db') (hok : (verifyChain E db' chain).ok = true) :
    (entriesOf db' chain).map shown = (entriesOf db chain).map shown := by
  have hheadOf := h.headOf
  rw [headOf, hhead, Option.getD_some] at hheadOf
  have hloop : verifyFrom E chain (entriesOf db' chain).reverse.reverse GENESIS 1 0 =
      .ok (newest.length, lastHash newest) := by
    rw [List.reverse_reverse]
    unfold verifyChain at hok
    cases hverify : verifyFrom E chain (entriesOf db' chain) GENESIS 1 0 with
    | error v =>
      rw [hverify] at hok
      have hfalse := verifyFrom_error _ _ _ _ hverify
      exact absurd (hfalse.symm.trans hok) nofun
    | ok result =>
      obtain ⟨n, p⟩ := result
      rw [hverify, hhead'] at hok
      dsimp only at hok
      split at hok
      · cases hok
      · rename_i hsame
        rw [hheadOf] at hsame
        push Not at hsame
        obtain ⟨rfl, rfl⟩ := hsame
        rfl
  obtain ⟨hchained, hlen, hlast⟩ := (verifyFrom_eq_ok _ _ _).mp hloop
  have hmem : ∀ p ∈ newest, p ∈ entriesOf db chain := fun p hp => by
    rw [h.entriesOf_eq, List.mem_reverse]
    exact hp
  have hsame := Linked.same (hashOf E chain) GENESIS (R := fun r r' => fieldsOf r = fieldsOf r') h.chained hchained
    (fun a ha b hb heq => ?_) (by rw [List.length_map, List.length_map, hlen]) hlast
  · rw [List.forall₂_map_left_iff, List.forall₂_map_right_iff] at hsame
    have hshown : List.Forall₂ (· = ·) (newest.map shown) ((entriesOf db' chain).reverse.map shown) := by
      rw [List.forall₂_map_left_iff, List.forall₂_map_right_iff]
      exact hsame.imp fun p p' hp => shown_of_fieldsOf hp.1 hp.2.1 hp.2.2.1 hp.2.2.2
    rw [List.forall₂_eq_eq_eq] at hshown
    rw [h.entriesOf_eq, List.map_reverse, hshown, List.map_reverse, List.reverse_reverse]
  · obtain ⟨p, hp, rfl⟩ := List.mem_map.mp ha
    obtain ⟨p', hp', rfl⟩ := List.mem_map.mp hb
    have hp'' := List.mem_reverse.mp hp'
    have htext := hcollision.hash (.inl ⟨p, hmem p hp, rfl⟩) (.inr ⟨p', hp'', rfl⟩) heq
    refine hashedText_inj (h.readable p hp) (hreadable p' hp'') (fun ht => ?_) (h.chained.prev_digits hhex p hp)
      (hchained.prev_digits hhex p' hp') htext
    exact hcollision.moment (.inl ⟨p, hmem p hp, rfl⟩) (.inr ⟨p', hp'', rfl⟩) ht

/-- The database after the records. -/
def recordedTo (E : Env) (calls : List Entry) : Database :=
  execAll Db.empty (calls.map fun a => recordNow E a .halt .halt)

theorem recordedTo_recorded {calls : List Entry}
    (hcalls : ∀ a ∈ calls, Json.Sound E.parseFloat a.changes ∧ Json.Sound E.parseFloat a.metadata) (chain : String) :
    ∃ newest, Recorded E (recordedTo E calls) chain newest ∧ newest.length = callsOf calls chain := by
  have hempty : ∀ c, ∃ newest, Recorded E Db.empty c newest ∧ newest.length = (fun _ => 0) c := fun c =>
    ⟨[], ⟨rfl, fun _ _ => ⟨nofun, nofun⟩, trivial, nofun⟩, rfl⟩
  obtain ⟨newest, hrec, hlen⟩ := run_recorded calls Db.empty _ hcalls hempty chain
  exact ⟨newest, hrec, hlen.trans (Nat.zero_add _)⟩

/-- The moment and the hash of `login`. -/
def atLogin : Env :=
  { Env.plain with
    strftime := fun _ => "1970-01-01T00:00:00.000000Z"
    sha256 := fun _ => "79875350677035af8449e1bed9a67540d14c094e92869aba57a74a7abd00986a" }

def login : Entry := { eventType := "LOGIN" }

end Audit
end FlexyVotes
