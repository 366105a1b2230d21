/-
# Casting while the voting closes

Any number of casts run beside the closing of their elections, automatic or by
hand, and the tallies that follow. A cast reads the election's row without a
lock, so a close may commit between that read and the cast's own commit: the
ballot then comes after the tally has counted.

In the runs in which no close commits while a cast is under way in the
election (`Timely`), every ballot is counted. What a cast relies on is that
the election it saw open stays open; what a tally relies on is that an
election that is over gets no more ballots (`Kept`).

Key definitions: `Call`, `Over`, `Counted`, `Timely`, `spec`.
Key theorems: `castDone_kept`, `closed_kept`, `call_ok`, `ballots_counted`.
-/
import FlexyVotes.Elections.Authorizations
import FlexyVotes.Elections.Results

namespace FlexyVotes
namespace Closing

open Transactions Audit Configuration Lifecycle Casting Results Authorizations

/-- One transaction of the run, or the tally, which is several. -/
inductive Call
  | cast (q : CastRequest)
  | close (t : TransitionRequest)
  | tally (q : TallyRequest)
  | autoTally (q : TallyRequest)

/-- `transition(event, 'close')`. -/
def closing (t : TransitionRequest) : TransitionRequest := { t with action := "close", extraEffect := id }

def Call.program (E : Env) (T : Counting) : Call → Program
  | .cast q => castBallot E q fun _ => .halt
  | .close t => transition E (closing t) fun _ => .halt
  | .tally q => resultsTally E T q
  | .autoTally q => Results.autoTally E T q

/-! ### What is claimed -/

/-- The election takes votes, as far as its status goes. -/
def OpenIn (db : Database) (e : ℕ) : Prop := ∃ ev, db.row (.event e) = some ev ∧ ev.status = .OPEN

/-- Voting in the election is over. -/
def Over (db : Database) (e : ℕ) : Prop :=
  ∃ ev, db.row (.event e) = some ev ∧ (ev.status = .CLOSED ∨ ev.status = .TALLYING)

def Institutional (db : Database) (e : ℕ) : Prop :=
  ∃ ev, db.row (.event e) = some ev ∧ ev.isInstitutional = true

/-- A ballot of the election is in the urn. -/
def InUrn (db : Database) (e : ℕ) (u : String) : Prop :=
  ∃ b, db.row (.ballot u) = some b ∧ b.election = e

/-- Every tally of an institutional election has counted all its ballots. -/
def Counted (s : State Row Note) : Prop :=
  ∀ t e r ballots, .tallied e r ballots ∈ (s.thr t).log → Institutional s.db e →
    ∀ u, InUrn s.db e u → u ∈ ballots

/-- No ballot comes to an election that is over. -/
def NoneLate (db db' : Database) : Prop := ∀ e, Over db e → ∀ u, InUrn db' e u → InUrn db e u

/-- The thread is a cast that saw the election open and has not ended. -/
def Underway (th : Thread Row Note) (e : ℕ) : Prop := .accepted e ∈ th.log ∧ th.prog ≠ .halt

/-- No open election stops being open while a cast is under way in it. -/
def Timely (s : State Row Note) (_ : ℕ) (s' : State Row Note) : Prop :=
  ∀ e, OpenIn s.db e → ¬ OpenIn s'.db e → ∀ u, ¬ Underway (s.thr u) e

/-! ### What every commit keeps -/

/-- An election that is over stays so and gets no ballot, and no election
changes its voting mode. -/
structure Kept (db db' : Database) : Prop where
  isOver : ∀ e, Over db e → Over db' e
  noneLate : NoneLate db db'
  institutional : ∀ e, Institutional db' e → Institutional db e

theorem Kept.refl (db : Database) : Kept db db := ⟨fun _ h => h, fun _ _ _ h => h, fun _ h => h⟩

theorem Kept.trans {db db' db'' : Database} (h : Kept db db') (h' : Kept db' db'') : Kept db db'' where
  isOver := fun e he => h'.isOver e (h.isOver e he)
  noneLate := fun e he u hu => h.noneLate e he u (h'.noneLate e (h.isOver e he) u hu)
  institutional := fun e he => h.institutional e (h'.institutional e he)

/-- Commits that leave elections and ballots alone. -/
theorem Kept.of_rows {db db' : Database} (he : ∀ e, db'.row (.event e) = db.row (.event e))
    (hb : ∀ u, db'.row (.ballot u) = db.row (.ballot u)) : Kept db db' := by
  refine ⟨fun e h => ?_, fun e _ u h => ?_, fun e h => ?_⟩
  · rwa [Over, he e]
  · rwa [InUrn, hb u] at h
  · rwa [Institutional, he e] at h

/-- A ballot that comes to an open election comes to none that is over. -/
theorem castDone_kept {E : Env} {q : CastRequest} {a : AuthorizationRow} {v : VoterRow} {b : BallotRow}
    {db db' : Database} (hd : CastDone E q a v b db db') (ho : OpenIn db q.event) : Kept db db' := by
  have hev : ∀ e, db'.row (.event e) = db.row (.event e) := fun e => by
    rw [castDone_row hd rfl]
    simp [castWrites]
  refine ⟨fun e h => ?_, fun e h u hu => ?_, fun e h => ?_⟩
  · rwa [Over, hev e]
  · obtain ⟨b', hb', he⟩ := hu
    rw [castDone_ballot hd] at hb'
    split at hb'
    · cases hb'
      have heq : e = q.event := he.symm.trans hd.ballot
      subst heq
      obtain ⟨ev, hrow, hst⟩ := ho
      obtain ⟨ev', hrow', hover⟩ := h
      rw [hrow] at hrow'
      cases hrow'
      rw [hst] at hover
      rcases hover with hover | hover <;> cases hover
    · exact ⟨b', hb', he⟩
  · rwa [Institutional, hev e] at h

/-- A move of an election's row that leaves its voting mode, and an election
that is over so. -/
theorem transitionDone_kept {t : TransitionRequest} {a : Action} {ev ev' : EventRow} {db db' : Database}
    (hd : TransitionDone t a ev ev' db db') (hmode : ev'.votingMode = ev.votingMode)
    (hover : ev.status = .CLOSED ∨ ev.status = .TALLYING → ev'.status = .CLOSED ∨ ev'.status = .TALLYING) :
    Kept db db' := by
  have hbal : ∀ u, db'.row (.ballot u) = db.row (.ballot u) := fun u => hd.row rfl (by simp)
  have hrow : ∀ e, e ≠ t.event → db'.row (.event e) = db.row (.event e) := fun e he =>
    hd.row rfl (by simpa using he)
  refine ⟨fun e h => ?_, fun e _ u h => ?_, fun e h => ?_⟩
  · by_cases he : e = t.event
    · subst he
      obtain ⟨ev₁, hev₁, ho⟩ := h
      rw [hd.event] at hev₁
      cases hev₁
      exact ⟨ev', hd.after, hover ho⟩
    · rwa [Over, hrow e he]
  · rwa [InUrn, hbal u] at h
  · by_cases he : e = t.event
    · subst he
      obtain ⟨ev₁, hev₁, hi⟩ := h
      rw [hd.after] at hev₁
      cases hev₁
      refine ⟨ev, hd.event, ?_⟩
      rw [← hi, EventRow.isInstitutional, EventRow.isInstitutional, hmode]
    · rwa [Institutional, hrow e he] at h

theorem closed_kept {t : TransitionRequest} {a : Action} {ev ev' : EventRow} {db db' : Database}
    (hd : TransitionDone (closing t) a ev ev' db db') : Kept db db' := by
  obtain rfl : a = .close := hd.moved.action rfl
  have hsrc := hd.moved.source
  have hrow := hd.moved.row
  refine transitionDone_kept hd (by rw [hrow]; rfl) fun hover => ?_
  rcases hover with h | h <;> rw [h] at hsrc <;> simp [Action.spec] at hsrc

theorem started_kept {q : TallyRequest} {a : Action} {ev ev' : EventRow} {db db' : Database}
    (hd : TransitionDone q.start a ev ev' db db') : Kept db db' := by
  obtain rfl : a = .start_tally := hd.moved.action rfl
  have hrow := hd.moved.row
  exact transitionDone_kept hd (by rw [hrow]; rfl) fun _ => Or.inr (by rw [hrow]; rfl)

/-! ### Every interleaving -/

/-- Commits keep elections that are over; a cast under way relies on its
election to stay open. A tally tells that its election is over and which
ballots are in the urn. -/
def spec : Spec Row Note where
  inv := fun _ => True
  rely := fun _ log db db' => Kept db db' ∧ ∀ e, .accepted e ∈ log → OpenIn db e → OpenIn db' e
  guar := fun _ _ db db' => Kept db db'
  fact := fun n db =>
    match n with
    | .tallied e _ ballots => Over db e ∧ (Institutional db e → ∀ u, InUrn db e u → u ∈ ballots)
    | _ => True

theorem spec_sound : spec.Sound where
  refl := fun _ _ db => ⟨.refl db, fun _ _ h => h⟩
  trans := fun _ _ _ _ _ h h' => ⟨h.1.trans h'.1, fun e he ho => h'.2 e he (h.2 e he ho)⟩
  sub := fun _ _ _ _ _ _ h => h
  fact := fun _ _ n _ _ _ _ hg hf => by
    cases n with
    | tallied e r ballots =>
      exact ⟨hg.isOver e hf.1, fun hi u hu => hf.2 (hg.institutional e hi) u (hg.noneLate e hf.1 u hu)⟩
    | _ => trivial

/-- A timely step closes no election under a cast that is under way. -/
theorem spec_fits : spec.Fits Timely := by
  intro s t s' own hc _ _ hg u own' _ hh _ _
  refine ⟨hg, fun e he ho => ?_⟩
  by_contra hno
  exact hc e ho hno u ⟨he, hh⟩

theorem cast_ok (E : Env) (q : CastRequest) (db : Database) :
    Ok spec (castBallot E q fun _ => .halt) db [] [] [] := by
  refine castBallot_ok (k := fun _ => .halt) (Q := fun db => OpenIn db q.event) spec_sound .halt .halt ?_
    (fun db ev _ hev hacc => ⟨⟨ev, hev, acceptingVotes_open hacc⟩, trivial⟩)
    (fun own db db' hst ho => hst.rely.2 q.event (by simp) ho)
  intro own a v b db db' r _ ho _ _ hd
  exact ⟨trivial, castDone_kept hd ho, trivial, trivial⟩

/-- What a tally knows of its election: it is over, and the urn is counted. -/
private def Knows (e : ℕ) (ev : EventRow) (db : Database) : Prop :=
  Over db e ∧ (Institutional db e → ev.isInstitutional = true)

theorem tally_ok {E : Env} {T : Counting} (q : TallyRequest) (hq : q.kind = .OFFICIAL) {ev : EventRow}
    {db : Database} (hrow : db.row (.event q.event) = some ev) :
    Ok spec (runTally E T q ev fun _ => .halt) db [] [] [] := by
  have hstable : ∀ own ev db db', Stable spec own [] db db' → Knows q.event ev db → Knows q.event ev db' :=
    fun own ev db db' hst h => ⟨hst.rely.1.isOver _ h.1, fun hi => h.2 (hst.rely.1.institutional _ hi)⟩
  have hread : ∀ ev db, db.row (.event q.event) = some ev → ev.status = .TALLYING → Knows q.event ev db := by
    intro ev db hrow hst
    refine ⟨⟨ev, hrow, Or.inr hst⟩, fun ⟨ev', hrow', hi⟩ => ?_⟩
    rw [hrow] at hrow'
    cases hrow'
    exact hi
  refine runTally_ok (k := fun _ => .halt) (Q := Knows q.event) (R := fun ev ballots db => Knows q.event ev db ∧
    (ev.isInstitutional = true → ∀ u, InUrn db q.event u → u ∈ ballots)) spec_sound .halt ?_ hstable
    ?_ ?_ ?_ (fun _ _ _ _ _ _ _ _ _ _ hd => ⟨trivial, started_kept hd⟩) (fun ev db _ h hst => hread ev db h hst)
    trivial fun h => ?_
  · refine ⟨?_, ?_, fun _ _ _ _ => trivial⟩
    · intro own log' ev ballots tally db db' _ hr hd _
      have hkept : Kept db db' := .of_rows (fun e => hd.row rfl rfl) fun u => hd.row rfl rfl
      refine ⟨trivial, hkept, hkept.isOver _ hr.1.1, fun hi u hu => ?_⟩
      exact hr.2 (hr.1.2 (hkept.institutional _ hi)) u (hkept.noneLate _ hr.1.1 u hu)
    · intro own log' db w _ hw
      exact ⟨trivial, .of_rows (fun e => hw.apply_row _ rfl) fun u => hw.apply_row _ rfl⟩
  · intro own ev ballots db db' hst h
    exact ⟨hstable own ev db db' hst h.1, fun hi u hu => h.2 hi u (hst.rely.1.noneLate _ h.1.1 u hu)⟩
  · intro ev db _ h
    refine ⟨h, fun _ u ⟨b, hb, he⟩ => ?_⟩
    rw [ballotsOf, List.mem_map]
    refine ⟨(u, b), ?_, rfl⟩
    rw [List.mem_insertionSort, Db.mem_collect]
    exact ⟨.ballot u, b, hb, by simp [he]⟩
  · intro ev db hpaid h
    exact ⟨h, fun hi => by rw [hpaid] at hi; cases hi⟩
  · exact hread ev db hrow (h.resolve_left (by simp [hq]))

theorem call_ok (E : Env) (T : Counting) (c : Call) (db : Database) :
    Ok spec (c.program E T) db [] [] [] := by
  cases c with
  | cast q => exact cast_ok E q db
  | close t =>
    exact transition_ok (k := fun _ => .halt) spec_sound (fun _ _ => trivial)
      (fun _ _ _ _ _ _ _ _ hd => ⟨trivial, closed_kept hd, trivial⟩) trivial
  | tally q =>
    exact refreshed_ok (fun _ => trivial) fun db' ev _ hrow => tally_ok _ rfl hrow
  | autoTally q =>
    refine refreshed_ok (fun _ => trivial) fun db' ev _ hrow => ?_
    split
    · trivial
    · split
      · trivial
      · exact tally_ok _ rfl hrow

/-- The calls before their first statement. -/
def start (E : Env) (T : Counting) (db : Database) (calls : ℕ → Call) : State Row Note :=
  State.init db fun t => (calls t).program E T

/-- **Every ballot is counted** in the runs in which no close commits while a
cast is under way in the election: each tally has counted all the ballots
that are ever in the urn, and an election that is over gets no more. -/
theorem ballots_counted (E : Env) (T : Counting) {db : Database} (calls : ℕ → Call) {s : State Row Note}
    (hr : Run Timely (start E T db calls) s) :
    Counted s ∧ ∀ s', Run Timely s s' → NoneLate s.db s'.db := by
  have hm : Meets spec (start E T db calls) := .init trivial fun t => call_ok E T (calls t) db
  have hs := hm.run spec_sound spec_fits hr
  refine ⟨fun t e r ballots ht hi u hu => ?_, fun s' hr' => ?_⟩
  · exact (hs.fact t _ ht).2 hi u hu
  · have hkept : Kept s.db s'.db := hs.trail spec_sound spec_fits Kept.refl (fun _ _ _ => Kept.trans)
      (fun _ _ _ _ _ hg => hg) hr'
    exact hkept.noneLate

/-! ### A late ballot -/

/-- A tally that counts the ballots and nothing else. -/
def counting : Counting where
  institutional := fun _ _ _ ballots => ⟨[], "", ballots.length, 0, ballots.length⟩
  paid := fun _ _ => ⟨[], "", 0, 0, 0⟩
  differences := fun _ _ => some []

/-- The voter's ballot, the close of the election and its automatic tally. -/
def lastMinute : ℕ → Call
  | 0 => .cast { event := 1, token := "T", payload := .obj [], uuid := "u", nonce := "n",
                 ephemeral := "c", now := fun _ => 1 }
  | 1 => .close { event := 1, action := "close", system := true, now := fun _ => 2 }
  | _ => .autoTally { event := 1, resultId := 9, now := fun _ => 3 }

/-- The close and the tally commit between the cast's look at the election and
the cast's own commit. -/
def lateBallot : List ℕ :=
  List.replicate 2 0 ++ List.replicate 8 1 ++ List.replicate 21 2 ++ List.replicate 14 0

/-- The same calls, one after the other. -/
def inTurn : List ℕ := List.replicate 17 0 ++ List.replicate 7 1 ++ List.replicate 21 2

instance (db : Database) (e : ℕ) : Decidable (OpenIn db e) :=
  decidable_of_iff ((db.row (.event e)).any (fun ev => ev.status = .OPEN) = true) (by
    rw [Option.any_eq_true]
    simp [OpenIn])

/-- `Timely`, for the first `n` threads. -/
def timely (n : ℕ) (s : State Row Note) (_ : ℕ) (s' : State Row Note) : Bool :=
  (List.range n).all fun u => (s.thr u).prog.ended || (s.thr u).log.all fun
    | .accepted e => !decide (OpenIn s.db e) || decide (OpenIn s'.db e)
    | _ => true

theorem timely_sound {n : ℕ} (s : State Row Note) (t : ℕ) (s' : State Row Note) (hn : Silent n s)
    (h : timely n s t s' = true) : Timely s t s' := by
  intro e ho hno u ⟨hlog, hhalt⟩
  have hu : u < n := by
    by_contra hu
    rw [hn u (by omega)] at hlog
    cases hlog
  simp only [timely, List.all_eq_true, List.mem_range, Bool.or_eq_true, Prog.ended_iff] at h
  have := (h u hu).resolve_left hhalt _ hlog
  simp [ho, hno] at this

/-- A ballot is committed after the tally has counted. -/
theorem not_ballots_counted :
    ¬ ∀ (E : Env) (T : Counting) (db : Database) (calls : ℕ → Call) (s : State Row Note),
      Run Any (start E T db calls) s →
        Counted s ∧ ∀ s', Run Any s s' → NoneLate s.db s'.db := by
  intro h
  have hsome : (replay (start .plain counting signedIn lastMinute) lateBallot).isSome = true := by
    decide +kernel
  have hend : (replay (start .plain counting signedIn lastMinute) lateBallot).map (fun s =>
      ((s.thr 2).log, (s.db.row (.ballot "u")).map (·.election),
        (s.db.row (.event 1)).map (·.isInstitutional))) =
      some ([.tallied 1 9 []], some 1, some true) := by decide +kernel
  obtain ⟨s, hs⟩ := Option.isSome_iff_exists.mp hsome
  rw [hs, Option.map_some, Option.some.injEq, Prod.mk.injEq, Prod.mk.injEq] at hend
  obtain ⟨hlog, hballot, hinst⟩ := hend
  obtain ⟨b, hb, he⟩ := Option.map_eq_some_iff.mp hballot
  obtain ⟨ev, hev, hi⟩ := Option.map_eq_some_iff.mp hinst
  have := (h .plain counting signedIn lastMinute s (.of_replay _ .refl hs)).1 2 1 9 [] (by simp [hlog])
    ⟨ev, hev, hi⟩ "u" ⟨b, hb, he⟩
  cases this

/-- The calls in turn: the ballot is counted. -/
theorem ballots_counted_inTurn :
    ∃ s, replayIf 3 (timely 3) (start .plain counting signedIn lastMinute) inTurn = some s ∧
      (s.thr 2).log = [.tallied 1 9 ["u"]] ∧ InUrn s.db 1 "u" ∧ Counted s := by
  have hsome : (replayIf 3 (timely 3) (start .plain counting signedIn lastMinute) inTurn).isSome = true := by
    decide +kernel
  have hend : (replayIf 3 (timely 3) (start .plain counting signedIn lastMinute) inTurn).map (fun s =>
      ((s.thr 2).log, (s.db.row (.ballot "u")).map (·.election))) =
      some ([.tallied 1 9 ["u"]], some 1) := by decide +kernel
  obtain ⟨s, hs⟩ := Option.isSome_iff_exists.mp hsome
  rw [hs, Option.map_some, Option.some.injEq, Prod.mk.injEq] at hend
  have hsilent : Silent 3 (start .plain counting signedIn lastMinute) := fun u hu => by
    obtain ⟨n, rfl⟩ := Nat.exists_eq_add_of_le hu
    rw [Nat.add_comm]
    rfl
  exact ⟨s, hs, hend.1, Option.map_eq_some_iff.mp hend.2,
    (ballots_counted .plain counting lastMinute
      (Run.of_replayIf timely_sound _ hsilent .refl hs)).1⟩

end Closing
end FlexyVotes
