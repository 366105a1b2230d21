/-
# What is delivered

However the workers interleave, crash and take their tasks again, a provider takes
a message once and once more for each delivery that was lost after it had taken it
(`taken_once`); a notification that was sent or skipped stays as it is, its
context gone (`settled_stays`); and the usage that is recorded is that of the
notifications that were sent, as far as no worker was lost in between
(`usage_recorded`).

Key definitions: `Sound`, `Kept`.
Key theorems: `Kept.step`, `taken_once`, `settled_stays`, `usage_recorded`.
-/
import FlexyVotes.Notifications.Outbox

namespace FlexyVotes
namespace Outbox

open Billing (Metric)

/-! ### What every step keeps -/

/-- What holds of every row. -/
structure Sound (n : Notification) : Prop where
  sent : n.sentAt.isSome = true ↔ n.status = .SENT
  inApp : n.channel = .IN_APP → n.status = .SENT
  /-- One-time codes and credentials do not outlive delivery, and are there before. -/
  wiped : n.channel ≠ .IN_APP → (n.context = none ↔ n.status = .SENT ∨ n.status = .SKIPPED)
  tried : n.channel ≠ .IN_APP → (n.attempts = 0 ↔ n.status = .QUEUED)
  timely : n.channel ≠ .IN_APP → ∀ t ∈ n.scheduledFor, ∀ t' ∈ n.sentAt, t ≤ t'

/-- The worker has been answered, and is about to save that the message of the row was sent. -/
def takes (pk : ℕ) (c : ℕ × Work) : Bool :=
  match c.2 with
  | .answered pk' _ o => pk' = pk && o.status = .SENT
  | .locked _ _ | .saved _ _ => false

/-- The worker is about to record this usage. -/
def meters (u : ℕ × Metric) (c : ℕ × Work) : Bool :=
  match c.2 with
  | .saved _ n => n.usage.contains u
  | .locked _ _ | .answered _ _ _ => false

/-- Whether the message of the row is sent. -/
def State.sent (pk : ℕ) (s : State) : ℕ :=
  match Entries.get pk s.rows with
  | some n => if n.status = .SENT ∧ n.channel ≠ .IN_APP then 1 else 0
  | none => 0

/-- The row that the worker has read is the row that is stored, and is to be delivered. -/
structure Held (S : Settings) (s : State) (w : Work) : Prop where
  row : ∀ pk n, w = .locked pk n → Entries.get pk s.rows = some n ∧ n.due s.clock = true
  answer : ∀ pk n o, w = .answered pk n o →
    Entries.get pk s.rows = some n ∧ n.due s.clock = true ∧ ∃ answer, o = outcomeOf S n answer

structure Kept (S : Settings) (s : State) : Prop where
  rows : Entries.Keyed s.rows
  workers : Entries.Keyed s.workers
  sound : ∀ c ∈ s.rows, Sound c.2
  dedupe : ∀ c ∈ s.rows, ∀ c' ∈ s.rows, ∀ k, c.2.dedupeKey = some k → c'.2.dedupeKey = some k → c = c'
  held : ∀ c ∈ s.workers, Held S s c.2
  alone : ∀ c ∈ s.workers, ∀ c' ∈ s.workers, ∀ pk, c.2.lock = some pk → c'.2.lock = some pk → c = c'
  taken : ∀ pk, s.taken.count pk = s.sent pk + s.lost.count pk + s.workers.countP (takes pk)
  usage : ∀ u, s.usage.count u + s.unmetered.count u + s.workers.countP (meters u) =
    s.rows.countP fun c => c.2.usage.contains u

variable {S : Settings} {E : Env} {s : State} {n : Notification} {pk w : ℕ}

theorem Kept.start : Kept S {} where
  rows := Entries.Keyed.nil
  workers := Entries.Keyed.nil
  sound c h := by cases h
  dedupe c h := by cases h
  held c h := by cases h
  alone c h := by cases h
  taken _ := rfl
  usage _ := rfl

theorem due_iff {now : Time} : n.due now = true ↔
    (n.status = .QUEUED ∨ n.status = .FAILED) ∧ ∀ t ∈ n.scheduledFor, t ≤ now := by
  unfold Notification.due
  cases n.scheduledFor <;> simp

theorem due_later {now later : Time} (h : now ≤ later) (hdue : n.due now = true) : n.due later = true := by
  rw [due_iff] at hdue ⊢
  exact ⟨hdue.1, fun t ht => (hdue.2 t ht).trans h⟩

theorem Kept.upTo {now : Time} (h : Kept S s) (hnow : s.clock ≤ now) : Kept S (s.upTo now) where
  rows := h.rows
  workers := h.workers
  sound := h.sound
  dedupe := h.dedupe
  held c hc := by
    refine ⟨fun pk n hw => ?_, fun pk n o hw => ?_⟩
    · obtain ⟨hrow, hdue⟩ := (h.held c hc).row pk n hw
      exact ⟨hrow, due_later hnow hdue⟩
    · obtain ⟨hrow, hdue, hanswer⟩ := (h.held c hc).answer pk n o hw
      exact ⟨hrow, due_later hnow hdue, hanswer⟩
  alone := h.alone
  taken := h.taken
  usage := h.usage

/-! ### A row -/

theorem sound_row (now : Time) (a : Notify) : Sound (a.row S E now) := by
  unfold Notify.row
  by_cases happ : a.channel = .IN_APP
  · constructor <;> simp [happ]
  · constructor <;> simp [happ]

/-- An outcome is never that the message is queued. -/
theorem outcome_ne (answer : Answer) : (outcomeOf S n answer).status ≠ .QUEUED := by
  have hanswer : answer.outcome.status ≠ .QUEUED := by cases answer <;> simp [Answer.outcome]
  unfold outcomeOf
  cases n.channel with
  | EMAIL =>
    unfold sendEmail
    dsimp only
    split
    · simp
    · cases answer <;> simp
  | SMS =>
    unfold sendSms
    dsimp only
    split
    · exact hanswer
    · simp
  | WHATSAPP =>
    unfold sendWhatsapp
    dsimp only
    split
    · exact hanswer
    · simp
  | IN_APP => simp

theorem delivered_status (now : Time) (o : Outcome) : (n.delivered now o).status = o.status := by
  unfold Notification.delivered
  dsimp only
  split <;> rfl

theorem delivered_channel (now : Time) (o : Outcome) : (n.delivered now o).channel = n.channel := by
  unfold Notification.delivered
  dsimp only
  split <;> rfl

theorem delivered_dedupeKey (now : Time) (o : Outcome) : (n.delivered now o).dedupeKey = n.dedupeKey := by
  unfold Notification.delivered
  dsimp only
  split <;> rfl

/-- A row that is to be delivered is not one of the application's own. -/
theorem Sound.outside {now : Time} (h : Sound n) (hdue : n.due now = true) : n.channel ≠ .IN_APP := by
  intro happ
  have hsent := h.inApp happ
  rcases (due_iff.mp hdue).1 with hq | hf
  · rw [hsent] at hq
    cases hq
  · rw [hsent] at hf
    cases hf

theorem Sound.delivered {now : Time} {o : Outcome} (h : Sound n) (hdue : n.due now = true) (ho : o.status ≠ .QUEUED) :
    Sound (n.delivered now o) := by
  have houtside := h.outside hdue
  obtain ⟨hstatus, hsched⟩ := due_iff.mp hdue
  have hctx : n.context ≠ none := fun hnone => by
    rcases (h.wiped houtside).mp hnone with hs | hs <;> rcases hstatus with hq | hf <;> simp_all
  have hsent : n.sentAt = none := by
    rcases hat : n.sentAt with _ | t
    · rfl
    · have hs := h.sent.mp (by rw [hat]; rfl)
      rcases hstatus with hq | hf <;> simp_all
  unfold Notification.delivered
  dsimp only
  rcases hstat : o.status with _ | _ | _ | _
  · exact absurd hstat ho
  · rw [if_pos (Or.inl rfl)]
    constructor <;> simp_all
  · rw [if_neg (by simp)]
    constructor <;> simp_all
  · rw [if_pos (Or.inr rfl)]
    constructor <;> simp_all

/-! ### The steps -/

theorem tally_takes {o : Option Work} (pk : ℕ) : Entries.tally (takes pk) w o =
    match o with
    | some (.answered pk' _ out) => if pk' = pk ∧ out.status = .SENT then 1 else 0
    | _ => 0 := by
  rcases o with _ | (_ | ⟨pk', n, out⟩ | _)
  · rfl
  · rfl
  · rw [Entries.tally_some]
    exact if_congr (by simp [takes]) rfl rfl
  · rfl

theorem count_takes {o : Outcome} (pk pk' : ℕ) : (o.takes pk').count pk = if pk' = pk ∧ o.status = .SENT then 1 else 0 := by
  unfold Outcome.takes
  by_cases ho : o.status = .SENT
  · by_cases hpk : pk' = pk
    · rw [if_pos ho, if_pos ⟨hpk, ho⟩, hpk, List.count_singleton_self]
    · rw [if_pos ho, if_neg fun h => hpk h.1, List.count_singleton, if_neg (by simpa using hpk)]
  · rw [if_neg ho, if_neg fun h => ho h.2, List.count_nil]

theorem usage_cases (n : Notification) : n.usage = [] ∨ ∃ u, n.usage = [u] := by
  unfold Notification.usage
  split
  · exact Or.inr ⟨_, rfl⟩
  · exact Or.inl rfl

/-- A delivery is metered once at most. -/
theorem count_usage (u : ℕ × Metric) : n.usage.count u = if n.usage.contains u then 1 else 0 := by
  rcases usage_cases n with hnil | ⟨v, hone⟩
  · rw [hnil]
    rfl
  · rw [hone, List.count_singleton]
    refine if_congr ?_ rfl rfl
    simp only [List.contains_cons, List.contains_nil, Bool.or_false, beq_iff_eq]
    exact eq_comm

theorem usage_of_status (h : n.status ≠ .SENT) : n.usage = [] := by
  unfold Notification.usage
  split
  · rename_i hs _ _
    exact absurd hs h
  · rfl

theorem usage_of_inApp (h : n.channel = .IN_APP) : n.usage = [] := by
  unfold Notification.usage
  split
  · rename_i hm
    unfold Notification.metric at hm
    rw [h] at hm
    cases hm
  · rfl

/-- The place of one worker changes, and the rows are as they were. -/
theorem Kept.setWorker (h : Kept S s) {w : ℕ} {o : Option Work} (taken lost : List ℕ) (usage unmetered : List (ℕ × Metric))
    (hheld : ∀ work ∈ o, Held S s work)
    (halone : ∀ work ∈ o, ∀ pk, work.lock = some pk → ∀ c ∈ s.workers, c.1 ≠ w → c.2.lock ≠ some pk)
    (htaken : ∀ pk, taken.count pk + s.lost.count pk + Entries.tally (takes pk) w (Entries.get w s.workers) =
      s.taken.count pk + lost.count pk + Entries.tally (takes pk) w o)
    (husage : ∀ u, usage.count u + unmetered.count u + Entries.tally (meters u) w o =
      s.usage.count u + s.unmetered.count u + Entries.tally (meters u) w (Entries.get w s.workers)) :
    Kept S { s.setWorker w o with taken := taken, lost := lost, usage := usage, unmetered := unmetered } where
  rows := h.rows
  workers := h.workers.put
  sound := h.sound
  dedupe := h.dedupe
  held c hc := by
    rcases Entries.mem_put.mp hc with ⟨-, ho⟩ | ⟨hmem, -⟩
    · exact ⟨(hheld c.2 ho).row, (hheld c.2 ho).answer⟩
    · exact ⟨(h.held c hmem).row, (h.held c hmem).answer⟩
  alone c hc c' hc' pk hlock hlock' := by
    rcases Entries.mem_put.mp hc with ⟨hw, ho⟩ | ⟨hmem, hne⟩
    · rcases Entries.mem_put.mp hc' with ⟨hw', ho'⟩ | ⟨hmem', hne'⟩
      · exact Prod.ext (hw.trans hw'.symm) (Option.some.inj (ho.symm.trans ho'))
      · exact absurd hlock' (halone c.2 ho pk hlock c' hmem' hne')
    · rcases Entries.mem_put.mp hc' with ⟨-, ho'⟩ | ⟨hmem', -⟩
      · exact absurd hlock (halone c'.2 ho' pk hlock' c hmem hne)
      · exact h.alone c hmem c' hmem' pk hlock hlock'
  taken pk := by
    have hcount := Entries.countP_put (takes pk) (k := w) (o := o) h.workers
    have hold := h.taken pk
    have hnew := htaken pk
    change taken.count pk = s.sent pk + lost.count pk + (Entries.put w o s.workers).countP (takes pk)
    omega
  usage u := by
    have hcount := Entries.countP_put (meters u) (k := w) (o := o) h.workers
    have hold := h.usage u
    have hnew := husage u
    change usage.count u + unmetered.count u + (Entries.put w o s.workers).countP (meters u) =
      s.rows.countP fun c => c.2.usage.contains u
    omega

theorem tally_meters {o : Option Work} (u : ℕ × Metric) : Entries.tally (meters u) w o =
    match o with
    | some (.saved _ n) => n.usage.count u
    | _ => 0 := by
  rcases o with _ | (_ | _ | ⟨pk, n⟩)
  · rfl
  · rfl
  · rfl
  · rw [Entries.tally_some]
    exact (count_usage u).symm

theorem Kept.notify (h : Kept S s) (a : Notify) : Kept S (step S E (.notify pk a) s) := by
  unfold step
  dsimp only
  split
  · rename_i hadmits
    obtain ⟨hnew, hkey⟩ := hadmits
    have hrow : ∀ pk' n, Entries.get pk' s.rows = some n →
        Entries.get pk' (Entries.put pk (some (a.row S E s.clock)) s.rows) = some n := by
      intro pk' n hget
      rw [Entries.get_put h.rows, if_neg, hget]
      rintro rfl
      rw [hnew] at hget
      cases hget
    have husage : (a.row S E s.clock).usage = [] := by
      by_cases happ : a.channel = .IN_APP
      · exact usage_of_inApp happ
      · refine usage_of_status ?_
        change (if a.channel = .IN_APP then Status.SENT else .QUEUED) ≠ .SENT
        rw [if_neg happ]
        decide
    refine ⟨h.rows.put, h.workers, fun c hc => ?_, fun c hc c' hc' k hk hk' => ?_, fun c hc => ?_, h.alone, fun pk' => ?_,
      fun u => ?_⟩
    · rcases Entries.mem_put.mp hc with ⟨-, ho⟩ | ⟨hmem, -⟩
      · rw [← Option.some.inj ho]
        exact sound_row s.clock a
      · exact h.sound c hmem
    · rcases Entries.mem_put.mp hc with ⟨hpk, ho⟩ | ⟨hmem, -⟩
      · rcases Entries.mem_put.mp hc' with ⟨hpk', ho'⟩ | ⟨hmem', -⟩
        · exact Prod.ext (hpk.trans hpk'.symm) (Option.some.inj (ho.symm.trans ho'))
        · rw [← Option.some.inj ho] at hk
          exact absurd hk' (hkey c' hmem' k hk)
      · rcases Entries.mem_put.mp hc' with ⟨-, ho'⟩ | ⟨hmem', -⟩
        · rw [← Option.some.inj ho'] at hk'
          exact absurd hk (hkey c hmem k hk')
        · exact h.dedupe c hmem c' hmem' k hk hk'
    · refine ⟨fun pk' n hw => ?_, fun pk' n o hw => ?_⟩
      · obtain ⟨hget, hdue⟩ := (h.held c hc).row pk' n hw
        exact ⟨hrow pk' n hget, hdue⟩
      · obtain ⟨hget, hdue, hanswer⟩ := (h.held c hc).answer pk' n o hw
        exact ⟨hrow pk' n hget, hdue, hanswer⟩
    · have hsent : State.sent pk' { s with rows := Entries.put pk (some (a.row S E s.clock)) s.rows } = s.sent pk' := by
        unfold State.sent
        dsimp only
        rw [Entries.get_put h.rows]
        by_cases hpk : pk' = pk
        · rw [if_pos hpk, hpk, hnew]
          refine if_neg fun hs => ?_
          have hstatus : (if a.channel = .IN_APP then Status.SENT else .QUEUED) = .SENT := hs.1
          have houtside : a.channel ≠ .IN_APP := hs.2
          rw [if_neg houtside] at hstatus
          cases hstatus
        · rw [if_neg hpk]
      rw [hsent]
      exact h.taken pk'
    · have hcount := Entries.countP_put (fun c : ℕ × Notification => c.2.usage.contains u) (k := pk)
        (o := some (a.row S E s.clock)) h.rows
      rw [hnew, Entries.tally_none, Entries.tally_some, husage] at hcount
      have hold := h.usage u
      change s.usage.count u + s.unmetered.count u + s.workers.countP (meters u) =
        (Entries.put pk (some (a.row S E s.clock)) s.rows).countP fun c => c.2.usage.contains u
      simp only [List.contains_nil, Bool.false_eq_true, if_false, Nat.add_zero] at hcount
      omega
  · exact h

theorem Kept.begin (h : Kept S s) : Kept S (step S E (.begin w pk) s) := by
  unfold step
  dsimp only
  split
  · rename_i n hw hn
    split
    · rename_i hfree
      refine h.setWorker s.taken s.lost s.usage s.unmetered
        (fun work hwork => ?_) (fun work hwork pk' hlock c hc _ hc' => ?_) (fun pk' => ?_) fun u => ?_
      · cases hwork
        refine ⟨fun pk' n' heq => ?_, fun pk' n' o heq => (by cases heq)⟩
        cases heq
        exact ⟨hn, hfree.2⟩
      · cases hwork
        cases hlock
        exact hfree.1 c hc hc'
      · rw [hw]
        rfl
      · rw [hw]
        rfl
    · exact h
  · exact h

theorem Kept.send (h : Kept S s) (answer : Answer) : Kept S (step S E (.send w answer) s) := by
  unfold step
  dsimp only
  split
  · rename_i pk n hw
    have hmem := Entries.mem_of_get hw
    obtain ⟨hrow, hdue⟩ := (h.held _ hmem).row pk n rfl
    refine h.setWorker _ s.lost s.usage s.unmetered
      (fun work hwork => ?_) (fun work hwork pk' hlock c hc hne hc' => ?_) (fun pk' => ?_) fun u => ?_
    · cases hwork
      refine ⟨fun pk' n' heq => (by cases heq), fun pk' n' o heq => ?_⟩
      cases heq
      exact ⟨hrow, hdue, answer, rfl⟩
    · cases hwork
      cases hlock
      exact hne (congrArg Prod.fst (h.alone c hc _ hmem pk hc' rfl))
    · rw [hw, List.count_append, count_takes, tally_takes, tally_takes]
      dsimp only
      omega
    · rw [hw, tally_meters, tally_meters]
  · exact h

theorem Kept.record (h : Kept S s) : Kept S (step S E (.record w) s) := by
  unfold step
  dsimp only
  split
  · rename_i pk n hw
    refine h.setWorker s.taken s.lost _ s.unmetered
      (fun work hwork => by cases hwork) (fun work hwork => by cases hwork) (fun pk' => ?_) fun u => ?_
    · rw [hw, tally_takes, tally_takes]
    · rw [hw, List.count_append, tally_meters, tally_meters]
      dsimp only
      omega
  · exact h

theorem Kept.crash (h : Kept S s) : Kept S (step S E (.crash w) s) := by
  unfold step
  dsimp only
  split
  · rename_i pk n hw
    refine h.setWorker s.taken s.lost s.usage s.unmetered
      (fun work hwork => by cases hwork) (fun work hwork => by cases hwork) (fun pk' => ?_) fun u => ?_
    · rw [hw, tally_takes, tally_takes]
    · rw [hw, tally_meters, tally_meters]
  · rename_i pk n o hw
    refine h.setWorker s.taken _ s.usage s.unmetered
      (fun work hwork => by cases hwork) (fun work hwork => by cases hwork) (fun pk' => ?_) fun u => ?_
    · rw [hw, List.count_append, count_takes, tally_takes, tally_takes]
      dsimp only
      omega
    · rw [hw, tally_meters, tally_meters]
  · rename_i pk n hw
    refine h.setWorker s.taken s.lost s.usage _
      (fun work hwork => by cases hwork) (fun work hwork => by cases hwork) (fun pk' => ?_) fun u => ?_
    · rw [hw, tally_takes, tally_takes]
    · rw [hw, List.count_append, tally_meters, tally_meters]
      dsimp only
      omega
  · exact h

/-- The row is saved; no other worker has read it. -/
theorem Kept.commit (h : Kept S s) : Kept S (step S E (.commit w) s) := by
  unfold step
  dsimp only
  split
  · rename_i pk n o hw
    have hmem := Entries.mem_of_get hw
    obtain ⟨hrow, hdue, answer, hanswer⟩ := (h.held _ hmem).answer pk n o rfl
    have hsound : Sound n := h.sound _ (Entries.mem_of_get hrow)
    have hnew : Sound (n.delivered s.clock o) := hsound.delivered hdue (hanswer ▸ outcome_ne answer)
    have hunsent : n.status ≠ .SENT := fun hs => by
      rcases (due_iff.mp hdue).1 with hq | hf
      · rw [hs] at hq
        cases hq
      · rw [hs] at hf
        cases hf
    have hothers : ∀ c ∈ s.workers, c.1 ≠ w → c.2.lock ≠ some pk := fun c hc hne hlock =>
      hne (congrArg Prod.fst (h.alone c hc _ hmem pk hlock rfl))
    have hget : ∀ pk' n', pk' ≠ pk → Entries.get pk' s.rows = some n' →
        Entries.get pk' (Entries.put pk (some (n.delivered s.clock o)) s.rows) = some n' := by
      intro pk' n' hne hget
      rw [Entries.get_put h.rows, if_neg hne, hget]
    refine ⟨h.rows.put, h.workers.put, fun c hc => ?_, fun c hc c' hc' k hk hk' => ?_, fun c hc => ?_,
      fun c hc c' hc' pk' hl hl' => ?_, fun pk' => ?_, fun u => ?_⟩
    · rcases Entries.mem_put.mp hc with ⟨-, ho⟩ | ⟨hmem, -⟩
      · rw [← Option.some.inj ho]
        exact hnew
      · exact h.sound c hmem
    · -- the dedupe key is the one that the row had
      have hold : ∀ c ∈ Entries.put pk (some (n.delivered s.clock o)) s.rows, c.2.dedupeKey = some k →
          ∃ d ∈ s.rows, d.1 = c.1 ∧ d.2.dedupeKey = some k := by
        intro c hc hk
        rcases Entries.mem_put.mp hc with ⟨hpk, ho⟩ | ⟨hmem, -⟩
        · rw [← Option.some.inj ho, delivered_dedupeKey] at hk
          exact ⟨_, Entries.mem_of_get hrow, hpk.symm, hk⟩
        · exact ⟨c, hmem, rfl, hk⟩
      obtain ⟨d, hd, hdc, hdk⟩ := hold c hc hk
      obtain ⟨d', hd', hdc', hdk'⟩ := hold c' hc' hk'
      have hsame : d = d' := h.dedupe d hd d' hd' k hdk hdk'
      have hkeys : c.1 = c'.1 := by rw [← hdc, ← hdc', hsame]
      exact List.inj_on_of_nodup_map h.rows.put hc hc' hkeys
    · rcases Entries.mem_put.mp hc with ⟨-, ho⟩ | ⟨hmem', hne⟩
      · rw [← Option.some.inj ho]
        exact ⟨fun pk' n' heq => (by cases heq), fun pk' n' o heq => (by cases heq)⟩
      · refine ⟨fun pk' n' heq => ?_, fun pk' n' o' heq => ?_⟩
        · obtain ⟨hrow', hdue'⟩ := (h.held c hmem').row pk' n' heq
          refine ⟨hget pk' n' ?_ hrow', hdue'⟩
          rintro rfl
          exact hothers c hmem' hne (by rw [heq]; rfl)
        · obtain ⟨hrow', hdue', hanswer'⟩ := (h.held c hmem').answer pk' n' o' heq
          refine ⟨hget pk' n' ?_ hrow', hdue', hanswer'⟩
          rintro rfl
          exact hothers c hmem' hne (by rw [heq]; rfl)
    · rcases Entries.mem_put.mp hc with ⟨-, ho⟩ | ⟨hmem, -⟩
      · rw [← Option.some.inj ho] at hl
        cases hl
      · rcases Entries.mem_put.mp hc' with ⟨-, ho'⟩ | ⟨hmem', -⟩
        · rw [← Option.some.inj ho'] at hl'
          cases hl'
        · exact h.alone c hmem c' hmem' pk' hl hl'
    · have hcount := Entries.countP_put (takes pk') (k := w) (o := some (.saved pk (n.delivered s.clock o))) h.workers
      rw [hw, tally_takes, tally_takes] at hcount
      have hold := h.taken pk'
      have hsent : State.sent pk' { s.setWorker w (some (.saved pk (n.delivered s.clock o))) with
          rows := Entries.put pk (some (n.delivered s.clock o)) s.rows } =
          s.sent pk' + if pk = pk' ∧ o.status = .SENT then 1 else 0 := by
        unfold State.sent
        dsimp only
        rw [Entries.get_put h.rows]
        by_cases hpk : pk' = pk
        · rw [if_pos hpk, hpk, hrow]
          dsimp only
          have hzero : (if n.status = .SENT ∧ n.channel ≠ .IN_APP then 1 else 0) = 0 := if_neg fun hs => hunsent hs.1
          rw [delivered_status, delivered_channel, hzero, Nat.zero_add]
          exact if_congr ⟨fun hs => ⟨rfl, hs.1⟩, fun hs => ⟨hs.2, hsound.outside hdue⟩⟩ rfl rfl
        · rw [if_neg hpk, if_neg fun hs => hpk hs.1.symm]
          rfl
      rw [hsent]
      change s.taken.count pk' = _ + s.lost.count pk' +
        (Entries.put w (some (.saved pk (n.delivered s.clock o))) s.workers).countP (takes pk')
      dsimp only at hcount
      omega
    · have hwork := Entries.countP_put (meters u) (k := w) (o := some (.saved pk (n.delivered s.clock o))) h.workers
      have hrows := Entries.countP_put (fun c : ℕ × Notification => c.2.usage.contains u) (k := pk)
        (o := some (n.delivered s.clock o)) h.rows
      rw [hw, tally_meters, tally_meters] at hwork
      rw [hrow, Entries.tally_some, Entries.tally_some, usage_of_status hunsent] at hrows
      rw [← count_usage] at hrows
      have hold := h.usage u
      change s.usage.count u + s.unmetered.count u +
        (Entries.put w (some (.saved pk (n.delivered s.clock o))) s.workers).countP (meters u) =
        (Entries.put pk (some (n.delivered s.clock o)) s.rows).countP fun c => c.2.usage.contains u
      simp only [List.contains_nil, Bool.false_eq_true, if_false, Nat.add_zero] at hrows hwork
      omega
  · exact h

theorem Kept.step (h : Kept S s) (x : Step) : Kept S (step S E x s) := by
  cases x with
  | notify pk a => exact h.notify a
  | begin w pk => exact h.begin
  | send w answer => exact h.send answer
  | commit w => exact h.commit
  | record w => exact h.record
  | crash w => exact h.crash

theorem Kept.run {xs : List (Time × Step)} {s : State} (hs : Kept S s) (h : Steps.Always (tick S E) Timely xs s) :
    Kept S (Steps.run (tick S E) xs s) :=
  Steps.Always.run (fun x _ hk hx => (hk.upTo hx).step x.2) hs h

/-! ### What is delivered -/

theorem lock_of_takes {c : ℕ × Work} (h : takes pk c = true) : ∃ n o, c.2 = .answered pk n o := by
  unfold takes at h
  split at h
  · rename_i pk' n o hw
    rw [Bool.and_eq_true, decide_eq_true_eq] at h
    exact ⟨n, o, h.1 ▸ hw⟩
  · cases h
  · cases h

theorem Kept.sent_le (h : Kept S s) (pk : ℕ) : s.sent pk + s.workers.countP (takes pk) ≤ 1 := by
  have hone : s.workers.countP (takes pk) ≤ 1 := by
    refine Entries.countP_le_one h.workers fun c hc c' hc' ht ht' => ?_
    obtain ⟨n, o, hw⟩ := lock_of_takes ht
    obtain ⟨n', o', hw'⟩ := lock_of_takes ht'
    rw [h.alone c hc c' hc' pk (by rw [hw]; rfl) (by rw [hw']; rfl)]
  by_cases hzero : s.workers.countP (takes pk) = 0
  · rw [hzero, Nat.add_zero]
    unfold State.sent
    split
    · split <;> simp
    · exact Nat.zero_le _
  · obtain ⟨c, hc, ht⟩ := List.countP_pos_iff.mp (Nat.pos_of_ne_zero hzero)
    obtain ⟨n, o, hw⟩ := lock_of_takes ht
    obtain ⟨hrow, hdue, -⟩ := (h.held c hc).answer pk n o hw
    have hsent : s.sent pk = 0 := by
      unfold State.sent
      rw [hrow]
      refine if_neg fun hs => ?_
      rcases (due_iff.mp hdue).1 with hq | hf
      · rw [hs.1] at hq
        cases hq
      · rw [hs.1] at hf
        cases hf
    rw [hsent, Nat.zero_add]
    exact hone

/-- A message that is taken, and lost with its worker; it is sent again. -/
def resent : List (Time × Step) :=
  [(1, .notify 5 { template := "verification_otp", channel := .SMS, recipient := "+233200000000", organization := some 3 }),
    (2, .begin 0 5), (3, .send 0 (.accepted "a")), (4, .begin 1 5), (5, .crash 0), (6, .begin 1 5), (7, .send 1 (.accepted "b")),
    (8, .commit 1), (9, .record 1), (10, .begin 2 5)]

/-- The notification of `resent`, after the second worker. -/
def delivered : Notification :=
  (({ template := "verification_otp", channel := .SMS, recipient := "+233200000000", organization := some 3 } : Notify).row
    {} Env.plain 1).delivered 8 ⟨.SENT, "b", ""⟩

/-- Nothing is done with the notification any more. -/
def Notification.Settled (n : Notification) : Prop := n.status = .SENT ∨ n.status = .SKIPPED

theorem Kept.settled (h : Kept S s) (hn : Entries.get pk s.rows = some n) (hs : n.Settled) (x : Step) :
    Entries.get pk (Outbox.step S E x s).rows = some n := by
  have hdue : n.due s.clock ≠ true := fun hdue => by
    rcases (due_iff.mp hdue).1 with hq | hf <;> rcases hs with hs | hs <;> simp_all
  cases x with
  | notify pk' a =>
    unfold Outbox.step
    dsimp only
    split
    · rename_i hadmits
      rw [Entries.get_put h.rows, if_neg, hn]
      rintro rfl
      rw [hadmits.1] at hn
      cases hn
    · exact hn
  | commit w =>
    unfold Outbox.step
    dsimp only
    split
    · rename_i pk' n' o hw
      obtain ⟨hrow, hdue', -⟩ := (h.held _ (Entries.mem_of_get hw)).answer pk' n' o rfl
      rw [Entries.get_put h.rows, if_neg, hn]
      rintro rfl
      rw [hn] at hrow
      cases hrow
      exact hdue hdue'
    · exact hn
  | begin w pk' =>
    unfold Outbox.step
    dsimp only
    split
    · split <;> exact hn
    · exact hn
  | send w answer | record w | crash w =>
    unfold Outbox.step
    dsimp only
    split <;> exact hn

/-- **A notification that was sent or skipped stays as it is, whatever runs after.** -/
theorem settled_stays {before xs : List (Time × Step)} (h : Steps.Always (tick S E) Timely (before ++ xs) {})
    (hn : Entries.get pk (Steps.run (tick S E) before {}).rows = some n) (hs : n.Settled) :
    Entries.get pk (Steps.run (tick S E) (before ++ xs) {}).rows = some n := by
  rw [Steps.always_append] at h
  rw [Steps.run_append]
  have hkept := Kept.start.run h.1
  generalize Steps.run (tick S E) before {} = s at h hn hkept
  have hboth : Kept S (Steps.run (tick S E) xs s) ∧ Entries.get pk (Steps.run (tick S E) xs s).rows = some n :=
    Steps.Always.run (I := fun s => Kept S s ∧ Entries.get pk s.rows = some n) (C := Timely)
      (fun x _ hi hx => ⟨(hi.1.upTo hx).step x.2, (hi.1.upTo hx).settled hi.2 hs x.2⟩) ⟨hkept, hn⟩ h.2
  exact hboth.2

theorem settled_stays_resent :
    Entries.get 5 (Steps.run (tick {} Env.plain) (resent.take 8 ++ resent.drop 8) {}).rows = some delivered :=
  settled_stays (by decide +kernel) rfl (Or.inl rfl)

/-- **The usage that was recorded, and that which was lost before, is that of the
notifications that were sent, when no worker is at it; and never more.** -/
theorem usage_recorded {xs : List (Time × Step)} (h : Steps.Always (tick S E) Timely xs {}) (u : ℕ × Metric) :
    (Steps.run (tick S E) xs {}).usage.count u + (Steps.run (tick S E) xs {}).unmetered.count u ≤
        (Steps.run (tick S E) xs {}).rows.countP (fun c => c.2.usage.contains u) ∧
      ((Steps.run (tick S E) xs {}).workers = [] →
        (Steps.run (tick S E) xs {}).usage.count u + (Steps.run (tick S E) xs {}).unmetered.count u =
          (Steps.run (tick S E) xs {}).rows.countP fun c => c.2.usage.contains u) := by
  have hkept := Kept.start.run h
  generalize Steps.run (tick S E) xs {} = s at hkept
  have husage := hkept.usage u
  refine ⟨by omega, fun hnil => ?_⟩
  rw [hnil, List.countP_nil, Nat.add_zero] at husage
  exact husage

theorem usage_recorded_resent : (Steps.run (tick {} Env.plain) resent {}).usage.count (3, Metric.SMS_SENT) +
    (Steps.run (tick {} Env.plain) resent {}).unmetered.count (3, Metric.SMS_SENT) =
      (Steps.run (tick {} Env.plain) resent {}).rows.countP fun c => c.2.usage.contains (3, Metric.SMS_SENT) :=
  (usage_recorded (by decide +kernel) _).2 (by decide +kernel)

end Outbox
end FlexyVotes
