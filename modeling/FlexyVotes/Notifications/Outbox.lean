/-
# The notification outbox

A notification is a row that is written with the business it tells of, and
delivered later: a worker locks the row, hands the message to the provider of its
channel and saves what came of it, in one transaction, and then records the usage.
Tasks come again after a crash, on a retry and by a sweep, so that any worker may
take any row at any time.

Beside what is stored, the state tells which messages a provider has taken, which
of these deliveries were lost before they were saved, and which were saved but
lost before their usage was recorded.

Key definitions: `notify`, `outcomeOf`, `Notification.delivered`, `step`.
-/
import FlexyVotes.Billing.Service
import FlexyVotes.Core.Utils
import FlexyVotes.Lib.Entries
import FlexyVotes.Lib.Steps

namespace FlexyVotes
namespace Outbox

open Billing (Metric)

/-! ### Rows -/

/-- `Notification.Channel`. -/
inductive Channel
  | EMAIL | SMS | WHATSAPP | IN_APP
  deriving DecidableEq

/-- `Notification.Status`. -/
inductive Status
  | QUEUED | SENT | FAILED | SKIPPED
  deriving DecidableEq

abbrev Context := List (String × Json)

/-- `Notification`; its pk is its key in the table. -/
structure Notification where
  organization : Option ℕ := none
  event : Option ℕ := none
  user : Option ℕ := none
  channel : Channel
  template : String
  recipient : String := ""
  recipientHint : String := ""
  context : Option Context
  subject : String := ""
  status : Status := .QUEUED
  attempts : ℕ := 0
  lastError : String := ""
  dedupeKey : Option String := none
  providerMessageId : String := ""
  scheduledFor : Option Time := none
  sentAt : Option Time := none
  createdAt : Time

/-! ### Writing -/

/-- A piece of a subject: text, or the value of a name. -/
inductive Piece
  | text (s : String)
  | field (name : String)

def subjects : List (String × List Piece) :=
  [("voter_invitation", [.text "You are invited to vote: ", .field "election"]),
    ("voter_registration", [.text "Voter registration confirmed: ", .field "election"]),
    ("verification_otp", [.text "Your verification code"]),
    ("voting_opened", [.text "Voting is now open: ", .field "election"]),
    ("voting_reminder", [.text "Reminder: you have not voted yet in ", .field "election"]),
    ("election_closing", [.text "Last chance to vote: ", .field "election", .text " closes soon"]),
    ("vote_confirmation", [.text "Your vote was recorded: ", .field "election"]),
    ("payment_confirmation", [.text "Payment received - your votes are in"]),
    ("results_published", [.text "Results published: ", .field "election"]),
    ("security_alert", [.text "Security alert: ", .field "title"]),
    ("organizer_registered", [.text "New organizer registration pending approval"]),
    ("organizer_approved", [.text "Your organizer account is approved"]),
    ("candidate_invitation", [.text "Set up your candidate profile: ", .field "election"]),
    ("approval_requested", [.text "Approval needed: ", .field "action"]),
    ("support_ticket", [.text "Support request ", .field "reference", .text ": ", .field "subject"])]

def Piece.raw : Piece → String
  | .text s => s
  | .field name => "\x7b" ++ name ++ "\x7d"

/-- `str` of the values that a subject is formatted with: the texts and the whole numbers. -/
def valueText : Json → Option String
  | .str s => some s
  | .int n => some (toString n)
  | .bool b => some (if b then "True" else "False")
  | .null | .float _ | .arr _ | .obj _ => none

def Piece.format (context : Context) : Piece → Option String
  | .text s => some s
  | .field name => (context.lookup name).bind valueText

/-- The subject with its values, or as it is where one is missing. -/
def formatSubject (pieces : List Piece) (context : Context) : String :=
  match pieces.mapM (Piece.format context) with
  | some texts => String.join texts
  | none => String.join (pieces.map Piece.raw)

/-- `dict.setdefault`. -/
def setDefault (name : String) (value : Json) (context : Context) : Context :=
  if (context.lookup name).isSome then context else context ++ [(name, value)]

structure Settings where
  platformName : String := "FlexyVotes"
  siteUrl : String := ""
  smsConfigured : Bool := true
  whatsappConfigured : Bool := true

/-- What of an event a notification takes. -/
structure EventRef where
  pk : ℕ
  title : String
  organization : Option ℕ

/-- What `notify` is called with. -/
structure Notify where
  template : String
  channel : Channel
  recipient : String := ""
  context : Context := []
  event : Option EventRef := none
  organization : Option ℕ := none
  user : Option ℕ := none
  dedupeKey : Option String := none
  scheduledFor : Option Time := none

def hint (E : Env) : Channel → String → String
  | .EMAIL, recipient => Utils.maskEmail recipient
  | .SMS, recipient | .WHATSAPP, recipient => Utils.maskPhone E recipient
  | .IN_APP, _ => ""

/-- The context with what is told in every notification. -/
def Notify.fullContext (S : Settings) (a : Notify) : Context :=
  let named := match a.event with
    | some ev => setDefault "election_id" (.int ev.pk) (setDefault "election" (.str ev.title) a.context)
    | none => a.context
  setDefault "site_url" (.str S.siteUrl) (setDefault "platform" (.str S.platformName) named)

/-- The row that `notify` writes. -/
def Notify.row (S : Settings) (E : Env) (now : Time) (a : Notify) : Notification where
  organization := a.organization.or (a.event.bind (·.organization))
  event := a.event.map (·.pk)
  user := a.user
  channel := a.channel
  template := a.template
  recipient := a.recipient
  recipientHint := hint E a.channel a.recipient
  context := some (a.fullContext S)
  subject :=
    let pieces := (subjects.lookup a.template).getD [.text S.platformName]
    String.ofList ((formatSubject pieces (a.fullContext S)).toList.take 200)
  status := if a.channel = .IN_APP then .SENT else .QUEUED
  dedupeKey := a.dedupeKey
  scheduledFor := a.scheduledFor
  sentAt := if a.channel = .IN_APP then some now else none
  createdAt := now

/-! ### Delivery -/

/-- What a provider answers: it takes the message, under an id, or does not. -/
inductive Answer
  | accepted (messageId : String)
  | refused (error : String)
  deriving DecidableEq

structure Outcome where
  status : Status
  messageId : String := ""
  error : String := ""
  deriving DecidableEq

/-- What the provider's answer comes to. -/
def Answer.outcome : Answer → Outcome
  | .accepted messageId => ⟨.SENT, messageId, ""⟩
  | .refused error => ⟨.FAILED, "", error⟩

def sendEmail (recipient : String) (answer : Answer) : Outcome :=
  if recipient = "" then ⟨.SKIPPED, "", "No email address"⟩
  else
    match answer with
    | .accepted _ => ⟨.SENT, "", ""⟩
    | .refused error => ⟨.FAILED, "", error⟩

def sendSms (S : Settings) (answer : Answer) : Outcome :=
  if S.smsConfigured then answer.outcome else ⟨.SKIPPED, "", "Africa's Talking is not configured"⟩

def sendWhatsapp (S : Settings) (answer : Answer) : Outcome :=
  if S.whatsappConfigured then answer.outcome else ⟨.SKIPPED, "", "WhatsApp is not configured"⟩

def outcomeOf (S : Settings) (n : Notification) (answer : Answer) : Outcome :=
  match n.channel with
  | .EMAIL => sendEmail n.recipient answer
  | .SMS => sendSms S answer
  | .WHATSAPP => sendWhatsapp S answer
  | .IN_APP => ⟨.SENT, "", ""⟩

/-- `deliver` goes on with the row. -/
def Notification.due (now : Time) (n : Notification) : Bool :=
  (n.status = .QUEUED || n.status = .FAILED) && n.scheduledFor.all fun t => t ≤ now

/-- What is saved of a delivery. -/
def Notification.delivered (now : Time) (o : Outcome) (n : Notification) : Notification :=
  let n := { n with attempts := n.attempts + 1, status := o.status, providerMessageId := o.messageId, lastError := o.error }
  if o.status = .SENT ∨ o.status = .SKIPPED then
    { n with sentAt := if o.status = .SENT then some now else none, context := none }
  else n

/-- What a delivery is metered as. -/
def Notification.metric (n : Notification) : Option Metric :=
  match n.channel with
  | .EMAIL => some .EMAILS_SENT
  | .SMS => some .SMS_SENT
  | .WHATSAPP | .IN_APP => none

/-! ### Workers -/

/-- Where a worker is. -/
inductive Work
  /-- It has locked the row. -/
  | locked (pk : ℕ) (n : Notification)
  /-- The provider has answered. -/
  | answered (pk : ℕ) (n : Notification) (o : Outcome)
  /-- The row is saved. -/
  | saved (pk : ℕ) (n : Notification)

/-- The row that is locked. -/
def Work.lock : Work → Option ℕ
  | .locked pk _ | .answered pk _ _ => some pk
  | .saved _ _ => none

structure State where
  rows : List (ℕ × Notification) := []
  workers : List (ℕ × Work) := []
  /-- The rows whose messages a provider has taken, each time it has. -/
  taken : List ℕ := []
  /-- The rows whose delivery was lost after a provider had taken the message. -/
  lost : List ℕ := []
  /-- Whose usage was recorded, and of which metric. -/
  usage : List (ℕ × Metric) := []
  /-- Usage that was lost before it was recorded. -/
  unmetered : List (ℕ × Metric) := []
  clock : Time := 0

inductive Step
  | notify (pk : ℕ) (a : Notify)
  | begin (w : ℕ) (pk : ℕ)
  | send (w : ℕ) (answer : Answer)
  | commit (w : ℕ)
  | record (w : ℕ)
  | crash (w : ℕ)

/-- Nobody has locked the row. -/
def State.Free (pk : ℕ) (s : State) : Prop := ∀ c ∈ s.workers, c.2.lock ≠ some pk

instance (pk : ℕ) (s : State) : Decidable (s.Free pk) := inferInstanceAs (Decidable (∀ c ∈ s.workers, _))

def State.setWorker (w : ℕ) (o : Option Work) (s : State) : State := { s with workers := Entries.put w o s.workers }

/-- The row's pk is new, and so is its dedupe key. -/
def State.Admits (pk : ℕ) (a : Notify) (s : State) : Prop :=
  Entries.get pk s.rows = none ∧ ∀ c ∈ s.rows, ∀ k ∈ a.dedupeKey, c.2.dedupeKey ≠ some k

instance (pk : ℕ) (a : Notify) (s : State) : Decidable (s.Admits pk a) := inferInstanceAs (Decidable (_ ∧ _))

/-- The usage of a saved delivery. -/
def Notification.usage (n : Notification) : List (ℕ × Metric) :=
  match n.status, n.organization, n.metric with
  | .SENT, some org, some metric => [(org, metric)]
  | _, _, _ => []

/-- The message was taken. -/
def Outcome.takes (pk : ℕ) (o : Outcome) : List ℕ := if o.status = .SENT then [pk] else []

variable (S : Settings) (E : Env)

def step : Step → State → State
  | .notify pk a, s =>
    -- `IntegrityError`: already queued under this dedupe key
    if s.Admits pk a then { s with rows := Entries.put pk (some (a.row S E s.clock)) s.rows } else s
  | .begin w pk, s =>
    match Entries.get w s.workers, Entries.get pk s.rows with
    | none, some n =>
      if s.Free pk ∧ n.due s.clock = true then s.setWorker w (some (.locked pk n)) else s
    | _, _ => s
  | .send w answer, s =>
    match Entries.get w s.workers with
    | some (.locked pk n) =>
      let o := outcomeOf S n answer
      { s.setWorker w (some (.answered pk n o)) with taken := o.takes pk ++ s.taken }
    | _ => s
  | .commit w, s =>
    match Entries.get w s.workers with
    | some (.answered pk n o) =>
      let saved := n.delivered s.clock o
      { s.setWorker w (some (.saved pk saved)) with rows := Entries.put pk (some saved) s.rows }
    | _ => s
  | .record w, s =>
    match Entries.get w s.workers with
    | some (.saved _ n) => { s.setWorker w none with usage := n.usage ++ s.usage }
    | _ => s
  | .crash w, s =>
    match Entries.get w s.workers with
    | some (.locked _ _) => s.setWorker w none
    | some (.answered pk _ o) => { s.setWorker w none with lost := o.takes pk ++ s.lost }
    | some (.saved _ n) => { s.setWorker w none with unmetered := n.usage ++ s.unmetered }
    | none => s

def State.upTo (s : State) (now : Time) : State := { s with clock := now }

/-- A step at its moment. -/
def tick (x : Time × Step) (s : State) : State := step S E x.2 (s.upTo x.1)

/-- The moments of the steps follow one another. -/
def Timely (x : Time × Step) (s : State) : Prop := s.clock ≤ x.1

instance (x : Time × Step) (s : State) : Decidable (Timely x s) := inferInstanceAs (Decidable (s.clock ≤ x.1))

end Outbox
end FlexyVotes
