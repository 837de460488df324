/- sources: maintenance/notification-dispatcher.service.ts (alert, record),
     notification-destinations/notification-rules.ts
   digest: Alerts to the destinations of a project: when a message goes out, and what it counts. -/

import Mathlib.Algebra.Order.Ring.Int
import Mathlib.Data.List.Nodup

/-! Dates are whole milliseconds, as `Date.getTime` gives them. -/

set_option autoImplicit false
set_option relaxedAutoImplicit false

namespace Hookubit.Maintenance.NotificationDispatcher

inductive NotificationEvent
  | endpointStopped | eventStuck | secretRetiring | deliveryExhausted
  deriving DecidableEq

def NotificationEvent.urgent : NotificationEvent → Bool
  | .endpointStopped => true
  | .eventStuck | .secretRetiring | .deliveryExhausted => false

def GROUPING_WINDOW_MS : ℤ := 30 * 60000

def getUTCHours (date : ℤ) : ℤ := date / 3600000 % 24

/-- From 22 until 7, across midnight. -/
def inQuietHours (date : ℤ) : Bool := 22 ≤ getUTCHours date || getUTCHours date < 7

inductive NotificationStatus
  | pending | confirmed | failing | disabled
  deriving DecidableEq

structure Destination where
  id : String
  projectId : String
  projectName : String
  target : String
  status : NotificationStatus
  events : List NotificationEvent

/-- The grouping row of one destination and one subject. -/
structure Dispatch where
  subject : String
  event : NotificationEvent
  occurrences : ℕ
  firstAt : ℤ
  lastAt : ℤ
  sentAt : Option ℤ

inductive SendVerdict
  | new | windowExpired | urgent
  | grouped | quietHours | notSubscribed | notConfirmed
  deriving DecidableEq

def SendVerdict.send : SendVerdict → Bool
  | .new | .windowExpired | .urgent => true
  | .grouped | .quietHours | .notSubscribed | .notConfirmed => false

def shouldSend (destination : Destination) (event : NotificationEvent) (subject : String)
    (previous : Option Dispatch) (now : ℤ) : SendVerdict :=
  if destination.status ≠ .confirmed then .notConfirmed
  else if event ∉ destination.events then .notSubscribed
  else
    match previous.filter (·.subject = subject) with
    | some previous =>
        if now - previous.lastAt < GROUPING_WINDOW_MS then .grouped
        else if inQuietHours now && !event.urgent then .quietHours
        else .windowExpired
    | none =>
        if event.urgent then .urgent
        else if inQuietHours now then .quietHours
        else .new

structure AlertInput where
  projectId : String
  event : NotificationEvent
  subject : String
  headline : String
  body : String
  link : String

structure Message where
  projectName : String
  headline : String
  body : String
  link : String
  occurrences : ℕ

inductive Outcome
  | sent (message : Message)
  | failed (message : Message)
  | grouped
  | held
  | skipped

/-- The upsert of `record`: `existed` is what the read before it found. -/
def record (input : AlertInput) (now : ℤ) (existed : Bool) (row : Option Dispatch) : Dispatch :=
  match row with
  | none => ⟨input.subject, input.event, 1, now, now, none⟩
  | some row =>
      if existed then
        { row with lastAt := now, occurrences := row.occurrences + 1, event := input.event }
      else { row with lastAt := now, event := input.event }

/-- One turn of the loop, as far as it concerns the grouping row. -/
def dispatch (destination : Destination) (input : AlertInput) (now : ℤ) (mail : Except String Unit)
    (previous row : Option Dispatch) : Dispatch × Outcome :=
  let verdict := shouldSend destination input.event input.subject previous now
  let row := record input now previous.isSome row
  let message : Message :=
    ⟨destination.projectName, input.headline, input.body, input.link, row.occurrences⟩
  match verdict with
  | .grouped => (row, .grouped)
  | .quietHours => (row, .held)
  | .notSubscribed | .notConfirmed => (row, .skipped)
  | .new | .windowExpired | .urgent =>
      match mail with
      | .ok _ => ({ row with sentAt := some now, occurrences := 1, firstAt := now }, .sent message)
      | .error _ => (row, .failed message)

/-- The destinations, their grouping rows by destination and subject, and what each destination
shows of its last message. -/
structure Db where
  destinations : List Destination
  nodup : (destinations.map Destination.id).Nodup
  dispatches : String → String → Option Dispatch
  lastSentAt : String → Option ℤ
  lastError : String → Option String

structure Call where
  input : AlertInput
  now : ℤ
  mail : String → Except String Unit

def Call.addresses (c : Call) (d : Destination) : Bool :=
  d.projectId = c.input.projectId && d.status = .confirmed && d.events.contains c.input.event

/-- What a turn of the loop writes. -/
def Db.write (db : Db) (d : Destination) (c : Call) (row : Dispatch) (outcome : Outcome) : Db where
  destinations := db.destinations
  nodup := db.nodup
  dispatches := Function.update db.dispatches d.id
    (Function.update (db.dispatches d.id) c.input.subject (some row))
  lastSentAt := match outcome with
    | .sent _ => Function.update db.lastSentAt d.id (some c.now)
    | _ => db.lastSentAt
  lastError := match outcome, c.mail d.target with
    | .sent _, _ => Function.update db.lastError d.id none
    | .failed _, .error message =>
        Function.update db.lastError d.id
          (some ("The last alert could not be delivered: " ++ message))
    | _, _ => db.lastError

/-- The loop of `alert`. The rows before it were all read at once, from `start`. -/
def alertEach (start : Db) (c : Call) : List Destination → Db → Db × List (String × Outcome)
  | [], db => (db, [])
  | d :: rest, db =>
      let turn := dispatch d c.input c.now (c.mail d.target)
        (start.dispatches d.id c.input.subject) (db.dispatches d.id c.input.subject)
      let later := alertEach start c rest (db.write d c turn.1 turn.2)
      (later.1, (d.id, turn.2) :: later.2)

/-- `alert`: the state after it, and what became of the alert at each destination considered. -/
def alert (db : Db) (c : Call) : Db × List (String × Outcome) :=
  alertEach db c (db.destinations.filter c.addresses) db

structure AlertReport where
  considered : ℕ
  sent : ℕ
  grouped : ℕ
  held : ℕ
  failed : ℕ

def Outcome.isSent : Outcome → Bool
  | .sent _ => true
  | _ => false

def Outcome.isGrouped : Outcome → Bool
  | .grouped => true
  | _ => false

def Outcome.isHeld : Outcome → Bool
  | .held => true
  | _ => false

def Outcome.isFailed : Outcome → Bool
  | .failed _ => true
  | _ => false

def report (outcomes : List (String × Outcome)) : AlertReport where
  considered := outcomes.length
  sent := outcomes.countP (·.2.isSent)
  grouped := outcomes.countP (·.2.isGrouped)
  held := outcomes.countP (·.2.isHeld)
  failed := outcomes.countP (·.2.isFailed)

section Focus

variable {start db : Db} {c : Call} {l : List Destination} {d : Destination}

@[simp] theorem destinations_alertEach (start : Db) (c : Call) (l : List Destination) (db : Db) :
    (alertEach start c l db).1.destinations = db.destinations := by
  induction l generalizing db with
  | nil => rfl
  | cons e rest ih => exact ih _

theorem dispatches_write_of_ne {e : Destination} (other : d.id ≠ e.id) (row : Dispatch)
    (outcome : Outcome) : (db.write e c row outcome).dispatches d.id = db.dispatches d.id :=
  Function.update_of_ne other _ _

theorem dispatches_alertEach_of_notMem {id : String} (absent : id ∉ l.map Destination.id) :
    (alertEach start c l db).1.dispatches id = db.dispatches id := by
  induction l generalizing db with
  | nil => rfl
  | cons e rest ih =>
    rw [List.map_cons, List.mem_cons, not_or] at absent
    exact (ih absent.2).trans (Function.update_of_ne absent.1 _ _)

theorem alertEach_of_mem (nodup : (l.map Destination.id).Nodup) (hd : d ∈ l)
    (same : db.dispatches d.id = start.dispatches d.id) :
    let row := start.dispatches d.id c.input.subject
    let turn := dispatch d c.input c.now (c.mail d.target) row row
    (alertEach start c l db).1.dispatches d.id c.input.subject = some turn.1 ∧
      (alertEach start c l db).2.lookup d.id = some turn.2 := by
  intro row turn
  induction l generalizing db with
  | nil => exact absurd hd List.not_mem_nil
  | cons e rest ih =>
    rw [List.map_cons, List.nodup_cons] at nodup
    obtain rfl | later := List.mem_cons.mp hd
    · have mine : dispatch d c.input c.now (c.mail d.target)
          (start.dispatches d.id c.input.subject) (db.dispatches d.id c.input.subject) = turn := by
        rw [same]
      simp only [alertEach, mine]
      constructor
      · rw [dispatches_alertEach_of_notMem nodup.1]
        simp [Db.write]
      · simp
    · have other : d.id ≠ e.id := by
        rintro shared
        exact nodup.1 (shared ▸ List.mem_map_of_mem later)
      have unread : ∀ row outcome,
          (db.write e c row outcome).dispatches d.id = start.dispatches d.id :=
        fun row outcome => (dispatches_write_of_ne other row outcome).trans same
      obtain ⟨written, told⟩ := ih nodup.2 later (unread _ _)
      refine ⟨written, ?_⟩
      rw [alertEach, List.lookup_cons, beq_false_of_ne other]
      exact told

theorem destinations_alert (db : Db) (c : Call) : (alert db c).1.destinations = db.destinations :=
  destinations_alertEach db c _ db

theorem alert_of_addresses (hd : d ∈ db.destinations) (addressed : c.addresses d = true) :
    let row := db.dispatches d.id c.input.subject
    let turn := dispatch d c.input c.now (c.mail d.target) row row
    (alert db c).1.dispatches d.id c.input.subject = some turn.1 ∧
      (alert db c).2.lookup d.id = some turn.2 :=
  alertEach_of_mem (db.nodup.sublist (List.filter_sublist.map _))
    (List.mem_filter.mpr ⟨hd, addressed⟩) rfl

end Focus

end Hookubit.Maintenance.NotificationDispatcher
