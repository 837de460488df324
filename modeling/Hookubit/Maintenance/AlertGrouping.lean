/- sources: maintenance/notification-dispatcher.service.ts alert,
     notification-destinations/notification-rules.ts shouldSend
   digest: What a recurring alert comes to over a whole series of calls, and when nothing is
     lost. -/

import Hookubit.Maintenance.NotificationDispatcher
import Mathlib.Data.List.Induction

set_option autoImplicit false
set_option relaxedAutoImplicit false

namespace Hookubit.Maintenance.AlertGrouping

open Maintenance.NotificationDispatcher

section Series

variable (d : Destination)

def after (db : Db) (calls : List Call) : Db := calls.foldl (fun db c => (alert db c).1) db

/-- What becomes of a call at the destination, after the calls before it. -/
def outcome (db : Db) (before : List Call) (c : Call) : Outcome :=
  ((alert (after db before) c).2.lookup d.id).getD .skipped

/-- The dates and outcomes of a series. -/
def history (db : Db) : List Call → List (ℤ × Outcome)
  | [] => []
  | c :: rest => (c.now, outcome d db [] c) :: history (alert db c).1 rest

/-- The alerts since the last message that went out. -/
def sinceSent (h : List (ℤ × Outcome)) : ℕ := (h.reverse.takeWhile fun p => !p.2.isSent).length

/-- Grouping loses nothing: an alert is dropped only in favour of a message sent within the
window before it, and each message sent counts the alerts since the one before. -/
def Lossless (db : Db) (calls : List Call) : Prop :=
  ∀ before c rest, calls = before ++ c :: rest →
    ((outcome d db before c).isGrouped = true →
      ∃ p ∈ history d db before, p.2.isSent = true ∧ c.now - p.1 ≤ GROUPING_WINDOW_MS) ∧
    ∀ m, outcome d db before c = .sent m → m.occurrences = sinceSent (history d db before) + 1

/-- The call comes within the window of the one just before it. -/
def Follows (before : List Call) (c : Call) : Prop :=
  ∃ p ∈ before.getLast?, c.now - p.now < GROUPING_WINDOW_MS

/-- It does not, it may disturb, and the mailer takes it. -/
def Delivers (before : List Call) (c : Call) : Prop :=
  ¬Follows before c ∧ (c.input.event.urgent = true ∨ inQuietHours c.now = false) ∧
    c.mail d.target = .ok ()

/-- At most one message goes out, and every alert within the window of the alert before it is
within the window of that message. -/
def Covered (calls : List Call) : Prop :=
  ∀ before c rest, calls = before ++ c :: rest →
    (Follows before c → ∃ pre p post, before = pre ++ p :: post ∧ Delivers d pre p ∧
      c.now - p.now ≤ GROUPING_WINDOW_MS) ∧
    (Delivers d before c → ∀ pre p post, before = pre ++ p :: post → ¬Delivers d pre p)

end Series

section History

variable {d : Destination} {db : Db} {calls before rest : List Call} {c : Call}

theorem mem_history {x : ℤ × Outcome} : x ∈ history d db calls ↔
    ∃ pre p post, calls = pre ++ p :: post ∧ x = (p.now, outcome d db pre p) := by
  induction calls generalizing db with
  | nil => simp [history]
  | cons e rest ih =>
    rw [history, List.mem_cons, ih]
    constructor
    · rintro (rfl | ⟨pre, p, post, rfl, rfl⟩)
      · exact ⟨[], e, rest, rfl, rfl⟩
      · exact ⟨e :: pre, p, post, rfl, rfl⟩
    · rintro ⟨pre, p, post, split, rfl⟩
      cases pre with
      | nil =>
        obtain ⟨rfl, -⟩ := List.cons.inj split
        exact .inl rfl
      | cons f pre =>
        obtain ⟨rfl, tail⟩ := List.cons.inj split
        exact .inr ⟨pre, p, post, tail, rfl⟩

theorem history_concat :
    history d db (calls ++ [c]) = history d db calls ++ [(c.now, outcome d db calls c)] := by
  induction calls generalizing db with
  | nil => rfl
  | cons e rest ih =>
    rw [List.cons_append, history, ih, history, List.cons_append]
    rfl

theorem sinceSent_concat (h : List (ℤ × Outcome)) (t : ℤ) (o : Outcome) :
    sinceSent (h ++ [(t, o)]) = if o.isSent then 0 else sinceSent h + 1 := by
  rw [sinceSent, List.reverse_concat, List.takeWhile_cons]
  cases o.isSent <;> simp [sinceSent]

end History

section Turn

variable {d : Destination} {c : Call} {row : Option Dispatch}

def count (row : Option Dispatch) : ℕ := (row.map Dispatch.occurrences).getD 0

/-- The row was last touched within the window. -/
def Recent (row : Option Dispatch) (now : ℤ) : Prop :=
  ∃ r ∈ row, now - r.lastAt < GROUPING_WINDOW_MS

/-- A call that is about this subject and that the destination has asked for. -/
structure Concerns (d : Destination) (subject : String) (c : Call) : Prop where
  addresses : c.addresses d = true
  subject : c.input.subject = subject

theorem record_spec (same : ∀ r ∈ row, r.subject = c.input.subject) :
    let new := record c.input c.now row.isSome row
    new.subject = c.input.subject ∧ new.lastAt = c.now ∧ new.occurrences = count row + 1 := by
  cases row with
  | none => exact ⟨rfl, rfl, rfl⟩
  | some r => exact ⟨same r rfl, rfl, rfl⟩

theorem shouldSend_spec (addressed : c.addresses d = true)
    (same : ∀ r ∈ row, r.subject = c.input.subject) :
    let verdict := shouldSend d c.input.event c.input.subject row c.now
    (verdict = .grouped ↔ Recent row c.now) ∧
      (verdict.send = true ↔ ¬Recent row c.now ∧
        (c.input.event.urgent = true ∨ inQuietHours c.now = false)) := by
  simp only [Call.addresses, Bool.and_eq_true, decide_eq_true_eq, List.contains_iff_mem]
    at addressed
  obtain ⟨⟨-, confirmed⟩, subscribed⟩ := addressed
  intro verdict
  have this : verdict = shouldSend d c.input.event c.input.subject row c.now := rfl
  rw [shouldSend, if_neg (not_not.mpr confirmed), if_neg (not_not.mpr subscribed)] at this
  cases row with
  | none =>
    have never : ¬Recent none c.now := fun ⟨r, hr, _⟩ => absurd hr (Option.not_mem_none r)
    rw [this]
    cases c.input.event.urgent <;> cases inQuietHours c.now <;>
      simp [never, SendVerdict.send]
  | some r =>
    have recent : Recent (some r) c.now ↔ c.now - r.lastAt < GROUPING_WINDOW_MS := by
      simp [Recent]
    rw [this, recent, Option.filter_some, if_pos (decide_eq_true (same r rfl))]
    dsimp only
    split_ifs with soon quiet
    · simp [soon, SendVerdict.send]
    · rw [Bool.and_eq_true, Bool.not_eq_true'] at quiet
      simp [soon, SendVerdict.send, quiet.1, quiet.2]
    · rw [Bool.and_eq_true, Bool.not_eq_true', not_and_or, Bool.not_eq_true, Bool.not_eq_false]
        at quiet
      simp [soon, SendVerdict.send, quiet.symm]

theorem dispatch_of_not_send {mail : Except String Unit}
    (silent : (shouldSend d c.input.event c.input.subject row c.now).send = false) :
    ∃ o, dispatch d c.input c.now mail row row = (record c.input c.now row.isSome row, o) ∧
      o.isSent = false ∧
      (o.isGrouped = true ↔ shouldSend d c.input.event c.input.subject row c.now = .grouped) := by
  unfold dispatch
  cases verdict : shouldSend d c.input.event c.input.subject row c.now with
  | new | windowExpired | urgent =>
    rw [verdict] at silent
    cases silent
  | grouped => exact ⟨.grouped, rfl, rfl, iff_of_true rfl rfl⟩
  | quietHours => exact ⟨.held, rfl, rfl, by simp [Outcome.isGrouped]⟩
  | notSubscribed | notConfirmed => exact ⟨.skipped, rfl, rfl, by simp [Outcome.isGrouped]⟩

theorem dispatch_of_send {mail : Except String Unit}
    (sends : (shouldSend d c.input.event c.input.subject row c.now).send = true) :
    let new := record c.input c.now row.isSome row
    let message : Message :=
      ⟨d.projectName, c.input.headline, c.input.body, c.input.link, new.occurrences⟩
    dispatch d c.input c.now mail row row = match mail with
      | .ok _ => ({ new with sentAt := some c.now, occurrences := 1, firstAt := c.now },
          .sent message)
      | .error _ => (new, .failed message) := by
  unfold dispatch
  cases verdict : shouldSend d c.input.event c.input.subject row c.now with
  | new | windowExpired | urgent => rfl
  | grouped | quietHours | notSubscribed | notConfirmed =>
    rw [verdict] at sends
    cases sends

/-- One turn: what it does with the row, and what becomes of the alert. -/
structure Took (d : Destination) (c : Call) (row : Option Dispatch) (turn : Dispatch × Outcome) :
    Prop where
  subject : turn.1.subject = c.input.subject
  last : turn.1.lastAt = c.now
  grouped : turn.2.isGrouped = true ↔ Recent row c.now
  sent : turn.2.isSent = true ↔ ¬Recent row c.now ∧
    (c.input.event.urgent = true ∨ inQuietHours c.now = false) ∧ c.mail d.target = .ok ()
  counted : ∀ m, turn.2 = .sent m → m.occurrences = count row + 1
  occurrences : turn.1.occurrences = if turn.2.isSent then 1 else count row + 1

theorem took_dispatch (addressed : c.addresses d = true)
    (same : ∀ r ∈ row, r.subject = c.input.subject) :
    Took d c row (dispatch d c.input c.now (c.mail d.target) row row) := by
  obtain ⟨subject, last, occurrences⟩ := record_spec same
  obtain ⟨grouped, sends⟩ := shouldSend_spec addressed same
  cases send : (shouldSend d c.input.event c.input.subject row c.now).send with
  | false =>
    obtain ⟨o, turn, unsent, told⟩ := dispatch_of_not_send send
    rw [turn]
    refine ⟨subject, last, told.trans grouped, ?_, ?_, ?_⟩
    · rw [unsent]
      rw [send] at sends
      tauto
    · rintro m rfl
      cases unsent
    · rw [unsent]
      exact occurrences
  | true =>
    have fresh := sends.mp send
    rw [dispatch_of_send send]
    cases mail : c.mail d.target with
    | ok _ =>
      refine ⟨subject, last, ?_, ?_, ?_, rfl⟩
      · simp [Outcome.isGrouped, fresh.1]
      · exact iff_of_true rfl ⟨fresh.1, fresh.2, mail⟩
      · rintro m ⟨rfl⟩
        exact occurrences
    | error e =>
      refine ⟨subject, last, ?_, ?_, ?_, occurrences⟩
      · simp [Outcome.isGrouped, fresh.1]
      · simp [Outcome.isSent, mail]
      · intro m absent
        cases absent

end Turn

section Run

variable {d : Destination} {subject : String} {db : Db} {calls before : List Call} {c : Call}

theorem after_concat : after db (calls ++ [c]) = (alert (after db calls) c).1 := by
  rw [after, List.foldl_concat]
  rfl

theorem destinations_after : (after db calls).destinations = db.destinations := by
  induction calls using List.reverseRecOn with
  | nil => rfl
  | append_singleton calls c ih => rw [after_concat, destinations_alert, ih]

/-- What the grouping row says after a series of calls about its subject: when the last one was,
and how many there were since the last message, that one counted again. -/
structure Tracks (d : Destination) (db : Db) (subject : String) (calls : List Call)
    (row : Option Dispatch) : Prop where
  last : row.map Dispatch.lastAt = calls.getLast?.map Call.now
  subject : ∀ r ∈ row, r.subject = subject
  count : count row = sinceSent (history d db calls) +
    if (history d db calls).any (fun p => p.2.isSent) then 1 else 0

theorem Tracks.recent_iff {row : Option Dispatch} (tracks : Tracks d db subject calls row) :
    Recent row c.now ↔ Follows calls c := by
  have last := tracks.last
  cases row with
  | none =>
    cases seen : calls.getLast? with
    | none => simp [Recent, Follows, seen]
    | some p => simp [seen] at last
  | some r =>
    cases seen : calls.getLast? with
    | none => simp [seen] at last
    | some p =>
      rw [seen, Option.map_some, Option.map_some, Option.some.injEq] at last
      simp [Recent, Follows, seen, last]

variable (hd : d ∈ db.destinations) (fresh : db.dispatches d.id subject = none)
include hd

theorem took_outcome {row : Option Dispatch} (concerns : Concerns d subject c)
    (read : (after db calls).dispatches d.id subject = row)
    (tracks : Tracks d db subject calls row) :
    ∃ turn, Took d c row turn ∧ outcome d db calls c = turn.2 ∧
      (after db (calls ++ [c])).dispatches d.id subject = some turn.1 := by
  have here : d ∈ (after db calls).destinations := by rwa [destinations_after]
  obtain ⟨written, told⟩ := alert_of_addresses here concerns.addresses
  rw [concerns.subject, read] at written told
  refine ⟨_, took_dispatch concerns.addresses ?_, ?_, ?_⟩
  · rw [concerns.subject]
    exact tracks.subject
  · rw [outcome, told, Option.getD_some]
  · rw [after_concat, written]

include fresh

theorem tracks_after (concern : ∀ c ∈ calls, Concerns d subject c) :
    Tracks d db subject calls ((after db calls).dispatches d.id subject) := by
  induction calls using List.reverseRecOn with
  | nil =>
    show Tracks d db subject [] (db.dispatches d.id subject)
    rw [fresh]
    exact ⟨rfl, fun r hr => absurd hr (Option.not_mem_none r), rfl⟩
  | append_singleton calls c ih =>
    have tracks := ih fun e he => concern e (List.mem_append_left _ he)
    have concerns := concern c (by simp)
    obtain ⟨turn, took, told, written⟩ := took_outcome hd concerns rfl tracks
    rw [written]
    refine ⟨?_, ?_, ?_⟩
    · rw [List.getLast?_concat, Option.map_some, Option.map_some, took.last]
    · rintro r ⟨rfl⟩
      exact took.subject.trans concerns.subject
    · rw [history_concat, sinceSent_concat, List.any_append, List.any_cons, List.any_nil,
        Bool.or_false, told]
      show turn.1.occurrences = _
      rw [took.occurrences, tracks.count]
      cases sent : turn.2.isSent with
      | true => simp
      | false =>
        simp only [Bool.false_eq_true, if_false, Bool.or_false]
        omega

/-- What becomes of a call, in terms of the calls before it alone. -/
theorem outcome_spec (concern : ∀ e ∈ before, Concerns d subject e)
    (concerns : Concerns d subject c) :
    ((outcome d db before c).isGrouped = true ↔ Follows before c) ∧
      ((outcome d db before c).isSent = true ↔ Delivers d before c) ∧
      ∀ m, outcome d db before c = .sent m → m.occurrences = sinceSent (history d db before) + 1 +
        if (history d db before).any (fun p => p.2.isSent) then 1 else 0 := by
  have tracks := tracks_after hd fresh concern
  obtain ⟨turn, took, told, -⟩ := took_outcome hd concerns rfl tracks
  rw [told]
  refine ⟨took.grouped.trans tracks.recent_iff, ?_, ?_⟩
  · rw [took.sent, tracks.recent_iff]
    rfl
  · intro m sent
    rw [took.counted m sent, tracks.count]
    omega

theorem exists_sent_iff (concern : ∀ e ∈ calls, Concerns d subject e) (timed : ℤ → Prop) :
    (∃ p ∈ history d db calls, p.2.isSent = true ∧ timed p.1) ↔
      ∃ pre p post, calls = pre ++ p :: post ∧ Delivers d pre p ∧ timed p.now := by
  have spec {pre post : List Call} {p : Call} (split : calls = pre ++ p :: post) :=
    (outcome_spec hd fresh (fun e he => concern e (split ▸ List.mem_append_left _ he))
      (concern p (by simp [split]))).2.1
  constructor
  · rintro ⟨x, hx, sent, time⟩
    obtain ⟨pre, p, post, split, rfl⟩ := mem_history.mp hx
    exact ⟨pre, p, post, split, (spec split).mp sent, time⟩
  · rintro ⟨pre, p, post, split, delivers, time⟩
    exact ⟨_, mem_history.mpr ⟨pre, p, post, split, rfl⟩, (spec split).mpr delivers, time⟩

theorem any_sent_iff (concern : ∀ e ∈ calls, Concerns d subject e) :
    (history d db calls).any (fun p => p.2.isSent) = true ↔
      ∃ pre p post, calls = pre ++ p :: post ∧ Delivers d pre p := by
  have sent := exists_sent_iff hd fresh concern fun _ => True
  simpa only [and_true, ← List.any_eq_true] using sent

/-- Grouping loses nothing exactly when at most one message goes out at all and no alert follows
another closely without following that message. -/
theorem lossless_iff (concern : ∀ c ∈ calls, Concerns d subject c) :
    Lossless d db calls ↔ Covered d calls := by
  refine forall_congr' fun before => forall_congr' fun c => forall_congr' fun rest => ?_
  refine forall_congr' fun split => ?_
  subst split
  have earlier : ∀ e ∈ before, Concerns d subject e :=
    fun e he => concern e (List.mem_append_left _ he)
  obtain ⟨grouped, sent, counted⟩ := outcome_spec hd fresh earlier (concern c (by simp))
  have near : (∃ p ∈ history d db before, p.2.isSent = true ∧ c.now - p.1 ≤ GROUPING_WINDOW_MS) ↔
      ∃ pre p post, before = pre ++ p :: post ∧ Delivers d pre p ∧
        c.now - p.now ≤ GROUPING_WINDOW_MS :=
    exists_sent_iff hd fresh earlier fun time => c.now - time ≤ GROUPING_WINDOW_MS
  refine and_congr (imp_congr grouped near) ⟨?_, ?_⟩
  · intro exact_count delivers pre p post split earlier_delivers
    obtain ⟨m, hm⟩ : ∃ m, outcome d db before c = .sent m := by
      have told := sent.mpr delivers
      cases told' : outcome d db before c with
      | sent m => exact ⟨m, rfl⟩
      | failed m | grouped | held | skipped => simp [told', Outcome.isSent] at told
    have some_sent := (any_sent_iff hd fresh earlier).mpr ⟨pre, p, post, split, earlier_delivers⟩
    have off_by_one := counted m hm
    rw [if_pos some_sent] at off_by_one
    have := exact_count m hm
    omega
  · intro only m hm
    have delivers := sent.mp (by rw [hm]; rfl)
    have none_sent : ¬(history d db before).any (fun p => p.2.isSent) = true := by
      rw [any_sent_iff hd fresh earlier]
      rintro ⟨pre, p, post, split, earlier_delivers⟩
      exact only delivers pre p post split earlier_delivers
    rw [counted m hm, if_neg none_sent]

end Run

def oncall : Destination :=
  ⟨"nd_1", "prj_1", "Payments", "oncall@example.com", .confirmed, [.endpointStopped]⟩

def oneDestination : Db where
  destinations := [oncall]
  nodup := List.nodup_singleton _
  dispatches := fun _ _ => none
  lastSentAt := fun _ => none
  lastError := fun _ => none

/-- An alert about the same endpoint after so many minutes, with a mailer that works. -/
def stopped (minutes : ℤ) : Call where
  input := ⟨"prj_1", .endpointStopped, "endpoint:ep_1:stopped", "Endpoint stopped", "", "/"⟩
  now := minutes * 60000
  mail := fun _ => .ok ()

theorem concerns_stopped (minutes : ℤ) :
    Concerns oncall "endpoint:ep_1:stopped" (stopped minutes) :=
  ⟨by simp [Call.addresses, stopped, oncall], rfl⟩

/-- An alert that recurs once within the window of its message is rightly grouped. -/
theorem recurrence_lossless :
    (outcome oncall oneDestination [stopped 0] (stopped 20)).isGrouped = true ∧
      Lossless oncall oneDestination [stopped 0, stopped 20] := by
  have told : Delivers oncall [] (stopped 0) :=
    ⟨fun ⟨p, hp, _⟩ => absurd hp (Option.not_mem_none p), .inl rfl, rfl⟩
  have follows : Follows [stopped 0] (stopped 20) := ⟨stopped 0, rfl, by decide⟩
  have concerns : ∀ c ∈ [stopped 0, stopped 20], Concerns oncall "endpoint:ep_1:stopped" c := by
    simp only [List.forall_mem_cons, List.not_mem_nil, false_imp_iff, implies_true, and_true]
    exact ⟨concerns_stopped 0, concerns_stopped 20⟩
  refine ⟨by decide +kernel, (lossless_iff (List.mem_singleton_self _) rfl concerns).mpr ?_⟩
  intro before c rest split
  match before, split with
  | [], split =>
    refine ⟨fun ⟨p, hp, _⟩ => absurd hp (Option.not_mem_none p), fun _ pre p post absent => ?_⟩
    simp at absent
  | [_], split =>
    obtain ⟨rfl, rfl, -⟩ : stopped 0 = _ ∧ stopped 20 = c ∧ [] = rest := by simpa using split
    exact ⟨fun _ => ⟨[], stopped 0, [], rfl, told, by decide⟩, fun again => absurd follows again.1⟩
  | _ :: _ :: _, split => simp at split

/-- The third alert is dropped forty minutes after the only message. -/
theorem recurring_alert_dropped : oncall ∈ oneDestination.destinations ∧
    oneDestination.dispatches oncall.id "endpoint:ep_1:stopped" = none ∧
    (∀ c ∈ [stopped 0, stopped 20, stopped 40], Concerns oncall "endpoint:ep_1:stopped" c) ∧
    ¬Lossless oncall oneDestination [stopped 0, stopped 20, stopped 40] := by
  refine ⟨List.mem_singleton_self _, rfl, ?_, ?_⟩
  · simp only [List.forall_mem_cons, List.not_mem_nil, false_imp_iff, implies_true, and_true]
    exact ⟨concerns_stopped 0, concerns_stopped 20, concerns_stopped 40⟩
  · intro lossless
    have dropped : (outcome oncall oneDestination [stopped 0, stopped 20] (stopped 40)).isGrouped =
        true := by decide +kernel
    obtain ⟨p, hp, sent, soon⟩ := (lossless [stopped 0, stopped 20] (stopped 40) [] rfl).1 dropped
    have long_ago : (history oncall oneDestination [stopped 0, stopped 20]).all (fun p =>
        !p.2.isSent || decide (GROUPING_WINDOW_MS < (stopped 40).now - p.1)) = true := by
      decide +kernel
    have := List.all_eq_true.mp long_ago p hp
    rw [sent, Bool.not_true, Bool.false_or, decide_eq_true_eq] at this
    omega

/-- And two messages in a row count the first alert twice. -/
example : ∃ m, outcome oncall oneDestination [stopped 0] (stopped 31) = .sent m ∧
    m.occurrences = 2 := ⟨_, rfl, rfl⟩

end Hookubit.Maintenance.AlertGrouping
