/- sources: queue/lease.go (Track, RenewOnce, Abandon)
   digest: The lease keeper's map over any interleaving of attempts: when each one stays tracked. -/

import Hookubit.Automata.LabelledSystem
import Mathlib.Data.List.AList

/-!
A critical section and the cancellation that follows it are one step; a renewal round is one
step that reads the map and one for each id that the queue reports lost.
-/

set_option autoImplicit false
set_option relaxedAutoImplicit false

namespace Hookubit.Queue.LeaseKeeper

open Automata.LabelledSystem

/-- One call of `Track`: its delivery, and what became of the context it returned. -/
structure Attempt (Id : Type) where
  deliveryID : Id
  done : Bool
  cancelled : Bool
  deriving DecidableEq

/-- The keeper's map names the attempt whose context the stored function cancels. -/
structure Keeper (Id : Type) [DecidableEq Id] where
  tracked : AList fun _ : Id => ℕ
  attempts : ℕ → Option (Attempt Id)
  renewing : List Id

variable {Id : Type} [DecidableEq Id]

def NewLeaseKeeper : Keeper Id := ⟨∅, fun _ => none, []⟩

inductive Event (Id : Type)
  | track (attempt : ℕ) (deliveryID : Id)
  | done (attempt : ℕ)
  | collect
  | abandon (deliveryID : Id)

def Keeper.ids (k : Keeper Id) : List Id := k.tracked.keys

def Track (k : Keeper Id) (a : ℕ) (deliveryID : Id) : Keeper Id :=
  { k with
    tracked := k.tracked.insert deliveryID a
    attempts := Function.update k.attempts a (some ⟨deliveryID, false, false⟩) }

/-- The entry of a delivery deleted, and the context of attempt `a` cancelled. -/
def Keeper.release (k : Keeper Id) (deliveryID : Id) (a : ℕ) (ended : Option (Attempt Id)) :
    Keeper Id :=
  { k with
    tracked := k.tracked.erase deliveryID
    attempts := Function.update k.attempts a ended }

/-- The function that `Track` returned; its body runs once. -/
def finish (k : Keeper Id) (a : ℕ) (attempt : Attempt Id) : Keeper Id :=
  if attempt.done then k
  else k.release attempt.deliveryID a (some { attempt with done := true, cancelled := true })

def Abandon (k : Keeper Id) (deliveryID : Id) : Keeper Id :=
  match k.tracked.lookup deliveryID with
  | none => k
  | some a => k.release deliveryID a ((k.attempts a).map ({ · with cancelled := true }))

/-- A fresh number for each `Track`; a round abandons only ids that it has sent. -/
def next (k : Keeper Id) : Event Id → Option (Keeper Id)
  | .track a deliveryID =>
    match k.attempts a with
    | none => some (Track k a deliveryID)
    | some _ => none
  | .done a => (k.attempts a).map (finish k a)
  | .collect => some { k with renewing := k.ids ++ k.renewing }
  | .abandon deliveryID => if deliveryID ∈ k.renewing then some (Abandon k deliveryID) else none

/-- Attempt `a` on a delivery is running: not done, and not cancelled by the keeper. -/
def Keeper.Live (k : Keeper Id) (a : ℕ) (deliveryID : Id) : Prop :=
  k.attempts a = some ⟨deliveryID, false, false⟩

/-- A renewal round begun now includes every running attempt. -/
def Keeper.AllTracked (k : Keeper Id) : Prop :=
  ∀ a deliveryID, k.Live a deliveryID → deliveryID ∈ k.ids

/-- Nothing that the keeper holds for a running attempt other than `a` has changed. -/
def Unaffected (a : ℕ) (k l : Keeper Id) : Prop :=
  ∀ b deliveryID, b ≠ a → k.Live b deliveryID →
    l.Live b deliveryID ∧ l.tracked.lookup deliveryID = k.tracked.lookup deliveryID

/-- Every running attempt is tracked, and a done function is about its own attempt only. -/
def Keeps (k : Keeper Id) (e : Event Id) (l : Keeper Id) : Prop :=
  l.AllTracked ∧ ∀ a, e = .done a → Unaffected a k l

/-- No other attempt on the same delivery is running. -/
def Keeper.Alone (k : Keeper Id) (a : ℕ) (deliveryID : Id) : Prop :=
  ∀ b, b ≠ a → ¬ k.Live b deliveryID

/-- What ends an attempt finds no other one of its delivery running: the first call of its done
function, even one that comes late, or a lost lease. -/
def Apart (k : Keeper Id) : Event Id → Prop
  | .done a => ∀ attempt, k.attempts a = some attempt → attempt.done = false →
      k.Alone a attempt.deliveryID
  | .abandon deliveryID => ∀ a, k.tracked.lookup deliveryID = some a → k.Alone a deliveryID
  | _ => True

section Release

variable {k : Keeper Id} {gone : Id} {a : ℕ} {ended : Option (Attempt Id)}
  (cancelled : ∀ attempt ∈ ended, attempt.cancelled = true)

include cancelled

theorem live_release_iff (b : ℕ) (deliveryID : Id) :
    (k.release gone a ended).Live b deliveryID ↔ b ≠ a ∧ k.Live b deliveryID := by
  simp only [Keeper.Live, Keeper.release]
  by_cases same : b = a
  · subst same
    rw [Function.update_self]
    refine iff_of_false (fun running => ?_) (fun both => both.1 rfl)
    cases cancelled _ running
  · rw [Function.update_of_ne same]
    exact ⟨fun live => ⟨same, live⟩, And.right⟩

/-- What ends an attempt takes the entry of its delivery away, whoever made the entry. -/
theorem allTracked_release_iff (tracked : k.AllTracked) :
    (k.release gone a ended).AllTracked ↔ k.Alone a gone := by
  have entries : ∀ deliveryID, deliveryID ∈ (k.release gone a ended).ids ↔
      deliveryID ≠ gone ∧ deliveryID ∈ k.ids := by
    intro deliveryID
    rw [Keeper.ids, Keeper.release, ← AList.mem_keys, AList.mem_erase, Keeper.ids, AList.mem_keys]
  constructor
  · intro kept b ne live
    have present := kept b gone ((live_release_iff cancelled b gone).mpr ⟨ne, live⟩)
    exact ((entries gone).mp present).1 rfl
  · intro alone b deliveryID live
    obtain ⟨ne, before⟩ := (live_release_iff cancelled b deliveryID).mp live
    refine (entries deliveryID).mpr ⟨?_, tracked b deliveryID before⟩
    rintro rfl
    exact alone b ne before

theorem unaffected_release (alone : k.Alone a gone) : Unaffected a k (k.release gone a ended) := by
  intro b deliveryID ne live
  refine ⟨(live_release_iff cancelled b deliveryID).mpr ⟨ne, live⟩, AList.lookup_erase_ne ?_⟩
  rintro rfl
  exact alone b ne live

end Release

theorem allTracked_track {k : Keeper Id} (tracked : k.AllTracked) (a : ℕ) (deliveryID : Id) :
    (Track k a deliveryID).AllTracked := by
  intro b other live
  rw [Keeper.ids, ← AList.mem_keys, Track, AList.mem_insert, AList.mem_keys]
  by_cases same : b = a
  · subst same
    left
    simpa [Keeper.Live, Track, eq_comm] using live
  · right
    exact tracked b other (by simpa [Keeper.Live, Track, same] using live)

theorem keeps_done_iff {k : Keeper Id} {a : ℕ} {attempt : Attempt Id} (tracked : k.AllTracked) :
    Keeps k (.done a) (finish k a attempt) ↔
      (attempt.done = false → k.Alone a attempt.deliveryID) := by
  cases again : attempt.done with
  | true =>
    rw [finish, if_pos again]
    exact iff_of_true ⟨tracked, fun _ _ _ _ _ live => ⟨live, rfl⟩⟩ (by simp)
  | false =>
    have cancelled : ∀ ended ∈ some { attempt with done := true, cancelled := true },
        ended.cancelled = true := by simp
    rw [finish, if_neg (by simp [again]), imp_iff_right rfl, Keeps,
      allTracked_release_iff cancelled tracked]
    refine and_iff_left_of_imp fun alone a' same => ?_
    obtain rfl : a = a' := by simpa using same
    exact unaffected_release cancelled alone

theorem keeps_iff_apart (k : Keeper Id) (e : Event Id) (l : Keeper Id) (tracked : k.AllTracked)
    (edge : next k e = some l) : Keeps k e l ↔ Apart k e := by
  cases e with
  | track a deliveryID =>
    simp only [next] at edge
    split at edge
    · obtain rfl := Option.some.inj edge
      exact iff_of_true ⟨allTracked_track tracked a deliveryID, by simp⟩ trivial
    · cases edge
  | done a =>
    obtain ⟨attempt, recorded, rfl⟩ := Option.map_eq_some_iff.mp edge
    simp only [keeps_done_iff tracked, Apart, recorded, Option.some.injEq, forall_eq']
  | collect =>
    obtain rfl := Option.some.inj edge
    exact iff_of_true ⟨tracked, by simp⟩ trivial
  | abandon deliveryID =>
    obtain ⟨-, edge⟩ := Option.ite_none_right_eq_some.mp edge
    obtain rfl := Option.some.inj edge
    cases entry : k.tracked.lookup deliveryID with
    | none =>
      have same : Abandon k deliveryID = k := by simp [Abandon, entry]
      rw [same]
      exact iff_of_true ⟨tracked, by simp⟩ (by simp [Apart, entry])
    | some a =>
      simp only [Keeps, Apart, entry, reduceCtorEq, false_imp_iff, forall_const, and_true,
        Option.some.injEq, forall_eq']
      rw [Abandon, entry]
      exact allTracked_release_iff (by simp) tracked

/-- Over every interleaving the keeper tracks all running attempts, and a done function is about
its own attempt, exactly if no attempt ends while another one of its delivery runs. -/
theorem keeper_tracks_iff (events : List (Event Id)) :
    Along next Keeps NewLeaseKeeper events ↔
      Along next (fun k e _ => Apart k e) NewLeaseKeeper events := by
  have start : (NewLeaseKeeper : Keeper Id).AllTracked := by
    intro a deliveryID live
    cases live
  exact along_iff keeps_iff_apart (fun _ _ _ keeps => keeps.1) start events

/-- A lost lease, a second attempt on the delivery, and the first one's deferred done function:
the second attempt runs on without being renewed. -/
theorem late_done_untracks_next_attempt :
    (execute next (NewLeaseKeeper : Keeper ℕ)
        [.track 0 7, .collect, .abandon 7, .track 1 7, .done 0]).any
      (fun k => k.attempts 1 = some ⟨7, false, false⟩ ∧ k.ids = []) = true := by
  decide

end Hookubit.Queue.LeaseKeeper
