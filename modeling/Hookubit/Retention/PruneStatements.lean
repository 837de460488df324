/- sources: retention/sql.go TerminalStatuses, pruneAttemptsSQL, pruneDeliveriesSQL; retention/retention.go intervalOf
   digest: Deliveries with their attempts, and the two statements that prune them. -/

import Hookubit.Data.Rows
import Hookubit.Worker.StateMachine

set_option autoImplicit false
set_option relaxedAutoImplicit false

namespace Hookubit.Retention.PruneStatements

open Data.Rows Postgres.Clock
open Worker.StateMachine (State)

/-- The columns of a delivery that pruning reads and writes. -/
structure Delivery where
  id : String
  status : State
  createdAt : ℤ
  attemptsPrunedAt : Option ℤ
  deriving DecidableEq

structure Attempt where
  id : String
  deliveryId : String
  deriving DecidableEq

/-- The primary key of deliveries, and the foreign key of attempts. -/
structure Ledger where
  deliveries : List Delivery
  attempts : List Attempt
  nodup : (deliveries.map Delivery.id).Nodup
  owned : ∀ a ∈ attempts, a.deliveryId ∈ deliveries.map Delivery.id

def TerminalStatuses : List State := [.succeeded, .failed, .exhausted, .cancelled]

theorem contains_terminalStatuses (s : State) : TerminalStatuses.contains s = s.Terminal := by
  cases s <;> rfl

/-- `intervalOf`: whole seconds, towards zero. -/
def intervalOf (d : ℤ) : ℤ := d.tdiv second * second

theorem intervalOf_of_whole {d : ℤ} (whole : second ∣ d) : intervalOf d = d := by
  rw [intervalOf, Int.tdiv_mul_cancel whole]

def older (a b : Delivery) : Prop := a.createdAt ≤ b.createdAt

instance : DecidableRel older := fun a b => inferInstanceAs (Decidable (a.createdAt ≤ b.createdAt))

section Statements

variable (L : Ledger) (doomed : List String) (now : ℤ)

def setPruned (d : Delivery) : Option Delivery :=
  if d.id ∈ doomed then some { d with attemptsPrunedAt := some (timestamp3 now) } else none

variable {doomed now} in
theorem setPruned_id {d e : Delivery} (h : setPruned doomed now d = some e) : e.id = d.id := by
  rw [setPruned, Option.ite_none_right_eq_some] at h
  rw [← Option.some_injective _ h.2]

theorem map_id_setPruned :
    (updateWhere (setPruned doomed now) L.deliveries).map Delivery.id =
      L.deliveries.map Delivery.id :=
  map_updateWhere fun _ _ _ => setPruned_id

/-- Attempts of the deliveries that stay. -/
def surviving : List Attempt := L.attempts.filter fun a => a.deliveryId ∉ doomed

variable {L doomed} in
theorem mem_surviving {a : Attempt} :
    a ∈ surviving L doomed ↔ a ∈ L.attempts ∧ a.deliveryId ∉ doomed := by
  rw [surviving, List.mem_filter, decide_eq_true_eq]

theorem nodup_setPruned :
    ((updateWhere (setPruned doomed now) L.deliveries).map Delivery.id).Nodup :=
  (map_id_setPruned L doomed now).symm ▸ L.nodup

theorem owned_setPruned : ∀ a ∈ surviving L doomed,
    a.deliveryId ∈ (updateWhere (setPruned doomed now) L.deliveries).map Delivery.id := by
  intro a ha
  rw [map_id_setPruned]
  exact L.owned a (mem_surviving.mp ha).1

/-- The attempts of the doomed go, and each of the doomed says since when. -/
def mark : Ledger where
  deliveries := updateWhere (setPruned doomed now) L.deliveries
  attempts := surviving L doomed
  nodup := nodup_setPruned L doomed now
  owned := owned_setPruned L doomed now

def keptDeliveries : List Delivery := L.deliveries.filter fun d => d.id ∉ doomed

variable {L doomed} in
theorem mem_keptDeliveries {d : Delivery} :
    d ∈ keptDeliveries L doomed ↔ d ∈ L.deliveries ∧ d.id ∉ doomed := by
  rw [keptDeliveries, List.mem_filter, decide_eq_true_eq]

theorem nodup_keptDeliveries : ((keptDeliveries L doomed).map Delivery.id).Nodup :=
  L.nodup.sublist (List.filter_sublist.map _)

theorem owned_keptDeliveries : ∀ a ∈ surviving L doomed,
    a.deliveryId ∈ (keptDeliveries L doomed).map Delivery.id := by
  intro a ha
  obtain ⟨there, spared⟩ := mem_surviving.mp ha
  obtain ⟨d, hd, same⟩ := List.mem_map.mp (L.owned a there)
  exact List.mem_map.mpr ⟨d, mem_keptDeliveries.mpr ⟨hd, same ▸ spared⟩, same⟩

/-- The doomed go, and their attempts by `ON DELETE CASCADE`. -/
def remove : Ledger where
  deliveries := keptDeliveries L doomed
  attempts := surviving L doomed
  nodup := nodup_keptDeliveries L doomed
  owned := owned_keptDeliveries L doomed

variable (interval : ℤ) (limit : ℕ) (scan : List Delivery)

/-- The condition both statements share. -/
def expired (d : Delivery) : Bool :=
  TerminalStatuses.contains d.status && decide (d.createdAt < now - interval)

/-- The candidates of `pruneAttemptsSQL`, in the order in which the rows happen to be scanned. -/
def doomedToMark : List Delivery :=
  pick older (fun d => expired now interval d && d.attemptsPrunedAt.isNone) limit scan

def doomedToGo : List Delivery := pick older (expired now interval) limit scan

/-- The two counts, and the ledger after the statement. -/
def pruneAttemptsSQL : (ℕ × ℕ) × Ledger :=
  let ids := (doomedToMark now interval limit scan).map Delivery.id
  ((L.attempts.countP fun a => decide (a.deliveryId ∈ ids),
    L.deliveries.countP fun d => decide (d.id ∈ ids)), mark L ids now)

/-- The rows affected, and the ledger after the statement. -/
def pruneDeliveriesSQL : ℕ × Ledger :=
  let ids := (doomedToGo now interval limit scan).map Delivery.id
  (L.deliveries.countP fun d => decide (d.id ∈ ids), remove L ids)

end Statements

/-- What one statement did to the ledger, read off from the ledger before and after it. -/
structure Change where
  now : ℤ
  before : Ledger
  after : Ledger

namespace Change

variable (c : Change)

def deleted : List Delivery :=
  c.before.deliveries.filter fun d => d.id ∉ c.after.deliveries.map Delivery.id

def marked : List Delivery :=
  c.before.deliveries.filter fun d =>
    c.after.deliveries.any fun e => e.id = d.id ∧ e.attemptsPrunedAt ≠ d.attemptsPrunedAt

def lost : List Attempt := c.before.attempts.filter fun a => a ∉ c.after.attempts

/-- A change that touches nothing but what the two intervals allow, and only by pruning it. -/
structure Lawful (attemptInterval deliveryInterval : ℤ) : Prop where
  marked : ∀ d ∈ c.marked, d.status.Terminal = true ∧ d.createdAt < c.now - attemptInterval
  deleted : ∀ d ∈ c.deleted, d.status.Terminal = true ∧ d.createdAt < c.now - deliveryInterval
  lost : ∀ a ∈ c.lost, (∃ d ∈ c.marked, d.id = a.deliveryId) ∨ ∃ d ∈ c.deleted, d.id = a.deliveryId
  cleared : ∀ d ∈ c.marked, ∀ a ∈ c.after.attempts, a.deliveryId ≠ d.id
  fewer : c.after.attempts ⊆ c.before.attempts
  kept : ∀ r ∈ c.after.deliveries, ∃ d ∈ c.before.deliveries, d.id = r.id ∧ d.status = r.status ∧
    d.createdAt = r.createdAt ∧ (r.attemptsPrunedAt = none → d.attemptsPrunedAt = none)

end Change

section Effects

variable {L : Ledger} {now interval : ℤ} {limit : ℕ} {scan : List Delivery} {d : Delivery}

theorem expired_iff :
    expired now interval d = true ↔ d.status.Terminal = true ∧ d.createdAt < now - interval := by
  rw [expired, contains_terminalStatuses, Bool.and_eq_true, decide_eq_true_eq]

theorem of_mem_doomedToMark (h : d ∈ doomedToMark now interval limit scan) :
    d ∈ scan ∧ d.status.Terminal = true ∧ d.createdAt < now - interval ∧
      d.attemptsPrunedAt = none := by
  obtain ⟨there, ready⟩ := of_mem_pick h
  rw [Bool.and_eq_true, expired_iff, Option.isNone_iff_eq_none] at ready
  exact ⟨there, ready.1.1, ready.1.2, ready.2⟩

theorem of_mem_doomedToGo (h : d ∈ doomedToGo now interval limit scan) :
    d ∈ scan ∧ d.status.Terminal = true ∧ d.createdAt < now - interval := by
  obtain ⟨there, ready⟩ := of_mem_pick h
  exact ⟨there, expired_iff.mp ready⟩

theorem mem_of_id_mem {doomed : List Delivery} (sub : doomed ⊆ L.deliveries) (hd : d ∈ L.deliveries)
    (named : d.id ∈ doomed.map Delivery.id) : d ∈ doomed := by
  obtain ⟨e, he, same⟩ := List.mem_map.mp named
  rwa [← List.inj_on_of_nodup_map L.nodup (sub he) hd same]

theorem mem_mark {doomed : List String} {r : Delivery} :
    r ∈ (mark L doomed now).deliveries ↔ (r ∈ L.deliveries ∧ r.id ∉ doomed) ∨
      ∃ d ∈ L.deliveries, d.id ∈ doomed ∧
        { d with attemptsPrunedAt := some (timestamp3 now) } = r :=
  mem_updateWhere_ite

variable {doomed : List Delivery}

theorem marked_mark (sub : doomed ⊆ L.deliveries)
    (fresh : ∀ d ∈ doomed, d.attemptsPrunedAt = none) :
    (Change.mk now L (mark L (doomed.map Delivery.id) now)).marked =
      L.deliveries.filter fun d => d.id ∈ doomed.map Delivery.id := by
  apply List.filter_congr
  intro d hd
  rw [Bool.eq_iff_iff, List.any_eq_true]
  simp only [decide_eq_true_eq]
  constructor
  · rintro ⟨e, he, same, differs⟩
    obtain ⟨there, spared⟩ | ⟨f, hf, named, rfl⟩ := mem_mark.mp he
    · exact absurd (congrArg _ (List.inj_on_of_nodup_map L.nodup there hd same)) differs
    · exact same ▸ named
  · intro named
    refine ⟨_, mem_mark.mpr (.inr ⟨d, hd, named, rfl⟩), rfl, ?_⟩
    rw [fresh d (mem_of_id_mem sub hd named)]
    exact Option.some_ne_none _

theorem deleted_mark (ids : List String) : (Change.mk now L (mark L ids now)).deleted = [] := by
  apply List.filter_eq_nil_iff.mpr
  intro d hd
  have still : d.id ∈ (mark L ids now).deliveries.map Delivery.id := by
    rw [mark, map_id_setPruned]
    exact List.mem_map_of_mem hd
  simpa using still

theorem deleted_remove (ids : List String) :
    (Change.mk now L (remove L ids)).deleted = L.deliveries.filter fun d => d.id ∈ ids := by
  apply List.filter_congr
  intro d hd
  rw [Bool.eq_iff_iff, decide_eq_true_eq, decide_eq_true_eq, List.mem_map]
  constructor
  · intro gone
    by_contra spared
    exact gone ⟨d, mem_keptDeliveries.mpr ⟨hd, spared⟩, rfl⟩
  · rintro named ⟨e, he, same⟩
    exact (mem_keptDeliveries.mp he).2 (same ▸ named)

theorem marked_of_subset {c : Change} (kept : c.after.deliveries ⊆ c.before.deliveries) :
    c.marked = [] := by
  apply List.filter_eq_nil_iff.mpr
  intro d hd
  rw [List.any_eq_true]
  rintro ⟨e, he, changed⟩
  obtain ⟨same, differs⟩ := of_decide_eq_true changed
  exact differs (congrArg _ (List.inj_on_of_nodup_map c.before.nodup (kept he) hd same))

theorem marked_remove (ids : List String) : (Change.mk now L (remove L ids)).marked = [] :=
  marked_of_subset fun _ he => (mem_keptDeliveries.mp he).1

theorem lost_of_surviving {c : Change} {ids : List String}
    (h : c.after.attempts = surviving c.before ids)
    {a : Attempt} (ha : a ∈ c.lost) : a ∈ c.before.attempts ∧ a.deliveryId ∈ ids := by
  obtain ⟨there, gone⟩ := List.mem_filter.mp ha
  rw [decide_eq_true_eq, h, mem_surviving, not_and, not_not] at gone
  exact ⟨there, gone there⟩

theorem exists_owner (sub : doomed ⊆ L.deliveries) {a : Attempt}
    (named : a.deliveryId ∈ doomed.map Delivery.id) :
    ∃ d ∈ L.deliveries.filter (fun d => d.id ∈ doomed.map Delivery.id), d.id = a.deliveryId := by
  obtain ⟨d, hd, same⟩ := List.mem_map.mp named
  refine ⟨d, List.mem_filter.mpr ⟨sub hd, decide_eq_true ?_⟩, same⟩
  exact List.mem_map_of_mem hd

theorem marked_refl : (Change.mk now L L).marked = [] :=
  marked_of_subset (List.Subset.refl _)

theorem deleted_refl : (Change.mk now L L).deleted = [] := by
  apply List.filter_eq_nil_iff.mpr
  intro d hd
  have still : d.id ∈ L.deliveries.map Delivery.id := List.mem_map_of_mem hd
  simpa using still

theorem lawful_refl (attemptInterval deliveryInterval : ℤ) :
    (Change.mk now L L).Lawful attemptInterval deliveryInterval where
  marked := by
    rw [marked_refl]
    exact List.forall_mem_nil _
  deleted := by
    rw [deleted_refl]
    exact List.forall_mem_nil _
  lost := by
    intro a ha
    obtain ⟨there, gone⟩ := List.mem_filter.mp ha
    exact absurd there (of_decide_eq_true gone)
  cleared := by
    rw [marked_refl]
    exact List.forall_mem_nil _
  fewer := fun _ => id
  kept := fun r hr => ⟨r, hr, rfl, rfl, rfl, id⟩

theorem lawful_mark (deliveryInterval : ℤ) (sub : doomed ⊆ L.deliveries)
    (due : ∀ d ∈ doomed, d.status.Terminal = true ∧ d.createdAt < now - interval ∧
      d.attemptsPrunedAt = none) :
    (Change.mk now L (mark L (doomed.map Delivery.id) now)).Lawful interval deliveryInterval where
  marked := by
    rw [marked_mark sub fun d hd => (due d hd).2.2]
    intro d hd
    obtain ⟨there, named⟩ := List.mem_filter.mp hd
    have picked := due d (mem_of_id_mem sub there (of_decide_eq_true named))
    exact ⟨picked.1, picked.2.1⟩
  deleted := by
    rw [deleted_mark]
    exact List.forall_mem_nil _
  lost := by
    rw [marked_mark sub fun d hd => (due d hd).2.2]
    intro a ha
    exact .inl (exists_owner sub (lost_of_surviving rfl ha).2)
  cleared := by
    rw [marked_mark sub fun d hd => (due d hd).2.2]
    intro d hd a ha same
    have named := of_decide_eq_true (List.mem_filter.mp hd).2
    exact (mem_surviving.mp ha).2 (same ▸ named)
  fewer := fun a ha => (mem_surviving.mp ha).1
  kept := by
    intro r hr
    obtain ⟨there, -⟩ | ⟨d, hd, -, rfl⟩ := mem_mark.mp hr
    · exact ⟨r, there, rfl, rfl, rfl, id⟩
    · exact ⟨d, hd, rfl, rfl, rfl, fun unmarked => absurd unmarked (Option.some_ne_none _)⟩

theorem lawful_remove (attemptInterval : ℤ) (sub : doomed ⊆ L.deliveries)
    (due : ∀ d ∈ doomed, d.status.Terminal = true ∧ d.createdAt < now - interval) :
    (Change.mk now L (remove L (doomed.map Delivery.id))).Lawful attemptInterval interval where
  marked := by
    rw [marked_remove]
    exact List.forall_mem_nil _
  deleted := by
    rw [deleted_remove]
    intro d hd
    obtain ⟨there, named⟩ := List.mem_filter.mp hd
    exact due d (mem_of_id_mem sub there (of_decide_eq_true named))
  lost := by
    rw [deleted_remove]
    intro a ha
    exact .inr (exists_owner sub (lost_of_surviving rfl ha).2)
  cleared := by
    rw [marked_remove]
    exact List.forall_mem_nil _
  fewer := fun a ha => (mem_surviving.mp ha).1
  kept := fun r hr => ⟨r, (mem_keptDeliveries.mp hr).1, rfl, rfl, rfl, id⟩

def Change.touched (c : Change) : ℕ := c.marked.length + c.deleted.length

theorem touched_refl : (Change.mk now L L).touched = 0 := by
  rw [Change.touched, marked_refl, deleted_refl]
  rfl

theorem pruneAttemptsSQL_spec (deliveryInterval : ℤ) (seen : scan.Perm L.deliveries) :
    let done := pruneAttemptsSQL L now interval limit scan
    (Change.mk now L done.2).Lawful interval deliveryInterval ∧
      (Change.mk now L done.2).touched = done.1.2 ∧ done.1.2 ≤ limit ∧
      (done.1.2 < limit → ∀ d ∈ done.2.deliveries, d.status.Terminal = true →
        d.createdAt < now - interval → d.attemptsPrunedAt ≠ none) := by
  intro done
  have sub : doomedToMark now interval limit scan ⊆ L.deliveries := by
    intro d hd
    exact seen.subset (of_mem_doomedToMark hd).1
  have due : ∀ d ∈ doomedToMark now interval limit scan, d.status.Terminal = true ∧
      d.createdAt < now - interval ∧ d.attemptsPrunedAt = none := by
    intro d hd
    exact (of_mem_doomedToMark hd).2
  have distinct : (doomedToMark now interval limit scan).Nodup :=
    nodup_pick (seen.nodup_iff.mpr L.nodup.of_map)
  have counted : done.1.2 = (doomedToMark now interval limit scan).length :=
    countP_key_mem L.nodup sub distinct
  refine ⟨lawful_mark deliveryInterval sub due, ?_, ?_, ?_⟩
  · show (Change.mk now L (mark L _ now)).marked.length +
      (Change.mk now L (mark L _ now)).deleted.length = _
    rw [deleted_mark, marked_mark sub fun d hd => (due d hd).2.2, ← List.countP_eq_length_filter]
    rfl
  · rw [counted, doomedToMark, length_pick]
    exact min_le_left _ _
  · intro short d hd terminal old unmarked
    rw [counted] at short
    obtain ⟨there, spared⟩ | ⟨e, he, -, rfl⟩ := mem_mark.mp hd
    · refine spared (List.mem_map_of_mem (mem_pick_of_length_lt short (seen.mem_iff.mpr there) ?_))
      simp [expired_iff.mpr ⟨terminal, old⟩, unmarked]
    · exact Option.some_ne_none _ unmarked

theorem pruneDeliveriesSQL_spec (attemptInterval : ℤ) (seen : scan.Perm L.deliveries) :
    let done := pruneDeliveriesSQL L now interval limit scan
    (Change.mk now L done.2).Lawful attemptInterval interval ∧
      (Change.mk now L done.2).touched = done.1 ∧ done.1 ≤ limit ∧
      (done.1 < limit → ∀ d ∈ done.2.deliveries, d.status.Terminal = true →
        ¬d.createdAt < now - interval) := by
  intro done
  have sub : doomedToGo now interval limit scan ⊆ L.deliveries := by
    intro d hd
    exact seen.subset (of_mem_doomedToGo hd).1
  have distinct : (doomedToGo now interval limit scan).Nodup :=
    nodup_pick (seen.nodup_iff.mpr L.nodup.of_map)
  have counted : done.1 = (doomedToGo now interval limit scan).length :=
    countP_key_mem L.nodup sub distinct
  refine ⟨lawful_remove attemptInterval sub fun d hd => (of_mem_doomedToGo hd).2, ?_, ?_, ?_⟩
  · show (Change.mk now L (remove L _)).marked.length +
      (Change.mk now L (remove L _)).deleted.length = _
    rw [deleted_remove, marked_remove, ← List.countP_eq_length_filter, List.length_nil,
      Nat.zero_add]
    rfl
  · rw [counted, doomedToGo, length_pick]
    exact min_le_left _ _
  · intro short d hd terminal old
    rw [counted] at short
    obtain ⟨there, spared⟩ := mem_keptDeliveries.mp hd
    exact spared (List.mem_map_of_mem (mem_pick_of_length_lt short (seen.mem_iff.mpr there)
      (expired_iff.mpr ⟨terminal, old⟩)))

end Effects

end Hookubit.Retention.PruneStatements
