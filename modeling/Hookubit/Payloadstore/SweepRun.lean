/- sources: payloadstore/reconcile.go Reconcile
   digest: One whole sweep of a bucket that nothing else changes, and exactly what it deletes. -/

import Hookubit.Automata.BoundedRun
import Hookubit.Data.BoundedScan
import Hookubit.Payloadstore.Reconcile

set_option autoImplicit false
set_option relaxedAutoImplicit false

namespace Hookubit.Payloadstore.SweepRun

open Automata.BoundedRun
open Data.BoundedScan (taken)
open Data.KeysetPage Payloadstore.Keys Payloadstore.Reconcile

section Sweep

variable (cfg : Config) (referenced : Text → Bool)

/-- The answer that the sweep waits for, when the store and the database give it. -/
def respond : Pass × List Object → Pass × List Object
  | (p, objects) =>
      match p.stage with
      | .listing =>
          (p.listed (some (ListObjectsV2 cfg.bucket (cfg.keyPrefix ++ ['/']) p.token objects)),
            objects)
      | .examining => (p.examine cfg, objects)
      | .looking o eventID => (p.lookedUp o eventID (some (referenced eventID)), objects)
      | .deleting o _ => (p.deleted true, Delete (Location cfg.bucket o.key) objects)
      | .returned => (p, objects)

/-- More answers than a sweep waits for. -/
def patience (objects : List Object) : ℕ := 5 * objects.length + 2

def Reconcile (opts : ReconcileOptions) (now : ℤ) (objects : List Object) : Pass × List Object :=
  (respond cfg referenced)^[patience objects] (Pass.start opts now, objects)

/-- Whether a sweep with this cutoff deletes the object once it gets to it. -/
def deletable (cutoff : ℤ) (o : Object) : Bool :=
  match ParseKey cfg.keyPrefix o.key with
  | none => false
  | some parsed =>
      decide (age parsed.createdAt o.lastModified ≤ cutoff) && !referenced parsed.eventID

def isListed (o : Object) : Bool :=
  o.bucket = cfg.bucket && (cfg.keyPrefix ++ ['/']).isPrefixOf o.key

def listing (objects : List Object) : List Object :=
  ordered Object.key (objects.filter (isListed cfg))

/-- How many keys a sweep looks at: the budget, filled up to whole pages. -/
def reach (maxKeys : ℕ) : ℕ := pageSize * ((maxKeys + (pageSize - 1)) / pageSize)

end Sweep

section Listing

variable {cfg : Config} {referenced : Text → Bool} {objects : List Object}

/-- One object stands under each key of the bucket. -/
def Distinct (objects : List Object) : Prop :=
  (objects.map fun o => (⟨o.bucket, o.key⟩ : Ref)).Nodup

theorem Distinct.filter (distinct : Distinct objects) (q : Object → Bool) :
    Distinct (objects.filter q) :=
  distinct.sublist (List.filter_sublist.map _)

theorem Distinct.keys_nodup (distinct : Distinct objects) :
    ((objects.filter (isListed cfg)).map Object.key).Nodup := by
  have refs : (objects.filter (isListed cfg)).map (fun o => (⟨o.bucket, o.key⟩ : Ref)) =
      ((objects.filter (isListed cfg)).map Object.key).map (Ref.mk cfg.bucket) := by
    rw [List.map_map]
    apply List.map_congr_left
    intro o ho
    have here : o.bucket = cfg.bucket := by
      have := (List.mem_filter.mp ho).2
      simp only [isListed, Bool.and_eq_true, decide_eq_true_eq] at this
      exact this.1
    simp [here]
  have nodup := distinct.filter (isListed cfg)
  rw [Distinct, refs] at nodup
  exact nodup.of_map

theorem listing_strict (distinct : Distinct objects) :
    (listing cfg objects).Pairwise fun a b => a.key < b.key :=
  ordered_strict distinct.keys_nodup

theorem mem_listing {o : Object} :
    o ∈ listing cfg objects ↔ o ∈ objects ∧ isListed cfg o = true := by
  rw [listing, mem_ordered, List.mem_filter]

theorem listing_filter (distinct : Distinct objects) (q : Object → Bool) :
    listing cfg (objects.filter q) = (listing cfg objects).filter q := by
  have same : (objects.filter q).filter (isListed cfg) =
      (objects.filter (isListed cfg)).filter q := by
    simp only [List.filter_filter, Bool.and_comm]
  rw [listing, listing, same, ordered_filter distinct.keys_nodup]

theorem next_page (distinct : Distinct objects) {done later gone : List Object}
    (all : listing cfg objects = done ++ later) (sub : gone ⊆ done) :
    ListObjectsV2 cfg.bucket (cfg.keyPrefix ++ ['/']) (done.getLast?.map Object.key)
      (objects.filter (· ∉ gone)) = (later.take pageSize, decide (pageSize < later.length)) := by
  have strict : (listing cfg objects).Pairwise fun a b => a.key < b.key := listing_strict distinct
  rw [all, List.pairwise_append] at strict
  obtain ⟨front, back, apart⟩ := strict
  have kept : later.filter (· ∉ gone) = later := by
    apply List.filter_eq_self.mpr
    intro o ho
    have other : o ∉ gone := fun h => (apart o (sub h) o ho).false
    simpa using other
  have whole : listing cfg (objects.filter (· ∉ gone)) = done.filter (· ∉ gone) ++ later := by
    rw [listing_filter distinct, all, List.filter_append, kept]
  obtain rfl | ⟨init, last, rfl⟩ := done.eq_nil_or_concat'
  · exact congrArg (fun rest => (rest.take pageSize, decide (pageSize < rest.length))) whole
  · have low : ∀ o ∈ (init ++ [last]).filter (· ∉ gone), ¬last.key < o.key := by
      intro o ho
      obtain early | same := List.mem_append.mp (List.mem_filter.mp ho).1
      · exact ((List.pairwise_append.mp front).2.2 o early last (List.mem_singleton_self _)).asymm
      · rw [List.mem_singleton.mp same]
        exact lt_irrefl _
    have high : ∀ o ∈ later, last.key < o.key := apart last (by simp)
    have rest : beyond Object.key (listing cfg (objects.filter (· ∉ gone))) last.key = later := by
      rw [whole]
      generalize (init ++ [last]).filter (· ∉ gone) = old at low ⊢
      simp only [beyond, List.filter_append]
      rw [List.filter_eq_nil_iff.mpr fun o ho => by simpa using low o ho,
        List.filter_eq_self.mpr fun o ho => by simpa using high o ho, List.nil_append]
    rw [List.getLast?_concat, Option.map_some]
    exact congrArg (fun rest => (rest.take pageSize, decide (pageSize < rest.length))) rest

theorem delete_listed (distinct : Distinct objects) {o : Object} (inside : o ∈ listing cfg objects)
    (gone : List Object) : Delete (Location cfg.bucket o.key) (objects.filter (· ∉ gone)) =
      objects.filter (· ∉ gone ++ [o]) := by
  obtain ⟨member, listed⟩ := mem_listing.mp inside
  simp only [isListed, Bool.and_eq_true, decide_eq_true_eq, List.isPrefixOf_iff_prefix] at listed
  obtain ⟨bucket, tail, spelled⟩ := listed
  have keyed : o.key ≠ [] := by
    rw [← spelled]
    simp
  rw [delete_location cfg keyed, DeleteObject, List.filter_filter]
  apply List.filter_congr
  intro x hx
  have only : x.isAt ⟨cfg.bucket, o.key⟩ = true ↔ x = o := by
    rw [isAt_iff, ← bucket]
    exact ⟨fun same => List.inj_on_of_nodup_map distinct hx member same, fun same => by rw [same]⟩
  rw [Bool.eq_iff_iff]
  simp [← only]
  tauto

end Listing

section Objects

variable (cfg : Config) (referenced : Text → Bool) (b : Pass) (objects : List Object)

/-- What is left once the first objects of the listing have been dealt with. -/
def remaining (done : List Object) : List Object :=
  objects.filter (· ∉ done.filter (deletable cfg referenced b.cutoff))

/-- What a sweep that began as `b` reports and leaves, with some objects behind it. -/
structure Progress (done : List Object) (r : ReconcileReport) (current : List Object) : Prop where
  examined : r.examined = done.length
  deleted : r.deleted = (done.filter (deletable cfg referenced b.cutoff)).length
  left : current = remaining cfg referenced b objects done
  below : r.deleted < b.maxDeletes

/-- A sweep in the middle of a page: what it has behind it and what comes after the page. -/
structure Midway (done later : List Object) (p : Pass) (current : List Object) : Prop
    extends Progress cfg referenced b objects done p.report current where
  cutoff : p.cutoff = b.cutoff
  maxDeletes : p.maxDeletes = b.maxDeletes
  maxKeys : p.maxKeys = b.maxKeys
  all : listing cfg objects = done ++ (p.page ++ later)
  more : p.truncated = !later.isEmpty
  token : p.token = (done ++ p.page).getLast?.map Object.key
  cursor : later ≠ [] → ∃ o, (done ++ p.page).getLast? = some o

variable {cfg referenced b objects} {done later rest current : List Object} {p : Pass} {o : Object}

theorem delete_remaining (distinct : Distinct objects)
    (all : listing cfg objects = done ++ (o :: rest))
    (goes : deletable cfg referenced b.cutoff o = true) :
    Delete (Location cfg.bucket o.key) (remaining cfg referenced b objects done) =
      remaining cfg referenced b objects (done ++ [o]) := by
  have inside : o ∈ listing cfg objects := by simp [all]
  rw [remaining, delete_listed distinct inside, remaining, List.filter_append,
    List.filter_cons_of_pos goes, List.filter_nil]

theorem Midway.advance (m : Midway cfg referenced b objects done later p current)
    (page : p.page = o :: rest) {r : ReconcileReport} {current' : List Object}
    (progress : Progress cfg referenced b objects (done ++ [o]) r current') :
    Midway cfg referenced b objects (done ++ [o]) later
      { p with page := rest, report := r, stage := .examining } current' where
  toProgress := progress
  cutoff := m.cutoff
  maxDeletes := m.maxDeletes
  maxKeys := m.maxKeys
  all := by rw [m.all, page, List.append_assoc]; rfl
  more := m.more
  token := by rw [m.token, page, List.append_assoc]; rfl
  cursor := by rw [List.append_assoc, List.singleton_append, ← page]; exact m.cursor

theorem Progress.keep {r r' : ReconcileReport}
    (m : Progress cfg referenced b objects done r current)
    (stays : deletable cfg referenced b.cutoff o = false)
    (examined : r'.examined = r.examined + 1) (deleted : r'.deleted = r.deleted) :
    Progress cfg referenced b objects (done ++ [o]) r' current where
  examined := by rw [examined, m.examined, List.length_append]; rfl
  deleted := by simp [deleted, m.deleted, List.filter_append, stays]
  left := by rw [m.left, remaining, remaining, List.filter_append]; simp [stays]
  below := deleted.symm ▸ m.below

theorem Progress.remove {r r' : ReconcileReport} (distinct : Distinct objects)
    (m : Progress cfg referenced b objects done r current)
    (all : listing cfg objects = done ++ (o :: rest))
    (goes : deletable cfg referenced b.cutoff o = true)
    (examined : r'.examined = r.examined + 1) (deleted : r'.deleted = r.deleted + 1)
    (below : r'.deleted < b.maxDeletes) :
    Progress cfg referenced b objects (done ++ [o]) r'
      (Delete (Location cfg.bucket o.key) current) where
  examined := by rw [examined, m.examined, List.length_append]; rfl
  deleted := by simp [deleted, m.deleted, List.filter_append, goes]
  left := by rw [m.left, delete_remaining distinct all goes]
  below := below

/-- One object takes three answers at most, and the sweep goes on unless it was the last
deletion allowed. -/
theorem Midway.object (distinct : Distinct objects)
    (m : Midway cfg referenced b objects done later p current) (page : p.page = o :: rest)
    (waiting : p.stage = .examining) :
    ∃ p' current', Within (respond cfg referenced) 3 (p, current) (p', current') ∧
      (p'.stage = .examining ∧ p'.page = rest ∧
          Midway cfg referenced b objects (done ++ [o]) later p' current' ∨
        p'.stage = .returned ∧ current' = remaining cfg referenced b objects (done ++ [o]) ∧
          ((done ++ [o]).filter (deletable cfg referenced b.cutoff)).length = b.maxDeletes) := by
  have first : Within (respond cfg referenced) 1 (p, current) (p.examine cfg, current) := by
    have answer : respond cfg referenced (p, current) = (p.examine cfg, current) := by
      rw [respond, waiting]
    exact answer ▸ Within.single (p, current)
  cases parse : ParseKey cfg.keyPrefix o.key with
  | none =>
    have stays : deletable cfg referenced b.cutoff o = false := by rw [deletable, parse]
    rw [Pass.examine, page] at first
    simp only [parse] at first
    exact ⟨_, _, first.mono (by decide), .inl ⟨rfl, rfl, m.advance page (m.keep stays rfl rfl)⟩⟩
  | some parsed =>
    by_cases young : p.cutoff < age parsed.createdAt o.lastModified
    · have stays : deletable cfg referenced b.cutoff o = false := by
        rw [m.cutoff] at young
        simp [deletable, parse, young]
      rw [Pass.examine, page] at first
      simp only [parse, young, if_true] at first
      exact ⟨_, _, first.mono (by decide), .inl ⟨rfl, rfl, m.advance page (m.keep stays rfl rfl)⟩⟩
    · rw [Pass.examine, page] at first
      simp only [parse, young, if_false] at first
      have second := first.trans (Within.single _)
      rw [m.cutoff, not_lt] at young
      cases claimed : referenced parsed.eventID with
      | true =>
        have stays : deletable cfg referenced b.cutoff o = false := by
          simp [deletable, parse, claimed]
        simp only [respond, claimed, Pass.lookedUp] at second
        exact ⟨_, _, second.mono (by decide),
          .inl ⟨rfl, rfl, m.advance page (m.keep stays rfl rfl)⟩⟩
      | false =>
        have goes : deletable cfg referenced b.cutoff o = true := by
          simp [deletable, parse, claimed, young]
        have all := m.all
        rw [page, List.cons_append] at all
        have third := second.trans (Within.single _)
        simp only [respond, claimed, Pass.lookedUp, Pass.deleted, if_true] at third
        by_cases full : p.maxDeletes ≤ p.report.deleted + 1
        · rw [if_pos full] at third
          refine ⟨_, _, third, .inr ⟨rfl, ?_, ?_⟩⟩
          · rw [m.left, delete_remaining distinct all goes]
          · have below := m.below
            rw [m.maxDeletes] at full
            rw [List.filter_append, List.length_append, ← m.deleted, List.filter_cons_of_pos goes]
            simp only [List.filter_nil, List.length_singleton]
            omega
        · rw [if_neg full] at third
          rw [m.maxDeletes, not_le] at full
          exact ⟨_, _, third, .inl ⟨rfl, rfl,
            m.advance page (m.remove distinct all goes rfl rfl full)⟩⟩

theorem Midway.wholePage (distinct : Distinct objects)
    (m : Midway cfg referenced b objects done later p current) (waiting : p.stage = .examining) :
    ∃ p' current', Within (respond cfg referenced) (3 * p.page.length) (p, current) (p', current') ∧
      (p'.stage = .examining ∧ p'.page = [] ∧
          Midway cfg referenced b objects (done ++ p.page) later p' current' ∨
        p'.stage = .returned ∧ ∃ seen, seen <+: done ++ p.page ∧
          current' = remaining cfg referenced b objects seen ∧
          (seen.filter (deletable cfg referenced b.cutoff)).length = b.maxDeletes) := by
  generalize size : p.page = page
  induction page generalizing done p current with
  | nil =>
    refine ⟨p, current, Within.refl _, .inl ⟨waiting, size, ?_⟩⟩
    rwa [List.append_nil]
  | cons o rest ih =>
    obtain ⟨p', current', run, ⟨waiting', page', m'⟩ | ⟨stopped, left, full⟩⟩ :=
      m.object distinct size waiting
    · obtain ⟨p'', current'', run', result⟩ := ih m' waiting' page'
      refine ⟨p'', current'', (run.trans run').mono (by rw [List.length_cons]; omega), ?_⟩
      rwa [List.append_assoc, List.singleton_append] at result
    · refine ⟨p', current', run.mono (by rw [List.length_cons]; omega),
        .inr ⟨stopped, _, ?_, left, full⟩⟩
      exact ⟨rest, by rw [List.append_assoc, List.singleton_append]⟩

end Objects

section Pages

variable (cfg : Config) (referenced : Text → Bool) (b : Pass) (objects : List Object)

/-- A sweep between two pages. -/
structure Between (done later : List Object) (p : Pass) (current : List Object) : Prop
    extends Progress cfg referenced b objects done p.report current where
  cutoff : p.cutoff = b.cutoff
  maxDeletes : p.maxDeletes = b.maxDeletes
  maxKeys : p.maxKeys = b.maxKeys
  waiting : p.stage = .listing
  all : listing cfg objects = done ++ later
  token : p.token = done.getLast?.map Object.key
  pages : ∃ i, done.length = pageSize * i
  room : done.length < b.maxKeys
  ahead : done = [] ∨ later ≠ []

/-- A sweep that has returned, with what it leaves. -/
def Finished (s : Pass × List Object) : Prop :=
  s.1.stage = .returned ∧ s.2 = objects.filter
    (· ∉ taken (deletable cfg referenced b.cutoff) (reach b.maxKeys) b.maxDeletes
      (listing cfg objects))

variable {cfg referenced b objects} {done later current : List Object} {p : Pass}

theorem Between.list (distinct : Distinct objects)
    (m : Between cfg referenced b objects done later p current) :
    ∃ p', Within (respond cfg referenced) 1 (p, current) (p', current) ∧ p'.stage = .examining ∧
      p'.page = later.take pageSize ∧
      Midway cfg referenced b objects done (later.drop pageSize) p' current := by
  have answer := next_page distinct m.all
    (List.filter_subset_self (p := deletable cfg referenced b.cutoff) done)
  have run : Within (respond cfg referenced) 1 (p, current) (respond cfg referenced (p, current)) :=
    Within.single _
  have left := m.left
  rw [remaining] at left
  simp only [respond, m.waiting, Pass.listed, m.token] at run
  rw [left, answer, ← left] at run
  have cursor : (later.take pageSize).getLast?.map Object.key =
      (done ++ later.take pageSize).getLast?.map Object.key := by
    obtain start | present := m.ahead
    · rw [start, List.nil_append]
    · have filled : later.take pageSize ≠ [] := by simp [pageSize, present]
      rw [List.getLast?_append_of_ne_nil _ filled]
  have more : decide (pageSize < later.length) = !(later.drop pageSize).isEmpty := by
    rw [Bool.eq_iff_iff]
    simp
  have last (present : later.drop pageSize ≠ []) :
      ∃ o, (done ++ later.take pageSize).getLast? = some o := by
    refine Option.ne_none_iff_exists'.mp (mt List.getLast?_eq_none_iff.mp ?_)
    simp only [ne_eq, List.drop_eq_nil_iff, List.append_eq_nil_iff, List.take_eq_nil_iff]
      at present ⊢
    rintro ⟨-, absent | rfl⟩
    · exact absurd absent (by decide)
    · simp at present
  exact ⟨_, run, rfl, rfl, ⟨m.toProgress, m.cutoff, m.maxDeletes, m.maxKeys,
    by rw [List.take_append_drop]; exact m.all, more, cursor, last⟩⟩

theorem reach_spec {maxKeys i : ℕ} (room : pageSize * i < maxKeys) :
    pageSize * (i + 1) ≤ reach maxKeys ∧
      (maxKeys ≤ pageSize * (i + 1) → reach maxKeys = pageSize * (i + 1)) := by
  unfold reach pageSize at *
  omega

theorem finished_of_full {seen : List Object} (stopped : p.stage = .returned)
    (early : seen <+: (listing cfg objects).take (reach b.maxKeys))
    (left : current = remaining cfg referenced b objects seen)
    (full : (seen.filter (deletable cfg referenced b.cutoff)).length = b.maxDeletes) :
    Finished cfg referenced b objects (p, current) := by
  refine ⟨stopped, ?_⟩
  obtain ⟨rest, whole⟩ := early
  rw [left, remaining, taken, ← whole, List.filter_append, ← full, List.take_left']
  rfl

theorem finished_of_end {seen : List Object} (stopped : p.stage = .returned)
    (whole : seen = (listing cfg objects).take (reach b.maxKeys))
    (left : current = remaining cfg referenced b objects seen)
    (below : (seen.filter (deletable cfg referenced b.cutoff)).length ≤ b.maxDeletes) :
    Finished cfg referenced b objects (p, current) := by
  refine ⟨stopped, ?_⟩
  rw [left, remaining, taken, ← whole, List.take_of_length_le below]

theorem Midway.pageEnd (m : Midway cfg referenced b objects done later p current)
    (waiting : p.stage = .examining) (empty : p.page = []) :
    ∃ p', Within (respond cfg referenced) 1 (p, current) (p', current) ∧
      (p'.stage = .returned ∧ (b.maxKeys ≤ done.length ∨ later = []) ∨
        p' = { p with stage := .listing } ∧ done.length < b.maxKeys ∧ later ≠ []) := by
  have run : Within (respond cfg referenced) 1 (p, current) (respond cfg referenced (p, current)) :=
    Within.single _
  have answer : respond cfg referenced (p, current) = (if p.maxKeys ≤ p.report.examined then
      { p with stage := .returned }
    else if p.truncated && p.token.isSome then { p with stage := .listing }
    else { p with stage := .returned }, current) := by
    simp only [respond, waiting, Pass.examine, empty]
  rw [answer] at run
  have examined := m.examined
  have budget := m.maxKeys
  split_ifs at run with spent more
  · exact ⟨_, run, .inl ⟨rfl, .inl (by omega)⟩⟩
  · rw [Bool.and_eq_true, m.more] at more
    exact ⟨_, run, .inr ⟨rfl, by omega, by simpa using more.1⟩⟩
  · refine ⟨_, run, .inl ⟨rfl, .inr ?_⟩⟩
    -- More follows only a page that is not empty, and that has a last key.
    by_contra present
    obtain ⟨o, inside⟩ := m.cursor present
    exact more (by rw [m.more, m.token, inside]; simp [present])

theorem Between.finishes (distinct : Distinct objects) {n : ℕ} (size : later.length ≤ n)
    (m : Between cfg referenced b objects done later p current) :
    ∃ s, Within (respond cfg referenced) (5 * later.length + 2) (p, current) s ∧
      Finished cfg referenced b objects s := by
  induction n using Nat.strong_induction_on generalizing done later p current with
  | _ n ih =>
    obtain ⟨i, pages⟩ := m.pages
    obtain ⟨within, exactly⟩ := reach_spec (pages ▸ m.room)
    obtain ⟨p₁, run₁, waiting, page, mid⟩ := m.list distinct
    obtain ⟨p₂, current₂, run₂, result⟩ := mid.wholePage distinct waiting
    have front : (listing cfg objects).take (pageSize * (i + 1)) = done ++ later.take pageSize := by
      rw [m.all, List.take_append, List.take_of_length_le (by rw [pages, Nat.mul_succ]; omega),
        pages, Nat.mul_succ, Nat.add_sub_cancel_left]
    rw [page] at run₂ result
    have steps := (run₁.trans run₂)
    obtain ⟨waiting₂, empty, mid₂⟩ | ⟨stopped, seen, early, left, full⟩ := result
    · obtain ⟨p₃, run₃, ⟨stopped, last⟩ | ⟨rfl, room, present⟩⟩ := mid₂.pageEnd waiting₂ empty
      · refine ⟨_, (steps.trans run₃).mono (by rw [List.length_take]; omega),
          finished_of_end stopped ?_ mid₂.left (mid₂.deleted ▸ mid₂.below.le)⟩
        obtain spent | absent := last
        · have size := congrArg List.length front
          rw [List.length_take] at size
          rw [exactly (by omega), front]
        · have short : later.length ≤ pageSize := List.drop_eq_nil_iff.mp absent
          rw [List.take_of_length_le short, m.all]
          refine (List.take_of_length_le ?_).symm
          rw [List.length_append, pages]
          exact (Nat.add_le_add_left short _).trans within
      · have long : pageSize < later.length := by simpa using present
        have shorter : (later.drop pageSize).length < n := by
          rw [List.length_drop]
          unfold pageSize at *
          omega
        have full : (done ++ later.take pageSize).length = pageSize * (i + 1) := by
          rw [List.length_append, pages, List.length_take, Nat.mul_succ, Nat.min_eq_left long.le]
        have all := mid₂.all
        have token := mid₂.token
        rw [empty, List.nil_append] at all
        rw [empty, List.append_nil] at token
        have next : Between cfg referenced b objects (done ++ later.take pageSize)
            (later.drop pageSize) { p₂ with stage := .listing } current₂ :=
          ⟨mid₂.toProgress, mid₂.cutoff, mid₂.maxDeletes, mid₂.maxKeys, rfl, all, token,
            ⟨i + 1, full⟩, room, .inr present⟩
        obtain ⟨s, run₄, finished⟩ := ih _ shorter (le_refl _) next
        refine ⟨s, ((steps.trans run₃).trans run₄).mono ?_, finished⟩
        rw [List.length_take, List.length_drop]
        unfold pageSize at *
        omega
    · refine ⟨_, steps.mono (by rw [List.length_take]; omega),
        finished_of_full stopped ?_ left full⟩
      exact early.trans (front ▸ List.take_prefix_take_left within)

/-- A sweep returns, and deletes the first deletable objects within its reach. -/
theorem reconcile_finished (distinct : Distinct objects) (opts : ReconcileOptions) (now : ℤ) :
    Finished cfg referenced (Pass.start opts now) objects
      (Reconcile cfg referenced opts now objects) := by
  have deletes : 0 < (Pass.start opts now).maxDeletes := by
    simp only [Pass.start]
    split <;> omega
  have keys : 0 < (Pass.start opts now).maxKeys := by
    simp only [Pass.start]
    split <;> omega
  have start : Between cfg referenced (Pass.start opts now) objects [] (listing cfg objects)
      (Pass.start opts now) objects :=
    ⟨⟨rfl, rfl, by simp [remaining], deletes⟩, rfl, rfl, rfl, rfl, rfl, rfl, ⟨0, rfl⟩, keys,
      .inl rfl⟩
  obtain ⟨s, run, finished⟩ := start.finishes distinct (le_refl _)
  have size : (listing cfg objects).length ≤ objects.length := by
    rw [listing, ordered, List.length_insertionSort]
    exact List.length_filter_le _ _
  have rest : respond cfg referenced s = s := by
    obtain ⟨q, current⟩ := s
    have stopped : q.stage = .returned := finished.1
    simp only [respond, stopped]
  have whole := (run.mono (show _ ≤ patience objects by unfold patience; omega)).iterate_eq rest
  rw [Reconcile, whole]
  exact finished

end Pages

end Hookubit.Payloadstore.SweepRun
