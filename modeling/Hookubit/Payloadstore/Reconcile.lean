/- sources: payloadstore/s3.go (Put, Get, Delete), payloadstore/reconcile.go Reconcile
   digest: The bucket, and one sweep of it as a machine that waits for each answer. -/

import Hookubit.Data.KeysetPage
import Hookubit.Payloadstore.Keys
import Mathlib.Data.List.Lex
import Mathlib.Data.Char

/-!
`Reconcile` talks to the store and to the database between any two lines, so it is given as a
state with one function for each answer it waits for: a page, a lookup, a delete. The log
lines and the age that one of them prints are left out.
-/

set_option autoImplicit false
set_option relaxedAutoImplicit false

namespace Hookubit.Payloadstore.Reconcile

open Data.KeysetPage Payloadstore.Keys Postgres.Clock

def DefaultPrefix : Text := "events".toList

/-- The store's configuration after `withDefaults`. `New` wants a bucket, and no bucket name
has a slash in it. -/
structure Config where
  bucket : Text
  keyPrefix : Text
  named : bucket ≠ []
  plain : '/' ∉ bucket

/-- One object. A store need not report when it was modified. -/
structure Object where
  bucket : Text
  key : Text
  body : List UInt8
  lastModified : Option ℤ
  deriving DecidableEq

section Bucket

def Object.isAt (ref : Ref) (o : Object) : Bool := o.bucket = ref.bucket && o.key = ref.key

def PutObject (o : Object) (objects : List Object) : List Object :=
  objects.filter (fun x => !x.isAt ⟨o.bucket, o.key⟩) ++ [o]

def DeleteObject (ref : Ref) (objects : List Object) : List Object :=
  objects.filter fun o => !o.isAt ref

/-- What `Put` writes, and the location that it returns. -/
def Put (cfg : Config) (projectID eventID : Text) (body : List UInt8) (stamp : Option ℤ) :
    Object × Text :=
  let key := Key cfg.keyPrefix projectID eventID
  (⟨cfg.bucket, key, body, stamp⟩, Location cfg.bucket key)

/-- The bytes at a stored location; the size ceiling of the reader is not modelled. -/
def Get (location : Text) (objects : List Object) : Option (List UInt8) :=
  (ParseLocation location).bind fun ref => (objects.find? (·.isAt ref)).map Object.body

def Delete (location : Text) (objects : List Object) : List Object :=
  match ParseLocation location with
  | some ref => DeleteObject ref objects
  | none => objects

def pageSize : ℕ := 1000

/-- One page in key order behind the token, and whether more follow. -/
def ListObjectsV2 (bucket front : Text) (token : Option Text) (objects : List Object) :
    List Object × Bool :=
  let inside := ordered Object.key
    (objects.filter fun o => o.bucket = bucket && front.isPrefixOf o.key)
  let rest := match token with
    | none => inside
    | some last => beyond Object.key inside last
  (rest.take pageSize, pageSize < rest.length)

variable {o x : Object} {objects : List Object}

theorem isAt_iff {ref : Ref} : o.isAt ref = true ↔ (⟨o.bucket, o.key⟩ : Ref) = ref := by
  cases ref
  simp [Object.isAt]

theorem get_location (cfg : Config) {key : Text} (keyed : key ≠ []) (objects : List Object) :
    Get (Location cfg.bucket key) objects =
      (objects.find? (·.isAt ⟨cfg.bucket, key⟩)).map Object.body := by
  rw [Get, parseLocation_location cfg.named cfg.plain keyed, Option.bind_some]

theorem delete_location (cfg : Config) {key : Text} (keyed : key ≠ []) (objects : List Object) :
    Delete (Location cfg.bucket key) objects = DeleteObject ⟨cfg.bucket, key⟩ objects := by
  rw [Delete, parseLocation_location cfg.named cfg.plain keyed]

theorem find?_deleteObject {ref other : Ref} (differs : ref ≠ other) (objects : List Object) :
    (DeleteObject other objects).find? (·.isAt ref) = objects.find? (·.isAt ref) := by
  rw [DeleteObject, List.find?_filter]
  refine congrArg (List.find? · objects) (funext ?_)
  intro o
  by_cases here : o.isAt ref = true
  · have elsewhere : o.isAt other = false := by
      rw [Bool.eq_false_iff, Ne, isAt_iff, isAt_iff.mp here]
      exact differs
    simp [here, elsewhere]
  · simp [here]

variable (cfg : Config) {key other : Text}

theorem get_put (projectID eventID : Text) (body : List UInt8) (stamp : Option ℤ)
    (objects : List Object) :
    Get (Put cfg projectID eventID body stamp).2
      (PutObject (Put cfg projectID eventID body stamp).1 objects) = some body := by
  have gone : (objects.filter fun x =>
      !x.isAt ⟨cfg.bucket, Key cfg.keyPrefix projectID eventID⟩).find?
        (·.isAt ⟨cfg.bucket, Key cfg.keyPrefix projectID eventID⟩) = none := by
    rw [List.find?_eq_none]
    intro o ho
    simpa using (List.mem_filter.mp ho).2
  rw [Put, get_location cfg (key_ne_nil _ _ _), PutObject, List.find?_append, gone]
  simp [Object.isAt]

theorem get_putObject (keyed : key ≠ []) (differs : key ≠ o.key) (objects : List Object) :
    Get (Location cfg.bucket key) (PutObject o objects) =
      Get (Location cfg.bucket key) objects := by
  have misses : o.isAt ⟨cfg.bucket, key⟩ = false := by
    simp [Object.isAt, Ne.symm differs]
  have apart : (⟨cfg.bucket, key⟩ : Ref) ≠ ⟨o.bucket, o.key⟩ := by simp [differs]
  have kept := find?_deleteObject apart objects
  rw [DeleteObject] at kept
  rw [get_location cfg keyed, get_location cfg keyed, PutObject, List.find?_append, kept]
  simp [misses]

theorem get_delete (keyed : key ≠ []) (keyed' : other ≠ []) (differs : key ≠ other)
    (objects : List Object) : Get (Location cfg.bucket key)
      (Delete (Location cfg.bucket other) objects) = Get (Location cfg.bucket key) objects := by
  rw [get_location cfg keyed, get_location cfg keyed, delete_location cfg keyed',
    find?_deleteObject (by simp [differs])]

theorem mem_of_mem_putObject (h : x ∈ PutObject o objects) : x ∈ objects ∨ x = o := by
  obtain kept | new := List.mem_append.mp h
  · exact .inl (List.mem_filter.mp kept).1
  · exact .inr (List.mem_singleton.mp new)

theorem mem_of_mem_delete {location : Text} (h : x ∈ Delete location objects) : x ∈ objects := by
  unfold Delete at h
  split at h
  · exact (List.mem_filter.mp h).1
  · exact h

theorem mem_of_mem_listObjectsV2 {bucket front : Text} {token : Option Text}
    (h : x ∈ (ListObjectsV2 bucket front token objects).1) : x ∈ objects := by
  have inside := List.mem_of_mem_take h
  split at inside
  · exact (List.mem_filter.mp (mem_ordered.mp inside)).1
  · exact (List.mem_filter.mp (mem_ordered.mp (List.mem_filter.mp inside).1)).1

end Bucket

structure ReconcileOptions where
  minAge : ℤ
  maxDeletes : ℤ
  maxKeys : ℤ
  deriving DecidableEq

def MinAgeFloor : ℤ := hour

structure ReconcileReport where
  examined : ℕ
  skipped : ℕ
  referenced : ℕ
  deleted : ℕ
  deriving DecidableEq

inductive Stage
  | listing
  | examining
  | looking (o : Object) (eventID : Text)
  | deleting (o : Object) (eventID : Text)
  | returned
  deriving DecidableEq

/-- One running sweep: its resolved options, the rest of the current page and its report. -/
structure Pass where
  cutoff : ℤ
  maxDeletes : ℕ
  maxKeys : ℕ
  token : Option Text
  page : List Object
  truncated : Bool
  report : ReconcileReport
  stage : Stage
  deriving DecidableEq

def ReconcileOptions.effectiveMinAge (opts : ReconcileOptions) : ℤ :=
  if opts.minAge < MinAgeFloor then MinAgeFloor else opts.minAge

def Pass.start (opts : ReconcileOptions) (now : ℤ) : Pass where
  cutoff := now - opts.effectiveMinAge
  maxDeletes := if opts.maxDeletes ≤ 0 then 1000 else opts.maxDeletes.toNat
  maxKeys := if opts.maxKeys ≤ 0 then 100000 else opts.maxKeys.toNat
  token := none
  page := []
  truncated := false
  report := ⟨0, 0, 0, 0⟩
  stage := .listing

section Answers

variable (p : Pass)

def Pass.skip : Pass :=
  { p with report := { p.report with skipped := p.report.skipped + 1 }, stage := .examining }

/-- A page has arrived, or the listing failed. -/
def Pass.listed : Option (List Object × Bool) → Pass
  | none => { p with stage := .returned }
  | some (page, truncated) =>
      { p with
        page := page
        truncated := truncated
        token := page.getLast?.map Object.key
        stage := .examining }

/-- The younger of the two dates of an object. -/
def age (createdAt : ℤ) (lastModified : Option ℤ) : ℤ :=
  match lastModified with
  | some t => if createdAt < t then t else createdAt
  | none => createdAt

/-- The next object of the page, or the end of the page. -/
def Pass.examine (cfg : Config) : Pass :=
  match p.page with
  | o :: rest =>
      let p := { p with page := rest, report :=
        { p.report with examined := p.report.examined + 1 } }
      match ParseKey cfg.keyPrefix o.key with
      | none => p.skip
      | some parsed =>
          if p.cutoff < age parsed.createdAt o.lastModified then p.skip
          else { p with stage := .looking o parsed.eventID }
  | [] =>
      if p.maxKeys ≤ p.report.examined then { p with stage := .returned }
      else if p.truncated && p.token.isSome then { p with stage := .listing }
      else { p with stage := .returned }

/-- The lookup answered for the object in hand, or failed. -/
def Pass.lookedUp (o : Object) (eventID : Text) : Option Bool → Pass
  | none => p.skip
  | some true =>
      { p with
        report := { p.report with referenced := p.report.referenced + 1 }
        stage := .examining }
  | some false => { p with stage := .deleting o eventID }

/-- The delete was acknowledged, or not. -/
def Pass.deleted (acknowledged : Bool) : Pass :=
  if acknowledged then
    let report := { p.report with deleted := p.report.deleted + 1 }
    { p with
      report := report
      stage := if p.maxDeletes ≤ report.deleted then .returned else .examining }
  else p.skip

end Answers

end Hookubit.Payloadstore.Reconcile
