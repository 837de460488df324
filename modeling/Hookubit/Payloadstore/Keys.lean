/- sources: payloadstore/keys.go (Key, Location, ParseLocation, ParseKey), ids/ids.go Parse
   digest: Object keys and payload locations as texts, and how they are read back. -/

import Hookubit.Data.ByteText
import Hookubit.Data.Base32
import Hookubit.Postgres.Clock

/-!
Texts are lists of characters. A parser returns `none` where the source returns an error; the
wording of those errors is only logged. The ulid package is a parameter.
-/

set_option autoImplicit false
set_option relaxedAutoImplicit false

namespace Hookubit.Payloadstore.Keys

open Data.ByteText (length_splitOn)
open Data.Base32 (Ulid)
open Postgres.Clock

abbrev Text := List Char

instance lawfulText : LawfulBEq Text := inferInstance

def trimSlashes (s : Text) : Text :=
  ((s.dropWhile (· = '/')).reverse.dropWhile (· = '/')).reverse

def cutPrefix (s front : Text) : Option Text :=
  if front.isPrefixOf s then some (s.drop front.length) else none

def cut (s : Text) (sep : Char) : Option (Text × Text) :=
  match s.dropWhile (· ≠ sep) with
  | [] => none
  | _ :: rest => some (s.takeWhile (· ≠ sep), rest)

theorem cutPrefix_append (front s : Text) : cutPrefix (front ++ s) front = some s := by
  simp [cutPrefix, List.isPrefixOf_iff_prefix]

theorem cut_append {before : Text} {sep : Char} (plain : sep ∉ before) (after : Text) :
    cut (before ++ sep :: after) sep = some (before, after) := by
  have all : ∀ c ∈ before, decide (c ≠ sep) = true := fun c hc =>
    decide_eq_true fun same => plain (same ▸ hc)
  have dropped : (before ++ sep :: after).dropWhile (· ≠ sep) = sep :: after := by
    rw [List.dropWhile_append_of_pos all]
    simp
  have taken : (before ++ sep :: after).takeWhile (· ≠ sep) = before := by
    rw [List.takeWhile_append_of_pos all]
    simp
  simp only [cut, dropped, taken]

theorem eq_append_of_cut {s before after : Text} {sep : Char}
    (h : cut s sep = some (before, after)) : s = before ++ sep :: after := by
  unfold cut at h
  split at h
  · cases h
  · rename_i c rest dropped
    cases h
    have stops : c = sep := by
      have left : s.dropWhile (· ≠ sep) ≠ [] := dropped ▸ List.cons_ne_nil c after
      have head := List.head_dropWhile_not (· ≠ sep) left
      simp only [dropped, List.head_cons] at head
      simpa using head
    rw [← stops, ← dropped, stops, List.takeWhile_append_dropWhile]

def Project : Text := "proj".toList

def Event : Text := "evt".toList

/-- `ulid.Time`, which reads milliseconds from the first 48 bits. -/
def ulidTime (v : ℕ) : ℤ := (v / 2 ^ 80 : ℕ) * millisecond

def Parse [Ulid] (id tag : Text) : Option ℕ :=
  (cut id '_').bind fun parts => if parts.1 = tag then Ulid.parseStrict parts.2 else none

theorem slash_not_mem_of_parse [Ulid] {id tag : Text} {v : ℕ} (plain : '/' ∉ tag)
    (h : Parse id tag = some v) : '/' ∉ id := by
  obtain ⟨⟨before, raw⟩, parts, h⟩ := Option.bind_eq_some_iff.mp h
  obtain ⟨rfl, read⟩ := Option.ite_none_right_eq_some.mp h
  rw [eq_append_of_cut parts, List.mem_append, List.mem_cons, not_or, not_or]
  exact ⟨plain, by decide, Ulid.slash_notMem read⟩

def Key (keyPrefix projectID eventID : Text) : Text :=
  trimSlashes keyPrefix ++ '/' :: (projectID ++ '/' :: eventID)

def Location (bucket key : Text) : Text := "s3://".toList ++ (bucket ++ '/' :: key)

structure Ref where
  bucket : Text
  key : Text
  deriving DecidableEq

def ParseLocation (location : Text) : Option Ref :=
  (cutPrefix location "s3://".toList).bind fun rest =>
  (cut rest '/').bind fun parts =>
    if parts.1 = [] ∨ parts.2 = [] then none else some ⟨parts.1, parts.2⟩

structure ParsedKey where
  projectID : Text
  eventID : Text
  createdAt : ℤ
  deriving DecidableEq

def ParseKey [Ulid] (keyPrefix key : Text) : Option ParsedKey :=
  (cutPrefix key (trimSlashes keyPrefix ++ ['/'])).bind fun trimmed =>
    match trimmed.splitOn '/' with
    | [projectID, eventID] =>
        (Parse projectID Project).bind fun _ =>
        (Parse eventID Event).map fun v => ⟨projectID, eventID, ulidTime v⟩
    | _ => none

theorem parseLocation_location {bucket key : Text} (named : bucket ≠ []) (plain : '/' ∉ bucket)
    (keyed : key ≠ []) : ParseLocation (Location bucket key) = some ⟨bucket, key⟩ := by
  have schemeless : cutPrefix (Location bucket key) "s3://".toList = some (bucket ++ '/' :: key) :=
    cutPrefix_append _ _
  have halves : cut (bucket ++ '/' :: key) '/' = some (bucket, key) := cut_append plain key
  simp only [ParseLocation, schemeless, Option.bind_some, halves]
  exact if_neg (not_or.mpr ⟨named, keyed⟩)

theorem key_ne_nil (keyPrefix projectID eventID : Text) : Key keyPrefix projectID eventID ≠ [] := by
  simp [Key]

theorem eventID_of_key_eq {keyPrefix projectID projectID' eventID eventID' : Text}
    (plain : '/' ∉ eventID) (plain' : '/' ∉ eventID')
    (same : Key keyPrefix projectID eventID = Key keyPrefix projectID' eventID') :
    eventID = eventID' := by
  have tails : projectID ++ '/' :: eventID = projectID' ++ '/' :: eventID' := by
    simpa [Key] using same
  -- Read backwards, an event id is what stands before the first slash.
  have backwards := congrArg (fun s : Text => cut s.reverse '/') tails
  simp only [List.reverse_append, List.reverse_cons, List.append_assoc, List.singleton_append]
    at backwards
  rw [cut_append (by simpa using plain), cut_append (by simpa using plain')] at backwards
  simpa using (Prod.ext_iff.mp (Option.some.inj backwards)).1

theorem createdAt_of_parseKey [Ulid] {keyPrefix key : Text} {parsed : ParsedKey}
    (accepted : ParseKey keyPrefix key = some parsed) :
    ∃ v, Parse parsed.eventID Event = some v ∧ parsed.createdAt = ulidTime v := by
  obtain ⟨trimmed, _, accepted⟩ := Option.bind_eq_some_iff.mp accepted
  split at accepted
  · obtain ⟨_, _, accepted⟩ := Option.bind_eq_some_iff.mp accepted
    obtain ⟨v, read, rfl⟩ := Option.map_eq_some_iff.mp accepted
    exact ⟨v, read, rfl⟩
  · cases accepted

theorem parseKey_key [Ulid] {keyPrefix projectID eventID : Text} {parsed : ParsedKey}
    (accepted : ParseKey keyPrefix (Key keyPrefix projectID eventID) = some parsed) :
    parsed.projectID = projectID ∧ parsed.eventID = eventID := by
  have front : Key keyPrefix projectID eventID =
      (trimSlashes keyPrefix ++ ['/']) ++ (projectID ++ '/' :: eventID) := by simp [Key]
  rw [ParseKey, front, cutPrefix_append, Option.bind_some] at accepted
  split at accepted
  · rename_i p e pieces
    -- Two pieces leave no separator for the ids themselves.
    have once := length_splitOn (projectID ++ '/' :: eventID) '/'
    rw [pieces, List.count_append, List.count_cons_self] at once
    have plain_p : '/' ∉ projectID := List.count_eq_zero.mp (by simp at once; omega)
    have plain_e : '/' ∉ eventID := List.count_eq_zero.mp (by simp at once; omega)
    have ids : (['/'].intercalate [projectID, eventID]).splitOn '/' = [projectID, eventID] :=
      List.splitOn_intercalate '/' (by simp [plain_p, plain_e]) (by simp)
    obtain ⟨rfl, rfl⟩ : projectID = p ∧ eventID = e := by
      simpa [List.intercalate, pieces, eq_comm] using ids
    obtain ⟨_, _, accepted⟩ := Option.bind_eq_some_iff.mp accepted
    obtain ⟨_, _, rfl⟩ := Option.map_eq_some_iff.mp accepted
    exact ⟨rfl, rfl⟩
  · cases accepted

end Hookubit.Payloadstore.Keys
