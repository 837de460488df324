/- digest: Trimming, splitting and cutting byte strings as Go's strings package does. -/

import Hookubit.Data.Utf8
import Mathlib.Data.List.TakeWhile

set_option autoImplicit false
set_option relaxedAutoImplicit false

namespace Hookubit.Data.ByteText

open Data.Utf8

section Strip

variable {α : Type} [BEq α]

/-- Take tokens off the front for as long as one stands there. -/
def strip (tokens : List (List α)) : ℕ → List α → List α
  | 0, l => l
  | n + 1, l =>
    match tokens.find? fun t => t.isPrefixOf l with
    | none => l
    | some t => strip tokens n (l.drop t.length)

theorem strip_of_none {tokens : List (List α)} {l : List α}
    (none : ∀ t ∈ tokens, t.isPrefixOf l = false) (n : ℕ) : strip tokens n l = l := by
  cases n with
  | zero => rfl
  | succ n =>
    have absent : (tokens.find? fun t => t.isPrefixOf l) = .none := by
      rw [List.find?_eq_none]
      intro t ht
      simp [none t ht]
    simp only [strip, absent]

end Strip

section Split

variable {α : Type} [BEq α]

theorem length_splitOn (s : List α) (sep : α) : (s.splitOn sep).length = s.count sep + 1 := by
  induction s with
  | nil => rfl
  | cons c s ih =>
    rw [List.splitOn_cons_eq_if_modifyHead, List.count_cons]
    split <;> simp [ih]

theorem exists_mem_splitOn [LawfulBEq α] {s : List α} {sep x : α} (h : x ∈ s) (other : x ≠ sep) :
    ∃ piece ∈ s.splitOn sep, x ∈ piece := by
  induction s with
  | nil => cases h
  | cons c s ih =>
    rw [List.splitOn_cons_eq_if_modifyHead]
    obtain ⟨first, rest, pieces⟩ := List.exists_cons_of_ne_nil (List.splitOn_ne_nil sep s)
    rw [pieces] at ih ⊢
    obtain rfl | later := List.mem_cons.mp h
    · rw [if_neg (by simpa using other)]
      exact ⟨x :: first, List.mem_cons_self, List.mem_cons_self⟩
    · obtain ⟨piece, listed, inside⟩ := ih later
      split
      · exact ⟨piece, List.mem_cons_of_mem _ listed, inside⟩
      · obtain rfl | listed := List.mem_cons.mp listed
        · exact ⟨c :: piece, List.mem_cons_self, List.mem_cons_of_mem _ inside⟩
        · exact ⟨piece, List.mem_cons_of_mem _ listed, inside⟩

end Split

def isLetter (b : UInt8) : Bool := (65 ≤ b && b ≤ 90) || (97 ≤ b && b ≤ 122)

def toLower (b : UInt8) : UInt8 := if 65 ≤ b ∧ b ≤ 90 then b + 32 else b

/-- The runes that `unicode.IsSpace` accepts. -/
def spaceRunes : List Char :=
  [0x09, 0x0A, 0x0B, 0x0C, 0x0D, 0x20, 0x85, 0xA0, 0x1680, 0x2000, 0x2001, 0x2002, 0x2003, 0x2004,
    0x2005, 0x2006, 0x2007, 0x2008, 0x2009, 0x200A, 0x2028, 0x2029, 0x202F, 0x205F, 0x3000].map
    Char.ofNat

def spaces : List Bytes := spaceRunes.map String.utf8EncodeChar

def TrimSpace (s : Bytes) : Bytes :=
  let left := strip spaces s.length s
  (strip (spaces.map List.reverse) left.length left.reverse).reverse

def Cut (s : Bytes) (sep : UInt8) : Option (Bytes × Bytes) :=
  match s.dropWhile (· != sep) with
  | [] => none
  | _ :: after => some (s.takeWhile (· != sep), after)

/-- A printable ASCII byte other than the blank is no edge of a space. -/
def isGraphic (b : UInt8) : Bool := 0x21 ≤ b && b ≤ 0x7E

theorem not_isPrefixOf_of_head {t rest : Bytes} {b : UInt8} (graphic : isGraphic b = true)
    (edge : t.head?.any (fun x => !isGraphic x) = true) : t.isPrefixOf (b :: rest) = false := by
  cases t with
  | nil => cases edge
  | cons x tail =>
    have differ : (x == b) = false := by
      rw [beq_eq_false_iff_ne]
      rintro rfl
      simp [graphic] at edge
    simp [List.isPrefixOf, differ]

variable {s before after : Bytes} {sep : UInt8}

theorem TrimSpace_eq_self (first : s.head?.any isGraphic = true)
    (last : s.getLast?.any isGraphic = true) : TrimSpace s = s := by
  have heads : ∀ t ∈ spaces, t.head?.any (fun x => !isGraphic x) = true := by decide
  have tails : ∀ t ∈ spaces.map List.reverse, t.head?.any (fun x => !isGraphic x) = true := by
    decide
  have left : strip spaces s.length s = s := by
    obtain ⟨b, hb, graphic⟩ := (Option.any_eq_true _ _).mp first
    obtain ⟨rest, rfl⟩ := List.head?_eq_some_iff.mp hb
    exact strip_of_none (fun t ht => not_isPrefixOf_of_head graphic (heads t ht)) _
  have right : strip (spaces.map List.reverse) s.length s.reverse = s.reverse := by
    obtain ⟨b, hb, graphic⟩ := (Option.any_eq_true _ _).mp last
    obtain ⟨init, rfl⟩ := List.getLast?_eq_some_iff.mp hb
    rw [List.reverse_append]
    exact strip_of_none (fun t ht => not_isPrefixOf_of_head graphic (tails t ht)) _
  simp only [TrimSpace, left, right, List.reverse_reverse]

theorem TrimSpace_of_graphic (graphic : ∀ b ∈ s, isGraphic b = true) : TrimSpace s = s := by
  obtain rfl | nonempty := eq_or_ne s []
  · rfl
  · apply TrimSpace_eq_self
    · rw [List.head?_eq_some_head nonempty]
      exact graphic _ (List.head_mem nonempty)
    · rw [List.getLast?_eq_some_getLast nonempty]
      exact graphic _ (List.getLast_mem nonempty)

theorem Cut_append (absent : sep ∉ before) :
    Cut (before ++ sep :: after) sep = some (before, after) := by
  have keep : ∀ x ∈ before, (x != sep) = true := by
    intro x hx
    rw [bne_iff_ne]
    rintro rfl
    exact absent hx
  have stop : (sep != sep) = false := bne_self_eq_false sep
  simp only [Cut, List.dropWhile_append_of_pos keep, List.takeWhile_append_of_pos keep,
    List.dropWhile_cons, List.takeWhile_cons, stop, Bool.false_eq_true, if_false,
    List.append_nil]

theorem Cut_eq_none (absent : sep ∉ s) : Cut s sep = none := by
  have keep : ∀ x ∈ s, (x != sep) = true := by
    intro x hx
    rw [bne_iff_ne]
    rintro rfl
    exact absent hx
  rw [Cut, List.dropWhile_eq_nil_iff.mpr keep]

def cutLast (s : Bytes) (sep : UInt8) : Option (Bytes × Bytes) :=
  (Cut s.reverse sep).map fun p => (p.2.reverse, p.1.reverse)

theorem cutLast_append (absent : sep ∉ after) :
    cutLast (before ++ sep :: after) sep = some (before, after) := by
  have turned : (before ++ sep :: after).reverse = after.reverse ++ sep :: before.reverse := by simp
  rw [cutLast, turned, Cut_append (by simpa using absent)]
  simp

theorem cutLast_eq_none (absent : sep ∉ s) : cutLast s sep = none := by
  rw [cutLast, Cut_eq_none (by simpa using absent), Option.map_none]

theorem exists_last (h : sep ∈ s) : ∃ before after, s = before ++ sep :: after ∧ sep ∉ after := by
  obtain ⟨after, before, turned, absent⟩ := List.eq_append_cons_of_mem (List.mem_reverse.mpr h)
  refine ⟨before.reverse, after.reverse, ?_, by simpa using absent⟩
  rw [← List.reverse_reverse s, turned]
  simp

end Hookubit.Data.ByteText
