/- sources: payloadstore/keys.go (Key, ParseKey), ids/ids.go (New, Parse)
   digest: Minted keys are read back; what else is accepted differs from one in letter case only. -/

import Hookubit.Payloadstore.Keys

set_option autoImplicit false
set_option relaxedAutoImplicit false

namespace Hookubit.Payloadstore.KeyRoundTrip

open Data.Base32 (Ulid)
open Keys

/-- A key whose two ULIDs are spelled without a lower-case letter. -/
def UpperCase (keyPrefix key : Text) : Prop :=
  ∃ x y, key = Key keyPrefix (Project ++ '_' :: x) (Event ++ '_' :: y) ∧
    ∀ c ∈ x ++ y, c.isLower = false

section Laws

variable [Ulid] {v : ℕ}

/-- `ids.New`, with `v` the 128 bits that `ulid.Make` drew. -/
def New (tag : Text) (v : ℕ) : Text := tag ++ '_' :: Ulid.text v

theorem parse_tagged {tag : Text} (plain : '_' ∉ tag) (raw : Text) :
    Parse (tag ++ '_' :: raw) tag = Ulid.parseStrict raw := by
  simp [Parse, cut_append plain]

theorem exists_of_parse {id tag : Text} (h : Parse id tag = some v) :
    ∃ raw, id = tag ++ '_' :: raw ∧ Ulid.parseStrict raw = some v := by
  obtain ⟨⟨front, raw⟩, parts, read⟩ := Option.bind_eq_some_iff.mp h
  obtain ⟨rfl, ulid⟩ := Option.ite_none_right_eq_some.mp read
  exact ⟨raw, eq_append_of_cut parts, ulid⟩

theorem parseKey_key_eq {keyPrefix p e : Text} (plain_p : '/' ∉ p) (plain_e : '/' ∉ e) :
    ParseKey keyPrefix (Key keyPrefix p e) =
      (Parse p Project).bind fun _ => (Parse e Event).map fun v => ⟨p, e, ulidTime v⟩ := by
  have front : Key keyPrefix p e = (trimSlashes keyPrefix ++ ['/']) ++ (p ++ '/' :: e) := by
    simp [Key]
  have ids : (['/'].intercalate [p, e]).splitOn '/' = [p, e] :=
    List.splitOn_intercalate '/' (by simp [plain_p, plain_e]) (by simp)
  have pieces : (p ++ '/' :: e).splitOn '/' = [p, e] := by simpa [List.intercalate] using ids
  rw [ParseKey, front, cutPrefix_append, Option.bind_some]
  simp only [pieces]

theorem exists_of_parseKey {keyPrefix key : Text} {parsed : ParsedKey}
    (accepted : ParseKey keyPrefix key = some parsed) :
    ∃ x y, key = Key keyPrefix (Project ++ '_' :: x) (Event ++ '_' :: y) ∧
      parsed.projectID = Project ++ '_' :: x ∧ parsed.eventID = Event ++ '_' :: y ∧
      ∃ v w, Ulid.parseStrict x = some v ∧ Ulid.parseStrict y = some w := by
  obtain ⟨trimmed, front, pieces⟩ := Option.bind_eq_some_iff.mp accepted
  obtain ⟨under, rest⟩ := Option.ite_none_right_eq_some.mp front
  obtain ⟨tail, rfl⟩ := List.isPrefixOf_iff_prefix.mp under
  obtain rfl : tail = trimmed := by simpa using rest
  split at pieces
  · rename_i p e halves
    obtain ⟨v, project, pieces⟩ := Option.bind_eq_some_iff.mp pieces
    obtain ⟨w, event, rfl⟩ := Option.map_eq_some_iff.mp pieces
    obtain ⟨x, rfl, hx⟩ := exists_of_parse project
    obtain ⟨y, rfl, hy⟩ := exists_of_parse event
    have whole : ['/'].intercalate (tail.splitOn '/') = tail := List.intercalate_splitOn '/'
    rw [halves] at whole
    exact ⟨x, y, by simp [Key, ← whole, List.intercalate], rfl, rfl, v, w, hx, hy⟩
  · cases pieces

/-- A key as `Key` writes it from two minted ids. -/
def Minted (keyPrefix key : Text) : Prop :=
  ∃ v w, v < 2 ^ 128 ∧ w < 2 ^ 128 ∧ key = Key keyPrefix (New Project v) (New Event w)

/-- Keys and locations are read back as they were written; of the other keys that are accepted,
exactly those with a lower-case letter in a ULID were never written. -/
theorem parseKey_inverts_key_iff (keyPrefix : Text) :
    (∀ v w, v < 2 ^ 128 → w < 2 ^ 128 →
        ParseKey keyPrefix (Key keyPrefix (New Project v) (New Event w)) =
          some ⟨New Project v, New Event w, ulidTime w⟩) ∧
      (∀ bucket key, bucket ≠ [] → '/' ∉ bucket → key ≠ [] →
        ParseLocation (Location bucket key) = some ⟨bucket, key⟩) ∧
      ∀ key parsed, ParseKey keyPrefix key = some parsed →
        (Minted keyPrefix key ↔ UpperCase keyPrefix key) := by
  refine ⟨?_, fun bucket key => parseLocation_location, ?_⟩
  · intro v w hv hw
    have project : Parse (New Project v) Project = some v :=
      (parse_tagged (by decide) _).trans (Ulid.parseStrict_text hv)
    have event : Parse (New Event w) Event = some w :=
      (parse_tagged (by decide) _).trans (Ulid.parseStrict_text hw)
    rw [parseKey_key_eq (slash_not_mem_of_parse (by decide) project)
      (slash_not_mem_of_parse (by decide) event), project, event]
    rfl
  · intro key parsed accepted
    constructor
    · rintro ⟨v, w, hv, hw, rfl⟩
      refine ⟨Ulid.text v, Ulid.text w, rfl, fun c hc => ?_⟩
      exact (List.mem_append.mp hc).elim (Ulid.text_upper c) (Ulid.text_upper c)
    · rintro ⟨x, y, rfl, upper⟩
      obtain ⟨x', y', -, project, event, v, w, hv, hw⟩ := exists_of_parseKey accepted
      have parts := parseKey_key accepted
      obtain rfl : x = x' := by simpa using parts.1.symm.trans project
      obtain rfl : y = y' := by simpa using parts.2.symm.trans event
      have project := Ulid.eq_text_of_parseStrict (fun c hc => upper c (by simp [hc])) hv
      have event := Ulid.eq_text_of_parseStrict (fun c hc => upper c (by simp [hc])) hw
      exact ⟨v, w, project.1, event.1, by rw [New, New, ← project.2, ← event.2]⟩

end Laws

/-- An object that was uploaded under the lower-case spelling of a key is taken for one of the
platform's own. -/
theorem lower_case_key_is_accepted :
    (ParseKey "payloads".toList
        "payloads/proj_01arz3ndektsv4rrffq69g5fav/evt_01arz3ndektsv4rrffq69g5fav".toList).isSome ∧
      ¬ Minted "payloads".toList
        "payloads/proj_01arz3ndektsv4rrffq69g5fav/evt_01arz3ndektsv4rrffq69g5fav".toList := by
  refine ⟨by decide, ?_⟩
  rintro ⟨v, w, -, -, same⟩
  have none_lower : ∀ u, (Ulid.text u).countP Char.isLower = 0 := by
    intro u
    exact List.countP_eq_zero.mpr fun c hc => by simp [Ulid.text_upper c hc]
  have letters := congrArg (List.countP Char.isLower) same
  simp only [Key, New, List.countP_append, List.countP_cons, none_lower] at letters
  revert letters
  decide

end Hookubit.Payloadstore.KeyRoundTrip
