/- digest: The canonical text of an address is read back as the address. -/

import Hookubit.Data.IpText

set_option autoImplicit false
set_option relaxedAutoImplicit false

namespace Hookubit.Data.IpCanonical

open Data.ByteText Data.Int64 Data.IpAddress Data.IpText
open Data.Utf8 (Bytes)

theorem hexValue_digitChar : ∀ n < 16, hexValue (UInt8.ofNat n.digitChar.toNat) = some n := by
  decide

theorem formatHex_of_le {n : ℕ} (h : 16 ≤ n) :
    formatHex n = formatHex (n / 16) ++ [UInt8.ofNat (n % 16).digitChar.toNat] := by
  rw [formatHex, Nat.toDigits_of_base_le (by decide) h, List.map_append]
  rfl

theorem formatHex_of_lt {n : ℕ} (h : n < 16) : formatHex n = [UInt8.ofNat n.digitChar.toNat] := by
  rw [formatHex, Nat.toDigits_of_lt_base h]
  rfl

theorem isHex_formatHex (n : ℕ) : ∀ b ∈ formatHex n, isHex b = true := by
  induction n using Nat.strong_induction_on with
  | _ n ih =>
    obtain small | large := Nat.lt_or_ge n 16
    · simp [formatHex_of_lt small, isHex, hexValue_digitChar n small]
    · rw [formatHex_of_le large, List.forall_mem_append]
      refine ⟨ih (n / 16) (by omega), ?_⟩
      simp [isHex, hexValue_digitChar (n % 16) (Nat.mod_lt _ (by decide))]

theorem hexadecimal_formatHex (n : ℕ) : hexadecimal (formatHex n) = n := by
  induction n using Nat.strong_induction_on with
  | _ n ih =>
    obtain small | large := Nat.lt_or_ge n 16
    · simp [formatHex_of_lt small, hexadecimal, hexValue_digitChar n small]
    · have step (s : Bytes) (b : UInt8) :
          hexadecimal (s ++ [b]) = 16 * hexadecimal s + (hexValue b).getD 0 := by
        simp [hexadecimal]
      rw [formatHex_of_le large, step, ih (n / 16) (by omega),
        hexValue_digitChar (n % 16) (Nat.mod_lt _ (by decide)), Option.getD_some]
      omega

theorem formatHex_ne_nil (n : ℕ) : formatHex n ≠ [] := by
  have present : 0 < (Nat.toDigits 16 n).length := Nat.length_toDigits_pos
  rw [formatHex, ne_eq, List.map_eq_nil_iff]
  exact List.ne_nil_of_length_pos present

theorem hexGroup_formatHex {n : ℕ} (h : n < 65536) : hexGroup (formatHex n) = some n := by
  have short : (formatHex n).length ≤ 4 := by
    rw [formatHex, List.length_map]
    exact (Nat.length_toDigits_le_iff (by decide) (by decide)).mpr h
  rw [hexGroup, if_pos ⟨formatHex_ne_nil n, short, List.all_eq_true.mpr (isHex_formatHex n)⟩,
    hexadecimal_formatHex]

theorem colon_not_mem_formatHex (n : ℕ) : colon ∉ formatHex n := fun inside =>
  absurd (isHex_formatHex n colon inside) (by decide)

section Joined

variable {l m : List ℕ}

theorem splitOn_joinGroups (nonempty : l ≠ []) :
    (joinGroups l).splitOn colon = l.map formatHex := by
  refine List.splitOn_intercalate colon ?_ (by simpa using nonempty)
  simp [colon_not_mem_formatHex]

theorem parseFields_map (octets : Bool) (small : ∀ n ∈ l, n < 65536) :
    parseFields octets (l.map formatHex) = some l := by
  induction l with
  | nil => rfl
  | cons n rest ih =>
    obtain ⟨here, later⟩ := List.forall_mem_cons.mp small
    cases rest with
    | nil => simp [parseFields, lastField, hexGroup_formatHex here]
    | cons n' rest =>
      have read := ih later
      simp only [List.map_cons] at read ⊢
      simp only [parseFields, hexGroup_formatHex here, read]

theorem joinGroups_eq_nil : joinGroups l = [] ↔ l = [] := by
  constructor
  · intro empty
    by_contra nonempty
    have pieces := splitOn_joinGroups nonempty
    rw [empty, List.splitOn_nil] at pieces
    have missing : [] ∈ l.map formatHex := by simp [← pieces]
    obtain ⟨n, -, nothing⟩ := List.mem_map.mp missing
    exact formatHex_ne_nil n nothing
  · rintro rfl
    rfl

theorem parseSide_joinGroups (octets : Bool) (small : ∀ n ∈ l, n < 65536) :
    parseSide octets (joinGroups l) = some l := by
  obtain rfl | nonempty := eq_or_ne l []
  · rfl
  · rw [parseSide, if_neg (joinGroups_eq_nil.not.mpr nonempty), splitOn_joinGroups nonempty,
      parseFields_map octets small]

theorem nil_mem_dropLast_of_cut {s : Bytes} (h : cutEllipsis s ≠ none) :
    [] ∈ (s.splitOn colon).dropLast := by
  obtain ⟨⟨front, back⟩, cut⟩ := Option.ne_none_iff_exists'.mp h
  rw [cutEllipsis_eq_some cut, List.splitOn_append_cons_self, List.splitOn_cons_eq_if_modifyHead,
    if_pos (beq_self_eq_true colon), List.dropLast_append_of_ne_nil (List.cons_ne_nil _ _),
    List.dropLast_cons_of_ne_nil (List.splitOn_ne_nil _ _)]
  simp

theorem nil_not_mem_map : [] ∉ l.map formatHex := by
  simp [formatHex_ne_nil]

theorem cutEllipsis_joinGroups : cutEllipsis (joinGroups l) = none := by
  obtain rfl | nonempty := eq_or_ne l []
  · rfl
  · by_contra cut
    have missing := nil_mem_dropLast_of_cut cut
    rw [splitOn_joinGroups nonempty] at missing
    exact nil_not_mem_map (List.mem_of_mem_dropLast missing)

theorem cutEllipsis_joinGroups_colon : cutEllipsis (joinGroups l ++ [colon]) = none := by
  obtain rfl | nonempty := eq_or_ne l []
  · rfl
  · by_contra cut
    have missing := nil_mem_dropLast_of_cut cut
    rw [List.splitOn_append_cons_self, splitOn_joinGroups nonempty, List.splitOn_nil,
      List.dropLast_concat] at missing
    exact nil_not_mem_map missing

theorem cutEllipsis_append {front : Bytes} (back : Bytes)
    (whole : cutEllipsis (front ++ [colon]) = none) :
    cutEllipsis (front ++ colon :: colon :: back) = some (front, back) := by
  induction front with
  | nil => rfl
  | cons a front ih =>
    cases front with
    | nil =>
      have other : ¬(a = colon ∧ colon = colon) := by
        rintro ⟨rfl, -⟩
        cases whole
      simp only [List.cons_append, List.nil_append] at ih ⊢
      rw [cutEllipsis, if_neg other, ih rfl]
      rfl
    | cons b front =>
      simp only [List.cons_append] at whole ih ⊢
      rw [cutEllipsis] at whole ⊢
      split at whole
      · cases whole
      · rename_i other
        rw [if_neg other, ih (Option.map_eq_none_iff.mp whole)]
        rfl

end Joined

theorem longestZeroRun_spec (l : List ℕ) :
    (longestZeroRun l).2 ≤ zeroRun (l.drop (longestZeroRun l).1) := by
  unfold longestZeroRun
  refine List.foldlRecOn (motive := fun best : ℕ × ℕ => best.2 ≤ zeroRun (l.drop best.1)) _ _
    (Nat.zero_le _) fun best found i _ => ?_
  split
  · exact le_rfl
  · exact found

theorem take_zeroRun (l : List ℕ) : l.take (zeroRun l) = List.replicate (zeroRun l) 0 := by
  have front : l.take (zeroRun l) = l.takeWhile (· == 0) := by
    rw [zeroRun]
    exact (List.prefix_iff_eq_take.mp (List.takeWhile_prefix _)).symm
  rw [front, zeroRun]
  refine List.eq_replicate_iff.mpr ⟨rfl, fun n inside => ?_⟩
  simpa using List.mem_takeWhile_imp inside

theorem groups_split (l : List ℕ) :
    l.take (longestZeroRun l).1 ++ List.replicate (longestZeroRun l).2 0 ++
      l.drop ((longestZeroRun l).1 + (longestZeroRun l).2) = l := by
  have zeros : (l.drop (longestZeroRun l).1).take (longestZeroRun l).2 =
      List.replicate (longestZeroRun l).2 0 := by
    have run := longestZeroRun_spec l
    rw [← Nat.min_eq_left run, ← List.take_take, take_zeroRun, List.take_replicate,
      Nat.min_eq_left run]
  rw [← zeros, List.append_assoc, ← List.drop_drop, List.take_append_drop, List.take_append_drop]

theorem groups_lt (b : V6) : ∀ n ∈ groups b, n < 65536 := by
  intro n listed
  obtain ⟨⟨high, low⟩, -, rfl⟩ := List.mem_map.mp listed
  have := high.toNat_lt
  have := low.toNat_lt
  dsimp only
  omega

theorem ofGroups_groups (b : V6) : ofGroups (groups b) = b := by
  have high (x y : UInt8) : UInt8.ofNat ((256 * x.toNat + y.toNat) / 256) = x := by
    have := y.toNat_lt
    rw [Nat.mul_add_div (by decide), Nat.div_eq_of_lt (by omega), Nat.add_zero, UInt8.ofNat_toNat]
  have low (x y : UInt8) : UInt8.ofNat (256 * x.toNat + y.toNat) = y := by
    apply UInt8.toNat_inj.mp
    have := y.toNat_lt
    rw [UInt8.toNat_ofNat']
    omega
  funext i
  fin_cases i <;> first | exact high _ _ | exact low _ _

theorem parse6_formatV6 (b : V6) : parse6 (formatV6 b) = some b := by
  have small := groups_lt b
  have parts := groups_split (groups b)
  rw [formatV6]
  generalize longestZeroRun (groups b) = best at parts ⊢
  obtain ⟨start, run⟩ := best
  dsimp only at parts ⊢
  split
  · rw [parse6, cutEllipsis_joinGroups, splitOn_joinGroups (by simp [groups]),
      parseFields_map true small]
    exact (if_pos rfl).trans (congrArg some (ofGroups_groups b))
  · rename_i long
    have front : ∀ n ∈ (groups b).take start, n < 65536 :=
      fun n inside => small n (List.mem_of_mem_take inside)
    have back : ∀ n ∈ (groups b).drop (start + run), n < 65536 :=
      fun n inside => small n (List.mem_of_mem_drop inside)
    have lengths : ((groups b).take start).length + run + ((groups b).drop (start + run)).length =
        8 := by
      have eight : (groups b).length = 8 := rfl
      rw [← parts] at eight
      simpa [Nat.add_assoc] using eight
    rw [List.append_assoc, parse6]
    simp only [List.cons_append, List.nil_append]
    rw [cutEllipsis_append _ cutEllipsis_joinGroups_colon]
    simp only [parseSide_joinGroups _ front, parseSide_joinGroups _ back]
    have zeros : 8 - ((groups b).take start).length - ((groups b).drop (start + run)).length =
        run := by omega
    rw [expand, if_pos (by omega), zeros, parts, ofGroups_groups]

end Hookubit.Data.IpCanonical
