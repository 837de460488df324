/- digest: A JSON reader: what it accepts is a text of the grammar, and every text is read back. -/

import Hookubit.Data.JsonText

/-!
Each reader takes one phrase off the front of a byte string. It is sound, in that the phrase it
returns spells the bytes it took, and complete, in that it finds every phrase that stands there.
-/

set_option autoImplicit false
set_option relaxedAutoImplicit false

namespace Hookubit.Data.JsonText

open Data.Utf8 (Bytes)
open Data.Int64 (isDigit)

theorem Stops.mono {α : Type} {p q : α → Bool} {l : List α} (sub : ∀ a, p a = true → q a = true)
    (h : Stops q l) : Stops p l := by
  intro a ha
  have refused := h a ha
  by_contra kept
  rw [sub a (by simpa using kept)] at refused
  cases refused

/-! ### Strings -/

def parseHex : Bytes → Option (Fragment × Bytes)
  | a :: b :: c :: d :: rest =>
    if h : (isHex a = true ∧ isHex b = true) ∧ isHex c = true ∧ isHex d = true then
      some (.unicode ⟨a, h.1.1⟩ ⟨b, h.1.2⟩ ⟨c, h.2.1⟩ ⟨d, h.2.2⟩, rest)
    else none
  | _ => none

def parseEscape : Bytes → Option (Fragment × Bytes)
  | [] => none
  | e :: rest =>
    if h : isEscape e = true then some (.escape ⟨e, h⟩, rest)
    else if e = 0x75 then parseHex rest else none

def parseFragment : Bytes → Option (Fragment × Bytes)
  | [] => none
  | c :: rest =>
    if h : isRaw c = true then some (.raw ⟨c, h⟩, rest)
    else if c = 0x5C then parseEscape rest else none

variable {b r : Bytes} {t : Tree}

theorem parseFragment_sound {f : Fragment} (h : parseFragment b = some (f, r)) :
    b = f.text ++ r := by
  revert h
  fun_cases parseFragment b with
  | case1 => simp
  | case2 c rest raw => rintro ⟨⟩; rfl
  | case4 c rest _ _ => simp
  | case3 rest _ =>
    fun_cases parseEscape rest with
    | case1 => simp
    | case2 e rest simple => rintro ⟨⟩; rfl
    | case4 e rest _ _ => simp
    | case3 rest _ =>
      fun_cases parseHex rest with
      | case1 a b c d rest hex => rintro ⟨⟩; rfl
      | case2 a b c d rest _ => simp
      | case3 => simp

theorem parseFragment_text (f : Fragment) (r : Bytes) :
    parseFragment (f.text ++ r) = some (f, r) := by
  have backslash : isRaw 0x5C = false := by decide
  have u : isEscape 0x75 = false := by decide
  cases f with
  | raw b => simp [Fragment.text, parseFragment, b.2]
  | escape b => simp [Fragment.text, parseFragment, parseEscape, backslash, b.2]
  | unicode a b c d =>
    simp [Fragment.text, parseFragment, parseEscape, parseHex, backslash, u, a.2, b.2, c.2, d.2]

theorem head_text_ne_quote (f : Fragment) (r : Bytes) :
    (f.text ++ r).head? ≠ some 0x22 := by
  cases f with
  | raw b =>
    intro h
    have quote : b.1 = 0x22 := by simpa [Fragment.text] using h
    have raw := b.2
    rw [quote] at raw
    exact absurd raw (by decide)
  | escape b => simp [Fragment.text]
  | unicode a b c d => simp [Fragment.text]

/-- A string after its opening quote, with a bound on its steps. -/
def parseStr : ℕ → Bytes → Option (Str × Bytes)
  | 0, _ => none
  | n + 1, b =>
    if b.head? = some 0x22 then some ([], b.tail)
    else (parseFragment b).bind fun p => (parseStr n p.2).map fun q => (p.1 :: q.1, q.2)

theorem strText_cons (f : Fragment) (s : Str) : strText (f :: s) = f.text ++ strText s := by
  simp [strText]

theorem parseStr_sound {n : ℕ} {s : Str} (h : parseStr n b = some (s, r)) : b = strText s ++ r := by
  induction n generalizing b s with
  | zero => cases h
  | succ n ih =>
    unfold parseStr at h
    split at h
    · rename_i quote
      obtain ⟨rest, rfl⟩ := List.head?_eq_some_iff.mp quote
      cases h
      rfl
    · obtain ⟨⟨f, rest⟩, read, h⟩ := Option.bind_eq_some_iff.mp h
      obtain ⟨⟨s, r⟩, readRest, h⟩ := Option.map_eq_some_iff.mp h
      cases h
      have tail : rest = strText s ++ r := ih readRest
      rw [parseFragment_sound read, tail, strText_cons, List.append_assoc]

theorem parseStr_text (s : Str) (r : Bytes) {n : ℕ} (fuel : s.length < n) :
    parseStr n (strText s ++ r) = some (s, r) := by
  induction s generalizing n with
  | nil =>
    obtain ⟨n, rfl⟩ : ∃ m, n = m + 1 := ⟨n - 1, by omega⟩
    simp [parseStr, strText]
  | cons f s ih =>
    rw [List.length_cons] at fuel
    obtain ⟨n, rfl⟩ : ∃ m, n = m + 1 := ⟨n - 1, by omega⟩
    rw [strText_cons, List.append_assoc, parseStr, if_neg (head_text_ne_quote f _),
      parseFragment_text, Option.bind_some, ih (by omega), Option.map_some]

def readStr (b : Bytes) : Option (Str × Bytes) := parseStr b.length b

theorem length_lt_strText (s : Str) : s.length < (strText s).length := by
  induction s with
  | nil => simp [strText]
  | cons f s ih =>
    have size : 0 < f.text.length := by cases f <;> simp [Fragment.text]
    rw [strText_cons, List.length_append, List.length_cons]
    omega

theorem readStr_text (s : Str) (r : Bytes) : readStr (strText s ++ r) = some (s, r) := by
  refine parseStr_text s r ?_
  have size := length_lt_strText s
  rw [List.length_append]
  omega

/-! ### Numbers -/

def parseDigits (b : Bytes) : Option (Digits × Bytes) :=
  match span isDigit b with
  | ([], _) => none
  | (d :: ds, rest) => some (⟨d, ds⟩, rest)

theorem parseDigits_sound {d : Digits} (h : parseDigits b = some (d, r)) : b = d.text ++ r := by
  have whole := plain_span (p := isDigit) b
  unfold parseDigits at h
  split at h
  · cases h
  · rename_i d ds rest read
    cases h
    rw [read] at whole
    exact whole.symm

theorem parseDigits_text (d : Digits) (stop : Stops isDigit r) :
    parseDigits (d.text ++ r) = some (d, r) := by
  have read : span isDigit (d.text ++ r) = (d.first :: d.rest, r) :=
    span_plain_append (d.first :: d.rest) stop
  simp only [parseDigits, read]

def parseIntPart (b : Bytes) : Option (IntPart × Bytes) :=
  if b.head? = some 0x30 then some (.zero, b.tail)
  else (parseDigits b).bind fun p =>
    if h : p.1.first.1 ≠ 0x30 then some (.nonzero p.1 h, p.2) else none

theorem parseIntPart_sound {i : IntPart} (h : parseIntPart b = some (i, r)) : b = i.text ++ r := by
  unfold parseIntPart at h
  split at h
  · rename_i zero
    obtain ⟨rest, rfl⟩ := List.head?_eq_some_iff.mp zero
    cases h
    rfl
  · obtain ⟨⟨d, rest⟩, read, h⟩ := Option.bind_eq_some_iff.mp h
    split at h
    · cases h
      exact parseDigits_sound read
    · cases h

theorem parseIntPart_text (i : IntPart) (stop : Stops isDigit r) :
    parseIntPart (i.text ++ r) = some (i, r) := by
  cases i with
  | zero => rfl
  | nonzero d start =>
    have head : ¬(d.text ++ r).head? = some 0x30 := by simpa [Digits.text] using start
    rw [IntPart.text, parseIntPart, if_neg head, parseDigits_text d stop, Option.bind_some,
      dif_pos start]

def fracText (f : Option Digits) : Bytes := f.elim [] fun d => 0x2E :: d.text

def parseFrac (b : Bytes) : Option (Option Digits × Bytes) :=
  if b.head? = some 0x2E then (parseDigits b.tail).map fun p => (some p.1, p.2)
  else some (none, b)

theorem parseFrac_sound {f : Option Digits} (h : parseFrac b = some (f, r)) :
    b = fracText f ++ r := by
  unfold parseFrac at h
  split at h
  · rename_i point
    obtain ⟨rest, rfl⟩ := List.head?_eq_some_iff.mp point
    obtain ⟨⟨d, r⟩, read, h⟩ := Option.map_eq_some_iff.mp h
    cases h
    rw [List.tail_cons] at read
    rw [parseDigits_sound read]
    rfl
  · cases h
    rfl

def isFrac (b : UInt8) : Bool := isDigit b || b == 0x2E

theorem parseFrac_text (f : Option Digits) (stop : Stops isFrac r) :
    parseFrac (fracText f ++ r) = some (f, r) := by
  cases f with
  | none =>
    have head : ¬r.head? = some 0x2E := fun h => by
      have := stop _ h
      revert this
      decide
    exact if_neg head
  | some d =>
    have stop : Stops isDigit r := stop.mono fun a ha => by simp [isFrac, ha]
    simp [fracText, parseFrac, parseDigits_text d stop]

def parseSign (b : Bytes) : Option Bool × Bytes :=
  if b.head? = some 0x2B then (some false, b.tail)
  else if b.head? = some 0x2D then (some true, b.tail) else (none, b)

def parseExp (b : Bytes) : Option (Option Exponent × Bytes) :=
  if b.head? = some 0x65 ∨ b.head? = some 0x45 then
    (parseDigits (parseSign b.tail).2).map fun p =>
      (some ⟨b.head? == some 0x45, (parseSign b.tail).1, p.1⟩, p.2)
  else some (none, b)

def expText (e : Option Exponent) : Bytes := e.elim [] Exponent.text

def signText : Option Bool → Bytes
  | none => []
  | some false => [0x2B]
  | some true => [0x2D]

theorem Exponent.text_eq (e : Exponent) :
    e.text = (if e.upper then 0x45 else 0x65) :: (signText e.sign ++ e.digits.text) := by
  unfold Exponent.text signText
  rcases e.sign with _ | _ | _ <;> rfl

theorem signText_parseSign (b : Bytes) : signText (parseSign b).1 ++ (parseSign b).2 = b := by
  unfold parseSign
  split
  · rename_i plus
    obtain ⟨rest, rfl⟩ := List.head?_eq_some_iff.mp plus
    rfl
  · split
    · rename_i minus
      obtain ⟨rest, rfl⟩ := List.head?_eq_some_iff.mp minus
      rfl
    · rfl

theorem parseExp_sound {e : Option Exponent} (h : parseExp b = some (e, r)) :
    b = expText e ++ r := by
  unfold parseExp at h
  split at h
  · rename_i mark
    obtain ⟨⟨d, r⟩, read, h⟩ := Option.map_eq_some_iff.mp h
    cases h
    have tail : b.tail = signText (parseSign b.tail).1 ++ (d.text ++ r) := by
      rw [← parseDigits_sound read, signText_parseSign]
    simp only [expText, Option.elim_some, Exponent.text_eq, List.cons_append, List.append_assoc,
      ← tail]
    rcases mark with mark | mark <;>
    · obtain ⟨rest, rfl⟩ := List.head?_eq_some_iff.mp mark
      rfl
  · cases h
    rfl

def isNumeric (b : UInt8) : Bool := isFrac b || b == 0x65 || b == 0x45

theorem parseSign_text (sign : Option Bool) (d : Digits) (r : Bytes) :
    parseSign (signText sign ++ (d.text ++ r)) = (sign, d.text ++ r) := by
  rcases sign with _ | _ | _
  · have digit := d.first.2
    have plus : d.first.1 ≠ 0x2B := fun h => absurd (h ▸ digit) (by decide)
    have minus : d.first.1 ≠ 0x2D := fun h => absurd (h ▸ digit) (by decide)
    simp [signText, parseSign, Digits.text, plus, minus]
  · rfl
  · rfl

theorem parseExp_text (e : Option Exponent) (stop : Stops isNumeric r) :
    parseExp (expText e ++ r) = some (e, r) := by
  cases e with
  | none =>
    have small : ¬r.head? = some 0x65 := fun h => absurd (stop _ h) (by decide)
    have capital : ¬r.head? = some 0x45 := fun h => absurd (stop _ h) (by decide)
    exact if_neg (not_or.mpr ⟨small, capital⟩)
  | some e =>
    have stop : Stops isDigit r := stop.mono fun a ha => by simp [isNumeric, isFrac, ha]
    obtain ⟨upper, sign, digits⟩ := e
    cases upper <;>
      simp [expText, Exponent.text_eq, parseExp, parseSign_text, parseDigits_text digits stop]

def parseNumber (b : Bytes) : Option (Number × Bytes) :=
  (parseIntPart (if b.head? = some 0x2D then b.tail else b)).bind fun i =>
    (parseFrac i.2).bind fun f =>
      (parseExp f.2).map fun e => (⟨b.head? == some 0x2D, i.1, f.1, e.1⟩, e.2)

theorem Number.text_eq (n : Number) :
    n.text = (if n.negative then [0x2D] else []) ++ (n.int.text ++ (fracText n.frac ++
      expText n.exp)) := by
  simp [Number.text, fracText, expText]

theorem parseNumber_sound {n : Number} (h : parseNumber b = some (n, r)) : b = n.text ++ r := by
  obtain ⟨⟨i, r₁⟩, readInt, h⟩ := Option.bind_eq_some_iff.mp h
  obtain ⟨⟨f, r₂⟩, readFrac, h⟩ := Option.bind_eq_some_iff.mp h
  obtain ⟨⟨e, r₃⟩, readExp, h⟩ := Option.map_eq_some_iff.mp h
  cases h
  have body : (if b.head? = some 0x2D then b.tail else b) =
      i.text ++ (fracText f ++ (expText e ++ r₃)) := by
    have tail : r₁ = fracText f ++ r₂ := parseFrac_sound readFrac
    have last : r₂ = expText e ++ r₃ := parseExp_sound readExp
    rw [parseIntPart_sound readInt, tail, last]
  rw [Number.text_eq]
  simp only [List.append_assoc, ← body]
  by_cases minus : b.head? = some 0x2D
  · obtain ⟨rest, rfl⟩ := List.head?_eq_some_iff.mp minus
    rfl
  · simp [minus]

theorem stops_expText (e : Option Exponent) (stop : Stops isNumeric r) :
    Stops isFrac (expText e ++ r) := by
  cases e with
  | none => exact stop.mono fun a ha => by simp [isNumeric, ha]
  | some e =>
    rw [expText, Option.elim_some, Exponent.text_eq, List.cons_append]
    refine stops_cons ?_ _
    cases e.upper <;> decide

theorem stops_fracText (f : Option Digits) (stop : Stops isFrac r) :
    Stops isDigit (fracText f ++ r) := by
  cases f with
  | none => exact stop.mono fun a ha => by simp [isFrac, ha]
  | some d => exact stops_cons (by decide) _

theorem head_intPart (i : IntPart) : ∃ d : Digit, ∃ rest, i.text = d.1 :: rest := by
  cases i with
  | zero => exact ⟨⟨0x30, by decide⟩, [], rfl⟩
  | nonzero d start => exact ⟨d.first, plain d.rest, rfl⟩

theorem parseNumber_text (n : Number) (stop : Stops isNumeric r) :
    parseNumber (n.text ++ r) = some (n, r) := by
  have stopExp := stops_expText n.exp stop
  have stopFrac := stops_fracText n.frac stopExp
  have readInt := parseIntPart_text n.int stopFrac
  have whole : n.text ++ r = (if n.negative then [0x2D] else []) ++
      (n.int.text ++ (fracText n.frac ++ (expText n.exp ++ r))) := by
    simp [Number.text_eq]
  rw [whole]
  obtain ⟨negative, int, frac, exp⟩ := n
  cases negative with
  | true => simp [parseNumber, readInt, parseFrac_text frac stopExp, parseExp_text exp stop]
  | false =>
    obtain ⟨d, rest, hd⟩ := head_intPart int
    have minus : d.1 ≠ 0x2D := fun h => absurd (h ▸ d.2) (by decide)
    have head : ¬(int.text ++ (fracText frac ++ (expText exp ++ r))).head? = some 0x2D := by
      simpa [hd] using minus
    simp [parseNumber, -List.head?_append, head, readInt, parseFrac_text frac stopExp,
      parseExp_text exp stop]

/-! ### Trees -/

def skip (b : Bytes) : Blank × Bytes := span isBlank b

theorem plain_skip (b : Bytes) : plain (skip b).1 ++ (skip b).2 = b := plain_span b

theorem skip_plain (w : Blank) (stop : Stops isBlank r) : skip (plain w ++ r) = (w, r) :=
  span_plain_append w stop

def parseWord (word : Bytes) (t : Tree) (b : Bytes) : Option (Tree × Bytes) :=
  if word <+: b then some (t, b.drop word.length) else none

mutual

/-- A value, with a bound on the depth of the reader's calls. -/
def parseTree : ℕ → Bytes → Option (Tree × Bytes)
  | 0, _ => none
  | n + 1, b =>
    if b.head? = some 0x22 then (readStr b.tail).map fun p => (.string p.1, p.2)
    else if b.head? = some 0x5B then
      if (skip b.tail).2.head? = some 0x5D then
        some (.emptyArray (skip b.tail).1, (skip b.tail).2.tail)
      else (parseItems n (skip b.tail).2).map fun p => (.array (skip b.tail).1 p.1, p.2)
    else if b.head? = some 0x7B then
      if (skip b.tail).2.head? = some 0x7D then
        some (.emptyObject (skip b.tail).1, (skip b.tail).2.tail)
      else (parseMembers n (skip b.tail).2).map fun p => (.object (skip b.tail).1 p.1, p.2)
    else if b.head? = some 0x6E then parseWord [0x6E, 0x75, 0x6C, 0x6C] .null b
    else if b.head? = some 0x74 then parseWord [0x74, 0x72, 0x75, 0x65] (.bool true) b
    else if b.head? = some 0x66 then parseWord [0x66, 0x61, 0x6C, 0x73, 0x65] (.bool false) b
    else (parseNumber b).map fun p => (.number p.1, p.2)

def parseItems : ℕ → Bytes → Option (Items × Bytes)
  | 0, _ => none
  | n + 1, b => (parseTree n b).bind fun p =>
    if (skip p.2).2.head? = some 0x5D then some (.last p.1 (skip p.2).1, (skip p.2).2.tail)
    else if (skip p.2).2.head? = some 0x2C then
      (parseItems n (skip (skip p.2).2.tail).2).map fun q =>
        (.more p.1 (skip p.2).1 (skip (skip p.2).2.tail).1 q.1, q.2)
    else none

def parseMembers : ℕ → Bytes → Option (Members × Bytes)
  | 0, _ => none
  | n + 1, b =>
    if b.head? = some 0x22 then
      (readStr b.tail).bind fun k =>
        if (skip k.2).2.head? = some 0x3A then
          (parseTree n (skip (skip k.2).2.tail).2).bind fun p =>
            if (skip p.2).2.head? = some 0x7D then
              some (.last k.1 (skip k.2).1 (skip (skip k.2).2.tail).1 p.1 (skip p.2).1,
                (skip p.2).2.tail)
            else if (skip p.2).2.head? = some 0x2C then
              (parseMembers n (skip (skip p.2).2.tail).2).map fun q =>
                (.more k.1 (skip k.2).1 (skip (skip k.2).2.tail).1 p.1 (skip p.2).1
                  (skip (skip p.2).2.tail).1 q.1, q.2)
            else none
        else none
    else none

end

theorem parseWord_sound {word : Bytes} {u : Tree} (spelled : t.text = word)
    (h : parseWord word t b = some (u, r)) : b = u.text ++ r := by
  unfold parseWord at h
  split at h
  · rename_i front
    cases h
    rw [spelled]
    exact (List.prefix_iff_eq_append.mp front).symm
  · cases h

theorem eq_of_skip_head {c : UInt8} (h : (skip b).2.head? = some c) :
    b = plain (skip b).1 ++ c :: (skip b).2.tail := by
  obtain ⟨rest, hr⟩ := List.head?_eq_some_iff.mp h
  have whole := plain_skip b
  rw [hr] at whole
  rw [hr, List.tail_cons, whole]

section Soundness

variable (n : ℕ)

/-- What `n` steps of the three readers return spells what they took. -/
structure Sound : Prop where
  tree : ∀ {b r : Bytes} {t : Tree}, parseTree n b = some (t, r) → b = t.text ++ r
  items : ∀ {b r : Bytes} {t : Items}, parseItems n b = some (t, r) → b = t.text ++ r
  members : ∀ {b r : Bytes} {t : Members}, parseMembers n b = some (t, r) → b = t.text ++ r

variable {n}

theorem Sound.tree_succ (ih : Sound n) {b r : Bytes} {t : Tree}
    (h : parseTree (n + 1) b = some (t, r)) : b = t.text ++ r := by
  unfold parseTree at h
  split at h
  · rename_i quote
    obtain ⟨rest, rfl⟩ := List.head?_eq_some_iff.mp quote
    obtain ⟨⟨s, r⟩, read, h⟩ := Option.map_eq_some_iff.mp h
    cases h
    have tail : rest = strText s ++ r := parseStr_sound read
    rw [tail]
    rfl
  split at h
  · rename_i bracket
    obtain ⟨rest, rfl⟩ := List.head?_eq_some_iff.mp bracket
    rw [List.tail_cons] at h
    split at h
    · rename_i closed
      cases h
      rw [Tree.text, List.cons_append, List.append_assoc, List.singleton_append,
        ← eq_of_skip_head closed]
    · obtain ⟨⟨items, r⟩, read, h⟩ := Option.map_eq_some_iff.mp h
      cases h
      rw [Tree.text, List.cons_append, List.append_assoc, ← ih.items read, plain_skip]
  split at h
  · rename_i brace
    obtain ⟨rest, rfl⟩ := List.head?_eq_some_iff.mp brace
    rw [List.tail_cons] at h
    split at h
    · rename_i closed
      cases h
      rw [Tree.text, List.cons_append, List.append_assoc, List.singleton_append,
        ← eq_of_skip_head closed]
    · obtain ⟨⟨members, r⟩, read, h⟩ := Option.map_eq_some_iff.mp h
      cases h
      rw [Tree.text, List.cons_append, List.append_assoc, ← ih.members read, plain_skip]
  split at h
  · exact parseWord_sound (t := .null) rfl h
  split at h
  · exact parseWord_sound (t := .bool true) rfl h
  split at h
  · exact parseWord_sound (t := .bool false) rfl h
  · obtain ⟨⟨m, r⟩, read, h⟩ := Option.map_eq_some_iff.mp h
    cases h
    exact parseNumber_sound read

theorem Sound.items_succ (ih : Sound n) {b r : Bytes} {t : Items}
    (h : parseItems (n + 1) b = some (t, r)) : b = t.text ++ r := by
  unfold parseItems at h
  obtain ⟨⟨u, rest⟩, read, h⟩ := Option.bind_eq_some_iff.mp h
  rw [ih.tree read]
  split at h
  · rename_i closed
    cases h
    rw [Items.text, List.append_assoc, List.append_assoc, List.singleton_append,
      ← eq_of_skip_head closed]
  split at h
  · rename_i comma
    obtain ⟨⟨more, r⟩, readMore, h⟩ := Option.map_eq_some_iff.mp h
    cases h
    rw [Items.text, List.append_assoc, List.append_assoc, List.cons_append, List.append_assoc,
      ← ih.items readMore, plain_skip, ← eq_of_skip_head comma]
  · cases h

theorem Sound.members_succ (ih : Sound n) {b r : Bytes} {t : Members}
    (h : parseMembers (n + 1) b = some (t, r)) : b = t.text ++ r := by
  unfold parseMembers at h
  split at h
  case isFalse => cases h
  rename_i quote
  obtain ⟨afterQuote, rfl⟩ := List.head?_eq_some_iff.mp quote
  obtain ⟨⟨key, afterKey⟩, readKey, h⟩ := Option.bind_eq_some_iff.mp h
  split at h
  case isFalse => cases h
  rename_i colon
  replace colon : (skip afterKey).2.head? = some 0x3A := colon
  obtain ⟨⟨u, rest⟩, read, h⟩ := Option.bind_eq_some_iff.mp h
  have tail : afterQuote = strText key ++ afterKey := parseStr_sound readKey
  have value : (skip (skip afterKey).2.tail).2 = u.text ++ rest := ih.tree read
  have afterColon : (skip afterKey).2.tail =
      plain (skip (skip afterKey).2.tail).1 ++ (u.text ++ rest) := by
    rw [← value, plain_skip]
  rw [tail, eq_of_skip_head colon]
  split at h
  · rename_i closed
    cases h
    simp only [Members.text, List.cons_append, List.append_assoc, List.nil_append]
    rw [← eq_of_skip_head closed, ← afterColon]
  split at h
  · rename_i comma
    obtain ⟨⟨more, r⟩, readMore, h⟩ := Option.map_eq_some_iff.mp h
    cases h
    simp only [Members.text, List.cons_append, List.append_assoc]
    rw [← ih.members readMore, plain_skip, ← eq_of_skip_head comma, ← afterColon]
  · cases h

theorem sound (n : ℕ) : Sound n := by
  induction n with
  | zero =>
    constructor <;>
    · intro b r t h
      cases h
  | succ n ih => exact ⟨ih.tree_succ, ih.items_succ, ih.members_succ⟩

end Soundness

def startsNumber (b : UInt8) : Bool := b == 0x2D || isDigit b

def startsValue (b : UInt8) : Bool :=
  [0x22, 0x5B, 0x7B, 0x6E, 0x74, 0x66].contains b || startsNumber b

theorem Number.text_head (n : Number) :
    ∃ c rest, n.text = c :: rest ∧ startsNumber c = true := by
  rw [Number.text_eq]
  cases n.negative with
  | true => exact ⟨0x2D, _, rfl, by decide⟩
  | false =>
    obtain ⟨d, rest, hd⟩ := head_intPart n.int
    refine ⟨d.1, rest ++ (fracText n.frac ++ expText n.exp), ?_, by simp [startsNumber, d.2]⟩
    rw [hd]
    rfl

theorem Tree.text_head (t : Tree) : ∃ c rest, t.text = c :: rest ∧ startsValue c = true := by
  cases t with
  | null | string | emptyArray | array | emptyObject | object =>
    exact ⟨_, _, by rw [Tree.text], by decide⟩
  | bool value => cases value <;> exact ⟨_, _, by rw [Tree.text], by decide⟩
  | number n =>
    obtain ⟨c, rest, hc, start⟩ := n.text_head
    exact ⟨c, rest, by rw [Tree.text, hc], by simp [startsValue, start]⟩

theorem Items.text_head (items : Items) :
    ∃ c rest, items.text = c :: rest ∧ startsValue c = true := by
  cases items with
  | last t after =>
    obtain ⟨c, rest, hc, start⟩ := t.text_head
    exact ⟨c, _, by rw [Items.text, hc, List.cons_append], start⟩
  | more t after before items =>
    obtain ⟨c, rest, hc, start⟩ := t.text_head
    exact ⟨c, _, by rw [Items.text, hc, List.cons_append], start⟩

theorem eq_of_isBlank {b : UInt8} (blank : isBlank b = true) :
    b = 0x20 ∨ b = 0x09 ∨ b = 0x0A ∨ b = 0x0D := by
  simpa only [isBlank, Bool.or_eq_true, beq_iff_eq, or_assoc] using blank

theorem isBlank_of_startsValue {c : UInt8} (start : startsValue c = true) :
    isBlank c = false := by
  rw [← Bool.not_eq_true]
  intro blank
  rcases eq_of_isBlank blank with rfl | rfl | rfl | rfl <;> exact absurd start (by decide)

theorem Tree.stops_text (t : Tree) (r : Bytes) : Stops isBlank (t.text ++ r) := by
  obtain ⟨c, rest, hc, start⟩ := t.text_head
  rw [hc]
  exact stops_cons (isBlank_of_startsValue start) _

theorem Items.stops_text (items : Items) (r : Bytes) : Stops isBlank (items.text ++ r) := by
  obtain ⟨c, rest, hc, start⟩ := items.text_head
  rw [hc]
  exact stops_cons (isBlank_of_startsValue start) _

theorem Items.head_ne_bracket (items : Items) (r : Bytes) :
    ¬(items.text ++ r).head? = some 0x5D := by
  obtain ⟨c, rest, hc, start⟩ := items.text_head
  have other : c ≠ 0x5D := fun h => absurd (h ▸ start) (by decide)
  simpa [hc] using other

theorem Members.text_head (members : Members) : ∃ rest, members.text = 0x22 :: rest := by
  cases members <;> exact ⟨_, by rw [Members.text]⟩

theorem Members.stops_text (members : Members) (r : Bytes) :
    Stops isBlank (members.text ++ r) := by
  obtain ⟨rest, hc⟩ := members.text_head
  rw [hc]
  exact stops_cons (by decide) _

theorem stops_plain (w : Blank) (stop : Stops isNumeric r) : Stops isNumeric (plain w ++ r) := by
  cases w with
  | nil => exact stop
  | cons b w =>
    refine stops_cons ?_ _
    rcases eq_of_isBlank b.2 with h | h | h | h <;> rw [h] <;> decide

section Completeness

variable (n : ℕ)

/-- With `n` steps the three readers find every phrase of at most `n` bytes. A number is found
whole only where nothing goes on with it. -/
structure Complete : Prop where
  tree : ∀ (t : Tree) {r : Bytes}, t.text.length ≤ n →
    (∀ m, t = .number m → Stops isNumeric r) → parseTree n (t.text ++ r) = some (t, r)
  items : ∀ (t : Items) (r : Bytes), t.text.length ≤ n →
    parseItems n (t.text ++ r) = some (t, r)
  members : ∀ (t : Members) (r : Bytes), t.text.length ≤ n →
    parseMembers n (t.text ++ r) = some (t, r)

variable {n}

theorem parseTree_number (m : Number) {r : Bytes} (stop : Stops isNumeric r) :
    parseTree (n + 1) (m.text ++ r) = some (.number m, r) := by
  obtain ⟨c, rest, hc, start⟩ := m.text_head
  have head : (m.text ++ r).head? = some c := by simp [hc]
  -- none of the other phrases starts as a number does
  have other : ∀ {x : UInt8}, startsNumber x = false → ¬some c = some x := by
    intro x hx h
    cases h
    rw [start] at hx
    cases hx
  rw [parseTree, head, if_neg (other (by decide)), if_neg (other (by decide)),
    if_neg (other (by decide)), if_neg (other (by decide)), if_neg (other (by decide)),
    if_neg (other (by decide)), parseNumber_text m stop, Option.map_some]

theorem Complete.tree_succ (ih : Complete n) (t : Tree) {r : Bytes}
    (size : t.text.length ≤ n + 1) (stop : ∀ m, t = .number m → Stops isNumeric r) :
    parseTree (n + 1) (t.text ++ r) = some (t, r) := by
  cases t with
  | null => simp [Tree.text, parseTree, parseWord]
  | bool value => cases value <;> simp [Tree.text, parseTree, parseWord]
  | number m =>
    rw [Tree.text]
    exact parseTree_number m (stop m rfl)
  | string s => simp [Tree.text, parseTree, readStr_text]
  | emptyArray inside =>
    have read := skip_plain inside (stops_cons (by decide : isBlank 0x5D = false) r)
    simp [Tree.text, parseTree, read]
  | array lead items =>
    have read := skip_plain lead (items.stops_text r)
    rw [Tree.text, List.length_cons, List.length_append] at size
    have found := ih.items items r (by omega)
    have bracket := items.head_ne_bracket r
    simp [-List.head?_append, Tree.text, parseTree, read, bracket, found]
  | emptyObject inside =>
    have read := skip_plain inside (stops_cons (by decide : isBlank 0x7D = false) r)
    simp [Tree.text, parseTree, read]
  | object lead members =>
    have read := skip_plain lead (members.stops_text r)
    rw [Tree.text, List.length_cons, List.length_append] at size
    have found := ih.members members r (by omega)
    have brace : ¬(members.text ++ r).head? = some 0x7D := by
      obtain ⟨rest, hc⟩ := members.text_head
      simp [hc]
    simp [-List.head?_append, Tree.text, parseTree, read, brace, found]

/-- A value with blanks behind it, up to a byte that goes with neither. -/
theorem Complete.value (ih : Complete n) (t : Tree) (after : Blank) {c : UInt8}
    (ends : isNumeric c = false ∧ isBlank c = false) (r : Bytes) (size : t.text.length ≤ n) :
    parseTree n (t.text ++ (plain after ++ c :: r)) = some (t, plain after ++ c :: r) ∧
      skip (plain after ++ c :: r) = (after, c :: r) :=
  ⟨ih.tree t size fun _ _ => stops_plain after (stops_cons ends.1 r),
    skip_plain after (stops_cons ends.2 r)⟩

theorem Complete.items_succ (ih : Complete n) (t : Items) (r : Bytes)
    (size : t.text.length ≤ n + 1) : parseItems (n + 1) (t.text ++ r) = some (t, r) := by
  cases t with
  | last t after =>
    simp only [Items.text, List.length_append, List.length_singleton] at size
    obtain ⟨found, read⟩ := ih.value t after (by decide : _ ∧ isBlank 0x5D = false) r (by omega)
    simp [Items.text, parseItems, found, read]
  | more t after before rest =>
    simp only [Items.text, List.length_append, List.length_cons] at size
    obtain ⟨found, read⟩ := ih.value t after (by decide : _ ∧ isBlank 0x2C = false)
      (plain before ++ (rest.text ++ r)) (by omega)
    have readNext := skip_plain before (rest.stops_text r)
    have foundRest := ih.items rest r (by omega)
    simp [Items.text, parseItems, found, read, readNext, foundRest]

/-- The colon and the blanks around it, between a key and its value. -/
theorem skip_colon (colon value : Blank) (t : Tree) (r : Bytes) :
    skip (plain colon ++ 0x3A :: (plain value ++ (t.text ++ r))) =
        (colon, 0x3A :: (plain value ++ (t.text ++ r))) ∧
      skip (plain value ++ (t.text ++ r)) = (value, t.text ++ r) :=
  ⟨skip_plain colon (stops_cons (by decide) _), skip_plain value (t.stops_text r)⟩

theorem Complete.members_succ (ih : Complete n) (t : Members) (r : Bytes)
    (size : t.text.length ≤ n + 1) : parseMembers (n + 1) (t.text ++ r) = some (t, r) := by
  cases t with
  | last key colon value t after =>
    simp only [Members.text, List.length_append, List.length_cons] at size
    obtain ⟨readColon, readValue⟩ := skip_colon colon value t (plain after ++ 0x7D :: r)
    obtain ⟨found, read⟩ := ih.value t after (by decide : _ ∧ isBlank 0x7D = false) r (by omega)
    simp [Members.text, parseMembers, readStr_text, readColon, readValue, found, read]
  | more key colon value t after before rest =>
    simp only [Members.text, List.length_append, List.length_cons] at size
    obtain ⟨readColon, readValue⟩ := skip_colon colon value t
      (plain after ++ 0x2C :: (plain before ++ (rest.text ++ r)))
    obtain ⟨found, read⟩ := ih.value t after (by decide : _ ∧ isBlank 0x2C = false)
      (plain before ++ (rest.text ++ r)) (by omega)
    have readNext := skip_plain before (rest.stops_text r)
    have foundRest := ih.members rest r (by omega)
    simp [Members.text, parseMembers, readStr_text, readColon, readValue, found, read, readNext,
      foundRest]

theorem complete (n : ℕ) : Complete n := by
  induction n with
  | zero =>
    refine ⟨fun t r size _ => ?_, fun t r size => ?_, fun t r size => ?_⟩
    · obtain ⟨c, rest, hc, -⟩ := t.text_head
      simp [hc] at size
    · obtain ⟨c, rest, hc, -⟩ := t.text_head
      simp [hc] at size
    · obtain ⟨rest, hc⟩ := t.text_head
      simp [hc] at size
  | succ n ih => exact ⟨ih.tree_succ, ih.items_succ, ih.members_succ⟩

end Completeness

/-! ### Documents -/

def readValue (b : Bytes) : Option (Tree × Bytes) := parseTree (skip b).2.length (skip b).2

theorem readValue_sound (h : readValue b = some (t, r)) :
    b = plain (skip b).1 ++ (t.text ++ r) := by
  rw [← (sound _).tree h, plain_skip]

theorem readValue_text (lead : Blank) (t : Tree) (stop : ∀ m, t = .number m → Stops isNumeric r) :
    readValue (plain lead ++ (t.text ++ r)) = some (t, r) := by
  have size : t.text.length ≤ (t.text ++ r).length := by simp
  rw [readValue, skip_plain lead (t.stops_text r)]
  exact (complete _).tree t size stop

/-- The bytes are one JSON text and nothing else. -/
def IsText (t : Tree) (b : Bytes) : Prop :=
  ∃ lead trail : Blank, b = plain lead ++ (t.text ++ plain trail)

def readDocument (b : Bytes) : Option Tree :=
  (readValue b).bind fun p => if (skip p.2).2 = [] then some p.1 else none

theorem stops_nil {α : Type} (p : α → Bool) : Stops p [] := fun _ h => by cases h

theorem readDocument_eq_some : readDocument b = some t ↔ IsText t b := by
  constructor
  · intro h
    obtain ⟨⟨u, r⟩, read, h⟩ := Option.bind_eq_some_iff.mp h
    split at h
    · rename_i ended
      cases h
      have trail : plain (skip r).1 = r := by
        have whole := plain_skip r
        rwa [ended, List.append_nil] at whole
      exact ⟨(skip b).1, (skip r).1, by rw [trail]; exact readValue_sound read⟩
    · cases h
  · rintro ⟨lead, trail, rfl⟩
    have ends : Stops isNumeric (plain trail) := by
      have := stops_plain trail (stops_nil isNumeric)
      rwa [List.append_nil] at this
    have blanks : skip (plain trail) = (trail, []) := by
      have := skip_plain trail (stops_nil isBlank)
      rwa [List.append_nil] at this
    rw [readDocument, readValue_text lead t fun _ _ => ends, Option.bind_some, blanks, if_pos rfl]

end Hookubit.Data.JsonText
