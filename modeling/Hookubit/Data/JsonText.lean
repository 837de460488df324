/- digest: JSON texts as byte strings: the grammar, written as trees that keep their spelling. -/

import Hookubit.Data.Int64

/-!
A tree is a derivation of the grammar: it keeps the blanks, the escapes and the digits, so that
`Tree.text` gives back the very bytes it was read from. A string is read bytewise and its raw
bytes need not be UTF-8.
-/

set_option autoImplicit false
set_option relaxedAutoImplicit false

namespace Hookubit.Data.JsonText

open Data.Utf8 (Bytes)
open Data.Int64 (isDigit)

section Span

variable {α : Type} {p : α → Bool}

/-- The longest run at the front whose elements satisfy `p`, and what follows it. -/
def span (p : α → Bool) : List α → List { a // p a = true } × List α
  | [] => ([], [])
  | a :: l => if h : p a = true then (⟨a, h⟩ :: (span p l).1, (span p l).2) else ([], a :: l)

def plain (run : List { a // p a = true }) : List α := run.map Subtype.val

@[simp]
theorem plain_nil : plain ([] : List { a // p a = true }) = [] := rfl

@[simp]
theorem plain_cons (a : { a // p a = true }) (run : List { a // p a = true }) :
    plain (a :: run) = a.1 :: plain run := rfl

theorem plain_span (l : List α) : plain (span p l).1 ++ (span p l).2 = l := by
  induction l with
  | nil => rfl
  | cons a l ih =>
    unfold span
    split
    · rw [plain_cons, List.cons_append, ih]
    · rfl

/-- What follows a run does not continue it. -/
def Stops (p : α → Bool) (l : List α) : Prop := ∀ a ∈ l.head?, p a = false

theorem stops_cons {a : α} (h : p a = false) (l : List α) : Stops p (a :: l) := by
  intro b hb
  cases hb
  exact h

theorem span_plain_append (run : List { a // p a = true }) {rest : List α} (stop : Stops p rest) :
    span p (plain run ++ rest) = (run, rest) := by
  induction run with
  | nil =>
    cases rest with
    | nil => rfl
    | cons a l =>
      have refused : ¬p a = true := by simp [stop a rfl]
      simp only [plain_nil, List.nil_append, span, dif_neg refused]
  | cons a run ih => simp only [plain_cons, List.cons_append, span, dif_pos a.2, ih]

end Span

def isBlank (b : UInt8) : Bool := b == 0x20 || b == 0x09 || b == 0x0A || b == 0x0D

abbrev Blank := List { b // isBlank b = true }

def isRaw (b : UInt8) : Bool := 0x20 ≤ b && b != 0x22 && b != 0x5C

def isEscape (b : UInt8) : Bool :=
  [0x22, 0x5C, 0x2F, 0x62, 0x66, 0x6E, 0x72, 0x74].contains b

def isHex (b : UInt8) : Bool :=
  isDigit b || (0x61 ≤ b && b ≤ 0x66) || (0x41 ≤ b && b ≤ 0x46)

abbrev Hex := { b // isHex b = true }

/-- One step of a string: a byte, an escape, or a code unit in hexadecimal. -/
inductive Fragment
  | raw (b : { b // isRaw b = true })
  | escape (b : { b // isEscape b = true })
  | unicode (a b c d : Hex)
  deriving DecidableEq

def Fragment.text : Fragment → Bytes
  | .raw b => [b.1]
  | .escape b => [0x5C, b.1]
  | .unicode a b c d => [0x5C, 0x75, a.1, b.1, c.1, d.1]

abbrev Str := List Fragment

def strText (s : Str) : Bytes := s.flatMap Fragment.text ++ [0x22]

abbrev Digit := { b // isDigit b = true }

structure Digits where
  first : Digit
  rest : List Digit
  deriving DecidableEq

def Digits.text (d : Digits) : Bytes := d.first.1 :: plain d.rest

/-- The digits before the point: a single zero, or some that start with none. -/
inductive IntPart
  | zero
  | nonzero (digits : Digits) (start : digits.first.1 ≠ 0x30)
  deriving DecidableEq

def IntPart.text : IntPart → Bytes
  | .zero => [0x30]
  | .nonzero digits _ => digits.text

structure Exponent where
  upper : Bool
  sign : Option Bool
  digits : Digits
  deriving DecidableEq

def Exponent.text (e : Exponent) : Bytes :=
  (if e.upper then 0x45 else 0x65) ::
    ((match e.sign with
      | none => []
      | some false => [0x2B]
      | some true => [0x2D]) ++ e.digits.text)

structure Number where
  negative : Bool
  int : IntPart
  frac : Option Digits
  exp : Option Exponent
  deriving DecidableEq

def Number.text (n : Number) : Bytes :=
  (if n.negative then [0x2D] else []) ++ n.int.text ++
    (n.frac.elim [] fun d => 0x2E :: d.text) ++ n.exp.elim [] Exponent.text

mutual

inductive Tree
  | null
  | bool (value : Bool)
  | number (n : Number)
  | string (s : Str)
  | emptyArray (inside : Blank)
  | array (lead : Blank) (items : Items)
  | emptyObject (inside : Blank)
  | object (lead : Blank) (members : Members)

inductive Items
  | last (t : Tree) (after : Blank)
  | more (t : Tree) (after before : Blank) (rest : Items)

inductive Members
  | last (key : Str) (colon value : Blank) (t : Tree) (after : Blank)
  | more (key : Str) (colon value : Blank) (t : Tree) (after before : Blank) (rest : Members)

end

mutual

def Tree.text : Tree → Bytes
  | .null => [0x6E, 0x75, 0x6C, 0x6C]
  | .bool true => [0x74, 0x72, 0x75, 0x65]
  | .bool false => [0x66, 0x61, 0x6C, 0x73, 0x65]
  | .number n => n.text
  | .string s => 0x22 :: strText s
  | .emptyArray inside => 0x5B :: (plain inside ++ [0x5D])
  | .array lead items => 0x5B :: (plain lead ++ items.text)
  | .emptyObject inside => 0x7B :: (plain inside ++ [0x7D])
  | .object lead members => 0x7B :: (plain lead ++ members.text)

def Items.text : Items → Bytes
  | .last t after => t.text ++ (plain after ++ [0x5D])
  | .more t after before rest => t.text ++ (plain after ++ 0x2C :: (plain before ++ rest.text))

def Members.text : Members → Bytes
  | .last key colon value t after =>
    0x22 :: (strText key ++ (plain colon ++ 0x3A :: (plain value ++
      (t.text ++ (plain after ++ [0x7D])))))
  | .more key colon value t after before rest =>
    0x22 :: (strText key ++ (plain colon ++ 0x3A :: (plain value ++
      (t.text ++ (plain after ++ 0x2C :: (plain before ++ rest.text))))))

end

mutual

def Tree.strings : Tree → List Str
  | .string s => [s]
  | .array _ items => items.strings
  | .object _ members => members.strings
  | _ => []

def Items.strings : Items → List Str
  | .last t _ => t.strings
  | .more t _ _ rest => t.strings ++ rest.strings

def Members.strings : Members → List Str
  | .last key _ _ t _ => key :: t.strings
  | .more key _ _ t _ _ rest => key :: (t.strings ++ rest.strings)

end

mutual

def Tree.numbers : Tree → List Number
  | .number n => [n]
  | .array _ items => items.numbers
  | .object _ members => members.numbers
  | _ => []

def Items.numbers : Items → List Number
  | .last t _ => t.numbers
  | .more t _ _ rest => t.numbers ++ rest.numbers

def Members.numbers : Members → List Number
  | .last _ _ _ t _ => t.numbers
  | .more _ _ _ t _ _ rest => t.numbers ++ rest.numbers

end

mutual

def Tree.depth : Tree → ℕ
  | .emptyArray _ | .emptyObject _ => 1
  | .array _ items => items.depth + 1
  | .object _ members => members.depth + 1
  | _ => 0

def Items.depth : Items → ℕ
  | .last t _ => t.depth
  | .more t _ _ rest => max t.depth rest.depth

def Members.depth : Members → ℕ
  | .last _ _ _ t _ => t.depth
  | .more _ _ _ t _ _ rest => max t.depth rest.depth

end

def Tree.isObject : Tree → Bool
  | .emptyObject _ | .object _ _ => true
  | _ => false

def Members.list : Members → List (Str × Tree)
  | .last key _ _ t _ => [(key, t)]
  | .more key _ _ t _ _ rest => (key, t) :: rest.list

end Hookubit.Data.JsonText
