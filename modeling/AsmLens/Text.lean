/-!
# Texts

What the library does with texts: how long they are, where their lines and places are, which of their
characters are blank, how they are put together around gaps, and how they are written into an address.
-/

namespace AsmLens.Text

/-! ## Sixteen-bit units

Columns, lengths and the order of texts are measured in sixteen-bit units: a character of the basic
plane takes one of them, any other character a surrogate pair.
-/

/-- The units of a character. -/
def unitsOf (c : Char) : List Nat :=
  if c.toNat < 0x10000 then [c.toNat]
  else [0xD800 + (c.toNat - 0x10000) / 0x400, 0xDC00 + (c.toNat - 0x10000) % 0x400]

def width (c : Char) : Nat := if c.toNat < 0x10000 then 1 else 2

def units (s : String) : List Nat := s.toList.flatMap unitsOf

/-- The length of a text in units. -/
def length16 (s : String) : Nat := s.toList.foldr (fun c n => width c + n) 0

def unitsLe : List Nat → List Nat → Bool
  | [], _ => true
  | _ :: _, [] => false
  | a :: as, b :: bs => if a = b then unitsLe as bs else a < b

/-- The order of texts by their units. -/
def le (s t : String) : Bool := unitsLe (units s) (units t)

/-- A list ordered by the text of each member; members with equal texts keep their order. -/
def sortBy {α : Type} (key : α → String) (l : List α) : List α :=
  l.mergeSort fun a b => le (key a) (key b)

/-! ## Blank characters

The characters that count as empty space at the ends of a text: the controls from tab to carriage
return, the spaces of every width, the two line separators and the byte order mark. The next line
control, the zero width space and the vowel separator are not among them.
-/

/-- The blank characters, as closed intervals of code points. -/
def blankRanges : List (Nat × Nat) :=
  [(0x09, 0x0D), (0x20, 0x20), (0xA0, 0xA0), (0x1680, 0x1680), (0x2000, 0x200A), (0x2028, 0x2029),
    (0x202F, 0x202F), (0x205F, 0x205F), (0x3000, 0x3000), (0xFEFF, 0xFEFF)]

def isBlank (c : Char) : Bool :=
  blankRanges.any fun r => r.1 ≤ c.toNat && c.toNat ≤ r.2

def trimmed (s : String) : String :=
  String.ofList ((s.toList.dropWhile isBlank).reverse.dropWhile isBlank).reverse

/-! ## Lines and places

A text is a list of lines, separated by line feeds and nothing else: a carriage return or a line
separator stays inside its line. A text has at least one line, and `joinLines` puts the lines of a
text together again.

A place in a text is a line and a column of it. One past the end of its line is at that end, and one
past the last line at the end of the text.
-/

/-- The parts of a list between the occurrences of `sep`. There is always at least one. -/
def splitAt (sep : Char) : List Char → List (List Char)
  | [] => [[]]
  | c :: cs =>
    if c = sep then [] :: splitAt sep cs
    else
      match splitAt sep cs with
      | [] => [[c]]
      | part :: parts => (c :: part) :: parts

def lines (s : String) : List String := (splitAt '\n' s.toList).map String.ofList

def joinLines (ls : List String) : String := "\n".intercalate ls

/-- What stands before a place, and what stands after it. A place inside a surrogate pair is before it. -/
def splitPlace (line column : Nat) : List Char → List Char × List Char
  | [] => ([], [])
  | c :: cs =>
    match line with
    | 0 =>
      if c = '\n' ∨ column < width c then ([], c :: cs)
      else (splitPlace 0 (column - width c) cs).map (c :: ·) id
    | line + 1 => (splitPlace (if c = '\n' then line else line + 1) column cs).map (c :: ·) id

/-! ## Texts with gaps

A text with gaps is a text and, behind each gap, another text. `weave` puts it together once something
stands in every gap.
-/

/-- The text that starts with `first` and goes on with the pairs: what stands in a gap, and what stands
behind it. -/
def weave (first : String) : List (String × String) → String
  | [] => first
  | (inserted, behind) :: rest => first ++ (inserted ++ weave behind rest)

theorem append_weave (s first : String) (rest : List (String × String)) :
    s ++ weave first rest = weave (s ++ first) rest := by
  cases rest <;> simp [weave, String.append_assoc]

theorem prefix_weave (first : String) (rest : List (String × String)) :
    first.toList <+: (weave first rest).toList := by
  cases rest <;> simp [weave]

/-! ## Percent-encoding

`Percent.encode` writes a text so that it fits into one segment of an address: letters, digits and
the marks `-_.!~*'()` stand for themselves, and every byte of the encoding of any other character is
written as `%` and two digits. `Percent.decode` reads such a segment back.
-/

namespace Percent

/-- The characters that stand for themselves. -/
def isPlain (c : Char) : Bool :=
  c.isAlphanum || "-_.!~*'()".toList.contains c

def hexDigit (n : Nat) : Char :=
  if n < 10 then Char.ofNat (48 + n) else Char.ofNat (55 + n)

def encodeByte (b : UInt8) : List Char := ['%', hexDigit (b.toNat / 16), hexDigit (b.toNat % 16)]

def encodeChar (c : Char) : List Char :=
  if isPlain c then [c] else (String.utf8EncodeChar c).flatMap encodeByte

/-- The written form of a text. -/
def encode (s : String) : String := String.ofList (s.toList.flatMap encodeChar)

def hexValue? (c : Char) : Option Nat :=
  if '0' ≤ c ∧ c ≤ '9' then some (c.toNat - 48)
  else if 'A' ≤ c ∧ c ≤ 'F' then some (c.toNat - 55)
  else if 'a' ≤ c ∧ c ≤ 'f' then some (c.toNat - 87)
  else none

/-- The bytes that a written form stands for; a `%` without two digits after it is refused. -/
def decodeBytes : List Char → Option (List UInt8)
  | [] => some []
  | '%' :: a :: b :: cs => do
    let high ← hexValue? a
    let low ← hexValue? b
    return UInt8.ofNat (16 * high + low) :: (← decodeBytes cs)
  | c :: cs =>
    if c = '%' then none else do return String.utf8EncodeChar c ++ (← decodeBytes cs)

def decode (s : String) : Option String := do
  String.fromUTF8? ⟨(← decodeBytes s.toList).toArray⟩

end Percent

end AsmLens.Text
