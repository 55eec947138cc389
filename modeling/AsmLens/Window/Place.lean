import AsmLens.Number.Basic

/-!
# Places in a document, and ranges of its lines

Positions, the ranges between them, and selections, whose two ends may come in either order. Lines
and columns are counted from zero, and columns in sixteen-bit units. A position is what the window
was told, and need not be one that the document has: it may be past the end, or between two lines.

A range of whole lines is counted from one, with both ends in it.
-/

namespace AsmLens

structure Position where
  line : Number
  column : Number
deriving DecidableEq, Inhabited

/-- Whether a position does not come after another one. -/
def Position.le (p q : Position) : Bool :=
  p.line.lt q.line || (p.line = q.line && p.column.le q.column)

/-- The text between two positions. -/
structure Range where
  start : Position
  stop : Position
deriving DecidableEq, Inhabited

def Range.atLine (line : Number) : Range := ⟨⟨line, 0⟩, ⟨line, 0⟩⟩

/-- What is selected: from the anchor to the end where the cursor is. -/
structure Selection where
  /-- The end that stays when the cursor moves. -/
  anchor : Position
  /-- The end where the cursor is. -/
  active : Position
deriving DecidableEq

namespace Selection

/-- Nothing is selected, and the cursor is at the very start. -/
instance : Inhabited Selection := ⟨⟨⟨0, 0⟩, ⟨0, 0⟩⟩⟩

def isEmpty (s : Selection) : Bool := s.anchor = s.active

/-- The end that comes first in the document. -/
def start (s : Selection) : Position := if s.anchor.le s.active then s.anchor else s.active

def stop (s : Selection) : Position := if s.anchor.le s.active then s.active else s.anchor

end Selection

/-! ## Ranges of lines -/

/-- The lines from `first` to `last`. -/
structure LineRange where
  first : Number
  last : Number
deriving DecidableEq

namespace LineRange

/-- Whether a range is that of all lines of a document. -/
def isWhole (range : LineRange) (lineCount : Number) : Bool :=
  range.first = 1 && range.last = lineCount

/-- Whether a range has no lines, because it ends before it starts. -/
def isEmpty (range : LineRange) : Bool := !range.first.le range.last

def contains (range : LineRange) (line : Number) : Bool :=
  range.first.le line && line.le range.last

/-- The range between two lines, in whichever order they come. -/
def between (a b : Number) : LineRange := if a.le b then ⟨a, b⟩ else ⟨b, a⟩

end LineRange

end AsmLens
