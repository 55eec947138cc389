import AsmLens.Fault
import AsmLens.Text
import AsmLens.Window.Place

/-!
# The source to compile

What a command compiles: the lines it was told to, else those that the selection covers, else the
whole document.
-/

namespace AsmLens

/-- The range that the first two arguments of a command name, when both are integers. -/
def LineRange.ofArguments (arguments : List Json) : Option LineRange := do
  let a ← (← arguments[0]?).number?
  let b ← (← arguments[1]?).number?
  if a.isInteger && b.isInteger then some (.between a b) else none

structure Source where
  text : String
  range : LineRange
  isWhole : Bool

namespace Source

/-- The lines nearest to a range among those of a document. -/
def clamp (lineCount : Number) (range : LineRange) : LineRange :=
  let first := (range.first.max 1).min lineCount
  ⟨first, (range.last.max first).min lineCount⟩

/-- The lines that a selection covers. One that ends before the first character of a line does not
cover that line. -/
def covered (s : Selection) : LineRange :=
  let start := s.start
  let stop := s.stop
  ⟨start.line + 1,
    if stop.column = 0 ∧ start.line.lt stop.line then stop.line else stop.line + 1⟩

/-- The range of lines that a command is about. -/
def rangeFor (lineCount : Number) (selection : Selection) (range : Option LineRange) : LineRange :=
  match range with
  | some range => clamp lineCount range
  | none => if selection.isEmpty then ⟨1, lineCount⟩ else covered selection

/-- Whether each line of a range can be asked for, one after another from the first: a line is there
when it is an integer from one to the number of lines. -/
def hasLines (lineCount : Nat) (range : LineRange) : Bool :=
  range.isEmpty ||
    (range.first.isInteger && Number.le 1 range.first &&
      range.last.lt ((lineCount + 1 : Nat) : Number))

/-- The lines of a range; a line that is not there cannot be asked for. -/
def linesIn (lines : List String) (range : LineRange) : Except Fault (List String) :=
  if hasLines lines.length range then
    .ok (((lines.zipIdx 1).filter fun line => range.contains (line.2 : Number)).map (·.1))
  else .error .noSuchLine

def ofLines (lines : List String) (selection : Selection) (range : Option LineRange) :
    Except Fault Source := do
  let range := rangeFor lines.length selection range
  let chosen ← linesIn lines range
  return ⟨Text.joinLines chosen, range, range.isWhole lines.length⟩

end Source

end AsmLens
