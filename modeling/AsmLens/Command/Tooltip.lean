import AsmLens.Text
import AsmLens.Window.Exchange
import AsmLens.Window.Message

/-!
# Documentation of an instruction

The command looks up the instruction under the cursor of a generated document and shows what the
service says about it, with a link to more.
-/

namespace AsmLens

/-! ## The word under the cursor -/

namespace Text

def startsWord (c : Char) : Bool := c.isAlpha

def isWordChar (c : Char) : Bool := c.isAlphanum || c = '_' || c = '.'

/-- The words of a line from a column on, each with the column where it starts: letters, digits,
underscores and points after a letter, as many as there are. -/
def words (column : Nat) : List Char → List (Nat × List Char)
  | [] => []
  | c :: cs =>
    if startsWord c then
      let word := c :: cs.takeWhile isWordChar
      (column, word) :: words (column + word.length) (cs.dropWhile isWordChar)
    else words (column + width c) cs
termination_by cs => cs.length
decreasing_by
  · simp only [List.length_cons]
    have := (List.dropWhile_sublist isWordChar (l := cs)).length_le
    omega
  · simp only [List.length_cons]; omega

/-- The word of a line that a column is in or beside. -/
def wordAt? (line : String) (column : Number) : Option String :=
  ((words 0 line.toList).find? fun w =>
      Number.le (w.1 : Number) column && column.le ((w.1 + w.2.length : Nat) : Number)).map
    fun w => String.ofList w.2

end Text

/-! ## The command -/

namespace Tooltip

/-- What a lookup waits for. -/
inductive Stage where
  | finished
  | fetching (request : Nat) (instructionSet opcode : String)
  | linking (message : Nat) (link : Option Json)

def noInstructionSet : String := "No instruction set known for this view. Compile a file first."

/-- Looks up the instruction under a cursor. -/
def start (instructionSet : Option String) (lines : List String) (cursor : Position) :
    Host Stage := do
  let set := instructionSet.getD ""
  if set = "" then
    Message.tellError noInstructionSet
    return .finished
  match cursor.line.toNat?.bind (lines[·]?) with
  | none => throw .noSuchLine
  | some line =>
    match Text.wordAt? line cursor.column with
    | none => return .finished
    | some opcode =>
      return .fetching (← (Query.documentation set opcode).send) set opcode

def sentence (opcode : String) (documentation : Json) : Except Fault String := do
  match documentation with
  | .null => throw (.fieldOfNull "tooltip")
  | _ =>
    match documentation.field? "tooltip" with
    | none => return s!"{opcode}: undefined"
    | some tooltip => return s!"{opcode}: {← tooltip.text}"

def onReply (instructionSet opcode : String) (reply : Reply) : Host Stage := do
  match ← (Query.documentation instructionSet opcode).fetched reply with
  | .error e =>
    Message.tellError e
    return .finished
  | .ok none =>
    Message.tellError s!"No documentation for {opcode}"
    return .finished
  | .ok (some documentation) =>
    let text ← sentence opcode documentation
    let link := documentation.field? "url"
    match ← Message.showLink text link Message.linkAction with
    | some n => return .linking n link
    | none => return .finished

def onChoice (link : Option Json) (chosen : Option String) : Host Stage := do
  Message.followLink link Message.linkAction chosen
  return .finished

end Tooltip

end AsmLens
