import AsmLens.Json.Basic
import AsmLens.Fault
import AsmLens.Table

/-!
# Line correlation

The lines of a compiler's output say which line of the source they came from. `LineIndex.ofLines`
builds the two lookups between the lines of the source and the lines of the output in one pass. A
reference is kept as it is, even when it points past the end of the source.
-/

namespace AsmLens

/-- One line of assembly as the service reports it: its text, and where it came from. -/
structure AsmLine where
  text : String
  /-- The place in the source, or nothing. -/
  source : Json

/-- A line of output, its position, and the line of the source it came from. -/
structure AnnotatedLine where
  /-- The position in the output, counted from one. -/
  index : Number
  text : Option Json
  /-- The line of the source, counted from one; directives, labels and blank lines have none. -/
  sourceLine : Option Number

namespace AnnotatedLine

/-- The line that a place in the source names. -/
def lineOf (source : Json) : Option Number := source.numberField? "line"

/-- The lines of an assembly, numbered from one. -/
def ofAsm (asm : List AsmLine) : List AnnotatedLine :=
  asm.mapIdx fun i line => ⟨((i + 1 : Nat) : Number), some (.str line.text), lineOf line.source⟩

def ofEntry (i : Nat) (entry : Json) : Except Fault AnnotatedLine :=
  match entry with
  | .null => .error (.fieldOfNull "source")
  | _ => .ok ⟨((i + 1 : Nat) : Number), entry.field? "text", (entry.field? "source").bind lineOf⟩

/-- The lines of an unchecked assembly: an entry that is nothing has no lines to ask for. -/
def ofEntries (entries : List Json) : Except Fault (List AnnotatedLine) :=
  (entries.mapIdx fun i entry => (i, entry)).mapM fun entry => ofEntry entry.1 entry.2

end AnnotatedLine

/-- The lookups between the lines of a source and the lines of its output. -/
structure LineIndex where
  /-- The lines of output of each line of the source, in the order of the output. -/
  generatedOf : Table Number (List Number)
  sourceOf : Table Number Number

namespace LineIndex

def empty : LineIndex := ⟨[], []⟩

/-- The lines of output that came from a line of the source. -/
def generatedLines (index : LineIndex) (line : Number) : List Number :=
  (index.generatedOf.get? line).getD []

/-- The line of the source from which a line of output came. -/
def sourceLine? (index : LineIndex) (line : Number) : Option Number := index.sourceOf.get? line

def add (index : LineIndex) (line : AnnotatedLine) : LineIndex :=
  match line.sourceLine with
  | none => index
  | some s =>
    ⟨index.generatedOf.put s (index.generatedLines s ++ [line.index]),
      index.sourceOf.put line.index s⟩

def ofLines (lines : List AnnotatedLine) : LineIndex := lines.foldl add empty

end LineIndex

end AsmLens
