import AsmLens.Json.Text

/-!
# Compiler messages

What a compiler writes about a source comes back as a list of entries, some of them tagged with a
place. `Diagnostic.ofStderr` turns the tagged ones into messages on the lines of the document.
-/

namespace AsmLens

/-- How grave a message is. -/
inductive Severity where
  | error
  | warning
  | information
deriving DecidableEq, Inhabited

namespace Severity

/-- The severity that a tag names: one is a remark, two a warning, and all else an error. -/
def ofCode (code : Option Json) : Severity :=
  match code with
  | some (.num x) => if x = 1 then .information else if x = 2 then .warning else .error
  | _ => .error

def rank : Severity → Nat
  | .error => 0
  | .warning => 1
  | .information => 2

end Severity

/-- A message on a line of a document. -/
structure Diagnostic where
  /-- The line, counted from zero. -/
  line : Number
  /-- The column, counted from zero. -/
  column : Number
  message : Option Json
  severity : Severity

namespace Diagnostic

def origin : String := "Compiler Explorer"

/-- The line of a tag, counted from one: an integer from one on. -/
def tagLine? (tag : Json) : Option Number :=
  (tag.numberField? "line").filter fun line => line.isInteger && Number.le 1 line

/-- The column of a tag, counted from zero. A tag without one is about the first column. -/
def tagColumn (tag : Json) : Except Fault Number := do
  let column := (tag.field? "column").getD .null
  let counted ← if column.isTruthy then column.toNumber else .ok 1
  return (counted - 1).max 0

/-- The message of a tag on a line, both counted from one, in a document whose first compiled line
is `offset` lines down. -/
def ofTag (offset line : Number) (tag : Json) : Except Fault Diagnostic := do
  return ⟨line - 1 + offset, ← tagColumn tag, tag.field? "text", .ofCode (tag.field? "severity")⟩

/-- The message of an entry, if it is tagged with a line. -/
def ofEntry (offset : Number) (entry : Json) : Except Fault (Option Diagnostic) :=
  match entry with
  | .null => .error (.fieldOfNull "tag")
  | _ =>
    match entry.field? "tag" with
    | none => .ok none
    | some tag =>
      match tagLine? tag with
      | none => .ok none
      | some line => do return some (← ofTag offset line tag)

def ofStderr (offset : Number) (entries : List Json) : Except Fault (List Diagnostic) := do
  return (← entries.mapM (ofEntry offset)).filterMap id

end Diagnostic

end AsmLens
