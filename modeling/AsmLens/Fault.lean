import AsmLens.Json.Basic

/-!
# Faults

A `Fault` is what goes wrong inside a task and ends it: a failure that the host or the network
reports, a plain value that was reported in its place, or a question that a value has no answer to.
`Fault.name` and `Fault.wording` give the kind of a fault and its wording in one place.
-/

namespace AsmLens

/-- What ends a task. -/
inductive Fault where
  /-- A failure with a message and, when the service answered with it, the whole response. -/
  | failure (message : String) (response : Option Json)
  | value (v : Json)
  | nothing
  /-- A field was asked of nothing. -/
  | fieldOfNull (field : String)
  /-- A value that has no text was to be written. -/
  | noText
  /-- A value that is no text was to be opened as an address. -/
  | noAddress
  /-- A line was asked for that the document does not have. -/
  | noSuchLine

namespace Fault

/-- A failure of the host: a message and nothing else. -/
def ofMessage (message : String) : Fault := .failure message none

def name? : Fault → Option String
  | .failure _ _ | .noSuchLine => some "Error"
  | .fieldOfNull _ | .noText | .noAddress => some "TypeError"
  | .value _ | .nothing => none

/-- The message of a fault; a plain value has none. -/
def wording? : Fault → Option String
  | .failure message _ => some message
  | .fieldOfNull field => some s!"Cannot read properties of null (reading '{field}')"
  | .noText => some "Cannot convert object to primitive value"
  | .noAddress => some "value.split is not a function"
  | .noSuchLine => some "Illegal value for `line`"
  | .value _ | .nothing => none

end Fault

end AsmLens
