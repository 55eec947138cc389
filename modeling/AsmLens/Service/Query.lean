import AsmLens.Config
import AsmLens.Json.Text
import AsmLens.Text

/-!
# Queries to the service

What is asked of the service, and how: the address of each query under the base address, with every
identifier percent-encoded into its segment, and the body of the two queries that send a source.

About a failed request the user is told what the service itself said, if it said anything, and
otherwise the message of the failure.
-/

namespace AsmLens

/-- What the service is asked. -/
inductive Query where
  | languages
  | compilers (language : String)
  | formatters
  | documentation (instructionSet opcode : String)
  /-- What a compiler makes of a source. The arguments may be left out. -/
  | compile (compiler source language : String) (arguments : Option String)
  | format (formatter source style : String)

namespace Query

/-- The address of a query behind the base address. -/
def route : Query → String
  | .languages => "/api/languages?fields=id,name,extensions,monaco"
  | .compilers language =>
    "/api/compilers/" ++ Text.Percent.encode language ++
      "?fields=id,name,lang,compilerType,semver,instructionSet"
  | .formatters => "/api/formats"
  | .documentation set opcode =>
    "/api/asm/" ++ Text.Percent.encode set ++ "/" ++ Text.Percent.encode opcode
  | .compile compiler _ _ _ => "/api/compiler/" ++ Text.Percent.encode compiler ++ "/compile"
  | .format formatter _ _ => "/api/format/" ++ Text.Percent.encode formatter

def address (base : String) (q : Query) : String := base ++ q.route

/-- The body that asks a compiler for assembly: in the Intel dialect, with plain names, and without
comments, directives, labels and library code. -/
def compileBody (source language : String) (arguments : Option String) : Json :=
  .obj [("source", .str source), ("lang", .str language),
    ("options", .obj (Json.stringFields [("userArguments", arguments)] ++ [
      ("compilerOptions", .obj [("skipAsm", .bool false), ("executorRequest", .bool false)]),
      ("filters", .obj [("binary", .bool false), ("commentOnly", .bool true),
        ("demangle", .bool true), ("directives", .bool true), ("execute", .bool false),
        ("intel", .bool true), ("labels", .bool true), ("libraryCode", .bool true),
        ("trim", .bool false)]),
      ("tools", .arr []), ("libraries", .arr [])])),
    ("allowStoreCodeDebug", .bool true)]

/-- The body that asks a formatter for a text: four spaces for each level. -/
def formatBody (source style : String) : Json :=
  .obj [("source", .str source), ("base", .str style), ("useSpaces", .bool true),
    ("tabWidth", .num 4)]

def body? : Query → Option Json
  | .compile _ source language arguments => some (compileBody source language arguments)
  | .format _ source style => some (formatBody source style)
  | _ => none

/-- The verb of a query: one with a body is posted. -/
def verb (q : Query) : String := if q.body?.isSome then "POST" else "GET"

def logName : String := "[CompilerExplorerApi]"

def announcement (base : String) (q : Query) : String := s!"{logName} {q.verb} {q.address base}"

/-- What a query failed to do, as the log and the user are told. -/
def failing : Query → String
  | .languages => "Failed to fetch languages"
  | .compilers _ => "Failed to fetch compilers"
  | .formatters => "Failed to fetch formatters"
  | .documentation _ opcode => s!"Failed to fetch documentation for {opcode}"
  | .compile _ _ _ _ => "Compile request failed"
  | .format _ _ _ => "Format request failed"

end Query

/-! ## Failed requests -/

namespace Fault

/-- The response that came with a failure, of whatever kind. -/
def response? : Fault → Option Json
  | .failure _ response => response
  | .value v@(.obj _) => v.field? "response"
  | _ => none

/-- What a response says: a body that is a text and not blank, or the message in its body. -/
def said? (response : Json) : Option String :=
  match response.field? "data" with
  | some (.str s) => if Text.trimmed s = "" then none else some (Text.trimmed s)
  | some data => data.stringField? "message"
  | none => none

/-- What the user is told about a failed request. -/
def describe (fault : Fault) : Except Fault String :=
  match fault.response?.bind said? with
  | some s => .ok s
  | none => fault.message

end Fault

end AsmLens
