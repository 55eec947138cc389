import AsmLens.Window.Exchange
import AsmLens.Window.Message
import AsmLens.Window.Document
import AsmLens.Window.Prompt

/-!
# Formatting a document

The command asks for a formatter and a style, sends the text of the document to the service, and
replaces the text by the answer. Nothing is replaced unless the formatter succeeded.
-/

namespace AsmLens.Format

structure Run where
  config : Config
  document : Nat
  uri : Uri
  text : String

/-- What a run waits for. -/
inductive Stage where
  | finished
  | fetchingFormatters (request : Nat)
  | choosingFormatter (prompt : Nat) (offered : List Formatter)
  | choosingStyle (prompt : Nat) (formatter : Formatter)
  | formatting (request : Nat) (formatter : Formatter) (style : String)

/-- The style for a formatter that knows none. -/
def defaultStyle : String := "__DefaultStyle"

def refuse (why : String) : Host Stage := do
  Message.tellError why
  return .finished

def start (n : Nat) (document : Document) : Host (Run × Stage) := do
  let run : Run := ⟨(← get).config, n, document.uri, document.text⟩
  return (run, .fetchingFormatters (← Query.formatters.send))

def query (run : Run) (formatter : Formatter) (style : String) : Query :=
  .format formatter.type run.text style

def sendText (run : Run) (formatter : Formatter) (style : String) : Host Stage := do
  log [s!"[Format] {formatter.type} with style {style} on {run.uri.text}"]
  return .formatting (← (query run formatter style).send) formatter style

/-- Replaces the text of the document by the answer of a formatter that succeeded. -/
def apply (run : Run) (formatter : Formatter) (style answer : String) : Host Stage := do
  if ← Document.replaceAll run.document (Text.lines answer) then
    Message.tellDone s!"Text formatted using {formatter.name} and style {style}"
    return .finished
  else refuse "The document changed while formatting; nothing was replaced"

def onReply (run : Run) (stage : Stage) (reply : Reply) : Host Stage := do
  match stage with
  | .fetchingFormatters _ =>
    match ← Query.formattersFrom reply with
    | .error e => refuse e
    | .ok [] => refuse "No formatters available on Compiler Explorer"
    | .ok formatters =>
      let n ← Prompt.askChoice run.config.prompts.formatter run.config.labels.formatter
        (formatters.map Formatter.toJson)
      return .choosingFormatter n formatters
  | .formatting _ formatter style =>
    match ← (query run formatter style).posted (fun body => .ok (FormatOutput.read body)) reply with
    | .error e => refuse s!"Formatting with {formatter.name} failed: {e}"
    | .ok output =>
      if output.exit = 0 then apply run formatter style output.answer
      else refuse s!"Formatting with {formatter.name} failed: {output.answer}"
  | stage => return stage

def onAnswer (run : Run) (stage : Stage) (answer : Answer) : Host Stage := do
  match stage, answer with
  | .choosingFormatter _ offered, .chosen i =>
    match offered[i]? with
    | none => return .finished
    | some formatter =>
      if formatter.styles.isEmpty then sendText run formatter defaultStyle
      else
        let n ← Prompt.askChoice run.config.prompts.style run.config.labels.style
          (formatter.styles.map Json.str)
        return .choosingStyle n formatter
  | .choosingStyle _ formatter, .chosen i =>
    match formatter.styles[i]? with
    | none => return .finished
    | some style => sendText run formatter style
  | _, _ => return .finished

end AsmLens.Format
