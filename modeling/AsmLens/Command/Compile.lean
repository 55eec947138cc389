import AsmLens.Source
import AsmLens.Window.Exchange
import AsmLens.Window.Message
import AsmLens.Window.Prompt

/-!
# Compiling a source

The command asks for a language, a compiler and its arguments, sends the source to the service, and
ends with the compiler's output. Up to then it only asks, logs and shows messages: everything here
is a step on the window, and what is done with the output is not its concern.

A run is a `Stage` between two answers from outside. What it needs of the time when the command was
given is in its `Run`.
-/

namespace AsmLens.Compile

/-- What a run keeps from the time when its command was given. -/
structure Run where
  config : Config
  uri : Uri
  fileName : String
  source : Source

/-- What a run waits for. -/
inductive Stage where
  | finished
  | fetchingLanguages (request : Nat)
  | choosingLanguage (prompt : Nat) (offered : List Language)
  | fetchingCompilers (request : Nat) (language : Language)
  | choosingCompiler (prompt : Nat) (language : Language) (offered : List Compiler)
  | enteringArguments (prompt : Nat) (language : Language) (compiler : Compiler)
  | compiling (request : Nat) (language : Language) (compiler : Compiler) (arguments : String)
  /-- It is over, and this is the output of the compiler. -/
  | compiled (compiler : Compiler) (output : CompileOutput)

def refuse (why : String) : Host Stage := do
  Message.tellError why
  return .finished

def start (document : Document) (selection : Selection) (range : Option LineRange) :
    Host (Run × Stage) := do
  let config := (← get).config
  let source ← Source.ofLines document.lines selection range
  let n ← Query.languages.send
  return (⟨config, document.uri, document.fileName, source⟩, .fetchingLanguages n)

/-- The languages to offer. Only for a whole document do the names of its files say which they
are. -/
def languagesFor (run : Run) (languages : List Language) : List Language :=
  if run.source.isWhole then
    languages.filter fun l => l.extensions.contains (Path.languageExtension run.fileName)
  else languages

def query (run : Run) (language : Language) (compiler : Compiler) (arguments : String) : Query :=
  .compile compiler.id run.source.text language.id (some arguments)

def offerLanguages (run : Run) (languages : List Language) : Host Stage := do
  let offered := languagesFor run languages
  if run.source.isWhole ∧ offered.isEmpty then
    refuse s!"File type {Path.languageExtension run.fileName} not supported by Compiler Explorer"
  else
    let n ← Prompt.askChoice run.config.prompts.language run.config.labels.language
      (offered.map Language.toJson)
    return .choosingLanguage n offered

def offerCompilers (run : Run) (language : Language) (compilers : List Compiler) : Host Stage := do
  if compilers.isEmpty then refuse s!"No compilers available for {language.name}"
  else
    let n ← Prompt.askChoice run.config.prompts.compiler run.config.labels.compiler
      (compilers.map Compiler.toJson)
    return .choosingCompiler n language compilers

/-- Goes on when the service has answered a request that the run waits for. -/
def onReply (run : Run) (stage : Stage) (reply : Reply) : Host Stage := do
  match stage with
  | .fetchingLanguages _ =>
    match ← Query.languagesFrom reply with
    | .error e => refuse e
    | .ok languages => offerLanguages run languages
  | .fetchingCompilers _ language =>
    match ← Query.compilersFrom language.id reply with
    | .error e => refuse e
    | .ok compilers => offerCompilers run language compilers
  | .compiling _ language compiler arguments =>
    match ← (query run language compiler arguments).posted CompileOutput.read reply with
    | .error e => refuse s!"Compilation with {compiler.name} failed: {e}"
    | .ok output => return .compiled compiler output
  | stage => return stage

/-- What is logged when a source is sent to a compiler. -/
def announcement (run : Run) (compiler : Compiler) : String :=
  let first := run.source.range.first.text
  let last := run.source.range.last.text
  s!"[Compile] {compiler.id} on lines {first}-{last} of {run.uri.text}"

def onAnswer (run : Run) (stage : Stage) (answer : Answer) : Host Stage := do
  match stage, answer with
  | .choosingLanguage _ offered, .chosen i =>
    match offered[i]? with
    | none => return .finished
    | some language => return .fetchingCompilers (← (Query.compilers language.id).send) language
  | .choosingCompiler _ language offered, .chosen i =>
    match offered[i]? with
    | none => return .finished
    | some compiler =>
      let n ← Prompt.askText run.config.prompts.arguments ""
      return .enteringArguments n language compiler
  | .enteringArguments _ language compiler, .entered arguments =>
    log [announcement run compiler]
    return .compiling (← (query run language compiler arguments).send) language compiler arguments
  | _, _ => return .finished

end AsmLens.Compile
