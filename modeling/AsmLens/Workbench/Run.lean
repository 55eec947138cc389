import AsmLens.Task.Loop
import AsmLens.Workbench.Publish

/-!
# Running the program

The commands and what follows from each thing that happens in the window. A command begins a task
and returns at once; the task goes on whenever the one thing that it waits for arrives. A fault
stays inside its task: it is logged and told to the user, and no other task notices.
-/

namespace AsmLens

/-- The commands of the program. -/
inductive Command where
  | compile
  | format
  | showTooltip
  | clearHighlights
deriving DecidableEq

namespace Command

def all : List Command := [.compile, .format, .showTooltip, .clearHighlights]

def id : Command → String
  | .compile => "compilerExplorer.compile"
  | .format => "compilerExplorer.format"
  | .showTooltip => "compilerExplorer.showTooltip"
  | .clearHighlights => "compilerExplorer.clearHighlights"

def ofId? (name : String) : Option Command := all.find? fun c => c.id = name

end Command

namespace Workbench

/-! ## Tasks -/

/-- A fault has ended a task: it is logged and told to the user. Should that fail too, this is
logged. -/
def reportFault (name : String) (fault : Fault) : Action Unit := do
  logError (TaskEvent.failureText name) (some fault)
  let tell : Host Unit := do Message.tellError s!"Compiler Explorer: {← fault.message}"
  match ← tell.run with
  | .ok _ => return
  | .error fault => logError (TaskEvent.handlerFailureText name) (some fault)

/-- Runs a part of a task, and gives the task as it goes on, if it does. -/
def contain (name : String) (x : Work Job) : Shell (Option Job) := do
  match ← x.run with
  | .ok job => return if job.wait?.isSome then some job else none
  | .error fault =>
    reportFault name fault
    return none

def spawn (name : String) (x : Work Job) : Shell Unit := do
  let job ← contain name x
  change fun b => { b with jobs := b.jobs ++ job.toList }

/-- A task that compiles goes on at a stage; an output is published at once. -/
def continueCompile (run : Compile.Run) (stage : Compile.Stage) : Work Job := do
  match stage with
  | .compiled compiler output =>
    publish run compiler output
    return .compile run .finished
  | stage => return .compile run stage

def onReply (reply : Reply) : Job → Work Job
  | .compile run stage => do continueCompile run (← Compile.onReply run stage reply)
  | .format run stage => do return .format run (← Format.onReply run stage reply)
  | .tooltip (.fetching _ set opcode) => do
    return .tooltip (← Tooltip.onReply set opcode reply)
  | .tooltip stage => return .tooltip stage

def onAnswer (answer : Answer) : Job → Work Job
  | .compile run stage => do continueCompile run (← Compile.onAnswer run stage answer)
  | .format run stage => do return .format run (← Format.onAnswer run stage answer)
  | .tooltip stage => return .tooltip stage

def onChoice (chosen : Option String) : Job → Work Job
  | .tooltip (.linking _ link) => do
    return .tooltip (← Tooltip.onChoice link chosen)
  | job => return job

/-- What one task waits for has arrived, and the others keep waiting. -/
def wake (what : Wait) (go : Job → Work Job) : Shell Unit := do
  let jobs ← (← current).jobs.filterMapM fun job =>
    if job.wait? = some what then contain job.name (go job) else return some job
  change fun b => { b with jobs }

/-! ## Commands -/

/-- Tells the user why a command does nothing. Nothing waits for the message, so a fault in it is
nobody's. -/
def tellUnawaited (text : String) : Action Unit := do
  match ← (Message.tellError text).run with
  | .ok _ => return
  | .error fault => emit (.unhandled fault)

def activeDocument? (w : Window) : Option (Nat × Document × Selection) := do
  let p ← w.activePane?
  return (p.document, ← w.documents[p.document]?, p.selection)

def runCommand (command : Command) (arguments : List Json) : Shell Unit := do
  let b ← current
  match command, activeDocument? b.window with
  | .compile, none => tellUnawaited "Open a file to compile it with Compiler Explorer"
  | .compile, some (_, document, selection) =>
    spawn "compile" do
      let (run, stage) ← Compile.start document selection (LineRange.ofArguments arguments)
      return .compile run stage
  | .format, none => tellUnawaited "Open a file to format it with Compiler Explorer"
  | .format, some (n, document, _) =>
    spawn "format" do
      let (run, stage) ← Format.start n document
      return .format run stage
  | .showTooltip, none => return
  | .showTooltip, some (_, document, selection) =>
    spawn "tooltip" do
      let set := b.instructionSets.get? document.uri.text
      return .tooltip (← Tooltip.start set document.lines selection.active)
  | .clearHighlights, _ => onHighlights (·.finishAll)

/-- Runs the command with the given identifier, if it is registered. -/
def invoke (id : String) (arguments : List Json) : Shell Unit := do
  match (if (← current).isRegistered then Command.ofId? id else none) with
  | some command => runCommand command arguments
  | none => emit (.noCommand id)

/-! ## Notices -/

/-- A document was closed: what is known of a generated document is forgotten, and the messages of
any other document are removed. -/
def onClosed (uri : Uri) : Shell Unit := do
  if !(← current).isRegistered then return
  if uri.isGenerated then
    change fun b => { b with
      contents := b.contents.forget uri
      instructionSets := b.instructionSets.remove uri.text }
  else Diagnostic.withdraw uri

/-- Takes a notice: the sessions first, then whoever else it concerns. -/
def onNotice (n : Notice) : Shell Unit := do
  onHighlights (·.notice n)
  match n with
  | .replied request reply => wake (.request request) (onReply reply)
  | .answered prompt answer => wake (.prompt prompt) (onAnswer answer)
  | .actionChosen message chosen => wake (.message message) (onChoice chosen)
  | .closed uri => onClosed uri
  | _ => return

def perform (step : Step) : Shell Unit := do
  (← step.perform).forM onNotice

/-! ## Beginning and end -/

/-- What is registered in the window when the program begins. -/
inductive Registration where
  | contents
  | highlights
  | diagnostics
  | provider
  | closeHook
  | command (c : Command)

def Registration.all : List Registration :=
  [.contents, .highlights, .diagnostics, .provider, .closeHook] ++ Command.all.map .command

def registrations (b : Workbench) : Nat :=
  if b.isRegistered then Registration.all.length else 0

def activate (window : Window) : Workbench :=
  let announce : Action Unit := do
    log ["Compiler Explorer Activated"]
    let address := ((← get).environment.filter (· ≠ "")).getD "none"
    log ["Compiler Explorer URL override:", address]
    Command.all.forM fun c => emit (.commandRegistered c.id)
  { window := (announce window).2
    contents := Contents.listen {}
    highlights := { activeUri := window.activeUri?.map (·.text) } }

/-- The program ends: its state can no longer be seen. -/
def deactivate : Shell Unit := do
  log ["Compiler Explorer Deactivated"]
  change fun b => { b with isExposed := false }

/-- All that is registered is disposed of. Tasks that wait go on waiting. -/
def dispose : Shell Unit := do
  if !(← current).isRegistered then return
  change fun b => { b with contents := b.contents.dispose }
  onHighlights (·.dispose)
  Diagnostic.withdrawAll
  change fun b => { b with isRegistered := false }

/-- The instruction sets of the generated documents, ordered by address. -/
def sortedInstructionSets (b : Workbench) : List (String × String) :=
  Text.sortBy (·.1) b.instructionSets

end Workbench

end AsmLens
