import AsmLens.Window.Exchange
import AsmLens.Window.Document
import AsmLens.Window.Prompt

/-!
# What happens in the window

A `Step` is something that the user, the service or the editor does. Performing it changes the
window, and gives the notices of it that the program has to take.
-/

namespace AsmLens

/-- What is done to the window. -/
inductive Step where
  /-- The service answers a request: the one named, or the oldest one that waits. -/
  | reply (request : Option Nat) (reply : Reply)
  | changeSettings (settings : Settings)
  | changeEnvironment (address : Option String)
  | openDocument (uri : Uri) (text fileName : String)
  /-- An open document is shown in one more pane. -/
  | showDocument (uri : Uri) (selection : Selection)
  /-- The first pane with a document becomes active, or none does. -/
  | focus (uri : Option Uri)
  | select (uri : Uri) (selections : List Selection)
  | close (uri : Uri)
  | changeText (uri : Uri) (text : String)
  /-- The next call of a kind will fail. -/
  | arm (call : HostCall) (message : String)
  | chooseAction (message : Nat) (chosen : Option String)
  /-- The user selects items of a prompt, by position, and accepts it. -/
  | pick (prompt : Option Nat) (positions : List Int)
  /-- The user enters a text into a prompt, if one is given, and accepts it. -/
  | enter (prompt : Option Nat) (text : Option String)
  | hide (prompt : Option Nat)

/-- What the program has to take notice of. -/
inductive Notice where
  | replied (request : Nat) (reply : Reply)
  | answered (prompt : Nat) (answer : Answer)
  | actionChosen (message : Nat) (chosen : Option String)
  | selectionChanged (uri : Uri) (selections : List Selection)
  | activeChanged (uri : Option Uri)
  | closed (uri : Uri)

namespace Window

/-- The number of the request that an answer is for: the one named, or the oldest one, if it
waits. -/
def requestFor? (w : Window) (named : Option Nat) : Option Nat :=
  match named with
  | some n => if w.requests[n]? = some true then some n else none
  | none => w.requests.findIdx? id

/-- The window after the first pane with a document got another selection. -/
def setSelection (w : Window) (uri : Uri) (selection : Selection) : Window :=
  match w.findPane? uri with
  | some i => { w with panes := w.panes.modify i fun p => { p with selection } }
  | none => w

def closeDocument (w : Window) (n : Nat) : Window :=
  { w with
    documents := w.documents.modify n fun d => { d with isOpen := false }
    panes := w.panes.map fun p => if p.document = n then { p with isVisible := false } else p }

end Window

namespace Step

/-- The user turns to a prompt and answers it; the program gets notice of what its handlers report. -/
def answerPrompt (named : Option Nat) (read : Prompt → Answer) : Action (List Notice) := do
  match (← get).promptFor? named with
  | none =>
    emit .noPrompt
    return []
  | some n => return (← Prompt.close n read).map (.answered n)

/-- A document is closed. If the active pane showed it, no pane is active any more. -/
def closeAt (uri : Uri) : Action (List Notice) := do
  let w ← get
  match w.findDocument? uri with
  | none => return [.closed uri]
  | some n =>
    set (w.closeDocument n)
    if w.activePane?.map (·.document) = some n then
      modify fun w => { w with active := none }
      return [.activeChanged none, .closed uri]
    else return [.closed uri]

/-- Performs a step, and gives the notices of it in order. -/
def perform : Step → Action (List Notice)
  | .reply named answer => do
    match (← get).requestFor? named with
    | none =>
      emit .noRequest
      return []
    | some n =>
      modify fun w => { w with requests := w.requests.set n false }
      return [.replied n answer]
  | .changeSettings settings => do
    modify fun w => { w with settings }
    return []
  | .changeEnvironment environment => do
    modify fun w => { w with environment }
    return []
  | .openDocument uri text fileName => do
    modify fun w => w.addDocument ⟨uri, text, fileName, false, true⟩
    return []
  | .showDocument uri selection => do
    match (← get).findDocument? uri with
    | some n => modify fun w => w.addPane n selection
    | none => return []
    return []
  | .focus uri => do
    modify fun w => { w with active := uri.bind w.findPane? }
    return [.activeChanged (← get).activeUri?]
  | .select uri selections => do
    match selections.head? with
    | some selection => modify fun w => w.setSelection uri selection
    | none => pure ()
    return [.selectionChanged uri selections]
  | .close uri => closeAt uri
  | .changeText uri text => do
    match (← get).findDocument? uri with
    | some n => modify fun w => w.setText n text
    | none => pure ()
    return []
  | .arm call message => do
    modify fun w => { w with failures := w.failures.put call message }
    return []
  | .chooseAction message chosen => return [.actionChosen message chosen]
  | .pick named positions => answerPrompt named fun p => p.accepted (p.selected? positions)
  | .enter named text =>
    answerPrompt named fun p => ((text.map p.withText).getD p).accepted none
  | .hide named => answerPrompt named fun _ => .nothing

end Step

end AsmLens
