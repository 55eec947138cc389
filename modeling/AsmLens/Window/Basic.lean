import AsmLens.Config
import AsmLens.Text
import AsmLens.Window.Event

/-!
# The window

`Window` is the editor as the program sees it: settings, documents and the panes that show them,
prompts, requests, decorations and compiler messages, and the events so far. Documents, panes,
prompts and requests keep their number when they are closed, so a task can go on speaking of them.

What always succeeds on the window is an `Action`; what can fail is a call of the `Host`.
-/

namespace AsmLens

structure Document where
  uri : Uri
  text : String
  fileName : String
  refusesEdits : Bool
  isOpen : Bool
deriving Inhabited

namespace Document

def lines (d : Document) : List String := Text.lines d.text

def lineCount (d : Document) : Nat := d.lines.length

end Document

/-- A view of a document. -/
structure Pane where
  document : Nat
  selection : Selection
  decorations : Table Nat (List Range)
  isVisible : Bool
deriving Inhabited

inductive PromptKind where
  | choice (count : Nat)
  /-- A text; so far it holds `value`. -/
  | text (value : String)

inductive PromptState where
  /-- It was made. As long as it is not shown, nobody waits for an answer. -/
  | made
  | shown
  | closed
deriving DecidableEq

structure Prompt where
  kind : PromptKind
  state : PromptState

/-- The calls of the host that can be made to fail. -/
inductive HostCall where
  | createChoicePrompt
  | createTextPrompt
  | createDecorationType
  | showInformation
  | showError
  | openDocument
  | showDocument
  | edit
  | openOutside
deriving DecidableEq

/-- The window. -/
structure Window where
  settings : Settings := []
  environment : Option String := none
  /-- All documents so far. -/
  documents : List Document := []
  /-- All panes so far. -/
  panes : List Pane := []
  active : Option Nat := none
  /-- The calls that fail when they are made next, and their messages. -/
  failures : Table HostCall String := []
  /-- All requests so far, and whether each still waits for its answer. -/
  requests : List Bool := []
  prompts : List Prompt := []
  /-- Whether the handlers of a prompt go on hearing of it after they were taken off. -/
  keepsHandlers : Bool := false
  messages : Nat := 0
  decorationTypes : Nat := 0
  /-- The compiler messages of each document, by the text of its address. -/
  diagnostics : Table String (List Diagnostic) := []
  events : List Event := []

/-- A step on the window that cannot fail. -/
abbrev Action := StateM Window

/-- A step on the window that can fail; what it did before stays done. -/
abbrev Host := ExceptT Fault Action

namespace Window

def config (w : Window) : Config := .ofSettings w.settings

/-- The documents that are open, in the order in which they were opened. -/
def openDocuments (w : Window) : List Document := w.documents.filter (·.isOpen)

/-- The number of the first open document with the given address. -/
def findDocument? (w : Window) (uri : Uri) : Option Nat :=
  w.documents.findIdx? fun d => d.isOpen && d.uri.text = uri.text

def openDocument? (w : Window) (uri : Uri) : Option Document :=
  w.documents.find? fun d => d.isOpen && d.uri.text = uri.text

def paneUri (w : Window) (p : Pane) : Uri := (w.documents[p.document]?.map (·.uri)).getD default

/-- Whether a pane is visible and shows a document with the given address. -/
def shows (w : Window) (uri : Uri) (p : Pane) : Bool := p.isVisible && (w.paneUri p).text = uri.text

/-- The number of the first visible pane with a document of the given address. -/
def findPane? (w : Window) (uri : Uri) : Option Nat := w.panes.findIdx? (w.shows uri)

def activePane? (w : Window) : Option Pane := w.active.bind (w.panes[·]?)

def activeUri? (w : Window) : Option Uri := w.activePane?.map w.paneUri

end Window

/-- Something leaves the program. -/
def emit (e : Event) : Action Unit := modify fun w => { w with events := w.events ++ [e] }

def log (texts : List String) : Action Unit := emit (.log texts)

def logError (text : String) (cause : Option Fault) : Action Unit := emit (.logError text cause)

/-- Fails when the call was made to fail, once. -/
def attempt (call : HostCall) : Host Unit := do
  let w ← get
  match w.failures.get? call with
  | none => return
  | some message =>
    set { w with failures := w.failures.remove call }
    throw (.ofMessage message)

end AsmLens
