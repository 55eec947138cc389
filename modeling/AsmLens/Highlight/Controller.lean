import AsmLens.Highlight.Session
import AsmLens.Window.Step

/-!
# The controller of highlight sessions

The controller keeps at most one live session for each pair of a source and a generated document,
and hands what happens in the window on to the sessions with the document concerned: cursor moves,
the active pane moving away, and documents being closed. It takes the notices of the window as long as
it listens.

Sessions are kept in the order in which they were started, also those that have ended; a session is
registered as long as it has not ended.
-/

namespace AsmLens

/-- A session and the documents that it links. -/
structure Entry (ν : Type) where
  source : Uri
  generated : Uri
  session : Session ν

namespace Entry

variable {ν : Type}

def key (e : Entry ν) : String := Uri.sessionKey e.source e.generated

/-- Whether the session is registered. -/
def isLive (e : Entry ν) : Bool := !e.session.hasEnded

/-- The part that a document plays in the session, if it has one. -/
def role? (e : Entry ν) (uri : String) : Option Role :=
  if e.source.text = uri then some .source
  else if e.generated.text = uri then some .generated
  else none

end Entry

/-- The controller of all sessions. -/
structure Controller (ν : Type) where
  entries : List (Entry ν) := []
  /-- The address of the document in the pane that was last active. -/
  activeUri : Option String := none
  /-- Whether the controller follows what happens in the window. -/
  isListening : Bool := true

namespace Controller

variable {ν : Type} [Canvas Action ν]

def live (c : Controller ν) : List (Entry ν) := c.entries.filter Entry.isLive

/-- The number of the registered session of two documents, counted from the first one started. -/
def find? (c : Controller ν) (source generated : Uri) : Option Nat :=
  c.entries.findIdx? fun e => e.isLive && e.key = Uri.sessionKey source generated

def mapEntries (c : Controller ν) (f : Entry ν → Action (Entry ν)) : Action (Controller ν) := do
  return { c with entries := ← c.entries.mapM f }

def finishEntry (e : Entry ν) : Action (Entry ν) := do
  if e.session.hasEnded then return e
  let session ← e.session.finish
  log [s!"[HighlightController] Session ended: {e.key}"]
  return { e with session }

/-- Ends the registered sessions that satisfy a condition. -/
def finishWhere (c : Controller ν) (p : Entry ν → Bool) : Action (Controller ν) :=
  c.mapEntries fun e => if p e then finishEntry e else return e

def finish (c : Controller ν) (key : String) : Action (Controller ν) :=
  c.finishWhere fun e => e.key = key

def finishAll (c : Controller ν) : Action (Controller ν) := c.finishWhere fun _ => true

/-- Starts a session that links two documents, in place of the one that they have. The canvases are
made for a document and a theme color each; when that fails there is no new session. -/
def start (c : Controller ν) (make : Uri → String → Host ν) (source generated : Uri)
    (index : LineIndex) (color : String) : Action (Controller ν × Except Fault Unit) := do
  let c ← c.finish (Uri.sessionKey source generated)
  let canvases : Host (ν × ν) := do return (← make source color, ← make generated color)
  match ← canvases.run with
  | .error fault => return (c, .error fault)
  | .ok (sourceCanvas, generatedCanvas) =>
    let e : Entry ν := ⟨source, generated, .create index sourceCanvas generatedCanvas⟩
    log [s!"[HighlightController] Session started: {e.key}"]
    return ({ c with entries := c.entries ++ [e] }, .ok ())

def cursorMoved (c : Controller ν) (uri : String) (line : Number) : Action (Controller ν) :=
  c.mapEntries fun e =>
    match e.role? uri with
    | some role => return { e with session := ← e.session.cursorMoved role line }
    | none => return e

def cursorLeft (c : Controller ν) (uri : String) : Action (Controller ν) :=
  c.mapEntries fun e =>
    match e.role? uri with
    | some role => return { e with session := ← e.session.cursorLeft role }
    | none => return e

/-- A document was closed: the sessions with it end. -/
def documentClosed (c : Controller ν) (uri : String) : Action (Controller ν) :=
  c.finishWhere fun e => (e.role? uri).isSome

/-- The active pane has changed to one with the given document, or there is none any more. -/
def activeChanged (c : Controller ν) (next : Option String) : Action (Controller ν) := do
  let c ← match c.activeUri with
    | some old => if next = some old then pure c else c.cursorLeft old
    | none => pure c
  return { c with activeUri := next }

/-! ### Following the window -/

/-- The line of the cursor in a selection, counted from one. -/
def cursorLine (s : Selection) : Number := s.active.line + 1

/-- Takes a notice. Of several selections the first one counts. -/
def notice (c : Controller ν) (n : Notice) : Action (Controller ν) := do
  if !c.isListening then return c
  match n with
  | .selectionChanged uri (selection :: _) => c.cursorMoved uri.text (cursorLine selection)
  | .activeChanged uri => c.activeChanged (uri.map (·.text))
  | .closed uri => c.documentClosed uri.text
  | _ => return c

/-- Ends all sessions and takes no more notices. -/
def dispose (c : Controller ν) : Action (Controller ν) := do
  return { ← c.finishAll with isListening := false }

end Controller

end AsmLens
