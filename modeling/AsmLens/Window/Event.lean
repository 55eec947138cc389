import AsmLens.Diagnostic
import AsmLens.Service.Query
import AsmLens.Uri
import AsmLens.Window.Place

/-!
# Events

Everything that leaves the program is an `Event`: what it logs, what it asks of the service, and
what it shows in the window. Requests, messages, prompts and decoration types are numbered from zero
in the order in which they are made.
-/

namespace AsmLens

inductive MessageKind where
  | information
  | error
deriving DecidableEq

structure Request where
  verb : String
  address : String
  body : Option Json
  headers : List (String × String)
  /-- How long it may take, in milliseconds. -/
  timeout : Number

structure ShowOptions where
  /-- The column of the window, or `-2` for the one beside the active pane. -/
  column : Int
  keepsFocus : Bool
  /-- Whether the next document shown takes the pane over. -/
  isPreview : Bool

structure DecorationStyle where
  wholeLine : Bool
  background : String
  ruler : String
  lane : Nat

/-- What leaves the program. -/
inductive Event where
  | log (texts : List String)
  | logError (text : String) (cause : Option Fault)
  | request (n : Nat) (request : Request)
  /-- A message is shown, which may block the window and offer actions. -/
  | message (n : Nat) (kind : MessageKind) (text : String) (modal : Bool) (actions : List String)
  /-- A prompt offers a choice, and may stay open when the user turns to something else. -/
  | choicePrompt (n : Nat) (question : String) (labels : List String) (stays : Bool)
  | textPrompt (n : Nat) (question value : String) (stays : Bool)
  | promptDisposed (n : Nat)
  | documentOpened (uri : Uri)
  | documentShown (uri : Uri) (options : ShowOptions)
  | contentChanged (uri : Uri)
  | decorationType (n : Nat) (style : DecorationStyle)
  | decorationTypeDisposed (n : Nat)
  /-- The ranges decorated in one pane. -/
  | decorated (uri : Uri) (n : Nat) (ranges : List Range)
  | diagnosticsSet (uri : Uri) (diagnostics : List Diagnostic)
  | diagnosticsRemoved (uri : Uri)
  | diagnosticsDisposed
  /-- A range of a document is to be replaced, and whether it was. -/
  | replaced (uri : Uri) (range : Range) (text : String) (applied : Bool)
  | openedOutside (uri : Uri)
  | commandRegistered (id : String)
  /-- A call failed at once. -/
  | thrown (fault : Fault)
  /-- A task failed that nothing waits for. -/
  | unhandled (fault : Fault)
  | noRequest
  | noPrompt
  | noCommand (id : String)

end AsmLens
