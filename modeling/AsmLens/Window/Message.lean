import AsmLens.Window.Basic

/-!
# Messages to the user

A message about an error is logged and shown, and so is one that informs; nobody waits for an answer
to them. A message with a link waits for the user to choose the link.
-/

namespace AsmLens.Message

def callOf : MessageKind → HostCall
  | .information => .showInformation
  | .error => .showError

/-- Shows a message that does not block the window, and gives its number. -/
def showMessage (kind : MessageKind) (text : String) (actions : List String) : Host Nat := do
  attempt (callOf kind)
  let n := (← get).messages
  modify fun w => { w with messages := n + 1 }
  emit (.message n kind text false actions)
  return n

def tellError (text : String) : Host Unit := do
  logError text none
  discard <| showMessage .error text []

def tellDone (text : String) : Host Unit := do
  log [text]
  discard <| showMessage .information text []

def linkAction : String := "Open Reference"

/-- Shows a message with a link, and gives the number of the message when there is a link to wait
for. A link that counts as nothing is left out. -/
def showLink (text : String) (link : Option Json) (action : String) : Host (Option Nat) := do
  if (link.getD .null).isTruthy then return some (← showMessage .information text [action])
  discard <| showMessage .information text []
  return none

/-- Opens a link outside, when the action offered for it was chosen. -/
def followLink (link : Option Json) (action : String) (chosen : Option String) : Host Unit := do
  if chosen ≠ some action then return
  match link with
  | some (.str address) =>
    attempt .openOutside
    emit (.openedOutside (.parse address))
  | _ => throw .noAddress

end AsmLens.Message
