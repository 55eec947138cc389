import AsmLens.Label
import AsmLens.Window.Basic

/-!
# Prompts

A prompt asks the user for one of several items or for a text, and stays until the user answers or
turns it down. The first answer closes it: it is taken away, and later ones count for nothing.
-/

namespace AsmLens

inductive Answer where
  | chosen (i : Nat)
  | entered (text : String)
  /-- The prompt is turned down, or accepted with nothing chosen. -/
  | nothing
deriving DecidableEq

namespace Prompt

/-- A new prompt, which is not shown yet. -/
def create (call : HostCall) (kind : PromptKind) : Host Nat := do
  attempt call
  let n := (← get).prompts.length
  modify fun w => { w with prompts := w.prompts ++ [⟨kind, .made⟩] }
  return n

def display (n : Nat) (e : Event) : Action Unit := do
  modify fun w => { w with prompts := w.prompts.modify n fun p => { p with state := .shown } }
  emit e

/-- Asks for one of the items, each shown with its label, and gives the number of the prompt. -/
def askChoice (question template : String) (items : List Json) : Host Nat := do
  let n ← create .createChoicePrompt (.choice items.length)
  let labels ← (items.mapM (Template.label template) : Except Fault (List String))
  display n (.choicePrompt n question labels true)
  return n

def askText (question value : String) : Host Nat := do
  let n ← create .createTextPrompt (.text value)
  display n (.textPrompt n question value true)
  return n

/-- What a prompt is answered with when it is accepted with an item selected. -/
def accepted (p : Prompt) (selected : Option Nat) : Answer :=
  match p.kind, selected with
  | .choice _, some i => .chosen i
  | .choice _, none => .nothing
  | .text value, _ => .entered value

/-- The first of the positions that is one of an item of the prompt. -/
def selected? (p : Prompt) (positions : List Int) : Option Nat :=
  match p.kind with
  | .choice count => (positions.find? fun (i : Int) => 0 ≤ i && i < count).map Int.toNat
  | .text _ => none

def withText (p : Prompt) (text : String) : Prompt :=
  match p.kind with
  | .text _ => { p with kind := .text text }
  | .choice _ => p

end Prompt

namespace Window

/-- The number of the prompt that the user turns to: the one named, or the newest one that is not
closed. -/
def promptFor? (w : Window) (named : Option Nat) : Option Nat :=
  match named with
  | some n => if n < w.prompts.length then some n else none
  | none => (List.range w.prompts.length).reverse.find? fun n =>
    (w.prompts[n]?.map (·.state != .closed)).getD false

end Window

def Prompt.finished (p : Prompt) : Prompt := { p with state := .closed }

@[simp]
theorem Prompt.finished_state (p : Prompt) : p.finished.state = .closed := rfl

def Window.dismiss (w : Window) (n : Nat) (p : Prompt) : Window :=
  { w with prompts := w.prompts.set n p.finished, events := w.events ++ [.promptDisposed n] }

namespace Prompt

/-- Whether the handlers of a prompt hear of what is done to it. They are put on when it is shown,
and taken off when they finish it. -/
def hears (p : Prompt) (w : Window) : Bool :=
  match p.state with
  | .made => false
  | .shown => true
  | .closed => w.keepsHandlers

/-- The handlers of a prompt finish it with an answer, unless they have done so before: they are
taken off, the prompt is taken away, and the answer is reported. A prompt that is taken away is
hidden by this, and handlers that still hear of it try to finish it once more, with nothing. Gives
the answers that are reported, in order. -/
def finish (n : Nat) (answer : Answer) (w : Window) : List Answer × Window :=
  match _h : w.prompts[n]? with
  | none => ([], w)
  | some p =>
    if _hp : p.state = .closed then ([], w)
    else if p.finished.hears (w.dismiss n p) then
      let (answers, w') := finish n .nothing (w.dismiss n p)
      (answers ++ [answer], w')
    else ([answer], w.dismiss n p)
termination_by if (w.prompts[n]?.map (·.state)) = some .closed then 0 else 1
decreasing_by
  have hfinished : (w.dismiss n p).prompts[n]? = some p.finished :=
    List.getElem?_set_self (List.getElem?_eq_some_iff.1 _h).1
  simp [hfinished, _h, _hp]

/-- The user answers a prompt, and its handlers, if they hear of it, finish it with the answer that
`read` makes of it. Gives the answers that are reported. -/
def close (n : Nat) (read : Prompt → Answer) : Action (List Answer) := do
  let w ← get
  match w.prompts[n]? with
  | some p => if p.hears w then finish n (read p) else return []
  | none => return []

end Prompt

end AsmLens
