import AsmLens.Command.Compile
import AsmLens.Command.Format
import AsmLens.Command.Tooltip
import AsmLens.Contents
import AsmLens.Highlight.Controller
import AsmLens.Window.Decoration

/-!
# The workbench

`Workbench` is the whole of the running program: the window, the contents of the generated
documents, the highlight sessions, what is known of each generated document, and the tasks that wait
for something.
-/

namespace AsmLens

/-- A task: a run of a command that has begun. -/
inductive Job where
  | compile (run : Compile.Run) (stage : Compile.Stage)
  | format (run : Format.Run) (stage : Format.Stage)
  | tooltip (stage : Tooltip.Stage)

inductive Wait where
  | request (n : Nat)
  | prompt (n : Nat)
  | message (n : Nat)
deriving DecidableEq

namespace Job

def name : Job → String
  | .compile _ _ => "compile"
  | .format _ _ => "format"
  | .tooltip _ => "tooltip"

/-- What a task waits for; one that is over waits for nothing. -/
def wait? : Job → Option Wait
  | .compile _ stage =>
    match stage with
    | .fetchingLanguages n | .fetchingCompilers n _ | .compiling n _ _ _ => some (.request n)
    | .choosingLanguage n _ | .choosingCompiler n _ _ | .enteringArguments n _ _ =>
      some (.prompt n)
    | .finished | .compiled _ _ => none
  | .format _ stage =>
    match stage with
    | .fetchingFormatters n | .formatting n _ _ => some (.request n)
    | .choosingFormatter n _ | .choosingStyle n _ => some (.prompt n)
    | .finished => none
  | .tooltip stage =>
    match stage with
    | .fetching n _ _ => some (.request n)
    | .linking n _ => some (.message n)
    | .finished => none

end Job

/-- The running program. -/
structure Workbench where
  window : Window
  contents : Contents := {}
  highlights : Controller DecorationCanvas := {}
  /-- The instruction set of each generated document, by the text of its address. -/
  instructionSets : Table String String := []
  jobs : List Job := []
  /-- Whether the commands, the contents and the hooks are registered in the window. -/
  isRegistered : Bool := true
  /-- Whether the state of the program can be seen from outside. -/
  isExposed : Bool := true

/-- A step of the program that cannot fail. -/
abbrev Shell := StateM Workbench

/-- A step of the program that can fail; what it did before stays done. -/
abbrev Work := ExceptT Fault Shell

namespace Workbench

def current : Shell Workbench := fun b => (b, b)

def change (f : Workbench → Workbench) : Shell Unit := fun b => ((), f b)

def onWindow {α : Type} (x : Action α) : Shell α := fun b =>
  let (a, window) := x b.window
  (a, { b with window })

instance : MonadLift Action Shell := ⟨onWindow⟩

def onHost {α : Type} (x : Host α) : Work α := ExceptT.mk (onWindow x.run)

instance : MonadLift Host Work := ⟨onHost⟩

def onHighlights (f : Controller DecorationCanvas → Action (Controller DecorationCanvas)) :
    Shell Unit := do
  let highlights ← f (← current).highlights
  change fun b => { b with highlights }

/-- The text with which the window opens a generated document: none once the contents are no longer
registered. -/
def provided (b : Workbench) (uri : Uri) : String :=
  if b.isRegistered then b.contents.textOf uri else ""

end Workbench

end AsmLens
