import AsmLens.Window.Basic

/-!
# Decorations and compiler messages

A decoration type says how lines are decorated, and each pane keeps the ranges of every type. A type
that is taken away decorates nothing any more. The compiler messages of an address are kept whether
or not a document with it is open.
-/

namespace AsmLens

namespace Decoration

/-- The looks of linked lines: whole lines in a theme color, and in the middle of the overview. -/
def linkedLines (color : String) : DecorationStyle := ⟨true, color, color, 2⟩

/-- Makes a decoration type for linked lines, and gives its number. -/
def create (color : String) : Host Nat := do
  attempt .createDecorationType
  let n := (← get).decorationTypes
  modify fun w => { w with decorationTypes := n + 1 }
  emit (.decorationType n (linkedLines color))
  return n

/-- Takes a decoration type away, and whatever it decorates with it. -/
def dispose (n : Nat) : Action Unit := do
  modify fun w => { w with
    panes := w.panes.map fun p => { p with decorations := p.decorations.remove n } }
  emit (.decorationTypeDisposed n)

/-- Decorates ranges in every visible pane with a document of the given address. -/
def draw (uri : Uri) (n : Nat) (ranges : List Range) : Action Unit := do
  let shown := (← get).panes.filter ((← get).shows uri)
  modify fun w => { w with
    panes := w.panes.map fun p =>
      if w.shows uri p then { p with decorations := p.decorations.put n ranges } else p }
  shown.forM fun _ => emit (.decorated uri n ranges)

end Decoration

namespace Diagnostic

def publish (uri : Uri) (diagnostics : List Diagnostic) : Action Unit := do
  modify fun w => { w with diagnostics := w.diagnostics.put uri.text diagnostics }
  emit (.diagnosticsSet uri diagnostics)

def withdraw (uri : Uri) : Action Unit := do
  modify fun w => { w with diagnostics := w.diagnostics.remove uri.text }
  emit (.diagnosticsRemoved uri)

def withdrawAll : Action Unit := do
  modify fun w => { w with diagnostics := [] }
  emit .diagnosticsDisposed

end Diagnostic

end AsmLens
