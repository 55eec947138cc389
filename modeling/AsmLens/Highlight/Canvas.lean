import AsmLens.Window.Decoration

/-!
# Canvases for highlighted lines

A canvas is where one session highlights lines of one document, and nothing else: clearing it
removes what was drawn on it and touches no other canvas. `LineSheet` only remembers the lines, and
`DecorationCanvas` shows them in the window with a decoration type of its own.
-/

namespace AsmLens

/-- What a session needs of the place where it highlights lines. -/
class Canvas (m : Type → Type) (ν : Type) where
  /-- Highlights one more line, counted from one. A line that the document does not have is left
  out. -/
  draw : ν → Number → m ν
  clear : ν → m ν
  release : ν → m ν

/-! ## Lines kept in memory -/

/-- A canvas that remembers what was drawn on it. -/
structure LineSheet where
  lineCount : Number
  lines : List Number
  clears : Nat
  isReleased : Bool

namespace LineSheet

def blank (lineCount : Number) : LineSheet := ⟨lineCount, [], 0, false⟩

/-- The sheet with one more line, if the document has it. -/
def add (sheet : LineSheet) (line : Number) : LineSheet :=
  if Number.le 1 line && line.le sheet.lineCount then { sheet with lines := sheet.lines ++ [line] }
  else sheet

def wiped (sheet : LineSheet) : LineSheet := { sheet with lines := [], clears := sheet.clears + 1 }

instance {m : Type → Type} [Monad m] : Canvas m LineSheet where
  draw sheet line := return sheet.add line
  clear sheet := return sheet.wiped
  release sheet := return { sheet with isReleased := true }

end LineSheet

/-! ## Lines shown in the window -/

/-- A canvas on a document in the window, with a decoration type of its own. -/
structure DecorationCanvas where
  uri : Uri
  decoration : Nat
  /-- The lines that are highlighted, counted from one. -/
  lines : List Nat

namespace DecorationCanvas

def create (uri : Uri) (color : String) : Host DecorationCanvas :=
  return ⟨uri, ← Decoration.create color, []⟩

/-- Shows the lines of the canvas. -/
def render (c : DecorationCanvas) : Action Unit :=
  Decoration.draw c.uri c.decoration (c.lines.map fun line => .atLine ((line - 1 : Nat) : Number))

/-- The line that a number is, if the document is open and has it. -/
def lineIn? (w : Window) (uri : Uri) (line : Number) : Option Nat := do
  let d ← w.openDocument? uri
  let n ← line.toNat?
  if 1 ≤ n ∧ n ≤ d.lineCount then some n else none

def skip (c : DecorationCanvas) (line : String) : Action DecorationCanvas := do
  log [s!"[DecorationNamespace] Line {line} is not in {c.uri.text}, skipping"]
  return c

def draw (c : DecorationCanvas) (line : Number) : Action DecorationCanvas := do
  match lineIn? (← get) c.uri line with
  | none => c.skip line.text
  | some n =>
    let c := { c with lines := c.lines ++ [n] }
    c.render
    return c

/-- Highlights the line that a value names; one that is no number names none. -/
def drawValue (c : DecorationCanvas) (line : Option Json) : Host DecorationCanvas := do
  match line with
  | none => c.skip "undefined"
  | some (.num x) => c.draw x
  | some v => c.skip (← v.text)

/-- Removes all lines; without any there is nothing to do. -/
def clear (c : DecorationCanvas) : Action DecorationCanvas := do
  if c.lines.isEmpty then return c
  let c := { c with lines := [] }
  c.render
  return c

def release (c : DecorationCanvas) : Action DecorationCanvas := do
  Decoration.dispose c.decoration
  return { c with lines := [] }

instance : Canvas Action DecorationCanvas := ⟨draw, clear, release⟩

end DecorationCanvas

end AsmLens
