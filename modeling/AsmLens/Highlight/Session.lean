import AsmLens.Correlation
import AsmLens.Highlight.Canvas

/-!
# Highlight sessions

A session links a source to its generated document through a line index. When the cursor moves in
one of them, the lines that belong to it are highlighted in the other one, in place of those before;
when the cursor leaves, they go away. A session that has ended takes no notice of anything.
-/

namespace AsmLens

/-- The two documents of a session. -/
inductive Role where
  | source
  | generated
deriving DecidableEq

def Role.other : Role → Role
  | .source => .generated
  | .generated => .source

/-- What a session highlights in one of its documents. -/
structure Highlights (ν : Type) where
  canvas : ν
  lines : List Number

/-- A session, drawing on canvases of the type `ν`. -/
structure Session (ν : Type) where
  index : LineIndex
  source : Highlights ν
  generated : Highlights ν
  hasEnded : Bool

namespace Session

variable {ν : Type} {m : Type → Type} [Monad m] [Canvas m ν]

def create (index : LineIndex) (source generated : ν) : Session ν :=
  ⟨index, ⟨source, []⟩, ⟨generated, []⟩, false⟩

/-- What a session highlights in one of its documents. -/
def shown (s : Session ν) : Role → Highlights ν
  | .source => s.source
  | .generated => s.generated

def withShown (s : Session ν) (role : Role) (h : Highlights ν) : Session ν :=
  match role with
  | .source => { s with source := h }
  | .generated => { s with generated := h }

def isActive (s : Session ν) : Bool := !s.source.lines.isEmpty || !s.generated.lines.isEmpty

def stateName (s : Session ν) : String := if s.isActive then "active" else "idle"

/-- The lines of the other document that belong to a line of the given one. -/
def correlated (s : Session ν) (origin : Role) (line : Number) : List Number :=
  match origin with
  | .source => s.index.generatedLines line
  | .generated => (s.index.sourceLine? line).toList

def wipe (s : Session ν) (role : Role) : m (Session ν) := do
  return s.withShown role ⟨← Canvas.clear (s.shown role).canvas, []⟩

/-- The cursor has come to a line of one of the documents. -/
def cursorMoved (s : Session ν) (origin : Role) (line : Number) : m (Session ν) := do
  if s.hasEnded then return s
  let s ← s.wipe origin.other
  let lines := s.correlated origin line
  let canvas ← lines.foldlM Canvas.draw (s.shown origin.other).canvas
  return s.withShown origin.other ⟨canvas, lines⟩

def cursorLeft (s : Session ν) (origin : Role) : m (Session ν) :=
  if s.hasEnded then return s else s.wipe origin.other

/-- Ends a session: nothing is highlighted any more, and its canvases are given up. -/
def finish (s : Session ν) : m (Session ν) := do
  if s.hasEnded then return s
  let s ← s.wipe .source
  let s ← s.wipe .generated
  let source ← Canvas.release s.source.canvas
  let generated ← Canvas.release s.generated.canvas
  return { s with
    source := { s.source with canvas := source }
    generated := { s.generated with canvas := generated }
    hasEnded := true }

end Session

end AsmLens
