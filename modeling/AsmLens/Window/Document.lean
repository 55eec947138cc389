import AsmLens.Text
import AsmLens.Window.Basic

/-!
# Opening, showing and changing documents

A document is opened once for an address and shown in any number of panes. A generated document that
is already visible is not shown again.
-/

namespace AsmLens

namespace Window

def addDocument (w : Window) (d : Document) : Window := { w with documents := w.documents ++ [d] }

def addPane (w : Window) (document : Nat) (selection : Selection) : Window :=
  { w with panes := w.panes ++ [⟨document, selection, [], true⟩] }

def setText (w : Window) (document : Nat) (text : String) : Window :=
  { w with documents := w.documents.modify document fun d => { d with text } }

end Window

namespace Document

/-- Opens the document with the given address, and gives its number. One that is not open yet gets
the given content. -/
def openAt (uri : Uri) (content : String) : Host Nat := do
  emit (.documentOpened uri)
  attempt .openDocument
  let w ← get
  match w.findDocument? uri with
  | some n => return n
  | none =>
    set (w.addDocument ⟨uri, content, uri.path, false, true⟩)
    return w.documents.length

/-- The content of a generated document has changed, and the open document takes it. -/
def refresh (uri : Uri) (content : String) : Action Unit := do
  emit (.contentChanged uri)
  match (← get).findDocument? uri with
  | some n => modify fun w => w.setText n content
  | none => return

/-- How a generated document is shown: beside the active pane, which stays active, and in a pane of
its own. -/
def besideSource : ShowOptions := ⟨-2, true, false⟩

def display (n : Nat) (options : ShowOptions) : Host Unit := do
  emit (.documentShown ((← get).documents[n]?.getD default).uri options)
  attempt .showDocument
  modify fun w => w.addPane n default

/-- Shows a generated document beside its source, unless it is visible already. -/
def displayGenerated (uri : Uri) (content : String) : Host Unit := do
  if ((← get).findPane? uri).isSome then return
  display (← openAt uri content) besideSource

/-- The text of a document with another text in place of a range. -/
def textWith (d : Document) (range : Range) (text : String) : String :=
  let nat (x : Number) : Nat := x.toNat?.getD 0
  let parts (p : Position) : List Char × List Char := Text.splitPlace (nat p.line) (nat p.column) d.text.toList
  String.ofList ((parts range.start).1 ++ text.toList ++ (parts range.stop).2)

/-- The whole text of a document: from its start to the end of its last line. -/
def wholeRange (d : Document) : Range :=
  ⟨⟨0, 0⟩, ⟨((d.lineCount - 1 : Nat) : Number), Text.length16 (d.lines.getLast?.getD "")⟩⟩

/-- Replaces the whole text of a document, as it is now, and says whether it was replaced. -/
def replaceAll (n : Nat) (lines : List String) : Host Bool := do
  let d := (← get).documents[n]?.getD default
  let text := Text.joinLines lines
  attempt .edit
  emit (.replaced d.uri d.wholeRange text !d.refusesEdits)
  if !d.refusesEdits then modify fun w => w.setText n (d.textWith d.wholeRange text)
  return !d.refusesEdits

end Document

end AsmLens
