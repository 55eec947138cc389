import AsmLens.Table
import AsmLens.Text
import AsmLens.Uri

/-!
# Contents of generated documents

The texts of the generated documents, by address. There is one for each source, and compiling the
source again replaces it. Whoever listens is told of every replacement.
-/

namespace AsmLens

/-- The contents of generated documents. -/
structure Contents where
  texts : Table String String := []
  /-- The numbers of those who listen, in the order in which they came. -/
  listeners : List Nat := []
  nextListener : Nat := 0

namespace Contents

/-- The text of a generated document; one that has no text is empty. -/
def textOf (c : Contents) (uri : Uri) : String := (c.texts.get? uri.text).getD ""

def listen (c : Contents) : Contents :=
  { c with listeners := c.listeners ++ [c.nextListener], nextListener := c.nextListener + 1 }

def unlisten (c : Contents) (listener : Nat) : Contents :=
  { c with listeners := c.listeners.filter (· ≠ listener) }

/-- The contents with another text for a document, given as lines. -/
def replace (c : Contents) (uri : Uri) (lines : List String) : Contents :=
  { c with texts := c.texts.put uri.text (Text.joinLines lines) }

def forget (c : Contents) (uri : Uri) : Contents := { c with texts := c.texts.remove uri.text }

/-- No contents any more, and nobody who listens. -/
def dispose (c : Contents) : Contents := { c with texts := [], listeners := [] }

end Contents

end AsmLens
