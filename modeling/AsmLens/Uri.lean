import AsmLens.Text

/-!
# Paths, and addresses of documents

The last component of a path, and the extension of a file name. Slashes at the end of a path do not
count, and a dot that opens a name opens no extension.

A `Uri` keeps the text it was made from, and two documents are the same when their texts are. From
the address of a source document follows the address of the document generated from it, and from
both the key of the session that links them.
-/

namespace AsmLens

/-! ## Paths -/

namespace Path

def lastComponent (cs : List Char) : List Char :=
  ((cs.reverse.dropWhile (· = '/')).takeWhile (· ≠ '/')).reverse

def baseName (path : String) : String := String.ofList (lastComponent path.toList)

/-- The extension of a path with its dot: what follows the last dot of the last component, unless
that dot opens the component or the component is two dots. -/
def extension (path : String) : String :=
  let base := lastComponent path.toList
  let tail := (base.reverse.takeWhile (· ≠ '.')).reverse
  let head := (base.reverse.dropWhile (· ≠ '.')).reverse.dropLast
  if head.isEmpty ∨ base = ['.', '.'] then "" else String.ofList ('.' :: tail)

/-- The extension by which a language is found for a file. A file without one gets a dot alone,
which is no language's extension. -/
def languageExtension (fileName : String) : String :=
  let ext := extension fileName
  if ext = "" then "." else ext

end Path

/-! ## Addresses -/

/-- The address of a document. -/
structure Uri where
  /-- The address as it was written. -/
  text : String
  scheme : String
  path : String
  /-- What stands between the first question mark and the second. -/
  query : String
deriving DecidableEq, Inhabited

namespace Uri

/-- Reads an address: a scheme, a colon, a path, and a query after a question mark. -/
def parse (s : String) : Uri :=
  let cs := s.toList
  let scheme := cs.takeWhile (· ≠ ':')
  let parts := Text.splitAt '?' (cs.drop (scheme.length + 1))
  ⟨s, String.ofList scheme, String.ofList (parts[0]?.getD []), String.ofList (parts[1]?.getD [])⟩

def file (path : String) : Uri := ⟨"file://" ++ path, "file", path, ""⟩

def generatedScheme : String := "compiler-explorer"

def isGenerated (u : Uri) : Bool := u.scheme = generatedScheme

/-- The address of the document generated from a source: it shows the name of the source in its path
and keeps the whole address of the source in its query. -/
def generated (source : Uri) : Uri :=
  let base := Path.baseName source.path
  let name := if base = "" then "untitled" else base
  parse s!"{generatedScheme}:/{Text.Percent.encode name}.asm?{Text.Percent.encode source.text}"

/-- The key of the session that links a source to a generated document. -/
def sessionKey (source generated : Uri) : String := s!"{source.text} -> {generated.text}"

end Uri

end AsmLens
