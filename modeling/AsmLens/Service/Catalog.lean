import AsmLens.Json.Text

/-!
# Catalogs of the service

The languages, compilers and formatters that the service offers. An entry without an identifier is
left out of its catalog, and a missing detail falls back to a plain one. `Catalog.read` keeps the
order of the entries, and what `toJson` writes of an entry reads back as that entry.
-/

namespace AsmLens

structure Language where
  /-- The identifier, under which its compilers are asked for. -/
  id : String
  name : String
  /-- The extensions of its files, each with its dot. -/
  extensions : List String
  monaco : Option String

structure Compiler where
  id : String
  name : String
  lang : String
  compilerType : Option String
  semver : Option String
  /-- The instruction set of its output, under which instructions are documented. -/
  instructionSet : Option String

structure Formatter where
  exe : String
  name : String
  styles : List String
  /-- The identifier, to which a source is sent. -/
  type : String
  version : String

namespace Language

/-- The language that an entry describes. Its extensions are whatever has a text. -/
def read (entry : Json) : Except Fault (Option Language) :=
  match entry.stringField? "id" with
  | none => .ok none
  | some id => do
    return some {
      id
      name := (entry.stringField? "name").getD id
      extensions := ← ((entry.itemsField? "extensions").getD []).mapM Json.text
      monaco := entry.stringField? "monaco" }

def toJson (l : Language) : Json :=
  .obj ([("id", .str l.id), ("name", .str l.name), ("extensions", .arr (l.extensions.map .str))] ++
    Json.stringFields [("monaco", l.monaco)])

end Language

namespace Compiler

def read (entry : Json) : Except Fault (Option Compiler) :=
  .ok <| (entry.stringField? "id").map fun id => {
    id
    name := (entry.stringField? "name").getD id
    lang := (entry.stringField? "lang").getD ""
    compilerType := entry.stringField? "compilerType"
    semver := entry.stringField? "semver"
    instructionSet := entry.stringField? "instructionSet" }

def toJson (c : Compiler) : Json :=
  .obj ([("id", .str c.id), ("name", .str c.name), ("lang", .str c.lang)] ++
    Json.stringFields [("compilerType", c.compilerType), ("semver", c.semver),
      ("instructionSet", c.instructionSet)])

end Compiler

namespace Formatter

/-- The formatter that an entry describes. Its styles are the texts among those listed. -/
def read (entry : Json) : Except Fault (Option Formatter) :=
  .ok <| (entry.stringField? "type").map fun type => {
    exe := (entry.stringField? "exe").getD ""
    name := (entry.stringField? "name").getD type
    styles := ((entry.itemsField? "styles").getD []).filterMap Json.string?
    type
    version := (entry.stringField? "version").getD "" }

def toJson (f : Formatter) : Json :=
  .obj [("exe", .str f.exe), ("name", .str f.name), ("styles", .arr (f.styles.map .str)),
    ("type", .str f.type), ("version", .str f.version)]

end Formatter

namespace Catalog

variable {α : Type}

/-- The entries of a catalog that describe something, in order. An entry that is no object describes
nothing. -/
def collect (read : Json → Except Fault (Option α)) : List Json → Except Fault (List α)
  | [] => .ok []
  | entry :: entries => do
    let item ← if entry.isObject then read entry else .ok none
    return item.toList ++ (← collect read entries)

theorem collect_eq (read : Json → Except Fault (Option α)) (entries : List Json) :
    collect read entries =
      (entries.mapM fun entry => if entry.isObject then read entry else .ok none) >>= fun items =>
        .ok (items.filterMap id) := by
  induction entries with
  | nil => rfl
  | cons entry entries ih =>
    have hitem : ∀ (item : Option α) (items : List (Option α)),
        item.toList ++ items.filterMap id = (item :: items).filterMap id := by
      intro item items
      cases item <;> rfl
    rw [collect, ih, List.mapM_cons]
    simp only [bind_assoc, pure_bind, ← hitem]
    split <;> rfl

/-- The catalog that the service answered with; an answer that is no list is refused, in words that
name what was wanted. -/
def read (what : String) (readEntry : Json → Except Fault (Option α)) (answer : Option Json) :
    Except Fault (Except String (List α)) :=
  match answer.bind Json.items? with
  | none => .ok (.error s!"Invalid response: expected a list of {what}")
  | some entries => do return .ok (← collect readEntry entries)

end Catalog

end AsmLens
