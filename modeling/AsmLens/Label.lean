import AsmLens.Json.Text

/-!
# Label templates

The label of an item in a list of choices is written from a template. A `Template` is a list of
pieces: literal text, and places for fields of the item. `Template.parse` finds the places, in one
pass from left to right, and `Template.render` fills them.
-/

namespace AsmLens

/-- A piece of a template. -/
inductive Piece where
  | literal (c : Char)
  | field (name : String)
deriving DecidableEq

abbrev Template := List Piece

namespace Template

def isNameChar (c : Char) : Bool := c.isAlphanum || c = '_'

/-- The name at the front of a text that follows an opening brace, and what comes after the closing
one. -/
def closedName? (cs : List Char) : Option (List Char × List Char) :=
  match cs.takeWhile isNameChar, cs.dropWhile isNameChar with
  | name@(_ :: _), '}' :: rest => some (name, rest)
  | _, _ => none

theorem closedName?_length {cs name rest : List Char} (h : closedName? cs = some (name, rest)) :
    rest.length < cs.length := by
  unfold closedName? at h
  split at h
  · rename_i hd
    have := congrArg List.length hd
    have hle := (List.dropWhile_sublist isNameChar (l := cs)).length_le
    simp only [Option.some.injEq, Prod.mk.injEq] at h
    simp only [List.length_cons, h.2] at this
    omega
  · simp at h

/-- The pieces of a text. A place is a dollar sign and a name in braces; whatever is not a whole
place is literal. -/
def pieces : List Char → Template
  | [] => []
  | '$' :: '{' :: cs =>
    match _h : closedName? cs with
    | some (name, rest) => .field (String.ofList name) :: pieces rest
    | none => .literal '$' :: pieces ('{' :: cs)
  | c :: cs => .literal c :: pieces cs
termination_by cs => cs.length
decreasing_by
  · have := closedName?_length _h
    simp only [List.length_cons]
    omega
  all_goals simp only [List.length_cons]; omega

def parse (s : String) : Template := pieces s.toList

/-- The names that every object answers to without owning a field of that name, and what it answers:
its functions are shown by their heads, and what it was made from as an object. -/
def inherited? (name : String) : Option String :=
  let function (f : String) : String := "function " ++ f ++ "() \x7b [native code] \x7d"
  if name = "constructor" then some (function "Object")
  else if name = "__proto__" then some "[object Object]"
  else if functions.contains name then some (function name)
  else none
where
  /-- The functions that every object has. -/
  functions : List String :=
    ["toString", "valueOf", "hasOwnProperty", "isPrototypeOf", "propertyIsEnumerable",
      "toLocaleString", "__defineGetter__", "__defineSetter__", "__lookupGetter__",
      "__lookupSetter__"]

/-- The fields a template can show of an item. An item that is neither object nor list is shown
under the name `value`. -/
def fieldsOf : Json → List (String × Json)
  | item@(.obj _) | item@(.arr _) => item.fields
  | item => [("value", item)]

/-- What a place for a field shows: nothing for a field that is missing or empty, and the members of
a list with commas between them. -/
def shown (item : Json) (name : String) : Except Fault String :=
  match (fieldsOf item).lookup name with
  | some .null => .ok ""
  | some (.arr items) => Json.joined ", " items
  | some v => v.text
  | none => .ok ((inherited? name).getD "")

def render (item : Json) : Template → Except Fault String
  | [] => .ok ""
  | .literal c :: rest => do return String.singleton c ++ (← render item rest)
  | .field name :: rest => do
    let s ← shown item name
    return s ++ (← render item rest)

def label (template : String) (item : Json) : Except Fault String := (parse template).render item

end Template

end AsmLens
