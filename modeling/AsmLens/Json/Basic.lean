import AsmLens.Number.Basic

/-!
# JSON values

What settings hold and what the service answers is any JSON value. A reader asks it questions that
always have an answer: `Json.field?` finds a field of its own, and `Json.string?`, `Json.number?`
and `Json.items?` say whether it is of the kind wanted.
-/

namespace AsmLens

/-- A JSON value. The fields of an object have different names. -/
inductive Json where
  | null
  | bool (b : Bool)
  | num (x : Number)
  | str (s : String)
  | arr (items : List Json)
  | obj (fields : List (String × Json))
deriving Inhabited

namespace Json

/-- The fields that a value has as its own: those of an object, and the members of a list under the
names `0`, `1`, …; no other value has fields. -/
def fields : Json → List (String × Json)
  | .obj fs => fs
  | .arr items => items.mapIdx fun i v => (toString i, v)
  | _ => []

/-- The field of the given name, if the value has it as its own. -/
def field? (v : Json) (name : String) : Option Json := v.fields.lookup name

def isObject : Json → Bool
  | .obj _ => true
  | _ => false

def string? : Json → Option String
  | .str s => some s
  | _ => none

def number? : Json → Option Number
  | .num x => some x
  | _ => none

def items? : Json → Option (List Json)
  | .arr items => some items
  | _ => none

/-- Whether a value counts as something: nothing, falsehood, zero, no number and the empty text do
not. -/
def isTruthy : Json → Bool
  | .null => false
  | .bool b => b
  | .num x => x ≠ 0 ∧ x ≠ .nan
  | .str s => s ≠ ""
  | .arr _ | .obj _ => true

def stringField? (v : Json) (name : String) : Option String := (v.field? name).bind string?

def numberField? (v : Json) (name : String) : Option Number := (v.field? name).bind number?

def itemsField? (v : Json) (name : String) : Option (List Json) := (v.field? name).bind items?

theorem string?_eq_some_iff {v : Json} {s : String} : v.string? = some s ↔ v = .str s := by
  cases v <;> simp [string?]

theorem number?_eq_some_iff {v : Json} {x : Number} : v.number? = some x ↔ v = .num x := by
  cases v <;> simp [number?]

theorem stringField?_eq_some_iff {v : Json} {name s : String} :
    v.stringField? name = some s ↔ v.field? name = some (.str s) := by
  simp [stringField?, Option.bind_eq_some_iff, string?_eq_some_iff]

theorem numberField?_eq_some_iff {v : Json} {name : String} {x : Number} :
    v.numberField? name = some x ↔ v.field? name = some (.num x) := by
  simp [numberField?, Option.bind_eq_some_iff, number?_eq_some_iff]

/-- The fields of an object whose values are texts, of which some may be missing. -/
def stringFields (named : List (String × Option String)) : List (String × Json) :=
  named.filterMap fun entry => entry.2.map fun s => (entry.1, .str s)

end Json

end AsmLens
