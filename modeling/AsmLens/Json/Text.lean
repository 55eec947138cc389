import AsmLens.Fault
import AsmLens.Number.Decimal

/-!
# JSON values as text and as numbers

`Json.text` is the text of a value where one is shown to the user, and `Json.toNumber` its value
where one is calculated with. An object that brings a field named `toString` has neither.
-/

namespace AsmLens.Json

/-- The name whose presence in an object hides the text that every object has. -/
def textField : String := "toString"

mutual

/-- The text of a value. The members of a list are separated by commas, and an object is named by
its kind. -/
def text : Json → Except Fault String
  | .null => .ok "null"
  | .bool b => .ok (if b then "true" else "false")
  | .num x => .ok x.text
  | .str s => .ok s
  | .arr items => do return ",".intercalate (← memberTexts items)
  | .obj fields =>
    if (fields.lookup textField).isSome then .error .noText else .ok "[object Object]"

/-- The texts of the members of a list; a member that is nothing has the empty text. -/
def memberTexts : List Json → Except Fault (List String)
  | [] => .ok []
  | .null :: items => do return "" :: (← memberTexts items)
  | item :: items => do return (← text item) :: (← memberTexts items)

end

def joined (separator : String) (items : List Json) : Except Fault String := do
  return separator.intercalate (← memberTexts items)

/-- The number that a value counts as: a text as a numeral, nothing and falsehood as zero, truth as
one, a list as its text, and an object as no number. -/
def toNumber (v : Json) : Except Fault Number :=
  match v with
  | .num x => .ok x
  | .null => .ok 0
  | .bool b => .ok (if b then 1 else 0)
  | .str s => .ok (Number.ofNumeral s)
  | .arr _ | .obj _ => do return Number.ofNumeral (← text v)

end AsmLens.Json

namespace AsmLens.Fault

/-- The message of a fault as it is shown; a plain value is shown as its text. -/
def message : Fault → Except Fault String
  | .value v => v.text
  | .nothing => .ok "undefined"
  | fault => .ok (fault.wording?.getD "")

end AsmLens.Fault
