/-!
# Numbers

`Number` is the one kind of number that settings, services and documents exchange: a dyadic rational
with at most `53` significant bits, one of the two infinities, or the answer to a question that has
no numeric answer. Arithmetic is exact and then rounded: `Number.ofDyadic` keeps every value that
fits (`Representable`) and takes any other one to the nearest that does, a tie to the even
neighbour.

A zero has no sign here: nothing that reads a number can tell two zeros apart.
-/

namespace AsmLens

/-- A number: a finite value, an infinity, or no number at all. -/
inductive Number where
  | finite (value : Dyadic)
  | posInf
  | negInf
  /-- The answer of a computation that has no numeric answer. -/
  | nan
deriving DecidableEq

namespace Number

/-! ## What fits -/

/-- The values a number can hold: at most `53` significant bits, no bit below `2 ^ (-1074)`, and an
absolute value below `2 ^ 1024`. -/
def Representable : Dyadic → Prop
  | .zero => True
  | .ofOdd n k _ => n.natAbs < Nat.pow 2 53 ∧ k ≤ 1074 ∧ (n.natAbs.log2 : Int) - k < 1024

instance : DecidablePred Representable
  | .zero => .isTrue trivial
  | .ofOdd n k _ =>
    inferInstanceAs
      (Decidable (n.natAbs < Nat.pow 2 53 ∧ k ≤ 1074 ∧ (n.natAbs.log2 : Int) - k < 1024))

/-- The exponent of the grid on which a value is rounded: `53` bits from its leading one down, but
never below `2 ^ (-1074)`. -/
def gridExponent : Dyadic → Int
  | .zero => -1074
  | .ofOdd n k _ => max ((n.natAbs.log2 : Int) - k - 52) (-1074)

/-- The integer nearest to `n / d`; half way between two of them, the even one. -/
def divNearest (n : Int) (d : Nat) : Int :=
  let q := n / d
  let r := n % d
  if 2 * r < d then q else if d < 2 * r then q + 1 else q + q % 2

/-- The multiple of `2 ^ e` nearest to `value`; half way between two of them, the even multiple. -/
def roundToGrid (value : Dyadic) (e : Int) : Dyadic :=
  match value with
  | .zero => 0
  | .ofOdd n k _ =>
    if e + k ≤ 0 then value
    else Dyadic.ofIntWithPrec (divNearest n (Nat.pow 2 (e + k).toNat)) (-e)

/-- The number nearest to `value`. A value that fits is kept; one too large for every finite number
becomes the infinity of its sign. -/
def ofDyadic (value : Dyadic) : Number :=
  if Representable value then .finite value
  else
    let rounded := roundToGrid value (gridExponent value)
    if Representable rounded then .finite rounded
    else if value < 0 then .negInf else .posInf

def ofInt (n : Int) : Number := ofDyadic (Dyadic.ofInt n)

/-- What is counted is a number exactly, however many there are. -/
instance : IntCast Number := ⟨fun n => .finite (Dyadic.ofInt n)⟩

instance : NatCast Number := ⟨fun n => ((n : Int) : Number)⟩

instance (n : Nat) : OfNat Number n := ⟨(n : Number)⟩

instance : Inhabited Number := ⟨0⟩

/-! ## Arithmetic and order -/

instance : Neg Number where
  neg
    | .finite x => .finite (-x)
    | .posInf => .negInf
    | .negInf => .posInf
    | .nan => .nan

instance : Add Number where
  add
    | .finite x, .finite y => ofDyadic (x + y)
    | .nan, _ | _, .nan => .nan
    | .posInf, .negInf | .negInf, .posInf => .nan
    | .posInf, _ | _, .posInf => .posInf
    | .negInf, _ | _, .negInf => .negInf

instance : Sub Number where
  sub x y := x + -y

/-- `x.le y` holds when `x` is at most `y`; no comparison with `nan` holds. -/
def le : Number → Number → Bool
  | .nan, _ | _, .nan => false
  | .negInf, _ => true
  | _, .posInf => true
  | .finite x, .finite y => x ≤ y
  | _, _ => false

def lt (x y : Number) : Bool := x.le y && !y.le x

/-- The larger of two numbers, `nan` if one of them is. -/
def max (x y : Number) : Number :=
  if x = .nan ∨ y = .nan then .nan else if x.le y then y else x

def min (x y : Number) : Number :=
  if x = .nan ∨ y = .nan then .nan else if x.le y then x else y

/-! ## Integers among the numbers -/

def toInt? : Number → Option Int
  | .finite .zero => some 0
  | .finite (.ofOdd n k _) => if k ≤ 0 then some (n * (Nat.pow 2 (-k).toNat : Nat)) else none
  | _ => none

def isInteger (x : Number) : Bool := x.toInt?.isSome

def toNat? (x : Number) : Option Nat :=
  x.toInt?.bind fun n => if 0 ≤ n then some n.toNat else none

example : ofInt 9007199254740993 = ofInt 9007199254740992 := by decide

end Number

end AsmLens
