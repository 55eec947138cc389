import AsmLens.Number.Basic
import AsmLens.Text

/-!
# Decimal text of numbers

Reading: `Number.ofScientific` is the number nearest to `m * 10 ^ x`, and `Number.ofNumeral` reads a
whole text as a numeral. Printing: `Number.text` writes the fewest digits that read back, of two
candidates the nearer one; a value from `10 ^ (-6)` up to below `10 ^ 21` is written without an
exponent.
-/

namespace AsmLens.Number

/-! ## Reading -/

/-- The number nearest to `num / den`, for `0 < num`: enough bits of the quotient are kept exactly,
and one more says whether anything was left over, so the last rounding sees which side it is on. -/
def ofRatio (num den : Nat) : Number :=
  let e : Int := Max.max ((num.log2 : Int) - den.log2 - 53) (-1074) - 2
  let top := num * Nat.pow 2 (-e).toNat
  let bottom := den * Nat.pow 2 e.toNat
  let rest := if top % bottom = 0 then 0 else 1
  ofDyadic (Dyadic.ofIntWithPrec (2 * (top / bottom) + rest : Nat) (1 - e))

/-- The number nearest to `m * 10 ^ x`. The two early answers are exact: beyond them every value is
above all finite numbers, or closer to zero than to any other number. -/
def ofScientific (m : Nat) (x : Int) : Number :=
  let size := ((Nat.toDigits 10 m).length : Int) + x
  if m = 0 then .finite 0
  else if 310 < size then .posInf
  else if size < -330 then .finite 0
  else if 0 ≤ x then ofInt (m * Nat.pow 10 x.toNat : Nat)
  else ofRatio m (Nat.pow 10 (-x).toNat)

def ofDigits? (base : Nat) (cs : List Char) : Option Nat :=
  cs.foldlM (fun acc c => (digit? c).map fun d => acc * base + d) 0
where
  digit? (c : Char) : Option Nat :=
    let v :=
      if '0' ≤ c ∧ c ≤ '9' then c.toNat - 48
      else if 'a' ≤ c ∧ c ≤ 'z' then c.toNat - 87
      else if 'A' ≤ c ∧ c ≤ 'Z' then c.toNat - 55
      else base
    if v < base then some v else none

/-- The exponent at the end of a numeral: nothing, or a mark, a sign and digits. -/
def exponent? : List Char → Option Int
  | [] => some 0
  | c :: cs =>
    if c = 'e' ∨ c = 'E' then
      match cs with
      | '-' :: ds => if ds.isEmpty then none else (ofDigits? 10 ds).map fun n => -(n : Int)
      | '+' :: ds => if ds.isEmpty then none else (ofDigits? 10 ds).map fun n => (n : Int)
      | ds => if ds.isEmpty then none else (ofDigits? 10 ds).map fun n => (n : Int)
    else none

/-- An unsigned decimal numeral: digits with a point among or before or after them, and an exponent.
-/
def ofDecimal? (cs : List Char) : Option Number := do
  let whole := cs.takeWhile Char.isDigit
  let rest := cs.dropWhile Char.isDigit
  let (fraction, rest) :=
    match rest with
    | '.' :: more => (more.takeWhile Char.isDigit, more.dropWhile Char.isDigit)
    | _ => ([], rest)
  if whole.isEmpty && fraction.isEmpty then none
  let m ← ofDigits? 10 (whole ++ fraction)
  let x ← exponent? rest
  return ofScientific m (x - fraction.length)

def ofUnsigned? (cs : List Char) : Option Number :=
  if cs = "Infinity".toList then some .posInf else ofDecimal? cs

/-- The number a text stands for: blanks around it do not count, nothing is zero, and what is no
numeral is no number. Hexadecimal, octal and binary numerals have no sign. -/
def ofNumeral (s : String) : Number :=
  let inBase (base : Nat) (ds : List Char) : Number :=
    if ds.isEmpty then .nan
    else match ofDigits? base ds with
      | some n => ofInt n
      | none => .nan
  match (Text.trimmed s).toList with
  | [] => .finite 0
  | '0' :: 'x' :: ds | '0' :: 'X' :: ds => inBase 16 ds
  | '0' :: 'o' :: ds | '0' :: 'O' :: ds => inBase 8 ds
  | '0' :: 'b' :: ds | '0' :: 'B' :: ds => inBase 2 ds
  | '-' :: cs => ((ofUnsigned? cs).map fun x => -x).getD .nan
  | '+' :: cs => (ofUnsigned? cs).getD .nan
  | cs => (ofUnsigned? cs).getD .nan

/-! ## Printing -/

/-- A positive decimal `digits * 10 ^ scale`. -/
structure Decimal where
  digits : Nat
  /-- The power of ten of the last digit. -/
  scale : Int
deriving DecidableEq

namespace Decimal

def strip (d : Decimal) : Decimal :=
  if h : 0 < d.digits ∧ d.digits % 10 = 0 then strip ⟨d.digits / 10, d.scale + 1⟩ else d
termination_by d.digits
decreasing_by exact Nat.div_lt_self h.1 (by decide)

/-- The position of the point: `num / den` lies between `10 ^ (point - 1)` and `10 ^ point`. -/
def point (num den : Nat) : Int :=
  if den ≤ num then (Nat.toDigits 10 (num / den)).length
  else (Nat.toDigits 10 (num * Nat.pow 10 330 / den)).length - 330

/-- The neighbour of `num / den` on the grid of `p` digits that reads back as `x`, if there is one;
of two the nearer, and half way between them the one with an even last digit. -/
def onGrid? (x : Number) (num den p : Nat) : Option Decimal :=
  let scale := point num den - p
  let top := num * Nat.pow 10 (-scale).toNat
  let bottom := den * Nat.pow 10 scale.toNat
  let low := top / bottom
  let readsBack (c : Nat) : Bool := ofScientific c scale = x
  if readsBack low then
    if readsBack (low + 1) && (bottom < 2 * (top % bottom) ||
        (bottom = 2 * (top % bottom) && low % 2 = 1)) then some ⟨low + 1, scale⟩
    else some ⟨low, scale⟩
  else if readsBack (low + 1) then some ⟨low + 1, scale⟩
  else none

/-- The shortest decimal that reads back as the positive number `x = num / den`. Seventeen digits
are always enough. -/
def shortest (x : Number) (num den : Nat) : Decimal :=
  (((List.range 17).findSome? fun p => onGrid? x num den (p + 1)).getD ⟨0, 0⟩).strip

/-- A decimal as text. The point stands after the first `n` digits: it is written where it falls for
`-6 < n ≤ 21`, and otherwise after the first digit, with an exponent. -/
def text (d : Decimal) : String :=
  let ds := Nat.toDigits 10 d.digits
  let k := ds.length
  let n := d.scale + k
  if k ≤ n ∧ n ≤ 21 then String.ofList (ds ++ List.replicate (n - k).toNat '0')
  else if 0 < n ∧ n ≤ 21 then String.ofList (ds.take n.toNat ++ '.' :: ds.drop n.toNat)
  else if -6 < n ∧ n ≤ 0 then String.ofList ('0' :: '.' :: List.replicate (-n).toNat '0' ++ ds)
  else
    let mantissa := ds.take 1 ++ (if k = 1 then [] else '.' :: ds.drop 1)
    let sign := if 0 ≤ n - 1 then '+' else '-'
    String.ofList (mantissa ++ 'e' :: sign :: Nat.toDigits 10 (n - 1).natAbs)

end Decimal

def text : Number → String
  | .finite .zero => "0"
  | .finite (.ofOdd n k h) =>
    let num := n.natAbs * Nat.pow 2 (-k).toNat
    let den := Nat.pow 2 k.toNat
    let magnitude := (Decimal.shortest (.finite (.ofOdd n.natAbs k (by omega))) num den).text
    if n < 0 then "-" ++ magnitude else magnitude
  | .posInf => "Infinity"
  | .negInf => "-Infinity"
  | .nan => "NaN"

end AsmLens.Number
