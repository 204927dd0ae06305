import SchemaWire.Decimal.Binary64
import SchemaWire.Numeral

/-! The shortest decimal for a binary floating point number.

Of all decimals that round to the number the shortest lie on the coarsest grid of powers of ten, and
of those the nearest to the number is taken, the even one if two are equally near.
-/

set_option autoImplicit false

namespace SchemaWire

structure Decimal where
  digits : Nat
  exponent : Int
  deriving DecidableEq, Repr

namespace Binary64

/-- Compare `digits · 10 ^ grid` with `n · 2 ^ exponent`. -/
def compareOnGrid (digits : Nat) (grid : Int) (n : Nat) (exponent : Int) : Ordering :=
  let left := scaled 10 digits 1 grid
  let right := scaled 2 n 1 exponent
  compare (left.1 * right.2) (right.1 * left.2)

/-- Whether `digits · 10 ^ grid` rounds to the number. The numbers that do lie between the midpoints
to the two neighbours, and on a midpoint if the significand is even. The lower neighbour of a power
of two is half as far away as the upper one. -/
def readsBack (x : Binary64) (digits : Nat) (grid : Int) : Bool :=
  let below := if x.significand = fullSignificand ∧ leastExponent < x.exponent then 1 else 2
  let ends := x.significand % 2 == 0
  let toLower := compareOnGrid digits grid (4 * x.significand - below) (x.exponent - 2)
  let toUpper := compareOnGrid digits grid (4 * x.significand + 2) (x.exponent - 2)
  (toLower == .gt || (ends && toLower == .eq)) && (toUpper == .lt || (ends && toUpper == .eq))

/-- The point of a grid that rounds to the number and is nearest to it. Only the grid's points right
below and above the number can be. -/
def onGrid? (x : Binary64) (grid : Int) : Option Decimal :=
  let (n, d) := scaled 10 x.ratio.1 x.ratio.2 (-grid)
  let floor := n / d
  match x.readsBack floor grid, x.readsBack (floor + 1) grid with
  | true, true => some ⟨nearest n d, grid⟩
  | true, false => some ⟨floor, grid⟩
  | false, true => some ⟨floor + 1, grid⟩
  | false, false => none

def grids : List Int := (List.range 633).map fun (step : Nat) => (308 : Int) - step

def shortest (x : Binary64) : Decimal :=
  if x.isZero then ⟨0, 0⟩ else (grids.findSome? x.onGrid?).getD ⟨0, 0⟩

end Binary64

/-- Which decimals are written without an exponent: those whose leading digit stands for a power of
ten from `least` to `greatest`. -/
structure Decimal.Layout where
  least : Int
  greatest : Int
  deriving DecidableEq, Repr

namespace Decimal.Layout

/-- Digits with a point among or around them. A whole number gets a zero behind the point. -/
def positional (digits : List Char) (exponent : Int) : List Char :=
  let whole := digits.length + exponent
  if 0 ≤ exponent then digits ++ List.replicate exponent.toNat '0' ++ ['.', '0']
  else if 0 < whole then digits.take whole.toNat ++ '.' :: digits.drop whole.toNat
  else '0' :: '.' :: List.replicate (-whole).toNat '0' ++ digits

def scientific (digits : List Char) (leading : Int) : List Char :=
  let power := (if leading < 0 then '-' else '+') :: (Numeral.decimal leading.natAbs).toList
  match digits with
  | first :: second :: rest => first :: '.' :: second :: rest ++ 'e' :: power
  | digits => digits ++ 'e' :: power

def text (layout : Layout) (decimal : Decimal) : String :=
  let digits := (Numeral.decimal decimal.digits).toList
  let leading := digits.length + decimal.exponent - 1
  String.ofList <|
    if layout.least ≤ leading ∧ leading ≤ layout.greatest then positional digits decimal.exponent
    else scientific digits leading

end Decimal.Layout

end SchemaWire
