/-! Finite binary floating point numbers of 64 bits, computed exactly.

A number is a sign and a significand of at most 53 bits times a power of two. Products and quotients
are formed as ratios of natural numbers and rounded once, a tie going to the even significand.
-/

set_option autoImplicit false

namespace SchemaWire

structure Binary64 where
  negative : Bool
  significand : Nat
  exponent : Int
  deriving DecidableEq, Repr

namespace Binary64

def precision : Nat := 53

def fullSignificand : Nat := 1 <<< (precision - 1)

/-- The exponent of the least numbers, which also is that of zero. -/
def leastExponent : Int := -1074

def greatestExponent : Int := 971

def zero (negative : Bool) : Binary64 := ⟨negative, 0, leastExponent⟩

def isZero (x : Binary64) : Bool := x.significand == 0

def scaled (base n d : Nat) (exponent : Int) : Nat × Nat :=
  (n * Nat.pow base exponent.toNat, d * Nat.pow base (-exponent).toNat)

def ratio (x : Binary64) : Nat × Nat := scaled 2 x.significand 1 x.exponent

/-- The natural number nearest to `n / d`, the even one of two. -/
def nearest (n d : Nat) : Nat :=
  let floor := n / d
  let twice := 2 * (n % d)
  if twice > d || (twice == d && floor % 2 == 1) then floor + 1 else floor

/-- The exponent at which `n / d` has a significand of full precision, or the least exponent. -/
def exponentOf (n d : Nat) : Int :=
  let estimate : Int := n.log2 - d.log2 - precision
  let (top, bottom) := scaled 2 n d (-estimate)
  max leastExponent (if top / bottom < 2 * fullSignificand then estimate else estimate + 1)

def ofRatio? (negative : Bool) (n d : Nat) : Option Binary64 :=
  if n = 0 then some (zero negative)
  else
    let exponent := exponentOf n d
    let (top, bottom) := scaled 2 n d (-exponent)
    let significand := nearest top bottom
    -- Rounding up may carry into a bit more than there is room for.
    let (significand, exponent) :=
      if significand = 2 * fullSignificand then (fullSignificand, exponent + 1)
      else (significand, exponent)
    if exponent ≤ greatestExponent then some ⟨negative, significand, exponent⟩ else none

def ofNat? (n : Nat) : Option Binary64 := ofRatio? false n 1

def mul? (x y : Binary64) : Option Binary64 :=
  ofRatio? (x.negative != y.negative) (x.ratio.1 * y.ratio.1) (x.ratio.2 * y.ratio.2)

def div? (x y : Binary64) : Option Binary64 :=
  ofRatio? (x.negative != y.negative) (x.ratio.1 * y.ratio.2) (x.ratio.2 * y.ratio.1)

def withSign (negative : Bool) (x : Binary64) : Binary64 := { x with negative }

def greatestTenPower : Nat := 308

def tenPower? (exponent : Nat) : Option Binary64 := ofNat? (Nat.pow 10 exponent)

/-- Multiply or divide by a power of ten. The power is itself rounded first, and an exponent below
the range is taken up by repeated division, so up to three roundings add up. -/
def timesTenPower? (x : Binary64) (exponent : Int) : Option Binary64 :=
  if exponent.natAbs ≤ greatestTenPower then do
    let power ← tenPower? exponent.natAbs
    if 0 ≤ exponent then x.mul? power else x.div? power
  else if x.isZero then some x
  else if 0 ≤ exponent then none
  else do
    let power ← tenPower? greatestTenPower
    (← x.div? power).timesTenPower? (exponent + greatestTenPower)
termination_by exponent.natAbs
decreasing_by
  simp only [greatestTenPower] at *
  omega

end Binary64

end SchemaWire
