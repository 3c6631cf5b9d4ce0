import ElasticCore.Arithmetic

/-! # Binary floating point numbers

The exact value of a finite 64-bit float, as a sign and a whole number of units that
are a power of two.
-/

namespace ElasticCore

/-- The number `significand * 2 ^ exponent` with a sign. -/
structure Binary64 where
  negative : Bool
  significand : Nat
  exponent : Int
  deriving DecidableEq, Repr

namespace Binary64

def fractionBits : Nat := 52

def exponentBits : Nat := 11

/-- The value of a finite float. Without an exponent of its own a float is subnormal:
its leading bit is not implied. -/
def ofFloat (x : Float) : Binary64 :=
  let bits := x.toBits.toNat
  let biased : Nat := bits / 2 ^ fractionBits % 2 ^ exponentBits
  { negative := bits / 2 ^ (fractionBits + exponentBits) % 2 == 1
    significand := bits % 2 ^ fractionBits + if biased = 0 then 0 else 2 ^ fractionBits
    exponent := ((max biased 1 : Nat) : Int) - 1075 }

/-- Whether the floats below a value lie closer to it than those above. -/
def atBinade (v : Binary64) : Bool := v.significand == 2 ^ fractionBits && v.exponent != -1074

/-- The numerator of `n * 2 ^ exponent`. -/
def scaled (v : Binary64) (n : Nat) : Nat := n * 2 ^ v.exponent.toNat

/-- The denominator that belongs to `scaled`. -/
def scale (v : Binary64) : Nat := 2 ^ (-v.exponent).toNat

end Binary64

/-- The quotient rounded to the nearest whole number, a half to the even neighbour. -/
def roundDiv (num den : Nat) : Nat :=
  let q := num / den
  let twice := 2 * (num % den)
  if twice < den then q
  else if den < twice then q + 1
  else q + q % 2

def Decimal.zeros (n : Nat) : String := "".pushn '0' n

example : roundDiv 5 2 = 2 ∧ roundDiv 7 2 = 4 ∧ roundDiv 8 3 = 3 := by
  decide

end ElasticCore
