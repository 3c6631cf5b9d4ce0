import ElasticCore.Decimal.Binary64

/-! # Fixed places

A float with a fixed number of decimal places: its exact binary value is rounded, and a
half goes to the even neighbour.
-/

namespace ElasticCore.Decimal

/-- A whole number of the unit `10 ^ -places`, written out. -/
def placed (places n : Nat) : String :=
  let digits := toString n
  let digits := zeros (places + 1 - digits.length) ++ digits
  let whole := digits.length - places
  s!"{digits.take whole}.{digits.drop whole}"

def fixed (places : Nat) (x : Float) : String :=
  let v := Binary64.ofFloat x
  (if v.negative then "-" else "") ++
    placed places (roundDiv (v.scaled v.significand * 10 ^ places) v.scale)

end ElasticCore.Decimal
