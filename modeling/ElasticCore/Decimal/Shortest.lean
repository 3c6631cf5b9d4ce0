import ElasticCore.Decimal.Binary64

/-! # Shortest decimals

The fewest digits that read back as a given float, and of those the nearest to it. Such
a decimal is one of the two neighbours of the float on its grid, so it is enough to look
at these, grid after grid.
-/

namespace ElasticCore.Decimal

/-- The number `digits * 10 ^ exponent`. -/
structure Digits where
  digits : Nat
  exponent : Int
  deriving DecidableEq, Repr

/-- The exponent of the leading digit of the positive number `num / den`. -/
def leadingExponent (num den : Nat) : Int :=
  if den ≤ num then (toString (num / den)).length - 1
  else
    -- the smallest positive float is larger than `10 ^ -324`
    ((List.range 325).find? fun j => den ≤ num * 10 ^ j).elim 0 fun j => -j

/-- The point of the grid `10 ^ k` that stands for a positive float: of the two
neighbours that read back the nearer, and of two equally near the even one. -/
def onGrid? (v : Binary64) (k : Int) : Option Digits :=
  -- everything is counted in quarters of a unit of the significand
  let den := 4 * v.scale * 10 ^ k.toNat
  let scaled n := v.scaled n * 10 ^ (-k).toNat
  let value := scaled (4 * v.significand)
  let low := scaled (4 * v.significand - if v.atBinade then 1 else 2)
  let high := scaled (4 * v.significand + 2)
  let reads n :=
    if v.significand % 2 = 0 then low ≤ n * den && n * den ≤ high
    else low < n * den && n * den < high
  let below := value / den
  let nearest := roundDiv value den
  if reads nearest then some ⟨nearest, k⟩
  else if reads below then some ⟨below, k⟩
  else if reads (below + 1) then some ⟨below + 1, k⟩
  else none

/-- The shortest decimal of a positive float; 17 digits are always enough. -/
def shortest (v : Binary64) : Digits :=
  let leading := leadingExponent (v.scaled v.significand) v.scale
  ((List.range 17).findSome? fun n : Nat => onGrid? v (leading - n)).getD ⟨0, 0⟩

/-- A number is written without an exponent if that of its leading digit is within these bounds. -/
structure Layout where
  least : Int
  greatest : Int

/-- Writes a decimal, given its digits and the exponent of the leading one. A number
without an exponent has a fraction, if only a zero; an exponent has a sign. -/
def Layout.write (l : Layout) (digits : String) (leading : Int) : String :=
  if leading < l.least ∨ l.greatest < leading then
    let fraction := if digits.length ≤ 1 then "" else s!".{digits.drop 1}"
    let sign := if leading < 0 then "-" else "+"
    s!"{digits.take 1}{fraction}e{sign}{leading.natAbs}"
  else if leading < 0 then
    s!"0.{zeros (leading.natAbs - 1)}{digits}"
  else
    let whole := leading.toNat + 1
    if digits.length ≤ whole then s!"{digits}{zeros (whole - digits.length)}.0"
    else s!"{digits.take whole}.{digits.drop whole}"

def Layout.shortest (l : Layout) (x : Float) : String :=
  let v := Binary64.ofFloat x
  let unsigned :=
    if v.significand = 0 then l.write "0" 0
    else
      let d := Decimal.shortest v
      let all := toString d.digits
      l.write (all.dropEndWhile (· == '0')).copy (d.exponent + all.length - 1)
  if v.negative then "-" ++ unsigned else unsigned

end ElasticCore.Decimal
