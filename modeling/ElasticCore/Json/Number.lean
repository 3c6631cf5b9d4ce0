import ElasticCore.Json.Reader

/-! # Numbers

The grammar of numbers and their values. Integers between `-2^63` and `2^64 - 1` are
exact. Everything else is a float: a significand of at most 64 bits, scaled by a power
of ten in one multiplication or division.
-/

namespace ElasticCore.Json

structure Numeral where
  negative : Bool
  whole : List Nat
  fraction : Option (List Nat)
  exponent : Option Int

inductive Number
  | integer (n : Int)
  | floating (x : Float)
  deriving DecidableEq

namespace Numeral

def digits (cs : List Char) : List Nat × List Char :=
  ((cs.takeWhile Char.isDigit).map fun c => c.toNat - '0'.toNat, cs.dropWhile Char.isDigit)

def someDigits (cs : List Char) : Except Fault (List Nat × List Char) :=
  match digits cs with
  | ([], []) => .error .truncated
  | ([], _ :: _) => .error .malformed
  | ds => .ok ds

/-- The digits before the point, of which the first is zero only on its own. -/
def readWhole (cs : List Char) : Except Fault (List Nat × List Char) := do
  match ← someDigits cs with
  | (0 :: _ :: _, _) => .error .malformed
  | ds => return ds

def readFraction : Reader (Option (List Nat))
  | '.' :: cs => do
    let (ds, rest) ← someDigits cs
    return (some ds, rest)
  | cs => .ok (none, cs)

def decimal (ds : List Nat) : Nat := ds.foldl (fun n d => n * 10 + d) 0

/-- Splits a sign off a text; `true` stands for a minus. -/
def exponentSign : List Char → Bool × List Char
  | '+' :: cs => (false, cs)
  | '-' :: cs => (true, cs)
  | cs => (false, cs)

def readExponent (cs : List Char) : Except Fault (Option Int × List Char) :=
  match cs with
  | [] => .ok (none, [])
  | c :: after =>
    if c = 'e' ∨ c = 'E' then do
      let (negative, cs) := exponentSign after
      let (ds, rest) ← someDigits cs
      let n := decimal ds
      return (some (if negative then -n else n), rest)
    else .ok (none, cs)

def read : Reader Numeral := fun cs => do
  let (negative, cs) := match cs with
    | '-' :: cs => (true, cs)
    | cs => (false, cs)
  let (whole, cs) ← readWhole cs
  let (fraction, cs) ← readFraction cs
  let (exponent, cs) ← readExponent cs
  return ({ negative, whole, fraction, exponent }, cs)

/-- Passes over a number; the end of the text within it is no better than a bad character. -/
def skip (cs : List Char) : Except Fault (List Char) :=
  match read cs with
  | .ok (_, rest) => .ok rest
  | .error _ => .error .malformed

/-- Appends digits to a significand for as long as it fits in 64 bits; also returns how
many were appended. -/
def absorb (significand : Nat) : List Nat → Nat × Nat
  | [] => (significand, 0)
  | d :: ds =>
    let next := significand * 10 + d
    if next < UInt64.size then
      let (s, n) := absorb next ds
      (s, n + 1)
    else (significand, 0)

/-- `x * 10 ^ e`, unless it is too large. Powers of ten up to `10 ^ 308` are applied at
once, and smaller ones than `10 ^ -308` in several divisions. -/
def scale (x : Float) (e : Int) : Option Float :=
  if e.natAbs ≤ 308 then
    let power := Float.ofScientific 1 false e.natAbs
    if 0 ≤ e then
      let y := x * power
      if y.isInf then none else some y
    else some (x / power)
  else if x == 0.0 then some x
  else if 0 ≤ e then none
  else scale (x / 1e308) (e + 308)
termination_by e.natAbs
decreasing_by omega

/-- The value of a number, unless it is too large for a float. -/
def value (n : Numeral) : Except Fault Number :=
  let (whole, kept) := absorb 0 n.whole
  let dropped := n.whole.length - kept
  if n.fraction.isNone && n.exponent.isNone && dropped == 0 then
    if !n.negative then .ok (.integer whole)
    else if whole = 0 then .ok (.floating (-0.0))
    else if Int64.minValue.toInt ≤ -whole then .ok (.integer (-whole))
    else .ok (.floating (-whole.toFloat))
  else
    let (significand, places) := absorb whole (n.fraction.getD [])
    match scale significand.toFloat (dropped - places + n.exponent.getD 0) with
    | none => .error .malformed
    | some x => .ok (.floating (if n.negative then -x else x))

end Numeral

def Number.read : Reader Number := fun cs => do
  let (n, rest) ← Numeral.read cs
  return (← n.value, rest)

end ElasticCore.Json
