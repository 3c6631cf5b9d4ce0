import ElasticCore.Json.Number
import ElasticCore.Json.StringLiteral

/-! # Values

Values that are not wanted: one that stands where another kind is due is read as far as
it takes to name it, and one that nobody asked for is passed over, however deeply it is
nested.
-/

namespace ElasticCore.Json

def startsNumber (c : Char) : Bool := c == '-' || c.isDigit

/-- The value in front. Scalars are read to their end. -/
def found (cs : List Char) : Except Fault Found :=
  match skipBlank cs with
  | [] => .error .truncated
  | c :: cs =>
    if c = 'n' then do
      let _ ← expect ['u', 'l', 'l'] cs
      return .null
    else if c = 't' then do
      let _ ← expect ['r', 'u', 'e'] cs
      return .boolean true
    else if c = 'f' then do
      let _ ← expect ['a', 'l', 's', 'e'] cs
      return .boolean false
    else if c = '"' then do
      let (s, _) ← StringLiteral.read cs
      return .text s
    else if c = '[' then .ok .sequence
    else if c = '{' then .ok .map
    else if startsNumber c then do
      match ← Number.read (c :: cs) with
      | (.integer n, _) => return .integer n
      | (.floating x, _) => return .floating x
    else .error .malformed

def mismatch {α : Type} (expected : String) (cs : List Char) : Except Fault α := do
  .error (.mismatch (← found cs) expected)

/-- Passes over `null`, `true` or `false`, a number or a string that begins with `c`. -/
def skipScalar (c : Char) (cs : List Char) : Except Fault (List Char) :=
  if c = 'n' then expect ['u', 'l', 'l'] cs
  else if c = 't' then expect ['r', 'u', 'e'] cs
  else if c = 'f' then expect ['a', 'l', 's', 'e'] cs
  else if c = '"' then StringLiteral.skip cs
  else if startsNumber c then Numeral.skip (c :: cs)
  else .error .malformed

inductive Container
  | array
  | object
  deriving DecidableEq, Repr

def Container.close : Container → Char
  | array => ']'
  | object => '}'

/-- Where the passage through a nested value stands; the innermost container is first. -/
inductive Position
  | value (within : List Container)
  | behind (within : List Container)

/-- Begins an item of a container: in an object the key and its colon are passed over. -/
def skipItemStart (container : Container) (cs : List Char) : Except Fault (List Char) :=
  match container, skipBlank cs with
  | .array, cs => .ok cs
  | .object, [] => .error .truncated
  | .object, c :: cs =>
    if c = '"' then do
      punctuation ':' (← StringLiteral.skip cs)
    else .error .malformed

/-- Enters a container behind its opening bracket; an empty one is left at once. -/
def skipOpened (container : Container) (within : List Container) :
    Reader (Step Position Unit) := fun cs =>
  match skipBlank cs with
  | [] => .error .truncated
  | c :: cs =>
    if c = container.close then .ok (.more (.behind within), cs)
    else do
      return (.more (.value (container :: within)), ← skipItemStart container (c :: cs))

def skipStep : Position → Reader (Step Position Unit)
  | .value within, cs =>
    match skipBlank cs with
    | [] => .error .truncated
    | c :: cs =>
      if c = '[' then skipOpened .array within cs
      else if c = '{' then skipOpened .object within cs
      else do
        return (.more (.behind within), ← skipScalar c cs)
  | .behind [], cs => .ok (.done (), cs)
  | .behind (container :: within), cs =>
    match skipBlank cs with
    | [] => .error .truncated
    | c :: cs =>
      if c = container.close then .ok (.more (.behind within), cs)
      else if c = ',' then do
        return (.more (.value (container :: within)), ← skipItemStart container cs)
      else .error .malformed

def skipValue (cs : List Char) : Except Fault (List Char) := do
  let (_, rest) ← exhaust skipStep (.value []) cs
  return rest

end ElasticCore.Json
