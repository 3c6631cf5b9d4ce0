import ElasticCore.Decimal.Shortest
import ElasticCore.Text.Quoted

/-! # Faults of a document

Why a text is not the document that was expected: it is not JSON at all, it ends too
early, or it is JSON of another kind. Only the last has a message.
-/

namespace ElasticCore.Json

/-- A value that stands where another kind was expected. Of an array or an object only
the opening bracket has been read. -/
inductive Found
  | null
  | boolean (b : Bool)
  | integer (n : Int)
  | floating (x : Float)
  | text (s : String)
  | sequence
  | map
  deriving DecidableEq

/-- Exponents are written below `1e-5` and from `1e+16` on. -/
def floatLayout : Decimal.Layout where
  least := -5
  greatest := 15

def Found.message : Found → String
  | null => "null"
  | boolean b => s!"boolean `{b}`"
  | integer n => s!"integer `{n}`"
  | floating x => s!"floating point `{floatLayout.shortest x}`"
  | text s => s!"string {Text.quoted s}"
  | sequence => "sequence"
  | map => "map"

inductive Fault
  /-- The text is not JSON. -/
  | malformed
  /-- The text ends where more is due. -/
  | truncated
  | mismatch (found : Found) (expected : String)
  | outOfRange (n : Int) (expected : String)
  | duplicateField (key : String)
  | unknownVariant (name : String) (known : List String)
  deriving DecidableEq

/-- The message of a fault that is more than bad JSON. -/
def Fault.message? : Fault → Option String
  | malformed => none
  | truncated => none
  | mismatch found expected => some s!"invalid type: {found.message}, expected {expected}"
  | outOfRange n expected =>
    some s!"invalid value: {(Found.integer n).message}, expected {expected}"
  | duplicateField key => some s!"duplicate field `{key}`"
  | unknownVariant name known =>
    let choices := ", ".intercalate (known.map fun k => s!"`{k}`")
    some s!"unknown variant `{name}`, expected one of {choices}"

end ElasticCore.Json
