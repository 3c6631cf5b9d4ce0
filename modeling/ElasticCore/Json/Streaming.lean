import ElasticCore.Json.Deserializer
import ElasticCore.Json.Value

/-! # A deserializer that reads from left to right

Values of known kinds, and records with named fields. A record is read from an object,
whose members come in any order and may be missing or unknown, or from an array, which
gives the first fields in order. The text is read once from left to right and its first
fault is the answer. Settings are loaded with this deserializer, but what is said about
their documents holds with any other one that behaves as documented.
-/

namespace ElasticCore.Json

variable {σ α : Type}

def string : Reader String := fun cs =>
  match skipBlank cs with
  | '"' :: cs => StringLiteral.read cs
  | cs => mismatch "a string" cs

def boolean : Reader Bool := fun cs =>
  match skipBlank cs with
  | 't' :: cs => do return (true, ← expect ['r', 'u', 'e'] cs)
  | 'f' :: cs => do return (false, ← expect ['a', 'l', 's', 'e'] cs)
  | cs => mismatch "a boolean" cs

def natural (limit : Nat) (expected : String) : Reader Nat := fun cs =>
  match skipBlank cs with
  | [] => .error .truncated
  | c :: cs =>
    if startsNumber c then do
      match ← Number.read (c :: cs) with
      | (.integer n, rest) =>
        if 0 ≤ n ∧ n < limit then return (n.toNat, rest) else .error (.outOfRange n expected)
      | (.floating x, _) => .error (.mismatch (.floating x) expected)
    else mismatch expected (c :: cs)

def word32 : Reader UInt32 := fun cs => do
  let (n, rest) ← natural UInt32.size "u32" cs
  return (n.toUInt32, rest)

/-- Numbers of the machine's size, which is 64 bits. -/
def word64 : Reader UInt64 := fun cs => do
  let (n, rest) ← natural UInt64.size "usize" cs
  return (n.toUInt64, rest)

def null (cs : List Char) : Except Fault (List Char) :=
  match skipBlank cs with
  | 'n' :: cs => expect ['u', 'l', 'l'] cs
  | cs => mismatch "unit" cs

/-- One of several named choices, behind the opening quotation mark of its name. -/
def choiceName (ofName? : String → Option α) (known : List String) : Reader α := fun cs => do
  let (name, rest) ← StringLiteral.read cs
  match ofName? name with
  | some a => return (a, rest)
  | none => .error (.unknownVariant name known)

/-- One of several named choices: its name, or an object that maps the name to `null`. -/
def choice (ofName? : String → Option α) (known : List String) : Reader α := fun cs =>
  match skipBlank cs with
  | [] => .error .truncated
  | '"' :: cs => choiceName ofName? known cs
  | '{' :: cs =>
    match skipBlank cs with
    | [] => .error .truncated
    | '"' :: cs => do
      let (a, cs) ← choiceName ofName? known cs
      let cs ← null (← punctuation ':' cs)
      return (a, ← punctuation '}' cs)
    | _ => .error .malformed
  | _ => .error .malformed

namespace Record

/-- An object whose members are being read. -/
structure Progress (σ : Type) where
  value : σ
  seen : List String
  started : Bool

/-- Reads the key of a member and what follows it, behind the opening quotation mark. -/
def member (r : Record σ) (p : Progress σ) : Reader (Progress σ) := fun cs => do
  let (key, cs) ← StringLiteral.read cs
  match r.field? key with
  | none =>
    return ({ p with started := true }, ← skipValue (← punctuation ':' cs))
  | some f =>
    if key ∈ p.seen then .error (.duplicateField key)
    else
      let (value, cs) ← f.read p.value (← punctuation ':' cs)
      return ({ value, seen := key :: p.seen, started := true }, cs)

def keyStart (cs : List Char) : Except Fault (List Char) := punctuation '"' cs

def memberStep (r : Record σ) (p : Progress σ) : Reader (Step (Progress σ) σ) := fun cs =>
  match skipBlank cs with
  | [] => .error .truncated
  | c :: cs =>
    if c = '}' then .ok (.done p.value, cs)
    else do
      let cs ← if p.started then expect [','] (c :: cs) else .ok (c :: cs)
      let (p, cs) ← r.member p (← keyStart cs)
      return (.more p, cs)

/-- Reads the elements of an array as the given fields, up to its end. -/
def elements : List (Field σ) → (started : Bool) → σ → Reader σ
  | [], _, s, cs => do return (s, ← punctuation ']' cs)
  | f :: fields, started, s, cs =>
    match skipBlank cs with
    | [] => .error .truncated
    | c :: cs =>
      if c = ']' then .ok (s, cs)
      else do
        let cs ← if started then expect [','] (c :: cs) else .ok (c :: cs)
        let (s, cs) ← f.read s cs
        elements fields true s cs

def read (r : Record σ) : Reader σ := fun cs =>
  match skipBlank cs with
  | '{' :: cs => exhaust r.memberStep { value := r.defaults, seen := [], started := false } cs
  | '[' :: cs => elements r.fields false r.defaults cs
  | cs => mismatch s!"struct {r.name}" cs

end Record

def whole (value : Reader α) (text : String) : Except Fault α := do
  let (a, rest) ← value text.toList
  if (skipBlank rest).isEmpty then return a else .error .malformed

/-- The deserializer that takes a text as a stream of characters. -/
def streaming : Deserializer where
  string := string
  boolean := boolean
  word32 := word32
  word64 := word64
  choice := choice
  record := Record.read
  whole := whole

end ElasticCore.Json
