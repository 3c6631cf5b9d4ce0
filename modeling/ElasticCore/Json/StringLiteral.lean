import ElasticCore.Json.Reader

/-! # String literals

Strings with their escapes. A character outside the basic plane is escaped by a pair of
surrogates; a surrogate on its own is no character.
-/

namespace ElasticCore.Json.StringLiteral

def hexDigit? (c : Char) : Option Nat :=
  if c.isDigit then some (c.toNat - '0'.toNat)
  else if 'a' ≤ c ∧ c ≤ 'f' then some (c.toNat - 'a'.toNat + 10)
  else if 'A' ≤ c ∧ c ≤ 'F' then some (c.toNat - 'A'.toNat + 10)
  else none

/-- The code unit given by the four hexadecimal digits in front. Less than four bytes of
text are too few for any digits. -/
def codeUnit (cs : List Char) : Except Fault Nat :=
  let front := cs.take 4
  if (front.map Char.utf8Size).sum < 4 then .error .truncated
  else
    match front.map hexDigit? with
    | [some a, some b, some c, some d] => .ok (((a * 16 + b) * 16 + c) * 16 + d)
    | _ => .error .malformed

def isLeading (unit : Nat) : Bool := 0xD800 ≤ unit && unit < 0xDC00

def isTrailing (unit : Nat) : Bool := 0xDC00 ≤ unit && unit < 0xE000

def letterEscapes : List (Char × Char) :=
  [('"', '"'), ('\\', '\\'), ('/', '/'), ('b', '\x08'), ('f', '\x0c'), ('n', '\n'), ('r', '\r'),
    ('t', '\t')]

/-- The character of a `\u` escape, and the number of characters that follow the `u`. -/
def unicodeEscape (cs : List Char) : Except Fault (Char × Nat) := do
  let unit ← codeUnit cs
  if isTrailing unit then .error .malformed
  else if isLeading unit then
    let low ← codeUnit (← expect ['\\', 'u'] (cs.drop 4))
    if isTrailing low then
      return (Char.ofNat ((unit - 0xD800) * 0x400 + (low - 0xDC00) + 0x10000), 10)
    else .error .malformed
  else return (Char.ofNat unit, 4)

/-- A `\u` escape whose code unit does not matter. -/
def anyUnicodeEscape (cs : List Char) : Except Fault (Char × Nat) := do
  let _ ← codeUnit cs
  return ('\x00', 4)

/-- What a backslash stands for, and the number of characters of the escape after it. -/
def escape (unicode : List Char → Except Fault (Char × Nat)) :
    List Char → Except Fault (Char × Nat)
  | [] => .error .truncated
  | l :: cs =>
    if l = 'u' then do
      let (c, n) ← unicode cs
      return (c, n + 1)
    else
      match letterEscapes.lookup l with
      | some c => .ok (c, 1)
      | none => .error .malformed

/-- The characters up to the closing quotation mark, and what follows it. The first
`taken` characters belong to an escape that has been read. -/
def body (unicode : List Char → Except Fault (Char × Nat)) :
    (taken : Nat) → List Char → Except Fault (List Char × List Char)
  | _, [] => .error .truncated
  | n + 1, _ :: cs => body unicode n cs
  | 0, c :: cs =>
    if c = '"' then .ok ([], cs)
    else if c = '\\' then do
      let (d, n) ← escape unicode cs
      let (ds, rest) ← body unicode n cs
      return (d :: ds, rest)
    else if c < ' ' then .error .malformed
    else do
      let (ds, rest) ← body unicode 0 cs
      return (c :: ds, rest)

def read : Reader String := fun cs => do
  let (s, rest) ← body unicodeEscape 0 cs
  return (String.ofList s, rest)

/-- Passes over a string behind its opening quotation mark; surrogates may stand alone. -/
def skip (cs : List Char) : Except Fault (List Char) := do
  let (_, rest) ← body anyUnicodeEscape 0 cs
  return rest

end ElasticCore.Json.StringLiteral
