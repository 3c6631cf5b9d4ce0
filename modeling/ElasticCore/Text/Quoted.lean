import ElasticCore.Text.Unprintable

/-! # Quoted text

A text between quotation marks, in which the marks, the backslash and whatever does not
show by itself are escaped.
-/

namespace ElasticCore.Text

def letterEscapes : List (Char × Char) :=
  [('"', '"'), ('\\', '\\'), ('\t', 't'), ('\r', 'r'), ('\n', 'n'), ('\x00', '0')]

def escaped (c : Char) : String :=
  match letterEscapes.lookup c with
  | some l => "\\".push l
  | none =>
    if isUnprintable c then s!"\\u\x7b{String.ofList (Nat.toDigits 16 c.toNat)}\x7d"
    else c.toString

def quoted (s : String) : String :=
  "\"" ++ String.join (s.toList.map escaped) ++ "\""

end ElasticCore.Text
