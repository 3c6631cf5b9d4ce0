import ElasticCore.Json.Reader

/-! # Deserializers

What a document is read with: readers for single values, for one of several choices by its
name and for records with named fields. The kinds of records are data; how a text is taken
apart is left to the deserializer.
-/

namespace ElasticCore.Json

variable {σ α : Type}

/-- A field of a record: reads a value and stores it. -/
structure Field (σ : Type) where
  key : String
  read : σ → Reader σ

def Field.of (key : String) (value : Reader α) (put : α → σ → σ) : Field σ where
  key := key
  read s cs := do
    let (a, rest) ← value cs
    return (put a s, rest)

/-- A kind of records. A field that is missing keeps its default. -/
structure Record (σ : Type) where
  name : String
  defaults : σ
  fields : List (Field σ)

def Record.field? (r : Record σ) (key : String) : Option (Field σ) :=
  r.fields.find? (·.key == key)

structure Deserializer where
  string : Reader String
  boolean : Reader Bool
  word32 : Reader UInt32
  word64 : Reader UInt64
  /-- One of several choices, given by its name. -/
  choice {α : Type} (ofName? : String → Option α) (known : List String) : Reader α
  record {σ : Type} (r : Record σ) : Reader σ
  /-- Reads a text that is one value and nothing else. -/
  whole {α : Type} (value : Reader α) (text : String) : Except Fault α

end ElasticCore.Json
