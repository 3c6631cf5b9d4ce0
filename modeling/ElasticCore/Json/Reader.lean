import ElasticCore.Json.Fault

/-! # Readers

A reader takes a value off the front of a text and returns it with what is left, or the
first fault it meets.
-/

namespace ElasticCore.Json

abbrev Reader (α : Type) := List Char → Except Fault (α × List Char)

def isBlank (c : Char) : Bool := c == ' ' || c == '\t' || c == '\n' || c == '\r'

def skipBlank (cs : List Char) : List Char := cs.dropWhile isBlank

def expect : (word : List Char) → List Char → Except Fault (List Char)
  | [], cs => .ok cs
  | _ :: _, [] => .error .truncated
  | w :: word, c :: cs => if c = w then expect word cs else .error .malformed

def punctuation (c : Char) (cs : List Char) : Except Fault (List Char) :=
  expect [c] (skipBlank cs)

/-- What a step of a repeated reader asks for. -/
inductive Step (σ α : Type)
  | more (s : σ)
  | done (a : α)

def iterate {σ α : Type} (step : σ → Reader (Step σ α)) : (fuel : Nat) → σ → Reader α
  | 0, _, _ => .error .truncated
  | fuel + 1, s, cs => do
    match ← step s cs with
    | (.more s', rest) => iterate step fuel s' rest
    | (.done a, rest) => return (a, rest)

/-- Repeats a step until it is done. Every step that asks for more has to take something
off the text, whose length therefore bounds the repetition. -/
def exhaust {σ α : Type} (step : σ → Reader (Step σ α)) (s : σ) : Reader α := fun cs =>
  iterate step (cs.length + 1) s cs

@[simp] theorem expect_append (word rest : List Char) : expect word (word ++ rest) = .ok rest := by
  induction word with
  | nil => rfl
  | cons w word ih => simp [expect, ih]

@[simp] theorem skipBlank_append {blank : List Char} (h : ∀ c ∈ blank, isBlank c = true)
    (cs : List Char) : skipBlank (blank ++ cs) = skipBlank cs := by
  induction blank with
  | nil => rfl
  | cons b blank ih =>
    simp_all [skipBlank]

end ElasticCore.Json
