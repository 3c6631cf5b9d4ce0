/-! # Instruction set variants

RV32I and its extension by the Zbkb bit manipulation operations, with the names that
select them.
-/

namespace ElasticCore

inductive Isa
  | base
  | zbkb
  deriving DecidableEq, Repr, Inhabited

namespace Isa

def all : List Isa := [base, zbkb]

/-- The width of the ALU operation field. -/
def aluOpWidth : Isa → Nat
  | base => 4
  | zbkb => 5

/-- The names of a variant, the canonical one first. -/
def names : Isa → List String
  | base => ["Base", "base", "i"]
  | zbkb => ["Zbkb", "b", "zbkb"]

def spellings : List String := all.flatMap names

/-- The variant a name selects; case matters. -/
def ofName? (name : String) : Option Isa :=
  all.find? (name ∈ ·.names)

theorem ofName?_of_mem {isa : Isa} {name : String} (h : name ∈ isa.names) :
    ofName? name = some isa := by
  cases isa <;> simp only [names, List.mem_cons, List.not_mem_nil, or_false] at h <;>
    rcases h with rfl | rfl | rfl <;> decide

theorem ofName?_eq_some_iff {name : String} {isa : Isa} :
    ofName? name = some isa ↔ name ∈ isa.names :=
  ⟨fun h => by simpa using List.find?_some h, ofName?_of_mem⟩

end Isa

end ElasticCore
