/-! # Building errors

Decoding, references and handshakes never fail. What can fail is building a unit from
its parameters, for one of the reasons below.
-/

namespace ElasticCore

inductive BuildError
  | blockCountNotPowerOfTwo (count : Nat)
  | indexWiderThanAddress (addrWidth indexBits : Nat)
  | addressWidthOutOfRange (width : Nat)
  | dataWidthOutOfRange (width : Nat)
  | memoryTooWide (addrWidth limit : Nat)
  | noStages
  deriving DecidableEq, Repr

def BuildError.message : BuildError → String
  | blockCountNotPowerOfTwo count => s!"cache block count {count} is not a power of two"
  | indexWiderThanAddress addrWidth indexBits =>
    s!"address width {addrWidth} is narrower than the {indexBits} index bits"
  | addressWidthOutOfRange width => s!"address width {width} must be between 1 and 64 bits"
  | dataWidthOutOfRange width => s!"data width {width} must be between 1 and 64 bits"
  | memoryTooWide addrWidth limit =>
    s!"memory address width {addrWidth} exceeds the {limit}-bit limit"
  | noStages => "pipeline needs at least one stage"

theorem bind_eq_ok_iff {ε α β : Type} {r : Except ε α} {f : α → Except ε β} {b : β} :
    (r >>= f) = .ok b ↔ ∃ a, r = .ok a ∧ f a = .ok b := by
  cases r with
  | error e => exact iff_of_false nofun fun ⟨_, h, _⟩ => nomatch h
  | ok a =>
    constructor
    · intro h
      exact ⟨a, rfl, h⟩
    · rintro ⟨_, ⟨⟩, h⟩
      exact h

end ElasticCore
