/-! # Arithmetic

Powers and sums of numbers are those of the core library in every module of the project,
whatever algebraic structures it imports besides.
-/

namespace ElasticCore

scoped instance (priority := 2000) corePow {α : Type} [NatPow α] : Pow α Nat := instPowNat

scoped instance (priority := 2000) coreZero : Zero Nat := Zero.ofOfNat0

end ElasticCore
