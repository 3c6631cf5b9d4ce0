/-! # Major opcodes

The ten opcodes with a meaning of their own. Every other 7-bit value is unassigned.
-/

namespace ElasticCore

/-- The major opcodes of RV32I; `reg` is OP and `imm` is OP-IMM. -/
inductive Opcode
  | load
  | imm
  | auipc
  | store
  | reg
  | lui
  | branch
  | jalr
  | jal
  | system
  deriving DecidableEq, Repr

namespace Opcode

def bits : Opcode → UInt8
  | load => 0x03
  | imm => 0x13
  | auipc => 0x17
  | store => 0x23
  | reg => 0x33
  | lui => 0x37
  | branch => 0x63
  | jalr => 0x67
  | jal => 0x6F
  | system => 0x73

def all : List Opcode :=
  [load, imm, auipc, store, reg, lui, branch, jalr, jal, system]

/-- The opcode with the lowest seven bits of `b`. -/
def ofBits? (b : UInt8) : Option Opcode :=
  all.find? (·.bits == b &&& 0x7F)

theorem mem_all (o : Opcode) : o ∈ all := by
  cases o <;> decide

theorem bits_injective : ∀ {o o' : Opcode}, o.bits = o'.bits → o = o' := by
  intro o o'
  cases o <;> cases o' <;> decide

@[simp] theorem ofBits?_bits (o : Opcode) : ofBits? o.bits = some o := by
  cases o <;> decide

theorem ofBits?_eq_some_iff {b : UInt8} {o : Opcode} :
    ofBits? b = some o ↔ b &&& 0x7F = o.bits := by
  constructor
  · intro h
    have ho := List.find?_some (show all.find? (·.bits == b &&& 0x7F) = some o from h)
    exact (eq_of_beq ho).symm
  · intro h
    have hb : ofBits? b = all.find? (·.bits == o.bits) := by rw [ofBits?, h]
    rw [hb]
    cases o <;> decide

end Opcode

end ElasticCore
