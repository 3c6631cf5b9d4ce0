/-! # ALU operations

The operations a decoder can select, each with the code that the ALU sees. Codes 0x9
to 0xC are unassigned; the codes up to 0xF fit in four bits.
-/

namespace ElasticCore

/-- What the ALU computes from its two operands. -/
inductive AluOp
  | and
  | sll
  | slt
  | sltu
  | xor
  | srl
  | or
  | add
  | sub
  | sra
  | imm
  | nop
  | ror
  | rol
  /-- The low halves of both operands side by side. -/
  | pack
  /-- The low bytes of both operands side by side. -/
  | packh
  | zip
  | unzip
  /-- The bytes in reverse order. -/
  | rev8
  /-- The bits of each byte in reverse order. -/
  | revb
  | xnor
  | andn
  | orn
  | clmul
  | clmulh
  deriving DecidableEq, Repr

namespace AluOp

instance : Inhabited AluOp := ⟨nop⟩

def bits : AluOp → UInt8
  | and => 0x00
  | sll => 0x01
  | slt => 0x02
  | sltu => 0x03
  | xor => 0x04
  | srl => 0x05
  | or => 0x06
  | add => 0x07
  | sub => 0x08
  | sra => 0x0D
  | imm => 0x0E
  | nop => 0x0F
  | ror => 0x10
  | rol => 0x11
  | pack => 0x12
  | packh => 0x13
  | zip => 0x14
  | unzip => 0x15
  | rev8 => 0x16
  | revb => 0x17
  | xnor => 0x18
  | andn => 0x19
  | orn => 0x1A
  | clmul => 0x1B
  | clmulh => 0x1C

def all : List AluOp :=
  [and, sll, slt, sltu, xor, srl, or, add, sub, sra, imm, nop, ror, rol, pack, packh,
    zip, unzip, rev8, revb, xnor, andn, orn, clmul, clmulh]

def ofBits? (b : UInt8) : Option AluOp :=
  all.find? (·.bits == b)

theorem mem_all (op : AluOp) : op ∈ all := by
  cases op <;> decide

@[simp] theorem ofBits?_bits (op : AluOp) : ofBits? op.bits = some op := by
  cases op <;> decide

theorem bits_injective {op op' : AluOp} (h : op.bits = op'.bits) : op = op' := by
  have := ofBits?_bits op
  rw [h, ofBits?_bits] at this
  exact (Option.some.inj this).symm

end AluOp

end ElasticCore
