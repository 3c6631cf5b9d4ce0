import ElasticCore.Control.AluOp

/-! # Control bundles

What a decoder tells the rest of the core about one instruction. The access width,
the sign extension of loads and the sense of branches follow from the minor opcode
alone; every other signal is at rest in the idle bundle.
-/

namespace ElasticCore

inductive ImmFormat
  /-- No immediate. -/
  | r
  | i
  | s
  | b
  | u
  | j
  deriving DecidableEq, Repr, Inhabited

def ImmFormat.bits : ImmFormat → UInt8
  | r => 0
  | i => 1
  | s => 2
  | b => 3
  | u => 4
  | j => 5

def ImmFormat.all : List ImmFormat := [r, i, s, b, u, j]

/-- What is written to the destination register: the result or the link address. -/
inductive WriteBack
  | alu
  | pc
  deriving DecidableEq, Repr, Inhabited

def WriteBack.bits : WriteBack → UInt8
  | alu => 0
  | pc => 1

/-- Where a jump goes: relative to the program counter, or to the ALU's result. -/
inductive JumpTarget
  | imm
  | alu
  deriving DecidableEq, Repr, Inhabited

def JumpTarget.bits : JumpTarget → UInt8
  | imm => 0
  | alu => 1

inductive AccessWidth
  | byte
  | short
  | word
  deriving DecidableEq, Repr

def AccessWidth.bits : AccessWidth → UInt8
  | byte => 0
  | short => 1
  | word => 2

/-- The width named by the lowest two bits of `b`; the value 3 names none. -/
def AccessWidth.ofBits? (b : UInt8) : Option AccessWidth :=
  [byte, short, word].find? (·.bits == b &&& 0x3)

/-- The control signals of one instruction. The defaults are the contents of a
register at power-on. -/
structure Bundle where
  immFormat : ImmFormat := .r
  jump : Bool := false
  target : JumpTarget := .imm
  branch : Bool := false
  /-- A branch is taken when "the ALU's result is zero" differs from this signal. -/
  branchInv : Bool := false
  regWrite : Bool := false
  regSource : WriteBack := .alu
  memWrite : Bool := false
  memRead : Bool := false
  /-- The second ALU operand is the immediate. -/
  aluImm : Bool := false
  /-- The first ALU operand is the program counter. -/
  aluPc : Bool := false
  aluOp : AluOp := .nop
  maskMode : UInt8 := 0
  memSignExt : Bool := false
  deriving DecidableEq, Repr

namespace Bundle

instance : Inhabited Bundle := ⟨{}⟩

/-- The bundle that asserts nothing and keeps what the minor opcode alone decides. -/
def idle (funct3 : UInt8) : Bundle where
  branchInv := (funct3 &&& 0x1 != 0) ^^ (funct3 &&& 0x4 != 0)
  maskMode := funct3 &&& 0x3
  memSignExt := funct3 &&& 0x4 == 0

/-- Whether every signal but the three of the minor opcode is at rest. -/
def isIdle (c : Bundle) : Bool :=
  { c with branchInv := false, maskMode := 0, memSignExt := true } == idle 0

def access? (c : Bundle) : Option AccessWidth :=
  AccessWidth.ofBits? c.maskMode

@[simp] theorem isIdle_idle (funct3 : UInt8) : (idle funct3).isIdle = true := by
  simp [isIdle, idle]

end Bundle

end ElasticCore
