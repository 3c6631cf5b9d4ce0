import ElasticCore.Control.Bundle
import ElasticCore.Control.OpTable
import ElasticCore.Instruction.Fields
import ElasticCore.Instruction.Opcode

/-! # Decoding

Every combination of fields has exactly one bundle. An opcode selects an operation and
asserts its signals around it; where no operation is assigned, the bundle is idle. The
variants share all of this and differ only in their operation table.
-/

namespace ElasticCore

/-- The comparison of a branch, selected by the upper two bits of `funct3`. -/
def branchOp? (funct3 : UInt8) : Option AluOp :=
  List.lookup (funct3 >>> 1) [(0, .xor), (2, .slt), (3, .sltu)]

namespace Opcode

/-- The operation of an instruction, unless its encoding is unassigned. -/
def aluOp? (t : OpTable) (f : Fields) : Opcode → Option AluOp
  | reg => t.reg f.funct3 f.funct7
  | imm => t.imm f.funct3 f.funct7 f.imm
  | load | store | auipc | jalr => some .add
  | branch => branchOp? f.funct3
  | lui => some .imm
  | jal => some .nop
  | system => none

/-- Asserts the signals that belong to an opcode, whatever its operation is. -/
def assert (c : Bundle) : Opcode → Bundle
  | reg => { c with regWrite := true }
  | imm => { c with immFormat := .i, aluImm := true, regWrite := true }
  | load => { c with immFormat := .i, aluImm := true, memRead := true, regWrite := true }
  | store => { c with immFormat := .s, aluImm := true, memWrite := true }
  | branch => { c with immFormat := .b, branch := true }
  | lui => { c with immFormat := .u, aluImm := true, regWrite := true }
  | auipc => { c with immFormat := .u, aluImm := true, aluPc := true, regWrite := true }
  | jal => { c with immFormat := .j, jump := true, regWrite := true, regSource := .pc }
  | jalr => { c with
      immFormat := .i, jump := true, target := .alu, aluImm := true, regWrite := true,
      regSource := .pc }
  | system => c

end Opcode

def OpTable.decode (t : OpTable) (fields : Fields) : Bundle :=
  let f := fields.truncate
  let idle := Bundle.idle f.funct3
  match Opcode.ofBits? f.opcode with
  | none => idle
  | some o =>
    match o.aluOp? t f with
    | none => idle
    | some op => { o.assert idle with aluOp := op }

namespace Isa

def decode (isa : Isa) (f : Fields) : Bundle := isa.table.decode f

def decodeInstruction (isa : Isa) (w : Instruction) : Bundle :=
  isa.decode (.ofInstruction w)

end Isa

theorem OpTable.decode_truncate (t : OpTable) (f : Fields) : t.decode f.truncate = t.decode f := by
  simp [decode]

end ElasticCore
