import ElasticCore.Control.AluOp
import ElasticCore.Instruction.Isa

/-! # Operation tables

Register-register and register-immediate instructions select their operation by
`funct3`, refined by `funct7` where several operations share a row. A row without
refinement accepts every `funct7`.
-/

namespace ElasticCore

namespace Funct7

def base : UInt8 := 0x00
/-- Subtraction, arithmetic shift and the inverted logic operations. -/
def alt : UInt8 := 0x20
def clmul : UInt8 := 0x05
def pack : UInt8 := 0x04
def rotate : UInt8 := 0x30
/-- The reversals, told apart by the whole immediate. -/
def rev : UInt8 := 0x34

end Funct7

def rev8Imm : UInt16 := 0x698

def brev8Imm : UInt16 := 0x687

/-- The operations of the two ALU opcodes; `none` marks an unassigned encoding. -/
structure OpTable where
  /-- By `funct3` and `funct7`. -/
  reg : UInt8 → UInt8 → Option AluOp
  /-- By `funct3`, `funct7` and the raw immediate. -/
  imm : UInt8 → UInt8 → UInt16 → Option AluOp

namespace OpTable

/-- RV32I with the carry-less multiplications. -/
def base : OpTable where
  reg funct3 funct7 :=
    match funct3 with
    | 0 => List.lookup funct7 [(Funct7.base, .add), (Funct7.alt, .sub)]
    | 1 => List.lookup funct7 [(Funct7.base, .sll), (Funct7.clmul, .clmul)]
    | 2 => some .slt
    | 3 => List.lookup funct7 [(Funct7.base, .sltu), (Funct7.clmul, .clmulh)]
    | 4 => some .xor
    | 5 => List.lookup funct7 [(Funct7.base, .srl), (Funct7.alt, .sra)]
    | 6 => some .or
    | 7 => some .and
    | _ => none
  imm funct3 funct7 _ :=
    match funct3 with
    | 0 => some .add
    | 1 => List.lookup funct7 [(Funct7.base, .sll)]
    | 2 => some .slt
    | 3 => some .sltu
    | 4 => some .xor
    | 5 => List.lookup funct7 [(Funct7.base, .srl), (Funct7.alt, .sra)]
    | 6 => some .or
    | 7 => some .and
    | _ => none

/-- RV32I with Zbkb: rotations, packing, inverted logic, interleaving and reversal. -/
def zbkb : OpTable where
  reg funct3 funct7 :=
    match funct3 with
    | 0 => List.lookup funct7 [(Funct7.base, .add), (Funct7.alt, .sub)]
    | 1 => List.lookup funct7 [(Funct7.base, .sll), (Funct7.rotate, .rol)]
    | 2 => some .slt
    | 3 => some .sltu
    | 4 => List.lookup funct7 [(Funct7.base, .xor), (Funct7.pack, .pack), (Funct7.alt, .xnor)]
    | 5 => List.lookup funct7 [(Funct7.base, .srl), (Funct7.alt, .sra), (Funct7.rotate, .ror)]
    | 6 => List.lookup funct7 [(Funct7.base, .or), (Funct7.alt, .orn)]
    | 7 => List.lookup funct7 [(Funct7.base, .and), (Funct7.pack, .packh), (Funct7.alt, .andn)]
    | _ => none
  imm funct3 funct7 imm :=
    match funct3 with
    | 0 => some .add
    | 1 => List.lookup funct7 [(Funct7.base, .sll), (Funct7.pack, .zip)]
    | 2 => some .slt
    | 3 => some .sltu
    | 4 => some .xor
    | 5 =>
      if funct7 = Funct7.rev then
        List.lookup imm [(rev8Imm, .rev8), (brev8Imm, .revb)]
      else
        List.lookup funct7 [(Funct7.base, .srl), (Funct7.pack, .unzip), (Funct7.alt, .sra),
          (Funct7.rotate, .ror)]
    | 6 => some .or
    | 7 => some .and
    | _ => none

end OpTable

def Isa.table : Isa → OpTable
  | .base => .base
  | .zbkb => .zbkb

end ElasticCore
