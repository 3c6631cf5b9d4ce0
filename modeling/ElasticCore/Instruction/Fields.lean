/-! # Instruction fields

A 32-bit instruction is tiled by six fields; the I-type immediate overlaps the two
highest. A decoder looks at four of them, which arrive in words that may be wider
than the field.
-/

namespace ElasticCore

abbrev Instruction := UInt32

namespace Instruction

def opcodeMask : UInt32 := 0x7F

def registerMask : UInt32 := 0x1F

def funct3Mask : UInt32 := 0x7

def funct7Mask : UInt32 := 0x7F

def immMask : UInt32 := 0xFFF

def opcode (w : Instruction) : UInt8 := (w &&& opcodeMask).toUInt8

def rd (w : Instruction) : UInt8 := ((w >>> 7) &&& registerMask).toUInt8

def funct3 (w : Instruction) : UInt8 := ((w >>> 12) &&& funct3Mask).toUInt8

def rs1 (w : Instruction) : UInt8 := ((w >>> 15) &&& registerMask).toUInt8

def rs2 (w : Instruction) : UInt8 := ((w >>> 20) &&& registerMask).toUInt8

def funct7 (w : Instruction) : UInt8 := ((w >>> 25) &&& funct7Mask).toUInt8

/-- The raw I-type immediate, bits 20 to 31. -/
def immI (w : Instruction) : UInt16 := ((w >>> 20) &&& immMask).toUInt16

end Instruction

/-- What a decoder looks at. Bits beyond the width of a field are ignored. -/
structure Fields where
  opcode : UInt8 := 0
  funct3 : UInt8 := 0
  funct7 : UInt8 := 0
  imm : UInt16 := 0
  deriving DecidableEq, Repr, Inhabited

namespace Fields

def ofInstruction (w : Instruction) : Fields where
  opcode := w.opcode
  funct3 := w.funct3
  funct7 := w.funct7
  imm := w.immI

def truncate (f : Fields) : Fields where
  opcode := f.opcode &&& 0x7F
  funct3 := f.funct3 &&& 0x7
  funct7 := f.funct7 &&& 0x7F
  imm := f.imm &&& 0xFFF

@[simp] theorem truncate_truncate (f : Fields) : f.truncate.truncate = f.truncate := by
  simp [truncate, UInt8.and_assoc, UInt16.and_assoc]

end Fields

end ElasticCore
