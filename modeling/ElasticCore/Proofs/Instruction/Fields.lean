import Mathlib.Algebra.Group.Nat.Defs
import ElasticCore.Arithmetic
import ElasticCore.Instruction.Fields

/-! # The widths of fields

Cutting the fields of an instruction to their widths reduces them modulo the number of their codes.
The fields that are read from a raw instruction are no wider than that.
-/

namespace ElasticCore.Fields

/-- The fields of an instruction, each modulo the number of its codes. -/
def reduce (f : Fields) : Fields where
  opcode := f.opcode % 128
  funct3 := f.funct3 % 8
  funct7 := f.funct7 % 128
  imm := f.imm % 4096

theorem reduce_eq_truncate (f : Fields) : f.reduce = f.truncate := by
  simp only [reduce, truncate, mk.injEq, ← UInt8.toNat_inj, ← UInt16.toNat_inj, UInt8.toNat_and,
    UInt16.toNat_and, UInt8.toNat_mod, UInt16.toNat_mod]
  exact ⟨(Nat.and_two_pow_sub_one_eq_mod _ 7).symm, (Nat.and_two_pow_sub_one_eq_mod _ 3).symm,
    (Nat.and_two_pow_sub_one_eq_mod _ 7).symm, (Nat.and_two_pow_sub_one_eq_mod _ 12).symm⟩

theorem truncate_eq_self_iff (f : Fields) :
    f.truncate = f ↔ f.opcode.toNat < 2 ^ 7 ∧ f.funct3.toNat < 2 ^ 3 ∧ f.funct7.toNat < 2 ^ 7 ∧
      f.imm.toNat < 2 ^ 12 := by
  obtain ⟨opcode, funct3, funct7, imm⟩ := f
  rw [← reduce_eq_truncate]
  simp only [reduce, mk.injEq, ← UInt8.toNat_inj, ← UInt16.toNat_inj, UInt8.toNat_mod,
    UInt16.toNat_mod]
  exact and_congr (Nat.mod_eq_iff_lt (by decide)) <| and_congr (Nat.mod_eq_iff_lt (by decide)) <|
    and_congr (Nat.mod_eq_iff_lt (by decide)) (Nat.mod_eq_iff_lt (by decide))

theorem funct3_truncate_cases (f : Fields) :
    f.truncate.funct3 = 0 ∨ f.truncate.funct3 = 1 ∨ f.truncate.funct3 = 2 ∨
      f.truncate.funct3 = 3 ∨ f.truncate.funct3 = 4 ∨ f.truncate.funct3 = 5 ∨
      f.truncate.funct3 = 6 ∨ f.truncate.funct3 = 7 := by
  rw [← reduce_eq_truncate]
  simp only [reduce, ← UInt8.toNat_inj, UInt8.toNat_mod, UInt8.reduceToNat]
  omega

theorem truncate_ofInstruction (w : Instruction) :
    (ofInstruction w).truncate = ofInstruction w := by
  simp only [truncate, ofInstruction, Instruction.opcode, Instruction.funct3, Instruction.funct7,
    Instruction.immI, UInt32.toUInt8_and, UInt32.toUInt16_and, UInt8.and_assoc, UInt16.and_assoc]
  rfl

end ElasticCore.Fields
