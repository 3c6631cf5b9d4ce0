import ElasticCore.Proofs.Instruction.Bits
import ElasticCore.Proofs.Instruction.Fields

/-! # The tiling of an instruction

Six fields cover the bits of an instruction, each bit once. So the fields determine the instruction,
and all values within the widths of the fields are those of some instruction. The immediate covers
the two highest fields together; of what a decoder is given, the function code is its upper part.
-/

namespace ElasticCore

theorem eq_of_add_two_pow_mul_eq {n a b c d : Nat} (ha : a < 2 ^ n) (hc : c < 2 ^ n)
    (h : a + 2 ^ n * b = c + 2 ^ n * d) : a = c ∧ b = d := by
  have hn : 0 < 2 ^ n := Nat.two_pow_pos n
  obtain ⟨hb, ha'⟩ := (Nat.div_mod_unique hn).mpr ⟨h, ha⟩
  obtain ⟨hd, hc'⟩ := (Nat.div_mod_unique hn).mpr ⟨rfl, hc⟩
  exact ⟨ha'.symm.trans hc', hb.symm.trans hd⟩

namespace Instruction

/-- A value for each of the fields that tile an instruction, lowest field first. -/
@[ext]
structure Parts where
  opcode : Fin (2 ^ 7)
  rd : Fin (2 ^ 5)
  funct3 : Fin (2 ^ 3)
  rs1 : Fin (2 ^ 5)
  rs2 : Fin (2 ^ 5)
  funct7 : Fin (2 ^ 7)
  deriving DecidableEq

namespace Parts

def value (p : Parts) : Nat :=
  p.opcode + 2 ^ 7 * (p.rd + 2 ^ 5 * (p.funct3 + 2 ^ 3 * (p.rs1 + 2 ^ 5 * (p.rs2 +
    2 ^ 5 * p.funct7))))

def assemble (p : Parts) : Instruction := .ofNat p.value

theorem value_eq_sum (p : Parts) :
    p.value = p.opcode + 2 ^ 7 * p.rd + 2 ^ 12 * p.funct3 + 2 ^ 15 * p.rs1 + 2 ^ 20 * p.rs2 +
      2 ^ 25 * p.funct7 := by
  rw [value]
  omega

theorem value_lt (p : Parts) : p.value < 2 ^ 32 := by
  rw [value]
  omega

theorem value_injective {p q : Parts} (h : p.value = q.value) : p = q := by
  -- each step takes the lowest field off what is left of the two numbers
  obtain ⟨h0, h⟩ := eq_of_add_two_pow_mul_eq p.opcode.isLt q.opcode.isLt h
  obtain ⟨h7, h⟩ := eq_of_add_two_pow_mul_eq p.rd.isLt q.rd.isLt h
  obtain ⟨h12, h⟩ := eq_of_add_two_pow_mul_eq p.funct3.isLt q.funct3.isLt h
  obtain ⟨h15, h⟩ := eq_of_add_two_pow_mul_eq p.rs1.isLt q.rs1.isLt h
  obtain ⟨h20, h25⟩ := eq_of_add_two_pow_mul_eq p.rs2.isLt q.rs2.isLt h
  exact Parts.ext (Fin.ext h0) (Fin.ext h7) (Fin.ext h12) (Fin.ext h15) (Fin.ext h20) (Fin.ext h25)

theorem toNat_assemble (p : Parts) : p.assemble.toNat = p.value := by
  rw [assemble, UInt32.toNat_ofNat', Nat.mod_eq_of_lt p.value_lt]

end Parts

def parts (w : Instruction) : Parts where
  opcode := ⟨w.opcode.toNat, w.toNat_opcode ▸ w.bits_lt 0 6⟩
  rd := ⟨w.rd.toNat, w.toNat_rd ▸ w.bits_lt 7 11⟩
  funct3 := ⟨w.funct3.toNat, w.toNat_funct3 ▸ w.bits_lt 12 14⟩
  rs1 := ⟨w.rs1.toNat, w.toNat_rs1 ▸ w.bits_lt 15 19⟩
  rs2 := ⟨w.rs2.toNat, w.toNat_rs2 ▸ w.bits_lt 20 24⟩
  funct7 := ⟨w.funct7.toNat, w.toNat_funct7 ▸ w.bits_lt 25 31⟩

theorem value_parts (w : Instruction) : w.parts.value = w.toNat := by
  calc w.parts.value
      = w.bits 0 6 + 2 ^ 7 * (w.bits 7 11 + 2 ^ 5 * (w.bits 12 14 + 2 ^ 3 * (w.bits 15 19 +
          2 ^ 5 * (w.bits 20 24 + 2 ^ 5 * w.bits 25 31)))) := by
        simp only [Parts.value, parts, toNat_opcode, toNat_rd, toNat_funct3, toNat_rs1, toNat_rs2,
          toNat_funct7]
    _ = w.bits 0 31 := by
        rw [bits_eq_add w 0 6 31, bits_eq_add w 7 11 31, bits_eq_add w 12 14 31,
          bits_eq_add w 15 19 31, bits_eq_add w 20 24 31]
        all_goals decide
    _ = w.toNat := w.bits_all

theorem parts_assemble (p : Parts) : p.assemble.parts = p := by
  apply Parts.value_injective
  rw [value_parts, Parts.toNat_assemble]

theorem Parts.fields_assemble (p : Parts) :
    p.assemble.opcode.toNat = p.opcode ∧ p.assemble.rd.toNat = p.rd ∧
      p.assemble.funct3.toNat = p.funct3 ∧ p.assemble.rs1.toNat = p.rs1 ∧
      p.assemble.rs2.toNat = p.rs2 ∧ p.assemble.funct7.toNat = p.funct7 := by
  have h := parts_assemble p
  exact ⟨congrArg (·.opcode.val) h, congrArg (·.rd.val) h, congrArg (·.funct3.val) h,
    congrArg (·.rs1.val) h, congrArg (·.rs2.val) h, congrArg (·.funct7.val) h⟩

theorem toNat_immI_eq_add (w : Instruction) :
    w.immI.toNat = 2 ^ 5 * w.funct7.toNat + w.rs2.toNat := by
  rw [toNat_immI_eq_bits, toNat_funct7, toNat_rs2, bits_eq_add w 20 24 31 (by decide) (by decide),
    Nat.add_comm]

theorem toNat_funct7_eq_div (w : Instruction) : w.funct7.toNat = w.immI.toNat / 2 ^ 5 := by
  have h2 : w.rs2.toNat < 2 ^ 5 := w.parts.rs2.isLt
  rw [toNat_immI_eq_add, Nat.mul_add_div (by decide), Nat.div_eq_of_lt h2, Nat.add_zero]

theorem exists_ofInstruction_eq {f : Fields} (ht : f.truncate = f)
    (hi : f.funct7.toNat = f.imm.toNat / 2 ^ 5) : ∃ w, Fields.ofInstruction w = f := by
  obtain ⟨ho, h3, h7, -⟩ := f.truncate_eq_self_iff.mp ht
  have h2 : f.imm.toNat % 2 ^ 5 < 2 ^ 5 := Nat.mod_lt _ (by decide)
  -- a decoder sees no register, and of the second source only what the immediate covers
  let p : Parts := ⟨⟨_, ho⟩, 0, ⟨_, h3⟩, 0, ⟨_, h2⟩, ⟨_, h7⟩⟩
  obtain ⟨hpo, -, hp3, -, hp2, hp7⟩ := p.fields_assemble
  have hpi : p.assemble.immI.toNat = f.imm.toNat := by
    rw [toNat_immI_eq_add, hp7, hp2]
    change 2 ^ 5 * f.funct7.toNat + f.imm.toNat % 2 ^ 5 = f.imm.toNat
    rw [hi, Nat.div_add_mod]
  refine ⟨p.assemble, ?_⟩
  rw [Fields.ofInstruction, UInt8.toNat_inj.mp hpo, UInt8.toNat_inj.mp hp3, UInt8.toNat_inj.mp hp7,
    UInt16.toNat_inj.mp hpi]

/-- Taking an instruction apart loses nothing. An instruction is the sum of its six fields, each
within its width and at its position, and the immediate is made of the two highest. Conversely, any
values within the widths are read back from the instruction that they sum up to. What a decoder is
given of some instruction are exactly the fields that it does not cut and whose function code is the
upper part of the immediate. -/
theorem fields_tile :
    (∀ w : Instruction,
      w.toNat = w.opcode.toNat + 2 ^ 7 * w.rd.toNat + 2 ^ 12 * w.funct3.toNat +
        2 ^ 15 * w.rs1.toNat + 2 ^ 20 * w.rs2.toNat + 2 ^ 25 * w.funct7.toNat ∧
      (w.opcode.toNat < 2 ^ 7 ∧ w.funct7.toNat < 2 ^ 7 ∧ w.funct3.toNat < 2 ^ 3 ∧
        w.rd.toNat < 2 ^ 5 ∧ w.rs1.toNat < 2 ^ 5 ∧ w.rs2.toNat < 2 ^ 5) ∧
      w.immI.toNat = 2 ^ 5 * w.funct7.toNat + w.rs2.toNat) ∧
    (∀ p : Parts, ∃ w : Instruction,
      w.toNat = p.opcode + 2 ^ 7 * p.rd + 2 ^ 12 * p.funct3 + 2 ^ 15 * p.rs1 + 2 ^ 20 * p.rs2 +
        2 ^ 25 * p.funct7 ∧
      w.opcode.toNat = p.opcode ∧ w.rd.toNat = p.rd ∧ w.funct3.toNat = p.funct3 ∧
      w.rs1.toNat = p.rs1 ∧ w.rs2.toNat = p.rs2 ∧ w.funct7.toNat = p.funct7) ∧
    (∀ f : Fields, (∃ w, Fields.ofInstruction w = f) ↔
      f.truncate = f ∧ f.funct7.toNat = f.imm.toNat / 2 ^ 5) := by
  refine ⟨fun w => ⟨?_, ?_, w.toNat_immI_eq_add⟩, fun p => ⟨p.assemble, ?_, p.fields_assemble⟩,
    fun f => ⟨?_, fun ⟨ht, hi⟩ => exists_ofInstruction_eq ht hi⟩⟩
  · rw [← value_parts, Parts.value_eq_sum]
    rfl
  · exact ⟨w.parts.opcode.isLt, w.parts.funct7.isLt, w.parts.funct3.isLt, w.parts.rd.isLt,
      w.parts.rs1.isLt, w.parts.rs2.isLt⟩
  · rw [p.toNat_assemble, p.value_eq_sum]
  · rintro ⟨w, rfl⟩
    exact ⟨Fields.truncate_ofInstruction w, w.toNat_funct7_eq_div⟩

/-- A reversal of bytes has its function code in the immediate. -/
example : parts 0x69815093 = ⟨0x13, 1, 5, 2, 0x18, 0x34⟩ ∧ immI 0x69815093 = 0x698 := by
  decide

end Instruction

end ElasticCore
