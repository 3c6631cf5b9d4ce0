import ElasticCore.Proofs.Control.Selector
import ElasticCore.Proofs.Control.Skeleton

/-! # The variants compared

The tables of the two variants are listed apart from each other. They assign the same operations to
the instructions of RV32I, and every register-immediate operation of the base table is also one of
the extended table. They do differ elsewhere: on function codes that RV32I leaves unassigned, the
base table has the carry-less multiplications and some rows that accept every code.
-/

namespace ElasticCore

/-- The instructions of RV32I, by format and minor opcode. -/
inductive Instruction.IsRv32i (w : Instruction) : Prop
  | lui (ho : w.opcode = 0b0110111)
  | auipc (ho : w.opcode = 0b0010111)
  | jal (ho : w.opcode = 0b1101111)
  | jalr (ho : w.opcode = 0b1100111) (h3 : w.funct3 = 0b000)
  /-- `BEQ`, `BNE`, `BLT`, `BGE`, `BLTU` and `BGEU`. -/
  | branch (ho : w.opcode = 0b1100011) (h3 : w.funct3 ∈ [0b000, 0b001, 0b100, 0b101, 0b110, 0b111])
  /-- `LB`, `LH`, `LW`, `LBU` and `LHU`. -/
  | load (ho : w.opcode = 0b0000011) (h3 : w.funct3 ∈ [0b000, 0b001, 0b010, 0b100, 0b101])
  /-- `SB`, `SH` and `SW`. -/
  | store (ho : w.opcode = 0b0100011) (h3 : w.funct3 ∈ [0b000, 0b001, 0b010])
  /-- `ADDI`, `SLTI`, `SLTIU`, `XORI`, `ORI` and `ANDI`. -/
  | imm (ho : w.opcode = 0b0010011) (h3 : w.funct3 ∈ [0b000, 0b010, 0b011, 0b100, 0b110, 0b111])
  /-- `SLLI` and `SRLI`. -/
  | shift (ho : w.opcode = 0b0010011) (h3 : w.funct3 ∈ [0b001, 0b101]) (h7 : w.funct7 = 0x00)
  /-- `SRAI`. -/
  | shiftArith (ho : w.opcode = 0b0010011) (h3 : w.funct3 = 0b101) (h7 : w.funct7 = 0x20)
  /-- `ADD`, `SLL`, `SLT`, `SLTU`, `XOR`, `SRL`, `OR` and `AND`. -/
  | reg (ho : w.opcode = 0b0110011) (h7 : w.funct7 = 0x00)
  /-- `SUB` and `SRA`. -/
  | regAlt (ho : w.opcode = 0b0110011) (h3 : w.funct3 ∈ [0b000, 0b101]) (h7 : w.funct7 = 0x20)
  | fence (ho : w.opcode = 0b0001111) (h3 : w.funct3 = 0b000)
  | ecall (hw : w = 0x00000073)
  | ebreak (hw : w = 0x00100073)

namespace OpTable

variable {funct3 funct7 : UInt8} {imm : UInt16} {op : AluOp}

theorem imm_zbkb_of_base (h : base.imm funct3 funct7 imm = some op) :
    zbkb.imm funct3 funct7 imm = some op := by
  simp only [base] at h
  split at h
  case h_2 =>
    simp only [zbkb]
    apply forall_of_lookup _ h
    decide
  case h_6 =>
    -- the reversals have a function code that the base table does not know
    have h7 : ¬ funct7 = Funct7.rev := by
      rintro rfl
      cases h
    simp only [zbkb, h7, if_false]
    apply forall_of_lookup _ h
    decide
  case h_9 => cases h
  all_goals exact h

theorem reg_zbkb_of_base (funct3 : UInt8) :
    zbkb.reg funct3 Funct7.base = base.reg funct3 Funct7.base := by
  simp only [zbkb, base]
  split <;> rfl

theorem reg_zbkb_eq
    (h : funct7 = 0x00 ∨ funct7 = 0x20 ∧ (funct3 = 0b000 ∨ funct3 = 0b101) ∨ funct3 = 0b010) :
    zbkb.reg funct3 funct7 = base.reg funct3 funct7 := by
  rcases h with rfl | ⟨rfl, rfl | rfl⟩ | rfl
  · exact reg_zbkb_of_base funct3
  all_goals rfl

theorem exists_imm_base (h : funct3 ∈ [0b000, 0b010, 0b011, 0b100, 0b110, 0b111]) :
    ∃ op, base.imm funct3 funct7 imm = some op := by
  simp only [List.mem_cons, List.not_mem_nil, or_false] at h
  rcases h with rfl | rfl | rfl | rfl | rfl | rfl <;> exact ⟨_, rfl⟩

end OpTable

namespace Isa

variable {w : Instruction} {op : AluOp}

theorem zbkb_eq_base_of_imm (ho : w.opcode = Opcode.imm.bits)
    (h : OpTable.base.imm w.funct3 w.funct7 w.immI = some op) :
    zbkb.decodeInstruction w = base.decodeInstruction w := by
  rw [decodeInstruction_eq_bundle _ ho, decodeInstruction_eq_bundle _ ho]
  exact congrArg _ ((OpTable.imm_zbkb_of_base h).trans h.symm)

theorem zbkb_eq_base_of_not_idle (ho : w.opcode = Opcode.imm.bits)
    (h : (base.decodeInstruction w).isIdle = false) :
    zbkb.decodeInstruction w = base.decodeInstruction w := by
  rw [decodeInstruction_eq_bundle _ ho] at h
  cases hop : OpTable.base.imm w.funct3 w.funct7 w.immI with
  | none =>
    have hn : Opcode.imm.aluOp? base.table (.ofInstruction w) = none := hop
    rw [hn, Opcode.bundle, Bundle.isIdle_idle] at h
    cases h
  | some op => exact zbkb_eq_base_of_imm ho hop

theorem zbkb_eq_base_of_reg (ho : w.opcode = Opcode.reg.bits)
    (h : w.funct7 = 0x00 ∨ w.funct7 = 0x20 ∧ (w.funct3 = 0b000 ∨ w.funct3 = 0b101) ∨
      w.funct3 = 0b010) :
    zbkb.decodeInstruction w = base.decodeInstruction w := by
  rw [decodeInstruction_eq_bundle _ ho, decodeInstruction_eq_bundle _ ho]
  exact congrArg _ (OpTable.reg_zbkb_eq h)

theorem zbkb_eq_base_of_ne {n : UInt8} (ho : w.opcode = n)
    (hn : n ≠ Opcode.reg.bits ∧ n ≠ Opcode.imm.bits) :
    zbkb.decodeInstruction w = base.decodeInstruction w := by
  subst ho
  exact decodeInstruction_congr_of_ne hn.1 hn.2 rfl rfl

theorem zbkb_eq_base_of_isRv32i (h : w.IsRv32i) :
    zbkb.decodeInstruction w = base.decodeInstruction w := by
  cases h with
  | imm ho h3 =>
    obtain ⟨op, hop⟩ := OpTable.exists_imm_base h3
    exact zbkb_eq_base_of_imm ho hop
  | shift ho h3 h7 =>
    simp only [List.mem_cons, List.not_mem_nil, or_false] at h3
    rcases h3 with h3 | h3
    · exact zbkb_eq_base_of_imm ho (by rw [h3, h7]; rfl)
    · exact zbkb_eq_base_of_imm ho (by rw [h3, h7]; rfl)
  | shiftArith ho h3 h7 => exact zbkb_eq_base_of_imm ho (by rw [h3, h7]; rfl)
  | reg ho h7 => exact zbkb_eq_base_of_reg ho (.inl h7)
  | regAlt ho h3 h7 => exact zbkb_eq_base_of_reg ho (.inr (.inl ⟨h7, by simpa using h3⟩))
  | ecall hw => rw [hw]; decide
  | ebreak hw => rw [hw]; decide
  | lui ho | auipc ho | jal ho | jalr ho | branch ho | load ho | store ho | fence ho =>
    exact zbkb_eq_base_of_ne ho (by decide)

/-- The extended variant keeps the instructions of RV32I: the variants decode alike whatever is not
an ALU instruction, each register-immediate instruction that the base variant knows, and the
register-register instructions under the function codes of RV32I. -/
theorem zbkb_conservative (w : Instruction) :
    let b := base.decodeInstruction w
    let z := zbkb.decodeInstruction w
    (w.opcode ≠ Opcode.reg.bits ∧ w.opcode ≠ Opcode.imm.bits → b = z) ∧
      (w.opcode = Opcode.imm.bits → b.isIdle = false → z = b) ∧
      (w.opcode = Opcode.reg.bits →
        w.funct7 = 0x00 ∨ w.funct7 = 0x20 ∧ (w.funct3 = 0b000 ∨ w.funct3 = 0b101) ∨
          w.funct3 = 0b010 → z = b) ∧
      (w.IsRv32i → z = b) :=
  ⟨fun h => (zbkb_eq_base_of_ne rfl h).symm, zbkb_eq_base_of_not_idle, zbkb_eq_base_of_reg,
    zbkb_eq_base_of_isRv32i⟩

/-- A branch, an arithmetic shift by an immediate, and a subtraction. -/
theorem zbkb_conservative_samples :
    let w : Instruction := 0x00209463
    let w' : Instruction := 0x40515093
    let w'' : Instruction := 0x402080B3
    (w.opcode ≠ Opcode.reg.bits ∧ w.opcode ≠ Opcode.imm.bits) ∧
      base.decodeInstruction w = zbkb.decodeInstruction w ∧
      (w'.opcode = Opcode.imm.bits ∧ (base.decodeInstruction w').isIdle = false) ∧
      zbkb.decodeInstruction w' = base.decodeInstruction w' ∧
      (w''.opcode = Opcode.reg.bits ∧ w''.funct7 = 0x20 ∧ w''.funct3 = 0b000) ∧ w''.IsRv32i ∧
      zbkb.decodeInstruction w'' = base.decodeInstruction w'' := by
  intro w w' w''
  have h : w.opcode ≠ Opcode.reg.bits ∧ w.opcode ≠ Opcode.imm.bits := by decide
  have h' : w'.opcode = Opcode.imm.bits ∧ (base.decodeInstruction w').isIdle = false := by decide
  have h'' : w''.opcode = Opcode.reg.bits ∧ w''.funct7 = 0x20 ∧ w''.funct3 = 0b000 := by decide
  have hw : w''.IsRv32i := .regAlt h''.1 (by decide) h''.2.1
  exact ⟨h, (zbkb_conservative w).1 h, h', (zbkb_conservative w').2.1 h'.1 h'.2, h'', hw,
    (zbkb_conservative w'').2.2.2 hw⟩

/-- Where RV32I has no instruction, the variants differ: one knows `CLMUL`, the other `PACK`. -/
example :
    base.decodeInstruction 0x0A209033 ≠ zbkb.decodeInstruction 0x0A209033 ∧
      base.decodeInstruction 0x0820C033 ≠ zbkb.decodeInstruction 0x0820C033 := by
  decide

end Isa

end ElasticCore
