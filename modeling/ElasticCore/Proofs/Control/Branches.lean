import ElasticCore.Proofs.Control.Skeleton

/-! # The sense of branches

A branch compares its operands by an operation of the ALU and looks whether the result is zero. The
upper two bits of the minor opcode choose the operation, and the sense is computed apart from it.
Together they give the condition that the branch names, for all operands.
-/

namespace ElasticCore

/-! ## Comparisons -/

/-- What a branch relies on: the ALU takes the exclusive or of two words, and its comparisons of
signed and of unsigned numbers give one or zero. -/
structure AluOp.Compares (alu : AluOp → UInt32 → UInt32 → UInt32) : Prop where
  xor (a b : UInt32) : alu .xor a b = a ^^^ b
  slt (a b : UInt32) : alu .slt a b = if a.toInt32 < b.toInt32 then 1 else 0
  sltu (a b : UInt32) : alu .sltu a b = if a < b then 1 else 0

def AluOp.comparator : AluOp → UInt32 → UInt32 → UInt32
  | .xor, a, b => a ^^^ b
  | .slt, a, b => if a.toInt32 < b.toInt32 then 1 else 0
  | .sltu, a, b => if a < b then 1 else 0
  | _, _, _ => 0

theorem AluOp.compares_comparator : Compares comparator where
  xor _ _ := rfl
  slt _ _ := rfl
  sltu _ _ := rfl

section Compares

variable {alu : AluOp → UInt32 → UInt32 → UInt32} (h : AluOp.Compares alu) (a b : UInt32)
include h

theorem AluOp.Compares.xor_eq_zero_iff : alu .xor a b = 0 ↔ a = b := by
  rw [h.xor, UInt32.xor_eq_zero_iff]

theorem AluOp.Compares.slt_eq_zero_iff : alu .slt a b = 0 ↔ b.toInt32 ≤ a.toInt32 := by
  rw [h.slt, ← Int32.not_lt]
  split <;> simp_all

theorem AluOp.Compares.sltu_eq_zero_iff : alu .sltu a b = 0 ↔ b ≤ a := by
  rw [h.sltu, ← UInt32.not_lt]
  split <;> simp_all

end Compares

/-! ## Conditions -/

inductive BranchCondition
  | eq
  | ne
  | lt
  | ge
  | ltu
  | geu
  deriving DecidableEq, Repr

namespace BranchCondition

def funct3 : BranchCondition → UInt8
  | eq => 0b000
  | ne => 0b001
  | lt => 0b100
  | ge => 0b101
  | ltu => 0b110
  | geu => 0b111

/-- The condition on the operands; the unsigned conditions are the last two. -/
def Holds (a b : UInt32) : BranchCondition → Prop
  | eq => a = b
  | ne => a ≠ b
  | lt => a.toInt32 < b.toInt32
  | ge => b.toInt32 ≤ a.toInt32
  | ltu => a < b
  | geu => b ≤ a

def op : BranchCondition → AluOp
  | eq | ne => .xor
  | lt | ge => .slt
  | ltu | geu => .sltu

theorem branchOp?_funct3 (k : BranchCondition) : branchOp? k.funct3 = some k.op := by
  cases k <;> rfl

theorem exists_funct3_eq (w : Instruction) (h : ¬ (w.funct3 = 0b010 ∨ w.funct3 = 0b011)) :
    ∃ k : BranchCondition, k.funct3 = w.funct3 := by
  have hc := (Fields.ofInstruction w).funct3_truncate_cases
  rw [Fields.truncate_ofInstruction] at hc
  simp only [Fields.ofInstruction] at hc
  rw [not_or] at h
  rcases hc with hc | hc | hc | hc | hc | hc | hc | hc
  · exact ⟨eq, hc.symm⟩
  · exact ⟨ne, hc.symm⟩
  · exact absurd hc h.1
  · exact absurd hc h.2
  · exact ⟨lt, hc.symm⟩
  · exact ⟨ge, hc.symm⟩
  · exact ⟨ltu, hc.symm⟩
  · exact ⟨geu, hc.symm⟩

end BranchCondition

/-! ## Branches -/

namespace Bundle

variable {c : Bundle} {result : UInt32}

def takes (c : Bundle) (result : UInt32) : Bool := (result == 0) != c.branchInv

theorem takes_iff_of_not_branchInv (h : c.branchInv = false) :
    c.takes result = true ↔ result = 0 := by
  simp [takes, h]

theorem takes_iff_of_branchInv (h : c.branchInv = true) : c.takes result = true ↔ result ≠ 0 := by
  simp [takes, h]

/-- The sense is inverted for the conditions that do not hold where the comparison is zero. -/
theorem takes_iff_holds {alu : AluOp → UInt32 → UInt32 → UInt32} (h : AluOp.Compares alu)
    (k : BranchCondition) (hc : c.branchInv = (idle k.funct3).branchInv) (a b : UInt32) :
    c.takes (alu k.op a b) = true ↔ k.Holds a b := by
  cases k with
  | eq =>
    rw [takes_iff_of_not_branchInv hc]
    exact h.xor_eq_zero_iff a b
  | ne =>
    rw [takes_iff_of_branchInv hc]
    exact not_congr (h.xor_eq_zero_iff a b)
  | lt =>
    rw [takes_iff_of_branchInv hc]
    exact (not_congr (h.slt_eq_zero_iff a b)).trans Int32.not_le
  | ge =>
    rw [takes_iff_of_not_branchInv hc]
    exact h.slt_eq_zero_iff a b
  | ltu =>
    rw [takes_iff_of_branchInv hc]
    exact (not_congr (h.sltu_eq_zero_iff a b)).trans UInt32.not_le
  | geu =>
    rw [takes_iff_of_not_branchInv hc]
    exact h.sltu_eq_zero_iff a b

end Bundle

namespace Isa

variable {isa : Isa} {w : Instruction}

theorem decodeInstruction_branch (hw : w.opcode = Opcode.branch.bits) :
    isa.decodeInstruction w = Opcode.branch.bundle w.funct3 (branchOp? w.funct3) :=
  isa.decodeInstruction_eq_bundle hw

/-- A branch is taken exactly when the condition named by its minor opcode holds, whatever the
operands are. The two minor opcodes that name no condition do not branch. -/
theorem branch_taken_iff_condition (isa : Isa) {alu : AluOp → UInt32 → UInt32 → UInt32}
    (h : AluOp.Compares alu) {w : Instruction} (hw : w.opcode = Opcode.branch.bits) :
    let c := isa.decodeInstruction w
    (w.funct3 = 0b010 ∨ w.funct3 = 0b011 → c.branch = false) ∧
      (¬ (w.funct3 = 0b010 ∨ w.funct3 = 0b011) → c.branch = true ∧ c.target = .imm ∧
        ∃ k : BranchCondition, k.funct3 = w.funct3 ∧
          ∀ a b, c.takes (alu c.aluOp a b) = true ↔ k.Holds a b) := by
  intro c
  have hc : c = Opcode.branch.bundle w.funct3 (branchOp? w.funct3) := decodeInstruction_branch hw
  constructor
  · rintro (h3 | h3) <;> rw [hc, h3] <;> rfl
  · intro h3
    obtain ⟨k, hk⟩ := BranchCondition.exists_funct3_eq w h3
    rw [← hk, k.branchOp?_funct3] at hc
    rw [hc]
    exact ⟨rfl, rfl, k, hk, Bundle.takes_iff_holds h k rfl⟩

/-- `BGE` looks for a signed comparison that is zero. -/
theorem branch_taken_iff_condition_ge :
    let w : Instruction := 0x0020D463
    let c := zbkb.decodeInstruction w
    AluOp.Compares AluOp.comparator ∧ w.opcode = Opcode.branch.bits ∧
      c.branch = true ∧ c.target = .imm ∧
      ∀ a b, c.takes (AluOp.comparator c.aluOp a b) = true ↔ b.toInt32 ≤ a.toInt32 := by
  intro w c
  have hw : w.opcode = Opcode.branch.bits := by decide
  obtain ⟨hb, ht, k, hk, ha⟩ :=
    (branch_taken_iff_condition zbkb AluOp.compares_comparator hw).2 (by decide)
  obtain rfl : k = .ge := by
    revert hk
    cases k <;> decide
  exact ⟨AluOp.compares_comparator, hw, hb, ht, ha⟩

end Isa

end ElasticCore
