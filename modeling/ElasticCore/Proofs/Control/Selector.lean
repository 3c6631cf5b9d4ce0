import Mathlib.Algebra.Group.Nat.Defs
import ElasticCore.Arithmetic
import ElasticCore.Proofs.Control.Signals

/-! # The width of the operation selector

Each variant reports how wide the operation field of its bundles is. The carry-less
multiplications have 5-bit codes and are decoded by the base variant, whose reported
width is 4. Every other operation fits the field of its variant, and the cut codes still
tell all operations of a variant apart.
-/

namespace ElasticCore

/-- The operations whose codes fit in four bits. -/
def AluOp.narrow : List AluOp := [and, sll, slt, sltu, xor, srl, or, add, sub, sra, imm, nop]

theorem AluOp.mem_narrow_iff {op : AluOp} : op ∈ narrow ↔ op.bits.toNat < 2 ^ 4 := by
  cases op <;> decide

theorem AluOp.bits_lt (op : AluOp) : op.bits.toNat < 2 ^ 5 := by
  cases op <;> decide

namespace OpTable

theorem forall_of_lookup {P : UInt8 → AluOp → Prop} {rows : List (UInt8 × AluOp)} {k : UInt8}
    {op : AluOp} (hp : ∀ r ∈ rows, P r.1 r.2) (h : rows.lookup k = some op) : P k op := by
  obtain ⟨l, l', rfl, -⟩ := List.lookup_eq_some_iff.mp h
  exact hp (k, op) (by simp)

theorem base_reg_cases {funct3 funct7 : UInt8} {op : AluOp}
    (h : OpTable.base.reg funct3 funct7 = some op) :
    (funct7 = Funct7.clmul ∧ (funct3 = 1 ∨ funct3 = 3)) ∧ (op = .clmul ∨ op = .clmulh) ∨
      ¬ (funct7 = Funct7.clmul ∧ (funct3 = 1 ∨ funct3 = 3)) ∧ op ∈ AluOp.narrow := by
  simp only [base] at h
  split at h
  · apply forall_of_lookup _ h; decide
  · apply forall_of_lookup _ h; decide
  · cases h; exact Or.inr ⟨by simp, by decide⟩
  · apply forall_of_lookup _ h; decide
  · cases h; exact Or.inr ⟨by simp, by decide⟩
  · apply forall_of_lookup _ h; decide
  · cases h; exact Or.inr ⟨by simp, by decide⟩
  · cases h; exact Or.inr ⟨by simp, by decide⟩
  · cases h

theorem base_imm_mem_narrow {funct3 funct7 : UInt8} {imm : UInt16} {op : AluOp}
    (h : OpTable.base.imm funct3 funct7 imm = some op) : op ∈ AluOp.narrow := by
  simp only [base] at h
  split at h
  case h_2 | h_6 => apply forall_of_lookup _ h; decide
  case h_9 => cases h
  all_goals cases h; decide

end OpTable

theorem Opcode.aluOp?_base_mem_narrow {o : Opcode} {f : Fields} {op : AluOp} (ho : o ≠ .reg)
    (h : o.aluOp? .base f = some op) : op ∈ AluOp.narrow := by
  cases o with
  | reg => exact absurd rfl ho
  | imm => exact OpTable.base_imm_mem_narrow h
  | branch =>
    rw [Opcode.aluOp?, branchOp?] at h
    generalize f.funct3 >>> 1 = k at h
    apply OpTable.forall_of_lookup _ h
    decide
  | system => cases h
  | load | store | auipc | jalr | lui | jal => cases h; decide

/-- The encodings that the base variant decodes to a carry-less multiplication. -/
def Fields.IsCarryLess (f : Fields) : Prop :=
  f.truncate.opcode = Opcode.reg.bits ∧
    f.truncate.funct7 = Funct7.clmul ∧ (f.truncate.funct3 = 1 ∨ f.truncate.funct3 = 3)

namespace Isa

/-- The code of the selected operation, cut to the field that the variant reports. -/
def packedOp (isa : Isa) (f : Fields) : Nat :=
  (isa.decode f).aluOp.bits.toNat % 2 ^ isa.aluOpWidth

theorem aluOp_base_cases (f : Fields) :
    f.IsCarryLess ∧ ((base.decode f).aluOp = .clmul ∨ (base.decode f).aluOp = .clmulh) ∨
      ¬ f.IsCarryLess ∧ (base.decode f).aluOp ∈ AluOp.narrow := by
  have hd : (base.decode f).aluOp =
      ((Opcode.ofBits? f.opcode).bind (·.aluOp? .base f.truncate)).getD .nop :=
    OpTable.base.aluOp_decode f
  by_cases hreg : Opcode.ofBits? f.opcode = some .reg
  · have ho : f.truncate.opcode = Opcode.reg.bits := Opcode.ofBits?_eq_some_iff.mp hreg
    simp only [hreg, Option.bind_some, Opcode.aluOp?] at hd
    cases hr : OpTable.base.reg f.truncate.funct3 f.truncate.funct7 with
    | some op =>
      rw [hr, Option.getD_some] at hd
      simpa only [Fields.IsCarryLess, ho, true_and, hd] using OpTable.base_reg_cases hr
    | none =>
      refine Or.inr ⟨?_, by rw [hd, hr]; decide⟩
      rintro ⟨-, h7, h3 | h3⟩ <;> rw [h7, h3] at hr <;> cases hr
  · refine Or.inr ⟨fun h => hreg (Opcode.ofBits?_eq_some_iff.mpr h.1), ?_⟩
    cases ho : (Opcode.ofBits? f.opcode).bind (·.aluOp? .base f.truncate) with
    | none => rw [hd, ho]; decide
    | some op =>
      obtain ⟨o, ho', hop⟩ := Option.bind_eq_some_iff.mp ho
      rw [hd, ho]
      exact Opcode.aluOp?_base_mem_narrow (fun h => hreg (h ▸ ho')) hop

theorem aluOp_base_lt_iff (f : Fields) :
    (base.decode f).aluOp.bits.toNat < 2 ^ 4 ↔ ¬ f.IsCarryLess := by
  rcases aluOp_base_cases f with ⟨hc, h⟩ | ⟨hc, h⟩
  · rcases h with h | h <;> simp [h, hc, AluOp.bits]
  · simpa [hc] using AluOp.mem_narrow_iff.mp h

theorem aluOp_base_injective {f f' : Fields} (h : base.packedOp f = base.packedOp f') :
    (base.decode f).aluOp = (base.decode f').aluOp := by
  have hall : ∀ op ∈ .clmul :: .clmulh :: AluOp.narrow, ∀ op' ∈ .clmul :: .clmulh :: AluOp.narrow,
      op.bits.toNat % 2 ^ 4 = op'.bits.toNat % 2 ^ 4 → op = op' := by decide
  have hmem : ∀ f, (base.decode f).aluOp ∈ .clmul :: .clmulh :: AluOp.narrow := by
    intro f
    rcases aluOp_base_cases f with ⟨-, h | h⟩ | ⟨-, h⟩ <;> simp [h]
  exact hall _ (hmem f) _ (hmem f') h

/-- The selector fits its field, except for carry-less multiplications in the base variant.
There the field cuts a bit off, and still no two operations share a code. -/
theorem aluOp_fits_iff (isa : Isa) (f : Fields) :
    ((isa.decode f).aluOp.bits.toNat < 2 ^ isa.aluOpWidth ↔ ¬ (isa = base ∧ f.IsCarryLess)) ∧
      (isa.packedOp f = (isa.decode f).aluOp.bits.toNat ↔ ¬ (isa = base ∧ f.IsCarryLess)) ∧
      ∀ f', isa.packedOp f = isa.packedOp f' ↔ (isa.decode f).aluOp = (isa.decode f').aluOp := by
  have hw : (isa.decode f).aluOp.bits.toNat < 2 ^ isa.aluOpWidth ↔
      ¬ (isa = base ∧ f.IsCarryLess) := by
    cases isa with
    | base => simpa [aluOpWidth] using aluOp_base_lt_iff f
    | zbkb => simpa [aluOpWidth] using AluOp.bits_lt (zbkb.decode f).aluOp
  refine ⟨hw, ?_, ?_⟩
  · rw [← hw]
    exact Nat.mod_eq_iff_lt (by simp)
  · intro f'
    refine ⟨fun h => ?_, fun h => by rw [packedOp, packedOp, h]⟩
    cases isa with
    | base => exact aluOp_base_injective h
    | zbkb =>
      apply AluOp.bits_injective
      apply UInt8.toNat_inj.mp
      simpa only [packedOp, aluOpWidth, Nat.mod_eq_of_lt (AluOp.bits_lt _)] using h

/-- A carry-less multiplication has code 0x1B, and the field of the base variant 4 bits. -/
theorem clmul_exceeds_field :
    let f : Fields := { opcode := 0x33, funct3 := 1, funct7 := 5 }
    (base.decode f).aluOp = .clmul ∧
      ¬ (base.decode f).aluOp.bits.toNat < 2 ^ base.aluOpWidth := by
  decide

end Isa

end ElasticCore
