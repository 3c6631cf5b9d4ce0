import ElasticCore.Proofs.Control.Skeleton
import ElasticCore.Proofs.Instruction.Bits

/-! # The footprint of a bundle

Of a raw instruction, a bundle depends on the opcode, the minor opcode and, for ALU operations, the
function code. The registers are left to other units. The second source register shares its bits
with the immediate, and is looked at only where the whole immediate selects a reversal.
-/

namespace ElasticCore

theorem lookup_congr {α β : Type} [BEq α] {k k' : α} {rows : List (α × β)}
    (h : ∀ r ∈ rows, (k == r.1) = (k' == r.1)) : rows.lookup k = rows.lookup k' := by
  induction rows with
  | nil => rfl
  | cons r rows ih =>
    obtain ⟨hr, hrs⟩ := List.forall_mem_cons.mp h
    rw [List.lookup_cons, List.lookup_cons, hr, ih hrs]

/-- Both immediates select the same reversal, or neither selects one. -/
structure SameReversal (imm imm' : UInt16) : Prop where
  rev8 : imm = rev8Imm ↔ imm' = rev8Imm
  brev8 : imm = brev8Imm ↔ imm' = brev8Imm

theorem SameReversal.refl (imm : UInt16) : SameReversal imm imm := ⟨Iff.rfl, Iff.rfl⟩

theorem SameReversal.lookup_eq {β : Type} {imm imm' : UInt16} (h : SameReversal imm imm')
    (b b' : β) :
    List.lookup imm [(rev8Imm, b), (brev8Imm, b')] =
      List.lookup imm' [(rev8Imm, b), (brev8Imm, b')] := by
  apply lookup_congr
  simp only [List.forall_mem_cons, List.not_mem_nil, false_imp_iff, implies_true, and_true]
  exact ⟨Bool.eq_iff_iff.mpr (by simpa using h.rev8), Bool.eq_iff_iff.mpr (by simpa using h.brev8)⟩

namespace OpTable

variable {funct3 funct7 : UInt8} {imm imm' : UInt16}

theorem imm_zbkb_congr (h : funct3 = 0b101 → funct7 = Funct7.rev → SameReversal imm imm') :
    zbkb.imm funct3 funct7 imm = zbkb.imm funct3 funct7 imm' := by
  simp only [zbkb]
  split
  case h_6 =>
    by_cases h7 : funct7 = Funct7.rev
    · rw [if_pos h7, if_pos h7]
      exact (h rfl h7).lookup_eq _ _
    · rw [if_neg h7, if_neg h7]
  all_goals rfl

end OpTable

/-- A reversal of bytes or bits, or an unassigned instruction of the same format. -/
def Instruction.IsReversal (w : Instruction) : Prop :=
  w.opcode = Opcode.imm.bits ∧ w.funct3 = 0b101 ∧ w.funct7 = Funct7.rev

instance (w : Instruction) : Decidable w.IsReversal :=
  inferInstanceAs (Decidable (_ ∧ _ ∧ _))

namespace Isa

open Instruction

variable {w w' : Instruction}

theorem decodeInstruction_congr (isa : Isa) (ho : w.opcode = w'.opcode) (h3 : w.funct3 = w'.funct3)
    (h7 : w.funct7 = w'.funct7)
    (hi : isa = zbkb → w.IsReversal → SameReversal w.immI w'.immI) :
    isa.decodeInstruction w = isa.decodeInstruction w' := by
  have ho' : Opcode.ofBits? (Fields.ofInstruction w).opcode =
      Opcode.ofBits? (Fields.ofInstruction w').opcode := congrArg Opcode.ofBits? ho
  have hw := Fields.truncate_ofInstruction w
  have hw' := Fields.truncate_ofInstruction w'
  refine OpTable.decode_congr ho' (by rw [hw, hw']; exact h3) fun o h => ?_
  rw [hw, hw']
  cases o with
  | reg => simp only [Opcode.aluOp?, Fields.ofInstruction, h3, h7]
  | imm =>
    have hc : w.opcode = Opcode.imm.bits := Opcode.ofBits?_opcode_eq_some_iff.mp h
    simp only [Opcode.aluOp?, Fields.ofInstruction, ← h3, ← h7]
    cases isa with
    | base => rfl
    | zbkb => exact OpTable.imm_zbkb_congr fun h3' h7' => hi rfl ⟨hc, h3', h7'⟩
  | _ => exact Opcode.aluOp?_congr (by decide) (by decide) h3

theorem decodeInstruction_eq_of_agreeOn (isa : Isa) (ho : AgreeOn 0 6 w w')
    (h3 : AgreeOn 12 14 w w') (h7 : AgreeOn 25 31 w w')
    (hi : isa = zbkb → w.IsReversal → SameReversal w.immI w'.immI) :
    isa.decodeInstruction w = isa.decodeInstruction w' :=
  decodeInstruction_congr isa (opcode_eq_iff.mpr ho) (funct3_eq_iff.mpr h3)
    (funct7_eq_iff.mpr h7) hi

theorem sameReversal_of_agreeOn (h : AgreeOn 20 31 w w') : SameReversal w.immI w'.immI := by
  rw [immI_eq_iff.mpr h]
  exact .refl _

/-- Registers are no part of what a bundle depends on. Outside the two ALU opcodes, the opcode and
the minor opcode decide; under these two, the function code as well. Only the extended variant looks
at the bits of the second source register, and only to tell the two reversals by their immediate. -/
theorem bundle_ignores_registers (ho : AgreeOn 0 6 w w') (h3 : AgreeOn 12 14 w w') :
    (w.opcode ≠ Opcode.reg.bits ∧ w.opcode ≠ Opcode.imm.bits →
      ∀ isa : Isa, isa.decodeInstruction w = isa.decodeInstruction w') ∧
    (w.opcode = Opcode.reg.bits ∨ w.opcode = Opcode.imm.bits → AgreeOn 25 31 w w' →
      base.decodeInstruction w = base.decodeInstruction w' ∧
        (¬ w.IsReversal ∨ AgreeOn 20 24 w w' →
          zbkb.decodeInstruction w = zbkb.decodeInstruction w')) ∧
    (AgreeOn 20 31 w w' → ∀ isa : Isa, isa.decodeInstruction w = isa.decodeInstruction w') ∧
    (AgreeOn 25 31 w w' → SameReversal w.immI w'.immI →
      ∀ isa : Isa, isa.decodeInstruction w = isa.decodeInstruction w') := by
  refine ⟨?_, fun _ h7 => ⟨?_, ?_⟩, fun hi isa => ?_, fun h7 hi isa => ?_⟩
  · rintro ⟨hr, hi⟩ isa
    exact decodeInstruction_congr_of_ne hr hi (opcode_eq_iff.mpr ho) (funct3_eq_iff.mpr h3)
  · exact decodeInstruction_eq_of_agreeOn base ho h3 h7 nofun
  · rintro (hn | h2)
    · exact decodeInstruction_eq_of_agreeOn zbkb ho h3 h7 fun _ hr => absurd hr hn
    · exact decodeInstruction_eq_of_agreeOn zbkb ho h3 h7 fun _ _ =>
        sameReversal_of_agreeOn (h2.append h7)
  · exact decodeInstruction_eq_of_agreeOn isa ho h3 (hi.mono (by decide) (by decide)) fun _ _ =>
      sameReversal_of_agreeOn hi
  · exact decodeInstruction_eq_of_agreeOn isa ho h3 h7 fun _ _ => hi

/-- Two branches, two additions and two reversals of bytes, each with registers of its own. A
reversal of bits differs from the latter in the bits of the second source register. -/
theorem bundle_ignores_registers_samples :
    let b : Instruction := 0x00208463
    let b' : Instruction := 0xFE5184E3
    let a : Instruction := 0x003100B3
    let a' : Instruction := 0x00628233
    let r : Instruction := 0x6980D093
    let r' : Instruction := 0x6981D113
    let v : Instruction := 0x6870D093
    (b.opcode ≠ Opcode.reg.bits ∧ b.opcode ≠ Opcode.imm.bits ∧
      ∀ isa : Isa, isa.decodeInstruction b = isa.decodeInstruction b') ∧
    (a.opcode = Opcode.reg.bits ∧ AgreeOn 25 31 a a' ∧ ¬ AgreeOn 20 24 a a' ∧
      base.decodeInstruction a = base.decodeInstruction a' ∧
      zbkb.decodeInstruction a = zbkb.decodeInstruction a') ∧
    (r.IsReversal ∧ AgreeOn 25 31 r r' ∧ AgreeOn 20 24 r r' ∧
      zbkb.decodeInstruction r = zbkb.decodeInstruction r') ∧
    AgreeOn 25 31 r v ∧ ¬ SameReversal r.immI v.immI ∧
      zbkb.decodeInstruction r ≠ zbkb.decodeInstruction v := by
  intro b b' a a' r r' v
  have hbo : AgreeOn 0 6 b b' := by decide
  have hao : AgreeOn 0 6 a a' := by decide
  have hro : AgreeOn 0 6 r r' := by decide
  obtain ⟨hb, -⟩ := bundle_ignores_registers hbo (by decide)
  obtain ⟨-, ha, -⟩ := bundle_ignores_registers hao (by decide)
  obtain ⟨-, hr, -⟩ := bundle_ignores_registers hro (by decide)
  have ha7 : AgreeOn 25 31 a a' := by decide
  have hr7 : AgreeOn 25 31 r r' := by decide
  have hr2 : AgreeOn 20 24 r r' := by decide
  obtain ⟨hab, haz⟩ := ha (.inl (by decide)) ha7
  obtain ⟨-, hrz⟩ := hr (.inr (by decide)) hr7
  refine ⟨⟨by decide, by decide, hb (by decide)⟩,
    ⟨by decide, ha7, by decide, hab, haz (.inl (by decide))⟩,
    ⟨by decide, hr7, hr2, hrz (.inr hr2)⟩, by decide, fun h => ?_, by decide⟩
  exact absurd (h.rev8.mp (by decide)) (by decide)

end Isa

end ElasticCore
