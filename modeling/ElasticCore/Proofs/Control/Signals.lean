import ElasticCore.Control.Decode
import ElasticCore.Proofs.Instruction.Fields

/-! # Signals of a bundle

A bundle is idle, or its opcode asserts the signals of one operation. What a single
signal says about the instruction follows by cases.
-/

namespace ElasticCore

theorem Opcode.ofBits?_truncate (f : Fields) :
    Opcode.ofBits? f.truncate.opcode = Opcode.ofBits? f.opcode := by
  simp [Opcode.ofBits?, Fields.truncate, UInt8.and_assoc]

theorem Opcode.ofBits?_opcode_eq_some_iff {w : Instruction} {o : Opcode} :
    ofBits? w.opcode = some o ↔ w.opcode = o.bits := by
  have hw : w.opcode &&& 0x7F = w.opcode :=
    congrArg Fields.opcode (Fields.truncate_ofInstruction w)
  rw [ofBits?_eq_some_iff, hw]

namespace OpTable

variable (t : OpTable) (f : Fields)

/-- Either the encoding is unassigned, or its opcode wraps an operation. -/
theorem decode_cases :
    ((Opcode.ofBits? f.opcode).bind (·.aluOp? t f.truncate) = none ∧
      t.decode f = .idle f.truncate.funct3) ∨
    ∃ o op, Opcode.ofBits? f.opcode = some o ∧ o.aluOp? t f.truncate = some op ∧
      t.decode f = { o.assert (.idle f.truncate.funct3) with aluOp := op } := by
  simp only [decode, Opcode.ofBits?_truncate]
  cases Opcode.ofBits? f.opcode with
  | none => exact Or.inl ⟨rfl, rfl⟩
  | some o =>
    cases hop : o.aluOp? t f.truncate with
    | none => exact Or.inl ⟨hop, by simp only [hop]⟩
    | some op => exact Or.inr ⟨o, op, rfl, hop, by simp only [hop]⟩

theorem aluOp_decode :
    (t.decode f).aluOp =
      ((Opcode.ofBits? f.opcode).bind (·.aluOp? t f.truncate)).getD .nop := by
  rcases t.decode_cases f with ⟨hn, hd⟩ | ⟨o, op, ho, hop, hd⟩
  · rw [hd, hn]
    rfl
  · rw [hd, ho, Option.bind_some, hop]
    rfl

theorem memRead_decode_iff :
    (t.decode f).memRead = true ↔ Opcode.ofBits? f.opcode = some .load := by
  rcases t.decode_cases f with ⟨hn, hd⟩ | ⟨o, op, ho, hop, hd⟩
  · rw [hd]
    refine ⟨fun h : false = true => absurd h (by decide), fun h => ?_⟩
    rw [h] at hn
    cases hn
  · rw [hd, ho, Option.some.injEq]
    cases o <;> simp [Opcode.assert, Bundle.idle]

end OpTable

theorem Isa.memRead_decodeInstruction_iff (isa : Isa) (w : Instruction) :
    (isa.decodeInstruction w).memRead = true ↔ w.opcode = Opcode.load.bits := by
  rw [decodeInstruction, decode, OpTable.memRead_decode_iff]
  exact Opcode.ofBits?_opcode_eq_some_iff

end ElasticCore
