import ElasticCore.Proofs.Control.Signals

/-! # The decode skeleton

Everything about a bundle but the choice of its operation is the same for all operation tables. An
opcode asserts its signals all together, around an operation, or none of them; so no table can
make a bundle contradict itself, and only the two ALU opcodes look at the table at all.
-/

namespace ElasticCore

namespace Bundle

variable {c : Bundle}

/-- What the signals of a bundle promise about each other, and about the minor opcode. -/
structure Consistent (c : Bundle) (funct3 : UInt8) : Prop where
  /-- Signals are asserted all together or not at all. -/
  idle_or : c = idle funct3 ∨ c.isIdle = false
  maskMode : c.maskMode = (idle funct3).maskMode
  memSignExt : c.memSignExt = (idle funct3).memSignExt
  branchInv : c.branchInv = (idle funct3).branchInv
  exclusive : [c.memRead, c.memWrite, c.jump, c.branch].count true ≤ 1
  regSource : c.regSource = .pc ↔ c.jump = true
  regWrite : c.regWrite = true ↔ c.isIdle = false ∧ c.memWrite = false ∧ c.branch = false
  aluPc : c.aluPc = true → c.aluImm = true

theorem signals_of_isIdle (h : c.isIdle = true) :
    c.regWrite = false ∧ c.memWrite = false ∧ c.branch = false :=
  have hc := eq_of_beq h
  ⟨congrArg Bundle.regWrite hc, congrArg Bundle.memWrite hc, congrArg Bundle.branch hc⟩

theorem consistent_idle (funct3 : UInt8) : (idle funct3).Consistent funct3 where
  idle_or := .inl rfl
  maskMode := rfl
  memSignExt := rfl
  branchInv := rfl
  exclusive := by simp [idle]
  regSource := by simp [idle]
  regWrite := by rw [isIdle_idle]; simp [idle]
  aluPc := by simp [idle]

end Bundle

namespace Opcode

variable {o : Opcode} {f f' : Fields} {t t' : OpTable}

/-- The bundle of an opcode around an operation; without one it is idle. -/
def bundle (o : Opcode) (funct3 : UInt8) : Option AluOp → Bundle
  | none => .idle funct3
  | some op => { o.assert (.idle funct3) with aluOp := op }

theorem isIdle_bundle_some (ho : o ≠ .system) (funct3 : UInt8) (op : AluOp) :
    (o.bundle funct3 (some op)).isIdle = false := by
  rw [← Bool.not_eq_true]
  intro h
  obtain ⟨hw, hm, hb⟩ := Bundle.signals_of_isIdle h
  cases o
  case system => exact ho rfl
  case store => cases hm
  case branch => cases hb
  all_goals cases hw

theorem consistent_bundle_some (ho : o ≠ .system) (funct3 : UInt8) (op : AluOp) :
    (o.bundle funct3 (some op)).Consistent funct3 := by
  have hi := isIdle_bundle_some ho funct3 op
  cases o
  case system => exact absurd rfl ho
  all_goals
    exact {
      idle_or := .inr hi
      maskMode := rfl
      memSignExt := rfl
      branchInv := rfl
      exclusive := by simp [bundle, assert, Bundle.idle]
      regSource := by simp [bundle, assert, Bundle.idle]
      regWrite := by rw [hi]; simp [bundle, assert, Bundle.idle]
      aluPc := by simp [bundle, assert, Bundle.idle] }

theorem aluOp?_congr (hr : o ≠ .reg) (hi : o ≠ .imm) (h3 : f.funct3 = f'.funct3) :
    o.aluOp? t f = o.aluOp? t' f' := by
  cases o
  case reg => exact absurd rfl hr
  case imm => exact absurd rfl hi
  case branch => rw [aluOp?, aluOp?, h3]
  all_goals rfl

end Opcode

namespace OpTable

variable {t t' : OpTable} {f f' : Fields} {o : Opcode}

theorem decode_eq_idle (h : Opcode.ofBits? f.opcode = none) :
    t.decode f = .idle f.truncate.funct3 := by
  simp only [decode, Opcode.ofBits?_truncate, h]

theorem decode_eq_bundle (h : Opcode.ofBits? f.opcode = some o) :
    t.decode f = o.bundle f.truncate.funct3 (o.aluOp? t f.truncate) := by
  simp only [decode, Opcode.ofBits?_truncate, h]
  cases o.aluOp? t f.truncate <;> rfl

theorem decode_congr (ho : Opcode.ofBits? f.opcode = Opcode.ofBits? f'.opcode)
    (h3 : f.truncate.funct3 = f'.truncate.funct3)
    (hop : ∀ o, Opcode.ofBits? f.opcode = some o →
      o.aluOp? t f.truncate = o.aluOp? t' f'.truncate) :
    t.decode f = t'.decode f' := by
  cases h : Opcode.ofBits? f.opcode with
  | none => rw [decode_eq_idle h, decode_eq_idle (ho ▸ h), h3]
  | some o => rw [decode_eq_bundle h, decode_eq_bundle (ho ▸ h), h3, hop o h]

theorem decode_congr_of_ne (hr : Opcode.ofBits? f.opcode ≠ some .reg)
    (hi : Opcode.ofBits? f.opcode ≠ some .imm)
    (ho : Opcode.ofBits? f.opcode = Opcode.ofBits? f'.opcode)
    (h3 : f.truncate.funct3 = f'.truncate.funct3) : t.decode f = t'.decode f' := by
  refine decode_congr ho h3 fun o h => Opcode.aluOp?_congr ?_ ?_ h3
  · rintro rfl
    exact hr h
  · rintro rfl
    exact hi h

theorem consistent_decode (t : OpTable) (f : Fields) :
    (t.decode f).Consistent f.truncate.funct3 := by
  obtain ⟨-, hd⟩ | ⟨o, op, -, hop, hd⟩ := t.decode_cases f
  · rw [hd]
    exact Bundle.consistent_idle _
  · rw [hd]
    refine Opcode.consistent_bundle_some ?_ _ op
    rintro rfl
    cases hop

/-- Whatever operations a table assigns, a bundle depends on the reduced fields only, asserts all
signals of its opcode or none, and does not contradict itself. The table, the function code and
the immediate matter under the two ALU opcodes only. -/
theorem decode_all_or_nothing (t : OpTable) (f : Fields) :
    t.decode f.reduce = t.decode f ∧
      (t.decode f).Consistent (f.funct3 % 8) ∧
      (f.opcode % 128 ≠ Opcode.reg.bits → f.opcode % 128 ≠ Opcode.imm.bits →
        ∀ (t' : OpTable) (funct7 : UInt8) (imm : UInt16),
          t'.decode { f with funct7, imm } = t.decode f) := by
  have hf := f.reduce_eq_truncate
  refine ⟨by rw [hf, decode_truncate], ?_, fun hr hi t' funct7 imm => ?_⟩
  · rw [show f.funct3 % 8 = f.truncate.funct3 from congrArg Fields.funct3 hf]
    exact t.consistent_decode f
  · rw [show f.opcode % 128 = f.opcode &&& 0x7F from congrArg Fields.opcode hf] at hr hi
    exact decode_congr_of_ne (mt Opcode.ofBits?_eq_some_iff.mp hr)
      (mt Opcode.ofBits?_eq_some_iff.mp hi) rfl rfl

/-- A table that assigns no operation but the one that does nothing, which asserts the signals of
its opcode all the same, and a branch; the fields of both are too wide. -/
theorem decode_all_or_nothing_nop :
    let t : OpTable :=
      { reg := fun funct3 funct7 => if funct3 = 2 ∧ funct7 = 5 then some .nop else none
        imm := fun _ _ _ => none }
    let f : Fields := { opcode := 0xB3, funct3 := 0xFA, funct7 := 0x85, imm := 0xFFFF }
    let branch : Fields := { opcode := 0xE3, funct3 := 0xFD, funct7 := 0xFF, imm := 0xFFFF }
    (t.decode f.reduce = t.decode f ∧ (t.decode f).Consistent 2 ∧
      (t.decode f).regWrite = true ∧ (t.decode f).isIdle = false ∧
      (t.decode { f with funct7 := 0 }).isIdle = true) ∧
    (branch.opcode % 128 ≠ Opcode.reg.bits ∧ branch.opcode % 128 ≠ Opcode.imm.bits) ∧
      t.decode branch.reduce = t.decode branch ∧ (t.decode branch).Consistent 5 ∧
      ∀ (t' : OpTable) (funct7 : UInt8) (imm : UInt16),
        t'.decode { branch with funct7, imm } = t.decode branch := by
  intro t f branch
  have hr : branch.opcode % 128 ≠ Opcode.reg.bits := by decide
  have hi : branch.opcode % 128 ≠ Opcode.imm.bits := by decide
  have h2 : f.funct3 % 8 = 2 := by decide
  have h5 : branch.funct3 % 8 = 5 := by decide
  obtain ⟨hd, hc, -⟩ := decode_all_or_nothing t f
  obtain ⟨hd', hc', hp⟩ := decode_all_or_nothing t branch
  rw [h2] at hc
  rw [h5] at hc'
  have hw : (t.decode f).regWrite = true := by decide
  exact ⟨⟨hd, hc, hw, (hc.regWrite.mp hw).1, by decide⟩, ⟨hr, hi⟩, hd', hc', hp hr hi⟩

end OpTable

/-! ## Raw instructions -/

namespace Isa

variable {w w' : Instruction} {o : Opcode} {isa isa' : Isa}

theorem decodeInstruction_eq_bundle (isa : Isa) (ho : w.opcode = o.bits) :
    isa.decodeInstruction w = o.bundle w.funct3 (o.aluOp? isa.table (.ofInstruction w)) := by
  have h : Opcode.ofBits? (Fields.ofInstruction w).opcode = some o :=
    Opcode.ofBits?_opcode_eq_some_iff.mpr ho
  rw [decodeInstruction, decode, OpTable.decode_eq_bundle h, Fields.truncate_ofInstruction]
  rfl

theorem decodeInstruction_congr_of_ne (hr : w.opcode ≠ Opcode.reg.bits)
    (hi : w.opcode ≠ Opcode.imm.bits) (ho : w.opcode = w'.opcode) (h3 : w.funct3 = w'.funct3) :
    isa.decodeInstruction w = isa'.decodeInstruction w' := by
  refine OpTable.decode_congr_of_ne (mt Opcode.ofBits?_opcode_eq_some_iff.mp hr)
    (mt Opcode.ofBits?_opcode_eq_some_iff.mp hi) (congrArg Opcode.ofBits? ho) ?_
  rw [Fields.truncate_ofInstruction, Fields.truncate_ofInstruction]
  exact h3

end Isa

end ElasticCore
