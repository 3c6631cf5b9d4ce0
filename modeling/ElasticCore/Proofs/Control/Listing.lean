import Mathlib.Algebra.Group.Nat.Defs
import ElasticCore.Arithmetic
import ElasticCore.Proofs.Control.Signals

/-! # The listed encodings

The instruction set as it is listed: a row of signals for each opcode, and the operations
of each variant by function code and immediate, all as data over numbers. Whatever the
listing assigns nothing to has every signal at rest. A decoder gives the bundle that the
listing prescribes, and no other, once every field is cut to its width.
-/

namespace ElasticCore

structure Encoding where
  opcode : Nat
  funct3 : Nat
  funct7 : Nat
  imm : Nat

/-- An operation of a table, under the codes that select it; an absent code selects it
whatever the instruction holds there. -/
structure OpRow where
  funct3 : Nat
  funct7 : Option Nat := none
  imm : Option Nat := none
  op : AluOp

def OpRow.Accepts (r : OpRow) (e : Encoding) : Prop :=
  e.funct3 = r.funct3 ∧ (∀ k ∈ r.funct7, e.funct7 = k) ∧ ∀ k ∈ r.imm, e.imm = k

namespace Isa

def regRows : Isa → List OpRow
  | base => [
      { funct3 := 0b000, funct7 := some 0x00, op := .add },
      { funct3 := 0b000, funct7 := some 0x20, op := .sub },
      { funct3 := 0b001, funct7 := some 0x00, op := .sll },
      { funct3 := 0b001, funct7 := some 0x05, op := .clmul },
      { funct3 := 0b010, op := .slt },
      { funct3 := 0b011, funct7 := some 0x00, op := .sltu },
      { funct3 := 0b011, funct7 := some 0x05, op := .clmulh },
      { funct3 := 0b100, op := .xor },
      { funct3 := 0b101, funct7 := some 0x00, op := .srl },
      { funct3 := 0b101, funct7 := some 0x20, op := .sra },
      { funct3 := 0b110, op := .or },
      { funct3 := 0b111, op := .and }]
  | zbkb => [
      { funct3 := 0b000, funct7 := some 0x00, op := .add },
      { funct3 := 0b000, funct7 := some 0x20, op := .sub },
      { funct3 := 0b001, funct7 := some 0x00, op := .sll },
      { funct3 := 0b001, funct7 := some 0x30, op := .rol },
      { funct3 := 0b010, op := .slt },
      { funct3 := 0b011, op := .sltu },
      { funct3 := 0b100, funct7 := some 0x00, op := .xor },
      { funct3 := 0b100, funct7 := some 0x04, op := .pack },
      { funct3 := 0b100, funct7 := some 0x20, op := .xnor },
      { funct3 := 0b101, funct7 := some 0x00, op := .srl },
      { funct3 := 0b101, funct7 := some 0x20, op := .sra },
      { funct3 := 0b101, funct7 := some 0x30, op := .ror },
      { funct3 := 0b110, funct7 := some 0x00, op := .or },
      { funct3 := 0b110, funct7 := some 0x20, op := .orn },
      { funct3 := 0b111, funct7 := some 0x00, op := .and },
      { funct3 := 0b111, funct7 := some 0x04, op := .packh },
      { funct3 := 0b111, funct7 := some 0x20, op := .andn }]

def immRows : Isa → List OpRow
  | base => [
      { funct3 := 0b000, op := .add },
      { funct3 := 0b001, funct7 := some 0x00, op := .sll },
      { funct3 := 0b010, op := .slt },
      { funct3 := 0b011, op := .sltu },
      { funct3 := 0b100, op := .xor },
      { funct3 := 0b101, funct7 := some 0x00, op := .srl },
      { funct3 := 0b101, funct7 := some 0x20, op := .sra },
      { funct3 := 0b110, op := .or },
      { funct3 := 0b111, op := .and }]
  | zbkb => [
      { funct3 := 0b000, op := .add },
      { funct3 := 0b001, funct7 := some 0x00, op := .sll },
      { funct3 := 0b001, funct7 := some 0x04, op := .zip },
      { funct3 := 0b010, op := .slt },
      { funct3 := 0b011, op := .sltu },
      { funct3 := 0b100, op := .xor },
      { funct3 := 0b101, funct7 := some 0x00, op := .srl },
      { funct3 := 0b101, funct7 := some 0x04, op := .unzip },
      { funct3 := 0b101, funct7 := some 0x20, op := .sra },
      { funct3 := 0b101, funct7 := some 0x30, op := .ror },
      { funct3 := 0b101, funct7 := some 0x34, imm := some 0x698, op := .rev8 },
      { funct3 := 0b101, funct7 := some 0x34, imm := some 0x687, op := .revb },
      { funct3 := 0b110, op := .or },
      { funct3 := 0b111, op := .and }]

end Isa

/-- The listed comparisons of branches, by the upper two bits of `funct3`. -/
def branchRows : List (Nat × AluOp) := [(0, .xor), (2, .slt), (3, .sltu)]

inductive OpSource
  | regTable
  | immTable
  | branchTable
  | always (op : AluOp)
  /-- Left open. -/
  | unlisted

def OpSource.Selects (isa : Isa) (e : Encoding) (op : AluOp) : OpSource → Prop
  | regTable => ∃ r ∈ isa.regRows, r.Accepts e ∧ op = r.op
  | immTable => ∃ r ∈ isa.immRows, r.Accepts e ∧ op = r.op
  | branchTable => (e.funct3 / 2, op) ∈ branchRows
  | always op' => op = op'
  | unlisted => op = .nop

/-- The signals of an opcode. Those left open are `none`. -/
structure SignalRow where
  opcode : Nat
  immFormat : ImmFormat
  jump : Bool := false
  branch : Bool := false
  aluImm : Option Bool := some false
  aluPc : Option Bool := some false
  regWrite : Bool := false
  regSource : Option WriteBack := none
  memRead : Bool := false
  memWrite : Bool := false
  target : Option JumpTarget := none
  source : OpSource

def signalRows : List SignalRow := [
  -- OP
  { opcode := 0b0110011, immFormat := .r, regWrite := true, regSource := some .alu,
    source := .regTable },
  -- OP-IMM
  { opcode := 0b0010011, immFormat := .i, aluImm := some true, regWrite := true,
    regSource := some .alu, source := .immTable },
  -- LOAD
  { opcode := 0b0000011, immFormat := .i, aluImm := some true, regWrite := true,
    regSource := some .alu, memRead := true, source := .always .add },
  -- STORE
  { opcode := 0b0100011, immFormat := .s, aluImm := some true, memWrite := true,
    source := .always .add },
  -- BRANCH
  { opcode := 0b1100011, immFormat := .b, branch := true, source := .branchTable },
  -- LUI
  { opcode := 0b0110111, immFormat := .u, aluImm := some true, regWrite := true,
    regSource := some .alu, source := .always .imm },
  -- AUIPC
  { opcode := 0b0010111, immFormat := .u, aluImm := some true, aluPc := some true,
    regWrite := true, regSource := some .alu, source := .always .add },
  -- JAL
  { opcode := 0b1101111, immFormat := .j, jump := true, aluImm := none, aluPc := none,
    regWrite := true, regSource := some .pc, target := some .imm, source := .unlisted },
  -- JALR
  { opcode := 0b1100111, immFormat := .i, jump := true, aluImm := some true,
    regWrite := true, regSource := some .pc, target := some .alu, source := .always .add }]

namespace Bundle

/-- Every signal at rest but those that `funct3` alone decides. -/
def atRest (funct3 : Nat) : Bundle where
  immFormat := .r
  jump := false
  target := .imm
  branch := false
  branchInv := funct3.testBit 0 ^^ funct3.testBit 2
  regWrite := false
  regSource := .alu
  memWrite := false
  memRead := false
  aluImm := false
  aluPc := false
  aluOp := .nop
  maskMode := .ofNat (funct3 % 2 ^ 2)
  memSignExt := !funct3.testBit 2

end Bundle

/-- The bundle of a row: its operation, its signals, and the rest where it leaves one open. -/
def SignalRow.bundle (r : SignalRow) (funct3 : Nat) (op : AluOp) : Bundle :=
  let rest := Bundle.atRest funct3
  { rest with
    immFormat := r.immFormat
    jump := r.jump
    branch := r.branch
    aluImm := r.aluImm.getD rest.aluImm
    aluPc := r.aluPc.getD rest.aluPc
    regWrite := r.regWrite
    regSource := r.regSource.getD rest.regSource
    memRead := r.memRead
    memWrite := r.memWrite
    target := r.target.getD rest.target
    aluOp := op }

/-- The listing assigns a row and an operation to an instruction. -/
structure Encoding.Assigned (e : Encoding) (isa : Isa) (r : SignalRow) (op : AluOp) : Prop where
  mem : r ∈ signalRows
  opcode : e.opcode = r.opcode
  selects : r.source.Selects isa e op

/-- The bundles that the listing prescribes for an instruction. -/
inductive Encoding.Prescribes (e : Encoding) (isa : Isa) : Bundle → Prop
  | assigned {r op} (h : e.Assigned isa r op) : Prescribes e isa (r.bundle e.funct3 op)
  | unassigned (h : ∀ r op, ¬ e.Assigned isa r op) : Prescribes e isa (.atRest e.funct3)

/-! ## Tables -/

theorem lookup_eq_some_iff_of_nodup {α β : Type} [BEq α] [LawfulBEq α] {rows : List (α × β)}
    (hn : (rows.map Prod.fst).Nodup) {k : α} {v : β} :
    rows.lookup k = some v ↔ (k, v) ∈ rows := by
  induction rows with
  | nil => simp
  | cons row rows ih =>
    obtain ⟨k', v'⟩ := row
    rw [List.map_cons, List.nodup_cons] at hn
    by_cases hk : k = k'
    · subst hk
      have hv : (k, v) ∉ rows := fun h => hn.1 (List.mem_map.mpr ⟨(k, v), h, rfl⟩)
      simp [hv, eq_comm]
    · simp [List.lookup_cons, beq_false_of_ne hk, hk, ih hn.2]

namespace Fields

def encoding (f : Fields) : Encoding where
  opcode := f.opcode.toNat % 2 ^ 7
  funct3 := f.funct3.toNat % 2 ^ 3
  funct7 := f.funct7.toNat % 2 ^ 7
  imm := f.imm.toNat % 2 ^ 12

theorem encoding_eq_truncate (f : Fields) :
    f.encoding = ⟨f.truncate.opcode.toNat, f.truncate.funct3.toNat, f.truncate.funct7.toNat,
      f.truncate.imm.toNat⟩ := by
  rw [← reduce_eq_truncate]
  simp only [encoding, reduce, UInt8.toNat_mod, UInt16.toNat_mod]
  rfl

end Fields

theorem exists_accepts_iff {rows : List OpRow} {e : Encoding} {op : AluOp} :
    (∃ r ∈ rows, r.Accepts e ∧ op = r.op) ↔
      ∃ r ∈ rows.filter (·.funct3 == e.funct3),
        (∀ k ∈ r.funct7, e.funct7 = k) ∧ (∀ k ∈ r.imm, e.imm = k) ∧ op = r.op := by
  constructor
  · rintro ⟨r, hr, ⟨h3, h7, hi⟩, ho⟩
    exact ⟨r, List.mem_filter.mpr ⟨hr, beq_of_eq h3.symm⟩, h7, hi, ho⟩
  · rintro ⟨r, hr, h7, hi, ho⟩
    obtain ⟨hr, h3⟩ := List.mem_filter.mp hr
    exact ⟨r, hr, ⟨(eq_of_beq h3).symm, h7, hi⟩, ho⟩

namespace Isa

variable {isa : Isa} {f : Fields} {op : AluOp}

theorem reg_eq_some_iff :
    isa.table.reg f.truncate.funct3 f.truncate.funct7 = some op ↔
      OpSource.regTable.Selects isa f.encoding op := by
  rw [f.encoding_eq_truncate, OpSource.Selects, exists_accepts_iff]
  cases isa
  all_goals
    simp only [table, OpTable.base, OpTable.zbkb, regRows]
    obtain h | h | h | h | h | h | h | h := f.funct3_truncate_cases
  all_goals
    rw [h]
    simp [List.filter, lookup_eq_some_iff_of_nodup, Funct7.base, Funct7.alt, Funct7.clmul,
      Funct7.rotate, Funct7.pack, ← UInt8.toNat_inj, eq_comm (b := op)]

theorem imm_eq_some_iff :
    isa.table.imm f.truncate.funct3 f.truncate.funct7 f.truncate.imm = some op ↔
      OpSource.immTable.Selects isa f.encoding op := by
  rw [f.encoding_eq_truncate, OpSource.Selects, exists_accepts_iff]
  cases isa
  all_goals
    simp only [table, OpTable.base, OpTable.zbkb, immRows]
    obtain h | h | h | h | h | h | h | h := f.funct3_truncate_cases
  -- the reversals are told apart by the immediate, whatever else the row holds
  case zbkb.inr.inr.inr.inr.inr.inl =>
    rw [h]
    by_cases h7 : f.truncate.funct7 = Funct7.rev
    · simp [List.filter, h7, lookup_eq_some_iff_of_nodup, Funct7.rev, rev8Imm, brev8Imm,
        ← UInt16.toNat_inj]
    · have h7' : f.truncate.funct7.toNat ≠ 0x34 := fun e => h7 (UInt8.toNat_inj.mp e)
      simp [List.filter, h7, h7', lookup_eq_some_iff_of_nodup, Funct7.base, Funct7.alt,
        Funct7.rotate, Funct7.pack, ← UInt8.toNat_inj]
  all_goals
    rw [h]
    simp [List.filter, lookup_eq_some_iff_of_nodup, Funct7.base, Funct7.alt, Funct7.pack,
      ← UInt8.toNat_inj, eq_comm (b := op)]

theorem branchOp?_eq_some_iff :
    branchOp? f.truncate.funct3 = some op ↔ OpSource.branchTable.Selects isa f.encoding op := by
  rw [f.encoding_eq_truncate]
  rw [branchOp?, lookup_eq_some_iff_of_nodup (by decide)]
  simp [OpSource.Selects, branchRows, ← UInt8.toNat_inj, Nat.shiftRight_eq_div_pow]

end Isa

theorem Bundle.idle_truncate (f : Fields) :
    Bundle.idle f.truncate.funct3 = .atRest f.encoding.funct3 := by
  rw [f.encoding_eq_truncate]
  change Bundle.idle f.truncate.funct3 = .atRest f.truncate.funct3.toNat
  obtain h | h | h | h | h | h | h | h := f.funct3_truncate_cases
  all_goals rw [h]; decide

/-! ## Rows -/

namespace Opcode

def row? (o : Opcode) : Option SignalRow := signalRows.find? (·.opcode == o.bits.toNat)

theorem row?_eq_some_iff {o : Opcode} {r : SignalRow} :
    o.row? = some r ↔ r ∈ signalRows ∧ o.bits.toNat = r.opcode := by
  constructor
  · intro h
    have ho := List.find?_some (show signalRows.find? (·.opcode == o.bits.toNat) = some r from h)
    exact ⟨List.mem_of_find?_eq_some h, (eq_of_beq ho).symm⟩
  · rintro ⟨hr, ho⟩
    rw [row?, ho]
    revert r
    simp [signalRows]

theorem exists_row?_of_mem {r : SignalRow} (hr : r ∈ signalRows) :
    ∃ o : Opcode, o.row? = some r := by
  simp only [signalRows, List.mem_cons, List.not_mem_nil, or_false] at hr
  rcases hr with rfl | rfl | rfl | rfl | rfl | rfl | rfl | rfl | rfl
  · exact ⟨reg, rfl⟩
  · exact ⟨imm, rfl⟩
  · exact ⟨load, rfl⟩
  · exact ⟨store, rfl⟩
  · exact ⟨branch, rfl⟩
  · exact ⟨lui, rfl⟩
  · exact ⟨auipc, rfl⟩
  · exact ⟨jal, rfl⟩
  · exact ⟨jalr, rfl⟩

variable {isa : Isa} {f : Fields} {op : AluOp} {o : Opcode} {r : SignalRow}

theorem ofBits?_eq_some_iff_encoding :
    ofBits? f.opcode = some o ↔ f.encoding.opcode = o.bits.toNat := by
  rw [ofBits?_eq_some_iff, ← UInt8.toNat_inj, f.encoding_eq_truncate]
  rfl

theorem exists_row?_of_aluOp? {t : OpTable} (h : o.aluOp? t f = some op) :
    ∃ r, o.row? = some r := by
  cases o
  case system => cases h
  all_goals exact ⟨_, rfl⟩

theorem aluOp?_eq_some_iff (h : o.row? = some r) :
    o.aluOp? isa.table f.truncate = some op ↔ r.source.Selects isa f.encoding op := by
  cases o <;> cases h
  case reg => exact Isa.reg_eq_some_iff
  case imm => exact Isa.imm_eq_some_iff
  case branch => exact Isa.branchOp?_eq_some_iff
  all_goals simp only [aluOp?, OpSource.Selects, Option.some.injEq, eq_comm]

theorem assert_eq_bundle (h : o.row? = some r) :
    { o.assert (.idle f.truncate.funct3) with aluOp := op } = r.bundle f.encoding.funct3 op := by
  rw [SignalRow.bundle, Bundle.idle_truncate]
  cases o <;> cases h <;> rfl

end Opcode

/-! ## Decoders -/

namespace Isa

variable {isa : Isa} {f : Fields} {op : AluOp} {r : SignalRow}

theorem assigned_iff :
    f.encoding.Assigned isa r op ↔
      ∃ o, Opcode.ofBits? f.opcode = some o ∧ o.row? = some r ∧
        o.aluOp? isa.table f.truncate = some op := by
  constructor
  · rintro ⟨hm, he, hs⟩
    obtain ⟨o, ho⟩ := Opcode.exists_row?_of_mem hm
    have hb : f.encoding.opcode = o.bits.toNat := he.trans (Opcode.row?_eq_some_iff.mp ho).2.symm
    exact ⟨o, Opcode.ofBits?_eq_some_iff_encoding.mpr hb, ho,
      (Opcode.aluOp?_eq_some_iff ho).mpr hs⟩
  · rintro ⟨o, hb, ho, hop⟩
    obtain ⟨hm, he⟩ := Opcode.row?_eq_some_iff.mp ho
    exact ⟨hm, (Opcode.ofBits?_eq_some_iff_encoding.mp hb).trans he,
      (Opcode.aluOp?_eq_some_iff ho).mp hop⟩

theorem decode_of_assigned (h : f.encoding.Assigned isa r op) :
    isa.decode f = r.bundle f.encoding.funct3 op := by
  obtain ⟨o, ho, hr, hop⟩ := assigned_iff.mp h
  simp only [decode, OpTable.decode, Opcode.ofBits?_truncate, ho, hop]
  exact Opcode.assert_eq_bundle hr

theorem decode_of_unassigned (h : ∀ r op, ¬ f.encoding.Assigned isa r op) :
    isa.decode f = .atRest f.encoding.funct3 := by
  rw [← Bundle.idle_truncate]
  obtain ⟨-, hd⟩ | ⟨o, op, ho, hop, -⟩ := isa.table.decode_cases f
  · exact hd
  · obtain ⟨r, hr⟩ := Opcode.exists_row?_of_aluOp? hop
    exact absurd (assigned_iff.mpr ⟨o, ho, hr, hop⟩) (h r op)

theorem decode_eq_iff {b : Bundle} : isa.decode f = b ↔ f.encoding.Prescribes isa b := by
  constructor
  · rintro rfl
    by_cases h : ∃ r op, f.encoding.Assigned isa r op
    · obtain ⟨r, op, h⟩ := h
      rw [decode_of_assigned h]
      exact .assigned h
    · simp only [not_exists] at h
      rw [decode_of_unassigned h]
      exact .unassigned h
  · rintro (h | h)
    · exact decode_of_assigned h
    · exact decode_of_unassigned h

end Isa

theorem mod_of_and_ones (n k m : Nat) (h : k ≤ m) :
    (n &&& (2 ^ k - 1)) % 2 ^ m % 2 ^ k = n % 2 ^ k := by
  rw [Nat.mod_mod_of_dvd _ (Nat.pow_dvd_pow 2 h), Nat.and_two_pow_sub_one_eq_mod, Nat.mod_mod]

theorem Fields.encoding_ofInstruction (w : Instruction) :
    (ofInstruction w).encoding =
      ⟨w.toNat % 2 ^ 7, w.toNat / 2 ^ 12 % 2 ^ 3, w.toNat / 2 ^ 25 % 2 ^ 7,
        w.toNat / 2 ^ 20 % 2 ^ 12⟩ := by
  simp only [encoding, ofInstruction, Instruction.opcode, Instruction.funct3, Instruction.funct7,
    Instruction.immI, UInt32.toNat_toUInt8, UInt32.toNat_toUInt16, UInt32.toNat_and,
    UInt32.toNat_shiftRight]
  congr 1
  · exact mod_of_and_ones w.toNat 7 8 (by decide)
  · rw [← Nat.shiftRight_eq_div_pow]
    exact mod_of_and_ones (w.toNat >>> 12) 3 8 (by decide)
  · rw [← Nat.shiftRight_eq_div_pow]
    exact mod_of_and_ones (w.toNat >>> 25) 7 8 (by decide)
  · rw [← Nat.shiftRight_eq_div_pow]
    exact mod_of_and_ones (w.toNat >>> 20) 12 16 (by decide)

/-- Both decoders implement the listing. Fields wider than their codes are cut to the low
7, 3, 7 and 12 bits, and a raw instruction is decoded by the fields it holds. -/
theorem Isa.decode_implements_listing (isa : Isa) (b : Bundle) :
    (∀ f : Fields,
      isa.decode f = b ↔
        Encoding.Prescribes
          ⟨f.opcode.toNat % 2 ^ 7, f.funct3.toNat % 2 ^ 3, f.funct7.toNat % 2 ^ 7,
            f.imm.toNat % 2 ^ 12⟩ isa b) ∧
    ∀ w : Instruction,
      isa.decodeInstruction w = b ↔
        Encoding.Prescribes
          ⟨w.toNat % 2 ^ 7, w.toNat / 2 ^ 12 % 2 ^ 3, w.toNat / 2 ^ 25 % 2 ^ 7,
            w.toNat / 2 ^ 20 % 2 ^ 12⟩ isa b := by
  refine ⟨fun f => decode_eq_iff, fun w => ?_⟩
  rw [decodeInstruction, decode_eq_iff, Fields.encoding_ofInstruction]

end ElasticCore
