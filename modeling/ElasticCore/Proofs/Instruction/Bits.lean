import ElasticCore.Arithmetic
import ElasticCore.Instruction.Fields

/-! # Bits of an instruction

A field of an instruction is the number that its bits between two positions form. Instructions that
agree on these bits have the same field, whatever their other bits are.
-/

namespace ElasticCore.Instruction

variable {w w' : Instruction} {lo mid hi : Nat}

/-- The number that the bits from `lo` to `hi` form. -/
def bits (w : Instruction) (lo hi : Nat) : Nat := w.toNat / 2 ^ lo % 2 ^ (hi + 1 - lo)

theorem bits_lt (w : Instruction) (lo hi : Nat) : w.bits lo hi < 2 ^ (hi + 1 - lo) :=
  Nat.mod_lt _ (Nat.two_pow_pos _)

theorem bits_mod_two_pow (w : Instruction) {n : Nat} (h : hi + 1 - lo ≤ n) :
    w.bits lo hi % 2 ^ n = w.bits lo hi :=
  Nat.mod_eq_of_lt (Nat.lt_of_lt_of_le (w.bits_lt lo hi) (Nat.pow_le_pow_right (by decide) h))

theorem bits_all (w : Instruction) : w.bits 0 31 = w.toNat := by
  rw [bits, Nat.pow_zero, Nat.div_one]
  exact Nat.mod_eq_of_lt w.toNat_lt

theorem bits_eq_add (w : Instruction) (lo mid hi : Nat) (hl : lo ≤ mid + 1) (hh : mid ≤ hi) :
    w.bits lo hi = w.bits lo mid + 2 ^ (mid + 1 - lo) * w.bits (mid + 1) hi := by
  have hn : hi + 1 - lo = (mid + 1 - lo) + (hi + 1 - (mid + 1)) := by omega
  have hp : lo + (mid + 1 - lo) = mid + 1 := by omega
  rw [bits, hn, Nat.pow_add, Nat.mod_mul, Nat.div_div_eq_div_mul, ← Nat.pow_add, hp, bits, bits]

theorem testBit_bits (w : Instruction) (lo hi i : Nat) :
    (w.bits lo hi).testBit i = (decide (i < hi + 1 - lo) && w.toNat.testBit (i + lo)) := by
  rw [bits, Nat.testBit_mod_two_pow, Nat.testBit_div_two_pow]

def AgreeOn (lo hi : Nat) (w w' : Instruction) : Prop :=
  ∀ i, lo ≤ i → i ≤ hi → w.toNat.testBit i = w'.toNat.testBit i

theorem agreeOn_iff : AgreeOn lo hi w w' ↔ w.bits lo hi = w'.bits lo hi := by
  constructor
  · intro h
    apply Nat.eq_of_testBit_eq
    intro i
    rw [testBit_bits, testBit_bits]
    by_cases hi' : i < hi + 1 - lo
    · rw [h (i + lo) (by omega) (by omega)]
    · rw [decide_eq_false hi', Bool.false_and, Bool.false_and]
  · intro h i hl hh
    have hb := congrArg (·.testBit (i - lo)) h
    rw [testBit_bits, testBit_bits, Nat.sub_add_cancel hl, decide_eq_true (by omega),
      Bool.true_and, Bool.true_and] at hb
    exact hb

instance : Decidable (AgreeOn lo hi w w') := decidable_of_iff _ agreeOn_iff.symm

theorem AgreeOn.append (h : AgreeOn lo mid w w') (h' : AgreeOn (mid + 1) hi w w') :
    AgreeOn lo hi w w' := by
  intro i hl hh
  rcases Nat.lt_or_ge mid i with hm | hm
  · exact h' i hm hh
  · exact h i hl hm

theorem AgreeOn.mono (h : AgreeOn lo hi w w') {lo' hi' : Nat} (hl : lo ≤ lo') (hh : hi' ≤ hi) :
    AgreeOn lo' hi' w w' :=
  fun i hl' hh' => h i (Nat.le_trans hl hl') (Nat.le_trans hh' hh)

/-- A shift and a mask select the bits between two positions. -/
theorem toNat_shiftRight_and (w : Instruction) (hi : Nat) {n mask : UInt32} (hn : n.toNat < 32)
    (hm : mask.toNat = 2 ^ (hi + 1 - n.toNat) - 1) :
    ((w >>> n) &&& mask).toNat = w.bits n.toNat hi := by
  rw [UInt32.toNat_and, hm, Nat.and_two_pow_sub_one_eq_mod, UInt32.toNat_shiftRight,
    Nat.mod_eq_of_lt hn, Nat.shiftRight_eq_div_pow, bits]

theorem toNat_toUInt8_shiftRight_and (w : Instruction) (hi : Nat) {n mask : UInt32}
    (hn : n.toNat < 32) (hm : mask.toNat = 2 ^ (hi + 1 - n.toNat) - 1)
    (h8 : hi + 1 - n.toNat ≤ 8) : ((w >>> n) &&& mask).toUInt8.toNat = w.bits n.toNat hi := by
  rw [UInt32.toNat_toUInt8, toNat_shiftRight_and w hi hn hm, bits_mod_two_pow w h8]

theorem toNat_opcode (w : Instruction) : w.opcode.toNat = w.bits 0 6 := by
  have h : ((w >>> 0) &&& opcodeMask).toUInt8.toNat = w.bits 0 6 :=
    toNat_toUInt8_shiftRight_and w 6 (by decide) rfl (by decide)
  rw [UInt32.shiftRight_zero] at h
  exact h

theorem toNat_rd (w : Instruction) : w.rd.toNat = w.bits 7 11 :=
  toNat_toUInt8_shiftRight_and w 11 (by decide) rfl (by decide)

theorem toNat_funct3 (w : Instruction) : w.funct3.toNat = w.bits 12 14 :=
  toNat_toUInt8_shiftRight_and w 14 (by decide) rfl (by decide)

theorem toNat_rs1 (w : Instruction) : w.rs1.toNat = w.bits 15 19 :=
  toNat_toUInt8_shiftRight_and w 19 (by decide) rfl (by decide)

theorem toNat_rs2 (w : Instruction) : w.rs2.toNat = w.bits 20 24 :=
  toNat_toUInt8_shiftRight_and w 24 (by decide) rfl (by decide)

theorem toNat_funct7 (w : Instruction) : w.funct7.toNat = w.bits 25 31 :=
  toNat_toUInt8_shiftRight_and w 31 (by decide) rfl (by decide)

theorem toNat_immI_eq_bits (w : Instruction) : w.immI.toNat = w.bits 20 31 := by
  rw [immI, UInt32.toNat_toUInt16, toNat_shiftRight_and w 31 (by decide) rfl]
  exact bits_mod_two_pow w (by decide)

theorem opcode_eq_iff : w.opcode = w'.opcode ↔ AgreeOn 0 6 w w' := by
  rw [agreeOn_iff, ← toNat_opcode, ← toNat_opcode, UInt8.toNat_inj]

theorem funct3_eq_iff : w.funct3 = w'.funct3 ↔ AgreeOn 12 14 w w' := by
  rw [agreeOn_iff, ← toNat_funct3, ← toNat_funct3, UInt8.toNat_inj]

theorem funct7_eq_iff : w.funct7 = w'.funct7 ↔ AgreeOn 25 31 w w' := by
  rw [agreeOn_iff, ← toNat_funct7, ← toNat_funct7, UInt8.toNat_inj]

theorem immI_eq_iff : w.immI = w'.immI ↔ AgreeOn 20 31 w w' := by
  rw [agreeOn_iff, ← toNat_immI_eq_bits, ← toNat_immI_eq_bits, UInt16.toNat_inj]

end ElasticCore.Instruction
