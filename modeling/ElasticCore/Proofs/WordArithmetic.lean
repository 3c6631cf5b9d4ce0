import Mathlib.Algebra.Group.Int.Defs
import Mathlib.Algebra.Group.Nat.Defs
import ElasticCore.Instruction.Fields
import ElasticCore.Word

/-! # Arithmetic of words

The bit operations on words, as arithmetic on the numbers they stand for. Extending a sign
keeps the signed number of the low bits, at every width.
-/

namespace ElasticCore

namespace Word

theorem and_ones (v : Word) {width : Nat} (h : width ≤ 64) :
    v &&& ones width = .ofNat (v.toNat % 2 ^ width) := by
  have hn := toNat_and_ones v width
  rw [Nat.min_eq_left h] at hn
  rw [← hn, UInt64.ofNat_toNat]

theorem lowZeros_of_toNat_eq_two_pow {v : Word} {k : Nat} (h : v.toNat = 2 ^ k) :
    lowZeros v = k := by
  have hk : k < 64 := by
    rw [← Nat.pow_lt_pow_iff_right (by decide : 1 < 2), ← h]
    exact v.toNat_lt
  have hf : (List.range 64).find? v.toNat.testBit = some k := by
    rw [List.find?_range_eq_some, h]
    refine ⟨Nat.testBit_two_pow_self, List.mem_range.mpr hk, fun j hj => ?_⟩
    rw [Nat.testBit_two_pow_of_ne (by omega)]
    rfl
  rw [lowZeros, hf, Option.getD_some]

theorem toNat_signExtend_eq_ite (v : Word) (width : Nat) :
    (signExtend v width).toNat =
      if v.toNat % 2 ^ min width 64 ≤ 2 ^ min (width - 1) 64 - 1 then v.toNat % 2 ^ min width 64
      else (2 ^ 64 + v.toNat % 2 ^ min width 64 - 2 ^ min width 64) % 2 ^ 64 := by
  have hm : (v.toNat % 2 ^ min width 64) < 2 ^ min width 64 := Nat.mod_lt _ (Nat.two_pow_pos _)
  have hp : 2 ^ min width 64 ≤ 2 ^ 64 := Nat.pow_le_pow_right (by decide) (Nat.min_le_right _ _)
  simp only [signExtend, UInt64.le_iff_toNat_le, apply_ite UInt64.toNat, UInt64.toNat_sub,
    UInt64.toNat_one, toNat_and_ones, toNat_ones]
  split
  · rfl
  · omega

theorem toNat_signExtend (v : Word) (width : Nat) :
    ((signExtend v width).toNat : Int) = (v.toNat : Int).bmod (2 ^ width) % 2 ^ 64 := by
  have hv := v.toNat_lt
  rw [toNat_signExtend_eq_ite]
  rcases Nat.lt_or_ge 64 width with hw | hw
  · have hp : 2 ^ 64 ≤ 2 ^ (width - 1) := Nat.pow_le_pow_right (by decide) (by omega)
    have hq : 2 ^ width = 2 * 2 ^ (width - 1) := by rw [← Nat.pow_succ']; congr 1; omega
    have hb : (v.toNat : Int).bmod (2 ^ width) = v.toNat :=
      Int.bmod_eq_of_le_mul_two (by omega) (by omega)
    rw [hb, Nat.min_eq_right (by omega), Nat.min_eq_right (by omega), Nat.mod_eq_of_lt hv,
      if_pos (by omega), Int.emod_eq_of_lt (by omega) (by omega)]
  · rw [Nat.min_eq_left hw, Nat.min_eq_left (by omega), Int.bmod_def, ← Int.natCast_emod]
    have hp : 2 ^ width ≤ 2 ^ 64 := Nat.pow_le_pow_right (by decide) hw
    have hm : v.toNat % 2 ^ width < 2 ^ width := Nat.mod_lt _ (Nat.two_pow_pos _)
    generalize v.toNat % 2 ^ width = x at hm
    rcases Nat.eq_zero_or_pos width with rfl | hpos
    · simp_all
    · have hq : 2 ^ width = 2 * 2 ^ (width - 1) := by rw [← Nat.pow_succ']; congr 1; omega
      have := Nat.two_pow_pos (width - 1)
      rw [hq] at hm hp ⊢
      split <;> split <;> omega

end Word

namespace Instruction

/-- The I-type immediate, bits 20 to 31 as a signed number. -/
def signedImm (w : Instruction) : Int := ((w.toNat / 2 ^ 20 : Nat) : Int).bmod (2 ^ 12)

theorem toNat_immI (w : Instruction) : w.immI.toUInt64.toNat = w.toNat / 2 ^ 20 := by
  have hw := w.toNat_lt
  simp [immI, immMask, Nat.shiftRight_eq_div_pow, Nat.and_two_pow_sub_one_eq_mod _ 12]
  omega

end Instruction

end ElasticCore
