import ElasticCore.Arithmetic

/-! # Words

Every signal travels in a 64-bit word and is cut to its own width. Widths and
positions are arbitrary numbers: from 64 on a width means the whole word, and a
field that starts there is empty.
-/

namespace ElasticCore

abbrev Word := UInt64

namespace Word

def ones (width : Nat) : Word :=
  if width < 64 then (1 <<< width.toUInt64) - 1 else -1

/-- The `width` bits of `v` from position `lo` upwards. -/
def slice (v : Word) (lo width : Nat) : Word :=
  if lo < 64 then (v >>> lo.toUInt64) &&& ones width else 0

/-- The lowest `width` bits of `v` read as a two's complement number. -/
def signExtend (v : Word) (width : Nat) : Word :=
  let low := v &&& ones width
  if low ≤ ones (width - 1) then low else low - ones width - 1

/-- The number of zero bits below the lowest set bit; all 64 if no bit is set. -/
def lowZeros (v : Word) : Nat :=
  ((List.range 64).find? v.toNat.testBit).getD 64

@[simp] theorem ones_zero : ones 0 = 0 := rfl

theorem toNat_ones (width : Nat) : (ones width).toNat = 2 ^ min width 64 - 1 := by
  unfold ones
  split
  case isTrue h =>
    have hw : width.toUInt64.toNat = width := by
      simp; omega
    have hp : 2 ^ width < 2 ^ 64 := Nat.pow_lt_pow_right (by decide) h
    have hs : ((1 : Word) <<< width.toUInt64).toNat = 2 ^ width := by
      rw [UInt64.toNat_shiftLeft, hw, Nat.mod_eq_of_lt h, UInt64.toNat_one, Nat.shiftLeft_eq,
        Nat.one_mul, Nat.mod_eq_of_lt hp]
    rw [UInt64.toNat_sub_of_le, hs, Nat.min_eq_left (by omega)]
    · rfl
    · rw [UInt64.le_iff_toNat_le, hs]
      exact Nat.one_le_two_pow
  case isFalse h =>
    rw [Nat.min_eq_right (by omega)]
    rfl

theorem toNat_and_ones (v : Word) (width : Nat) :
    (v &&& ones width).toNat = v.toNat % 2 ^ min width 64 := by
  rw [UInt64.toNat_and, toNat_ones, Nat.and_two_pow_sub_one_eq_mod]

theorem toNat_slice (v : Word) (lo width : Nat) :
    (slice v lo width).toNat = v.toNat / 2 ^ lo % 2 ^ min width 64 := by
  unfold slice
  split
  case isTrue h =>
    have hl : lo.toUInt64.toNat = lo := by
      simp; omega
    rw [toNat_and_ones, UInt64.toNat_shiftRight, hl, Nat.mod_eq_of_lt h, Nat.shiftRight_eq_div_pow]
  case isFalse h =>
    have hv : v.toNat < 2 ^ lo :=
      Nat.lt_of_lt_of_le v.toNat_lt (Nat.pow_le_pow_right (by decide) (by omega))
    simp [Nat.div_eq_of_lt hv]

example : signExtend 0xFFF 12 = -1 ∧ signExtend 0x7FF 12 = 0x7FF ∧ signExtend 5 0 = 0 := by
  decide

example : lowZeros 0 = 64 ∧ lowZeros 1 = 0 ∧ lowZeros 24 = 3 := by
  decide

end Word

end ElasticCore
