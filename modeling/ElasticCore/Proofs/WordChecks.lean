import ElasticCore.Core.Basic
import ElasticCore.Proofs.WordArithmetic

/-! # Checked operations on words

On words, a shift makes sense for amounts below 64 and a subtraction for a subtrahend that is not
larger. Masks, slices and sign extensions can be made of shifts and subtractions that all make sense,
whatever the widths and positions are. They are what integer arithmetic says about powers of two.
-/

namespace ElasticCore

namespace Word

/-! ## Signed numbers -/

/-- The lowest `width` bits of `v` as a signed number; their highest bit counts negative. -/
def signed (v : Word) (width : Nat) : Int :=
  let x := v.toNat % 2 ^ width
  if 2 ^ (width - 1) ≤ x then (x : Int) - 2 ^ width else x

theorem signed_eq_bmod (v : Word) (width : Nat) :
    signed v width = (v.toNat : Int).bmod (2 ^ width) := by
  have hm : v.toNat % 2 ^ width < 2 ^ width := Nat.mod_lt _ (Nat.two_pow_pos _)
  rw [signed, Int.bmod_def, ← Int.natCast_emod, show (2 : Int) ^ width = (2 ^ width : Nat) by simp]
  cases width with
  | zero => simp [Nat.mod_one]
  | succ n =>
    have hq : 2 ^ (n + 1) = 2 * 2 ^ n := Nat.pow_succ'
    rw [Nat.add_sub_cancel]
    split <;> split <;> omega

theorem signed_emod (v : Word) (width : Nat) :
    signed v width % 2 ^ width = v.toNat % 2 ^ width := by
  have h : (v.toNat : Int).bmod (2 ^ width) % ((2 ^ width : Nat) : Int) =
      v.toNat % ((2 ^ width : Nat) : Int) := Int.bmod_emod
  rw [signed_eq_bmod]
  exact_mod_cast h

theorem toNat_ofInt (z : Int) : ((UInt64.ofInt z).toNat : Int) = z % 2 ^ 64 := by
  rw [UInt64.ofInt, UInt64.toNat_ofNat']
  omega

theorem eq_ofInt_iff {v : Word} {z : Int} : v = .ofInt z ↔ (v.toNat : Int) = z % 2 ^ 64 := by
  rw [← UInt64.toNat_inj, ← Int.natCast_inj, toNat_ofInt]

theorem toNat_emod (v : Word) : (v.toNat : Int) % 2 ^ 64 = v.toNat := by
  have := v.toNat_lt
  omega

theorem signExtend_eq_ofInt (v : Word) (width : Nat) :
    signExtend v width = .ofInt (signed v width) := by
  rw [eq_ofInt_iff, signed_eq_bmod, toNat_signExtend]

theorem signExtend_zero (v : Word) : signExtend v 0 = 0 := by
  rw [signExtend_eq_ofInt, signed, Nat.pow_zero, Nat.mod_one]
  rfl

theorem signExtend_of_le (v : Word) {width : Nat} (h : 64 ≤ width) : signExtend v width = v := by
  have hd : (2 : Int) ^ 64 ∣ 2 ^ width := by exact_mod_cast Nat.pow_dvd_pow 2 h
  rw [signExtend_eq_ofInt, eq_comm, eq_ofInt_iff, ← Int.emod_emod_of_dvd _ hd, signed_emod,
    Int.emod_emod_of_dvd _ hd, toNat_emod]

theorem toNat_signExtend_mod (v : Word) {width : Nat} (h : width ≤ 64) :
    (signExtend v width).toNat % 2 ^ width = v.toNat % 2 ^ width := by
  have hd : (2 : Int) ^ width ∣ 2 ^ 64 := by exact_mod_cast Nat.pow_dvd_pow 2 h
  have hs : ((signExtend v width).toNat : Int) % 2 ^ width = v.toNat % 2 ^ width := by
    rw [signExtend_eq_ofInt, toNat_ofInt, Int.emod_emod_of_dvd _ hd, signed_emod]
  exact_mod_cast hs

theorem signExtend_signExtend (v : Word) (width : Nat) :
    signExtend (signExtend v width) width = signExtend v width := by
  rcases Nat.le_total width 64 with h | h
  · rw [signExtend_eq_ofInt, signed, toNat_signExtend_mod v h, signExtend_eq_ofInt v, signed]
  · rw [signExtend_of_le _ h]

/-- A word that holds the low bits of another one at its top has their signed number, scaled. -/
theorem signed_of_shifted {v x : Word} {width n : Nat} (hw : 0 < width) (hn : width + n = 64)
    (hx : x.toNat = v.toNat % 2 ^ width * 2 ^ n) : signed x 64 = signed v width * 2 ^ n := by
  have hp : 2 ^ 64 = 2 ^ width * 2 ^ n := by rw [← Nat.pow_add, hn]
  have hh : 2 ^ (64 - 1) = 2 ^ (width - 1) * 2 ^ n := by rw [← Nat.pow_add]; congr 1; omega
  have hpi : (2 : Int) ^ 64 = 2 ^ width * 2 ^ n := by exact_mod_cast hp
  rw [signed, Nat.mod_eq_of_lt x.toNat_lt, hh, hx, signed]
  simp only [Nat.mul_le_mul_right_iff (Nat.two_pow_pos n)]
  split
  · rw [hpi, Int.sub_mul, Int.natCast_mul, Int.natCast_pow]
    rfl
  · rw [Int.natCast_mul, Int.natCast_pow]
    rfl

theorem ofBitVec_eq_ofInt (x : BitVec 64) : UInt64.ofBitVec x = .ofInt x.toInt := by
  have hb : x.toInt % ((2 ^ 64 : Nat) : Int) = x.toNat % ((2 ^ 64 : Nat) : Int) := by
    rw [BitVec.toInt_eq_toNat_bmod]
    exact Int.bmod_emod
  rw [eq_ofInt_iff, ← toNat_emod]
  exact hb.symm

/-! ## Checked operations -/

namespace Checked

/-- `v` shifted to the left by fewer than 64 bits. -/
def shiftLeft (v : Word) (n : UInt32) : Option Word :=
  if n < 64 then some (v <<< n.toUInt64) else none

def shiftRight (v : Word) (n : UInt32) : Option Word :=
  if n < 64 then some (v >>> n.toUInt64) else none

/-- `v` as a signed number, shifted to the right by fewer than 64 bits. -/
def shiftRightSigned (v : Word) (n : UInt32) : Option Word :=
  if n < 64 then some ⟨v.toBitVec.sshiftRight n.toNat⟩ else none

def sub (v u : Word) : Option Word := if u ≤ v then some (v - u) else none

def subWidth (w u : UInt32) : Option UInt32 := if u ≤ w then some (w - u) else none

def ones (width : UInt32) : Option Word :=
  if 64 ≤ width then some (-1) else do sub (← shiftLeft 1 width) 1

def slice (v : Word) (lo width : UInt32) : Option Word :=
  if 64 ≤ lo then some 0 else do return (← shiftRight v lo) &&& (← ones width)

/-- The lowest `width` bits of `v`, shifted to the top and back as a signed number. -/
def signExtend (v : Word) (width : UInt32) : Option Word :=
  if width = 0 then some 0
  else if 64 ≤ width then some v
  else do
    let n ← subWidth 64 width
    shiftRightSigned (← shiftLeft v n) n

variable {v : Word} {n lo width : UInt32}

theorem toUInt64_toNat (n : UInt32) : n.toNat.toUInt64 = n.toUInt64 := UInt64.ofNat_uInt32ToNat n

theorem toNat_lt_of_not_le (h : ¬ 64 ≤ n) : n.toNat < 64 :=
  UInt32.lt_iff_toNat_lt.mp (UInt32.not_le.mp h)

theorem toNat_shiftLeft (v : Word) (hn : n.toNat < 64) :
    (v <<< n.toUInt64).toNat = v.toNat * 2 ^ n.toNat % 2 ^ 64 := by
  rw [UInt64.toNat_shiftLeft, UInt32.toNat_toUInt64, Nat.mod_eq_of_lt hn, Nat.shiftLeft_eq]

theorem shiftLeft_of_lt (v : Word) (hn : n.toNat < 64) :
    shiftLeft v n = some (v <<< n.toUInt64) :=
  if_pos (UInt32.lt_iff_toNat_lt.mpr hn)

theorem shiftRight_of_lt (v : Word) (hn : n.toNat < 64) :
    shiftRight v n = some (v >>> n.toUInt64) :=
  if_pos (UInt32.lt_iff_toNat_lt.mpr hn)

theorem ones_eq (width : UInt32) : ones width = some (Word.ones width.toNat) := by
  unfold ones
  split
  case isTrue h =>
    have hw : 64 ≤ width.toNat := UInt32.le_iff_toNat_le.mp h
    rw [Word.ones, if_neg (by omega)]
  case isFalse h =>
    have hw := toNat_lt_of_not_le h
    have hle : (1 : Word) ≤ 1 <<< width.toUInt64 := by
      rw [UInt64.le_iff_toNat_le, toNat_shiftLeft 1 hw, UInt64.toNat_one, Nat.one_mul,
        Nat.mod_eq_of_lt (Nat.pow_lt_pow_right (by decide) hw)]
      exact Nat.one_le_two_pow
    rw [shiftLeft_of_lt 1 hw, Word.ones, if_pos hw, toUInt64_toNat]
    exact if_pos hle

theorem slice_eq (v : Word) (lo width : UInt32) :
    slice v lo width = some (Word.slice v lo.toNat width.toNat) := by
  unfold slice
  split
  case isTrue h =>
    have hl : 64 ≤ lo.toNat := UInt32.le_iff_toNat_le.mp h
    rw [Word.slice, if_neg (by omega)]
  case isFalse h =>
    have hl := toNat_lt_of_not_le h
    rw [shiftRight_of_lt v hl, ones_eq, Word.slice, if_pos hl, toUInt64_toNat]
    rfl

/-- Shifted to the top and back, the low bits are extended by their sign. -/
theorem shiftRightSigned_shiftLeft (v : Word) {width : Nat} (hw : 0 < width)
    (hn : width + n.toNat = 64) :
    shiftRightSigned (v <<< n.toUInt64) n = some (Word.signExtend v width) := by
  have hlt : n.toNat < 64 := by omega
  have hx : (v <<< n.toUInt64).toNat = v.toNat % 2 ^ width * 2 ^ n.toNat := by
    rw [toNat_shiftLeft v hlt, ← hn, Nat.pow_add, Nat.mul_mod_mul_right]
  have hs : ((v <<< n.toUInt64).toBitVec.sshiftRight n.toNat).toInt = signed v width := by
    have hp : (2 : Int) ^ n.toNat ≠ 0 := Int.ne_of_gt (Int.pow_pos (by decide))
    have ht : (v <<< n.toUInt64).toBitVec.toInt = signed (v <<< n.toUInt64) 64 := by
      rw [BitVec.toInt_eq_toNat_bmod, signed_eq_bmod, UInt64.toNat_toBitVec]
    rw [BitVec.toInt_sshiftRight, ht, signed_of_shifted hw hn hx, Int.shiftRight_eq_div_pow]
    push_cast
    exact Int.mul_ediv_cancel _ hp
  rw [shiftRightSigned, if_pos (UInt32.lt_iff_toNat_lt.mpr hlt), ofBitVec_eq_ofInt, hs,
    signExtend_eq_ofInt]

theorem signExtend_eq (v : Word) (width : UInt32) :
    signExtend v width = some (Word.signExtend v width.toNat) := by
  unfold signExtend
  split
  case isTrue h =>
    rw [h]
    exact congrArg some (signExtend_zero v).symm
  case isFalse h =>
  have hpos : 0 < width.toNat :=
    Nat.pos_of_ne_zero fun h0 => h (UInt32.toNat_inj.mp h0)
  split
  case isTrue h64 => rw [signExtend_of_le v (UInt32.le_iff_toNat_le.mp h64)]
  case isFalse h64 =>
    have hw := toNat_lt_of_not_le h64
    have hle : width ≤ 64 := UInt32.le_iff_toNat_le.mpr (Nat.le_of_lt hw)
    have hn : (64 - width).toNat = 64 - width.toNat := UInt32.toNat_sub_of_le _ _ hle
    rw [subWidth, if_pos hle]
    change (shiftLeft v (64 - width)).bind (shiftRightSigned · (64 - width)) = _
    rw [shiftLeft_of_lt v (by omega)]
    exact shiftRightSigned_shiftLeft v hpos (by omega)

end Checked

/-! ## Exactness -/

theorem toNat_signExtend_and_ones (v : Word) (width m : Nat) :
    ((signExtend v width &&& ones m).toNat : Int) = signed v width % 2 ^ min m 64 := by
  have hd : (2 : Int) ^ min m 64 ∣ 2 ^ 64 := by
    exact_mod_cast Nat.pow_dvd_pow 2 (Nat.min_le_right m 64)
  rw [toNat_and_ones, Int.natCast_emod, signExtend_eq_ofInt, toNat_ofInt, Int.natCast_pow]
  exact Int.emod_emod_of_dvd _ hd

/-- Masks, slices and sign extensions are what integer arithmetic says, for every word, position and
width. Made of shifts and subtractions, none of these is by 64 bits or more, or goes below zero.
Extending a sign again changes nothing. The address of a load is its signed immediate, modulo the
size of the address space. -/
theorem operations_eq_integer_arithmetic (v : Word) (lo width : UInt32) :
    (Checked.ones width = some (ones width.toNat) ∧
      (ones width.toNat).toNat = 2 ^ min width.toNat 64 - 1) ∧
    (Checked.slice v lo width = some (slice v lo.toNat width.toNat) ∧
      (slice v lo.toNat width.toNat).toNat =
        v.toNat / 2 ^ lo.toNat % 2 ^ min width.toNat 64) ∧
    (Checked.signExtend v width = some (signExtend v width.toNat) ∧
      signExtend v width.toNat =
        if width.toNat = 0 then 0
        else if 64 ≤ width.toNat then v
        else .ofInt (signed v width.toNat)) ∧
    signExtend (signExtend v width.toNat) width.toNat = signExtend v width.toNat ∧
    (∀ m, ((signExtend v 12 &&& ones m).toNat : Int) = signed v 12 % 2 ^ min m 64) ∧
    ∀ (isa : Isa) (f : Fetched) (g : Geometry),
      ((g.address (isa.entry f).imm).toNat : Int) =
        signed f.inst.immI.toUInt64 12 % 2 ^ g.addrWidth := by
  refine ⟨⟨Checked.ones_eq width, toNat_ones _⟩, ⟨Checked.slice_eq v lo width, toNat_slice _ _ _⟩,
    ⟨Checked.signExtend_eq v width, ?_⟩, signExtend_signExtend v _, toNat_signExtend_and_ones v 12,
    fun isa f g => ?_⟩
  · split
    case isTrue h => rw [h, signExtend_zero]
    case isFalse =>
    split
    case isTrue h => exact signExtend_of_le v h
    case isFalse => exact signExtend_eq_ofInt v _
  · have hm : min g.addrWidth 64 = g.addrWidth := Nat.min_eq_left g.addrWidth_le
    have ha := toNat_signExtend_and_ones f.inst.immI.toUInt64 12 g.addrWidth
    rw [hm] at ha
    exact ha

end Word

end ElasticCore
