import Mathlib.Data.BitVec
import Mathlib.Tactic.Ring
import Mathlib.Tactic.Positivity

namespace OpenPiton.Justify

variable {w N : Nat}

/-- A number in the upper bits of a wider word, with zeros below. -/
def left (N : Nat) (x : BitVec w) : BitVec N := x.setWidth N <<< (N - w)

/-- The upper bits of a word. -/
def top (w : Nat) (a : BitVec N) : BitVec w := a.extractLsb' (N - w) w

variable (hw : w ≤ N) (x y : BitVec w)

include hw

theorem pow_split : 2 ^ N = 2 ^ w * 2 ^ (N - w) := by rw [← Nat.pow_add, Nat.add_sub_cancel' hw]

theorem toNat_left : (left N x).toNat = x.toNat * 2 ^ (N - w) := by
  have hx := x.isLt
  have hlt : x.toNat * 2 ^ (N - w) < 2 ^ N := by
    rw [pow_split hw]
    exact Nat.mul_lt_mul_of_pos_right hx (Nat.two_pow_pos _)
  have hle : 2 ^ w ≤ 2 ^ N := Nat.pow_le_pow_right (by decide) hw
  have hfit : x.toNat % 2 ^ N = x.toNat := Nat.mod_eq_of_lt (by omega)
  rw [left, BitVec.toNat_shiftLeft, BitVec.toNat_setWidth, hfit, Nat.shiftLeft_eq, Nat.mod_eq_of_lt hlt]

theorem toInt_left : (left N x).toInt = x.toInt * 2 ^ (N - w) := by
  have hpos := Nat.two_pow_pos (N - w)
  rw [BitVec.toInt_eq_toNat_cond, BitVec.toInt_eq_toNat_cond, toNat_left hw, pow_split hw]
  have hiff : 2 * (x.toNat * 2 ^ (N - w)) < 2 ^ w * 2 ^ (N - w) ↔ 2 * x.toNat < 2 ^ w := by
    rw [← Nat.mul_assoc]
    exact Nat.mul_lt_mul_right hpos
  by_cases h : 2 * x.toNat < 2 ^ w
  · rw [if_pos (hiff.mpr h), if_pos h]
    push_cast
    rfl
  · rw [if_neg (mt hiff.mp h), if_neg h]
    push_cast
    ring

theorem toNat_top (a : BitVec N) : (top w a).toNat = a.toNat / 2 ^ (N - w) := by
  have ha := a.isLt
  rw [pow_split hw] at ha
  rw [top, BitVec.extractLsb'_toNat, Nat.shiftRight_eq_div_pow, Nat.mod_eq_of_lt]
  exact Nat.div_lt_of_lt_mul (by rwa [Nat.mul_comm])

theorem top_left : top w (left N x) = x := by
  apply BitVec.eq_of_toNat_eq
  rw [toNat_top hw, toNat_left hw, Nat.mul_div_cancel _ (Nat.two_pow_pos _)]

theorem top_add : top w (left N x + left N y) = x + y := by
  apply BitVec.eq_of_toNat_eq
  rw [toNat_top hw, BitVec.toNat_add, BitVec.toNat_add, toNat_left hw, toNat_left hw, ← Nat.add_mul, pow_split hw,
    Nat.mul_mod_mul_right, Nat.mul_div_cancel _ (Nat.two_pow_pos _)]

theorem slt_left : (left N x).slt (left N y) = x.slt y := by
  have hpos : (0 : Int) < 2 ^ (N - w) := by positivity
  rw [BitVec.slt_eq_decide, BitVec.slt_eq_decide, toInt_left hw, toInt_left hw]
  exact decide_eq_decide.mpr ⟨fun h => lt_of_mul_lt_mul_right h hpos.le, fun h => mul_lt_mul_of_pos_right h hpos⟩

theorem ult_left : (left N x).ult (left N y) = x.ult y := by
  rw [BitVec.ult, BitVec.ult, toNat_left hw, toNat_left hw]
  exact decide_eq_decide.mpr (Nat.mul_lt_mul_right (Nat.two_pow_pos _))

omit hw

theorem top_and (a b : BitVec N) : top w (a &&& b) = top w a &&& top w b := by
  ext j hj
  simp [top]

theorem top_or (a b : BitVec N) : top w (a ||| b) = top w a ||| top w b := by
  ext j hj
  simp [top]

theorem top_xor (a b : BitVec N) : top w (a ^^^ b) = top w a ^^^ top w b := by
  ext j hj
  simp [top]

theorem setWidth_signExtend (a : BitVec N) : (a.signExtend (N + 1)).setWidth N = a := by
  refine BitVec.eq_of_getLsbD_eq fun j hj => ?_
  rw [BitVec.getLsbD_setWidth, BitVec.getLsbD_signExtend, if_pos hj]
  simp [hj, Nat.lt_succ_of_lt hj]

theorem msb_sub_signExtend (a b : BitVec N) : (a.signExtend (N + 1) + -b.signExtend (N + 1)).getLsbD N = a.slt b := by
  have hmsb : ∀ x : BitVec (N + 1), x.getLsbD N = x.msb := fun x => rfl
  have ha := a.two_mul_toInt_lt
  have hb := b.two_mul_toInt_lt
  have ha' := a.le_two_mul_toInt
  have hb' := b.le_two_mul_toInt
  have hpow : ((2 ^ (N + 1) : Nat) : Int) = 2 * 2 ^ N := by
    rw [pow_succ, mul_comm]
    push_cast
    rfl
  rw [hmsb, BitVec.msb_eq_toInt, BitVec.slt_eq_decide, BitVec.toInt_add, BitVec.toInt_neg,
    BitVec.toInt_signExtend_of_le (by omega), BitVec.toInt_signExtend_of_le (by omega),
    Int.bmod_eq_of_le (n := -b.toInt) (by omega) (by omega), Int.bmod_eq_of_le (by omega) (by omega)]
  apply decide_eq_decide.mpr
  omega

theorem msb_sub_setWidth (a b : BitVec N) : (a.setWidth (N + 1) + -b.setWidth (N + 1)).getLsbD N = a.ult b := by
  have ha := a.isLt
  have hb := b.isLt
  have hpow : 2 ^ (N + 1) = 2 ^ N + 2 ^ N := by rw [Nat.pow_succ, Nat.mul_two]
  have ha' : a.toNat % 2 ^ (N + 1) = a.toNat := Nat.mod_eq_of_lt (by omega)
  have hb' : b.toNat % 2 ^ (N + 1) = b.toNat := Nat.mod_eq_of_lt (by omega)
  have hmsb : ∀ x : BitVec (N + 1), x.getLsbD N = x.msb := fun x => rfl
  rw [hmsb, BitVec.msb_eq_decide, BitVec.ult, BitVec.toNat_add, BitVec.toNat_neg, BitVec.toNat_setWidth,
    BitVec.toNat_setWidth, ha', hb', Nat.add_sub_cancel]
  apply decide_eq_decide.mpr
  rcases Nat.eq_zero_or_pos b.toNat with h0 | hpos
  · rw [h0, Nat.sub_zero, Nat.mod_self, Nat.add_zero, ha']
    omega
  · rw [Nat.mod_eq_of_lt (a := 2 ^ (N + 1) - b.toNat) (by omega)]
    rcases Nat.lt_or_ge a.toNat b.toNat with hlt | hge
    · rw [Nat.mod_eq_of_lt (by omega)]
      omega
    · rw [Nat.mod_eq_sub_mod (by omega), Nat.mod_eq_of_lt (by omega)]
      omega

end OpenPiton.Justify
