import Mathlib.Data.BitVec

namespace OpenPiton.Counter

variable {w : Nat} {c d : BitVec w}

theorem toNat_one (h : 1 < 2 ^ w) : (1 : BitVec w).toNat = 1 := Nat.mod_eq_of_lt h

theorem toNat_pos (h : c ≠ 0) : 0 < c.toNat := by
  apply Nat.pos_of_ne_zero
  intro hz
  exact h (BitVec.eq_of_toNat_eq (hz.trans (Nat.zero_mod _).symm))

/-- A counter below the end of its range does not wrap. -/
theorem toNat_succ (h : c.toNat + 1 < 2 ^ w) : (c + 1).toNat = c.toNat + 1 := by
  rw [BitVec.toNat_add, toNat_one (by omega), Nat.mod_eq_of_lt h]

theorem toNat_succ_of_lt (h : c < d) : (c + 1).toNat = c.toNat + 1 := by
  apply toNat_succ
  have hd := d.isLt
  rw [BitVec.lt_def] at h
  omega

theorem toNat_succ_of_ne (hle : c.toNat ≤ d.toNat) (hne : c ≠ d) : (c + 1).toNat = c.toNat + 1 := by
  apply toNat_succ_of_lt (d := d)
  rw [BitVec.lt_def]
  exact Nat.lt_of_le_of_ne hle fun he => hne (BitVec.eq_of_toNat_eq he)

theorem toNat_pred (h : 0 < c.toNat) : (c - 1).toNat = c.toNat - 1 := by
  have hone := toNat_one (Nat.lt_of_le_of_lt h c.isLt)
  rw [BitVec.toNat_sub_of_le, hone]
  rw [BitVec.le_def, hone]
  exact h

end OpenPiton.Counter
