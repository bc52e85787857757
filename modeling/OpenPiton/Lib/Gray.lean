import Mathlib.Data.BitVec
import Mathlib.Logic.Function.Iterate

namespace OpenPiton.Gray

variable {n : Nat} {b b' g : BitVec n} {i : Nat}

def gray (b : BitVec n) : BitVec n := (b >>> 1) ^^^ b

/-- The equation that a number meets with its Gray code `g`. -/
def feedback (g b : BitVec n) : BitVec n := (b >>> 1) ^^^ g

def binary (g : BitVec n) : BitVec n := (feedback g)^[n] 0#n

theorem shiftRight_all : b >>> n = 0#n := by
  ext i hi
  rw [BitVec.getElem_ushiftRight, BitVec.getLsbD_of_ge _ _ (Nat.le_add_right n i), BitVec.getElem_zero]

theorem feedback_xor : feedback g b ^^^ feedback g b' = (b ^^^ b') >>> 1 := by
  rw [feedback, feedback, BitVec.xor_comm (b' >>> 1), BitVec.xor_assoc, ← BitVec.xor_assoc g, BitVec.xor_self,
    BitVec.zero_xor, BitVec.ushiftRight_xor_distrib]

theorem iterate_xor (h : feedback g b = b) (k : Nat) : (feedback g)^[k] 0#n ^^^ b = b >>> k := by
  induction k with
  | zero => rw [Function.iterate_zero, id, BitVec.zero_xor, BitVec.ushiftRight_zero]
  | succ k ih =>
      calc (feedback g)^[k + 1] 0#n ^^^ b = feedback g ((feedback g)^[k] 0#n) ^^^ feedback g b := by
            rw [Function.iterate_succ_apply', h]
        _ = ((feedback g)^[k] 0#n ^^^ b) >>> 1 := feedback_xor
        _ = b >>> (k + 1) := by rw [ih, BitVec.shiftRight_add]

/-- The equation of the feedback has no solution but `binary`. -/
theorem binary_unique (h : feedback g b = b) : binary g = b := by
  have hall := iterate_xor h n
  rw [shiftRight_all] at hall
  exact BitVec.xor_eq_zero_iff.mp hall

@[simp] theorem binary_gray : binary (gray b) = b := by
  apply binary_unique
  rw [feedback, gray, ← BitVec.xor_assoc, BitVec.xor_self, BitVec.zero_xor]

theorem getLsbD_gray : (gray b).getLsbD i = (b.getLsbD (i + 1) ^^ b.getLsbD i) := by
  rw [gray, BitVec.getLsbD_xor, BitVec.getLsbD_ushiftRight, Nat.add_comm]

end OpenPiton.Gray
