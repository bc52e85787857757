import OpenPiton.Lib.Justify
import OpenPiton.Lib.Parity
import Mathlib.Tactic.IntervalCases

namespace OpenPiton.L2

/-- `x[start +: m]` with the bits of `y`. -/
def setPart {n m : Nat} (x : BitVec n) (start : Nat) (y : BitVec m) : BitVec n :=
  x &&& ~~~((BitVec.allOnes m).setWidth n <<< start) ||| y.setWidth n <<< start

theorem getLsbD_setPart {n m : Nat} (x : BitVec n) (start : Nat) (y : BitVec m) {j : Nat} (hj : j < n) :
    (setPart x start y).getLsbD j = if start ≤ j ∧ j < start + m then y.getLsbD (j - start) else x.getLsbD j := by
  rw [setPart, BitVec.getLsbD_or, BitVec.getLsbD_and, BitVec.getLsbD_not, BitVec.getLsbD_shiftLeft,
    BitVec.getLsbD_shiftLeft, BitVec.getLsbD_setWidth, BitVec.getLsbD_setWidth, BitVec.getLsbD_allOnes]
  by_cases hs : start ≤ j
  · by_cases hm : j < start + m
    · simp [hj, hs, hm, show ¬ j < start by omega, show j - start < n by omega, show j - start < m by omega]
    · simp [hj, hs, hm, show ¬ j < start by omega, show ¬ j - start < m by omega,
        BitVec.getLsbD_of_ge y (j - start) (by omega)]
  · simp [hj, hs, show j < start by omega]

/-- `L2_AMO_ALU_ADD` to `L2_AMO_ALU_MINU`. -/
inductive AmoOp
  | add | and | or | xor | max | maxu | min | minu
  deriving DecidableEq

def AmoOp.code : AmoOp → BitVec 4
  | .add => 1
  | .and => 2
  | .or => 3
  | .xor => 4
  | .max => 5
  | .maxu => 6
  | .min => 7
  | .minu => 8

namespace AmoAlu

def dwordOffset (address : BitVec 40) : Nat := (address.extractLsb' 3 1).toNat

def operandMux (address : BitVec 40) (line : BitVec 128) : BitVec 64 := line.extractLsb' (dwordOffset address * 64) 64

def swapBytes (x : BitVec 64) : BitVec 64 :=
  x.extractLsb' 0 8 ++ x.extractLsb' 8 8 ++ x.extractLsb' 16 8 ++ x.extractLsb' 24 8 ++
    x.extractLsb' 32 8 ++ x.extractLsb' 40 8 ++ x.extractLsb' 48 8 ++ x.extractLsb' 56 8

def swp (swapEndianess : Bool) (x : BitVec 64) : BitVec 64 := if swapEndianess then swapBytes x else x

def idx1 (address : BitVec 40) : Nat := (address.extractLsb' 0 3).toNat

def idx2 (address : BitVec 40) : Nat := (address.extractLsb' 1 2).toNat

def idx4 (address : BitVec 40) : Nat := (address.extractLsb' 2 1).toNat

/-- The operand of `MSG_DATA_SIZE_1B` to `MSG_DATA_SIZE_8B`, in the upper bits. -/
def operand (address : BitVec 40) (dataSize : BitVec 3) (x : BitVec 64) : BitVec 64 :=
  if dataSize = 1 then setPart 0 56 (x.extractLsb' (idx1 address * 8) 8)
  else if dataSize = 2 then setPart 0 48 (x.extractLsb' (idx2 address * 16) 16)
  else if dataSize = 3 then setPart 0 32 (x.extractLsb' (idx4 address * 32) 32)
  else if dataSize = 4 then x
  else 0

def adderOperandA (op : BitVec 4) (a : BitVec 64) : BitVec 65 :=
  if op = 6 ∨ op = 8 then a.setWidth 65 else a.signExtend 65

def adderOperandB (op : BitVec 4) (b : BitVec 64) : BitVec 65 :=
  if op = 5 ∨ op = 7 then -b.signExtend 65
  else if op = 6 ∨ op = 8 then -b.setWidth 65
  else b.signExtend 65

def adderSum (op : BitVec 4) (a b : BitVec 64) : BitVec 65 := adderOperandA op a + adderOperandB op b

/-- `amo_64b_tmp`. -/
def tmp (op : BitVec 4) (a b : BitVec 64) : BitVec 64 :=
  let sum := adderSum op a b
  if op = 1 then sum.extractLsb' 0 64
  else if op = 2 then a &&& b
  else if op = 3 then a ||| b
  else if op = 4 then a ^^^ b
  else if op = 5 then if sum.getLsbD 64 then b else a
  else if op = 6 then if sum.getLsbD 64 then b else a
  else if op = 7 then if sum.getLsbD 64 then a else b
  else if op = 8 then if sum.getLsbD 64 then a else b
  else a

/-- `amo_64b_result`. -/
def merge (address : BitVec 40) (dataSize : BitVec 3) (x t : BitVec 64) : BitVec 64 :=
  if dataSize = 1 then setPart x (idx1 address * 8) (t.extractLsb' 56 8)
  else if dataSize = 2 then setPart x (idx2 address * 16) (t.extractLsb' 48 16)
  else if dataSize = 3 then setPart x (idx4 address * 32) (t.extractLsb' 32 32)
  else if dataSize = 4 then t
  else x

def amoResult (swapEndianess : Bool) (op : BitVec 4) (address : BitVec 40) (dataSize : BitVec 3)
    (memoryOperand cpuOperand : BitVec 128) : BitVec 128 :=
  let a := swp swapEndianess (operandMux address memoryOperand)
  let b := swp swapEndianess (operandMux address cpuOperand)
  let t := tmp op (operand address dataSize a) (operand address dataSize b)
  setPart memoryOperand (dwordOffset address * 64) (swp swapEndianess (merge address dataSize a t))

end AmoAlu

/-- The place of a byte of a line, by its address: with the swap, words have their first byte on top. -/
def byteLane (swapEndianess : Bool) (a : Nat) : Nat := if swapEndianess then a / 8 * 8 + (7 - a % 8) else a

def lineByte (swapEndianess : Bool) (line : BitVec 128) (a : Nat) : BitVec 8 :=
  line.extractLsb' (8 * byteLane swapEndianess a) 8

/-- The number that `n` bytes of a line from an address hold, the first the lowest. -/
def lineElement (swapEndianess : Bool) (line : BitVec 128) (a n : Nat) : BitVec (8 * n) :=
  Parity.ofBits (8 * n) fun j => (lineByte swapEndianess line (a + j / 8)).getLsbD (j % 8)

/-- The operations on numbers of any width. -/
def AmoOp.apply {w : Nat} (x y : BitVec w) : AmoOp → BitVec w
  | .add => x + y
  | .and => x &&& y
  | .or => x ||| y
  | .xor => x ^^^ y
  | .max => if x.slt y then y else x
  | .maxu => if x.ult y then y else x
  | .min => if x.slt y then x else y
  | .minu => if x.ult y then x else y

namespace AmoAlu

variable {swapEndianess : Bool} {address : BitVec 40} {k : Nat}

theorem getLsbD_swapBytes (x : BitVec 64) {i : Nat} (hi : i < 64) :
    (swapBytes x).getLsbD i = x.getLsbD (8 * (7 - i / 8) + i % 8) := by
  obtain ⟨q, r, hq, hr, rfl⟩ : ∃ q r, q < 8 ∧ r < 8 ∧ i = 8 * q + r := ⟨i / 8, i % 8, by omega, by omega, by omega⟩
  rw [show (8 * q + r) / 8 = q by omega, show (8 * q + r) % 8 = r by omega]
  simp only [swapBytes, BitVec.getLsbD_append, BitVec.getLsbD_extractLsb']
  interval_cases q
  all_goals grind

theorem swapBytes_swapBytes (x : BitVec 64) : swapBytes (swapBytes x) = x := by
  refine BitVec.eq_of_getLsbD_eq fun i hi => ?_
  rw [getLsbD_swapBytes _ hi, getLsbD_swapBytes _ (by omega)]
  congr 1
  omega

theorem swp_swp (x : BitVec 64) : swp swapEndianess (swp swapEndianess x) = x := by
  cases swapEndianess with
  | true => exact swapBytes_swapBytes x
  | false => rfl

theorem getLsbD_byteLane (line : BitVec 128) {a i : Nat} (hi : i < 8) :
    line.getLsbD (8 * byteLane swapEndianess a + i) =
      (swp swapEndianess (line.extractLsb' (a / 8 * 64) 64)).getLsbD (8 * (a % 8) + i) := by
  cases swapEndianess with
  | true =>
      change line.getLsbD (8 * (a / 8 * 8 + (7 - a % 8)) + i) = (swapBytes _).getLsbD _
      rw [getLsbD_swapBytes _ (by omega), BitVec.getLsbD_extractLsb', decide_eq_true (by omega), Bool.true_and]
      congr 1
      omega
  | false =>
      change line.getLsbD (8 * a + i) = (line.extractLsb' (a / 8 * 64) 64).getLsbD _
      rw [BitVec.getLsbD_extractLsb', decide_eq_true (by omega), Bool.true_and]
      congr 1
      omega

theorem getLsbD_lineByte (line : BitVec 128) (a : Nat) {i : Nat} (hi : i < 8) :
    (lineByte swapEndianess line a).getLsbD i =
      (swp swapEndianess (line.extractLsb' (a / 8 * 64) 64)).getLsbD (8 * (a % 8) + i) := by
  rw [lineByte, BitVec.getLsbD_extractLsb', decide_eq_true hi, Bool.true_and, getLsbD_byteLane line hi]

theorem lineElement_eq (line : BitVec 128) {a n : Nat} (ha : a % 8 + n ≤ 8) :
    lineElement swapEndianess line a n =
      (swp swapEndianess (line.extractLsb' (a / 8 * 64) 64)).extractLsb' (8 * (a % 8)) (8 * n) := by
  refine BitVec.eq_of_getLsbD_eq fun j hj => ?_
  rw [lineElement, Parity.getLsbD_ofBits hj, getLsbD_lineByte _ _ (Nat.mod_lt _ (by decide)), BitVec.getLsbD_extractLsb',
    decide_eq_true hj, Bool.true_and, show (a + j / 8) / 8 = a / 8 by omega]
  congr 1
  omega

theorem setPart_zero {w : Nat} (y : BitVec w) : setPart 0 (64 - w) y = Justify.left 64 y := by
  rw [setPart, Justify.left]
  simp

theorem setPart_all (x t : BitVec 64) : setPart x 0 t = t := by
  refine BitVec.eq_of_getLsbD_eq fun j hj => ?_
  rw [getLsbD_setPart _ _ _ hj, if_pos (by omega)]
  rfl

/-- `MSG_DATA_SIZE` of `2 ^ k` bytes. -/
def dataSize (k : Nat) : BitVec 3 := BitVec.ofNat 3 (k + 1)

theorem index_eq (address : BitVec 40) :
    dwordOffset address = address.toNat % 16 / 8 ∧ idx1 address = address.toNat % 8 ∧
      idx2 address = address.toNat % 8 / 2 ∧ idx4 address = address.toNat % 8 / 4 := by
  simp only [dwordOffset, idx1, idx2, idx4, BitVec.extractLsb'_toNat, Nat.shiftRight_eq_div_pow]
  omega

theorem operand_eq (hk : k < 4) (halign : 2 ^ k ∣ address.toNat) (x : BitVec 64) :
    operand address (dataSize k) x =
      Justify.left 64 (x.extractLsb' (8 * (address.toNat % 8)) (8 * 2 ^ k)) := by
  obtain ⟨-, h1, h2, h4⟩ := index_eq address
  rw [operand, h1, h2, h4]
  interval_cases k
  · rw [if_pos (by decide), ← setPart_zero, Nat.mul_comm]
    rfl
  · rw [if_neg (by decide), if_pos (by decide), ← setPart_zero,
      show address.toNat % 8 / 2 * 16 = 8 * (address.toNat % 8) by omega]
    rfl
  · rw [if_neg (by decide), if_neg (by decide), if_pos (by decide), ← setPart_zero,
      show address.toNat % 8 / 4 * 32 = 8 * (address.toNat % 8) by omega]
    rfl
  · rw [if_neg (by decide), if_neg (by decide), if_neg (by decide), if_pos (by decide),
      show 8 * (address.toNat % 8) = 0 by omega, Justify.left]
    simp

theorem merge_eq (hk : k < 4) (halign : 2 ^ k ∣ address.toNat) (x t : BitVec 64) :
    merge address (dataSize k) x t = setPart x (8 * (address.toNat % 8)) (Justify.top (8 * 2 ^ k) t) := by
  obtain ⟨-, h1, h2, h4⟩ := index_eq address
  rw [merge, h1, h2, h4]
  interval_cases k
  · rw [if_pos (by decide), Nat.mul_comm]
    rfl
  · rw [if_neg (by decide), if_pos (by decide), show address.toNat % 8 / 2 * 16 = 8 * (address.toNat % 8) by omega]
    rfl
  · rw [if_neg (by decide), if_neg (by decide), if_pos (by decide),
      show address.toNat % 8 / 4 * 32 = 8 * (address.toNat % 8) by omega]
    rfl
  · rw [if_neg (by decide), if_neg (by decide), if_neg (by decide), if_pos (by decide),
      show 8 * (address.toNat % 8) = 0 by omega]
    refine (setPart_all x t).symm.trans ?_
    congr 1
    exact (BitVec.extractLsb'_eq_self).symm

/-- The operations on left-justified operands are those on the elements. -/
theorem top_tmp (op : AmoOp) {w : Nat} (hw : w ≤ 64) (x y : BitVec w) :
    Justify.top w (tmp op.code (Justify.left 64 x) (Justify.left 64 y)) = op.apply x y := by
  have hx := Justify.top_left hw x
  have hy := Justify.top_left hw y
  have hslt : (adderSum 5 (Justify.left 64 x) (Justify.left 64 y)).getLsbD 64 = x.slt y :=
    (Justify.msb_sub_signExtend _ _).trans (Justify.slt_left hw x y)
  have hult : (adderSum 6 (Justify.left 64 x) (Justify.left 64 y)).getLsbD 64 = x.ult y :=
    (Justify.msb_sub_setWidth _ _).trans (Justify.ult_left hw x y)
  cases op with
  | add =>
      have hsum : (adderSum 1 (Justify.left 64 x) (Justify.left 64 y)).extractLsb' 0 64 =
          Justify.left 64 x + Justify.left 64 y := by
        refine BitVec.eq_of_toNat_eq ?_
        rw [BitVec.extractLsb'_toNat, Nat.shiftRight_zero, ← BitVec.toNat_setWidth]
        change ((BitVec.signExtend 65 _ + BitVec.signExtend 65 _).setWidth 64).toNat = _
        rw [BitVec.setWidth_add _ _ (by decide), Justify.setWidth_signExtend, Justify.setWidth_signExtend]
      exact (congrArg (Justify.top w) hsum).trans (Justify.top_add hw x y)
  | and => exact (Justify.top_and _ _).trans (by rw [hx, hy]; rfl)
  | or => exact (Justify.top_or _ _).trans (by rw [hx, hy]; rfl)
  | xor => exact (Justify.top_xor _ _).trans (by rw [hx, hy]; rfl)
  | max =>
      change Justify.top w (if (adderSum 5 _ _).getLsbD 64 then _ else _) = _
      rw [hslt, apply_ite (Justify.top w), hx, hy]
      rfl
  | maxu =>
      change Justify.top w (if (adderSum 6 _ _).getLsbD 64 then _ else _) = _
      rw [hult, apply_ite (Justify.top w), hx, hy]
      rfl
  | min =>
      change Justify.top w (if (adderSum 5 _ _).getLsbD 64 then _ else _) = _
      rw [hslt, apply_ite (Justify.top w), hx, hy]
      rfl
  | minu =>
      change Justify.top w (if (adderSum 6 _ _).getLsbD 64 then _ else _) = _
      rw [hult, apply_ite (Justify.top w), hx, hy]
      rfl

theorem extractLsb'_setPart (x : BitVec 128) (y : BitVec 64) {d d' : Nat} (hd' : d' < 2) :
    (setPart x (d * 64) y).extractLsb' (d' * 64) 64 = if d' = d then y else x.extractLsb' (d' * 64) 64 := by
  refine BitVec.eq_of_getLsbD_eq fun j hj => ?_
  rw [BitVec.getLsbD_extractLsb', decide_eq_true hj, Bool.true_and, getLsbD_setPart _ _ _ (by omega)]
  by_cases h : d' = d
  · rw [if_pos (by omega), if_pos h]
    congr 1
    omega
  · rw [if_neg (by omega), if_neg h, BitVec.getLsbD_extractLsb', decide_eq_true hj, Bool.true_and]

theorem lineByte_amoResult (op : AmoOp) (hk : k < 4) (halign : 2 ^ k ∣ address.toNat) (mem cpu : BitVec 128)
    {a : Nat} (ha : a < 16) {i : Nat} (hi : i < 8) :
    (lineByte swapEndianess (amoResult swapEndianess op.code address (dataSize k) mem cpu) a).getLsbD i =
      if address.toNat % 16 ≤ a ∧ a < address.toNat % 16 + 2 ^ k then
        (op.apply (lineElement swapEndianess mem (address.toNat % 16) (2 ^ k))
          (lineElement swapEndianess cpu (address.toNat % 16) (2 ^ k))).getLsbD (8 * (a - address.toNat % 16) + i)
      else (lineByte swapEndianess mem a).getLsbD i := by
  have hpow : 2 ^ k = 1 ∨ 2 ^ k = 2 ∨ 2 ^ k = 4 ∨ 2 ^ k = 8 := by interval_cases k <;> decide
  have hfit : address.toNat % 16 % 8 + 2 ^ k ≤ 8 := by
    rcases hpow with h | h | h | h <;> rw [h] at halign ⊢ <;> omega
  have hoff : address.toNat % 16 % 8 = address.toNat % 8 := by omega
  obtain ⟨hdw, -⟩ := index_eq address
  rw [getLsbD_lineByte _ _ hi, getLsbD_lineByte mem _ hi, amoResult, hdw,
    extractLsb'_setPart _ _ (by omega), merge_eq hk halign, operand_eq hk halign, operand_eq hk halign,
    lineElement_eq mem hfit, lineElement_eq cpu hfit, operandMux, operandMux, hdw, hoff,
    top_tmp op (by rcases hpow with h | h | h | h <;> rw [h] <;> decide)]
  by_cases hd : a / 8 = address.toNat % 16 / 8
  · rw [if_pos hd, swp_swp, getLsbD_setPart _ _ _ (by omega)]
    by_cases hin : address.toNat % 16 ≤ a ∧ a < address.toNat % 16 + 2 ^ k
    · rw [if_pos hin, if_pos (by omega)]
      congr 1
      omega
    · rw [if_neg hin, if_neg (by omega), hd]
  · rw [if_neg hd, if_neg (by omega)]

end AmoAlu

/-- The addressed bytes of the result are the operation on those of the two lines, and the others are the memory's. -/
theorem amo_computes (swapEndianess : Bool) (op : AmoOp) (address : BitVec 40) {k : Nat} (hk : k < 4)
    (halign : 2 ^ k ∣ address.toNat) (mem cpu : BitVec 128) :
    let result := AmoAlu.amoResult swapEndianess op.code address (AmoAlu.dataSize k) mem cpu
    let a := address.toNat % 16
    lineElement swapEndianess result a (2 ^ k) =
      op.apply (lineElement swapEndianess mem a (2 ^ k)) (lineElement swapEndianess cpu a (2 ^ k)) ∧
    ∀ a' < 16, ¬ (a ≤ a' ∧ a' < a + 2 ^ k) → lineByte swapEndianess result a' = lineByte swapEndianess mem a' := by
  intro result a
  have hpow : 2 ^ k = 1 ∨ 2 ^ k = 2 ∨ 2 ^ k = 4 ∨ 2 ^ k = 8 := by interval_cases k <;> decide
  have hfit : a + 2 ^ k ≤ 16 := by
    rcases hpow with h | h | h | h <;> rw [h] at halign ⊢ <;> omega
  constructor
  · refine BitVec.eq_of_getLsbD_eq fun j hj => ?_
    rw [lineElement, Parity.getLsbD_ofBits hj,
      AmoAlu.lineByte_amoResult op hk halign mem cpu (by omega) (Nat.mod_lt _ (by decide)), if_pos (by omega)]
    congr 1
    omega
  · intro a' ha' hout
    refine BitVec.eq_of_getLsbD_eq fun i hi => ?_
    rw [AmoAlu.lineByte_amoResult op hk halign mem cpu ha' hi, if_neg hout]

/-- The least signed byte, against 1, at the last address of a line. -/
theorem amo_computes_max :
    let result := AmoAlu.amoResult true AmoOp.max.code 15 (AmoAlu.dataSize 0) 0x800000000000000000 0x010000000000000000
    lineElement true result 15 1 = 1 ∧
    (lineElement true result (BitVec.toNat 15#40 % 16) (2 ^ 0) =
      AmoOp.max.apply (lineElement true 0x800000000000000000 (BitVec.toNat 15#40 % 16) (2 ^ 0))
        (lineElement true 0x010000000000000000 (BitVec.toNat 15#40 % 16) (2 ^ 0)) ∧
    ∀ a' < 16, ¬ (BitVec.toNat 15#40 % 16 ≤ a' ∧ a' < BitVec.toNat 15#40 % 16 + 2 ^ 0) →
      lineByte true result a' = lineByte true 0x800000000000000000 a') :=
  ⟨by decide +kernel, amo_computes true .max 15 (by decide) (by decide) _ _⟩

end OpenPiton.L2
