import Mathlib.Data.BitVec
import Mathlib.Logic.Function.Basic

namespace OpenPiton.Axi

abbrev Byte : Type := BitVec 8

abbrev Mem : Type := Nat → Byte

def byte {n : Nat} (x : BitVec n) (k : Nat) : Byte := x.extractLsb' (8 * k) 8

theorem byte_eq {n n' : Nat} {x : BitVec n} {y : BitVec n'} {k k' : Nat}
    (h : ∀ j < 8, x.getLsbD (8 * k + j) = y.getLsbD (8 * k' + j)) : byte x k = byte y k' := by
  refine BitVec.eq_of_getLsbD_eq fun j hj => ?_
  rw [byte, byte, BitVec.getLsbD_extractLsb', BitVec.getLsbD_extractLsb', h j hj]

namespace Mem

/-- The memory with the bytes of a range replaced. -/
def put (m : Mem) (base size : Nat) (f : Nat → Byte) : Mem := fun a =>
  if base ≤ a ∧ a < base + size then f (a - base) else m a

variable (m : Mem) {base size a : Nat} (f : Nat → Byte)

theorem put_same {k : Nat} (hk : k < size) : m.put base size f (base + k) = f k := by
  rw [put, if_pos (by omega), Nat.add_sub_cancel_left]

end Mem

/-- A burst of incrementing addresses: `len` transfers behind the first, each of `2 ^ size` bytes. -/
structure Burst where
  addr : Nat
  len : Nat
  size : Nat
  deriving DecidableEq

/-- A transfer of write data on a bus of `2 ^ w` bytes. -/
structure Beat (w : Nat) where
  data : BitVec (8 * 2 ^ w)
  strb : BitVec (2 ^ w)
  last : Bool
  deriving DecidableEq

namespace Burst

variable {w : Nat} (b : Burst)

def beatAddr (i : Nat) : Nat := if i = 0 then b.addr else b.addr / 2 ^ b.size * 2 ^ b.size + i * 2 ^ b.size

/-- The bytes of a transfer: from its address up to the next multiple of its size. -/
def Covers (i a : Nat) : Prop := b.beatAddr i ≤ a ∧ a < b.beatAddr i / 2 ^ b.size * 2 ^ b.size + 2 ^ b.size

instance (i a : Nat) : Decidable (b.Covers i a) := inferInstanceAs (Decidable (_ ∧ _))

/-- A byte goes over the lane that its address has on the bus, if its strobe is set. -/
def writeBeat (i : Nat) (beat : Beat w) (m : Mem) : Mem := fun a =>
  if b.Covers i a ∧ beat.strb.getLsbD (a % 2 ^ w) then byte beat.data (a % 2 ^ w) else m a

def writeFrom (m : Mem) : Nat → List (Beat w) → Mem
  | _, [] => m
  | i, beat :: beats => writeFrom (b.writeBeat i beat m) (i + 1) beats

/-- The memory after the transfers of a write burst. -/
def write (m : Mem) (beats : List (Beat w)) : Mem := b.writeFrom m 0 beats

/-- The transfers of a read burst have the bytes of the memory on their lanes. -/
def Serves (m : Mem) (beats : List (BitVec (8 * 2 ^ w))) : Prop :=
  ∀ i r, beats[i]? = some r → ∀ a, b.Covers i a → byte r (a % 2 ^ w) = m a

variable {b}

theorem Covers.exists_offset {i a : Nat} (h : b.Covers i a) : ∃ k < 2 ^ b.size, a = b.beatAddr i + k := by
  have hle := Nat.div_mul_le_self (b.beatAddr i) (2 ^ b.size)
  obtain ⟨k, rfl⟩ := Nat.exists_eq_add_of_le h.1
  exact ⟨k, by have := h.2; omega, rfl⟩

instance (m : Mem) (beats : List (BitVec (8 * 2 ^ w))) : Decidable (b.Serves m beats) :=
  decidable_of_iff
    (∀ i < beats.length, ∀ k < 2 ^ b.size, b.Covers i (b.beatAddr i + k) →
      byte (beats.getD i 0) ((b.beatAddr i + k) % 2 ^ w) = m (b.beatAddr i + k)) <| by
    constructor
    · intro h i r hr a ha
      obtain ⟨k, hk, rfl⟩ := ha.exists_offset
      have hi : i < beats.length := (List.getElem?_eq_some_iff.mp hr).1
      rw [← h i hi k hk ha, List.getD_eq_getElem?_getD, hr]
      rfl
    · intro h i hi k _ hk
      refine h i _ ?_ _ hk
      rw [List.getD_eq_getElem?_getD, List.getElem?_eq_getElem hi]
      rfl

theorem covers_iff (h : 2 ^ b.size ∣ b.addr) (i a : Nat) :
    b.Covers i a ↔ a / 2 ^ b.size = b.addr / 2 ^ b.size + i := by
  have hpos := Nat.two_pow_pos b.size
  obtain ⟨n, hn⟩ := h
  have haddr : b.beatAddr i = (n + i) * 2 ^ b.size := by
    unfold beatAddr
    split
    next h0 => rw [h0, hn, Nat.add_zero, Nat.mul_comm]
    next => rw [hn, Nat.mul_div_cancel_left _ hpos, Nat.add_mul]
  rw [Covers, haddr, Nat.mul_div_cancel _ hpos, hn, Nat.mul_div_cancel_left _ hpos, ← Nat.succ_mul,
    ← Nat.le_div_iff_mul_le hpos, ← Nat.div_lt_iff_lt_mul hpos]
  omega

theorem writeFrom_eq (h : 2 ^ b.size ∣ b.addr) (m : Mem) (i : Nat) (beats : List (Beat w)) (a : Nat) :
    (∀ j beat, beats[j]? = some beat → a / 2 ^ b.size = b.addr / 2 ^ b.size + (i + j) →
      b.writeFrom m i beats a =
        if beat.strb.getLsbD (a % 2 ^ w) then byte beat.data (a % 2 ^ w) else m a) ∧
    ((∀ j < beats.length, a / 2 ^ b.size ≠ b.addr / 2 ^ b.size + (i + j)) → b.writeFrom m i beats a = m a) := by
  induction beats generalizing m i with
  | nil => exact ⟨fun j beat hj => by simp at hj, fun _ => rfl⟩
  | cons beat beats ih =>
      obtain ⟨ihget, ihnone⟩ := ih (b.writeBeat i beat m) (i + 1)
      have hmiss : a / 2 ^ b.size ≠ b.addr / 2 ^ b.size + i → b.writeBeat i beat m a = m a := by
        intro hne
        rw [writeBeat, if_neg]
        exact fun hc => hne ((covers_iff h i a).mp hc.1)
      constructor
      · intro j beat' hj ha
        rw [writeFrom]
        cases j with
        | zero =>
            rw [List.getElem?_cons_zero, Option.some_inj] at hj
            subst hj
            rw [ihnone (fun k _ hk => by omega), writeBeat]
            simp [covers_iff h, ha]
        | succ j =>
            rw [ihget j beat' (by simpa using hj) (by omega), hmiss (by omega)]
      · intro hnone
        rw [writeFrom, ihnone fun j hj => ?_, hmiss (hnone 0 (Nat.succ_pos _))]
        have := hnone (j + 1) (by simpa using hj)
        omega

end Burst

end OpenPiton.Axi
