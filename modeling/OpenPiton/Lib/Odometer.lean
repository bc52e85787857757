import Mathlib.Algebra.BigOperators.Group.List.Basic
import Mathlib.Data.List.Forall2
import Mathlib.Logic.ExistsUnique
import Mathlib.Tactic.Ring

namespace OpenPiton.Odometer

/-- One more on a row of digits, the least significant first, each between zero and its bound:
a digit at its bound goes back to zero and carries. -/
def tick : List Nat → List Nat → List Nat
  | b :: bs, d :: ds => if d = b then 0 :: tick bs ds else (d + 1) :: ds
  | _, ds => ds

def Fits (bs ds : List Nat) : Prop := List.Forall₂ (· ≤ ·) ds bs

def size (bs : List Nat) : Nat := (bs.map (· + 1)).prod

def zeros (bs : List Nat) : List Nat := bs.map fun _ => 0

def rank : List Nat → List Nat → Nat
  | b :: bs, d :: ds => d + (b + 1) * rank bs ds
  | _, _ => 0

variable {bs ds es : List Nat}

theorem zeros_fits (bs : List Nat) : Fits bs (zeros bs) := by
  induction bs with
  | nil => exact .nil
  | cons b bs ih => exact .cons (Nat.zero_le b) ih

theorem bounds_fit (bs : List Nat) : Fits bs bs := by
  induction bs with
  | nil => exact .nil
  | cons b bs ih => exact .cons (Nat.le_refl b) ih

theorem tick_fits (h : Fits bs ds) : Fits bs (tick bs ds) := by
  induction h with
  | nil => exact .nil
  | @cons d b ds bs hd h ih =>
      rw [tick]
      by_cases hb : d = b
      · rw [if_pos hb]
        exact .cons (Nat.zero_le b) ih
      · rw [if_neg hb]
        exact .cons (by omega) h

theorem rank_lt (h : Fits bs ds) : rank bs ds < size bs := by
  induction h with
  | nil => simp [rank, size]
  | @cons d b ds bs hd h ih =>
      calc rank (b :: bs) (d :: ds) = d + (b + 1) * rank bs ds := rfl
        _ < (b + 1) * (rank bs ds + 1) := by ring_nf; omega
        _ ≤ (b + 1) * size bs := Nat.mul_le_mul_left _ ih
        _ = size (b :: bs) := by simp [size]

theorem rank_tick (h : Fits bs ds) : rank bs (tick bs ds) = (rank bs ds + 1) % size bs := by
  induction h with
  | nil => simp [rank, size]
  | @cons d b ds bs hd h ih =>
      have hs : size (b :: bs) = (b + 1) * size bs := by simp [size]
      by_cases hb : d = b
      · subst hb
        rw [tick, if_pos rfl, hs]
        calc 0 + (d + 1) * rank bs (tick bs ds) = (d + 1) * ((rank bs ds + 1) % size bs) := by rw [ih, Nat.zero_add]
          _ = (d + 1) * (rank bs ds + 1) % ((d + 1) * size bs) := (Nat.mul_mod_mul_left _ _ _).symm
          _ = _ := by simp only [rank]; ring_nf
      · have hlt : d + 1 ≤ b := by omega
        have hf : Fits (b :: bs) ((d + 1) :: ds) := .cons hlt h
        rw [tick, if_neg hb, Nat.mod_eq_of_lt]
        · simp only [rank]
          omega
        · have := rank_lt hf
          simp only [rank] at this ⊢
          omega

theorem rank_inj (hd : Fits bs ds) (he : Fits bs es) (h : rank bs ds = rank bs es) : ds = es := by
  induction hd generalizing es with
  | nil =>
      cases he
      rfl
  | @cons d b ds bs hle hd ih =>
      cases he with
      | @cons e _ es _ hle' he =>
          simp only [rank] at h
          have hmod := congrArg (· % (b + 1)) h
          have hdiv := congrArg (· / (b + 1)) h
          simp only [Nat.add_mul_mod_self_left, Nat.mod_eq_of_lt (Nat.lt_succ_of_le hle),
            Nat.mod_eq_of_lt (Nat.lt_succ_of_le hle')] at hmod
          simp only [Nat.add_mul_div_left _ _ (Nat.succ_pos b), Nat.div_eq_of_lt (Nat.lt_succ_of_le hle),
            Nat.div_eq_of_lt (Nat.lt_succ_of_le hle'), Nat.zero_add] at hdiv
          rw [hmod, ih he hdiv]

theorem rank_zeros (bs : List Nat) : rank bs (zeros bs) = 0 := by
  induction bs with
  | nil => rfl
  | cons b bs ih =>
      change 0 + (b + 1) * rank bs (zeros bs) = 0
      rw [ih, Nat.mul_zero]

theorem rank_bounds (bs : List Nat) : rank bs bs + 1 = size bs := by
  induction bs with
  | nil => rfl
  | cons b bs ih =>
      have hs : size (b :: bs) = (b + 1) * size bs := by simp [size]
      rw [hs, ← ih, rank]
      ring

theorem iterate_fits (bs : List Nat) (k : Nat) : Fits bs ((tick bs)^[k] (zeros bs)) := by
  induction k with
  | zero => exact zeros_fits bs
  | succ k ih =>
      rw [Function.iterate_succ_apply']
      exact tick_fits ih

/-- The rank counts the ticks, modulo the number of rows. -/
theorem rank_iterate (bs : List Nat) (k : Nat) : rank bs ((tick bs)^[k] (zeros bs)) = k % size bs := by
  induction k with
  | zero => rw [Function.iterate_zero_apply, rank_zeros, Nat.zero_mod]
  | succ k ih => rw [Function.iterate_succ_apply', rank_tick (iterate_fits bs k), ih, Nat.mod_add_mod]

theorem iterate_eq_iff (h : Fits bs ds) (k : Nat) : (tick bs)^[k] (zeros bs) = ds ↔ k % size bs = rank bs ds := by
  constructor
  · intro he
    rw [← rank_iterate bs k, he]
  · intro he
    apply rank_inj (iterate_fits bs k) h
    rw [rank_iterate, he]

/-- Every row of digits within the bounds is passed exactly once in a turn. -/
theorem passes_once (h : Fits bs ds) : ∃! k, k < size bs ∧ (tick bs)^[k] (zeros bs) = ds := by
  refine ⟨rank bs ds, ⟨rank_lt h, (iterate_eq_iff h _).mpr (Nat.mod_eq_of_lt (rank_lt h))⟩, ?_⟩
  rintro k ⟨hk, he⟩
  rw [← (iterate_eq_iff h k).mp he, Nat.mod_eq_of_lt hk]

theorem iterate_zeros_iff (bs : List Nat) (k : Nat) : (tick bs)^[k] (zeros bs) = zeros bs ↔ k % size bs = 0 := by
  rw [iterate_eq_iff (zeros_fits bs), rank_zeros]

theorem iterate_bounds_iff (bs : List Nat) (k : Nat) : (tick bs)^[k] (zeros bs) = bs ↔ k % size bs + 1 = size bs := by
  rw [iterate_eq_iff (bounds_fit bs), ← rank_bounds bs]
  omega

end OpenPiton.Odometer
