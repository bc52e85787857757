import OpenPiton.Lib.Counter
import OpenPiton.Lib.Machine
import OpenPiton.Lib.Odometer
import Mathlib.Data.BitVec

namespace OpenPiton.L2

/-- A tile as the invalidations of a broadcast name it. -/
structure Triple where
  chipid : BitVec 14
  x : BitVec 8
  y : BitVec 8
  deriving DecidableEq

def Triple.Within (t max : Triple) : Prop := t.chipid ≤ max.chipid ∧ t.x ≤ max.x ∧ t.y ≤ max.y

/-- How many tiles a mesh of these maxima has. -/
def Triple.nodes (max : Triple) : Nat := (max.chipid.toNat + 1) * (max.x.toNat + 1) * (max.y.toNat + 1)

structure CounterIn where
  rstN : Bool
  max : Triple
  counterOp : BitVec 2
  counterOpVal : Bool

abbrev opClr : BitVec 2 := 0
abbrev opLd : BitVec 2 := 1
abbrev opAdd : BitVec 2 := 2

namespace BroadcastCounter

/-- The registers of `l2_broadcast_counter` after the clock edge. -/
def step (f : Triple) (i : CounterIn) : Triple :=
  if !i.rstN then ⟨0, 0, 0⟩
  else if i.counterOpVal then
    if i.counterOp = opLd then i.max
    else if i.counterOp = opClr then ⟨0, 0, 0⟩
    else if i.counterOp = opAdd then
      if f.x = i.max.x then
        if f.y = i.max.y then
          if f.chipid = i.max.chipid then ⟨0, 0, 0⟩
          else ⟨f.chipid + 1, 0, 0⟩
        else ⟨f.chipid, 0, f.y + 1⟩
      else ⟨f.chipid, f.x + 1, f.y⟩
    else f
  else f

def zero (f : Triple) : Bool := f.x == 0 && f.y == 0 && f.chipid == 0

def max (f : Triple) (i : CounterIn) : Bool := f.x == i.max.x && f.y == i.max.y && f.chipid == i.max.chipid

end BroadcastCounter

namespace CounterIn

/-- A cycle out of reset that adds one or leaves the counter alone, under these maxima. -/
def AddsOrRests (max : Triple) (i : CounterIn) : Prop :=
  i.rstN = true ∧ i.max = max ∧ (i.counterOpVal = true → i.counterOp = opAdd)

instance (max : Triple) (i : CounterIn) : Decidable (i.AddsOrRests max) := inferInstanceAs (Decidable (_ ∧ _))

def clear (max : Triple) : CounterIn := ⟨true, max, opClr, true⟩

def add (max : Triple) : CounterIn := ⟨true, max, opAdd, true⟩

end CounterIn

namespace BroadcastCounter

def additions (is : List CounterIn) : Nat := is.countP (·.counterOpVal)

/-- The outputs after a clear and `k` additions, one a cycle. -/
def nth (max : Triple) (k : Nat) : Triple := ((step · (.add max))^[k]) (step ⟨0, 0, 0⟩ (.clear max))

def digits (t : Triple) : List Nat := [t.x.toNat, t.y.toNat, t.chipid.toNat]

variable {m t u : Triple} {i : CounterIn}

theorem digits_inj (h : digits t = digits u) : t = u := by
  obtain ⟨c, x, y⟩ := t
  obtain ⟨c', x', y'⟩ := u
  simp only [digits, List.cons.injEq, BitVec.toNat_inj, and_true] at h
  rw [h.1, h.2.1, h.2.2]

theorem fits_iff : Odometer.Fits (digits m) (digits t) ↔ t.Within m := by
  simp only [Odometer.Fits, digits, List.forall₂_cons, List.Forall₂.nil, and_true, Triple.Within, BitVec.le_def]
  constructor
  · rintro ⟨hx, hy, hc⟩
    exact ⟨hc, hx, hy⟩
  · rintro ⟨hc, hx, hy⟩
    exact ⟨hx, hy, hc⟩

theorem size_digits (m : Triple) : Odometer.size (digits m) = m.nodes := by
  simp only [Odometer.size, digits, List.map, List.prod_cons, List.prod_nil, Triple.nodes]
  ring

/-- Within the maxima no digit wraps by itself: an addition is a tick. -/
theorem digits_add (h : t.Within m) (hr : i.rstN = true) (hm : i.max = m) (hv : i.counterOpVal = true)
    (ho : i.counterOp = opAdd) : digits (step t i) = Odometer.tick (digits m) (digits t) := by
  subst hm
  obtain ⟨hc, hx, hy⟩ := h
  have hne {w : Nat} {a b : BitVec w} (hn : a ≠ b) : a.toNat ≠ b.toNat := fun he => hn (BitVec.eq_of_toNat_eq he)
  simp only [step, hr, hv, ho, Bool.not_true, Bool.false_eq_true, if_false, if_true]
  by_cases hxm : t.x = i.max.x
  · by_cases hym : t.y = i.max.y
    · by_cases hcm : t.chipid = i.max.chipid
      · simp [digits, Odometer.tick, hxm, hym, hcm]
      · simpa [digits, Odometer.tick, hxm, hym, hcm, hne hcm, -BitVec.toNat_add] using Counter.toNat_succ_of_ne hc hcm
    · simpa [digits, Odometer.tick, hxm, hym, hne hym, -BitVec.toNat_add] using Counter.toNat_succ_of_ne hy hym
  · simpa [digits, Odometer.tick, hxm, hne hxm, -BitVec.toNat_add] using Counter.toNat_succ_of_ne hx hxm

theorem step_rest (hr : i.rstN = true) (hv : i.counterOpVal = false) : step t i = t := by
  simp [step, hr, hv]

theorem zero_iff (m : Triple) : zero t = true ↔ digits t = Odometer.zeros (digits m) := by
  simp only [zero, Bool.and_eq_true, beq_iff_eq, digits, Odometer.zeros, List.map, List.cons.injEq, and_true]
  constructor
  · rintro ⟨⟨hx, hy⟩, hc⟩
    simp [hx, hy, hc]
  · rintro ⟨hx, hy, hc⟩
    exact ⟨⟨BitVec.eq_of_toNat_eq hx, BitVec.eq_of_toNat_eq hy⟩, BitVec.eq_of_toNat_eq hc⟩

theorem max_iff (hm : i.max = m) : max t i = true ↔ digits t = digits m := by
  subst hm
  simp only [max, Bool.and_eq_true, beq_iff_eq]
  constructor
  · rintro ⟨⟨hx, hy⟩, hc⟩
    simp [digits, hx, hy, hc]
  · intro h
    rw [digits_inj h]
    exact ⟨⟨rfl, rfl⟩, rfl⟩

/-- The counter between additions: its digits are those of the odometer after as many ticks. -/
def At (m : Triple) (k : Nat) (t : Triple) : Prop :=
  digits t = (Odometer.tick (digits m))^[k] (Odometer.zeros (digits m))

theorem At.within {k : Nat} (h : At m k t) : t.Within m := by
  rw [← fits_iff, h]
  exact Odometer.iterate_fits _ k

theorem at_clear (t m : Triple) : At m 0 (step t (.clear m)) := rfl

theorem At.cycle {k : Nat} (h : At m k t) (hi : i.AddsOrRests m) :
    At m (k + if i.counterOpVal then 1 else 0) (step t i) := by
  obtain ⟨hr, hm, ho⟩ := hi
  cases hv : i.counterOpVal with
  | false =>
      rw [step_rest hr hv]
      exact h
  | true =>
      rw [At, if_pos rfl, Function.iterate_succ_apply', ← h]
      exact digits_add h.within hr hm hv (ho hv)

theorem At.run {k : Nat} (h : At m k t) {is : List CounterIn} (his : ∀ i ∈ is, i.AddsOrRests m) :
    At m (k + additions is) (Machine.run step t is) := by
  induction is generalizing k t with
  | nil => exact h
  | cons i is ih =>
      have := ih (h.cycle (his i (by simp))) fun j hj => his j (by simp [hj])
      rw [additions, List.countP_cons, Nat.add_comm (List.countP _ _), ← Nat.add_assoc]
      exact this

theorem at_nth (m : Triple) (k : Nat) : At m k (nth m k) := by
  induction k with
  | zero => exact at_clear ⟨0, 0, 0⟩ m
  | succ k ih =>
      rw [nth, Function.iterate_succ_apply']
      exact ih.cycle ⟨rfl, rfl, fun _ => rfl⟩

theorem At.eq_nth {k : Nat} (h : At m k t) : t = nth m (k % m.nodes) := by
  apply digits_inj
  rw [h, at_nth m, Odometer.iterate_eq_iff (Odometer.iterate_fits _ _), Odometer.rank_iterate, size_digits, Nat.mod_mod]

/-- From a clear on, whatever the counter held, with any cycles of rest between the additions: the outputs depend
on the additions modulo the number of tiles, `zero` is high exactly at the first output and `max` at the last, and the
outputs of one turn are the tiles of the mesh, each once. -/
theorem additions_enumerate (m t : Triple) :
    (∀ is : List CounterIn, (∀ i ∈ is, i.AddsOrRests m) →
      let u := Machine.run step (step t (.clear m)) is
      u = nth m (additions is % m.nodes) ∧
        (zero u = true ↔ additions is % m.nodes = 0) ∧
        ∀ i : CounterIn, i.max = m → (max u i = true ↔ additions is % m.nodes = m.nodes - 1)) ∧
      (∀ k, (nth m k).Within m) ∧ ∀ v : Triple, v.Within m → ∃! k, k < m.nodes ∧ nth m k = v := by
  refine ⟨?_, fun k => (at_nth m k).within, ?_⟩
  · intro is his
    have h := (at_clear t m).run his
    rw [Nat.zero_add] at h
    have hpos : 0 < m.nodes := by
      rw [← size_digits, ← Odometer.rank_bounds]
      exact Nat.succ_pos _
    refine ⟨h.eq_nth, ?_, ?_⟩
    · rw [zero_iff m, h, Odometer.iterate_zeros_iff, size_digits]
    · intro i hi
      rw [max_iff hi, h, Odometer.iterate_bounds_iff, size_digits]
      omega
  · intro v hv
    obtain ⟨k, ⟨hk, he⟩, hu⟩ := Odometer.passes_once (fits_iff.mpr hv)
    rw [size_digits] at hk
    refine ⟨k, ⟨hk, digits_inj ((at_nth m k).trans he)⟩, ?_⟩
    rintro j ⟨hj, hn⟩
    apply hu j
    refine ⟨by rwa [size_digits], ?_⟩
    rw [← hn]
    exact (at_nth m j).symm

/-- Two chips of three by two tiles: after eleven additions and a rest the last tile. -/
theorem additions_enumerate_two_chips :
    let m : Triple := ⟨1, 2, 1⟩
    let u := Machine.run step (step ⟨5, 9, 7⟩ (.clear m)) (⟨true, m, opClr, false⟩ :: List.replicate 11 (.add m))
    max u (.add m) = true ∧ u = m := by
  intro m u
  have h := (additions_enumerate m ⟨5, 9, 7⟩).1 (⟨true, m, opClr, false⟩ :: List.replicate 11 (.add m)) (by decide)
  exact ⟨(h.2.2 (.add m) rfl).mpr (by decide), h.1.trans (by decide)⟩

end BroadcastCounter

end OpenPiton.L2
