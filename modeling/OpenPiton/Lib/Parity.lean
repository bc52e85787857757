import Mathlib.Data.BitVec
import Mathlib.Data.List.Count
import Mathlib.Data.List.Perm.Basic

namespace OpenPiton.Parity

variable {ι : Type*}

/-- The exclusive or of the bits at the places of a list. -/
def xorOf (f : ι → Bool) (l : List ι) : Bool := l.foldr (fun i b => f i ^^ b) false

variable {f g : ι → Bool} {l l' : List ι}

@[simp] theorem xorOf_nil : xorOf f [] = false := rfl

@[simp] theorem xorOf_cons {i : ι} : xorOf f (i :: l) = (f i ^^ xorOf f l) := rfl

theorem xorOf_append : xorOf f (l ++ l') = (xorOf f l ^^ xorOf f l') := by
  induction l with
  | nil => simp
  | cons i l ih => simp [ih]

theorem xorOf_flatMap {κ : Type*} {s : κ → List ι} {m : List κ} :
    xorOf f (m.flatMap s) = xorOf (fun j => xorOf f (s j)) m := by
  induction m with
  | nil => rfl
  | cons j m ih => rw [List.flatMap_cons, xorOf_append, ih, xorOf_cons]

theorem xorOf_congr (h : ∀ i ∈ l, f i = g i) : xorOf f l = xorOf g l := by
  induction l with
  | nil => rfl
  | cons i l ih =>
      have htail : ∀ j ∈ l, f j = g j := fun j hj => h j (List.mem_cons_of_mem i hj)
      rw [xorOf_cons, xorOf_cons, h i List.mem_cons_self, ih htail]

theorem xorOf_xor : xorOf (fun i => f i ^^ g i) l = (xorOf f l ^^ xorOf g l) := by
  induction l with
  | nil => rfl
  | cons i l ih =>
      simp only [xorOf_cons, ih]
      cases f i <;> cases g i <;> simp

theorem xorOf_perm (h : l.Perm l') : xorOf f l = xorOf f l' := by
  induction h with
  | nil => rfl
  | cons i _ ih => simp [ih]
  | swap i j l => simp [Bool.xor_left_comm]
  | trans _ _ ih ih' => exact ih.trans ih'

variable [DecidableEq ι]

theorem xorOf_single {k : ι} : xorOf (fun i => i == k) l = (l.count k % 2 == 1) := by
  induction l with
  | nil => rfl
  | cons i l ih =>
      rw [xorOf_cons, ih, List.count_cons]
      by_cases h : i = k
      · rcases Nat.mod_two_eq_zero_or_one (l.count k) with h' | h' <;> simp [h, h', Nat.add_mod]
      · have hne : (i == k) = false := beq_eq_false_iff_ne.mpr h
        simp [hne]

theorem xorOf_of_even (h : ∀ i ∈ l, l.count i % 2 = 0) : xorOf f l = false := by
  induction hn : l.length using Nat.strongRecOn generalizing l with
  | ind n ih =>
    cases l with
    | nil => rfl
    | cons i t =>
        have hi := h i List.mem_cons_self
        rw [List.count_cons_self] at hi
        have hmem : i ∈ t := by
          by_contra hnot
          rw [List.count_eq_zero_of_not_mem hnot] at hi
          cases hi
        have hperm : t.Perm (i :: t.erase i) := List.perm_cons_erase hmem
        have hlen : (t.erase i).length < n := by
          have := hperm.length_eq
          simp only [List.length_cons] at hn this
          omega
        have heven : ∀ j ∈ t.erase i, (t.erase i).count j % 2 = 0 := by
          intro j hj
          have hall := h j (List.mem_cons_of_mem i (List.mem_of_mem_erase hj))
          rw [(hperm.cons i).count_eq, List.count_cons, List.count_cons] at hall
          split at hall <;> omega
        rw [xorOf_cons, xorOf_perm hperm, xorOf_cons, ih _ hlen heven rfl]
        simp

/-- The word with the given bits. -/
def ofBits : (w : Nat) → (Nat → Bool) → BitVec w
  | 0, _ => 0#0
  | w + 1, f => (ofBits w f).cons (f w)

theorem getLsbD_ofBits {w i : Nat} {f : Nat → Bool} (hi : i < w) : (ofBits w f).getLsbD i = f i := by
  induction w with
  | zero => exact absurd hi (Nat.not_lt_zero i)
  | succ w ih =>
      rw [ofBits, BitVec.getLsbD_cons]
      split
      · rename_i h
        rw [h]
      · exact ih (by omega)

end OpenPiton.Parity
