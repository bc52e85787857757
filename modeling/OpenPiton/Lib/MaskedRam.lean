import OpenPiton.Lib.Machine
import Mathlib.Data.BitVec
import Mathlib.Logic.Function.Basic

namespace OpenPiton

/-- What a cycle asks of a memory: to read a word, and to write the bits of a word under a mask. -/
structure Access (α : Type*) (d : Nat) where
  read : Option α
  write : Option (α × BitVec d × BitVec d)

/-- A memory of words written bit by bit, with the word that was read last. -/
structure MaskedRam (α : Type*) (d : Nat) where
  mem : α → BitVec d
  out : BitVec d

namespace MaskedRam

variable {α : Type*} {d : Nat}

/-- The old word with the bits under the mask from the new one. -/
def merge (old new mask : BitVec d) : BitVec d := (old &&& ~~~mask) ||| (new &&& mask)

theorem getLsbD_merge (old new mask : BitVec d) {b : Nat} (hb : b < d) :
    (merge old new mask).getLsbD b = if mask.getLsbD b then new.getLsbD b else old.getLsbD b := by
  simp only [merge, BitVec.getLsbD_or, BitVec.getLsbD_and, BitVec.getLsbD_not, hb, decide_true, Bool.true_and]
  cases mask.getLsbD b <;> simp

variable [DecidableEq α]

/-- A read sees the memory before the write of its cycle. -/
def step (s : MaskedRam α d) (c : Access α d) : MaskedRam α d where
  mem := match c.write with
    | some (a, mask, data) => Function.update s.mem a (merge (s.mem a) data mask)
    | none => s.mem
  out := match c.read with
    | some a => s.mem a
    | none => s.out

/-- The cycle writes the bit `b` of the word at `a`. -/
def writes (a : α) (b : Nat) (c : Access α d) : Bool :=
  match c.write with
  | some (a', mask, _) => a' = a && mask.getLsbD b
  | none => false

def bit (b : Nat) (c : Access α d) : Bool :=
  match c.write with
  | some (_, _, data) => data.getLsbD b
  | none => false

/-- The bit `b` of the word at `a` as it was written last, or zero. -/
def lastWrite (cs : List (Access α d)) (a : α) (b : Nat) : Bool :=
  match cs.reverse.find? (writes a b) with
  | some c => bit b c
  | none => false

variable {s : MaskedRam α d} {a : α} {b : Nat}

theorem lastWrite_concat (cs : List (Access α d)) (c : Access α d) :
    lastWrite (cs ++ [c]) a b = if writes a b c then bit b c else lastWrite cs a b := by
  rw [lastWrite, List.reverse_concat, List.find?_cons]
  cases writes a b c <;> rfl

theorem step_mem (c : Access α d) (hb : b < d) :
    ((s.step c).mem a).getLsbD b = if writes a b c then bit b c else (s.mem a).getLsbD b := by
  obtain ⟨read, write⟩ := c
  cases write with
  | none => rfl
  | some w =>
      obtain ⟨a', mask, data⟩ := w
      simp only [step, writes, bit, Bool.and_eq_true, decide_eq_true_eq]
      by_cases ha : a' = a
      · subst ha
        rw [Function.update_self, getLsbD_merge _ _ _ hb]
        simp
      · rw [Function.update_of_ne (Ne.symm ha), if_neg (fun h => ha h.1)]

/-- From a memory of zeros, each bit is the one written last. -/
theorem run_mem (h : ∀ a, s.mem a = 0) (cs : List (Access α d)) (hb : b < d) :
    ((Machine.run step s cs).mem a).getLsbD b = lastWrite cs a b := by
  induction cs using List.reverseRecOn with
  | nil => simp [Machine.run, h, lastWrite]
  | append_singleton cs c ih =>
      rw [Machine.run_append, lastWrite_concat, ← ih]
      exact step_mem c hb

theorem run_out_of_no_read {cs : List (Access α d)} (h : ∀ c ∈ cs, c.read = none) :
    (Machine.run step s cs).out = s.out := by
  refine Machine.run_keeps (P := fun t : MaskedRam α d => t.out = s.out) ?_ rfl h
  intro t c ht hc
  simp only [step, hc]
  exact ht

/-- The output is the word at the address of the last read, as it was before that read. -/
theorem run_out (h : ∀ a, s.mem a = 0) {before after : List (Access α d)} {c : Access α d} (hc : c.read = some a)
    (hafter : ∀ c ∈ after, c.read = none) (hb : b < d) :
    (Machine.run step s (before ++ c :: after)).out.getLsbD b = lastWrite before a b := by
  rw [← run_mem h before hb, Machine.run_append]
  change (Machine.run step (step _ c) after).out.getLsbD b = _
  rw [run_out_of_no_read hafter]
  simp only [step, hc]

end MaskedRam

end OpenPiton
