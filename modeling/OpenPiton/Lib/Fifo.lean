import OpenPiton.Lib.Ring

namespace OpenPiton

/-- A queue in a memory with a counter: entries are written at `wrPtr` and read at `rdPtr`. -/
structure Fifo (α : Type*) where
  mem : Nat → α
  rdPtr : Nat := 0
  wrPtr : Nat := 0
  counter : Nat := 0

namespace Fifo

variable {α : Type*} {n : Nat}

/-- A write of the words of a list to consecutive slots modulo `n`. -/
def writeFrom (n : Nat) (mem : Nat → α) (ptr : Nat) : List α → Nat → α
  | [] => mem
  | a :: as => writeFrom n (Function.update mem (ptr % n) a) (ptr + 1) as

theorem writeFrom_other {mem : Nat → α} {ptr k : Nat} {as : List α}
    (h : ∀ j < as.length, (ptr + j) % n ≠ k) : writeFrom n mem ptr as k = mem k := by
  induction as generalizing mem ptr with
  | nil => rfl
  | cons a as ih =>
    have hne : k ≠ ptr % n := fun hk => h 0 (by simp) (by rw [Nat.add_zero, hk])
    have ht : ∀ j < as.length, (ptr + 1 + j) % n ≠ k := by
      intro j hj
      have := h (j + 1) (by simpa using hj)
      rwa [Nat.add_assoc, Nat.add_comm 1 j]
    rw [writeFrom, ih ht, Function.update_of_ne hne]

theorem writeFrom_get {mem : Nat → α} {ptr : Nat} {as : List α} (hlen : as.length ≤ n)
    {j : Nat} {a : α} (hj : as[j]? = some a) : writeFrom n mem ptr as ((ptr + j) % n) = a := by
  induction as generalizing mem ptr j with
  | nil => simp at hj
  | cons b as ih =>
    rw [List.length_cons] at hlen
    cases j with
    | zero =>
      have hother : ∀ i < as.length, (ptr + 1 + i) % n ≠ (ptr + 0) % n := by
        intro i hi he
        rw [Nat.add_assoc] at he
        have := Ring.add_mod_inj (a := ptr) (i := 1 + i) (j := 0) (by omega) (by omega) he
        omega
      rw [writeFrom, writeFrom_other hother, Nat.add_zero, Function.update_self]
      simpa using hj
    | succ j =>
      rw [writeFrom, Nat.add_comm j 1, ← Nat.add_assoc]
      exact ih (by omega) (by simpa using hj)

/-- The queue holds the list `l`, oldest first. -/
structure Holds (n : Nat) (f : Fifo α) (l : List α) : Prop where
  rd_lt : f.rdPtr < n
  length_le : l.length ≤ n
  counter_eq : f.counter = l.length
  wr_eq : f.wrPtr = (f.rdPtr + l.length) % n
  get : ∀ k a, l[k]? = some a → f.mem ((f.rdPtr + k) % n) = a

namespace Holds

variable {f g : Fifo α} {l as : List α}

theorem empty (hn : 0 < n) (mem : Nat → α) : Holds n ⟨mem, 0, 0, 0⟩ [] where
  rd_lt := hn
  length_le := Nat.zero_le _
  counter_eq := rfl
  wr_eq := by simp
  get := by simp

theorem push (h : Holds n f l) (hlen : l.length + as.length ≤ n) (hmem : g.mem = writeFrom n f.mem f.wrPtr as)
    (hrd : g.rdPtr = f.rdPtr) (hwr : g.wrPtr = (f.wrPtr + as.length) % n)
    (hcounter : g.counter = f.counter + as.length) : Holds n g (l ++ as) where
  rd_lt := by rw [hrd]; exact h.rd_lt
  length_le := by simpa using hlen
  counter_eq := by rw [hcounter, h.counter_eq, List.length_append]
  wr_eq := by rw [hwr, h.wr_eq, hrd, Nat.mod_add_mod, List.length_append, Nat.add_assoc]
  get := by
    intro k a hk
    rw [hmem, hrd]
    rcases Nat.lt_or_ge k l.length with hlt | hge
    · rw [List.getElem?_append_left hlt] at hk
      rw [writeFrom_other, h.get k a hk]
      intro j hj he
      rw [h.wr_eq, Nat.mod_add_mod, Nat.add_assoc] at he
      have := Ring.add_mod_inj (i := l.length + j) (j := k) (by omega) (by omega) he
      omega
    · rw [List.getElem?_append_right hge] at hk
      have hget := @writeFrom_get _ n f.mem f.wrPtr as (by omega) _ _ hk
      rwa [h.wr_eq, Nat.mod_add_mod, Nat.add_assoc, Nat.add_sub_cancel' hge, ← h.wr_eq] at hget

theorem pop {k : Nat} (h : Holds n f l) (hk : k ≤ l.length) (hmem : g.mem = f.mem)
    (hrd : g.rdPtr = (f.rdPtr + k) % n) (hwr : g.wrPtr = f.wrPtr)
    (hcounter : g.counter = f.counter - k) : Holds n g (l.drop k) where
  rd_lt := by rw [hrd]; exact Nat.mod_lt _ (Nat.zero_lt_of_lt h.rd_lt)
  length_le := by
    have := h.length_le
    rw [List.length_drop]
    omega
  counter_eq := by rw [hcounter, h.counter_eq, List.length_drop]
  wr_eq := by
    rw [hwr, h.wr_eq, hrd, Nat.mod_add_mod, List.length_drop, Nat.add_assoc, Nat.add_sub_cancel' hk]
  get := by
    intro j a hj
    rw [List.getElem?_drop] at hj
    rw [hmem, hrd, Nat.mod_add_mod, Nat.add_assoc]
    exact h.get _ a hj

end Holds

end Fifo

end OpenPiton
