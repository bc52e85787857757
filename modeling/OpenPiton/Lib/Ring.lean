import Mathlib.Algebra.BigOperators.Group.Finset.Basic
import Mathlib.Data.Nat.ModEq

namespace OpenPiton.Ring

variable {α : Type*} {n : Nat}

theorem add_mod_inj {a i j : Nat} (hi : i < n) (hj : j < n) (h : (a + i) % n = (a + j) % n) : i = j :=
  Nat.ModEq.eq_of_lt_of_lt (Nat.ModEq.add_left_cancel' a h) hi hj

theorem exists_offset {a k : Nat} (ha : a < n) (hk : k < n) : ∃ j < n, k = (a + j) % n := by
  refine ⟨(k + (n - a)) % n, Nat.mod_lt _ (by omega), ?_⟩
  rw [Nat.add_mod_mod, show a + (k + (n - a)) = k + n by omega, Nat.add_mod_right, Nat.mod_eq_of_lt hk]

/-- `n` slots with valid bits, a read and a write index hold the queue `l`, oldest first. -/
structure Holds (n : Nat) (slot : Nat → α) (val : Nat → Bool) (rd wr : Nat) (l : List α) : Prop where
  rd_lt : rd < n
  length_le : l.length ≤ n
  wr_eq : wr = (rd + l.length) % n
  get : ∀ k a, l[k]? = some a → slot ((rd + k) % n) = a
  val_iff : ∀ k < n, val ((rd + k) % n) = true ↔ k < l.length

namespace Holds

variable {slot : Nat → α} {val : Nat → Bool} {rd wr : Nat} {l : List α} {a : α}

theorem empty (hn : 0 < n) : Holds n slot (fun _ => false) 0 0 [] where
  rd_lt := hn
  length_le := by simp
  wr_eq := by simp
  get := by simp
  val_iff := by simp

theorem map {β : Type*} (h : Holds n slot val rd wr l) (f : α → β) :
    Holds n (fun k => f (slot k)) val rd wr (l.map f) where
  rd_lt := h.rd_lt
  length_le := by simpa using h.length_le
  wr_eq := by simpa using h.wr_eq
  get := by
    intro k b hk
    rw [List.getElem?_map, Option.map_eq_some_iff] at hk
    obtain ⟨a, ha, rfl⟩ := hk
    rw [h.get k a ha]
  val_iff := by simpa using h.val_iff

theorem val_rd (h : Holds n slot val rd wr l) : val rd = true ↔ l ≠ [] := by
  have := h.val_iff 0 (Nat.zero_lt_of_lt h.rd_lt)
  rwa [Nat.add_zero, Nat.mod_eq_of_lt h.rd_lt, List.length_pos_iff] at this

theorem head (h : Holds n slot val rd wr (a :: l)) : slot rd = a := by
  have := h.get 0 a rfl
  rwa [Nat.add_zero, Nat.mod_eq_of_lt h.rd_lt] at this

theorem val_wr (h : Holds n slot val rd wr l) (hl : l.length < n) : val wr = false := by
  have := h.val_iff l.length hl
  rw [← h.wr_eq] at this
  simpa using this

theorem length_lt_of_val_wr (h : Holds n slot val rd wr l) (hv : val wr = false) : l.length < n := by
  have hn := Nat.zero_lt_of_lt h.rd_lt
  refine Nat.lt_of_le_of_ne h.length_le ?_
  intro he
  rw [h.wr_eq, he, Nat.add_mod_right, Nat.mod_eq_of_lt h.rd_lt] at hv
  have := h.val_rd.mpr (List.length_pos_iff.mp (by omega))
  rw [hv] at this
  cases this

theorem mem (h : Holds n slot val rd wr l) {k : Nat} (hk : k < n) (hv : val k = true) : slot k ∈ l := by
  obtain ⟨j, hj, rfl⟩ := exists_offset h.rd_lt hk
  have hlt := (h.val_iff j hj).mp hv
  rw [h.get j l[j] (List.getElem?_eq_getElem hlt)]
  exact List.getElem_mem hlt

theorem pop (h : Holds n slot val rd wr (a :: l)) :
    Holds n slot (Function.update val rd false) ((rd + 1) % n) wr l := by
  have hn : 0 < n := Nat.zero_lt_of_lt h.rd_lt
  have hlen : l.length + 1 ≤ n := h.length_le
  refine ⟨Nat.mod_lt _ hn, by omega, ?_, ?_, ?_⟩
  · rw [h.wr_eq, Nat.mod_add_mod, List.length_cons]
    congr 1; omega
  · intro k b hb
    rw [Nat.mod_add_mod, Nat.add_assoc, Nat.add_comm 1 k]
    exact h.get (k + 1) b (by simpa using hb)
  · intro k hk
    rw [Nat.mod_add_mod, Nat.add_assoc, Nat.add_comm 1 k]
    rcases Nat.lt_or_ge (k + 1) n with hk1 | hk1
    · have hne : (rd + (k + 1)) % n ≠ rd := by
        intro he
        have := add_mod_inj (a := rd) hk1 hn (by rw [he, Nat.add_zero, Nat.mod_eq_of_lt h.rd_lt])
        omega
      rw [Function.update_of_ne hne, h.val_iff _ hk1, List.length_cons]
      omega
    · have hrd : (rd + (k + 1)) % n = rd := by
        rw [show k + 1 = n by omega, Nat.add_mod_right, Nat.mod_eq_of_lt h.rd_lt]
      rw [hrd, Function.update_self]
      simp only [Bool.false_eq_true, false_iff]
      omega

theorem push (h : Holds n slot val rd wr l) (hl : l.length < n) (a : α) :
    Holds n (Function.update slot wr a) (Function.update val wr true) rd ((wr + 1) % n) (l ++ [a]) := by
  have hwr := h.wr_eq
  have hne : ∀ k < n, k ≠ l.length → (rd + k) % n ≠ wr := fun k hk hkl he =>
    hkl (add_mod_inj hk hl (he.trans hwr))
  refine ⟨h.rd_lt, by simp; omega, ?_, ?_, ?_⟩
  · rw [hwr, Nat.mod_add_mod]; simp [Nat.add_assoc]
  · intro k b hb
    rcases Nat.lt_trichotomy k l.length with hk | hk | hk
    · rw [Function.update_of_ne (hne k (by omega) (by omega))]
      exact h.get k b (by rwa [List.getElem?_append_left hk] at hb)
    · subst k
      rw [← hwr, Function.update_self]
      simpa using hb
    · rw [List.getElem?_eq_none (by simp; omega)] at hb
      cases hb
  · intro k hk
    by_cases hkl : k = l.length
    · subst k; simp [← hwr]
    · rw [Function.update_of_ne (hne k hk hkl), h.val_iff k hk]
      simp; omega

/-- A cycle that may take the oldest entry and may write one to a free slot. -/
theorem cycle (h : Holds n slot val rd wr l) {take put : Bool} (htake : take = true → l ≠ [])
    (hput : put = true → val wr = false) (a : α) :
    Holds n (fun k => if k = wr ∧ put then a else slot k)
      (fun k => if k = wr ∧ put then true else if k = rd ∧ take then false else val k)
      (if take then (rd + 1) % n else rd) (if put then (wr + 1) % n else wr)
      ((if take then l.tail else l) ++ if put then [a] else []) := by
  have hlen : put = true → l.length < n := fun hp => h.length_lt_of_val_wr (hput hp)
  have htaken : Holds n slot (fun k => if k = rd ∧ take then false else val k)
      (if take then (rd + 1) % n else rd) wr (if take then l.tail else l) := by
    cases take with
    | false => simpa using h
    | true =>
        obtain ⟨b, rest, rfl⟩ := List.exists_cons_of_ne_nil (htake rfl)
        have hval : (fun k => if k = rd ∧ true = true then false else val k) = Function.update val rd false := by
          funext k
          simp [Function.update_apply]
        rw [hval]
        exact h.pop
  cases put with
  | false => simpa using htaken
  | true =>
      have hle : (if take then l.tail else l).length ≤ l.length := by split <;> simp
      have hpush := htaken.push (Nat.lt_of_le_of_lt hle (hlen rfl)) a
      convert hpush using 1
      · funext k
        simp [Function.update_apply]
      · funext k
        simp [Function.update_apply]
      · rw [if_pos rfl]
      · rw [if_pos rfl]

theorem sum_val (h : Holds n slot val rd wr l) (f : α → Nat) :
    ∑ k ∈ Finset.range n, (if val k then f (slot k) else 0) = (l.map f).sum := by
  induction l generalizing rd val with
  | nil =>
      refine Finset.sum_eq_zero fun k hk => ?_
      obtain ⟨j, hj, rfl⟩ := exists_offset h.rd_lt (Finset.mem_range.mp hk)
      simp [h.val_iff j hj]
  | cons a l ih =>
      have hrd := Finset.mem_range.mpr h.rd_lt
      have hv := h.val_rd.mpr (List.cons_ne_nil a l)
      have hp := ih h.pop
      rw [← Finset.add_sum_erase _ _ hrd] at hp ⊢
      simp only [Function.update_self, Bool.false_eq_true, if_false, Nat.zero_add] at hp
      rw [hv, if_pos rfl, h.head, List.map_cons, List.sum_cons, ← hp]
      congr 1
      refine Finset.sum_congr rfl fun k hk => ?_
      rw [Function.update_of_ne (Finset.ne_of_mem_erase hk)]

theorem length_val (h : Holds n slot val rd wr l) :
    ∑ k ∈ Finset.range n, (if val k then 1 else 0) = l.length := by
  simpa using h.sum_val fun _ => 1

end Holds

/-- Items packed one behind the other into the slots of a ring, from `start` up to `stop`: an item
has its first slot and how many it takes. -/
def Packed (n : Nat) (index size : α → Nat) : Nat → List α → Nat → Prop
  | start, [], stop => stop = start % n
  | start, a :: l, stop => index a = start % n ∧ Packed n index size (start + size a) l stop

namespace Packed

variable {index size : α → Nat} {start stop : Nat} {l : List α}

theorem stop_eq (h : Packed n index size start l stop) : stop = (start + (l.map size).sum) % n := by
  induction l generalizing start with
  | nil => exact h
  | cons a l ih => simpa [Nat.add_assoc] using ih h.2

theorem push (h : Packed n index size start l stop) {a : α} (ha : index a = stop) :
    Packed n index size start (l ++ [a]) ((stop + size a) % n) := by
  induction l generalizing start with
  | nil =>
      have hs : stop = start % n := h
      exact ⟨ha.trans hs, by simp [Packed, hs]⟩
  | cons b l ih => exact ⟨h.1, ih h.2⟩

theorem mem (h : Packed n index size start l stop) {a : α} (ha : a ∈ l) :
    ∃ t, index a = (start + t) % n ∧ t + size a ≤ (l.map size).sum := by
  induction l generalizing start with
  | nil => cases ha
  | cons b l ih =>
      rcases List.mem_cons.mp ha with rfl | ha
      · exact ⟨0, h.1, by simp⟩
      · obtain ⟨t, ht, hle⟩ := ih h.2 ha
        refine ⟨size b + t, by rw [ht, Nat.add_assoc], ?_⟩
        simp only [List.map_cons, List.sum_cons]
        omega

/-- While there is room, the slots behind the last item are none of the items'. -/
theorem fresh (h : Packed n index size start l stop) {m : Nat} (hm : (l.map size).sum + m ≤ n)
    {a : α} (ha : a ∈ l) {j k : Nat} (hj : j < size a) (hk : k < m) :
    (index a + j) % n ≠ (stop + k) % n := by
  obtain ⟨t, ht, hle⟩ := h.mem ha
  intro he
  rw [ht, h.stop_eq, Nat.mod_add_mod, Nat.mod_add_mod, Nat.add_assoc, Nat.add_assoc] at he
  have := add_mod_inj (n := n) (by omega) (by omega) he
  omega

end Packed

end OpenPiton.Ring
