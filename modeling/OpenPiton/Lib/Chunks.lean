import Mathlib.Data.List.GetD
import Mathlib.Algebra.Order.Group.Nat

namespace OpenPiton.Chunks

variable {α : Type*}

/-- A list cut into pieces of `n`, the last perhaps shorter. -/
def pieces (n : Nat) (l : List α) : List (List α) :=
  (List.range ((l.length + n - 1) / n)).map fun k => (l.drop (k * n)).take n

/-- A list made up to `n` with `z`. -/
def pad (n : Nat) (z : α) (l : List α) : List α := (List.range n).map fun k => l.getD k z

variable {n : Nat} {l : List α}

theorem pieces_nil (hn : 0 < n) : pieces n ([] : List α) = [] := by
  rw [pieces, List.length_nil, Nat.zero_add, Nat.div_eq_of_lt (by omega)]
  rfl

theorem pieces_short (hl : l ≠ []) (hle : l.length ≤ n) : pieces n l = [l] := by
  have hpos : 0 < l.length := List.length_pos_iff.mpr hl
  have hone : (l.length + n - 1) / n = 1 := by
    rw [Nat.div_eq_of_lt_le] <;> omega
  rw [pieces, hone, List.range_one, List.map_singleton, Nat.zero_mul, List.drop_zero, List.take_of_length_le hle]

theorem pieces_long (hn : 0 < n) (hlt : n ≤ l.length) : pieces n l = l.take n :: pieces n (l.drop n) := by
  have hcount : (l.length + n - 1) / n = ((l.drop n).length + n - 1) / n + 1 := by
    rw [List.length_drop, ← Nat.add_div_right _ hn]
    congr 1
    omega
  rw [pieces, hcount, List.range_succ_eq_map, List.map_cons, Nat.zero_mul, List.drop_zero, List.map_map, pieces]
  congr 1
  apply List.map_congr_left
  intro k _
  rw [Function.comp_apply, List.drop_drop, Nat.succ_mul, Nat.add_comm]

theorem flatten_pieces (hn : 0 < n) (l : List α) : (pieces n l).flatten = l := by
  induction hk : l.length using Nat.strong_induction_on generalizing l with
  | _ k ih =>
      rcases Nat.lt_or_ge l.length n with hlt | hge
      · rcases eq_or_ne l [] with rfl | hl
        · rw [pieces_nil hn, List.flatten_nil]
        · rw [pieces_short hl hlt.le, List.flatten_singleton]
      · rw [pieces_long hn hge, List.flatten_cons, ih (l.drop n).length _ _ rfl, List.take_append_drop]
        rw [List.length_drop]
        omega

theorem length_pieces : (pieces n l).length = (l.length + n - 1) / n := by simp [pieces]

theorem getElem?_pieces {k : Nat} (hk : k < (pieces n l).length) :
    (pieces n l)[k]? = some ((l.drop (k * n)).take n) := by
  rw [length_pieces] at hk
  simp [pieces, hk]

theorem flatten_flatMap_pieces (hn : 0 < n) (ls : List (List α)) : (ls.flatMap (pieces n)).flatten = ls.flatten := by
  induction ls with
  | nil => rfl
  | cons l ls ih => rw [List.flatMap_cons, List.flatten_append, flatten_pieces hn, ih, List.flatten_cons]

theorem getD_pad {z : α} {k : Nat} (hk : k < n) : (pad n z l).getD k z = l.getD k z := by
  simp [pad, List.getD_eq_getElem?_getD, hk]

end OpenPiton.Chunks
