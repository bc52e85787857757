import OpenPiton.Lib.Packets

namespace OpenPiton.Packets

variable {α : Type*} (len : α → Nat)

instance : DecidablePred (Begun len)
  | [] => .isTrue trivial
  | a :: l => inferInstanceAs (Decidable (l.length < len a))

/-- The items of the packet that a list begins with. -/
def size : List α → Nat
  | [] => 0
  | a :: _ => len a + 1

/-- The packets that have been cut from a stream of flits and the items of the open one, after one more flit: a packet
begins with a flit, and the last flit may hold more than the packet does. -/
def cutFlit (c : List (List α) × List α) (f : List α) : List (List α) × List α :=
  if Begun len (c.2 ++ f) then (c.1, c.2 ++ f) else (c.1 ++ [(c.2 ++ f).take (size len (c.2 ++ f))], [])

def cutFlits (fs : List (List α)) : List (List α) × List α := fs.foldl (cutFlit len) ([], [])

/-- A packet in flits of `n` items, with anything behind it in the last. -/
structure Packed (n : Nat) (p : List α) (fs : List (List α)) : Prop where
  whole : Whole len p
  length_eq : ∀ f ∈ fs, f.length = n
  padded : ∃ pad, fs.flatten = p ++ pad ∧ pad.length < n

variable {len} {n : Nat} {p l m : List α} {fs gs : List (List α)}

theorem size_append (h : l ≠ []) : size len (l ++ m) = size len l := by
  cases l with
  | nil => exact absurd rfl h
  | cons a l => rfl

theorem begun_iff (h : l ≠ []) : Begun len l ↔ l.length < size len l := by
  cases l with
  | nil => exact absurd rfl h
  | cons a l => exact Nat.succ_lt_succ_iff.symm

theorem Whole.length_eq (h : Whole len p) : p.length = size len p := by
  cases p with
  | nil => exact absurd h id
  | cons a p => exact congrArg (· + 1) h

theorem ne_nil_of_not_begun (h : ¬ Begun len l) : l ≠ [] := by
  rintro rfl
  exact h trivial

theorem cut_of_prefix (hl : ¬ Begun len l) (h : l <+: m) :
    ¬ Begun len m ∧ m.take (size len m) = l.take (size len l) := by
  obtain ⟨t, rfl⟩ := h
  have hne := ne_nil_of_not_begun hl
  have hsize : size len (l ++ t) = size len l := size_append hne
  rw [begun_iff hne, Nat.not_lt] at hl
  constructor
  · rw [begun_iff (by simp [hne]), hsize, List.length_append]
    omega
  · rw [hsize, List.take_append_of_le_length hl]

theorem cutFlits_snoc (f : List α) : cutFlits len (fs ++ [f]) = cutFlit len (cutFlits len fs) f := by
  rw [cutFlits, List.foldl_append]
  rfl

theorem foldl_prefix (c : List (List α) × List α) (fs : List (List α)) : c.1 <+: (fs.foldl (cutFlit len) c).1 := by
  induction fs generalizing c with
  | nil => exact List.prefix_rfl
  | cons f fs ih =>
      refine List.IsPrefix.trans ?_ (ih (cutFlit len c f))
      rw [cutFlit]
      split
      · exact List.prefix_rfl
      · exact List.prefix_append _ _

theorem cutFlits_mono (h : fs <+: gs) : (cutFlits len fs).1 <+: (cutFlits len gs).1 := by
  obtain ⟨t, rfl⟩ := h
  rw [cutFlits, cutFlits, List.foldl_append]
  exact foldl_prefix _ t

theorem foldl_packed (ps : List (List α)) {pad : List α} (hwhole : Whole len p) (hl : Begun len l) (hlen : ∀ f ∈ fs, f.length = n)
    (hpad : pad.length < n) (h : l ++ fs.flatten = p ++ pad) (hfs : fs ≠ []) :
    fs.foldl (cutFlit len) (ps, l) = (ps ++ [p], []) := by
  induction fs generalizing l with
  | nil => exact absurd rfl hfs
  | cons f fs ih =>
      have hf := hlen f List.mem_cons_self
      rw [List.flatten_cons, ← List.append_assoc] at h
      have hsum : (l ++ f).length + fs.flatten.length = p.length + pad.length := by
        rw [← List.length_append, h, List.length_append]
      have hne : l ++ f ≠ [] := by
        refine List.append_ne_nil_of_right_ne_nil l (List.ne_nil_of_length_pos ?_)
        omega
      have hsize : size len (l ++ f) = p.length := by
        rw [hwhole.length_eq, ← size_append hne (m := fs.flatten), h, size_append hwhole.ne_nil]
      rw [List.foldl_cons]
      cases fs with
      | nil =>
          rw [List.flatten_nil, List.append_nil] at h
          rw [List.flatten_nil, List.length_nil] at hsum
          rw [List.foldl_nil, cutFlit, if_neg (by rw [begun_iff hne, hsize]; omega), hsize, h, List.take_left]
      | cons g gs =>
          have hg := hlen g (by simp)
          have hle : g.length ≤ (g :: gs).flatten.length := by simp
          have hbegun : Begun len (l ++ f) := by
            rw [begun_iff hne, hsize]
            omega
          rw [cutFlit, if_pos hbegun]
          exact ih hbegun (fun f hf => hlen f (List.mem_cons_of_mem _ hf)) h (by simp)

theorem Packed.foldl (h : Packed len n p fs) (ps : List (List α)) : fs.foldl (cutFlit len) (ps, []) = (ps ++ [p], []) := by
  obtain ⟨pad, hpad, hlt⟩ := h.padded
  refine foldl_packed ps h.whole trivial h.length_eq hlt hpad ?_
  rintro rfl
  have := h.whole.ne_nil
  simp_all

/-- The first flits of a packet hold less than the packet, and all of them the packet. -/
theorem Packed.begun_iff (h : Packed len n p (fs ++ gs)) : Begun len fs.flatten ↔ fs = [] ∨ gs ≠ [] := by
  obtain ⟨pad, hpad, hlt⟩ := h.padded
  rw [List.flatten_append] at hpad
  have hsum : fs.flatten.length + gs.flatten.length = p.length + pad.length := by
    rw [← List.length_append, hpad, List.length_append]
  cases fs with
  | nil => exact ⟨fun _ => .inl rfl, fun _ => trivial⟩
  | cons f fs =>
      have hf := h.length_eq f (by simp)
      have hne : (f :: fs).flatten ≠ [] := List.append_ne_nil_of_left_ne_nil (List.ne_nil_of_length_pos (by omega)) _
      have hsize : size len (f :: fs).flatten = p.length := by
        rw [h.whole.length_eq, ← size_append hne (m := gs.flatten), hpad, size_append h.whole.ne_nil]
      rw [Packets.begun_iff hne, hsize]
      constructor
      · rintro hlong
        right
        rintro rfl
        simp only [List.flatten_nil, List.length_nil] at hsum
        omega
      · rintro (hnil | hgs)
        · cases hnil
        · obtain ⟨g, gs, rfl⟩ := List.exists_cons_of_ne_nil hgs
          have hg := h.length_eq g (by simp)
          have hle : g.length ≤ (g :: gs).flatten.length := by simp
          omega

theorem length_of_packed {pkts : List (List α)} {fss : List (List (List α))} (h : List.Forall₂ (Packed len n) pkts fss) :
    ∀ f ∈ fss.flatten, f.length = n := by
  induction h with
  | nil => simp
  | cons hp _ ih =>
      intro f hf
      rw [List.flatten_cons] at hf
      exact (List.mem_append.mp hf).elim (hp.length_eq f) (ih f)

theorem cutFlits_packed {pkts : List (List α)} {fss : List (List (List α))} (h : List.Forall₂ (Packed len n) pkts fss) :
    cutFlits len fss.flatten = (pkts, []) := by
  suffices ∀ ps, fss.flatten.foldl (cutFlit len) (ps, []) = (ps ++ pkts, []) from this []
  induction h with
  | nil => simp
  | cons hp _ ih =>
      intro ps
      rw [List.flatten_cons, List.foldl_append, hp.foldl, ih, List.append_assoc]
      rfl

end OpenPiton.Packets
