import OpenPiton.Common.Mergers

namespace OpenPiton.Common

open L15 (Word)
open Noc1 (fieldLength)
open Packets

/-- The registers of a splitter, with what its source has given and its targets have got; `none` is `IDLE` and
`some k` is `COUNT_TYPE` of target `k`. -/
@[ext] structure Splitter (ι : Type*) where
  stateReg : Option ι := none
  countReg : BitVec 8 := 0
  taken : List Word := []
  sent : ι → List Word := fun _ => []

/-- `val` and `dat` of the source, and `rdy` of the targets. -/
structure SplitterIn (ι : Type*) where
  src : Option Word
  dstRdy : ι → Bool

namespace Splitter

variable {ι : Type*} [DecidableEq ι] (targets : List ι) (fits : Word → ι → Bool) (s : Splitter ι) (i : SplitterIn ι)

/-- The first target whose type a header has. -/
def route (word : Word) : Option ι := targets.find? (fits word)

def dstVal (k : ι) : Bool :=
  match s.stateReg with
  | none => decide (i.src.bind (route targets fits) = some k)
  | some j => decide (j = k) && i.src.isSome

def srcRdy : Bool :=
  match s.stateReg with
  | none => targets.any fun k => s.dstVal targets fits i k && i.dstRdy k
  | some j => i.dstRdy j

def countNext : BitVec 8 :=
  match s.stateReg with
  | none => (i.src.map fieldLength).getD 0
  | some j => if s.dstVal targets fits i j && i.dstRdy j then s.countReg - 1 else s.countReg

def stateNext : Option ι :=
  match s.stateReg with
  | none =>
      if (i.src.map fieldLength).getD 0 = 0 then none
      else targets.find? fun k => s.dstVal targets fits i k && i.dstRdy k
  | some j => if s.countNext targets fits i = 0 then none else some j

def step : Splitter ι where
  stateReg := s.stateNext targets fits i
  countReg := if (s.stateNext targets fits i).isSome then s.countNext targets fits i else s.countReg
  taken := s.taken ++ if s.srcRdy targets fits i then i.src.toList else []
  sent k := s.sent k ++ if s.dstVal targets fits i k && i.dstRdy k then i.src.toList else []

/-- The splitter after flit `a` to target `k`. -/
def after (k : ι) (a : Word) : Splitter ι where
  stateReg := if leftAfter fieldLength s.stateReg s.countReg a = 0 then none else some k
  countReg :=
    if leftAfter fieldLength s.stateReg s.countReg a = 0 then s.countReg else leftAfter fieldLength s.stateReg s.countReg a
  taken := s.taken ++ [a]
  sent j := s.sent j ++ if k = j then [a] else []

variable {targets fits s i}

theorem step_stall (hnext : s.stateNext targets fits i = s.stateReg)
    (hcount : s.stateReg.isSome → s.countNext targets fits i = s.countReg)
    (hrdy : s.srcRdy targets fits i = true → i.src = none)
    (hval : ∀ k, (s.dstVal targets fits i k && i.dstRdy k) = false) : s.step targets fits i = s := by
  apply Splitter.ext
  · exact hnext
  · change (if (s.stateNext targets fits i).isSome then _ else _) = _
    rw [hnext]
    split
    · exact hcount ‹_›
    · rfl
  · change s.taken ++ _ = _
    split
    · rw [hrdy ‹_›, Option.toList_none, List.append_nil]
    · exact List.append_nil _
  · funext k
    change s.sent k ++ _ = _
    rw [hval, if_neg (by decide), List.append_nil]

theorem step_transfer {k : ι} {a : Word}
    (hnext : s.stateNext targets fits i = if leftAfter fieldLength s.stateReg s.countReg a = 0 then none else some k)
    (hcount : s.countNext targets fits i = leftAfter fieldLength s.stateReg s.countReg a)
    (hrdy : s.srcRdy targets fits i = true) (ha : i.src = some a)
    (hval : ∀ j, (s.dstVal targets fits i j && i.dstRdy j) = decide (k = j)) : s.step targets fits i = s.after k a := by
  apply Splitter.ext
  · exact hnext
  · change (if (s.stateNext targets fits i).isSome then _ else _) = if _ then _ else _
    rw [hnext, hcount]
    split <;> rfl
  · change s.taken ++ _ = s.taken ++ _
    rw [if_pos hrdy, ha, Option.toList_some]
  · funext j
    change s.sent j ++ _ = s.sent j ++ _
    rw [hval, ha]
    by_cases hkj : k = j
    · rw [if_pos (decide_eq_true hkj), if_pos hkj, Option.toList_some]
    · rw [if_neg (by simpa using hkj), if_neg hkj]

/-- A header that fits no target stays where it is, and is offered to none. -/
theorem step_blocked (hs : s.stateReg = none) (hroute : i.src.bind (route targets fits) = none) :
    s.step targets fits i = s ∧ s.srcRdy targets fits i = false ∧ ∀ k, s.dstVal targets fits i k = false := by
  have hval : ∀ k, s.dstVal targets fits i k = false := fun k => by simp [dstVal, hs, hroute]
  have hrdy : s.srcRdy targets fits i = false := by simp [srcRdy, hs, hval]
  refine ⟨step_stall ?_ (by simp [hs]) (fun h => ?_) fun k => by rw [hval, Bool.false_and], hrdy, hval⟩
  · simp [stateNext, hs, hval]
  · rw [hrdy] at h
    cases h

theorem val_and_rdy {k : ι} (hval : ∀ j, s.dstVal targets fits i j = decide (k = j)) (j : ι) :
    (s.dstVal targets fits i j && i.dstRdy j) = (decide (k = j) && i.dstRdy k) := by
  rw [hval]
  by_cases hkj : k = j
  · rw [hkj]
  · simp [hkj]

theorem step_idle {a : Word} (hs : s.stateReg = none) (ha : i.src = some a) : s.step targets fits i = s ∨
    ∃ k, route targets fits a = some k ∧ s.step targets fits i = s.after k a := by
  cases hroute : route targets fits a with
  | none => exact .inl (step_blocked hs (by rw [ha]; exact hroute)).1
  | some k =>
      have hmem : k ∈ targets := List.mem_of_find?_eq_some hroute
      have hval : ∀ j, s.dstVal targets fits i j = decide (k = j) := fun j => by simp [dstVal, hs, ha, hroute]
      have hgo := val_and_rdy hval
      cases hd : i.dstRdy k with
      | false =>
          left
          simp only [hd, Bool.and_false] at hgo
          apply step_stall
          · simp [stateNext, hs, hgo]
          · simp [hs]
          · intro h
            simp [srcRdy, hs, hgo] at h
          · exact hgo
      | true =>
          right
          simp only [hd, Bool.and_true] at hgo
          have hleft : leftAfter fieldLength s.stateReg s.countReg a = fieldLength a := if_pos hs
          refine ⟨k, rfl, step_transfer ?_ ?_ ?_ ha hgo⟩
          · rw [hleft]
            simp only [stateNext, hs, ha, hgo, Merger.find?_self hmem, Option.map_some, Option.getD_some]
          · rw [hleft]
            simp only [countNext, hs, ha, Option.map_some, Option.getD_some]
          · simp only [srcRdy, hs, hgo]
            exact List.any_eq_true.mpr ⟨k, hmem, decide_eq_true rfl⟩

theorem step_count {k : ι} (hs : s.stateReg = some k) (hcount : s.countReg ≠ 0) : s.step targets fits i = s ∨
    ∃ a, i.src = some a ∧ s.step targets fits i = s.after k a := by
  have hval : ∀ j, s.dstVal targets fits i j = (decide (k = j) && i.src.isSome) := fun j => by simp [dstVal, hs]
  have hrdy : s.srcRdy targets fits i = i.dstRdy k := by simp [srcRdy, hs]
  cases ha : i.src with
  | none =>
      left
      simp only [ha, Option.isSome_none, Bool.and_false] at hval
      have hnext : s.countNext targets fits i = s.countReg := by simp [countNext, hs, hval]
      apply step_stall
      · simp only [stateNext, hs, hnext, if_neg hcount]
      · exact fun _ => hnext
      · exact fun _ => ha
      · exact fun j => by rw [hval, Bool.false_and]
  | some a =>
      simp only [ha, Option.isSome_some, Bool.and_true] at hval
      have hgo := val_and_rdy hval
      cases hd : i.dstRdy k with
      | false =>
          left
          simp only [hd, Bool.and_false] at hgo
          have hnext : s.countNext targets fits i = s.countReg := by simp [countNext, hs, hgo]
          apply step_stall
          · simp only [stateNext, hs, hnext, if_neg hcount]
          · exact fun _ => hnext
          · intro h
            rw [hrdy, hd] at h
            cases h
          · exact hgo
      | true =>
          right
          simp only [hd, Bool.and_true] at hgo
          have hleft : leftAfter fieldLength s.stateReg s.countReg a = s.countReg - 1 := if_neg (by simp [hs])
          have hnext : s.countNext targets fits i = s.countReg - 1 := by simp [countNext, hs, hgo]
          refine ⟨a, rfl, step_transfer ?_ (hnext.trans hleft.symm) (hrdy.trans hd) ha hgo⟩
          rw [hleft]
          simp only [stateNext, hs, hnext]

variable (targets fits) in
/-- The packets go over whole, each to the target of its header, and the counter is what the open one lacks. -/
structure Tracks (s : Splitter ι) (done : List (ι × List Word)) (part : List Word) : Prop where
  shares : Shares (fun a => (fieldLength a).toNat) done s.stateReg part s.sent s.taken
  count_eq : s.stateReg.isSome → s.countReg.toNat = lacks (fun a => (fieldLength a).toNat) part
  routed : ∀ e ∈ done, e.2.head?.bind (route targets fits) = some e.1
  open_routed : part.head?.bind (route targets fits) = s.stateReg

variable {done : List (ι × List Word)} {part : List Word}

theorem Tracks.after (h : s.Tracks targets fits done part) {k : ι} {a : Word}
    (hk : s.stateReg = none ∧ route targets fits a = some k ∨ s.stateReg = some k) :
    ∃ done part, (s.after k a).Tracks targets fits done part := by
  obtain ⟨hshares, hlacks⟩ := h.shares.transfer_counted h.count_eq (hk.imp_left And.left) a
  have hhead : (part ++ [a]).head?.bind (route targets fits) = some k := by
    rcases hk with ⟨hs, hroute⟩ | hs
    · rw [h.shares.idle_iff.mp hs]
      exact hroute
    · have hopen := h.open_routed
      cases part with
      | nil =>
          rw [hs] at hopen
          cases hopen
      | cons b l => exact hopen.trans hs
  refine ⟨_, _, hshares, ?_, ?_, ?_⟩
  · intro hs
    have hne : leftAfter fieldLength s.stateReg s.countReg a ≠ 0 := fun hz => by simp [Splitter.after, hz] at hs
    refine Eq.trans ?_ hlacks.symm
    simp only [Splitter.after, if_neg hne]
  · intro e he
    split at he
    · rcases List.mem_append.mp he with he | he
      · exact h.routed e he
      · rw [List.mem_singleton.mp he]
        exact hhead
    · exact h.routed e he
  · change Option.bind (List.head? (if leftAfter fieldLength s.stateReg s.countReg a = 0#8 then [] else part ++ [a])) _ =
      if leftAfter fieldLength s.stateReg s.countReg a = 0#8 then none else some k
    split
    · rfl
    · exact hhead

variable (targets fits) in
/-- The packets of a state are accounted for. -/
def Sound (s : Splitter ι) : Prop := ∃ done part, s.Tracks targets fits done part

theorem Sound.step (h : s.Sound targets fits) (i : SplitterIn ι) : (s.step targets fits i).Sound targets fits := by
  obtain ⟨done, part, h⟩ := h
  cases hs : s.stateReg with
  | none =>
      cases ha : i.src with
      | none => exact ⟨done, part, by rwa [(step_blocked hs (by rw [ha]; rfl)).1]⟩
      | some a =>
          rcases step_idle hs ha with hstay | ⟨k, hroute, hgo⟩
          · exact ⟨done, part, by rwa [hstay]⟩
          · rw [hgo]
            exact h.after (.inl ⟨hs, hroute⟩)
  | some k =>
      rcases step_count hs (h.shares.count_ne h.count_eq (by rw [hs]; rfl)) with hstay | ⟨a, -, hgo⟩
      · exact ⟨done, part, by rwa [hstay]⟩
      · rw [hgo]
        exact h.after (.inr hs)

variable (targets fits) in
theorem Sound.init : ({} : Splitter ι).Sound targets fits := ⟨[], [], .start, nofun, nofun, rfl⟩

variable (targets fits) in
/-- The packets taken go whole and in order, each to the first target that its header fits; the last is perhaps only
begun, and then the splitter is on its target. A header that fits none is neither taken nor offered. -/
def KeepsPackets (s : Splitter ι) : Prop :=
  ∀ pkts : List (List Word), (∀ p ∈ pkts, Whole (fun a => (fieldLength a).toNat) p) → s.taken <+: pkts.flatten →
    ∃ done part, Shares (fun a => (fieldLength a).toNat) done s.stateReg part s.sent s.taken ∧
      done.map Prod.snd <+: pkts ∧ part <+: (pkts.drop done.length).headD [] ∧
      (∀ e ∈ done, e.2.head?.bind (route targets fits) = some e.1) ∧
      part.head?.bind (route targets fits) = s.stateReg ∧
      ∀ i : SplitterIn ι, part = [] → i.src.bind (route targets fits) = none →
        s.step targets fits i = s ∧ s.srcRdy targets fits i = false ∧ ∀ k, s.dstVal targets fits i k = false

theorem Sound.keepsPackets (h : s.Sound targets fits) : s.KeepsPackets targets fits := by
  intro pkts hpkts htaken
  obtain ⟨done, part, h⟩ := h
  obtain ⟨hdone, hpart⟩ := h.shares.cut_one.within hpkts htaken
  rw [List.length_map] at hpart
  exact ⟨done, part, h.shares, hdone, hpart, h.routed, h.open_routed, fun i hp hroute =>
    step_blocked (h.shares.idle_iff.mpr hp) hroute⟩

end Splitter

end OpenPiton.Common
