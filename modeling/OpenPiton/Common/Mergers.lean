import OpenPiton.Noc1.BufIn
import OpenPiton.Lib.Machine
import OpenPiton.Lib.Packets
import Mathlib.Data.Fin.VecNotation

namespace OpenPiton.Common

open L15 (Word)
open Noc1 (fieldLength)
open Packets

/-- The registers of a merger, with what its sources have given and its destination has got; `none` is `IDLE` and
`some k` is `COUNT_PRIO` of source `k`. -/
@[ext] structure Merger (ι : Type*) where
  stateReg : Option ι := none
  countReg : BitVec 8 := 0
  taken : ι → List Word := fun _ => []
  sent : List Word := []

/-- `val` and `dat` of the sources, and `rdy` of the destination. -/
structure MergerIn (ι : Type*) where
  src : ι → Option Word
  dstRdy : Bool

namespace Merger

variable {ι : Type*} [DecidableEq ι] (sources : List ι) (s : Merger ι) (i : MergerIn ι)

def selSrcId : Option ι := sources.find? fun k => (i.src k).isSome

/-- `merger_dst_vr_noc_dat_header`. -/
def header : Word := ((selSrcId sources i).bind i.src).getD 0

def srcRdy (k : ι) : Bool :=
  match s.stateReg with
  | none => decide (selSrcId sources i = some k) && i.dstRdy
  | some j => decide (j = k) && i.dstRdy

/-- `merger_dst_vr_noc_val` with `merger_dst_vr_noc_dat`. -/
def dst : Option Word :=
  match s.stateReg with
  | none => if (selSrcId sources i).isSome then some (header sources i) else none
  | some j => i.src j

def countNext : BitVec 8 :=
  match s.stateReg with
  | none => fieldLength (header sources i)
  | some j => if (i.src j).isSome && s.srcRdy sources i j then s.countReg - 1 else s.countReg

def stateNext : Option ι :=
  match s.stateReg with
  | none => if fieldLength (header sources i) = 0 then none else sources.find? (s.srcRdy sources i)
  | some j => if s.countNext sources i = 0 then none else some j

def step : Merger ι where
  stateReg := s.stateNext sources i
  countReg := if (s.stateNext sources i).isSome then s.countNext sources i else s.countReg
  taken k := s.taken k ++ if s.srcRdy sources i k then (i.src k).toList else []
  sent := s.sent ++ if i.dstRdy then (s.dst sources i).toList else []

/-- The flits that are to follow one that goes over. -/
def left (a : Word) : BitVec 8 := leftAfter fieldLength s.stateReg s.countReg a

/-- The merger after flit `a` of source `k`. -/
def after (k : ι) (a : Word) : Merger ι where
  stateReg := if s.left a = 0 then none else some k
  countReg := if s.left a = 0 then s.countReg else s.left a
  taken j := s.taken j ++ if k = j then [a] else []
  sent := s.sent ++ [a]

variable {sources s i}

theorem find?_self {l : List ι} {k : ι} (h : k ∈ l) : l.find? (fun j => decide (k = j)) = some k := by
  cases hf : l.find? fun j => decide (k = j) with
  | none => exact absurd (decide_eq_true rfl) (List.find?_eq_none.mp hf k h)
  | some j => rw [← of_decide_eq_true (List.find?_some (p := fun j => decide (k = j)) hf)]

theorem step_stall (hnext : s.stateNext sources i = s.stateReg)
    (hcount : s.stateReg.isSome → s.countNext sources i = s.countReg) (hrdy : ∀ k, s.srcRdy sources i k = true → i.src k = none)
    (hdst : i.dstRdy = true → s.dst sources i = none) : s.step sources i = s := by
  apply Merger.ext
  · exact hnext
  · change (if (s.stateNext sources i).isSome then _ else _) = _
    rw [hnext]
    split
    · exact hcount ‹_›
    · rfl
  · funext k
    change s.taken k ++ _ = _
    split
    · rw [hrdy k ‹_›, Option.toList_none, List.append_nil]
    · exact List.append_nil _
  · change s.sent ++ _ = _
    split
    · rw [hdst ‹_›, Option.toList_none, List.append_nil]
    · exact List.append_nil _

theorem step_transfer {k : ι} {a : Word} (hnext : s.stateNext sources i = if s.left a = 0 then none else some k)
    (hcount : s.countNext sources i = s.left a) (hrdy : ∀ j, s.srcRdy sources i j = decide (k = j)) (ha : i.src k = some a)
    (hd : i.dstRdy = true) (hdst : s.dst sources i = some a) : s.step sources i = s.after k a := by
  apply Merger.ext
  · exact hnext
  · change (if (s.stateNext sources i).isSome then _ else _) = if _ then _ else _
    rw [hnext, hcount]
    split <;> rfl
  · funext j
    change s.taken j ++ _ = s.taken j ++ _
    rw [hrdy]
    by_cases hkj : k = j
    · rw [if_pos (decide_eq_true hkj), if_pos hkj, ← hkj, ha, Option.toList_some]
    · rw [if_neg (by simpa using hkj), if_neg hkj]
  · change s.sent ++ _ = s.sent ++ _
    rw [if_pos hd, hdst, Option.toList_some]

theorem step_idle (hs : s.stateReg = none) :
    s.step sources i = s ∨ ∃ k ∈ sources, ∃ a, i.src k = some a ∧ s.step sources i = s.after k a := by
  cases hsel : selSrcId sources i with
  | none =>
      left
      have hrdy : ∀ k, s.srcRdy sources i k = false := fun k => by simp [srcRdy, hs, hsel]
      apply step_stall
      · simp [stateNext, hs, hrdy]
      · simp [hs]
      · exact fun k hk => by rw [hrdy] at hk; cases hk
      · exact fun _ => by simp [dst, hs, hsel]
  | some k =>
      obtain ⟨a, ha⟩ := Option.isSome_iff_exists.mp (List.find?_some (p := fun k => (i.src k).isSome) hsel)
      have hmem : k ∈ sources := List.mem_of_find?_eq_some hsel
      have hheader : header sources i = a := by simp [header, hsel, ha]
      have hrdy : s.srcRdy sources i = fun j => decide (k = j) && i.dstRdy := by
        funext j
        simp [srcRdy, hs, hsel]
      cases hd : i.dstRdy with
      | false =>
          left
          simp only [hd, Bool.and_false] at hrdy
          apply step_stall
          · simp [stateNext, hs, hrdy]
          · simp [hs]
          · exact fun k hk => by rw [hrdy] at hk; cases hk
          · exact fun h => by rw [hd] at h; cases h
      | true =>
          right
          simp only [hd, Bool.and_true] at hrdy
          have hleft : s.left a = fieldLength a := if_pos hs
          refine ⟨k, hmem, a, ha, step_transfer ?_ ?_ (congrFun hrdy) ha hd ?_⟩
          · simp only [stateNext, hs, hheader, hrdy, find?_self hmem, hleft]
          · simp only [countNext, hs, hheader, hleft]
          · simp [dst, hs, hsel, hheader]

theorem step_count {k : ι} (hs : s.stateReg = some k) (hcount : s.countReg ≠ 0) :
    s.step sources i = s ∨ ∃ a, i.src k = some a ∧ s.step sources i = s.after k a := by
  have hrdy : s.srcRdy sources i = fun j => decide (k = j) && i.dstRdy := by
    funext j
    simp [srcRdy, hs]
  have hdst : s.dst sources i = i.src k := by simp [dst, hs]
  cases ha : i.src k with
  | none =>
      left
      have hnext : s.countNext sources i = s.countReg := by simp [countNext, hs, ha]
      apply step_stall
      · simp only [stateNext, hs, hnext, if_neg hcount]
      · exact fun _ => hnext
      · intro j hj
        rw [hrdy] at hj
        obtain rfl : k = j := of_decide_eq_true ((Bool.and_eq_true _ _).mp hj).1
        exact ha
      · exact fun _ => hdst.trans ha
  | some a =>
      cases hd : i.dstRdy with
      | false =>
          left
          simp only [hd, Bool.and_false] at hrdy
          have hnext : s.countNext sources i = s.countReg := by simp [countNext, hs, hrdy]
          apply step_stall
          · simp only [stateNext, hs, hnext, if_neg hcount]
          · exact fun _ => hnext
          · exact fun k hk => by rw [hrdy] at hk; cases hk
          · exact fun h => by rw [hd] at h; cases h
      | true =>
          right
          simp only [hd, Bool.and_true] at hrdy
          have hleft : s.left a = s.countReg - 1 := if_neg (by simp [hs])
          have hnext : s.countNext sources i = s.left a := by simp [countNext, hs, hrdy, ha, hleft]
          refine ⟨a, rfl, step_transfer ?_ hnext (congrFun hrdy) ha hd (hdst.trans ha)⟩
          simp only [stateNext, hs, hnext]

/-- The sources' packets go over whole, and the counter is what the open one lacks. -/
structure Tracks (sources : List ι) (s : Merger ι) (done : List (ι × List Word)) (part : List Word) : Prop where
  shares : Shares (fun a => (fieldLength a).toNat) done s.stateReg part s.taken s.sent
  count_eq : s.stateReg.isSome → s.countReg.toNat = lacks (fun a => (fieldLength a).toNat) part
  open_mem : ∀ {k}, s.stateReg = some k → k ∈ sources
  disabled : ∀ k ∉ sources, s.taken k = []

variable {done : List (ι × List Word)} {part : List Word}

theorem Tracks.after (h : s.Tracks sources done part) {k : ι} (hmem : k ∈ sources)
    (hk : s.stateReg = none ∨ s.stateReg = some k) (a : Word) : ∃ done part, (s.after k a).Tracks sources done part := by
  obtain ⟨hshares, hlacks⟩ := h.shares.transfer_counted h.count_eq hk a
  refine ⟨_, _, hshares, ?_, ?_, ?_⟩
  · intro hs
    have hne : s.left a ≠ 0 := fun hz => by simp [Merger.after, hz] at hs
    refine Eq.trans ?_ hlacks.symm
    simp only [Merger.after, if_neg hne]
    rfl
  · intro j hj
    change (if s.left a = 0 then none else some k) = some j at hj
    split at hj
    · cases hj
    · exact Option.some.inj hj ▸ hmem
  · intro j hj
    have hkj : k ≠ j := fun he => hj (he ▸ hmem)
    change s.taken j ++ _ = _
    rw [h.disabled j hj, if_neg hkj, List.append_nil]

/-- The packets of a state are accounted for. -/
def Sound (sources : List ι) (s : Merger ι) : Prop := ∃ done part, s.Tracks sources done part

theorem Sound.step (h : s.Sound sources) (i : MergerIn ι) : (s.step sources i).Sound sources := by
  obtain ⟨done, part, h⟩ := h
  cases hs : s.stateReg with
  | none =>
      rcases step_idle hs with hstay | ⟨k, hk, a, -, hgo⟩
      · exact ⟨done, part, by rwa [hstay]⟩
      · rw [hgo]
        exact h.after hk (.inl hs) a
  | some k =>
      rcases step_count hs (h.shares.count_ne h.count_eq (by rw [hs]; rfl)) with hstay | ⟨a, -, hgo⟩
      · exact ⟨done, part, by rwa [hstay]⟩
      · rw [hgo]
        exact h.after (h.open_mem hs) (.inr hs) a

/-- The flits sent are the sources' packets, whole and in the order of each source; the last perhaps only begun, and
then the merger is on its source. -/
def KeepsPackets (sources : List ι) (s : Merger ι) : Prop :=
  ∀ pkts : ι → List (List Word), (∀ k, ∀ p ∈ pkts k, Whole (fun a => (fieldLength a).toNat) p) →
    (∀ k, s.taken k <+: (pkts k).flatten) →
    ∃ done part, Shares (fun a => (fieldLength a).toNat) done s.stateReg part s.taken s.sent ∧
      (∀ k, own done k <+: pkts k ∧ (s.stateReg = some k → part <+: ((pkts k).drop (own done k).length).headD [])) ∧
      ∀ k ∉ sources, s.taken k = []

theorem Sound.keepsPackets (h : s.Sound sources) : s.KeepsPackets sources := by
  intro pkts hpkts htaken
  obtain ⟨done, part, h⟩ := h
  refine ⟨done, part, h.shares, fun k => ?_, h.disabled⟩
  obtain ⟨hdone, hpart⟩ := (h.shares.cut k).within (hpkts k) (htaken k)
  refine ⟨hdone, fun hk => ?_⟩
  rwa [if_pos hk] at hpart

theorem Sound.init (sources : List ι) : ({} : Merger ι).Sound sources :=
  ⟨[], [], .start, nofun, nofun, fun _ _ => rfl⟩

end Merger

instance five_neZero : NeZero 5 := ⟨Nat.succ_ne_zero 4⟩

instance two_neZero : NeZero 2 := ⟨Nat.succ_ne_zero 1⟩

/-- Source 0 is always there, the others by `num_sources`. -/
def prioSources (numSources : Nat) : List (Fin 5) := (List.finRange 5).filter fun k => k = 0 ∨ k.val < numSources

def nocPrioMerger (numSources : Nat) : Merger (Fin 5) → MergerIn (Fin 5) → Merger (Fin 5) :=
  Merger.step (prioSources numSources)

def nocSimpleMerger : Merger (Fin 2) → MergerIn (Fin 2) → Merger (Fin 2) := Merger.step [0, 1]

theorem merger_packets {numSources : Nat} {s : Merger (Fin 5)} {t : Merger (Fin 2)}
    (hs : Machine.Reaches (· = {}) (nocPrioMerger numSources) (fun _ _ => True) s)
    (ht : Machine.Reaches (· = {}) nocSimpleMerger (fun _ _ => True) t) :
    s.KeepsPackets (prioSources numSources) ∧ t.KeepsPackets [0, 1] := by
  constructor
  · apply Merger.Sound.keepsPackets
    refine hs.invariant (P := Merger.Sound (prioSources numSources)) ?_ fun _ i h _ => h.step i
    rintro _ rfl
    exact Merger.Sound.init _
  · apply Merger.Sound.keepsPackets
    refine ht.invariant (P := Merger.Sound [0, 1]) ?_ fun _ i h _ => h.step i
    rintro _ rfl
    exact Merger.Sound.init _

/-- A header of `length` flits to follow, with a number. -/
def lengthHeader (length : BitVec 8) (number : BitVec 22) : Word := (0 : BitVec 34) ++ length ++ number

/-- Source 1 has begun when source 0 offers a packet, which waits; its own packet of one flit goes last. -/
def contended : List (MergerIn (Fin 5)) :=
  [⟨![none, some (lengthHeader 1 7), none, none, none], false⟩, ⟨![none, some (lengthHeader 1 7), none, none, none], true⟩,
    ⟨![some (lengthHeader 0 8), none, none, none, none], true⟩, ⟨![some (lengthHeader 0 8), some 9, none, none, none], true⟩,
    ⟨![some (lengthHeader 0 8), none, some 5, none, none], true⟩]

theorem merger_packets_contended :
    let s := Machine.run (nocPrioMerger 2) {} contended
    s.sent = [lengthHeader 1 7, 9, lengthHeader 0 8] ∧ s.KeepsPackets (prioSources 2) := by
  have hstart : Machine.Reaches (· = {}) (nocPrioMerger 2) (fun _ _ => True) {} := .start rfl
  have hrun : Machine.Reaches (· = {}) (nocPrioMerger 2) (fun _ _ => True) (Machine.run (nocPrioMerger 2) {} contended) :=
    hstart.run (by decide)
  exact ⟨by decide, (merger_packets hrun (.start rfl)).1⟩

end OpenPiton.Common
