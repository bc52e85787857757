import OpenPiton.Common.Bram
import OpenPiton.Lib.Counter

namespace OpenPiton.Common

open MaskedRam

namespace BistRam

variable {w d depth : Nat} {s : BistRam w d} {wen : Bool} {a x : BitVec w} {data : BitVec d}
  {mem : BitVec w → BitVec d}

theorem write_same (ram : BitVec w → BitVec d) (h : a.toNat < depth) : write depth ram a data a = data := by
  rw [write, if_pos h, Function.update_self]

theorem write_other (ram : BitVec w → BitVec d) (h : x ≠ a) : write depth ram a data x = ram x := by
  rw [write]
  split
  · exact Function.update_of_ne h _ _
  · rfl

/-- Every word that the scan has passed is zero. -/
def Scanned (depth : Nat) (s : BistRam w d) : Prop :=
  ∀ x, x.toNat < depth → s.initDone = true ∨ x < s.bistIndex → s.ram x = 0

theorem scanned_reset : Scanned depth (s.step depth false wen a data) := by
  intro x _ h
  simp [step] at h

theorem Scanned.step (h : Scanned depth s) (hwen : s.initDone = true → wen = false) :
    Scanned depth (s.step depth true wen a data) := by
  intro x hx hs
  simp only [BistRam.step, Bool.not_true, Bool.false_eq_true, if_false, Bool.true_and, Bool.or_eq_true,
    beq_iff_eq] at hs ⊢
  cases hd : s.initDone with
  | true =>
      rw [hwen hd]
      exact h x hx (.inl hd)
  | false =>
      simp only [hd, Bool.not_false, if_true, Bool.false_eq_true, if_false, or_false] at hs ⊢
      by_cases hxi : x = s.bistIndex
      · subst hxi
        exact write_same s.ram hx
      · rw [write_other s.ram hxi]
        refine h x hx (.inr ?_)
        have hne : x.toNat ≠ s.bistIndex.toNat := fun he => hxi (BitVec.eq_of_toNat_eq he)
        have hxlt := x.isLt
        obtain he | hlt := hs
        · rw [BitVec.lt_def]
          rw [he, BitVec.toNat_allOnes] at hne ⊢
          omega
        · rw [BitVec.lt_def] at hlt ⊢
          change x.toNat < (s.bistIndex + 1#w).toNat at hlt
          have := Nat.mod_le (s.bistIndex.toNat + 1 % 2 ^ w) (2 ^ w)
          have := Nat.mod_le 1 (2 ^ w)
          rw [BitVec.toNat_add, BitVec.toNat_ofNat] at hlt
          omega

/-- The scan `n` cycles after a reset. -/
def Scanning (n : Nat) (s : BistRam w d) : Prop :=
  s.initDone = false ∧ s.bistIndex.toNat = n ∧ n < 2 ^ w ∨ s.initDone = true ∧ 2 ^ w ≤ n

theorem scanning_reset : Scanning 0 (s.step depth false wen a data) := by
  refine .inl ⟨rfl, ?_, Nat.two_pow_pos w⟩
  exact BitVec.toNat_zero

theorem Scanning.step {n : Nat} (h : Scanning n s) : Scanning (n + 1) (s.step depth true wen a data) := by
  obtain ⟨hd, hn, hlt⟩ | ⟨hd, hle⟩ := h
  · by_cases hall : s.bistIndex = BitVec.allOnes w
    · right
      refine ⟨by simp [BistRam.step, hall], ?_⟩
      rw [hall, BitVec.toNat_allOnes] at hn
      omega
    · left
      have hne : s.bistIndex.toNat ≠ 2 ^ w - 1 := fun he => hall (BitVec.eq_of_toNat_eq (he.trans BitVec.toNat_allOnes.symm))
      have hlt' : n + 1 < 2 ^ w := by omega
      refine ⟨by simp [BistRam.step, hall, hd], ?_, hlt'⟩
      simp only [BistRam.step, hd, Bool.not_true, Bool.false_eq_true, if_false]
      change (s.bistIndex + 1#w).toNat = n + 1
      exact (Counter.toNat_succ (by rwa [hn])).trans (by rw [hn])
  · exact .inr ⟨by simp [BistRam.step, hd], Nat.le_succ_of_le hle⟩

/-- The scan is done after as many cycles as there are addresses, and not before. -/
theorem Scanning.done_iff {n : Nat} (h : Scanning n s) : s.initDone = true ↔ 2 ^ w ≤ n := by
  obtain ⟨hd, -, hlt⟩ | ⟨hd, hle⟩ := h
  · simp [hd, hlt]
  · simp [hd, hle]

/-- The array together with the write that is about to be done has the contents of a memory. -/
structure Holds (depth : Nat) (s : BistRam w d) (wen : Bool) (a : BitVec w) (data : BitVec d)
    (mem : BitVec w → BitVec d) : Prop where
  done : s.initDone = true
  mem_eq : ∀ x, x.toNat < depth → mem x = if (wen && a == x) = true then data else s.ram x

variable {resetN : Bool}

theorem Holds.ram_step (h : Holds depth s wen a data mem) (hx : x.toNat < depth) :
    (s.step depth resetN wen a data).ram x = mem x := by
  rw [h.mem_eq x hx]
  simp only [step, h.done, Bool.not_true, Bool.false_eq_true, if_false, Bool.and_eq_true, beq_iff_eq]
  cases wen with
  | false => simp
  | true =>
      by_cases ha : a = x
      · subst ha
        simp [write_same s.ram hx]
      · simp [ha, write_other s.ram (Ne.symm ha)]

/-- The write of the next cycle, merged with the word that the memory has now. -/
theorem Holds.next (h : Holds depth s wen a data mem) (hr : resetN = true) {c : Access (BitVec w) d} {wen' : Bool}
    {a' : BitVec w} {new mask data' out : BitVec d} (hc : c.write = if wen' then some (a', mask, new) else none)
    (hdata : wen' = true → data' = merge (mem a') new mask) :
    Holds depth (s.step depth resetN wen a data) wen' a' data' (MaskedRam.step ⟨mem, out⟩ c).mem where
  done := by simp [step, h.done, hr]
  mem_eq x hx := by
    simp only [MaskedRam.step, hc]
    cases wen' with
    | false => simp [h.ram_step hx]
    | true =>
        simp only [if_true, Bool.true_and, beq_iff_eq]
        by_cases hax : a' = x
        · subst hax
          rw [Function.update_self, if_pos rfl, hdata rfl]
        · rw [Function.update_of_ne (Ne.symm hax), if_neg hax, h.ram_step hx]

theorem Scanned.holds (h : Scanned depth s) (hd : s.initDone = true) : Holds depth s false a data fun _ => 0 where
  done := hd
  mem_eq x hx := by simp [h x hx (.inl hd)]

end BistRam

namespace Bram1rwIn

variable {w d : Nat}

def access (i : Bram1rwIn w d) : Access (BitVec w) d where
  read := if i.readEn then some i.a else none
  write := if i.writeEn then some (i.a, i.bw, i.din) else none

/-- A cycle out of reset whose operation, if any, is on a word of the memory. -/
def Operates (depth : Nat) (i : Bram1rwIn w d) : Prop := i.resetN = true ∧ (i.ce = true → i.a.toNat < depth)

/-- A cycle out of reset without an operation. -/
def Idle (i : Bram1rwIn w d) : Prop := i.resetN = true ∧ i.ce = false

end Bram1rwIn

namespace Bram1rw

variable {w d depth : Nat} {s : Bram1rw w d} {m : MaskedRam (BitVec w) d} {i : Bram1rwIn w d}

/-- The array with the pending write is the memory, and the output is the word read last. -/
structure Refines (depth : Nat) (s : Bram1rw w d) (m : MaskedRam (BitVec w) d) : Prop where
  holds : s.array.Holds depth s.wenR s.aR s.bramDataIn m.mem
  out : m.out = s.dout

/-- Out of the array or of the bypass, the word of an operation is that of the memory before it. -/
theorem Refines.upToDate_step (h : Refines depth s m) (hi : i.Operates depth) (hce : i.ce = true) :
    (s.step i depth).upToDateData = m.mem i.a := by
  have hen : (i.readEn || i.writeEn) = true := by
    cases hr : i.rdwen <;> simp [Bram1rwIn.readEn, Bram1rwIn.writeEn, hce, hr]
  rw [h.holds.mem_eq i.a (hi.2 hce)]
  simp only [upToDateData, step, rwConflict, bramRen, hen, hce, Bool.and_true, Bool.true_and]
  cases s.wenR && s.aR == i.a <;> rfl

theorem Refines.step (h : Refines depth s m) (hi : i.Operates depth) : Refines depth (s.step i depth) (m.step i.access) where
  holds := by
    apply h.holds.next hi.1 (c := i.access) rfl
    intro hw
    rw [← h.upToDate_step hi (Bool.and_eq_true_iff.mp hw).1]
    rfl
  out := by
    simp only [MaskedRam.step, Bram1rwIn.access]
    cases hr : i.readEn with
    | false =>
        rw [dout, show (s.step i depth).renR = false from hr]
        exact h.out
    | true =>
        rw [dout, show (s.step i depth).renR = true from hr]
        exact (h.upToDate_step hi (Bool.and_eq_true_iff.mp hr).1).symm

/-- A scan without operations clears the memory, and leaves no write behind. -/
def Clearing (depth : Nat) (s : Bram1rw w d) : Prop :=
  s.array.Scanned depth ∧ (s.array.initDone = true → s.wenR = false)

theorem clearing_reset (hr : i.resetN = false) : (s.step i depth).Clearing depth := by
  simp only [Clearing, step, hr]
  refine ⟨BistRam.scanned_reset, fun h => ?_⟩
  simp [BistRam.step] at h

theorem Clearing.step (h : s.Clearing depth) (hi : i.Idle) : (s.step i depth).Clearing depth := by
  simp only [Clearing, Bram1rw.step, hi.1]
  exact ⟨h.1.step h.2, fun _ => by simp [Bram1rwIn.writeEn, hi.2]⟩

theorem Clearing.refines (h : s.Clearing depth) (hd : s.array.initDone = true) : Refines depth s ⟨fun _ => 0, s.dout⟩ where
  holds := by
    rw [h.2 hd]
    exact h.1.holds hd
  out := rfl

end Bram1rw

namespace Bram1r1wIn

variable {w d : Nat}

def access (i : Bram1r1wIn w d) : Access (BitVec w) d where
  read := if i.readEnableIn then some i.aa else none
  write := if i.writeEnableIn then some (i.ab, i.bwb, i.dinb) else none

/-- A cycle out of reset whose operations, a read, a write or both, are on words of the memory. -/
def Operates (depth : Nat) (i : Bram1r1wIn w d) : Prop :=
  i.resetN = true ∧ (i.readEnableIn = true → i.aa.toNat < depth) ∧ (i.writeEnableIn = true → i.ab.toNat < depth)

/-- A cycle out of reset without an operation. -/
def Idle (i : Bram1r1wIn w d) : Prop := i.resetN = true ∧ i.readEnableIn = false ∧ i.writeEnableIn = false

end Bram1r1wIn

namespace Bram1r1w

variable {w d depth : Nat} {s : Bram1r1w w d} {m : MaskedRam (BitVec w) d} {i : Bram1r1wIn w d}

/-- The array with the pending write is the memory, and the output is the word read last. -/
structure Refines (depth : Nat) (s : Bram1r1w w d) (m : MaskedRam (BitVec w) d) : Prop where
  holds : s.array.Holds depth s.writeEnableInReg s.writeAddressReg s.bramDataIn m.mem
  out : m.out = s.douta

theorem Refines.bramDataIn_step (h : Refines depth s m) (hi : i.Operates depth) (hw : i.writeEnableIn = true) :
    (s.step i depth).bramDataIn = merge (m.mem i.ab) i.dinb i.bwb := by
  rw [h.holds.mem_eq i.ab (hi.2.2 hw), merge, BitVec.or_comm]
  simp only [bramDataIn, step, wwConflict, bramWriteReadEn, hw, Bool.and_true, Bool.true_and]
  cases s.writeEnableInReg && s.writeAddressReg == i.ab <;> rfl

theorem Refines.douta_step (h : Refines depth s m) (hi : i.Operates depth) (hr : i.readEnableIn = true) :
    (s.step i depth).douta = m.mem i.aa := by
  rw [h.holds.mem_eq i.aa (hi.2.1 hr)]
  simp only [douta, step, rwConflict, bramReadEn, hr, Bool.and_true, Bool.true_and, if_true]
  cases s.writeEnableInReg && s.writeAddressReg == i.aa <;> rfl

theorem Refines.step (h : Refines depth s m) (hi : i.Operates depth) : Refines depth (s.step i depth) (m.step i.access) where
  holds := by
    apply h.holds.next hi.1 (c := i.access) rfl
    intro hw
    exact h.bramDataIn_step hi hw
  out := by
    simp only [MaskedRam.step, Bram1r1wIn.access]
    cases hr : i.readEnableIn with
    | false =>
        rw [douta, show (s.step i depth).readEnableInReg = false from hr]
        exact h.out
    | true => exact (h.douta_step hi hr).symm

def Clearing (depth : Nat) (s : Bram1r1w w d) : Prop :=
  s.array.Scanned depth ∧ (s.array.initDone = true → s.writeEnableInReg = false)

theorem clearing_reset (hr : i.resetN = false) : (s.step i depth).Clearing depth := by
  simp only [Clearing, step, hr]
  refine ⟨BistRam.scanned_reset, fun h => ?_⟩
  simp [BistRam.step] at h

theorem Clearing.step (h : s.Clearing depth) (hi : i.Idle) : (s.step i depth).Clearing depth := by
  simp only [Clearing, Bram1r1w.step, hi.1]
  exact ⟨h.1.step h.2, fun _ => hi.2.2⟩

theorem Clearing.refines (h : s.Clearing depth) (hd : s.array.initDone = true) : Refines depth s ⟨fun _ => 0, s.douta⟩ where
  holds := by
    rw [h.2 hd]
    exact h.1.holds hd
  out := rfl

end Bram1r1w

/-- The scan is done exactly when a wrapper was out of reset for as many cycles as there are addresses. -/
theorem initDone_iff {σ ι : Type*} {w d depth : Nat} {step : σ → ι → σ} {array : σ → BistRam w d} {resetN : ι → Bool}
    (harray : ∀ s i, ∃ wen a data, array (step s i) = (array s).step depth (resetN i) wen a data)
    (s : σ) {reset : ι} (hr : resetN reset = false) {scan : List ι} (hscan : ∀ j ∈ scan, resetN j = true) :
    (array (Machine.run step s (reset :: scan))).initDone = true ↔ 2 ^ w ≤ scan.length := by
  apply BistRam.Scanning.done_iff
  induction scan using List.reverseRecOn with
  | nil =>
      obtain ⟨wen, a, data, h⟩ := harray s reset
      change (array (step s reset)).Scanning 0
      rw [h, hr]
      exact BistRam.scanning_reset
  | append_singleton scan i ih =>
      obtain ⟨wen, a, data, h⟩ := harray (Machine.run step s (reset :: scan)) i
      rw [← List.cons_append, Machine.run_append, List.length_append]
      change (array (step _ i)).Scanning _
      rw [h, hscan i (by simp)]
      exact (ih fun j hj => hscan j (by simp [hj])).step

theorem Bram1rw.initDone_iff {w d : Nat} (depth : Nat) (s : Bram1rw w d) {reset : Bram1rwIn w d} (hr : reset.resetN = false)
    {scan : List (Bram1rwIn w d)} (hscan : ∀ j ∈ scan, j.resetN = true) :
    (Machine.run (fun s i => step s i depth) s (reset :: scan)).array.initDone = true ↔ 2 ^ w ≤ scan.length :=
  Common.initDone_iff (fun _ _ => ⟨_, _, _, rfl⟩) s hr hscan

theorem Bram1r1w.initDone_iff {w d : Nat} (depth : Nat) (s : Bram1r1w w d) {reset : Bram1r1wIn w d}
    (hr : reset.resetN = false) {scan : List (Bram1r1wIn w d)} (hscan : ∀ j ∈ scan, j.resetN = true) :
    (Machine.run (fun s i => step s i depth) s (reset :: scan)).array.initDone = true ↔ 2 ^ w ≤ scan.length :=
  Common.initDone_iff (fun _ _ => ⟨_, _, _, rfl⟩) s hr hscan

/-- After a reset and a scan without operations, from whatever state: each bit of the output is the last write to it
before the last read, in whatever cycles without a read follow. -/
def ReadsLastWrites {σ ι : Type*} {w d : Nat} (step : σ → ι → σ) (dout : σ → BitVec d) (array : σ → BistRam w d)
    (resetN : ι → Bool) (idle operates : ι → Prop) (access : ι → Access (BitVec w) d) : Prop :=
  ∀ (s : σ) (reset : ι) (scan before after : List ι) (i : ι) (a : BitVec w) (b : Nat),
    resetN reset = false → (∀ j ∈ scan, idle j) → (array (Machine.run step s (reset :: scan))).initDone = true →
    (∀ j ∈ before ++ i :: after, operates j) → (access i).read = some a → (∀ j ∈ after, (access j).read = none) → b < d →
    (dout (Machine.run step s (reset :: scan ++ (before ++ i :: after)))).getLsbD b = lastWrite (before.map access) a b

/-- A wrapper that refines the memory from the end of the scan on reads the last writes. -/
theorem readsLastWrites {σ ι : Type*} {w d : Nat} {step : σ → ι → σ} {dout : σ → BitVec d} {array : σ → BistRam w d}
    {resetN : ι → Bool} {idle operates : ι → Prop} {access : ι → Access (BitVec w) d}
    {clearing : σ → Prop} {refines : σ → MaskedRam (BitVec w) d → Prop}
    (hreset : ∀ s i, resetN i = false → clearing (step s i)) (hscan : ∀ s i, clearing s → idle i → clearing (step s i))
    (hdone : ∀ s, clearing s → (array s).initDone = true → refines s ⟨fun _ => 0, dout s⟩)
    (hstep : ∀ s m i, refines s m → operates i → refines (step s i) (m.step (access i)))
    (hout : ∀ s m, refines s m → m.out = dout s) :
    ReadsLastWrites step dout array resetN idle operates access := by
  intro s reset scan before after i a b hr hidle hd hops ha hafter hb
  have hclear : clearing (Machine.run step s (reset :: scan)) :=
    Machine.run_keeps (s := step s reset) hscan (hreset s reset hr) hidle
  have hrun := Machine.run_simulates (f := access) hstep (hdone _ hclear hd) hops
  rw [Machine.run_append, ← hout _ _ hrun, List.map_append, List.map_cons]
  apply run_out (fun _ => rfl) ha _ hb
  intro c hc
  obtain ⟨j, hj, rfl⟩ := List.mem_map.mp hc
  exact hafter j hj

/-- Both wrappers are memories written bit by bit, of any depth and any widths. -/
theorem wrappers_readLastWrites (w d depth : Nat) :
    ReadsLastWrites (fun s i => Bram1rw.step s i depth) Bram1rw.dout Bram1rw.array Bram1rwIn.resetN Bram1rwIn.Idle
        (Bram1rwIn.Operates depth) (Bram1rwIn.access (w := w) (d := d)) ∧
      ReadsLastWrites (fun s i => Bram1r1w.step s i depth) Bram1r1w.douta Bram1r1w.array Bram1r1wIn.resetN Bram1r1wIn.Idle
        (Bram1r1wIn.Operates depth) (Bram1r1wIn.access (w := w) (d := d)) := by
  constructor
  · exact readsLastWrites (fun _ _ => Bram1rw.clearing_reset) (fun _ _ => Bram1rw.Clearing.step)
      (fun _ => Bram1rw.Clearing.refines) (fun _ _ _ => Bram1rw.Refines.step) (fun _ _ => Bram1rw.Refines.out)
  · exact readsLastWrites (fun _ _ => Bram1r1w.clearing_reset) (fun _ _ => Bram1r1w.Clearing.step)
      (fun _ => Bram1r1w.Clearing.refines) (fun _ _ _ => Bram1r1w.Refines.step) (fun _ _ => Bram1r1w.Refines.out)

/-- Two writes under different masks and a read right after them. -/
theorem wrappers_readLastWrites_masked :
    (∀ s : Bram1rw 1 2, (Bram1rw.dout (Machine.run (fun s i => Bram1rw.step s i 2) s
      (⟨false, false, 0, false, 0, 0⟩ :: List.replicate 2 ⟨true, false, 0, false, 0, 0⟩ ++
        ([⟨true, true, 1, false, 1, 3⟩, ⟨true, true, 1, false, 2, 2⟩] ++ [⟨true, true, 1, true, 0, 0⟩])))).getLsbD 0 = true) ∧
      ∀ s : Bram1r1w 1 2, (Bram1r1w.douta (Machine.run (fun s i => Bram1r1w.step s i 2) s
        (⟨false, false, 0, false, false, 0, false, 0, 0⟩ :: List.replicate 2 ⟨true, false, 0, false, false, 0, false, 0, 0⟩ ++
          ([⟨true, false, 0, false, true, 1, false, 1, 3⟩] ++ [⟨true, true, 1, true, true, 1, false, 3, 0⟩])))).getLsbD 0 =
            true := by
  constructor
  · intro s
    refine ((wrappers_readLastWrites 1 2 2).1 s _ _ _ [] _ 1 0 rfl ?_ ?_ ?_ rfl ?_ (by decide)).trans (by decide)
    · intro j hj
      rw [List.eq_of_mem_replicate hj]
      exact ⟨rfl, rfl⟩
    · rfl
    · simp [Bram1rwIn.Operates]
    · simp
  · intro s
    refine ((wrappers_readLastWrites 1 2 2).2 s _ _ _ [] _ 1 0 rfl ?_ ?_ ?_ rfl ?_ (by decide)).trans (by decide)
    · intro j hj
      rw [List.eq_of_mem_replicate hj]
      exact ⟨rfl, rfl, rfl⟩
    · rfl
    · simp [Bram1r1wIn.Operates]
    · simp

end OpenPiton.Common
