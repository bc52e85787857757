import OpenPiton.Lib.Counter
import OpenPiton.Lib.Machine
import Mathlib.Algebra.BigOperators.Group.Finset.Piecewise
import Mathlib.Data.BitVec
import Mathlib.Data.Fintype.Card
import Mathlib.Logic.Function.Basic

namespace OpenPiton.L2

def mshrStateInval : BitVec 2 := 0
def mshrStateWait : BitVec 2 := 1
def mshrStatePending : BitVec 2 := 2

def msgTypeWbguardReq : BitVec 8 := 13

/-- `L2_MSHR_WBG_THRESHOLD`. -/
def mshrWbgThreshold : Nat := 4

/-- The fields of an entry that the entries' states depend on; a mask of them has the same shape. -/
structure MshrData (addrWidth : Nat) where
  cmpAddr : BitVec addrWidth
  msgType : BitVec 8
  smcMiss : Bool
  deriving DecidableEq

def MshrData.merge {addrWidth : Nat} (old new mask : MshrData addrWidth) : MshrData addrWidth where
  cmpAddr := old.cmpAddr &&& ~~~mask.cmpAddr ||| new.cmpAddr &&& mask.cmpAddr
  msgType := old.msgType &&& ~~~mask.msgType ||| new.msgType &&& mask.msgType
  smcMiss := old.smcMiss && !mask.smcMiss || new.smcMiss && mask.smcMiss

/-- The states and the data of `2 ^ indexWidth` entries, and the number of write-back guards. -/
structure Mshr (indexWidth addrWidth : Nat) where
  stateMem : Fin (2 ^ indexWidth) → BitVec 2
  dataMem : Fin (2 ^ indexWidth) → MshrData addrWidth
  wbgCounter : BitVec indexWidth

/-- The inputs of `l2_mshr`. -/
structure MshrIn (indexWidth addrWidth : Nat) where
  rstN : Bool
  camEn : Bool
  wrStateEn : Bool
  wrDataEn : Bool
  pendingReady : Bool
  stateIn : BitVec 2
  dataIn : MshrData addrWidth
  dataMaskIn : MshrData addrWidth
  wrIndexIn : Fin (2 ^ indexWidth)
  addrIn : BitVec addrWidth

variable {indexWidth addrWidth : Nat}

namespace Mshr

variable (s : Mshr indexWidth addrWidth) (x : MshrIn indexWidth addrWidth) (k : Fin (2 ^ indexWidth))

/-- The first entry that is pending. -/
def pendingEntry : Option (Fin (2 ^ indexWidth)) :=
  (List.finRange (2 ^ indexWidth)).find? fun k => s.stateMem k == mshrStatePending

/-- The first valid entry with the address, while `cam_en`. -/
def hitEntry : Option (Fin (2 ^ indexWidth)) :=
  if x.camEn then
    (List.finRange (2 ^ indexWidth)).find? fun k =>
      (s.dataMem k).cmpAddr == x.addrIn && s.stateMem k != mshrStateInval
  else none

/-- The entry that a pending retirement takes. -/
def readyEntry : Option (Fin (2 ^ indexWidth)) := if x.pendingReady then s.pendingEntry else none

def guard : Bool := (s.dataMem k).msgType == msgTypeWbguardReq

/-- The guard entry that the address hits. -/
def hitGuard : Option (Fin (2 ^ indexWidth)) := (s.hitEntry x).filter s.guard

/-- SMC miss entries are locked in the mshr. -/
def retireState : BitVec 2 := if (s.dataMem k).smcMiss then mshrStateWait else mshrStateInval

/-- Waiting guards are cleared when they occupy more entries than the threshold. -/
def clearGuards : BitVec 2 :=
  if s.stateMem k == mshrStateWait && s.guard k then mshrStatePending else s.stateMem k

def stateNext : Fin (2 ^ indexWidth) → BitVec 2 :=
  if x.wrStateEn then
    match s.readyEntry x with
    | some p =>
        if p ≠ x.wrIndexIn then
          Function.update (Function.update s.stateMem x.wrIndexIn x.stateIn) p (s.retireState p)
        else Function.update s.stateMem x.wrIndexIn x.stateIn
    | none => Function.update s.stateMem x.wrIndexIn x.stateIn
  else
    match s.readyEntry x with
    | some p => Function.update s.stateMem p (s.retireState p)
    | none =>
        match s.hitGuard x with
        | some k => Function.update s.stateMem k mshrStatePending
        | none => if s.wbgCounter.toNat > mshrWbgThreshold then s.clearGuards else s.stateMem

/-- A guard is written that has to wait. -/
def allocates : Bool :=
  x.wrStateEn && x.wrDataEn && x.stateIn == mshrStateWait && x.dataIn.msgType == msgTypeWbguardReq &&
    x.dataMaskIn.msgType == BitVec.allOnes 8

def wbgCounterNext : BitVec indexWidth :=
  if allocates x then s.wbgCounter + 1
  else if !x.wrStateEn && (s.readyEntry x).isNone && (s.hitGuard x).isSome then s.wbgCounter - 1
  else s.wbgCounter

def dataNext : Fin (2 ^ indexWidth) → MshrData addrWidth :=
  if x.wrDataEn then
    Function.update s.dataMem x.wrIndexIn ((s.dataMem x.wrIndexIn).merge x.dataIn x.dataMaskIn)
  else s.dataMem

def step : Mshr indexWidth addrWidth :=
  if !x.rstN then
    { stateMem := fun _ => mshrStateInval, dataMem := fun _ => ⟨0, 0, false⟩, wbgCounter := 0 }
  else { stateMem := s.stateNext x, dataMem := s.dataNext x, wbgCounter := s.wbgCounterNext x }

end Mshr

/-- What a pipeline drives to write an entry. -/
structure MshrWrite (indexWidth addrWidth : Nat) where
  wrStateEn : Bool
  wrDataEn : Bool
  stateIn : BitVec 2
  dataIn : MshrData addrWidth
  dataMaskIn : MshrData addrWidth
  wrIndexIn : Fin (2 ^ indexWidth)

/-- What a pipeline drives to look an entry up. -/
structure MshrLookup (addrWidth : Nat) where
  camEn : Bool
  pendingReady : Bool
  addrIn : BitVec addrWidth

structure MshrWrapIn (indexWidth addrWidth : Nat) where
  rstN : Bool
  pipeRdSel : Bool
  pipeWrSel : Bool
  write1 : MshrWrite indexWidth addrWidth
  write2 : MshrWrite indexWidth addrWidth
  lookup1 : MshrLookup addrWidth
  lookup2 : MshrLookup addrWidth

/-- The inputs that `l2_mshr_wrap` selects; only with `NO_L2_CAM_MSHR` does the second pipeline look
entries up. -/
def MshrWrapIn.select (noL2CamMshr : Bool) (x : MshrWrapIn indexWidth addrWidth) : MshrIn indexWidth addrWidth :=
  let write := if x.pipeWrSel then x.write2 else x.write1
  let lookup := if noL2CamMshr && x.pipeRdSel then x.lookup2 else x.lookup1
  { rstN := x.rstN
    camEn := lookup.camEn
    wrStateEn := write.wrStateEn
    wrDataEn := write.wrDataEn
    pendingReady := lookup.pendingReady
    stateIn := write.stateIn
    dataIn := write.dataIn
    dataMaskIn := write.dataMaskIn
    wrIndexIn := write.wrIndexIn
    addrIn := lookup.addrIn }

def mshrWrapStep (noL2CamMshr : Bool) (s : Mshr indexWidth addrWidth) (x : MshrWrapIn indexWidth addrWidth) :
    Mshr indexWidth addrWidth := s.step (x.select noL2CamMshr)

namespace Mshr

variable {noL2CamMshr : Bool} {s : Mshr indexWidth addrWidth} {x : MshrIn indexWidth addrWidth}
  {k p : Fin (2 ^ indexWidth)}

def waiting (s : Mshr indexWidth addrWidth) (k : Fin (2 ^ indexWidth)) : Bool :=
  s.stateMem k == mshrStateWait && s.guard k

/-- The number of waiting guards. -/
def waitingGuards (s : Mshr indexWidth addrWidth) : Nat := (Finset.univ.filter fun k => s.waiting k = true).card

/-- Behind a reset. -/
def Init (s : Mshr indexWidth addrWidth) : Prop :=
  s = { stateMem := fun _ => mshrStateInval, dataMem := fun _ => ⟨0, 0, false⟩, wbgCounter := 0 }

def Counted (s : Mshr indexWidth addrWidth) : Prop := s.wbgCounter.toNat = s.waitingGuards

/-- Nothing is written or retired and no guard is hit, and the guards are above the threshold. -/
def clears (s : Mshr indexWidth addrWidth) (x : MshrIn indexWidth addrWidth) : Bool :=
  x.rstN && !x.wrStateEn && (s.readyEntry x).isNone && (s.hitGuard x).isNone &&
    decide (s.wbgCounter.toNat > mshrWbgThreshold)

/-- The message type that entry `k` has behind the cycle's data write. -/
def guardNext (s : Mshr indexWidth addrWidth) (x : MshrIn indexWidth addrWidth) (k : Fin (2 ^ indexWidth)) : Bool :=
  (s.dataNext x k).msgType == msgTypeWbguardReq

/-- The inputs for which the counter follows the guards. -/
structure Accounts (s : Mshr indexWidth addrWidth) (x : MshrIn indexWidth addrWidth) : Prop where
  /-- A guard is allocated in an entry that is none, and the counter has room. -/
  alloc : x.rstN = true → allocates x = true →
    s.waiting x.wrIndexIn = false ∧ s.wbgCounter.toNat + 1 < 2 ^ indexWidth
  /-- Any other write of a state leaves a waiting guard one, and makes none. -/
  write : x.rstN = true → x.wrStateEn = true → allocates x = false →
    s.waiting x.wrIndexIn = (x.stateIn == mshrStateWait && s.guardNext x x.wrIndexIn)
  /-- A write of data alone leaves the type of a waiting entry. -/
  retype : x.rstN = true → x.wrStateEn = false → s.stateMem x.wrIndexIn = mshrStateWait →
    s.hitGuard x = some x.wrIndexIn ∧ s.readyEntry x = none ∨ s.guardNext x x.wrIndexIn = s.guard x.wrIndexIn
  /-- A guard that is retired does not wait again. -/
  retire : x.rstN = true → ∀ p, s.readyEntry x = some p → (x.wrStateEn = true → p ≠ x.wrIndexIn) →
    (s.dataMem p).smcMiss = true → s.guardNext x p = false
  /-- A guard that is hit is waiting. -/
  hit : x.rstN = true → x.wrStateEn = false → s.readyEntry x = none → ∀ k, s.hitGuard x = some k →
    s.stateMem k = mshrStateWait
  /-- No guards are cleared. -/
  below : s.clears x = false

/-- Where all entries but one agree, the numbers differ by what that one is. -/
theorem waitingGuards_of_agree {s s' : Mshr indexWidth addrWidth} (j : Fin (2 ^ indexWidth))
    (h : ∀ k, k ≠ j → s'.waiting k = s.waiting k) :
    s'.waitingGuards + (s.waiting j).toNat = s.waitingGuards + (s'.waiting j).toNat := by
  have hsum : ∀ s : Mshr indexWidth addrWidth,
      s.waitingGuards = (s.waiting j).toNat + ∑ k ∈ Finset.univ.erase j, (s.waiting k).toNat := by
    intro s
    rw [Finset.add_sum_erase _ (fun k => (s.waiting k).toNat) (Finset.mem_univ j), waitingGuards, Finset.card_filter]
    refine Finset.sum_congr rfl fun k _ => ?_
    cases s.waiting k <;> rfl
  have hrest : ∑ k ∈ Finset.univ.erase j, (s'.waiting k).toNat = ∑ k ∈ Finset.univ.erase j, (s.waiting k).toNat :=
    Finset.sum_congr rfl fun k hk => by rw [h k (Finset.ne_of_mem_erase hk)]
  rw [hsum s, hsum s', hrest]
  omega

theorem waitingGuards_congr {s s' : Mshr indexWidth addrWidth} (h : ∀ k, s'.waiting k = s.waiting k) :
    s'.waitingGuards = s.waitingGuards := by
  rw [waitingGuards, waitingGuards]
  simp only [h]

theorem waitingGuards_none (h : ∀ k, s.waiting k = false) : s.waitingGuards = 0 := by
  rw [waitingGuards, Finset.card_eq_zero, Finset.filter_eq_empty_iff]
  intro k _
  rw [h k]
  exact Bool.false_ne_true

theorem guardNext_of_ne (h : k ≠ x.wrIndexIn) : s.guardNext x k = s.guard k := by
  rw [guardNext, dataNext, guard]
  split
  · rw [Function.update_of_ne h]
  · rfl

theorem readyEntry_pending (h : s.readyEntry x = some p) : s.stateMem p = mshrStatePending := by
  rw [readyEntry] at h
  split at h
  · have hp := List.find?_some h
    exact beq_iff_eq.mp hp
  · cases h

theorem hitGuard_guard (h : s.hitGuard x = some k) : s.guard k = true := by
  rw [hitGuard, Option.filter_eq_some_iff] at h
  exact h.2

theorem waiting_step (hr : x.rstN = true) :
    (s.step x).waiting k = (s.stateNext x k == mshrStateWait && s.guardNext x k) := by
  rw [step, hr]
  rfl

theorem guardNext_alloc (h : allocates x = true) : s.guardNext x x.wrIndexIn = true := by
  simp only [allocates, Bool.and_eq_true, beq_iff_eq] at h
  obtain ⟨⟨⟨⟨_, hd⟩, _⟩, ht⟩, hm⟩ := h
  have hmerge : (s.dataMem x.wrIndexIn).msgType &&& ~~~BitVec.allOnes 8 ||| msgTypeWbguardReq &&& BitVec.allOnes 8 =
      msgTypeWbguardReq := by
    rw [BitVec.not_allOnes, BitVec.and_zero, BitVec.zero_or, BitVec.and_allOnes]
  rw [guardNext, dataNext, if_pos hd, Function.update_self, MshrData.merge, ht, hm, hmerge]
  rfl

theorem not_waiting_retired (h : Accounts s x) (hr : x.rstN = true) (hp : s.readyEntry x = some p)
    (hne : x.wrStateEn = true → p ≠ x.wrIndexIn) :
    (s.retireState p == mshrStateWait && s.guardNext x p) = false ∧ s.waiting p = false := by
  constructor
  · rw [retireState]
    split
    · rw [h.retire hr p hp hne ‹_›, Bool.and_false]
    · rfl
  · rw [waiting, readyEntry_pending hp]
    rfl

theorem stateNext_write (hw : x.wrStateEn = true) :
    s.stateNext x = match s.readyEntry x with
      | some p =>
          if p ≠ x.wrIndexIn then
            Function.update (Function.update s.stateMem x.wrIndexIn x.stateIn) p (s.retireState p)
          else Function.update s.stateMem x.wrIndexIn x.stateIn
      | none => Function.update s.stateMem x.wrIndexIn x.stateIn := by
  rw [stateNext, if_pos hw]

theorem waiting_write_other (h : Accounts s x) (hr : x.rstN = true) (hw : x.wrStateEn = true) (hk : k ≠ x.wrIndexIn) :
    (s.step x).waiting k = s.waiting k := by
  rw [waiting_step hr, stateNext_write hw, guardNext_of_ne hk]
  cases hp : s.readyEntry x with
  | none =>
      dsimp only
      rw [Function.update_of_ne hk]
      rfl
  | some p =>
      dsimp only
      split
      · by_cases hkp : k = p
        · subst hkp
          have hret := not_waiting_retired h hr hp fun _ => hk
          rw [guardNext_of_ne hk] at hret
          rw [Function.update_self, hret.1, hret.2]
        · rw [Function.update_of_ne hkp, Function.update_of_ne hk]
          rfl
      · rw [Function.update_of_ne hk]
        rfl

theorem waiting_write_self (hr : x.rstN = true) (hw : x.wrStateEn = true) :
    (s.step x).waiting x.wrIndexIn = (x.stateIn == mshrStateWait && s.guardNext x x.wrIndexIn) := by
  rw [waiting_step hr, stateNext_write hw]
  cases s.readyEntry x with
  | none =>
      dsimp only
      rw [Function.update_self]
  | some p =>
      dsimp only
      split
      · rename_i hne
        rw [Function.update_of_ne (Ne.symm hne), Function.update_self]
      · rw [Function.update_self]

/-- Where an entry stays waiting, a write of data leaves it a guard or no guard. -/
theorem waiting_data (h : Accounts s x) (hr : x.rstN = true) (hw : x.wrStateEn = false)
    (hk : s.hitGuard x = some k → s.readyEntry x ≠ none) :
    (s.stateMem k == mshrStateWait && s.guardNext x k) = s.waiting k := by
  rw [waiting]
  by_cases hwait : s.stateMem k = mshrStateWait
  · by_cases hwi : k = x.wrIndexIn
    · subst hwi
      rcases h.retype hr hw hwait with ⟨hhit, hnone⟩ | heq
      · exact absurd hnone (hk hhit)
      · rw [heq]
    · rw [guardNext_of_ne hwi]
  · rw [beq_eq_false_iff_ne.mpr hwait, Bool.false_and, Bool.false_and]

theorem Counted.reset (hr : x.rstN = false) : (s.step x).Counted := by
  have hnone : ∀ k, (s.step x).waiting k = false := by
    intro k
    simp only [Mshr.step, hr, Bool.not_false, if_true, waiting]
    rfl
  rw [Counted, waitingGuards_none hnone]
  simp [Mshr.step, hr]

theorem Counted.write (hc : s.Counted) (h : Accounts s x) (hr : x.rstN = true) (hw : x.wrStateEn = true) :
    (s.step x).Counted := by
  have hself := waiting_write_self (s := s) hr hw
  have hagree := waitingGuards_of_agree x.wrIndexIn fun k hk => waiting_write_other h hr hw hk
  have hcounter : (s.step x).wbgCounter = if allocates x then s.wbgCounter + 1 else s.wbgCounter := by
    rw [Mshr.step, hr]
    simp only [Bool.not_true, Bool.false_eq_true, if_false, wbgCounterNext, hw, Bool.false_and]
  rw [Counted] at hc ⊢
  rw [hcounter]
  cases ha : allocates x with
  | true =>
      obtain ⟨hfree, hroom⟩ := h.alloc hr ha
      have hstate : (x.stateIn == mshrStateWait) = true := by
        simp only [allocates, Bool.and_eq_true] at ha
        exact ha.1.1.2
      rw [hself, guardNext_alloc ha, hstate, hfree] at hagree
      have hnext : (s.step x).waitingGuards = s.waitingGuards + 1 := hagree
      rw [if_pos rfl, Counter.toNat_succ hroom, hnext, hc]
  | false =>
      rw [hself, ← h.write hr hw ha] at hagree
      rw [if_neg Bool.false_ne_true, hc]
      exact (Nat.add_right_cancel hagree).symm

theorem Counted.same (hc : s.Counted) (hcounter : (s.step x).wbgCounter = s.wbgCounter)
    (h : ∀ k, (s.step x).waiting k = s.waiting k) : (s.step x).Counted := by
  rw [Counted, hcounter, waitingGuards_congr h]
  exact hc

theorem Counted.retire (hc : s.Counted) (h : Accounts s x) (hr : x.rstN = true) (hw : x.wrStateEn = false)
    (hp : s.readyEntry x = some p) : (s.step x).Counted := by
  refine hc.same ?_ fun k => ?_
  · simp [Mshr.step, hr, wbgCounterNext, allocates, hw, hp]
  · rw [waiting_step hr, stateNext, hw, hp]
    simp only [Bool.false_eq_true, if_false]
    by_cases hkp : k = p
    · subst hkp
      have hret := not_waiting_retired h hr hp (by simp [hw])
      rw [Function.update_self, hret.1, hret.2]
    · rw [Function.update_of_ne hkp]
      exact waiting_data h hr hw (by simp [hp])

theorem Counted.hit (hc : s.Counted) (h : Accounts s x) (hr : x.rstN = true) (hw : x.wrStateEn = false)
    (hp : s.readyEntry x = none) (hg : s.hitGuard x = some k) : (s.step x).Counted := by
  have hother : ∀ j, j ≠ k → (s.step x).waiting j = s.waiting j := by
    intro j hj
    rw [waiting_step hr, stateNext, hw, hp, hg]
    simp only [Bool.false_eq_true, if_false]
    rw [Function.update_of_ne hj]
    exact waiting_data h hr hw (by simp [hg, Ne.symm hj])
  have hwas : s.waiting k = true := by
    rw [waiting, h.hit hr hw hp k hg, hitGuard_guard hg]
    rfl
  have hgone : (s.step x).waiting k = false := by
    rw [waiting_step hr, stateNext, hw, hp, hg]
    simp only [Bool.false_eq_true, if_false, Function.update_self]
    rfl
  have hagree := waitingGuards_of_agree k hother
  rw [hwas, hgone] at hagree
  have hless : (s.step x).waitingGuards + 1 = s.waitingGuards := hagree
  have hcounter : (s.step x).wbgCounter = s.wbgCounter - 1 := by
    simp [Mshr.step, hr, wbgCounterNext, allocates, hw, hp, hg]
  rw [Counted] at hc ⊢
  have hpred := Counter.toNat_pred (c := s.wbgCounter) (by omega)
  rw [hcounter]
  omega

theorem Counted.idle (hc : s.Counted) (h : Accounts s x) (hr : x.rstN = true) (hw : x.wrStateEn = false)
    (hp : s.readyEntry x = none) (hg : s.hitGuard x = none) : (s.step x).Counted := by
  have hbelow : ¬ s.wbgCounter.toNat > mshrWbgThreshold := by
    have hb := h.below
    simpa [clears, hr, hw, hp, hg] using hb
  refine hc.same ?_ fun k => ?_
  · simp [Mshr.step, hr, wbgCounterNext, allocates, hw, hp, hg]
  · rw [waiting_step hr, stateNext, hw, hp, hg]
    simp only [Bool.false_eq_true, if_false, hbelow]
    exact waiting_data h hr hw (by simp [hg])

theorem Counted.step (hc : s.Counted) (h : Accounts s x) : (s.step x).Counted := by
  cases hr : x.rstN with
  | false => exact .reset hr
  | true =>
    cases hw : x.wrStateEn with
    | true => exact hc.write h hr hw
    | false =>
      cases hp : s.readyEntry x with
      | some p => exact hc.retire h hr hw hp
      | none =>
        cases hg : s.hitGuard x with
        | some k => exact hc.hit h hr hw hp hg
        | none => exact hc.idle h hr hw hp hg

/-- A guard is hit in a cycle without a write of a state or a retirement. -/
def decrements (s : Mshr indexWidth addrWidth) (x : MshrIn indexWidth addrWidth) : Bool :=
  x.rstN && !x.wrStateEn && (s.readyEntry x).isNone && (s.hitGuard x).isSome

theorem Counted.no_wrap (hc : s.Counted) (h : Accounts s x) :
    (x.rstN = true → allocates x = true → s.wbgCounter.toNat + 1 < 2 ^ indexWidth) ∧
      (s.decrements x = true → 0 < s.wbgCounter.toNat) := by
  refine ⟨fun hr ha => (h.alloc hr ha).2, fun hd => ?_⟩
  simp only [decrements, Bool.and_eq_true, Bool.not_eq_true', Option.isNone_iff_eq_none, Option.isSome_iff_exists] at hd
  obtain ⟨⟨⟨hr, hw⟩, hp⟩, k, hg⟩ := hd
  have hwas : s.waiting k = true := by
    rw [waiting, h.hit hr hw hp k hg, hitGuard_guard hg]
    rfl
  rw [hc]
  exact Finset.card_pos.mpr ⟨k, Finset.mem_filter.mpr ⟨Finset.mem_univ k, hwas⟩⟩

/-- While every cycle meets `Accounts`, the counter has the number of waiting guards. -/
theorem guards_counted (h : Machine.Reaches Init (mshrWrapStep noL2CamMshr)
      (fun s x => Accounts s (x.select noL2CamMshr)) s) :
    s.Counted ∧ (∀ x, s.clears x = true → mshrWbgThreshold < s.waitingGuards) ∧
      ∀ x, Accounts s x →
        (x.rstN = true → allocates x = true → s.wbgCounter.toNat + 1 < 2 ^ indexWidth) ∧
          (s.decrements x = true → 0 < s.wbgCounter.toNat) := by
  have hc : s.Counted := by
    refine h.invariant (P := Counted) ?_ fun _ _ hc ha => hc.step ha
    rintro s rfl
    rw [Counted, waitingGuards_none fun _ => rfl]
    rfl
  refine ⟨hc, fun x hx => ?_, fun x hx => hc.no_wrap hx⟩
  simp only [clears, Bool.and_eq_true, decide_eq_true_eq] at hx
  rw [← hc]
  exact hx.2

/-- Entry `k` is written with a guard of the line `k`. -/
def allocGuard (k : Fin 8) : MshrWrapIn 3 8 where
  rstN := true
  pipeRdSel := false
  pipeWrSel := false
  write1 := ⟨true, true, mshrStateWait, ⟨BitVec.ofNat 8 k, msgTypeWbguardReq, false⟩,
    ⟨BitVec.allOnes 8, BitVec.allOnes 8, true⟩, k⟩
  write2 := ⟨false, false, 0, ⟨0, 0, false⟩, ⟨0, 0, false⟩, 0⟩
  lookup1 := ⟨false, false, 0⟩
  lookup2 := ⟨false, false, 0⟩

/-- The lines `k` is looked up. -/
def lookUp (k : Fin 8) : MshrWrapIn 3 8 where
  rstN := true
  pipeRdSel := false
  pipeWrSel := true
  write1 := ⟨false, false, 0, ⟨0, 0, false⟩, ⟨0, 0, false⟩, 0⟩
  write2 := ⟨false, false, 0, ⟨0, 0, false⟩, ⟨0, 0, false⟩, 0⟩
  lookup1 := ⟨true, false, BitVec.ofNat 8 k⟩
  lookup2 := ⟨false, false, 0⟩

def reset : Mshr 3 8 where
  stateMem := fun _ => mshrStateInval
  dataMem := fun _ => ⟨0, 0, false⟩
  wbgCounter := 0

set_option synthInstance.maxSize 400 in
instance : Decidable (Accounts s x) :=
  decidable_of_iff
    ((x.rstN = true → allocates x = true → s.waiting x.wrIndexIn = false ∧ s.wbgCounter.toNat + 1 < 2 ^ indexWidth) ∧
      (x.rstN = true → x.wrStateEn = true → allocates x = false →
        s.waiting x.wrIndexIn = (x.stateIn == mshrStateWait && s.guardNext x x.wrIndexIn)) ∧
      (x.rstN = true → x.wrStateEn = false → s.stateMem x.wrIndexIn = mshrStateWait →
        s.hitGuard x = some x.wrIndexIn ∧ s.readyEntry x = none ∨ s.guardNext x x.wrIndexIn = s.guard x.wrIndexIn) ∧
      (x.rstN = true → ∀ p, s.readyEntry x = some p → (x.wrStateEn = true → p ≠ x.wrIndexIn) →
        (s.dataMem p).smcMiss = true → s.guardNext x p = false) ∧
      (x.rstN = true → x.wrStateEn = false → s.readyEntry x = none → ∀ k, s.hitGuard x = some k →
        s.stateMem k = mshrStateWait) ∧ s.clears x = false)
    ⟨fun ⟨h1, h2, h3, h4, h5, h6⟩ => ⟨h1, h2, h3, h4, h5, h6⟩, fun h => ⟨h.1, h.2, h.3, h.4, h.5, h.6⟩⟩

theorem guards_counted_hit :
    let s := Machine.run (mshrWrapStep false) reset [allocGuard 0, allocGuard 1, allocGuard 2, lookUp 1]
    s.waitingGuards = 2 ∧ s.Counted ∧ (∀ x, s.clears x = true → mshrWbgThreshold < s.waitingGuards) ∧
      ∀ x, Accounts s x →
        (x.rstN = true → allocates x = true → s.wbgCounter.toNat + 1 < 2 ^ 3) ∧
          (s.decrements x = true → 0 < s.wbgCounter.toNat) :=
  ⟨by decide +kernel, guards_counted (.run (.start (show Init reset from rfl)) (by decide +kernel))⟩

/-- Five guards that wait are cleared in the first free cycle, and the counter keeps them. -/
theorem guards_kept : ¬ ∀ (noL2CamMshr : Bool) (s : Mshr 3 8),
    Machine.Reaches Init (mshrWrapStep noL2CamMshr) (fun _ _ => True) s → s.Counted := by
  intro h
  have hrun : Machine.Reaches Init (mshrWrapStep false) (fun _ _ => True)
      (Machine.run (mshrWrapStep false) reset
        [allocGuard 0, allocGuard 1, allocGuard 2, allocGuard 3, allocGuard 4, lookUp 7]) :=
    .run (.start (show Init reset from rfl)) (by decide)
  have hfive := h false _ hrun
  revert hfive
  rw [Counted]
  decide +kernel

end Mshr

end OpenPiton.L2
