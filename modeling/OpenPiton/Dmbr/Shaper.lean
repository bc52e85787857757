import OpenPiton.Lib.Machine
import Mathlib.Data.BitVec
import Mathlib.Data.Fin.Basic

namespace OpenPiton.Dmbr

/-- The registers of `dmbr`. Bins and tags index arrays here. -/
structure Shaper where
  curCredit : Fin 10 → BitVec 6
  repCredit : Fin 10 → BitVec 6
  repInterval : BitVec 16
  replenishCycles : BitVec 16
  totalStallCycles : BitVec 16
  binScale : BitVec 10
  satCounter : BitVec 9
  addCounter : BitVec 9
  interval : BitVec 4 → BitVec 10
  binUsed : BitVec 4 → BitVec 4

structure ShaperIn where
  rst : Bool
  funcEn : Bool
  stallEn : Bool
  procLd : Bool
  creditIn : Fin 10 → BitVec 6
  replenishCyclesIn : BitVec 16
  binScaleIn : BitVec 10
  l1missIn : Bool
  l1missTag : BitVec 4
  l2responseIn : Bool
  l2missIn : Bool
  l2missTag : BitVec 4

/-- `REPLENISHk << binScale` in the width of its context. -/
def threshold (w : Nat) (binScale : BitVec 10) (k : Fin 10) : BitVec w := BitVec.ofNat w k <<< binScale.toNat

/-- What a miss sets: the bin whose `req_en` is high, `stall_cycles` and `bin_number`. -/
structure Choice where
  bin : Fin 10
  stallCycles : BitVec 16
  binNumber : BitVec 4

abbrev binNone : BitVec 4 := 10

namespace Shaper

def reset : Shaper where
  curCredit := fun _ => 1
  repCredit := fun _ => 0
  repInterval := 0
  replenishCycles := 0
  totalStallCycles := 0
  binScale := 0
  satCounter := 0
  addCounter := 0
  interval := fun _ => 0
  binUsed := fun _ => 0

variable (s : Shaper) (i : ShaperIn)

def maxInterval : BitVec 9 := ((10#32 <<< s.binScale.toNat) + 1#32).setWidth 9

def nextSatCounter : BitVec 9 :=
  if i.l1missIn then 0 else if s.satCounter < s.maxInterval then s.satCounter + 1 else s.satCounter

def sumCounter : BitVec 10 := s.satCounter.setWidth 10 + s.addCounter.setWidth 10

def curInterval : BitVec 10 := if i.l1missIn then s.sumCounter else 0

def addInterval : BitVec 10 := if i.l2responseIn && !i.l2missIn then s.interval i.l2missTag else 0

def addInterval2 : BitVec 9 :=
  if s.maxInterval.setWidth 10 < s.addInterval i then s.maxInterval else (s.addInterval i).setWidth 9

/-- The sum and its comparison are nine bits wide; `add_counter_reset` is `l1missIn`. -/
def nextAddCounter : BitVec 9 :=
  if i.l2responseIn && i.l1missIn then s.addInterval2 i
  else if i.l2responseIn && !i.l2missIn then
    if s.addCounter + s.addInterval2 i < s.maxInterval then s.addCounter + s.addInterval2 i else s.maxInterval
  else if i.l1missIn then 0
  else s.addCounter

/-- `rep_en`, and `rep_reset` with it. -/
def repEn : Bool := s.repInterval == s.replenishCycles

def nextRepInterval : BitVec 16 := if s.repEn then 0 else s.repInterval + 1

/-- There are ten bins. -/
instance ten_neZero : NeZero 10 := ⟨Nat.succ_ne_zero 9⟩

def hasCredit (k : Fin 10) : Bool := 0 < s.curCredit k

def reached (k : Fin 10) : Bool := threshold 10 s.binScale k ≤ s.curInterval i

/-- The chain of conditions under `l1missIn`: from bin 9 down the first that is reached and has credit, bin 0 if it
has credit, from bin 1 up the first that has credit, else none. -/
def choice : Choice :=
  match [9, 8, 7, 6, 5, 4, 3, 2, 1].find? fun k => s.reached i k && s.hasCredit k with
  | some k => ⟨k, 0, BitVec.ofNat 4 k⟩
  | none =>
    if s.hasCredit 0 then ⟨0, 0, 0⟩
    else
      match [1, 2, 3, 4, 5, 6, 7, 8, 9].find? s.hasCredit with
      | some k => ⟨k, threshold 16 s.binScale k - (s.curInterval i).setWidth 16, BitVec.ofNat 4 k⟩
      | none => ⟨0, s.replenishCycles - s.repInterval, binNone⟩

def reqEn (k : Fin 10) : Bool := i.l1missIn && (s.choice i).bin == k

def stallCycles : BitVec 16 := if i.l1missIn then (s.choice i).stallCycles else 0

def binNumber : BitVec 4 := if i.l1missIn then (s.choice i).binNumber else 0

def nextTotalStallCycles : BitVec 16 :=
  if 0 < s.stallCycles i then s.totalStallCycles + s.stallCycles i
  else if 0 < s.totalStallCycles then s.totalStallCycles - 1
  else 0

def stallOut : Bool := i.stallEn && 0 < s.totalStallCycles

def addBin : BitVec 4 := if i.l2responseIn && !i.l2missIn then s.binUsed i.l2missTag else 0

def addEn (k : Fin 10) : Bool := i.l2responseIn && !i.l2missIn && s.addBin i == BitVec.ofNat 4 k

/-- The `or` of the values of the bins that are enabled. -/
def mux (en : Fin 10 → Bool) (v : Fin 10 → BitVec 6) : BitVec 6 :=
  (List.finRange 10).foldr (fun k r => (if en k then v k else 0) ||| r) 0

def curCreditMux : BitVec 6 := mux (s.reqEn i) s.curCredit

def repCreditMux : BitVec 6 := mux (s.reqEn i) s.repCredit

def curCreditMux2 : BitVec 6 := mux (s.addEn i) s.curCredit

def repCreditMux2 : BitVec 6 := mux (s.addEn i) s.repCredit

def curCreditMinusOne : BitVec 6 := if 0 < s.curCreditMux i then s.curCreditMux i - 1 else s.curCreditMux i

def input2 : BitVec 6 := if s.repEn then s.repCreditMux2 i else s.curCreditMux2 i

def reqOut : BitVec 6 := if s.repEn then s.repCreditMux i else s.curCreditMinusOne i

def addOut : BitVec 6 := if s.input2 i < BitVec.allOnes 6 then s.input2 i + 1 else s.input2 i

def nextCredit (k : Fin 10) : BitVec 6 :=
  match s.reqEn i k, s.repEn, s.addEn i k with
  | false, false, true => s.addOut i
  | false, true, false => s.repCredit k
  | false, true, true => s.addOut i
  | true, false, false => s.reqOut i
  | true, true, false => s.reqOut i
  | true, true, true => s.repCredit k
  | false, false, false => s.curCredit k
  | true, false, true => s.curCredit k

def step : Shaper :=
  if i.rst then reset
  else if i.funcEn then
    { curCredit := if i.procLd then i.creditIn else s.nextCredit i
      repCredit := if i.procLd then i.creditIn else s.repCredit
      repInterval := s.nextRepInterval
      replenishCycles := if i.procLd then i.replenishCyclesIn else s.replenishCycles
      totalStallCycles := s.nextTotalStallCycles i
      binScale := if i.procLd then i.binScaleIn else s.binScale
      satCounter := s.nextSatCounter i
      addCounter := s.nextAddCounter i
      interval := if i.l1missIn then Function.update s.interval i.l1missTag s.sumCounter else s.interval
      binUsed := if i.l1missIn then Function.update s.binUsed i.l1missTag (s.binNumber i) else s.binUsed }
  else s

end Shaper

end OpenPiton.Dmbr
