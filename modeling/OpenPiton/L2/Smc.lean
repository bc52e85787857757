import OpenPiton.Lib.Machine
import Mathlib.Data.BitVec
import Mathlib.Logic.Function.Basic

namespace OpenPiton.L2

/-- The sharer map cache entry: the valid bits and the fields of four neighbouring LSIDs of an SDID. -/
structure SmcEntry where
  tag : BitVec 14
  valid : BitVec 4
  data : BitVec 120
  deriving DecidableEq

/-- `L2_SMC_SDID`, the upper part of a tag. -/
def sdidOf (tag : BitVec 14) : BitVec 10 := tag.extractLsb' 4 10

def SmcEntry.field (e : SmcEntry) (offset : BitVec 2) : BitVec 30 := (e.data >>> (offset.toNat * 30)).setWidth 30

def SmcEntry.flush (e : SmcEntry) : SmcEntry := { e with valid := 0 }

structure SmcIn where
  rstN : Bool
  rdEn : Bool
  wrEn : Bool
  rdDiagEn : Bool
  wrDiagEn : Bool
  flushEn : Bool
  addrOp : BitVec 2
  rdAddrIn : BitVec 16
  wrAddrIn : BitVec 16
  dataIn : BitVec 128

namespace SmcIn

variable (x : SmcIn)

def rdTagIn : BitVec 14 := x.rdAddrIn.extractLsb' 2 14
def rdOffsetIn : BitVec 2 := x.rdAddrIn.extractLsb' 0 2
def rdIndexIn : Fin 16 := (x.rdAddrIn.extractLsb' 2 4).toFin
def wrTagIn : BitVec 14 := x.wrAddrIn.extractLsb' 2 14
def wrOffsetIn : BitVec 2 := x.wrAddrIn.extractLsb' 0 2
def wrIndexIn : Fin 16 := (x.wrAddrIn.extractLsb' 2 4).toFin
def wrSdidIn : BitVec 10 := x.wrAddrIn.extractLsb' 6 10

def smcValidIn : BitVec 4 :=
  x.dataIn.extractLsb' 127 1 ++ x.dataIn.extractLsb' 95 1 ++ x.dataIn.extractLsb' 63 1 ++ x.dataIn.extractLsb' 31 1

def smcDataIn : BitVec 120 :=
  x.dataIn.extractLsb' 96 30 ++ x.dataIn.extractLsb' 64 30 ++ x.dataIn.extractLsb' 32 30 ++ x.dataIn.extractLsb' 0 30

end SmcIn

structure Smc where
  entryUsed : BitVec 16
  entryLocked : BitVec 16
  dataMem : Fin 16 → SmcEntry

/-- `l2_priority_encoder_4`: the lowest bit that is set, and whether there is one. -/
def priorityEncoder (p : Fin 16 → Bool) : Option (Fin 16) := (List.finRange 16).find? p

namespace Smc

variable (s : Smc) (x : SmcIn)

def smcTagCmp (k : Fin 16) : Bool :=
  (s.dataMem k).tag == x.rdTagIn && (s.dataMem k).valid.getLsbD x.rdOffsetIn.toNat

def hit : Bool := x.rdEn && !x.rdDiagEn && (priorityEncoder (s.smcTagCmp x)).isSome

def hitIndex : Fin 16 :=
  if x.rdEn && x.rdDiagEn then x.rdIndexIn
  else if x.rdEn then (priorityEncoder (s.smcTagCmp x)).getD 15 else 0

def smcTagWrCmp (k : Fin 16) : Bool := (s.dataMem k).tag == x.wrTagIn && (s.dataMem k).valid != 0

/-- Avoids redundant entries. -/
def wrHit : Option (Fin 16) :=
  if x.wrEn || x.flushEn && x.addrOp == 1 then priorityEncoder (s.smcTagWrCmp x) else none

def dataOut : BitVec 30 := (s.dataMem (s.hitIndex x)).field x.rdOffsetIn

def replaceIndex : Fin 16 :=
  (priorityEncoder fun k => !s.entryUsed.getLsbD k && !s.entryLocked.getLsbD k).getD 0

def wrIndex : Fin 16 :=
  if x.wrEn && x.wrDiagEn then x.wrIndexIn
  else if x.flushEn || x.wrEn then (s.wrHit x).getD s.replaceIndex else s.replaceIndex

/-- Whether a lookup touches another entry than the one that is filled. -/
def touches : Bool := x.rdEn && !x.rdDiagEn && s.hit x && s.wrIndex x != s.hitIndex x

def entryLockedNext : BitVec 16 :=
  let wr := BitVec.twoPow 16 (s.wrIndex x)
  let rd := BitVec.twoPow 16 (s.hitIndex x)
  let andMask :=
    if !x.rstN then 0
    else if x.wrEn && !x.wrDiagEn then
      (if x.smcValidIn = 0 then ~~~wr else BitVec.allOnes 16) &&&
        if s.touches x && s.entryLocked.getLsbD (s.hitIndex x) then ~~~rd else BitVec.allOnes 16
    else if x.rdEn && !x.rdDiagEn && s.hit x && s.entryLocked.getLsbD (s.hitIndex x) then ~~~rd
    else BitVec.allOnes 16
  let orMask := if x.rstN && x.wrEn && !x.wrDiagEn && x.smcValidIn != 0 then wr else 0
  s.entryLocked &&& andMask ||| orMask

def entryUsedNext : BitVec 16 :=
  let wr := BitVec.twoPow 16 (s.wrIndex x)
  let rd := BitVec.twoPow 16 (s.hitIndex x)
  let andMask :=
    if !x.rstN then 0 else if x.wrEn && !x.wrDiagEn && x.smcValidIn == 0 then ~~~wr else BitVec.allOnes 16
  let orMask :=
    if !x.rstN then 0
    else if x.wrEn && !x.wrDiagEn then
      (if x.smcValidIn = 0 then 0 else wr) ||| if s.touches x then rd else 0
    else if x.rdEn && !x.rdDiagEn && s.hit x then rd
    else 0
  let next := s.entryUsed &&& andMask ||| orMask
  if next = BitVec.allOnes 16 then 0 else next

/-- A diagnostic write of a field, the valid bits or the tag. -/
def writeDiag (e : SmcEntry) : SmcEntry :=
  let at_ := 30 * x.wrOffsetIn.toNat
  if x.addrOp = 0 then
    { e with data := e.data &&& ~~~((BitVec.allOnes 30).setWidth 120 <<< at_) |||
        (x.dataIn.setWidth 30).setWidth 120 <<< at_ }
  else if x.addrOp = 1 then { e with valid := x.dataIn.setWidth 4 }
  else if x.addrOp = 2 then { e with tag := x.dataIn.setWidth 14 }
  else e

def dataMemNext : Fin 16 → SmcEntry :=
  let e := s.dataMem (s.wrIndex x)
  if !x.rstN then fun _ => ⟨0, 0, 0⟩
  else if x.flushEn then
    if x.addrOp = 0 then fun k => (s.dataMem k).flush
    else if x.addrOp = 1 then
      if (s.wrHit x).isSome then
        Function.update s.dataMem (s.wrIndex x)
          { e with valid := e.valid &&& ~~~BitVec.twoPow 4 x.wrOffsetIn.toNat }
      else s.dataMem
    else if x.addrOp = 2 then fun k =>
      if sdidOf (s.dataMem k).tag == x.wrSdidIn && (s.dataMem k).valid != 0 then (s.dataMem k).flush else s.dataMem k
    else s.dataMem
  else if x.wrEn then
    Function.update s.dataMem (s.wrIndex x)
      (if x.wrDiagEn then writeDiag x e else ⟨x.wrTagIn, x.smcValidIn, x.smcDataIn⟩)
  else s.dataMem

def step : Smc where
  entryUsed := s.entryUsedNext x
  entryLocked := s.entryLockedNext x
  dataMem := s.dataMemNext x

end Smc

namespace SmcIn

/-- The field that a fill brings for an LSID, if it brings a valid one. -/
def fill (x : SmcIn) (offset : BitVec 2) : Option (BitVec 30) :=
  if x.dataIn.getLsbD (32 * offset.toNat + 31) then some (x.dataIn.extractLsb' (32 * offset.toNat) 30) else none

/-- A flush of everything, of one LSID or of an SDID. -/
def covers (x : SmcIn) (tag : BitVec 14) (offset : BitVec 2) : Bool :=
  x.flushEn && (x.addrOp == 0 || x.addrOp == 1 && x.wrTagIn == tag && x.wrOffsetIn == offset ||
    x.addrOp == 2 && x.wrSdidIn == sdidOf tag)

end SmcIn

/-- The field most recently filled for an LSID, with no later flush of it; the last cycle is first. -/
def lastFilled (fills : SmcIn → Bool) (tag : BitVec 14) (offset : BitVec 2) : List SmcIn → Option (BitVec 30)
  | [] => none
  | x :: xs =>
      if !x.rstN || x.covers tag offset then none
      else if fills x && x.wrTagIn == tag then x.fill offset
      else lastFilled fills tag offset xs

variable {s : Smc} {x : SmcIn} {tag : BitVec 14} {offset : BitVec 2} {k : Fin 16}

theorem field_smcDataIn (valid : BitVec 4) :
    SmcEntry.field ⟨tag, valid, x.smcDataIn⟩ offset = x.dataIn.extractLsb' (32 * offset.toNat) 30 := by
  ext i hi
  have hlt : offset.toNat < 4 := offset.isLt
  simp only [SmcEntry.field, SmcIn.smcDataIn, BitVec.getElem_setWidth, BitVec.getLsbD_ushiftRight,
    BitVec.getLsbD_append, BitVec.getLsbD_extractLsb', BitVec.getElem_extractLsb']
  generalize offset.toNat = n at hlt ⊢
  have hcases : n = 0 ∨ n = 1 ∨ n = 2 ∨ n = 3 := by omega
  rcases hcases with rfl | rfl | rfl | rfl
  · simp [hi]
  · grind
  · grind
  · grind

theorem valid_smcValidIn : x.smcValidIn.getLsbD offset.toNat = x.dataIn.getLsbD (32 * offset.toNat + 31) := by
  have hlt : offset.toNat < 4 := offset.isLt
  simp only [SmcIn.smcValidIn, BitVec.getLsbD_append, BitVec.getLsbD_extractLsb']
  generalize offset.toNat = n at hlt ⊢
  have hcases : n = 0 ∨ n = 1 ∨ n = 2 ∨ n = 3 := by omega
  rcases hcases with rfl | rfl | rfl | rfl <;> simp

theorem valid_ne_zero : ∀ v : BitVec 4, v ≠ 0 ↔ ∃ offset : BitVec 2, v.getLsbD offset.toNat = true := by
  decide

theorem priorityEncoder_spec {p : Fin 16 → Bool} (h : priorityEncoder p = some k) : p k = true := List.find?_some h

theorem priorityEncoder_none {p : Fin 16 → Bool} (h : priorityEncoder p = none) (k : Fin 16) : p k = false :=
  Bool.not_eq_true _ ▸ List.find?_eq_none.mp h k (List.mem_finRange k)

/-- The sharer map cache with its inputs, the last one first. -/
structure SmcRun where
  smc : Smc
  inputs : List SmcIn := []

namespace SmcRun

def step (r : SmcRun) (x : SmcIn) : SmcRun := ⟨r.smc.step x, x :: r.inputs⟩

/-- Behind a reset. -/
def Init (r : SmcRun) : Prop := (∀ k, (r.smc.dataMem k).valid = 0) ∧ r.inputs = []

/-- No diagnostic write. -/
def Plain (_ : SmcRun) (x : SmcIn) : Prop := x.wrEn = true → x.wrDiagEn = false

/-- No two valid entries have one tag. -/
def Unique (s : Smc) : Prop :=
  ∀ i j, (s.dataMem i).valid ≠ 0 → (s.dataMem j).valid ≠ 0 → (s.dataMem i).tag = (s.dataMem j).tag → i = j

/-- A lookup that hits has the field that was filled last. -/
def Fresh (fills : SmcIn → Bool) (r : SmcRun) : Prop :=
  ∀ x, r.smc.hit x = true → lastFilled fills x.rdTagIn x.rdOffsetIn r.inputs = some (r.smc.dataOut x)

/-- What is valid in the entries was filled last. -/
structure Holds (fills : SmcIn → Bool) (s : Smc) (inputs : List SmcIn) : Prop where
  unique : Unique s
  filled : ∀ k (offset : BitVec 2), (s.dataMem k).valid.getLsbD offset.toNat = true →
    lastFilled fills (s.dataMem k).tag offset inputs = some ((s.dataMem k).field offset)

namespace Holds

variable {fills : SmcIn → Bool} {inputs : List SmcIn} {s' : Smc}

theorem of_none (h : ∀ k, (s.dataMem k).valid = 0) : Holds fills s inputs where
  unique := fun i _ hi => absurd (h i) hi
  filled := by
    intro k offset hv
    rw [h k] at hv
    simp at hv

theorem flush (h : Holds fills s inputs) (hr : x.rstN = true) (hfill : fills x = false)
    (htag : ∀ k, (s'.dataMem k).tag = (s.dataMem k).tag) (hdata : ∀ k, (s'.dataMem k).data = (s.dataMem k).data)
    (hvalid : ∀ k (offset : BitVec 2), (s'.dataMem k).valid.getLsbD offset.toNat = true →
      (s.dataMem k).valid.getLsbD offset.toNat = true ∧ x.covers (s.dataMem k).tag offset = false) :
    Holds fills s' (x :: inputs) where
  unique := by
    have hold : ∀ k, (s'.dataMem k).valid ≠ 0 → (s.dataMem k).valid ≠ 0 := by
      intro k hk
      obtain ⟨offset, ho⟩ := (valid_ne_zero _).mp hk
      exact (valid_ne_zero _).mpr ⟨offset, (hvalid k offset ho).1⟩
    intro i j hi hj hij
    rw [htag, htag] at hij
    exact h.unique i j (hold i hi) (hold j hj) hij
  filled := by
    intro k offset hv
    obtain ⟨hv', hcov⟩ := hvalid k offset hv
    have hfield : (s'.dataMem k).field offset = (s.dataMem k).field offset := by
      rw [SmcEntry.field, hdata, SmcEntry.field]
    rw [htag, hfield, lastFilled, hcov, hfill, hr]
    exact h.filled k offset hv'

/-- The entry with a tag, if one is valid, is the one that a write takes. -/
theorem wrIndex_eq (h : Holds fills s inputs) (hd : x.wrEn = true → x.wrDiagEn = false)
    (hon : (x.wrEn || x.flushEn && x.addrOp == 1) = true) (htag : (s.dataMem k).tag = x.wrTagIn)
    (hv : (s.dataMem k).valid ≠ 0) : s.wrHit x = some k ∧ s.wrIndex x = k := by
  have hcmp : ∀ j, s.smcTagWrCmp x j = true ↔ (s.dataMem j).tag = x.wrTagIn ∧ (s.dataMem j).valid ≠ 0 := by
    intro j
    simp [Smc.smcTagWrCmp]
  have hhit : s.wrHit x = some k := by
    rw [Smc.wrHit, if_pos hon]
    cases hp : priorityEncoder (s.smcTagWrCmp x) with
    | none =>
        have hk := priorityEncoder_none hp k
        rw [(hcmp k).mpr ⟨htag, hv⟩] at hk
        cases hk
    | some j =>
        obtain ⟨htag', hv'⟩ := (hcmp j).mp (priorityEncoder_spec hp)
        rw [h.unique j k hv' hv (htag'.trans htag.symm)]
  refine ⟨hhit, ?_⟩
  have hdiag : (x.wrEn && x.wrDiagEn) = false := by
    cases hw : x.wrEn with
    | false => rfl
    | true => simpa using hd hw
  have hany : (x.flushEn || x.wrEn) = true := by
    cases hw : x.wrEn <;> simp_all
  rw [Smc.wrIndex, hdiag, if_neg Bool.false_ne_true, if_pos hany, hhit]
  rfl

theorem fill (h : Holds fills s inputs) (hd : x.wrEn = true → x.wrDiagEn = false) (hr : x.rstN = true)
    (hf : x.flushEn = false) (hw : x.wrEn = true) (hfill : fills x = true) :
    Holds fills (s.step x) (x :: inputs) := by
  have hmem : (s.step x).dataMem =
      Function.update s.dataMem (s.wrIndex x) ⟨x.wrTagIn, x.smcValidIn, x.smcDataIn⟩ := by
    simp [Smc.step, Smc.dataMemNext, hr, hf, hw, hd hw]
  have hother : ∀ j, j ≠ s.wrIndex x → (s.dataMem j).valid ≠ 0 → (s.dataMem j).tag ≠ x.wrTagIn := by
    intro j hj hv htag
    exact hj (h.wrIndex_eq hd (by simp [hw]) htag hv).2.symm
  constructor
  · intro i j hi hj hij
    rw [hmem] at hi hj hij
    by_cases hiw : i = s.wrIndex x <;> by_cases hjw : j = s.wrIndex x
    · rw [hiw, hjw]
    · rw [hiw, Function.update_self, Function.update_of_ne hjw] at hij
      rw [Function.update_of_ne hjw] at hj
      exact absurd hij.symm (hother j hjw hj)
    · rw [hjw, Function.update_self, Function.update_of_ne hiw] at hij
      rw [Function.update_of_ne hiw] at hi
      exact absurd hij (hother i hiw hi)
    · rw [Function.update_of_ne hiw] at hi hij
      rw [Function.update_of_ne hjw] at hj hij
      exact h.unique i j hi hj hij
  · intro k offset hv
    have hcov : x.covers ((s.step x).dataMem k).tag offset = false := by rw [SmcIn.covers, hf, Bool.false_and]
    rw [lastFilled, hcov, hr, hfill]
    rw [hmem] at hv ⊢
    by_cases hk : k = s.wrIndex x
    · rw [hk, Function.update_self] at hv ⊢
      rw [valid_smcValidIn] at hv
      rw [field_smcDataIn, SmcIn.fill, hv]
      simp
    · rw [Function.update_of_ne hk] at hv ⊢
      have hne := hother k hk ((valid_ne_zero _).mpr ⟨offset, hv⟩)
      simp only [Bool.not_true, Bool.or_false, Bool.false_eq_true, if_false, Bool.true_and, beq_iff_eq, Ne.symm hne]
      exact h.filled k offset hv

/-- A flush of one LSID clears its bit in the one entry that may have it. -/
theorem flushEntry (h : Holds fills s inputs) (hd : x.wrEn = true → x.wrDiagEn = false) (hr : x.rstN = true)
    (hf : x.flushEn = true) (h1 : x.addrOp = 1) (hfill : fills x = false) : Holds fills (s.step x) (x :: inputs) := by
  have hon : (x.wrEn || x.flushEn && x.addrOp == 1) = true := by simp [hf, h1]
  have hcovers : ∀ tag (offset : BitVec 2), x.covers tag offset = true → tag = x.wrTagIn ∧ offset = x.wrOffsetIn := by
    intro tag offset hc
    simp only [SmcIn.covers, hf, h1, Bool.true_and] at hc
    simp at hc
    exact ⟨hc.1.symm, hc.2.symm⟩
  have hmem : (s.step x).dataMem = if (s.wrHit x).isSome then
      Function.update s.dataMem (s.wrIndex x) { s.dataMem (s.wrIndex x) with
        valid := (s.dataMem (s.wrIndex x)).valid &&& ~~~BitVec.twoPow 4 x.wrOffsetIn.toNat } else s.dataMem := by
    simp [Smc.step, Smc.dataMemNext, hr, hf, h1]
  have hsame : ∀ k, ((s.step x).dataMem k).tag = (s.dataMem k).tag ∧ ((s.step x).dataMem k).data = (s.dataMem k).data := by
    intro k
    rw [hmem]
    split
    · by_cases hk : k = s.wrIndex x
      · rw [hk, Function.update_self]
        exact ⟨rfl, rfl⟩
      · rw [Function.update_of_ne hk]
        exact ⟨rfl, rfl⟩
    · exact ⟨rfl, rfl⟩
  refine h.flush hr hfill (fun k => (hsame k).1) (fun k => (hsame k).2) fun k offset hv => ?_
  have hv' : (s.dataMem k).valid.getLsbD offset.toNat = true := by
    rw [hmem] at hv
    split at hv
    · by_cases hk : k = s.wrIndex x
      · rw [hk, Function.update_self] at hv
        rw [hk]
        simp only [BitVec.getLsbD_and, Bool.and_eq_true] at hv
        exact hv.1
      · rwa [Function.update_of_ne hk] at hv
    · exact hv
  refine ⟨hv', ?_⟩
  by_contra hc
  obtain ⟨htag, rfl⟩ := hcovers _ _ (Bool.not_eq_false _ ▸ hc)
  obtain ⟨hhit, hidx⟩ := h.wrIndex_eq hd hon htag ((valid_ne_zero _).mpr ⟨_, hv'⟩)
  rw [hmem, hhit, hidx, Option.isSome_some, if_pos rfl, Function.update_self] at hv
  simp only [BitVec.getLsbD_and, BitVec.getLsbD_not, BitVec.getLsbD_twoPow] at hv
  simp at hv

theorem flushSdid (h : Holds fills s inputs) (hr : x.rstN = true) (hf : x.flushEn = true) (h2 : x.addrOp = 2)
    (hfill : fills x = false) : Holds fills (s.step x) (x :: inputs) := by
  have hmem : ∀ k, (s.step x).dataMem k =
      if sdidOf (s.dataMem k).tag == x.wrSdidIn && (s.dataMem k).valid != 0 then (s.dataMem k).flush else s.dataMem k := by
    intro k
    simp [Smc.step, Smc.dataMemNext, hr, hf, h2]
  refine h.flush hr hfill (fun k => ?_) (fun k => ?_) fun k offset hv => ?_
  · rw [hmem]
    split <;> rfl
  · rw [hmem]
    split <;> rfl
  · rw [hmem] at hv
    split at hv
    · simp [SmcEntry.flush] at hv
    · rename_i hother
      have hne : (s.dataMem k).valid ≠ 0 := (valid_ne_zero _).mpr ⟨offset, hv⟩
      have hsdid : x.wrSdidIn ≠ sdidOf (s.dataMem k).tag := by
        rintro heq
        rw [heq] at hother
        simp at hother
        exact hne hother
      refine ⟨hv, ?_⟩
      rw [SmcIn.covers, hf, h2, beq_false_of_ne hsdid]
      rfl

theorem step (h : Holds fills s inputs) (hd : x.wrEn = true → x.wrDiagEn = false)
    (hfills : fills x = (x.wrEn && !x.flushEn)) : Holds fills (s.step x) (x :: inputs) := by
  cases hr : x.rstN with
  | false => exact of_none fun k => by simp [Smc.step, Smc.dataMemNext, hr]
  | true =>
    cases hf : x.flushEn with
    | false =>
      cases hw : x.wrEn with
      | true => exact h.fill hd hr hf hw (by simp [hfills, hw, hf])
      | false =>
          have hmem : (s.step x).dataMem = s.dataMem := by simp [Smc.step, Smc.dataMemNext, hr, hf, hw]
          refine h.flush hr (by simp [hfills, hw]) (fun k => by rw [hmem]) (fun k => by rw [hmem]) fun k offset hv => ?_
          rw [hmem] at hv
          exact ⟨hv, by rw [SmcIn.covers, hf, Bool.false_and]⟩
    | true =>
      have hfill : fills x = false := by simp [hfills, hf]
      by_cases h0 : x.addrOp = 0
      · have hmem : (s.step x).dataMem = fun k => (s.dataMem k).flush := by
          simp [Smc.step, Smc.dataMemNext, hr, hf, h0]
        refine h.flush hr hfill (fun k => by rw [hmem]; rfl) (fun k => by rw [hmem]; rfl) fun k offset hv => ?_
        rw [hmem] at hv
        simp [SmcEntry.flush] at hv
      by_cases h1 : x.addrOp = 1
      · exact h.flushEntry hd hr hf h1 hfill
      by_cases h2 : x.addrOp = 2
      · exact h.flushSdid hr hf h2 hfill
      · have hmem : (s.step x).dataMem = s.dataMem := by
          show s.dataMemNext x = s.dataMem
          simp only [Smc.dataMemNext, hr, hf, Bool.not_true, Bool.false_eq_true, if_false, if_true]
          rw [if_neg h0, if_neg h1, if_neg h2]
        refine h.flush hr hfill (fun k => by rw [hmem]) (fun k => by rw [hmem]) fun k offset hv => ?_
        rw [hmem] at hv
        refine ⟨hv, ?_⟩
        rw [SmcIn.covers, beq_false_of_ne h0, beq_false_of_ne h1, beq_false_of_ne h2]
        simp

theorem fresh {r : SmcRun} (h : Holds fills r.smc r.inputs) : Fresh fills r := by
  intro x hx
  simp only [Smc.hit, Bool.and_eq_true, Bool.not_eq_true', Option.isSome_iff_exists] at hx
  obtain ⟨⟨hrd, hdiag⟩, k, hk⟩ := hx
  have hcmp := priorityEncoder_spec hk
  simp only [Smc.smcTagCmp, Bool.and_eq_true, beq_iff_eq] at hcmp
  have hindex : r.smc.hitIndex x = k := by
    rw [Smc.hitIndex, hrd, hdiag, hk]
    rfl
  rw [Smc.dataOut, hindex, ← hcmp.1]
  exact h.filled k _ hcmp.2

end Holds

/-- A fill in a cycle without a flush. -/
def fillsAlone (x : SmcIn) : Bool := x.wrEn && !x.flushEn

/-- The tags of the valid entries differ, and lookups see the last fill that no flush came with or behind. -/
theorem coherent {r : SmcRun} (h : Machine.Reaches Init step Plain r) : Unique r.smc ∧ Fresh fillsAlone r := by
  have hinv : Holds fillsAlone r.smc r.inputs := by
    refine h.invariant (P := fun r => Holds fillsAlone r.smc r.inputs) ?_ ?_
    · rintro r ⟨hnone, _⟩
      exact .of_none hnone
    · intro r x hr hd
      exact hr.step hd rfl
  exact ⟨hinv.unique, hinv.fresh⟩

def start : SmcRun where
  smc := ⟨0, 0, fun _ => ⟨0, 0, 0⟩⟩

/-- All four LSIDs with one field. -/
def fillWith (flushEn : Bool) (field : BitVec 128) : SmcIn where
  rstN := true
  rdEn := false
  wrEn := true
  rdDiagEn := false
  wrDiagEn := false
  flushEn := flushEn
  addrOp := 1
  rdAddrIn := 0
  wrAddrIn := 0
  dataIn := 0x80000000800000008000000080000000#128 ||| field <<< 32

def lookUp (rdAddrIn : BitVec 16) : SmcIn where
  rstN := true
  rdEn := true
  wrEn := false
  rdDiagEn := false
  wrDiagEn := false
  flushEn := false
  addrOp := 0
  rdAddrIn := rdAddrIn
  wrAddrIn := 0
  dataIn := 0

theorem coherent_refill :
    let r := (start.step (fillWith false 5)).step (fillWith false 6)
    (r.smc.hit (lookUp 1) = true ∧ r.smc.dataOut (lookUp 1) = 6) ∧ Unique r.smc ∧ Fresh fillsAlone r :=
  ⟨by decide +kernel, coherent (.next (.next (.start ⟨fun _ => rfl, rfl⟩) fun _ => rfl) fun _ => rfl)⟩

/-- A fill that comes with the flush of another LSID is lost, and the field before it is seen on. -/
theorem fill_lost : ¬ ∀ r : SmcRun, Machine.Reaches Init step Plain r →
    Unique r.smc ∧ Fresh (fun x => x.wrEn) r := by
  intro h
  have hrun : Machine.Reaches Init step Plain ((start.step (fillWith false 5)).step (fillWith true 6)) :=
    .next (.next (.start ⟨fun _ => rfl, rfl⟩) fun _ => rfl) fun _ => rfl
  have hstale := (h _ hrun).2 (lookUp 1) (by decide +kernel)
  revert hstale
  decide +kernel

end SmcRun

end OpenPiton.L2
