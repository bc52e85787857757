import OpenPiton.L2.Ecc
import OpenPiton.Lib.Machine
import OpenPiton.Noc3.Encoder

namespace OpenPiton.L2

open Noc3 (LineSize)
open Ecc (pgen)

/-- `L2_MESI`; the fourth state is broadcast. -/
inductive Mesi
  | i | s | e | b
  deriving DecidableEq, Repr

/-- `L2_VD`. -/
inductive Vd
  | inval | clean | dirty | error
  deriving DecidableEq, Repr

inductive CacheType
  | data | ins
  deriving DecidableEq, Repr

/-- `OP_CLR` to `OP_SUB`. -/
inductive CsOp
  | clr | ld | add | sub
  deriving DecidableEq, Repr

/-- The state of a way. -/
structure Line where
  mesi : Mesi
  vd : Vd
  di : CacheType
  subline : BitVec 4
  owner : Nat
  deriving DecidableEq, Repr

structure LineSet where
  tag : Nat → Nat
  line : Nat → Line

def LineSet.tagHitWay (s : LineSet) (tag way : Nat) : Bool :=
  s.tag way == tag && ((s.line way).vd == .clean || (s.line way).vd == .dirty)

/-- `l2_hit_way_sel_S2`: the last way that hits. -/
def LineSet.hitWaySel (s : LineSet) (ways tag : Nat) : Option Nat :=
  (List.range ways).reverse.find? (s.tagHitWay tag)

/-- A write-back request: the parts of its address, and the data in blocks of 16 bytes. -/
structure WbReq where
  index : Nat
  tag : Nat
  dataSubline : BitVec 2
  cacheType : CacheType
  size : LineSize
  data : List (BitVec 128)

/-- The control signals of stage 2. -/
structure Cs where
  dataClkEn : Bool
  dirClkEn : Bool
  dirRd : Bool
  dirClrEn : Bool
  ownerEn : Bool
  ownerOp : CsOp
  sublineEn : Bool
  sublineOp : CsOp
  diEn : Bool
  vdEn : Bool
  vd : Vd
  mesiEn : Bool
  mesi : Mesi
  deriving DecidableEq, Repr

namespace WbReq

variable (r : WbReq)

def msgLength : Nat := 2 + r.size.maxDataPackets

/-- The blocks of 16 bytes that the length announces. -/
def blocks : Nat :=
  match r.size with
  | .b16 => 1
  | .b32 => 2
  | .b64 => 4

def load64B : Bool := r.msgLength == 10

def load32B : Bool := r.msgLength == 6

/-- `L2_INS_SUBLINE` of the address. -/
def insSubline : BitVec 1 := r.dataSubline.extractLsb' 1 1

/-- `cs_S2` of a write-back to a line in the state `l`. -/
def cs (l : Line) : Cs :=
  if r.load64B || (r.load32B && l.subline == 3#4 <<< r.dataSubline.toNat) then
    ⟨true, true, false, true, false, .clr, true, .clr, false, true, .dirty, true, .i⟩
  -- the last subline
  else if l.subline = 1#4 <<< r.dataSubline.toNat then
    ⟨true, true, false, true, false, .clr, true, .sub, false, true, .dirty, true, .i⟩
  else ⟨true, false, true, false, false, .clr, true, .sub, false, true, .dirty, false, .i⟩

/-- `addr_subline_S2`. -/
def addrSubline : BitVec 4 :=
  match r.cacheType with
  | .data => 1#4 <<< r.dataSubline.toNat
  | .ins => 3#4 <<< (2 * r.insSubline.toNat)

/-- `state_subline_S2`; a write-back only clears and subtracts. -/
def stateSubline (l : Line) : BitVec 4 :=
  match (r.cs l).sublineOp with
  | .sub => l.subline &&& ~~~r.addrSubline
  | .add => l.subline ||| r.addrSubline
  | .clr | .ld => 0

def stateOwner (l : Line) : Nat :=
  match (r.cs l).ownerOp with
  | .sub => l.owner - 1
  | .add => l.owner + 1
  | .clr | .ld => 0

/-- The line under the mask of stage 3. -/
def stateWrite (l : Line) : Line where
  mesi := if (r.cs l).mesiEn then (r.cs l).mesi else l.mesi
  vd := if (r.cs l).vdEn then (r.cs l).vd else l.vd
  di := if (r.cs l).diEn then r.cacheType else l.di
  subline := if (r.cs l).sublineEn then r.stateSubline l else l.subline
  owner := if (r.cs l).ownerEn then r.stateOwner l else l.owner

/-- The subline of `data_addr_S2`. -/
def dataAddr (loadDataSubline : BitVec 2) : BitVec 2 :=
  if r.load64B then loadDataSubline
  else if r.load32B then r.insSubline ++ loadDataSubline.extractLsb' 0 1
  else r.dataSubline

end WbReq

/-- `data_data_in_S2`: the parity bits go beside the data. -/
def dataDataIn (d : BitVec 128) : BitVec 144 :=
  pgen (d.extractLsb' 64 64) ++ d.extractLsb' 64 64 ++ pgen (d.extractLsb' 0 64) ++ d.extractLsb' 0 64

/-- The blocks that a beat writes, by subline. With the SRAMs in parallel the whole data come at once
and the size and the address choose the chunks. -/
def beat (parallelSrams : Bool) (r : WbReq) (loadDataSubline : BitVec 2) (buffer : List (BitVec 128)) (k : BitVec 2) :
    Option (BitVec 144) :=
  let addr := r.dataAddr loadDataSubline
  let block (j : Nat) : BitVec 144 := dataDataIn (buffer.getD j 0)
  if parallelSrams then
    if r.size.maxDataPackets ≤ 2 then if k = addr then some (block 0) else none
    else if r.size.maxDataPackets ≤ 4 then
      if k.extractLsb' 1 1 = addr.extractLsb' 1 1 then some (block (k.extractLsb' 0 1).toNat) else none
    else some (block k.toNat)
  else if k = addr then some (block 0) else none

structure Arrays where
  data : Nat → Nat → BitVec 2 → BitVec 144
  sets : Nat → LineSet
  dir : Nat → Nat → Nat → Bool

/-- `l2_pipe2` with a write-back in stage 2, and the arrays. `read` is the set that stage 1 read, kept while
the stage stalls, and `buffer` the data of the request. -/
structure Pipe2 where
  arrays : Arrays
  stage2 : Option WbReq
  read : LineSet
  loadDataSubline : BitVec 2
  buffer : List (BitVec 128)
  /-- The index, the way and the line that stage 3 writes. -/
  stage3 : Option (Nat × Nat × Line)

structure Pipe2Cfg where
  ways : Nat
  parallelSrams : Bool

namespace Pipe2

variable (cfg : Pipe2Cfg) (p : Pipe2) (r : WbReq) (dataValid : Bool)

def waySel : Nat := (p.read.hitWaySel cfg.ways r.tag).getD 0

def wayLine : Line := p.read.line (p.waySel cfg r)

def stallReal : Bool := (r.cs (p.wayLine cfg r)).dataClkEn && !dataValid

def stallLoad : Bool :=
  if cfg.parallelSrams then false
  else if r.load64B then p.loadDataSubline != 3
  else if r.load32B then p.loadDataSubline != 1
  else false

def stall : Bool := p.stallReal cfg r dataValid || p.stallLoad cfg r

def loadDataSublineNext : BitVec 2 :=
  if cfg.parallelSrams then 0
  else if !p.stallReal cfg r dataValid && r.load32B && p.loadDataSubline == 1 then 0
  else if !p.stallReal cfg r dataValid && (r.load64B || r.load32B) then p.loadDataSubline + 1
  else p.loadDataSubline

/-- `data_clk_en_S2`, with which the data are taken. -/
def dataClkEn : Bool := !p.stallReal cfg r dataValid && (r.cs (p.wayLine cfg r)).dataClkEn

def dataNext (i way : Nat) (k : BitVec 2) : BitVec 144 :=
  if p.dataClkEn cfg r dataValid ∧ i = r.index ∧ way = p.waySel cfg r then
    (beat cfg.parallelSrams r p.loadDataSubline p.buffer k).getD (p.arrays.data i way k)
  else p.arrays.data i way k

def dirNext (i way : Nat) : Nat → Bool :=
  if (!p.stall cfg r dataValid && (r.cs (p.wayLine cfg r)).dirClkEn && !(r.cs (p.wayLine cfg r)).dirRd) = true ∧
      i = r.index ∧ way = p.waySel cfg r then
    if (r.cs (p.wayLine cfg r)).dirClrEn then fun _ => false else fun k => k == (p.wayLine cfg r).owner
  else p.arrays.dir i way

def setsNext (i : Nat) : LineSet :=
  match p.stage3 with
  | some (index, way, line) =>
      if i = index then { p.arrays.sets i with line := Function.update (p.arrays.sets i).line way line } else p.arrays.sets i
  | none => p.arrays.sets i

def step : Pipe2 :=
  match p.stage2 with
  | none => { p with arrays := { p.arrays with sets := p.setsNext }, stage3 := none }
  | some r =>
      { arrays := { data := p.dataNext cfg r dataValid, sets := p.setsNext, dir := p.dirNext cfg r dataValid }
        stage2 := if p.stall cfg r dataValid then some r else none
        read := p.read
        loadDataSubline := p.loadDataSublineNext cfg r dataValid
        buffer :=
          if p.dataClkEn cfg r dataValid then p.buffer.drop (if cfg.parallelSrams then r.blocks else 1)
          else p.buffer
        stage3 :=
          if p.stall cfg r dataValid then none
          else some (r.index, p.waySel cfg r, r.stateWrite (p.wayLine cfg r)) }

/-- The request enters stage 2. -/
def start (a : Arrays) (r : WbReq) : Pipe2 where
  arrays := a
  stage2 := some r
  read := a.sets r.index
  loadDataSubline := 0
  buffer := r.data
  stage3 := none

end Pipe2

namespace WbReq

variable (r : WbReq)

/-- The request is aligned to its size and brings as many blocks. -/
def Aligned : Prop :=
  r.data.length = r.blocks ∧
    match r.size with
    | .b16 => True
    | .b32 => r.dataSubline.getLsbD 0 = false
    | .b64 => r.dataSubline = 0

/-- The sublines that the data belong to. -/
def covers (k : BitVec 2) : Bool :=
  match r.size with
  | .b16 => k == r.dataSubline
  | .b32 => k.extractLsb' 1 1 == r.insSubline
  | .b64 => true

/-- The block for a subline. -/
def carried (k : BitVec 2) : BitVec 128 := r.data.getD (k - r.dataSubline).toNat 0

/-- The line is in way `way` and in state E, with sublines owned. -/
structure Owned (ways : Nat) (a : Arrays) (way : Nat) : Prop where
  hit : (a.sets r.index).hitWaySel ways r.tag = some way
  mesi : ((a.sets r.index).line way).mesi = .e
  subline : ((a.sets r.index).line way).subline ≠ 0

/-- No subline stays owned. -/
def Last (owned : BitVec 4) : Prop := ∀ k : BitVec 2, owned.getLsbD k.toNat = true → r.covers k = true

/-- The sublines owned of which the request is handled right. Two sublines of data are both subtracted only
when they are the last ones. -/
def Exact (owned : BitVec 4) : Prop :=
  match r.size, r.cacheType with
  | .b64, _ => True
  | .b16, .data => True
  | .b16, .ins => owned.getLsbD (r.dataSubline ^^^ 1).toNat = false
  | .b32, .data => owned.getLsbD (r.dataSubline + 1).toNat = false ∨ owned = 3#4 <<< r.dataSubline.toNat
  | .b32, .ins => owned ≠ 1#4 <<< (r.dataSubline + 1).toNat

end WbReq

/-- What a write-back of the line in way `way` makes of the arrays. -/
structure WroteBack (r : WbReq) (way : Nat) (a a' : Arrays) : Prop where
  data : ∀ i w k, a'.data i w k =
    if i = r.index ∧ w = way ∧ r.covers k = true then dataDataIn (r.carried k) else a.data i w k
  subline : ∀ k : BitVec 2, ((a'.sets r.index).line way).subline.getLsbD k.toNat =
    (((a.sets r.index).line way).subline.getLsbD k.toNat && !r.covers k)
  inval : ((a'.sets r.index).line way).mesi = .i ↔ r.Last ((a.sets r.index).line way).subline
  kept : ((a'.sets r.index).line way).mesi ≠ .i → ((a'.sets r.index).line way).mesi = .e
  vd : ((a'.sets r.index).line way).vd = .dirty
  owner : ((a'.sets r.index).line way).owner = ((a.sets r.index).line way).owner
  di : ((a'.sets r.index).line way).di = ((a.sets r.index).line way).di
  tag : ∀ i, (a'.sets i).tag = (a.sets i).tag
  others : ∀ i w, i ≠ r.index ∨ w ≠ way → (a'.sets i).line w = (a.sets i).line w
  dir : ∀ i w, i ≠ r.index ∨ w ≠ way → a'.dir i w = a.dir i w

namespace WbReq

variable {r : WbReq} {k : BitVec 2} {n : Nat}

/-- The beats of the data. -/
def beats (r : WbReq) (parallelSrams : Bool) : Nat := if parallelSrams then 1 else r.blocks

theorem blocks_pos (r : WbReq) : 0 < r.blocks := by
  rw [blocks]
  split <;> decide

theorem beats_pos (r : WbReq) (p : Bool) : 0 < r.beats p := by
  cases p with
  | false => exact r.blocks_pos
  | true => exact Nat.one_pos

/-- `l2_load_data_subline_S2` after `n` beats of the request. -/
def counterAt (r : WbReq) (n : Nat) : BitVec 2 := if r.size = .b16 then 0 else BitVec.ofNat 2 n

theorem dataAddr_counterAt (hal : r.Aligned) (hn : n < r.blocks) :
    r.dataAddr (r.counterAt n) = r.dataSubline + BitVec.ofNat 2 n := by
  have hal := hal.2
  cases hs : r.size with
  | b16 =>
      simp only [blocks, hs] at hn
      obtain rfl : n = 0 := by omega
      simp [dataAddr, load64B, load32B, msgLength, hs, LineSize.maxDataPackets]
  | b32 =>
      simp only [blocks, hs] at hn hal
      have key : ∀ sub : BitVec 2, sub.getLsbD 0 = false → ∀ j < 2,
          sub.extractLsb' 1 1 ++ (BitVec.ofNat 2 j).extractLsb' 0 1 = sub + BitVec.ofNat 2 j := by decide
      simpa [dataAddr, insSubline, load64B, load32B, msgLength, counterAt, hs, LineSize.maxDataPackets] using key _ hal n hn
  | b64 =>
      simp only [hs] at hal
      simp [dataAddr, load64B, msgLength, counterAt, hs, hal, LineSize.maxDataPackets]

/-- The sublines covered are as many as the blocks, from the first on. -/
theorem covers_iff (hal : r.Aligned) : r.covers k = true ↔ (k - r.dataSubline).toNat < r.blocks := by
  have hal := hal.2
  cases hs : r.size with
  | b16 =>
      have key : ∀ k sub : BitVec 2, (k == sub) = true ↔ (k - sub).toNat < 1 := by decide
      simpa [covers, blocks, hs] using key k r.dataSubline
  | b32 =>
      simp only [hs] at hal
      have key : ∀ k sub : BitVec 2, sub.getLsbD 0 = false →
          ((k.extractLsb' 1 1 == sub.extractLsb' 1 1) = true ↔ (k - sub).toNat < 2) := by decide
      simpa only [covers, blocks, hs, insSubline] using key k r.dataSubline hal
  | b64 => simpa only [covers, blocks, hs, true_iff] using (k - r.dataSubline).isLt

end WbReq

/-- What a beat brings: with the SRAMs in series one block, in parallel all of them. -/
theorem beat_eq {r : WbReq} (hal : r.Aligned) {p : Bool} {n : Nat} (hn : n < r.beats p) (k : BitVec 2) :
    beat p r (r.counterAt n) (r.data.drop n) k =
      if r.covers k = true ∧ (p = true ∨ (k - r.dataSubline).toNat = n) then some (dataDataIn (r.carried k)) else none := by
  cases p with
  | false =>
      have hn : n < r.blocks := hn
      have hlt : n < 4 := hn.trans_le (by rw [WbReq.blocks]; split <;> decide)
      have hk : k = r.dataSubline + BitVec.ofNat 2 n ↔ (k - r.dataSubline).toNat = n := by
        have key : ∀ k sub : BitVec 2, ∀ j < 4, k = sub + BitVec.ofNat 2 j ↔ (k - sub).toNat = j := by decide
        exact key k r.dataSubline n hlt
      simp only [beat, r.dataAddr_counterAt hal hn, Bool.false_eq_true, if_false, false_or, hk]
      by_cases h : (k - r.dataSubline).toNat = n
      · have hc : r.covers k = true := (WbReq.covers_iff hal).mpr (h ▸ hn)
        rw [if_pos h, if_pos ⟨hc, h⟩, WbReq.carried, h, List.getD_eq_getElem?_getD, List.getElem?_drop, Nat.add_zero,
          List.getD_eq_getElem?_getD]
      · rw [if_neg h, if_neg fun hc => h hc.2]
  | true =>
      obtain rfl : n = 0 := by
        have : n < 1 := hn
        omega
      have haddr : r.dataAddr (r.counterAt 0) = r.dataSubline := by
        rw [r.dataAddr_counterAt hal r.blocks_pos]
        exact BitVec.add_zero _
      simp only [beat, haddr, List.drop_zero, if_true, true_or, and_true]
      have hal := hal.2
      cases hs : r.size with
      | b16 =>
          by_cases h : k = r.dataSubline
          · simp [h, WbReq.covers, hs, LineSize.maxDataPackets, WbReq.carried]
          · simp [h, WbReq.covers, hs, LineSize.maxDataPackets]
      | b32 =>
          simp only [hs] at hal
          have key : ∀ k sub : BitVec 2, sub.getLsbD 0 = false → k.extractLsb' 1 1 = sub.extractLsb' 1 1 →
              (k.extractLsb' 0 1).toNat = (k - sub).toNat := by decide
          by_cases h : k.extractLsb' 1 1 = r.dataSubline.extractLsb' 1 1
          · simp [h, WbReq.covers, WbReq.insSubline, hs, LineSize.maxDataPackets, WbReq.carried, key k _ hal h]
          · simp [h, WbReq.covers, WbReq.insSubline, hs, LineSize.maxDataPackets]
      | b64 =>
          simp only [hs] at hal
          simp [WbReq.covers, hs, LineSize.maxDataPackets, WbReq.carried, hal]

/-- The data array after `n` beats. -/
def written (p : Bool) (r : WbReq) (way n : Nat) (a : Arrays) (i w : Nat) (k : BitVec 2) : BitVec 144 :=
  if (i = r.index ∧ w = way) ∧ r.covers k = true ∧ (k - r.dataSubline).toNat < (if p then r.blocks * n else n) then
    dataDataIn (r.carried k)
  else a.data i w k

namespace Pipe2

variable {cfg : Pipe2Cfg} {a : Arrays} {r : WbReq} {way n : Nat}

/-- The pipeline after `n` beats, with more to come. -/
def inStage2 (cfg : Pipe2Cfg) (a : Arrays) (r : WbReq) (way n : Nat) : Pipe2 where
  arrays := { a with data := written cfg.parallelSrams r way n a }
  stage2 := some r
  read := a.sets r.index
  loadDataSubline := r.counterAt n
  buffer := r.data.drop n
  stage3 := none

def oldLine (a : Arrays) (r : WbReq) (way : Nat) : Line := (a.sets r.index).line way

def dirWritten (a : Arrays) (r : WbReq) (way i w : Nat) : Nat → Bool :=
  if (r.cs (oldLine a r way)).dirClkEn = true ∧ i = r.index ∧ w = way then fun _ => false else a.dir i w

/-- The pipeline with the request in stage 3. -/
def inStage3 (cfg : Pipe2Cfg) (a : Arrays) (r : WbReq) (way : Nat) : Pipe2 where
  arrays :=
    { a with data := written cfg.parallelSrams r way (r.beats cfg.parallelSrams) a, dir := dirWritten a r way }
  stage2 := none
  read := a.sets r.index
  loadDataSubline := 0
  buffer := []
  stage3 := some (r.index, way, r.stateWrite (oldLine a r way))

def left (cfg : Pipe2Cfg) (a : Arrays) (r : WbReq) (way : Nat) : Pipe2 :=
  { inStage3 cfg a r way with
    arrays := { (inStage3 cfg a r way).arrays with sets := (inStage3 cfg a r way).setsNext }
    stage3 := none }

theorem start_eq (cfg : Pipe2Cfg) (a : Arrays) (r : WbReq) (way : Nat) : start a r = inStage2 cfg a r way 0 := by
  have hw : written cfg.parallelSrams r way 0 a = a.data := by
    funext i w k
    rw [written, if_neg]
    rintro ⟨-, -, hlt⟩
    rw [Nat.mul_zero, ite_self] at hlt
    exact absurd hlt (Nat.not_lt_zero _)
  simp [start, inStage2, hw, WbReq.counterAt]

theorem waySel_eq (ho : r.Owned cfg.ways a way) : (inStage2 cfg a r way n).waySel cfg r = way := by
  rw [waySel]
  change ((a.sets r.index).hitWaySel cfg.ways r.tag).getD 0 = way
  rw [ho.hit]
  rfl

theorem wayLine_eq (ho : r.Owned cfg.ways a way) : (inStage2 cfg a r way n).wayLine cfg r = oldLine a r way := by
  rw [wayLine, waySel_eq ho]
  rfl

theorem dataClkEn_cs (r : WbReq) (l : Line) : (r.cs l).dataClkEn = true := by
  rw [WbReq.cs]
  split
  · rfl
  · split <;> rfl

theorem dir_cs (r : WbReq) (l : Line) :
    (r.cs l).dirRd = !(r.cs l).dirClkEn ∧ (r.cs l).dirClrEn = (r.cs l).dirClkEn := by
  rw [WbReq.cs]
  split
  · exact ⟨rfl, rfl⟩
  · split <;> exact ⟨rfl, rfl⟩

theorem stallReal_eq (p : Pipe2) (r : WbReq) (v : Bool) : p.stallReal cfg r v = !v := by
  rw [stallReal, dataClkEn_cs, Bool.true_and]

theorem load_eq (r : WbReq) : r.load64B = decide (r.size = .b64) ∧ r.load32B = decide (r.size = .b32) := by
  cases hs : r.size <;> simp [WbReq.load64B, WbReq.load32B, WbReq.msgLength, hs, LineSize.maxDataPackets]

theorem stallLoad_eq (hn : n < r.beats cfg.parallelSrams) :
    (inStage2 cfg a r way n).stallLoad cfg r = decide (n + 1 < r.beats cfg.parallelSrams) := by
  obtain ⟨h64, h32⟩ := load_eq r
  rw [stallLoad, h64, h32]
  cases hp : cfg.parallelSrams with
  | true => simp [WbReq.beats]
  | false =>
      rw [hp] at hn
      cases hs : r.size with
      | b16 => simp [WbReq.beats, WbReq.blocks, hs]
      | b32 =>
          have hn : n < 2 := by simpa [WbReq.beats, WbReq.blocks, hs] using hn
          interval_cases n <;> simp [WbReq.beats, WbReq.blocks, hs, inStage2, WbReq.counterAt]
      | b64 =>
          have hn : n < 4 := by simpa [WbReq.beats, WbReq.blocks, hs] using hn
          interval_cases n <;> simp [WbReq.beats, WbReq.blocks, hs, inStage2, WbReq.counterAt]

theorem loadDataSublineNext_false (hn : n < r.beats cfg.parallelSrams) :
    (inStage2 cfg a r way n).loadDataSublineNext cfg r false = r.counterAt n := by
  rw [loadDataSublineNext, stallReal_eq]
  cases hp : cfg.parallelSrams with
  | true =>
      obtain rfl : n = 0 := by
        rw [hp] at hn
        exact Nat.lt_one_iff.mp hn
      simp [WbReq.counterAt]
  | false => simp [inStage2]

/-- The counter follows the beats and is back at its start behind the last. -/
theorem loadDataSublineNext_true (hn : n < r.beats cfg.parallelSrams) :
    (inStage2 cfg a r way n).loadDataSublineNext cfg r true =
      if n + 1 < r.beats cfg.parallelSrams then r.counterAt (n + 1) else 0 := by
  obtain ⟨h64, h32⟩ := load_eq r
  rw [loadDataSublineNext, stallReal_eq, h64, h32]
  cases hp : cfg.parallelSrams with
  | true => simp [WbReq.beats]
  | false =>
      rw [hp] at hn
      cases hs : r.size with
      | b16 => simp [WbReq.beats, WbReq.blocks, hs, inStage2, WbReq.counterAt]
      | b32 =>
          have hn : n < 2 := by simpa [WbReq.beats, WbReq.blocks, hs] using hn
          interval_cases n <;> simp [WbReq.beats, WbReq.blocks, hs, inStage2, WbReq.counterAt]
      | b64 =>
          have hn : n < 4 := by simpa [WbReq.beats, WbReq.blocks, hs] using hn
          interval_cases n <;> simp [WbReq.beats, WbReq.blocks, hs, inStage2, WbReq.counterAt]

theorem dataNext_true (ho : r.Owned cfg.ways a way) (hal : r.Aligned) (hn : n < r.beats cfg.parallelSrams) :
    (inStage2 cfg a r way n).dataNext cfg r true = written cfg.parallelSrams r way (n + 1) a := by
  funext i w k
  have hbeat : beat cfg.parallelSrams r (inStage2 cfg a r way n).loadDataSubline (inStage2 cfg a r way n).buffer k = _ :=
    beat_eq hal hn k
  rw [dataNext, waySel_eq ho, hbeat]
  change (if _ then _ else written cfg.parallelSrams r way n a i w k) = _
  by_cases hw : i = r.index ∧ w = way
  · rw [if_pos ⟨by simp [dataClkEn, stallReal_eq, dataClkEn_cs], hw⟩]
    by_cases hc : r.covers k = true
    · have hlt := (WbReq.covers_iff hal).mp hc
      cases hp : cfg.parallelSrams with
      | true =>
          have : (k - r.dataSubline).toNat < r.blocks * (n + 1) := by
            rw [Nat.mul_succ]
            omega
          rw [if_pos ⟨hc, .inl rfl⟩, Option.getD_some, written, if_pos ⟨hw, hc, by rwa [if_pos rfl]⟩]
      | false =>
          by_cases he : (k - r.dataSubline).toNat = n
          · simp [written, hw, hc, he]
          · have hiff : (k - r.dataSubline).toNat < n + 1 ↔ (k - r.dataSubline).toNat < n := by omega
            simp only [inStage2, written, hw, hc, hp, he, hiff, Bool.false_eq_true, if_false, or_self, and_false,
              Option.getD_none]
    · simp [inStage2, written, hc]
  · rw [if_neg fun h => hw h.2]
    simp [written, hw]

theorem step_stalled (hn : n < r.beats cfg.parallelSrams) :
    (inStage2 cfg a r way n).step cfg false = inStage2 cfg a r way n := by
  have hdata : (inStage2 cfg a r way n).dataNext cfg r false = written cfg.parallelSrams r way n a := by
    funext i w k
    simp [dataNext, dataClkEn, stallReal_eq, inStage2]
  have hdir : (inStage2 cfg a r way n).dirNext cfg r false = a.dir := by
    funext i w
    simp [dirNext, stall, stallReal_eq, inStage2]
  have hcount : (inStage2 cfg a r way n).loadDataSublineNext cfg r false = _ := loadDataSublineNext_false hn
  have hstall : (inStage2 cfg a r way n).stall cfg r false = true := by simp [stall, stallReal_eq]
  have hclk : (inStage2 cfg a r way n).dataClkEn cfg r false = false := by simp [dataClkEn, stallReal_eq]
  change Pipe2.mk _ _ _ _ _ _ = _
  simp only [hdata, hdir, hcount, hstall, hclk]
  rfl

theorem step_beat (ho : r.Owned cfg.ways a way) (hal : r.Aligned) (hn : n + 1 < r.beats cfg.parallelSrams) :
    (inStage2 cfg a r way n).step cfg true = inStage2 cfg a r way (n + 1) := by
  have hlt : n < r.beats cfg.parallelSrams := by omega
  have hdata := dataNext_true ho hal hlt
  have hstall : (inStage2 cfg a r way n).stall cfg r true = true := by
    simp [stall, stallReal_eq, stallLoad_eq hlt, hn]
  have hdir : (inStage2 cfg a r way n).dirNext cfg r true = a.dir := by
    funext i w
    rw [dirNext, hstall, if_neg (by simp)]
    rfl
  have hcount : (inStage2 cfg a r way n).loadDataSublineNext cfg r true = _ := loadDataSublineNext_true hlt
  rw [if_pos hn] at hcount
  have hclk : (inStage2 cfg a r way n).dataClkEn cfg r true = true := by simp [dataClkEn, stallReal_eq, dataClkEn_cs]
  have hp : cfg.parallelSrams = false := by
    by_contra hp
    rw [Bool.not_eq_false] at hp
    rw [hp] at hn
    exact absurd (Nat.lt_one_iff.mp hn) (Nat.succ_ne_zero n)
  change Pipe2.mk _ _ _ _ _ _ = _
  simp only [hdata, hdir, hcount, hstall, hclk, hp]
  simp [inStage2, hp, List.drop_drop]
  rfl

theorem step_last (ho : r.Owned cfg.ways a way) (hal : r.Aligned) (hn : n + 1 = r.beats cfg.parallelSrams) :
    (inStage2 cfg a r way n).step cfg true = inStage3 cfg a r way := by
  have hlt : n < r.beats cfg.parallelSrams := by omega
  have hdata := dataNext_true ho hal hlt
  have hstall : (inStage2 cfg a r way n).stall cfg r true = false := by
    simp [stall, stallReal_eq, stallLoad_eq hlt, hn]
  have hdir : (inStage2 cfg a r way n).dirNext cfg r true = dirWritten a r way := by
    obtain ⟨hrd, hclr⟩ := dir_cs r (oldLine a r way)
    funext i w
    rw [dirNext, hstall, wayLine_eq ho, waySel_eq ho, hrd, hclr, dirWritten]
    cases (r.cs (oldLine a r way)).dirClkEn <;> rfl
  have hcount : (inStage2 cfg a r way n).loadDataSublineNext cfg r true = _ := loadDataSublineNext_true hlt
  rw [if_neg (by omega)] at hcount
  have hclk : (inStage2 cfg a r way n).dataClkEn cfg r true = true := by simp [dataClkEn, stallReal_eq, dataClkEn_cs]
  have hbuffer : (r.data.drop n).drop (if cfg.parallelSrams then r.blocks else 1) = [] := by
    have hlen := hal.1
    rw [List.drop_drop, List.drop_eq_nil_iff]
    cases hp : cfg.parallelSrams with
    | true =>
        rw [if_pos rfl]
        omega
    | false =>
        rw [hp] at hn
        change n + 1 = r.blocks at hn
        simp only [Bool.false_eq_true, if_false]
        omega
  change Pipe2.mk _ _ _ _ _ _ = _
  simp only [hdata, hdir, hcount, hstall, hclk, hn, wayLine_eq ho, waySel_eq ho, if_true]
  rw [inStage3, ← hbuffer]
  rfl

theorem run_left (is : List Bool) : Machine.run (step cfg) (left cfg a r way) is = left cfg a r way := by
  induction is with
  | nil => rfl
  | cons v is ih => exact ih

/-- The request is in stage 2 until its last beat, whenever the data come. -/
theorem run_inStage2 (ho : r.Owned cfg.ways a way) (hal : r.Aligned) {is : List Bool}
    (hn : n < r.beats cfg.parallelSrams) (hcount : r.beats cfg.parallelSrams ≤ n + is.count true) (v : Bool) :
    Machine.run (step cfg) (inStage2 cfg a r way n) (is ++ [v]) = left cfg a r way := by
  induction is generalizing n with
  | nil =>
      rw [List.count_nil] at hcount
      omega
  | cons b is ih =>
      change Machine.run (step cfg) ((inStage2 cfg a r way n).step cfg b) (is ++ [v]) = _
      cases b with
      | false =>
          rw [step_stalled hn]
          exact ih hn (by simpa using hcount)
      | true =>
          rw [List.count_cons_self] at hcount
          rcases Nat.lt_or_ge (n + 1) (r.beats cfg.parallelSrams) with hlt | hge
          · rw [step_beat ho hal hlt]
            exact ih hlt (by omega)
          · rw [step_last ho hal (by omega)]
            cases is with
            | nil => rfl
            | cons b is => exact run_left (is ++ [v])

end Pipe2

/-- The state of the line, against what the request asks for. -/
def LineDone (r : WbReq) (old new : Line) : Prop :=
  (∀ k : BitVec 2, new.subline.getLsbD k.toNat = (old.subline.getLsbD k.toNat && !r.covers k)) ∧
    (new.mesi = .i ↔ r.Last old.subline)

/-- A request and a line with nothing but what the new state depends on. -/
def WbReq.bare (sub : BitVec 2) (ty : CacheType) (size : LineSize) : WbReq := ⟨0, 0, sub, ty, size, []⟩

def Line.bare (owned : BitVec 4) : Line := ⟨.e, .inval, .data, owned, 0⟩

theorem lineDone_bare (size : LineSize) (ty : CacheType) : ∀ (sub : BitVec 2) (owned : BitVec 4), owned ≠ 0 →
    (match size with
      | .b16 => True
      | .b32 => sub.getLsbD 0 = false
      | .b64 => sub = 0) →
    let r := WbReq.bare sub ty size
    let new := r.stateWrite (Line.bare owned)
    ((∀ k : BitVec 2, new.subline.getLsbD k.toNat = (owned.getLsbD k.toNat && !r.covers k)) ∧
      (new.mesi = .i ↔ ∀ k : BitVec 2, owned.getLsbD k.toNat = true → r.covers k = true)) ↔
    match size, ty with
    | .b64, _ => True
    | .b16, .data => True
    | .b16, .ins => owned.getLsbD (sub ^^^ 1).toNat = false
    | .b32, .data => owned.getLsbD (sub + 1).toNat = false ∨ owned = 3#4 <<< sub.toNat
    | .b32, .ins => owned ≠ 1#4 <<< (sub + 1).toNat := by
  cases size <;> cases ty <;> decide +kernel

theorem lineDone_iff {r : WbReq} {l : Line} (hal : r.Aligned) (hmesi : l.mesi = .e) (hne : l.subline ≠ 0) :
    LineDone r l (r.stateWrite l) ↔ r.Exact l.subline := by
  obtain ⟨index, tag, sub, ty, size, data⟩ := r
  obtain ⟨mesi, vd, di, owned, owner⟩ := l
  obtain rfl : mesi = .e := hmesi
  exact lineDone_bare size ty sub owned hne hal.2

theorem stateWrite_kept (r : WbReq) (l : Line) : (r.stateWrite l).vd = .dirty ∧ (r.stateWrite l).owner = l.owner ∧
    (r.stateWrite l).di = l.di ∧ ((r.stateWrite l).mesi ≠ .i → (r.stateWrite l).mesi = l.mesi) := by
  simp only [WbReq.stateWrite, WbReq.cs]
  split
  · simp
  · split <;> simp

namespace Pipe2

variable {cfg : Pipe2Cfg} {a : Arrays} {r : WbReq} {way : Nat}

theorem line_left (i w : Nat) : ((left cfg a r way).arrays.sets i).line w =
    if i = r.index ∧ w = way then r.stateWrite (oldLine a r way) else (a.sets i).line w := by
  change (if i = r.index then _ else a.sets i).line w = _
  by_cases hi : i = r.index
  · by_cases hw : w = way
    · rw [if_pos hi, if_pos ⟨hi, hw⟩, hw]
      exact Function.update_self ..
    · rw [if_pos hi, if_neg fun h => hw h.2]
      exact Function.update_of_ne hw ..
  · rw [if_neg hi, if_neg fun h => hi h.1]

theorem data_left (hal : r.Aligned) (i w : Nat) (k : BitVec 2) : (left cfg a r way).arrays.data i w k =
    if i = r.index ∧ w = way ∧ r.covers k = true then dataDataIn (r.carried k) else a.data i w k := by
  change written cfg.parallelSrams r way (r.beats cfg.parallelSrams) a i w k = _
  have hall : (if cfg.parallelSrams then r.blocks * r.beats cfg.parallelSrams else r.beats cfg.parallelSrams) = r.blocks := by
    cases cfg.parallelSrams with
    | true => exact Nat.mul_one _
    | false => rfl
  rw [written, hall]
  have hiff : (i = r.index ∧ w = way) ∧ r.covers k = true ∧ (k - r.dataSubline).toNat < r.blocks ↔
      i = r.index ∧ w = way ∧ r.covers k = true := by
    rw [and_assoc, and_iff_left_of_imp (WbReq.covers_iff hal).mp]
  exact if_congr hiff rfl rfl

theorem wroteBack_left (ho : r.Owned cfg.ways a way) (hal : r.Aligned) :
    WroteBack r way a (left cfg a r way).arrays ↔ LineDone r (oldLine a r way) (r.stateWrite (oldLine a r way)) := by
  have hline : ((left cfg a r way).arrays.sets r.index).line way = _ := line_left r.index way
  rw [if_pos ⟨rfl, rfl⟩] at hline
  obtain ⟨hvd, howner, hdi, hmesi⟩ := stateWrite_kept r (oldLine a r way)
  constructor
  · intro h
    have hsub := h.subline
    have hinval := h.inval
    rw [hline] at hsub hinval
    exact ⟨hsub, hinval⟩
  · rintro ⟨hsub, hinval⟩
    refine ⟨data_left hal, ?_, ?_, ?_, ?_, ?_, ?_, ?_, ?_, ?_⟩
    · rwa [hline]
    · rwa [hline]
    · rw [hline]
      exact fun hne => (hmesi hne).trans ho.mesi
    · rwa [hline]
    · rwa [hline]
    · rwa [hline]
    · intro i
      change (if i = r.index then _ else a.sets i).tag = _
      split <;> rfl
    · intro i w hne
      rw [line_left, if_neg fun h => hne.elim (· h.1) (· h.2)]
    · intro i w hne
      change dirWritten a r way i w = _
      rw [dirWritten, if_neg fun h => hne.elim (· h.2.1) (· h.2.2)]

theorem writes_back_iff (ho : r.Owned cfg.ways a way) (hal : r.Aligned) {is : List Bool}
    (hcount : r.beats cfg.parallelSrams ≤ is.count true) (v : Bool) :
    let p := Machine.run (step cfg) (start a r) (is ++ [v])
    p.stage2 = none ∧ p.stage3 = none ∧ p.loadDataSubline = 0 ∧ p.buffer = [] ∧
      (WroteBack r way a p.arrays ↔ r.Exact ((a.sets r.index).line way).subline) := by
  have hrun : Machine.run (step cfg) (start a r) (is ++ [v]) = left cfg a r way := by
    rw [start_eq cfg a r way]
    exact run_inStage2 ho hal (r.beats_pos _) (by omega) v
  rw [hrun]
  refine ⟨rfl, rfl, rfl, rfl, ?_⟩
  rw [wroteBack_left ho hal]
  exact lineDone_iff hal ho.mesi ho.subline

/-- All four sublines of a line are owned, in way 0 of every set. -/
def ownedArrays : Arrays where
  data _ _ _ := 0
  sets _ := { tag := fun _ => 0, line := fun _ => ⟨.e, .clean, .data, 15, 3⟩ }
  dir _ _ _ := false

/-- A write-back of sublines 0 and 1. -/
def halfReq : WbReq := ⟨0, 0, 0, .data, .b32, [1, 2]⟩

/-- A write-back of the whole line. -/
def wholeReq : WbReq := ⟨0, 0, 0, .data, .b64, [1, 2, 3, 4]⟩

def serialCfg : Pipe2Cfg := ⟨1, false⟩

theorem writes_back_whole :
    let p := Machine.run (step serialCfg) (start ownedArrays wholeReq) ([true, true, false, true, true] ++ [false])
    p.stage2 = none ∧ p.stage3 = none ∧ p.loadDataSubline = 0 ∧ p.buffer = [] ∧
      (WroteBack wholeReq 0 ownedArrays p.arrays ↔ wholeReq.Exact 15) :=
  writes_back_iff ⟨by decide, rfl, by decide⟩ ⟨rfl, rfl⟩ (by decide) false

/-- Of the two sublines written back only the first is taken from those owned. -/
theorem half_kept : ¬ ∀ (cfg : Pipe2Cfg) (a : Arrays) (r : WbReq) (way : Nat) (is : List Bool), r.Owned cfg.ways a way →
    r.Aligned → r.beats cfg.parallelSrams ≤ is.count true →
    WroteBack r way a (Machine.run (step cfg) (start a r) (is ++ [true])).arrays := by
  intro h
  have hw := h serialCfg ownedArrays halfReq 0 [true, true] ⟨by decide, rfl, by decide⟩ ⟨rfl, rfl⟩ (by decide)
  have hsub := hw.subline 1
  revert hsub
  decide +kernel

end Pipe2

end OpenPiton.L2
