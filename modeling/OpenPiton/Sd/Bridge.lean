import OpenPiton.Lib.Axi
import OpenPiton.Lib.Machine
import OpenPiton.Sd.Core

namespace OpenPiton.Sd

open L15 (Word)
open Noc1 (fieldType fieldLength)
open Axi (Byte)

/-- A block of 512 bytes, in words. -/
abbrev Block := BitVec 6 → Word

/-- The byte of a word at a position, the high byte at position 0. -/
def lane (word : Word) (k : BitVec 3) : Byte := Axi.byte word (7 - k.toNat)

/-- The word with the bytes of a function. -/
def ofLanes (f : BitVec 3 → Byte) : Word := f 0 ++ f 1 ++ f 2 ++ f 3 ++ f 4 ++ f 5 ++ f 6 ++ f 7

/-- `bram_wea` at a byte, for a write of `buf_data_sz` at the byte `a` of a word. -/
def bramWea (sz : BitVec 2) (a k : BitVec 3) : Bool :=
  match sz with
  | 0 => k == a
  | 1 => k.extractLsb' 1 2 == a.extractLsb' 1 2
  | 2 => k.extractLsb' 2 1 == a.extractLsb' 2 1
  | 3 => true

/-- The byte of the data that `bram_din` has at a byte: its low bytes, in the place that is written. -/
def bramByte (sz : BitVec 2) (k : BitVec 3) : Nat :=
  match sz with
  | 0 => 0
  | 1 => 1 - (k.extractLsb' 0 1).toNat
  | 2 => 3 - (k.extractLsb' 0 2).toNat
  | 3 => 7 - k.toNat

def bramDin (sz : BitVec 2) (data : Word) (k : BitVec 3) : Byte := Axi.byte data (bramByte sz k)

/-- A word of the memory after a write of the core. -/
def bramWrite (sz : BitVec 2) (a : BitVec 3) (data old : Word) : Word :=
  ofLanes fun k => if bramWea sz a k then bramDin sz data k else lane old k

/-- A block with a word replaced. -/
def Block.set (b : Block) (k : BitVec 6) (word : Word) : Block := setAt b k word

/-- `piton_sd_core_ctrl`, `piton_sd_cache_manager` and `piton_sd_buffer` with a card behind the request port of
`piton_sd_transaction_manager`, and the flits taken and sent so far. -/
structure Bridge where
  core : Core := {}
  manager : Manager
  /-- The blocks of the buffer, an entry each. -/
  buffer : Entry → Block
  bramDout : Word
  /-- The request that the card has not answered. -/
  pending : Option TmReq := none
  card : BitVec 32 → Block
  taken : List Word := []
  sent : List Word := []
  /-- How many requests have got the lock. -/
  locked : Nat := 0

/-- The inputs of a cycle: a flit offered, the ready of the splitter, the ready of the transaction manager, its answer
to a request, what an unfinished transfer leaves in the block that it writes, and what the buffer shows when the core
reads nothing. -/
structure Input where
  flit : Option Word := none
  splitterBridgeRdy : Bool := true
  tmCacheRdy : Bool := true
  answer : Option Bool := none
  spoilt : Option Block := none
  bramOther : Word := 0

structure Cfg where
  isHcxc : Bool
  flushWaitTime : BitVec 24
  deriving DecidableEq, Repr

namespace Bridge

variable (cfg : Cfg) (s : Bridge) (i : Input)

def coreIn : CoreIn where
  flit := i.flit
  splitterBridgeRdy := i.splitterBridgeRdy
  cacheLockStatus := s.manager.lockStatus
  cacheCoreRdy := s.manager.cacheCoreRdy
  bufferCoreData := s.bramDout

def managerIn : ManagerIn where
  lockAcquire := s.core.cacheLockAcquire (s.coreIn i)
  lockRelease := s.core.cacheLockRelease
  coreCacheWe := s.core.wr
  coreCacheAddr := s.core.coreCacheAddr (s.coreIn i)
  tmCacheRdy := i.tmCacheRdy && s.pending.isNone
  tmCacheVal := i.answer.isSome && s.pending.isSome
  tmCacheOk := i.answer.getD false

def coreBufferAddr : BitVec 12 := s.core.coreBufferAddr s.manager.cacheEntryLkpF

def coreEntry : Entry := s.coreBufferAddr.extractLsb' 9 3

def coreColumn : BitVec 6 := s.coreBufferAddr.extractLsb' 3 6

def coreReads : Bool := s.core.coreBufferCe (s.coreIn i) && !s.core.coreBufferWr

def coreWrites : Bool := s.core.coreBufferCe (s.coreIn i) && s.core.coreBufferWr

/-- The block that a request writes: as the transfer leaves it, or the block copied when the answer is ok. -/
def transferred (source dest : Block) : Block :=
  if i.answer = some true then source else i.spoilt.getD dest

def bufferNext : Entry → Block :=
  if s.coreWrites i then
    setAt s.buffer s.coreEntry ((s.buffer s.coreEntry).set s.coreColumn
      (bramWrite (coreBufferSz s.core.dataSz) (s.coreBufferAddr.extractLsb' 0 3) s.core.coreBufferData
        (s.buffer s.coreEntry s.coreColumn)))
  else match s.pending with
    | some ⟨sd, dma, false⟩ =>
        setAt s.buffer (dma.extractLsb' 9 3) (transferred i (s.card sd) (s.buffer (dma.extractLsb' 9 3)))
    | _ => s.buffer

def cardNext : BitVec 32 → Block :=
  match s.pending with
  | some ⟨sd, dma, true⟩ => setAt s.card sd (transferred i (s.buffer (dma.extractLsb' 9 3)) (s.card sd))
  | _ => s.card

def pendingNext : Option TmReq :=
  if s.manager.cacheTmGo cfg.isHcxc (s.managerIn i) then s.manager.cacheTm cfg.isHcxc
  else if s.manager.tmCacheGo (s.managerIn i) then none
  else s.pending

/-- The manager takes the lock for a request. -/
def locks : Bool := (s.manager.state == .idle || s.manager.state == .flushScan) && s.manager.lock (s.managerIn i)

def step : Bridge where
  core := s.core.step (s.coreIn i)
  manager := s.manager.step cfg.isHcxc cfg.flushWaitTime (s.managerIn i)
  buffer := s.bufferNext i
  bramDout := if s.coreReads i then s.buffer s.coreEntry s.coreColumn else i.bramOther
  pending := s.pendingNext cfg i
  card := s.cardNext i
  taken := s.taken ++ (s.core.accepted (s.coreIn i)).toList
  sent := s.sent ++ if s.core.bridgeSplitterGo (s.coreIn i) then [s.core.bridgeSplitterData] else []
  locked := s.locked + (s.locks i).toNat

/-- After reset, with any content of the buffer and of the registers that have no reset. -/
def Init (card : BitVec 32 → Block) (s : Bridge) : Prop :=
  ∃ addr entry buffer dout, s =
    { manager := { addrLkpIndexedF := addr, entryLkpIndexedF := entry }, buffer := buffer, bramDout := dout, card := card }

end Bridge

end OpenPiton.Sd
