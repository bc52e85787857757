import OpenPiton.Noc1.BufIn
import OpenPiton.Sd.Cache

namespace OpenPiton.Sd

open L15 (Word)
open Noc1 (fieldType fieldLength)

/-- `PHY_ADDR_BITS`. -/
abbrev Addr := BitVec 40

def Addr.block (a : Addr) : BlockNo := a.extractLsb' 9 31

def fieldMshrid (word : Word) : BitVec 8 := word.extractLsb' 6 8

def fieldDataSize (word : Word) : BitVec 3 := word.extractLsb' 8 3

def fieldSrcChipid (word : Word) : BitVec 14 := word.extractLsb' 50 14

def fieldSrcX (word : Word) : BitVec 8 := word.extractLsb' 42 8

def fieldSrcY (word : Word) : BitVec 8 := word.extractLsb' 34 8

def addrRemapped (word : Word) : Addr :=
  if word.extractLsb' 44 8 = 0xff then 0#12 ++ word.extractLsb' 16 28 else 0#4 ++ word.extractLsb' 16 36

/-- `NOC_RST` to `NOC_OUT_DATA`. -/
inductive NocState
  | rst | idle | inHeader1 | inHeader2 | inData | waiting | throwing | outHeader | outData
  deriving DecidableEq, Repr

/-- `CB_IDLE` to `CB_UNLOCK`. -/
inductive CbState
  | idle | buffer2cache | cache2buffer | unlock
  deriving DecidableEq, Repr

/-- `store`, `ncstore`, `load` and `ncload`. -/
def isStore (msgType : BitVec 8) : Bool := msgType == 2 || msgType == 20

def isNcStore (msgType : BitVec 8) : Bool := msgType == 15

def isLoad (msgType : BitVec 8) : Bool := msgType == 31 || msgType == 19

def isNcLoad (msgType : BitVec 8) : Bool := msgType == 14

def isWr (msgType : BitVec 8) : Bool := isStore msgType || isNcStore msgType

def isRd (msgType : BitVec 8) : Bool := isLoad msgType || isNcLoad msgType

def respPayload (msgType : BitVec 8) : BitVec 8 := if isWr msgType then 0 else 8

def actualRespPayloadMask (msgType : BitVec 8) (dataSz : BitVec 3) : BitVec 3 :=
  if isWr msgType then 0
  else match dataSz with
    | 5 => 1
    | 6 => 3
    | 7 => 7
    | _ => 0

def respMsgType (msgType : BitVec 8) : BitVec 8 :=
  if isStore msgType then 25
  else if isNcStore msgType then 27
  else if isLoad msgType then 24
  else if isNcLoad msgType then 26
  else 30

def respHeader (chipid : BitVec 14) (srcx srcy msgType mshr : BitVec 8) : Word :=
  chipid ++ srcx ++ srcy ++ 0#4 ++ respPayload msgType ++ respMsgType msgType ++ mshr ++ 0#6

def coreBufferSz (dataSz : BitVec 3) : BitVec 2 :=
  match dataSz with
  | 1 => 0
  | 2 => 1
  | 3 => 2
  | _ => 3

/-- The bits of `core_buffer_addr` below the entry. -/
def coreBufferOffset (dataSz : BitVec 3) (a : BitVec 9) (offset : BitVec 3) : BitVec 9 :=
  match dataSz with
  | 1 => a
  | 2 => a.extractLsb' 1 8 ++ 0#1
  | 3 => a.extractLsb' 2 7 ++ 0#2
  | 4 => a.extractLsb' 3 6 ++ 0#3
  | 5 => a.extractLsb' 4 5 ++ offset.extractLsb' 0 1 ++ 0#3
  | 6 => a.extractLsb' 5 4 ++ offset.extractLsb' 0 2 ++ 0#3
  | _ => a.extractLsb' 6 3 ++ offset ++ 0#3

/-- The registers of `piton_sd_core_ctrl`. -/
structure Core where
  state : NocState := .rst
  counter : BitVec 8 := 0
  offset : BitVec 3 := 0
  msgDataVal : BitVec 3 → Bool := fun _ => false
  msgDataBuf : BitVec 3 → Word := fun _ => 0
  cacheReF : Bool := false
  offsetF : BitVec 3 := 0
  msgType : BitVec 8 := 0
  payload : BitVec 8 := 0
  mshr : BitVec 8 := 0
  addr : Addr := 0
  dataSz : BitVec 3 := 0
  chipid : BitVec 14 := 0
  srcx : BitVec 8 := 0
  srcy : BitVec 8 := 0
  cbState : CbState := .idle

/-- The inputs of `piton_sd_core_ctrl`: a flit of the splitter while it has one, its ready, and what the
cache manager and the buffer show. -/
structure CoreIn where
  flit : Option Word
  splitterBridgeRdy : Bool
  cacheLockStatus : Bool
  cacheCoreRdy : Bool
  bufferCoreData : Word

/-- The last word, at the offset `payload - 3`. -/
def lastOffset (payload : BitVec 8) (k : Nat) : Bool := k + 3 == payload.toNat

namespace Core

variable (c : Core) (i : CoreIn)

def wr : Bool := isWr c.msgType

def rd : Bool := isRd c.msgType

def mask : BitVec 3 := actualRespPayloadMask c.msgType c.dataSz

def bridgeSplitterRdy : Bool :=
  match c.state with
  | .idle | .inHeader2 | .inData | .throwing => true
  | .inHeader1 => c.rd || c.wr
  | _ => false

/-- The flit taken, `splitter_bridge_go`. -/
def accepted : Option Word := if c.bridgeSplitterRdy then i.flit else none

def splitterBridgeGo : Bool := (c.accepted i).isSome

/-- The flit taken, where one is. -/
def splitterBridgeData : Word := (c.accepted i).getD 0

/-- The word that `NOC_OUT_DATA` sends. -/
def outOffset : BitVec 3 := c.counter.setWidth 3 &&& c.mask

def bridgeSplitterVal : Bool :=
  match c.state with
  | .outHeader => true
  | .outData => c.msgDataVal c.outOffset
  | _ => false

def bridgeSplitterData : Word :=
  match c.state with
  | .outHeader => respHeader c.chipid c.srcx c.srcy c.msgType c.mshr
  | .outData => c.msgDataBuf c.outOffset
  | _ => 0

def bridgeSplitterGo : Bool := i.splitterBridgeRdy && c.bridgeSplitterVal

/-- The buffer may be used. -/
def granted : Bool := i.cacheLockStatus && i.cacheCoreRdy

def stateNext : NocState :=
  match c.state with
  | .rst => .idle
  | .idle => if c.splitterBridgeGo i then .inHeader1 else .idle
  | .inHeader1 =>
      if c.rd || c.wr then if c.splitterBridgeGo i then .inHeader2 else .inHeader1
      else if c.payload = 0 then .idle else .throwing
  | .inHeader2 =>
      if c.splitterBridgeGo i then if c.wr then .inData else if granted i then .outHeader else .waiting
      else .inHeader2
  | .inData => if c.splitterBridgeGo i && lastOffset c.payload c.counter.toNat then .waiting else .inData
  | .waiting => if granted i && (c.wr && lastOffset c.payload c.offset.toNat || c.rd) then .outHeader else .waiting
  | .throwing => if c.splitterBridgeGo i && c.counter.toNat + 1 == c.payload.toNat then .idle else .throwing
  | .outHeader => if c.bridgeSplitterGo i then if respPayload c.msgType = 0 then .idle else .outData else .outHeader
  | .outData =>
      if c.bridgeSplitterGo i && c.counter.toNat + 1 == (respPayload c.msgType).toNat then .idle else .outData

def counterNext : BitVec 8 :=
  match c.state with
  | .idle | .inHeader1 | .inHeader2 | .waiting | .outHeader => 0
  | .inData | .throwing => if c.splitterBridgeGo i then c.counter + 1 else c.counter
  | .outData => if c.bridgeSplitterGo i then c.counter + 1 else c.counter
  | .rst => c.counter

def cacheLockAcquire : Bool :=
  match c.cbState with
  | .idle => c.state == .inHeader1 && c.splitterBridgeGo i
  | .buffer2cache | .cache2buffer => !i.cacheLockStatus
  | .unlock => false

def cacheLockRelease : Bool := c.cbState == .unlock

def coreCacheAddr : BlockNo :=
  if c.state = .inHeader1 then (addrRemapped (c.splitterBridgeData i)).block else c.addr.block

def coreBufferCe : Bool :=
  match c.cbState with
  | .buffer2cache => granted i && c.msgDataVal c.offset
  | .cache2buffer => granted i
  | _ => false

def coreBufferWr : Bool := c.cbState == .buffer2cache

def coreBufferData : Word := c.msgDataBuf c.offset

/-- `core_buffer_addr`, in the buffer of all the entries. -/
def coreBufferAddr (cacheCoreEntry : Entry) : BitVec 12 :=
  cacheCoreEntry ++ coreBufferOffset c.dataSz (c.addr.extractLsb' 0 9) c.offset

def cbStateNext : CbState :=
  match c.cbState with
  | .idle => if c.cacheLockAcquire i then if c.wr then .buffer2cache else .cache2buffer else .idle
  | .buffer2cache => if lastOffset c.payload c.offset.toNat && c.coreBufferCe i then .unlock else .buffer2cache
  | .cache2buffer => if c.offset == c.mask && c.coreBufferCe i then .unlock else .cache2buffer
  | .unlock => if i.cacheLockStatus then .unlock else .idle

def offsetNext : BitVec 3 :=
  match c.cbState with
  | .idle => 0
  | _ => if c.coreBufferCe i then c.offset + 1 else c.offset

/-- The words of a store that arrive, and those of a load that the buffer gives out. -/
def dataWrite : Option (BitVec 3 × Word) :=
  if c.state = .inData ∧ c.splitterBridgeGo i then some (c.counter.setWidth 3, c.splitterBridgeData i)
  else if c.cacheReF then some (c.offsetF, i.bufferCoreData)
  else none

def step : Core where
  state := c.stateNext i
  counter := c.counterNext i
  offset := c.offsetNext i
  msgDataVal :=
    match c.dataWrite i with
    | some (k, _) => setAt c.msgDataVal k true
    | none => if c.state = .idle then fun _ => false else c.msgDataVal
  msgDataBuf :=
    match c.dataWrite i with
    | some (k, word) => setAt c.msgDataBuf k word
    | none => c.msgDataBuf
  cacheReF := c.coreBufferCe i && !c.coreBufferWr
  offsetF := c.offset
  msgType := if c.state = .idle ∧ c.splitterBridgeGo i then fieldType (c.splitterBridgeData i) else c.msgType
  payload := if c.state = .idle ∧ c.splitterBridgeGo i then fieldLength (c.splitterBridgeData i) else c.payload
  mshr := if c.state = .idle ∧ c.splitterBridgeGo i then fieldMshrid (c.splitterBridgeData i) else c.mshr
  addr := if c.state = .inHeader1 ∧ c.splitterBridgeGo i then addrRemapped (c.splitterBridgeData i) else c.addr
  dataSz := if c.state = .inHeader1 ∧ c.splitterBridgeGo i then fieldDataSize (c.splitterBridgeData i) else c.dataSz
  chipid := if c.state = .inHeader2 ∧ c.splitterBridgeGo i then fieldSrcChipid (c.splitterBridgeData i) else c.chipid
  srcx := if c.state = .inHeader2 ∧ c.splitterBridgeGo i then fieldSrcX (c.splitterBridgeData i) else c.srcx
  srcy := if c.state = .inHeader2 ∧ c.splitterBridgeGo i then fieldSrcY (c.splitterBridgeData i) else c.srcy
  cbState := c.cbStateNext i

end Core

end OpenPiton.Sd
