import OpenPiton.Noc1.BufIn
import OpenPiton.L2.AmoAlu
import OpenPiton.Lib.Machine

namespace OpenPiton.AxiLite

open L15 (Word)
open Noc1 (fieldLength fieldType)

/-- `SLAVE_RESP_BYTEWIDTH`, `SWAP_ENDIANESS` and `ALIGN_RDATA`; `unknownType` is the type of an answer to another request. -/
structure BridgeCfg where
  slaveRespBytewidth : Int := 4
  swapEndianess : Bool := false
  alignRdata : Bool := true
  unknownType : BitVec 8 := 0

inductive MsgState
  | inval
  | header0
  | header1
  | header2
  | data
  deriving DecidableEq

inductive MsgType
  | inval
  | load
  | store
  deriving DecidableEq

inductive BufStatus
  | incomp
  | comp
  | waitresp
  | respsend
  deriving DecidableEq

inductive Ack
  | load
  | store
  deriving DecidableEq

/-- `MSG_DATA_SIZE_`. -/
def fieldDataSize (word : Word) : BitVec 3 := word.extractLsb' 8 3

/-- `m_axi_araddr` and `m_axi_awaddr` of a second header word. -/
def axiAddr (header1 : Word) : Word := (0 : BitVec 24) ++ header1.extractLsb' 16 40

/-- A response header to the source in the third header word, with the message number of the first. -/
def respHeader (header0 header2 : Word) (length type : BitVec 8) : Word :=
  header2.extractLsb' 50 14 ++ header2.extractLsb' 42 8 ++ header2.extractLsb' 34 8 ++ header2.extractLsb' 30 4 ++ length ++
    type ++ header0.extractLsb' 6 8 ++ (0 : BitVec 6)

/-- `MSG_LENGTH` of the response to a load. -/
def loadRespLength (header0 header1 : Word) : BitVec 8 := if fieldType header0 = 14 ∧ fieldDataSize header1 ≤ 4 then 1 else 8

def loadRespHeader (cfg : BridgeCfg) (header0 header1 header2 : Word) : Word :=
  respHeader header0 header2 (loadRespLength header0 header1)
    (if fieldType header0 = 14 then 26 else if fieldType header0 = 19 then 24 else cfg.unknownType)

def storeRespHeader (cfg : BridgeCfg) (header0 header2 : Word) : Word :=
  respHeader header0 header2 0
    (if fieldType header0 = 15 then 27 else if fieldType header0 = 20 then 25 else cfg.unknownType)

/-- The bytes from the address on. -/
def rdataShifted (cfg : BridgeCfg) (header1 rdata : Word) : Word :=
  if cfg.alignRdata then rdata >>> (8 * ((axiAddr header1).extractLsb' 0 3).toNat) else rdata

/-- `a_axi_rdata_masked` for a second header word. -/
def rdataMasked (cfg : BridgeCfg) (header1 rdata : Word) : Word :=
  let shifted := rdataShifted cfg header1 rdata
  L2.AmoAlu.swp cfg.swapEndianess <|
    if cfg.slaveRespBytewidth ≤ 0 then
      if fieldDataSize header1 = 0 then 0
      else if fieldDataSize header1 = 1 then (shifted.extractLsb' 0 8).replicate 8
      else if fieldDataSize header1 = 2 then (shifted.extractLsb' 0 16).replicate 4
      else if fieldDataSize header1 = 3 then (shifted.extractLsb' 0 32).replicate 2
      else shifted
    else if cfg.slaveRespBytewidth = 1 then (rdata.extractLsb' 0 8).replicate 8
    else if cfg.slaveRespBytewidth = 2 then (rdata.extractLsb' 0 16).replicate 4
    else if cfg.slaveRespBytewidth = 4 then (rdata.extractLsb' 0 32).replicate 2
    else rdata

/-- `m_axi_wstrb` of a second header word. -/
def wstrb (header1 : Word) : BitVec 8 :=
  if fieldDataSize header1 = 0 then 0x00
  else if fieldDataSize header1 = 1 then 0x01
  else if fieldDataSize header1 = 2 then 0x03
  else if fieldDataSize header1 = 3 then 0x0f
  else 0xff

/-- The registers of `noc_axilite_bridge`. -/
structure BridgeRegs where
  msgState : MsgState := .inval
  msgType : MsgType := .inval
  msgCounter : BitVec 8 := 0
  rReqHeader0 : Word := 0
  rReqHeader1 : Word := 0
  rReqHeader2 : Word := 0
  rReqStatus : BufStatus := .incomp
  wReqHeader0 : Word := 0
  wReqHeader1 : Word := 0
  wReqHeader2 : Word := 0
  wReqData0 : Word := 0
  wAddrReqStatus : BufStatus := .incomp
  wDataReqStatus : BufStatus := .incomp
  rRespHeader0 : Word := 0
  rRespData0 : Word := 0
  rRespStatus : BufStatus := .incomp
  wRespHeader0 : Word := 0
  wAddrRespStatus : BufStatus := .incomp
  wDataRespStatus : BufStatus := .incomp
  ackLoadCounter : BitVec 8 := 0
  arb : Ack := .load

/-- The lines into the bridge: the valid flag of the request port, the ready of the response port, the ready of the AXI
address and data channels, and what is on the AXI response channels. -/
structure BridgeIn where
  val : Bool
  rdy : Bool
  awready : Bool
  wready : Bool
  arready : Bool
  rdata : Option Word
  bvalid : Bool

/-- The bridge, with the words that are still to come and those that have crossed each channel; `asked` is the second header
word of the load whose address was the last to leave. -/
structure Bridge where
  regs : BridgeRegs := {}
  pending : List Word := []
  ars : List Word := []
  rs : List Word := []
  aws : List Word := []
  ws : List (Word × BitVec 8) := []
  bs : Nat := 0
  sent : List Word := []
  asked : Word := 0

namespace BridgeRegs

variable (cfg : BridgeCfg) (r : BridgeRegs)

def msgStateNext : MsgState :=
  match r.msgState with
  | .inval => .header0
  | .header0 => .header1
  | .header1 => .header2
  | .header2 => if r.msgCounter = 0 then .header0 else .data
  | .data => if r.msgCounter = 0 then .header0 else .data

def wReqStatus : BufStatus := if r.wAddrReqStatus = .incomp ∧ r.wDataReqStatus = .incomp then .incomp else .comp

def wRespStatus : BufStatus :=
  if r.wAddrRespStatus = .incomp ∨ r.wDataRespStatus = .incomp then .incomp
  else if r.wAddrRespStatus = .comp ∨ r.wDataRespStatus = .comp then .comp
  else if r.wAddrRespStatus = .waitresp ∨ r.wDataRespStatus = .waitresp then .waitresp
  else .respsend

def awvalid : Bool := r.wReqStatus = .comp && r.wAddrRespStatus = .incomp

def wvalid : Bool := r.wReqStatus = .comp && r.wDataRespStatus = .incomp

def arvalid : Bool := r.rReqStatus = .comp && r.rRespStatus = .incomp

def rready : Bool := r.rRespStatus = .waitresp

def bready : Bool := r.wRespStatus = .waitresp

def wdata : Word := L2.AmoAlu.swp cfg.swapEndianess r.wReqData0

def rRespVal : Bool := r.rRespStatus = .respsend

def wRespVal : Bool := r.wRespStatus = .respsend

/-- The load response is at its header. -/
def atHeader : Bool := r.ackLoadCounter = fieldLength r.rRespHeader0

def ackLoad : Word := if r.atHeader then r.rRespHeader0 else r.rRespData0

def ackMuxSel : Ack :=
  if r.rRespVal && !r.wRespVal then .load
  else if r.wRespVal && !r.rRespVal then .store
  else if r.wRespVal && r.rRespVal then if r.atHeader then r.arb else .load
  else .load

def splitterVal : Bool := if r.ackMuxSel = .load then r.rRespVal else r.wRespVal

def splitterData : Word := if r.ackMuxSel = .load then r.ackLoad else r.wRespHeader0

end BridgeRegs

namespace Bridge

variable (cfg : BridgeCfg) (s : Bridge) (i : BridgeIn)

def val : Bool := i.val && !s.pending.isEmpty

def data : Word := s.pending.headD 0

def msgTypeMuxOut : MsgType :=
  if !s.val i then .inval
  else if fieldType s.data = 31 ∨ fieldType s.data = 14 ∨ fieldType s.data = 19 then .load
  else if fieldType s.data = 2 ∨ fieldType s.data = 15 ∨ fieldType s.data = 20 then .store
  else .inval

def msgTypeNext : MsgType :=
  if s.regs.msgStateNext = .inval then .inval
  else if s.regs.msgStateNext = .header0 then s.msgTypeMuxOut i
  else s.regs.msgType

/-- `bridge_splitter_rdy`. -/
def rdyOut : Bool :=
  s.msgTypeNext i = .inval || (s.msgTypeNext i = .load && s.regs.rReqStatus = .incomp) ||
    (s.msgTypeNext i = .store && s.regs.wReqStatus = .incomp)

def go : Bool := s.val i && s.rdyOut i

def loadGo : Bool := s.msgTypeNext i = .load && s.go i && s.regs.rReqStatus = .incomp

def storeGo : Bool := s.msgTypeNext i = .store && s.go i && s.regs.wReqStatus = .incomp

def msgCounterNext : BitVec 8 :=
  if s.regs.msgStateNext = .header0 then fieldLength s.data else s.regs.msgCounter - 1

/-- The last word of a load is stored. -/
def loadDone : Bool := s.loadGo i && s.regs.msgStateNext = .header2

/-- `w_status_update`: the data word of a store is stored. -/
def storeDone : Bool := s.storeGo i && s.regs.msgStateNext = .data && s.regs.msgCounter = 1

def arGo : Bool := s.regs.arvalid && i.arready

def awGo : Bool := s.regs.awvalid && i.awready

def wGo : Bool := s.regs.wvalid && i.wready

def rGo : Bool := s.regs.rready && i.rdata.isSome

def bGo : Bool := s.regs.bready && i.bvalid

def ackLoadGo : Bool := s.regs.ackMuxSel = .load && s.regs.rRespVal && i.rdy

def ackStoreGo : Bool := s.regs.ackMuxSel = .store && s.regs.wRespVal && i.rdy

def regsNext : BridgeRegs where
  msgState := if s.go i then s.regs.msgStateNext else s.regs.msgState
  msgType := if s.go i then s.msgTypeNext i else s.regs.msgType
  msgCounter := if s.go i then s.msgCounterNext else s.regs.msgCounter
  rReqHeader0 := if s.loadGo i && s.regs.msgStateNext = .header0 then s.data else s.regs.rReqHeader0
  rReqHeader1 := if s.loadGo i && s.regs.msgStateNext = .header1 then s.data else s.regs.rReqHeader1
  rReqHeader2 := if s.loadGo i && s.regs.msgStateNext = .header2 then s.data else s.regs.rReqHeader2
  rReqStatus := if s.loadDone i then .comp else if s.arGo i then .incomp else s.regs.rReqStatus
  wReqHeader0 := if s.storeGo i && s.regs.msgStateNext = .header0 then s.data else s.regs.wReqHeader0
  wReqHeader1 := if s.storeGo i && s.regs.msgStateNext = .header1 then s.data else s.regs.wReqHeader1
  wReqHeader2 := if s.storeGo i && s.regs.msgStateNext = .header2 then s.data else s.regs.wReqHeader2
  wReqData0 := if s.storeGo i && s.regs.msgStateNext = .data then s.data else s.regs.wReqData0
  wAddrReqStatus := if s.storeDone i then .comp else if s.awGo i then .incomp else s.regs.wAddrReqStatus
  wDataReqStatus := if s.storeDone i then .comp else if s.wGo i then .incomp else s.regs.wDataReqStatus
  rRespHeader0 :=
    if s.arGo i then loadRespHeader cfg s.regs.rReqHeader0 s.regs.rReqHeader1 s.regs.rReqHeader2 else s.regs.rRespHeader0
  rRespData0 := if s.rGo i then rdataMasked cfg s.regs.rReqHeader1 (i.rdata.getD 0) else s.regs.rRespData0
  rRespStatus :=
    if s.arGo i then .waitresp
    else if s.rGo i then .respsend
    else if s.ackLoadGo i && s.regs.ackLoadCounter = 0 && !decide (s.regs.rRespStatus = .waitresp) then .incomp
    else s.regs.rRespStatus
  wRespHeader0 := if s.awGo i then storeRespHeader cfg s.regs.wReqHeader0 s.regs.wReqHeader2 else s.regs.wRespHeader0
  wAddrRespStatus :=
    if s.awGo i then .waitresp else if s.bGo i then .respsend else if s.ackStoreGo i then .incomp else s.regs.wAddrRespStatus
  wDataRespStatus :=
    if s.wGo i then .waitresp else if s.bGo i then .respsend else if s.ackStoreGo i then .incomp else s.regs.wDataRespStatus
  ackLoadCounter :=
    if s.regs.rRespStatus = .waitresp then fieldLength s.regs.rRespHeader0
    else if s.ackLoadGo i && s.regs.ackLoadCounter ≠ 0 then s.regs.ackLoadCounter - 1
    else s.regs.ackLoadCounter
  arb :=
    if s.regs.wRespVal && s.regs.rRespVal && s.ackLoadGo i then .store
    else if s.regs.wRespVal && s.regs.rRespVal && s.ackStoreGo i then .load
    else s.regs.arb

def step : Bridge where
  regs := s.regsNext cfg i
  pending := if s.go i then s.pending.tail else s.pending
  ars := if s.arGo i then s.ars ++ [axiAddr s.regs.rReqHeader1] else s.ars
  rs := if s.rGo i then s.rs ++ i.rdata.toList else s.rs
  aws := if s.awGo i then s.aws ++ [axiAddr s.regs.wReqHeader1] else s.aws
  ws := if s.wGo i then s.ws ++ [(s.regs.wdata cfg, wstrb s.regs.wReqHeader1)] else s.ws
  bs := if s.bGo i then s.bs + 1 else s.bs
  sent := if s.regs.splitterVal && i.rdy then s.sent ++ [s.regs.splitterData] else s.sent
  asked := if s.arGo i then s.regs.rReqHeader1 else s.asked

end Bridge

end OpenPiton.AxiLite
