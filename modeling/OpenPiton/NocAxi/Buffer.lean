import OpenPiton.NocAxi.Packet
import Mathlib.Logic.Function.Basic

namespace OpenPiton.NocAxi

/-- The parameters of `noc_axi4_bridge_buffer` that shape its queues; the numbers of threads are
given by their logarithms. -/
structure BufferCfg where
  numReqOutstandingLog2 : Nat
  numReqMshridLbit : Nat
  numReqMshridBits : Nat
  numReqYthreadsLog2 : Nat
  numReqXthreadsLog2 : Nat
  rdwrInorder : Bool
  outstandQueueBram : Bool
  outstanding_pos : 0 < numReqOutstandingLog2
  /-- The thread fits `AXI4_ID_WIDTH`. -/
  threads_le : numReqYthreadsLog2 + numReqXthreadsLog2 + numReqMshridBits ≤ 6

namespace BufferCfg

variable (c : BufferCfg)

def numReqThreadsLog2 : Nat := c.numReqYthreadsLog2 + c.numReqXthreadsLog2 + c.numReqMshridBits

/-- The number of slots for outstanding requests. -/
def depth : Nat := 2 ^ c.numReqOutstandingLog2

end BufferCfg

/-- `pkt_command` and `stor_command`: the request is a store. -/
def Header.command (h : Header) : Bool :=
  h.msgType == msgTypeStoreMem || h.msgType == msgTypeNcStoreReq

namespace BufferCfg

variable (c : BufferCfg) (h : Header)

/-- `req_id` and `stor_id`: the fields are side by side. -/
def reqId : Nat :=
  h.msgMshrid.toNat / 2 ^ c.numReqMshridLbit % 2 ^ c.numReqMshridBits *
      2 ^ (c.numReqYthreadsLog2 + c.numReqXthreadsLog2) +
    h.msgSrcY.toNat % 2 ^ c.numReqYthreadsLog2 * 2 ^ c.numReqXthreadsLog2 +
    h.msgSrcX.toNat % 2 ^ c.numReqXthreadsLog2

/-- The thread of an id and a direction; without `RDWR_INORDER` the direction is the top bit. -/
def fullId (command : Bool) (id : Nat) : Nat :=
  (if command && !c.rdwrInorder then 2 ^ c.numReqThreadsLog2 else 0) + id

/-- `full_req_id` and `full_stor_id`. -/
def thread : Nat := c.fullId h.command (c.reqId h)

/-- `read_req_id` and `write_req_id` have `AXI4_ID_WIDTH` bits. -/
def axiId : Nat := c.reqId h % 2 ^ 6

/-- `full_rd_resp_id` and `full_wr_resp_id`. -/
def respThread (command : Bool) (id : Nat) : Nat := c.fullId command (id % 2 ^ c.numReqThreadsLog2)

end BufferCfg

/-- An entry of the memory of outstanding requests: the virtual pointer, the bit that the entry is
taken, and the header. -/
structure Slot where
  vrt : Nat := 0
  occup : Bool := false
  header : Header := ⟨0, 0, 0⟩
  deriving DecidableEq

/-- The registers of `noc_axi4_bridge_buffer`. -/
structure Buffer where
  pktStateBuf : Nat → Bool := fun _ => false
  pktHeader : Nat → Header := fun _ => ⟨0, 0, 0⟩
  pktCommand : Nat → Bool := fun _ => false
  fifoIn : Nat := 0
  fifoOut : Nat := 0
  reqVal : Bool := false
  vrtWrptrs : Nat → Nat := fun _ => 0
  vrtRdptrs : Nat → Nat := fun _ => 0
  absRdptrs : Nat → Nat := fun _ => 0
  absRdptrsVal : Nat → Bool := fun _ => false
  outstndCommand : Nat → Bool
  fullRespId : Nat := 0
  respVal : Bool := false
  initOutstndMem : Bool := true
  absWrptr : Nat := 0
  outstndReqMem : Nat → Slot
  /-- The read addresses of the memory in registers. -/
  absRdptrMemRd : Nat := 0
  absWrptrMemRd : Nat := 0
  /-- The output registers of the memory in BRAM. -/
  ramDataA : Slot
  ramDataB : Slot
  storHdrVal : Bool := false

/-- `deser_*`, the ready inputs of the request channels and of the serializer, and the responses. -/
structure BufferIn where
  deser : Option Header := none
  readReqRdy : Bool := true
  writeReqRdy : Bool := true
  readResp : Option Nat := none
  writeResp : Option Nat := none
  serRdy : Bool := true

namespace Buffer

variable (c : BufferCfg) (s : Buffer) (i : BufferIn)

def deserRdy : Bool := !s.pktStateBuf s.fifoIn

def deserGo : Bool := i.deser.isSome && s.deserRdy

def reqHeader : Header := s.pktHeader s.fifoOut

def reqCommand : Bool := s.pktCommand s.fifoOut

def fullReqId : Nat := c.fullId s.reqCommand (c.reqId s.reqHeader)

def cleanHeader : Slot := if c.outstandQueueBram then s.ramDataB else s.outstndReqMem s.absWrptrMemRd

def storHeader : Slot := if c.outstandQueueBram then s.ramDataA else s.outstndReqMem s.absRdptrMemRd

def reqOccup : Bool := (s.cleanHeader c).occup

def readReqVal : Bool := s.reqVal && !s.reqCommand && !s.reqOccup c && !s.initOutstndMem

def writeReqVal : Bool := s.reqVal && s.reqCommand && !s.reqOccup c && !s.initOutstndMem

def reqGo : Bool := s.readReqVal c && i.readReqRdy || s.writeReqVal c && i.writeReqRdy

def vrtEmpt (t : Nat) : Bool := s.vrtRdptrs t == s.vrtWrptrs t

def absRdptr : Nat := s.absRdptrs s.fullRespId

def absRdptrVal : Bool := s.absRdptrsVal s.fullRespId

def storCommand : Bool := (s.storHeader c).header.command

/-- `outstnd_vrt_rdptr_val`: the header read is the oldest of the thread. -/
def vrtRdptrVal : Bool :=
  s.vrtRdptrs s.fullRespId % c.depth == (s.storHeader c).vrt &&
    s.fullRespId == c.thread (s.storHeader c).header && (s.storHeader c).occup

def absRdptrMem : Nat :=
  (s.absRdptr + if !s.vrtEmpt s.fullRespId && !(s.vrtRdptrVal c || s.absRdptrVal) then 1 else 0) % c.depth

def absWrptrMem : Nat := (s.absWrptr + if !s.initOutstndMem && s.reqOccup c then 1 else 0) % c.depth

/-- `read_resp_val_act` and `write_resp_val_act`, with the thread of the response. -/
def respAct (command : Bool) (resp : Option Nat) : Option Nat :=
  (resp.map (c.respThread command)).filter fun t =>
    !c.rdwrInorder || (s.outstndCommand t == command && s.absRdptrsVal t)

def rdAct : Option Nat := s.respAct c false i.readResp

def wrAct : Option Nat := s.respAct c true i.writeResp

def storHdrEn : Bool := s.storHdrVal && s.absRdptrVal && s.respVal

def serVal : Bool := s.storHdrEn

def serGo : Bool := s.serVal && i.serRdy

def serHeader : Header := (s.storHeader c).header

def readRespRdy : Bool := s.storHdrEn && i.serRdy && !s.storCommand c

def writeRespRdy : Bool := s.storHdrEn && i.serRdy && s.storCommand c

/-- The response taken from the slave: its direction and its id. -/
def taken : Option (Bool × Nat) :=
  if s.readRespRdy c i then i.readResp.map (false, ·)
  else if s.writeRespRdy c i then i.writeResp.map (true, ·)
  else none

def saveHeader : Slot where
  vrt := s.vrtWrptrs (s.fullReqId c) % c.depth
  occup := true
  header := s.reqHeader

/-- The thread whose response is worked on next: the response at hand keeps its turn, otherwise a
read goes first. -/
def fullRespIdNext : Nat :=
  match s.rdAct c i, s.wrAct c i with
  | none, none => s.fullRespId
  | some rd, none => rd
  | none, some wr => wr
  | some rd, some wr => if s.fullRespId = wr then (if s.fullRespId = rd then s.fullRespId else wr) else rd

def step : Buffer where
  pktStateBuf k :=
    if k = s.fifoIn ∧ s.deserGo i then true
    else if k = s.fifoOut ∧ s.reqGo c i then false
    else s.pktStateBuf k
  pktHeader k := if k = s.fifoIn ∧ s.deserGo i then i.deser.getD ⟨0, 0, 0⟩ else s.pktHeader k
  pktCommand k := if k = s.fifoIn ∧ s.deserGo i then (i.deser.getD ⟨0, 0, 0⟩).command else s.pktCommand k
  fifoIn := if s.deserGo i then (s.fifoIn + 1) % 2 else s.fifoIn
  fifoOut := if s.reqGo c i then (s.fifoOut + 1) % 2 else s.fifoOut
  reqVal := s.pktStateBuf s.fifoOut && !s.reqGo c i
  vrtWrptrs t :=
    if t = s.fullReqId c ∧ s.reqGo c i then (s.vrtWrptrs t + 1) % 2 ^ (c.numReqOutstandingLog2 + 1)
    else s.vrtWrptrs t
  vrtRdptrs t :=
    if t = s.fullRespId ∧ s.serGo i then (s.vrtRdptrs t + 1) % 2 ^ (c.numReqOutstandingLog2 + 1)
    else s.vrtRdptrs t
  absRdptrs t :=
    if t = s.fullRespId ∧ s.initOutstndMem then (s.absRdptr + 1) % c.depth
    else if t = s.fullRespId ∧ !s.vrtEmpt t then s.absRdptrMem c
    else if t = s.fullReqId c ∧ s.reqGo c i ∧ s.vrtEmpt t then s.absWrptr
    else s.absRdptrs t
  absRdptrsVal t :=
    if t = s.fullRespId ∧ s.serGo i then false
    else if t = s.fullRespId ∧ !s.vrtEmpt t ∧ !s.absRdptrVal ∧ s.vrtRdptrVal c then true
    else if t = s.fullReqId c ∧ s.reqGo c i ∧ s.vrtEmpt t then true
    else s.absRdptrsVal t
  outstndCommand t :=
    if t = s.fullRespId ∧ !s.vrtEmpt t ∧ !s.absRdptrVal ∧ s.vrtRdptrVal c then s.storCommand c
    else if t = s.fullReqId c ∧ s.reqGo c i ∧ s.vrtEmpt t then s.reqCommand
    else s.outstndCommand t
  fullRespId :=
    if s.initOutstndMem then 0
    else if s.vrtEmpt s.fullRespId || s.absRdptrVal then s.fullRespIdNext c i
    else s.fullRespId
  respVal :=
    if s.initOutstndMem || s.serGo i then false
    else if (s.vrtEmpt s.fullRespId || s.absRdptrVal) && ((s.rdAct c i).isSome || (s.wrAct c i).isSome) then true
    else s.respVal
  initOutstndMem := if s.absRdptr = c.depth - 1 then false else s.initOutstndMem
  absWrptr := s.absWrptrMem c
  outstndReqMem :=
    let cleared :=
      if s.serGo i || s.initOutstndMem then Function.update s.outstndReqMem (s.absRdptrMem c) {}
      else s.outstndReqMem
    if s.reqGo c i then Function.update cleared (s.absWrptrMem c) (s.saveHeader c) else cleared
  absRdptrMemRd := s.absRdptrMem c
  absWrptrMemRd := s.absWrptrMem c
  ramDataA := if s.serGo i || s.initOutstndMem then {} else s.outstndReqMem (s.absRdptrMem c)
  ramDataB := if s.reqGo c i then s.saveHeader c else s.outstndReqMem (s.absWrptrMem c)
  storHdrVal := s.absRdptrVal && s.respVal

end Buffer

end OpenPiton.NocAxi
