import OpenPiton.L15.Defs
import Mathlib.Data.List.Basic

namespace OpenPiton.Noc1

open L15 (Noc1Reqtype AluOp CmoOp Word)

/-- `PITON_NOC1_WIDTH`. -/
inductive Width
  | w64 | w128 | w256 | w512
  deriving DecidableEq, Repr

/-- The 64-bit words of a flit, low word first. -/
abbrev Flit := List Word

/-- The static inputs of the encoder, and the columns of the mesh for `flat_id_to_xy`. -/
structure Tile where
  chipid : BitVec 14 := 0
  coreidX : BitVec 8 := 0
  coreidY : BitVec 8 := 0
  xTiles : Nat := 1

/-- `noc1buffer_noc1encoder_req_*`; `mshrid` is the pair of MSHR index and type. -/
structure BufferReq where
  reqtype : Noc1Reqtype := .none
  prefetch : Bool := false
  nonCacheable : Bool := false
  data0 : Word := 0
  data1 : Word := 0
  address : BitVec 40 := 0
  mshrid : BitVec 8 := 0
  size : BitVec 3 := 0
  homeid : BitVec 30 := 0
  csmSdid : BitVec 10 := 0
  csmLsid : BitVec 6 := 0
  deriving DecidableEq, Repr

/-- `csm_noc1encoder_req_*`. -/
structure CsmReq where
  reqtype : Noc1Reqtype := .ldRequest
  mshrid : BitVec 3 := 0
  address : BitVec 40 := 0
  nonCacheable : Bool := true
  size : BitVec 3 := 0
  deriving DecidableEq, Repr

inductive Source
  | l15 | csm
  deriving DecidableEq, Repr

/-- The selected request, `req_*`. -/
structure Req where
  reqtype : Noc1Reqtype
  prefetch : Bool
  nonCacheable : Bool
  data0 : Word
  data1 : Word
  address : BitVec 40
  mshrid : BitVec 8
  size : BitVec 3
  destXpos : BitVec 8
  destYpos : BitVec 8
  destChipid : BitVec 14
  csmLsid : BitVec 6
  csmSdid : BitVec 10

def BufferReq.req (r : BufferReq) : Req where
  reqtype := r.reqtype
  prefetch := r.prefetch
  nonCacheable := r.nonCacheable
  data0 := r.data0
  data1 := r.data1
  address := r.address
  mshrid := r.mshrid
  size := r.size
  destXpos := r.homeid.extractLsb' 0 8
  destYpos := r.homeid.extractLsb' 8 8
  destChipid := r.homeid.extractLsb' 16 14
  csmLsid := if r.reqtype = .writebackGuard then 0 else r.csmLsid
  csmSdid := if r.reqtype = .writebackGuard then 0 else r.csmSdid

def CsmReq.req (t : Tile) (r : CsmReq) : Req where
  reqtype := r.reqtype
  prefetch := false
  nonCacheable := r.nonCacheable
  data0 := 0
  data1 := 0
  address := r.address
  mshrid := r.mshrid.setWidth 8 ||| 0x80
  size := r.size
  destXpos := t.coreidX
  destYpos := t.coreidY
  destChipid := t.chipid
  csmLsid := 0
  csmSdid := 0

def aluMsgType : AluOp → BitVec 8
  | .add => 36
  | .and => 37
  | .or => 38
  | .xor => 39
  | .max => 40
  | .maxu => 41
  | .min => 42
  | .minu => 43

def cmoMsgType : CmoOp → BitVec 8
  | .inval => 65
  | .clean => 66
  | .flush => 67

def msgTypeInterruptFwd : BitVec 8 := 32

def Req.msgType (r : Req) : BitVec 8 :=
  match r.reqtype with
  | .none => 0
  | .writebackGuard => 13
  | .ldRequest => if r.prefetch then 1 else if r.nonCacheable then 14 else 31
  | .ifillRequest => if r.nonCacheable then 14 else 31
  | .writethroughRequest => if r.nonCacheable then 15 else 0
  | .stUpgradeRequest | .stFillRequest => 2
  | .casRequest => 5
  | .swapRequest => 9
  | .interruptFwd => msgTypeInterruptFwd
  | .lrRequest => 60
  | .amoRequest op => aluMsgType op
  | .rvcmoRequest op => cmoMsgType op

/-- The flits of 64 bits after the first. -/
def msgLength : Noc1Reqtype → Nat
  | .none => 0
  | .writebackGuard | .ldRequest | .ifillRequest | .stUpgradeRequest | .stFillRequest | .lrRequest
  | .rvcmoRequest _ => 2
  | .writethroughRequest | .swapRequest | .amoRequest _ => 3
  | .casRequest => 4
  | .interruptFwd => 1

def Req.msgCacheType (r : Req) : BitVec 1 := if r.reqtype = .ifillRequest then 1 else 0

def flatIdX (t : Tile) (flatId : BitVec 6) : BitVec 8 := BitVec.ofNat 8 (flatId.toNat % t.xTiles)

def flatIdY (t : Tile) (flatId : BitVec 6) : BitVec 8 := BitVec.ofNat 8 (flatId.toNat / t.xTiles)

def Req.msgDestXpos (t : Tile) (r : Req) : BitVec 8 :=
  if r.reqtype = .interruptFwd then
    if r.data0.getLsbD 63 then r.data0.extractLsb' 18 8 else flatIdX t (r.data0.extractLsb' 9 6)
  else r.destXpos

def Req.msgDestYpos (t : Tile) (r : Req) : BitVec 8 :=
  if r.reqtype = .interruptFwd then
    if r.data0.getLsbD 63 then r.data0.extractLsb' 26 8 else flatIdY t (r.data0.extractLsb' 9 6)
  else r.destYpos

def Req.msgDestChipid (r : Req) : BitVec 14 :=
  if r.reqtype = .interruptFwd then
    if r.data0.getLsbD 63 then r.data0.extractLsb' 34 14 else 0
  else r.destChipid

/-- `msg_dest_fbits`, always from the address of the noc1buffer. -/
def msgDestFbits (bufferAddress : BitVec 40) : BitVec 4 :=
  if bufferAddress.extractLsb' 33 7 = 0b1110000 then bufferAddress.extractLsb' 20 4 else 0

/-- The words `sub_flit[0..4]` of a message and `msg_length`. -/
structure Message where
  header1 : Word
  header2 : Word
  header3 : Word
  data1 : Word
  data2 : Word
  length : Nat
  deriving DecidableEq, Repr

def Req.message (t : Tile) (bufferAddress : BitVec 40) (r : Req) : Message where
  header1 :=
    r.msgDestChipid ++ r.msgDestXpos t ++ r.msgDestYpos t ++ msgDestFbits bufferAddress
      ++ BitVec.ofNat 8 (msgLength r.reqtype) ++ r.msgType ++ r.mshrid ++ (0 : BitVec 6)
  header2 :=
    if r.reqtype = .interruptFwd then r.data0 &&& ~~~0xFE00
    else (0 : BitVec 8) ++ r.address ++ (0 : BitVec 4) ++ r.msgCacheType ++ r.size ++ (0 : BitVec 8)
  header3 :=
    t.chipid ++ t.coreidX ++ t.coreidY ++ (0 : BitVec 4) ++ r.csmSdid ++ r.csmLsid ++ (0 : BitVec 14)
  data1 := r.data0
  data2 := r.data1
  length := msgLength r.reqtype

namespace Message

def subFlit (m : Message) : Nat → Word
  | 0 => m.header1
  | 1 => m.header2
  | 2 => m.header3
  | 3 => m.data1
  | 4 => m.data2
  | _ => 0

def flit (w : Width) (m : Message) (flitState : Nat) : Flit :=
  match w with
  | .w64 => [m.subFlit flitState]
  | .w128 =>
      if flitState = 0 then [m.header1, m.header2]
      else if flitState = 2 then [m.header3, m.data1]
      else [m.header3, m.data2]
  | .w256 => [m.header1, m.header2, m.header3, if flitState = 0 then m.data1 else m.data2]
  | .w512 => [m.header1, m.header2, m.header3, m.data1, m.data2]

def sendDone (w : Width) (m : Message) (flitState : Nat) : Bool :=
  match w with
  | .w64 => flitState == m.length
  | .w128 =>
      if flitState = 0 then m.length == 0 || m.length == 1
      else if flitState = 2 then m.length == 2 || m.length == 3
      else true
  | .w256 => if flitState = 0 then m.length != 4 else true
  | .w512 => true

end Message

/-- `flit_state_incr` of a flit that is not the last. -/
def flitStateIncr (w : Width) (flitState : Nat) : Nat :=
  match w with
  | .w64 => (flitState + 1) % 16
  | .w128 => (flitState + 2) % 16
  | .w256 => (flitState + 4) % 16
  | .w512 => 0

structure Encoder where
  flitState : Nat := 0
  lastReqSource : Source := .l15

/-- The inputs of the encoder in a cycle. -/
structure EncoderIn where
  bufferVal : Bool
  buffer : BufferReq
  csmVal : Bool
  csm : CsmReq
  outReady : Bool
  dmbrStall : Bool

namespace Encoder

def reqSource (e : Encoder) (i : EncoderIn) : Source :=
  if (e.lastReqSource = .l15 ∧ e.flitState ≠ 0) ∨ i.csmVal = false then .l15 else .csm

def msg (t : Tile) (e : Encoder) (i : EncoderIn) : Message :=
  match e.reqSource i with
  | .l15 => i.buffer.req.message t i.buffer.address
  | .csm => (i.csm.req t).message t i.buffer.address

def sending (e : Encoder) (i : EncoderIn) : Bool :=
  (i.bufferVal || i.csmVal) && !(i.dmbrStall && e.flitState == 0)

/-- A flit leaves. -/
def fire (e : Encoder) (i : EncoderIn) : Bool := e.sending i && i.outReady

def flit (w : Width) (t : Tile) (e : Encoder) (i : EncoderIn) : Flit :=
  (e.msg t i).flit w e.flitState

def sendDone (w : Width) (t : Tile) (e : Encoder) (i : EncoderIn) : Bool :=
  (e.msg t i).sendDone w e.flitState

/-- `noc1encoder_noc1buffer_req_ack`. -/
def bufferAck (w : Width) (t : Tile) (e : Encoder) (i : EncoderIn) : Bool :=
  i.bufferVal && (e.sendDone w t i && e.sending i) && i.outReady && e.reqSource i == .l15

/-- `noc1encoder_csm_req_ack`. -/
def csmAck (w : Width) (t : Tile) (e : Encoder) (i : EncoderIn) : Bool :=
  i.csmVal && (e.sendDone w t i && e.sending i) && i.outReady && e.reqSource i == .csm

def step (w : Width) (t : Tile) (e : Encoder) (i : EncoderIn) : Encoder where
  flitState :=
    if e.sending i then
      if i.outReady then
        if e.sendDone w t i then 0 else flitStateIncr w e.flitState
      else e.flitState
    else 0
  lastReqSource := e.reqSource i

end Encoder

end OpenPiton.Noc1
