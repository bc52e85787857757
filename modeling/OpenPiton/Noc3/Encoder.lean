import OpenPiton.Noc1.BufIn

namespace OpenPiton.Noc3

open L15 (Noc3Reqtype Word)
open Noc1 (Flit)

/-- `PITON_NOC3_WIDTH`. -/
inductive Width
  | w64 | w128 | w256 | w512 | w576 | w704
  deriving DecidableEq, Repr

/-- `NOC3_WORDS_NUM`. -/
def Width.words : Width → Nat
  | .w64 => 1
  | .w128 => 2
  | .w256 => 4
  | .w512 => 8
  | .w576 => 9
  | .w704 => 11

/-- `L15_L1D_LINE_SIZE`. -/
inductive LineSize
  | b16 | b32 | b64
  deriving DecidableEq, Repr

/-- `L15_MAX_DATA_PACKETS`. -/
def LineSize.maxDataPackets : LineSize → Nat
  | .b16 => 2
  | .b32 => 4
  | .b64 => 8

/-- The build, and the static inputs of the encoder. Under `PARALLEL_SRAMS` the L1.5 reads lines of
64 bytes at once. -/
structure Cfg where
  width : Width
  lineSize : LineSize
  parallelSrams : Bool
  line_of_parallel : parallelSrams = true → lineSize = .b64
  chipid : BitVec 14 := 0
  coreidX : BitVec 8 := 0
  coreidY : BitVec 8 := 0

/-- `l15_noc3encoder_req_*`. -/
structure Req where
  reqtype : Noc3Reqtype := .none
  data : List Word := []
  mshrType : BitVec 2 := 0
  threadid : BitVec 1 := 0
  sequenceid : BitVec 2 := 0
  address : BitVec 40 := 0
  withData : Bool := false
  wasInval : Bool := false
  fwdackVector : BitVec 4 := 0
  homeid : BitVec 30 := 0
  deriving DecidableEq, Repr

def msgTypeWbReq : BitVec 8 := 12

namespace Req

variable (c : Cfg) (r : Req)

def isRequest : Bool := r.reqtype == .writeback

def msgType : BitVec 8 :=
  match r.reqtype with
  | .writeback => msgTypeWbReq
  | .downgradeAck => 21
  | .invalAck => if r.wasInval then 23 else 22
  | .icacheInvalAck => 23
  | .none => 0

def msgLength : Nat :=
  match r.reqtype with
  | .writeback => 2 + c.lineSize.maxDataPackets
  | .downgradeAck | .invalAck => if r.withData then (if c.parallelSrams then 8 else 2) else 0
  | .icacheInvalAck | .none => 0

/-- `data_ptr`, where the data start. -/
def dataPtr : Nat := if r.isRequest then 3 else 1

def lastSubcachelineId : BitVec 2 :=
  if r.fwdackVector.getLsbD 3 then 3
  else if r.fwdackVector.getLsbD 2 then 2
  else if r.fwdackVector.getLsbD 1 then 1
  else 0

def msgOptions4 : BitVec 6 :=
  (0 : BitVec 3) ++ r.sequenceid ++
    BitVec.ofBool (r.lastSubcachelineId == r.sequenceid || r.reqtype == .icacheInvalAck)

/-- `sub_flit[0]`; `msg_options_1` of a request is zero. -/
def header1 : Word :=
  r.homeid.extractLsb' 16 14 ++ r.homeid.extractLsb' 0 8 ++ r.homeid.extractLsb' 8 8 ++ (0 : BitVec 4) ++
    BitVec.ofNat 8 (r.msgLength c) ++ r.msgType ++ ((0 : BitVec 5) ++ r.threadid ++ r.mshrType) ++
    (if r.isRequest then 0 else r.msgOptions4)

def header2 : Word := (0 : BitVec 8) ++ r.address ++ (0 : BitVec 16)

/-- `l15_noc3encoder_req_data_array`. -/
def dataArray (k : Nat) : Word := r.data.getD k 0

end Req

def Cfg.header3 (c : Cfg) : Word :=
  c.chipid ++ c.coreidX ++ c.coreidY ++ (0 : BitVec 4) ++ (0 : BitVec 30)

/-- The number of registers `l15_noc3encoder_req_data_f`. -/
def Cfg.bufferWidth (c : Cfg) : Nat :=
  if c.width = .w64 then 1
  else if c.width = .w128 ∨ c.lineSize.maxDataPackets ≤ 2 then 2
  else if c.width = .w256 ∨ c.lineSize.maxDataPackets ≤ 4 then 4
  else 8

def Cfg.subFlitWidth (c : Cfg) : Nat := if c.width.words < 4 then 4 else c.width.words

structure Encoder where
  flitState : Nat := 0
  delay : Bool := false
  reqDataF : Nat → Word := fun _ => 0

namespace Encoder

variable (c : Cfg) (e : Encoder) (val : Bool) (r : Req) (ready : Bool)

/-- A read of `l15_noc3encoder_req_data_f`; past its end there is nothing to read. -/
def dataF (k : Nat) : Word := if k < c.bufferWidth then e.reqDataF k else 0

def subFlit (k : Nat) : Word :=
  match k with
  | 0 => r.header1 c
  | 1 => if 0 < r.msgLength c then (if r.isRequest then r.header2 else e.dataF c 0) else 0
  | 2 => if 1 < r.msgLength c then (if r.isRequest then c.header3 else e.dataF c 1) else 0
  | k =>
      if k < c.subFlitWidth ∧ k - 1 < r.msgLength c then
        if c.parallelSrams ∧ r.isRequest = false then e.dataF c (k - 1)
        else e.dataF c ((k - 3) % c.bufferWidth)
      else 0

def flit : Flit :=
  (List.range c.width.words).map fun k =>
    if e.flitState < r.dataPtr then e.subFlit c r (e.flitState + k) else e.dataF c k

def sendDone : Bool :=
  if c.width = .w64 then e.flitState == r.msgLength c
  else r.msgLength c < e.flitState + c.width.words

/-- The first flit of a request with room for data in it. -/
def opens : Bool := val && e.flitState == 0 && r.dataPtr < c.width.words

def stall : Bool := if c.width = .w64 then false else e.opens c val r && !e.delay

/-- `noc3encoder_noc3out_val`. -/
def valOut : Bool := val && !e.stall c val r

/-- `noc3encoder_l15_req_ack`. -/
def reqAck : Bool := val && e.sendDone c r && ready && !e.stall c val r

def delayNext : Bool :=
  if c.width = .w64 then false
  else if e.opens c val r then (if c.parallelSrams then !e.reqAck c val r ready else true)
  else false

def flitStateNext : Nat :=
  if e.valOut c val r then
    if ready then (if e.sendDone c r then 0 else (e.flitState + c.width.words) % 16) else e.flitState
  else if e.stall c val r then e.flitState
  else 0

/-- Where the data registers are loaded from. -/
def ptr : Nat :=
  if r.dataPtr < e.flitStateNext c val r ready then e.flitStateNext c val r ready - r.dataPtr else 0

def step : Encoder where
  flitState := e.flitStateNext c val r ready
  delay := e.delayNext c val r ready
  reqDataF k :=
    if k < c.bufferWidth ∧ e.ptr c val r ready < c.lineSize.maxDataPackets - k then
      r.dataArray (e.ptr c val r ready + k)
    else e.reqDataF k

end Encoder

structure Noc3Buffer where
  bufferVal : Bool := false
  req : Req := {}

namespace Noc3Buffer

variable (b : Noc3Buffer) (new : Option Req) (encoderAck : Bool)

/-- `noc3buffer_l15_req_ack`. -/
def l15ReqAck : Bool := new.isSome && (!b.bufferVal || encoderAck)

def step : Noc3Buffer where
  bufferVal := if b.l15ReqAck new encoderAck then true else if encoderAck then false else b.bufferVal
  req := if b.l15ReqAck new encoderAck then new.getD b.req else b.req

end Noc3Buffer

end OpenPiton.Noc3
