import OpenPiton.Lib.Machine
import Mathlib.Data.BitVec
import Mathlib.Data.List.Basic

namespace OpenPiton.ChipBridge

/-- The three networks; no network is channel 0. -/
inductive Net
  | n1 | n2 | n3
  deriving DecidableEq, Repr

/-- The registers of `bridge_network_chooser`. -/
structure Chooser where
  credit : Net → BitVec 9 := fun _ => 0
  selectReg : Option Net := none
  selectCounter : Bool := false
  sel23 : Bool := false
  sel13 : Bool := false
  sel12 : Bool := false
  sel123 : Option Net := none

structure ChooserIn where
  din : Net → BitVec 64
  val : Net → Bool
  creditFromFpga : Net → Bool

namespace Chooser

variable (c : Chooser) (i : ChooserIn)

/-- The network has no credit left or nothing to send. -/
def shut (n : Net) : Bool := c.credit n == 255 || !i.val n

def select : Option Net :=
  if c.selectCounter then c.selectReg
  else if c.shut i .n1 && c.shut i .n2 && c.shut i .n3 then none
  else if c.shut i .n2 && c.shut i .n3 then some .n1
  else if c.shut i .n1 && c.shut i .n3 then some .n2
  else if c.shut i .n1 && c.shut i .n2 then some .n3
  else if c.shut i .n1 then if c.sel23 then some .n3 else some .n2
  else if c.shut i .n2 then if c.sel13 then some .n3 else some .n1
  else if c.shut i .n3 then if c.sel12 then some .n2 else some .n1
  else c.sel123

def rdy (n : Net) : Bool := c.select i == some n && !c.selectCounter

/-- A flit of the network leaves. -/
def takes (n : Net) : Bool := c.rdy i n && i.val n

def dataOut : BitVec 64 :=
  if c.rdy i .n1 then i.din .n1
  else if c.rdy i .n2 then i.din .n2
  else if c.rdy i .n3 then i.din .n3
  else 0

def creditNext (n : Net) : BitVec 9 :=
  if c.takes i n then if i.creditFromFpga n then c.credit n else c.credit n + 1
  else if i.creditFromFpga n then c.credit n - 1
  else c.credit n

def sel123Next : Option Net :=
  if c.takes i .n3 ∧ c.sel123 = some .n3 then some .n1
  else if c.takes i .n2 ∧ c.sel123 = some .n2 then some .n3
  else if c.takes i .n1 ∧ c.sel123 = some .n1 then some .n2
  else if c.credit .n1 < 255 ∧ c.credit .n2 < 255 ∧ c.credit .n3 < 255 ∧ c.sel123 = none then some .n1
  else c.sel123

def step : Chooser where
  credit := c.creditNext i
  selectReg := c.select i
  selectCounter := if c.select i = none then false else !c.selectCounter
  sel23 := if c.takes i .n3 then false else if c.takes i .n2 then true else c.sel23
  sel13 := if c.takes i .n3 then false else if c.takes i .n1 then true else c.sel13
  sel12 := if c.takes i .n2 then false else if c.takes i .n1 then true else c.sel12
  sel123 := c.sel123Next i

end Chooser

/-- What the channel carries in a cycle. -/
structure Beat where
  channel : Option Net
  data : BitVec 32
  deriving DecidableEq, Repr

/-- The `serial_buffer` registers of `chip_bridge_out`. -/
structure Serializer where
  data : BitVec 32 := 0
  dataF : BitVec 32 := 0
  channel : Option Net := none
  counter : Bool := true

namespace Serializer

variable (r : Serializer)

def beat : Beat := ⟨r.channel, r.dataF⟩

def step (channelToSerialBuffer : Option Net) (dataToSerialBuffer : BitVec 64) : Serializer :=
  if channelToSerialBuffer ≠ none ∧ r.counter = true then
    { dataF := dataToSerialBuffer.extractLsb' 0 32
      data := dataToSerialBuffer.extractLsb' 32 32
      channel := channelToSerialBuffer
      counter := false }
  else if r.channel ≠ none ∧ r.counter = false then { r with dataF := r.data, counter := true }
  else { r with channel := channelToSerialBuffer, counter := true }

end Serializer

/-- The two receivers of 32 bits. -/
inductive Kind
  | chipBridgeIn | fpgaBridgeRcv
  deriving DecidableEq, Repr

/-- The registers that put the halves of a flit together. -/
structure Receiver where
  channelBuffer : BitVec 32 := 0
  channelBufferCount : Bool := false
  bufferedChannel : Option Net := none

namespace Receiver

variable (kind : Kind) (r : Receiver) (b : Beat)

/-- `sort_val` and `sort_data` of the networks. -/
def sort : Option (Net × BitVec 64) :=
  if r.channelBufferCount ∧ (kind = .fpgaBridgeRcv → r.bufferedChannel = b.channel) then
    r.bufferedChannel.map fun n => (n, b.data ++ r.channelBuffer)
  else none

def step : Receiver :=
  match kind with
  | .chipBridgeIn =>
      if b.channel ≠ none then ⟨b.data, !r.channelBufferCount, b.channel⟩
      else { r with bufferedChannel := b.channel, channelBufferCount := false }
  | .fpgaBridgeRcv =>
      if !r.channelBufferCount ∧ b.channel ≠ none then ⟨b.data, !r.channelBufferCount, b.channel⟩
      else if r.channelBufferCount ∧ r.bufferedChannel = b.channel then
        { r with channelBufferCount := false, bufferedChannel := none }
      else r

end Receiver

/-- The receiver, the cycles that a beat takes to it and a credit takes back, with the registers in front
of them, and the depths of the buffers. -/
structure Cfg where
  kind : Kind
  latency : Nat
  creditLatency : Nat
  sourceDepth : Nat
  depth : Nat
  creditDepth : Nat
  depth_ge : 255 ≤ depth

/-- `chip_bridge_out`, the channel, a receiver and the way of the credits, with what went through them. The
buffers are queues. -/
structure Bridge where
  source : Net → List (BitVec 64)
  chooser : Chooser
  serializer : Serializer
  channel : List Beat
  receiver : Receiver
  fifo : Net → List (BitVec 64)
  creditFifo : List (Net → Bool)
  credits : List (Net → Bool)
  /-- The flits taken at the networks, those chosen, and those consumed. -/
  arrived : Net → List (BitVec 64)
  sent : Net → List (BitVec 64)
  consumed : Net → List (BitVec 64)
  /-- The credits that the chooser has seen. -/
  returned : Net → Nat

/-- A clock edge at the networks, of the channel, or at the consumer. An empty flag may stand longer than
its buffer is empty. -/
inductive Event
  | arrive (val : Net → Bool) (data : Net → BitVec 64)
  | tick (shown : Net → Bool) (creditShown : Bool)
  | consume (rdy : Net → Bool)

namespace Bridge

variable (cfg : Cfg) (s : Bridge)

/-- The way that a channel of any latency moves in a cycle. -/
def move {α : Type} (line : List α) (x : α) : α × List α := ((line ++ [x]).headD x, (line ++ [x]).tail)

def creditOut (creditShown : Bool) : Net → Bool :=
  if creditShown then s.creditFifo.headD fun _ => false else fun _ => false

def chooserIn (shown : Net → Bool) (creditShown : Bool) : ChooserIn where
  din n := (s.source n).headD 0
  val n := shown n && !(s.source n).isEmpty
  creditFromFpga := (move s.credits (s.creditOut creditShown)).1

def sorted : Option (Net × BitVec 64) := s.receiver.sort cfg.kind (move s.channel s.serializer.beat).1

/-- A clock edge of the channel. -/
def tick (shown : Net → Bool) (creditShown : Bool) : Bridge :=
  let i := s.chooserIn shown creditShown
  { s with
    source := fun n => if s.chooser.takes i n then (s.source n).tail else s.source n
    chooser := s.chooser.step i
    serializer := s.serializer.step (s.chooser.select i) (s.chooser.dataOut i)
    channel := (move s.channel s.serializer.beat).2
    receiver := s.receiver.step cfg.kind (move s.channel s.serializer.beat).1
    fifo := fun n =>
      s.fifo n ++ (((s.sorted cfg).filter fun p => p.1 = n ∧ (s.fifo n).length < cfg.depth).map Prod.snd).toList
    creditFifo := if creditShown then s.creditFifo.tail else s.creditFifo
    credits := (move s.credits (s.creditOut creditShown)).2
    sent := fun n => s.sent n ++ if s.chooser.takes i n then [i.din n] else []
    returned := fun n => s.returned n + (i.creditFromFpga n).toNat }

def creditGather (rdy : Net → Bool) (n : Net) : Bool :=
  rdy n && (!(s.fifo n).isEmpty && decide (s.creditFifo.length < cfg.creditDepth))

def step : Event → Bridge
  | .arrive val data =>
      { s with
        source := fun n => s.source n ++ if val n && decide ((s.source n).length < cfg.sourceDepth) then [data n] else []
        arrived := fun n => s.arrived n ++ if val n && decide ((s.source n).length < cfg.sourceDepth) then [data n] else [] }
  | .tick shown creditShown => s.tick cfg shown creditShown
  | .consume rdy =>
      { s with
        fifo := fun n => if s.creditGather cfg rdy n then (s.fifo n).tail else s.fifo n
        creditFifo := s.creditFifo ++
          if s.creditGather cfg rdy .n1 || s.creditGather cfg rdy .n2 || s.creditGather cfg rdy .n3 then
            [s.creditGather cfg rdy] else []
        consumed := fun n => s.consumed n ++ if s.creditGather cfg rdy n then (s.fifo n).take 1 else [] }

/-- The state after reset: nothing on the channels. -/
structure Init : Prop where
  source : ∀ n, s.source n = []
  chooser : s.chooser = {}
  serializer : s.serializer = {}
  channel : ∃ data : List (BitVec 32), s.channel = data.map (Beat.mk none) ∧ data.length = cfg.latency
  receiver : s.receiver.channelBufferCount = false
  fifo : ∀ n, s.fifo n = []
  creditFifo : s.creditFifo = []
  credits : s.credits = List.replicate cfg.creditLatency fun _ => false
  arrived : ∀ n, s.arrived n = []
  sent : ∀ n, s.sent n = []
  consumed : ∀ n, s.consumed n = []
  returned : ∀ n, s.returned n = 0

end Bridge

/-- The delivery up to a state: what was taken is sent in order, what was sent arrives in order at its own
network, and the credits are the flits sent and not yet accounted for. -/
structure Delivery (s : Bridge) : Prop where
  sent : ∀ n, s.arrived n = s.sent n ++ s.source n
  received : ∀ n, s.consumed n ++ s.fifo n <+: s.sent n
  credit : ∀ n, (s.sent n).length = s.returned n + (s.chooser.credit n).toNat
  credit_le : ∀ n, (s.chooser.credit n).toNat ≤ 255
  fifo_le : ∀ n, (s.fifo n).length ≤ (s.chooser.credit n).toNat

def Event.isTick : Event → Bool
  | .tick _ _ => true
  | _ => false

end OpenPiton.ChipBridge
