import OpenPiton.Noc3.Packets

namespace OpenPiton.Noc3

open L15 (Word)
open Noc1 (Flit)

/-- `noc3buffer`, `noc3encoder`, the flits on their way and `l2_pipe2_buf_in`, with what was taken,
sent and popped so far. -/
structure Link where
  buffer : Noc3Buffer := {}
  encoder : Encoder := {}
  link : List Flit := []
  bufIn : BufIn := {}
  /-- The requests acknowledged to the pipeline. -/
  taken : List Req := []
  /-- The requests that the encoder has acknowledged. -/
  done : List Req := []
  flits : List Flit := []
  headers : List (List Word) := []
  data : List Word := []
  /-- The request in the buffer came as a packet of one flit left, in the cycle before. -/
  replaced : Bool := false

/-- The inputs of a cycle: a request of the pipeline, `noc3out_ready`, whether the link offers its
oldest flit, and the ready inputs of the L2 pipeline. -/
structure Input where
  new : Option Req := none
  outReady : Bool := true
  deliver : Bool := true
  headerReadyOut : Bool := true
  dataReadyOut : Bool := true

namespace Link

variable (cfg : Cfg) (s : Link) (i : Input)

def encoderAck : Bool := s.encoder.reqAck cfg s.buffer.bufferVal s.buffer.req i.outReady

def l15ReqAck : Bool := s.buffer.l15ReqAck i.new (s.encoderAck cfg i)

/-- A flit leaves. -/
def fire : Bool := s.encoder.valOut cfg s.buffer.bufferVal s.buffer.req && i.outReady

/-- `valid_in` and `data_in` of the L2. -/
def offered : Option Flit := if i.deliver then s.link.head? else none

def accepted : Option Accept := (s.offered i).bind (s.bufIn.taking cfg)

def step : Link where
  buffer := s.buffer.step i.new (s.encoderAck cfg i)
  encoder := s.encoder.step cfg s.buffer.bufferVal s.buffer.req i.outReady
  link :=
    (if (s.accepted cfg i).isSome then s.link.tail else s.link) ++
      (if s.fire cfg i then [s.encoder.flit cfg s.buffer.req] else [])
  bufIn := s.bufIn.step cfg (s.offered i) i.headerReadyOut i.dataReadyOut
  taken := s.taken ++ (if s.l15ReqAck cfg i then i.new.toList else [])
  done := s.done ++ (if s.encoderAck cfg i then [s.buffer.req] else [])
  flits := s.flits ++ (if s.fire cfg i then [s.encoder.flit cfg s.buffer.req] else [])
  headers := s.headers ++ (if s.bufIn.headerValid && i.headerReadyOut then [s.bufIn.headerOut] else [])
  data := s.data ++ (if s.bufIn.dataValid cfg && i.dataReadyOut then s.bufIn.dataOut cfg else [])
  replaced := s.encoderAck cfg i && s.encoder.flitState == 0 && s.l15ReqAck cfg i

def Init (s : Link) : Prop := s = {}

end Link

/-- The first flit of the request holds data words. -/
def Req.FirstData (cfg : Cfg) (r : Req) : Prop := r.dataPtr < cfg.width.words ∧ r.dataPtr ≤ r.msgLength cfg

instance (cfg : Cfg) (r : Req) : Decidable (r.FirstData cfg) :=
  inferInstanceAs (Decidable (r.dataPtr < cfg.width.words ∧ r.dataPtr ≤ r.msgLength cfg))

/-- With the SRAMs in series, the link does not take the first flit of a request with data in it in
the cycle after `noc3buffer` has taken the request over from a packet of one flit. -/
def Link.Spaced (cfg : Cfg) (s : Link) (i : Input) : Prop :=
  cfg.parallelSrams = false → s.replaced = true → s.buffer.req.FirstData cfg → i.outReady = false

/-- The flits of a packet of the request, or the first of them. -/
def Part (cfg : Cfg) (r : Req) (fs : List Flit) : Prop :=
  ∀ k f, fs[k]? = some f → Carries cfg r (k * cfg.width.words) f

/-- A whole packet. -/
def Packet (cfg : Cfg) (r : Req) (fs : List Flit) : Prop :=
  Part cfg r fs ∧ fs.length = r.msgLength cfg / cfg.width.words + 1

/-- The three words the L2 reads as the header of a request. -/
def Req.headerOut (cfg : Cfg) (r : Req) : List Word :=
  if r.isRequest then [r.header1 cfg, r.header2, cfg.header3] else [r.header1 cfg, 0, 0]

/-- The request in `noc3buffer`. -/
def Noc3Buffer.pending (b : Noc3Buffer) : List Req := if b.bufferVal then [b.req] else []

/-- The NOC3 round trip up to a state. -/
structure RoundTrip (cfg : Cfg) (s : Link) : Prop where
  acks : s.taken = s.done ++ s.buffer.pending
  packets : ∃ packets cur, s.flits = packets.flatten ++ cur ∧ List.Forall₂ (Packet cfg) s.done packets ∧
    (cur = [] ∨ ∃ r ∈ s.buffer.pending, Part cfg r cur ∧ cur.length < r.msgLength cfg / cfg.width.words + 1)
  headers : s.headers <+: s.taken.map (Req.headerOut cfg)
  data : s.data <+: s.taken.flatMap (Req.dataWords cfg)
  drained : s.buffer.bufferVal = false → s.link = [] → s.bufIn.headerValid = false →
    s.bufIn.data.counter = 0 →
    s.headers = s.taken.map (Req.headerOut cfg) ∧ s.data = s.taken.flatMap (Req.dataWords cfg)

end OpenPiton.Noc3
