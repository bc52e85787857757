import OpenPiton.Noc1.BufIn

namespace OpenPiton.Noc1

open L15 (Noc1Reqtype Word)

/-- A request at the encoder, from the noc1buffer or from the CSM. -/
inductive Request
  | buffer (r : BufferReq)
  | csm (r : CsmReq)
  deriving DecidableEq, Repr

/-- The message of a request; the destination fbits of a CSM request come from whatever address
the noc1buffer shows. -/
def Request.message (t : Tile) (bufferAddress : BitVec 40) : Request → Message
  | .buffer r => r.req.message t r.address
  | .csm r => (r.req t).message t bufferAddress

/-- `noc1encoder`, the flits on their way with their tail bits, and `l2_pipe1_buf_in`, with what
was sent, accepted and popped so far. -/
structure Link where
  encoder : Encoder := {}
  buffer : List {r : BufferReq // r.reqtype ≠ .none} := []
  csm : List {r : CsmReq // r.reqtype = .ldRequest} := []
  link : List (Flit × Bool) := []
  bufIn : BufIn := {}
  /-- The messages whose first flit has left, with their requests. -/
  sent : List (Request × Message) := []
  accepted : List Request := []
  headers : List (List Word) := []
  data : List Word := []
  /-- The tail flits that `l2_pipe1_buf_in` has taken. -/
  received : Nat := 0

/-- The inputs of a cycle: new requests, the fields the noc1buffer shows without a request, the
DMBR throttle, `noc1out_ready`, whether the link offers its oldest flit, and the ready inputs of
the L2 pipeline. -/
structure Input where
  newBuffer : Option {r : BufferReq // r.reqtype ≠ .none} := none
  newCsm : Option {r : CsmReq // r.reqtype = .ldRequest} := none
  idle : BufferReq := {}
  dmbrStall : Bool := false
  outReady : Bool := true
  deliver : Bool := true
  headerReadyOut : Bool := true
  dataReadyOut : Bool := true

namespace Link

/-- `valid_in` and `data_in`. -/
def offered (s : Link) (i : Input) : Option (Flit × Bool) := if i.deliver then s.link.head? else none

def taken (w : Width) (s : Link) (i : Input) : Option (Flit × Bool) :=
  (s.offered i).filter fun p => s.bufIn.readyIn w p.1

/-- The clock of `l2_pipe1_buf_in`. -/
def receive (w : Width) (s : Link) (i : Input) : Link :=
  { s with
    link := if (s.taken w i).isSome then s.link.tail else s.link
    bufIn := s.bufIn.step w ((s.offered i).map Prod.fst) i.headerReadyOut i.dataReadyOut
    headers :=
      if s.bufIn.headerValid && i.headerReadyOut then s.headers ++ [s.bufIn.headerOut w]
      else s.headers
    data := if s.bufIn.dataValid && i.dataReadyOut then s.data ++ [s.bufIn.dataOut] else s.data
    received := if ((s.taken w i).map Prod.snd).getD false then s.received + 1 else s.received }

def encoderIn (s : Link) (i : Input) : EncoderIn where
  bufferVal := !s.buffer.isEmpty
  buffer := (s.buffer.head?.map Subtype.val).getD i.idle
  csmVal := !s.csm.isEmpty
  csm := (s.csm.head?.map Subtype.val).getD {}
  outReady := i.outReady
  dmbrStall := i.dmbrStall

/-- The request the encoder selects. -/
def request (s : Link) (i : Input) : Request :=
  match s.encoder.reqSource (s.encoderIn i) with
  | .l15 => .buffer (s.encoderIn i).buffer
  | .csm => .csm (s.encoderIn i).csm

/-- The clock of `noc1encoder` and of the queues in front of it. -/
def send (w : Width) (t : Tile) (s : Link) (i : Input) : Link :=
  let ei := s.encoderIn i
  let e := s.encoder
  { s with
    encoder := e.step w t ei
    buffer := (if e.bufferAck w t ei then s.buffer.tail else s.buffer) ++ i.newBuffer.toList
    csm := (if e.csmAck w t ei then s.csm.tail else s.csm) ++ i.newCsm.toList
    link := if e.fire ei then s.link ++ [(e.flit w t ei, e.sendDone w t ei)] else s.link
    sent :=
      if e.fire ei && e.flitState == 0 then s.sent ++ [(s.request i, e.msg t ei)] else s.sent
    accepted :=
      if e.bufferAck w t ei || e.csmAck w t ei then s.accepted ++ [s.request i] else s.accepted }

def step (w : Width) (t : Tile) (s : Link) (i : Input) : Link := (s.receive w i).send w t i

/-- The states of the run over a stream of inputs. -/
def trace (w : Width) (t : Tile) (s : Link) (ins : Nat → Input) : Nat → Link
  | 0 => s
  | n + 1 => (trace w t s ins n).step w t (ins n)

/-- A request waits or a flit is under way. -/
def Pending (s : Link) : Prop := s.buffer ≠ [] ∨ s.csm ≠ [] ∨ s.link ≠ []

end Link

namespace Message

/-- The three words the L2 reads as the header of a message. An interrupt has one header flit,
which fills the places of the words it lacks. -/
def headerWords (w : Width) (m : Message) : List Word :=
  if m.length = 1 then
    match w with
    | .w64 => [m.header1, m.header1, m.header1]
    | _ => [m.header1, m.header2, m.header1]
  else [m.header1, m.header2, m.header3]

def dataWords (m : Message) : List Word :=
  match m.length with
  | 1 => [m.header2]
  | 3 => [m.data1]
  | 4 => [m.data1, m.data2]
  | _ => []

end Message

/-- The requests the two ends agree on at a width. -/
def Width.Carries (w : Width) (r : Noc1Reqtype) : Prop :=
  match w with
  | .w64 | .w128 => True
  | .w256 => r ≠ .interruptFwd ∧ r ≠ .casRequest
  | .w512 => r ≠ .interruptFwd

instance (w : Width) (r : Noc1Reqtype) : Decidable (w.Carries r) :=
  match w with
  | .w64 | .w128 => .isTrue trivial
  | .w256 => inferInstanceAs (Decidable (r ≠ .interruptFwd ∧ r ≠ .casRequest))
  | .w512 => inferInstanceAs (Decidable (r ≠ .interruptFwd))

def Input.Carried (w : Width) (i : Input) : Prop := ∀ r ∈ i.newBuffer, w.Carries r.1.reqtype

/-- The link and the L2 are ready, and the DMBR lets requests start. -/
structure Input.Ready (i : Input) : Prop where
  outReady : i.outReady = true
  deliver : i.deliver = true
  headerReadyOut : i.headerReadyOut = true
  dataReadyOut : i.dataReadyOut = true
  dmbrStall : i.dmbrStall = false

end OpenPiton.Noc1
