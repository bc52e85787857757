import OpenPiton.NocAxi.Channels
import OpenPiton.NocAxi.Responses

namespace OpenPiton.NocAxi

/-- `noc_axi4_bridge_sram_data`. -/
structure SramData where
  mem : Nat → Line
  doutb : Line := 0

/-- A read in the cycle of a write has the old word. -/
def SramData.step (s : SramData) (wea : Bool) (addra addrb : Nat) (dina : Line) : SramData where
  mem := if wea then Function.update s.mem addra dina else s.mem
  doutb := s.mem addrb

/-- A header with the data behind it. -/
structure Request where
  header : Header
  data : Line

/-- A load, with the number of stores that the memory had done when the load was issued. -/
structure Load where
  header : Header
  since : Nat

/-- A load for which the memory was read, after so many stores. -/
structure Seen extends Load where
  seen : Nat

structure WriteBurst where
  burst : Axi.Burst
  id : Nat
  store : Request

structure ReadBurst where
  burst : Axi.Burst
  load : Load

/-- The transfers of a read burst. -/
structure ReadData (w : Nat) where
  id : Nat
  beats : List (BitVec (8 * 2 ^ w))
  load : Seen

/-- The memory behind the AXI bus and its write channels: it does the bursts in the order of their
addresses, each with the next transfers. Each entry is kept with the request it is for. -/
structure WritePort (w : Nat) where
  mem : Axi.Mem
  executed : List Request := []
  aws : List WriteBurst := []
  ws : List (Axi.Beat w) := []
  /-- The stores done and not answered, by id. -/
  bs : Nat → List Request := fun _ => []

namespace WritePort

variable {w : Nat} (p : WritePort w)

def answer (id : Nat) : WritePort w := { p with bs := Function.update p.bs id (p.bs id).tail }

def execute : WritePort w :=
  match p.aws with
  | [] => p
  | e :: rest =>
      { mem := e.burst.write p.mem (p.ws.take (e.burst.len + 1))
        executed := p.executed ++ [e.store]
        aws := rest
        ws := p.ws.drop (e.burst.len + 1)
        bs := Function.update p.bs e.id (p.bs e.id ++ [e.store]) }

def takeAw (e : WriteBurst) : WritePort w := { p with aws := p.aws ++ [e] }

def takeW (beat : Axi.Beat w) : WritePort w := { p with ws := p.ws ++ [beat] }

end WritePort

/-- The read channels of the memory: it does the bursts of an id in order and sends the transfers of
one burst before those of another. -/
structure ReadPort (w : Nat) where
  ars : Nat → List ReadBurst := fun _ => []
  rs : List (ReadData w) := []
  /-- The transfers sent of the first burst. -/
  sent : Nat := 0

namespace ReadPort

variable {w : Nat} (p : ReadPort w)

/-- The transfer on the read channel. -/
def beat : Option (ReadBeat w) :=
  p.rs.head?.bind fun r => r.beats[p.sent]?.map fun data => ⟨r.id, data, p.sent + 1 == r.beats.length⟩

def answer : ReadPort w :=
  match p.rs with
  | [] => p
  | r :: rs => if p.sent + 1 = r.beats.length then { p with rs := rs, sent := 0 } else { p with sent := p.sent + 1 }

def execute (executed id : Nat) (beats : List (BitVec (8 * 2 ^ w))) : ReadPort w :=
  match p.ars id with
  | [] => p
  | e :: rest =>
      { p with
        ars := Function.update p.ars id rest
        rs := p.rs ++ [⟨id, beats, ⟨e.load, executed⟩⟩] }

def takeAr (id : Nat) (e : ReadBurst) : ReadPort w := { p with ars := Function.update p.ars id (p.ars id ++ [e]) }

end ReadPort

/-- `noc_axi4_bridge` between its queues and the AXI slave, with the requests that the registers of
the channels are for. -/
structure Bridge (w : Nat) where
  ex : Exchange
  sram : SramData
  wr : AxiWrite
  rd : AxiRead
  wp : WritePort w
  rp : ReadPort w
  received : List Request := []
  issued : List Request := []
  wrReq : Request := ⟨⟨0, 0, 0⟩, 0⟩
  rdReq : Load := ⟨⟨0, 0, 0⟩, 0⟩
  wrResp : Request := ⟨⟨0, 0, 0⟩, 0⟩
  rdResp : Seen := ⟨⟨⟨0, 0, 0⟩, 0⟩, 0⟩

/-- The deserializer, the serializer, and what the slave does in a cycle. -/
structure BridgeIn (w : Nat) where
  deser : Option Request := none
  serRdy : Bool := false
  awready : Bool := false
  wready : Bool := false
  arready : Bool := false
  bid : Option Nat := none
  rvalid : Bool := false
  execRead : Option (Nat × List (BitVec (8 * 2 ^ w))) := none
  execWrite : Bool := false

namespace Bridge

variable (c : BufferCfg) (a : AddrCfg) (s : Bridge a.datWidthUsedLog2) (i : BridgeIn a.datWidthUsedLog2)

def bufferIn : BufferIn where
  deser := i.deser.map Request.header
  readReqRdy := s.rd.reqRdy
  writeReqRdy := s.wr.reqRdy
  readResp := if s.rd.respVal then some s.rd.respIdF else none
  writeResp := if s.wr.respVal then some s.wr.respIdF else none
  serRdy := i.serRdy

def wdata : Line := s.sram.doutb

/-- The packet that waits for a channel. -/
def request : Request := ⟨s.ex.buf.reqHeader, s.wdata a⟩

def writeReq (st : Request) : WriteReq where
  addr := a.reqAddr st.header
  sizeLog := st.header.sizeLog
  id := c.axiId st.header
  data := a.writeReqData st.header st.data
  strb := a.writeReqStrb st.header

def readReq (h : Header) : ReadReq where
  addr := a.reqAddr h
  sizeLog := h.sizeLog
  id := c.axiId h

def writeIn : WriteIn where
  req := if s.ex.buf.writeReqVal c then some (writeReq c a (s.request a)) else none
  awready := i.awready
  wready := i.wready
  b := i.bid
  respRdy := s.ex.buf.writeRespRdy c (s.bufferIn a i)

def readIn : ReadIn a.datWidthUsedLog2 where
  req := if s.ex.buf.readReqVal c then some (readReq c a s.ex.buf.reqHeader) else none
  arready := i.arready
  r := if i.rvalid then s.rp.beat else none
  respRdy := s.ex.buf.readRespRdy c (s.bufferIn a i)

def writePort : WritePort a.datWidthUsedLog2 :=
  let answered := match s.wr.bgo (s.writeIn c a i) with
    | some id => s.wp.answer id
    | none => s.wp
  let executed := if i.execWrite then answered.execute else answered
  let addressed := if s.wr.awgo (s.writeIn c a i) then executed.takeAw ⟨s.wr.aw, s.wr.awid, s.wrReq⟩ else executed
  if s.wr.wgo (s.writeIn c a i) then addressed.takeW (s.wr.wBeat a) else addressed

def readPort : ReadPort a.datWidthUsedLog2 :=
  let answered := if (s.rd.rgo a (s.readIn c a i)).isSome then s.rp.answer else s.rp
  let executed := match i.execRead with
    | some (id, beats) => answered.execute s.wp.executed.length id beats
    | none => answered
  if s.rd.argo a (s.readIn c a i) then executed.takeAr s.rd.arid ⟨s.rd.ar, s.rdReq⟩ else executed

def step : Bridge a.datWidthUsedLog2 where
  ex := s.ex.step c (s.bufferIn a i)
  sram := s.sram.step (s.ex.buf.deserGo (s.bufferIn a i)) s.ex.buf.fifoIn s.ex.buf.fifoOut
    (i.deser.elim 0 Request.data)
  wr := s.wr.step a (s.writeIn c a i)
  rd := s.rd.step a (s.readIn c a i)
  wp := s.writePort c a i
  rp := s.readPort c a i
  received := if s.ex.buf.deserGo (s.bufferIn a i) then s.received ++ i.deser.toList else s.received
  issued := if s.ex.buf.reqGo c (s.bufferIn a i) then s.issued ++ [s.request a] else s.issued
  wrReq := if (s.wr.reqGo (s.writeIn c a i)).isSome then s.request a else s.wrReq
  rdReq :=
    if (s.rd.reqGo a (s.readIn c a i)).isSome then ⟨s.ex.buf.reqHeader, s.wp.executed.length⟩ else s.rdReq
  wrResp := match s.wr.bgo (s.writeIn c a i) with
    | some id => (s.wp.bs id).headD s.wrResp
    | none => s.wrResp
  rdResp :=
    if (s.rd.rgo a (s.readIn c a i)).any ReadBeat.last then (s.rp.rs.head?.map ReadData.load).getD s.rdResp
    else s.rdResp

/-- What a packet may ask for, and what a slave may do: it answers a store it has done, sends data it
has read, does a write burst when its transfers are there, and reads the bytes of the memory. -/
structure Honours : Prop where
  deser : ∀ req ∈ i.deser, req.header.Access
  bid : ∀ id ∈ i.bid, s.wp.bs id ≠ []
  execRead : ∀ id beats, i.execRead = some (id, beats) → ∃ e rest, s.rp.ars id = e :: rest ∧
    beats.length = e.burst.len + 1 ∧ e.burst.Serves s.wp.mem beats
  execWrite : i.execWrite = true → ∃ e rest, s.wp.aws = e :: rest ∧ e.burst.len < s.wp.ws.length

instance : Decidable (s.Honours a i) :=
  decidable_of_iff
    ((∀ req ∈ i.deser, req.header.Access) ∧ (∀ id ∈ i.bid, (s.wp.bs id).isEmpty = false) ∧
      (∀ read ∈ i.execRead, ∃ e ∈ (s.rp.ars read.1).head?, read.2.length = e.burst.len + 1 ∧
        e.burst.Serves s.wp.mem read.2) ∧
      (i.execWrite = true → ∃ e ∈ s.wp.aws.head?, e.burst.len < s.wp.ws.length)) <| by
    simp only [Option.mem_def, List.head?_eq_some_iff]
    constructor
    · rintro ⟨hdeser, hbid, hread, hwrite⟩
      refine ⟨hdeser, fun id hid => by simpa using hbid id hid, fun id beats hin => ?_, fun hexec => ?_⟩
      · obtain ⟨e, ⟨rest, he⟩, h⟩ := hread _ hin
        exact ⟨e, rest, he, h⟩
      · obtain ⟨e, ⟨rest, he⟩, h⟩ := hwrite hexec
        exact ⟨e, rest, he, h⟩
    · rintro ⟨hdeser, hbid, hread, hwrite⟩
      refine ⟨hdeser, fun id hid => by simpa using hbid id hid, fun read hin => ?_, fun hexec => ?_⟩
      · obtain ⟨e, rest, he, h⟩ := hread _ _ hin
        exact ⟨e, ⟨rest, he⟩, h⟩
      · obtain ⟨e, rest, he, h⟩ := hwrite hexec
        exact ⟨e, ⟨rest, he⟩, h⟩

/-- Reset, with any contents of the registers and of the memories that it leaves. -/
def Init (m : Axi.Mem) : Prop :=
  ∃ ex mem aw awid ar arid, ex.Init ∧ s = {
    ex := ex
    sram := { mem := mem }
    wr := { aw := aw, awid := awid }
    rd := { ar := ar, arid := arid }
    wp := { mem := m }
    rp := {} }

end Bridge

end OpenPiton.NocAxi
