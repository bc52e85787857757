import OpenPiton.Lib.Chunks
import OpenPiton.Lib.Machine
import OpenPiton.Noc3.Receiving

namespace OpenPiton.Noc2

open L15 (Word)
open Noc1 (Flit fieldLength)
open Noc3 (Width LineSize)

/-- `mode_in`: how many words of the header and how many of the data are sent. -/
inductive Mode
  | m0H0D | m1H0D | m1H1D | m1H2D | m3H0D | m3H1D | m3H2D | m0H2D | m1H8D | m3H8D | m1H4D
  deriving DecidableEq, Repr

namespace Mode

def bufRdFlits (parallelSrams : Bool) : Mode → Nat
  | .m1H0D => 1
  | .m1H1D => 2
  | .m1H2D => 3
  | .m3H0D => 3
  | .m3H1D => 4
  | .m3H2D => 5
  | .m0H2D => 2
  | .m1H8D => if parallelSrams then 9 else 0
  | .m3H8D => if parallelSrams then 11 else 0
  | .m1H4D => if parallelSrams then 5 else 0
  | .m0H0D => 0

/-- The words of `data_in` that go to the buffer. -/
def words (parallelSrams : Bool) (d : List Word) : Mode → List Word
  | .m1H0D => Noc3.slice d 0 1
  | .m1H1D => Noc3.slice d 0 1 ++ Noc3.slice d 3 1
  | .m1H2D => Noc3.slice d 0 1 ++ Noc3.slice d 3 2
  | .m3H0D => Noc3.slice d 0 3
  | .m3H1D => Noc3.slice d 0 4
  | .m3H2D => Noc3.slice d 0 5
  | .m0H2D => Noc3.slice d 3 2
  | .m1H8D => if parallelSrams then Noc3.slice d 0 1 ++ Noc3.slice d 3 8 else []
  | .m3H8D => if parallelSrams then Noc3.slice d 0 11 else []
  | .m1H4D => if parallelSrams then Noc3.slice d 0 1 ++ Noc3.slice d 3 4 else []
  | .m0H0D => []

theorem length_words (p : Bool) (d : List Word) (m : Mode) : (m.words p d).length = m.bufRdFlits p := by
  cases m <;> cases p <;> rfl

theorem bufRdFlits_le (p : Bool) (m : Mode) : m.bufRdFlits p ≤ 11 := by
  cases m <;> cases p <;> decide

end Mode

def bufOutSize : Nat := 16

inductive FlitType
  | header | body
  deriving DecidableEq, Repr

/-- The registers of `l2_pipe1_buf_out`. -/
structure BufOut where
  buf : Fifo Word := { mem := fun _ => 0 }
  flitType : FlitType := .header
  remain : Nat := 0

namespace BufOut

variable (w : Width) (p : Bool) (b : BufOut)

def readyIn (m : Mode) : Bool := b.buf.counter ≤ bufOutSize - m.bufRdFlits p

def lengthIn : Nat := (fieldLength (b.buf.mem b.buf.rdPtr)).toNat

/-- `length_in` at the header and `remain` in the body. -/
def ahead : Nat :=
  match b.flitType with
  | .header => b.lengthIn
  | .body => b.remain

def validOut : Bool :=
  if b.ahead < w.words then b.ahead < b.buf.counter else w.words ≤ b.buf.counter

def rdPtrIncr (readyOut : Bool) : Nat :=
  if b.validOut w && readyOut then if b.ahead < w.words then b.ahead + 1 else w.words else 0

def dataOut (readyOut : Bool) : Flit :=
  (List.range w.words).map fun k =>
    if k = 0 ∨ k < b.rdPtrIncr w readyOut then b.buf.mem ((b.buf.rdPtr + k) % bufOutSize) else 0

def step (m : Option Mode) (d : List Word) (readyOut : Bool) : BufOut where
  buf :=
    Noc3.BufIn.fifoNext bufOutSize b.buf
      (((m.filter (b.readyIn p)).map (Mode.words p d)).getD []) (b.rdPtrIncr w readyOut)
  flitType :=
    if b.validOut w && readyOut then if b.ahead < w.words then .header else .body else b.flitType
  remain :=
    if b.validOut w && readyOut && decide (w.words ≤ b.ahead) then b.ahead - w.words else b.remain

end BufOut

inductive SnbState
  | idle | receiving | waitingAck | waitingAckRst
  deriving DecidableEq, Repr

/-- The registers of `simplenocbuffer`. -/
structure Snb where
  state : SnbState := .idle
  index : Nat := 0
  lenCaptured : Nat := 0
  buffer : Nat → Flit := fun _ => []

/-- `NOC2_MAX_FLIT_NUMBER`. -/
def maxFlitNumber (line : LineSize) : Nat := if 4 < line.maxDataPackets then line.maxDataPackets + 1 else 4 + 1

def buffDepth (w : Width) (line : LineSize) : Nat :=
  maxFlitNumber line / w.words + if 0 < maxFlitNumber line % w.words then 1 else 0

/-- `INDEX_WIDTH`: the bits of the last index, at least one. -/
def indexWidth (w : Width) (line : LineSize) : Nat := Nat.log2 (buffDepth w line - 1) + 1

namespace Snb

variable (w : Width) (line : LineSize) (n : Snb)

def nocInRdy : Bool := n.state == .idle || n.state == .receiving

def msgVal : Bool := n.state == .waitingAck

/-- `msg`, low word first. -/
def msg : List Word := (List.range (maxFlitNumber line)).map fun j => (n.buffer (j / w.words)).word (j % w.words)

/-- `enable[k]` writes the slots that exist. -/
def write (k : Nat) (f : Flit) : Nat → Flit :=
  if k < buffDepth w line then Function.update n.buffer k f else n.buffer

/-- The flit counted, with others of the message to come. -/
def counted : Snb :=
  { n with
    state := .receiving
    index := (n.index + 1) % 2 ^ indexWidth w line
    lenCaptured := (n.lenCaptured + w.words) % 256 }

def step (f : Option Flit) (msgAck : Bool) : Snb :=
  match n.state, f with
  | .idle, none => n
  | .idle, some f =>
      let n' := { n with buffer := n.write w line 0 f }
      if (fieldLength (f.word 0)).toNat < w.words then { n' with state := .waitingAck } else n'.counted w line
  | .receiving, none => n
  | .receiving, some f =>
      let n' := { n with buffer := n.write w line n.index f }
      if (fieldLength ((n.buffer 0).word 0)).toNat ≤ n.lenCaptured then { n' with state := .waitingAck }
      else n'.counted w line
  | .waitingAck, _ => if msgAck then { n with state := .waitingAckRst, index := 0, lenCaptured := 0 } else n
  | .waitingAckRst, _ => if msgAck then n else { n with state := .idle }

end Snb

/-- `noc2decoder_l15_data`, word by word. -/
def decoderData (msg : List Word) (j : Nat) : Word :=
  let word (k : Nat) : Word := msg.getD k 0
  let length := (fieldLength (word 0)).toNat
  if length = 1 then word 1
  else if length = 2 then if j % 2 = 0 then word 1 else word 2
  else word (j + 1)

/-- `l2_pipe1_buf_out`, the flits under way to an L1.5 and its `simplenocbuffer`, with what was
written, sent and acknowledged so far. -/
structure Link where
  bufOut : BufOut := {}
  link : List Flit := []
  snb : Snb := {}
  /-- The words that the pipeline wrote. -/
  written : List Word := []
  sent : List Flit := []
  /-- The packet that is leaving goes to the L1.5. -/
  toL15 : Bool := false
  delivered : List (List Word) := []

/-- The inputs of a cycle: a mode and the words of the pipeline, the ready of the network, whether the
link offers its oldest flit, and `msg_ack`. -/
structure Input where
  mode : Option Mode := none
  data : List Word := []
  readyOut : Bool := true
  deliver : Bool := true
  msgAck : Bool := false

/-- The build: the width of the NoC, the SRAMs and the line of the L1.5, and the headers that the routers take to it. -/
structure Cfg where
  width : Width
  parallelSrams : Bool
  lineSize : LineSize
  routed : Word → Bool

namespace Link

variable (cfg : Cfg) (s : Link) (i : Input)

def fire : Bool := s.bufOut.validOut cfg.width && i.readyOut

def flit : Flit := s.bufOut.dataOut cfg.width i.readyOut

/-- A header finds its way, the flits behind it follow. -/
def routedNow : Bool :=
  match s.bufOut.flitType with
  | .header => cfg.routed ((s.flit cfg i).word 0)
  | .body => s.toL15

def offered : Option Flit := if i.deliver && s.snb.nocInRdy then s.link.head? else none

/-- The words taken from the pipeline. -/
def accepted : List Word := ((i.mode.filter (s.bufOut.readyIn cfg.parallelSrams)).map (Mode.words cfg.parallelSrams i.data)).getD []

def step : Link where
  bufOut := s.bufOut.step cfg.width cfg.parallelSrams i.mode i.data i.readyOut
  link :=
    (if (s.offered i).isSome then s.link.tail else s.link) ++
      (if s.fire cfg i && s.routedNow cfg i then [s.flit cfg i] else [])
  snb := s.snb.step cfg.width cfg.lineSize (s.offered i) i.msgAck
  written := s.written ++ s.accepted cfg i
  sent := s.sent ++ (if s.fire cfg i then [s.flit cfg i] else [])
  toL15 := if s.fire cfg i then s.routedNow cfg i else s.toL15
  delivered := s.delivered ++ (if s.snb.msgVal && i.msgAck then [s.snb.msg cfg.width cfg.lineSize] else [])

def Init (s : Link) : Prop := s = {}

end Link

/-- A packet: a header that says how many words follow it. -/
def Packet (l : List Word) : Prop := l.length = (fieldLength (l.getD 0 0)).toNat + 1

instance (l : List Word) : Decidable (Packet l) := inferInstanceAs (Decidable (_ = _))

/-- The flits of a packet. -/
def flits (w : Width) (l : List Word) : List Flit := (Chunks.pieces w.words l).map (Chunks.pad w.words 0)

/-- A packet of a length that `simplenocbuffer` counts right: one flit, or a header and data that fill
the flits. -/
def Fits (cfg : Cfg) (l : List Word) : Prop :=
  (l.length ≤ cfg.width.words ∨ cfg.width.words ∣ l.length - 1) ∧ l.length ≤ maxFlitNumber cfg.lineSize

instance (cfg : Cfg) (l : List Word) : Decidable (Fits cfg l) :=
  inferInstanceAs (Decidable ((_ ∨ _) ∧ l.length ≤ _))

/-- The message that the L1.5 reads begins with the words of the packet, and its decoder gives out the data. -/
def Reads (l msg : List Word) : Prop :=
  msg.take l.length = l ∧ ∀ j, j + 1 < l.length → decoderData msg j = l.getD (j + 1) 0

/-- The packets that go to the L1.5. -/
def Cfg.toL15 (cfg : Cfg) (ps : List (List Word)) : List (List Word) := ps.filter fun l => cfg.routed (l.getD 0 0)

/-- The words that the pipeline writes in a step go on with the packets. -/
def Link.Writes (cfg : Cfg) (ps : List (List Word)) (s : Link) (i : Input) : Prop :=
  (s.step cfg i).written <+: ps.flatten

instance (cfg : Cfg) (ps : List (List Word)) (s : Link) (i : Input) : Decidable (s.Writes cfg ps i) :=
  inferInstanceAs (Decidable (_ <+: _))

/-- The packing round trip up to a state, for a pipeline that sends the packets `ps`. -/
structure RoundTrip (cfg : Cfg) (ps : List (List Word)) (s : Link) : Prop where
  sent : ∃ done queue, done <+: ps.flatMap (Chunks.pieces cfg.width.words) ∧
    s.sent = done.map (Chunks.pad cfg.width.words 0) ∧ s.written = done.flatten ++ queue ∧
    s.bufOut.buf.Holds bufOutSize queue
  /-- With nothing more to send, every flit of the packets written has left. -/
  sent_all : ∀ qs, qs <+: ps → s.written = qs.flatten → s.bufOut.validOut cfg.width = false →
    s.sent = qs.flatMap (flits cfg.width)
  delivered : ∃ qs, qs <+: cfg.toL15 ps ∧ List.Forall₂ Reads qs s.delivered
  delivered_all : ∀ qs, qs <+: ps → s.written = qs.flatten → s.bufOut.validOut cfg.width = false →
    s.link = [] → s.snb.state = .idle → List.Forall₂ Reads (cfg.toL15 qs) s.delivered

end OpenPiton.Noc2
