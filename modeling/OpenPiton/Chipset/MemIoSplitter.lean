import OpenPiton.Common.Mergers

namespace OpenPiton.Chipset

open L15 (Word)
open Noc1 (fieldLength)

/-- `msg_state_inval` to `msg_state_data` -/
inductive MsgState
  | inval | header0 | header1 | header2 | data
  deriving DecidableEq, Repr

/-- `msg_dest_inval` to `msg_dest_mem`, and the sources by the same names. -/
inductive MsgEnd
  | inval | io | mem
  deriving DecidableEq, Repr

/-- The builds that differ in `noc2_splitter_buf0_dest_next`: `PITONSYS_NO_MC`, `PITON_FPGA_BRAM_TEST` and neither of
them under `PITON_PROTO`, and without it. -/
inductive Build
  | noMc | bramTest | proto | plain
  deriving DecidableEq

/-- The upper 28 bits of `MSG_ADDR`. -/
def uartAddr (word : Word) : Bool := word.extractLsb' 28 28 == 0xfff0c2c#28

/-- The top bit of `MSG_ADDR`. -/
def ioAddr (word : Word) : Bool := word.getLsbD 55

def destNext (build : Build) (uartBootEn : Bool) (word : Word) : MsgEnd :=
  match build with
  | .noMc => .io
  | .bramTest => if uartBootEn then .io else if ioAddr word then .io else .mem
  | .proto => if uartBootEn then if uartAddr word then .io else .mem else if ioAddr word then .io else .mem
  | .plain => if uartAddr word then .io else .mem

theorem destNext_ne_inval (build : Build) (uartBootEn : Bool) (word : Word) : destNext build uartBootEn word ≠ .inval := by
  cases build with
  | noMc => exact MsgEnd.noConfusion
  | bramTest | proto | plain =>
      simp only [destNext]
      grind

/-- A flit with the value of `uart_boot_en` in the cycle in which it was taken. -/
structure Taken where
  word : Word
  boot : Bool
  deriving DecidableEq

/-- The registers that follow the packets taken: `noc2_splitter_msg_state_f`, `noc2_splitter_msg_counter_f` and
`noc2_splitter_buf0_dest_f`. -/
structure Parse where
  state : MsgState := .inval
  counter : BitVec 8 := 0
  dest : MsgEnd := .inval

namespace Parse

def stateNext (p : Parse) : MsgState :=
  match p.state with
  | .inval => .header0
  | .header0 => .header1
  | .header1 => .header2
  | .header2 | .data => if p.counter = 0 then .header0 else .data

/-- The registers after a flit. -/
def next (build : Build) (p : Parse) (a : Taken) : Parse where
  state := p.stateNext
  counter := if p.stateNext = .header0 then fieldLength a.word else p.counter - 1
  dest :=
    if p.stateNext = .header0 then .inval
    else if p.stateNext = .header1 then destNext build a.boot a.word
    else p.dest

end Parse

/-- The NOC2 side of `mem_io_splitter`, with the flits it has taken, and those it has sent with their destinations. -/
@[ext] structure MemIoSplitter where
  parse : Parse := {}
  buf0Data : Word := 0
  buf0State : MsgState := .inval
  buf1Data : Word := 0
  buf1State : MsgState := .inval
  buf1Dest : MsgEnd := .inval
  taken : List Taken := []
  sent : List (MsgEnd × Word) := []

structure MemIoSplitterIn where
  noc2Val : Bool
  noc2Data : Word
  uartBootEn : Bool
  ioRdy : Bool
  memRdy : Bool
  deriving DecidableEq

namespace MemIoSplitter

variable (build : Build) (s : MemIoSplitter) (i : MemIoSplitterIn)

def buf1Val : Bool := s.buf1State != .inval

/-- `memio_splitter_rdy_mux_sel` -/
def rdyMuxSel : MsgEnd :=
  if s.buf1Dest ≠ .inval then s.buf1Dest
  else if s.buf0State = .header1 then s.parse.dest
  else .inval

/-- `splitter_io_val` and `splitter_mem_val` -/
def val (d : MsgEnd) : Bool := s.buf1Val && s.rdyMuxSel == d

def rdyMuxOut : Bool :=
  match s.rdyMuxSel with
  | .io => i.ioRdy
  | .mem => i.memRdy
  | .inval => false

def stallBuf1 : Bool := s.buf1Val && !s.rdyMuxOut i

def stallBuf0 : Bool := s.stallBuf1 i && s.buf0State != .inval

/-- `splitter_noc2_rdy` -/
def noc2Rdy : Bool := !s.stallBuf0 i

def go : Bool := i.noc2Val && s.noc2Rdy i

/-- What a destination takes in this cycle. -/
def delivers : List (MsgEnd × Word) :=
  if s.val .io && i.ioRdy then [(.io, s.buf1Data)] else if s.val .mem && i.memRdy then [(.mem, s.buf1Data)] else []

def step : MemIoSplitter where
  parse := if s.go i then s.parse.next build ⟨i.noc2Data, i.uartBootEn⟩ else s.parse
  buf0Data := if s.stallBuf0 i then s.buf0Data else i.noc2Data
  buf0State := if s.stallBuf0 i then s.buf0State else if s.go i then s.parse.stateNext else .inval
  buf1Data := if s.stallBuf1 i then s.buf1Data else s.buf0Data
  buf1State := if s.stallBuf1 i then s.buf1State else s.buf0State
  buf1Dest := if s.stallBuf1 i then s.buf1Dest else s.parse.dest
  taken := s.taken ++ if s.go i then [⟨i.noc2Data, i.uartBootEn⟩] else []
  sent := s.sent ++ s.delivers i

end MemIoSplitter

end OpenPiton.Chipset
