import OpenPiton.Lib.Fifo
import OpenPiton.Noc1.Encoder

namespace OpenPiton.Noc1

open L15 (Word)

def fieldType (word : Word) : BitVec 8 := word.extractLsb' 14 8

def fieldLength (word : Word) : BitVec 8 := word.extractLsb' 22 8

theorem fieldType_append (a : BitVec 14) (b c : BitVec 8) (d : BitVec 4) (l t m : BitVec 8) (o : BitVec 6) :
    fieldType (a ++ b ++ c ++ d ++ l ++ t ++ m ++ o) = t := by
  ext i hi
  simp only [fieldType, BitVec.getElem_extractLsb', BitVec.getLsbD_append]
  grind

theorem fieldLength_append (a : BitVec 14) (b c : BitVec 8) (d : BitVec 4) (l t m : BitVec 8) (o : BitVec 6) :
    fieldLength (a ++ b ++ c ++ d ++ l ++ t ++ m ++ o) = l := by
  ext i hi
  simp only [fieldLength, BitVec.getElem_extractLsb', BitVec.getLsbD_append]
  grind

def Flit.word (f : Flit) (k : Nat) : Word := f.getD k 0

/-- `msg_data_state_next` from the first word of a message. -/
def dataStateOf (word : Word) : Nat :=
  if fieldType word = msgTypeInterruptFwd then 1 else (fieldLength word - 2).toNat % 4

/-- `msg_state_f`, `msg_data_state_f` and `msg_int_state_f`. -/
structure Control where
  msgState : Nat := 0
  msgDataState : Nat := 0
  msgIntState : Nat := 0
  deriving DecidableEq, Repr

namespace Control

def isInterrupt (c : Control) (f : Flit) : Bool :=
  fieldType (f.word 0) == msgTypeInterruptFwd && c.msgState == 0

/-- `msg_data_state_next` with a valid flit. -/
def dataStateNext (c : Control) (f : Flit) : Nat :=
  if c.msgState = 0 then dataStateOf (f.word 0) else c.msgDataState

def headerMux (c : Control) : Bool := c.msgState == 0 || c.msgState == 1 || c.msgState == 2

def dataMux (w : Width) (c : Control) (f : Flit) : Bool :=
  match w with
  | .w64 => !c.headerMux
  | .w128 => (c.msgState == 2 && c.msgDataState != 0) || c.msgState == 3 || c.msgState == 4
  | .w256 => (c.msgState == 0 && c.dataStateNext f != 0) || c.msgState == 4
  | .w512 => c.dataStateNext f != 0

/-- The words a flit writes to the header buffer. -/
def headerIn (w : Width) (c : Control) (f : Flit) : List Word :=
  if c.headerMux then
    match w with
    | .w64 => [f.word 0]
    | .w128 => if c.msgState = 0 then [f.word 0, f.word 1] else [f.word 0]
    | .w256 | .w512 => [f.word 0, f.word 1, f.word 2]
  else []

/-- The words a flit writes to the data buffer. -/
def dataIn (w : Width) (c : Control) (f : Flit) : List Word :=
  if c.dataMux w f then
    match w with
    | .w64 => [f.word 0]
    | .w128 => [f.word 1]
    | .w256 => [f.word 3]
    | .w512 => if c.dataStateNext f = 2 then [f.word 3, f.word 4] else [f.word 3]
  else []

/-- What a write adds to `data_buf_counter_f`. -/
def dataIncr (w : Width) (c : Control) (f : Flit) : Nat :=
  if c.dataMux w f then
    match w with
    | .w64 | .w128 => 1
    | .w256 => if c.msgDataState = 2 then 2 else 1
    | .w512 => if c.dataStateNext f = 2 then 2 else 1
  else 0

/-- `msg_state_next` of a flit that is written. -/
def stateNext (w : Width) (c : Control) (f : Flit) : Nat :=
  match w with
  | .w64 =>
      if c.msgState = 2 ∧ c.msgDataState = 0 then 0
      else if c.msgState = 3 ∧ c.msgDataState = 1 then 0
      else if c.msgState = 4 then 0
      else (c.msgState + 1) % 8
  | .w128 =>
      if c.msgState = 2 ∧ c.msgDataState = 0 then 0
      else if c.msgState = 2 ∧ c.msgDataState = 1 then 0
      else if c.msgState = 4 then 0
      else (c.msgState + 2) % 8
  | .w256 => if c.dataStateNext f = 2 then (c.msgState + 4) % 8 else 0
  | .w512 => 0

/-- `msg_int_state_next` of a flit that is written. -/
def intStateNext (w : Width) (c : Control) (f : Flit) : Nat :=
  match w with
  | .w64 =>
      if c.isInterrupt f then 1
      else if c.msgIntState = 1 then 2
      else if c.msgIntState = 2 then 0
      else c.msgIntState
  | .w128 =>
      if c.isInterrupt f then 2
      else if c.msgIntState = 2 then 0
      else c.msgIntState
  | .w256 | .w512 => 0

def intStall (c : Control) (f : Flit) : Bool := c.isInterrupt f || c.msgIntState == 1

/-- The registers after a flit that is written. -/
def next (w : Width) (c : Control) (f : Flit) : Control where
  msgState := c.stateNext w f
  msgDataState := c.dataStateNext f
  msgIntState := c.intStateNext w f

/-- The registers after a flit that finds a buffer full. -/
def stalled (c : Control) (f : Flit) : Control := { c with msgDataState := c.dataStateNext f }

end Control

def headerBufSize : Width → Nat
  | .w64 | .w128 => 8
  | .w256 | .w512 => 9

def dataBufSize : Nat := 4

/-- The range of the pointers of the header buffer. -/
def headerPtrRange : Width → Nat
  | .w64 | .w128 => 8
  | .w256 | .w512 => 16

/-- A pointer of the header buffer moved by `k` words. -/
def headerPtrNext (w : Width) (ptr k : Nat) : Nat :=
  match w with
  | .w64 | .w128 => (ptr + k) % headerPtrRange w
  | .w256 | .w512 => if ptr = headerBufSize w - 3 then 0 else (ptr + 3) % headerPtrRange w

structure BufIn where
  ctrl : Control := {}
  header : Fifo Word := { mem := fun _ => 0 }
  data : Fifo Word := { mem := fun _ => 0 }

namespace BufIn

def headerFull (w : Width) (b : BufIn) : Bool :=
  match w with
  | .w64 => b.header.counter == headerBufSize w
  | .w128 => headerBufSize w - 1 ≤ b.header.counter
  | .w256 | .w512 => headerBufSize w ≤ b.header.counter

def dataFull (w : Width) (b : BufIn) : Bool :=
  match w with
  | .w64 => b.data.counter == dataBufSize
  | .w128 | .w256 | .w512 => dataBufSize - 1 ≤ b.data.counter

def realReadyIn (w : Width) (b : BufIn) (f : Flit) : Bool :=
  if b.ctrl.dataMux w f then
    if b.ctrl.headerMux then !b.dataFull w && !b.headerFull w else !b.dataFull w
  else !b.headerFull w

def readyIn (w : Width) (b : BufIn) (f : Flit) : Bool := b.realReadyIn w f && !b.ctrl.intStall f

/-- `msg_header_valid_out`. -/
def headerValid (b : BufIn) : Bool := 3 ≤ b.header.counter

/-- `msg_header_out`, low word first. -/
def headerOut (w : Width) (b : BufIn) : List Word :=
  [b.header.mem b.header.rdPtr, b.header.mem ((b.header.rdPtr + 1) % headerPtrRange w),
    b.header.mem ((b.header.rdPtr + 2) % headerPtrRange w)]

/-- `msg_data_valid_out`. -/
def dataValid (b : BufIn) : Bool := b.data.counter != 0

def dataOut (b : BufIn) : Word := b.data.mem b.data.rdPtr

/-- The header buffer after a cycle that writes `ws` and, with `pop`, reads three words. -/
def headerNext (w : Width) (h : Fifo Word) (ws : List Word) (pop : Bool) : Fifo Word where
  mem := Fifo.writeFrom (headerPtrRange w) h.mem h.wrPtr ws
  rdPtr := if pop then headerPtrNext w h.rdPtr 3 else h.rdPtr
  wrPtr := if ws = [] then h.wrPtr else headerPtrNext w h.wrPtr ws.length
  counter := h.counter + ws.length - if pop then 3 else 0

/-- The data buffer after a cycle that writes `ws`, counted as `incr`, and with `pop` reads one
word. -/
def dataNext (d : Fifo Word) (ws : List Word) (incr : Nat) (pop : Bool) : Fifo Word where
  mem := Fifo.writeFrom dataBufSize d.mem d.wrPtr ws
  rdPtr := if pop then (d.rdPtr + 1) % dataBufSize else d.rdPtr
  wrPtr := (d.wrPtr + ws.length) % dataBufSize
  counter := d.counter + incr - if pop then 1 else 0

/-- One clock: a flit on the input or none, and the ready inputs of the two outputs. -/
def step (w : Width) (b : BufIn) (flit : Option Flit) (headerReadyOut dataReadyOut : Bool) : BufIn :=
  let headerPop := b.headerValid && headerReadyOut
  let dataPop := b.dataValid && dataReadyOut
  match flit with
  | some f =>
      if b.realReadyIn w f then
        { ctrl := b.ctrl.next w f
          header := headerNext w b.header (b.ctrl.headerIn w f) headerPop
          data := dataNext b.data (b.ctrl.dataIn w f) (b.ctrl.dataIncr w f) dataPop }
      else
        { ctrl := b.ctrl.stalled f
          header := headerNext w b.header [] headerPop
          data := dataNext b.data [] 0 dataPop }
  | none =>
      { ctrl := b.ctrl
        header := headerNext w b.header [] headerPop
        data := dataNext b.data [] 0 dataPop }

end BufIn

end OpenPiton.Noc1
