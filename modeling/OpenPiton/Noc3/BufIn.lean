import OpenPiton.Noc3.Encoder

namespace OpenPiton.Noc3

open L15 (Word)
open Noc1 (Flit fieldType fieldLength)

/-- `msg_data_state_f` of the 64-bit buffer. -/
inductive DataState
  | data0F | data2F | data4F | data8F
  deriving DecidableEq, Repr

/-- `ps_in` of the wider buffers. -/
inductive InState
  | ideal | wbSt1 | getData | getData2
  deriving DecidableEq, Repr

/-- The registers of the input machines: `msg_state_f` and `msg_data_state_f` at 64 bits, `ps_in` and
`remained_data_f` above. -/
structure Control where
  msgState : Nat := 0
  msgDataState : DataState := .data0F
  psIn : InState := .ideal
  remainedData : BitVec 8 := 0
  deriving DecidableEq, Repr

/-- What a flit brings once the buffers have room for it. -/
structure Accept where
  headers : List Word
  data : List Word
  next : Control
  deriving DecidableEq, Repr

/-- `n` words of a flit. -/
def slice (f : Flit) (start n : Nat) : List Word := (List.range n).map fun k => f.word (start + k)

def dataStateOf (length : BitVec 8) : DataState :=
  if length = 8 then .data8F
  else if length = 10 then .data8F
  else if length = 6 then .data4F
  else if length = 0 then .data0F
  else .data2F

namespace Control

variable (c : Control) (f : Flit)

def dataStateNext : DataState := if c.msgState = 0 then dataStateOf (fieldLength (f.word 0)) else c.msgDataState

def stateNext64 : Nat :=
  if c.msgState = 0 ∧ fieldType (f.word 0) ≠ msgTypeWbReq then
    if fieldLength (f.word 0) = 0 then 0 else 3
  else if c.msgState = 6 ∧ c.msgDataState = .data4F then 0
  else if c.msgState = 4 ∧ c.msgDataState = .data2F then 0
  else if c.msgState = 10 then 0
  else (c.msgState + 1) % 16

def accept64 : Accept where
  headers := if c.msgState ≤ 2 then [f.word 0] else []
  data := if c.msgState ≤ 2 then [] else [f.word 0]
  next := { c with msgState := c.stateNext64 f, msgDataState := c.dataStateNext f }

def accept128 : Option Accept :=
  match c.psIn with
  | .ideal =>
      if fieldType (f.word 0) ≠ msgTypeWbReq then
        if fieldLength (f.word 0) = 0 then some ⟨[f.word 0], [], c⟩
        else if fieldLength (f.word 0) = 1 then some ⟨[f.word 0], [f.word 1, f.word 1], c⟩
        else
          some ⟨[f.word 0], [f.word 1],
            { c with psIn := .getData, remainedData := fieldLength (f.word 0) - 1 }⟩
      else
        some ⟨[f.word 0, f.word 1], [],
          { c with psIn := .wbSt1, remainedData := fieldLength (f.word 0) - 1 }⟩
  | .wbSt1 =>
      some ⟨[f.word 0], [f.word 1], { c with psIn := .getData, remainedData := c.remainedData - 2 }⟩
  | .getData =>
      if 1 < c.remainedData then
        some ⟨[], [f.word 0, f.word 1],
          { c with
            psIn := if c.remainedData = 2 then .ideal else .getData
            remainedData := c.remainedData - 2 }⟩
      else some ⟨[], [f.word 0], { c with psIn := .ideal }⟩
  | .getData2 => none

def accept256 : Option Accept :=
  match c.psIn with
  | .ideal =>
      if fieldType (f.word 0) ≠ msgTypeWbReq then
        if fieldLength (f.word 0) = 0 then some ⟨[f.word 0], [], c⟩
        else if fieldLength (f.word 0) = 1 then some ⟨[f.word 0], slice f 1 2, c⟩
        else if fieldLength (f.word 0) = 2 then some ⟨[f.word 0], slice f 1 2, c⟩
        else if 3 < fieldLength (f.word 0) then
          some ⟨[f.word 0], slice f 1 3,
            { c with psIn := .getData, remainedData := fieldLength (f.word 0) - 3 }⟩
        else some ⟨[f.word 0], slice f 1 3, c⟩
      else
        some ⟨slice f 0 3, [f.word 3],
          { c with psIn := .getData, remainedData := fieldLength (f.word 0) - 3 }⟩
  | .getData =>
      if 3 < c.remainedData then
        some ⟨[], slice f 0 4,
          { c with
            psIn := if c.remainedData = 4 then .ideal else .getData
            remainedData := c.remainedData - 4 }⟩
      else if c.remainedData = 3 then some ⟨[], slice f 0 3, { c with psIn := .ideal }⟩
      else if c.remainedData = 2 then some ⟨[], slice f 0 2, { c with psIn := .ideal }⟩
      else some ⟨[], slice f 0 1, { c with psIn := .ideal }⟩
  | .wbSt1 | .getData2 => none

/-- A message of one header word that fits in its flit. -/
def acceptShort : Accept where
  headers := [f.word 0]
  data := slice f 1 (if fieldLength (f.word 0) = 1 then 2 else (fieldLength (f.word 0)).toNat)
  next := c

def accept512 (line : LineSize) : Option Accept :=
  match c.psIn with
  | .ideal =>
      if fieldType (f.word 0) ≠ msgTypeWbReq then
        if fieldLength (f.word 0) ≤ 7 then some (c.acceptShort f)
        else some ⟨[f.word 0], slice f 1 7, { c with psIn := .getData }⟩
      else
        match line with
        | .b16 => some ⟨slice f 0 3, slice f 3 2, c⟩
        | .b32 => some ⟨slice f 0 3, slice f 3 4, c⟩
        | .b64 => some ⟨slice f 0 3, slice f 3 5, { c with psIn := .getData2 }⟩
  | .getData => some ⟨[], slice f 0 1, { c with psIn := .ideal }⟩
  | .getData2 => some ⟨[], slice f 0 3, { c with psIn := .ideal }⟩
  | .wbSt1 => none

def accept576 (line : LineSize) : Option Accept :=
  match c.psIn with
  | .ideal =>
      if fieldType (f.word 0) ≠ msgTypeWbReq then
        if fieldLength (f.word 0) ≤ 8 then some (c.acceptShort f) else none
      else
        match line with
        | .b16 => some ⟨slice f 0 3, slice f 3 2, c⟩
        | .b32 => some ⟨slice f 0 3, slice f 3 4, c⟩
        | .b64 => some ⟨slice f 0 3, slice f 3 6, { c with psIn := .getData }⟩
  | .getData => some ⟨[], slice f 0 2, { c with psIn := .ideal }⟩
  | .wbSt1 | .getData2 => none

def accept704 (line : LineSize) : Option Accept :=
  if fieldType (f.word 0) ≠ msgTypeWbReq then
    if fieldLength (f.word 0) ≤ 8 then some (c.acceptShort f) else none
  else some ⟨slice f 0 3, slice f 3 line.maxDataPackets, c⟩

/-- The branch of the input machine that a valid flit is in. -/
def accept (cfg : Cfg) : Option Accept :=
  match cfg.width with
  | .w64 => some (c.accept64 f)
  | .w128 => c.accept128 f
  | .w256 => c.accept256 f
  | .w512 => c.accept512 f cfg.lineSize
  | .w576 => c.accept576 f cfg.lineSize
  | .w704 => c.accept704 f cfg.lineSize

/-- The registers after a flit that finds no room. -/
def stalled (cfg : Cfg) : Control :=
  if cfg.width = .w64 then { c with msgDataState := c.dataStateNext f } else c

end Control

def headerBufSize : Nat := 4

def dataBufSize : Nat := 16

/-- `header_buf_can_get_k` and `data_buf_can_get_k`. -/
def canGet (size counter k : Nat) : Bool :=
  match k with
  | 0 => true
  | 1 => counter != size
  | k + 2 => counter < size - (k + 1)

structure BufIn where
  ctrl : Control := {}
  header : Fifo Word := { mem := fun _ => 0 }
  data : Fifo Word := { mem := fun _ => 0 }
  /-- `message_out_length_s2`. -/
  messageOutLength : BitVec 8 := 0

namespace BufIn

variable (cfg : Cfg) (b : BufIn)

/-- The branch whose writes take place. -/
def taking (f : Flit) : Option Accept :=
  (b.ctrl.accept f cfg).filter fun a =>
    canGet headerBufSize b.header.counter a.headers.length && canGet dataBufSize b.data.counter a.data.length

def readyIn (f : Flit) : Bool := (b.taking cfg f).isSome

/-- `msg_header_flits`. -/
def headerFlits : Nat := if fieldType (b.header.mem b.header.rdPtr) = msgTypeWbReq then 3 else 1

/-- `msg_header_valid_out`. -/
def headerValid : Bool := b.header.counter != 0 && b.headerFlits ≤ b.header.counter

/-- `msg_header_out`, low word first. -/
def headerOut : List Word :=
  if b.headerFlits = 3 then
    [b.header.mem b.header.rdPtr, b.header.mem ((b.header.rdPtr + 1) % headerBufSize),
      b.header.mem ((b.header.rdPtr + 2) % headerBufSize)]
  else [b.header.mem b.header.rdPtr, 0, 0]

def dataRdPtrInc : Nat :=
  if cfg.parallelSrams then
    if b.messageOutLength = 1 then 2 else if 8 < b.messageOutLength then 8 else b.messageOutLength.toNat
  else 2

/-- `msg_data_valid_out`. -/
def dataValid : Bool := b.dataRdPtrInc cfg ≤ b.data.counter && b.dataRdPtrInc cfg != 0

/-- The words of `msg_data_out` that `msg_data_size_out` counts. The read index is not taken modulo
the size of the buffer. -/
def dataOut : List Word :=
  (List.range (b.dataRdPtrInc cfg)).map fun k =>
    if b.data.rdPtr + k < dataBufSize then b.data.mem (b.data.rdPtr + k) else 0

/-- A buffer after a cycle that writes `ws` and reads `k` words. -/
def fifoNext (size : Nat) (q : Fifo Word) (ws : List Word) (k : Nat) : Fifo Word where
  mem := Fifo.writeFrom size q.mem q.wrPtr ws
  rdPtr := (q.rdPtr + k) % size
  wrPtr := (q.wrPtr + ws.length) % size
  counter := q.counter + ws.length - k

def messageOutLengthNext : BitVec 8 :=
  if b.headerFlits = 3 then fieldLength (b.header.mem b.header.rdPtr) - 2
  else fieldLength (b.header.mem b.header.rdPtr)

/-- One clock: a flit on the input or none, and the ready inputs of the two outputs. -/
def step (flit : Option Flit) (headerReadyOut dataReadyOut : Bool) : BufIn where
  ctrl :=
    match flit with
    | some f => ((b.taking cfg f).map Accept.next).getD (b.ctrl.stalled f cfg)
    | none => b.ctrl
  header :=
    fifoNext headerBufSize b.header (((flit.bind (b.taking cfg)).map Accept.headers).getD [])
      (if b.headerValid && headerReadyOut then b.headerFlits else 0)
  data :=
    fifoNext dataBufSize b.data (((flit.bind (b.taking cfg)).map Accept.data).getD [])
      (if b.dataValid cfg && dataReadyOut then b.dataRdPtrInc cfg else 0)
  messageOutLength :=
    if b.headerValid && headerReadyOut then b.messageOutLengthNext else b.messageOutLength

end BufIn

end OpenPiton.Noc3
