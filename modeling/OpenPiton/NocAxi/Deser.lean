import OpenPiton.NocAxi.Packet
import Mathlib.Logic.Function.Basic

namespace OpenPiton.NocAxi

/-- `PITON_NOC2_WIDTH`. -/
inductive NocWidth
  | w64 | w128 | w256 | w512 | w704
  deriving DecidableEq, Repr

/-- `NOC_WORD_NUM`. -/
def NocWidth.wordNum : NocWidth → Nat
  | .w64 => 1
  | .w128 => 2
  | .w256 => 4
  | .w512 => 8
  | .w704 => 11

/-- The words of a flit, low word first. -/
abbrev Flit := Nat → Word

inductive DeserState
  | acceptW1 | acceptW2 | acceptW3 | acceptData | send
  deriving DecidableEq, Repr

/-- The registers of `noc_axi4_bridge_deser`. -/
structure Deser where
  pktW1 : Word := 0
  pktW2 : Word := 0
  pktW3 : Word := 0
  remainingFlits : Nat := 0
  state : DeserState := .acceptW1
  datFlit : Nat := 0
  dataOut : Nat → Word := fun _ => 0

structure DeserIn where
  flitInVal : Bool
  flitIn : Flit
  phyInitDone : Bool := true
  outRdy : Bool

def DeserIn.msgLen (i : DeserIn) : Nat := ((i.flitIn 0).extractLsb' 22 8).toNat

namespace Deser

variable (w : NocWidth) (swapEndianess : Bool) (s : Deser) (i : DeserIn)

def flitInRdy : Bool := s.state != .send && i.phyInitDone

def flitInGo : Bool := i.flitInVal && s.flitInRdy i

def outVal : Bool := s.state == .send

def headerOut : Header := ⟨s.pktW1, s.pktW2, s.pktW3⟩

/-- The header that gives the access size: a first flit wider than it holds all of it. -/
def headerIn : Header :=
  if 192 < 64 * w.wordNum ∧ s.state = .acceptW1 then ⟨i.flitIn 0, i.flitIn 1, i.flitIn 2⟩ else s.headerOut

def dataSwapped (k : Nat) : Word :=
  if swapEndianess then swapData (i.flitIn k) (s.headerIn w i).sizeLog else i.flitIn k

/-- Writes of words of the flit to `data_out`: where, and which word; the indexes have three bits. -/
def store (at_ : List (Nat × Nat)) : Nat → Word :=
  at_.foldl (fun d a => Function.update d (a.1 % 8) (s.dataSwapped w swapEndianess i a.2)) s.dataOut

/-- `remaining_flits` behind a flit of `NOC_WORD_NUM` words. -/
def remainingNext : Nat := if s.remainingFlits > w.wordNum then s.remainingFlits - w.wordNum else 0

/-- `remaining_flits` behind the first flit. -/
def remainingFirst : Nat := if i.msgLen > 2 * w.wordNum - 1 then i.msgLen - (2 * w.wordNum - 1) else 0

/-- A flit of data ends the packet or counts down. -/
def countData (remainingFlits datFlit : Nat) : Deser :=
  if s.remainingFlits = 0 then { s with state := .send }
  else { s with state := .acceptData, remainingFlits := remainingFlits, datFlit := datFlit % 8 }

def step64 : Deser :=
  match s.state with
  | .acceptW1 =>
      if s.flitInGo i then
        { s with
          state := .acceptW2
          remainingFlits := (i.msgLen + 255) % 256
          pktW1 := i.flitIn 0
          datFlit := 0
          dataOut := fun _ => 0 }
      else s
  | .acceptW2 =>
      if s.flitInGo i then
        { s with state := .acceptW3, remainingFlits := (s.remainingFlits + 255) % 256, pktW2 := i.flitIn 0 }
      else s
  | .acceptW3 =>
      if s.flitInGo i then
        if s.remainingFlits = 0 then { s with state := .send, pktW3 := i.flitIn 0 }
        else
          { s with
            state := .acceptData
            remainingFlits := (s.remainingFlits + 255) % 256
            pktW3 := i.flitIn 0 }
      else s
  | .acceptData =>
      let s' := if s.flitInGo i then s.countData ((s.remainingFlits + 255) % 256) (s.datFlit + 1) else s
      if i.flitInVal then { s' with dataOut := s.store .w64 swapEndianess i [(s.datFlit, 0)] } else s'
  | .send => if i.outRdy then { s with state := .acceptW1 } else s

def step128 : Deser :=
  match s.state with
  | .acceptW1 =>
      if s.flitInGo i then
        { s with
          state := .acceptW3
          remainingFlits := remainingFirst .w128 i
          pktW1 := i.flitIn 0
          pktW2 := i.flitIn 1
          datFlit := 0
          dataOut := fun _ => 0 }
      else s
  | .acceptW2 => s  -- not a state of this width
  | .acceptW3 =>
      if s.flitInGo i then
        if s.remainingFlits = 0 then { s with state := .send, pktW3 := i.flitIn 0 }
        else
          { s with
            state := .acceptData
            remainingFlits := s.remainingNext .w128
            dataOut := s.store .w128 swapEndianess i [(s.datFlit, 1)]
            pktW3 := i.flitIn 0 }
      else s
  | .acceptData =>
      let s' := if s.flitInGo i then s.countData (s.remainingNext .w128) (s.datFlit + 2) else s
      if i.flitInVal then
        { s' with dataOut := s.store .w128 swapEndianess i [(s.datFlit + 1, 0), (s.datFlit + 2, 1)] }
      else s'
  | .send => if i.outRdy then { s with state := .acceptW1 } else s

def step256 : Deser :=
  match s.state with
  | .acceptW1 =>
      let s' :=
        if s.flitInGo i then
          { s with
            state := if i.msgLen > NocWidth.w256.wordNum - 1 then .acceptData else .send
            remainingFlits := remainingFirst .w256 i
            pktW1 := i.flitIn 0
            pktW2 := i.flitIn 1
            pktW3 := i.flitIn 2
            datFlit := 0 }
        else s
      if i.flitInVal then
        { s' with dataOut := Function.update (fun _ => 0) 0 (s.dataSwapped .w256 swapEndianess i 3) }
      else s'
  | .acceptW2 | .acceptW3 => s  -- not states of this width
  | .acceptData =>
      let s' := if s.flitInGo i then s.countData (s.remainingNext .w256) (s.datFlit + 4) else s
      if i.flitInVal then
        { s' with
          dataOut := s.store .w256 swapEndianess i
            [(s.datFlit + 1, 0), (s.datFlit + 2, 1), (s.datFlit + 3, 2), (s.datFlit + 4, 3)] }
      else s'
  | .send => if i.outRdy then { s with state := .acceptW1 } else s

def step512 : Deser :=
  match s.state with
  | .acceptW1 =>
      let s' :=
        if s.flitInGo i then
          { s with
            state := if i.msgLen > NocWidth.w512.wordNum - 1 then .acceptData else .send
            remainingFlits := remainingFirst .w512 i
            pktW1 := i.flitIn 0
            pktW2 := i.flitIn 1
            pktW3 := i.flitIn 2
            datFlit := 0 }
        else s
      if i.flitInVal then
        { s' with dataOut := fun k => if k < 5 then s.dataSwapped .w512 swapEndianess i (k + 3) else 0 }
      else s'
  | .acceptW2 | .acceptW3 => s
  | .acceptData =>
      let s' := if s.flitInGo i then s.countData (s.remainingNext .w512) (s.datFlit + 8) else s
      if i.flitInVal then
        { s' with
          dataOut := s.store .w512 swapEndianess i [(s.datFlit + 5, 0), (s.datFlit + 6, 1), (s.datFlit + 7, 2)] }
      else s'
  | .send =>
      if i.outRdy then { s with state := .acceptW1 }
      -- the branch marked "should never end up here" is the `else` of `out_rdy`
      else { s with state := .acceptW1, remainingFlits := 0, pktW1 := 0, pktW2 := 0, pktW3 := 0 }

def step704 : Deser :=
  match s.state with
  | .acceptW1 =>
      let s' :=
        if s.flitInGo i then
          { s with
            state := .send
            pktW1 := i.flitIn 0
            pktW2 := i.flitIn 1
            pktW3 := i.flitIn 2
            datFlit := 0 }
        else s
      if i.flitInVal then { s' with dataOut := fun k => s.dataSwapped .w704 swapEndianess i (k + 3) } else s'
  | .send => if i.outRdy then { s with state := .acceptW1 } else s
  | _ => { s with state := .acceptW1, remainingFlits := 0, pktW1 := 0, pktW2 := 0, pktW3 := 0 }

def step : Deser :=
  match w with
  | .w64 => s.step64 swapEndianess i
  | .w128 => s.step128 swapEndianess i
  | .w256 => s.step256 swapEndianess i
  | .w512 => s.step512 swapEndianess i
  | .w704 => s.step704 swapEndianess i

end Deser

end OpenPiton.NocAxi
