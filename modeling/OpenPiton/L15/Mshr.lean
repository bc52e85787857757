import Mathlib.Logic.Function.Basic
import OpenPiton.L15.Defs

namespace OpenPiton.L15

/-- The last index of a `for` loop whose guard held, 0 when none did. -/
def lastMatch (n : Nat) (p : Nat → Bool) : Nat := ((List.range n).filter p).getLastD 0

def anyMatch (n : Nat) (p : Nat → Bool) : Bool := (List.range n).any p

/-- `mshr_control`. -/
structure Control where
  size : MsgSize := .b0
  threadid : Nat := 0
  l1ReplacementWay : Nat := 0
  nc : Bool := false
  icache : Bool := false
  load : Bool := false
  atomic : Bool := false
  deriving DecidableEq, Repr

/-- One entry of the MSHR file. The byte mask is a `L15_L1D_LINE_SIZE`-bit number whose top bit is
byte 0 of the line; the write buffer is indexed by the 64-bit word of the line. -/
structure MshrEntry where
  val : Bool := false
  type : MshrType := .cmo
  control : Control := {}
  address : Nat := 0
  state : TransState := .none
  way : Nat := 0
  writeBuffer : Nat → Word := fun _ => 0
  byteMask : Nat := 0

abbrev Mshr := Nat → MshrEntry

def MsgSize.bytes : MsgSize → Nat
  | .b0 => 64
  | .b1 => 1
  | .b2 => 2
  | .b4 => 4
  | .b8 => 8
  | .b16 => 16
  | .b32 => 32
  | .b64 => 64

/-- `write_mask_s1`: `size` ones at the aligned offset of the address in its line. -/
def writeMask (cfg : Config) (size : MsgSize) (address : Nat) : Nat :=
  let n := min size.bytes cfg.lineSize
  let offset := address % cfg.lineSize / n * n
  ((2 ^ n - 1) * 2 ^ (cfg.lineSize - n)) / 2 ^ offset

/-- The bits of word `j` of the line that a byte mask covers. -/
def bitMask (cfg : Config) (byteMask j : Nat) : Word :=
  (BitVec.ofBoolListLE ((List.range 64).map fun i =>
    byteMask.testBit (cfg.lineSize - 8 * (j + 1) + i / 8))).setWidth 64

/-- The bits of `data` under the mask, those of `old` elsewhere. -/
def mergeBits (mask old data : Word) : Word := (old &&& ~~~mask) ||| (data &&& mask)

inductive MshrS1Write
  | none
  | allocation (index : Nat) (type : MshrType) (address : Nat) (control : Control) (data : Word) (byteMask : Nat)
  | updateWriteCache (index : Nat) (data : Word) (byteMask : Nat)

inductive MshrS3Write
  | none
  | deallocation (index : Nat)
  | updateStState (index : Nat) (state : TransState) (way : Nat)
  deriving DecidableEq

namespace Mshr

/-- The S3 port: valid bits are cleared and store states set. -/
def writeS3 (m : Mshr) : MshrS3Write → Mshr
  | .none => m
  | .deallocation index => Function.update m index { m index with val := false }
  | .updateStState index state way => Function.update m index { m index with state := state, way := way }

/-- The S1 port. On a conflict with the S3 port the allocation wins. -/
def writeS1 (cfg : Config) (m : Mshr) : MshrS1Write → Mshr
  | .none => m
  | .allocation index type address control data byteMask =>
      let e := { m index with val := true, type := type, address := address, control := control }
      Function.update m index
        (if type = .st then
          { e with writeBuffer := fun j => data &&& bitMask cfg byteMask j, byteMask := byteMask } else e)
  | .updateWriteCache index data byteMask =>
      Function.update m index
        { m index with
          writeBuffer := fun j => mergeBits (bitMask cfg byteMask j) ((m index).writeBuffer j) data
          byteMask := (m index).byteMask ||| byteMask }

def write (cfg : Config) (m : Mshr) (w1 : MshrS1Write) (w3 : MshrS3Write) : Mshr :=
  (m.writeS3 w3).writeS1 cfg w1

end Mshr

end OpenPiton.L15
