import OpenPiton.Lib.MaskedRam

namespace OpenPiton.Common

/-- The array of an SRAM wrapper with the registers of the scan that clears it after a reset. Only words below the
depth are written, what is read past them is left open. -/
structure BistRam (w d : Nat) where
  ram : BitVec w → BitVec d
  bistIndex : BitVec w
  initDone : Bool

namespace BistRam

variable {w d : Nat}

def write (depth : Nat) (ram : BitVec w → BitVec d) (a : BitVec w) (data : BitVec d) : BitVec w → BitVec d :=
  if a.toNat < depth then Function.update ram a data else ram

/-- A clock edge with the write of the wrapper, which waits for the end of the scan. -/
def step (depth : Nat) (s : BistRam w d) (resetN : Bool) (wen : Bool) (a : BitVec w) (data : BitVec d) : BistRam w d where
  ram :=
    if !s.initDone then write depth s.ram s.bistIndex 0
    else if wen then write depth s.ram a data
    else s.ram
  bistIndex := if !resetN then 0 else if s.initDone then s.bistIndex else s.bistIndex + 1
  initDone := resetN && (s.bistIndex == BitVec.allOnes w || s.initDone)

end BistRam

structure Bram1rwIn (w d : Nat) where
  resetN : Bool
  ce : Bool
  a : BitVec w
  rdwen : Bool
  bw : BitVec d
  din : BitVec d

namespace Bram1rwIn

variable {w d : Nat} (i : Bram1rwIn w d)

def writeEn : Bool := i.ce && !i.rdwen

def readEn : Bool := i.ce && i.rdwen

end Bram1rwIn

/-- The registers of `bram_1rw_wrapper`. -/
structure Bram1rw (w d : Nat) where
  array : BistRam w d
  bramDataOut : BitVec d
  wenR : Bool
  aR : BitVec w
  bwR : BitVec d
  dinR : BitVec d
  doutR : BitVec d
  renR : Bool
  bramDataInR : BitVec d
  rwConflictR : Bool

namespace Bram1rw

variable {w d : Nat} (s : Bram1rw w d) (i : Bram1rwIn w d)

def upToDateData : BitVec d := if s.rwConflictR then s.bramDataInR else s.bramDataOut

def bramDataIn : BitVec d := (s.upToDateData &&& ~~~s.bwR) ||| (s.dinR &&& s.bwR)

def rwConflict : Bool := s.wenR && i.ce && s.aR == i.a

def bramRen : Bool := (i.readEn || i.writeEn) && !s.rwConflict i

def dout : BitVec d := if s.renR then s.upToDateData else s.doutR

def step (depth : Nat) : Bram1rw w d where
  array := s.array.step depth i.resetN s.wenR s.aR s.bramDataIn
  bramDataOut := if s.bramRen i then s.array.ram i.a else s.bramDataOut
  wenR := i.writeEn
  aR := i.a
  bwR := i.bw
  dinR := i.din
  doutR := s.dout
  renR := i.readEn
  bramDataInR := s.bramDataIn
  rwConflictR := s.rwConflict i

end Bram1rw

structure Bram1r1wIn (w d : Nat) where
  resetN : Bool
  cea : Bool
  aa : BitVec w
  rdwena : Bool
  ceb : Bool
  ab : BitVec w
  rdwenb : Bool
  bwb : BitVec d
  dinb : BitVec d

namespace Bram1r1wIn

variable {w d : Nat} (i : Bram1r1wIn w d)

def readEnableIn : Bool := i.cea && i.rdwena

def writeEnableIn : Bool := i.ceb && !i.rdwenb

end Bram1r1wIn

/-- The registers of `bram_1r1w_wrapper`, with the latch that holds `DOUTA` while no read is answered. -/
structure Bram1r1w (w d : Nat) where
  array : BistRam w d
  writeEnableInReg : Bool
  writeAddressReg : BitVec w
  writeBitMaskReg : BitVec d
  dinR : BitVec d
  readEnableInReg : Bool
  bramDataInR : BitVec d
  bramDataWriteReadOutReg : BitVec d
  bramDataReadOutReg : BitVec d
  rwConflictR : Bool
  wwConflictR : Bool
  doutaHeld : BitVec d

namespace Bram1r1w

variable {w d : Nat} (s : Bram1r1w w d) (i : Bram1r1wIn w d)

def rwConflict : Bool := s.writeEnableInReg && i.readEnableIn && s.writeAddressReg == i.aa

def wwConflict : Bool := s.writeEnableInReg && i.writeEnableIn && s.writeAddressReg == i.ab

def bramDataIn : BitVec d :=
  (s.dinR &&& s.writeBitMaskReg) |||
    ((if s.wwConflictR then s.bramDataInR else s.bramDataWriteReadOutReg) &&& ~~~s.writeBitMaskReg)

def douta : BitVec d :=
  if s.readEnableInReg then if s.rwConflictR then s.bramDataInR else s.bramDataReadOutReg else s.doutaHeld

def bramReadEn : Bool := i.readEnableIn && !s.rwConflict i

def bramWriteReadEn : Bool := i.writeEnableIn && !s.wwConflict i

def step (depth : Nat) : Bram1r1w w d where
  array := s.array.step depth i.resetN s.writeEnableInReg s.writeAddressReg s.bramDataIn
  writeEnableInReg := i.writeEnableIn
  writeAddressReg := i.ab
  writeBitMaskReg := i.bwb
  dinR := i.dinb
  readEnableInReg := i.readEnableIn
  bramDataInR := s.bramDataIn
  bramDataWriteReadOutReg := if s.bramWriteReadEn i then s.array.ram i.ab else s.bramDataWriteReadOutReg
  bramDataReadOutReg := if s.bramReadEn i then s.array.ram i.aa else s.bramDataReadOutReg
  rwConflictR := s.rwConflict i
  wwConflictR := s.wwConflict i
  doutaHeld := s.douta

end Bram1r1w

end OpenPiton.Common
