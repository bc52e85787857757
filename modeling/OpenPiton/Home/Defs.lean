import Mathlib.Logic.Function.Basic
import OpenPiton.L15.Decoder

namespace OpenPiton.Home

/-- `PACKET_HOME_ID`. -/
structure HomeId where
  chip : BitVec 14 := 0
  y : BitVec 8 := 0
  x : BitVec 8 := 0
  deriving DecidableEq, Repr

def HomeId.ofBits (b : BitVec 30) : HomeId := ⟨b.extractLsb' 16 14, b.extractLsb' 8 8, b.extractLsb' 0 8⟩

/-- `TLB_CSM`, what the TLB says of the page of a request: a local page has its domain and the number
of tiles of it, a global page the home itself. -/
structure TlbCsm where
  bits : BitVec 33 := 0
  deriving DecidableEq, Repr

namespace TlbCsm

def isGlobal (t : TlbCsm) : Bool := t.bits.getLsbD 32

def hdid (t : TlbCsm) : Nat := if t.isGlobal then 0 else (t.bits.extractLsb' 22 10).toNat

def hdSize (t : TlbCsm) : Nat := if t.isGlobal then 0 else (t.bits.extractLsb' 16 6).toNat

def chipid (t : TlbCsm) : BitVec 14 := if t.isGlobal then t.bits.extractLsb' 16 14 else 0

def y (t : TlbCsm) : BitVec 8 := if t.isGlobal then t.bits.extractLsb' 8 8 else 0

def x (t : TlbCsm) : BitVec 8 := if t.isGlobal then t.bits.extractLsb' 0 8 else 0

end TlbCsm

inductive HomeAllocMethod
  | lowOrderBits | middleOrderBits | highOrderBits | mixedOrderBits
  deriving DecidableEq, Repr

/-- The build and the configuration registers the home logic reads; `rtlCsm` is a build without
`NO_RTL_CSM`. -/
structure CsmConfig where
  rtlCsm : Bool
  csmEn : Bool
  systemTileCount : Nat
  homeAllocMethod : HomeAllocMethod
  hmtBase : Nat := 0
  xTiles : Nat := 2
  numTiles : Nat := 4
  /-- `L2_TAG_INDEX_WIDTH`; the lines of the L2 are 64 bytes. -/
  l2TagIndexWidth : Nat := 8
  deriving DecidableEq, Repr

namespace CsmConfig

variable (csm : CsmConfig)

/-- A special L2 address starts with 0xA. -/
def specialL2Addr (address : Nat) : Bool := address / 2 ^ 36 % 16 == 0xa

def isDisFlush (address : Nat) : Bool := address / 2 ^ 34 % 64 == 0b101011

/-- A displacement flush has the high bits of its tag in the offset. -/
def disFlushAddr (address : Nat) : Nat := (address % 64 * 2 ^ 28 + address / 64 % 2 ^ 28) * 64

def homeIdAddrPosLow (address : Nat) : Nat := address / 2 ^ 6 % 64

def homeIdAddrPosMiddle (address : Nat) : Nat := address / 2 ^ (6 + csm.l2TagIndexWidth) % 64

def homeIdAddrPosHigh (address : Nat) : Nat := address / 2 ^ 24 % 64

/-- `home_addr_bits_s2`. -/
def homeAddrBits (address : Nat) : Nat :=
  if specialL2Addr address && !isDisFlush address then homeIdAddrPosHigh address
  else
    let auxAddr := if specialL2Addr address then disFlushAddr address else address
    match csm.homeAllocMethod with
    | .lowOrderBits => homeIdAddrPosLow auxAddr
    | .middleOrderBits => csm.homeIdAddrPosMiddle auxAddr
    | .highOrderBits => homeIdAddrPosHigh auxAddr
    | .mixedOrderBits => homeIdAddrPosLow auxAddr ^^^ csm.homeIdAddrPosMiddle auxAddr

/-- `l15_home_encoder`; no homes stand for 64. -/
def homeEncoder (homeIn numHomes : Nat) : Nat :=
  let lowMask := if numHomes = 0 then 63 else 2 ^ Nat.log2 numHomes - 1
  let isPowerOf2 := numHomes = 0 ∨ numHomes = 2 ^ Nat.log2 numHomes
  let homeMod := homeIn &&& if isPowerOf2 then lowMask else (2 * lowMask + 1) % 64
  if homeMod < numHomes then homeMod else homeMod &&& lowMask

/-- `flat_id_to_xy`; an id without a tile gives unknown bits in the source. -/
def flatIdToXy (flatId : Nat) : Nat × Nat :=
  if flatId < csm.numTiles then (flatId % csm.xTiles, flatId / csm.xTiles) else (0, 0)

/-- On-chip device accesses start with 0xE0 or 0xE1. -/
def onChipDevAccess (address : Nat) : Bool := address / 2 ^ 33 % 128 == 0b1110000

/-- The home without coherence domains. -/
def staticHome (lhid address : Nat) : HomeId :=
  if onChipDevAccess address then
    { x := BitVec.ofNat 8 (address / 2 ^ 28 % 16), y := BitVec.ofNat 8 (address / 2 ^ 24 % 16) }
  else
    { x := BitVec.ofNat 8 (csm.flatIdToXy lhid).1, y := BitVec.ofNat 8 (csm.flatIdToXy lhid).2 }

end CsmConfig

/-- `csm_op`, what a request asks of `l15_csm`. -/
inductive CsmOp
  | none | readGhid | readGhidIfTagcheckSi | hmcFill | hmcDiagStore | hmcDiagLoad | readGhidIfTagcheckMiss
  | hmcFlush | evictIfLruM | evictIfFlushM | evictIfM
  deriving DecidableEq, Repr

open L15 in
/-- `decoder_csm_op_s1`. -/
def decoderCsmOp (d : DecoderIn) : CsmOp :=
  match d.reqtype with
  | .cmo _ | .ifill => .readGhid
  | .loadNc | .cas | .swpLoadstub | .amoLr | .amo _ => if d.fetchState = .normal then .evictIfM else .readGhid
  | .load => .readGhidIfTagcheckMiss
  | .writethrough =>
      if d.intVecDis then .none else if d.fetchState = .normal then .evictIfM else .readGhid
  | .store => if d.hitStbuf then .none else .readGhidIfTagcheckSi
  | .lineFlush => if d.fetchState = .normal then .none else .evictIfFlushM
  | .invalidation => .evictIfM
  | .ackdtLd | .ackdtStIm | .ackdtLr => if d.fetchState = .normal then .evictIfLruM else .none
  | .hmcFill => .hmcFill
  | .hmcDiagLoad => .hmcDiagLoad
  | .hmcDiagStore => .hmcDiagStore
  | .hmcFlush => .hmcFlush
  | _ => .none

open L15 in
/-- `decoder_hmt_op_s1`: the fills write the home map table. -/
def decoderHmtOp (d : DecoderIn) : Bool :=
  match d.reqtype with
  | .ackdtLd | .ackdtStIm | .ackdtLr => d.fetchState ≠ .normal
  | _ => false

def mshrTypeCode : L15.MshrType → Nat
  | .cmo => 0
  | .ifill => 1
  | .ld => 2
  | .st => 3

def csmNumTickets : Nat := 8

/-- `csm_ticket_s2`, the thread and the MSHR type in the three bits of a ticket. -/
def csmTicket (threadid : Nat) (type : L15.MshrType) : Nat := (threadid * 4 + mshrTypeCode type) % csmNumTickets

end OpenPiton.Home
