import Mathlib.Data.BitVec

namespace OpenPiton.NocAxi

/-- A word of `NOC_DATA_WIDTH`. -/
abbrev Word := BitVec 64

/-- The three words of a message header. -/
structure Header where
  w1 : Word
  w2 : Word
  w3 : Word
  deriving DecidableEq, Repr

namespace Header

variable (h : Header)

def msgType : BitVec 8 := h.w1.extractLsb' 14 8
def msgLength : BitVec 8 := h.w1.extractLsb' 22 8
def msgMshrid : BitVec 8 := h.w1.extractLsb' 6 8
def msgDataSize : BitVec 3 := h.w2.extractLsb' 8 3
def msgAddr : BitVec 40 := h.w2.extractLsb' 16 40
def msgSrcX : BitVec 8 := h.w3.extractLsb' 42 8
def msgSrcY : BitVec 8 := h.w3.extractLsb' 34 8

end Header

def msgTypeNcLoadReq : BitVec 8 := 14
def msgTypeNcStoreReq : BitVec 8 := 15
def msgTypeLoadMem : BitVec 8 := 19
def msgTypeStoreMem : BitVec 8 := 20

namespace Header

variable (h : Header)

/-- `noc_extractSize`: whole lines unless the access is uncacheable. -/
def uncacheable : Bool := h.msgAddr.msb || h.msgType == msgTypeNcLoadReq || h.msgType == msgTypeNcStoreReq

def sizeLog : BitVec 3 := if h.uncacheable then h.msgDataSize - 1 else 6

def offset : BitVec 6 := if h.uncacheable then h.msgAddr.setWidth 6 else 0

@[simp] theorem sizeLog_w3 (w : Word) : ({ h with w3 := w } : Header).sizeLog = h.sizeLog := rfl

end Header

def Word.byte (w : Word) (k : Nat) : BitVec 8 := w.extractLsb' (8 * k) 8

def Word.ofBytes (f : Nat → BitVec 8) : Word :=
  (List.range 8).foldl (fun w k => w ||| (f k).setWidth 64 <<< (8 * k)) 0

/-- `hi_swap_idx` of the byte `lo`: granules of `2 ^ sizeLog` bytes, at most a word, are reversed. -/
def hiSwapIdx (sizeLog : BitVec 3) (lo : Nat) : Nat :=
  let swapGranltyLog := if sizeLog.toNat < 3 then sizeLog.toNat else 3
  let swapGranlty := 2 ^ swapGranltyLog - 1
  let itrGrn := lo / 2 ^ swapGranltyLog
  let itrSwp := lo % 2 ^ swapGranltyLog
  itrGrn * 2 ^ swapGranltyLog + swapGranlty - itrSwp

def swapData (data : Word) (sizeLog : BitVec 3) : Word :=
  Word.ofBytes fun lo => Word.byte data (hiSwapIdx sizeLog lo)

/-- A message: its header and the data words behind it. -/
structure Packet where
  header : Header
  data : List Word

namespace Packet

/-- The words of a packet in the order they are sent. -/
def word (p : Packet) : Nat → Word
  | 0 => p.header.w1
  | 1 => p.header.w2
  | 2 => p.header.w3
  | k + 3 => p.data.getD k 0

/-- The length field counts the words behind the first; at most a line of data follows. -/
structure WellFormed (p : Packet) : Prop where
  data_le : p.data.length ≤ 8
  length_eq : p.header.msgLength.toNat = p.data.length + 2

/-- A data word as the core sees it. -/
def dataWord (swapEndianess : Bool) (p : Packet) (k : Nat) : Word :=
  if swapEndianess then swapData (p.data.getD k 0) p.header.sizeLog else p.data.getD k 0

end Packet

end OpenPiton.NocAxi
