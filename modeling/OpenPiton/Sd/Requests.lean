import OpenPiton.Sd.Bridge

namespace OpenPiton.Sd

open L15 (Word)
open Noc1 (fieldType fieldLength)
open Axi (Byte)

/-- The bytes that the requests address. -/
abbrev Mem := Addr → Byte

def column (a : Addr) : BitVec 6 := a.extractLsb' 3 6

def position (a : Addr) : BitVec 3 := a.extractLsb' 0 3

/-- The bytes of the blocks of a memory. -/
def bytes (c : BlockNo → Block) : Mem := fun a => lane (c a.block (column a)) (position a)

/-- The packet of a request: three headers and the data of a store. -/
structure Request where
  header : Word
  header2 : Word
  header3 : Word
  data : List Word
  deriving DecidableEq

namespace Request

variable (r : Request)

def packet : List Word := r.header :: r.header2 :: r.header3 :: r.data

def msgType : BitVec 8 := fieldType r.header

def dataSz : BitVec 3 := fieldDataSize r.header2

def addr : Addr := addrRemapped r.header2

def wr : Bool := isWr r.msgType

/-- The bytes of the access. -/
def size : Nat := 2 ^ (r.dataSz.toNat - 1)

/-- The words of the access. -/
def words : Nat := (r.size + 7) / 8

/-- A load or a store of 1 to 64 bytes, aligned to its size, with the data of a store. -/
structure WellFormed : Prop where
  kind : isWr r.msgType = true ∨ isRd r.msgType = true
  dataSz_ne : r.dataSz ≠ 0
  aligned : r.size ∣ r.addr.toNat
  length : (fieldLength r.header).toNat = 2 + r.data.length
  data : r.data.length = if r.wr then r.words else 0

instance : Decidable r.WellFormed :=
  decidable_of_iff ((isWr r.msgType = true ∨ isRd r.msgType = true) ∧ r.dataSz ≠ 0 ∧ r.size ∣ r.addr.toNat ∧
      (fieldLength r.header).toNat = 2 + r.data.length ∧ r.data.length = if r.wr then r.words else 0)
    ⟨fun ⟨kind, dataSz_ne, aligned, length, data⟩ => ⟨kind, dataSz_ne, aligned, length, data⟩,
      fun ⟨kind, dataSz_ne, aligned, length, data⟩ => ⟨kind, dataSz_ne, aligned, length, data⟩⟩

def Covers (a : Addr) : Prop := r.addr.toNat ≤ a.toNat ∧ a.toNat < r.addr.toNat + r.size

instance (a : Addr) : Decidable (r.Covers a) := inferInstanceAs (Decidable (_ ∧ _))

def word (k : Nat) : Word := r.data.getD k 0

/-- A byte of the data: the words in order, high byte first, and of an access of less than a word its low bytes. -/
def storedByte (k : Nat) : Byte := lane (r.word ((k + (8 - r.size)) / 8)) (BitVec.ofNat 3 (k + (8 - r.size)))

/-- The memory after a request. -/
def apply (m : Mem) : Mem := fun a =>
  if r.wr = true ∧ r.Covers a then r.storedByte (a.toNat - r.addr.toNat) else m a

/-- The word of a memory that a byte is in. -/
def wordAt (m : Mem) (a : Addr) : Word := ofLanes fun k => m (a.extractLsb' 3 37 ++ k)

def respHeader : Word :=
  Sd.respHeader (fieldSrcChipid r.header3) (fieldSrcX r.header3) (fieldSrcY r.header3) r.msgType (fieldMshrid r.header)

/-- The answer to a request: of a load eight words, those of the access over and over. -/
def response (m : Mem) : List Word :=
  r.respHeader :: if r.wr then [] else
    (List.range 8).map fun i => wordAt m (BitVec.ofNat 40 (r.addr.toNat + 8 * (i % r.words)))

end Request

/-- The memory after requests. -/
def memory (m : Mem) (reqs : List Request) : Mem := reqs.foldl (fun m r => r.apply m) m

/-- The answers to requests, each with the memory after those before it. -/
def responses (m : Mem) : List Request → List Word
  | [] => []
  | r :: reqs => r.response m ++ responses (r.apply m) reqs

theorem memory_append (m : Mem) (reqs : List Request) (r : Request) :
    memory m (reqs ++ [r]) = r.apply (memory m reqs) := by
  rw [memory, List.foldl_append]
  rfl

theorem responses_append (m : Mem) (reqs : List Request) (r : Request) :
    responses m (reqs ++ [r]) = responses m reqs ++ r.response (memory m reqs) := by
  induction reqs generalizing m with
  | nil => exact List.append_nil _
  | cons r' reqs ih =>
      change r'.response m ++ responses (r'.apply m) (reqs ++ [r]) = _
      rw [ih, ← List.append_assoc]
      rfl

namespace Bridge

/-- The flits that the bridge takes go on with the packets of the requests. -/
def Feeds (cfg : Cfg) (reqs : List Request) (s : Bridge) (i : Input) : Prop :=
  (s.step cfg i).taken <+: reqs.flatMap Request.packet

instance (cfg : Cfg) (reqs : List Request) (s : Bridge) (i : Input) : Decidable (s.Feeds cfg reqs i) :=
  inferInstanceAs (Decidable (_ <+: _))

/-- A load is about to hit a block with stores that the card does not have. -/
def HitsDirty (s : Bridge) : Prop :=
  s.manager.state = .lookup ∧ s.manager.cacheHitLkp = true ∧ s.manager.cacheDirtyLkp = true ∧
    s.manager.coreCacheWeF = false

instance (s : Bridge) : Decidable s.HitsDirty := inferInstanceAs (Decidable (_ ∧ _ ∧ _ ∧ _))

/-- A block is about to leave the cache, for another in its entry. -/
def Evicts (s : Bridge) (b : BlockNo) : Prop :=
  s.manager.state = .update ∧ tagBlock s.manager.tags s.manager.cacheEntryLkpF = some b ∧ b ≠ s.manager.coreCacheAddrF

end Bridge

end OpenPiton.Sd
