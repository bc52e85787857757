import OpenPiton.Noc1.BufIn
import OpenPiton.Lib.Flits

namespace OpenPiton.Chipset

open L15 (Word)
open Noc1 (fieldLength fieldType)
open Packets

abbrev wordLength (word : Word) : Nat := (fieldLength word).toNat

/-- `MSG_ADDR_`. -/
def fieldAddr (word : Word) : BitVec 40 := word.extractLsb' 16 40

/-- A word with `MSG_DST_X` set. -/
def setDstX (word : Word) (x : BitVec 8) : Word := word.extractLsb' 50 14 ++ x ++ word.extractLsb' 0 42

/-- A port of the device file, after the first. -/
structure Device where
  isMem : Bool
  isVirtual : Bool
  base : BitVec 40
  length : BitVec 40
  portnum : BitVec 8
  streamAccessible : Bool

/-- The comparison that is generated for a device; the sum has 40 bits. -/
def Device.inRange (d : Device) (addr : BitVec 40) : Bool := d.base ≤ addr && addr < d.base + d.length

theorem Device.inRange_iff {d : Device} {addr : BitVec 40} (h : d.base.toNat + d.length.toNat < 2 ^ 40) :
    d.inRange addr = true ↔ d.base.toNat ≤ addr.toNat ∧ addr.toNat < d.base.toNat + d.length.toNat := by
  rw [inRange, Bool.and_eq_true, decide_eq_true_eq, decide_eq_true_eq, BitVec.le_def, BitVec.lt_def,
    BitVec.toNat_add_of_lt h]

/-- The device file, and whether invalid accesses are told from those to the memory. -/
structure DeviceMap where
  devices : List Device
  monitor : Bool

namespace DeviceMap

variable (dm : DeviceMap) (uartBootEn : Bool)

def memPort : BitVec 8 := ((dm.devices.filter Device.isMem).getLast?.map Device.portnum).getD 0

/-- The port of an address, if the access is valid. -/
def portOf (addr : BitVec 40) : Option (BitVec 8) :=
  match dm.devices.find? fun d => !d.isMem && !d.isVirtual && (d.inRange addr && (d.streamAccessible || !uartBootEn)) with
  | some d => some d.portnum
  | none =>
      if !dm.monitor || (dm.devices.any fun d => (d.isMem || d.isVirtual) && d.inRange addr) || uartBootEn then some dm.memPort
      else none

end DeviceMap

/-- `LOAD_MEM`, `STORE_MEM`, `NC_LOAD_REQ` or `NC_STORE_REQ`. -/
def isMemReq (flit : Word) : Bool :=
  fieldType flit == 19 || fieldType flit == 20 || fieldType flit == 14 || fieldType flit == 15

/-- `readdressed_flit0` for a header and the word after it. -/
def readdressedFlit0 (dm : DeviceMap) (uartBootEn : Bool) (flit0 flit1 : Word) : Word :=
  if isMemReq flit0 then ((dm.portOf uartBootEn (fieldAddr flit1)).map (setDstX flit0)).getD flit0 else flit0

def invalidAccess (dm : DeviceMap) (uartBootEn : Bool) (flit0 flit1 : Word) : Bool :=
  isMemReq flit0 && (dm.portOf uartBootEn (fieldAddr flit1)).isNone

/-- A packet with its header readdressed by its second word. -/
def readdress (dm : DeviceMap) (uartBootEn : Bool) : List Word → List Word
  | flit0 :: flit1 :: rest => readdressedFlit0 dm uartBootEn flit0 flit1 :: flit1 :: rest
  | packet => packet

/-- A packet of the second network: a request to memory has an address word. -/
structure WellFormed (packet : List Word) : Prop where
  whole : Whole wordLength packet
  addressed : isMemReq (packet.headD 0) = true → 2 ≤ packet.length

/-- A packet as it leaves the filter, with the map of one of the values of `uart_boot_en`. -/
def Filtered (dm : DeviceMap) (boots : Set Bool) (packet packet' : List Word) : Prop :=
  ∃ b ∈ boots, packet' = readdress dm b packet

theorem length_readdress (dm : DeviceMap) (b : Bool) (packet : List Word) :
    (readdress dm b packet).length = packet.length := by
  match packet with
  | [] | [_] | _ :: _ :: _ => rfl

end OpenPiton.Chipset
