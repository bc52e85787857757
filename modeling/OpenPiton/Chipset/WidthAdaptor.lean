import OpenPiton.Chipset.AddressMap
import OpenPiton.Lib.Machine

namespace OpenPiton.Chipset

open L15 (Word)
open Noc1 (fieldLength)
open Packets

/-- A flit of a wide channel, as its words of 64 bits, the low one first. -/
abbrev Flit := List Word

def msgLength (flit : Flit) : BitVec 8 := fieldLength (flit.headD 0)

inductive FlitType
  | header
  | body
  deriving DecidableEq

structure TailHdrDetect where
  flitType : FlitType := .header
  remain : BitVec 8 := 0

namespace TailHdrDetect

variable (d : TailHdrDetect) (worldNum : Nat) (lengthIn : BitVec 8)

def step (fire : Bool) : TailHdrDetect :=
  if fire then
    match d.flitType with
    | .header => if worldNum ≤ lengthIn.toNat then ⟨.body, lengthIn - BitVec.ofNat 8 worldNum⟩ else d
    | .body =>
        if d.remain.toNat < worldNum then { d with flitType := .header }
        else { d with remain := d.remain - BitVec.ofNat 8 worldNum }
  else d

def isTail : Bool :=
  match d.flitType with
  | .header => decide (lengthIn.toNat < worldNum)
  | .body => decide (d.remain.toNat < worldNum)

/-- What the detector knows of the words of the open packet. -/
def Detects (words : List Word) : Prop :=
  match d.flitType with
  | .header => words = []
  | .body => words ≠ [] ∧ d.remain.toNat + words.length + 1 = size wordLength words

variable {d worldNum} {words : List Word} {flit : Flit}

theorem Detects.header_iff (h : d.Detects words) : d.flitType = .header ↔ words = [] := by
  rw [Detects] at h
  cases hd : d.flitType with
  | header =>
      simp only [hd] at h
      simp [h]
  | body =>
      simp only [hd] at h
      simp [h.1]

theorem toNat_sub_ofNat {x : BitVec 8} (h : worldNum ≤ x.toNat) : (x - BitVec.ofNat 8 worldNum).toNat = x.toNat - worldNum := by
  have hlt := x.isLt
  have hnum : (BitVec.ofNat 8 worldNum).toNat = worldNum := by
    rw [BitVec.toNat_ofNat]
    exact Nat.mod_eq_of_lt (by omega)
  have hle : BitVec.ofNat 8 worldNum ≤ x := by
    rw [BitVec.le_def, hnum]
    exact h
  rw [BitVec.toNat_sub_of_le hle, hnum]

theorem Detects.size_eq (h : d.Detects words) (flit : Flit) (hpos : 0 < flit.length) : size wordLength (words ++ flit) =
    words.length + 1 + match d.flitType with
      | .header => (msgLength flit).toNat
      | .body => d.remain.toNat := by
  cases hd : d.flitType with
  | header =>
      simp only [Detects, hd] at h
      rw [h, List.nil_append]
      cases flit with
      | nil => cases hpos
      | cons a l => exact (Nat.add_comm 1 _).symm
  | body =>
      simp only [Detects, hd] at h
      rw [size_append h.1, ← h.2, Nat.add_assoc, Nat.add_comm]

theorem Detects.isTail_iff (h : d.Detects words) (hlen : flit.length = worldNum) (hpos : 0 < worldNum) :
    d.isTail worldNum (msgLength flit) = true ↔ ¬ Begun wordLength (words ++ flit) := by
  have hne : words ++ flit ≠ [] := List.append_ne_nil_of_right_ne_nil words (List.ne_nil_of_length_pos (by omega))
  rw [begun_iff hne, h.size_eq flit (by omega), List.length_append, isTail]
  cases d.flitType with
  | header => simp only [decide_eq_true_eq]; omega
  | body => simp only [decide_eq_true_eq]; omega

theorem Detects.step (h : d.Detects words) (hlen : flit.length = worldNum) (hpos : 0 < worldNum) (ps : List (List Word)) :
    (d.step worldNum (msgLength flit) true).Detects (cutFlit wordLength (ps, words) flit).2 := by
  have hne : words ++ flit ≠ [] := List.append_ne_nil_of_right_ne_nil words (List.ne_nil_of_length_pos (by omega))
  have htail := h.isTail_iff hlen hpos
  have hsize := h.size_eq flit (by omega)
  rw [cutFlit, TailHdrDetect.step, if_pos rfl]
  cases hd : d.flitType with
  | header =>
      simp only [hd, isTail, decide_eq_true_eq] at htail hsize ⊢
      by_cases hlt : (msgLength flit).toNat < worldNum
      · rw [if_neg (htail.mp hlt), if_neg (Nat.not_le.mpr hlt)]
        simp only [Detects, hd]
      · rw [if_pos (not_not.mp fun hb => hlt (htail.mpr hb)), if_pos (Nat.not_lt.mp hlt)]
        refine ⟨hne, ?_⟩
        simp only [toNat_sub_ofNat (Nat.not_lt.mp hlt), hsize, List.length_append]
        omega
  | body =>
      simp only [hd, isTail, decide_eq_true_eq] at htail hsize ⊢
      by_cases hlt : d.remain.toNat < worldNum
      · rw [if_neg (htail.mp hlt), if_pos hlt]
        rfl
      · rw [if_pos (not_not.mp fun hb => hlt (htail.mpr hb)), if_neg hlt]
        simp only [Detects]
        refine ⟨hne, ?_⟩
        simp only [toNat_sub_ofNat (Nat.not_lt.mp hlt), hsize, List.length_append]
        omega

end TailHdrDetect

/-- The registers of `noc_width_adaptor`, with the flits that are still to come, were accepted and have left. -/
structure WidthAdaptor where
  detect : TailHdrDetect := {}
  counter : Nat := 0
  buffArray : Nat → Flit := fun _ => []
  pending : List Flit := []
  taken : List Flit := []
  sent : List Flit := []

/-- `flit_val_i` and `flit_rdy_i`. -/
structure WidthIn where
  flitVal : Bool
  flitRdy : Bool

namespace WidthAdaptor

variable (worldNum cntW : Nat) (s : WidthAdaptor) (i : WidthIn)

def flitValI : Bool := i.flitVal && !s.pending.isEmpty

def flitDataI : Flit := s.pending.headD []

/-- The widths are equal. -/
def bypass : WidthAdaptor :=
  { s with
    pending := if s.flitValI i && i.flitRdy then s.pending.tail else s.pending
    taken := if s.flitValI i && i.flitRdy then s.taken ++ [s.flitDataI] else s.taken
    sent := if s.flitValI i && i.flitRdy then s.sent ++ [s.flitDataI] else s.sent }

namespace Serialer

def flitDataO : Flit := (s.flitDataI.drop (s.counter * worldNum)).take worldNum

def isTailOut : Bool := s.detect.isTail worldNum (msgLength (flitDataO worldNum s))

def flitRdyO : Bool := if s.counter == 2 ^ cntW - 1 || isTailOut worldNum s then i.flitRdy else false

/-- From flits of `worldNum * 2 ^ cntW` words to flits of `worldNum` words. -/
def step : WidthAdaptor :=
  { s with
    detect := s.detect.step worldNum (msgLength (flitDataO worldNum s)) (s.flitValI i && i.flitRdy)
    counter :=
      if s.flitValI i && i.flitRdy then if isTailOut worldNum s then 0 else (s.counter + 1) % 2 ^ cntW
      else s.counter
    pending := if s.flitValI i && flitRdyO worldNum cntW s i then s.pending.tail else s.pending
    taken := if s.flitValI i && flitRdyO worldNum cntW s i then s.taken ++ [s.flitDataI] else s.taken
    sent := if s.flitValI i && i.flitRdy then s.sent ++ [flitDataO worldNum s] else s.sent }

end Serialer

namespace Parallelr

def isTailIn : Bool := s.detect.isTail worldNum (msgLength s.flitDataI)

def flitRdyO : Bool := if s.counter != 2 ^ cntW - 1 then true else i.flitRdy

def flitValO : Bool := s.flitValI i && (s.counter == 2 ^ cntW - 1 || isTailIn worldNum s)

def flitDataO : Flit :=
  (List.range (2 ^ cntW - 1)).flatMap (fun k => if s.counter = k then s.flitDataI else s.buffArray k) ++ s.flitDataI

/-- A flit goes to its place, and the places after it are cleared. -/
def buffNext (k : Nat) : Flit :=
  if s.flitValI i && flitRdyO cntW s i then
    if s.counter = k then s.flitDataI else if s.counter < k then List.replicate worldNum 0 else s.buffArray k
  else s.buffArray k

/-- From flits of `worldNum` words to flits of `worldNum * 2 ^ cntW` words. -/
def step : WidthAdaptor where
  detect := s.detect.step worldNum (msgLength s.flitDataI) (s.flitValI i && flitRdyO cntW s i)
  counter :=
    if s.flitValI i && flitRdyO cntW s i then if isTailIn worldNum s then 0 else (s.counter + 1) % 2 ^ cntW
    else s.counter
  buffArray := buffNext worldNum cntW s i
  pending := if s.flitValI i && flitRdyO cntW s i then s.pending.tail else s.pending
  taken := if s.flitValI i && flitRdyO cntW s i then s.taken ++ [s.flitDataI] else s.taken
  sent := if flitValO worldNum cntW s i && i.flitRdy then s.sent ++ [flitDataO cntW s] else s.sent

end Parallelr

/-- One cycle of `noc_width_adaptor`, from flits of `64 * 2 ^ kIn` bits to flits of `64 * 2 ^ kOut` bits. -/
def step (kIn kOut : Nat) : WidthAdaptor :=
  if kIn = kOut then s.bypass i
  else if kOut < kIn then Serialer.step (2 ^ kOut) (kIn - kOut) s i
  else Parallelr.step (2 ^ kIn) (kOut - kIn) s i

/-- The words of the packets that are whole. -/
def packetsOf (flits : List Flit) : List (List Word) := (cutFlits wordLength flits).1

/-- The buffer of a reset holds zeros. -/
def start (kIn : Nat) (stream : List Flit) : WidthAdaptor :=
  { buffArray := fun _ => List.replicate (2 ^ kIn) 0, pending := stream }

end WidthAdaptor

end OpenPiton.Chipset
