import OpenPiton.Router.Credit

namespace OpenPiton.Common

open Router (InputBlk LinkParams SpaceAvail four_lt_eight)

/-- `BUFFER_SIZE` and `BUFFER_BITS` of `valrdy_to_credit`, and the memory in `credit_to_valrdy`. -/
def valrdyLink : LinkParams := ⟨2, 3, Nat.two_pos, four_lt_eight⟩

namespace ValrdyToCredit

/-- The registers of `valrdy_to_credit` are those of `space_avail_top`; only the test of the upper bits differs. -/
def topBitsZeroTemp (s : SpaceAvail) : Bool := decide (s.countTemp valrdyLink < 3)

def step (s : SpaceAvail) (validTemp yummyOut : Bool) : SpaceAvail where
  yummyF := yummyOut
  validF := validTemp
  countF := s.countTemp valrdyLink
  isOneF := topBitsZeroTemp s && s.countTemp valrdyLink % 2 == 1
  isTwoOrMoreF := !topBitsZeroTemp s

def readyIn (s : SpaceAvail) : Bool := s.isTwoOrMoreF

end ValrdyToCredit

/-- `valrdy_to_credit` in front of `credit_to_valrdy`, with what was accepted and delivered. -/
structure ValrdyChannel (α : Type*) where
  credit : SpaceAvail
  nib : InputBlk α
  accepted : List α := []
  delivered : List α := []

/-- `valid_in` with `data_in`, and `ready_out`. -/
structure ValrdyIn (α : Type*) where
  validIn : Option α
  readyOut : Bool

namespace ValrdyChannel

variable {α : Type*} (s : ValrdyChannel α) (i : ValrdyIn α)

def validTemp : Option α := if ValrdyToCredit.readyIn s.credit then i.validIn else none

def validOut : Bool := s.nib.dataAvail

def thanksIn : Bool := s.validOut && i.readyOut

def step : ValrdyChannel α where
  credit := ValrdyToCredit.step s.credit (s.validTemp i).isSome s.nib.yummyOutF
  nib := s.nib.step valrdyLink.log2 (s.validTemp i) (s.thanksIn i)
  accepted := s.accepted ++ (s.validTemp i).toList
  delivered := if s.thanksIn i then s.delivered ++ [s.nib.dataVal] else s.delivered

/-- After a reset, whatever the memory holds. -/
def Init : Prop := ∃ mem, s = { credit := .reset valrdyLink, nib := { storageDataF := mem } }

/-- The flits in the receiver, oldest first. -/
def stored : List α :=
  (List.range s.nib.elementsInArrayF).map fun k => s.nib.storageDataF ((s.nib.headPtrF + k) % 4)

/-- Every slot of the receiver is a credit, a flit or on its way back; a flit sent in the last cycle is stored while
its credit is still counted. -/
structure Sound : Prop where
  count_le : s.credit.countF ≤ 4
  valid_le : s.credit.validF.toNat ≤ s.credit.countF
  ready_iff : ValrdyToCredit.readyIn s.credit = true ↔ 3 ≤ s.credit.countF
  conserved : s.credit.countF + s.credit.yummyF.toNat + s.nib.yummyOutF.toNat + s.nib.elementsInArrayF =
    4 + s.credit.validF.toNat
  flits : ∃ l, s.nib.Holds 2 l ∧ s.accepted = s.delivered ++ l

variable {s i}

theorem Init.sound (h : s.Init) : s.Sound := by
  obtain ⟨mem, rfl⟩ := h
  exact ⟨Nat.le_refl _, Nat.zero_le _, ⟨fun _ => show 3 ≤ 4 by decide, fun _ => rfl⟩, rfl, [], .empty mem, rfl⟩

namespace Sound

theorem countTemp_eq (h : s.Sound) :
    s.credit.countTemp valrdyLink + s.nib.yummyOutF.toNat + s.nib.elementsInArrayF = 4 := by
  have hcons := h.conserved
  have hfull : s.credit.countF = valrdyLink.bufferSize → s.credit.yummyF = true → s.credit.validF = true := by
    intro hc hy
    rw [hc, hy, Bool.toNat_true] at hcons
    change 4 + 1 + _ + _ = _ at hcons
    cases hv : s.credit.validF with
    | true => rfl
    | false =>
        rw [hv, Bool.toNat_false] at hcons
        omega
  have hcount := SpaceAvail.countTemp_eq (p := valrdyLink) h.count_le h.valid_le hfull
  omega

/-- With a credit to send there are two, so the receiver has two free slots. -/
theorem elements_of_ready (h : s.Sound) (hr : ValrdyToCredit.readyIn s.credit = true) :
    s.nib.elementsInArrayF ≤ 2 ∧ 0 < s.credit.countTemp valrdyLink := by
  have hcount := h.countTemp_eq
  have hthree := h.ready_iff.mp hr
  have hcons := h.conserved
  have hv := s.credit.validF.toNat_le
  omega

theorem step (h : s.Sound) (i : ValrdyIn α) : (s.step i).Sound := by
  obtain ⟨l, hl, hsent⟩ := h.flits
  have hcount := h.countTemp_eq
  have hlen := hl.elements_eq
  have hready : (s.validTemp i).isSome = true → ValrdyToCredit.readyIn s.credit = true := by
    intro hv
    rw [validTemp] at hv
    by_contra hr
    rw [if_neg hr] at hv
    cases hv
  have hthanks : s.thanksIn i = true → l ≠ [] := fun ht =>
    hl.dataAvail_iff.mp ((Bool.and_eq_true _ _).mp ht).1
  have hroom : (s.validTemp i).isSome = true → l.length < 2 ^ 2 + if s.thanksIn i then 1 else 0 := by
    intro hv
    have := (h.elements_of_ready (hready hv)).1
    omega
  have hnib := hl.step (s.validTemp i) (s.thanksIn i) hthanks hroom
  refine ⟨by change s.credit.countTemp valrdyLink ≤ 4; omega, ?_, ?_, ?_, _, hnib, ?_⟩
  · change (s.validTemp i).isSome.toNat ≤ s.credit.countTemp valrdyLink
    cases hv : (s.validTemp i).isSome with
    | false => exact Nat.zero_le _
    | true => exact (h.elements_of_ready (hready hv)).2
  · change (!decide (s.credit.countTemp valrdyLink < 3)) = true ↔ 3 ≤ s.credit.countTemp valrdyLink
    simp
  · have hel := hnib.elements_eq
    rw [List.length_append, List.length_drop] at hel
    have hval : (s.validTemp i).toList.length = (s.validTemp i).isSome.toNat := by cases s.validTemp i <;> rfl
    change s.credit.countTemp valrdyLink + s.nib.yummyOutF.toNat + (s.thanksIn i).toNat +
      (s.nib.step 2 (s.validTemp i) (s.thanksIn i)).elementsInArrayF = 4 + (s.validTemp i).isSome.toNat
    rw [hel, hval]
    cases ht : s.thanksIn i with
    | false => simp only [Bool.toNat_false, Bool.false_eq_true, if_false]; omega
    | true =>
        have := List.length_pos_iff.mpr (hthanks ht)
        simp only [Bool.toNat_true, if_true]
        omega
  · change s.accepted ++ _ = (if s.thanksIn i then s.delivered ++ [s.nib.dataVal] else s.delivered) ++ _
    cases ht : s.thanksIn i with
    | false => simp [hsent]
    | true =>
        cases l with
        | nil => exact absurd rfl (hthanks ht)
        | cons a l => simp [hsent, hl.dataVal_eq]

end Sound

/-- The data accepted are those delivered, then those stored, in order; the memory never overflows, and what is stored
is offered. -/
theorem lossless (h : Machine.Reaches Init step (fun _ _ => True) s) :
    s.accepted = s.delivered ++ s.stored ∧
    s.nib.elementsInArrayF ≤ 4 ∧
    (∀ i, (s.validTemp i).isSome = true → s.nib.elementsInArrayF < 4 ∧
      ∀ k < s.nib.elementsInArrayF, (s.nib.headPtrF + k) % 4 ≠ s.nib.tailPtrF) ∧
    (s.validOut = true ↔ s.stored ≠ []) ∧
    s.credit.countF + s.credit.yummyF.toNat + s.nib.yummyOutF.toNat + s.nib.elementsInArrayF =
      4 + s.credit.validF.toNat := by
  have hs : s.Sound := h.invariant (fun _ hs => hs.sound) fun _ i hs _ => hs.step i
  obtain ⟨l, hl, hsent⟩ := hs.flits
  have hstored : s.stored = l := hl.contents
  have hel := hl.elements_eq
  refine ⟨by rw [hstored, hsent], ?_, ?_, ?_, hs.conserved⟩
  · have := hs.countTemp_eq
    omega
  · intro i hv
    have hready : ValrdyToCredit.readyIn s.credit = true := by
      by_contra hr
      rw [validTemp, if_neg hr] at hv
      cases hv
    have hlt := (hs.elements_of_ready hready).1
    refine ⟨by omega, fun k hk => ?_⟩
    have hroom : l.length < 2 ^ 2 := by omega
    exact hl.tail_fresh hroom (hel ▸ hk)
  · rw [hstored]
    exact hl.dataAvail_iff

def emptyChannel : ValrdyChannel Nat := { credit := .reset valrdyLink, nib := { storageDataF := fun _ => 0 } }

/-- Two words fill the credits that are seen in time; the others wait for the yummies. -/
theorem lossless_burst :
    let s := Machine.run step emptyChannel [⟨some 1, false⟩, ⟨some 2, false⟩, ⟨some 3, true⟩, ⟨some 4, true⟩]
    s.delivered = [1, 2] ∧ s.accepted = s.delivered ++ s.stored :=
  ⟨by decide, (lossless (.run (.start ⟨_, rfl⟩) (by decide))).1⟩

end ValrdyChannel

end OpenPiton.Common
