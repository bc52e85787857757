import OpenPiton.Router.Buffer
import OpenPiton.Lib.Machine

namespace OpenPiton.Router

/-- The parameters of a link: `LOG2_NUMBER_FIFO_ELEMENTS` of the input block and `BUFFER_BITS` of
the output, whose `BUFFER_SIZE` is the capacity of the block. -/
structure LinkParams where
  log2 : Nat
  bufferBits : Nat
  /-- The pointers are the ranges `[log2 - 1 : 0]`. -/
  log2_pos : 0 < log2
  size_lt : 2 ^ log2 < 2 ^ bufferBits

/-- The count of a buffer of four flits has three bits. -/
theorem four_lt_eight : 2 ^ 2 < 2 ^ 3 := by decide

def LinkParams.bufferSize (p : LinkParams) : Nat := 2 ^ p.log2

/-- `space_avail_top`. -/
structure SpaceAvail where
  yummyF : Bool
  validF : Bool
  countF : Nat
  isOneF : Bool
  isTwoOrMoreF : Bool

namespace SpaceAvail

/-- The state after a reset. -/
def reset (p : LinkParams) : SpaceAvail where
  yummyF := false
  validF := false
  countF := p.bufferSize
  isOneF := p.bufferSize == 1
  isTwoOrMoreF := decide (2 ≤ p.bufferSize)

def countPlus1 (p : LinkParams) (s : SpaceAvail) : Nat := (s.countF + 1) % 2 ^ p.bufferBits

def countMinus1 (p : LinkParams) (s : SpaceAvail) : Nat :=
  (s.countF + (2 ^ p.bufferBits - 1)) % 2 ^ p.bufferBits

def spcAvail (s : SpaceAvail) : Bool := s.isTwoOrMoreF || s.yummyF || (s.isOneF && !s.validF)

def up (s : SpaceAvail) : Bool := s.yummyF && !s.validF

def down (s : SpaceAvail) : Bool := !s.yummyF && s.validF

def countTemp (p : LinkParams) (s : SpaceAvail) : Nat :=
  if s.countF = 0 then
    if s.up then s.countPlus1 p else s.countF
  else if s.countF = p.bufferSize then
    if s.down then s.countMinus1 p else s.countF
  else
    match s.up, s.down with
    | true, false => s.countPlus1 p
    | false, true => s.countMinus1 p
    | _, _ => s.countF

def topBitsZeroTemp (p : LinkParams) (s : SpaceAvail) : Bool := s.countTemp p / 2 == 0

def step (p : LinkParams) (s : SpaceAvail) (valid yummy : Bool) : SpaceAvail where
  yummyF := yummy
  validF := valid
  countF := s.countTemp p
  isOneF := s.topBitsZeroTemp p && s.countTemp p % 2 == 1
  isTwoOrMoreF := !s.topBitsZeroTemp p

/-- The credits are those of the count, and none is owed that the count does not hold. -/
structure Sound (p : LinkParams) (s : SpaceAvail) : Prop where
  count_le : s.countF ≤ p.bufferSize
  isOne_iff : s.isOneF = true ↔ s.countF = 1
  isTwo_iff : s.isTwoOrMoreF = true ↔ 2 ≤ s.countF
  valid_le : s.validF.toNat ≤ s.countF

variable {p : LinkParams} {s : SpaceAvail}

theorem Sound.reset : Sound p (reset p) where
  count_le := Nat.le_refl _
  isOne_iff := beq_iff_eq
  isTwo_iff := decide_eq_true_iff
  valid_le := Nat.zero_le _

/-- Neither saturating case loses a credit while the count is that of a link. -/
theorem countTemp_eq (hle : s.countF ≤ p.bufferSize) (hv : s.validF.toNat ≤ s.countF)
    (hfull : s.countF = p.bufferSize → s.yummyF = true → s.validF = true) :
    s.countTemp p + s.validF.toNat = s.countF + s.yummyF.toNat := by
  have hlt : p.bufferSize < 2 ^ p.bufferBits := p.size_lt
  have hpos : 0 < p.bufferSize := Nat.two_pow_pos _
  have hplus : s.countF < p.bufferSize → s.countPlus1 p = s.countF + 1 := fun hl =>
    Nat.mod_eq_of_lt (by omega)
  have hminus : 0 < s.countF → s.countMinus1 p = s.countF - 1 := by
    intro hl
    rw [countMinus1, show s.countF + (2 ^ p.bufferBits - 1) = s.countF - 1 + 2 ^ p.bufferBits by omega,
      Nat.add_mod_right, Nat.mod_eq_of_lt (by omega)]
  unfold countTemp up down
  cases hy : s.yummyF <;> cases hval : s.validF <;> rw [hval] at hv <;> rw [hy, hval] at hfull
  · simp
  · have := hminus hv
    have hne : s.countF ≠ 0 := Nat.ne_of_gt hv
    simp only [hne, if_false, Bool.not_false, Bool.and_self, if_true, Bool.false_and, ite_self,
      Bool.toNat_true, Bool.toNat_false, this]
    exact Nat.sub_add_cancel hv
  · have hne : s.countF ≠ p.bufferSize := fun he => Bool.noConfusion (hfull he rfl)
    have := hplus (Nat.lt_of_le_of_ne hle hne)
    simp [hne, this]
  · simp

theorem Sound.countTemp_eq (h : s.Sound p) (hfull : s.countF = p.bufferSize → s.yummyF = true → s.validF = true) :
    s.countTemp p + s.validF.toNat = s.countF + s.yummyF.toNat :=
  SpaceAvail.countTemp_eq h.count_le h.valid_le hfull

theorem Sound.step (h : s.Sound p) {valid : Bool} (yummy : Bool)
    (hfull : s.countF = p.bufferSize → s.yummyF = true → s.validF = true)
    (hle : s.countTemp p ≤ p.bufferSize) (hvalid : valid = true → s.spcAvail = true) :
    (s.step p valid yummy).Sound p where
  count_le := hle
  isOne_iff := by
    simp only [SpaceAvail.step, topBitsZeroTemp, Bool.and_eq_true, beq_iff_eq]
    omega
  isTwo_iff := by
    simp only [SpaceAvail.step, topBitsZeroTemp, Bool.not_eq_true', beq_eq_false_iff_ne]
    omega
  valid_le := by
    have hcount := h.countTemp_eq hfull
    have hv := h.valid_le
    change valid.toNat ≤ s.countTemp p
    cases valid with
    | false => exact Nat.zero_le _
    | true =>
        have hspc := hvalid rfl
        simp only [spcAvail, Bool.or_eq_true, Bool.and_eq_true, Bool.not_eq_true', h.isOne_iff,
          h.isTwo_iff] at hspc
        have hbool := s.validF.toNat_le
        simp only [Bool.toNat_true]
        rcases hspc with (h2 | hy) | ⟨h1, hnv⟩
        · omega
        · rw [hy, Bool.toNat_true] at hcount; omega
        · rw [hnv, Bool.toNat_false] at hcount; omega

/-- What the flags keep whatever the yummies are: the count saturates at the size of the buffer. -/
structure Bounded (p : LinkParams) (s : SpaceAvail) : Prop where
  count_le : s.countF ≤ p.bufferSize
  isOne_iff : s.isOneF = true ↔ s.countF = 1
  isTwo_iff : s.isTwoOrMoreF = true ↔ 2 ≤ s.countF

theorem Bounded.reset : Bounded p (reset p) := ⟨Nat.le_refl _, beq_iff_eq, decide_eq_true_iff⟩

theorem countPlus1_eq (h : s.countF < p.bufferSize) : s.countPlus1 p = s.countF + 1 := by
  have hlt : p.bufferSize < 2 ^ p.bufferBits := p.size_lt
  exact Nat.mod_eq_of_lt (by omega)

namespace Bounded

theorem countTemp_le (h : s.Bounded p) : s.countTemp p ≤ p.bufferSize := by
  have hle := h.count_le
  have hpos : 0 < p.bufferSize := Nat.two_pow_pos _
  have hlt : p.bufferSize < 2 ^ p.bufferBits := p.size_lt
  have hminus : 0 < s.countF → s.countMinus1 p = s.countF - 1 := by
    intro hl
    rw [countMinus1, show s.countF + (2 ^ p.bufferBits - 1) = s.countF - 1 + 2 ^ p.bufferBits by omega,
      Nat.add_mod_right, Nat.mod_eq_of_lt (by omega)]
  unfold countTemp
  split
  next h0 =>
    split
    · rw [countPlus1_eq (by omega)]
      omega
    · exact hle
  next h0 =>
    split
    next hs =>
      split
      · rw [hminus (by omega)]
        omega
      · exact hle
    next hs =>
      split
      · rw [countPlus1_eq (by omega)]
        omega
      · rw [hminus (by omega)]
        omega
      · exact hle

theorem step (h : s.Bounded p) (valid yummy : Bool) : (s.step p valid yummy).Bounded p where
  count_le := h.countTemp_le
  isOne_iff := by
    simp only [SpaceAvail.step, topBitsZeroTemp, Bool.and_eq_true, beq_iff_eq]
    omega
  isTwo_iff := by
    simp only [SpaceAvail.step, topBitsZeroTemp, Bool.not_eq_true', beq_eq_false_iff_ne]
    omega

/-- Space is not lost while nothing is sent. -/
theorem spcAvail_step (h : s.Bounded p) (hv : s.validF = false) (hs : s.spcAvail = true) (yummy : Bool) :
    (s.step p false yummy).spcAvail = true := by
  have hpos : 0 < s.countTemp p := by
    simp only [spcAvail, Bool.or_eq_true, Bool.and_eq_true, h.isOne_iff, h.isTwo_iff] at hs
    have hle := h.count_le
    have hsize : 0 < p.bufferSize := Nat.two_pow_pos _
    unfold countTemp up down
    rw [hv]
    split
    next h0 =>
      have hy : s.yummyF = true := by
        rcases hs with (h2 | hy) | ⟨h1, -⟩
        · omega
        · exact hy
        · omega
      simp [hy, countPlus1_eq (p := p) (s := s) (by omega)]
    next h0 =>
      split
      · simpa using Nat.pos_of_ne_zero h0
      · cases hy : s.yummyF
        · simpa using Nat.pos_of_ne_zero h0
        · simp [countPlus1_eq (p := p) (s := s) (by omega)]
  have hnext := h.step false yummy
  rw [spcAvail, Bool.or_eq_true, Bool.or_eq_true, hnext.isTwo_iff, Bool.and_eq_true, hnext.isOne_iff]
  change (2 ≤ s.countTemp p ∨ _) ∨ s.countTemp p = 1 ∧ _
  rcases Nat.lt_or_ge (s.countTemp p) 2 with hlt | hge
  · exact .inr ⟨by omega, rfl⟩
  · exact .inl (.inl hge)

theorem spcAvail_yummy (p : LinkParams) (s : SpaceAvail) (valid : Bool) : (s.step p valid true).spcAvail = true := by
  simp [spcAvail, SpaceAvail.step]

end Bounded

end SpaceAvail

/-- An output's `space_avail_top` and the input block it sends to, with the flits sent and the
flits dequeued so far. -/
structure CreditLink (α : Type*) where
  space : SpaceAvail
  nib : InputBlk α
  sent : List α := []
  dequeued : List α := []

/-- What happens in a cycle: a flit sent, and `thanks_in` of the input block. -/
structure CreditIn (α : Type*) where
  valid : Option α
  thanks : Bool

namespace CreditLink

variable {α : Type*} {p : LinkParams}

/-- The output drives `valid_in` and `data_in`; `yummy_out` is the output's `yummy`. -/
def step (p : LinkParams) (s : CreditLink α) (i : CreditIn α) : CreditLink α where
  space := s.space.step p i.valid.isSome s.nib.yummyOutF
  nib := s.nib.step p.log2 i.valid i.thanks
  sent := s.sent ++ i.valid.toList
  dequeued := if i.thanks then s.dequeued ++ [s.nib.dataVal] else s.dequeued

/-- After a reset, whatever the memory holds. -/
def Init (p : LinkParams) (s : CreditLink α) : Prop :=
  ∃ mem, s = { space := .reset p, nib := { storageDataF := mem } }

/-- A flit is sent only with a credit, and dequeued only when there is one. -/
structure Fair (s : CreditLink α) (i : CreditIn α) : Prop where
  valid : i.valid.isSome = true → s.space.spcAvail = true
  thanks : i.thanks = true → s.nib.dataAvail = true

/-- Every slot of the block is a credit, a stored flit or on its way back, but the flit sent in the
last cycle is stored already while its credit is not yet taken. -/
def Conserved (p : LinkParams) (s : CreditLink α) : Prop :=
  s.space.countF + s.space.yummyF.toNat + s.nib.yummyOutF.toNat + s.nib.elementsInArrayF =
    p.bufferSize + s.space.validF.toNat

structure Sound (p : LinkParams) (s : CreditLink α) : Prop where
  space : s.space.Sound p
  conserved : s.Conserved p
  sent : ∃ l, s.nib.Holds p.log2 l ∧ s.sent = s.dequeued ++ l

variable {s : CreditLink α}

theorem Init.sound (h : s.Init p) : s.Sound p := by
  obtain ⟨mem, rfl⟩ := h
  exact ⟨.reset, rfl, [], .empty mem, rfl⟩

namespace Sound

theorem full (h : s.Sound p) : s.space.countF = p.bufferSize → s.space.yummyF = true → s.space.validF = true := by
  intro hc hy
  have hcons := h.conserved
  rw [Conserved, hc, hy, Bool.toNat_true] at hcons
  cases hv : s.space.validF with
  | true => rfl
  | false => rw [hv, Bool.toNat_false] at hcons; omega

theorem countTemp_eq (h : s.Sound p) :
    s.space.countTemp p + s.nib.yummyOutF.toNat + s.nib.elementsInArrayF = p.bufferSize := by
  have hcount := h.space.countTemp_eq h.full
  have hcons := h.conserved
  rw [Conserved] at hcons
  omega

theorem elements_lt (h : s.Sound p) (hspc : s.space.spcAvail = true) :
    s.nib.elementsInArrayF < p.bufferSize := by
  have hroom : s.space.countTemp p ≤ p.bufferSize := by have := h.countTemp_eq; omega
  have hvalid : true = true → s.space.spcAvail = true := fun _ => hspc
  have hnext := (h.space.step false h.full hroom hvalid).valid_le
  have hcount := h.countTemp_eq
  change 1 ≤ s.space.countTemp p at hnext
  omega

theorem elements_le (h : s.Sound p) : s.nib.elementsInArrayF ≤ p.bufferSize := by
  have := h.countTemp_eq
  omega

theorem step (h : s.Sound p) {i : CreditIn α} (hi : s.Fair i) : (s.step p i).Sound p := by
  obtain ⟨l, hl, hsent⟩ := h.sent
  have hcount := h.countTemp_eq
  have hthanks : i.thanks = true → l ≠ [] := fun ht => hl.dataAvail_iff.mp (hi.thanks ht)
  have hroom : i.valid.isSome = true → l.length < 2 ^ p.log2 := by
    intro hv
    have := h.elements_lt (hi.valid hv)
    rwa [hl.elements_eq] at this
  have hnib := hl.step i.valid i.thanks hthanks fun hv => Nat.lt_add_right _ (hroom hv)
  refine ⟨h.space.step _ h.full (by omega) hi.valid, ?_, _, hnib, ?_⟩
  · have hel := hnib.elements_eq
    have hlen := hl.elements_eq
    rw [List.length_append, List.length_drop] at hel
    change s.space.countTemp p + s.nib.yummyOutF.toNat + i.thanks.toNat +
      (s.nib.step p.log2 i.valid i.thanks).elementsInArrayF = p.bufferSize + i.valid.isSome.toNat
    have hval : i.valid.toList.length = i.valid.isSome.toNat := by cases i.valid <;> rfl
    rw [hel, hval]
    cases ht : i.thanks with
    | false => simp only [Bool.toNat_false, Bool.false_eq_true, if_false]; omega
    | true =>
        have := List.length_pos_iff.mpr (hthanks ht)
        simp only [Bool.toNat_true, if_true]
        omega
  · change s.sent ++ i.valid.toList = (if i.thanks then s.dequeued ++ [s.nib.dataVal] else s.dequeued) ++ _
    cases ht : i.thanks with
    | false => simp [hsent]
    | true =>
        cases l with
        | nil => exact absurd rfl (hthanks ht)
        | cons a l => simp [hsent, hl.dataVal_eq]

end Sound

theorem sound_of_reaches (h : Machine.Reaches (Init p) (step p) Fair s) : s.Sound p :=
  h.invariant (fun _ hs => hs.sound) fun _ _ hs hi => hs.step hi

/-- On a link whose credits start at the capacity of the input block, no flit is lost, overwritten
or reordered, and the credits account for every slot. -/
theorem credit_safety (h : Machine.Reaches (Init p) (step p) Fair s) :
    s.nib.elementsInArrayF ≤ 2 ^ p.log2 ∧
    s.sent.length = s.dequeued.length + s.nib.elementsInArrayF ∧
    s.sent = s.dequeued ++ (List.range s.nib.elementsInArrayF).map
      (fun k => s.nib.storageDataF ((s.nib.headPtrF + k) % 2 ^ p.log2)) ∧
    (s.space.spcAvail = true → s.nib.elementsInArrayF < 2 ^ p.log2 ∧
      ∀ k < s.nib.elementsInArrayF, (s.nib.headPtrF + k) % 2 ^ p.log2 ≠ s.nib.tailPtrF) ∧
    s.space.countF + s.space.yummyF.toNat + s.nib.yummyOutF.toNat + s.nib.elementsInArrayF =
      p.bufferSize + s.space.validF.toNat := by
  have hs := sound_of_reaches h
  obtain ⟨l, hl, hsent⟩ := hs.sent
  have hel := hl.elements_eq
  refine ⟨hs.elements_le, ?_, ?_, ?_, hs.conserved⟩
  · rw [hsent, List.length_append, hel]
  · rw [hl.contents, hsent]
  · intro hspc
    have hlt := hs.elements_lt hspc
    refine ⟨hlt, fun k hk => ?_⟩
    rw [hel] at hk hlt
    exact hl.tail_fresh hlt hk

/-- The link of the mesh routers. -/
def meshLink : LinkParams := ⟨2, 3, Nat.two_pos, four_lt_eight⟩

instance (s : CreditLink α) (i : CreditIn α) : Decidable (s.Fair i) :=
  decidable_of_iff ((i.valid.isSome = true → s.space.spcAvail = true) ∧
    (i.thanks = true → s.nib.dataAvail = true)) ⟨fun h => ⟨h.1, h.2⟩, fun h => ⟨h.valid, h.thanks⟩⟩

def emptyLink : CreditLink Nat := { space := .reset meshLink, nib := { storageDataF := fun _ => 0 } }

theorem emptyLink_reaches (is : List (CreditIn Nat)) (h : Machine.Meets (step meshLink) Fair emptyLink is) :
    Machine.Reaches (Init meshLink) (step meshLink) Fair (Machine.run (step meshLink) emptyLink is) :=
  (Machine.Reaches.start ⟨_, rfl⟩).run h

theorem credit_safety_two_sends :
    let s := Machine.run (step meshLink) emptyLink [⟨some 7, false⟩, ⟨some 8, true⟩]
    s.dequeued = [7] ∧ s.sent = s.dequeued ++ [8] := by
  have h := (credit_safety (emptyLink_reaches [⟨some 7, false⟩, ⟨some 8, true⟩] (by decide))).2.2.1
  exact ⟨rfl, h⟩

/-- The count keeps the credit of a flit that is stored already, so no number of flits and yummies
in flight adds up. -/
theorem credit_sum_overshoots :
    ∃ s : CreditLink Nat, Machine.Reaches (Init meshLink) (step meshLink) Fair s ∧
      ∀ flits yummies, s.space.countF + flits + yummies + s.nib.elementsInArrayF ≠ meshLink.bufferSize := by
  refine ⟨_, emptyLink_reaches [⟨some 7, false⟩] (by decide), fun flits yummies h => ?_⟩
  change 4 + flits + yummies + 1 = 4 at h
  omega

end CreditLink

end OpenPiton.Router
