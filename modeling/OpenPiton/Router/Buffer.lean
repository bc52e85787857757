import OpenPiton.Lib.Fifo

namespace OpenPiton.Router

/-- `network_input_blk_multi_out`. -/
structure InputBlk (α : Type*) where
  storageDataF : Nat → α
  headPtrF : Nat := 0
  tailPtrF : Nat := 0
  elementsInArrayF : Nat := 0
  yummyOutF : Bool := false

namespace InputBlk

variable {α : Type*} {log2 : Nat}

def dataVal (s : InputBlk α) : α := s.storageDataF s.headPtrF

def dataAvail (s : InputBlk α) : Bool := s.elementsInArrayF != 0

/-- One clock; `validIn` carries `data_in` when `valid_in` is high. The pointers have `log2` bits
and the count one more. -/
def step (log2 : Nat) (s : InputBlk α) (validIn : Option α) (thanksIn : Bool) : InputBlk α where
  storageDataF :=
    match validIn with
    | none => s.storageDataF
    | some dataIn => Function.update s.storageDataF s.tailPtrF dataIn
  headPtrF := if thanksIn then (s.headPtrF + 1) % 2 ^ log2 else s.headPtrF
  tailPtrF := if validIn.isSome then (s.tailPtrF + 1) % 2 ^ log2 else s.tailPtrF
  elementsInArrayF :=
    match validIn.isSome, thanksIn with
    | false, true => (s.elementsInArrayF + (2 ^ (log2 + 1) - 1)) % 2 ^ (log2 + 1)
    | true, false => (s.elementsInArrayF + 1) % 2 ^ (log2 + 1)
    | _, _ => s.elementsInArrayF
  yummyOutF := thanksIn

def toFifo (s : InputBlk α) : Fifo α where
  mem := s.storageDataF
  rdPtr := s.headPtrF
  wrPtr := s.tailPtrF
  counter := s.elementsInArrayF

/-- The flits in the array, oldest first. -/
def Holds (log2 : Nat) (s : InputBlk α) (l : List α) : Prop := Fifo.Holds (2 ^ log2) s.toFifo l

theorem Holds.empty (mem : Nat → α) : Holds log2 ⟨mem, 0, 0, 0, false⟩ [] :=
  Fifo.Holds.empty (Nat.two_pow_pos log2) mem

namespace Holds

variable {s : InputBlk α} {l : List α}

theorem elements_eq (h : Holds log2 s l) : s.elementsInArrayF = l.length := h.counter_eq

theorem dataAvail_iff (h : Holds log2 s l) : s.dataAvail = true ↔ l ≠ [] := by
  rw [dataAvail, h.elements_eq, bne_iff_ne, ne_eq, List.length_eq_zero_iff]

theorem dataVal_eq {a : α} (h : Holds log2 s (a :: l)) : s.dataVal = a := by
  have hget := h.get 0 a rfl
  have hlt := h.rd_lt
  rwa [Nat.add_zero, Nat.mod_eq_of_lt hlt] at hget

/-- A flit that arrives while there is room takes a slot that no stored flit has. -/
theorem tail_fresh (h : Holds log2 s l) (hl : l.length < 2 ^ log2) {k : Nat} (hk : k < l.length) :
    (s.headPtrF + k) % 2 ^ log2 ≠ s.tailPtrF := by
  intro he
  have hw : s.tailPtrF = (s.headPtrF + l.length) % 2 ^ log2 := h.wr_eq
  rw [hw] at he
  have := Ring.add_mod_inj (by omega) hl he
  omega

theorem contents (h : Holds log2 s l) :
    (List.range s.elementsInArrayF).map (fun k => s.storageDataF ((s.headPtrF + k) % 2 ^ log2)) = l := by
  apply List.ext_getElem
  · simp [h.elements_eq]
  · intro k _ hk
    rw [List.getElem_map, List.getElem_range]
    exact h.get k l[k] (List.getElem?_eq_getElem hk)

/-- A dequeue takes the oldest flit, and an arriving flit goes behind the others. -/
theorem step (h : Holds log2 s l) (validIn : Option α) (thanksIn : Bool)
    (hthanks : thanksIn = true → l ≠ [])
    (hroom : validIn.isSome = true → l.length < 2 ^ log2 + if thanksIn then 1 else 0) :
    Holds log2 (s.step log2 validIn thanksIn) (l.drop (if thanksIn then 1 else 0) ++ validIn.toList) := by
  have hel := h.elements_eq
  have hle : l.length ≤ 2 ^ log2 := h.length_le
  have hpow : 2 ^ (log2 + 1) = 2 ^ log2 + 2 ^ log2 := by rw [Nat.pow_succ]; omega
  have htail : s.tailPtrF < 2 ^ log2 := by
    have hw : s.tailPtrF = (s.headPtrF + l.length) % 2 ^ log2 := h.wr_eq
    rw [hw]
    exact Nat.mod_lt _ (Nat.two_pow_pos _)
  have hpos : thanksIn = true → 0 < l.length := fun ht => List.length_pos_iff.mpr (hthanks ht)
  have hpop : Fifo.Holds (2 ^ log2)
      { s.toFifo with
        rdPtr := if thanksIn then (s.headPtrF + 1) % 2 ^ log2 else s.headPtrF
        counter := s.elementsInArrayF - if thanksIn then 1 else 0 }
      (l.drop (if thanksIn then 1 else 0)) := by
    cases thanksIn with
    | false => exact h
    | true => exact h.pop (hpos rfl) rfl rfl rfl rfl
  apply hpop.push (g := (s.step log2 validIn thanksIn).toFifo)
  · rw [List.length_drop]
    cases validIn with
    | none => exact Nat.le_trans (Nat.sub_le _ _) hle
    | some a =>
        have := hroom rfl
        have hone : (some a).toList.length = 1 := rfl
        omega
  · cases validIn with
    | none => rfl
    | some a => simp only [InputBlk.step, toFifo, Option.toList_some, Fifo.writeFrom, Nat.mod_eq_of_lt htail]
  · cases thanksIn <;> rfl
  · cases validIn with
    | none => exact (Nat.mod_eq_of_lt htail).symm
    | some a => rfl
  · change (s.step log2 validIn thanksIn).elementsInArrayF = _
    have hlt : s.elementsInArrayF < 2 ^ (log2 + 1) := by
      have := Nat.two_pow_pos log2
      omega
    cases validIn with
    | none =>
        cases thanksIn with
        | false => rfl
        | true =>
            have := hpos rfl
            simp only [InputBlk.step, Option.isSome_none, Option.toList_none, List.length_nil, if_true]
            rw [show s.elementsInArrayF + (2 ^ (log2 + 1) - 1) = s.elementsInArrayF - 1 + 2 ^ (log2 + 1) by omega,
              Nat.add_mod_right, Nat.mod_eq_of_lt (by omega)]
            omega
    | some a =>
        have hr := hroom rfl
        cases thanksIn with
        | false =>
            have := Nat.two_pow_pos log2
            simp only [InputBlk.step, Option.isSome_some, Option.toList_some, List.length_singleton]
            exact Nat.mod_eq_of_lt (by simp only [Bool.false_eq_true, if_false] at hr; omega)
        | true =>
            have := hpos rfl
            simp only [InputBlk.step, Option.isSome_some, Option.toList_some, List.length_singleton, if_true]
            omega

end Holds

end InputBlk

end OpenPiton.Router
