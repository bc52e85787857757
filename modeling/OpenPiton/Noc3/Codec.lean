import OpenPiton.Noc3.BufIn
import Mathlib.Tactic.IntervalCases

namespace OpenPiton.Noc3

open L15 (Word)
open Noc1 (Flit fieldType fieldLength)

/-- The messages for a line size: a write-back of a line, or an ack with or without data. -/
inductive Kind : LineSize → Bool → Nat → Prop
  | writeback16 : Kind .b16 true 4
  | writeback32 : Kind .b32 true 6
  | writeback64 : Kind .b64 true 10
  | ack {line : LineSize} : Kind line false 0
  | ackHalf {line : LineSize} : Kind line false 2
  | ackLine : Kind .b64 false 8

/-- The input machine has taken the words before `pos` of a message. -/
def Control.At (w : Width) (request : Bool) (len pos : Nat) (c : Control) : Prop :=
  match w with
  | .w64 =>
      if pos = 0 then c.msgState = 0
      else c.msgState = (if request then pos else pos + 2) ∧ c.msgDataState = dataStateOf (BitVec.ofNat 8 len)
  | .w128 =>
      if pos = 0 then c.psIn = .ideal
      else c.psIn = (if request && pos == 2 then .wbSt1 else .getData) ∧
        c.remainedData = BitVec.ofNat 8 (len + 1 - pos)
  | .w256 =>
      if pos = 0 then c.psIn = .ideal
      else c.psIn = .getData ∧ c.remainedData = BitVec.ofNat 8 (len + 1 - pos)
  | .w512 => c.psIn = if pos = 0 then .ideal else if request then .getData2 else .getData
  | .w576 => c.psIn = if pos = 0 then .ideal else .getData
  | .w704 => True

/-- The header words in the flit at `pos`, and the data words behind them. -/
def headerCount (w : Width) (request : Bool) (pos : Nat) : Nat := min ((if request then 3 else 1) - pos) w.words

def dataCount (w : Width) (request : Bool) (len pos : Nat) : Nat :=
  min (len + 1 - pos) w.words - headerCount w request pos

/-- The first flit of a message shows its type and its length. -/
def Shows (request : Bool) (len pos : Nat) (f : Flit) : Prop :=
  pos = 0 → (fieldType (f.word 0) = msgTypeWbReq ↔ request = true) ∧ fieldLength (f.word 0) = BitVec.ofNat 8 len

/-- The branch takes the words of the flit at `pos` apart and goes on behind them. -/
def Parts (w : Width) (request : Bool) (len pos : Nat) (f : Flit) (a : Accept) : Prop :=
  a.headers = slice f 0 (headerCount w request pos) ∧
    a.data = slice f (headerCount w request pos) (dataCount w request len pos) ∧
    a.next.At w request len (if len < pos + w.words then 0 else pos + w.words)

variable {cfg : Cfg} {line : LineSize} {request : Bool} {len pos : Nat} {c : Control} {f : Flit}

theorem Control.At.zero {w : Width} (h : c.At w request len 0) (request' : Bool) (len' : Nat) :
    c.At w request' len' 0 := by
  cases w <;> exact h

theorem Control.At.init (w : Width) (request : Bool) (len : Nat) : Control.At w request len 0 {} := by
  cases w
  case w704 => trivial
  all_goals rfl

theorem Kind.le (hk : Kind line request len) : len ≤ 10 := by
  cases hk <;> decide

/-- The data of a message start at its end at the latest, and are a line at most. -/
theorem Kind.fits (hk : Kind line request len) : (if request then 3 else 1) ≤ len + 1 ∧
    len + 1 - (if request then 3 else 1) ≤ line.maxDataPackets := by
  cases hk
  case ack | ackHalf => cases line <;> decide
  all_goals decide

@[simp] theorem slice_zero {k : Nat} : slice f k 0 = [] := rfl

theorem accept_w64 (hk : Kind line request len) (hat : c.At .w64 request len pos) (hle : pos ≤ len)
    (hs : Shows request len pos f) : Parts .w64 request len pos f (c.accept64 f) := by
  have hpos : pos ≤ 10 := hle.trans hk.le
  cases hk <;> interval_cases pos <;> try omega
  all_goals simp [Control.At, Shows] at hat hs
  all_goals
    simp [Control.accept64, Control.stateNext64, Control.dataStateNext, hat, hs, Parts, headerCount,
      dataCount, Width.words, slice, Control.At, dataStateOf]

theorem accept_w128 (hk : Kind line request len) (hat : c.At .w128 request len pos) (hle : pos ≤ len)
    (hpos : 2 ∣ pos) (hs : Shows request len pos f) :
    ∃ a, c.accept128 f = some a ∧ Parts .w128 request len pos f a := by
  obtain ⟨j, rfl⟩ := hpos
  have hj : j ≤ 5 := by have := hk.le; omega
  cases hk <;> interval_cases j <;> try omega
  all_goals simp [Control.At, Shows] at hat hs
  all_goals
    simp [Control.accept128, hat, hs, Parts, headerCount, dataCount, Width.words, slice, Control.At,
      List.range_succ]

theorem accept_w256 (hk : Kind line request len) (hat : c.At .w256 request len pos) (hle : pos ≤ len)
    (hpos : 4 ∣ pos) (hs : Shows request len pos f) :
    ∃ a, c.accept256 f = some a ∧ Parts .w256 request len pos f a := by
  obtain ⟨j, rfl⟩ := hpos
  have hj : j ≤ 2 := by have := hk.le; omega
  cases hk <;> interval_cases j <;> try omega
  all_goals simp [Control.At, Shows] at hat hs
  all_goals
    simp [Control.accept256, hat, hs, Parts, headerCount, dataCount, Width.words, slice, Control.At,
      List.range_succ]

theorem accept_w512 (hk : Kind line request len) (hat : c.At .w512 request len pos) (hle : pos ≤ len)
    (hpos : 8 ∣ pos) (hs : Shows request len pos f) :
    ∃ a, c.accept512 f line = some a ∧ Parts .w512 request len pos f a := by
  obtain ⟨j, rfl⟩ := hpos
  have hj : j ≤ 1 := by have := hk.le; omega
  cases hk <;> interval_cases j <;> try omega
  all_goals simp [Control.At, Shows] at hat hs
  all_goals
    simp [Control.accept512, Control.acceptShort, hat, hs, Parts, headerCount, dataCount, Width.words, slice,
      Control.At, List.range_succ]

theorem accept_w576 (hk : Kind line request len) (hat : c.At .w576 request len pos) (hle : pos ≤ len)
    (hpos : 9 ∣ pos) (hs : Shows request len pos f) :
    ∃ a, c.accept576 f line = some a ∧ Parts .w576 request len pos f a := by
  obtain ⟨j, rfl⟩ := hpos
  have hj : j ≤ 1 := by have := hk.le; omega
  cases hk <;> interval_cases j <;> try omega
  all_goals simp [Control.At, Shows] at hat hs
  all_goals
    simp [Control.accept576, Control.acceptShort, hat, hs, Parts, headerCount, dataCount, Width.words, slice,
      Control.At, List.range_succ]

theorem accept_w704 (hk : Kind line request len) (hle : pos ≤ len) (hpos : 11 ∣ pos)
    (hs : Shows request len pos f) :
    ∃ a, c.accept704 f line = some a ∧ Parts .w704 request len pos f a := by
  obtain rfl : pos = 0 := by have := hk.le; omega
  have hs := hs rfl
  cases hk
  all_goals
    simp at hs
    simp [Control.accept704, Control.acceptShort, hs, Parts, headerCount, dataCount, Width.words, slice,
      Control.At, LineSize.maxDataPackets, List.range_succ]

/-- At every width, the branch for the next flit of a message is there and takes it apart. -/
theorem accept_at (hk : Kind cfg.lineSize request len) (hat : c.At cfg.width request len pos) (hle : pos ≤ len)
    (hpos : cfg.width.words ∣ pos) (hs : Shows request len pos f) :
    ∃ a, c.accept f cfg = some a ∧ Parts cfg.width request len pos f a := by
  simp only [Control.accept]
  cases hw : cfg.width <;> rw [hw] at hat hpos
  case w64 => exact ⟨_, rfl, accept_w64 hk hat hle hs⟩
  case w128 => exact accept_w128 hk hat hle hpos hs
  case w256 => exact accept_w256 hk hat hle hpos hs
  case w512 => exact accept_w512 hk hat hle hpos hs
  case w576 => exact accept_w576 hk hat hle hpos hs
  case w704 => exact accept_w704 hk hle hpos hs

end OpenPiton.Noc3
