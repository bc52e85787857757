import Mathlib.Logic.Function.Basic

namespace OpenPiton

/-- A register file with one read and one write port: the read index is latched, the row under it
is read combinationally. -/
structure RegFile (ρ : Type*) where
  rows : Nat → ρ
  readIndex : Nat

namespace RegFile

variable {ρ : Type*}

def readData (rf : RegFile ρ) : ρ := rf.rows rf.readIndex

/-- One clock: `read` latches an index, `write` replaces a row. -/
def step (rf : RegFile ρ) (read : Option Nat) (write : Option (Nat × ρ)) : RegFile ρ where
  rows := match write with
    | none => rf.rows
    | some (index, row) => Function.update rf.rows index row
  readIndex := read.getD rf.readIndex

@[simp] theorem step_none (rf : RegFile ρ) : rf.step none none = rf := rfl

@[simp] theorem step_rows_none (rf : RegFile ρ) (read : Option Nat) :
    (rf.step read none).rows = rf.rows := rfl

@[simp] theorem step_rows_some (rf : RegFile ρ) (read : Option Nat) (index : Nat) (row : ρ) :
    (rf.step read (some (index, row))).rows = Function.update rf.rows index row := rfl

@[simp] theorem step_readIndex_none (rf : RegFile ρ) (write : Option (Nat × ρ)) :
    (rf.step none write).readIndex = rf.readIndex := rfl

@[simp] theorem step_readIndex_some (rf : RegFile ρ) (index : Nat) (write : Option (Nat × ρ)) :
    (rf.step (some index) write).readIndex = index := rfl

theorem step_rows_ne {rf : RegFile ρ} {read : Option Nat} {write : Option (Nat × ρ)} {index : Nat}
    (h : ∀ row, write ≠ some (index, row)) : (rf.step read write).rows index = rf.rows index := by
  cases write with
  | none => rfl
  | some w =>
      have hne : index ≠ w.1 := fun he => h w.2 (by rw [he])
      simp [step, hne]

end RegFile

end OpenPiton
