import Mathlib.Data.BitVec

namespace OpenPiton.Router

/-- `DATA_WIDTH`: the fields of a header are in the low 64 bits of a flit, whatever its width. -/
abbrev DATA_WIDTH : Nat := 64
abbrev CHIP_ID_WIDTH : Nat := 14
abbrev XY_WIDTH : Nat := 8
abbrev PAYLOAD_LEN : Nat := 8

def offChipNodeX : BitVec XY_WIDTH := 0
def offChipNodeY : BitVec XY_WIDTH := 0

inductive Port
  | n | e | s | w | p
  deriving DecidableEq, Repr

/-- The ports of the X dimension. -/
def Port.IsX (q : Port) : Prop := q = .e ∨ q = .w

/-- The ports of the Y dimension. -/
def Port.IsY (q : Port) : Prop := q = .n ∨ q = .s

def finalNone : BitVec 3 := 0b000#3
def finalWest : BitVec 3 := 0b010#3
def finalSouth : BitVec 3 := 0b011#3
def finalEast : BitVec 3 := 0b100#3
def finalNorth : BitVec 3 := 0b101#3

/-- The port the final bits name. -/
def finalPort (finalBits : BitVec 3) : Option Port :=
  if finalBits = finalNone then some .p
  else if finalBits = finalWest then some .w
  else if finalBits = finalSouth then some .s
  else if finalBits = finalEast then some .e
  else if finalBits = finalNorth then some .n
  else none

/-- The header fields that `dynamic_input_top` takes from the flit in front. -/
structure Header where
  absChipId : BitVec CHIP_ID_WIDTH
  absX : BitVec XY_WIDTH
  absY : BitVec XY_WIDTH
  finalBits : BitVec 3
  lengthIn : BitVec PAYLOAD_LEN
  deriving DecidableEq

/-- The fields of `data_out_internal`; a set top bit of the fbits stands for the processor. -/
def header {width : Nat} (flit : BitVec width) : Header where
  absChipId := flit.extractLsb' (DATA_WIDTH - CHIP_ID_WIDTH) CHIP_ID_WIDTH
  absX := flit.extractLsb' (DATA_WIDTH - CHIP_ID_WIDTH - XY_WIDTH) XY_WIDTH
  absY := flit.extractLsb' (DATA_WIDTH - CHIP_ID_WIDTH - 2 * XY_WIDTH) XY_WIDTH
  finalBits :=
    if flit.getLsbD (DATA_WIDTH - CHIP_ID_WIDTH - 2 * XY_WIDTH - 1) then 0
    else flit.extractLsb' (DATA_WIDTH - CHIP_ID_WIDTH - 2 * XY_WIDTH - 4) 3
  lengthIn := flit.extractLsb' (DATA_WIDTH - CHIP_ID_WIDTH - 2 * XY_WIDTH - 4 - PAYLOAD_LEN) PAYLOAD_LEN

/-- The inputs of `dynamic_input_route_request_calc` that do not come from the flit. -/
structure Loc where
  myLocX : BitVec XY_WIDTH
  myLocY : BitVec XY_WIDTH
  myChipId : BitVec CHIP_ID_WIDTH

namespace Loc

variable (l : Loc) (h : Header)

def offChip : Bool := h.absChipId != l.myChipId

def moreX : Bool := if l.offChip h then l.myLocX.ult offChipNodeX else l.myLocX.ult h.absX
def moreY : Bool := if l.offChip h then l.myLocY.ult offChipNodeY else l.myLocY.ult h.absY
def lessX : Bool := if l.offChip h then offChipNodeX.ult l.myLocX else h.absX.ult l.myLocX
def lessY : Bool := if l.offChip h then offChipNodeY.ult l.myLocY else h.absY.ult l.myLocY
def doneX : Bool := if l.offChip h then offChipNodeX == l.myLocX else h.absX == l.myLocX
def doneY : Bool := if l.offChip h then offChipNodeY == l.myLocY else h.absY == l.myLocY

def done : Bool := l.doneX h && l.doneY h

def northCalc : Bool := l.doneX h && l.lessY h
def southCalc : Bool := l.doneX h && l.moreY h

def north : Bool := l.northCalc h || (h.finalBits == finalNorth && l.done h)
def south : Bool := l.southCalc h || (h.finalBits == finalSouth && l.done h)
def east : Bool := l.moreX h || (h.finalBits == finalEast && l.done h)
def west : Bool := l.lessX h || (h.finalBits == finalWest && l.done h)
def proc : Bool := h.finalBits == finalNone && l.done h

/-- `route_req_*`; the `default_ready_*` outputs have the same values. -/
def routeReq (headerIn : Bool) : Port → Bool
  | .n => headerIn && l.north h
  | .e => headerIn && l.east h
  | .s => headerIn && l.south h
  | .w => headerIn && l.west h
  | .p => headerIn && l.proc h

/-- The port a header asks for: first along X, then along Y, then as the final bits say. -/
def port : Option Port :=
  if l.moreX h then some .e
  else if l.lessX h then some .w
  else if l.lessY h then some .n
  else if l.moreY h then some .s
  else finalPort h.finalBits

theorem x_cases : l.moreX h = true ∧ l.doneX h = false ∧ l.lessX h = false ∨
    l.moreX h = false ∧ l.doneX h = true ∧ l.lessX h = false ∨
    l.moreX h = false ∧ l.doneX h = false ∧ l.lessX h = true := by
  unfold moreX doneX lessX
  split <;> simp only [BitVec.ult_iff_lt, beq_iff_eq, Bool.eq_false_iff, ne_eq] <;> bv_omega

theorem y_cases : l.moreY h = true ∧ l.doneY h = false ∧ l.lessY h = false ∨
    l.moreY h = false ∧ l.doneY h = true ∧ l.lessY h = false ∨
    l.moreY h = false ∧ l.doneY h = false ∧ l.lessY h = true := by
  unfold moreY doneY lessY
  split <;> simp only [BitVec.ult_iff_lt, beq_iff_eq, Bool.eq_false_iff, ne_eq] <;> bv_omega

theorem routeReq_iff {q : Port} : l.routeReq h true q = true ↔ l.port h = some q := by
  have hfinal : ∀ f : BitVec 3, finalPort f = some q ↔ f = match q with
      | .n => finalNorth | .e => finalEast | .s => finalSouth | .w => finalWest | .p => finalNone := by
    cases q <;> decide
  rcases l.x_cases h with ⟨hm, hd, hl⟩ | ⟨hm, hd, hl⟩ | ⟨hm, hd, hl⟩
  · cases q <;> simp [routeReq, port, north, northCalc, south, southCalc, east, west, proc, done, hm, hd, hl]
  · rcases l.y_cases h with ⟨hm', hd', hl'⟩ | ⟨hm', hd', hl'⟩ | ⟨hm', hd', hl'⟩
    · cases q <;>
        simp [routeReq, port, north, northCalc, south, southCalc, east, west, proc, done, hm, hd, hl, hm', hd', hl']
    · rw [port, hm, hl, hl', hm']
      simp only [Bool.false_eq_true, if_false, hfinal]
      cases q <;> simp [routeReq, north, northCalc, south, southCalc, east, west, proc, done, hm, hd, hl, hm', hd', hl']
    · cases q <;>
        simp [routeReq, port, north, northCalc, south, southCalc, east, west, proc, done, hm, hd, hl, hm', hd', hl']
  · cases q <;> simp [routeReq, port, north, northCalc, south, southCalc, east, west, proc, done, hm, hd, hl]

theorem routeReq_unique {q q' : Port} (hq : l.routeReq h true q = true) (hq' : l.routeReq h true q' = true) :
    q = q' :=
  Option.some.inj (((l.routeReq_iff h).mp hq).symm.trans ((l.routeReq_iff h).mp hq'))

end Loc

end OpenPiton.Router
