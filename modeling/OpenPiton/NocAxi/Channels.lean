import Mathlib.Data.Nat.Log
import OpenPiton.NocAxi.Lanes

namespace OpenPiton.NocAxi

/-- A request to `noc_axi4_bridge_write`. -/
structure WriteReq where
  addr : BitVec 64
  sizeLog : BitVec 3
  id : Nat
  data : Line
  strb : BitVec 64

/-- A request to `noc_axi4_bridge_read`. -/
structure ReadReq where
  addr : BitVec 64
  sizeLog : BitVec 3
  id : Nat

/-- A transfer of read data. -/
structure ReadBeat (w : Nat) where
  id : Nat
  data : BitVec (8 * 2 ^ w)
  last : Bool

def AddrCfg.maxBurstLen (c : AddrCfg) : Nat := 512 / (8 * 2 ^ c.datWidthUsedLog2)

/-- The width of `burst_count`. -/
def AddrCfg.burstCountWidth (c : AddrCfg) : Nat := clip2zer ((Nat.clog 2 c.maxBurstLen : Int) - 1) + 1

/-- The high part stays. -/
def shiftDown {n : Nat} (x : BitVec n) (d : Nat) : BitVec n :=
  (x.extractLsb' (n - d) d ++ x.extractLsb' d (n - d)).setWidth n

def setSlice {n : Nat} (x : Line) (start : Nat) (y : BitVec n) : Line :=
  x &&& ~~~((BitVec.allOnes n).setWidth 512 <<< start) ||| y.setWidth 512 <<< start

namespace AddrCfg

variable (c : AddrCfg)

theorem maxBurstLen_eq : c.maxBurstLen = 2 ^ (6 - c.datWidthUsedLog2) := by
  have hmem := c.datWidth_mem
  rw [maxBurstLen]
  simp only [List.mem_cons, List.not_mem_nil, or_false] at hmem
  rcases hmem with h | h | h | h <;> rw [h] <;> rfl

theorem maxBurstLen_le : c.maxBurstLen ≤ 2 ^ c.burstCountWidth := by
  have hmem := c.datWidth_mem
  rw [burstCountWidth, maxBurstLen]
  simp only [List.mem_cons, List.not_mem_nil, or_false] at hmem
  rcases hmem with h | h | h | h <;> rw [h] <;> decide

theorem burstLen_lt {s : BitVec 3} (hs : s.toNat ≤ 6) : c.burstLen s < c.maxBurstLen := by
  rw [maxBurstLen_eq]
  change (c.burst 0 s).len < _
  rcases Nat.lt_or_ge s.toNat c.datWidthUsedLog2 with hlt | hge
  · rw [burst_narrow hlt]
    exact Nat.two_pow_pos _
  · rw [burst_wide hge]
    have := Nat.two_pow_pos (s.toNat - c.datWidthUsedLog2)
    have : 2 ^ (s.toNat - c.datWidthUsedLog2) ≤ 2 ^ (6 - c.datWidthUsedLog2) :=
      Nat.pow_le_pow_right (by decide) (by omega)
    simp only
    omega

theorem maxBurstLen_mul : 2 ^ c.datWidthUsedLog2 * c.maxBurstLen = 64 := by
  rw [maxBurstLen_eq, ← Nat.pow_add, Nat.add_sub_cancel' c.datWidth_le]

end AddrCfg

/-- What is left of `x` after the parts below bit `n` have gone. -/
def Rest {m : Nat} (x y : BitVec m) (n : Nat) : Prop := ∀ j, n + j < m → y.getLsbD j = x.getLsbD (n + j)

theorem Rest.shiftDown {m : Nat} {x y : BitVec m} {n : Nat} (h : Rest x y n) (d : Nat) :
    Rest x (shiftDown y d) (n + d) := by
  intro j hj
  rw [NocAxi.shiftDown, BitVec.getLsbD_setWidth, decide_eq_true (by omega), Bool.true_and, BitVec.getLsbD_append,
    if_pos (by omega), BitVec.getLsbD_extractLsb', decide_eq_true (by omega), Bool.true_and, h _ (by omega)]
  congr 1
  omega

theorem Rest.extractLsb' {m : Nat} {x y : BitVec m} {n : Nat} (h : Rest x y n) {d : Nat} (hd : n + d ≤ m) :
    y.extractLsb' 0 d = x.extractLsb' n d := by
  refine BitVec.eq_of_getLsbD_eq fun j hj => ?_
  rw [BitVec.getLsbD_extractLsb', BitVec.getLsbD_extractLsb', Nat.zero_add, h j (by omega)]

theorem getLsbD_setSlice {n : Nat} (x : Line) (start : Nat) (y : BitVec n) {j : Nat} (hj : j < 512) :
    (setSlice x start y).getLsbD j =
      if start ≤ j ∧ j < start + n then y.getLsbD (j - start) else x.getLsbD j := by
  rw [setSlice, BitVec.getLsbD_or, BitVec.getLsbD_and, BitVec.getLsbD_not, BitVec.getLsbD_shiftLeft,
    BitVec.getLsbD_shiftLeft, BitVec.getLsbD_setWidth, BitVec.getLsbD_setWidth, BitVec.getLsbD_allOnes]
  by_cases hs : start ≤ j
  · by_cases hn : j < start + n
    · simp [hj, hs, hn, show ¬ j < start by omega, show j - start < 512 by omega, show j - start < n by omega]
    · simp [hj, hs, hn, show ¬ j < start by omega, show ¬ j - start < n by omega,
        BitVec.getLsbD_of_ge y (j - start) (by omega)]
  · simp [hj, hs, show j < start by omega]

inductive WriteState where
  | idle
  | gotReq
  | sentAw
  | sentW
  deriving DecidableEq

namespace WriteState

def next (reqGo awgo lwgo : Bool) : WriteState → WriteState
  | .idle => if reqGo then .gotReq else .idle
  | .gotReq => if awgo && lwgo then .idle else if awgo then .sentAw else if lwgo then .sentW else .gotReq
  | .sentAw => if lwgo then .idle else .sentAw
  | .sentW => if awgo then .idle else .sentW

def awvalid (s : WriteState) : Bool := s == .gotReq || s == .sentW

def wvalid (s : WriteState) : Bool := s == .gotReq || s == .sentAw

/-- An address is offered from the request on until it is taken, and data until the last transfer is
taken. -/
theorem valid_next (s : WriteState) (reqGo awgo lwgo : Bool) :
    (s.next reqGo awgo lwgo).awvalid = (s == .idle && reqGo || s.awvalid && !awgo) ∧
      (s.next reqGo awgo lwgo).wvalid = (s == .idle && reqGo || s.wvalid && !lwgo) := by
  cases s <;> cases reqGo <;> cases awgo <;> cases lwgo <;> decide

end WriteState

/-- The registers of `noc_axi4_bridge_write`; those of the address channel have no reset. -/
structure AxiWrite where
  reqState : WriteState := .idle
  aw : Axi.Burst
  awid : Nat
  burstCount : Nat := 0
  reqDataF : Line := 0
  reqStrbF : BitVec 64 := 0
  respState : Bool := false
  respIdF : Nat := 0

structure WriteIn where
  req : Option WriteReq := none
  awready : Bool := false
  wready : Bool := false
  b : Option Nat := none
  respRdy : Bool := false

namespace AxiWrite

variable (c : AddrCfg) (s : AxiWrite) (i : WriteIn)

def reqRdy : Bool := s.reqState == .idle

def awvalid : Bool := s.reqState.awvalid

def wvalid : Bool := s.reqState.wvalid

def wlast : Bool := s.burstCount == 0

def wBeat : Axi.Beat c.datWidthUsedLog2 where
  data := s.reqDataF.extractLsb' 0 (8 * 2 ^ c.datWidthUsedLog2)
  strb := s.reqStrbF.extractLsb' 0 (2 ^ c.datWidthUsedLog2)
  last := s.wlast

def awgo : Bool := s.awvalid && i.awready

def wgo : Bool := s.wvalid && i.wready

def lwgo : Bool := s.wgo i && s.wlast

/-- The request taken in a cycle. -/
def reqGo : Option WriteReq := if s.reqRdy then i.req else none

def respVal : Bool := s.respState

def bready : Bool := !s.respState

/-- The response taken in a cycle. -/
def bgo : Option Nat := if s.bready then i.b else none

def step : AxiWrite where
  reqState := s.reqState.next (s.reqGo i).isSome (s.awgo i) (s.lwgo i)
  aw := match s.reqGo i with
    | some req => c.burst req.addr req.sizeLog
    | none => s.aw
  awid := match s.reqGo i with
    | some req => req.id
    | none => s.awid
  burstCount := match s.reqGo i with
    | some req => c.burstLen req.sizeLog % 2 ^ c.burstCountWidth
    | none => if c.maxBurstLen > 1 ∧ s.wgo i ∧ !s.wlast then s.burstCount - 1 else s.burstCount
  reqDataF := match s.reqGo i with
    | some req => req.data
    | none =>
        if c.maxBurstLen > 1 ∧ s.wgo i ∧ !s.wlast then shiftDown s.reqDataF (8 * 2 ^ c.datWidthUsedLog2) else s.reqDataF
  reqStrbF := match s.reqGo i with
    | some req => req.strb
    | none => if c.maxBurstLen > 1 ∧ s.wgo i ∧ !s.wlast then shiftDown s.reqStrbF (2 ^ c.datWidthUsedLog2) else s.reqStrbF
  respState := if s.respState then !i.respRdy else (s.bgo i).isSome
  respIdF := (s.bgo i).getD s.respIdF

theorem reqGo_eq_some {req : WriteReq} : s.reqGo i = some req ↔ s.reqState = .idle ∧ i.req = some req := by
  simp [reqGo, reqRdy]

theorem reqGo_busy (h : s.reqState ≠ .idle) : s.reqGo i = none := by
  simp [reqGo, reqRdy, h]

theorem valid_step :
    (s.step c i).awvalid = ((s.reqGo i).isSome || s.awvalid && !s.awgo i) ∧
      (s.step c i).wvalid = ((s.reqGo i).isSome || s.wvalid && !s.lwgo i) := by
  have hidle : (s.reqState == .idle && (s.reqGo i).isSome) = (s.reqGo i).isSome := by
    by_cases h : s.reqState = .idle
    · simp [h]
    · simp [reqGo_busy s i h]
  have := s.reqState.valid_next (s.reqGo i).isSome (s.awgo i) (s.lwgo i)
  rw [hidle] at this
  exact this

theorem valid_idle (h : s.reqState = .idle) : s.awvalid = false ∧ s.wvalid = false := by
  rw [awvalid, wvalid, h]
  exact ⟨rfl, rfl⟩

/-- A request is in the registers, and `k` of its transfers have left. -/
structure Bursting (req : WriteReq) (k : Nat) : Prop where
  sizeLog_le : req.sizeLog.toNat ≤ 6
  aw : s.aw = c.burst req.addr req.sizeLog
  awid : s.awid = req.id
  sent_le : k ≤ c.burstLen req.sizeLog
  count : s.burstCount = c.burstLen req.sizeLog - k
  data : Rest req.data s.reqDataF (8 * 2 ^ c.datWidthUsedLog2 * k)
  strb : Rest req.strb s.reqStrbF (2 ^ c.datWidthUsedLog2 * k)

variable {c s i} {req : WriteReq} {k : Nat}

theorem Bursting.start (h : s.reqGo i = some req) (hs : req.sizeLog.toNat ≤ 6) :
    Bursting c (s.step c i) req 0 where
  sizeLog_le := hs
  aw := by simp [step, h]
  awid := by simp [step, h]
  sent_le := Nat.zero_le _
  count := by
    have := c.burstLen_lt hs
    have := c.maxBurstLen_le
    simp only [step, h]
    exact Nat.mod_eq_of_lt (by omega)
  data := by
    intro j _
    simp [step, h]
  strb := by
    intro j _
    simp [step, h]

theorem Bursting.wlast (h : Bursting c s req k) : s.wlast = (k == c.burstLen req.sizeLog) := by
  have := h.sent_le
  rw [AxiWrite.wlast, h.count, Bool.eq_iff_iff, beq_iff_eq, beq_iff_eq]
  omega

theorem Bursting.wBeat (h : Bursting c s req k) :
    s.wBeat c = c.beat (c.burstLen req.sizeLog) req.data req.strb k := by
  have hlt := c.burstLen_lt h.sizeLog_le
  have hle := Nat.mul_le_mul_left (2 ^ c.datWidthUsedLog2) (show k + 1 ≤ c.maxBurstLen by have := h.sent_le; omega)
  rw [c.maxBurstLen_mul, Nat.mul_succ] at hle
  rw [AxiWrite.wBeat, AddrCfg.beat, h.data.extractLsb' (by rw [Nat.mul_assoc]; omega), h.strb.extractLsb' hle, h.wlast]

theorem Bursting.stay (h : Bursting c s req k) (hbusy : s.reqState ≠ .idle) (hgo : ¬ (s.wgo i = true ∧ s.wlast = false)) :
    Bursting c (s.step c i) req k := by
  have hstay : ¬ (c.maxBurstLen > 1 ∧ s.wgo i = true ∧ (!s.wlast) = true) := fun hb =>
    hgo ⟨hb.2.1, by simpa using hb.2.2⟩
  have hreq := reqGo_busy s i hbusy
  exact {
    sizeLog_le := h.sizeLog_le
    aw := by simpa only [step, hreq] using h.aw
    awid := by simpa only [step, hreq] using h.awid
    sent_le := h.sent_le
    count := by simpa only [step, hreq, if_neg hstay] using h.count
    data := by simpa only [step, hreq, if_neg hstay] using h.data
    strb := by simpa only [step, hreq, if_neg hstay] using h.strb }

theorem Bursting.next (h : Bursting c s req k) (hbusy : s.reqState ≠ .idle) (hgo : s.wgo i = true) (hlast : s.wlast = false) :
    Bursting c (s.step c i) req (k + 1) := by
  have hne : k ≠ c.burstLen req.sizeLog := by
    rw [h.wlast] at hlast
    simpa using hlast
  have hlen := h.sent_le
  have hlt := c.burstLen_lt h.sizeLog_le
  have hshift : c.maxBurstLen > 1 ∧ s.wgo i = true ∧ (!s.wlast) = true := ⟨by omega, hgo, by simp [hlast]⟩
  have hreq := reqGo_busy s i hbusy
  have hcount := h.count
  exact {
    sizeLog_le := h.sizeLog_le
    aw := by simpa only [step, hreq] using h.aw
    awid := by simpa only [step, hreq] using h.awid
    sent_le := by omega
    count := by
      simp only [step, hreq, if_pos hshift]
      omega
    data := by simpa only [step, hreq, if_pos hshift, Nat.mul_succ] using h.data.shiftDown _
    strb := by simpa only [step, hreq, if_pos hshift, Nat.mul_succ] using h.strb.shiftDown _ }

end AxiWrite

/-- The registers of `noc_axi4_bridge_read`. -/
structure AxiRead where
  reqState : Bool := false
  ar : Axi.Burst
  arid : Nat
  respState : Bool := false
  respData : Line := 0
  respIdF : Nat := 0
  burstCount : Nat := 0

structure ReadIn (w : Nat) where
  req : Option ReadReq := none
  arready : Bool := false
  r : Option (ReadBeat w) := none
  respRdy : Bool := false

namespace AxiRead

variable (c : AddrCfg) (s : AxiRead) (i : ReadIn c.datWidthUsedLog2)

def reqRdy : Bool := !s.reqState

def arvalid : Bool := s.reqState

def argo : Bool := s.arvalid && i.arready

/-- The request taken in a cycle. -/
def reqGo : Option ReadReq := if s.reqRdy then i.req else none

def respVal : Bool := s.respState

def rready : Bool := !s.respState

/-- The transfer taken in a cycle. -/
def rgo : Option (ReadBeat c.datWidthUsedLog2) := if s.rready then i.r else none

def step : AxiRead where
  reqState := if s.reqState then !s.argo c i else (s.reqGo c i).isSome
  ar := match s.reqGo c i with
    | some req => c.burst req.addr req.sizeLog
    | none => s.ar
  arid := match s.reqGo c i with
    | some req => req.id
    | none => s.arid
  respState := match s.rgo c i with
    | some r => r.last
    | none => s.respState && !i.respRdy
  respData := match s.rgo c i with
    | some r => setSlice s.respData (s.burstCount * (8 * 2 ^ c.datWidthUsedLog2)) r.data
    | none => s.respData
  respIdF := match s.rgo c i with
    | some r => r.id
    | none => s.respIdF
  burstCount := match s.rgo c i with
    | some r =>
        if r.last then 0
        else if c.maxBurstLen > 1 then (s.burstCount + 1) % 2 ^ c.burstCountWidth
        else s.burstCount
    | none => s.burstCount

theorem reqGo_eq_some {req : ReadReq} : s.reqGo c i = some req ↔ s.reqState = false ∧ i.req = some req := by
  simp [reqGo, reqRdy]

theorem rgo_eq_some {r : ReadBeat c.datWidthUsedLog2} : s.rgo c i = some r ↔ s.respState = false ∧ i.r = some r := by
  simp [rgo, rready]

/-- The first transfers of a burst have arrived. -/
structure Collecting (beats : List (BitVec (8 * 2 ^ c.datWidthUsedLog2))) : Prop where
  count : s.burstCount = beats.length
  data : c.Collects s.respData beats

variable {c s i}

theorem Collecting.collects {beats : List (BitVec (8 * 2 ^ c.datWidthUsedLog2))} (h : Collecting c s beats)
    (hlt : beats.length < c.maxBurstLen) {r : ReadBeat c.datWidthUsedLog2} (hgo : s.rgo c i = some r) :
    c.Collects (s.step c i).respData (beats ++ [r.data]) := by
  have hle := Nat.mul_le_mul_left (2 ^ c.datWidthUsedLog2) (show beats.length + 1 ≤ c.maxBurstLen from hlt)
  rw [c.maxBurstLen_mul, Nat.mul_succ] at hle
  intro n x hx j hj
  have hn : n < beats.length + 1 := by
    have := List.getElem?_eq_some_iff.mp hx
    simpa using this.1
  have hnle := Nat.mul_le_mul_left (2 ^ c.datWidthUsedLog2) (show n ≤ beats.length by omega)
  have hin : 8 * 2 ^ c.datWidthUsedLog2 * n + j < 512 := by
    rw [Nat.mul_assoc]
    omega
  simp only [step, hgo, h.count]
  rw [getLsbD_setSlice _ _ _ hin, Nat.mul_comm beats.length]
  rcases Nat.lt_or_ge n beats.length with hlt | hge
  · have hnlt := Nat.mul_le_mul_left (8 * 2 ^ c.datWidthUsedLog2) (show n + 1 ≤ beats.length from hlt)
    rw [Nat.mul_succ] at hnlt
    rw [List.getElem?_append_left hlt] at hx
    rw [if_neg (by omega), h.data n x hx j hj]
  · obtain rfl : n = beats.length := by omega
    rw [List.getElem?_concat_length, Option.some_inj] at hx
    rw [if_pos (by omega), Nat.add_sub_cancel_left, hx]

theorem Collecting.next {beats : List (BitVec (8 * 2 ^ c.datWidthUsedLog2))} (h : Collecting c s beats)
    (hlt : beats.length + 1 < c.maxBurstLen) {r : ReadBeat c.datWidthUsedLog2} (hgo : s.rgo c i = some r)
    (hlast : r.last = false) : Collecting c (s.step c i) (beats ++ [r.data]) where
  count := by
    have := c.maxBurstLen_le
    simp only [step, hgo, hlast, Bool.false_eq_true, if_false, h.count, List.length_append, List.length_singleton]
    rw [if_pos (by omega), Nat.mod_eq_of_lt (by omega)]
  data := h.collects (by omega) hgo

theorem Collecting.start (hcount : s.burstCount = 0) : Collecting c s [] :=
  ⟨hcount, fun _ _ h => by simp at h⟩

end AxiRead

end OpenPiton.NocAxi
