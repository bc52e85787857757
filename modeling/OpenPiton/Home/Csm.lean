import OpenPiton.Lib.Fifo
import OpenPiton.Home.Defs
import OpenPiton.Home.Hmc

namespace OpenPiton.Home

open L15

/-- The request of S2, `l15_csm_req_*_s2`. -/
structure CsmReq where
  val : Bool := false
  write : Bool := false
  address : Nat := 0
  ticket : Nat := 0
  page : TlbCsm := {}
  data : HmtLine := fun _ => 0

/-- The line of the home map table an HMC address lies in. -/
def CsmConfig.tableAddress (csm : CsmConfig) (address : Nat) : Nat :=
  (csm.hmtBase * 2 ^ 14 + hmcTag address) * 16

/-- The place of a home in the home map table: the domain of the page and the home in it. -/
def CsmConfig.homeAddress (csm : CsmConfig) (page : TlbCsm) (address : Nat) : Nat :=
  page.hdid * 64 + homeEncoder (csm.homeAddrBits address) page.hdSize

namespace CsmReq

variable (csm : CsmConfig) (r : CsmReq)

def diagEn : Bool := r.val && Predecode.addressType r.address == .hmcAccess

def flushEn : Bool := r.val && Predecode.addressType r.address == .hmcFlush

def rdEn : Bool := r.val && !r.write && !(!r.diagEn && !r.flushEn && r.page.isGlobal)

def wrEn : Bool := r.val && r.write

def numHomes : Nat := if csm.csmEn then r.page.hdSize else csm.systemTileCount % 64

def lhid : Nat := CsmConfig.homeEncoder (csm.homeAddrBits r.address) (r.numHomes csm)

def addrIn : Nat :=
  if r.diagEn || r.flushEn then r.address / 16 % 2 ^ 16 else r.page.hdid * 64 + r.lhid csm

/-- `write_val_s2`: a refill, written to the ticket of its request. -/
def writeVal : Bool := r.val && r.wrEn && !r.diagEn && !r.flushEn

/-- `read_val_s2`: the request takes its ticket. -/
def readVal : Bool := r.val && !r.write

end CsmReq

/-- The flops of S3. -/
structure CsmS3 where
  address : Nat := 0
  val : Bool := false
  ticket : Nat := 0
  addrIn : Nat := 0
  dataIn : HmtLine := fun _ => 0
  lhid : Nat := 0
  diagEn : Bool := false
  flushEn : Bool := false
  rdEn : Bool := false
  wrEn : Bool := false
  page : TlbCsm := {}

/-- A slot of the refill queue. -/
structure RefillReq where
  address : Nat := 0
  ticket : Nat := 0
  val : Bool := false
  deriving DecidableEq, Repr

/-- `l15_csm`. -/
structure Csm where
  ghid : Nat → HomeId := fun _ => {}
  ghidVal : Nat → Bool := fun _ => false
  /-- `ghid_ticketed_cache_addr`. -/
  ghidAddr : Nat → Nat := fun _ => 0
  s3 : CsmS3 := {}
  hmc : Hmc := {}
  refills : Fifo RefillReq := { mem := fun _ => {} }

namespace Csm

variable (cfg : CsmConfig) (c : Csm)

/-! ## S3 -/

def hmcIn : HmcIn where
  rd := c.s3.rdEn
  wr := c.s3.wrEn
  diag := c.s3.diagEn
  flush := c.s3.flushEn
  addrOp := c.s3.address / 2 ^ 30 % 4
  address := c.s3.addrIn
  data := c.s3.dataIn

/-- `refill_req_val_s3`. -/
def refillReqVal : Bool :=
  cfg.rtlCsm && cfg.csmEn && c.s3.rdEn && !c.s3.diagEn && !c.s3.flushEn && !c.hmc.hit c.hmcIn

/-- `csm_l15_res_val_s3`. -/
def resVal : Bool :=
  if cfg.rtlCsm && cfg.csmEn then c.s3.rdEn && !c.refillReqVal cfg else c.s3.val

def diagData : HomeId :=
  let e := c.hmc.entry (c.hmc.hitIndex c.hmcIn)
  match c.s3.address / 2 ^ 30 % 4 with
  | 0 => .ofBits (c.hmc.dataOut c.hmcIn)
  | 1 => .ofBits ((BitVec.ofBoolListLE [e.valid 0, e.valid 1, e.valid 2, e.valid 3]).setWidth 30)
  | 2 => .ofBits (BitVec.ofNat 30 e.tag)
  | _ => {}

/-- `csm_l15_res_data_s3`. -/
def resData : HomeId :=
  if cfg.rtlCsm && c.s3.diagEn then c.diagData
  else if cfg.rtlCsm && cfg.csmEn then
    if !c.s3.diagEn && !c.s3.flushEn && c.s3.page.isGlobal then
      -- x and y change places
      { chip := c.s3.page.chipid, x := c.s3.page.y, y := c.s3.page.x }
    else .ofBits (c.hmc.dataOut c.hmcIn)
  else cfg.staticHome c.s3.lhid c.s3.address

/-! ## The refill queue -/

/-- `csm_noc1encoder_req_val`. -/
def reqVal : Bool := (c.refills.mem c.refills.rdPtr).val && decide (c.refills.counter > 0)

def req : RefillReq := c.refills.mem c.refills.rdPtr

/-- One clock of the queue; the counter has four bits. -/
def refillsNext (ack : Bool) : Fifo RefillReq :=
  let push := c.refillReqVal cfg
  { mem :=
      if push then
        Function.update c.refills.mem c.refills.wrPtr ⟨cfg.tableAddress c.s3.addrIn, c.s3.ticket, true⟩
      else c.refills.mem
    rdPtr := if ack then (c.refills.rdPtr + 1) % csmNumTickets else c.refills.rdPtr
    wrPtr := if push then (c.refills.wrPtr + 1) % csmNumTickets else c.refills.wrPtr
    counter :=
      if push && ack then c.refills.counter
      else if push then (c.refills.counter + 1) % 16
      else if ack then (c.refills.counter + 15) % 16
      else c.refills.counter }

/-! ## The tickets -/

/-- The word of a refill that the address under its ticket names. -/
def ghidWord (r : CsmReq) : BitVec 32 := r.data (hmcOffset (c.ghidAddr r.ticket))

def ghidNext (r : CsmReq) : Nat → HomeId :=
  if r.writeVal then Function.update c.ghid r.ticket (.ofBits (wordData (c.ghidWord r)))
  else if r.readVal then Function.update c.ghid r.ticket {}
  else c.ghid

/-- A write wins over a clear of the same ticket. -/
def ghidValNext (r : CsmReq) (clear : Option Nat) : Nat → Bool :=
  let v := match clear with
    | some ticket => Function.update c.ghidVal ticket false
    | none => c.ghidVal
  if r.writeVal then Function.update v r.ticket (wordValid (c.ghidWord r))
  else if r.readVal then Function.update v r.ticket false
  else v

section Tickets

variable {c} {r : CsmReq} {clear : Option Nat} {t : Nat}

theorem readVal_of_writeVal (h : r.writeVal = true) : r.readVal = false := by
  simp only [CsmReq.writeVal, CsmReq.wrEn, Bool.and_eq_true] at h
  simp [CsmReq.readVal, h.1.1.2.2]

theorem writeVal_of_ghidValNext (h : c.ghidValNext r clear t = true) (ht : c.ghidVal t = false) :
    r.writeVal = true ∧ r.ticket = t := by
  simp only [ghidValNext] at h
  have hclear : (match clear with
      | some ticket => Function.update c.ghidVal ticket false
      | none => c.ghidVal) t = false := by
    cases clear with
    | none => exact ht
    | some k =>
        by_cases hk : t = k
        · simp [hk]
        · simp [Function.update_of_ne hk, ht]
  split_ifs at h with hw hr
  · refine ⟨hw, ?_⟩
    by_contra hne
    rw [Function.update_of_ne (Ne.symm hne), hclear] at h
    cases h
  · by_cases hk : t = r.ticket
    · simp [hk] at h
    · rw [Function.update_of_ne hk, hclear] at h
      cases h
  · rw [hclear] at h
    cases h

theorem ghidValNext_of_readVal (h : r.readVal = true) : c.ghidValNext r clear r.ticket = false := by
  have hw : r.writeVal = false := by
    by_contra hw
    rw [readVal_of_writeVal (by simpa using hw)] at h
    cases h
  simp [ghidValNext, hw, h]

/-- What is under a ticket that is neither written, nor taken, nor cleared stays. -/
theorem ghid_kept (hw : r.writeVal = true → r.ticket ≠ t) (hr : r.readVal = true → r.ticket ≠ t)
    (hc : clear ≠ some t) : c.ghidNext r t = c.ghid t ∧ c.ghidValNext r clear t = c.ghidVal t := by
  have hclear : (match clear with
      | some ticket => Function.update c.ghidVal ticket false
      | none => c.ghidVal) t = c.ghidVal t := by
    cases clear with
    | none => rfl
    | some k => exact Function.update_of_ne (fun h => hc (by rw [h])) _ _
  simp only [ghidNext, ghidValNext]
  split_ifs with h1 h2
  · rw [Function.update_of_ne (Ne.symm (hw h1)), Function.update_of_ne (Ne.symm (hw h1)), hclear]
    exact ⟨rfl, rfl⟩
  · rw [Function.update_of_ne (Ne.symm (hr h2)), Function.update_of_ne (Ne.symm (hr h2)), hclear]
    exact ⟨rfl, rfl⟩
  · exact ⟨rfl, hclear⟩

end Tickets

/-- `addr_in_s2_next`. -/
def addrInNext (r : CsmReq) : Nat := if r.writeVal then c.ghidAddr r.ticket else r.addrIn cfg

/-- One clock: the request of S2, the stall of S3, the ticket that `noc1buffer` clears and the
acknowledgement of the encoder. -/
def step (r : CsmReq) (stallS3 : Bool) (clear : Option Nat) (ack : Bool) : Csm where
  ghid := c.ghidNext r
  ghidVal := c.ghidValNext r clear
  ghidAddr :=
    if c.refillReqVal cfg then Function.update c.ghidAddr c.s3.ticket c.s3.addrIn else c.ghidAddr
  s3 :=
    if stallS3 then c.s3
    else
      { address := r.address
        val := r.val
        ticket := r.ticket
        addrIn := c.addrInNext cfg r
        dataIn := r.data
        lhid := r.lhid cfg
        diagEn := r.diagEn
        flushEn := r.flushEn
        rdEn := r.rdEn
        wrEn := r.wrEn
        page := r.page }
  hmc := c.hmc.step c.hmcIn
  refills := c.refillsNext cfg ack

theorem counter_pos_of_reqVal (h : c.reqVal = true) : 0 < c.refills.counter := by
  simp only [reqVal, Bool.and_eq_true, decide_eq_true_eq] at h
  exact h.2

/-- The load that a miss of S3 puts into the queue. -/
def pushed : List RefillReq :=
  if c.refillReqVal cfg then [⟨cfg.tableAddress c.s3.addrIn, c.s3.ticket, true⟩] else []

theorem refillsNext_holds {q : List RefillReq} {ack : Bool} (h : c.refills.Holds csmNumTickets q)
    (hack : ack = true → c.reqVal = true) (hlen : c.refillReqVal cfg = true → q.length < csmNumTickets) :
    (c.refillsNext cfg ack).Holds csmNumTickets ((q ++ c.pushed cfg).drop (if ack then 1 else 0)) := by
  have hc := h.counter_eq
  have hle := h.length_le
  have hpos : ack = true → 0 < c.refills.counter := fun ha => c.counter_pos_of_reqVal (hack ha)
  have hroom : q.length + (c.pushed cfg).length ≤ csmNumTickets := by
    rw [pushed]
    split_ifs with hp
    · exact hlen hp
    · exact hle
  have hpush : Fifo.Holds csmNumTickets
      { c.refillsNext cfg ack with rdPtr := c.refills.rdPtr, counter := c.refills.counter + (c.pushed cfg).length }
      (q ++ c.pushed cfg) := by
    have hwr : c.refills.wrPtr % csmNumTickets = c.refills.wrPtr := by
      rw [h.wr_eq, Nat.mod_mod]
    apply h.push hroom
    · cases hp : c.refillReqVal cfg <;> simp [refillsNext, pushed, hp, Fifo.writeFrom, hwr]
    · rfl
    · cases hp : c.refillReqVal cfg <;> simp [refillsNext, pushed, hp, hwr]
    · rfl
  apply hpush.pop
  · rw [List.length_append, ← hc]
    split_ifs with ha
    · have := hpos ha
      omega
    · exact Nat.zero_le _
  · rfl
  · cases ack <;> simp [refillsNext, Nat.mod_eq_of_lt h.rd_lt]
  · rfl
  · rw [csmNumTickets] at hle
    cases ack with
    | false => cases hp : c.refillReqVal cfg <;> simp [refillsNext, pushed, hp]; omega
    | true =>
        have := hpos rfl
        cases hp : c.refillReqVal cfg <;> simp [refillsNext, pushed, hp]; omega

end Csm

end OpenPiton.Home
