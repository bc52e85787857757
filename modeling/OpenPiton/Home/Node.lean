import OpenPiton.L15.Flow
import OpenPiton.Home.Csm

namespace OpenPiton.Home

open L15

/-- What a slot of `noc1buffer` keeps of the home of its command. -/
structure SlotHome where
  homeid : HomeId := {}
  homeidVal : Bool := false
  ticket : Nat := 0
  deriving DecidableEq, Repr

/-- The L1.5 with its home logic. -/
structure Node where
  l15 : State
  csm : Csm := {}
  /-- `pcxdecoder_l15_csm_data`. -/
  pcxCsm : TlbCsm := {}
  csmPcxDataS2 : TlbCsm := {}
  hmtFillHomeidS2 : HomeId := {}
  slots : Nat → SlotHome := fun _ => {}
  mshrHomeid : Nat → HomeId := fun _ => {}
  /-- The home map table, by set, way and subline. -/
  hmt : Nat → Nat → Nat → HomeId := fun _ _ _ => {}
  hmtDout : HomeId := {}

/-- The ports of the L1.5, the page of the next core request, and the readiness of the NoC1 encoder
for a refill. -/
structure NodeInput where
  l15 : Input := {}
  pcxCsm : TlbCsm := {}
  csmAck : Bool := true
  deriving DecidableEq, Repr

/-- `noc2decoder_l15_csm_mshrid`. -/
def csmMshrid (m : Noc2Msg) : Nat := csmTicket m.mshrIndex m.mshrType

/-- Two words of 64 bits as a line of the home map table, low word first. -/
def hmtLine (w0 w1 : Word) : HmtLine := fun k =>
  if k < 2 then w0.extractLsb' (32 * k) 32 else w1.extractLsb' (32 * (k - 2)) 32

namespace Node

variable (cfg : Config) (csm : CsmConfig) (n : Node)

/-! ## The request to `l15_csm` -/

def csmOpS2 : CsmOp := decoderCsmOp n.l15.s2.d

def csmTicketS2 : Nat := csmTicket n.l15.s2.threadid n.l15.s2.mshrType

def csmTicketS3 : Nat := csmTicket n.l15.s3.threadid n.l15.s3.mshrType

def lruWayAddressS2 : Nat :=
  cfg.lineAddress (n.l15.arrays.dtagDout (n.l15.lruWayS2 cfg)) (n.l15.cacheIndexS2 cfg)

def flushWayAddressS2 : Nat :=
  cfg.lineAddress (n.l15.arrays.dtagDout (n.l15.flushWayS2 cfg)) (n.l15.cacheIndexS2 cfg)

/-- `csm_req_*_s2`, before the stall of S2 is looked at. -/
def csmReqOpS2 : CsmReq :=
  let s := n.l15
  let read (val : Bool) (address : Nat) : CsmReq :=
    { val := val, address := address, ticket := n.csmTicketS2, page := n.csmPcxDataS2 }
  -- with the home map table nothing is asked for an eviction
  let evict (state : Mesi) (address : Nat) : CsmReq :=
    if csm.rtlCsm then read false 0 else read (s.s2.val && state == .m) address
  match n.csmOpS2 with
  | .none => read false 0
  | .readGhid => read true s.s2.address
  | .readGhidIfTagcheckSi => read (!(s.tagcheckStateS2 cfg).me) s.s2.address
  | .readGhidIfTagcheckMiss => read (!(s.tagcheckStateS2 cfg).mes) s.s2.address
  | .hmcFill =>
      { read true 0 with
        write := true
        ticket := csmMshrid s.noc2
        data := hmtLine (s.noc2.word 0) (s.noc2.word 1) }
  | .hmcDiagStore =>
      { read true s.s2.address with
        write := true
        data := hmtLine (s.pcx.getD {}).data (s.pcx.getD {}).data }
  | .hmcDiagLoad | .hmcFlush => read true s.s2.address
  | .evictIfLruM => evict (s.lruStateS2 cfg) (n.lruWayAddressS2 cfg)
  | .evictIfFlushM => evict (s.flushStateS2 cfg) (n.flushWayAddressS2 cfg)
  | .evictIfM => evict (s.tagcheckStateS2 cfg) s.s2.address

def csmReqS2 (i : Input) : CsmReq :=
  let r := n.csmReqOpS2 cfg csm
  { r with val := r.val && !n.l15.stallS2 cfg i && n.l15.s2.val }

theorem csmTicket_lt (threadid : Nat) (type : MshrType) : csmTicket threadid type < csmNumTickets :=
  Nat.mod_lt _ (by decide)

theorem csmReqS2_ticket_lt (i : Input) : (n.csmReqS2 cfg csm i).ticket < csmNumTickets := by
  simp only [csmReqS2, csmReqOpS2, csmTicketS2]
  cases n.csmOpS2 with
  | hmcFill => exact csmTicket_lt _ _
  | evictIfLruM | evictIfFlushM | evictIfM => simp only; split_ifs <;> exact csmTicket_lt _ _
  | _ => exact csmTicket_lt _ _

/-! ## Homes of messages -/

/-- `l15_noc1buffer_req_homeid` with its valid bit: guards go by the home map table, the others by
`l15_csm`, and an interrupt has its target in its data. -/
def noc1Homeid : HomeId × Bool :=
  match (n.l15.s3.ctl cfg).noc1Op with
  | .writebackGuardIfLruM | .writebackGuardIfFlushM | .writebackGuardIfTagcheckM =>
      if csm.rtlCsm then (n.hmtDout, true) else (n.csm.resData csm, n.csm.resVal csm)
  | .interruptFwd => (if csm.rtlCsm then {} else n.csm.resData csm, true)
  | _ => (n.csm.resData csm, n.csm.resVal csm)

/-- `l15_noc3encoder_req_homeid` of a write-back; an acknowledgement goes to the source of the
message it answers. -/
def noc3WritebackHomeid : HomeId := if csm.rtlCsm then n.hmtDout else n.csm.resData csm

/-- The slot at the head of `noc1buffer`. -/
def head : SlotHome := n.slots n.l15.noc1.commandRdindex

/-- `homeid_val`: kept with the command, or found under its ticket. -/
def homeidVal : Bool := n.head.homeidVal || csm.rtlCsm && n.csm.ghidVal n.head.ticket

def homeid : HomeId := if n.head.homeidVal then n.head.homeid else n.csm.ghid n.head.ticket

/-! ## The clock -/

variable (i : NodeInput)

/-- The ports of the L1.5 with the head of `noc1buffer` held back until it has a home. -/
def gated : Input := { i.l15 with noc1Ack := i.l15.noc1Ack && n.homeidVal csm }

def noc1Sent : Bool := n.l15.noc1Sent (n.gated csm i)

/-- `noc1encoder_csm_req_ack`. -/
def csmSent : Bool := i.csmAck && n.csm.reqVal

def slotsNext : Nat → SlotHome :=
  if n.l15.noc1bufferReqVal cfg then
    Function.update n.slots n.l15.noc1.commandWrindex
      ⟨(n.noc1Homeid cfg csm).1, (n.noc1Homeid cfg csm).2, n.csmTicketS3⟩
  else n.slots

/-- Only the loads and the stores keep the home they were sent to. -/
def mshrHomeidNext : Nat → HomeId :=
  let c := n.l15.noc1.head
  if n.noc1Sent csm i && (c.mshrType == .ld || c.mshrType == .st) then
    Function.update n.mshrHomeid c.mshrIndex n.homeid
  else n.mshrHomeid

/-- `mshr_pipe_readres_homeid_s1`. -/
def readresHomeidS1 : HomeId :=
  let index := cfg.threadMask n.l15.noc2.mshrIndex
  match (n.l15.mshr index).type with
  | .ld | .st => n.mshrHomeid index
  | _ => {}

/-- The home map table has the port of the data array. -/
def hmtNext : Nat → Nat → Nat → HomeId :=
  match n.l15.dcacheReq cfg (n.gated csm i) with
  | some ⟨way, subline, some _⟩ =>
      if decoderHmtOp n.l15.s2.d then
        let index := n.l15.cacheIndexS2 cfg
        Function.update n.hmt index
          (Function.update (n.hmt index) way (Function.update (n.hmt index way) subline n.hmtFillHomeidS2))
      else n.hmt
  | _ => n.hmt

def hmtDoutNext : HomeId :=
  match n.l15.dcacheReq cfg (n.gated csm i) with
  | some ⟨way, subline, none⟩ => n.hmt (n.l15.cacheIndexS2 cfg) way subline
  | _ => n.hmtDout

/-- One clock. -/
def step : Node where
  l15 := n.l15.step cfg (n.gated csm i)
  csm := n.csm.step csm (n.csmReqS2 cfg csm (n.gated csm i)) (n.l15.stallS3 cfg (n.gated csm i))
    (if n.noc1Sent csm i then some n.head.ticket else none) (n.csmSent i)
  pcxCsm := if n.l15.pcx.isNone || n.l15.pcxAck cfg (n.gated csm i) then i.pcxCsm else n.pcxCsm
  csmPcxDataS2 := if n.l15.stallS2 cfg (n.gated csm i) then n.csmPcxDataS2 else n.pcxCsm
  hmtFillHomeidS2 := if n.l15.stallS2 cfg (n.gated csm i) then n.hmtFillHomeidS2 else n.readresHomeidS1 cfg
  slots := n.slotsNext cfg csm
  mshrHomeid := n.mshrHomeidNext csm i
  hmt := n.hmtNext cfg csm i
  hmtDout := n.hmtDoutNext cfg csm i

/-- After reset; the home map table is cleared when its RAM starts. -/
structure Init : Prop where
  l15 : State.Init n.l15
  csm : n.csm = {}
  slots : n.slots = fun _ => {}
  mshrHomeid : n.mshrHomeid = fun _ => {}

def reset : Node where
  l15 := State.reset

theorem init_reset : Init reset := ⟨State.init_reset, rfl, rfl, rfl⟩

/-! ## The queue of commands -/

/-- The command that enters `noc1buffer`, with what its slot keeps of its home. -/
def entering : List (Noc1Command × SlotHome) :=
  ((n.l15.noc1bufferReq cfg).map fun r =>
    (n.l15.noc1.commandOf r, (⟨(n.noc1Homeid cfg csm).1, (n.noc1Homeid cfg csm).2, n.csmTicketS3⟩ : SlotHome))).toList

/-- `noc1buffer` holds the commands of a queue with their homes. -/
def Queues (l : List (Noc1Command × SlotHome)) : Prop :=
  Ring.Holds noc1BufferNumSlots (fun k => (n.l15.noc1.command k, n.slots k))
    n.l15.noc1.commandVal n.l15.noc1.commandRdindex n.l15.noc1.commandWrindex l

variable {cfg csm n i} {l : List (Noc1Command × SlotHome)}

theorem Queues.ne_nil (h : n.Queues l) (hs : n.noc1Sent csm i = true) : l ≠ [] := by
  simp only [noc1Sent, State.noc1Sent, Bool.and_eq_true] at hs
  exact h.val_rd.mp hs.2

theorem Queues.head {e : Noc1Command × SlotHome} (h : n.Queues (e :: l)) :
    n.l15.noc1.head = e.1 ∧ n.head = e.2 := Prod.mk.inj (Ring.Holds.head h)

theorem Queues.step (h : n.Queues l) (hroom : n.l15.noc1bufferReqVal cfg = true → n.noc1Sent csm i = false →
      n.l15.noc1.commandVal n.l15.noc1.commandWrindex = false) :
    (n.step cfg csm i).Queues ((if n.noc1Sent csm i then l.tail else l) ++ n.entering cfg csm) := by
  have hnoc1 : (n.step cfg csm i).l15.noc1 = n.l15.noc1.step (n.l15.noc1bufferReq cfg) (n.noc1Sent csm i) := rfl
  have hslots : (n.step cfg csm i).slots = n.slotsNext cfg csm := rfl
  have hsome : (n.l15.noc1bufferReq cfg).isSome = n.l15.noc1bufferReqVal cfg := State.noc1bufferReq_isSome
  have hsent : Ring.Holds noc1BufferNumSlots (fun k => (n.l15.noc1.command k, n.slots k))
      (if n.noc1Sent csm i then Function.update n.l15.noc1.commandVal n.l15.noc1.commandRdindex false
        else n.l15.noc1.commandVal)
      (if n.noc1Sent csm i then (n.l15.noc1.commandRdindex + 1) % noc1BufferNumSlots else n.l15.noc1.commandRdindex)
      n.l15.noc1.commandWrindex (if n.noc1Sent csm i then l.tail else l) := by
    split_ifs with hs
    · obtain ⟨e, l, rfl⟩ := List.exists_cons_of_ne_nil (h.ne_nil hs)
      exact Ring.Holds.pop h
    · exact h
  rw [Queues, hnoc1, hslots]
  cases hreq : n.l15.noc1bufferReq cfg with
  | none =>
      rw [hreq] at hsome
      rw [entering, hreq, slotsNext, ← hsome]
      cases hs : n.noc1Sent csm i <;> simpa [Noc1Buffer.step, hs] using hsent
  | some r =>
      rw [hreq] at hsome
      have hval : n.l15.noc1bufferReqVal cfg = true := hsome.symm
      have hlt : (if n.noc1Sent csm i then l.tail else l).length < noc1BufferNumSlots := by
        have hle := Ring.Holds.length_le h
        split_ifs with hs
        · have := List.length_pos_iff.mpr (h.ne_nil hs)
          rw [List.length_tail]
          omega
        · exact h.length_lt_of_val_wr (hroom hval (by simpa using hs))
      have hpush := hsent.push hlt (n.l15.noc1.commandOf r,
        (⟨(n.noc1Homeid cfg csm).1, (n.noc1Homeid cfg csm).2, n.csmTicketS3⟩ : SlotHome))
      have henters : n.entering cfg csm = [(n.l15.noc1.commandOf r,
          (⟨(n.noc1Homeid cfg csm).1, (n.noc1Homeid cfg csm).2, n.csmTicketS3⟩ : SlotHome))] := by
        simp [entering, hreq]
      rw [henters]
      convert hpush using 1
      · funext k
        rw [slotsNext, if_pos hval]
        by_cases hk : k = n.l15.noc1.commandWrindex
        · subst hk
          cases hs : n.noc1Sent csm i <;> simp [Noc1Buffer.step, Noc1Buffer.commandOf]
        · cases hs : n.noc1Sent csm i <;> simp [Noc1Buffer.step, Function.update_of_ne hk]
      · cases hs : n.noc1Sent csm i <;> simp [Noc1Buffer.step]
      · cases hs : n.noc1Sent csm i <;> simp [Noc1Buffer.step]
      · cases hs : n.noc1Sent csm i <;> simp [Noc1Buffer.step]

theorem Init.queues (h : Init n) : n.Queues [] := by
  rw [Queues, h.l15.noc1]
  exact Ring.Holds.empty (by decide)

end Node

end OpenPiton.Home
