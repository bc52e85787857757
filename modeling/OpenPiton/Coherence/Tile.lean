import OpenPiton.L15.Forwards
import OpenPiton.L2.CacheSet

namespace OpenPiton.Coherence

open L2 (Block Request Noc2 Noc3 MsgType CacheType FwdType)
open L15 (Ctl FetchState Mesi MshrType Reqtype decoder)

/-- A line of sixteen bytes in a set of the L2: its tag and its subline. -/
abbrev Addr := Nat × BitVec 2

def cfg : L15.Config := .default

/-- What the L1.5 holds of a line. -/
@[ext] structure Copy where
  mesi : Mesi
  data : Block
  lrsc : Bool

/-- The MSHR of a load, a store or an atomic, found here by its line. The write buffer is what it makes of a block. -/
structure Slot where
  type : MshrType
  control : L15.Control
  state : L15.TransState
  merge : Block → Block

def Slot.entry (m : Slot) : L15.MshrEntry :=
  { val := true, type := m.type, control := m.control, state := m.state }

/-- The L1.5 of a tile, for the lines of one set of the L2, and the instruction lines above it. -/
@[ext] structure Tile where
  copy : Addr → Copy
  instr : Addr → Option Block
  mshr : Addr → Option Slot

/-- A request of the core to memory. -/
structure Pcx where
  reqtype : Reqtype
  addr : Addr
  merge : Block → Block
  compare : Block → Bool

/-- `mshr_control`. The cores mark the atomics but LR and SC as non-cacheable. -/
def control : Reqtype → L15.Control
  | .load => { load := true }
  | .loadNc => { load := true, nc := true }
  | .writethrough => { nc := true }
  | .ifill => { icache := true }
  | .cas | .swpLoadstub | .amo _ => { nc := true, atomic := true }
  | .amoLr | .amoSc => { atomic := true }
  | _ => {}

/-! ## A pass of the pipeline over a line -/

namespace Copy

variable (c : Copy) (ctl : Ctl)

def mesiNext (ackState : Mesi) : Mesi :=
  match ctl.mesiWriteOp with
  | .none => c.mesi
  | .invalidateTagcheckWayIfMes | .invalidateFlushWayIfMes => if c.mesi.mes then .i else c.mesi
  | .writeTagcheckWaySIfMe => if c.mesi.me then .s else c.mesi
  | .writeTagcheckWayMIfE => if c.mesi = .e then .m else c.mesi
  | .writeLruWayAckState | .writeMshrWayAckState => ackState

def dataNext (merge : Block → Block) (fill : Block) : Block :=
  match ctl.dcacheOp with
  | .writeTagcheckWayIfMeFromMshr => if c.mesi.me then merge c.data else c.data
  | .writeTagcheckWayIfLrscSetFromMshr => if c.mesi = .m ∧ c.lrsc = true then merge c.data else c.data
  | .writeMshrWayFromMshr => merge c.data
  | .writeLruWayFromNoc2 => fill
  | .writeLruWayFromNoc2AndMshr => merge fill
  | _ => c.data

def lrscNext : Bool :=
  match ctl.lrscFlagWriteOp with
  | .none => c.lrsc
  | .setLruWay => true
  | .clearTagcheckWay | .clearFlushWay => if c.mesi = .m then false else c.lrsc
  | .clearLruWay => false

/-- The line after a pass; the fill is what the answer brings. -/
def next (merge : Block → Block) (ackState : Mesi) (fill : Block) : Copy where
  mesi := c.mesiNext ctl ackState
  data := c.dataNext ctl merge fill
  lrsc := c.lrscNext ctl

end Copy

def amoOp : L15.AluOp → L2.AmoOp
  | .add => .add
  | .and => .and
  | .or => .or
  | .xor => .xor
  | .max => .max
  | .maxu => .maxu
  | .min => .min
  | .minu => .minu

/-- The type of the message on NoC1, by the state of the line. -/
def noc1Type (ctl : Ctl) (mesi : Mesi) : Option MsgType :=
  match ctl.noc1Op with
  | .none | .interruptFwd => none
  | .writebackGuardIfLruM | .writebackGuardIfFlushM | .writebackGuardIfTagcheckM =>
      if mesi = .m then some .wbguard else none
  | .dataLdRequestIfTagcheckMiss => if mesi.mes then none else some .load
  | .dataLdRequest => some .ncLoad
  | .instructionLdRequest => some .load
  | .dataWritethroughRequestFromPcx => some .ncStore
  | .dataStUpgradeIfTagcheckSElseStFillIfTagcheckI => if mesi.me then none else some .store
  | .dataLrRequest => some .lr
  | .dataCasRequestFromPcx => some .cas
  | .dataSwapRequestFromPcx => some (.atomic .swap)
  | .dataAmoRequestFromPcx op => some (.atomic (.amo (amoOp op)))
  | .rvcmoRequestFromPcx op => some (.rvcmo op)

/-- A dirty line goes back to the L2 on NoC3. -/
def writesBack (ctl : Ctl) (mesi : Mesi) : Bool := ctl.noc3Op.type == .writeback && mesi == .m

/-- The MSHR of the line after a pass. A store that waits in SM looks for the line of the pass and, when the pass
evicts another line, not for that one. -/
def mshrNext (ctl : Ctl) (mesi : Mesi) (new : Slot) (old : Option Slot) : Option Slot :=
  let slot := match ctl.s1MshrOp with
    | .none => old
    | .allocate => if new.type = .ld ∨ new.type = .st then some new else old
    | .updateWritecache => old.map fun m => { m with merge := fun b => new.merge (m.merge b) }
  match ctl.s3MshrOp with
  | .none | .updateStMshrImIfIndexLruWayMatches => slot
  | .deallocation => none
  | .deallocationIfTagcheckMes => if mesi.mes then none else slot
  | .deallocationIfTagcheckMeElseUpdateStateStmshr =>
      if mesi.me then none else slot.map fun m => { m with state := if mesi.mes then .sm else .im }
  | .updateStMshrImIfIndexTagcheckWayMatches =>
      slot.map fun m => if m.type = .st ∧ m.state = .sm then { m with state := .im } else m
  | .updateStMshrWaitAck => slot.map fun m => { m with state := .waitAck }

/-! ## What the L1.5 does -/

namespace Tile

variable {n : Nat} (src : Fin n) (t : Tile)

def hitStbuf (a : Addr) : Bool := (t.mshr a).any fun m => m.type == .st

def pcxCtl (r : Pcx) (fs : FetchState) : Ctl :=
  decoder cfg { fetchState := fs, reqtype := r.reqtype, hitStbuf := t.hitStbuf r.addr }

def noc1Message (r : Pcx) (ctl : Ctl) (type : MsgType) : Request n where
  type := type
  src := src
  mshrType := ctl.mshrAllocationType
  tag := r.addr.1
  subline := r.addr.2
  cacheType := if ctl.noc1Op = .instructionLdRequest then .ins else .data
  merge := r.merge
  compare := r.compare

/-- A pass of a request of the core, with its messages on NoC1 and NoC3. -/
def pcxPass (r : Pcx) (fs : FetchState) : Tile × List (Request n) × List Noc3 :=
  let ctl := t.pcxCtl r fs
  let c := t.copy r.addr
  ({ t with
      copy := Function.update t.copy r.addr (c.next ctl r.merge .i 0)
      mshr :=
        Function.update t.mshr r.addr
          (mshrNext ctl c.mesi ⟨ctl.mshrAllocationType, control r.reqtype, .none, r.merge⟩ (t.mshr r.addr)) },
    (noc1Type ctl c.mesi).toList.map (noc1Message src r ctl),
    if writesBack ctl c.mesi then [.writeBack r.addr.1 r.addr.2 c.data] else [])

/-- A request of the core goes down the pipeline, in both its passes where it takes two. -/
def request (r : Pcx) : Option (Tile × List (Request n) × List Noc3) :=
  if (t.pcxCtl r .normal).stallOnMatchedMshr ∧ (t.mshr r.addr).isSome then none
  else
    let p := t.pcxPass src r .normal
    if FetchState.isTwoPass r.reqtype false then
      let p2 := p.1.pcxPass src r .pcxWritebackDone
      some (p2.1, p.2.1 ++ p2.2.1, p.2.2 ++ p2.2.2)
    else some p

/-- The line is evicted: a fill takes its way. -/
def evict (a : Addr) : Tile × List (Request n) × List Noc3 :=
  let ctl := decoder cfg { reqtype := .ackdtLd }
  let c := t.copy a
  ({ t with copy := Function.update t.copy a { c with mesi := .i, lrsc := c.lrscNext ctl } },
    (noc1Type ctl c.mesi).toList.map (noc1Message src ⟨.ackdtLd, a, id, fun _ => false⟩ ctl),
    if writesBack ctl c.mesi then [.writeBack a.1 a.2 c.data] else [])

/-- The instruction lines go with a new line into the L1I, or the processor has no use for them any more. -/
def dropInstr (a : Addr) : Tile := { t with instr := Function.update t.instr a none }

/-- A DATA_ACK; what it is to do the MSHR tells. -/
def dataAck (mshrType : MshrType) (a : Addr) (ackState : Mesi) (data : List Block) : Tile :=
  if mshrType = .ifill then
    { t with
      instr := ((L2.sentSublines .ins a.2).zip data).foldl (fun f x => Function.update f (a.1, x.1) (some x.2)) t.instr }
  else
    let reqtype := (t.mshr a).elim .ignore fun m => L15.Predecode.ackdtReqtype {} m.entry
    let ctl := decoder cfg { fetchState := .noc2WritebackDone, reqtype := reqtype }
    let c := t.copy a
    { t with
      copy := Function.update t.copy a (c.next ctl ((t.mshr a).elim id Slot.merge) ackState (data.headD 0))
      mshr := Function.update t.mshr a (mshrNext ctl c.mesi ⟨mshrType, {}, .none, id⟩ (t.mshr a)) }

/-- A NODATA_ACK of a store; the other ones find an MSHR of a CMO. -/
def nodataAck (mshrType : MshrType) (a : Addr) : Tile :=
  if mshrType = .st then
    { t with
      mshr :=
        Function.update t.mshr a
          (mshrNext (decoder cfg { reqtype := .ackWritethrough }) (t.copy a).mesi ⟨mshrType, {}, .none, id⟩ (t.mshr a)) }
  else t

/-! ### Forwards -/

/-- The message as the predecoder of the L1.5 sees it. -/
def fwdMsg (type : FwdType) (di : CacheType) (sublineVector : BitVec 4) : L15.Noc2Msg where
  reqtype := match type with
    | .load => .loadFwd
    | .store => .storeFwd
    | .inv => .invFwd
  icacheType := di == .ins
  fwdSubcachelineVector := sublineVector

/-- `MSG_TYPE_*_FWDACK`, as `noc3encoder` sends it. -/
def fwdAckType (type : FwdType) (ack : L15.Noc3Reqtype) : FwdType :=
  match ack with
  | .downgradeAck => .load
  | .invalAck => if type = .inv then .inv else .store
  | _ => .inv

/-- The acknowledgement that a pass sends. -/
def ack (type : FwdType) (m : L15.Noc2Msg) (ctl : Ctl) (k : BitVec 2) (c : Copy) : List Noc3 :=
  let msg (data : Option Block) : List Noc3 :=
    [.fwdAck (fwdAckType type ctl.noc3Op.type) k
      (L15.State.lastSubline m.fwdSubcachelineVector == k.toNat || ctl.noc3Op.type == .icacheInvalAck) data]
  match ctl.noc3Op with
  | .invalAckFromDcache | .downgradeAckFromDcache => msg (if c.mesi = .m then some c.data else none)
  | .invalAckIfTagcheckMFromDcache | .downgradeAckIfTagcheckMFromDcache =>
      if c.mesi = .m then msg (some c.data) else []
  | .icacheInvalAck => msg none
  | _ => []

/-- A pass over one subline for data, over two for instructions. -/
def forwardPass (type : FwdType) (m : L15.Noc2Msg) (tag : Nat) (fs : FetchState) : Tile × List Noc3 :=
  let ctl := decoder cfg { fetchState := fs, reqtype := m.passReqtype, isLastInval := m.isLastInval cfg fs }
  if m.icacheType then
    let k := if fs = .icacheInval2 then 2 else 0
    ({ t with
        instr :=
          Function.update (Function.update t.instr (tag, BitVec.ofNat 2 k) none) (tag, BitVec.ofNat 2 (k + 1)) none },
      ack type m ctl (BitVec.ofNat 2 k) (t.copy (tag, BitVec.ofNat 2 k)))
  else
    let k := BitVec.ofNat 2 fs.subline
    let c := t.copy (tag, k)
    ({ t with
        copy := Function.update t.copy (tag, k) (c.next ctl id .i 0)
        mshr := Function.update t.mshr (tag, k) (mshrNext ctl c.mesi ⟨.cmo, {}, .none, id⟩ (t.mshr (tag, k))) },
      ack type m ctl k c)

/-- The passes that a forward takes, one after the other. -/
def forward (type : FwdType) (tag : Nat) (sublineVector : BitVec 4) (di : CacheType) : Tile × List Noc3 :=
  let m := fwdMsg type di sublineVector
  (m.passes cfg).foldl
    (fun r fs => let p := r.1.forwardPass type m tag fs; (p.1, r.2 ++ p.2)) (t, [])

/-- A message of the L2, with the acknowledgements that it asks for. -/
def receive : Noc2 → Tile × List Noc3
  | .dataAck mshrType tag subline mesi data => (t.dataAck mshrType (tag, subline) mesi data, [])
  | .nodataAck mshrType tag subline => (t.nodataAck mshrType (tag, subline), [])
  | .forward type tag sublineVector di => t.forward type tag sublineVector di

end Tile

end OpenPiton.Coherence
