import OpenPiton.Lib.Machine
import OpenPiton.Lib.RegFile
import OpenPiton.L15.Decoder
import OpenPiton.L15.Noc1Buffer

namespace OpenPiton.L15

structure Lru where
  used : Nat → Bool := fun _ => false
  rr : Nat := 0

structure WmtEntry where
  valid : Bool := false
  data : Nat := 0
  deriving DecidableEq, Repr

/-- The SRAMs and register files around the pipeline. The data arrays are indexed by set, way and
64-bit word of the line; the output register of the data array holds a row, first word first. -/
structure Arrays where
  dtag : Nat → Nat → Nat
  dtagDout : Nat → Nat
  mesi : RegFile (Nat → Mesi)
  lrsc : RegFile (Nat → Bool)
  lru : RegFile Lru
  wmt : RegFile (Nat → WmtEntry)
  dcache : Nat → Nat → Nat → Word
  dcacheDout : Nat → Word

/-- `creditman_noc1_*`, four bits each. -/
structure Creditman where
  avail : Nat := noc1BufferNumSlots
  dataAvail : Nat := noc1BufferNumDataSlots
  reserve : Nat := 0
  deriving DecidableEq, Repr

/-- The flops of S2. The control bits are those the decoder gives for `d`. -/
structure S2 where
  val : Bool := false
  d : DecoderIn := {}
  threadid : Nat := 0
  mshrType : MshrType := .cmo
  mshrIndex : Nat := 0
  address : Nat := 0
  nonCacheable : Bool := false
  size : MsgSize := .b0
  l1ReplacementWay : Nat := 0
  noc2Inval : Bool := false
  fwdSubcachelineVector : BitVec 4 := 0
  notLastInv : Bool := false
  multicycInvordowngrade : Bool := false
  noc2AckState : Mesi := .i
  reqSubline : Nat := 0
  cacheSubline : Nat := 0
  deriving DecidableEq, Repr

/-- The flops of S3. -/
structure S3 where
  val : Bool := false
  d : DecoderIn := {}
  tagcheckWay : Nat := 0
  tagcheckState : Mesi := .i
  tagcheckLrscFlag : Bool := false
  flushWay : Nat := 0
  flushState : Mesi := .i
  flushWayTag : Nat := 0
  lruWay : Nat := 0
  lruState : Mesi := .i
  lruWayTag : Nat := 0
  threadid : Nat := 0
  mshrType : MshrType := .cmo
  mshrIndex : Nat := 0
  address : Nat := 0
  nonCacheable : Bool := false
  size : MsgSize := .b0
  l1ReplacementWay : Nat := 0
  noc2Inval : Bool := false
  fwdSubcachelineVector : BitVec 4 := 0
  notLastInv : Bool := false
  cacheSubline : Nat := 0
  noc3Wb : Bool := false
  l1Inv : Bool := false
  l1InvMulticyc : Bool := false
  load64B : Bool := false
  l1dLoad : Bool := false
  mshrWrite : Bool := false
  deriving DecidableEq, Repr

/-- Where `simplenocbuffer` is with the message in its registers. -/
inductive Noc2State
  | idle | waitingAck | waitingAckRst
  deriving DecidableEq, Repr

structure State where
  pcx : Option PcxReq := none
  pcxNew : Bool := true
  noc2 : Noc2Msg := {}
  noc2State : Noc2State := .idle
  noc2New : Bool := true
  fetchState : FetchState := .normal
  mshr : Mshr
  credit : Creditman := {}
  noc1 : Noc1Buffer := {}
  arrays : Arrays
  s2 : S2 := {}
  s3 : S3 := {}
  cpxStaled : Bool := false
  noc1Staled : Bool := false
  noc3Staled : Bool := false
  /-- `lru_data_s3`. -/
  lruData : Lru := {}
  /-- `buffer_noc2decoder_l15_data`. -/
  noc2Data : Nat → Word := fun _ => 0
  /-- `dcache_l15_dout_buf`. -/
  doutBuf : Nat → Word := fun _ => 0

/-- What the other side of each port does in a cycle: the next request of the core and the next
NoC2 message, taken when the buffer before the decoder is free, and the readiness of the CPX
encoder, the NoC1 encoder and the NoC3 buffer. -/
structure Input where
  pcx : Option PcxReq := none
  noc2 : Option Noc2Msg := none
  cpxAck : Bool := true
  noc1Ack : Bool := true
  noc3Ack : Bool := true
  deriving DecidableEq, Repr

/-- `noc2decoder_l15_data`: a short message is replicated. -/
def Noc2Msg.word (m : Noc2Msg) (j : Nat) : Word :=
  match m.data.length with
  | 1 => m.data.getD 0 0
  | 2 => m.data.getD (j % 2) 0
  | _ => m.data.getD j 0

namespace S2

variable (cfg : Config)

def ctl (s2 : S2) : Ctl := decoder cfg s2.d

end S2

namespace S3

variable (cfg : Config)

def ctl (s3 : S3) : Ctl := decoder cfg s3.d

def lruWayAddress (s3 : S3) : Nat := cfg.lineAddress s3.lruWayTag (cfg.cacheIndex s3.address)

def flushWayAddress (s3 : S3) : Nat := cfg.lineAddress s3.flushWayTag (cfg.cacheIndex s3.address)

end S3

namespace State

variable (cfg : Config)

/-! ## S2 -/

section Stage2

def cacheIndexS2 (s : State) : Nat := cfg.cacheIndex s.s2.address

def tagcheckHit (s : State) (way : Nat) : Bool :=
  cfg.cacheTag s.s2.address == s.arrays.dtagDout way && s.arrays.mesi.readData way != .i

/-- The first way whose tag matches and whose state is not I. -/
def tagcheckS2 (s : State) : Option Nat := (List.range cfg.ways).find? (s.tagcheckHit cfg)

def tagcheckWayS2 (s : State) : Nat := (s.tagcheckS2 cfg).getD 0

def tagcheckStateS2 (s : State) : Mesi := (s.tagcheckS2 cfg).elim .i s.arrays.mesi.readData

def tagcheckLrscFlagS2 (s : State) : Bool := (s.tagcheckS2 cfg).elim false s.arrays.lrsc.readData

/-- The first way not used, going round from the round-robin turn. -/
def lruWayOf (l : Lru) : Nat :=
  ((List.range cfg.ways).find? fun i => !l.used ((l.rr + i) % cfg.ways)).elim l.rr
    fun i => (l.rr + i) % cfg.ways

def lruWayS2 (s : State) : Nat := lruWayOf cfg s.arrays.lru.readData

def lruStateS2 (s : State) : Mesi := s.arrays.mesi.readData (s.lruWayS2 cfg)

def flushWayS2 (s : State) : Nat := cfg.flushWay s.s2.address

def flushStateS2 (s : State) : Mesi := s.arrays.mesi.readData (s.flushWayS2 cfg)

def wayMshrStS2 (s : State) : Nat := (s.mshr s.s2.mshrIndex).way

def noc3WbS2 (s : State) : Bool :=
  match (s.s2.ctl cfg).noc1Op with
  | .writebackGuardIfLruM => s.lruStateS2 cfg == .m
  | .writebackGuardIfFlushM => s.flushStateS2 cfg == .m
  | .writebackGuardIfTagcheckM => s.tagcheckStateS2 cfg == .m
  | _ => false

def load64BS2 (s : State) : Bool :=
  match (s.s2.ctl cfg).dcacheOp with
  | .writeLruWayFromNoc2 | .writeLruWayFromNoc2AndMshr => true
  | _ => false

def l1dLoadS2 (s : State) : Bool :=
  match (s.s2.ctl cfg).cpxOp with
  | .ldResponseFromDcache | .ldResponseFromCsm => true
  | .ldResponseIfTagcheckMesFromDcache => (s.tagcheckStateS2 cfg).mes
  | _ => false

def mshrWriteS2 (s : State) : Bool :=
  match (s.s2.ctl cfg).dcacheOp with
  | .writeTagcheckWayIfMeFromMshr => (s.tagcheckStateS2 cfg).me
  | .writeTagcheckWayIfLrscSetFromMshr => s.tagcheckStateS2 cfg == .m
  | .writeMshrWayFromMshr | .writeLruWayFromNoc2AndMshr => true
  | _ => false

def l1InvAnyS2 (s : State) : Bool :=
  match (s.s2.ctl cfg).cpxOp with
  | .invalidationIfTagcheckMesAndWaymapValid => (s.tagcheckStateS2 cfg).mes
  | .invalidationIfLruMesAndWaymapValid => (s.lruStateS2 cfg).mes
  | .invalidationIfFlushMesAndWaymapValid => (s.flushStateS2 cfg).mes
  | _ => false

def l1InvS2 (s : State) : Bool := s.l1InvAnyS2 cfg && !s.s2.multicycInvordowngrade

def l1InvMulticycS2 (s : State) : Bool :=
  (s.s2.ctl cfg).cpxOp == .invalidationIfTagcheckMesAndWaymapValid && (s.tagcheckStateS2 cfg).mes &&
    s.s2.multicycInvordowngrade

/-- The operations that hold S2 for a whole burst. -/
def burstS2 (s : State) : Bool :=
  s.load64BS2 cfg || s.noc3WbS2 cfg || s.l1InvS2 cfg || s.mshrWriteS2 cfg || s.l1dLoadS2 cfg

def stallLoadS2 (s : State) : Bool :=
  s.s2.val && s.burstS2 cfg && s.s2.cacheSubline != cfg.lastBeat

end Stage2

/-! ## S3 requests -/

section Stage3

def stbufCompareMatchS3 (s : State) (i : Nat) : Bool :=
  (s.mshr i).val && (s.mshr i).type == .st && (s.mshr i).state == .sm &&
    (s.mshr i).address / cfg.lineSize == s.s3.address / cfg.lineSize

def stbufCompareLruMatchS3 (s : State) (i : Nat) : Bool :=
  s.stbufCompareMatchS3 cfg i && (s.mshr i).way == s.s3.lruWay

def stbufCompareMatchValS3 (s : State) : Bool := anyMatch cfg.threads (s.stbufCompareMatchS3 cfg)

def stbufCompareMshrIndexS3 (s : State) : Nat := lastMatch cfg.threads (s.stbufCompareMatchS3 cfg)

def stbufWayS3 (s : State) : Nat := (s.mshr (s.stbufCompareMshrIndexS3 cfg)).way

/-- `{alias, way}` cut to `L15_WMT_DATA_WIDTH`. -/
def wmtData (address way : Nat) : Nat :=
  (cfg.wmtAlias address * 2 ^ cfg.wayWidth + way) % 2 ^ (cfg.l1dWayWidth + (cfg.indexWidth - cfg.l1dIndexWidth))

def wmtCompareWayS3 (s : State) : Nat :=
  match (s.s3.ctl cfg).wmtCompareOp with
  | .none => 0
  | .lru => s.s3.lruWay
  | .tagcheck => s.s3.tagcheckWay
  | .flush => s.s3.flushWay
  | .stbuf => s.stbufWayS3 cfg

def wmtCompareMaskS3 (s : State) (l1dWay : Nat) : Bool :=
  (s.arrays.wmt.readData l1dWay).valid &&
    wmtData cfg s.s3.address (s.wmtCompareWayS3 cfg) == (s.arrays.wmt.readData l1dWay).data

def wmtCompareMatchS3 (s : State) : Bool :=
  cfg.hpdc || anyMatch cfg.l1dWays (s.wmtCompareMaskS3 cfg)

def wmtCompareMatchWayS3 (s : State) : Nat :=
  if cfg.hpdc then 0 else ((List.range cfg.l1dWays).find? (s.wmtCompareMaskS3 cfg)).getD 0

/-- A CPX request as the pipeline puts it to the encoder. -/
structure CpxReq where
  type : CpxRestype
  threadid : Nat
  invalidateL1 : Bool := false
  invalWay : Nat := 0
  invalAddress : Nat
  icacheInval : Bool := false
  /-- The bit an SC returns: 0 on success. -/
  lrscFail : Option Bool := none
  deriving DecidableEq, Repr

def atLastBeatS3 (s : State) : Bool := s.s3.cacheSubline == cfg.lastBeat

/-- `cpx_req_val_s3` with the request. -/
def cpxReqS3 (s : State) : Option CpxReq :=
  let req (type : CpxRestype) : CpxReq := { type := type, threadid := s.s3.threadid, invalAddress := s.s3.address }
  let inval (address : Nat) : CpxReq :=
    { req .inval with invalidateL1 := true, invalWay := s.wmtCompareMatchWayS3 cfg, invalAddress := address }
  let when (b : Bool) (r : CpxReq) : Option CpxReq := if b then some r else none
  match (s.s3.ctl cfg).cpxOp with
  | .none => none
  | .icacheInvalidation => some { req .inval with icacheInval := true }
  | .dcacheInvalidation => some (inval s.s3.address)
  | .invalidationIfTagcheckMesAndWaymapValid =>
      let sublineVal := match cfg.organisation with
        | .serial64 => s.s3.address / 16 % 4 == 3
        | .serial32 => s.s3.address / 16 % 2 == 1
        | .serial16 | .parallel64 => true
      when (s.s3.tagcheckState.mes && s.wmtCompareMatchS3 cfg &&
        (!cfg.hpdc || cfg.parallelSrams || !s.s3.l1InvMulticyc || sublineVal)) (inval s.s3.address)
  | .invalidationIfLruMesAndWaymapValid =>
      when (s.s3.lruState.mes && s.wmtCompareMatchS3 cfg) (inval (s.s3.lruWayAddress cfg))
  | .invalidationIfFlushMesAndWaymapValid =>
      when (s.s3.flushState.mes && s.wmtCompareMatchS3 cfg) (inval s.s3.address)
  | .ldResponseBogusData => some (req .load)
  | .ldResponseIfTagcheckMesFromDcache => when s.s3.tagcheckState.mes (req .load)
  | .ldResponseFromNoc2 =>
      when (cfg.parallelSrams || s.s3.d.reqtype != .ackdtLd || s.atLastBeatS3 cfg) (req .load)
  | .stAck => some (req .storeAck)
  | .scAck => some { req .atomicRes with lrscFail := some !s.s3.tagcheckLrscFlag }
  | .stAckWithPossibleInval =>
      some { req .storeAck with
        invalidateL1 := !cfg.hpdc && s.stbufCompareMatchValS3 cfg && s.wmtCompareMatchS3 cfg
        invalWay := s.wmtCompareMatchWayS3 cfg }
  | .stAckIfTagcheckMeWithPossibleInval =>
      when s.s3.tagcheckState.me { req .storeAck with
        invalidateL1 := !cfg.hpdc && s.wmtCompareMatchS3 cfg
        invalWay := s.wmtCompareMatchWayS3 cfg }
  | .ifillResponseFromNoc2 => some (req .ifill1)
  | .atomicAckFromNoc2 =>
      when (cfg.parallelSrams || s.s3.d.reqtype != .ackdtLr || s.atLastBeatS3 cfg) (req .atomicRes)
  | .broadcastAck => some (req .interrupt)
  | .interrupt => some (req .interrupt)
  | .loadConfigRegResponse => some (req .load)
  | .ldResponseFromDcache => some (req .load)
  | .ldResponseFromCsm => some (req .load)
  | .cmoAckFromNoc2 => some (req .cmoRes)

/-- `l15_cpxencoder_val`. -/
def cpxencoderVal (s : State) : Bool :=
  s.s3.val && (s.cpxReqS3 cfg).isSome && !s.cpxStaled &&
    (!(s.s3.l1dLoad || s.s3.mshrWrite || cfg.hpdc && s.s3.l1Inv) || s.atLastBeatS3 cfg)

/-- `noc1_req_val_s3` but for `val_s3`. -/
def noc1ReqValS3 (s : State) : Bool :=
  match (s.s3.ctl cfg).noc1Op with
  | .none => false
  | .writebackGuardIfLruM => s.s3.lruState == .m || s.s3.noc3Wb
  | .writebackGuardIfFlushM => s.s3.flushState == .m || s.s3.noc3Wb
  | .writebackGuardIfTagcheckM => s.s3.tagcheckState == .m || s.s3.noc3Wb && !cfg.parallelSrams
  | .dataLdRequestIfTagcheckMiss => !s.s3.tagcheckState.mes
  | .dataStUpgradeIfTagcheckSElseStFillIfTagcheckI => s.s3.tagcheckState == .s || s.s3.tagcheckState == .i
  | _ => true

def noc1TypeS3 (s : State) : Noc1Reqtype :=
  match (s.s3.ctl cfg).noc1Op with
  | .none => .none
  | .writebackGuardIfLruM | .writebackGuardIfFlushM | .writebackGuardIfTagcheckM => .writebackGuard
  | .dataLdRequest | .dataLdRequestIfTagcheckMiss => .ldRequest
  | .instructionLdRequest => .ifillRequest
  | .dataWritethroughRequestFromPcx => .writethroughRequest
  | .dataStUpgradeIfTagcheckSElseStFillIfTagcheckI =>
      if s.s3.tagcheckState = .s then .stUpgradeRequest else .stFillRequest
  | .dataLrRequest => .lrRequest
  | .dataCasRequestFromPcx => .casRequest
  | .dataSwapRequestFromPcx => .swapRequest
  | .dataAmoRequestFromPcx op => .amoRequest op
  | .interruptFwd => .interruptFwd
  | .rvcmoRequestFromPcx op => .rvcmoRequest op

def noc1AddressS3 (s : State) : Nat :=
  match (s.s3.ctl cfg).noc1Op with
  | .writebackGuardIfLruM => s.s3.lruWayAddress cfg
  | .writebackGuardIfFlushM => s.s3.flushWayAddress cfg
  | .interruptFwd | .none => 0
  | _ => s.s3.address

/-- `creditman_noc1_mispredicted_s3`: refunded in the first beat of a burst only. -/
def mispredictedS3 (s : State) : Bool :=
  let burst := match (s.s3.ctl cfg).noc1Op with
    | .writebackGuardIfLruM | .writebackGuardIfFlushM | .writebackGuardIfTagcheckM =>
        some (s.s3.noc3Wb || s.s3.load64B || s.s3.l1Inv)
    | .dataLdRequestIfTagcheckMiss => some s.s3.l1dLoad
    | .dataStUpgradeIfTagcheckSElseStFillIfTagcheckI => some s.s3.mshrWrite
    | _ => none
  match burst with
  | none => false
  | some b => !(b && s.s3.cacheSubline != 0) && !s.noc1ReqValS3 cfg && s.s3.val

/-- `creditman_noc1_reserve_s3`. -/
def reserveS3 (s : State) : Bool :=
  match (s.s3.ctl cfg).noc1Op with
  | .dataLdRequestIfTagcheckMiss => s.s3.val && s.noc1ReqValS3 cfg
  | .dataStUpgradeIfTagcheckSElseStFillIfTagcheckI =>
      !(s.s3.mshrWrite && s.s3.cacheSubline != 0) && s.s3.val && s.noc1ReqValS3 cfg
  | .dataLrRequest => s.s3.val
  | _ => false

/-- `l15_noc1buffer_req_val`. -/
def noc1bufferReqVal (s : State) : Bool :=
  s.s3.val && s.noc1ReqValS3 cfg && !s.noc1Staled &&
    (cfg.parallelSrams || !s.s3.noc3Wb && !s.s3.mshrWrite || s.atLastBeatS3 cfg)

def lineMsgSize : MsgSize :=
  match cfg.lineSize with
  | 64 => .b64
  | 32 => .b32
  | _ => .b16

def noc1DataS3 (s : State) : Word × Word :=
  let pcx := s.pcx.getD {}
  match (s.s3.ctl cfg).noc1Op with
  | .dataCasRequestFromPcx => (pcx.data, pcx.dataNextEntry)
  | .dataWritethroughRequestFromPcx | .dataStUpgradeIfTagcheckSElseStFillIfTagcheckI
  | .dataSwapRequestFromPcx | .dataAmoRequestFromPcx _ | .interruptFwd => (pcx.data, 0)
  | _ => (0, 0)

def noc1bufferReq (s : State) : Option Noc1Req :=
  if s.noc1bufferReqVal cfg then
    some
      { reqtype := s.noc1TypeS3 cfg
        mshrType := s.s3.mshrType
        mshrIndex := s.s3.mshrIndex
        address := s.noc1AddressS3 cfg
        nonCacheable := s.s3.nonCacheable
        size := match s.noc1TypeS3 cfg with
          | .stUpgradeRequest | .stFillRequest | .lrRequest => lineMsgSize cfg
          | _ => s.s3.size
        data0 := (s.noc1DataS3 cfg).1
        data1 := (s.noc1DataS3 cfg).2 }
  else none

structure Noc3Req where
  type : Noc3Reqtype
  withData : Bool
  address : Nat
  sequenceid : Nat
  mshrType : MshrType
  threadid : Nat
  wasInval : Bool
  fwdackVector : BitVec 4
  /-- The data words, `req_data[64*j +: 64]`. -/
  data : List Word

/-- `noc3_req_val_s3` but for `val_s3`. -/
def noc3ReqValS3 (s : State) : Bool :=
  match (s.s3.ctl cfg).noc3Op with
  | .none => false
  | .writebackIfTagcheckMFromDcache => s.s3.tagcheckState == .m || s.s3.noc3Wb
  | .writebackIfLruMFromDcache => s.s3.lruState == .m || s.s3.noc3Wb
  | .writebackIfFlushMFromDcache => s.s3.flushState == .m || s.s3.noc3Wb
  | .invalAckFromDcache | .downgradeAckFromDcache | .icacheInvalAck => true
  | .invalAckIfTagcheckMFromDcache | .downgradeAckIfTagcheckMFromDcache => s.s3.tagcheckState == .m

/-- `l15_noc3encoder_req_val`. -/
def noc3encoderReqVal (s : State) : Bool :=
  s.s3.val && s.noc3ReqValS3 cfg && !s.noc3Staled &&
    (cfg.parallelSrams || !s.s3.noc3Wb || s.atLastBeatS3 cfg)

def stallForCpxS3 (s : State) (i : Input) : Bool := !s.cpxStaled && s.cpxencoderVal cfg && !i.cpxAck

def stallForNoc3S3 (s : State) (i : Input) : Bool := !s.noc3Staled && s.noc3encoderReqVal cfg && !i.noc3Ack

def stallS3 (s : State) (i : Input) : Bool :=
  s.s3.val && (s.stallForCpxS3 cfg i || s.stallForNoc3S3 cfg i)

def noc3TypeS3 (s : State) : Noc3Reqtype :=
  match (s.s3.ctl cfg).noc3Op with
  | .none => .none
  | .writebackIfTagcheckMFromDcache | .writebackIfLruMFromDcache | .writebackIfFlushMFromDcache => .writeback
  | .invalAckFromDcache | .invalAckIfTagcheckMFromDcache => .invalAck
  | .downgradeAckFromDcache | .downgradeAckIfTagcheckMFromDcache => .downgradeAck
  | .icacheInvalAck => .icacheInvalAck

def noc3WithDataS3 (s : State) : Bool :=
  match (s.s3.ctl cfg).noc3Op with
  | .none | .icacheInvalAck => false
  | .invalAckFromDcache | .downgradeAckFromDcache => s.s3.tagcheckState == .m
  | _ => true

def noc3AddressS3 (s : State) : Nat :=
  match (s.s3.ctl cfg).noc3Op with
  | .none => 0
  | .writebackIfLruMFromDcache => s.s3.lruWayAddress cfg
  | .writebackIfFlushMFromDcache => s.s3.flushWayAddress cfg
  | _ => s.s3.address

/-- `l15_noc3encoder_req_data`: the last row comes from the array, the rows before it from the
assembly buffer; a row is sent first word first. -/
def noc3DataS3 (s : State) : List Word :=
  let dout := s.arrays.dcacheDout
  match cfg.organisation with
  | .parallel64 => (List.range 8).map dout
  | .serial16 => [dout 0, dout 1]
  | .serial32 => (if s.s3.noc3Wb then [s.doutBuf 0, s.doutBuf 1] else [dout 0, dout 1]) ++ [dout 0, dout 1]
  | .serial64 =>
      (if s.s3.noc3Wb then [s.doutBuf 0, s.doutBuf 1] else [dout 0, dout 1]) ++
        [s.doutBuf 2, s.doutBuf 3, s.doutBuf 4, s.doutBuf 5] ++ [dout 0, dout 1]

/-- The subline a forward acknowledgement names with `PARALLEL_SRAMS`. -/
def lastSubline (v : BitVec 4) : Nat :=
  if v.getLsbD 3 then 3 else if v.getLsbD 2 then 2 else if v.getLsbD 1 then 1 else 0

def noc3encoderReq (s : State) : Option Noc3Req :=
  if s.noc3encoderReqVal cfg then
    some
      { type := s.noc3TypeS3 cfg
        withData := s.noc3WithDataS3 cfg
        address := s.noc3AddressS3 cfg
        sequenceid := if cfg.parallelSrams then lastSubline s.s3.fwdSubcachelineVector else s.s3.address / 16 % 4
        mshrType := s.s3.mshrType
        threadid := s.s3.threadid
        wasInval := s.s3.noc2Inval
        fwdackVector := s.s3.fwdSubcachelineVector
        data := s.noc3DataS3 cfg }
  else none

end Stage3

/-! ## Stalls and S1 -/

section Stage1

def stallRealS2 (s : State) (i : Input) : Bool := s.s2.val && s.stallS3 cfg i

def stallS2 (s : State) (i : Input) : Bool := s.stallRealS2 cfg i || s.stallLoadS2 cfg

def pcxVal (s : State) : Bool := s.pcx.isSome && s.pcxNew

def noc2Val (s : State) : Bool := s.noc2State == .waitingAck && s.noc2New

def preS1 (s : State) : Predecode :=
  predecode cfg s.fetchState s.mshr s.pcxVal (s.pcx.getD {}) s.noc2Val s.noc2

def decoderInS1 (s : State) : DecoderIn := (s.preS1 cfg).decoderIn s.fetchState

def ctlS1 (s : State) : Ctl := decoder cfg (s.decoderInS1 cfg)

/-- `decoder_mshr_type_s1`. -/
def mshrTypeS1 (s : State) : MshrType :=
  if (s.preS1 cfg).source = .noc2 then s.noc2.mshrType else (s.ctlS1 cfg).mshrAllocationType

def notLastInvS1 (s : State) : Bool :=
  cfg.lineSize != 16 && (s.preS1 cfg).multicycInvordowngrade && !(s.preS1 cfg).isLastInval

/-- `creditman_noc1_avail <= creditman_noc1_reserve`, through the five-bit subtraction. -/
def noc1Unavail1 (c : Creditman) : Bool :=
  let r := 16 + c.avail - c.reserve
  r % 16 == 0 || r / 16 % 2 == 0

def noc1Unavail2 (c : Creditman) : Bool := noc1Unavail1 c || (16 + c.avail - c.reserve) % 16 == 1

def noc1CommandUnavail (c : Creditman) (ctl : Ctl) : Bool :=
  (ctl.creditmanNoc1Needed == 1 && noc1Unavail1 c) || (ctl.creditmanNoc1Needed == 2 && noc1Unavail2 c)

def noc1DataUnavail (c : Creditman) (ctl : Ctl) : Bool :=
  if ctl.creditmanReq8B then c.dataAvail == 0
  else if ctl.creditmanReq16B then c.dataAvail < 2
  else false

/-- Only a PCX request waits for NoC1 space, and only in its first pass. -/
def stallPcxNoc1BufferS1 (s : State) : Bool :=
  (noc1CommandUnavail s.credit (s.ctlS1 cfg) || noc1DataUnavail s.credit (s.ctlS1 cfg)) &&
    (s.preS1 cfg).source == .pcx && s.fetchState == .normal

def stallIndexConflictS1 (s : State) : Bool :=
  (s.ctlS1 cfg).stallOnMatchedBypassedIndex &&
    (s.s2.val && cfg.cacheIndex (s.preS1 cfg).address == cfg.cacheIndex s.s2.address ||
      s.s3.val && cfg.cacheIndex (s.preS1 cfg).address == cfg.cacheIndex s.s3.address)

def stallS1 (s : State) (i : Input) : Bool :=
  (s.preS1 cfg).val &&
    ((s.preS1 cfg).tagcheckMatched && (s.ctlS1 cfg).stallOnMatchedMshr ||
      s.stallIndexConflictS1 cfg || s.stallS2 cfg i ||
      (s.mshr (s.preS1 cfg).threadid).val && (s.ctlS1 cfg).stallOnMshrAllocation ||
      s.stallPcxNoc1BufferS1 cfg)

/-- `val_s1 && !stall_s1`: the request of S1 moves on. -/
def acceptS1 (s : State) (i : Input) : Bool := (s.preS1 cfg).val && !s.stallS1 cfg i

/-- The control bits an MSHR keeps; an LR is written down as cacheable. -/
def mshrControlS1 (s : State) : Control :=
  let p := s.preS1 cfg
  { size := p.size
    threadid := p.threadid
    l1ReplacementWay := p.l1ReplacementWay
    nc := if p.reqtype = .amoLr then false else p.nonCacheable
    icache := p.icacheBit
    load := p.dcacheLoad
    atomic := p.atomic }

def mshrS1Write (s : State) (i : Input) : MshrS1Write :=
  let pcx := s.pcx.getD {}
  let mask := writeMask cfg (s.preS1 cfg).size pcx.address
  if s.acceptS1 cfg i then
    match (s.ctlS1 cfg).s1MshrOp with
    | .none => .none
    | .allocate =>
        .allocation (s.preS1 cfg).mshrIndex (s.ctlS1 cfg).mshrAllocationType pcx.address
          (s.mshrControlS1 cfg) pcx.data mask
    | .updateWritecache => .updateWriteCache (s.preS1 cfg).hitStbufMshrIndex pcx.data mask
  else .none

def fetchStateNext (s : State) (i : Input) : FetchState :=
  if (s.preS1 cfg).val && s.stallS1 cfg i then s.fetchState else FetchState.next cfg (s.decoderInS1 cfg)

end Stage1

/-! ## Acknowledgements to the decoders -/

section Acks

def pcxAck (s : State) (i : Input) : Bool :=
  (s.acceptS1 cfg i && (s.ctlS1 cfg).pcxAckStage == .s1) ||
  (s.s2.val && !s.stallRealS2 cfg i && (s.s2.ctl cfg).pcxAckStage == .s2) ||
  (s.s3.val && !s.stallS3 cfg i && (s.s3.ctl cfg).pcxAckStage == .s3)

def noc2Ack (s : State) (i : Input) : Bool :=
  (s.acceptS1 cfg i && (s.ctlS1 cfg).noc2AckStage == .s1) ||
  (s.s2.val && !s.stallRealS2 cfg i && (s.s2.ctl cfg).noc2AckStage == .s2) ||
  (s.s3.val && !s.stallS3 cfg i && (s.s3.ctl cfg).noc2AckStage == .s3)

def pcxHeaderAck (s : State) (i : Input) : Bool :=
  (s.preS1 cfg).source == .pcx && s.acceptS1 cfg i && s.fetchState == .normal

def noc2HeaderAck (s : State) (i : Input) : Bool :=
  (s.preS1 cfg).source == .noc2 && s.acceptS1 cfg i && s.fetchState == .normal

/-- The request before `pcx_decoder`: it stays until it is acknowledged. -/
def pcxNext (s : State) (i : Input) : Option PcxReq :=
  if s.pcx.isNone || s.pcxAck cfg i then i.pcx else s.pcx

def isNewNext (ack headerAck isNew : Bool) : Bool := if ack then true else if headerAck then false else isNew

/-- `simplenocbuffer` with whole messages: a message is held until it is acknowledged and the next
is taken once the acknowledgement is low again. -/
def noc2Next (s : State) (i : Input) : Noc2Msg × Noc2State :=
  match s.noc2State with
  | .idle => match i.noc2 with
    | some m => (m, .waitingAck)
    | none => (s.noc2, .idle)
  | .waitingAck => (s.noc2, if s.noc2Ack cfg i then .waitingAckRst else .waitingAck)
  | .waitingAckRst => (s.noc2, if s.noc2Ack cfg i then .waitingAckRst else .idle)

end Acks

/-! ## Credits -/

section Credits

/-- `noc1encoder_l15_req_sent`: the encoder takes the head of the buffer. -/
def noc1Sent (s : State) (i : Input) : Bool := i.noc1Ack && s.noc1.reqVal

def noc1DataSent (s : State) (i : Input) : Nat := if s.noc1Sent i then s.noc1.head.reqtype.dataWords else 0

/-- Up and down counts of a four-bit credit counter. -/
def count4 (n up down : Nat) : Nat := (n + up + 16 - down) % 16

/-- `creditman_noc1_avail`: a sent command and a refund count up, `needed` counts down. -/
def availNext (avail needed : Nat) (sent mis accept : Bool) : Nat :=
  let req := accept && needed != 0
  let down1 := req && needed == 1
  let down2 := req && needed == 2
  if sent && mis && !req then count4 avail 2 0
  else if sent && mis && down1 || (sent ^^ mis) && !req then count4 avail 1 0
  else if down2 && (sent ^^ mis) || down1 && !(sent || mis) then count4 avail 0 1
  else if down2 && !(sent || mis) then count4 avail 0 2
  else avail

/-- `creditman_noc1_data_avail`. -/
def dataAvailNext (avail wordsSent : Nat) (sent req req8B req16B : Bool) : Nat :=
  let up1 := sent && wordsSent == 1
  let up2 := sent && wordsSent == 2
  let down1 := req && req8B
  let down2 := req && req16B
  if up1 && !down1 && !down2 || up2 && down1 then count4 avail 1 0
  else if up2 && !down1 && !down2 then count4 avail 2 0
  else if down1 && !up1 && !up2 || down2 && up1 then count4 avail 0 1
  else if down2 && !up1 && !up2 then count4 avail 0 2
  else avail

/-- `creditman_noc1_reserve`. -/
def reserveNext (reserve : Nat) (up down : Bool) : Nat :=
  if up && !down then count4 reserve 1 0 else if !up && down then count4 reserve 0 1 else reserve

def creditmanNext (s : State) (i : Input) : Creditman :=
  let ctl := s.ctlS1 cfg
  { avail := availNext s.credit.avail ctl.creditmanNoc1Needed (s.noc1Sent i) (s.mispredictedS3 cfg) (s.acceptS1 cfg i)
    dataAvail := dataAvailNext s.credit.dataAvail (s.noc1DataSent i) (s.noc1Sent i)
      (s.acceptS1 cfg i && ctl.creditmanNoc1Needed != 0) ctl.creditmanReq8B ctl.creditmanReq16B
    reserve := reserveNext s.credit.reserve (s.reserveS3 cfg && !s.stallS3 cfg i && s.s3.val)
      (s.acceptS1 cfg i && ctl.creditmanNoc1Unreserve) }

end Credits

/-! ## Array writes -/

section ArrayWrites

def dtagNext (s : State) (i : Input) : Nat → Nat → Nat :=
  if s.acceptS1 cfg i && (s.ctlS1 cfg).dtagOp == .write then
    let index := cfg.cacheIndex (s.preS1 cfg).address
    Function.update s.arrays.dtag index
      (Function.update (s.arrays.dtag index) (s.lruWayS2 cfg) (cfg.cacheTag (s.preS1 cfg).address))
  else s.arrays.dtag

def dtagDoutNext (s : State) (i : Input) : Nat → Nat :=
  if s.acceptS1 cfg i && (s.ctlS1 cfg).dtagOp == .read then
    s.arrays.dtag (cfg.cacheIndex (s.preS1 cfg).address)
  else s.arrays.dtagDout

/-- The way and the state of a MESI write, `mesi_write_val_s2`. -/
def mesiWriteS2 (s : State) : Option (Nat × Mesi) :=
  match (s.s2.ctl cfg).mesiWriteOp with
  | .none => none
  | .invalidateTagcheckWayIfMes =>
      if (s.tagcheckStateS2 cfg).mes then some (s.tagcheckWayS2 cfg, .i) else none
  | .invalidateFlushWayIfMes => if (s.flushStateS2 cfg).mes then some (s.flushWayS2 cfg, .i) else none
  | .writeTagcheckWaySIfMe => if (s.tagcheckStateS2 cfg).me then some (s.tagcheckWayS2 cfg, .s) else none
  | .writeTagcheckWayMIfE => if s.tagcheckStateS2 cfg = .e then some (s.tagcheckWayS2 cfg, .m) else none
  | .writeLruWayAckState => some (s.lruWayS2 cfg, s.s2.noc2AckState)
  | .writeMshrWayAckState => some (s.wayMshrStS2, s.s2.noc2AckState)

/-- The state is written in the last cycle of S2, and only by the last pass over a line. -/
def mesiWrite (s : State) (i : Input) : Option (Nat × (Nat → Mesi)) :=
  if s.s2.val && !s.stallS2 cfg i && (cfg.parallelSrams || !s.s2.notLastInv) then
    (s.mesiWriteS2 cfg).map fun (way, st) =>
      (s.cacheIndexS2 cfg, Function.update (s.arrays.mesi.rows (s.cacheIndexS2 cfg)) way st)
  else none

def lrscWriteS2 (s : State) : Option (Nat × Bool) :=
  match (s.s2.ctl cfg).lrscFlagWriteOp with
  | .none => none
  | .setLruWay => some (s.lruWayS2 cfg, true)
  | .clearTagcheckWay => if s.tagcheckStateS2 cfg = .m then some (s.tagcheckWayS2 cfg, false) else none
  | .clearLruWay => some (s.lruWayS2 cfg, false)
  | .clearFlushWay => if s.flushStateS2 cfg = .m then some (s.flushWayS2 cfg, false) else none

def lrscWrite (s : State) (i : Input) : Option (Nat × (Nat → Bool)) :=
  if s.s2.val && !s.stallS2 cfg i then
    (s.lrscWriteS2 cfg).map fun (way, b) =>
      (s.cacheIndexS2 cfg, Function.update (s.arrays.lrsc.rows (s.cacheIndexS2 cfg)) way b)
  else none

inductive DcacheSource
  | mshr | noc2 | noc2AndMshr | pcxDiag
  deriving DecidableEq, Repr

/-- A request to the data array: the way, the subline of a serial build, and the source of a write. -/
structure DcacheReq where
  way : Nat
  subline : Nat
  write : Option DcacheSource := none
  deriving DecidableEq, Repr

/-- `dcache_*_s2`, `none` when `dcache_val_s2` is low. -/
def dcacheReqS2 (s : State) : Option DcacheReq :=
  let sublineIf (b : Bool) : Nat := if b then s.s2.cacheSubline else s.s2.reqSubline
  match (s.s2.ctl cfg).dcacheOp with
  | .none => none
  | .readTagcheckWayIfM =>
      if s.tagcheckStateS2 cfg = .m || s.noc3WbS2 cfg then
        some ⟨s.tagcheckWayS2 cfg, sublineIf (s.noc3WbS2 cfg), none⟩
      else none
  | .readTagcheckWayIfMes =>
      if (s.tagcheckStateS2 cfg).mes || s.noc3WbS2 cfg || s.l1dLoadS2 cfg then
        some ⟨s.tagcheckWayS2 cfg, sublineIf (s.noc3WbS2 cfg || s.l1dLoadS2 cfg), none⟩
      else none
  | .readLruWayIfM =>
      if s.lruStateS2 cfg = .m || s.noc3WbS2 cfg then
        some ⟨s.lruWayS2 cfg, sublineIf (s.noc3WbS2 cfg), none⟩
      else none
  | .readFlushWayIfM =>
      -- unlike the other reads, not the subline of the burst
      if s.flushStateS2 cfg = .m then some ⟨s.flushWayS2 cfg, s.s2.reqSubline, none⟩ else none
  | .writeTagcheckWayIfMeFromMshr =>
      if (s.tagcheckStateS2 cfg).me then some ⟨s.tagcheckWayS2 cfg, s.s2.cacheSubline, some .mshr⟩ else none
  | .writeTagcheckWayIfLrscSetFromMshr =>
      if s.tagcheckStateS2 cfg = .m && s.tagcheckLrscFlagS2 cfg then
        some ⟨s.tagcheckWayS2 cfg, s.s2.cacheSubline, some .mshr⟩
      else none
  | .writeLruWayFromNoc2 => some ⟨s.lruWayS2 cfg, s.s2.cacheSubline, some .noc2⟩
  | .writeLruWayFromNoc2AndMshr => some ⟨s.lruWayS2 cfg, s.s2.cacheSubline, some .noc2AndMshr⟩
  | .writeMshrWayFromMshr => some ⟨s.wayMshrStS2, s.s2.cacheSubline, some .mshr⟩
  | .diagRead => some ⟨s.s2.address / 2 ^ 24 % 4, 0, none⟩
  | .diagWrite => some ⟨s.s2.address / 2 ^ 24 % 4, s.s2.reqSubline, some .pcxDiag⟩

/-- The subline `buffer_noc2decoder_l15_data` goes by; 0 without a request. -/
def dcacheSublineS2 (s : State) : Nat := ((s.dcacheReqS2 cfg).map DcacheReq.subline).getD 0

/-- Word `j` of the fill data: the first row comes from the decoder, the others from the buffer. -/
def fillWord (s : State) (subline j : Nat) : Word :=
  if cfg.parallelSrams || subline == 0 then s.noc2.word j else s.noc2Data j

/-- The words a row of the data array holds. -/
def inRow (subline j : Nat) : Bool := cfg.parallelSrams || j / 2 == subline

def dcacheWriteWord (s : State) (r : DcacheReq) (source : DcacheSource) (j : Nat) (old : Word) : Word :=
  let e := s.mshr s.s2.mshrIndex
  match source with
  | .mshr => mergeBits (bitMask cfg e.byteMask j) old (e.writeBuffer j)
  | .noc2 => s.fillWord cfg r.subline j
  | .noc2AndMshr => mergeBits (bitMask cfg e.byteMask j) (s.fillWord cfg r.subline j) (e.writeBuffer j)
  | .pcxDiag =>
      if j == (if cfg.parallelSrams then 6 else 2 * r.subline) + s.s2.address / 8 % 2 then (s.pcx.getD {}).data
      else old

/-- `l15_dcache_val_s2`. -/
def dcacheReq (s : State) (i : Input) : Option DcacheReq :=
  if s.s2.val && !s.stallRealS2 cfg i then s.dcacheReqS2 cfg else none

def dcacheNext (s : State) (i : Input) : Nat → Nat → Nat → Word :=
  match s.dcacheReq cfg i with
  | some ⟨way, subline, some source⟩ =>
      let index := s.cacheIndexS2 cfg
      let line := s.arrays.dcache index way
      Function.update s.arrays.dcache index (Function.update (s.arrays.dcache index) way fun j =>
        if inRow cfg subline j && j < cfg.lineWords then
          s.dcacheWriteWord cfg ⟨way, subline, some source⟩ source j (line j)
        else line j)
  | _ => s.arrays.dcache

def dcacheDoutNext (s : State) (i : Input) : Nat → Word :=
  match s.dcacheReq cfg i with
  | some ⟨way, subline, none⟩ => fun j =>
      s.arrays.dcache (s.cacheIndexS2 cfg) way (if cfg.parallelSrams then j else 2 * subline + j)
  | _ => s.arrays.dcacheDout

def setUsed (cfg : Config) (l : Lru) (way : Nat) : Lru :=
  let used := Function.update l.used way true
  if (List.range cfg.ways).all used then { l with used := fun _ => false } else { l with used := used }

def lruWriteS3 (s : State) : Option Lru :=
  let clear (way : Nat) : Lru := { s.lruData with used := Function.update s.lruData.used way false }
  match (s.s3.ctl cfg).lruarrayWriteOp with
  | .none | .eviction => none
  | .updateAccessBitsIfTagcheckWayIsMes =>
      if s.s3.tagcheckState.mes then some (setUsed cfg s.lruData s.s3.tagcheckWay) else none
  | .updateAccessBitsIfTagcheckWayLrscSet =>
      if s.s3.tagcheckLrscFlag then some (setUsed cfg s.lruData s.s3.tagcheckWay) else none
  | .replacement =>
      some ⟨Function.update s.lruData.used s.s3.lruWay true, (s.lruData.rr + 1) % cfg.ways⟩
  | .invalidateIfTagcheckWayIsMes => if s.s3.tagcheckState.mes then some (clear s.s3.tagcheckWay) else none
  | .invalidateIfFlushWayIsMes => if s.s3.flushState.mes then some (clear s.s3.flushWay) else none

/-- `l15_lruarray_write_val_s3`; not guarded by the stall of S3. -/
def lruWrite (s : State) : Option (Nat × Lru) :=
  if s.s3.val && (cfg.parallelSrams ||
      !s.s3.notLastInv && (!(s.s3.noc3Wb || s.s3.l1Inv || s.s3.load64B) || s.atLastBeatS3 cfg)) then
    (s.lruWriteS3 cfg).map (cfg.cacheIndex s.s3.address, ·)
  else none

/-- The way a WMT write maps, if any; every WMT write drops the entries the comparison found. -/
def wmtWriteS3 (s : State) : Option (Option Nat) :=
  match (s.s3.ctl cfg).wmtWriteOp with
  | .none => none
  | .demapTagcheckWayIfMes => if s.s3.tagcheckState.mes then some none else none
  | .demapLruWayIfMes => if s.s3.lruState.mes then some none else none
  | .demapFlushWayIfMes => if s.s3.flushState.mes then some none else none
  | .updateLruWayAndDedupEntry => some (some s.s3.lruWay)
  | .updateTagcheckWayAndDedupEntryIfTagcheckWayIsMes =>
      if s.s3.tagcheckState.mes then some (some s.s3.tagcheckWay) else none

/-- `l15_wmt_write_val_s3`; not guarded by the stall of S3. -/
def wmtWrite (s : State) : Option (Nat × (Nat → WmtEntry)) :=
  if s.s3.val && !cfg.hpdc then
    (s.wmtWriteS3 cfg).map fun update =>
      let index := cfg.l1dIndex s.s3.address
      (index, fun l1dWay =>
        match update with
        | some way =>
            if l1dWay = s.s3.l1ReplacementWay then ⟨true, wmtData cfg s.s3.address way⟩
            else if s.wmtCompareMaskS3 cfg l1dWay then {} else s.arrays.wmt.rows index l1dWay
        | none => if s.wmtCompareMaskS3 cfg l1dWay then {} else s.arrays.wmt.rows index l1dWay)
  else none

/-- The MSHR port of S3; not guarded by the stall of S3. -/
def mshrS3Write (s : State) : MshrS3Write :=
  if s.s3.val then
    match (s.s3.ctl cfg).s3MshrOp with
    | .none => .none
    | .deallocation => .deallocation s.s3.mshrIndex
    | .deallocationIfTagcheckMes => if s.s3.tagcheckState.mes then .deallocation s.s3.mshrIndex else .none
    | .deallocationIfTagcheckMeElseUpdateStateStmshr =>
        if s.s3.tagcheckState.me then .deallocation s.s3.mshrIndex
        else .updateStState s.s3.mshrIndex (if s.s3.tagcheckState.mes then .sm else .im) s.s3.tagcheckWay
    | .updateStMshrImIfIndexTagcheckWayMatches =>
        if s.stbufCompareMatchValS3 cfg then .updateStState (s.stbufCompareMshrIndexS3 cfg) .im 0 else .none
    | .updateStMshrImIfIndexLruWayMatches =>
        if anyMatch cfg.threads (s.stbufCompareLruMatchS3 cfg) then
          .updateStState (lastMatch cfg.threads (s.stbufCompareLruMatchS3 cfg)) .im 0
        else .none
    | .updateStMshrWaitAck => .updateStState s.s3.mshrIndex .waitAck 0
  else .none

def arraysNext (s : State) (i : Input) : Arrays where
  dtag := s.dtagNext cfg i
  dtagDout := s.dtagDoutNext cfg i
  mesi := s.arrays.mesi.step
    (if s.acceptS1 cfg i && (s.ctlS1 cfg).mesiRead then some (cfg.cacheIndex (s.preS1 cfg).address) else none)
    (s.mesiWrite cfg i)
  lrsc := s.arrays.lrsc.step
    (if s.acceptS1 cfg i && (s.ctlS1 cfg).lrscFlagRead then some (cfg.cacheIndex (s.preS1 cfg).address) else none)
    (s.lrscWrite cfg i)
  lru := s.arrays.lru.step
    (if s.acceptS1 cfg i then some (cfg.cacheIndex (s.preS1 cfg).address) else none)
    (s.lruWrite cfg)
  wmt := s.arrays.wmt.step
    (if s.s2.val && !s.stallRealS2 cfg i && (s.s2.ctl cfg).wmtRead then some (cfg.l1dIndex s.s2.address) else none)
    (s.wmtWrite cfg)
  dcache := s.dcacheNext cfg i
  dcacheDout := s.dcacheDoutNext cfg i

end ArrayWrites

/-! ## The clock -/

section Clock

/-- The request of S1 as S2 takes it. -/
def s2Latch (s : State) (i : Input) : S2 :=
  let p := s.preS1 cfg
  { val := s.acceptS1 cfg i
    d := s.decoderInS1 cfg
    threadid := p.threadid
    mshrType := s.mshrTypeS1 cfg
    mshrIndex := p.mshrIndex
    address := p.address
    nonCacheable := p.nonCacheable
    size := p.size
    l1ReplacementWay := p.l1ReplacementWay
    noc2Inval := p.noc2Inval
    fwdSubcachelineVector := p.fwdSubcachelineVector
    notLastInv := s.notLastInvS1 cfg
    multicycInvordowngrade := p.multicycInvordowngrade
    noc2AckState := s.noc2.ackState
    reqSubline := cfg.reqSubline p.address
    cacheSubline := 0 }

def s2Next (s : State) (i : Input) : S2 :=
  if s.stallS2 cfg i then
    { s.s2 with
      cacheSubline := if s.s2.val && !s.stallRealS2 cfg i then s.s2.cacheSubline + 1 else s.s2.cacheSubline }
  else s.s2Latch cfg i

/-- The request of S2, or one beat of it, as S3 takes it. -/
def s3Latch (s : State) : S3 where
  val := s.s2.val
  d := s.s2.d
  tagcheckWay := s.tagcheckWayS2 cfg
  tagcheckState := s.tagcheckStateS2 cfg
  tagcheckLrscFlag := s.tagcheckLrscFlagS2 cfg
  flushWay := s.flushWayS2 cfg
  flushState := s.flushStateS2 cfg
  flushWayTag := s.arrays.dtagDout (s.flushWayS2 cfg)
  lruWay := s.lruWayS2 cfg
  lruState := s.lruStateS2 cfg
  lruWayTag := s.arrays.dtagDout (s.lruWayS2 cfg)
  threadid := s.s2.threadid
  mshrType := s.s2.mshrType
  mshrIndex := s.s2.mshrIndex
  address := s.s2.address
  nonCacheable := s.s2.nonCacheable
  size := s.s2.size
  l1ReplacementWay := s.s2.l1ReplacementWay
  noc2Inval := s.s2.noc2Inval
  fwdSubcachelineVector := s.s2.fwdSubcachelineVector
  notLastInv := s.s2.notLastInv
  cacheSubline := s.s2.cacheSubline
  noc3Wb := s.noc3WbS2 cfg
  l1Inv := s.l1InvS2 cfg
  l1InvMulticyc := s.l1InvMulticycS2 cfg
  load64B := s.load64BS2 cfg
  l1dLoad := s.l1dLoadS2 cfg
  mshrWrite := s.mshrWriteS2 cfg

def s3Next (s : State) (i : Input) : S3 := if s.stallS3 cfg i then s.s3 else s.s3Latch cfg

/-- A request that has been taken stays marked until S3 moves on. -/
def staledNext (staled set stall : Bool) : Bool := if staled then stall else set

def doutBufNext (s : State) : Nat → Word := fun j =>
  if !cfg.parallelSrams && s.s3.val && s.s3.noc3Wb && j / 2 == s.s3.cacheSubline then s.arrays.dcacheDout (j % 2)
  else s.doutBuf j

/-- One clock of the L1.5. -/
def step (s : State) (i : Input) : State where
  pcx := s.pcxNext cfg i
  pcxNew := isNewNext (s.pcxAck cfg i) (s.pcxHeaderAck cfg i) s.pcxNew
  noc2 := (s.noc2Next cfg i).1
  noc2State := (s.noc2Next cfg i).2
  noc2New := isNewNext (s.noc2Ack cfg i) (s.noc2HeaderAck cfg i) s.noc2New
  fetchState := s.fetchStateNext cfg i
  mshr := s.mshr.write cfg (s.mshrS1Write cfg i) (s.mshrS3Write cfg)
  credit := s.creditmanNext cfg i
  noc1 := s.noc1.step (s.noc1bufferReq cfg) (s.noc1Sent i)
  arrays := s.arraysNext cfg i
  s2 := s.s2Next cfg i
  s3 := s.s3Next cfg i
  cpxStaled := staledNext s.cpxStaled (!s.stallForCpxS3 cfg i && s.stallForNoc3S3 cfg i) (s.stallS3 cfg i)
  noc1Staled :=
    staledNext s.noc1Staled (s.stallForCpxS3 cfg i || s.stallForNoc3S3 cfg i) (s.stallS3 cfg i)
  noc3Staled := staledNext s.noc3Staled (!s.stallForNoc3S3 cfg i && s.stallForCpxS3 cfg i) (s.stallS3 cfg i)
  lruData := s.arrays.lru.readData
  noc2Data := if s.dcacheSublineS2 cfg = 0 then s.noc2.word else s.noc2Data
  doutBuf := s.doutBufNext cfg

end Clock

/-- After reset: what the reset does not clear (the SRAMs, the states and ways of the MSHRs) is
left open. -/
structure Init (s : State) : Prop where
  pcx : s.pcx = none
  pcxNew : s.pcxNew = true
  noc2State : s.noc2State = .idle
  noc2New : s.noc2New = true
  fetchState : s.fetchState = .normal
  mshr : ∀ i, (s.mshr i).val = false
  credit : s.credit = {}
  noc1 : s.noc1 = {}
  mesi : ∀ index way, s.arrays.mesi.rows index way = .i
  lrsc : ∀ index way, s.arrays.lrsc.rows index way = false
  lru : ∀ index, s.arrays.lru.rows index = {}
  wmt : ∀ index way, (s.arrays.wmt.rows index way).valid = false
  s2 : s.s2 = {}
  s3 : s.s3 = {}
  cpxStaled : s.cpxStaled = false
  noc1Staled : s.noc1Staled = false
  noc3Staled : s.noc3Staled = false

/-- A state after reset with the SRAMs cleared. -/
def reset : State where
  mshr := fun _ => {}
  arrays :=
    { dtag := fun _ _ => 0
      dtagDout := fun _ => 0
      mesi := ⟨fun _ _ => .i, 0⟩
      lrsc := ⟨fun _ _ => false, 0⟩
      lru := ⟨fun _ => {}, 0⟩
      wmt := ⟨fun _ _ => {}, 0⟩
      dcache := fun _ _ _ => 0
      dcacheDout := fun _ => 0 }

theorem init_reset : Init reset := by
  constructor <;> intros <;> rfl

end State

end OpenPiton.L15
